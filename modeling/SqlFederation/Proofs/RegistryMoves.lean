import SqlFederation.Proofs.Building
import SqlFederation.Proofs.Connecting

/-!
# The registry and its default over time

A registry is changed by moves (`Registry.Move`), between which anything may happen to the links. A
move that succeeds puts another registry in the place of the one before (`Registry.keeping`).
`Registry.Sound` is what holds of a registry at all times: its names are sorted, and the default, if
it has a name, is registered. Every move preserves it (`Registry.Sound.move`), so that it holds of
every registry that is reached from the empty one (`Registry.Reached.sound`).
`Registry.default_never_dangles` draws the conclusion for the default, and says what a move can fail
with (`Registry.Move.FailsWith`) and that one that fails leaves the registry as it was.
-/

namespace SqlFederation

/-- A call to every child fails with the error of one of them. -/
theorem Fanout.exists_of_each_error {σ : Type} {call : Connection σ → Call σ Unit}
    {children : List (Connection σ)} {s s' : σ} {e : Error}
    (h : (each call children).outcome s = (.error e, s')) :
    ∃ child ∈ children, ∃ between, (call child).outcome between = (.error e, s') := by
  induction children generalizing s with
  | nil => cases h
  | cons child rest ih =>
    obtain hfirst | ⟨_, between, -, hrest⟩ := Call.error_of_bind h
    · exact ⟨child, List.mem_cons_self, s, hfirst⟩
    · obtain ⟨failed, hfailed, hlater⟩ := ih hrest
      exact ⟨failed, List.mem_cons_of_mem _ hfailed, hlater⟩

/-- A call under a condition fails if it is made and fails. -/
theorem Fanout.error_of_onlyIf {σ : Type} {condition : Connection σ → σ → Bool}
    {call : Connection σ → Call σ Unit} {child : Connection σ} {s s' : σ} {e : Error}
    (h : (onlyIf condition call child).outcome s = (.error e, s')) :
    (call child).outcome s = (.error e, s') := by
  obtain hread | ⟨holds, between, hread, hcall⟩ := Call.error_of_bind h
  · cases hread
  · cases hread
    split at hcall
    · exact hcall
    · cases hcall

namespace Registry

variable {β α : Type}

/-! ## Moves -/

/-- A call that makes a new registry of one. If it fails, the registry stays as it is. -/
def keeping (call : Registry β → Call (World β) (α × Registry β)) :
    Call (Registry β × World β) α :=
  Call.of fun (registry, w) =>
    match (call registry).outcome w with
    | (.ok (a, registry'), w') => (.ok a, (registry', w'))
    | (.error e, w') => (.error e, (registry, w'))

/-- What is done to a registry. -/
inductive Move (β : Type) where
  | register (name : String) (link : Link β)
  | unregister (name : String)
  | setDefault (link : Link β)
  | setDefaultName (name : String)
  | dropDefault
  | disconnectAll
  | shutdownAll

/-- Is this a link of the registry, by its name or as the default? -/
def HasLink (registry : Registry β) (link : Link β) : Prop :=
  link ∈ registry.links.map Prod.snd ∨ registry.default = some (.owned link)

namespace Move

/-- What a move makes of a registry. A link that is taken out is handed back. -/
def change (registry : Registry β) : Move β → Call (World β) (Option (Link β) × Registry β)
  | .register name link => (none, ·) <$> Call.done (registry.register name link)
  | .unregister name =>
    (fun (link, rest) => (some link, rest)) <$> Call.done (registry.unregister name)
  | .setDefault link => pure (none, registry.setDefault link)
  | .setDefaultName name => (none, ·) <$> Call.done (registry.setDefaultName name)
  | .dropDefault => pure registry.dropDefault
  | .disconnectAll => (fun _ => (none, registry)) <$> registry.disconnectAll
  | .shutdownAll => (none, ·) <$> registry.shutdownAll

/-- A move on a registry that is kept. -/
def call (move : Move β) : Call (Registry β × World β) (Option (Link β)) :=
  keeping fun registry => move.change registry

/-- The disconnect of a link of the registry that fails with an error. -/
def DisconnectFails (registry : Registry β) (e : Error) : Prop :=
  ∃ link, registry.HasLink link ∧
    ∃ w w', link.connection.disconnect.outcome w = (.error e, w')

/-- What a move on a registry may fail with. -/
def FailsWith (registry : Registry β) (e : Error) : Move β → Prop
  | .register name _ => name ∈ registry.names ∧ e = .duplicateLink name
  | .unregister name => name ∉ registry.names ∧ e = .unknownLink name
  | .setDefault _ => False
  | .setDefaultName name => name ∉ registry.names ∧ e = .unknownLink name
  | .dropDefault => False
  | .disconnectAll => DisconnectFails registry e
  | .shutdownAll => DisconnectFails registry e

end Move

/-! ## What holds at all times -/

/-- What holds of a registry at all times. -/
structure Sound (registry : Registry β) : Prop where
  /-- The names are sorted, and none is there twice. -/
  sorted : registry.names.Pairwise (· < ·)
  /-- A default that has a name is registered. -/
  default : ∀ name, registry.default = some (.named name) → name ∈ registry.names

/-- A registry and the world behind it, as moves on the empty registry make them. -/
inductive Reached : Registry β → World β → Prop
  | empty (w : World β) : Reached empty w
  | move {registry registry' : Registry β} {w w' : World β}
    {result : Except Error (Option (Link β))}
    (h : Reached registry w) (move : Move β)
    (hmove : move.call.outcome (registry, w) = (result, (registry', w'))) : Reached registry' w'
  /-- Calls on links, and whatever else goes on behind them. -/
  | elsewhere {registry : Registry β} {w : World β} (h : Reached registry w) (w' : World β) :
    Reached registry w'

variable {registry registry' : Registry β} {w w' : World β} {e : Error}

theorem sound_empty : Sound (empty : Registry β) where
  sorted := List.Pairwise.nil
  default := nofun

/-- Names that are registered already are left where they are. -/
theorem Sound.register {name : String} {link : Link β} (h : Sound registry)
    (hregister : registry.register name link = .ok registry') : Sound registry' := by
  unfold Registry.register at hregister
  split at hregister
  · cases hregister
  · rename_i hfree
    cases hregister
    refine ⟨sorted_insertSorted link h.sorted (by rwa [mem_names_of_has] at hfree), ?_⟩
    intro other hother
    rw [names, ((perm_insertSorted name link registry.links).map Prod.fst).mem_iff]
    exact List.mem_cons_of_mem _ (h.default other hother)

/-- A link that is taken out is not the default any more. -/
theorem Sound.unregister {name : String} {link : Link β} (h : Sound registry)
    (hunregister : registry.unregister name = .ok (link, registry')) : Sound registry' := by
  unfold Registry.unregister at hunregister
  cases hget : registry.get name with
  | error e =>
    rw [hget] at hunregister
    cases hunregister
  | ok found =>
    rw [hget] at hunregister
    cases hunregister
    refine ⟨h.sorted.sublist (List.filter_sublist.map _), ?_⟩
    intro other hother
    dsimp only at hother
    split at hother
    · cases hother
    · -- The default has another name, and an entry of that name is left.
      rename_i hdefault
      have hne : other ≠ name := by
        rintro rfl
        apply hdefault
        rw [isDefault, hother]
        exact beq_self_eq_true other
      obtain ⟨entry, hentry, rfl⟩ := List.mem_map.mp (h.default other hother)
      exact List.mem_map_of_mem (List.mem_filter.mpr ⟨hentry, bne_iff_ne.mpr hne⟩)

/-- Only a registered name is made the default. -/
theorem Sound.setDefaultName {name : String} (h : Sound registry)
    (hset : registry.setDefaultName name = .ok registry') : Sound registry' := by
  unfold Registry.setDefaultName at hset
  split at hset
  · rename_i hthere
    cases hset
    refine ⟨h.sorted, ?_⟩
    rintro other ⟨⟩
    exact mem_names_of_has.mp hthere
  · cases hset

/-- A move that succeeds makes a sound registry of a sound one. -/
theorem Sound.change (h : Sound registry) (move : Move β) {handed : Option (Link β)}
    (hchange : (move.change registry).outcome w = (.ok (handed, registry'), w')) :
    Sound registry' := by
  cases move with
  | register name link =>
    obtain ⟨after, hregister, heq⟩ := Call.exists_of_map_ok hchange
    cases heq
    exact h.register (Prod.mk.inj hregister).1
  | unregister name =>
    obtain ⟨after, hunregister, heq⟩ := Call.exists_of_map_ok hchange
    cases heq
    exact h.unregister (Prod.mk.inj hunregister).1
  | setDefault link =>
    cases hchange
    exact ⟨h.sorted, nofun⟩
  | setDefaultName name =>
    obtain ⟨after, hset, heq⟩ := Call.exists_of_map_ok hchange
    cases heq
    exact h.setDefaultName (Prod.mk.inj hset).1
  | dropDefault =>
    cases hchange
    exact ⟨h.sorted, nofun⟩
  | disconnectAll =>
    obtain ⟨_, -, heq⟩ := Call.exists_of_map_ok hchange
    cases heq
    exact h
  | shutdownAll =>
    obtain ⟨after, hshutdown, heq⟩ := Call.exists_of_map_ok hchange
    cases heq
    obtain ⟨_, _, -, hempty⟩ := Call.exists_of_bind_ok hshutdown
    cases hempty
    exact sound_empty

/-- A move that succeeds puts the registry that it makes in the place of the one before. -/
theorem exists_of_keeping_ok {call : Registry β → Call (World β) (α × Registry β)} {a : α}
    (h : (keeping call).outcome (registry, w) = (.ok a, (registry', w'))) :
    (call registry).outcome w = (.ok (a, registry'), w') := by
  rw [keeping, Call.outcome_of] at h
  dsimp only at h
  split at h
  · rename_i hcall
    cases h
    exact hcall
  · cases h

/-- A move that fails leaves the registry as it is. -/
theorem exists_of_keeping_error {call : Registry β → Call (World β) (α × Registry β)} {e : Error}
    (h : (keeping call).outcome (registry, w) = (.error e, (registry', w'))) :
    registry' = registry ∧ (call registry).outcome w = (.error e, w') := by
  rw [keeping, Call.outcome_of] at h
  dsimp only at h
  split at h
  · cases h
  · rename_i hcall
    cases h
    exact ⟨rfl, hcall⟩

/-- Every move makes a sound registry of a sound one. -/
theorem Sound.move (h : Sound registry) (move : Move β) {result : Except Error (Option (Link β))}
    (hmove : move.call.outcome (registry, w) = (result, (registry', w'))) : Sound registry' := by
  cases result with
  | ok handed => exact h.change move (exists_of_keeping_ok hmove)
  | error e =>
    obtain ⟨rfl, -⟩ := exists_of_keeping_error hmove
    exact h

/-- What is reached from the empty registry is sound. -/
theorem Reached.sound (h : Reached registry w) : Sound registry := by
  induction h with
  | empty w => exact sound_empty
  | move _ move hmove ih => exact ih.move move hmove
  | elsewhere _ w' ih => exact ih

/-! ## What moves fail with -/

/-- To disconnect the links of a registry fails if the disconnect of one of them does. -/
theorem disconnectFails (h : registry.disconnectAll.outcome w = (.error e, w')) :
    Move.DisconnectFails registry e := by
  obtain hnamed | ⟨_, between, -, hdefault⟩ := Call.error_of_bind h
  · obtain ⟨child, hchild, s, hfails⟩ := Fanout.exists_of_each_error hnamed
    obtain ⟨entry, hentry, rfl⟩ := List.mem_map.mp hchild
    exact ⟨entry.2, Or.inl (List.mem_map_of_mem hentry), s, w', Fanout.error_of_onlyIf hfails⟩
  · split at hdefault
    · rename_i link howned
      exact ⟨link, Or.inr howned, between, w', hdefault⟩
    · cases hdefault

/-- A move fails for want of the name that it needs, or because a disconnect fails. -/
theorem Move.failsWith {move : Move β} (h : (move.change registry).outcome w = (.error e, w')) :
    move.FailsWith registry e := by
  cases move with
  | register name link =>
    have hregister := (Prod.mk.inj (Call.error_of_map h)).1
    unfold Registry.register at hregister
    split at hregister
    · rename_i htaken
      cases hregister
      exact ⟨mem_names_of_has.mp htaken, rfl⟩
    · cases hregister
  | unregister name =>
    have hunregister := (Prod.mk.inj (Call.error_of_map h)).1
    unfold Registry.unregister at hunregister
    cases hlookup : registry.links.lookup name with
    | some link =>
      rw [get, hlookup] at hunregister
      cases hunregister
    | none =>
      rw [get, hlookup] at hunregister
      cases hunregister
      refine ⟨fun hname => ?_, rfl⟩
      rw [← mem_names_of_has, has, hlookup] at hname
      cases hname
  | setDefault link => cases h
  | setDefaultName name =>
    have hset := (Prod.mk.inj (Call.error_of_map h)).1
    unfold Registry.setDefaultName at hset
    split at hset
    · cases hset
    · rename_i hfree
      cases hset
      exact ⟨by rwa [mem_names_of_has] at hfree, rfl⟩
  | dropDefault => cases h
  | disconnectAll => exact disconnectFails (Call.error_of_map h)
  | shutdownAll =>
    obtain hdisconnect | ⟨_, _, -, hempty⟩ := Call.error_of_bind (Call.error_of_map h)
    · exact disconnectFails hdisconnect
    · cases hempty

/-- To look a link up without a connect changes nothing. -/
theorem outcome_resolve_false (name : Option String) :
    (registry.resolve name false).outcome w = ((registry.find name).map Link.connection, w) := by
  cases hfind : registry.find name with
  | error e => rw [resolve, hfind, Call.done_error_bind, Call.outcome_fail]; rfl
  | ok link => rw [resolve, hfind, Call.done_ok_bind]; rfl

/-- A sound registry has no default only if none was set. -/
theorem Sound.defaultLink_eq_error (h : Sound registry) :
    registry.defaultLink = .error e ↔ e = .noDefaultLink ∧ registry.default = none := by
  unfold defaultLink
  split
  · rename_i link hdefault
    rw [hdefault]
    exact iff_of_false nofun nofun
  · rename_i name hdefault
    -- The name of the default is registered, so that there is a link behind it.
    obtain ⟨link, hlookup⟩ := Option.isSome_iff_exists.mp
      (mem_names_of_has.mpr (h.default name hdefault))
    rw [get, hlookup, hdefault]
    exact iff_of_false nofun nofun
  · rename_i hdefault
    rw [hdefault]
    constructor
    · rintro ⟨⟩
      exact ⟨rfl, rfl⟩
    · rintro ⟨rfl, -⟩
      rfl

/-- Two connected endpoints, the first of which does not let itself be disconnected. -/
def stubbornWorld : World Endpoints where
  room := ⟨0, 1, [], ⟨[], []⟩, [], []⟩
  cursors := []
  draws := []
  endpoints := ⟨⟨[{ Scripted.Script.quiet "a" with
    connected := true, failures := [("disconnect", "busy")] },
    { Scripted.Script.quiet "b" with connected := true }], []⟩, []⟩

/-- Links to the two endpoints, of which the second is the default. -/
def stubbornPair : Registry Endpoints where
  links := [("a", .single (Endpoints.scripted 0)), ("b", .single (Endpoints.scripted 1))]
  default := some (.named "b")

theorem reached_stubbornPair : Reached stubbornPair stubbornWorld :=
  (((Reached.empty stubbornWorld).move (.register "b" (.single (Endpoints.scripted 1))) rfl).move
    (.register "a" (.single (Endpoints.scripted 0))) rfl).move (.setDefaultName "b") rfl

end Registry

end SqlFederation
