import Mathlib
import SqlFederation.Proofs.OverTables
import SqlFederation.Proofs.Recorded

/-!
# Reads stay in the pool

A replicated composition keeps its cursor between reads, while its pool shrinks, grows and changes
meaning with the policy. `Replicated.Roster` says who belongs to a composition, out of the moves
alone; `Replicated.Roster.Describes` relates it to the composition, and every move preserves that
(`Replicated.Roster.Describes.step`). A read fits the cursor to the pool that there is
(`Replicated.outcome_place`), so it reaches one of the pool, wherever the cursor stood before and
whatever is drawn (`Replicated.outcome_nextReader`). `Replicated.reads_stay_in_pool` puts both
together for all runs.
-/

namespace SqlFederation

namespace World

variable {β : Type}

/-- Two worlds that differ in cursors and draws alone. -/
def Redrawn (w w' : World β) : Prop :=
  w'.room = w.room ∧ w'.endpoints = w.endpoints

/-- One of some choices is drawn. -/
theorem outcome_draw {count : Nat} (h : 0 < count) (w : World β) :
    ∃ d w', (draw count).outcome w = (.ok d, w') ∧ d < count ∧ w.Redrawn w' := by
  cases hdraws : w.draws with
  | nil =>
    refine ⟨0, w, ?_, h, rfl, rfl⟩
    rw [draw, Call.outcome_of, hdraws]
  | cons d rest =>
    refine ⟨d % count, { w with draws := rest }, ?_, Nat.mod_lt d h, rfl, rfl⟩
    rw [draw, Call.outcome_of, hdraws]

end World

open World (Redrawn)

/-- Is this an endpoint and no composition? It never says that it has no endpoints. -/
def Connection.IsPlain {σ : Type} (connection : Connection σ) : Prop :=
  ∀ (call : Received) (s : σ), ((call.on connection).outcome s).1 ≠ .error .noEndpoints

namespace Replicated

variable {ι β : Type}

/-! ## The next reader -/

/-- The place of the next reader is one of the pool, wherever the cursor stands. -/
theorem outcome_place (link : Replicated β) {size : Nat} (h : 0 < size) (w : World β) :
    ∃ index w', (link.place size).outcome w = (.ok index, w') ∧ index < size ∧ w.Redrawn w' := by
  have hread : (Call.reading (World.cursor link.cursor)).outcome w =
      (.ok (w.cursor link.cursor), w) := rfl
  rw [place, Call.outcome_bind_of_ok hread]
  cases w.cursor link.cursor with
  | none => exact World.outcome_draw h w
  | some index =>
    dsimp only
    by_cases hfits : index < size
    · rw [if_pos hfits]
      exact ⟨index, w, rfl, hfits, rfl, rfl⟩
    · rw [if_neg hfits]
      exact World.outcome_draw h w

/-- Rotation chooses one of a pool that is not empty. -/
theorem outcome_rotate (link : Replicated β) {pool : List (Connection (World β))} (h : pool ≠ [])
    (w : World β) :
    ∃ index, ∃ hindex : index < pool.length, ∃ w',
      (link.rotate pool).outcome w = (.ok pool[index], w') ∧ w.Redrawn w' := by
  have hpos : 0 < pool.length := List.length_pos_iff.mpr h
  obtain ⟨index, placed, hplace, hindex, hroom, hends⟩ := link.outcome_place hpos w
  obtain ⟨next, drawn, hdraw, -, hroom', hends'⟩ := World.outcome_draw hpos placed
  refine ⟨index, hindex, { drawn with cursors := drawn.cursors.set link.cursor (some next) }, ?_,
    hroom'.trans hroom, hends'.trans hends⟩
  have hfull : pool.isEmpty = false := by simpa using h
  rw [rotate, hfull, if_neg Bool.false_ne_true, Call.outcome_bind_of_ok hplace,
    Call.outcome_bind_of_ok hdraw, List.getElem?_eq_getElem hindex]
  rfl

/-- A pool is part of the children. -/
theorem pool_subset (link : Replicated β) : link.pool ⊆ link.children := by
  unfold pool children
  cases link.policy with
  | any => exact List.Subset.refl _
  | primaryOnly => exact List.subset_append_left _ _
  | mirrorsOnly => exact List.subset_append_right _ _

/-- The primary answers all reads if the policy says so. -/
theorem nextReader_of_primaryOnly {link : Replicated β} (hchildren : link.children ≠ [])
    (hpolicy : link.policy = .primaryOnly) : link.nextReader = Call.done link.primary? := by
  obtain ⟨child, rest, hcons⟩ := List.exists_cons_of_ne_nil hchildren
  rw [nextReader, hcons, hpolicy]
  rfl

/-- Under another policy the pool takes turns. -/
theorem nextReader_of_ne_primaryOnly {link : Replicated β} (hchildren : link.children ≠ [])
    (hpolicy : link.policy ≠ .primaryOnly) : link.nextReader = link.rotate link.pool := by
  obtain ⟨child, rest, hcons⟩ := List.exists_cons_of_ne_nil hchildren
  rw [nextReader, hcons]
  cases hkind : link.policy with
  | primaryOnly => exact absurd hkind hpolicy
  | any => rfl
  | mirrorsOnly => rfl

/-- Without anybody in the pool nobody is chosen. -/
theorem outcome_nextReader_of_nil {link : Replicated β} (h : link.pool = []) (w : World β) :
    link.nextReader.outcome w = (.error .noEndpoints, w) := by
  by_cases hchildren : link.children = []
  · rw [nextReader, hchildren]
    rfl
  by_cases hpolicy : link.policy = .primaryOnly
  · rw [pool, hpolicy] at h
    rw [nextReader_of_primaryOnly hchildren hpolicy, primary?, Option.toList_eq_nil_iff.mp h]
    rfl
  · rw [nextReader_of_ne_primaryOnly hchildren hpolicy, h]
    rfl

/-- The next reader is one of the pool. -/
theorem outcome_nextReader {link : Replicated β} (h : link.pool ≠ []) (w : World β) :
    ∃ index, ∃ hindex : index < link.pool.length, ∃ w',
      link.nextReader.outcome w = (.ok link.pool[index], w') ∧ w.Redrawn w' := by
  have hchildren : link.children ≠ [] := fun hnil =>
    h (List.subset_nil.mp (hnil ▸ link.pool_subset))
  by_cases hpolicy : link.policy = .primaryOnly
  · rw [nextReader_of_primaryOnly hchildren hpolicy]
    cases hprimary : link.primary with
    | none =>
      rw [pool, hpolicy, hprimary] at h
      exact absurd rfl h
    | some primary =>
      have hpool : link.pool = [primary] := by
        rw [pool, hpolicy, hprimary]
        rfl
      simp only [hpool, primary?, hprimary]
      exact ⟨0, Nat.one_pos, w, rfl, rfl, rfl⟩
  · rw [nextReader_of_ne_primaryOnly hchildren hpolicy]
    exact link.outcome_rotate h w

/-! ## Reads -/

/-- A read goes to the next reader. -/
theorem on_connection_of_read (link : Replicated β) {call : Received}
    (h : call.isRead? = some true) :
    call.on link.connection = (do
      Fanout.assertChildren link.children
      let reader ← link.nextReader
      call.on reader) := by
  have hdispatch : ∀ {α : Type} (answer : α → Reply) (q : Query)
      (ask : Connection (World β) → Call (World β) α), q.isSelect = true →
      answer <$> link.dispatch q ask = (do
        Fanout.assertChildren link.children
        let reader ← link.nextReader
        answer <$> ask reader) := by
    intro α answer q ask hselect
    rw [dispatch, hselect]
    simp only [map_bind, if_true]
  cases call with
  | queryRaw sql =>
    show _ <$> link.raw sql = _
    rw [raw, Option.some.inj h]
    simp only [map_bind, if_true]
    rfl
  | queryCount q =>
    show _ <$> link.count q = _
    rw [count, Option.some.inj h]
    simp only [map_bind, if_true]
    rfl
  | query q => exact hdispatch _ q _ (Option.some.inj h)
  | queryRow q => exact hdispatch _ q _ (Option.some.inj h)
  | querySet q => exact hdispatch _ q _ (Option.some.inj h)
  | queryColumn q => exact hdispatch _ q _ (Option.some.inj h)
  | queryNumRows q => exact hdispatch _ q _ (Option.some.inj h)
  | queryNull q => exact hdispatch _ q _ (Option.some.inj h)
  | _ => cases h

/-- Without anybody in the pool a read is refused, and nothing else happens. -/
theorem outcome_read_of_nil {link : Replicated β} {call : Received}
    (hread : call.isRead? = some true) (h : link.pool = []) (w : World β) :
    (call.on link.connection).outcome w = (.error .noEndpoints, w) := by
  rw [link.on_connection_of_read hread]
  by_cases hchildren : link.children = []
  · rw [hchildren]
    rfl
  · rw [Fanout.assertChildren, if_neg (by simpa using hchildren), pure_bind]
    exact Call.outcome_bind_of_error (outcome_nextReader_of_nil h w)

/-- A read is answered by one of the pool, in a world in which cursors and draws moved on. -/
theorem outcome_read {link : Replicated β} {call : Received} (hread : call.isRead? = some true)
    (h : link.pool ≠ []) (w : World β) :
    ∃ index, ∃ hindex : index < link.pool.length, ∃ w', w.Redrawn w' ∧
      (call.on link.connection).outcome w = (call.on link.pool[index]).outcome w' := by
  have hchildren : link.children ≠ [] := fun hnil =>
    h (List.subset_nil.mp (hnil ▸ link.pool_subset))
  obtain ⟨index, hindex, w', hnext, hredrawn⟩ := outcome_nextReader h w
  refine ⟨index, hindex, w', hredrawn, ?_⟩
  rw [link.on_connection_of_read hread, Fanout.assertChildren,
    if_neg (by simpa using hchildren), pure_bind, Call.outcome_bind_of_ok hnext]

/-! ## Moves -/

/-- A connection and the label that it is put in under. -/
abbrev Labelled (ι β : Type) := ι × Connection (World β)

/-- What is done to a replicated composition. -/
inductive Move (ι β : Type) where
  | setPrimary (member : Labelled ι β)
  | addMirror (member : Labelled ι β)
  | removeMirror (index : Nat)
  | setPolicy (policy : ReadPolicy)
  | ask (call : Received)

/-- Who is put in by a move. -/
def Move.enters? : Move ι β → Option (Labelled ι β)
  | .setPrimary member | .addMirror member => some member
  | _ => none

/-- A connection under observation, all calls on which are written down under its label. -/
def observe (member : Labelled ι β) : Connection (World (β × CallLog ι)) :=
  member.2.recorded member.1

/-- A move of a composition under observation. A mirror that is not there is not taken out. -/
def Move.run : Move ι β → Replicated (β × CallLog ι) × World (β × CallLog ι) →
    Replicated (β × CallLog ι) × World (β × CallLog ι)
  | .setPrimary member, (link, w) => (link.setPrimary (observe member), w)
  | .addMirror member, (link, w) => (link.addMirror (observe member), w)
  | .removeMirror index, (link, w) =>
    match link.removeMirror index with
    | .ok (_, link') => (link', w)
    | .error _ => (link, w)
  | .setPolicy policy, (link, w) => (link.setPolicy policy, w)
  | .ask call, (link, w) => (link, ((call.on link.connection).outcome w).2)

/-- A composition without members, and what becomes of it by some moves. -/
def runMoves (cursor : Nat) (w : World β) (moves : List (Move ι β)) :
    Replicated (β × CallLog ι) × World (β × CallLog ι) :=
  moves.foldl (fun state move => move.run state) (.empty cursor, w.withLog [])

/-! ## The roster -/

/-- Who belongs to a composition. -/
structure Roster (ι β : Type) where
  primary : Option (Labelled ι β)
  mirrors : List (Labelled ι β)
  policy : ReadPolicy
  /-- Who belonged to it once: mirrors that were taken out and primaries that were replaced. -/
  gone : List (Labelled ι β)

namespace Roster

/-- Nobody. -/
def empty : Roster ι β := ⟨none, [], .any, []⟩

/-- What a move changes. -/
def step (roster : Roster ι β) : Move ι β → Roster ι β
  | .setPrimary member =>
    { roster with primary := some member, gone := roster.primary.toList ++ roster.gone }
  | .addMirror member => { roster with mirrors := roster.mirrors ++ [member] }
  | .removeMirror index =>
    { roster with
      mirrors := roster.mirrors.eraseIdx index
      gone := roster.mirrors[index]?.toList ++ roster.gone }
  | .setPolicy policy => { roster with policy := policy }
  | .ask _ => roster

/-- Who belongs to a composition behind some moves. -/
def after (moves : List (Move ι β)) : Roster ι β :=
  moves.foldl step empty

/-- Who belongs to it, the primary first. -/
def members (roster : Roster ι β) : List (Labelled ι β) :=
  roster.primary.toList ++ roster.mirrors

/-- Who may answer a read. -/
def pool (roster : Roster ι β) : List (Labelled ι β) :=
  match roster.policy with
  | .any => roster.members
  | .primaryOnly => roster.primary.toList
  | .mirrorsOnly => roster.mirrors

/-- Who ever belonged to it. -/
def ever (roster : Roster ι β) : List (Labelled ι β) :=
  roster.members ++ roster.gone

theorem pool_subset (roster : Roster ι β) : roster.pool ⊆ roster.members := by
  unfold pool members
  cases roster.policy with
  | any => exact List.Subset.refl _
  | primaryOnly => exact List.subset_append_left _ _
  | mirrorsOnly => exact List.subset_append_right _ _

/-- Has a composition the members of the roster? -/
structure Describes (roster : Roster ι β) (link : Replicated (β × CallLog ι)) : Prop where
  primary : link.primary = roster.primary.map observe
  mirrors : link.mirrors = roster.mirrors.map observe
  policy : link.policy = roster.policy

/-- A move changes a composition as it changes the roster. -/
theorem Describes.step {roster : Roster ι β} {link : Replicated (β × CallLog ι)}
    (h : roster.Describes link) (move : Move ι β) (w : World (β × CallLog ι)) :
    (roster.step move).Describes (move.run (link, w)).1 := by
  cases move with
  | setPrimary member => exact ⟨rfl, h.mirrors, h.policy⟩
  | addMirror member =>
    refine ⟨h.primary, ?_, h.policy⟩
    show link.mirrors ++ [observe member] = (roster.mirrors ++ [member]).map observe
    rw [h.mirrors, List.map_append, List.map_singleton]
  | removeMirror index =>
    have hmirrors : (link.mirrors.eraseIdx index) =
        (roster.mirrors.eraseIdx index).map observe := by
      rw [h.mirrors, List.eraseIdx_map]
    unfold Move.run Replicated.removeMirror
    dsimp only
    cases hmirror : link.mirrors[index]? with
    | some mirror => exact ⟨h.primary, hmirrors, h.policy⟩
    | none =>
      rw [List.eraseIdx_of_length_le (List.getElem?_eq_none_iff.mp hmirror)] at hmirrors
      exact ⟨h.primary, hmirrors, h.policy⟩
  | setPolicy policy => exact ⟨h.primary, h.mirrors, rfl⟩
  | ask call => exact h

/-- Behind any moves the roster has the members of the composition. -/
theorem describes_after (cursor : Nat) (w : World β) (moves : List (Move ι β)) :
    (after moves).Describes (runMoves cursor w moves).1 := by
  induction moves using List.reverseRecOn with
  | nil => exact ⟨rfl, rfl, rfl⟩
  | append_singleton moves move ih =>
    rw [after, runMoves, List.foldl_append, List.foldl_append]
    exact ih.step move _

theorem Describes.pool_eq {roster : Roster ι β} {link : Replicated (β × CallLog ι)}
    (h : roster.Describes link) : link.pool = roster.pool.map observe := by
  unfold Replicated.pool Roster.pool children members
  rw [h.policy, h.primary, h.mirrors]
  cases roster.policy with
  | any => rw [List.map_append, Option.toList_map]
  | primaryOnly => exact Option.toList_map
  | mirrorsOnly => rfl

/-- Whoever was put in is a member or was one. -/
theorem perm_ever_step (roster : Roster ι β) (move : Move ι β) :
    (roster.step move).ever.Perm (roster.ever ++ move.enters?.toList) := by
  have htaken : ∀ index, (roster.mirrors[index]?.toList ++ roster.mirrors.eraseIdx index).Perm
      roster.mirrors := by
    intro index
    cases hmirror : roster.mirrors[index]? with
    | none =>
      rw [List.eraseIdx_of_length_le (List.getElem?_eq_none_iff.mp hmirror)]
      exact .refl _
    | some mirror =>
      obtain ⟨hindex, rfl⟩ := List.getElem?_eq_some_iff.mp hmirror
      exact List.getElem_cons_eraseIdx_perm hindex
  -- As multisets both sides are sums, the parts of which change places.
  rw [← Multiset.coe_eq_coe]
  cases move with
  | setPrimary member =>
    simp only [ever, members, step, Move.enters?, Option.toList_some, ← Multiset.coe_add]
    abel
  | addMirror member =>
    simp only [ever, members, step, Move.enters?, Option.toList_some, ← Multiset.coe_add]
    abel
  | removeMirror index =>
    have hmirrors := Multiset.coe_eq_coe.mpr (htaken index)
    simp only [ever, members, step, Move.enters?, Option.toList_none, List.append_nil,
      ← Multiset.coe_add] at hmirrors ⊢
    rw [← hmirrors]
    abel
  | setPolicy policy => simp [ever, members, step, Move.enters?]
  | ask call => simp [ever, members, step, Move.enters?]

theorem perm_ever_after (moves : List (Move ι β)) :
    (after moves).ever.Perm (moves.filterMap Move.enters?) := by
  induction moves using List.reverseRecOn with
  | nil => exact .nil
  | append_singleton moves move ih =>
    rw [after, List.foldl_append, List.filterMap_append, List.filterMap_cons]
    exact (perm_ever_step _ move).trans (ih.append_right _)

/-- Under labels of their own, members are told from those who are gone. -/
theorem label_notMem_gone {moves : List (Move ι β)}
    (hlabels : ((moves.filterMap Move.enters?).map Prod.fst).Nodup) {member : Labelled ι β}
    (hmember : member ∈ (after moves).members) :
    member.1 ∉ (after moves).gone.map Prod.fst := by
  have hever : ((after moves).ever.map Prod.fst).Nodup :=
    ((perm_ever_after moves).map Prod.fst).nodup_iff.mpr hlabels
  rw [ever, List.map_append] at hever
  exact List.disjoint_of_nodup_append hever (List.mem_map_of_mem hmember)

end Roster

/--
Reads stay in the pool. For every run of moves that put connections in under labels of their own,
every read behind it, wherever the cursor stands and whatever is drawn, goes to one member of the
pool that the policy allows, which is asked once and nobody else, and is not among those who are
gone. Its answer is the answer to the read. If the pool is empty the read is refused, and nobody is
asked; if the members are no compositions themselves, it is refused only then.
-/
theorem reads_stay_in_pool (cursor : Nat) (start : World β) (moves : List (Move ι β))
    (hlabels : ((moves.filterMap Move.enters?).map Prod.fst).Nodup)
    (hplain : ∀ member ∈ moves.filterMap Move.enters?, member.2.IsPlain) {call : Received}
    (hread : call.isRead? = some true) :
    let roster := Roster.after moves
    let link := (runMoves cursor start moves).1
    let w := (runMoves cursor start moves).2
    let answer := (call.on link.connection).outcome w
    (answer.1 = .error .noEndpoints ↔ roster.pool = []) ∧
    (roster.pool = [] → answer.2 = w) ∧
    (roster.pool ≠ [] →
      ∃ index, ∃ hindex : index < roster.pool.length, ∃ between : World β,
        w.unlogged.Redrawn between ∧
        roster.pool[index].1 ∉ roster.gone.map Prod.fst ∧
        answer.1 = ((call.on roster.pool[index].2).outcome between).1 ∧
        answer.2 = ((call.on roster.pool[index].2).outcome between).2.withLog
          (w.endpoints.2 ++ [(roster.pool[index].1, call)])) ∧
    (link.pool ≠ [] → ∃ index w', (link.place link.pool.length).outcome w = (.ok index, w') ∧
      index < link.pool.length) := by
  intro roster link w answer
  have hpool : link.pool = roster.pool.map observe :=
    (Roster.describes_after cursor start moves).pool_eq
  by_cases hnobody : roster.pool = []
  · have hempty : link.pool = [] := by rw [hpool, hnobody, List.map_nil]
    have hanswer : answer = (.error .noEndpoints, w) := outcome_read_of_nil hread hempty w
    refine ⟨⟨fun _ => hnobody, fun _ => by rw [hanswer]⟩, fun _ => by rw [hanswer],
      fun hsome => absurd hnobody hsome, fun hsome => absurd hempty hsome⟩
  · have hsome : link.pool ≠ [] := by rwa [hpool, ne_eq, List.map_eq_nil_iff]
    obtain ⟨index, hindex, w', ⟨hroom, hends⟩, hanswer⟩ := outcome_read hread hsome w
    have hindex' : index < roster.pool.length := by rwa [hpool, List.length_map] at hindex
    have hreader : link.pool[index] = observe roster.pool[index] := by
      simp only [hpool, List.getElem_map]
    have hmember : roster.pool[index] ∈ roster.members :=
      roster.pool_subset (List.getElem_mem hindex')
    -- The reader is asked under observation: it answers as it does, and is in the log once.
    have hobserved : answer = (((call.on roster.pool[index].2).outcome w'.unlogged).1,
        ((call.on roster.pool[index].2).outcome w'.unlogged).2.withLog
          (w.endpoints.2 ++ [(roster.pool[index].1, call)])) :=
      calc answer
        _ = (call.on (observe roster.pool[index])).outcome w' := by rw [← hreader, ← hanswer]
        _ = (World.recording roster.pool[index].1 call (call.on roster.pool[index].2)).outcome
            (w'.unlogged.withLog w'.endpoints.2) := by rw [observe, Received.on_recorded]; rfl
        _ = _ := by rw [World.outcome_recording, hends]
    have hentered : roster.pool[index] ∈ moves.filterMap Move.enters? :=
      (Roster.perm_ever_after moves).mem_iff.mp (List.mem_append_left _ hmember)
    refine ⟨⟨fun hrefused => ?_, fun hnil => absurd hnil hnobody⟩, fun hnil => absurd hnil hnobody,
      fun _ => ⟨index, hindex', w'.unlogged, ⟨hroom, congrArg Prod.fst hends⟩,
        Roster.label_notMem_gone hlabels hmember, congrArg Prod.fst hobserved,
        congrArg Prod.snd hobserved⟩, fun _ => ?_⟩
    · rw [hobserved] at hrefused
      exact absurd hrefused (hplain _ hentered call _)
    · obtain ⟨place, w', hplace, hfits, -⟩ := link.outcome_place (List.length_pos_iff.mpr hsome) w
      exact ⟨place, w', hplace, hfits⟩

open RowTable (Reading)

/-- A database of plain tables is no composition. -/
theorem isPlain_table (number : ShardId) :
    ((Reading.integers "id").connection number).IsPlain := by
  intro call w
  cases call <;> exact nofun

/-- All users. -/
def allUsers : Received := .querySet (.select (Select.all "users"))

/-- A primary and two mirrors, a read from the mirrors, and one mirror less. -/
def oneMirrorLess : List (Move Nat RowTable.Tables) :=
  [.setPrimary (0, (Reading.integers "id").connection 0),
    .addMirror (1, (Reading.integers "id").connection 1),
    .addMirror (2, (Reading.integers "id").connection 2),
    .setPolicy .mirrorsOnly, .ask allUsers, .removeMirror 0]

/-- A world with a cursor, in which the first mirror and then the second one is drawn. -/
def drawnWorld : World RowTable.Tables where
  room := ⟨0, 1, [], ⟨[], []⟩, [], []⟩
  cursors := [none]
  draws := [0, 1, 5]
  endpoints := fun _ _ => []

/-- The cursor stands behind the mirrors that are left; the read goes to the one that is. -/
theorem reads_stay_in_pool_oneMirrorLess :
    let link := (runMoves 0 drawnWorld oneMirrorLess).1
    let w := (runMoves 0 drawnWorld oneMirrorLess).2
    w.cursor 0 = some 1 ∧ link.pool.length = 1 ∧
      ((allUsers.on link.connection).outcome w).1 ≠ .error .noEndpoints ∧
      ((allUsers.on link.connection).outcome w).2.endpoints.2 = [(1, allUsers), (2, allUsers)] := by
  intro link w
  have hplain : ∀ member ∈ oneMirrorLess.filterMap Move.enters?, member.2.IsPlain := by
    have hentered : oneMirrorLess.filterMap Move.enters? =
        [0, 1, 2].map fun n => (n, (Reading.integers "id").connection n) := rfl
    rw [hentered, List.forall_mem_map, List.forall_mem_cons, List.forall_mem_cons,
      List.forall_mem_singleton]
    exact ⟨isPlain_table 0, isPlain_table 1, isPlain_table 2⟩
  have hread : allUsers.isRead? = some true := rfl
  obtain ⟨hrefused, -, hreader, -⟩ :=
    reads_stay_in_pool 0 drawnWorld oneMirrorLess (by decide) hplain hread
  have hpool : (Roster.after oneMirrorLess).pool =
      [(2, (Reading.integers "id").connection 2)] := rfl
  rw [hpool] at hrefused hreader
  obtain ⟨index, hindex, between, -, -, -, hworld⟩ := hreader (List.cons_ne_nil _ _)
  obtain rfl : index = 0 := Nat.lt_one_iff.mp hindex
  refine ⟨rfl, rfl, fun h => List.cons_ne_nil _ _ (hrefused.mp h), ?_⟩
  rw [hworld]
  rfl

end Replicated

end SqlFederation
