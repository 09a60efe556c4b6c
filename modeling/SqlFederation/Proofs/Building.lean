import Mathlib.Data.List.Nodup
import Mathlib.Data.List.Pairwise
import Mathlib.Data.String.Basic
import SqlFederation.Config.Build
import SqlFederation.Proofs.Outcome
import SqlFederation.Proofs.Rows

/-!
# What a configuration builds

A configuration is checked before it is built: `Config.Checked` lists what a check that passes says
about the names in it. The links are then built step by step. Compositions take their databases
(`Config.takeLink`) and are registered; what is left is registered under its own name.

`LocatedConfig.build_of_check` says that none of these steps can fail on account of a name: the only
errors that are left are about the numbers and the ranges of shards (`Error.IsShardFault`). When the
build succeeds, the registry has the names of the compositions and of the databases that they leave,
each database is held by exactly one link, and the default is registered.

Between two steps, `Config.Holds` says which databases each registered link holds, by their names in
the configuration, and what is left is what none of them holds (`Config.leftOf`). Each step either
goes on from there or ends with something wrong about a shard (`Config.Builds`). That databases of
different names are different ones is `Endpoints.database_injective`.
-/

namespace SqlFederation

/-- What can be wrong with the shards of a configuration that makes sense. -/
inductive Error.IsShardFault : Error → Prop
  | duplicate (shard : ShardId) : IsShardFault (.duplicateShard shard)
  | unknown (shard : ShardId) : IsShardFault (.unknownShard shard)
  | inverted (min max : Int) : IsShardFault (.config (.invertedRange min max))

/-- The databases of a sharded link, by name. -/
def ShardedEntry.children (entry : ShardedEntry) : List String :=
  entry.shards.map ShardEntry.link

/-- The databases of a replicated link, by name. -/
def ReplicatedEntry.children (entry : ReplicatedEntry) : List String :=
  entry.primary :: entry.mirrors

/-- The databases of a link. -/
def Link.children {β : Type} : Link β → List (Connection (World β))
  | .single connection => [connection]
  | .sharded link => link.children
  | .replicated link => link.children

namespace Config

/-- The databases that no composition asks for. -/
def freeNames (config : Config) : List String :=
  (config.links.map Prod.fst).filter fun name => !(config.claims.map Prod.fst).contains name

/-! ## What the check says -/

variable {config : Config}

theorem mem_links_of_hasLink {name : String} :
    config.hasLink name = true ↔ name ∈ config.links.map Prod.fst :=
  isSome_lookup_iff

/-- Claims that pass are on different databases that are there, none of which was used before. -/
theorem nodup_of_checkClaims {used : List String} {claims : List (String × String)}
    (h : config.checkClaims used claims = .ok ()) :
    (∀ name ∈ claims.map Prod.fst, name ∉ used ∧ name ∈ config.links.map Prod.fst) ∧
      (claims.map Prod.fst).Nodup := by
  induction claims generalizing used with
  | nil => exact ⟨fun _ hname => absurd hname List.not_mem_nil, List.nodup_nil⟩
  | cons claim rest ih =>
    obtain ⟨link, owner⟩ := claim
    rw [checkClaims] at h
    split at h
    · cases h
    · rename_i hlink
      split at h
      · cases h
      · rename_i hused
        obtain ⟨hrest, hnodup⟩ := ih h
        rw [Bool.not_eq_true, Bool.not_eq_false', mem_links_of_hasLink] at hlink
        rw [List.contains_iff_mem] at hused
        rw [List.map_cons, List.forall_mem_cons, List.nodup_cons]
        refine ⟨⟨⟨hused, hlink⟩, fun name hname => ⟨?_, (hrest name hname).2⟩⟩, ?_, hnodup⟩
        · exact fun hmem => (hrest name hname).1 (List.mem_cons_of_mem link hmem)
        · exact fun hmem => (hrest link hmem).1 List.mem_cons_self

/-- Names of compositions that pass are different, and none is that of a database. -/
theorem nodup_of_checkNames {earlier names : List String}
    (h : config.checkNames earlier names = .ok ()) :
    (∀ name ∈ names, name ∉ earlier ∧ name ∉ config.links.map Prod.fst) ∧ names.Nodup := by
  induction names generalizing earlier with
  | nil => exact ⟨fun _ hname => absurd hname List.not_mem_nil, List.nodup_nil⟩
  | cons name rest ih =>
    rw [checkNames] at h
    split at h
    · cases h
    · rename_i hfresh
      obtain ⟨hrest, hnodup⟩ := ih h
      rw [Bool.or_eq_true, not_or, mem_links_of_hasLink, List.contains_iff_mem] at hfresh
      rw [List.forall_mem_cons, List.nodup_cons]
      refine ⟨⟨hfresh.symm, fun other hother => ⟨?_, (hrest other hother).2⟩⟩, ?_, hnodup⟩
      · exact fun hmem => (hrest other hother).1 (List.mem_cons_of_mem name hmem)
      · exact fun hmem => (hrest name hmem).1 List.mem_cons_self

/-- What a configuration that passes the check says about its names. -/
structure Checked (config : Config) : Prop where
  /-- Every database is asked for once at most. -/
  nodup_claims : (config.claims.map Prod.fst).Nodup
  /-- What is asked for is there. -/
  claims_subset : ∀ name ∈ config.claims.map Prod.fst, name ∈ config.links.map Prod.fst
  /-- Compositions have different names. -/
  nodup_names : config.compositionNames.Nodup
  /-- No composition has the name of a database. -/
  names_fresh : ∀ name ∈ config.compositionNames, name ∉ config.links.map Prod.fst
  /-- The default is the name of a composition or of a database that no composition asks for. -/
  default_named : ∀ name, config.default = some name →
    name ∈ config.compositionNames ++ config.freeNames

theorem checked_of_check (h : config.check = .ok ()) : config.Checked := by
  unfold check at h
  cases hclaims : config.checkClaims [] config.claims with
  | error e =>
    rw [hclaims] at h
    cases h
  | ok _ =>
    cases hnames : config.checkNames [] config.compositionNames with
    | error e =>
      rw [hclaims, hnames] at h
      cases h
    | ok _ =>
      rw [hclaims, hnames] at h
      have hdefault : config.checkDefault = .ok () := h
      obtain ⟨hlinks, hnodup⟩ := nodup_of_checkClaims hclaims
      obtain ⟨hfresh, hdistinct⟩ := nodup_of_checkNames hnames
      refine ⟨hnodup, fun name hname => (hlinks name hname).2, hdistinct,
        fun name hname => (hfresh name hname).2, ?_⟩
      intro name hname
      rw [checkDefault, hname] at hdefault
      dsimp only at hdefault
      split at hdefault
      · rename_i hnamed
        rw [isNamed, Bool.or_eq_true, List.contains_iff_mem, Bool.and_eq_true,
          mem_links_of_hasLink] at hnamed
        rw [List.mem_append, freeNames, List.mem_filter]
        exact hnamed
      · cases hdefault

end Config

/-! ## What a registry holds -/

namespace Registry

variable {β : Type} {registry : Registry β}

theorem mem_names_of_has {name : String} : registry.has name = true ↔ name ∈ registry.names :=
  isSome_lookup_iff

theorem perm_insertSorted (name : String) (link : Link β) (links : List (String × Link β)) :
    (insertSorted name link links).Perm ((name, link) :: links) := by
  induction links with
  | nil => exact List.Perm.refl _
  | cons entry rest ih =>
    rw [insertSorted]
    split
    · exact List.Perm.refl _
    · exact (ih.cons entry).trans (List.Perm.swap (name, link) entry rest)

/-- A name that is not there yet is put in its place. -/
theorem sorted_insertSorted {name : String} {links : List (String × Link β)} (link : Link β)
    (hsorted : (links.map Prod.fst).Pairwise (· < ·)) (hname : name ∉ links.map Prod.fst) :
    ((insertSorted name link links).map Prod.fst).Pairwise (· < ·) := by
  induction links with
  | nil => exact List.pairwise_singleton _ _
  | cons entry rest ih =>
    obtain ⟨other, l⟩ := entry
    rw [List.map_cons, List.mem_cons, not_or] at hname
    rw [List.map_cons, List.pairwise_cons] at hsorted
    rw [insertSorted]
    split
    · rename_i hlt
      rw [List.map_cons, List.map_cons, List.pairwise_cons, List.pairwise_cons]
      refine ⟨?_, hsorted⟩
      rw [List.forall_mem_cons]
      exact ⟨hlt, fun later hlater => lt_trans hlt (hsorted.1 later hlater)⟩
    · rename_i hlt
      rw [List.map_cons, List.pairwise_cons]
      refine ⟨?_, ih hsorted.2 hname.2⟩
      intro later hlater
      rw [((perm_insertSorted name link rest).map Prod.fst).mem_iff, List.map_cons,
        List.mem_cons] at hlater
      obtain rfl | hlater := hlater
      · exact lt_of_le_of_ne (not_lt.mp hlt) (Ne.symm hname.1)
      · exact hsorted.1 later hlater

end Registry

namespace Config

/-- The databases that are left when some have been taken. -/
def leftOf (opened : FreeLinks) (taken : List String) : FreeLinks :=
  opened.filter fun entry => !taken.contains entry.1

/-- The databases with some names. -/
def chosen (opened : FreeLinks) (names : List String) : List (Connection (World Endpoints)) :=
  names.filterMap fun name => opened.lookup name

theorem chosen_append (opened : FreeLinks) (front back : List String) :
    chosen opened (front ++ back) = chosen opened front ++ chosen opened back :=
  List.filterMap_append

/-- What is known of a registry that holds some links, each with its databases by name. -/
structure Holds (opened : FreeLinks) (holdings : List (String × List String))
    (registry : Registry Endpoints) : Prop where
  sorted : registry.names.Pairwise (· < ·)
  children : (registry.links.map fun entry => (entry.1, entry.2.children)).Perm
    (holdings.map fun holding => (holding.1, chosen opened holding.2))
  default : registry.default = none

/-! ## Results that fail by a shard only -/

/-- Does a result meet a condition, unless something is wrong with a shard? -/
def Builds {α : Type} (result : Except Error α) (post : α → Prop) : Prop :=
  match result with
  | .ok a => post a
  | .error e => e.IsShardFault

section Builds

variable {α β : Type} {post : α → Prop}

theorem Builds.bind {result : Except Error α} {f : α → Except Error β} {postBehind : β → Prop}
    (h : Builds result post) (hrest : ∀ a, post a → Builds (f a) postBehind) :
    Builds (result >>= f) postBehind := by
  cases result with
  | ok a => exact hrest a h
  | error e => exact h

/-- Steps that keep a condition keep it together. -/
theorem builds_foldlM {items : List β} {step : α → β → Except Error α} {a : α} (ha : post a)
    (hstep : ∀ a item, post a → Builds (step a item) post) :
    Builds (items.foldlM step a) post := by
  induction items generalizing a with
  | nil => exact ha
  | cons item rest ih => exact (hstep a item ha).bind fun a ha => ih ha

/-- Does a call leave the endpoints, and meet a condition unless something is wrong with a shard? -/
def CallBuilds (call : BuildCall α) (post : α → Prop) : Prop :=
  ∀ w, Builds (call.outcome w).1 post ∧ (call.outcome w).2.endpoints = w.endpoints

theorem CallBuilds.bind {call : BuildCall α} {f : α → BuildCall β} {postBehind : β → Prop}
    (h : CallBuilds call post) (hrest : ∀ a, post a → CallBuilds (f a) postBehind) :
    CallBuilds (call >>= f) postBehind := by
  intro w
  have hw := h w
  cases hcall : call.outcome w with
  | mk result between =>
    rw [hcall] at hw
    cases result with
    | ok a =>
      obtain ⟨hbuilds, hbetween⟩ := hrest a hw.1 between
      rw [Call.outcome_bind_of_ok hcall]
      exact ⟨hbuilds, hbetween.trans hw.2⟩
    | error e =>
      rw [Call.outcome_bind_of_error hcall]
      exact hw

theorem callBuilds_done {result : Except Error α} (h : Builds result post) :
    CallBuilds (Call.done result) post :=
  fun _ => ⟨h, rfl⟩

end Builds

/-! ## Taking databases -/

section Taking

variable {opened : FreeLinks} {taken : List String}

/-- Databases that are there, none of which has been taken or is asked for twice. -/
structure Available (opened : FreeLinks) (taken names : List String) : Prop where
  nodup : (taken ++ names).Nodup
  subset : ∀ name ∈ names, name ∈ opened.map Prod.fst

theorem Available.append {front back : List String}
    (h : Available opened taken (front ++ back)) :
    Available opened taken front ∧ Available opened (taken ++ front) back := by
  obtain ⟨hnodup, hsubset⟩ := h
  rw [← List.append_assoc] at hnodup
  rw [List.forall_mem_append] at hsubset
  exact ⟨⟨(List.nodup_append.mp hnodup).1, hsubset.1⟩, hnodup, hsubset.2⟩

theorem Available.append_cons {name : String} {names : List String}
    (h : Available opened taken (name :: names)) :
    Available opened taken [name] ∧ Available opened (taken ++ [name]) names :=
  Available.append h

/-- A database that is available is taken, and no other one. -/
theorem takeLink_leftOf {name : String} (h : Available opened taken [name]) :
    ∃ connection, chosen opened [name] = [connection] ∧
      takeLink (leftOf opened taken) name = .ok (connection, leftOf opened (taken ++ [name])) := by
  have hfresh : name ∉ taken := by
    intro hmem
    exact (List.nodup_append.mp h.nodup).2.2 name hmem name (List.mem_singleton_self name) rfl
  have hthere := isSome_lookup_iff.mpr (h.subset name (List.mem_singleton_self name))
  obtain ⟨connection, hlookup⟩ := Option.isSome_iff_exists.mp hthere
  have hleft : (leftOf opened taken).lookup name = some connection := by
    rw [leftOf, lookup_filter_key fun k => !taken.contains k, if_pos, hlookup]
    rwa [Bool.not_eq_true', ← Bool.not_eq_true, List.contains_iff_mem]
  have htaken : (leftOf opened taken).filter (fun entry => entry.1 != name) =
      leftOf opened (taken ++ [name]) := by
    rw [leftOf, List.filter_filter, leftOf]
    apply List.filter_congr
    intro entry _
    rw [Bool.eq_iff_iff]
    simp only [Bool.and_eq_true, bne_iff_ne, Bool.not_eq_true', ← Bool.not_eq_true,
      List.contains_iff_mem, List.mem_append, List.mem_singleton, not_or]
    exact and_comm
  refine ⟨connection, List.filterMap_cons_some hlookup, ?_⟩
  rw [takeLink, hleft, ← htaken]

/-- A link with its databases, behind which some more are taken. -/
def Gets {link : Type} (opened : FreeLinks) (taken names : List String)
    (children : link → List (Connection (World Endpoints))) (result : link × FreeLinks) : Prop :=
  children result.1 = chosen opened names ∧ result.2 = leftOf opened (taken ++ names)

/-- Shards take their databases, and fail by a number that is there only. -/
theorem builds_addShards {entries : List ShardEntry} {link : Sharded Endpoints}
    {earlier : List String} (hlink : link.children = chosen opened earlier)
    (h : Available opened (taken ++ earlier) (entries.map ShardEntry.link)) :
    Builds (addShards link (leftOf opened (taken ++ earlier)) entries)
      (Gets opened taken (earlier ++ entries.map ShardEntry.link) Sharded.children) := by
  induction entries generalizing link earlier with
  | nil =>
    rw [List.map_nil, List.append_nil]
    exact ⟨hlink, rfl⟩
  | cons entry rest ih =>
    have hnames : earlier ++ (entry :: rest).map ShardEntry.link =
        (earlier ++ [entry.link]) ++ rest.map ShardEntry.link := List.append_cons _ _ _
    obtain ⟨hfirst, hrest⟩ := Available.append_cons h
    obtain ⟨connection, hchosen, htake⟩ := takeLink_leftOf hfirst
    rw [List.append_assoc] at hrest htake
    rw [hnames, addShards, htake]
    -- The shard is added unless its number is there already.
    show Builds (link.addShard entry.shard connection >>= _) _
    rw [Sharded.addShard]
    split
    · exact .duplicate entry.shard
    · refine ih ?_ hrest
      rw [chosen_append, hchosen, ← hlink]
      exact List.map_append

/-- Mirrors take their databases. -/
theorem builds_addMirrors {names : List String} {link : Replicated Endpoints}
    {earlier : List String} (hlink : link.children = chosen opened earlier)
    (h : Available opened (taken ++ earlier) names) :
    Builds (addMirrors link (leftOf opened (taken ++ earlier)) names)
      (Gets opened taken (earlier ++ names) Replicated.children) := by
  induction names generalizing link earlier with
  | nil =>
    rw [List.append_nil]
    exact ⟨hlink, rfl⟩
  | cons name rest ih =>
    obtain ⟨hfirst, hrest⟩ := Available.append_cons h
    obtain ⟨connection, hchosen, htake⟩ := takeLink_leftOf hfirst
    rw [List.append_assoc] at hrest htake
    rw [List.append_cons, addMirrors, htake]
    refine ih ?_ hrest
    rw [chosen_append, hchosen, ← hlink]
    exact (List.append_assoc _ _ _).symm

/-- The map of a table fails by a shard only. -/
theorem builds_shardMap (isKnown : ShardId → Bool) (entry : TableEntry) :
    Builds (entry.shardMap isKnown) fun _ => True := by
  refine builds_foldlM trivial fun m s _ => ?_
  rw [TableEntry.addTo]
  split
  · have hchecked : Builds s.range.checked fun _ => True := by
      unfold KeyRange.checked
      split
      · split
        · exact .inverted _ _
        · trivial
      · trivial
    have hadd : Builds (m.addRange s.shard s.range) fun _ => True := by
      unfold ShardMap.addRange
      split
      · exact .duplicate s.shard
      · exact hchecked.bind fun _ _ => trivial
    refine hadd.bind fun m _ => ?_
    split
    · unfold ShardMap.withPhysicalTable
      split
      · trivial
      · exact .unknown s.shard
    · trivial
  · exact .unknown s.shard

/-- A sharded link takes its databases. -/
theorem builds_shardedLink {entry : ShardedEntry} (h : Available opened taken entry.children) :
    Builds (shardedLink (leftOf opened taken) entry)
      (Gets opened taken entry.children Sharded.children) := by
  rw [← List.append_nil taken] at h
  have hshards : Builds (addShards .empty (leftOf opened (taken ++ [])) entry.shards)
      (Gets opened taken entry.children Sharded.children) := builds_addShards rfl h
  rw [List.append_nil] at hshards
  refine hshards.bind ?_
  rintro ⟨link, free⟩ hlink
  have htables : Builds (entry.tables.foldlM addTable link) fun r =>
      r.children = chosen opened entry.children := by
    refine builds_foldlM hlink.1 fun link table hlink => ?_
    exact (builds_shardMap _ table).bind fun m _ => hlink
  exact htables.bind fun r hr => ⟨hr, hlink.2⟩

/-- A replicated link takes its databases. -/
theorem builds_replicatedLink (cursor : Nat) {entry : ReplicatedEntry}
    (h : Available opened taken entry.children) :
    Builds (replicatedLink cursor (leftOf opened taken) entry)
      (Gets opened taken entry.children Replicated.children) := by
  obtain ⟨hprimary, hmirrors⟩ := Available.append_cons h
  obtain ⟨connection, hchosen, htake⟩ := takeLink_leftOf hprimary
  rw [replicatedLink, htake]
  have hlink : ((Replicated.empty cursor).setPrimary connection).children =
      chosen opened [entry.primary] := hchosen.symm
  refine (builds_addMirrors hlink hmirrors).bind ?_
  rintro ⟨link, free⟩ hlink
  dsimp only
  cases entry.blockSize with
  | none => exact hlink
  | some size => exact hlink

end Taking

/-! ## Registering links -/

section Registering

variable {opened : FreeLinks} {taken : List String} {holdings : List (String × List String)}
  {registry : Registry Endpoints}

theorem Holds.names_perm (h : Holds opened holdings registry) :
    registry.names.Perm (holdings.map Prod.fst) := by
  have hperm := h.children.map Prod.fst
  rw [List.map_map, List.map_map] at hperm
  exact hperm

/-- A link is registered under a name that no other link has. -/
theorem builds_register {name : String} {names : List String} {link : Link Endpoints}
    (h : Holds opened holdings registry) (hname : name ∉ holdings.map Prod.fst)
    (hlink : link.children = chosen opened names) :
    Builds (registry.register name link) (Holds opened (holdings ++ [(name, names)])) := by
  have hfree : name ∉ registry.names := by
    rw [h.names_perm.mem_iff]
    exact hname
  rw [Registry.register, if_neg (by rwa [Registry.mem_names_of_has])]
  refine ⟨Registry.sorted_insertSorted link h.sorted hfree, ?_, h.default⟩
  have hperm := (Registry.perm_insertSorted name link registry.links).map
    fun entry => (entry.1, entry.2.children)
  rw [List.map_append]
  refine hperm.trans ?_
  rw [List.map_cons, List.map_singleton, hlink]
  exact (h.children.cons _).trans (List.perm_append_singleton _ _).symm

/-- The lock of a composition is made, and the endpoints stay. -/
theorem builds_lockFor (lock : Locks.ScopedLock) (name : String) :
    CallBuilds (Context.lockFor lock name) fun _ => True :=
  fun _ => ⟨trivial, rfl⟩

/-- A registry that holds some links, with the databases that are left then. -/
def Registers (opened : FreeLinks) (holdings : List (String × List String))
    (result : Registry Endpoints × FreeLinks) : Prop :=
  Holds opened holdings result.1 ∧ result.2 = leftOf opened (holdings.flatMap Prod.snd)

/-- Links whose names are not registered yet and whose databases are available. -/
structure Registrable (opened : FreeLinks) (holdings links : List (String × List String)) :
    Prop where
  names : (holdings.map Prod.fst ++ links.map Prod.fst).Nodup
  available : Available opened (holdings.flatMap Prod.snd) (links.flatMap Prod.snd)

theorem Registrable.cons {link : String × List String} {links : List (String × List String)}
    (h : Registrable opened holdings (link :: links)) :
    link.1 ∉ holdings.map Prod.fst ∧
      Available opened (holdings.flatMap Prod.snd) link.2 ∧
      Registrable opened (holdings ++ [link]) links := by
  obtain ⟨hnames, havailable⟩ := h
  rw [List.flatMap_cons] at havailable
  obtain ⟨hfirst, hrest⟩ := havailable.append
  refine ⟨?_, hfirst, ?_, ?_⟩
  · exact fun hmem => (List.nodup_append.mp hnames).2.2 _ hmem _ List.mem_cons_self rfl
  · rw [List.map_append, List.append_assoc]
    exact hnames
  · rw [List.flatMap_append, List.flatMap_singleton]
    exact hrest

theorem Registrable.append {front back : List (String × List String)}
    (h : Registrable opened holdings (front ++ back)) :
    Registrable opened holdings front ∧ Registrable opened (holdings ++ front) back := by
  obtain ⟨hnames, havailable⟩ := h
  rw [List.map_append, ← List.append_assoc] at hnames
  rw [List.flatMap_append] at havailable
  refine ⟨⟨(List.nodup_append.mp hnames).1, havailable.append.1⟩, ?_, ?_⟩
  · rw [List.map_append]
    exact hnames
  · rw [List.flatMap_append]
    exact havailable.append.2

/-- The databases that are left behind one more link. -/
theorem leftOf_concat (name : String) (names : List String) :
    leftOf opened (holdings.flatMap Prod.snd ++ names) =
      leftOf opened ((holdings ++ [(name, names)]).flatMap Prod.snd) := by
  rw [List.flatMap_append, List.flatMap_singleton]

/-- The sharded links are registered, each with its databases. -/
theorem builds_registerSharded (lock : Locks.ScopedLock) {entries : List ShardedEntry}
    (h : Holds opened holdings registry)
    (hlinks : Registrable opened holdings (entries.map fun e => (e.name, e.children))) :
    CallBuilds (registerSharded lock registry (leftOf opened (holdings.flatMap Prod.snd)) entries)
      (Registers opened (holdings ++ entries.map fun e => (e.name, e.children))) := by
  induction entries generalizing holdings registry with
  | nil =>
    rw [List.map_nil, List.append_nil]
    exact fun _ => ⟨⟨h, rfl⟩, rfl⟩
  | cons entry rest ih =>
    obtain ⟨hname, havailable, hrest⟩ := hlinks.cons
    rw [registerSharded, List.map_cons, List.append_cons]
    refine (callBuilds_done (builds_shardedLink havailable)).bind ?_
    rintro ⟨link, _⟩ ⟨hlink, rfl⟩
    refine (builds_lockFor lock entry.name).bind fun own _ => ?_
    have hchildren : (Link.sharded (link.setLock own)).children = chosen opened entry.children :=
      hlink
    refine (callBuilds_done (builds_register h hname hchildren)).bind
      fun registry hregistry => ?_
    rw [leftOf_concat entry.name]
    exact ih hregistry hrest

/-- The replicated links are registered, each with its databases. -/
theorem builds_registerReplicated (lock : Locks.ScopedLock) {entries : List ReplicatedEntry}
    (h : Holds opened holdings registry)
    (hlinks : Registrable opened holdings (entries.map fun e => (e.name, e.children))) :
    CallBuilds
      (registerReplicated lock registry (leftOf opened (holdings.flatMap Prod.snd)) entries)
      (Registers opened (holdings ++ entries.map fun e => (e.name, e.children))) := by
  induction entries generalizing holdings registry with
  | nil =>
    rw [List.map_nil, List.append_nil]
    exact fun _ => ⟨⟨h, rfl⟩, rfl⟩
  | cons entry rest ih =>
    obtain ⟨hname, havailable, hrest⟩ := hlinks.cons
    rw [registerReplicated, List.map_cons, List.append_cons]
    have hcursor : CallBuilds (Call.of fun w : World Endpoints =>
        (.ok w.newCursor.1, w.newCursor.2)) fun _ => True := fun _ => ⟨trivial, rfl⟩
    refine hcursor.bind fun cursor _ => ?_
    refine (callBuilds_done (builds_replicatedLink cursor havailable)).bind ?_
    rintro ⟨link, _⟩ ⟨hlink, rfl⟩
    refine (builds_lockFor lock entry.name).bind fun own _ => ?_
    have hchildren : (Link.replicated (link.setLock own)).children = chosen opened entry.children :=
      hlink
    refine (callBuilds_done (builds_register h hname hchildren)).bind
      fun registry hregistry => ?_
    rw [leftOf_concat entry.name]
    exact ih hregistry hrest

/-- The databases that are left are registered under their own names. -/
theorem builds_registerFree {free : FreeLinks} (h : Holds opened holdings registry)
    (hnames : (holdings.map Prod.fst ++ free.map Prod.fst).Nodup)
    (hfree : ∀ entry ∈ free, chosen opened [entry.1] = [entry.2]) :
    Builds (registerFree registry free)
      (Holds opened (holdings ++ free.map fun entry => (entry.1, [entry.1]))) := by
  unfold registerFree
  induction free generalizing holdings registry with
  | nil =>
    rw [List.map_nil, List.append_nil]
    exact h
  | cons entry rest ih =>
    rw [List.forall_mem_cons] at hfree
    rw [List.map_cons, List.append_cons] at hnames
    have hname : entry.1 ∉ holdings.map Prod.fst := by
      intro hmem
      have hfront := (List.nodup_append.mp hnames).1
      exact (List.nodup_append.mp hfront).2.2 _ hmem _ (List.mem_singleton_self _) rfl
    rw [List.foldlM_cons, List.map_cons, List.append_cons]
    have hchildren : (Link.single entry.2).children = chosen opened [entry.1] := hfree.1.symm
    refine (builds_register h hname hchildren).bind fun registry hregistry => ?_
    refine ih hregistry ?_ hfree.2
    rw [List.map_append]
    exact hnames

end Registering

end Config

/-! ## The databases of a configuration -/

/-- Different numbers stand for different databases: one can be connected without the other. -/
theorem Endpoints.database_injective : Function.Injective Endpoints.database := by
  intro one other heq
  by_contra hne
  let quiet := List.replicate (one + 1) (Embedded.Handle.new .memory)
  let alone := quiet.set one { Embedded.Handle.new .memory with connected := true }
  let w : World Endpoints :=
    ⟨⟨0, 0, [], ⟨[], []⟩, [], []⟩, [], [], ⟨⟨[], []⟩, alone⟩⟩
  have hlength : one < quiet.length := by
    rw [List.length_replicate]
    exact Nat.lt_succ_self one
  have hone : (Endpoints.database one).isConnected w = true := by
    show (alone.getD one _).connected = true
    rw [List.getD_eq_getElem?_getD, List.getElem?_set_self hlength]
    rfl
  have hother : (Endpoints.database other).isConnected w = false := by
    show (alone.getD other _).connected = false
    rw [List.getD_eq_getElem?_getD, List.getElem?_set_ne hne, List.getElem?_replicate]
    split <;> rfl
  rw [heq, hother] at hone
  cases hone

namespace LocatedConfig

/-- The databases of a configuration under their names, numbered from a number on. -/
def numbered (links : List (String × LinkEntry)) (first : Nat) : FreeLinks :=
  (links.zipIdx first).map fun entry => (entry.1.1, Endpoints.database entry.2)

theorem names_numbered (links : List (String × LinkEntry)) (first : Nat) :
    (numbered links first).map Prod.fst = links.map Prod.fst := by
  rw [numbered, List.map_map, ← List.zipIdx_map_fst first links, List.map_map]
  rw [List.zipIdx_map_fst]
  rfl

theorem nodup_numbered (links : List (String × LinkEntry)) (first : Nat) :
    ((numbered links first).map Prod.snd).Nodup := by
  have hnumbers : ((links.zipIdx first).map Prod.snd).Nodup := by
    rw [List.zipIdx_map_snd]
    exact List.nodup_range'
  rw [numbered, List.map_map]
  have hmap := hnumbers.map Endpoints.database_injective
  rw [List.map_map] at hmap
  exact hmap

theorem mem_numbered {links : List (String × LinkEntry)} (first : Nat) {k : Nat} {name : String}
    {entry : LinkEntry} (h : links[k]? = some (name, entry)) :
    (name, Endpoints.database (first + k)) ∈ numbered links first := by
  rw [numbered, List.mem_map]
  refine ⟨((name, entry), first + k), List.mem_of_getElem? (i := k) ?_, rfl⟩
  rw [List.getElem?_zipIdx, h, Option.map_some]

/-- The world with some more databases. -/
def withDatabases (located : LocatedConfig) (links : List (String × LinkEntry))
    (w : World Endpoints) : World Endpoints :=
  { w with endpoints := { w.endpoints with
      databases := w.endpoints.databases ++ links.map fun link => .new (located.location link.2) } }

/-- Databases are made in order, and numbered behind those that are there. -/
theorem outcome_openLinks (located : LocatedConfig) (links : List (String × LinkEntry))
    (w : World Endpoints) :
    (located.openLinks links).outcome w =
      (.ok (numbered links w.endpoints.databases.length), located.withDatabases links w) := by
  induction links generalizing w with
  | nil =>
    rw [withDatabases, List.map_nil, List.append_nil]
    rfl
  | cons link rest ih =>
    obtain ⟨name, entry⟩ := link
    have hfirst : (Call.of fun w : World Endpoints =>
        (.ok (Endpoints.addDatabase (located.location entry) w).1,
          (Endpoints.addDatabase (located.location entry) w).2)).outcome w =
        (.ok (Endpoints.database w.endpoints.databases.length),
          located.withDatabases [(name, entry)] w) := rfl
    have hworld : located.withDatabases rest (located.withDatabases [(name, entry)] w) =
        located.withDatabases ((name, entry) :: rest) w := by
      rw [withDatabases, withDatabases, withDatabases]
      dsimp only
      rw [List.append_assoc]
      rfl
    have hlength : (located.withDatabases [(name, entry)] w).endpoints.databases.length =
        w.endpoints.databases.length + 1 := List.length_append
    rw [openLinks]
    refine (Call.outcome_bind_of_ok hfirst).trans ?_
    refine (Call.outcome_bind_of_ok (ih _)).trans ?_
    rw [hworld, hlength]
    rfl

end LocatedConfig

/-! ## Building -/

namespace Config

variable {config : Config} {opened : FreeLinks}

/-- The compositions that are registered, in that order, each with its databases. -/
def compositions (config : Config) : List (String × List String) :=
  config.sharded.map (fun entry => (entry.name, entry.children)) ++
    config.replicated.map fun entry => (entry.name, entry.children)

/-- The links that are registered, each with its databases. -/
def holdings (config : Config) : List (String × List String) :=
  config.compositions ++ config.freeNames.map fun name => (name, [name])

theorem names_compositions (config : Config) :
    config.compositions.map Prod.fst = config.compositionNames := by
  rw [compositions, compositionNames, List.map_append, List.map_map, List.map_map]
  rfl

theorem names_holdings (config : Config) :
    config.holdings.map Prod.fst = config.compositionNames ++ config.freeNames := by
  rw [holdings, List.map_append, names_compositions, List.map_map]
  exact congrArg _ (List.map_id _)

theorem children_compositions (config : Config) :
    config.compositions.flatMap Prod.snd = config.claims.map Prod.fst := by
  have hsharded : config.sharded.flatMap ShardedEntry.children =
      (config.sharded.flatMap fun entry =>
        entry.shards.map fun shard => (shard.link, entry.name)).map Prod.fst := by
    rw [List.map_flatMap]
    refine List.flatMap_congr fun entry _ => ?_
    rw [List.map_map]
    rfl
  have hreplicated : config.replicated.flatMap ReplicatedEntry.children =
      (config.replicated.flatMap fun entry =>
        (entry.primary :: entry.mirrors).map fun link => (link, entry.name)).map Prod.fst := by
    rw [List.map_flatMap]
    refine List.flatMap_congr fun entry _ => ?_
    rw [List.map_map]
    exact (List.map_id _).symm
  rw [compositions, claims, List.flatMap_append, List.flatMap_map, List.flatMap_map,
    List.map_append, ← hsharded, ← hreplicated]

/-- The databases of compositions and the others are all databases. -/
theorem perm_children (h : config.Checked) (hlinks : (config.links.map Prod.fst).Nodup) :
    (config.holdings.flatMap Prod.snd).Perm (config.links.map Prod.fst) := by
  have hfree : (config.freeNames.map fun name => (name, [name])).flatMap Prod.snd =
      config.freeNames := by
    rw [List.flatMap_map]
    exact List.flatMap_singleton' _
  rw [holdings, List.flatMap_append, children_compositions, hfree]
  have hsplit := List.filter_append_perm
    (fun name => (config.claims.map Prod.fst).contains name) (config.links.map Prod.fst)
  refine List.Perm.trans (List.Perm.append_right _ ?_) hsplit
  apply (List.perm_ext_iff_of_nodup h.nodup_claims (hlinks.filter _)).mpr
  intro name
  rw [List.mem_filter, List.contains_iff_mem]
  exact ⟨fun hname => ⟨h.claims_subset name hname, hname⟩, And.right⟩

/-- Compositions of a configuration that makes sense can all be registered. -/
theorem registrable_compositions (h : config.Checked)
    (hopened : opened.map Prod.fst = config.links.map Prod.fst) :
    Registrable opened [] config.compositions := by
  refine ⟨?_, ?_, ?_⟩
  · rw [names_compositions]
    exact h.nodup_names
  · rw [children_compositions]
    exact h.nodup_claims
  · rw [children_compositions, hopened]
    exact h.claims_subset

/-- The databases that no composition has taken are registered under their own names. -/
theorem builds_registerFree_leftOf (h : config.Checked) (hlinks : (config.links.map Prod.fst).Nodup)
    (hopened : opened.map Prod.fst = config.links.map Prod.fst) {registry : Registry Endpoints}
    (hregistry : Holds opened config.compositions registry) :
    Builds (registerFree registry (leftOf opened (config.compositions.flatMap Prod.snd)))
      (Holds opened config.holdings) := by
  have hnames : (leftOf opened (config.compositions.flatMap Prod.snd)).map Prod.fst =
      config.freeNames := by
    rw [freeNames, ← hopened, List.filter_map, children_compositions]
    rfl
  have hholdings : config.holdings = config.compositions ++
      (leftOf opened (config.compositions.flatMap Prod.snd)).map fun entry =>
        (entry.1, [entry.1]) := by
    rw [holdings, ← hnames, List.map_map]
    rfl
  rw [hholdings]
  refine builds_registerFree hregistry ?_ fun entry hentry => ?_
  · rw [names_compositions, hnames]
    refine List.nodup_append.mpr ⟨h.nodup_names, hlinks.filter _, ?_⟩
    rintro name hname _ hfree rfl
    exact h.names_fresh name hname (List.mem_of_mem_filter hfree)
  · rw [← hopened] at hlinks
    exact List.filterMap_cons_some (lookup_of_mem hlinks (List.mem_of_mem_filter hentry))

/-- All databases, by their names. -/
theorem chosen_names (hnodup : (opened.map Prod.fst).Nodup) :
    chosen opened (opened.map Prod.fst) = opened.map Prod.snd := by
  rw [chosen, List.filterMap_map, ← List.filterMap_eq_map]
  exact List.filterMap_congr fun entry hentry => lookup_of_mem hnodup hentry

/-- The links of a registry hold all databases between them. -/
theorem Holds.perm_children {registry : Registry Endpoints}
    (hregistry : Holds opened config.holdings registry) (h : config.Checked)
    (hlinks : (config.links.map Prod.fst).Nodup)
    (hopened : opened.map Prod.fst = config.links.map Prod.fst) :
    (registry.links.flatMap fun entry => entry.2.children).Perm (opened.map Prod.snd) := by
  have hperm := hregistry.children.flatMap_right Prod.snd
  rw [List.flatMap_map, List.flatMap_map] at hperm
  have hall : config.holdings.flatMap (fun holding => chosen opened holding.2) =
      chosen opened (config.holdings.flatMap Prod.snd) :=
    (List.filterMap_flatMap ..).symm
  refine hperm.trans ?_
  rw [← chosen_names (hopened ▸ hlinks), hopened]
  exact hall ▸ (config.perm_children h hlinks).filterMap _

/-- What stands in one of some lists, and twice in none, stands in exactly one. -/
theorem existsUnique_mem {α β : Type} {l : List α} {f : α → List β} (hnodup : (l.flatMap f).Nodup)
    {b : β} (hb : b ∈ l.flatMap f) : ∃! a, a ∈ l ∧ b ∈ f a := by
  obtain ⟨a, ha, hmem⟩ := List.mem_flatMap.mp hb
  refine ⟨a, ⟨ha, hmem⟩, ?_⟩
  rintro other ⟨hother, hmem'⟩
  by_contra hne
  have hdisjoint := (List.nodup_flatMap.mp hnodup).2
  have : Std.Symm (Function.onFun List.Disjoint f) := ⟨fun _ _ h b hb hb' => h hb' hb⟩
  exact hdisjoint.forall hother ha hne hmem' hmem

/-- What is done with the databases of a configuration. -/
def registering (config : Config) (opened : FreeLinks) (lock : Locks.ScopedLock) :
    BuildCall Context := do
  let (registry, free) ← registerSharded lock .empty opened config.sharded
  let (registry, free) ← registerReplicated lock registry free config.replicated
  let registry ← Call.done (registerFree registry free)
  let registry ← Call.done (chooseDefault registry config.default)
  return ⟨registry, lock⟩

/-- The default of a configuration that makes sense is registered. -/
theorem builds_chooseDefault (h : config.Checked) {registry : Registry Endpoints}
    (hregistry : Holds opened config.holdings registry) :
    Builds (chooseDefault registry config.default) fun r =>
      r = ⟨registry.links, config.default.map .named⟩ := by
  unfold chooseDefault
  cases hdefault : config.default with
  | none =>
    show registry = _
    rw [Option.map_none, ← hregistry.default]
  | some name =>
    have hnamed : registry.has name = true := by
      rw [Registry.mem_names_of_has, hregistry.names_perm.mem_iff, names_holdings]
      exact h.default_named name hdefault
    dsimp only
    rw [Registry.setDefaultName, if_pos hnamed]
    rfl

/-- The registry of a configuration that makes sense holds its links, and its default. -/
theorem builds_registering (h : config.Checked) (hlinks : (config.links.map Prod.fst).Nodup)
    (hopened : opened.map Prod.fst = config.links.map Prod.fst) (lock : Locks.ScopedLock) :
    CallBuilds (config.registering opened lock) fun context =>
      ∃ registry, Holds opened config.holdings registry ∧
        context.registry = ⟨registry.links, config.default.map .named⟩ := by
  have hempty : Holds opened [] (Registry.empty : Registry Endpoints) :=
    ⟨List.Pairwise.nil, List.Perm.refl _, rfl⟩
  have hcompositions := registrable_compositions h hopened
  rw [compositions] at hcompositions
  obtain ⟨hsharded, hreplicated⟩ := hcompositions.append
  have hstart : leftOf opened [] = opened := List.filter_eq_self.mpr fun _ _ => rfl
  have hfirst := builds_registerSharded lock hempty hsharded
  rw [List.flatMap_nil, hstart] at hfirst
  refine hfirst.bind ?_
  rintro ⟨registry, _⟩ ⟨hregistry, rfl⟩
  refine (builds_registerReplicated lock hregistry hreplicated).bind ?_
  rintro ⟨registry, _⟩ ⟨hregistry, rfl⟩
  refine (callBuilds_done (builds_registerFree_leftOf h hlinks hopened hregistry)).bind ?_
  intro registry hregistry
  exact (callBuilds_done (builds_chooseDefault h hregistry)).bind
    fun r hr _ => ⟨⟨registry, hregistry, hr⟩, rfl⟩

end Config

namespace LocatedConfig

/-- A configuration that makes sense is built of its databases, which are made first. -/
theorem exists_outcome_build {located : LocatedConfig} (hcheck : located.config.check = .ok ())
    (w : World Endpoints) :
    ∃ lock opening, opening.endpoints.databases = w.endpoints.databases ++
        located.config.links.map (fun link => .new (located.location link.2)) ∧
      located.build.outcome w =
        (located.config.registering
          (numbered located.config.links w.endpoints.databases.length) lock).outcome opening := by
  obtain ⟨lock, between, hlock, hkept⟩ : ∃ lock between,
      located.openLock.outcome w = (.ok lock, between) ∧ between.endpoints = w.endpoints := by
    unfold openLock
    cases located.config.locks.place with
    | _ => exact ⟨_, _, rfl, rfl⟩
  have hopen := outcome_openLinks located located.config.links between
  rw [hkept] at hopen
  refine ⟨lock, located.withDatabases located.config.links between, ?_, ?_⟩
  · rw [← hkept]
    rfl
  · unfold build
    dsimp only
    rw [hcheck]
    refine (Call.outcome_bind_of_ok rfl).trans ?_
    refine (Call.outcome_bind_of_ok hlock).trans ?_
    exact Call.outcome_bind_of_ok hopen

/--
Of a configuration that makes sense, with its databases under different names, links are built
unless something is wrong with a shard. The registry then has the names of the
compositions and of the databases that no composition asks for. Each database of the configuration
is held by exactly one of its links, and the default, if there is one, is a registered name.
-/
theorem build_of_check {located : LocatedConfig}
    (hlinks : (located.config.links.map Prod.fst).Nodup) (hcheck : located.config.check = .ok ())
    (w : World Endpoints) :
    (∀ e w', located.build.outcome w = (.error e, w') → e.IsShardFault) ∧
      ∀ context w', located.build.outcome w = (.ok context, w') →
        context.registry.names.Pairwise (· < ·) ∧
        context.registry.names.Perm
          (located.config.compositionNames ++ located.config.freeNames) ∧
        (∀ k name entry, located.config.links[k]? = some (name, entry) →
          w'.endpoints.databases[w.endpoints.databases.length + k]? =
            some (.new (located.location entry)) ∧
          ∃! owner, owner ∈ context.registry.links ∧
            Endpoints.database (w.endpoints.databases.length + k) ∈ owner.2.children) ∧
        context.registry.default = located.config.default.map .named ∧
        ∀ name, located.config.default = some name → name ∈ context.registry.names := by
  have hchecked := Config.checked_of_check hcheck
  obtain ⟨lock, opening, hdatabases, houtcome⟩ := exists_outcome_build hcheck w
  have hopened : (numbered located.config.links w.endpoints.databases.length).map Prod.fst =
      located.config.links.map Prod.fst := names_numbered _ _
  obtain ⟨hbuilds, hendpoints⟩ := Config.builds_registering hchecked hlinks hopened lock opening
  rw [← houtcome] at hbuilds hendpoints
  constructor
  · intro e w' hbuild
    rw [hbuild] at hbuilds
    exact hbuilds
  · rintro ⟨_, _⟩ w' hbuild
    rw [hbuild] at hbuilds hendpoints
    obtain ⟨registry, hregistry, rfl⟩ := hbuilds
    have hnames := hregistry.names_perm
    rw [Config.names_holdings] at hnames
    have hchildren := hregistry.perm_children hchecked hlinks hopened
    refine ⟨hregistry.sorted, hnames, ?_, rfl, ?_⟩
    · intro k name entry hk
      have hmem := List.mem_map_of_mem (f := Prod.snd)
        (mem_numbered w.endpoints.databases.length hk)
      constructor
      · rw [hendpoints, hdatabases, List.getElem?_append_right (Nat.le_add_right _ _),
          Nat.add_sub_cancel_left, List.getElem?_map, hk]
        rfl
      · exact Config.existsUnique_mem (hchildren.nodup_iff.mpr (nodup_numbered _ _))
          (hchildren.mem_iff.mpr hmem)
    · intro name hname
      exact hnames.mem_iff.mpr (hchecked.default_named name hname)

/-- Two databases in a sharded link, and one on its own that is the default. -/
def threeDatabases : LocatedConfig where
  config :=
    { version := "1"
      links := [("a", .memory), ("b", .memory), ("c", .memory)]
      default := some "c"
      sharded := [⟨"both", [⟨1, "a"⟩, ⟨2, "b"⟩], []⟩]
      replicated := []
      locks := .default }
  base := none

/-- The sharded link and the third database are registered, and each holds its own. -/
theorem build_threeDatabases :
    (threeDatabases.config.links.map Prod.fst).Nodup ∧ threeDatabases.config.check = .ok () ∧
      ∃ context w', threeDatabases.build.outcome
          ⟨⟨0, 0, [], ⟨[], []⟩, [], []⟩, [], [], .empty⟩ = (.ok context, w') ∧
        context.registry.names.Perm ["both", "c"] ∧
        (∃! owner, owner ∈ context.registry.links ∧ Endpoints.database 1 ∈ owner.2.children) ∧
        "c" ∈ context.registry.names := by
  have hlinks : (threeDatabases.config.links.map Prod.fst).Nodup := by decide
  have hcheck : threeDatabases.config.check = .ok () := rfl
  obtain ⟨-, hbuilt⟩ := build_of_check hlinks hcheck ⟨⟨0, 0, [], ⟨[], []⟩, [], []⟩, [], [], .empty⟩
  have hbuild : threeDatabases.build.outcome ⟨⟨0, 0, [], ⟨[], []⟩, [], []⟩, [], [], .empty⟩ =
      (.ok _, _) := rfl
  obtain ⟨-, hnames, howner, -, hdefault⟩ := hbuilt _ _ hbuild
  exact ⟨hlinks, hcheck, _, _, hbuild, hnames, (howner 1 "b" .memory rfl).2, hdefault "c" rfl⟩

end LocatedConfig

end SqlFederation
