import SqlFederation.Proofs.Building
import SqlFederation.Proofs.Plan

/-!
# The tables of a built configuration

An entry for a table becomes a shard map with just its key and its ranges, in their order and with
their table names (`TableEntry.shardMap_eq_ok`). A sharded link has one map for each table, and the
entries of its configuration are put in one after the other, so that it ends with the map of the
last entry for each table (`Config.realizes_shardedLink`). The link is registered under its name and
stays there (`Registry.Extends`).

Nothing refuses two entries of one link for one table. `LocatedConfig.follows_iff_last` says which
of the entries take effect when a configuration is built, and when all of them do: if no two entries
for one table differ.
-/

namespace SqlFederation

/-- Results one after the other are there if each of them is. -/
theorem exists_of_bind_eq_ok {ε α β : Type} {result : Except ε α} {f : α → Except ε β} {b : β}
    (h : result >>= f = .ok b) : ∃ a, result = .ok a ∧ f a = .ok b := by
  cases result with
  | error e => cases h
  | ok a => exact ⟨a, rfl, h⟩

/-! ## The map that an entry describes -/

namespace ShardMap

/-- The name goes to the shard that was put in last, if no earlier one has its number. -/
theorem namePhysical_concat {shards : List ShardRange} {shard : ShardId} {range : KeyRange}
    (physical : String) (hnew : shard ∉ shards.map ShardRange.shard) :
    namePhysical shard physical (shards ++ [⟨shard, range, none⟩]) =
      shards ++ [⟨shard, range, some physical⟩] := by
  induction shards with
  | nil => exact if_pos rfl
  | cons s rest ih =>
    rw [List.map_cons, List.mem_cons, not_or] at hnew
    rw [List.cons_append, namePhysical, if_neg (Ne.symm hnew.1), ih hnew.2, List.cons_append]

/-- A range that is added to a map goes behind the others as it is. -/
theorem addRange_eq_ok {m m' : ShardMap} {shard : ShardId} {range : KeyRange}
    (h : m.addRange shard range = .ok m') :
    shard ∉ m.shardIds ∧ m' = { m with shards := m.shards ++ [⟨shard, range, none⟩] } := by
  unfold addRange at h
  split at h
  · cases h
  · rename_i hnew
    obtain ⟨checked, hrange, hm'⟩ := exists_of_bind_eq_ok h
    have hsame : checked = range := by
      unfold KeyRange.checked at hrange
      split at hrange
      · split at hrange <;> cases hrange
        rfl
      · cases hrange
        rfl
    rw [hsame] at hm'
    cases hm'
    exact ⟨notMem_shardIds (Bool.eq_false_of_not_eq_true hnew), rfl⟩

/-- In a map of different shards, a shard has the table name of its entry. -/
theorem physicalTable_of_mem {m : ShardMap} (hnodup : m.shardIds.Nodup) {s : ShardRange}
    (hs : s ∈ m.shards) : m.physicalTable s.shard = s.physicalTable.getD m.table := by
  have hfind : (m.shards.find? fun other => other.shard == s.shard) = some s := by
    rw [List.find?_eq_some_iff_append]
    obtain ⟨front, back, hshards⟩ := List.append_of_mem hs
    refine ⟨beq_self_eq_true _, front, back, hshards, fun other hother => ?_⟩
    rw [shardIds, hshards, List.map_append, List.nodup_append] at hnodup
    have hne := hnodup.2.2 _ (List.mem_map_of_mem hother) _ List.mem_cons_self
    rw [Bool.not_eq_true', beq_eq_false_iff_ne]
    exact hne
  rw [physicalTable, hfind, Option.bind_some]

end ShardMap

namespace TableEntry

variable {isKnown : ShardId → Bool} {m m' : ShardMap}

/-- The map that an entry describes. -/
def described (entry : TableEntry) : ShardMap := ⟨entry.table, entry.key, entry.ranges⟩

/-- A range that is taken goes behind the others as it is written, its table name included. -/
theorem addTo_eq_ok {s : ShardRange} (hm : m.Built) (h : addTo isKnown m s = .ok m') :
    m'.Built ∧ m' = { m with shards := m.shards ++ [s] } := by
  obtain ⟨shard, range, physical⟩ := s
  unfold addTo at h
  split at h
  · obtain ⟨added, hadd, h⟩ := exists_of_bind_eq_ok h
    obtain ⟨hnew, hadded⟩ := ShardMap.addRange_eq_ok hadd
    cases physical with
    | none =>
      cases h
      exact ⟨hm.addRange hadd, hadded⟩
    | some name =>
      refine ⟨(hm.addRange hadd).withPhysicalTable h, ?_⟩
      change added.withPhysicalTable shard name = .ok m' at h
      unfold ShardMap.withPhysicalTable at h
      split at h
      · cases h
        rw [hadded, ShardMap.namePhysical_concat name hnew]
      · cases h
  · cases h

/-- Ranges that are taken go behind the others in their order. -/
theorem foldlM_addTo_eq_ok {ranges : List ShardRange} (hm : m.Built)
    (h : ranges.foldlM (addTo isKnown) m = .ok m') :
    m'.Built ∧ m' = { m with shards := m.shards ++ ranges } := by
  induction ranges generalizing m with
  | nil =>
    cases h
    exact ⟨hm, by rw [List.append_nil]⟩
  | cons s rest ih =>
    rw [List.foldlM_cons] at h
    obtain ⟨between, hadd, h⟩ := exists_of_bind_eq_ok h
    obtain ⟨hbetween, rfl⟩ := addTo_eq_ok hm hadd
    obtain ⟨hm', heq⟩ := ih hbetween h
    refine ⟨hm', heq.trans ?_⟩
    rw [List.append_assoc, List.singleton_append]

/-- An entry that fits becomes the map that it describes, whose shards are different ones. -/
theorem shardMap_eq_ok {entry : TableEntry} (h : entry.shardMap isKnown = .ok m) :
    m.Built ∧ m = entry.described :=
  foldlM_addTo_eq_ok (.empty entry.table entry.key) h

end TableEntry

/-! ## One map for each table -/

namespace Sharded

variable {β : Type} {link : Sharded β}

/-- The map that was set is the one of its table. -/
theorem mapOf_setMap_self (link : Sharded β) (m : ShardMap) :
    (link.setMap m).mapOf m.table = .ok m := by
  have hold : (link.maps.filter fun other => other.table != m.table).find?
      (fun other => other.table == m.table) = none := by
    rw [List.find?_eq_none]
    intro other hother heq
    have hne := (List.mem_filter.mp hother).2
    rw [bne, heq] at hne
    cases hne
  rw [mapOf, setMap, List.find?_append, hold, Option.none_or, List.find?_singleton,
    if_pos (beq_self_eq_true _)]

/-- The maps of other tables stay. -/
theorem mapOf_setMap_of_ne {table : String} {m : ShardMap} (h : m.table ≠ table) :
    (link.setMap m).mapOf table = link.mapOf table := by
  have hkept : ∀ other : ShardMap,
      decide ((other.table != m.table) = true ∧ (other.table == table) = true) =
        (other.table == table) := by
    intro other
    rw [Bool.eq_iff_iff, decide_eq_true_iff, beq_iff_eq, bne_iff_ne, and_iff_right_iff_imp]
    rintro rfl
    exact Ne.symm h
  have hfind : (link.setMap m).maps.find? (fun other => other.table == table) =
      link.maps.find? fun other => other.table == table := by
    rw [setMap, List.find?_append, List.find?_singleton, if_neg (by rwa [beq_iff_eq]),
      Option.or_none, List.find?_filter]
    exact congrArg (List.find? · link.maps) (funext hkept)
  rw [mapOf, hfind, mapOf]

/--
Does a link divide a table as an entry says: by its key, over its ranges in their order, and with
its name of the table on each shard?
-/
def Follows (link : Sharded β) (e : TableEntry) : Prop :=
  ∃ m, link.mapOf e.table = .ok m ∧ m.key = e.key ∧ m.shards = e.ranges ∧
    ∀ s ∈ e.ranges, m.physicalTable s.shard = s.physicalTable.getD e.table

end Sharded

namespace ShardedEntry

/-- The last entry of a link for a table. -/
def lastFor (entry : ShardedEntry) (table : String) : Option TableEntry :=
  entry.tables.reverse.find? fun e => e.table == table

theorem exists_lastFor {entry : ShardedEntry} {e : TableEntry} (he : e ∈ entry.tables) :
    ∃ last ∈ entry.tables, last.table = e.table ∧ entry.lastFor e.table = some last := by
  have hsome : (entry.lastFor e.table).isSome = true := by
    rw [lastFor, List.find?_isSome]
    exact ⟨e, List.mem_reverse.mpr he, beq_self_eq_true _⟩
  obtain ⟨last, hlast⟩ := Option.isSome_iff_exists.mp hsome
  have hfound := hlast
  rw [lastFor] at hfound
  have htable := List.find?_some hfound
  exact ⟨last, List.mem_reverse.mp (List.mem_of_find?_eq_some hlast), beq_iff_eq.mp htable, hlast⟩

end ShardedEntry

namespace Config

/-- What a sharded link has for a table behind the entries that were put in. -/
def mapBehind (link : Sharded Endpoints) (table : String) :
    Option TableEntry → Except Error ShardMap
  | some e => .ok e.described
  | none => link.mapOf table

variable {link link' : Sharded Endpoints}

/-- An entry that fits gives its table the map that it describes, and leaves the other tables. -/
theorem addTable_eq_ok {e : TableEntry} (hlink : link.Built) (h : addTable link e = .ok link') :
    link'.Built ∧ ∀ table, link'.mapOf table =
      mapBehind link table (if e.table = table then some e else none) := by
  unfold addTable at h
  obtain ⟨m, hmap, h⟩ := exists_of_bind_eq_ok h
  cases h
  obtain ⟨hm, rfl⟩ := TableEntry.shardMap_eq_ok hmap
  refine ⟨hlink.setMap hm, fun table => ?_⟩
  by_cases htable : e.table = table
  · subst htable
    rw [if_pos rfl]
    exact Sharded.mapOf_setMap_self link e.described
  · rw [if_neg htable]
    exact Sharded.mapOf_setMap_of_ne htable

/-- Behind all entries, a table has the map of the last entry for it. -/
theorem foldlM_addTable_eq_ok {tables : List TableEntry} (hlink : link.Built)
    (h : tables.foldlM addTable link = .ok link') :
    link'.Built ∧ ∀ table, link'.mapOf table =
      mapBehind link table (tables.reverse.find? fun e => e.table == table) := by
  induction tables generalizing link with
  | nil =>
    cases h
    exact ⟨hlink, fun _ => rfl⟩
  | cons e rest ih =>
    rw [List.foldlM_cons] at h
    obtain ⟨between, hadd, h⟩ := exists_of_bind_eq_ok h
    obtain ⟨hbetween, hfirst⟩ := addTable_eq_ok hlink hadd
    obtain ⟨hlink', hrest⟩ := ih hbetween h
    refine ⟨hlink', fun table => (hrest table).trans ?_⟩
    rw [List.reverse_cons, List.find?_append, List.find?_singleton]
    cases rest.reverse.find? fun e => e.table == table with
    | some last => rfl
    | none =>
      rw [Option.none_or]
      simp only [beq_iff_eq]
      exact hfirst table

/-- Shards that are added leave a link that was put together, without a map. -/
theorem addShards_eq_ok {entries : List ShardEntry} {free free' : FreeLinks} (hlink : link.Built)
    (h : addShards link free entries = .ok (link', free')) :
    link'.Built ∧ link'.maps = link.maps := by
  induction entries generalizing link free with
  | nil =>
    cases h
    exact ⟨hlink, rfl⟩
  | cons entry rest ih =>
    rw [addShards] at h
    obtain ⟨⟨connection, left⟩, -, h⟩ := exists_of_bind_eq_ok h
    obtain ⟨added, hadd, h⟩ := exists_of_bind_eq_ok h
    obtain ⟨hlink', hmaps⟩ := ih (hlink.addShard hadd) h
    refine ⟨hlink', hmaps.trans ?_⟩
    unfold Sharded.addShard at hadd
    split at hadd
    · cases hadd
    · cases hadd
      rfl

/-- Is this link one that an entry describes, with the map of its last entry for each table? -/
structure Realizes (link : Sharded Endpoints) (entry : ShardedEntry) : Prop where
  built : link.Built
  maps : ∀ table, link.mapOf table = mapBehind .empty table (entry.lastFor table)

/-- The link of an entry has the map of the last entry for each table, and no other map. -/
theorem realizes_shardedLink {entry : ShardedEntry} {free free' : FreeLinks}
    (h : shardedLink free entry = .ok (link, free')) : Realizes link entry := by
  unfold shardedLink at h
  obtain ⟨⟨bare, left⟩, hshards, h⟩ := exists_of_bind_eq_ok h
  obtain ⟨full, htables, h⟩ := exists_of_bind_eq_ok h
  cases h
  obtain ⟨hbare, hmaps⟩ := addShards_eq_ok .empty hshards
  obtain ⟨hfull, hlast⟩ := foldlM_addTable_eq_ok hbare htables
  refine ⟨hfull, fun table => (hlast table).trans ?_⟩
  have hnone : bare.mapOf table = (Sharded.empty : Sharded Endpoints).mapOf table := by
    unfold Sharded.mapOf
    rw [hmaps]
  unfold mapBehind ShardedEntry.lastFor
  rw [hnone]

/-- An entry takes effect exactly if the last entry for its table is the same. -/
theorem Realizes.follows_iff {entry : ShardedEntry} (h : Realizes link entry) {e : TableEntry}
    (he : e ∈ entry.tables) :
    link.Follows e ↔ entry.lastFor e.table = some e := by
  obtain ⟨last, -, htable, hlast⟩ := ShardedEntry.exists_lastFor he
  have hmap : link.mapOf e.table = .ok last.described := by
    rw [h.maps e.table, hlast]
    rfl
  constructor
  · rintro ⟨m, hown, hkey, hranges, -⟩
    cases hmap.symm.trans hown
    obtain ⟨table, key, ranges⟩ := e
    obtain ⟨table', key', ranges'⟩ := last
    cases htable
    cases hkey
    cases hranges
    exact hlast
  · intro hsame
    obtain rfl : last = e := Option.some.inj (hlast.symm.trans hsame)
    refine ⟨last.described, hmap, rfl, rfl, fun s hs => ?_⟩
    exact ShardMap.physicalTable_of_mem (h.built.sound.built hmap).nodup hs

/-- All entries take effect exactly if no two entries for one table differ. -/
theorem Realizes.forall_follows_iff {entry : ShardedEntry} (h : Realizes link entry) :
    (∀ e ∈ entry.tables, link.Follows e) ↔
      ∀ e ∈ entry.tables, ∀ other ∈ entry.tables, e.table = other.table → e = other := by
  constructor
  · intro hall e he other hother htable
    have hlast := (h.follows_iff he).mp (hall e he)
    rw [htable, (h.follows_iff hother).mp (hall other hother)] at hlast
    exact (Option.some.inj hlast).symm
  · intro hsame e he
    obtain ⟨last, hmem, htable, hlast⟩ := ShardedEntry.exists_lastFor he
    rw [h.follows_iff he, hlast, hsame last hmem e he htable]

end Config

/-! ## Links stay where they are registered -/

namespace Registry

variable {β : Type} {registry registry' : Registry β}

/-- Has a registry all links of another one, under the same names? -/
def Extends (registry registry' : Registry β) : Prop :=
  ∀ name link, registry.get name = .ok link → registry'.get name = .ok link

theorem get_eq_ok {name : String} {link : Link β} :
    registry.get name = .ok link ↔ registry.links.lookup name = some link := by
  unfold get
  cases registry.links.lookup name with
  | none => exact ⟨nofun, nofun⟩
  | some found =>
    exact ⟨fun h => congrArg some (Except.ok.inj h), fun h => congrArg _ (Option.some.inj h)⟩

/-- Links of other names are found as before, wherever a link is put in. -/
theorem lookup_insertSorted_of_ne {name other : String} (h : other ≠ name) (link : Link β)
    (links : List (String × Link β)) :
    (insertSorted name link links).lookup other = links.lookup other := by
  induction links with
  | nil => rw [insertSorted, List.lookup_cons, beq_false_of_ne h]
  | cons entry rest ih =>
    rw [insertSorted]
    split
    · rw [List.lookup_cons, beq_false_of_ne h]
    · rw [List.lookup_cons, List.lookup_cons, ih]

/-- A link is found under the name that it was put in with, if no other link has it. -/
theorem lookup_insertSorted_self {name : String} {links : List (String × Link β)} (link : Link β)
    (hname : links.lookup name = none) :
    (insertSorted name link links).lookup name = some link := by
  induction links with
  | nil => exact List.lookup_cons_self
  | cons entry rest ih =>
    obtain ⟨other, l⟩ := entry
    rw [List.lookup_cons] at hname
    rw [insertSorted]
    split
    · exact List.lookup_cons_self
    · cases hother : name == other with
      | true =>
        rw [hother] at hname
        cases hname
      | false =>
        rw [hother] at hname
        rw [List.lookup_cons, hother]
        exact ih hname

/-- A link that is registered is found, and so are the others. -/
theorem register_eq_ok {name : String} {link : Link β}
    (h : registry.register name link = .ok registry') :
    registry'.get name = .ok link ∧ registry.Extends registry' := by
  unfold register at h
  split at h
  · cases h
  · rename_i hfree
    cases h
    rw [has, Bool.not_eq_true, Option.isSome_eq_false_iff, Option.isNone_iff_eq_none] at hfree
    refine ⟨get_eq_ok.mpr (lookup_insertSorted_self link hfree), fun other found hfound => ?_⟩
    rw [get_eq_ok] at hfound ⊢
    rw [lookup_insertSorted_of_ne _ link registry.links, hfound]
    rintro rfl
    rw [hfree] at hfound
    cases hfound

end Registry

namespace Config

variable {lock : Locks.ScopedLock} {registry registry' : Registry Endpoints}
  {free free' : FreeLinks} {w w' : World Endpoints}

/-- Has a registry a link for an entry, under its name? -/
def HasLinkFor (registry : Registry Endpoints) (entry : ShardedEntry) : Prop :=
  ∃ link, registry.get entry.name = .ok (.sharded link) ∧ Realizes link entry

/-- The sharded links are registered, each as its entry describes it. -/
theorem registerSharded_eq_ok {entries : List ShardedEntry}
    (h : (registerSharded lock registry free entries).outcome w = (.ok (registry', free'), w')) :
    registry.Extends registry' ∧ ∀ entry ∈ entries, HasLinkFor registry' entry := by
  induction entries generalizing registry free w with
  | nil =>
    cases h
    exact ⟨fun _ _ hget => hget, List.forall_mem_nil _⟩
  | cons entry rest ih =>
    rw [registerSharded] at h
    obtain ⟨⟨link, left⟩, _, hlink, h⟩ := Call.exists_of_bind_ok h
    obtain ⟨own, _, -, h⟩ := Call.exists_of_bind_ok h
    obtain ⟨between, _, hregister, h⟩ := Call.exists_of_bind_ok h
    obtain ⟨hbehind, hrest⟩ := ih h
    rw [Call.outcome_done, Prod.mk.injEq] at hlink hregister
    obtain ⟨hget, hbefore⟩ := Registry.register_eq_ok hregister.1
    have hrealizes := realizes_shardedLink hlink.1
    refine ⟨fun name found hfound => hbehind name found (hbefore name found hfound),
      List.forall_mem_cons.mpr ⟨?_, hrest⟩⟩
    exact ⟨link.setLock own, hbehind _ _ hget, hrealizes.built.setLock own, hrealizes.maps⟩

/-- Replicated links come to the links that are there. -/
theorem extends_registerReplicated {entries : List ReplicatedEntry}
    (h : (registerReplicated lock registry free entries).outcome w =
      (.ok (registry', free'), w')) : registry.Extends registry' := by
  induction entries generalizing registry free w with
  | nil =>
    cases h
    exact fun _ _ hget => hget
  | cons entry rest ih =>
    rw [registerReplicated] at h
    obtain ⟨cursor, _, -, h⟩ := Call.exists_of_bind_ok h
    obtain ⟨⟨link, left⟩, _, -, h⟩ := Call.exists_of_bind_ok h
    obtain ⟨own, _, -, h⟩ := Call.exists_of_bind_ok h
    obtain ⟨between, _, hregister, h⟩ := Call.exists_of_bind_ok h
    rw [Call.outcome_done, Prod.mk.injEq] at hregister
    have hbefore := (Registry.register_eq_ok hregister.1).2
    exact fun name found hfound => ih h name found (hbefore name found hfound)

/-- Databases that are left come to the links that are there. -/
theorem extends_registerFree (h : registerFree registry free = .ok registry') :
    registry.Extends registry' := by
  unfold registerFree at h
  induction free generalizing registry with
  | nil =>
    cases h
    exact fun _ _ hget => hget
  | cons entry rest ih =>
    rw [List.foldlM_cons] at h
    obtain ⟨between, hregister, h⟩ := exists_of_bind_eq_ok h
    have hbefore := (Registry.register_eq_ok hregister).2
    exact fun name found hfound => ih h name found (hbefore name found hfound)

/-- The choice of a default leaves the links. -/
theorem extends_chooseDefault {default : Option String}
    (h : chooseDefault registry default = .ok registry') : registry.Extends registry' := by
  unfold chooseDefault at h
  cases default with
  | none =>
    cases h
    exact fun _ _ hget => hget
  | some name =>
    dsimp only at h
    unfold Registry.setDefaultName at h
    split at h
    · cases h
      exact fun _ _ hget => hget
    · cases h

end Config

namespace LocatedConfig

/-- In what is built of a configuration, each sharded entry has its link under its name. -/
theorem hasLinkFor_of_build {located : LocatedConfig} {w w' : World Endpoints} {context : Context}
    (hbuild : located.build.outcome w = (.ok context, w')) {entry : ShardedEntry}
    (hentry : entry ∈ located.config.sharded) : Config.HasLinkFor context.registry entry := by
  unfold build at hbuild
  obtain ⟨_, _, -, h⟩ := Call.exists_of_bind_ok hbuild
  obtain ⟨lock, _, -, h⟩ := Call.exists_of_bind_ok h
  obtain ⟨free, _, -, h⟩ := Call.exists_of_bind_ok h
  obtain ⟨⟨composed, left⟩, _, hsharded, h⟩ := Call.exists_of_bind_ok h
  obtain ⟨⟨replicated, left'⟩, _, hreplicated, h⟩ := Call.exists_of_bind_ok h
  obtain ⟨all, _, hfree, h⟩ := Call.exists_of_bind_ok h
  obtain ⟨chosen, _, hdefault, h⟩ := Call.exists_of_bind_ok h
  rw [Call.outcome_done, Prod.mk.injEq] at hfree hdefault
  cases h
  obtain ⟨link, hget, hrealizes⟩ := (Config.registerSharded_eq_ok hsharded).2 entry hentry
  have hreplicated' := Config.extends_registerReplicated hreplicated _ _ hget
  have hfree' := Config.extends_registerFree hfree.1 _ _ hreplicated'
  exact ⟨link, Config.extends_chooseDefault hdefault.1 _ _ hfree', hrealizes⟩

/--
In what is built of a configuration, each sharded entry has a link, and an entry of it for a table
takes effect, with its key, its ranges in order and its table names, exactly if it is the last one
for that table. All of them take effect exactly if no two entries for one table differ: of two that
do, the earlier one is dropped, and nothing is reported.
-/
theorem follows_iff_last {located : LocatedConfig} {w w' : World Endpoints} {context : Context}
    (hbuild : located.build.outcome w = (.ok context, w')) {entry : ShardedEntry}
    (hentry : entry ∈ located.config.sharded) :
    ∃ link, context.registry.sharded entry.name = .ok link ∧
      (∀ e ∈ entry.tables, link.Follows e ↔ entry.lastFor e.table = some e) ∧
      ((∀ e ∈ entry.tables, link.Follows e) ↔
        ∀ e ∈ entry.tables, ∀ other ∈ entry.tables, e.table = other.table → e = other) := by
  obtain ⟨link, hget, hrealizes⟩ := hasLinkFor_of_build hbuild hentry
  refine ⟨link, ?_, fun e he => hrealizes.follows_iff he, hrealizes.forall_follows_iff⟩
  rw [Registry.sharded, hget]
  rfl

/-- Two databases of a link, with one entry for accounts and two for orders. -/
def ordersTwice : LocatedConfig where
  config :=
    { version := "1"
      links := [("east", .memory), ("west", .memory)]
      default := none
      sharded := [⟨"shop", [⟨1, "east"⟩, ⟨2, "west"⟩],
        [⟨"orders", "id", [⟨1, .atMost 99, some "orders_low"⟩, ⟨2, .atLeast 100, none⟩]⟩,
          ⟨"accounts", "id", [⟨2, .unbounded, some "people"⟩]⟩,
          ⟨"orders", "customer", [⟨2, .unbounded, none⟩]⟩]⟩]
      replicated := []
      locks := .default }
  base := none

/-- The entry for accounts and the later one for orders take effect. -/
theorem follows_ordersTwice :
    ∃ context w', ordersTwice.build.outcome ⟨⟨0, 0, [], ⟨[], []⟩, [], []⟩, [], [], .empty⟩ =
        (.ok context, w') ∧
      ∃ link, context.registry.sharded "shop" = .ok link ∧
        link.Follows ⟨"accounts", "id", [⟨2, .unbounded, some "people"⟩]⟩ ∧
        link.Follows ⟨"orders", "customer", [⟨2, .unbounded, none⟩]⟩ := by
  have hbuild : ordersTwice.build.outcome ⟨⟨0, 0, [], ⟨[], []⟩, [], []⟩, [], [], .empty⟩ =
      (.ok _, _) := rfl
  obtain ⟨link, hlink, hfollows, -⟩ := follows_iff_last hbuild List.mem_cons_self
  exact ⟨_, _, hbuild, link, hlink, (hfollows _ (by decide)).mpr (by decide),
    (hfollows _ (by decide)).mpr (by decide)⟩

/--
A configuration is built of which one entry does not take effect: orders are divided by customer
only, and those of the first shard are not found any more.
-/
theorem earlier_entry_is_dropped :
    ∃ context w', ordersTwice.build.outcome ⟨⟨0, 0, [], ⟨[], []⟩, [], []⟩, [], [], .empty⟩ =
        (.ok context, w') ∧
      ∃ entry ∈ ordersTwice.config.sharded, ∃ e ∈ entry.tables, ∀ link,
        context.registry.sharded entry.name = .ok link → ¬ link.Follows e := by
  have hbuild : ordersTwice.build.outcome ⟨⟨0, 0, [], ⟨[], []⟩, [], []⟩, [], [], .empty⟩ =
      (.ok _, _) := rfl
  obtain ⟨built, hget, hrealizes⟩ := hasLinkFor_of_build hbuild List.mem_cons_self
  refine ⟨_, _, hbuild, _, List.mem_cons_self, _, List.mem_cons_self, fun link hlink => ?_⟩
  rw [Registry.sharded, hget] at hlink
  cases hlink
  rw [hrealizes.follows_iff List.mem_cons_self]
  decide

end LocatedConfig

end SqlFederation
