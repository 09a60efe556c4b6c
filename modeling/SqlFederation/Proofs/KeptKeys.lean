import Mathlib
import SqlFederation.Proofs.OneTable

/-!
# Rows stay where their keys are looked for

`ShardMap.Keeps` says of a row on a shard that a range of the shard has the row's key, whenever the
key can be read: as an integer, or as a text that holds one. The three ways in which a write reaches
a row preserve it, because each of them goes by the key that the row will have. A row of an insert
goes to the shard that was chosen for its key (`ShardMap.keeps_of_routeByRow`). An update that sets
the key goes to the shard that was chosen for the new key alone, and one that sets it to null leaves
no key to read (`ShardMap.keeps_assign`). Everything else leaves the key alone. So each part of a
write preserves it on its shard (`Sharded.exists_parts_of_route`), one write preserves it on every
shard (`Sharded.OverTables.kept_count`), and with it every reachable state has it
(`Sharded.Reached`). `Sharded.OverTables.rows_stay_reachable` draws the conclusion for reads: a
condition that is true of a row with an integer key is routed to the shard that holds the row.
-/

namespace SqlFederation

open RowTable (Tables Reading)

namespace ShardMap

/-- If the key of a row can be read, does a range of the shard have it? -/
def Keeps (m : ShardMap) (shard : ShardId) (row : Row) : Prop :=
  ∀ value key, row.get? m.key = some value → keyOf? value = some key →
    ∃ s ∈ m.shards, s.shard = shard ∧ s.range.contains key = true

variable {m : ShardMap} {shard : ShardId} {row row' : Row}

/-- Where a row may lie depends on its key alone. -/
theorem Keeps.of_get?_eq (h : m.Keeps shard row) (hkey : row'.get? m.key = row.get? m.key) :
    m.Keeps shard row' := by
  unfold Keeps
  rw [hkey]
  exact h

/-- A row whose key is null may lie anywhere. -/
theorem keeps_of_null (h : row.get? m.key = some .null) : m.Keeps shard row := by
  intro value key hvalue hkey
  rw [h] at hvalue
  cases hvalue
  cases hkey

/-- A row is routed by the key that can be read in it. -/
theorem exists_of_routeByRow (h : m.routeByRow row = .ok shard) :
    ∃ value key, row.get? m.key = some value ∧ keyOf? value = some key ∧
      m.chooseShard key = .ok shard := by
  unfold routeByRow at h
  split at h
  · cases h
  · cases h
  · rename_i value _ hvalue
    split at h
    · rename_i key hkey
      exact ⟨value, key, hvalue, hkey, h⟩
    · cases h

/-- A row is written to a shard that has its key. -/
theorem keeps_of_routeByRow (h : m.routeByRow row = .ok shard) : m.Keeps shard row := by
  obtain ⟨value, key, hvalue, hkey, hchosen⟩ := exists_of_routeByRow h
  obtain ⟨s, hs, hrange, hshard⟩ := exists_of_chooseShard hchosen
  intro value' key' hvalue' hkey'
  rw [hvalue] at hvalue'
  cases hvalue'
  rw [hkey] at hkey'
  cases hkey'
  exact ⟨s, hs, hshard, hrange⟩

/-- A row is written to a shard of the map. -/
theorem mem_shardIds_of_routeByRow (h : m.routeByRow row = .ok shard) : shard ∈ m.shardIds := by
  obtain ⟨value, key, -, -, hchosen⟩ := exists_of_routeByRow h
  obtain ⟨s, hs, -, rfl⟩ := exists_of_chooseShard hchosen
  exact List.mem_map_of_mem hs

/-- A row without a key to route by has none, or null. -/
theorem get?_of_missingKey {table key : String}
    (h : m.routeByRow row = .error (.missingKey table key)) :
    row.get? m.key = none ∨ row.get? m.key = some .null := by
  unfold routeByRow at h
  split at h
  · exact Or.inl ‹_›
  · exact Or.inr ‹_›
  · split at h
    · unfold chooseShard at h
      split at h
      · cases h
      · cases h
    · cases h

/-- An integer key reads as itself. -/
theorem keyOf?_of_asInt {value : Json} {key : Int} (h : value.asInt? = some key) :
    keyOf? value = some key := by
  cases value with
  | num n => exact h
  | _ => cases h

end ShardMap

namespace RowTable

/-- A column that a row is given once has the value that it is given. -/
theorem get?_assign_of_some {set : Row} {column : String} {value : Json}
    (honce : set.columns.Nodup) (h : set.get? column = some value) (row : Row) :
    (assign set row).get? column = some value := by
  obtain ⟨entries⟩ := set
  rw [Row.columns] at honce
  rw [Row.get?] at h
  unfold assign
  dsimp only at honce h ⊢
  generalize row = start
  induction entries generalizing start with
  | nil => cases h
  | cons entry rest ih =>
    obtain ⟨name, given⟩ := entry
    rw [List.map_cons, List.nodup_cons] at honce
    rw [List.lookup_cons] at h
    rw [List.foldl_cons]
    by_cases hname : column = name
    · -- The column is not set again behind its entry.
      subst hname
      rw [beq_self_eq_true] at h
      cases h
      rw [Row.get?_foldl_insert_of_not_mem honce.1, Row.get?_insert_self]
    · rw [beq_false_of_ne hname] at h
      exact ih honce.2 h _

end RowTable

namespace ShardMap

variable {m : ShardMap} {shard : ShardId} {row : Row} {set : Row}

/--
A row that an update changes keeps its place: the update was routed by the key that it sets, or it
sets none, or sets it to null.
-/
theorem keeps_assign (honce : set.columns.Nodup) (h : m.Keeps shard row)
    (hroute : m.routeByRow set = .ok shard ∨
      set.get? m.key = none ∨ set.get? m.key = some .null) :
    m.Keeps shard (RowTable.assign set row) := by
  cases hset : set.get? m.key with
  | none => exact h.of_get?_eq (Reading.get?_assign hset row)
  | some value =>
    have hnew := RowTable.get?_assign_of_some honce hset row
    obtain hchosen | hnone | hnull := hroute
    · exact (keeps_of_routeByRow hchosen).of_get?_eq (hnew.trans hset.symm)
    · rw [hset] at hnone
      cases hnone
    · rw [hset] at hnull
      exact keeps_of_null (hnew.trans hnull)

end ShardMap

namespace Sharded

/-- Does a write set no column twice? A row of values has each column once. -/
def SetsOnce : Query → Prop
  | .update q => q.set.columns.Nodup
  | _ => True

/-- The states that writes to a table lead to from empty shards. -/
inductive Reached (link : Sharded Tables) (m : ShardMap) : World Tables → Prop
  | empty {w : World Tables} (h : ∀ shard ∈ link.shardIds, m.rowsOn w shard = []) :
    Reached link m w
  /-- A write whose rows are counted; it may have been refused. -/
  | count {w : World Tables} (hw : Reached link m w) (query : Query)
    (htable : query.table = m.table) (honce : SetsOnce query) :
    Reached link m ((link.connection.queryCount query).outcome w).2
  /-- A write whose count is not wanted; it may have been refused. -/
  | null {w : World Tables} (hw : Reached link m w) (query : Query)
    (htable : query.table = m.table) (honce : SetsOnce query) :
    Reached link m ((link.connection.queryNull query).outcome w).2

/-- Does every row of the table lie on a shard that has its key? -/
def Kept (link : Sharded Tables) (m : ShardMap) (w : World Tables) : Prop :=
  ∀ shard ∈ link.shardIds, ∀ row ∈ m.rowsOn w shard, m.Keeps shard row

variable {m : ShardMap}

/-- An update or a delete that goes by its condition keeps each row in its place. -/
theorem keeps_of_mem_write (reading : Reading m.key) {query : Query}
    (hchange : query.isChange = true) {shard : ShardId} {rows : List Row}
    (hrows : ∀ row ∈ rows, m.Keeps shard row)
    (hassign : ∀ q, query = .update q → ∀ row ∈ rows,
      m.Keeps shard (RowTable.assign q.set row)) :
    ∀ row ∈ reading.write query rows, m.Keeps shard row := by
  intro row' hrow'
  rw [reading.write_of_isChange hchange] at hrow'
  obtain ⟨row, hrow, hmem⟩ := List.mem_flatMap.mp hrow'
  cases query with
  | select q => cases hchange
  | insert q => cases hchange
  | update q =>
    rw [Reading.change, List.mem_singleton] at hmem
    subst hmem
    split
    · exact hassign q rfl row hrow
    · exact hrows row hrow
  | delete q =>
    rw [Reading.change] at hmem
    split at hmem
    · cases hmem
    · rw [List.mem_singleton.mp hmem]
      exact hrows row hrow

/--
A write is routed to some shards of the map, with a part for each that keeps the rows there in their
places.
-/
theorem exists_parts_of_route (hbuilt : m.Built) (reading : Reading m.key) {query : Query}
    (hwrite : query.isSelect = false) (honce : SetsOnce query)
    {routed : List (ShardId × Query)} (hroute : route m query = .ok routed) :
    ∃ (shards : List ShardId) (part : ShardId → Query),
      routed = shards.map (fun shard => (shard, part shard)) ∧ shards.Nodup ∧
      (∀ shard ∈ shards, shard ∈ m.shardIds) ∧
      ∀ shard ∈ shards, ∀ rows : List Row, (∀ row ∈ rows, m.Keeps shard row) →
        ∀ row ∈ reading.write (part shard) rows, m.Keeps shard row := by
  have hbyCondition : ∀ condition : Option Predicate,
      (m.routeByPredicate condition).Nodup ∧
        ∀ shard ∈ m.routeByPredicate condition, shard ∈ m.shardIds := fun condition =>
    ⟨hbuilt.nodup.sublist (m.routeByPredicate_sublist condition),
      fun _ hshard => (m.routeByPredicate_sublist condition).subset hshard⟩
  cases query with
  | select q => cases hwrite
  | delete q =>
    cases hroute
    obtain ⟨hnodup, hsub⟩ := hbyCondition q.predicate
    exact ⟨m.routeByPredicate q.predicate, fun _ => .delete q, rfl, hnodup, hsub,
      fun shard _ rows hrows => keeps_of_mem_write reading rfl hrows nofun⟩
  | insert q =>
    -- Each part has the rows that were routed to its shard, so they belong there.
    obtain ⟨-, shards, hnodup, hmem, rfl⟩ := route_insert hroute
    refine ⟨shards, fun shard => .insert (partOf m q.table q.rows shard), rfl, hnodup, ?_, ?_⟩
    · intro shard hshard
      obtain ⟨row, -, hrow⟩ := (hmem shard).mp hshard
      exact ShardMap.mem_shardIds_of_routeByRow (ShardMap.routeByRow_of_shardOf? hrow)
    · intro shard _ rows hrows row hrow
      rw [Reading.write, List.mem_append] at hrow
      obtain hold | hnew := hrow
      · exact hrows row hold
      · rw [partOf, List.mem_filter, decide_eq_true_iff] at hnew
        exact ShardMap.keeps_of_routeByRow (ShardMap.routeByRow_of_shardOf? hnew.2)
  | update q =>
    rw [route] at hroute
    split at hroute
    · -- The update sets the key, and goes to the one shard that may have rows with that key.
      rename_i shard hchosen
      cases hroute
      refine ⟨[shard], fun _ => .update q, rfl, List.nodup_singleton shard, ?_, ?_⟩
      · intro other hother
        rw [List.mem_singleton.mp hother]
        exact ShardMap.mem_shardIds_of_routeByRow hchosen
      · intro other hother rows hrows
        rw [List.mem_singleton.mp hother] at hrows ⊢
        refine keeps_of_mem_write reading rfl hrows ?_
        rintro _ ⟨⟩ row hrow
        exact ShardMap.keeps_assign honce (hrows row hrow) (Or.inl hchosen)
    · -- The update sets no key, or sets it to null, so no row gets a key that can be read.
      rename_i hmissing
      cases hroute
      obtain ⟨hnodup, hsub⟩ := hbyCondition q.predicate
      refine ⟨m.routeByPredicate q.predicate, fun _ => .update q, rfl, hnodup, hsub, ?_⟩
      intro shard _ rows hrows
      refine keeps_of_mem_write reading rfl hrows ?_
      rintro _ ⟨⟩ row hrow
      exact ShardMap.keeps_assign honce (hrows row hrow)
        (Or.inr (ShardMap.get?_of_missingKey hmissing))
    · cases hroute

namespace OverTables

variable {link : Sharded Tables} {reading : Reading m.key} {w : World Tables}

/-- A write whose rows are counted keeps every row in its place. -/
theorem kept_count (h : link.OverTables m reading) (hkept : Kept link m w) {query : Query}
    (htable : query.table = m.table) (honce : SetsOnce query) :
    Kept link m ((link.connection.queryCount query).outcome w).2 := by
  have hmap : link.mapOf query.table = .ok m := by rw [htable, h.mapped]
  -- A write that is refused changes nothing.
  have hrefused : ∀ {e : Error}, (link.connection.queryCount query).outcome w = (.error e, w) →
      Kept link m ((link.connection.queryCount query).outcome w).2 := by
    intro e hcount
    rw [hcount]
    exact hkept
  cases hwrite : query.isSelect with
  | true =>
    refine hrefused (e := .unsupported .onlyWrites) ?_
    show (link.count query).outcome w = _
    rw [count, hwrite]
    rfl
  | false =>
    cases hroute : route m query with
    | error e =>
      exact hrefused (outcome_count_of_error hwrite (plan_eq_error_of_route hmap hroute) w)
    | ok routed =>
      obtain ⟨shards, part, rfl, hnodup, hsub, hparts⟩ :=
        exists_parts_of_route h.built reading hwrite honce hroute
      by_cases hnil : shards = []
      · subst hnil
        exact hrefused (outcome_count_of_error hwrite (plan_eq_unroutable hmap hroute) w)
      · obtain ⟨w', hcount, hdone, hleft⟩ :=
          h.outcome_count htable hwrite hroute hnil hnodup hsub w
        rw [hcount]
        -- Shards that the write was routed to did their part, and the others are as they were.
        intro shard hshard row hrow
        by_cases hin : shard ∈ shards
        · rw [hdone shard hin] at hrow
          exact hparts shard hin _ (hkept shard hshard) row hrow
        · rw [hleft shard hin] at hrow
          exact hkept shard hshard row hrow

/-- A write whose count is not wanted leaves a shard as one whose rows are counted. -/
theorem outcome_onShard_queryNull (h : link.OverTables m reading) (shard : ShardId) (part : Query)
    (w : World Tables) :
    (link.onShard shard fun c => c.queryNull part).outcome w =
      (((link.onShard shard fun c => c.queryCount part).outcome w).1.map fun _ => (),
        ((link.onShard shard fun c => c.queryCount part).outcome w).2) := by
  by_cases hshard : shard ∈ link.shardIds
  · rw [h.onShard_eq hshard, h.onShard_eq hshard]
    rfl
  · have hnone : link.shards.lookup shard = none := by
      rw [List.lookup_eq_none_iff]
      intro p hp
      rw [bne_iff_ne]
      rintro rfl
      exact hshard (List.mem_map_of_mem hp)
    rw [onShard, onShard, Sharded.shard, hnone]
    rfl

/-- Writes whose counts are not wanted leave the shards as writes whose rows are counted. -/
theorem outcome_writeEach (h : link.OverTables m reading) (plan : List (ShardId × Query))
    (w : World Tables) :
    ((link.writeEach plan).outcome w).2 =
      ((link.totalOf Connection.queryCount plan).outcome w).2 := by
  induction plan generalizing w with
  | nil => rfl
  | cons p rest ih =>
    obtain ⟨shard, part⟩ := p
    have hnull := h.outcome_onShard_queryNull shard part w
    cases hcount : (link.onShard shard fun c => c.queryCount part).outcome w with
    | mk result w₁ =>
      rw [hcount] at hnull
      cases result with
      | error e =>
        rw [writeEach, totalOf, Call.outcome_bind_of_error hnull,
          Call.outcome_bind_of_error hcount]
      | ok n =>
        rw [writeEach, totalOf, Call.outcome_bind_of_ok hnull, Call.outcome_bind_of_ok hcount,
          ih w₁]
        cases hrest : (link.totalOf Connection.queryCount rest).outcome w₁ with
        | mk result w₂ =>
          cases result with
          | error e => rw [Call.outcome_bind_of_error hrest]
          | ok total => rw [Call.outcome_bind_of_ok hrest, Call.outcome_pure]

/-- Whether the count of a write is wanted makes no difference to the shards. -/
theorem outcome_queryNull (h : link.OverTables m reading) (query : Query) (w : World Tables) :
    ((link.connection.queryNull query).outcome w).2 =
      ((link.connection.queryCount query).outcome w).2 := by
  show ((link.writeNull query).outcome w).2 = ((link.count query).outcome w).2
  rw [writeNull, count]
  split
  · rfl
  · cases link.plan query with
    | error e => rfl
    | ok plan => exact h.outcome_writeEach plan w

/-- In every reachable state each row lies on a shard that has its key. -/
theorem kept_of_reached (h : link.OverTables m reading) (hw : Reached link m w) :
    Kept link m w := by
  induction hw with
  | empty hempty =>
    intro shard hshard row hrow
    rw [hempty shard hshard] at hrow
    exact absurd hrow List.not_mem_nil
  | count _ _ htable honce ih => exact h.kept_count ih htable honce
  | null _ _ htable honce ih =>
    rw [h.outcome_queryNull]
    exact h.kept_count ih htable honce

/--
Rows stay reachable. In every state that writes lead to from empty shards, a row whose key can be
read, as an integer or as a text that holds one, lies on a shard a range of which has the key. If
the key is an integer, then a read whose condition is true of the row is planned, and the plan asks
the shard that the row lies on.
-/
theorem rows_stay_reachable (link : Sharded Tables) (m : ShardMap) (reading : Reading m.key)
    (h : link.OverTables m reading) {w : World Tables} (hw : Reached link m w) {shard : ShardId}
    (hshard : shard ∈ link.shardIds) {row : Row} (hrow : row ∈ m.rowsOn w shard) :
    (∀ value key, row.get? m.key = some value → ShardMap.keyOf? value = some key →
      ∃ s ∈ m.shards, s.shard = shard ∧ s.range.contains key = true) ∧
    ∀ (select : Select) (value : Json) (key : Int), select.table = m.table →
      row.get? m.key = some value → value.asInt? = some key →
      reading.meets select.predicate row = true →
      ∃ plan part, link.plan (.select select) = .ok plan ∧ (shard, part) ∈ plan := by
  have hkeeps := h.kept_of_reached hw shard hshard row hrow
  refine ⟨hkeeps, ?_⟩
  intro select value key htable hvalue hkey hmeets
  obtain ⟨s, hs, hshard', hrange⟩ := hkeeps value key hvalue (ShardMap.keyOf?_of_asInt hkey)
  have hholds : m.Holds shard row := ⟨s, hs, hshard', value, key, hvalue, hkey, hrange⟩
  have hrouted := hholds.mem_routeByPredicate hmeets
  have hmap : link.mapOf (Query.select select).table = .ok m := by
    rw [Query.table, htable, h.mapped]
  have hknown : ∀ other ∈ m.routeByPredicate select.predicate, other ∈ link.shardIds :=
    fun other hother => h.registered other ((m.routeByPredicate_sublist _).subset hother)
  have hroute : route m (.select select) = .ok ((m.routeByPredicate select.predicate).map
      fun shard => (shard, .select select)) := rfl
  have hplan := plan_eq_ok hmap hroute (List.ne_nil_of_mem hrouted) hknown
  exact ⟨_, _, hplan, List.mem_map_of_mem ((link.inOrder_perm _).mem_iff.mpr hrouted)⟩

/-- A row of the table with any key. -/
def entry (id : Json) (name : String) : Row := ⟨[("id", id), ("name", .str name)]⟩

/-- An update of the key where the key is some integer. -/
def rekey (id : Json) (held : Int) : Query :=
  .update ⟨"users", ⟨[("id", id)]⟩, some (.compare (.bare "id") .eq (.ofInt held))⟩

/-- Rows on both shards, one of which gets a text as its key, one an integer, and one null. -/
def rekeyed : World Tables :=
  let inserted := ((pair.connection.queryCount
    (.insert ⟨"users", [user 60 "a", user 150 "b", user 70 "c"], []⟩)).outcome emptyWorld).2
  let texted := ((pair.connection.queryCount (rekey (.str " 90 ") 60)).outcome inserted).2
  let moved := ((pair.connection.queryCount (rekey (.ofInt 80) 70)).outcome texted).2
  ((pair.connection.queryNull (rekey .null 150)).outcome moved).2

theorem reached_rekeyed : Reached pair ShardMap.overlapping rekeyed := by
  have honce : ∀ id held, SetsOnce (rekey id held) := fun _ _ => List.nodup_singleton "id"
  have hempty : Reached pair ShardMap.overlapping emptyWorld := .empty fun _ _ => rfl
  have hinserted := hempty.count
    (.insert ⟨"users", [user 60 "a", user 150 "b", user 70 "c"], []⟩) rfl trivial
  have htexted := hinserted.count (rekey (.str " 90 ") 60) rfl (honce _ _)
  have hmoved := htexted.count (rekey (.ofInt 80) 70) rfl (honce _ _)
  exact hmoved.null (rekey .null 150) rfl (honce _ _)

/--
The rows that got keys 90, as a text, and 80 are on the first shard, which has both keys, and a read
of key 80 asks that shard.
-/
theorem rows_stay_reachable_rekeyed :
    ShardMap.overlapping.rowsOn rekeyed 7 = [entry (.str " 90 ") "a", entry (.ofInt 80) "c"] ∧
      ShardMap.overlapping.rowsOn rekeyed 3 = [entry .null "b"] ∧
      (∃ s ∈ ShardMap.overlapping.shards, s.shard = 7 ∧ s.range.contains 90 = true) ∧
      ∃ plan part, pair.plan (.select { Select.all "users" with
        predicate := some (.compare (.bare "id") .eq (.ofInt 80)) }) = .ok plan ∧
          (7, part) ∈ plan := by
  have hfirst : ShardMap.overlapping.rowsOn rekeyed 7 =
      [entry (.str " 90 ") "a", entry (.ofInt 80) "c"] := by cbv
  have hsecond : ShardMap.overlapping.rowsOn rekeyed 3 = [entry .null "b"] := by cbv
  have htext : entry (.str " 90 ") "a" ∈ ShardMap.overlapping.rowsOn rekeyed 7 := by
    rw [hfirst]
    exact List.mem_cons_self
  have hint : entry (.ofInt 80) "c" ∈ ShardMap.overlapping.rowsOn rekeyed 7 := by
    rw [hfirst]
    exact List.mem_cons_of_mem _ List.mem_cons_self
  have hlies := rows_stay_reachable pair ShardMap.overlapping (Reading.integers "id")
    overTables_pair reached_rekeyed (by decide) htext
  have hread := rows_stay_reachable pair ShardMap.overlapping (Reading.integers "id")
    overTables_pair reached_rekeyed (by decide) hint
  exact ⟨hfirst, hsecond, hlies.1 (.str " 90 ") 90 rfl (by cbv),
    hread.2 _ (.ofInt 80) 80 rfl rfl (by decide) (by decide)⟩

end OverTables

end Sharded

end SqlFederation
