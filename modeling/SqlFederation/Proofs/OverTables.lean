import SqlFederation.Proofs.Paging
import SqlFederation.Proofs.Pieces
import SqlFederation.Proofs.Plan
import SqlFederation.Proofs.RowTable

/-!
# Compositions over plain tables

The outcome of the calls of a sharded link whose shards are plain tables (`Sharded.OverTables`). A
write with a part for each of some shards changes the table of each of them as its part says and no
other table, and counts the rows of all parts (`Sharded.OverTables.outcome_count`). A read without
aggregates, groups, order and page has the rows of the shards it goes to, one shard after the other
(`Sharded.OverTables.outcome_selectSet`).
-/

namespace SqlFederation

open RowTable (Tables Reading)

/-- A read of single rows: no aggregates, groups, order or page. -/
structure Select.IsPlain (select : Select) : Prop where
  aggregates : select.hasAggregates = false
  groupBy : select.groupBy = []
  orderBy : select.orderBy = []
  limit : select.limit = none
  offset : select.offset = none

namespace Select.IsPlain

variable {select : Select}

/-- A read of single rows is one on a table of another name. -/
theorem retarget (h : select.IsPlain) (target : String) : (select.retarget target).IsPlain := by
  unfold Select.retarget
  split
  · exact h
  · refine ⟨?_, ?_, ?_, h.limit, h.offset⟩
    · rw [Select.hasAggregates, List.any_eq_false]
      intro output hmem
      obtain ⟨o, ho, rfl⟩ := List.mem_map.mp hmem
      obtain ⟨expression, label⟩ := o
      cases expression with
      | column column => exact Bool.false_ne_true
      | aggregate function column =>
        exact absurd (Select.function?_eq_none h.aggregates ho) (Option.some_ne_none _)
    · rw [h.groupBy, List.map_nil]
    · rw [h.orderBy, List.map_nil]

theorem isGrouped (h : select.IsPlain) : select.isGrouped = false := by
  rw [Select.isGrouped, h.aggregates, h.groupBy]
  rfl

/-- A shard is asked for single rows as the whole is. -/
theorem shardSelect_eq (h : select.IsPlain) : Merge.shardSelect select = select := by
  rw [Merge.shardSelect_of_not_grouped h.isGrouped, h.limit]
  have hlimit := h.limit
  have hoffset := h.offset
  cases select
  cases hlimit
  cases hoffset
  rfl

/-- Single rows are neither sorted nor cut. -/
theorem paginate_sortRows_eq (h : select.IsPlain) (rows : List Row) :
    Merge.paginate select.limit select.offset (Merge.sortRows select rows) = rows := by
  have hkeys : Merge.sortKeys select = [] := by
    rw [Merge.sortKeys, h.orderBy, List.map_nil]
  rw [h.limit, h.offset, Merge.sortRows, hkeys, List.mergeSort_of_pairwise]
  · rfl
  · exact List.pairwise_of_forall fun _ _ => rfl

/-- Single rows are merged by putting them together. -/
theorem mergeRows_eq (h : select.IsPlain) (rows : List Row) :
    Merge.mergeRows select rows = .ok rows := by
  rw [Merge.mergeRows_of_not_grouped h.isGrouped, h.paginate_sortRows_eq]

end Select.IsPlain

namespace ShardMap

/-- The rows that a shard holds of the table. -/
def rowsOn (m : ShardMap) (w : World Tables) (shard : ShardId) : List Row :=
  w.endpoints shard (m.physicalTable shard)

/-- The state with other rows of the table on a shard. -/
def putRowsOn (m : ShardMap) (w : World Tables) (shard : ShardId) (rows : List Row) :
    World Tables :=
  { w with endpoints := w.endpoints.put shard (m.physicalTable shard) rows }

theorem rowsOn_putRowsOn_self (m : ShardMap) (w : World Tables) (shard : ShardId)
    (rows : List Row) : m.rowsOn (m.putRowsOn w shard rows) shard = rows := by
  simp only [rowsOn, putRowsOn, Tables.put, and_self, if_true]

theorem rowsOn_putRowsOn_of_ne {shard other : ShardId} (h : other ≠ shard) (m : ShardMap)
    (w : World Tables) (rows : List Row) :
    m.rowsOn (m.putRowsOn w shard rows) other = m.rowsOn w other := by
  simp only [rowsOn, putRowsOn, Tables.put, h, false_and, if_false]

end ShardMap

namespace Sharded

/-- A composition in which a table is spread over plain tables. -/
structure OverTables (link : Sharded Tables) (m : ShardMap) (reading : Reading m.key) : Prop where
  /-- Each shard is a database of its own that never fails. -/
  plain : ∀ p ∈ link.shards, p.2 = reading.connection p.1
  /-- No shard is registered twice. -/
  distinct : link.shardIds.Nodup
  /-- The map was built range by range. -/
  built : m.Built
  /-- The composition has the map. -/
  mapped : link.mapOf m.table = .ok m
  /-- Every shard of the map is registered. -/
  registered : ∀ shard ∈ m.shardIds, shard ∈ link.shardIds

namespace OverTables

variable {link : Sharded Tables} {m : ShardMap} {reading : Reading m.key}

/-- A call on a registered shard is a call on its tables. -/
theorem onShard_eq {α : Type} (h : link.OverTables m reading) {shard : ShardId}
    (hshard : shard ∈ link.shardIds)
    (call : Connection (World Tables) → Call (World Tables) α) :
    link.onShard shard call = call (reading.connection shard) := by
  obtain ⟨connection, hmem, hcall⟩ := exists_onShard_eq hshard
  rw [hcall, ← h.plain _ hmem]

/-- A write that is aimed at a shard changes the table there and counts the rows. -/
theorem outcome_runWrite (reading : Reading m.key) (shard : ShardId) (query : Query)
    (w : World Tables) :
    (reading.runWrite shard (query.retarget (m.physicalTable shard))).outcome w =
      (.ok (reading.affected query (m.rowsOn w shard)).length,
        m.putRowsOn w shard (reading.write query (m.rowsOn w shard))) := by
  have hrun : ∀ q : Query, (reading.runWrite shard q).outcome w =
      (.ok (reading.affected q (w.endpoints shard q.table)).length,
        { w with
          endpoints := w.endpoints.put shard q.table
            (reading.write q (w.endpoints shard q.table)) }) := fun q => rfl
  rw [hrun, RowTable.table_retarget, Reading.affected_retarget, Reading.write_retarget]
  rfl

variable {shards : List ShardId} {part : ShardId → Query}

/--
Asking some shards one after the other for their parts of a write: each of them does its part, and
the tables of the others stay.
-/
theorem outcome_totalOf (h : link.OverTables m reading) (part : ShardId → Query)
    (hnodup : shards.Nodup) (hknown : ∀ shard ∈ shards, shard ∈ link.shardIds) (w : World Tables) :
    ∃ w', (link.totalOf Connection.queryCount (shards.map fun shard =>
        (shard, (part shard).retarget (m.physicalTable shard)))).outcome w =
          (.ok (shards.flatMap fun shard =>
            reading.affected (part shard) (m.rowsOn w shard)).length, w') ∧
      (∀ shard ∈ shards, m.rowsOn w' shard = reading.write (part shard) (m.rowsOn w shard)) ∧
      ∀ shard, shard ∉ shards → m.rowsOn w' shard = m.rowsOn w shard := by
  induction shards generalizing w with
  | nil => exact ⟨w, rfl, by simp, fun shard _ => rfl⟩
  | cons s rest ih =>
    obtain ⟨hs, hrest⟩ := List.nodup_cons.mp hnodup
    -- The write on the first shard leaves the rows of the other shards.
    have hcount := outcome_runWrite reading s (part s) w
    have hself := m.rowsOn_putRowsOn_self w s (reading.write (part s) (m.rowsOn w s))
    have hother : ∀ shard, shard ≠ s → _ := fun shard hne =>
      ShardMap.rowsOn_putRowsOn_of_ne hne m w (reading.write (part s) (m.rowsOn w s))
    generalize m.putRowsOn w s (reading.write (part s) (m.rowsOn w s)) = w₁ at hcount hself hother
    obtain ⟨w', hcounts, hdone, hleft⟩ :=
      ih hrest (fun shard hshard => hknown shard (List.mem_cons_of_mem s hshard)) w₁
    refine ⟨w', ?_, ?_, ?_⟩
    · have hhead : (link.onShard s fun c =>
          c.queryCount ((part s).retarget (m.physicalTable s))).outcome w =
            (.ok (reading.affected (part s) (m.rowsOn w s)).length, w₁) := by
        rw [h.onShard_eq (hknown s List.mem_cons_self)]
        exact hcount
      have hsame : (rest.flatMap fun shard =>
          reading.affected (part shard) (m.rowsOn w₁ shard)) =
            rest.flatMap fun shard => reading.affected (part shard) (m.rowsOn w shard) := by
        apply List.flatMap_congr
        intro shard hshard
        rw [hother shard (fun heq => hs (heq ▸ hshard))]
      rw [List.map_cons, totalOf, Call.outcome_bind_of_ok hhead, Call.outcome_bind_of_ok hcounts,
        hsame, List.flatMap_cons, List.length_append]
      rfl
    · intro shard hshard
      rcases List.mem_cons.mp hshard with rfl | hmem
      · rw [hleft shard hs, hself]
      · rw [hdone shard hmem, hother shard (fun heq => hs (heq ▸ hmem))]
    · intro shard hshard
      rw [List.mem_cons, not_or] at hshard
      rw [hleft shard hshard.2, hother shard hshard.1]

/-- A write that is routed to some shards is done on each of them. -/
theorem outcome_count (h : link.OverTables m reading) {query : Query}
    (htable : query.table = m.table) (hwrite : query.isSelect = false)
    (hroute : route m query = .ok (shards.map fun shard => (shard, part shard)))
    (hne : shards ≠ []) (hnodup : shards.Nodup) (hsub : ∀ shard ∈ shards, shard ∈ m.shardIds)
    (w : World Tables) :
    ∃ w', (link.connection.queryCount query).outcome w =
          (.ok (shards.flatMap fun shard =>
            reading.affected (part shard) (m.rowsOn w shard)).length, w') ∧
      (∀ shard ∈ shards, m.rowsOn w' shard = reading.write (part shard) (m.rowsOn w shard)) ∧
      ∀ shard, shard ∉ shards → m.rowsOn w' shard = m.rowsOn w shard := by
  have hknown : ∀ shard ∈ shards, shard ∈ link.shardIds :=
    fun shard hshard => h.registered shard (hsub shard hshard)
  have hplan := plan_eq_ok (htable ▸ h.mapped) hroute hne hknown
  have hperm := link.inOrder_perm shards
  obtain ⟨w', hcount, hdone, hleft⟩ := h.outcome_totalOf part
    (hperm.nodup_iff.mpr hnodup) (fun shard hshard => hknown shard (hperm.mem_iff.mp hshard)) w
  refine ⟨w', ?_, ?_, ?_⟩
  · show (link.count query).outcome w = _
    unfold count
    rw [hwrite, hplan, ← (hperm.flatMap_right _).length_eq]
    exact hcount
  · exact fun shard hshard => hdone shard (hperm.mem_iff.mpr hshard)
  · exact fun shard hshard => hleft shard fun hmem => hshard (hperm.mem_iff.mp hmem)

/-- A read of single rows that is aimed at a shard has the rows of the table there. -/
theorem outcome_runRead (reading : Reading m.key) (shard : ShardId) {select : Select}
    (hplain : select.IsPlain) (w : World Tables) :
    (reading.runRead shard (.select (select.retarget (m.physicalTable shard)))).outcome w =
      (.ok (reading.read select (m.rowsOn w shard)), w) := by
  have hrun : ∀ q : Select, (reading.runRead shard (.select q)).outcome w =
      (.ok (reading.page q (w.endpoints shard q.table)), w) := fun q => rfl
  have htable : (select.retarget (m.physicalTable shard)).table = m.physicalTable shard :=
    RowTable.table_retarget (.select select) (m.physicalTable shard)
  rw [hrun, Reading.page, (hplain.retarget _).paginate_sortRows_eq, Reading.read_retarget, htable]
  rfl

/-- A read of single rows that is routed to some shards has the rows of each of them. -/
theorem outcome_selectSet (h : link.OverTables m reading) {select : Select}
    (htable : select.table = m.table) (hplain : select.IsPlain)
    (hne : m.routeByPredicate select.predicate ≠ []) (w : World Tables) :
    (link.connection.querySet (.select select)).outcome w =
      (.ok ((link.inOrder (m.routeByPredicate select.predicate)).flatMap fun shard =>
        reading.read select (m.rowsOn w shard)), w) := by
  have hmap : link.mapOf select.table = .ok m := by rw [htable, h.mapped]
  have hknown : ∀ shard ∈ m.routeByPredicate select.predicate, shard ∈ link.shardIds :=
    fun shard hshard => h.registered shard ((m.routeByPredicate_sublist _).subset hshard)
  apply Sharded.outcome_selectSet (fun shard => reading.read select (m.rowsOn w shard)) hmap hne
    hknown
  · intro shard hone
    have hshard : shard ∈ m.routeByPredicate select.predicate := by
      rw [← (link.inOrder_perm _).mem_iff, hone]
      exact List.mem_singleton_self shard
    rw [h.onShard_eq (hknown shard hshard), hone, List.flatMap_singleton]
    exact outcome_runRead reading shard hplain w
  · intro shard hshard
    rw [h.onShard_eq (hknown shard hshard), (hplain.retarget _).shardSelect_eq]
    exact outcome_runRead reading shard hplain w
  · exact hplain.mergeRows_eq _

end OverTables

/-- Two shards of plain tables, registered in another order than the map has. -/
def pair : Sharded Tables where
  shards :=
    [(3, (Reading.integers "id").connection 3), (7, (Reading.integers "id").connection 7)]
  maps := [ShardMap.overlapping]
  lock := none

/-- A user of the table. -/
def user (id : Int) (name : String) : Row := ⟨[("id", .ofInt id), ("name", .str name)]⟩

/-- A world of empty tables. -/
def emptyWorld : World Tables := ⟨⟨default, 0, [], ⟨[], []⟩, [], []⟩, [], [], fun _ _ => []⟩

/-- The pair is a composition over plain tables. -/
theorem overTables_pair : pair.OverTables ShardMap.overlapping (Reading.integers "id") where
  plain := by
    intro p hp
    simp only [pair, List.mem_cons, List.not_mem_nil, or_false] at hp
    rcases hp with rfl | rfl
    · rfl
    · rfl
  distinct := by decide
  built := by
    have h₇ : (ShardMap.empty "users" "id").addRange 7 ⟨some 0, some 100⟩ =
        .ok ⟨"users", "id", [⟨7, ⟨some 0, some 100⟩, none⟩]⟩ := rfl
    have h₃ : ShardMap.addRange ⟨"users", "id", [⟨7, ⟨some 0, some 100⟩, none⟩]⟩ 3
        ⟨some 50, none⟩ = .ok ⟨"users", "id",
          [⟨7, ⟨some 0, some 100⟩, none⟩, ⟨3, ⟨some 50, none⟩, none⟩]⟩ := rfl
    have hnamed : ShardMap.withPhysicalTable ⟨"users", "id",
        [⟨7, ⟨some 0, some 100⟩, none⟩, ⟨3, ⟨some 50, none⟩, none⟩]⟩ 3 "users_b" =
          .ok ShardMap.overlapping := rfl
    exact (((ShardMap.Built.empty "users" "id").addRange h₇).addRange h₃).withPhysicalTable hnamed
  mapped := rfl
  registered := by decide

end Sharded

end SqlFederation
