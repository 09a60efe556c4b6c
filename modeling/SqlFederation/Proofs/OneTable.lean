import Mathlib
import SqlFederation.Proofs.OverTables

/-!
# A sharded table is one table

Runs of writes on a composition over plain tables beside the same run on one plain table. The
invariant is `Sharded.Placed`: each row lies on a shard whose range holds its key, and the rows of
all shards are those of the single table. `Sharded.OverTables.placed_step` carries it through one
write, where two facts do the work: a shard that a condition is not routed to has no row that meets
it (`Sharded.Placed.not_meets`), so that an update or a delete may as well have gone to every shard,
and the parts of an insert are its rows up to order (`Pieces.flatMap_filter_perm`).
`Sharded.OverTables.behaves_as_one_table` follows by induction on the run.
-/

namespace SqlFederation

open RowTable (Tables Reading)

namespace ShardMap

/-- Does a row belong on a shard: does a range of the shard hold its key? -/
def Holds (m : ShardMap) (shard : ShardId) (row : Row) : Prop :=
  ∃ s ∈ m.shards, s.shard = shard ∧ ∃ value key, row.get? m.key = some value ∧
    value.asInt? = some key ∧ s.range.contains key = true

variable {m : ShardMap} {shard : ShardId} {row row' : Row}

theorem Holds.mem_shardIds (h : m.Holds shard row) : shard ∈ m.shardIds := by
  obtain ⟨s, hs, rfl, -⟩ := h
  exact List.mem_map_of_mem hs

/-- Where a row belongs depends on its key alone. -/
theorem Holds.of_get?_eq (h : m.Holds shard row) (hkey : row'.get? m.key = row.get? m.key) :
    m.Holds shard row' := by
  unfold Holds
  rw [hkey]
  exact h

/-- A condition that a row meets is routed to each shard that the row belongs on. -/
theorem Holds.mem_routeByPredicate (h : m.Holds shard row) {reading : Reading m.key}
    {condition : Option Predicate} (hmeets : reading.meets condition row = true) :
    shard ∈ m.routeByPredicate condition := by
  cases condition with
  | none => exact h.mem_shardIds
  | some p =>
    obtain ⟨s, hs, rfl, value, key, hvalue, hkey, hrange⟩ := h
    rw [Reading.meets, decide_eq_true_iff] at hmeets
    exact ShardMap.mem_routeByPredicate (reading.readsKey hvalue hkey) hmeets hs hrange

/-- Is the key of a row an integer, or absent? -/
def KeyIsInt (m : ShardMap) (row : Row) : Prop :=
  ∀ value, row.get? m.key = some value → value = .null ∨ ∃ key, value.asInt? = some key

/-- A row is written to a shard that it belongs on. -/
theorem holds_of_shardOf? (hkey : m.KeyIsInt row) (h : m.shardOf? row = some shard) :
    m.Holds shard row := by
  have hroute := routeByRow_of_shardOf? h
  cases hvalue : row.get? m.key with
  | none =>
    rw [routeByRow, hvalue] at hroute
    cases hroute
  | some value =>
    rcases hkey value hvalue with rfl | ⟨key, hint⟩
    · rw [routeByRow, hvalue] at hroute
      cases hroute
    · rw [routeByRow_of_asInt hvalue hint] at hroute
      obtain ⟨s, hs, hrange, rfl⟩ := exists_of_chooseShard hroute
      exact ⟨s, hs, rfl, value, key, hvalue, hint, hrange⟩

/-- A row that is not routed has no key, or a key that no shard holds. -/
theorem eq_of_routeByRow_error {e : Error} (h : m.routeByRow row = .error e) :
    e = .missingKey m.table m.key ∨ ∃ value, e = .noShardFor m.key value := by
  unfold routeByRow at h
  split at h
  · cases h
    exact Or.inl rfl
  · cases h
    exact Or.inl rfl
  · split at h
    · unfold chooseShard at h
      split at h
      · cases h
      · cases h
        exact Or.inr ⟨_, rfl⟩
    · cases h
      exact Or.inr ⟨_, rfl⟩

end ShardMap

namespace RowTable.Reading

variable {key : String} (reading : Reading key)

/-- An update or a delete that does not set a column keeps it. -/
theorem get?_of_mem_change {query : Query} {column : String} {row row' : Row}
    (hset : ∀ q, query = .update q → q.set.get? column = none)
    (h : row' ∈ reading.change query row) : row'.get? column = row.get? column := by
  cases query with
  | select q => rw [List.mem_singleton.mp h]
  | insert q => rw [List.mem_singleton.mp h]
  | update q =>
    rw [change, List.mem_singleton] at h
    subst h
    split
    · exact get?_assign (hset q rfl) row
    · rfl
  | delete q =>
    rw [change] at h
    split at h
    · exact absurd h List.not_mem_nil
    · rw [List.mem_singleton.mp h]

/-- An update or a delete leaves rows none of which meets its condition. -/
theorem flatMap_change_eq {query : Query} {rows : List Row}
    (h : ∀ row ∈ rows, reading.meets query.predicate row = false) :
    rows.flatMap (reading.change query) = rows := by
  have hsame : rows.flatMap (reading.change query) = rows.flatMap fun row => [row] := by
    apply List.flatMap_congr
    intro row hrow
    exact reading.change_of_not_meets (h row hrow)
  rw [hsame, List.flatMap_singleton']

end RowTable.Reading

namespace Sharded

/-- The rows of all shards of a composition. -/
def rowsOf (link : Sharded Tables) (m : ShardMap) (w : World Tables) : List Row :=
  link.shardIds.flatMap (m.rowsOn w)

/-- Every row lies where it belongs, and together the rows are those of one table. -/
structure Placed (link : Sharded Tables) (m : ShardMap) (w : World Tables) (table : List Row) :
    Prop where
  /-- The rows of a shard belong on it. -/
  holds : ∀ shard ∈ link.shardIds, ∀ row ∈ m.rowsOn w shard, m.Holds shard row
  /-- No row is lost and none is added. -/
  rows : (link.rowsOf m w).Perm table

namespace Placed

variable {link : Sharded Tables} {m : ShardMap} {w : World Tables} {table : List Row}

/-- A shard that a condition is not routed to has no row that meets it. -/
theorem not_meets (h : Placed link m w table) (reading : Reading m.key)
    {condition : Option Predicate} {shard : ShardId} (hshard : shard ∈ link.shardIds)
    (hout : shard ∉ m.routeByPredicate condition) :
    ∀ row ∈ m.rowsOn w shard, reading.meets condition row = false := by
  intro row hrow
  rw [Bool.eq_false_iff]
  intro hmeets
  exact hout ((h.holds shard hshard row hrow).mem_routeByPredicate hmeets)

/-- A condition that is routed nowhere is met by no row of the single table. -/
theorem not_meets_of_routed_nowhere (h : Placed link m w table) (reading : Reading m.key)
    {condition : Option Predicate} (hnil : m.routeByPredicate condition = []) :
    ∀ row ∈ table, reading.meets condition row = false := by
  intro row hrow
  obtain ⟨shard, hshard, hmem⟩ := List.mem_flatMap.mp (h.rows.mem_iff.mpr hrow)
  have hout : shard ∉ m.routeByPredicate condition := by
    rw [hnil]
    exact List.not_mem_nil
  exact h.not_meets reading hshard hout row hmem

end Placed

/--
The writes of a run: the rows of inserts have integer keys or none, and updates leave the key alone.
A read is admitted too; it is no write and is refused.
-/
def Admissible (m : ShardMap) : Query → Prop
  | .select _ => True
  | .insert q => q.table = m.table ∧ q.rows ≠ [] ∧ ∀ row ∈ q.rows, m.KeyIsInt row
  | .update q => q.table = m.table ∧ q.set.get? m.key = none
  | .delete q => q.table = m.table

/-- The single table behind a write; an insert that the composition refuses is left out. -/
def tableBehind {key : String} (reading : Reading key) (query : Query) (table : List Row) :
    Except Error Nat → List Row
  | .ok _ => reading.write query table
  | .error _ =>
    match query with
    | .insert _ => table
    | _ => reading.write query table

/-- One write on the composition and on the single table. -/
def step {key : String} (link : Sharded Tables) (reading : Reading key)
    (state : World Tables × List Row) (query : Query) : World Tables × List Row :=
  let (answer, w) := (link.connection.queryCount query).outcome state.1
  (w, tableBehind reading query state.2 answer)

/--
What an answer to a write says about the single table: a count is the count there; a write that is
not routed affects no row there; an insert that is refused, or a read, leaves every shard as it was.
There are no other answers.
-/
def Agrees {key : String} (reading : Reading key) (query : Query) (table : List Row)
    (w w' : World Tables) : Except Error Nat → Prop
  | .ok count => count = (reading.affected query table).length
  | .error (.unroutable _) =>
    w' = w ∧ query.isChange = true ∧ ∀ row ∈ table, reading.meets query.predicate row = false
  | .error (.missingKey ..) | .error (.noShardFor ..) => w' = w ∧ ∃ q, query = .insert q
  | .error (.unsupported .onlyWrites) => w' = w ∧ query.isSelect = true
  | .error _ => False

/-- An update that leaves the key alone, or a delete, goes where its condition is routed. -/
theorem route_of_isChange {m : ShardMap} {query : Query} (h : Admissible m query)
    (hchange : query.isChange = true) :
    route m query =
      .ok ((m.routeByPredicate query.predicate).map fun shard => (shard, query)) := by
  cases query with
  | select q => cases hchange
  | insert q => cases hchange
  | delete q => rfl
  | update q =>
    have hmissing : m.routeByRow q.set = .error (.missingKey m.table m.key) := by
      rw [ShardMap.routeByRow, h.2]
    simp only [route, hmissing]
    rfl

/-- The table of a write of a run is the sharded one. -/
theorem Admissible.table_eq {m : ShardMap} {query : Query} (h : Admissible m query)
    (hwrite : query.isSelect = false) : query.table = m.table := by
  cases query with
  | select q => cases hwrite
  | insert q => exact h.1
  | update q => exact h.1
  | delete q => exact h

/-- An update or a delete is run on the single table whatever its answer was. -/
theorem tableBehind_of_isChange {key : String} (reading : Reading key) {query : Query}
    (h : query.isChange = true) (table : List Row) (answer : Except Error Nat) :
    tableBehind reading query table answer = table.flatMap (reading.change query) := by
  rw [← reading.write_of_isChange h]
  cases answer with
  | ok count => rfl
  | error e =>
    cases query with
    | select q => cases h
    | insert q => cases h
    | update q => rfl
    | delete q => rfl

namespace OverTables

variable {link : Sharded Tables} {m : ShardMap} {reading : Reading m.key} {w : World Tables}
  {table : List Row}

/-- A write without a plan is refused and changes nothing. -/
theorem outcome_count_of_error {query : Query} {e : Error} (hwrite : query.isSelect = false)
    (hplan : link.plan query = .error e) (w : World Tables) :
    (link.connection.queryCount query).outcome w = (.error e, w) := by
  show (link.count query).outcome w = _
  unfold count
  rw [hwrite, hplan]
  rfl

/-- The rows that meet a condition are on the shards that it is routed to. -/
theorem routed_found_perm (h : link.OverTables m reading) (hplaced : Placed link m w table)
    (condition : Option Predicate) :
    ((m.routeByPredicate condition).flatMap fun shard =>
        (m.rowsOn w shard).filter (reading.meets condition)).Perm
      (table.filter (reading.meets condition)) := by
  have hsub := m.routeByPredicate_sublist condition
  -- The shards that are left out have no such row.
  have hall : ((m.routeByPredicate condition).flatMap fun shard =>
      (m.rowsOn w shard).filter (reading.meets condition)).Perm
        (link.shardIds.flatMap fun shard =>
          (m.rowsOn w shard).filter (reading.meets condition)) := by
    apply Pieces.flatMap_perm_of_subset (h.built.nodup.sublist hsub) h.distinct
    · exact fun shard hshard => h.registered shard (hsub.subset hshard)
    · intro shard hshard hout
      rw [List.filter_eq_nil_iff]
      intro row hrow
      rw [hplaced.not_meets reading hshard hout row hrow]
      exact Bool.false_ne_true
  have htable := hplaced.rows.filter (reading.meets condition)
  rw [rowsOf, List.filter_flatMap] at htable
  exact hall.trans htable

/-- An update or a delete on all shards together. -/
theorem placed_change (h : link.OverTables m reading) (hplaced : Placed link m w table)
    {query : Query} (hadm : Admissible m query) (hchange : query.isChange = true) :
    ∃ answer w', (link.connection.queryCount query).outcome w = (answer, w') ∧
      Agrees reading query table w w' answer ∧
      Placed link m w' (tableBehind reading query table answer) := by
  have hwrite : query.isSelect = false := by
    cases query with
    | select q => cases hchange
    | _ => rfl
  have htable := hadm.table_eq hwrite
  have hset : ∀ q, query = .update q → q.set.get? m.key = none := by
    rintro q rfl
    exact hadm.2
  have hroute := route_of_isChange hadm hchange
  have hmap : link.mapOf query.table = .ok m := by rw [htable, h.mapped]
  by_cases hnil : m.routeByPredicate query.predicate = []
  · -- No shard may have a row that meets the condition, so no shard has one.
    have hnone := hplaced.not_meets_of_routed_nowhere reading hnil
    rw [hnil] at hroute
    refine ⟨.error (.unroutable query.table), w,
      outcome_count_of_error hwrite (plan_eq_unroutable hmap hroute) w, ⟨rfl, hchange, hnone⟩, ?_⟩
    rw [tableBehind_of_isChange reading hchange, reading.flatMap_change_eq hnone]
    exact hplaced
  · have hsub := (m.routeByPredicate_sublist query.predicate).subset
    have hnodup := h.built.nodup.sublist (m.routeByPredicate_sublist query.predicate)
    obtain ⟨w', hcount, hdone, hleft⟩ := h.outcome_count htable hwrite hroute hnil hnodup hsub w
    -- Every shard has changed as if it had been asked.
    have hall : ∀ shard ∈ link.shardIds,
        m.rowsOn w' shard = (m.rowsOn w shard).flatMap (reading.change query) := by
      intro shard hshard
      by_cases hin : shard ∈ m.routeByPredicate query.predicate
      · rw [hdone shard hin, reading.write_of_isChange hchange]
      · rw [hleft shard hin, reading.flatMap_change_eq (hplaced.not_meets reading hshard hin)]
    refine ⟨_, w', hcount, ?_, ?_, ?_⟩
    · show _ = (reading.affected query table).length
      simp only [reading.affected_of_isChange hchange]
      exact (h.routed_found_perm hplaced query.predicate).length_eq
    · intro shard hshard row' hrow'
      rw [hall shard hshard] at hrow'
      obtain ⟨row, hrow, hmem⟩ := List.mem_flatMap.mp hrow'
      exact (hplaced.holds shard hshard row hrow).of_get?_eq
        (reading.get?_of_mem_change hset hmem)
    · rw [tableBehind_of_isChange reading hchange, rowsOf, List.flatMap_congr hall,
        ← List.flatMap_assoc]
      exact hplaced.rows.flatMap_right _

/-- Placing new rows on their shards, each part behind the rows that are there. -/
theorem placed_append (h : link.OverTables m reading) (hplaced : Placed link m w table)
    {rows : List Row} {w' : World Tables} (hkeys : ∀ row ∈ rows, m.KeyIsInt row)
    (hrouted : ∀ row ∈ rows, ∃ shard, m.shardOf? row = some shard)
    (hall : ∀ shard ∈ link.shardIds,
      m.rowsOn w' shard = m.rowsOn w shard ++ (partOf m m.table rows shard).rows) :
    Placed link m w' (table ++ rows) where
  holds := by
    intro shard hshard row hrow
    rw [hall shard hshard, List.mem_append] at hrow
    rcases hrow with hold | hnew
    · exact hplaced.holds shard hshard row hold
    · rw [partOf, List.mem_filter, decide_eq_true_iff] at hnew
      exact ShardMap.holds_of_shardOf? (hkeys row hnew.1) hnew.2
  rows := by
    have hparts : (link.shardIds.flatMap fun shard => (partOf m m.table rows shard).rows).Perm
        rows := by
      apply Pieces.flatMap_filter_perm h.distinct
      intro row hrow
      obtain ⟨shard, hshard⟩ := hrouted row hrow
      have hholds := ShardMap.holds_of_shardOf? (hkeys row hrow) hshard
      exact ⟨shard, h.registered shard hholds.mem_shardIds, hshard⟩
    rw [rowsOf, List.flatMap_congr hall]
    exact (List.flatMap_append_perm _ _ _).symm.trans (hplaced.rows.append hparts)

/-- An insert on all shards together. -/
theorem placed_insert (h : link.OverTables m reading) (hplaced : Placed link m w table)
    {insert : Insert} (hadm : Admissible m (.insert insert)) :
    ∃ answer w', (link.connection.queryCount (.insert insert)).outcome w = (answer, w') ∧
      Agrees reading (.insert insert) table w w' answer ∧
      Placed link m w' (tableBehind reading (.insert insert) table answer) := by
  obtain ⟨htable, hrows, hkeys⟩ := hadm
  have htable' : (Query.insert insert).table = m.table := htable
  have hmap : link.mapOf (Query.insert insert).table = .ok m := by rw [htable', h.mapped]
  cases hroute : route m (.insert insert) with
  | error e =>
    -- A row was refused before any shard was asked.
    refine ⟨.error e, w, outcome_count_of_error rfl (plan_eq_error_of_route hmap hroute) w,
      ?_, hplaced⟩
    obtain ⟨row, -, hrow⟩ := exists_of_route_insert_error hroute
    rcases ShardMap.eq_of_routeByRow_error hrow with rfl | ⟨value, rfl⟩
    · exact ⟨rfl, insert, rfl⟩
    · exact ⟨rfl, insert, rfl⟩
  | ok routed =>
    obtain ⟨hok, shards, hnodup, hmem, rfl⟩ := route_insert hroute
    have hrouted : ∀ row ∈ insert.rows, ∃ shard, m.shardOf? row = some shard := by
      intro row hrow
      obtain ⟨shard, hshard⟩ := hok row hrow
      exact ⟨shard, ShardMap.shardOf?_of_ok hshard⟩
    -- The shards that get a part are known to the map, and there is one.
    have hsub : ∀ shard ∈ shards, shard ∈ m.shardIds := by
      intro shard hshard
      obtain ⟨row, hrow, hplace⟩ := (hmem shard).mp hshard
      exact (ShardMap.holds_of_shardOf? (hkeys row hrow) hplace).mem_shardIds
    have hne : shards ≠ [] := by
      obtain ⟨row, hrow⟩ := List.exists_mem_of_ne_nil _ hrows
      obtain ⟨shard, hshard⟩ := hrouted row hrow
      exact List.ne_nil_of_mem ((hmem shard).mpr ⟨row, hrow, hshard⟩)
    obtain ⟨w', hcount, hdone, hleft⟩ := h.outcome_count htable' rfl hroute hne hnodup hsub w
    refine ⟨_, w', hcount, ?_, ?_⟩
    · have hperm : (shards.flatMap fun shard =>
          (partOf m insert.table insert.rows shard).rows).Perm insert.rows := by
        apply Pieces.flatMap_filter_perm hnodup
        intro row hrow
        obtain ⟨shard, hshard⟩ := hrouted row hrow
        exact ⟨shard, (hmem shard).mpr ⟨row, hrow, hshard⟩, hshard⟩
      exact hperm.length_eq
    · apply placed_append h hplaced hkeys hrouted
      intro shard _
      by_cases hin : shard ∈ shards
      · rw [hdone shard hin, htable]
        rfl
      · have hfresh : ∀ row ∈ insert.rows, m.shardOf? row ≠ some shard :=
          fun row hrow hplace => hin ((hmem shard).mpr ⟨row, hrow, hplace⟩)
        rw [hleft shard hin, partOf_eq_into hfresh]
        exact (List.append_nil _).symm

/-- One write keeps the rows in their places, and its answer is that of the single table. -/
theorem placed_step (h : link.OverTables m reading) (hplaced : Placed link m w table)
    {query : Query} (hadm : Admissible m query) :
    ∃ answer w', (link.connection.queryCount query).outcome w = (answer, w') ∧
      Agrees reading query table w w' answer ∧
      Placed link m w' (tableBehind reading query table answer) := by
  cases query with
  | select q =>
    refine ⟨.error (.unsupported .onlyWrites), w, rfl, ⟨rfl, rfl⟩, ?_⟩
    have hsame : reading.write (.select q) table = table := List.flatMap_singleton' table
    show Placed link m w (reading.write (.select q) table)
    rw [hsame]
    exact hplaced
  | insert q => exact h.placed_insert hplaced hadm
  | update q => exact h.placed_change hplaced hadm rfl
  | delete q => exact h.placed_change hplaced hadm rfl

/-- A run of writes keeps the rows in their places. -/
theorem placed_run (h : link.OverTables m reading) (hplaced : Placed link m w table)
    {run : List Query} (hrun : ∀ query ∈ run, Admissible m query) :
    ∃ w' table', run.foldl (step link reading) (w, table) = (w', table') ∧
      Placed link m w' table' := by
  induction run generalizing w table with
  | nil => exact ⟨w, table, rfl, hplaced⟩
  | cons query rest ih =>
    rw [List.forall_mem_cons] at hrun
    obtain ⟨answer, w₁, hanswer, -, hplaced₁⟩ := h.placed_step hplaced hrun.1
    rw [List.foldl_cons, step, hanswer]
    exact ih hplaced₁ hrun.2

/-- A read of single rows has the rows that the single table has. -/
theorem read_placed (h : link.OverTables m reading) (hplaced : Placed link m w table)
    {select : Select} (htable : select.table = m.table) (hplain : select.IsPlain) :
    (∃ rows, (link.connection.querySet (.select select)).outcome w = (.ok rows, w) ∧
      rows.Perm (reading.read select table)) ∨
    ((link.connection.querySet (.select select)).outcome w = (.error (.unroutable m.table), w) ∧
      reading.read select table = []) := by
  by_cases hnil : m.routeByPredicate select.predicate = []
  · right
    constructor
    · have hmap : link.mapOf (Query.select select).table = .ok m := by
        rw [Query.table, htable, h.mapped]
      have hroute : route m (.select select) = .ok [] := by
        simp only [route, Query.predicate, hnil, forEach, List.map_nil]
      show (link.selectSet (.select select)).outcome w = _
      simp only [selectSet, plan_eq_unroutable hmap hroute, Query.table, htable]
      rfl
    · rw [Reading.read, List.map_eq_nil_iff, List.filter_eq_nil_iff]
      intro row hrow
      rw [hplaced.not_meets_of_routed_nowhere reading hnil row hrow]
      exact Bool.false_ne_true
  · left
    refine ⟨_, h.outcome_selectSet htable hplain hnil w, ?_⟩
    have hfound := (h.routed_found_perm hplaced select.predicate).map
      (RowTable.project select.outputs)
    rw [List.map_flatMap] at hfound
    exact ((link.inOrder_perm _).flatMap_right _).trans hfound

/--
A sharded table behaves as one table. After any run of writes from empty shards, the rows of the
shards together are those of the single table that went through the same run; one more write gets
an answer that agrees with that table; and a read of single rows has the rows of that table, or is
not routed and there are none.
-/
theorem behaves_as_one_table (link : Sharded Tables) (m : ShardMap) (reading : Reading m.key)
    (h : link.OverTables m reading) (w : World Tables)
    (hempty : ∀ shard ∈ link.shardIds, m.rowsOn w shard = []) (run : List Query)
    (hrun : ∀ query ∈ run, Admissible m query) :
    ∃ w' table, run.foldl (step link reading) (w, []) = (w', table) ∧
      (link.rowsOf m w').Perm table ∧
      (∀ query, Admissible m query → ∃ answer w'',
        (link.connection.queryCount query).outcome w' = (answer, w'') ∧
          Agrees reading query table w' w'' answer) ∧
      ∀ select : Select, select.table = m.table → select.IsPlain →
        (∃ rows, (link.connection.querySet (.select select)).outcome w' = (.ok rows, w') ∧
          rows.Perm (reading.read select table)) ∨
        ((link.connection.querySet (.select select)).outcome w' =
            (.error (.unroutable m.table), w') ∧ reading.read select table = []) := by
  have hstart : Placed link m w [] := by
    constructor
    · intro shard hshard row hrow
      rw [hempty shard hshard] at hrow
      exact absurd hrow List.not_mem_nil
    · rw [rowsOf, List.flatMap_eq_nil_iff.mpr hempty]
  obtain ⟨w', table, hfold, hplaced⟩ := h.placed_run hstart hrun
  refine ⟨w', table, hfold, hplaced.rows, ?_, ?_⟩
  · intro query hadm
    obtain ⟨answer, w'', hanswer, hagrees, -⟩ := h.placed_step hplaced hadm
    exact ⟨answer, w'', hanswer, hagrees⟩
  · intro select htable hplain
    exact h.read_placed hplaced htable hplain

/--
Inserts into both shards, one that is refused because of its second row, an update of rows on both
shards and a delete on one.
-/
def crossing : List Query :=
  [.insert ⟨"users", [user 60 "a", user 150 "b", user 10 "c"], []⟩,
    .insert ⟨"users", [user 20 "d", user (-5) "e"], []⟩,
    .update ⟨"users", ⟨[("name", .str "z")]⟩, some (.compare (.bare "id") .gte (.ofInt 60))⟩,
    .delete ⟨"users", some (.compare (.qualified "users" "id") .lt (.ofInt 50))⟩]

theorem admissible_crossing : ∀ query ∈ crossing, Admissible ShardMap.overlapping query := by
  have huser : ∀ id name, fitsSigned id = true → ShardMap.overlapping.KeyIsInt (user id name) := by
    intro id name hfits value hvalue
    cases hvalue
    exact Or.inr ⟨id, if_pos hfits⟩
  have hinsert : ∀ rows : List (Int × String), rows ≠ [] → (∀ r ∈ rows, fitsSigned r.1 = true) →
      Admissible ShardMap.overlapping
        (.insert ⟨"users", rows.map fun (id, name) => user id name, []⟩) := by
    intro rows hne hfits
    refine ⟨rfl, by simpa using hne, ?_⟩
    intro row hrow
    obtain ⟨r, hr, rfl⟩ := List.mem_map.mp hrow
    exact huser r.1 r.2 (hfits r hr)
  unfold crossing
  simp only [List.forall_mem_cons]
  refine ⟨?_, ?_, ⟨rfl, rfl⟩, rfl, by simp⟩
  · exact hinsert [(60, "a"), (150, "b"), (10, "c")] (by decide) (by decide)
  · exact hinsert [(20, "d"), (-5, "e")] (by decide) (by decide)

/-- After that run both shards together hold what one table would hold. -/
theorem behaves_as_one_table_crossing :
    ∃ w', crossing.foldl (step pair (Reading.integers "id")) (emptyWorld, []) =
        (w', [user 60 "z", user 150 "z"]) ∧
      (pair.rowsOf ShardMap.overlapping w').Perm [user 60 "z", user 150 "z"] := by
  obtain ⟨w', table, hfold, hrows, -⟩ :=
    behaves_as_one_table pair ShardMap.overlapping (Reading.integers "id") overTables_pair
      emptyWorld (fun _ _ => rfl) crossing admissible_crossing
  have hlast : table = [user 60 "z", user 150 "z"] :=
    (congrArg Prod.snd hfold).symm.trans (by cbv)
  subst hlast
  exact ⟨w', hfold, hrows⟩

end OverTables

end Sharded

end SqlFederation
