import SqlFederation.Proofs.Outcome
import SqlFederation.Proofs.Routing
import SqlFederation.Proofs.Rows
import SqlFederation.Link.Connection
import SqlFederation.Merge.Order

/-!
# Plain tables of rows

A plain table is a list of rows. A write changes each row on its own (`RowTable.Reading.change`),
so it can be run on the pieces of a table as well as on the whole. Whether a row meets a condition
is decided by three-valued logic over the truth of the comparisons, which is up to the table except
for one thing: an integer key is compared with an integer as integers (`RowTable.Reading`). Columns
are found by their names, so a statement may be aimed at a table of another name
(`RowTable.Reading.write_retarget`).

`RowTable.Reading.connection` is a link to a database of plain tables that never fails.
-/

namespace SqlFederation

/-- Is this an update or a delete? -/
def Query.isChange : Query → Bool
  | .update _ | .delete _ => true
  | _ => false

namespace RowTable

/-- How a table whose key is the given column decides the comparisons of a row's columns. -/
structure Reading (key : String) where
  truth : Row → String → Comparator → Json → Option Bool
  onKey : ∀ {row : Row} {held value : Json} {k v : Int} {op : Comparator} {answer : Bool},
    row.get? key = some held → held.asInt? = some k → value.asInt? = some v →
      op.onKey? k v = some answer → truth row key op value = some answer

/-- The rows of every table of every database. -/
abbrev Tables := ShardId → String → List Row

/-- The tables with new rows in one of them. -/
def Tables.put (tables : Tables) (number : ShardId) (table : String) (rows : List Row) : Tables :=
  fun n t => if n = number ∧ t = table then rows else tables n t

/-- The row with new values in some columns. -/
def assign (set row : Row) : Row :=
  set.entries.foldl (fun row (column, value) => row.insert column value) row

/-- The value of an output; a plain table does not aggregate. -/
def outputValue (row : Row) (output : Output) : Json :=
  match output.expression with
  | .column column => row.value column.name
  | .aggregate .. => .null

/-- The outputs of a row; no outputs stand for all columns. -/
def project (outputs : List Output) (row : Row) : Row :=
  if outputs.isEmpty then row
  else Row.ofList (outputs.map fun output => (output.name, outputValue row output))

namespace Reading

variable {key : String} (reading : Reading key)

/-- A table of integers: what is not a comparison of two integers is unknown. -/
def integers (key : String) : Reading key where
  truth row column op value :=
    match (row.get? column).bind Json.asInt?, value.asInt? with
    | some k, some v => op.onKey? k v
    | _, _ => none
  onKey := by
    intro row held value k v op answer hheld hk hv hanswer
    rw [hheld, hv]
    simp only [Option.bind_some, hk]
    exact hanswer

/-- The truth of the comparisons of a row. -/
def valuation (row : Row) : Predicate.Valuation :=
  fun column op value => reading.truth row column.name op value

/-- Is a condition true of a row? Unknown is not true, and no condition is true of all rows. -/
def meets (condition : Option Predicate) (row : Row) : Bool :=
  match condition with
  | none => true
  | some p => decide (p.truth (reading.valuation row) = some true)

/-- What becomes of a row under an update or a delete. -/
def change (query : Query) (row : Row) : List Row :=
  match query with
  | .update q => [if reading.meets q.predicate row then assign q.set row else row]
  | .delete q => if reading.meets q.predicate row then [] else [row]
  | _ => [row]

/-- The rows that a write inserts, or finds to change. -/
def affected (query : Query) (rows : List Row) : List Row :=
  match query with
  | .select _ => []
  | .insert q => q.rows
  | .update q => rows.filter (reading.meets q.predicate)
  | .delete q => rows.filter (reading.meets q.predicate)

/-- The rows behind a write. -/
def write (query : Query) (rows : List Row) : List Row :=
  match query with
  | .insert q => rows ++ q.rows
  | query => rows.flatMap (reading.change query)

/-- The rows that a read finds. -/
def read (select : Select) (rows : List Row) : List Row :=
  (rows.filter (reading.meets select.predicate)).map (project select.outputs)

/-- The page of a read: what it finds, in its order. A plain table does not group. -/
def page (select : Select) (rows : List Row) : List Row :=
  Merge.paginate select.limit select.offset (Merge.sortRows select (reading.read select rows))

/-- Runs a write on its table and counts the rows. -/
def runWrite (number : ShardId) (query : Query) : Call (World Tables) Nat :=
  World.inEndpoints (Call.of fun tables =>
    let rows := tables number query.table
    (.ok (reading.affected query rows).length,
      tables.put number query.table (reading.write query rows)))

/-- Runs a read on its table. -/
def runRead (number : ShardId) (query : Query) : Call (World Tables) (List Row) :=
  World.inEndpoints (Call.reading fun tables =>
    match query with
    | .select select => reading.page select (tables number select.table)
    | _ => [])

/-- A link to a database of plain tables. -/
def connection (number : ShardId) : Connection (World Tables) where
  connect := pure ()
  disconnect := pure ()
  isConnected _ := true
  dialect := pure .sqlite
  tableInfo table := pure ⟨table, [], []⟩
  hasSequences _ := false
  obtainSequence := Connection.noSequence
  queryRaw _ := pure []
  query := reading.runRead number
  queryRow := Connection.rowOf (reading.runRead number)
  querySet := reading.runRead number
  queryColumn := Connection.columnOf (reading.runRead number)
  queryNumRows := Connection.numRowsOf (reading.runRead number)
  queryCount := reading.runWrite number
  queryNull := Connection.nullOf (reading.runWrite number)
  begin _ _ := pure ()
  commit := pure ()
  rollback := pure ()
  inTransaction _ := false

end Reading

/-! ## Aiming a statement at another table -/

theorem name_retarget (column : ColumnRef) (source target : String) :
    (column.retarget source target).name = column.name := by
  unfold ColumnRef.retarget
  split
  · rfl
  · rfl

/-- An output has the same name and value for a table of another name. -/
theorem output_retarget (output : Output) (source target : String) (row : Row) :
    (output.retarget source target).name = output.name ∧
      outputValue row (output.retarget source target) = outputValue row output := by
  obtain ⟨expression, label⟩ := output
  cases expression with
  | column column =>
    simp only [Output.retarget, Output.name, outputValue, name_retarget, and_self]
  | aggregate function column =>
    cases column with
    | none => simp only [Output.retarget, Output.name, outputValue, Option.map_none, and_self]
    | some column =>
      simp only [Output.retarget, Output.name, outputValue, Option.map_some, name_retarget,
        and_self]

theorem project_retarget (outputs : List Output) (source target : String) :
    project (outputs.map (Output.retarget source target)) = project outputs := by
  funext row
  unfold project
  rw [List.isEmpty_map, List.map_map]
  congr 2
  apply List.map_congr_left
  intro output _
  obtain ⟨hname, hvalue⟩ := output_retarget output source target row
  rw [Function.comp_apply, hname, hvalue]

theorem table_retarget (query : Query) (target : String) :
    (query.retarget target).table = target := by
  cases query with
  | select q =>
    simp only [Query.retarget, Query.table, Select.retarget]
    split
    · assumption
    · rfl
  | insert q => rfl
  | update q =>
    simp only [Query.retarget]
    split
    · assumption
    · rfl
  | delete q =>
    simp only [Query.retarget]
    split
    · assumption
    · rfl

namespace Reading

variable {key : String} (reading : Reading key)

/-- Rows meet a condition whatever their table is called there. -/
theorem meets_retarget (condition : Option Predicate) (source target : String) :
    reading.meets (condition.map (Predicate.retarget source target)) = reading.meets condition := by
  funext row
  cases condition with
  | none => rfl
  | some p =>
    rw [Option.map_some, meets, meets, Predicate.truth_retarget]
    intro column op value
    rw [valuation, valuation, name_retarget]

/-- A write affects the same rows of a table of another name. -/
theorem affected_retarget (query : Query) (target : String) (rows : List Row) :
    reading.affected (query.retarget target) rows = reading.affected query rows := by
  cases query with
  | select q => rfl
  | insert q => rfl
  | update q =>
    rw [Query.retarget]
    split
    · rfl
    · rw [affected, affected, meets_retarget]
  | delete q =>
    rw [Query.retarget]
    split
    · rfl
    · rw [affected, affected, meets_retarget]

/-- A row becomes the same in a table of another name. -/
theorem change_retarget (query : Query) (target : String) :
    reading.change (query.retarget target) = reading.change query := by
  funext row
  cases query with
  | select q => rfl
  | insert q => rfl
  | update q =>
    rw [Query.retarget]
    split
    · rfl
    · rw [change, change, meets_retarget]
  | delete q =>
    rw [Query.retarget]
    split
    · rfl
    · rw [change, change, meets_retarget]

/-- A write leaves the same rows in a table of another name. -/
theorem write_retarget (query : Query) (target : String) (rows : List Row) :
    reading.write (query.retarget target) rows = reading.write query rows := by
  have hchange := change_retarget reading query target
  cases query with
  | select q => rfl
  | insert q => rfl
  | update q =>
    rw [Query.retarget] at hchange ⊢
    split
    · rfl
    · rw [if_neg ‹_›] at hchange
      rw [write, write, hchange]
      · exact fun i h => by cases h
      · exact fun i h => by cases h
  | delete q =>
    rw [Query.retarget] at hchange ⊢
    split
    · rfl
    · rw [if_neg ‹_›] at hchange
      rw [write, write, hchange]
      · exact fun i h => by cases h
      · exact fun i h => by cases h

/-- An update or a delete changes the rows one by one. -/
theorem write_of_isChange {query : Query} (h : query.isChange = true) (rows : List Row) :
    reading.write query rows = rows.flatMap (reading.change query) := by
  cases query with
  | select q => cases h
  | insert q => cases h
  | _ => rfl

/-- An update or a delete affects the rows that meet its condition. -/
theorem affected_of_isChange {query : Query} (h : query.isChange = true) (rows : List Row) :
    reading.affected query rows = rows.filter (reading.meets query.predicate) := by
  cases query with
  | select q => cases h
  | insert q => cases h
  | _ => rfl

/-- A read has the same rows of a table of another name. -/
theorem read_retarget (select : Select) (target : String) (rows : List Row) :
    reading.read (select.retarget target) rows = reading.read select rows := by
  unfold Select.retarget
  split
  · rfl
  · rw [read, read, meets_retarget, project_retarget]

/-! ## Rows one by one -/

/-- An update or a delete leaves a row that does not meet its condition. -/
theorem change_of_not_meets {query : Query} {row : Row}
    (h : reading.meets query.predicate row = false) : reading.change query row = [row] := by
  cases query with
  | select q => rfl
  | insert q => rfl
  | update q =>
    rw [change, show reading.meets q.predicate row = false from h]
    rfl
  | delete q =>
    rw [change, show reading.meets q.predicate row = false from h]
    rfl

/-- A column that a row is not given keeps its value. -/
theorem get?_assign {set : Row} {column : String} (h : set.get? column = none) (row : Row) :
    (assign set row).get? column = row.get? column := by
  obtain ⟨entries⟩ := set
  unfold assign
  induction entries generalizing row with
  | nil => rfl
  | cons entry rest ih =>
    obtain ⟨name, value⟩ := entry
    rw [Row.get?, List.lookup_cons] at h
    by_cases hname : column = name
    · rw [hname, beq_self_eq_true] at h
      cases h
    · rw [beq_false_of_ne hname] at h
      rw [List.foldl_cons, ih _ h, Row.get?_insert_of_ne hname]

/-- The comparisons of a row with an integer key read the key. -/
theorem readsKey {m : ShardMap} (reading : Reading m.key) {row : Row} {held : Json} {k : Int}
    (hheld : row.get? m.key = some held) (hk : held.asInt? = some k) :
    m.ReadsKey k (reading.valuation row) := by
  intro column op value v answer hbinds hv hanswer
  have hname : column.name = m.key := by
    simp only [ShardMap.bindsKey, Bool.and_eq_true, beq_iff_eq] at hbinds
    exact hbinds.1
  rw [valuation, hname]
  exact reading.onKey hheld hk hv hanswer

end Reading

end RowTable

end SqlFederation
