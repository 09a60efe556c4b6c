import SqlFederation.Storage.Keys
import SqlFederation.Storage.Relation

/-!
# Changes of rows

Inserts, updates and deletes. Rows are changed one after the other, and the first one that is
refused ends the statement without any change. A cell is stored as the kind that its column prefers.
-/

namespace SqlFederation

namespace Storage

/-- A changed table, and how many rows were touched. -/
structure Change where
  table : Table
  touched : Nat

/-- Where a written value goes: to a column, or to the number of the row. -/
inductive Slot where
  | column (position : Nat)
  | id
  deriving DecidableEq

namespace Table

/-- The slot of a column. -/
def slotAt (table : Table) (position : Nat) : Slot :=
  if table.idColumn = some position then .id else .column position

/-- Where a value that is written under a name goes. -/
def slot? (table : Table) (name : String) : Option Slot :=
  match table.position? name with
  | some position => some (table.slotAt position)
  | none =>
    if Relation.idNames.any (Text.sameAscii name) then some .id else none

/-- The largest number of a row. -/
def maxId : Int := 9223372036854775807

/-- The least number from the given one on that no row has, the rows being sorted by number. -/
def freeId (least : Int) : List StoredRow → Int
  | [] => least
  | row :: rest =>
    if row.id < least then freeId least rest
    else if row.id = least then freeId (least + 1) rest
    else least

/--
The number of a row that is given none: the one behind the largest, also of those that were used
before if they are never used again. Behind the last number of all a free one is taken.
-/
def nextId (table : Table) : Except Fault Int :=
  let next := match table.largestId with
    | some id => id + 1
    | none => 1
  let next := if table.keepsIds then max next (table.lastId + 1) else next
  if next ≤ maxId then .ok next
  else if table.keepsIds then .error .full
  else .ok (freeId 1 table.rows)

/-- The number that a written value is; nothing but an integer will do. -/
def idOf (cell : Cell) : Except Fault Int :=
  match cell.numeric.integral with
  | .integer id => .ok id
  | _ => .error .wrongKind

/-- The cells of a row as they are stored. -/
def storedCells (table : Table) (id : Int) (cells : List Cell) : List Cell :=
  (table.columns.zip cells).zipIdx.map fun ((column, cell), position) =>
    if table.idColumn = some position then .integer id else cell.withAffinity column.affinity

/-- The values of a row by slot, of several the first; what is not written has its default. -/
def fill (table : Table) (written : List (Slot × Cell)) : List Cell :=
  table.columns.zipIdx.map fun (column, position) =>
    (written.lookup (.column position)).getD column.defaultCell

/-- The number that is written for a row: of several the last one. -/
def writtenId? (written : List (Slot × Cell)) : Option Cell :=
  written.reverse.lookup .id

/-- Adds one row. -/
def insertRow (table : Table) (written : List (Slot × Cell)) : Except Fault Table := do
  let id ← match (writtenId? written).getD .null with
    | .null => table.nextId
    | cell => idOf cell
  let row : StoredRow := ⟨id, table.storedCells id (table.fill written)⟩
  table.checkNotNull row.cells
  if table.hasId id then
    .error (.unique [table.qualifiedId])
  table.checkUnique row
  .ok (table.addRow row)

/-- Adds rows. -/
def insertRows (table : Table) (rows : List (List (Slot × Cell))) : Except Fault Change := do
  let changed ← rows.foldlM insertRow table
  .ok ⟨changed, rows.length⟩

/-- The slots of named columns; without names those of all columns. -/
def slotsOf (table : Table) (written : String) (columns : Option (List String)) :
    Except Fault (List Slot) :=
  (columns.getD (table.columns.map Column.name)).mapM fun name =>
    match table.slot? name with
    | some slot => .ok slot
    | none => .error (.unknownTarget written name)

/-- Refuses rows that do not have one value for each slot. -/
def checkWidth (written : String) (hasNames : Bool) (slots values : Nat) : Except Fault Unit :=
  if slots = values then .ok ()
  else if hasNames then .error (.valueCount values slots)
  else .error (.tableValueCount written slots values)

/-- The rows of an insert, each value with its slot. -/
def slottedRows (table : Table) (params : List Cell) (written : String)
    (columns : Option (List String)) (rows : List (List (Term ColumnName))) :
    Except Fault (List (List (Slot × Cell))) := do
  let slots ← table.slotsOf written columns
  let resolved ← rows.mapM fun row => row.mapM (Relation.unit.resolve [])
  checkWidth written columns.isSome slots.length (rows.headD []).length
  .ok (resolved.map fun row => slots.zip (row.map (Term.valueIn params [])))

/-- Sets values in the cells of a row, one after the other. -/
def setCells (cells : List Cell) : List (Slot × Cell) → List Cell
  | [] => cells
  | (.column position, cell) :: rest => setCells (cells.set position cell) rest
  | (.id, _) :: rest => setCells cells rest

/-- Replaces a row by its changed form. -/
def updateRow (params : List Cell) (changes : List (Slot × Term Place)) (table : Table)
    (row : StoredRow) : Except Fault Table := do
  let source := row.cells ++ [.integer row.id]
  let written := changes.map fun (slot, term) => (slot, term.valueIn params source)
  let id ← match writtenId? written with
    | some cell => idOf cell
    | none => .ok row.id
  let changed : StoredRow := ⟨id, table.storedCells id (setCells row.cells written)⟩
  let others := { table with rows := table.rows.filter fun r => r.id != row.id }
  table.checkNotNull changed.cells
  if others.hasId id then
    .error (.unique [table.qualifiedId])
  others.checkUnique changed
  .ok { others.addRow changed with lastId := table.lastId }

/-- The rows in which a condition holds. -/
def matching (table : Table) (params : List Cell) (condition : Option (Term Place)) :
    List StoredRow :=
  match condition with
  | none => table.rows
  | some condition =>
    table.rows.filter fun row =>
      (condition.valueIn params (row.cells ++ [.integer row.id])).truth? == some true

/-- Refuses values of whole rows in a condition. -/
def checkCondition (condition : Option (Term Place)) : Except Fault Unit :=
  match condition.bind Term.groupCall? with
  | some (function, start) => .error (.misplacedAggregate function start)
  | none => .ok ()

/-- A condition over the rows of the table. -/
def resolveCondition (table : Table) (condition : Option (Term ColumnName)) :
    Except Fault (Option (Term Place)) := do
  let resolved ← condition.mapM ((Relation.ofTable table).resolve [])
  checkCondition resolved
  .ok resolved

/-- The changes of an update, each term with its slot. -/
def slottedChanges (table : Table) (changes : List (String × Term ColumnName)) :
    Except Fault (List (Slot × Term Place)) :=
  changes.mapM fun (name, term) => do
    let term ← (Relation.ofTable table).resolve [] term
    match table.slot? name with
    | some slot => .ok (slot, term)
    | none => .error (.unknownColumn name none)

/-- Changes the rows in which a condition holds. -/
def update (table : Table) (params : List Cell) (changes : List (Slot × Term Place))
    (condition : Option (Term Place)) : Except Fault Change := do
  let rows := table.matching params condition
  let changed ← rows.foldlM (updateRow params changes) table
  .ok ⟨changed, rows.length⟩

/-- Removes the rows in which a condition holds. -/
def delete (table : Table) (params : List Cell) (condition : Option (Term Place)) : Change :=
  let rows := table.matching params condition
  let ids := rows.map StoredRow.id
  ⟨{ table with rows := table.rows.filter fun row => !ids.contains row.id }, rows.length⟩

end Table

end Storage

end SqlFederation
