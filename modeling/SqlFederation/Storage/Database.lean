import SqlFederation.Storage.Cell

/-!
# Databases

A database is a list of tables. A table has columns, rows in the order of their row numbers, unique
and plain indexes, and foreign keys. A single key column of type INTEGER is the row number itself.
Names are found in any case of their ASCII letters.
-/

namespace SqlFederation

namespace Storage

/-- The value of a column that an insert leaves out, and the text it was declared with. -/
structure DefaultValue where
  source : String
  value : Cell
  deriving DecidableEq

/-- A column of a stored table. -/
structure Column where
  name : String
  type : String
  notNull : Bool
  default : Option DefaultValue
  deriving DecidableEq

namespace Column

/-- The kind that the column prefers. -/
def affinity (column : Column) : Affinity :=
  .ofType column.type

/-- The value of the column where nothing is given. -/
def defaultCell (column : Column) : Cell :=
  match column.default with
  | some d => d.value
  | none => .null

end Column

/-- An index; one behind a constraint has no name of its own. -/
structure Index where
  name : Option String
  columns : List Nat
  unique : Bool
  deriving DecidableEq

/-- A column whose value has to be found in a column of another table. -/
structure Reference where
  column : Nat
  table : String
  /-- The column that is pointed to; without one it is the key of the other table. -/
  target : Option String
  /-- Checked when the transaction ends, and not after each statement. -/
  deferred : Bool
  deriving DecidableEq

namespace Reference

/-- Does a reference point to the table with this name? -/
def pointsTo (name : String) (reference : Reference) : Bool :=
  Text.sameAscii reference.table name

end Reference

/-- A row with its number. -/
structure StoredRow where
  id : Int
  cells : List Cell
  deriving DecidableEq

namespace StoredRow

/-- The cell of a column. -/
def cell (row : StoredRow) (column : Nat) : Cell :=
  row.cells.getD column .null

end StoredRow

/-- A table. -/
structure Table where
  name : String
  /-- The statement that made the table. -/
  source : String
  columns : List Column
  /-- The columns of the primary key in the order of the key. -/
  key : List Nat
  /-- The key column that is the row number. -/
  idColumn : Option Nat
  /-- Row numbers are never used again. -/
  keepsIds : Bool
  /-- The newest index first. -/
  indexes : List Index
  references : List Reference
  rows : List StoredRow
  /-- The largest row number that was ever used. -/
  lastId : Int
  deriving DecidableEq

namespace Table

/-- The position of the column with a name, from the given one on. -/
def positionFrom (name : String) : Nat → List Column → Option Nat
  | _, [] => none
  | n, column :: rest =>
    if Text.sameAscii column.name name then some n else positionFrom name (n + 1) rest

/-- The position of the column with a name. -/
def position? (table : Table) (name : String) : Option Nat :=
  positionFrom name 0 table.columns

/-- The column at a position. -/
def columnName (table : Table) (position : Nat) : String :=
  match table.columns[position]? with
  | some column => column.name
  | none => ""

/-- The largest row number. -/
def largestId (table : Table) : Option Int :=
  table.rows.getLast?.map StoredRow.id

/-- Is this row number taken? -/
def hasId (table : Table) (id : Int) : Bool :=
  table.rows.any fun row => row.id == id

/-- Puts a row in the place of its number. -/
def insertSorted (row : StoredRow) : List StoredRow → List StoredRow
  | [] => [row]
  | other :: rest =>
    if row.id < other.id then row :: other :: rest else other :: insertSorted row rest

/-- Adds a row. -/
def addRow (table : Table) (row : StoredRow) : Table :=
  let rows := match table.rows.getLast? with
    | some last => if last.id < row.id then table.rows ++ [row] else insertSorted row table.rows
    | none => [row]
  { table with rows := rows, lastId := max table.lastId row.id }

end Table

/-- The tables of a database in the order in which they were made. -/
structure Database where
  tables : List Table
  deriving DecidableEq, Inhabited

namespace Database

/-- A database without tables. -/
def empty : Database := ⟨[]⟩

/-- The table with a name. -/
def table? (db : Database) (name : String) : Option Table :=
  db.tables.find? fun t => Text.sameAscii t.name name

/-- Puts a changed table in its place. -/
def replace (db : Database) (table : Table) : Database :=
  ⟨db.tables.map fun t => if t.name = table.name then table else t⟩

/-- The database without a table. -/
def remove (db : Database) (name : String) : Database :=
  ⟨db.tables.filter fun t => !Text.sameAscii t.name name⟩

/-- Is there an index with this name? -/
def hasIndex (db : Database) (name : String) : Bool :=
  db.tables.any fun t => t.indexes.any fun i => i.name.any fun n => Text.sameAscii n name

end Database

end Storage

end SqlFederation
