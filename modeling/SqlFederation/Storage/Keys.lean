import SqlFederation.Storage.Fault
import SqlFederation.Storage.Database

/-!
# Keys

Unique rows and references between tables. A row must not share its number, or all columns of a
unique index, with another row; nulls are shared with nobody. A reference is kept if its cell is
null or found in the column that it points to, which has to be unique.
-/

namespace SqlFederation

namespace Storage

namespace Table

/-- A column with its table, as faults show it. -/
def qualified (table : Table) (position : Nat) : String :=
  table.name ++ "." ++ table.columnName position

/-- The number of a row as faults show it. -/
def qualifiedId (table : Table) : String :=
  match table.idColumn with
  | some position => table.qualified position
  | none => table.name ++ ".rowid"

/-- Are two rows equal in all columns of an index, none of them null? -/
def collides (index : Index) (a b : List Cell) : Bool :=
  index.columns.all fun position =>
    let x := a.getD position .null
    let y := b.getD position .null
    !x.isNull && !y.isNull && (x.order y).isEq

/-- The first unique index in which a row collides with a stored one. -/
def collision? (table : Table) (row : StoredRow) : Option Index :=
  table.indexes.find? fun index =>
    index.unique && table.rows.any fun other =>
      other.id != row.id && collides index other.cells row.cells

/-- Refuses a row that collides with a stored row of another number. -/
def checkUnique (table : Table) (row : StoredRow) : Except Fault Unit :=
  match table.collision? row with
  | some index => .error (.unique (index.columns.map table.qualified))
  | none => .ok ()

/-- Refuses null where a column does not take it; the number of a row is never null. -/
def checkNotNull (table : Table) (cells : List Cell) : Except Fault Unit :=
  let wrong := (table.columns.zip cells).zipIdx.find? fun ((column, cell), position) =>
    column.notNull && cell.isNull && table.idColumn != some position
  match wrong with
  | some (_, position) => .error (.notNull (table.qualified position))
  | none => .ok ()

/-- Is one column unique by itself? -/
def isUniqueColumn (table : Table) (position : Nat) : Bool :=
  table.idColumn == some position ||
    table.indexes.any fun index => index.unique && index.columns == [position]

/-- The columns that a reference to the table names, or those of the key. -/
def namedTarget (table : Table) (target : Option String) : List Nat :=
  match target with
  | some name => (table.position? name).toList
  | none => table.key

/-- The column that a reference to the table points to, if it is a single one that is unique. -/
def targetColumn? (table : Table) (target : Option String) : Option Nat :=
  match table.namedTarget target with
  | [position] => if table.isUniqueColumn position then some position else none
  | _ => none

/-- Is a cell found in a column, converted to the kind that the column prefers? -/
def holds (table : Table) (position : Nat) (cell : Cell) : Bool :=
  match table.columns[position]? with
  | some column =>
    let wanted := cell.withAffinity column.affinity
    table.rows.any fun row => ((row.cell position).order wanted).isEq
  | none => false

end Table

namespace Database

/-- Is a reference kept by a row? -/
def keeps (db : Database) (reference : Reference) (row : StoredRow) : Bool :=
  let cell := row.cell reference.column
  cell.isNull ||
    (db.table? reference.table).any fun parent =>
      (parent.targetColumn? reference.target).any fun position => parent.holds position cell

/-- Do all rows of a table keep a reference? -/
def keepsAll (db : Database) (table : Table) (reference : Reference) : Bool :=
  table.rows.all (db.keeps reference)

/-- Are all references kept that are checked at this time and have to do with a table? -/
def keepsAround (db : Database) (deferred : Bool) (name : String) : Bool :=
  db.tables.all fun table =>
    table.references.all fun reference =>
      reference.deferred != deferred ||
        !(Text.sameAscii table.name name || Text.sameAscii reference.table name) ||
        db.keepsAll table reference

/-- Are all references kept? -/
def keepsReferences (db : Database) : Bool :=
  db.tables.all fun table => table.references.all (db.keepsAll table)

/-- Refuses a reference whose table or unique column is missing. -/
def checkReference (db : Database) (child : Table) (reference : Reference) : Except Fault Unit :=
  match db.table? reference.table with
  | none => .error (.unknownTable ("main." ++ reference.table))
  | some parent =>
    match parent.targetColumn? reference.target with
    | some _ => .ok ()
    | none => .error (.unmatchedKey child.name reference.table)

/-- Does a table have a reference to a table with this name? -/
def isReferenced (db : Database) (name : String) : Bool :=
  db.tables.any fun child => child.references.any (Reference.pointsTo name)

/--
Refuses a change of columns with references that cannot be looked up, the latest reference first.
A reference of a table to itself has to do with every column.
-/
def checkReferences (db : Database) (child : Table) (isChanged : Nat → Bool) : Except Fault Unit :=
  child.references.reverse.forM fun reference =>
    if isChanged reference.column || reference.pointsTo child.name then
      db.checkReference child reference
    else
      .ok ()

/-- References to a table that satisfy a test and cannot be looked up are refused. -/
def checkReferencesTo (db : Database) (parent : Table) (test : Reference → Bool) :
    Except Fault Unit :=
  db.tables.reverse.forM fun child =>
    child.references.reverse.forM fun reference =>
      if reference.pointsTo parent.name && test reference then db.checkReference child reference
      else .ok ()

/--
Before rows are added: references of the table are looked up, and references to it where the rows
could break them, which a single row does only when it is checked later.
-/
def checkInsert (db : Database) (table : Table) (isAlone : Bool) : Except Fault Unit := do
  db.checkReferences table fun _ => true
  db.checkReferencesTo table fun reference => reference.deferred || !isAlone

/-- Before rows are removed: references of the table and to it are looked up. -/
def checkDelete (db : Database) (table : Table) : Except Fault Unit := do
  db.checkReferences table fun _ => true
  db.checkReferencesTo table fun _ => true

/-- Before columns are changed: the references that have to do with them are looked up. -/
def checkUpdate (db : Database) (table : Table) (isChanged : Nat → Bool) : Except Fault Unit := do
  let isTarget := fun (reference : Reference) =>
    (table.namedTarget reference.target).any isChanged
  let isTouched := table.references.any (fun reference => isChanged reference.column) ||
    db.tables.any fun child => child.references.any fun reference =>
      reference.pointsTo table.name && isTarget reference
  if isTouched then
    db.checkReferences table isChanged
    db.checkReferencesTo table isTarget

end Database

end Storage

end SqlFederation
