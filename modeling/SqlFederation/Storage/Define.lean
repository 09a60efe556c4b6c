import SqlFederation.Storage.Keys
import SqlFederation.Storage.Relation

/-!
# Tables and indexes

How a clause of CREATE TABLE becomes a table, and what makes and drops tables and indexes. Every key
or unique constraint has an index behind it, unless the key is the number of the row. Tables and
indexes do not share names.
-/

namespace SqlFederation

namespace Storage

namespace Table

/-- A table without columns. -/
def blank (name source : String) : Table where
  name := name
  source := source
  columns := []
  key := []
  idColumn := none
  keepsIds := false
  indexes := []
  references := []
  rows := []
  lastId := 0

/-- Is the column at a position of type INTEGER? -/
def isInteger (table : Table) (position : Nat) : Bool :=
  (table.columns[position]?).any fun column => Text.sameAscii column.type "INTEGER"

/-- Puts an index in front of the others, unless one of the same columns is behind a constraint. -/
def addHiddenIndex (table : Table) (columns : List Nat) : Table :=
  if table.indexes.any fun index => index.name.isNone && index.columns == columns then table
  else { table with indexes := ⟨none, columns, true⟩ :: table.indexes }

/-- Makes columns the key. A single column of type INTEGER becomes the number of the row. -/
def addKey (table : Table) (columns : List Nat) (generated : Bool) : Except Fault Table :=
  let alone := match columns with
    | [position] => if table.isInteger position then some position else none
    | _ => none
  if !table.key.isEmpty then .error (.severalKeys table.name)
  else if generated && alone.isNone then .error .generatedKey
  else
    let table := { table with key := columns, idColumn := alone, keepsIds := generated }
    .ok (if alone.isSome then table else table.addHiddenIndex columns)

/-- The default of a column. -/
def defaultOf (clause : Option (String × Term ColumnName)) :
    Except Fault (Option DefaultValue) :=
  match clause with
  | none => .ok none
  | some (source, term) => do
    let resolved ← Relation.unit.resolve [] term
    .ok (some ⟨source, resolved.valueIn [] []⟩)

/-- Adds a column behind the others, with its constraints. -/
def addColumn (table : Table) (clause : ColumnClause) : Except Fault Table := do
  if (table.position? clause.name).isSome then
    .error (.repeatedColumn clause.name)
  let position := table.columns.length
  let default ← defaultOf clause.default
  let column : Column := ⟨clause.name, clause.type, clause.notNull, default⟩
  let references := match clause.reference with
    | some r => table.references ++ [⟨position, r.table, r.target, r.deferred⟩]
    | none => table.references
  let table := { table with columns := table.columns ++ [column], references := references }
  let table ← match clause.key with
    | some key => table.addKey [position] key.generated
    | none => .ok table
  .ok (if clause.unique then table.addHiddenIndex [position] else table)

/-- The positions of named columns. -/
def positions (table : Table) (names : List String) : Except Fault (List Nat) :=
  names.mapM fun name =>
    match table.position? name with
    | some position => .ok position
    | none => .error (.unknownColumn name none)

/-- Adds a constraint on several columns. -/
def addConstraint (table : Table) (clause : TableClause) : Except Fault Table :=
  match clause with
  | .key names => do
    let columns ← table.positions names
    table.addKey columns false
  | .unique names => do
    let columns ← table.positions names
    .ok (table.addHiddenIndex columns)

/-- The table that a statement describes. -/
def ofClauses (name source : String) (columns : List ColumnClause)
    (constraints : List TableClause) : Except Fault Table := do
  let table ← columns.foldlM addColumn (blank name source)
  constraints.foldlM addConstraint table

/-- Two rows of a list that collide in an index. -/
def hasCollision (index : Index) : List StoredRow → Bool
  | [] => false
  | row :: rest =>
    (rest.any fun other => collides index row.cells other.cells) || hasCollision index rest

/-- Adds an index in front of the others; a unique one refuses rows that collide in it. -/
def addIndex (table : Table) (index : Index) : Except Fault Table :=
  if index.unique && hasCollision index table.rows then
    .error (.unique (index.columns.map table.qualified))
  else
    .ok { table with indexes := index :: table.indexes }

end Table

namespace Database

/-- Makes a table under a name that is free. -/
def createTable (db : Database) (name : WrittenName) (ifAbsent : Bool)
    (columns : List ColumnClause) (constraints : List TableClause) (source : String) :
    Except Fault Database :=
  if (db.table? name.name).isSome then
    if ifAbsent then .ok db else .error (.tableExists name.written name.start)
  else if db.hasIndex name.name then
    .error (.nameTaken "an index" name.name)
  else do
    let table ← Table.ofClauses name.name source columns constraints
    .ok ⟨db.tables ++ [table]⟩

/-- Makes an index under a name that is free. -/
def createIndex (db : Database) (name : WrittenName) (unique ifAbsent : Bool) (table : String)
    (columns : List String) : Except Fault Database :=
  match db.table? table with
  | none => .error (.unknownTable ("main." ++ table))
  | some found =>
    if (db.table? name.name).isSome then .error (.nameTaken "a table" name.name)
    else if db.hasIndex name.name then
      if ifAbsent then .ok db else .error (.indexExists name.name)
    else do
      let positions ← found.positions columns
      let changed ← found.addIndex ⟨some name.name, positions, unique⟩
      .ok (db.replace changed)

/-- Does a row of another table refer to a table, by a reference that is checked in time? -/
def isReferredTo (db : Database) (inTransaction : Bool) (name : String) : Bool :=
  db.tables.any fun child =>
    !Text.sameAscii child.name name &&
      child.references.any fun reference =>
        !(inTransaction && reference.deferred) && reference.pointsTo name &&
          child.rows.any fun row => !(row.cell reference.column).isNull

/--
How many rows are removed one by one when a table is dropped; rows that no reference has to do with
go with the table.
-/
def droppedRows (db : Database) (table : Table) : Option Nat :=
  if db.isReferenced table.name then some table.rows.length
  else if table.references.any Reference.deferred then
    some (if db.keepsReferences then 0 else table.rows.length)
  else none

/-- Drops a table that no row refers to. -/
def dropTable (db : Database) (inTransaction : Bool) (name : String) (ifPresent : Bool) :
    Except Fault (Database × Option Nat) :=
  match db.table? name with
  | none => if ifPresent then .ok (db, none) else .error (.unknownTable name)
  | some table =>
    if db.isReferredTo inTransaction name then .error .foreignKey
    else .ok (db.remove name, db.droppedRows table)

end Database

end Storage

end SqlFederation
