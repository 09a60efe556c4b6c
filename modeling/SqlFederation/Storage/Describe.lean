import SqlFederation.Error
import SqlFederation.Sql.Schema
import SqlFederation.Storage.Database

/-!
# The schema of a stored table

A table as others see it. Indexes behind constraints are not shown. Whether the numbers of rows are
kept is read off the text that made the table, which is found by its exact name.
-/

namespace SqlFederation

namespace Storage

namespace Table

/-- A column without what depends on the rest of the table. -/
def columnSchema (table : Table) (column : Column) (position : Nat) : ColumnSchema where
  name := column.name
  type := column.type
  nullable := !column.notNull
  defaultValue := column.default.map DefaultValue.source
  isPrimaryKey := table.key.contains position
  isUnique := false
  isAutoIncrement := false
  foreignKey := none

/-- Says which key columns have numbers that are never used again. -/
def markGenerated (table : Table) (name : String) (columns : List ColumnSchema) :
    List ColumnSchema :=
  if table.name = name ∧
      Text.contains (Text.upper table.source).toList "AUTOINCREMENT".toList = true then
    columns.map fun column =>
      { column with
        isAutoIncrement := column.isPrimaryKey && Text.sameAscii column.type "INTEGER" }
  else
    columns

/-- Changes the first column with a name. -/
def changeFirst (name : String) (f : ColumnSchema → ColumnSchema) :
    List ColumnSchema → List ColumnSchema
  | [] => []
  | column :: rest =>
    if column.name = name then f column :: rest else column :: changeFirst name f rest

/-- The references, the latest first; each has to name the column that it points to. -/
def foreignKeys (table : Table) : Except SchemaFault (List (String × ForeignKey)) :=
  table.references.reverse.mapM fun reference =>
    match reference.target with
    | some target => .ok (table.columnName reference.column, ⟨reference.table, target⟩)
    | none => .error (.refused "Invalid column type Null at index: 4, name: to")

/-- The indexes that have names of their own. -/
def indexSchemas (table : Table) : List IndexSchema :=
  table.indexes.filterMap fun index =>
    index.name.map fun name => ⟨name, index.columns.map table.columnName, index.unique⟩

/-- Marks the column of a unique index of one column. -/
def markUnique (columns : List ColumnSchema) (index : IndexSchema) : List ColumnSchema :=
  match index.columns with
  | [column] =>
    if index.unique then changeFirst column (fun c => { c with isUnique := true }) columns
    else columns
  | _ => columns

/-- The schema of the table under the name by which it was asked for. -/
def schema (table : Table) (name : String) : Except SchemaFault TableSchema := do
  let columns := table.columns.zipIdx.map fun (column, position) =>
    table.columnSchema column position
  let columns := table.markGenerated name columns
  let keys ← table.foreignKeys
  let columns := keys.foldl
    (fun columns (column, key) =>
      changeFirst column (fun c => { c with foreignKey := some key }) columns)
    columns
  let indexes := table.indexSchemas
  .ok ⟨name, indexes.foldl markUnique columns, indexes⟩

end Table

namespace Database

/-- The schema of the table with a name. -/
def schema (db : Database) (name : String) : Except SchemaFault TableSchema :=
  match db.table? name with
  | some table => table.schema name
  | none => .error (.tableNotFound name)

end Database

end Storage

end SqlFederation
