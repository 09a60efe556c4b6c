import SqlFederation.Json.Decode
import SqlFederation.Query.Codec
import SqlFederation.Sql.Dialect

/-!
# Table schemas

A schema says what columns and indexes a table has. `createTable`, `dropTable` and `createIndex` are
the statements that make the same table elsewhere.
-/

namespace SqlFederation

/-- The column that a foreign key points to. -/
structure ForeignKey where
  table : String
  column : String
  deriving DecidableEq

/-- A column of a table. -/
structure ColumnSchema where
  name : String
  type : String
  nullable : Bool
  defaultValue : Option String
  isPrimaryKey : Bool
  isUnique : Bool
  isAutoIncrement : Bool
  foreignKey : Option ForeignKey
  deriving DecidableEq

/-- An index of a table. -/
structure IndexSchema where
  name : String
  columns : List String
  unique : Bool
  deriving DecidableEq

/-- A table. -/
structure TableSchema where
  name : String
  columns : List ColumnSchema
  indexes : List IndexSchema
  deriving DecidableEq

namespace TableSchema

/-- The columns of the primary key. -/
def keyColumns (schema : TableSchema) : List ColumnSchema :=
  schema.columns.filter ColumnSchema.isPrimaryKey

/-- The first column of the primary key. -/
def primaryKey (schema : TableSchema) : Option String :=
  schema.keyColumns.head?.map ColumnSchema.name

/-- Does the primary key have several columns? -/
def hasCompositeKey (schema : TableSchema) : Bool :=
  decide (1 < schema.keyColumns.length)

end TableSchema

namespace Dialect

/-- Names in a row, separated by commas. -/
def quoteAll (dialect : Dialect) (names : List String) : String :=
  ", ".intercalate (names.map dialect.quote)

/-- The definition of a key column whose values the database makes. -/
def generatedKey (dialect : Dialect) (column : String) : String :=
  dialect.quote column ++
    match dialect with
    | .sqlite => " INTEGER PRIMARY KEY AUTOINCREMENT"
    | .postgres => " SERIAL PRIMARY KEY"
    | .mysql => " INT AUTO_INCREMENT PRIMARY KEY"

/-- The definition of a column; `composite` says that the key is declared for the whole table. -/
def columnDefinition (dialect : Dialect) (composite : Bool) (column : ColumnSchema) : String :=
  if column.isAutoIncrement && column.isPrimaryKey && !composite then
    dialect.generatedKey column.name
  else
    dialect.quote column.name ++ " " ++ dialect.columnType column.type ++
      (if column.isPrimaryKey && !composite then " PRIMARY KEY" else "") ++
      (if !column.nullable && !column.isPrimaryKey then " NOT NULL" else "") ++
      (if column.isUnique && !column.isPrimaryKey then " UNIQUE" else "") ++
      (match column.defaultValue with
        | some text => if text.isEmpty then "" else " DEFAULT " ++ text
        | none => "") ++
      (match column.foreignKey with
        | some key =>
          " REFERENCES " ++ dialect.quote key.table ++ "(" ++ dialect.quote key.column ++ ")"
        | none => "")

/-- The lines of a table definition: its columns, and the key if it has several columns. -/
def definitionLines (dialect : Dialect) (schema : TableSchema) : List String :=
  schema.columns.map (dialect.columnDefinition schema.hasCompositeKey) ++
    if schema.hasCompositeKey then
      ["PRIMARY KEY (" ++ dialect.quoteAll (schema.keyColumns.map ColumnSchema.name) ++ ")"]
    else
      []

/-- The statement that makes a table of a schema. -/
def createTable (dialect : Dialect) (schema : TableSchema) : String :=
  "CREATE TABLE " ++ dialect.quote schema.name ++ " (\n  " ++
    ",\n  ".intercalate (dialect.definitionLines schema) ++ "\n);"

/-- The statement that removes a table. -/
def dropTable (dialect : Dialect) (table : String) (ifExists : Bool) : String :=
  (if ifExists then "DROP TABLE IF EXISTS " else "DROP TABLE ") ++ dialect.quote table ++ ";"

/-- The statement that makes an index of a table. -/
def createIndex (dialect : Dialect) (table : String) (index : IndexSchema) : String :=
  (if index.unique then "CREATE UNIQUE INDEX " else "CREATE INDEX ") ++ dialect.quote index.name ++
    " ON " ++ dialect.quote table ++ " (" ++ dialect.quoteAll index.columns ++ ");"

end Dialect

namespace ForeignKey

def toJson (key : ForeignKey) : Json :=
  .obj [("table", .str key.table), ("column", .str key.column)]

/-- The parts of a foreign key. -/
def parts : Json.Parts := .all ["table", "column"]

def ofJson? (value : Json) : Option ForeignKey := do
  let entries ← parts.entries? value
  let table ← Json.field entries "table" Json.asStr?
  let column ← Json.field entries "column" Json.asStr?
  some ⟨table, column⟩

end ForeignKey

namespace ColumnSchema

def toJson (column : ColumnSchema) : Json :=
  let foreignKey := match column.foreignKey with
    | some key => key.toJson
    | none => .null
  .obj [("name", .str column.name), ("type", .str column.type), ("nullable", .bool column.nullable),
    ("default_value", .ofOption column.defaultValue),
    ("is_primary_key", .bool column.isPrimaryKey), ("is_unique", .bool column.isUnique),
    ("is_auto_increment", .bool column.isAutoIncrement), ("foreign_key", foreignKey)]

/-- The parts of a column. -/
def parts : Json.Parts := .all
  ["name", "type", "nullable", "default_value", "is_primary_key", "is_unique", "is_auto_increment",
    "foreign_key"]

def ofJson? (value : Json) : Option ColumnSchema := do
  let entries ← parts.entries? value
  let name ← Json.field entries "name" Json.asStr?
  let type ← Json.field entries "type" Json.asStr?
  let nullable ← Json.field entries "nullable" Json.asBool?
  let defaultValue ← Json.optional entries "default_value" Json.asStr?
  let isPrimaryKey ← Json.field entries "is_primary_key" Json.asBool?
  let isUnique ← Json.field entries "is_unique" Json.asBool?
  let isAutoIncrement ← Json.field entries "is_auto_increment" Json.asBool?
  let foreignKey ← Json.optional entries "foreign_key" ForeignKey.ofJson?
  some ⟨name, type, nullable, defaultValue, isPrimaryKey, isUnique, isAutoIncrement, foreignKey⟩

end ColumnSchema

namespace IndexSchema

def toJson (index : IndexSchema) : Json :=
  .obj [("name", .str index.name), ("columns", .ofStrings index.columns),
    ("unique", .bool index.unique)]

/-- The parts of an index. -/
def parts : Json.Parts := .all ["name", "columns", "unique"]

def ofJson? (value : Json) : Option IndexSchema := do
  let entries ← parts.entries? value
  let name ← Json.field entries "name" Json.asStr?
  let columns ← Json.field entries "columns" (Json.list Json.asStr?)
  let unique ← Json.field entries "unique" Json.asBool?
  some ⟨name, columns, unique⟩

end IndexSchema

namespace TableSchema

def toJson (schema : TableSchema) : Json :=
  .obj [("name", .str schema.name), ("columns", .arr (schema.columns.map ColumnSchema.toJson)),
    ("indexes", .arr (schema.indexes.map IndexSchema.toJson))]

/-- The parts of a schema. -/
def parts : Json.Parts := .all ["name", "columns", "indexes"]

/-- Reads the parts of a schema beside its name. -/
def partsOf? (name : String) (entries : List (String × Json)) : Option TableSchema := do
  let columns ← Json.field entries "columns" (Json.list ColumnSchema.ofJson?)
  let indexes ← Json.field entries "indexes" (Json.list IndexSchema.ofJson?)
  some ⟨name, columns, indexes⟩

def ofJson? (value : Json) : Option TableSchema := do
  let entries ← parts.entries? value
  let name ← Json.field entries "name" Json.asStr?
  partsOf? name entries

end TableSchema

end SqlFederation
