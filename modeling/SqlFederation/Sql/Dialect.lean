import SqlFederation.Json.Decode
import SqlFederation.Text.Case

/-!
# SQL dialects

What differs between the databases that are spoken to: how a name is quoted, how a placeholder is
written, and what a column type is called.
-/

namespace SqlFederation

/-- A family of databases. -/
inductive Dialect where
  | sqlite
  | postgres
  | mysql
  deriving DecidableEq

namespace Dialect

/-- The name of a dialect. -/
def name : Dialect → String
  | .sqlite => "sqlite"
  | .postgres => "postgres"
  | .mysql => "mysql"

/-- Every dialect. -/
def all : List Dialect := [sqlite, postgres, mysql]

/-- Every dialect under its name. -/
def named : List (String × Dialect) :=
  all.map fun dialect => (dialect.name, dialect)

def ofJson? (value : Json) : Option Dialect :=
  Json.oneOf false named value

/-- The character that stands around a name. -/
def quoteChar : Dialect → Char
  | .mysql => Char.ofNat 0x60
  | _ => '"'

/-- Writes the quote character twice and every other character once. -/
def doubled (quote : Char) (text : List Char) : List Char :=
  text.flatMap fun c => if c = quote then [quote, quote] else [c]

/-- A quoted name. -/
def quote (dialect : Dialect) (name : String) : String :=
  let q := dialect.quoteChar
  String.ofList (q :: doubled q name.toList ++ [q])

/-- The placeholder of the parameter with a number, counted from one. -/
def placeholder (dialect : Dialect) (number : Nat) : String :=
  match dialect with
  | .sqlite => "?" ++ toString number
  | .postgres => "$" ++ toString number
  | .mysql => "?"

/-- The dialect's own name of a general column type, if it differs. -/
def ownType? : Dialect → String → Option String
  | .sqlite, "SERIAL" => some "INTEGER"
  | .postgres, "SERIAL" => some "SERIAL"
  | .mysql, "SERIAL" => some "INT AUTO_INCREMENT"
  | .sqlite, "BOOLEAN" => some "INTEGER"
  | .mysql, "BOOLEAN" => some "TINYINT(1)"
  | .sqlite, "DATETIME" => some "TEXT"
  | .sqlite, "TIMESTAMP" => some "TEXT"
  | .postgres, "DATETIME" => some "TIMESTAMPTZ"
  | .postgres, "TIMESTAMP" => some "TIMESTAMPTZ"
  | .sqlite, "JSON" => some "TEXT"
  | .sqlite, "JSONB" => some "TEXT"
  | .mysql, "JSONB" => some "JSON"
  | .sqlite, "BYTEA" => some "BLOB"
  | .postgres, "BLOB" => some "BYTEA"
  | .mysql, "BYTEA" => some "LONGBLOB"
  | .sqlite, "BIGINT" => some "INTEGER"
  | .sqlite, "FLOAT" => some "REAL"
  | .sqlite, "DOUBLE" => some "REAL"
  | .sqlite, "DOUBLE PRECISION" => some "REAL"
  | .postgres, "FLOAT" => some "DOUBLE PRECISION"
  | .postgres, "DOUBLE" => some "DOUBLE PRECISION"
  | .mysql, "DOUBLE PRECISION" => some "DOUBLE"
  | _, _ => none

/-- The type of a column in the dialect; a type that is not known stays as it is written. -/
def columnType (dialect : Dialect) (type : String) : String :=
  let upper := Text.upper type
  match dialect.ownType? upper with
  | some own => own
  | none =>
    if dialect = .sqlite ∧ Text.startsWith upper.toList "VARCHAR".toList then "TEXT" else type

end Dialect

end SqlFederation
