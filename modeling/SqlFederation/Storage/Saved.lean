import SqlFederation.Json.Decode
import SqlFederation.Json.Printer
import SqlFederation.Json.Reader
import SqlFederation.Storage.Define
import SqlFederation.Storage.Parser

/-!
# Saved databases

The text of a database between two runs of a program: a JSON document with one record for each
table, which holds the text that made the table, its named indexes, its rows, and the largest row
number that was ever used. The text of the table gives back its columns and constraints, so they are
not repeated.
-/

namespace SqlFederation

namespace Storage

namespace Cell

/-- A cell as a document holds it; a real is given by its bits. -/
def toSaved : Cell → Json
  | .null => .null
  | .integer value => .ofInt value
  | .real value => .obj [("real", .ofNat value.bits.toNat)]
  | .text value => .str value
  | .blob bytes => .obj [("blob", .str (Base64.encode bytes))]

/-- The cell that a document holds. -/
def ofSaved? : Json → Option Cell
  | .null => some .null
  | .str value => some (.text value)
  | .obj [("real", bits)] => bits.asNat?.map fun n => .real ⟨UInt64.ofNat n⟩
  | .obj [("blob", encoded)] => (encoded.asStr?.bind Base64.decode?).map .blob
  | value => value.asInt?.map .integer

end Cell

namespace StoredRow

/-- A row: its number and its cells. -/
def toSaved (row : StoredRow) : Json :=
  .arr (.ofInt row.id :: row.cells.map Cell.toSaved)

/-- The row that a document holds. -/
def ofSaved? : Json → Option StoredRow
  | .arr (id :: cells) => do
    let id ← id.asInt?
    let cells ← cells.mapM Cell.ofSaved?
    some ⟨id, cells⟩
  | _ => none

end StoredRow

namespace Index

/-- An index with a name; one behind a constraint comes back with the constraint. -/
def toSaved? (index : Index) : Option Json :=
  index.name.map fun name =>
    .obj [("name", .str name), ("columns", .arr (index.columns.map .ofNat)),
      ("unique", .bool index.unique)]

/-- The index that a document holds. -/
def ofSaved? (value : Json) : Option Index := do
  let entries ← value.entries?
  let name ← Json.field entries "name" Json.asStr?
  let columns ← Json.field entries "columns" (Json.list Json.asNat?)
  let unique ← Json.field entries "unique" Json.asBool?
  some ⟨some name, columns, unique⟩

end Index

namespace Table

/-- A table as a document holds it. -/
def toSaved (table : Table) : Json :=
  .obj [("source", .str table.source), ("lastId", .ofInt table.lastId),
    ("indexes", .arr (table.indexes.filterMap Index.toSaved?)),
    ("rows", .arr (table.rows.map StoredRow.toSaved))]

/-- The table without rows that a text makes. -/
def ofSource? (source : String) : Option Table := do
  let passage ← (Passage.ofText ("CREATE TABLE " ++ source)).head?
  match passage.action with
  | .ok (some (.createTable name _ columns constraints source)) =>
    (Table.ofClauses name.name source columns constraints).toOption
  | _ => none

/-- The table that a document holds. -/
def ofSaved? (value : Json) : Option Table := do
  let entries ← value.entries?
  let table ← Json.field entries "source" fun s => s.asStr?.bind ofSource?
  let lastId ← Json.field entries "lastId" Json.asInt?
  let indexes ← Json.field entries "indexes" (Json.list Index.ofSaved?)
  let rows ← Json.field entries "rows" (Json.list StoredRow.ofSaved?)
  some { table with indexes := indexes ++ table.indexes, rows := rows, lastId := lastId }

end Table

namespace Database

/-- The text of a database. -/
def savedText (db : Database) : String :=
  (Json.arr (db.tables.map Table.toSaved)).compact

/-- The database that a text holds; the empty text holds an empty one. -/
def ofSavedText? (text : String) : Option Database :=
  if text.isEmpty then some .empty
  else do
    let tables ← Json.list Table.ofSaved? (← Json.read? text)
    some ⟨tables⟩

end Database

end Storage

end SqlFederation
