import SqlFederation.Json.Basic
import SqlFederation.Json.Reader

/-!
# Rows

A row is a list of columns with their values, in order, no column twice. Setting a column that is
there keeps its place, and taking one out moves the last column into the gap.
-/

namespace SqlFederation

/-- A row of a result or of a write. -/
structure Row where
  entries : List (String × Json)
  deriving DecidableEq

namespace Row

/-- A row without columns. -/
def empty : Row := ⟨[]⟩

instance : Inhabited Row := ⟨empty⟩

/-- The columns in order. -/
def columns (row : Row) : List String :=
  row.entries.map Prod.fst

/-- The value of a column. -/
def get? (row : Row) (column : String) : Option Json :=
  row.entries.lookup column

/-- The value of a column; one that is not there reads as null. -/
def value (row : Row) (column : String) : Json :=
  (row.get? column).getD .null

/-- Sets a column: in its place if it is there, else behind the others. -/
def insert (row : Row) (column : String) (value : Json) : Row :=
  ⟨Json.put column value row.entries⟩

/-- A row with the given columns, a repeated one keeping its first place and its last value. -/
def ofList (entries : List (String × Json)) : Row :=
  entries.foldl (fun row (column, value) => row.insert column value) empty

/-- Takes a column out; the last column moves into its place. -/
def eraseEntries (column : String) : List (String × Json) → List (String × Json)
  | [] => []
  | (k, v) :: rest =>
    if k = column then
      match rest.getLast? with
      | none => []
      | some last => last :: rest.dropLast
    else
      (k, v) :: eraseEntries column rest

/-- The row without a column; the last column moves into its place. -/
def erase (row : Row) (column : String) : Row :=
  ⟨eraseEntries column row.entries⟩

/-- The first value of a row; a row without columns has null. -/
def first (row : Row) : Json :=
  match row.entries with
  | [] => .null
  | (_, value) :: _ => value

/-- A row of a request: an object. -/
def ofJson? : Json → Option Row
  | .obj entries => some ⟨entries⟩
  | _ => none

/-- A row inside a query: an object. -/
def toJson (row : Row) : Json :=
  .obj row.entries

/-- A row of an answer: a list of pairs. -/
def toPairs (row : Row) : Json :=
  .arr (row.entries.map fun (column, value) => .arr [.str column, value])

end Row

/-- The first value of every row. -/
def firstColumn (rows : List Row) : List Json :=
  rows.map Row.first

end SqlFederation
