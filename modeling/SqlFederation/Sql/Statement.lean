import SqlFederation.Error
import SqlFederation.Query.Basic
import SqlFederation.Sql.Dialect
import SqlFederation.Sql.Value
import SqlFederation.Text.Base64

/-!
# Statements

A query is rendered in two steps. First it becomes a list of pieces: fixed words, names, and bound
values, each where it stands. Then the pieces are written out, names quoted and values replaced by
numbered placeholders. So a placeholder and its value cannot drift apart, and no name or value is
ever part of a word.
-/

namespace SqlFederation

/-- A piece of a statement. -/
inductive Piece where
  /-- Text of the language itself. -/
  | word (text : String)
  /-- A table, column or output. -/
  | name (identifier : String)
  /-- A value that is bound to a placeholder here. -/
  | bound (value : SqlValue)
  deriving DecidableEq

namespace Piece

/-- Lists of pieces with a word between each two. -/
def join (separator : String) : List (List Piece) → List Piece
  | [] => []
  | [part] => part
  | part :: rest => part ++ .word separator :: join separator rest

/-- The text of pieces, the next placeholder having the given number. -/
def textFrom (dialect : Dialect) : Nat → List Piece → String
  | _, [] => ""
  | n, .word text :: rest => text ++ textFrom dialect n rest
  | n, .name identifier :: rest => dialect.quote identifier ++ textFrom dialect n rest
  | n, .bound _ :: rest => dialect.placeholder n ++ textFrom dialect (n + 1) rest

/-- The bound values in order. -/
def values : List Piece → List SqlValue
  | [] => []
  | .bound value :: rest => value :: values rest
  | _ :: rest => values rest

end Piece

/-- The text of a statement and the values of its placeholders. -/
structure Statement where
  sql : String
  params : List SqlValue
  deriving DecidableEq

namespace Statement

/-- Writes pieces out; the first placeholder is number one. -/
def ofPieces (dialect : Dialect) (pieces : List Piece) : Statement :=
  ⟨Piece.textFrom dialect 1 pieces, Piece.values pieces⟩

end Statement

/-- A column with its table in front if it is named. -/
def ColumnRef.pieces (column : ColumnRef) : List Piece :=
  match column.table with
  | some table => [.name table, .word ".", .name column.name]
  | none => [.name column.name]

namespace Predicate

/-- One comparison. Equality with null asks for null. -/
def comparisonPieces (column : ColumnRef) (op : Comparator) (value : Json) : List Piece :=
  match op, value.isNull with
  | .eq, true | .isNull, _ => column.pieces ++ [.word " IS NULL"]
  | .ne, true | .isNotNull, _ => column.pieces ++ [.word " IS NOT NULL"]
  | _, _ => column.pieces ++ [.word (" " ++ op.sql ++ " "), .bound (.ofJson value)]

/--
Joined conditions in parentheses. A single one stands for itself, and none is a condition that
always or never holds.
-/
def joinPieces (connective : Connective) (parts : List (List Piece)) : List Piece :=
  match parts with
  | [] =>
    match connective with
    | .and => [.word "1=1"]
    | .or => [.word "1=0"]
  | [part] => part
  | parts => .word "(" :: Piece.join (" " ++ connective.sql ++ " ") parts ++ [.word ")"]

mutual

/-- A condition. -/
def pieces : Predicate → List Piece
  | .compare column op value => comparisonPieces column op value
  | .join connective children => joinPieces connective (piecesAll children)

/-- Every condition of a list. -/
def piecesAll : List Predicate → List (List Piece)
  | [] => []
  | child :: rest => pieces child :: piecesAll rest

end

theorem piecesAll_eq_map (children : List Predicate) :
    piecesAll children = children.map pieces := by
  induction children with
  | nil => rfl
  | cons child rest ih => simp [piecesAll, ih]

/-- The clause of a condition that may be absent. -/
def whereClause (predicate : Option Predicate) : List Piece :=
  match predicate with
  | some p => .word " WHERE " :: p.pieces
  | none => []

end Predicate

namespace Output

/-- One output. A plain column without a label keeps its name; anything else is named. -/
def pieces (output : Output) : List Piece :=
  match output.expression with
  | .column column =>
    match output.label with
    | none => column.pieces
    | some label => column.pieces ++ [.word " AS ", .name label]
  | .aggregate function column =>
    let argument := match column with
      | some column => column.pieces
      | none => [.word "*"]
    .word (Text.upper function.name ++ "(") :: argument ++ [.word ")", .word " AS ",
      .name output.name]

end Output

namespace Direction

/-- The direction in SQL. -/
def sql : Direction → String
  | .asc => "ASC"
  | .desc => "DESC"

end Direction

namespace SortKey

/-- One sort key. Where nulls cannot be placed by name, a first key sorts by being null. -/
def pieces (dialect : Dialect) (key : SortKey) : List Piece :=
  match dialect with
  | .mysql =>
    key.column.pieces ++ [.word (if key.nullsFirst then " IS NULL DESC, " else " IS NULL ASC, ")] ++
      key.column.pieces ++ [.word (" " ++ key.direction.sql)]
  | _ =>
    key.column.pieces ++
      [.word (" " ++ key.direction.sql ++ if key.nullsFirst then " NULLS FIRST" else " NULLS LAST")]

end SortKey

/-- The clause of a page. An offset alone needs a limit of its own where the language wants one. -/
def pageClause (dialect : Dialect) (limit offset : Option Nat) : String :=
  match limit, offset with
  | none, none => ""
  | some limit, none => " LIMIT " ++ toString limit
  | some limit, some offset => " LIMIT " ++ toString limit ++ " OFFSET " ++ toString offset
  | none, some offset =>
    match dialect with
    | .sqlite => " LIMIT -1 OFFSET " ++ toString offset
    | .postgres => " OFFSET " ++ toString offset
    | .mysql => " LIMIT 18446744073709551615 OFFSET " ++ toString offset

namespace Select

/-- The pieces of a read. -/
def pieces (dialect : Dialect) (select : Select) : List Piece :=
  let outputs := match select.outputs with
    | [] => [.word "*"]
    | outputs => Piece.join ", " (outputs.map Output.pieces)
  let groups := match select.groupBy with
    | [] => []
    | columns => .word " GROUP BY " :: Piece.join ", " (columns.map ColumnRef.pieces)
  let order := match select.orderBy with
    | [] => []
    | keys => .word " ORDER BY " :: Piece.join ", " (keys.map (SortKey.pieces dialect))
  .word "SELECT " :: outputs ++ [.word " FROM ", .name select.table] ++
    Predicate.whereClause select.predicate ++ groups ++ order ++
    [.word (pageClause dialect select.limit select.offset)]

end Select

namespace Insert

/-- A value of a blob column: the bytes of a text in base64; any other text stays a text. -/
def blobValue (value : Json) : SqlValue :=
  match value with
  | .str text =>
    match Base64.decode? text with
    | some bytes => .blob bytes
    | none => .text text
  | value => .ofJson value

/-- The value that a row binds for a column; a column that the row lacks is null. -/
def boundValue (insert : Insert) (row : Row) (column : String) : SqlValue :=
  match row.get? column with
  | some value => if insert.isBlobColumn column then blobValue value else .ofJson value
  | none => .null

/-- The values of one row for some columns, in parentheses. -/
def rowPieces (insert : Insert) (columns : List String) (row : Row) : List Piece :=
  .word "(" ::
    Piece.join ", " (columns.map fun column => [.bound (insert.boundValue row column)]) ++
    [.word ")"]

/-- The pieces of an insert. Rows without any column are one row of defaults. -/
def pieces (insert : Insert) : Except Error (List Piece) :=
  if insert.rows.isEmpty then
    .error (.query (.insertWithoutRows insert.table))
  else
    match insert.columns with
    | [] => .ok [.word "INSERT INTO ", .name insert.table, .word " DEFAULT VALUES"]
    | columns =>
      .ok ([.word "INSERT INTO ", .name insert.table, .word " ("] ++
        Piece.join ", " (columns.map fun column => [.name column]) ++ [.word ") VALUES "] ++
        Piece.join ", " (insert.rows.map (insert.rowPieces columns)))

/-- An insert is one row of defaults, or names its columns and then has the values of each row. -/
theorem eq_of_pieces {insert : Insert} {pieces : List Piece} (h : insert.pieces = .ok pieces) :
    (insert.columns = [] ∧
      pieces = [.word "INSERT INTO ", .name insert.table, .word " DEFAULT VALUES"]) ∨
    pieces = [.word "INSERT INTO ", .name insert.table, .word " ("] ++
      Piece.join ", " (insert.columns.map fun column => [.name column]) ++ [.word ") VALUES "] ++
      Piece.join ", " (insert.rows.map (insert.rowPieces insert.columns)) := by
  unfold Insert.pieces at h
  split at h
  · cases h
  · split at h
    · rename_i hcolumns
      cases h
      exact Or.inl ⟨hcolumns, rfl⟩
    · cases h
      exact Or.inr rfl

end Insert

namespace Update

/-- The pieces of an update. -/
def pieces (update : Update) : Except Error (List Piece) :=
  match update.set.entries with
  | [] => .error (.query (.updateWithoutFields update.table))
  | entries =>
    .ok ([.word "UPDATE ", .name update.table, .word " SET "] ++
      Piece.join ", " (entries.map fun (column, value) =>
        [.name column, .word " = ", .bound (.ofJson value)]) ++
      Predicate.whereClause update.predicate)

/-- An update names each column that it sets in front of the new value. -/
theorem eq_of_pieces {update : Update} {pieces : List Piece} (h : update.pieces = .ok pieces) :
    pieces = [.word "UPDATE ", .name update.table, .word " SET "] ++
      Piece.join ", " (update.set.entries.map fun entry =>
        [.name entry.1, .word " = ", .bound (.ofJson entry.2)]) ++
      Predicate.whereClause update.predicate := by
  unfold Update.pieces at h
  split at h
  · cases h
  · cases h
    rfl

end Update

namespace Delete

/-- The pieces of a delete. -/
def pieces (delete : Delete) : List Piece :=
  [.word "DELETE FROM ", .name delete.table] ++ Predicate.whereClause delete.predicate

end Delete

namespace Query

/-- The pieces of a query. -/
def pieces (dialect : Dialect) : Query → Except Error (List Piece)
  | .select q => .ok (q.pieces dialect)
  | .insert q => q.pieces
  | .update q => q.pieces
  | .delete q => .ok q.pieces

/-- A query as a statement of a dialect. -/
def render (dialect : Dialect) (query : Query) : Except Error Statement := do
  let pieces ← query.pieces dialect
  .ok (Statement.ofPieces dialect pieces)

end Query

end SqlFederation
