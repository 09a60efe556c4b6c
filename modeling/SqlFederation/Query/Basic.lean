import SqlFederation.Query.Predicate
import SqlFederation.Row
import SqlFederation.Text.Case

/-!
# Queries

Typed statements: a select with its outputs, grouping, order and page, and the three writes. An
output is a column or an aggregate; its name in result rows is its label, or is made from the
expression. `retarget` aims a query at another table of the same shape.
-/

namespace SqlFederation

/-- An aggregate function. -/
inductive Aggregate where
  | sum
  | count
  | min
  | max
  | avg
  deriving DecidableEq

namespace Aggregate

/-- The name of a function. -/
def name : Aggregate → String
  | .sum => "sum"
  | .count => "count"
  | .min => "min"
  | .max => "max"
  | .avg => "avg"

/-- The function of a name in any letter case; `average` is another name of `avg`. -/
def ofName? (name : String) : Option Aggregate :=
  let names :=
    [("sum", sum), ("count", count), ("min", min), ("max", max), ("avg", avg), ("average", avg)]
  names.lookup (Text.lowerAscii name)

end Aggregate

/-- What an output computes; an aggregate without a column is over `*`. -/
inductive Expression where
  | column (column : ColumnRef)
  | aggregate (function : Aggregate) (column : Option ColumnRef)
  deriving DecidableEq

/-- One output of a select. -/
structure Output where
  expression : Expression
  label : Option String
  deriving DecidableEq

namespace Output

/-- A column under its own name. -/
def ofColumn (column : ColumnRef) : Output := ⟨.column column, none⟩

/-- A column under another name. -/
def columnAs (column : ColumnRef) (label : String) : Output := ⟨.column column, some label⟩

/-- An aggregate under a name. -/
def ofAggregate (function : Aggregate) (column : Option ColumnRef) (label : String) : Output :=
  ⟨.aggregate function column, some label⟩

/-- The name of the output in result rows. -/
def name (output : Output) : String :=
  match output.label with
  | some label => label
  | none =>
    match output.expression with
    | .column column => column.name
    | .aggregate function (some column) => function.name ++ "(" ++ column.name ++ ")"
    | .aggregate function none => function.name ++ "(*)"

/-- The aggregate function of the output, if it has one. -/
def function? (output : Output) : Option Aggregate :=
  match output.expression with
  | .aggregate function _ => some function
  | .column _ => none

/-- The column that the output reads; an aggregate over `*` reads none. -/
def column? (output : Output) : Option ColumnRef :=
  match output.expression with
  | .column column => some column
  | .aggregate _ column => column

/-- The same output with the table `source` called `target`. -/
def retarget (source target : String) (output : Output) : Output :=
  { output with
    expression := match output.expression with
      | .column column => .column (column.retarget source target)
      | .aggregate function column =>
        .aggregate function (column.map fun c => c.retarget source target) }

end Output

/-- The direction of a sort key. -/
inductive Direction where
  | asc
  | desc
  deriving DecidableEq

/-- One key of an order; nulls stand before or behind all other values in either direction. -/
structure SortKey where
  column : ColumnRef
  direction : Direction
  nullsFirst : Bool
  deriving DecidableEq

namespace SortKey

/-- The same key with the table `source` called `target`. -/
def retarget (source target : String) (key : SortKey) : SortKey :=
  { key with column := key.column.retarget source target }

end SortKey

/-- A read. No outputs stands for all columns. -/
structure Select where
  table : String
  outputs : List Output
  predicate : Option Predicate
  groupBy : List ColumnRef
  orderBy : List SortKey
  limit : Option Nat
  offset : Option Nat

namespace Select

/-- All columns of all rows. -/
def all (table : String) : Select := ⟨table, [], none, [], [], none, none⟩

/-- Adds an output. -/
def withOutput (select : Select) (output : Output) : Select :=
  { select with outputs := select.outputs ++ [output] }

/-- Adds a condition. -/
def filter (select : Select) (predicate : Predicate) : Select :=
  { select with predicate := some (Predicate.addTo select.predicate predicate) }

/-- Does any output aggregate? -/
def hasAggregates (select : Select) : Bool :=
  select.outputs.any fun output => output.function?.isSome

/-- Are the rows of the answer groups? -/
def isGrouped (select : Select) : Bool :=
  select.hasAggregates || !select.groupBy.isEmpty

/-- The label of the first output that is this column, if that output has one. -/
def labelAmong (column : ColumnRef) : List Output → Option String
  | [] => none
  | output :: rest =>
    match output.expression with
    | .column selected =>
      if selected.name = column.name then output.label else labelAmong column rest
    | .aggregate .. => labelAmong column rest

/-- The name that a column has in result rows: the label that it is first selected under, or its own
name. -/
def resultName (select : Select) (column : ColumnRef) : String :=
  (labelAmong column select.outputs).getD column.name

/-- The names of the group columns in result rows. -/
def groupNames (select : Select) : List String :=
  select.groupBy.map select.resultName

/-- The select on another table; columns that name its table follow. -/
def retarget (select : Select) (target : String) : Select :=
  if select.table = target then select
  else
    { table := target
      outputs := select.outputs.map (Output.retarget select.table target)
      predicate := select.predicate.map (Predicate.retarget select.table target)
      groupBy := select.groupBy.map fun c => c.retarget select.table target
      orderBy := select.orderBy.map (SortKey.retarget select.table target)
      limit := select.limit
      offset := select.offset }

end Select

/-- New rows. The text in a blob column is base64. -/
structure Insert where
  table : String
  rows : List Row
  blobColumns : List String

namespace Insert

/-- No rows yet. -/
def into (table : String) : Insert := ⟨table, [], []⟩

/-- Adds a row. -/
def withRow (insert : Insert) (row : Row) : Insert :=
  { insert with rows := insert.rows ++ [row] }

/-- Adds a blob column. -/
def withBlobColumn (insert : Insert) (column : String) : Insert :=
  { insert with blobColumns := insert.blobColumns ++ [column] }

/-- Is this a blob column? -/
def isBlobColumn (insert : Insert) (column : String) : Bool :=
  insert.blobColumns.contains column

/-- Appends the names that are not there yet. -/
def addColumns (known : List String) (row : Row) : List String :=
  row.columns.foldl (fun known c => if known.contains c then known else known ++ [c]) known

/-- The columns of all rows, in the order in which they first appear. -/
def columns (insert : Insert) : List String :=
  insert.rows.foldl addColumns []

end Insert

/-- New values for the rows that meet a condition. -/
structure Update where
  table : String
  set : Row
  predicate : Option Predicate

namespace Update

/-- Nothing set yet, for all rows. -/
def of (table : String) : Update := ⟨table, Row.empty, none⟩

/-- Sets a column. -/
def withValue (update : Update) (column : String) (value : Json) : Update :=
  { update with set := update.set.insert column value }

/-- Adds a condition. -/
def filter (update : Update) (predicate : Predicate) : Update :=
  { update with predicate := some (Predicate.addTo update.predicate predicate) }

end Update

/-- Removes the rows that meet a condition. -/
structure Delete where
  table : String
  predicate : Option Predicate

namespace Delete

/-- All rows. -/
def all (table : String) : Delete := ⟨table, none⟩

/-- Adds a condition. -/
def filter (delete : Delete) (predicate : Predicate) : Delete :=
  { delete with predicate := some (Predicate.addTo delete.predicate predicate) }

end Delete

/-- A statement. -/
inductive Query where
  | select (query : Select)
  | insert (query : Insert)
  | update (query : Update)
  | delete (query : Delete)

namespace Query

/-- The table of a statement. -/
def table : Query → String
  | .select q => q.table
  | .insert q => q.table
  | .update q => q.table
  | .delete q => q.table

/-- The condition of a statement; an insert has none. -/
def predicate : Query → Option Predicate
  | .select q => q.predicate
  | .insert _ => none
  | .update q => q.predicate
  | .delete q => q.predicate

/-- Is this a read? -/
def isSelect : Query → Bool
  | .select _ => true
  | _ => false

/-- The verb of a statement. -/
def verb : Query → String
  | .select _ => "SELECT"
  | .insert _ => "INSERT"
  | .update _ => "UPDATE"
  | .delete _ => "DELETE"

/-- Adds a condition; an insert takes none. -/
def filter? (query : Query) (predicate : Predicate) : Option Query :=
  match query with
  | .select q => some (.select (q.filter predicate))
  | .insert _ => none
  | .update q => some (.update (q.filter predicate))
  | .delete q => some (.delete (q.filter predicate))

/-- The statement on another table; columns that name its table follow. -/
def retarget (query : Query) (target : String) : Query :=
  match query with
  | .select q => .select (q.retarget target)
  | .insert q => .insert { q with table := target }
  | .update q =>
    if q.table = target then .update q
    else .update ⟨target, q.set, q.predicate.map (Predicate.retarget q.table target)⟩
  | .delete q =>
    if q.table = target then .delete q
    else .delete ⟨target, q.predicate.map (Predicate.retarget q.table target)⟩

end Query

end SqlFederation
