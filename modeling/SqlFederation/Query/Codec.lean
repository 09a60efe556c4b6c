import SqlFederation.Query.Basic
import SqlFederation.Json.Decode

/-!
# Queries as JSON

Each type has `toJson` and `ofJson?`. Writing leaves out what is absent; reading accepts what
writing leaves out and refuses a wrong type, an unknown name or a missing part. Records may be given
as lists of their parts. `read?` is `ofJson?` for values that may stand inside of a tagged value,
where names are read more freely.
-/

namespace SqlFederation

namespace ColumnRef

def toJson (column : ColumnRef) : Json :=
  .obj (Json.entry? "table" (column.table.map .str) ++ [("name", .str column.name)])

/-- The parts of a column; in a list the table has to be there, if only as null. -/
def parts : Json.Parts := .all ["table", "name"]

def ofJson? (value : Json) : Option ColumnRef := do
  let entries ← parts.entries? value
  let table ← Json.optional entries "table" Json.asStr?
  let name ← Json.field entries "name" Json.asStr?
  some ⟨table, name⟩

end ColumnRef

namespace Comparator

/-- The name of a comparator in JSON. -/
def name : Comparator → String
  | .eq => "eq"
  | .ne => "ne"
  | .gt => "gt"
  | .gte => "gte"
  | .lt => "lt"
  | .lte => "lte"
  | .like => "like"
  | .isNull => "is_null"
  | .isNotNull => "is_not_null"

/-- Every comparator under its name. -/
def named : List (String × Comparator) :=
  [eq, ne, gt, gte, lt, lte, like, isNull, isNotNull].map fun op => (op.name, op)

end Comparator

namespace Connective

/-- Every connective under its name. -/
def named : List (String × Connective) :=
  [and, or].map fun connective => (connective.sql, connective)

end Connective

namespace Predicate

mutual

def toJson : Predicate → Json
  | .compare column op value =>
    .obj [("node", .str "comparison"), ("field", column.toJson), ("op", .str op.name),
      ("value", value)]
  | .join connective children =>
    .obj [("node", .str "conjunction"), ("logic", .str connective.sql),
      ("children", .arr (toJsonAll children))]

/-- Writes every predicate of a list. -/
def toJsonAll : List Predicate → List Json
  | [] => []
  | child :: rest => toJson child :: toJsonAll rest

end

/-- The names of the kinds of predicates. -/
def kinds : List String := ["comparison", "conjunction"]

/-- The parts of a comparison. -/
def comparisonParts : Json.Parts := ⟨["field", "op", "value"], 2⟩

/-- The comparison of the given entries; a value that is left out is null. -/
def comparison? (entries : List (String × Json)) : Option Predicate := do
  let column ← Json.field entries "field" ColumnRef.ofJson?
  let op ← Json.field entries "op" (Json.oneOf true Comparator.named)
  some (.compare column op ((entries.lookup "value").getD .null))

/-- A connective inside of a predicate. -/
def connective? (value : Json) : Option Connective :=
  Json.oneOf true Connective.named value

mutual

/-- Reads a predicate; `inside` says that it is a child of another one, or part of a query. -/
def read? (inside : Bool) : Json → Option Predicate
  | .obj entries => do
    let kind ← Json.field entries "node" (Json.kind? inside kinds)
    if kind = "comparison" then
      comparison? entries
    else if kind = "conjunction" then
      let connective ← Json.field entries "logic" connective?
      let children ← childrenOf entries
      some (.join connective children)
    else
      none
  | .arr (first :: items) => do
    let kind ← Json.kind? inside kinds first
    if kind = "comparison" then
      comparison? (← comparisonParts.ofItems? items)
    else if kind = "conjunction" then
      let connective ← items.head?.bind connective?
      let children ← secondOf items
      some (.join connective children)
    else
      none
  | _ => none

/-- The predicates of the first entry that is named for children. -/
def childrenOf : List (String × Json) → Option (List Predicate)
  | [] => none
  | (key, value) :: rest => if key = "children" then listOf value else childrenOf rest

/-- The predicates of the second of two items. -/
def secondOf : List Json → Option (List Predicate)
  | [_, children] => listOf children
  | _ => none

/-- A list of predicates. -/
def listOf : Json → Option (List Predicate)
  | .arr items => allOf items
  | _ => none

/-- Reads every item. -/
def allOf : List Json → Option (List Predicate)
  | [] => some []
  | item :: rest => do
    let child ← read? true item
    let others ← allOf rest
    some (child :: others)

end

def ofJson? (value : Json) : Option Predicate :=
  read? false value

end Predicate

namespace Aggregate

/-- Every function under its name. -/
def named : List (String × Aggregate) :=
  [sum, count, min, max, avg].map fun function => (function.name, function)

end Aggregate

namespace Expression

def toJson : Expression → Json
  | .column c => .obj [("kind", .str "column"), ("field", c.toJson)]
  | .aggregate function c =>
    .obj ([("kind", .str "aggregate"), ("func", .str function.name)] ++
      Json.entry? "column" (c.map ColumnRef.toJson))

/-- The kinds of expressions with their parts. -/
def kinds : List (String × Json.Parts) :=
  [("column", .all ["field"]), ("aggregate", ⟨["func", "column"], 1⟩)]

/-- Reads an expression; `inside` says that it is part of a query. -/
def read? (inside : Bool) (value : Json) : Option Expression := do
  let (kind, entries) ← value.tagged? inside "kind" kinds
  if kind = "column" then
    let c ← Json.field entries "field" ColumnRef.ofJson?
    some (.column c)
  else if kind = "aggregate" then
    let function ← Json.field entries "func" (Json.oneOf true Aggregate.named)
    let c ← Json.optional entries "column" ColumnRef.ofJson?
    some (.aggregate function c)
  else
    none

end Expression

namespace Output

def toJson (output : Output) : Json :=
  .obj ([("expr", output.expression.toJson)] ++ Json.entry? "alias" (output.label.map .str))

/-- The parts of a column of a result. -/
def parts : Json.Parts := ⟨["expr", "alias"], 1⟩

/-- Reads a column of a result; `inside` says that it is part of a query. -/
def read? (inside : Bool) (value : Json) : Option Output := do
  let entries ← parts.entries? value
  let expression ← Json.field entries "expr" (Expression.read? inside)
  let label ← Json.optional entries "alias" Json.asStr?
  some ⟨expression, label⟩

end Output

namespace Direction

/-- The name of a direction in JSON. -/
def name : Direction → String
  | .asc => "asc"
  | .desc => "desc"

/-- Every direction under its name. -/
def named : List (String × Direction) :=
  [asc, desc].map fun direction => (direction.name, direction)

end Direction

namespace SortKey

def toJson (key : SortKey) : Json :=
  .obj [("field", key.column.toJson), ("direction", .str key.direction.name),
    ("nulls_first", .bool key.nullsFirst)]

/-- The parts of a sort key. -/
def parts : Json.Parts := ⟨["field", "direction", "nulls_first"], 2⟩

/-- Reads a sort key; `inside` says that it is part of a query. -/
def read? (inside : Bool) (value : Json) : Option SortKey := do
  let entries ← parts.entries? value
  let column ← Json.field entries "field" ColumnRef.ofJson?
  let direction ← Json.field entries "direction" (Json.oneOf inside Direction.named)
  let nullsFirst ← Json.withDefault entries "nulls_first" false Json.asBool?
  some ⟨column, direction, nullsFirst⟩

end SortKey

namespace Select

/-- The entries of a select. -/
def toEntries (select : Select) : List (String × Json) :=
  [("table", .str select.table), ("fields", .arr (select.outputs.map Output.toJson))] ++
    Json.entry? "predicate" (select.predicate.map Predicate.toJson) ++
    [("group_by", .arr (select.groupBy.map ColumnRef.toJson)),
      ("order_by", .arr (select.orderBy.map SortKey.toJson))] ++
    Json.entry? "limit" (select.limit.map Json.ofNat) ++
    Json.entry? "offset" (select.offset.map Json.ofNat)

/-- The parts of a select. -/
def parts : Json.Parts :=
  ⟨["table", "fields", "predicate", "group_by", "order_by", "limit", "offset"], 1⟩

/-- Reads the entries of a select; `inside` says that it is a query of its own kind. -/
def ofEntries? (inside : Bool) (entries : List (String × Json)) : Option Select := do
  let table ← Json.field entries "table" Json.asStr?
  let outputs ← Json.withDefault entries "fields" [] (Json.list (Output.read? inside))
  let predicate ← Json.optional entries "predicate" (Predicate.read? inside)
  let groupBy ← Json.withDefault entries "group_by" [] (Json.list ColumnRef.ofJson?)
  let orderBy ← Json.withDefault entries "order_by" [] (Json.list (SortKey.read? inside))
  let limit ← Json.optional entries "limit" Json.asNat?
  let offset ← Json.optional entries "offset" Json.asNat?
  some ⟨table, outputs, predicate, groupBy, orderBy, limit, offset⟩

def toJson (select : Select) : Json := .obj select.toEntries

def ofJson? (value : Json) : Option Select := do
  ofEntries? false (← parts.entries? value)

end Select

namespace Insert

/-- The entries of an insert. -/
def toEntries (insert : Insert) : List (String × Json) :=
  [("table", .str insert.table), ("rows", .arr (insert.rows.map Row.toJson))] ++
    Json.entry? "blob_columns"
      (if insert.blobColumns.isEmpty then none else some (Json.ofStrings insert.blobColumns))

/-- The parts of an insert. -/
def parts : Json.Parts := ⟨["table", "rows", "blob_columns"], 2⟩

/-- Reads the entries of an insert. -/
def ofEntries? (entries : List (String × Json)) : Option Insert := do
  let table ← Json.field entries "table" Json.asStr?
  let rows ← Json.field entries "rows" (Json.list Row.ofJson?)
  let blobColumns ← Json.withDefault entries "blob_columns" [] (Json.list Json.asStr?)
  some ⟨table, rows, blobColumns⟩

end Insert

namespace Update

/-- The entries of an update. -/
def toEntries (update : Update) : List (String × Json) :=
  [("table", .str update.table), ("set", update.set.toJson)] ++
    Json.entry? "predicate" (update.predicate.map Predicate.toJson)

/-- The parts of an update. -/
def parts : Json.Parts := ⟨["table", "set", "predicate"], 2⟩

/-- Reads the entries of an update. -/
def ofEntries? (entries : List (String × Json)) : Option Update := do
  let table ← Json.field entries "table" Json.asStr?
  let set ← Json.field entries "set" Row.ofJson?
  let predicate ← Json.optional entries "predicate" (Predicate.read? true)
  some ⟨table, set, predicate⟩

end Update

namespace Delete

/-- The entries of a delete. -/
def toEntries (delete : Delete) : List (String × Json) :=
  [("table", .str delete.table)] ++
    Json.entry? "predicate" (delete.predicate.map Predicate.toJson)

/-- The parts of a delete. -/
def parts : Json.Parts := ⟨["table", "predicate"], 1⟩

/-- Reads the entries of a delete. -/
def ofEntries? (entries : List (String × Json)) : Option Delete := do
  let table ← Json.field entries "table" Json.asStr?
  let predicate ← Json.optional entries "predicate" (Predicate.read? true)
  some ⟨table, predicate⟩

end Delete

namespace Query

def toJson : Query → Json
  | .select q => .obj (("type", .str "select") :: q.toEntries)
  | .insert q => .obj (("type", .str "insert") :: q.toEntries)
  | .update q => .obj (("type", .str "update") :: q.toEntries)
  | .delete q => .obj (("type", .str "delete") :: q.toEntries)

/-- The kinds of queries with their parts. -/
def kinds : List (String × Json.Parts) :=
  [("select", Select.parts), ("insert", Insert.parts), ("update", Update.parts),
    ("delete", Delete.parts)]

def ofJson? (value : Json) : Option Query := do
  let (type, entries) ← value.tagged? false "type" kinds
  if type = "select" then
    (Select.ofEntries? true entries).map .select
  else if type = "insert" then
    (Insert.ofEntries? entries).map .insert
  else if type = "update" then
    (Update.ofEntries? entries).map .update
  else if type = "delete" then
    (Delete.ofEntries? entries).map .delete
  else
    none

end Query

end SqlFederation
