import SqlFederation.Merge.Order
import SqlFederation.Error

/-!
# Folding groups

Every shard answers a grouped read with rows of its own groups. Rows of the same group are folded:
sums and counts add up, the least and the greatest value stay, and an average is the quotient of its
sums and counts, the counts travelling in a hidden column. A value that is not there counts as null.
-/

namespace SqlFederation

namespace Merge

/-- The hidden column with the row count behind an average. -/
def hiddenCount (output : String) : String :=
  output ++ "__count"

/-- What has been folded of one output. -/
inductive Accumulator where
  | total (value : Json)
  | least (value : Json)
  | greatest (value : Json)
  | average (sum count : Binary64)

/-- The number of a value as a real; what is not a number counts as zero. -/
def realOf (value : Json) : Binary64 :=
  value.asReal?.getD (Binary64.zero false)

/-- The sum of two values. Null adds nothing; integers stay integers while 64 bits hold the sum. -/
def addValues (a b : Json) : Json :=
  match a, b with
  | .null, other => other
  | other, .null => other
  | a, b =>
    match a.asInt?, b.asInt? with
    | some x, some y =>
      if fitsSigned (x + y) then .ofInt (x + y)
      else .ofReal ((Binary64.ofInt x).add (Binary64.ofInt y))
    | _, _ => .ofReal ((realOf a).add (realOf b))

/-- Replaces a value by one that stands on the wanted side of it; null gives way to any value. -/
def pick (wanted : Ordering) (held value : Json) : Json :=
  if value.isNull then held
  else if held.isNull || compareValues value held == wanted then value
  else held

/-- An accumulator with the first row of a group. -/
def Accumulator.seed (function : Aggregate) (row : Row) (output : String) : Accumulator :=
  let value := row.value output
  match function with
  | .sum | .count => .total value
  | .min => .least value
  | .max => .greatest value
  | .avg => .average (realOf value) (realOf (row.value (hiddenCount output)))

/-- Adds another row of the group. -/
def Accumulator.fold (acc : Accumulator) (row : Row) (output : String) : Accumulator :=
  let value := row.value output
  match acc with
  | .total held => .total (addValues held value)
  | .least held => .least (pick .lt held value)
  | .greatest held => .greatest (pick .gt held value)
  | .average sum count =>
    .average (sum.add (realOf value)) (count.add (realOf (row.value (hiddenCount output))))

/-- The folded value. An average over no rows is null. -/
def Accumulator.finish : Accumulator → Json
  | .total value => value
  | .least value => value
  | .greatest value => value
  | .average sum count => if count.isZero then .null else .ofReal (sum.div count)

/-- A group: its key, its first row, and one accumulator for each aggregated output. -/
structure Group where
  key : String
  row : Row
  accumulators : List Accumulator

/-- The aggregated outputs of a select under their names. -/
def aggregates (select : Select) : List (String × Aggregate) :=
  select.outputs.filterMap fun output =>
    output.function?.map fun function => (output.name, function)

/-- The first output that is neither aggregated nor a group column. -/
def strayOutput? (select : Select) : Option String :=
  (select.outputs.find? fun output =>
    output.function?.isNone && !select.groupNames.contains output.name).map Output.name

/-- The first group column that is not among the outputs; no outputs stand for all columns. -/
def missingGroup? (select : Select) : Option String :=
  if select.outputs.isEmpty then none
  else select.groupNames.find? fun name => !(select.outputs.map Output.name).contains name

/-- Refuses a grouped read whose rows cannot be told apart by group. -/
def checkGrouping (select : Select) : Except Error Unit :=
  match strayOutput? select with
  | some field => .error (.grouping (.neitherGroupedNorAggregated field select.table))
  | none =>
    match missingGroup? select with
    | some field => .error (.grouping (.groupNotSelected field select.table))
    | none => .ok ()

/-- The key of a row's group: the text of its group values. -/
def groupKey (select : Select) (row : Row) : String :=
  (Json.arr (select.groupNames.map row.value)).compact

/-- Folds a row into the group of its key, or opens a group with it behind the others. -/
def addRow (aggregates : List (String × Aggregate)) (key : String) (row : Row) :
    List Group → List Group
  | [] => [⟨key, row, aggregates.map fun (output, function) => .seed function row output⟩]
  | group :: rest =>
    if group.key = key then
      let folded := (group.accumulators.zip aggregates).map fun (acc, output, _) =>
        acc.fold row output
      { group with accumulators := folded } :: rest
    else
      group :: addRow aggregates key row rest

/-- The row of a group: its first row with the folded values, without the hidden counts. -/
def Group.finish (aggregates : List (String × Aggregate)) (group : Group) : Row :=
  (group.accumulators.zip aggregates).foldl
    (fun row (acc, output, function) =>
      let row := row.insert output acc.finish
      match function with
      | .avg => row.erase (hiddenCount output)
      | _ => row)
    group.row

/-- One row for each group, in the order in which the groups first appear. -/
def foldGroups (select : Select) (rows : List Row) : List Row :=
  let groups := rows.foldl
    (fun groups row => addRow (aggregates select) (groupKey select row) row groups) []
  groups.map (Group.finish (aggregates select))

/-- The folded rows of a grouped read. -/
def aggregate (select : Select) (rows : List Row) : Except Error (List Row) := do
  checkGrouping select
  .ok (foldGroups select rows)

end Merge

end SqlFederation
