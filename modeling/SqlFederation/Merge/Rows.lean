import SqlFederation.Merge.Aggregate

/-!
# Reads that span shards

`shardSelect` is what each shard is asked: everything that a page of the whole might need, and the
sum and count behind each average. `mergeRows` makes the answer of the whole out of the answers.
-/

namespace SqlFederation

namespace Merge

/-- The largest limit. -/
def maxLimit : Nat := 18446744073709551615

/-- An output as a shard is asked for it: an average as its sum, under its own name. -/
def shardOutput (output : Output) : Output :=
  match output.expression with
  | .aggregate .avg column => .ofAggregate .sum column output.name
  | _ => output

/-- The hidden count that goes with an average. -/
def countOutput? (output : Output) : Option Output :=
  match output.expression with
  | .aggregate .avg column => some (.ofAggregate .count column (hiddenCount output.name))
  | _ => none

/--
The select for each shard. Without groups a shard may hold all of the page, so its limit covers the
offset too; a group may span shards, so grouped reads have no limit at all.
-/
def shardSelect (select : Select) : Select :=
  { select with
    outputs := select.outputs.map shardOutput ++ select.outputs.filterMap countOutput?
    limit :=
      if select.isGrouped then none
      else select.limit.map fun limit => min maxLimit (limit + select.offset.getD 0)
    offset := none }

/-- The answer of the whole: the rows of all shards folded, sorted and cut to the page. -/
def mergeRows (select : Select) (rows : List Row) : Except Error (List Row) := do
  let rows ← if select.isGrouped then aggregate select rows else .ok rows
  let rows := if select.orderBy.isEmpty then rows else sortRows select rows
  .ok (paginate select.limit select.offset rows)

end Merge

end SqlFederation
