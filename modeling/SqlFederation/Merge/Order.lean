import SqlFederation.Json.Printer
import SqlFederation.Query.Basic

/-!
# The order of merged rows

`compareValues` orders values of one kind by their meaning and values of different kinds by the rank
of the kind. `sortRows` is the stable sort by the keys of a select, and `paginate` cuts a page out.
-/

namespace SqlFederation

namespace Merge

/-- The rank of a value's kind. -/
def kindRank : Json → Nat
  | .null => 0
  | .bool _ => 1
  | .num _ => 2
  | .str _ => 3
  | .arr _ => 4
  | .obj _ => 5

/-- Numbers are compared as integers when both are, and else after rounding both. -/
def compareNumbers (a b : Number) : Ordering :=
  match a.asInt?, b.asInt? with
  | some x, some y => compare x y
  | _, _ => (Binary64.compare? a.asReal b.asReal).getD .eq

/-- The order of values. Lists and objects are compared by their text. -/
def compareValues (a b : Json) : Ordering :=
  match a, b with
  | .num x, .num y => compareNumbers x y
  | .str x, .str y => compare x y
  | .bool x, .bool y => compare x y
  | .null, .null => .eq
  | .arr x, .arr y => compare (Json.arr x).compact (Json.arr y).compact
  | .obj x, .obj y => compare (Json.obj x).compact (Json.obj y).compact
  | a, b => compare (kindRank a) (kindRank b)

/-- The order of two values under a sort key. The direction does not move nulls. -/
def compareUnder (key : SortKey) (a b : Json) : Ordering :=
  match a.isNull, b.isNull with
  | true, true => .eq
  | true, false => if key.nullsFirst then .lt else .gt
  | false, true => if key.nullsFirst then .gt else .lt
  | false, false =>
    match key.direction with
    | .asc => compareValues a b
    | .desc => (compareValues a b).swap

/-- The order of two rows: each key decides among rows that are equal on the earlier ones. -/
def compareRows (keys : List (SortKey × String)) (a b : Row) : Ordering :=
  match keys with
  | [] => .eq
  | (key, name) :: rest =>
    (compareUnder key (a.value name) (b.value name)).then (compareRows rest a b)

/-- The sort keys of a select with the names that their columns have in result rows. -/
def sortKeys (select : Select) : List (SortKey × String) :=
  select.orderBy.map fun key => (key, select.resultName key.column)

/-- The rows in the order of a select; equal rows stay as they are. -/
def sortRows (select : Select) (rows : List Row) : List Row :=
  rows.mergeSort fun a b => compareRows (sortKeys select) a b != .gt

/-- The page of some rows. -/
def paginate (limit offset : Option Nat) (rows : List Row) : List Row :=
  let rest := rows.drop (offset.getD 0)
  match limit with
  | some limit => rest.take limit
  | none => rest

end Merge

end SqlFederation
