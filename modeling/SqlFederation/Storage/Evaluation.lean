import SqlFederation.Storage.Language
import SqlFederation.Storage.Total

/-!
# The value of a term

A term over places is evaluated in a row, for a group of rows. Its plain columns are read in the
row, and calls of whole rows work on the group. Truth has three values: what is unknown is null.
-/

namespace SqlFederation

namespace Storage

/-- A place in a row, and the kind that its column prefers if it is one. -/
structure Place where
  position : Nat
  affinity : Option Affinity

namespace Cell

/-- The truth of a cell: any number but zero is true, null is unknown. -/
def truth? (cell : Cell) : Option Bool :=
  match cell.asNumber with
  | .integer value => some (value != 0)
  | .real value => some (!value.isZero)
  | _ => none

/-- The cell of a truth value. -/
def ofTruth : Option Bool → Cell
  | some true => .integer 1
  | some false => .integer 0
  | none => .null

/-- Both are true; unknown unless one is false or both are true. -/
def both : Option Bool → Option Bool → Option Bool
  | some false, _ | _, some false => some false
  | some true, some true => some true
  | _, _ => none

/-- One is true; unknown unless one is true or both are false. -/
def either : Option Bool → Option Bool → Option Bool
  | some true, _ | _, some true => some true
  | some false, some false => some false
  | _, _ => none

/-- The opposite number. -/
def negated (cell : Cell) : Cell :=
  match cell.asNumber with
  | .integer value => if fitsSigned (-value) then .integer (-value) else .real (.ofInt (-value))
  | .real value => .real value.neg
  | other => other

/-- The characters of a text up to the first one of number zero. -/
def visible (cell : Cell) : List Char :=
  cell.textOf.toList.takeWhile fun c => c.toNat != 0

/-- Does a text match a pattern? Numbers count as their texts. -/
def like (text pattern : Cell) : Option Bool :=
  if text.isNull || pattern.isNull then none
  else some (matchesPattern pattern.visible text.visible)

end Cell

/-- The conversion that is made on both sides of a comparison. -/
def commonAffinity (a b : Option Affinity) : Option Affinity :=
  match a, b with
  | some a, some b => if a.isNumeric || b.isNumeric then some .numeric else none
  | some a, none => some a
  | none, b => b

/-- Converts both sides of a comparison; numbers become texts only beside a text. -/
def Cell.alike (affinity : Option Affinity) (a b : Cell) : Cell × Cell :=
  match affinity with
  | some .text =>
    if a.rank = 2 ∨ b.rank = 2 then (a.withAffinity .text, b.withAffinity .text) else (a, b)
  | some .blob | none => (a, b)
  | some _ => (a.numeric, b.numeric)

/-- Compares two cells; a comparison with null is unknown. -/
def Cell.compare (op : Comparison) (affinity : Option Affinity) (a b : Cell) : Option Bool :=
  if a.isNull || b.isNull then
    none
  else
    let (a, b) := Cell.alike affinity a b
    some (op.holds (a.order b))

/-- Functions of whole rows. -/
inductive GroupFunction where
  | count
  | sum
  | average
  | least
  | greatest
  deriving DecidableEq

namespace GroupFunction

/-- Every function of whole rows under its name. -/
def named : List (String × GroupFunction) :=
  [("count", count), ("sum", sum), ("avg", average), ("min", least), ("max", greatest)]

/-- The function with a name. -/
def ofName? (name : String) : Option GroupFunction :=
  named.lookup (Text.lowerAscii name)

/-- Is a cell better than the best one so far? -/
def improves (function : GroupFunction) (cell best : Cell) : Bool :=
  match function with
  | .least => (cell.order best).isLT
  | .greatest => (cell.order best).isGT
  | _ => false

/-- The best of cells, the first one among equals. -/
def best (function : GroupFunction) : List Cell → Cell
  | [] => .null
  | first :: rest => rest.foldl (fun best c => if function.improves c best then c else best) first

/-- The value of a function over the cells of a group; nulls do not count. -/
def apply (function : GroupFunction) (cells : List Cell) : Except Fault Cell :=
  let cells := cells.filter fun c => !c.isNull
  match function with
  | .count => .ok (.integer cells.length)
  | .sum =>
    match Total.sum? cells with
    | some total => .ok total
    | none => .error .sumTooLarge
  | .average => .ok (Total.average cells)
  | .least | .greatest => .ok (function.best cells)

end GroupFunction

/-- The value of a function of one cell. -/
def applyScalar (function : String) (cell : Cell) : Cell :=
  if Text.sameAscii function "typeof" then .text cell.kindName
  else if Text.sameAscii function "hex" then .text cell.hex
  else .null

/-- Is there a function of one cell with this name? -/
def isScalar (function : String) : Bool :=
  Text.sameAscii function "typeof" || Text.sameAscii function "hex"

namespace Term

/-- The kind that the column of a term prefers. -/
def affinity? : Term Place → Option Affinity
  | .column place => place.affinity
  | _ => none

/-- The first call of a function of whole rows, with its place. -/
def groupCall? {ρ : Type} : Term ρ → Option (String × Nat)
  | .literal _ | .parameter _ | .column _ => none
  | .compare _ a b | .and a b | .or a b | .like a b =>
    match groupCall? a with
    | some found => some found
    | none => groupCall? b
  | .not a | .isNull a | .negate a => groupCall? a
  | .callAll function start => some (function, start)
  | .call function start argument =>
    if (GroupFunction.ofName? function).isSome then some (function, start)
    else groupCall? argument

/-- Refuses functions that there are not. -/
def checkCalls {ρ : Type} : Term ρ → Except Fault Unit
  | .literal _ | .parameter _ | .column _ => .ok ()
  | .compare _ a b | .and a b | .or a b | .like a b => do
    checkCalls a
    checkCalls b
  | .not a | .isNull a | .negate a => checkCalls a
  | .callAll function start =>
    if GroupFunction.ofName? function = some .count then .ok ()
    else if (GroupFunction.ofName? function).isSome || isScalar function then
      .error (.wrongArguments function start)
    else .error (.unknownFunction function start)
  | .call function start argument =>
    if (GroupFunction.ofName? function).isSome || isScalar function then checkCalls argument
    else .error (.unknownFunction function start)

/-- The value of a term without calls of whole rows, in a row. -/
def valueIn (params : List Cell) (row : List Cell) : Term Place → Cell
  | .literal value => value
  | .parameter number => params.getD (number - 1) .null
  | .column place => row.getD place.position .null
  | .compare op a b =>
    .ofTruth (Cell.compare op (commonAffinity (affinity? a) (affinity? b)) (valueIn params row a)
      (valueIn params row b))
  | .and a b => .ofTruth (Cell.both (valueIn params row a).truth? (valueIn params row b).truth?)
  | .or a b => .ofTruth (Cell.either (valueIn params row a).truth? (valueIn params row b).truth?)
  | .not a => .ofTruth ((valueIn params row a).truth?.map (!·))
  | .isNull a => .ofTruth (some (valueIn params row a).isNull)
  | .like text pattern =>
    .ofTruth (Cell.like (valueIn params row text) (valueIn params row pattern))
  | .negate a => (valueIn params row a).negated
  | .callAll .. => .null
  | .call function _ argument => applyScalar function (valueIn params row argument)

/-- Puts values in the places of calls of whole rows. -/
def fillCalls (params : List Cell) (rows : List (List Cell)) :
    Term Place → Except Fault (Term Place)
  | .compare op a b => do
    let a ← fillCalls params rows a
    let b ← fillCalls params rows b
    .ok (.compare op a b)
  | .and a b => do
    let a ← fillCalls params rows a
    let b ← fillCalls params rows b
    .ok (.and a b)
  | .or a b => do
    let a ← fillCalls params rows a
    let b ← fillCalls params rows b
    .ok (.or a b)
  | .like a b => do
    let a ← fillCalls params rows a
    let b ← fillCalls params rows b
    .ok (.like a b)
  | .not a => do .ok (.not (← fillCalls params rows a))
  | .isNull a => do .ok (.isNull (← fillCalls params rows a))
  | .negate a => do .ok (.negate (← fillCalls params rows a))
  | .callAll .. => .ok (.literal (.integer rows.length))
  | .call function start argument =>
    match GroupFunction.ofName? function with
    | some f => do
      let value ← f.apply (rows.map fun row => argument.valueIn params row)
      .ok (.literal value)
    | none => do .ok (.call function start (← fillCalls params rows argument))
  | term => .ok term

/-- The value of a term for a group of rows, plain columns being read in `row`. -/
def valueFor (params : List Cell) (rows : List (List Cell)) (row : List Cell) (term : Term Place) :
    Except Fault Cell := do
  let term ← fillCalls params rows term
  .ok (term.valueIn params row)

end Term

end Storage

end SqlFederation
