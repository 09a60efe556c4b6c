import SqlFederation.Storage.Cell

/-!
# Totals

The sum and the average of cells. Integers are added exactly as long as 64 bits hold the sum. After
the first other number the sum is a real, and what each rounding loses is kept beside it and added
at the end.
-/

namespace SqlFederation

namespace Storage

/-- A sum so far. -/
inductive Total where
  | exact (sum : Int)
  /--
  A real sum, what its roundings lost, and whether only integers that were too large made it one.
  -/
  | rounded (sum lost : Binary64) (overflown : Bool)

namespace Total

/-- Integers from here on are split before they become reals. -/
def largeInteger : Int := 4503599627370496

/-- The lower part of a large integer. -/
def lowPart (value : Int) : Int :=
  value.tmod 16384

/-- Is an integer so large that it is split? -/
def isLarge (value : Int) : Bool :=
  decide (value ≤ -largeInteger ∨ largeInteger ≤ value)

/-- Adds a real and keeps what is lost. -/
def addReal (sum lost x : Binary64) : Binary64 × Binary64 :=
  let next := sum.add x
  let loss :=
    match Binary64.compare? sum.abs x.abs with
    | some .gt => (sum.sub next).add x
    | _ => (x.sub next).add sum
  (next, lost.add loss)

/-- Adds an integer to a real sum. -/
def addInteger (sum lost : Binary64) (value : Int) : Binary64 × Binary64 :=
  if isLarge value then
    let (sum, lost) := addReal sum lost (.ofInt (value - lowPart value))
    addReal sum lost (.ofInt (lowPart value))
  else
    addReal sum lost (.ofInt value)

/-- The real sum that an integer sum becomes. -/
def toRounded (sum : Int) : Binary64 × Binary64 :=
  if isLarge sum then (.ofInt (sum - lowPart sum), .ofInt (lowPart sum))
  else (.ofInt sum, .zero false)

/-- Adds one number. -/
def add (total : Total) (number : Cell) : Total :=
  match total, number with
  | .exact sum, .integer value =>
    if fitsSigned (sum + value) then
      .exact (sum + value)
    else
      let (real, lost) := toRounded sum
      let (real, lost) := addInteger real lost value
      .rounded real lost true
  | .exact sum, .real x =>
    let (real, lost) := toRounded sum
    let (real, lost) := addReal real lost x
    .rounded real lost false
  | .rounded sum lost overflown, .integer value =>
    let (sum, lost) := addInteger sum lost value
    .rounded sum lost overflown
  | .rounded sum lost _, .real x =>
    let (sum, lost) := addReal sum lost x
    .rounded sum lost false
  | total, _ => total

/-- The sum of cells that are not null. -/
def ofCells (cells : List Cell) : Total :=
  cells.foldl (fun total cell => total.add cell.asNumber) (.exact 0)

/-- A real sum with what its roundings lost. -/
def settle (sum lost : Binary64) : Binary64 :=
  if lost.isFinite then sum.add lost else sum

/-- The sum of cells that are not null; there is none if integers alone were too large. -/
def sum? (cells : List Cell) : Option Cell :=
  if cells.isEmpty then
    some .null
  else
    match ofCells cells with
    | .exact sum => some (.integer sum)
    | .rounded _ _ true => none
    | .rounded sum lost false => some (Cell.ofReal (settle sum lost))

/-- The average of cells that are not null. -/
def average (cells : List Cell) : Cell :=
  if cells.isEmpty then
    .null
  else
    let sum := match ofCells cells with
      | .exact sum => Binary64.ofInt sum
      | .rounded sum lost _ => settle sum lost
    Cell.ofReal (sum.div (.ofInt cells.length))

end Total

end Storage

end SqlFederation
