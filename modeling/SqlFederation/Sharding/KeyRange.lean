import SqlFederation.Error
import SqlFederation.Json.Decode

/-!
# Ranges of keys

A range is a closed interval of 64-bit integers, open-ended on a side without a bound. A range that
is configured has its bounds in order (`checked`); one that is derived from a condition may be
empty.
-/

namespace SqlFederation

/-- The largest key. -/
def maxKey : Int := 9223372036854775807

/-- The smallest key. -/
def minKey : Int := -9223372036854775808

/-- The key after a key; the largest has none and stands for itself. -/
def keyAfter (key : Int) : Int := min maxKey (key + 1)

/-- The key before a key; the smallest has none and stands for itself. -/
def keyBefore (key : Int) : Int := max minKey (key - 1)

/-- A closed interval of keys; a missing bound leaves that side open. -/
structure KeyRange where
  min : Option Int
  max : Option Int
  deriving DecidableEq

namespace KeyRange

/-- Every key. -/
def unbounded : KeyRange := ⟨none, none⟩

/-- One key. -/
def point (key : Int) : KeyRange := ⟨some key, some key⟩

/-- A key and all above it. -/
def atLeast (key : Int) : KeyRange := ⟨some key, none⟩

/-- A key and all below it. -/
def atMost (key : Int) : KeyRange := ⟨none, some key⟩

/-- The range, if its bounds are in order. -/
def checked (range : KeyRange) : Except Error KeyRange :=
  match range.min, range.max with
  | some lo, some hi =>
    if hi < lo then .error (.config (.invertedRange lo hi)) else .ok range
  | _, _ => .ok range

/-- Is there no bound? -/
def isUnbounded (range : KeyRange) : Bool :=
  range.min.isNone && range.max.isNone

/-- Are the bounds out of order, so that no key lies between them? -/
def isEmpty (range : KeyRange) : Bool :=
  match range.min, range.max with
  | some lo, some hi => decide (hi < lo)
  | _, _ => false

/-- Does a key lie in the range? -/
def contains (range : KeyRange) (key : Int) : Bool :=
  (range.min.all fun lo => decide (lo ≤ key)) && (range.max.all fun hi => decide (key ≤ hi))

/-- Is neither range wholly below the other? -/
def intersects (a b : KeyRange) : Bool :=
  let apart := fun (hi lo : Option Int) =>
    match hi, lo with
    | some hi, some lo => decide (hi < lo)
    | _, _ => false
  !apart a.max b.min && !apart b.max a.min

/-- The bound that two sides agree on by `pick`; a missing one gives way. -/
def tighter (pick : Int → Int → Int) : Option Int → Option Int → Option Int
  | some a, some b => some (pick a b)
  | some a, none => some a
  | none, b => b

/-- The bound that covers two sides by `pick`; a missing one stays missing. -/
def looser (pick : Int → Int → Int) : Option Int → Option Int → Option Int
  | some a, some b => some (pick a b)
  | _, _ => none

/-- The keys of both ranges. -/
def intersect (a b : KeyRange) : KeyRange :=
  ⟨tighter Max.max a.min b.min, tighter Min.min a.max b.max⟩

/-- The smallest range over both. -/
def hull (a b : KeyRange) : KeyRange :=
  ⟨looser Min.min a.min b.min, looser Max.max a.max b.max⟩

/-- The text of a range, `[lo, hi]`. -/
def text (range : KeyRange) : String :=
  let lo := match range.min with
    | some lo => toString lo
    | none => "-inf"
  let hi := match range.max with
    | some hi => toString hi
    | none => "+inf"
  "[" ++ lo ++ ", " ++ hi ++ "]"

/-- The entries of a range. -/
def toEntries (range : KeyRange) : List (String × Json) :=
  let bound := fun (b : Option Int) =>
    match b with
    | some value => Json.ofInt value
    | none => .null
  [("min", bound range.min), ("max", bound range.max)]

/-- Reads the entries of a range. -/
def ofEntries? (entries : List (String × Json)) : Option KeyRange := do
  let min ← Json.optional entries "min" Json.asInt?
  let max ← Json.optional entries "max" Json.asInt?
  some ⟨min, max⟩

def toJson (range : KeyRange) : Json := .obj range.toEntries

/-- The parts of a range. -/
def parts : Json.Parts := ⟨["min", "max"], 0⟩

def ofJson? (value : Json) : Option KeyRange := do
  ofEntries? (← parts.entries? value)

end KeyRange

end SqlFederation
