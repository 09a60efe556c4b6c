import SqlFederation.Number.Binary64

/-!
# Decimal text of numbers

`shortest` finds the fewest decimal digits that read back to a number, and among those the nearest.
`jsonText` lays the digits out as JSON asks for, and `ofDecimalDigits?` is the reading of a decimal
token.
-/

namespace SqlFederation

/-- The decimal number `digits · 10 ^ exponent`. -/
structure Decimal where
  digits : Nat
  exponent : Int
  deriving DecidableEq

namespace Decimal

/-- Drops the trailing zeros of the digits; the fuel is the number of digits. -/
def strip : Nat → Decimal → Decimal
  | 0, d => d
  | fuel + 1, d =>
    if d.digits ≠ 0 ∧ d.digits % 10 = 0 then strip fuel ⟨d.digits / 10, d.exponent + 1⟩ else d

/-- The same value without trailing zeros. -/
def normalize (d : Decimal) : Decimal :=
  strip d.digits.repr.length d

/-- The power of ten of the first digit. -/
def leading (d : Decimal) : Int :=
  d.exponent + d.digits.repr.length - 1

/-- The power of ten of the first digit of `num / den`. -/
def leadingOf (num den : Nat) : Int :=
  let lead : Int := num.repr.length - den.repr.length
  if Binary64.ratioBelow 10 num den lead then lead - 1 else lead

/--
The multiple of `10 ^ grid` nearest to `mantissa · 2 ^ exponent`, if one reads back as that number:
if it lies within half a gap of it, the ends counting only when the mantissa is even. Below a power
of two the gap is half as wide. Of two such multiples the nearer is taken, of two that are equally
near the even one.
-/
def onGrid? (mantissa : Nat) (exponent grid : Int) : Option Nat :=
  -- all distances are in quarters of the gap above
  let width := power 2 (2 - exponent) * power 10 grid
  let unit := power 2 (exponent - 2) * power 10 (-grid)
  let value := 4 * mantissa * unit
  let below := if mantissa = Binary64.hiddenBit ∧ -1074 < exponent then unit else 2 * unit
  let above := 2 * unit
  let low := value / width
  let reach := fun (distance gap : Nat) =>
    if mantissa % 2 = 0 then decide (distance ≤ gap) else decide (distance < gap)
  let toLow := value - low * width
  let toHigh := (low + 1) * width - value
  match reach toLow below, reach toHigh above with
  | true, true =>
    some (if toLow < toHigh ∨ toLow = toHigh ∧ low % 2 = 0 then low else low + 1)
  | true, false => some low
  | false, true => some (low + 1)
  | false, false => none

/-- The fewest digits that read back to the positive number `mantissa · 2 ^ exponent`. -/
def shortest (mantissa : Nat) (exponent : Int) : Decimal :=
  let lead := leadingOf (mantissa * power 2 exponent) (power 2 (-exponent))
  let found := (List.range 17).findSome? fun (n : Nat) =>
    (onGrid? mantissa exponent (lead - n)).map fun digits => normalize ⟨digits, lead - n⟩
  found.getD ⟨mantissa, exponent⟩

/-- The digits written with a point and without an exponent, at least one on each side. -/
def positional (d : Decimal) : String :=
  let text := d.digits.repr
  let lead := d.leading
  if 0 ≤ d.exponent then
    text ++ String.ofList (List.replicate d.exponent.toNat '0') ++ ".0"
  else if 0 ≤ lead then
    let whole := (lead + 1).toNat
    String.ofList (text.toList.take whole) ++ "." ++ String.ofList (text.toList.drop whole)
  else
    "0." ++ String.ofList (List.replicate (-lead - 1).toNat '0') ++ text

/-- The first digit, and after a point the others. -/
def mantissaText (d : Decimal) (atLeast : Nat) : String :=
  match d.digits.repr.toList with
  | [] => "0"
  | c :: rest =>
    let tail := rest ++ List.replicate (atLeast - rest.length) '0'
    if tail.isEmpty then String.singleton c else String.singleton c ++ "." ++ String.ofList tail

/-- A sign, and at least `width` digits of an exponent. -/
def exponentText (exponent : Int) (width : Nat) : String :=
  let digits := exponent.natAbs.repr
  (if exponent < 0 then "-" else "+") ++
    String.ofList (List.replicate (width - digits.length) '0') ++ digits

end Decimal

namespace Binary64

/--
The text of a number in a JSON document: its shortest digits, positional from `10 ^ -5` to below
`10 ^ 16` and else with an exponent. A number that is not finite has no text of its own.
-/
def jsonText (x : Binary64) : String :=
  match x.read with
  | .finite n m e =>
    let sign := if n then "-" else ""
    if m = 0 then
      sign ++ "0.0"
    else
      let d := Decimal.shortest m e
      if -5 ≤ d.leading ∧ d.leading < 16 then
        sign ++ d.positional
      else
        sign ++ d.mantissaText 0 ++ "e" ++ Decimal.exponentText d.leading 1
  | _ => "null"

/-- Multiplies by, or divides by, a power of ten no larger than `10 ^ 308`, rounding once. -/
def scaleTen (x : Binary64) (exponent : Int) : Binary64 :=
  let power := ofDecimal false 1 exponent.natAbs
  if 0 ≤ exponent then x.mul power else x.div power

/-- The largest integer of 64 bits. -/
def maxWord : Nat := 18446744073709551615

/-- The leading digits whose value fits 64 bits, and how many digits are left. -/
def significand : Nat → List Nat → Nat × Nat
  | value, [] => (value, 0)
  | value, d :: rest =>
    if value * 10 + d ≤ maxWord then significand (value * 10 + d) rest
    else (value, rest.length + 1)

/--
The number that a decimal token denotes: the leading digits that fit 64 bits are rounded to a
number, which is then scaled by a power of ten. A result beyond the largest number is refused.
Digits of the fraction that do not fit are dropped.
-/
def ofDecimalDigits? (negative : Bool) (whole fraction : List Nat) (exponent : Int) :
    Option Binary64 :=
  let (head, dropped) := significand 0 whole
  let (value, left) := significand head fraction
  let kept := fraction.length - left
  let scale : Int := exponent + dropped - kept
  let magnitude := ofInt value
  let result :=
    if value = 0 then some magnitude
    else if 308 < scale then none
    else if scale < -10000 then some (zero false)
    else if scale < -308 then some (shrink 40 magnitude scale)
    else some (magnitude.scaleTen scale)
  match result with
  | none => none
  | some x => if x.isFinite then some (if negative then x.neg else x) else none
where
  /-- Divides by `10 ^ 308` until the rest of the power of ten is no larger. -/
  shrink : Nat → Binary64 → Int → Binary64
    | 0, _, _ => zero false
    | fuel + 1, x, scale =>
      if -308 ≤ scale then x.scaleTen scale
      else shrink fuel (x.scaleTen (-308)) (scale + 308)

end Binary64

end SqlFederation
