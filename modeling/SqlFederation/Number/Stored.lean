import SqlFederation.Number.Decimal
import SqlFederation.Number.Extended

/-!
# Decimal text of stored reals

A table turns texts into reals and reals into texts through numbers of 64 bits: `ofStoredDigits`
reads the digits that fit and scales them, `storedText` writes fifteen digits.
-/

namespace SqlFederation

namespace Decimal

/-- The first `count` digits, a half rounded up. -/
def cut (count : Nat) (d : Decimal) : Decimal :=
  let dropped := d.digits.repr.length - count
  let unit := power 10 dropped
  normalize ⟨(2 * d.digits + unit) / (2 * unit), d.exponent + dropped⟩

end Decimal

namespace Binary64

/--
The text that a stored real takes in a text column: fifteen digits, positional from `10 ^ -4` to
below `10 ^ 15`, and always a digit after the point.
-/
def storedText (x : Binary64) : String :=
  match x.read with
  | .finite n m e =>
    if m = 0 then
      "0.0"
    else
      let sign := if n then "-" else ""
      let (digits, scale) := (Extended.ofScaled m e).wholeDigits
      let d := Decimal.cut 15 ⟨digits, scale⟩
      if -4 ≤ d.leading ∧ d.leading < 15 then
        sign ++ d.positional
      else
        sign ++ d.mantissaText 1 ++ "e" ++ Decimal.exponentText d.leading 2
  | .infinite n => if n then "-Inf" else "Inf"
  | .notANumber => ""

/-- No digit is read behind a value that has come this far. -/
def digitLimit : Nat := 1844674407370955160

/-- The leading digits of a number that are read, and how many digits are left. -/
def storedSignificand : Nat → List Nat → Nat × Nat
  | value, [] => (value, 0)
  | value, d :: rest =>
    if value < digitLimit then storedSignificand (value * 10 + d) rest
    else (value, rest.length + 1)

/-- Moves a positive exponent into the digits as long as 64 bits hold them. -/
def absorbExponent : Nat → Nat × Int → Nat × Int
  | 0, state => state
  | fuel + 1, (value, exponent) =>
    if 0 < exponent ∧ value < maxWord / 10 then absorbExponent fuel (value * 10, exponent - 1)
    else if exponent < 0 ∧ value % 10 = 0 then absorbExponent fuel (value / 10, exponent + 1)
    else (value, exponent)

/--
The real that a text denotes as it is stored: the digits that are read, as a number of 64 bits,
times a power of ten. Without a power of ten the digits are rounded just once; an exponent beyond
all numbers gives an infinity or zero.
-/
def ofStoredDigits (negative : Bool) (digits : List Nat) (scale : Int) : Binary64 :=
  let (value, dropped) := storedSignificand 0 digits
  let lead : Int := value.repr.length + scale + dropped
  if value = 0 then zero negative
  else if 400 < lead then infinity negative
  else if lead < -400 then zero negative
  else
    let (value, exponent) := absorbExponent 20 (value, scale + dropped)
    if exponent = 0 then ofRatio negative value 1
    else ((Extended.ofScaled value 0).scaleTen exponent).toBinary64 negative

end Binary64

end SqlFederation
