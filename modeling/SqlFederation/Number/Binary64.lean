/-!
# Binary64 numbers

A number is its 64 bits: a sign, eleven bits of exponent and 52 bits of fraction. `read` takes the
bits apart into an exact value `± mantissa · 2 ^ exponent`, and `ofRatio` rounds an exact quotient
to the nearest number, a tie going to the even mantissa. Every operation computes exactly on the
values and rounds once, so nothing here depends on the machine's arithmetic.
-/

namespace SqlFederation

/-- A power with a whole exponent; an exponent below zero counts as zero. -/
def power (base : Nat) (exponent : Int) : Nat :=
  Nat.pow base exponent.toNat

/-- A 64-bit binary floating-point number, given by its bits. -/
structure Binary64 where
  bits : UInt64
  deriving DecidableEq, Inhabited

namespace Binary64

/-- What the bits say; a finite number is `± mantissa · 2 ^ exponent`. -/
inductive Reading where
  | finite (negative : Bool) (mantissa : Nat) (exponent : Int)
  | infinite (negative : Bool)
  | notANumber
  deriving DecidableEq

/-- The sign bit: 63 bits stand below it. -/
def signBit : Nat := 9223372036854775808

/-- The bit above the 52 bits of the fraction. -/
def hiddenBit : Nat := 4503599627370496

/-- Is the sign bit set? -/
def negative (x : Binary64) : Bool :=
  decide (signBit ≤ x.bits.toNat)

/-- Takes the bits apart. An exponent field of zero has no hidden bit, one of 2047 is not finite. -/
def read (x : Binary64) : Reading :=
  let field : Nat := x.bits.toNat / hiddenBit % 2048
  let fraction := x.bits.toNat % hiddenBit
  if field = 2047 then
    if fraction = 0 then .infinite x.negative else .notANumber
  else if field = 0 then
    .finite x.negative fraction (-1074)
  else
    .finite x.negative (hiddenBit + fraction) ((field : Int) - 1075)

/-- A sign in front of the 63 lower bits. -/
def ofMagnitude (negative : Bool) (magnitude : Nat) : Binary64 :=
  ⟨UInt64.ofNat (if negative then signBit + magnitude else magnitude)⟩

/-- The zero of a sign. -/
def zero (negative : Bool) : Binary64 :=
  ofMagnitude negative 0

/-- The infinity of a sign. -/
def infinity (negative : Bool) : Binary64 :=
  ofMagnitude negative (2047 * hiddenBit)

/-- The value that is not a number. -/
def nan : Binary64 :=
  ofMagnitude false (2047 * hiddenBit + hiddenBit / 2)

/-- Finite numbers are those that are neither infinite nor the value that is not a number. -/
def isFinite (x : Binary64) : Bool :=
  match x.read with
  | .finite .. => true
  | _ => false

/-- The quotient rounded to the nearest natural number, a tie going to the even one. -/
def roundHalfEven (num den : Nat) : Nat :=
  let quotient := num / den
  let twice := 2 * (num % den)
  if twice < den then quotient
  else if den < twice then quotient + 1
  else quotient + quotient % 2

/-- Is `num / den` below `base ^ exponent`? -/
def ratioBelow (base num den : Nat) (exponent : Int) : Bool :=
  decide (num * power base (-exponent) < den * power base exponent)

/-- The number nearest to `± num / den`. -/
def ofRatio (negative : Bool) (num den : Nat) : Binary64 :=
  if num = 0 then
    zero negative
  else
    -- the quotient lies between `2 ^ (lead - 1)` and `2 ^ (lead + 1)`
    let lead : Int := num.log2 - den.log2
    let exponent := max (-1074) (if ratioBelow 2 num den lead then lead - 53 else lead - 52)
    let mantissa := roundHalfEven (num * power 2 (-exponent)) (den * power 2 exponent)
    -- the hidden bit, and a mantissa rounded up to `2 ^ 53`, carry into the exponent field
    let magnitude := (exponent + 1074).toNat * hiddenBit + mantissa
    if 2047 * hiddenBit ≤ magnitude then infinity negative else ofMagnitude negative magnitude

/-- The number nearest to `± magnitude · 2 ^ exponent`. -/
def ofScaled (negative : Bool) (magnitude : Nat) (exponent : Int) : Binary64 :=
  ofRatio negative (magnitude * power 2 exponent) (power 2 (-exponent))

/-- The number nearest to an integer. -/
def ofInt (value : Int) : Binary64 :=
  ofRatio (decide (value < 0)) value.natAbs 1

/-- The number nearest to `± digits · 10 ^ exponent`. -/
def ofDecimal (negative : Bool) (digits : Nat) (exponent : Int) : Binary64 :=
  ofRatio negative (digits * power 10 exponent) (power 10 (-exponent))

/-- A mantissa with its sign. -/
def signed (negative : Bool) (mantissa : Nat) : Int :=
  if negative then -(mantissa : Int) else mantissa

/-- The opposite sign, the same magnitude. -/
def neg (x : Binary64) : Binary64 :=
  ofMagnitude (!x.negative) (x.bits.toNat % signBit)

/-- The magnitude, without its sign. -/
def abs (x : Binary64) : Binary64 :=
  ofMagnitude false (x.bits.toNat % signBit)

/-- The sum, rounded once. A sum of zero is negative only when both sides are. -/
def add (x y : Binary64) : Binary64 :=
  match x.read, y.read with
  | .finite nx mx ex, .finite ny my ey =>
    let e := min ex ey
    let sum := signed nx mx * power 2 (ex - e) + signed ny my * power 2 (ey - e)
    if sum = 0 then zero (nx && ny) else ofScaled (decide (sum < 0)) sum.natAbs e
  | .infinite nx, .infinite ny => if nx = ny then infinity nx else nan
  | .infinite nx, .finite .. => infinity nx
  | .finite .., .infinite ny => infinity ny
  | _, _ => nan

/-- The difference, rounded once. -/
def sub (x y : Binary64) : Binary64 :=
  add x (neg y)

/-- The product, rounded once. -/
def mul (x y : Binary64) : Binary64 :=
  match x.read, y.read with
  | .finite nx mx ex, .finite ny my ey => ofScaled (nx != ny) (mx * my) (ex + ey)
  | .infinite nx, .infinite ny => infinity (nx != ny)
  | .infinite nx, .finite ny my _ => if my = 0 then nan else infinity (nx != ny)
  | .finite nx mx _, .infinite ny => if mx = 0 then nan else infinity (nx != ny)
  | _, _ => nan

/-- The quotient, rounded once. -/
def div (x y : Binary64) : Binary64 :=
  match x.read, y.read with
  | .finite nx mx ex, .finite ny my ey =>
    if my = 0 then
      if mx = 0 then nan else infinity (nx != ny)
    else
      ofRatio (nx != ny) (mx * power 2 (ex - ey)) (my * power 2 (ey - ex))
  | .infinite nx, .finite ny _ _ => infinity (nx != ny)
  | .finite nx _ _, .infinite ny => zero (nx != ny)
  | _, _ => nan

/-- Compares `x · 2 ^ ex` with `y · 2 ^ ey`. -/
def compareScaled (x : Int) (ex : Int) (y : Int) (ey : Int) : Ordering :=
  compare (x * power 2 (ex - ey)) (y * power 2 (ey - ex))

/-- The order of two numbers; the zeros are equal, and what is not a number has no place. -/
def compare? (x y : Binary64) : Option Ordering :=
  match x.read, y.read with
  | .finite nx mx ex, .finite ny my ey => some (compareScaled (signed nx mx) ex (signed ny my) ey)
  | .infinite nx, .infinite ny =>
    some (if nx = ny then .eq else if nx then .lt else .gt)
  | .infinite nx, .finite .. => some (if nx then .lt else .gt)
  | .finite .., .infinite ny => some (if ny then .gt else .lt)
  | _, _ => none

/-- Where an integer stands beside a number, without rounding either. -/
def compareInt? (value : Int) (x : Binary64) : Option Ordering :=
  match x.read with
  | .finite n m e => some (compareScaled value 0 (signed n m) e)
  | .infinite n => some (if n then .gt else .lt)
  | .notANumber => none

/-- Is this one of the two zeros? -/
def isZero (x : Binary64) : Bool :=
  decide (x.bits.toNat % signBit = 0)

/-- The integer that a number is, if it is one. -/
def toInt? (x : Binary64) : Option Int :=
  match x.read with
  | .finite n m e =>
    if m % power 2 (-e) = 0 then
      some (signed n (m / power 2 (-e) * power 2 e : Nat))
    else
      none
  | _ => none

end Binary64

end SqlFederation
