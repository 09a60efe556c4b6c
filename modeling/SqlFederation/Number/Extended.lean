import SqlFederation.Number.Binary64

/-!
# Numbers of 64 significant bits

Positive numbers with eleven more bits than `Binary64` has, for steps on the way between a number
and its decimal text. Every product is rounded to 64 bits, a tie going to the even mantissa, so a
power of ten that is reached in several steps depends on the steps; `scaleTen` fixes them.
-/

namespace SqlFederation

/-- The number `mantissa · 2 ^ exponent`; a mantissa other than zero has 64 bits. -/
structure Extended where
  mantissa : Nat
  exponent : Int
  deriving DecidableEq

namespace Extended

/-- The number nearest to `num / den`. -/
def ofRatio (num den : Nat) : Extended :=
  if num = 0 then
    ⟨0, 0⟩
  else
    let lead : Int := num.log2 - den.log2
    let exponent := if Binary64.ratioBelow 2 num den lead then lead - 64 else lead - 63
    ⟨Binary64.roundHalfEven (num * power 2 (-exponent)) (den * power 2 exponent), exponent⟩

/-- The number nearest to `magnitude · 2 ^ exponent`. -/
def ofScaled (magnitude : Nat) (exponent : Int) : Extended :=
  ofRatio (magnitude * power 2 exponent) (power 2 (-exponent))

/-- The number nearest to `10 ^ exponent`. -/
def ten (exponent : Int) : Extended :=
  ofRatio (power 10 exponent) (power 10 (-exponent))

/-- The product, rounded once. -/
def mul (x y : Extended) : Extended :=
  ofScaled (x.mantissa * y.mantissa) (x.exponent + y.exponent)

/-- Is one number below another? -/
def below (x y : Extended) : Bool :=
  (Binary64.compareScaled x.mantissa x.exponent y.mantissa y.exponent).isLT

/-- The whole part. -/
def floor (x : Extended) : Nat :=
  x.mantissa * power 2 x.exponent / power 2 (-x.exponent)

/-- The nearest number of 53 bits, under a sign. -/
def toBinary64 (x : Extended) (negative : Bool) : Binary64 :=
  Binary64.ofScaled negative x.mantissa x.exponent

/-- Multiplies several times by a power of ten. -/
def timesTen (exponent : Int) : Nat → Extended → Extended
  | 0, x => x
  | count + 1, x => timesTen exponent count (x.mul (ten exponent))

/-- Multiplies by a power of ten: first by hundreds of its exponent, then by tens, then by ones. -/
def scaleTen (x : Extended) (exponent : Int) : Extended :=
  let sign : Int := if exponent < 0 then -1 else 1
  let size := exponent.natAbs
  timesTen sign (size % 10) <| timesTen (10 * sign) (size / 10 % 10) <|
    timesTen (100 * sign) (size / 100) x

/--
Multiplies by a power of ten as long as a test holds, and notes in `scale` what it takes to undo
this; the fuel is the greatest number of steps.
-/
def climb (step : Int) (test : Extended → Bool) : Nat → Extended × Int → Extended × Int
  | 0, state => state
  | fuel + 1, (x, scale) =>
    if test x then climb step test fuel (x.mul (ten step), scale - step) else (x, scale)

/--
Brings a number near 18 or 19 digits before the point: `(n, scale)` stands for `n · 10 ^ scale`, the
rest being cut off. The exponent of a `Binary64` takes at most a dozen steps of each size.
-/
def wholeDigits (x : Extended) : Nat × Int :=
  let large := !x.below (ten 19)
  let (x, scale) :=
    if large then
      climb (-1) (fun y => !y.below (ten 19)) 12 <| climb (-10) (fun y => !y.below (ten 29)) 12 <|
        climb (-100) (fun y => !y.below (ten 119)) 12 (x, 0)
    else
      climb 1 (fun y => y.below (ten 17)) 12 <| climb 10 (fun y => y.below (ten 7)) 12 <|
        climb 100 (fun y => y.below (ten (-97))) 12 (x, 0)
  (x.floor, scale)

end Extended

end SqlFederation
