/-!
# Base64

Three bytes are four characters of an alphabet of 64. `encode` fills the last group up with `=`,
`encodeUrl` uses the alphabet of file names and fills nothing up. `decode?` accepts exactly what
`encode` writes: a group that is cut short, a fill character inside, or a last character with bits
that no byte has is refused.
-/

namespace SqlFederation

namespace Base64

/-- The character of a six-bit value; the last two differ between the alphabets. -/
def digit (last : Char × Char) (value : Nat) : Char :=
  if value < 26 then Char.ofNat (65 + value)
  else if value < 52 then Char.ofNat (97 + (value - 26))
  else if value < 62 then Char.ofNat (48 + (value - 52))
  else if value = 62 then last.1
  else last.2

/-- The six-bit value of a character of the standard alphabet. -/
def value? (c : Char) : Option Nat :=
  let n := c.toNat
  if 65 ≤ n ∧ n ≤ 90 then some (n - 65)
  else if 97 ≤ n ∧ n ≤ 122 then some (n - 97 + 26)
  else if 48 ≤ n ∧ n ≤ 57 then some (n - 48 + 52)
  else if c = '+' then some 62
  else if c = '/' then some 63
  else none

/-- The characters of bytes, `fill` standing where a byte is missing in the last group. -/
def encodeWith (last : Char × Char) (fill : List Char) : List UInt8 → List Char
  | [] => []
  | [a] =>
    let a := a.toNat
    digit last (a / 4) :: digit last (a % 4 * 16) :: fill ++ fill
  | [a, b] =>
    let (a, b) := (a.toNat, b.toNat)
    digit last (a / 4) :: digit last (a % 4 * 16 + b / 16) :: digit last (b % 16 * 4) :: fill
  | a :: b :: c :: rest =>
    let (a, b, c) := (a.toNat, b.toNat, c.toNat)
    digit last (a / 4) :: digit last (a % 4 * 16 + b / 16) :: digit last (b % 16 * 4 + c / 64) ::
      digit last (c % 64) :: encodeWith last fill rest

/-- Standard alphabet, filled up. -/
def encode (bytes : List UInt8) : String :=
  String.ofList (encodeWith ('+', '/') ['='] bytes)

/-- The alphabet of file names, not filled up. -/
def encodeUrl (bytes : List UInt8) : String :=
  String.ofList (encodeWith ('-', '_') [] bytes)

/-- Reads groups of four characters; only the last may be filled up. -/
def decodeChars : List Char → Option (List UInt8)
  | [] => some []
  | [p, q, '=', '='] => do
    let (p, q) := (← value? p, ← value? q)
    if q % 16 = 0 then some [UInt8.ofNat (p * 4 + q / 16)] else none
  | [p, q, r, '='] => do
    let (p, q, r) := (← value? p, ← value? q, ← value? r)
    if r % 4 = 0 then
      some [UInt8.ofNat (p * 4 + q / 16), UInt8.ofNat (q % 16 * 16 + r / 4)]
    else
      none
  | p :: q :: r :: s :: rest => do
    let (p, q, r, s) := (← value? p, ← value? q, ← value? r, ← value? s)
    let tail ← decodeChars rest
    some (UInt8.ofNat (p * 4 + q / 16) :: UInt8.ofNat (q % 16 * 16 + r / 4) ::
      UInt8.ofNat (r % 4 * 64 + s) :: tail)
  | _ => none

/-- The bytes of a text in the standard alphabet, filled up; none for any other text. -/
def decode? (text : String) : Option (List UInt8) :=
  decodeChars text.toList

/-- The bytes of a text. -/
def bytesOf (text : String) : List UInt8 :=
  text.toUTF8.toList

end Base64

end SqlFederation
