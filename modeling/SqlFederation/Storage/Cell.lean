import SqlFederation.Number.Stored
import SqlFederation.Sql.Value
import SqlFederation.Text.Case
import SqlFederation.Text.Base64
import SqlFederation.Text.Digits
import SqlFederation.Text.Hex

/-!
# Cells

What a table stores: null, an integer of 64 bits, a real, a text or a blob. A column prefers one
kind (`Affinity`), and what is stored in it or compared with it is converted to that kind where
nothing is lost. Cells of different kinds are ordered by kind: null, numbers, texts, blobs.
-/

namespace SqlFederation

namespace Storage

/-- A stored value. -/
inductive Cell where
  | null
  | integer (value : Int)
  | real (value : Binary64)
  | text (value : String)
  | blob (bytes : List UInt8)
  deriving DecidableEq, Inhabited

/-- The kind that a column prefers. -/
inductive Affinity where
  | integer
  | text
  | blob
  | real
  | numeric
  deriving DecidableEq

namespace Affinity

/-- The affinity of a declared type; the first part that is found decides. -/
def ofType (type : String) : Affinity :=
  let upper := (Text.lowerAscii type).toList
  let has := fun (part : String) => Text.contains upper part.toList
  if has "int" then .integer
  else if has "char" || has "clob" || has "text" then .text
  else if has "blob" || type.isEmpty then .blob
  else if has "real" || has "floa" || has "doub" then .real
  else .numeric

/-- Does the affinity prefer numbers? -/
def isNumeric : Affinity → Bool
  | .integer | .real | .numeric => true
  | _ => false

end Affinity

/-- A blank around a number in a text. -/
def isNumberBlank (c : Char) : Bool :=
  c == ' ' || decide (9 ≤ c.toNat ∧ c.toNat ≤ 13)

/-- A number at the front of a text, whether it is written as an integer, and what follows it. -/
structure NumberPrefix where
  negative : Bool
  digits : List Nat
  /-- The power of ten of the last digit. -/
  scale : Int
  integral : Bool
  rest : List Char

namespace NumberPrefix

/-- An exponent; letters without digits behind them are none. -/
def scanExponent (text : List Char) : Option (Int × List Char) :=
  match text with
  | c :: rest =>
    if c = 'e' ∨ c = 'E' then
      let (negative, rest) := match rest with
        | '-' :: rest => (true, rest)
        | '+' :: rest => (false, rest)
        | rest => (false, rest)
      match Text.spanDigits rest with
      | ([], _) => none
      | (digits, rest) =>
        let value : Int := Text.valueOf digits
        some (if negative then -value else value, rest)
    else
      none
  | [] => none

/-- Blanks, a sign, digits with at most one point among them, and an exponent. -/
def scan (text : List Char) : Option NumberPrefix :=
  let text := text.dropWhile isNumberBlank
  let (negative, text) := match text with
    | '-' :: rest => (true, rest)
    | '+' :: rest => (false, rest)
    | rest => (false, rest)
  let (whole, text) := Text.spanDigits text
  let (fraction, text, pointed) := match text with
    | '.' :: rest =>
      let (fraction, rest) := Text.spanDigits rest
      (fraction, rest, true)
    | rest => ([], rest, false)
  if whole.isEmpty && fraction.isEmpty then
    none
  else
    match scanExponent text with
    | some (exponent, rest) =>
      some ⟨negative, whole ++ fraction, exponent - fraction.length, false, rest⟩
    | none => some ⟨negative, whole ++ fraction, -fraction.length, !pointed, text⟩

/-- Does only blank text follow? -/
def isComplete (p : NumberPrefix) : Bool :=
  p.rest.all isNumberBlank

/-- The real that is written. -/
def toReal (p : NumberPrefix) : Binary64 :=
  .ofStoredDigits p.negative p.digits p.scale

/-- The number that is written: an integer if it is written as one that 64 bits hold. -/
def toCell (p : NumberPrefix) : Cell :=
  let value : Int := Text.valueOf p.digits
  let value := if p.negative then -value else value
  if p.integral && fitsSigned value then .integer value else .real p.toReal

end NumberPrefix

namespace Cell

/-- The cell that a bound value is stored as; a truth value is one or zero. -/
def ofValue : SqlValue → Cell
  | .null => .null
  | .integer value => .integer value
  | .real value => .real value
  | .text value => .text value
  | .bool value => .integer (if value then 1 else 0)
  | .blob bytes => .blob bytes

/-- The cell of a real; what is not a number is null. -/
def ofReal (value : Binary64) : Cell :=
  match value.read with
  | .notANumber => .null
  | _ => .real value

/-- The JSON value that a cell is read as; a blob is read as base64. -/
def toJson : Cell → Json
  | .null => .null
  | .integer value => .ofInt value
  | .real value => .ofReal value
  | .text value => .str value
  | .blob bytes => .str (Base64.encode bytes)

/-- Is this null? -/
def isNull : Cell → Bool
  | .null => true
  | _ => false

/-- A real that is an integer strictly between the least and the greatest, as that integer. -/
def integral (cell : Cell) : Cell :=
  match cell with
  | .real value =>
    match value.toInt? with
    | some i => if fitsSigned (i - 1) && fitsSigned (i + 1) then .integer i else cell
    | none => cell
  | cell => cell

/-- A text that is a number and nothing else, as that number. -/
def numeric (cell : Cell) : Cell :=
  match cell with
  | .text s =>
    match NumberPrefix.scan s.toList with
    | some p => if p.isComplete then p.toCell else cell
    | none => cell
  | cell => cell

/-- The text of bytes, a byte being a character of its number where they are no text. -/
def textOfBytes (bytes : List UInt8) : String :=
  (String.fromUTF8? ⟨bytes.toArray⟩).getD
    (String.ofList (bytes.map fun b => Char.ofNat b.toNat))

/-- The text of a cell. -/
def textOf : Cell → String
  | .null => ""
  | .integer value => toString value
  | .real value => value.storedText
  | .text value => value
  | .blob bytes => textOfBytes bytes

/--
Converts a cell to the kind that a column prefers, where nothing is lost; a column of reals has one
zero.
-/
def withAffinity (affinity : Affinity) (cell : Cell) : Cell :=
  match affinity with
  | .integer | .numeric => cell.numeric.integral
  | .real =>
    match cell.numeric with
    | .integer value => .real (Binary64.ofInt value)
    | .real value => .real (if value.isZero then Binary64.zero false else value)
    | other => other
  | .text =>
    match cell with
    | .integer _ | .real _ => .text cell.textOf
    | other => other
  | .blob => cell

/-- The rank of a kind. -/
def rank : Cell → Nat
  | .null => 0
  | .integer _ | .real _ => 1
  | .text _ => 2
  | .blob _ => 3

/-- The order of byte strings. -/
def compareBytes : List UInt8 → List UInt8 → Ordering
  | [], [] => .eq
  | [], _ :: _ => .lt
  | _ :: _, [] => .gt
  | a :: as, b :: bs => (compare a.toNat b.toNat).then (compareBytes as bs)

/-- The order of cells. Numbers are compared by value, texts by their characters. -/
def order (a b : Cell) : Ordering :=
  match a, b with
  | .integer x, .integer y => compare x y
  | .integer x, .real y => (Binary64.compareInt? x y).getD .eq
  | .real x, .integer y => ((Binary64.compareInt? y x).getD .eq).swap
  | .real x, .real y => (Binary64.compare? x y).getD .eq
  | .text x, .text y => compare x y
  | .blob x, .blob y => compareBytes x y
  | a, b => compare a.rank b.rank

/-- The name of a cell's kind. -/
def kindName : Cell → String
  | .null => "null"
  | .integer _ => "integer"
  | .real _ => "real"
  | .text _ => "text"
  | .blob _ => "blob"

/-- The bytes of a cell. -/
def bytesOf : Cell → List UInt8
  | .blob bytes => bytes
  | cell => Base64.bytesOf cell.textOf

/-- The bytes of a cell as capital hexadecimal digits. -/
def hex (cell : Cell) : String :=
  String.ofList <| cell.bytesOf.flatMap fun b =>
    [Text.hexCapital (b.toNat / 16), Text.hexCapital (b.toNat % 16)]

/-- The number at the front of a text, or zero. -/
def leadingNumber (text : String) : Cell :=
  match NumberPrefix.scan text.toList with
  | some p => .real p.toReal
  | none => .real (Binary64.zero false)

/--
The number of a cell in a sum: a text or a blob counts as the number at its front, or as zero.
-/
def asNumber (cell : Cell) : Cell :=
  match cell.numeric with
  | .text _ | .blob _ => leadingNumber cell.textOf
  | other => other

end Cell

/-- Are two characters equal but for the case of ASCII letters? -/
def sameLetter (a b : Char) : Bool :=
  a.toLower == b.toLower

/--
Which ends of a text match a pattern with one more part in front, given which ends match the
pattern. The ends are those of the text itself, without its first character, and so on.
-/
def endsWithPart (text : List Char) (part : Char) (ends : List Bool) : List Bool :=
  if part = '%' then
    ends.foldr (fun this later => (this || later.headD false) :: later) []
  else
    text.zipWith (fun c rest => (part == '_' || sameLetter part c) && rest) ends.tail ++ [false]

/-- Does a text match a pattern, in which `%` stands for any text and `_` for any character? -/
def matchesPattern (pattern text : List Char) : Bool :=
  (pattern.foldr (endsWithPart text) (text.map (fun _ => false) ++ [true])).headD false

end Storage

end SqlFederation
