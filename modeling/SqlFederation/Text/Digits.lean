/-!
# Decimal digits

`spanDigits` takes the digits off the front of a text, and `integer?` reads an integer that fills a
text.
-/

namespace SqlFederation

namespace Text

/-- The digits in front, and the rest. -/
def spanDigits : List Char → List Nat × List Char
  | [] => ([], [])
  | c :: rest =>
    if c.isDigit then
      let (digits, rest) := spanDigits rest
      ((c.toNat - 48) :: digits, rest)
    else
      ([], c :: rest)

/-- The value of digits. -/
def valueOf (digits : List Nat) : Nat :=
  digits.foldl (fun v d => v * 10 + d) 0

/-- The value of a text of one or more decimal digits. -/
def natural? (text : List Char) : Option Nat :=
  match spanDigits text with
  | (d :: digits, []) => some (valueOf (d :: digits))
  | _ => none

/-- An integer with an optional sign, as large or small as it is written. -/
def integer? : List Char → Option Int
  | '-' :: rest => (natural? rest).map fun n => -(n : Int)
  | '+' :: rest => (natural? rest).map fun n => (n : Int)
  | text => (natural? text).map fun n => (n : Int)

end Text

end SqlFederation
