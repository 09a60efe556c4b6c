/-!
# Letter case

Comparisons of names and types look at capital letters. Besides the ASCII letters, a few characters
have capitals that contain ASCII letters (`ı`, `ſ`, `ß`, the ligatures); `upper` knows those, and
leaves every other character alone, since no name it is compared with contains one.
-/

namespace SqlFederation

namespace Text

/-- The capital form of a character, where that form contains an ASCII letter. -/
def upperChar (c : Char) : List Char :=
  match c.toNat with
  | 0xDF => ['S', 'S']
  | 0x131 => ['I']
  | 0x149 => [Char.ofNat 0x2BC, 'N']
  | 0x17F => ['S']
  | 0x1F0 => ['J', Char.ofNat 0x30C]
  | 0x1E96 => ['H', Char.ofNat 0x331]
  | 0x1E97 => ['T', Char.ofNat 0x308]
  | 0x1E98 => ['W', Char.ofNat 0x30A]
  | 0x1E99 => ['Y', Char.ofNat 0x30A]
  | 0x1E9A => ['A', Char.ofNat 0x2BE]
  | 0xFB00 => ['F', 'F']
  | 0xFB01 => ['F', 'I']
  | 0xFB02 => ['F', 'L']
  | 0xFB03 => ['F', 'F', 'I']
  | 0xFB04 => ['F', 'F', 'L']
  | 0xFB05 => ['S', 'T']
  | 0xFB06 => ['S', 'T']
  | _ => [c.toUpper]

/-- The capital form of a text, as far as ASCII letters are concerned. -/
def upper (text : String) : String :=
  String.ofList (text.toList.flatMap upperChar)

/-- Small letters for the ASCII capitals. -/
def lowerAscii (text : String) : String :=
  String.ofList (text.toList.map Char.toLower)

/-- Are two texts equal but for the case of ASCII letters? -/
def sameAscii (a b : String) : Bool :=
  lowerAscii a == lowerAscii b

/-- Does `text` start with `lead`? -/
def startsWith : List Char → List Char → Bool
  | _, [] => true
  | [], _ :: _ => false
  | c :: text, d :: lead => c == d && startsWith text lead

/-- Does `text` contain `part`? -/
def contains : List Char → List Char → Bool
  | [], part => part.isEmpty
  | c :: text, part => startsWith (c :: text) part || contains text part

end Text

end SqlFederation
