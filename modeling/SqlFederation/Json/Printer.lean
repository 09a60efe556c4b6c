import SqlFederation.Json.Basic
import SqlFederation.Number.Decimal
import SqlFederation.Text.Hex

/-!
# JSON text

`compact` writes a value without a blank; `pretty` puts every item on a line of its own, two spaces
deeper than its container. A text escapes the quote, the backslash and the control characters below
the blank, and nothing else.
-/

namespace SqlFederation

namespace Json

/-- A character inside a quoted text. -/
def escapeChar (c : Char) : List Char :=
  match c with
  | '"' => ['\\', '"']
  | '\\' => ['\\', '\\']
  | '\n' => ['\\', 'n']
  | '\r' => ['\\', 'r']
  | '\t' => ['\\', 't']
  | c =>
    if c.toNat = 8 then ['\\', 'b']
    else if c.toNat = 12 then ['\\', 'f']
    else if c.toNat < 32 then
      ['\\', 'u', '0', '0', Text.hexDigit (c.toNat / 16), Text.hexDigit (c.toNat % 16)]
    else [c]

/-- A text in quotes. -/
def quote (text : String) : String :=
  "\"" ++ String.ofList (text.toList.flatMap escapeChar) ++ "\""

end Json

/-- The text of a number. -/
def Number.text : Number → String
  | .int value => toString value
  | .real value => value.jsonText

namespace Json

mutual

/-- A value on one line without a blank. -/
def compact : Json → String
  | .null => "null"
  | .bool true => "true"
  | .bool false => "false"
  | .num n => n.text
  | .str text => quote text
  | .arr items => "[" ++ compactItems items ++ "]"
  | .obj entries => "\x7b" ++ compactEntries entries ++ "\x7d"

/-- Items with commas between them. -/
def compactItems : List Json → String
  | [] => ""
  | [item] => compact item
  | item :: rest => compact item ++ "," ++ compactItems rest

/-- Entries with commas between them. -/
def compactEntries : List (String × Json) → String
  | [] => ""
  | [(key, value)] => quote key ++ ":" ++ compact value
  | (key, value) :: rest => quote key ++ ":" ++ compact value ++ "," ++ compactEntries rest

end

/-- A line break and the indentation of a depth. -/
def lineStart (depth : Nat) : String :=
  "\n" ++ String.ofList (List.replicate (2 * depth) ' ')

mutual

/-- A value whose first line stands at the given depth. -/
def prettyAt (depth : Nat) : Json → String
  | .arr [] => "[]"
  | .arr items => "[" ++ prettyItems depth items ++ lineStart depth ++ "]"
  | .obj [] => "\x7b\x7d"
  | .obj entries => "\x7b" ++ prettyEntries depth entries ++ lineStart depth ++ "\x7d"
  | value => compact value

/-- Items, each on a line of its own. -/
def prettyItems (depth : Nat) : List Json → String
  | [] => ""
  | [item] => lineStart (depth + 1) ++ prettyAt (depth + 1) item
  | item :: rest =>
    lineStart (depth + 1) ++ prettyAt (depth + 1) item ++ "," ++ prettyItems depth rest

/-- Entries, each on a line of its own. -/
def prettyEntries (depth : Nat) : List (String × Json) → String
  | [] => ""
  | [(key, value)] =>
    lineStart (depth + 1) ++ quote key ++ ": " ++ prettyAt (depth + 1) value
  | (key, value) :: rest =>
    lineStart (depth + 1) ++ quote key ++ ": " ++ prettyAt (depth + 1) value ++ "," ++
      prettyEntries depth rest

end

/-- A value over several lines. -/
def pretty (value : Json) : String :=
  prettyAt 0 value

end Json

end SqlFederation
