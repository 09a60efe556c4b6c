import SqlFederation.Text.Hex
import SqlFederation.Text.Unseen

/-!
# Quoted text

Text in double quotes for the eye. Quotes and backslashes get a backslash, line ends and tabs have
their letters, and other characters that cannot be seen are written by their number. Everything else
stands for itself.
-/

namespace SqlFederation

namespace Text

/-- How a character is written in quotes. -/
def quotedChar (c : Char) : List Char :=
  if c = '"' ∨ c = '\\' then ['\\', c]
  else if c = '\n' then ['\\', 'n']
  else if c = '\r' then ['\\', 'r']
  else if c = '\t' then ['\\', 't']
  else if c.toNat = 0 then ['\\', '0']
  else if isUnseen c then ['\\', 'u', '\x7b'] ++ hexText c.toNat ++ ['\x7d']
  else [c]

/-- A text in quotes. -/
def quoted (text : String) : String :=
  String.ofList ('"' :: text.toList.flatMap quotedChar ++ ['"'])

end Text

end SqlFederation
