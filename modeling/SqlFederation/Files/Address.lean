import SqlFederation.Text.Base64
import SqlFederation.Text.Hex

/-!
# Addresses of files

A file can be named by its address, a text that starts with `file:`. Behind that come a host, which
is not looked at, the name, settings behind a question mark, and a remark behind a number sign,
which is not looked at either. In an address `%` and two hexadecimal digits stand for a byte.
-/

namespace SqlFederation

/-- The name of a file and the settings beside it, as an address gives them. -/
structure Address where
  name : String
  settings : List (String × String)
  deriving DecidableEq

namespace Address

/-- The text behind `file:`. -/
def body? : List Char → Option (List Char)
  | 'f' :: 'i' :: 'l' :: 'e' :: ':' :: rest => some rest
  | _ => none

/-- The text without a host in front. -/
def withoutHost : List Char → List Char
  | '/' :: '/' :: rest => rest.dropWhile fun c => c != '/'
  | text => text

/-- The bytes that a text stands for; a byte of number zero ends them. -/
def bytesOf : List Char → List UInt8
  | [] => []
  | '%' :: a :: b :: rest =>
    match Text.hexValue? a, Text.hexValue? b with
    | some high, some low =>
      if high + low = 0 then [] else UInt8.ofNat (16 * high + low) :: bytesOf rest
    | _, _ => Base64.bytesOf "%" ++ bytesOf (a :: b :: rest)
  | c :: rest => Base64.bytesOf (String.singleton c) ++ bytesOf rest

/-- The text that a part of an address stands for. -/
def textOf (part : List Char) : String :=
  (String.fromUTF8? ⟨(bytesOf part).toArray⟩).getD (String.ofList part)

/-- A setting: its name and, behind the equals sign, its value. -/
def setting (part : String) : String × String :=
  let name := part.toList.takeWhile fun c => c != '='
  (textOf name, textOf (part.toList.drop (name.length + 1)))

/-- What an address says. -/
def ofText? (text : String) : Option Address := do
  let body ← body? text.toList
  let body := (withoutHost body).takeWhile fun c => c != '#'
  let name := body.takeWhile fun c => c != '?'
  let settings := String.ofList (body.drop (name.length + 1))
  some ⟨textOf name, (settings.splitOn "&").map setting⟩

/-- Is nothing to be kept in a file? The last setting of the mode decides. -/
def isMemory (address : Address) : Bool :=
  address.settings.reverse.lookup "mode" == some "memory"

end Address

end SqlFederation
