import SqlFederation.Json.Decode
import SqlFederation.Json.Printer
import SqlFederation.Json.Reader
import SqlFederation.Text.Hex
import SqlFederation.Text.Timestamp

/-!
# Lock entries

What a lock file says: the key, the process that holds it, the holder's own id, and from when to
when the lock lasts. A file that says anything else is unreadable.
-/

namespace SqlFederation

namespace Locks

/-- What a lock file says. -/
structure Entry where
  key : String
  process : Nat
  owner : String
  acquiredAt : Time
  expiresAt : Time
  deriving DecidableEq

namespace Entry

/-- Has the lock run out? -/
def isExpired (entry : Entry) (now : Time) : Bool :=
  decide (entry.expiresAt ≤ now)

/-- Is this a hexadecimal digit? -/
def isHexDigit (c : Char) : Bool :=
  (Text.hexValue? c).isSome

/-- Are these 32 hexadecimal digits, either in one piece or in pieces of 8, 4, 4, 4 and 12? -/
def isPlainId (text : List Char) : Bool :=
  if text.length = 32 then text.all isHexDigit
  else
    text.length == 36 &&
      (text.zipIdx.all fun (c, i) =>
        if i = 8 ∨ i = 13 ∨ i = 18 ∨ i = 23 then c == '-' else isHexDigit c)

/-- Is this the text of a 128-bit id, plain, in braces or as a name? -/
def isId (text : String) : Bool :=
  let chars := text.toList
  if Text.lowerAscii (String.ofList (chars.take 9)) = "urn:uuid:" then
    chars.length == 45 && isPlainId (chars.drop 9)
  else
    match chars with
    | '\x7b' :: rest =>
      rest.getLast? == some '\x7d' && rest.length == 37 && isPlainId rest.dropLast
    | chars => isPlainId chars

/-- The parts of an entry. -/
def parts : Json.Parts := .all ["key", "pid", "owner", "acquired_at", "expires_at"]

/-- Where the reader of an entry looks. -/
def shape : Json.Shape := .record (parts.names.map fun name => (name, .whole))

def toJson (entry : Entry) : Json :=
  .obj [("key", .str entry.key), ("pid", .ofNat entry.process), ("owner", .str entry.owner),
    ("acquired_at", .str entry.acquiredAt.text), ("expires_at", .str entry.expiresAt.text)]

/-- The text of a lock file. -/
def text (entry : Entry) : String :=
  entry.toJson.pretty

/-- A text that is a point in time. -/
def time? (value : Json) : Option Time := do
  Time.ofText? (← value.asStr?)

/-- A text that is an id. -/
def id? (value : Json) : Option String := do
  let text ← value.asStr?
  if isId text then some text else none

/-- What a text says, if it is a lock entry: every part once, anything else passed over. -/
def ofText? (text : String) : Option Entry := do
  let entries ← parts.distinctEntries? (← Json.readShown? shape text)
  let key ← Json.field entries "key" Json.asStr?
  let process ← Json.field entries "pid" Json.asNat32?
  let owner ← Json.field entries "owner" id?
  let acquiredAt ← Json.field entries "acquired_at" time?
  let expiresAt ← Json.field entries "expires_at" time?
  some ⟨key, process, owner, acquiredAt, expiresAt⟩

end Entry

end Locks

end SqlFederation
