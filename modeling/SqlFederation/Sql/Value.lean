import SqlFederation.Json.Printer

/-!
# SQL values

The values that a statement binds to its placeholders. A JSON value binds as the SQL value of its
own kind; a list or an object binds as its compact text.
-/

namespace SqlFederation

/-- A value that a statement binds. -/
inductive SqlValue where
  | null
  | integer (value : Int)
  | real (value : Binary64)
  | text (value : String)
  | bool (value : Bool)
  | blob (bytes : List UInt8)
  deriving DecidableEq

namespace SqlValue

/-- The value that a JSON value binds as; an integer beyond 64 bits with a sign binds as a real. -/
def ofJson (value : Json) : SqlValue :=
  match value with
  | .null => .null
  | .bool b => .bool b
  | .num n =>
    match n.asInt? with
    | some i => .integer i
    | none => .real n.asReal
  | .str s => .text s
  | .arr items => .text (Json.arr items).compact
  | .obj entries => .text (Json.obj entries).compact

/-- The value written as plain JSON, a blob as the list of its bytes. -/
def toJson : SqlValue → Json
  | .null => .null
  | .integer value => .ofInt value
  | .real value => .ofReal value
  | .text value => .str value
  | .bool value => .bool value
  | .blob bytes => .arr (bytes.map fun b => .ofNat b.toNat)

/-- A byte. -/
def byte? (value : Json) : Option UInt8 := do
  let n ← value.asNat?
  if n < 256 then some (UInt8.ofNat n) else none

/--
Reads plain JSON: null, an integer, any other number, a text, a truth value or a list of bytes.
-/
def ofPlain? : Json → Option SqlValue
  | .null => some .null
  | .num n =>
    match n.asInt? with
    | some i => some (.integer i)
    | none => some (.real n.asReal)
  | .str s => some (.text s)
  | .bool b => some (.bool b)
  | .arr items => (items.mapM byte?).map .blob
  | .obj _ => none

end SqlValue

end SqlFederation
