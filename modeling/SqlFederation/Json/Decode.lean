import SqlFederation.Json.Basic

/-!
# Decoding typed data from JSON

A record is decoded from its entries, field by field: `field` for one that has to be there,
`optional` for one that may be absent or null, `withDefault` for one that may be absent but not
null. Keys that no field asks for are passed over. A record may also be written as the list of its
parts, and `Parts.entries?` gives their names back to them.

A choice among names is decoded by `oneOf`, and `tagged?` decodes values of several kinds that say
in one entry which kind they are. Inside of a tagged value names are read more freely: `inside` is
true there.
-/

namespace SqlFederation

namespace Json

/-- The entries of an object. -/
def entries? : Json → Option (List (String × Json))
  | .obj entries => some entries
  | _ => none

/-- The items of a list. -/
def items? : Json → Option (List Json)
  | .arr items => some items
  | _ => none

/-- A field that has to be there. -/
def field {α : Type} (entries : List (String × Json)) (name : String)
    (decode : Json → Option α) : Option α :=
  (entries.lookup name).bind decode

/-- A field that may be absent or null. -/
def optional {α : Type} (entries : List (String × Json)) (name : String)
    (decode : Json → Option α) : Option (Option α) :=
  match entries.lookup name with
  | none => some none
  | some .null => some none
  | some value => (decode value).map some

/-- A field that may be absent, but is not null when it is there. -/
def withDefault {α : Type} (entries : List (String × Json)) (name : String) (default : α)
    (decode : Json → Option α) : Option α :=
  match entries.lookup name with
  | none => some default
  | some value => decode value

/-- Is one of the names given more than once? -/
def hasRepeated (names : List String) (entries : List (String × Json)) : Bool :=
  names.any fun name => decide (1 < (entries.filter fun (key, _) => key == name).length)

/-- The entries of an object that gives none of the names twice. -/
def distinctEntries? (names : List String) (value : Json) : Option (List (String × Json)) := do
  let entries ← value.entries?
  if hasRepeated names entries then none else some entries

/-- The parts of a record in order; in a list the first `least` of them have to be there. -/
structure Parts where
  names : List String
  least : Nat

namespace Parts

/-- Parts that all have to be there. -/
def all (names : List String) : Parts := ⟨names, names.length⟩

/-- The parts of a list under their names. -/
def ofItems? (parts : Parts) (items : List Json) : Option (List (String × Json)) :=
  if parts.least ≤ items.length ∧ items.length ≤ parts.names.length then
    some (parts.names.zip items)
  else
    none

/-- The entries of a record, which is written as an object or as the list of its parts. -/
def entries? (parts : Parts) : Json → Option (List (String × Json))
  | .arr items => parts.ofItems? items
  | value => value.entries?

/-- The entries of a record, none of whose parts is given twice. -/
def distinctEntries? (parts : Parts) : Json → Option (List (String × Json))
  | .arr items => parts.ofItems? items
  | value => value.distinctEntries? parts.names

end Parts

/-- A value that may be null; `decode` reads any other. -/
def nullable {α : Type} (decode : Json → Option α) : Json → Option (Option α)
  | .null => some none
  | value => (decode value).map some

/-- A truth value. -/
def asBool? : Json → Option Bool
  | .bool value => some value
  | _ => none

/-- A list, each item decoded. -/
def list {α : Type} (decode : Json → Option α) (value : Json) : Option (List α) := do
  (← value.items?).mapM decode

/-- A count that 32 bits hold. -/
def asNat32? (value : Json) : Option Nat := do
  let n ← value.asNat?
  if n ≤ 4294967295 then some n else none

/--
The name of a choice: a text, or an object whose one key is the name and whose value is null.
Inside of a tagged value it may also be an empty object.
-/
def name? (inside : Bool) : Json → Option String
  | .str name => some name
  | .obj [(name, .null)] => some name
  | .obj [(name, .obj [])] => if inside then some name else none
  | _ => none

/-- A choice among named values. -/
def oneOf {α : Type} (inside : Bool) (choices : List (String × α)) (value : Json) : Option α := do
  choices.lookup (← value.name? inside)

/-- The name of a kind: a text, and inside of a tagged value also its place among all names. -/
def kind? (inside : Bool) (names : List String) (value : Json) : Option String :=
  match value with
  | .str name => some name
  | value => if inside then value.asNat?.bind fun n => names[n]? else none

/--
A value that is of one of several kinds: the name of the kind, and the entries. It is written as an
object with the entry `tag`, or as a list with the name in front of the parts.
-/
def tagged? (inside : Bool) (tag : String) (kinds : List (String × Parts)) (value : Json) :
    Option (String × List (String × Json)) :=
  let kind := kind? inside (kinds.map Prod.fst)
  match value with
  | .arr (first :: items) => do
    let name ← kind first
    let parts ← kinds.lookup name
    some (name, ← parts.ofItems? items)
  | value => do
    let entries ← value.entries?
    let name ← field entries tag kind
    some (name, entries)

end Json

end SqlFederation
