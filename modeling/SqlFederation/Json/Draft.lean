import SqlFederation.Json.Basic

/-!
# Drafts of JSON values

JSON text that is well formed may still have no value: a number too large, a text with half a
surrogate pair, containers that nest too deep. A draft keeps such parts as they are, and `value?`
refuses them. `shown?` refuses them only where a `Shape` looks, so that whoever reads a record does
not stumble over entries that the record has no use for.
-/

namespace SqlFederation

namespace Json

/-- Well-formed JSON text; numbers and texts without a value are none. -/
inductive Draft where
  | null
  | bool (value : Bool)
  | num (value : Option Number)
  | str (value : Option String)
  | arr (items : List Draft)
  | obj (entries : List (Option String × Draft))

namespace Draft

instance : Inhabited Draft := ⟨.null⟩

mutual

/-- The value of a draft whose containers nest at most `depth` deep. -/
def value? (depth : Nat) : Draft → Option Json
  | .null => some .null
  | .bool value => some (.bool value)
  | .num value => value.map .num
  | .str value => value.map .str
  | .arr items =>
    match depth with
    | 0 => none
    | depth + 1 => (itemValues? depth items).map .arr
  | .obj entries =>
    match depth with
    | 0 => none
    | depth + 1 => (entryValues? depth entries).map .obj

/-- The values of all items. -/
def itemValues? (depth : Nat) : List Draft → Option (List Json)
  | [] => some []
  | item :: rest => do
    let value ← value? depth item
    let values ← itemValues? depth rest
    some (value :: values)

/-- The keys and values of all entries. -/
def entryValues? (depth : Nat) : List (Option String × Draft) → Option (List (String × Json))
  | [] => some []
  | (key, draft) :: rest => do
    let key ← key
    let value ← value? depth draft
    let values ← entryValues? depth rest
    some ((key, value) :: values)

end

end Draft

/-- Where a reader looks. -/
inductive Shape where
  /-- At everything. -/
  | whole
  /-- At the parts of a record: the entries of these names, or the items of a list in this order. -/
  | record (parts : List (String × Shape))
  /-- At every item of a list. -/
  | each (item : Shape)

namespace Draft

mutual

/--
The value of a draft, whose containers nest at most `depth` deep where the reader looks. Entries
that the reader passes over are left out, but their keys have to be readable.
-/
def shown? (depth : Nat) : Shape → Draft → Option Json
  | .whole, draft => draft.value? depth
  | .record parts, .obj entries =>
    match depth with
    | 0 => none
    | depth + 1 => (shownEntries? depth parts entries).map .obj
  | .record parts, .arr items =>
    match depth with
    | 0 => none
    | depth + 1 => (shownParts? depth parts items).map .arr
  | .each item, .arr items =>
    match depth with
    | 0 => none
    | depth + 1 => (shownItems? depth item items).map .arr
  | _, draft => draft.value? depth

/-- The entries of a record that are looked at. -/
def shownEntries? (depth : Nat) (parts : List (String × Shape)) :
    List (Option String × Draft) → Option (List (String × Json))
  | [] => some []
  | (key, draft) :: rest => do
    let key ← key
    match parts.lookup key with
    | some shape =>
      let value ← shown? depth shape draft
      let values ← shownEntries? depth parts rest
      some ((key, value) :: values)
    | none => shownEntries? depth parts rest

/-- The parts of a record that is written as a list; items behind the last part are looked at. -/
def shownParts? (depth : Nat) : List (String × Shape) → List Draft → Option (List Json)
  | _, [] => some []
  | [], item :: rest => do
    let value ← value? depth item
    let values ← shownParts? depth [] rest
    some (value :: values)
  | (_, shape) :: parts, item :: rest => do
    let value ← shown? depth shape item
    let values ← shownParts? depth parts rest
    some (value :: values)

/-- Every item of a list. -/
def shownItems? (depth : Nat) (shape : Shape) : List Draft → Option (List Json)
  | [] => some []
  | item :: rest => do
    let value ← shown? depth shape item
    let values ← shownItems? depth shape rest
    some (value :: values)

end

end Draft

end Json

end SqlFederation
