import SqlFederation.Number.Binary64

/-!
# JSON values

A value is null, a truth value, a number, a text, a list, or an object. An object is a list of
entries in the order they were written, and a number is an integer or a binary64 number: an integer
that is written without a point or an exponent stays one as long as 64 bits hold it.
-/

namespace SqlFederation

/-- A JSON number. -/
inductive Number where
  | int (value : Int)
  | real (value : Binary64)
  deriving DecidableEq

/-- A JSON value; the entries of an object keep their order. -/
inductive Json where
  | null
  | bool (value : Bool)
  | num (value : Number)
  | str (value : String)
  | arr (items : List Json)
  | obj (entries : List (String × Json))

namespace Json

mutual

/-- Equality of values. -/
def beq : Json → Json → Bool
  | .null, .null => true
  | .bool a, .bool b => a == b
  | .num a, .num b => decide (a = b)
  | .str a, .str b => a == b
  | .arr a, .arr b => beqItems a b
  | .obj a, .obj b => beqEntries a b
  | _, _ => false

/-- Equality of lists, item by item. -/
def beqItems : List Json → List Json → Bool
  | [], [] => true
  | a :: as, b :: bs => beq a b && beqItems as bs
  | _, _ => false

/-- Equality of entries, key and value, in order. -/
def beqEntries : List (String × Json) → List (String × Json) → Bool
  | [], [] => true
  | (k, a) :: as, (l, b) :: bs => k == l && beq a b && beqEntries as bs
  | _, _ => false

end

mutual

theorem eq_of_beq : ∀ a b : Json, beq a b = true → a = b
  | .null, b => by cases b <;> simp [beq]
  | .bool _, b => by cases b <;> simp [beq]
  | .num _, b => by cases b <;> simp [beq]
  | .str _, b => by cases b <;> simp [beq]
  | .arr as, b => by
    cases b with
    | arr bs => simpa [beq] using eq_of_beqItems as bs
    | _ => simp [beq]
  | .obj as, b => by
    cases b with
    | obj bs => simpa [beq] using eq_of_beqEntries as bs
    | _ => simp [beq]

theorem eq_of_beqItems : ∀ as bs : List Json, beqItems as bs = true → as = bs
  | [], bs => by cases bs <;> simp [beqItems]
  | a :: as, bs => by
    cases bs with
    | nil => simp [beqItems]
    | cons b bs =>
      simp only [beqItems, Bool.and_eq_true]
      rintro ⟨h, t⟩
      rw [eq_of_beq a b h, eq_of_beqItems as bs t]

theorem eq_of_beqEntries : ∀ as bs : List (String × Json), beqEntries as bs = true → as = bs
  | [], bs => by cases bs <;> simp [beqEntries]
  | (k, a) :: as, bs => by
    cases bs with
    | nil => simp [beqEntries]
    | cons b bs =>
      obtain ⟨l, b⟩ := b
      simp only [beqEntries, Bool.and_eq_true, beq_iff_eq]
      rintro ⟨⟨hk, h⟩, t⟩
      rw [hk, eq_of_beq a b h, eq_of_beqEntries as bs t]

end

mutual

theorem beq_self : ∀ a : Json, beq a a = true
  | .null => rfl
  | .bool _ => by simp [beq]
  | .num _ => by simp [beq]
  | .str _ => by simp [beq]
  | .arr as => by simpa [beq] using beqItems_self as
  | .obj as => by simpa [beq] using beqEntries_self as

theorem beqItems_self : ∀ as : List Json, beqItems as as = true
  | [] => rfl
  | a :: as => by simp [beqItems, beq_self a, beqItems_self as]

theorem beqEntries_self : ∀ as : List (String × Json), beqEntries as as = true
  | [] => rfl
  | (_, a) :: as => by simp [beqEntries, beq_self a, beqEntries_self as]

end

instance : DecidableEq Json := fun a b =>
  if h : beq a b = true then
    isTrue (eq_of_beq a b h)
  else
    isFalse fun e => h (e ▸ beq_self a)

instance : Inhabited Json := ⟨.null⟩

/-- An integer. -/
def ofInt (value : Int) : Json := .num (.int value)

/-- A count. -/
def ofNat (value : Nat) : Json := .num (.int value)

/-- A list of texts. -/
def ofStrings (values : List String) : Json := .arr (values.map .str)

/-- A binary64 number; what is not finite has no JSON form and becomes null. -/
def ofReal (value : Binary64) : Json :=
  if value.isFinite then .num (.real value) else .null

/-- A text, or null. -/
def ofOption (value : Option String) : Json :=
  match value with
  | some text => .str text
  | none => .null

/-- The entries of a field that may be left out. -/
def entry? (name : String) (value : Option Json) : List (String × Json) :=
  match value with
  | some value => [(name, value)]
  | none => []

/-- Is this null? -/
def isNull : Json → Bool
  | .null => true
  | _ => false

end Json

/-- Does an integer fit 64 bits with a sign? -/
def fitsSigned (value : Int) : Bool :=
  decide (-9223372036854775808 ≤ value ∧ value ≤ 9223372036854775807)

namespace Number

/-- The integer of a number, if 64 bits with a sign hold it. -/
def asInt? : Number → Option Int
  | .int value => if fitsSigned value then some value else none
  | .real _ => none

/-- The binary64 number nearest to a number. -/
def asReal : Number → Binary64
  | .int value => Binary64.ofInt value
  | .real value => value

end Number

namespace Json

/-- The integer of a value, if it is one and 64 bits with a sign hold it. -/
def asInt? : Json → Option Int
  | .num n => n.asInt?
  | _ => none

/-- The count that a value is, if it is an integer that 64 bits hold without a sign. -/
def asNat? : Json → Option Nat
  | .num (.int value) =>
    if 0 ≤ value ∧ value ≤ 18446744073709551615 then some value.toNat else none
  | _ => none

/-- The binary64 number of a value, if it is a number. -/
def asReal? : Json → Option Binary64
  | .num n => some n.asReal
  | _ => none

/-- The text of a value, if it is one. -/
def asStr? : Json → Option String
  | .str text => some text
  | _ => none

end Json

end SqlFederation
