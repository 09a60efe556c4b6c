import Mathlib
import SqlFederation.Json.Decode

/-!
# Reading what was written

An object is written field by field, and the lemmas here say what each way to read a field makes of
it. `Option.Rel` relates a part that may be absent with its entry, `Json.MayOmit` a part that may be
left out while it has its default, and `Json.Lists` a list with its items: what is read is the part,
as long as the part itself is read back. So a proof about a record names one fact for each of its
parts, and never looks into the reader.
-/

namespace SqlFederation

namespace Json

variable {α : Type} {written : α → Json → Prop} {decode : Json → Option α}
  {entries : List (String × Json)} {name : String}

/-! ## How parts are written -/

/-- Is a part written, or left out while it has its default? -/
inductive MayOmit (written : α → Json → Prop) (default value : α) : Option Json → Prop where
  | kept {json : Json} (h : written value json) : MayOmit written default value (some json)
  | omitted (h : value = default) : MayOmit written default value none

/-- Is a list written item by item? -/
def Lists (written : α → Json → Prop) (values : List α) (json : Json) : Prop :=
  ∃ items, json = .arr items ∧ List.Forall₂ written values items

/-- A list that is written by a function is written item by item. -/
theorem lists_map {f : α → Json} (h : ∀ value, written value (f value)) (values : List α) :
    Lists written values (.arr (values.map f)) := by
  refine ⟨_, rfl, ?_⟩
  rw [List.forall₂_map_right_iff]
  exact List.forall₂_same.mpr fun value _ => h value

/-- An optional part that is written by a function. -/
theorem rel_map {f : α → Json} (h : ∀ value, written value (f value)) (value : Option α) :
    Option.Rel written value (value.map f) := by
  cases value with
  | none => exact Option.Rel.none
  | some a => exact Option.Rel.some (h a)

/-! ## The entries of fields -/

@[simp]
theorem lookup_entry?_eq (name other : String) (value : Option Json) :
    (Json.entry? other value).lookup name = if name = other then value else none := by
  cases value with
  | none => exact (ite_self _).symm
  | some value =>
    rw [Json.entry?, List.lookup_cons, List.lookup_nil]
    by_cases h : name = other
    · rw [if_pos h, h, beq_self_eq_true]
    · rw [if_neg h, beq_false_of_ne h]

/-- A field that is there is decoded. -/
theorem field_eq_some (json : Json) {a : α} (hlookup : entries.lookup name = some json)
    (hdecode : decode json = some a) : field entries name decode = some a := by
  rw [field, hlookup, Option.bind_some, hdecode]

/-- A field that may be absent is read back, unless it is written as null. -/
theorem optional_eq_some {value : Option α} {json : Option Json}
    (hlookup : entries.lookup name = json) (h : Option.Rel written value json)
    (hread : ∀ a ∈ value, ∀ json, written a json → json ≠ .null ∧ decode json = some a) :
    optional entries name decode = some value := by
  rw [optional, hlookup]
  cases h with
  | none => rfl
  | some hwritten =>
    obtain ⟨hnull, hdecode⟩ := hread _ rfl _ hwritten
    split
    · rename_i hsome
      cases hsome
    · rename_i hsome
      exact absurd (Option.some.inj hsome) hnull
    · rename_i hsome
      rw [← Option.some.inj hsome, hdecode]
      rfl

/-- A field that may be absent is read back if it is written by a function, and not as null. -/
theorem optional_map_eq_some (f : α → Json) {value : Option α}
    (hlookup : entries.lookup name = value.map f)
    (hread : ∀ a ∈ value, f a ≠ .null ∧ decode (f a) = some a) :
    optional entries name decode = some value := by
  have hrel : Option.Rel (fun a json => f a = json) value (value.map f) :=
    rel_map (fun _ => rfl) value
  refine optional_eq_some hlookup hrel ?_
  rintro a ha json rfl
  exact hread a ha

/-- A field that may be left out is read back, whether or not it is. -/
theorem withDefault_eq_some {default value : α} {json : Option Json}
    (hlookup : entries.lookup name = json) (h : MayOmit written default value json)
    (hread : ∀ json, written value json → decode json = some value) :
    withDefault entries name default decode = some value := by
  rw [withDefault, hlookup]
  cases h with
  | kept hwritten => exact hread _ hwritten
  | omitted hdefault => rw [hdefault]

/-- A list is read back if its items are. -/
theorem list_eq_some {values : List α} {json : Json} (h : Lists written values json)
    (hread : ∀ value ∈ values, ∀ json, written value json → decode json = some value) :
    list decode json = some values := by
  obtain ⟨items, rfl, hitems⟩ := h
  show items.mapM decode = some values
  induction hitems with
  | nil => rfl
  | cons hwritten _ ih =>
    rw [List.forall_mem_cons] at hread
    rw [List.mapM_cons, hread.1 _ hwritten, ih hread.2]
    rfl

theorem list_map_eq_some (f : α → Json) (values : List α)
    (hread : ∀ value ∈ values, decode (f value) = some value) :
    list decode (.arr (values.map f)) = some values := by
  have hlists : Lists (fun value json => f value = json) values (.arr (values.map f)) :=
    lists_map (fun _ => rfl) values
  refine list_eq_some hlists ?_
  rintro value hvalue json rfl
  exact hread value hvalue

/-! ## Values of few forms -/

/-- A choice that is given by its name. -/
theorem oneOf_str {choices : List (String × α)} {a : α} (inside : Bool)
    (h : choices.lookup name = some a) : oneOf inside choices (.str name) = some a := h

/-- What is tagged with the name of its kind. -/
theorem tagged?_obj {tag kind : String} (inside : Bool) (kinds : List (String × Parts))
    (h : entries.lookup tag = some (.str kind)) :
    tagged? inside tag kinds (.obj entries) = some (kind, entries) := by
  have hkind : field entries tag (kind? inside (kinds.map Prod.fst)) = some kind :=
    field_eq_some (.str kind) h rfl
  show (field entries tag _ >>= fun name => some (name, entries)) = _
  rw [hkind]
  rfl

theorem asNat?_ofNat {n : Nat} (h : n ≤ 18446744073709551615) : (ofNat n).asNat? = some n := by
  have hfits : (0 : Int) ≤ n ∧ (n : Int) ≤ 18446744073709551615 := by omega
  rw [ofNat, asNat?, if_pos hfits, Int.toNat_natCast]

end Json

end SqlFederation
