import SqlFederation.Merge.Order
import SqlFederation.Proofs.Sorting

/-!
# The order of rows with plain values

Plain values are null, truth values, integers of 64 bits and texts (`Json.isPlain`). On them
`compareValues` is the order of a key (`Merge.compareValues_eq`): first the rank of the kind, then
the number, then the text. So the order under a sort key and the order of rows are orders as well
(`Merge.transCmp_compareRows`), by the instances for lexicographic comparison. Rows whose sort
values are not plain may be compared in circles; `Merge.plainFirst` puts them last, and agrees with
the order of rows as long as none is there (`Merge.sortRows_eq`).
-/

namespace SqlFederation

/-- Null, a truth value, an integer of 64 bits, or a text. -/
def Json.isPlain : Json → Bool
  | .null | .bool _ | .str _ => true
  | .num n => n.asInt?.isSome
  | _ => false

theorem Json.isPlain_cases {value : Json} (h : value.isPlain = true) :
    value = .null ∨ (∃ b, value = .bool b) ∨ (∃ k, value = .ofInt k ∧ fitsSigned k = true) ∨
      ∃ text, value = .str text := by
  cases value with
  | null => exact Or.inl rfl
  | bool b => exact Or.inr (Or.inl ⟨b, rfl⟩)
  | str text => exact Or.inr (Or.inr (Or.inr ⟨text, rfl⟩))
  | arr items => cases h
  | obj entries => cases h
  | num n =>
    cases n with
    | real r => cases h
    | int k =>
      refine Or.inr (Or.inr (Or.inl ⟨k, rfl, ?_⟩))
      by_contra hfits
      rw [isPlain, Number.asInt?, if_neg hfits] at h
      cases h

namespace Merge

open Std (TransCmp)

/-- The number of a plain value; a truth value counts as one or nothing. -/
def numberOf : Json → Int
  | .bool b => if b then 1 else 0
  | .num n => n.asInt?.getD 0
  | _ => 0

/-- The text of a plain value. -/
def textOf : Json → String
  | .str text => text
  | _ => ""

/-- Plain values are compared by their kinds, then as numbers, then as texts. -/
theorem compareValues_eq {a b : Json} (ha : a.isPlain = true) (hb : b.isPlain = true) :
    compareValues a b = (compare (kindRank a) (kindRank b)).then
      ((compare (numberOf a) (numberOf b)).then (compare (textOf a) (textOf b))) := by
  cases a with
  | arr items => cases ha
  | obj entries => cases ha
  | null => cases b <;> rfl
  | str x =>
    cases b with
    | str y => rfl
    | _ => rfl
  | bool x =>
    cases b with
    | bool y => cases x <;> cases y <;> rfl
    | _ => rfl
  | num x =>
    cases b with
    | num y =>
      obtain ⟨i, hi⟩ := Option.isSome_iff_exists.mp ha
      obtain ⟨j, hj⟩ := Option.isSome_iff_exists.mp hb
      rw [compareValues, compareNumbers, numberOf, numberOf, hi, hj]
      cases hij : compare i j <;> simp [hij, kindRank, textOf]
    | _ => rfl

variable {T : Type}

/-- The order of plain values is transitive. -/
theorem transCmp_compareValues {f : T → Json} (h : ∀ t, (f t).isPlain = true) :
    TransCmp fun a b => compareValues (f a) (f b) := by
  have heq : (fun a b => compareValues (f a) (f b)) =
      compareLex (compareOn fun t => kindRank (f t))
        (compareLex (compareOn fun t => numberOf (f t)) (compareOn fun t => textOf (f t))) := by
    funext a b
    exact compareValues_eq (h a) (h b)
  rw [heq]
  infer_instance

/-- Where a value stands because it is null or not. -/
def nullPlace (key : SortKey) (value : Json) : Bool :=
  if key.nullsFirst then !value.isNull else value.isNull

/-- Under a sort key nulls are put in their place before the direction counts. -/
theorem compareUnder_eq (key : SortKey) (a b : Json) :
    compareUnder key a b = (compare (nullPlace key a) (nullPlace key b)).then
      (match key.direction with
        | .asc => compareValues a b
        | .desc => (compareValues a b).swap) := by
  obtain ⟨column, direction, nullsFirst⟩ := key
  unfold compareUnder nullPlace
  cases ha : a.isNull <;> cases hb : b.isNull <;> cases nullsFirst <;> try rfl
  -- Two nulls are equal in either direction.
  all_goals
    cases a <;> cases ha
    cases b <;> cases hb
    cases direction <;> rfl

/-- The order of plain values under a sort key is transitive. -/
theorem transCmp_compareUnder (key : SortKey) {f : T → Json} (h : ∀ t, (f t).isPlain = true) :
    TransCmp fun a b => compareUnder key (f a) (f b) := by
  have hvalues := transCmp_compareValues h
  cases hdirection : key.direction with
  | asc =>
    have heq : (fun a b => compareUnder key (f a) (f b)) =
        compareLex (compareOn fun t => nullPlace key (f t))
          (fun a b => compareValues (f a) (f b)) := by
      funext a b
      rw [compareUnder_eq, hdirection]
      rfl
    rw [heq]
    infer_instance
  | desc =>
    have heq : (fun a b => compareUnder key (f a) (f b)) =
        compareLex (compareOn fun t => nullPlace key (f t))
          (fun a b => compareValues (f b) (f a)) := by
      funext a b
      have hswap : (compareValues (f a) (f b)).swap = compareValues (f b) (f a) :=
        (hvalues.eq_swap (a := b) (b := a)).symm
      rw [compareUnder_eq, hdirection]
      show (compare _ _).then (compareValues (f a) (f b)).swap =
        (compare _ _).then (compareValues (f b) (f a))
      rw [hswap]
    rw [heq]
    have hopposite : TransCmp fun a b => compareValues (f b) (f a) := TransCmp.opposite
    infer_instance

/-- Are the values that a row is sorted by all plain? -/
def plainUnder (keys : List (SortKey × String)) (row : Row) : Bool :=
  keys.all fun key => (row.value key.2).isPlain

/-- The order of rows with plain values is transitive. -/
theorem transCmp_compareRows (keys : List (SortKey × String)) {f : T → Row}
    (h : ∀ t, plainUnder keys (f t) = true) :
    TransCmp fun a b => compareRows keys (f a) (f b) := by
  induction keys with
  | nil =>
    have heq : (fun a b => compareRows [] (f a) (f b)) = compareOn fun _ => 0 := by
      funext a b
      rfl
    rw [heq]
    infer_instance
  | cons key rest ih =>
    obtain ⟨key, name⟩ := key
    have hhead : ∀ t, ((f t).value name).isPlain = true := fun t => by
      have ht := h t
      rw [plainUnder, List.all_cons, Bool.and_eq_true] at ht
      exact ht.1
    have hrest : ∀ t, plainUnder rest (f t) = true := fun t => by
      have ht := h t
      rw [plainUnder, List.all_cons, Bool.and_eq_true] at ht
      exact ht.2
    have hkey := transCmp_compareUnder key hhead
    have hrows := ih hrest
    have heq : (fun a b => compareRows ((key, name) :: rest) (f a) (f b)) =
        compareLex (fun a b => compareUnder key ((f a).value name) ((f b).value name))
          (fun a b => compareRows rest (f a) (f b)) := by
      funext a b
      rfl
    rw [heq]
    infer_instance

/-- The order of a select, with the rows behind that cannot be ordered. -/
def plainFirst (keys : List (SortKey × String)) (a b : Row) : Bool :=
  if plainUnder keys a then !plainUnder keys b || compareRows keys a b != .gt
  else !plainUnder keys b

theorem ne_gt_iff_isLE {order : Ordering} : (order != .gt) = true ↔ order.isLE = true := by
  cases order <;> decide

/-- Rows can be sorted by it, whatever their values are. -/
theorem isOrder_plainFirst (keys : List (SortKey × String)) :
    Sorting.IsOrder (plainFirst keys) := by
  have hcmp := transCmp_compareRows keys fun t : { row // plainUnder keys row = true } => t.2
  constructor
  · intro a b c hab hbc
    unfold plainFirst at hab hbc ⊢
    by_cases ha : plainUnder keys a = true
    · by_cases hc : plainUnder keys c = true
      · by_cases hb : plainUnder keys b = true
        · simp only [ha, hb, hc, if_true, Bool.not_true, Bool.false_or, ne_gt_iff_isLE] at hab hbc ⊢
          exact hcmp.isLE_trans (a := ⟨a, ha⟩) (b := ⟨b, hb⟩) (c := ⟨c, hc⟩) hab hbc
        · simp [hb, hc] at hbc
      · simp [ha, hc]
    · have hb : ¬plainUnder keys b = true := by simpa [ha] using hab
      have hc : ¬plainUnder keys c = true := by simpa [hb] using hbc
      simp [ha, hc]
  · intro a b
    unfold plainFirst
    by_cases ha : plainUnder keys a = true
    · by_cases hb : plainUnder keys b = true
      · have hswap := hcmp.eq_swap (a := ⟨a, ha⟩) (b := ⟨b, hb⟩)
        simp only [ha, hb, if_true, Bool.not_true, Bool.false_or]
        simp only at hswap
        rw [hswap]
        cases compareRows keys b a <;> rfl
      · simp [ha, hb]
    · simp [ha]

/-- Rows with plain values are sorted by that order. -/
theorem sortRows_eq {select : Select} {rows : List Row}
    (h : ∀ row ∈ rows, plainUnder (sortKeys select) row = true) :
    sortRows select rows = rows.mergeSort (plainFirst (sortKeys select)) := by
  have hsame : ∀ a ∈ rows, ∀ b ∈ rows,
      (compareRows (sortKeys select) a b != .gt) = plainFirst (sortKeys select) (id a) (id b) := by
    intro a ha b hb
    rw [id, id, plainFirst, h a ha, h b hb]
    rfl
  have hmap := List.map_mergeSort hsame
  rw [List.map_id, List.map_id] at hmap
  exact hmap

end Merge

end SqlFederation
