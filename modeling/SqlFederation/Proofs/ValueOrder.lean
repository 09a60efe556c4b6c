import SqlFederation.Proofs.Rounding
import SqlFederation.Proofs.StableOrder

/-!
# The order of all values

Integers of 64 bits are compared as they are, and all other pairs of numbers after both are rounded.
Rounding keeps the order of integers (`Merge.place_asReal_le`), so a chain of values in order is in
order from end to end, unless its ends are two different integers that are compared as they are and
that both round to the number between them (`Merge.RoundTogether`). There the order goes in circles,
and nowhere else (`Merge.compareValues_breaks_iff`): of two such integers the greater one is not
above the number between, nor this one above the smaller one (`Merge.neighbours_go_round`).
-/

namespace SqlFederation

/-- A number as it is kept: an integer of 64 bits, with a sign or without, or a finite number. -/
def Number.isKept : Number → Bool
  | .int value => decide (-9223372036854775808 ≤ value ∧ value ≤ 18446744073709551615)
  | .real value => value.isFinite

/-- Is a value a kept number, or no number at all? -/
def Json.isKept : Json → Bool
  | .num n => n.isKept
  | _ => true

/-- Is a value a number? -/
def Json.isNumber : Json → Bool
  | .num _ => true
  | _ => false

namespace Merge

open Std (TransCmp)

/-! ## Numbers -/

section Numbers

variable {a b c : Number}

/-- A kept number is rounded to a finite one. -/
theorem isFinite_asReal (h : a.isKept = true) : a.asReal.isFinite = true := by
  cases a with
  | real x => exact h
  | int k =>
    have hbounds := of_decide_eq_true h
    exact Binary64.isFinite_ofInt (by omega)

/-- An integer of 64 bits is rounded as such. -/
theorem asReal_of_asInt? {i : Int} (h : a.asInt? = some i) : a.asReal = Binary64.ofInt i := by
  cases a with
  | real x => cases h
  | int k =>
    rw [Number.asInt?] at h
    split at h
    · rw [Number.asReal, Option.some.inj h]
    · cases h

theorem compareNumbers_of_asInt? {i j : Int} (ha : a.asInt? = some i) (hb : b.asInt? = some j) :
    compareNumbers a b = compare i j := by
  rw [compareNumbers, ha, hb]

/-- Other numbers are compared by the places of the numbers that they are rounded to. -/
theorem compareNumbers_of_rounded (ha : a.isKept = true) (hb : b.isKept = true)
    (h : a.asInt? = none ∨ b.asInt? = none) :
    compareNumbers a b = compare a.asReal.place b.asReal.place := by
  have hplaces := Binary64.compare?_eq_place (isFinite_asReal ha) (isFinite_asReal hb)
  rw [compareNumbers]
  split
  · rename_i hi hj
    rw [hi, hj] at h
    simp at h
  · rw [hplaces, Option.getD_some]

/-- The other way round numbers are in the opposite order. -/
theorem compareNumbers_swap (ha : a.isKept = true) (hb : b.isKept = true) :
    compareNumbers b a = (compareNumbers a b).swap := by
  cases hi : a.asInt? with
  | none =>
    rw [compareNumbers_of_rounded ha hb (Or.inl hi), compareNumbers_of_rounded hb ha (Or.inr hi)]
    exact Std.OrientedOrd.eq_swap
  | some i =>
    cases hj : b.asInt? with
    | none =>
      rw [compareNumbers_of_rounded ha hb (Or.inr hj), compareNumbers_of_rounded hb ha (Or.inl hj)]
      exact Std.OrientedOrd.eq_swap
    | some j =>
      rw [compareNumbers_of_asInt? hi hj, compareNumbers_of_asInt? hj hi]
      exact Std.OrientedOrd.eq_swap

/-- Numbers in order are in order after rounding. -/
theorem place_asReal_le (ha : a.isKept = true) (hb : b.isKept = true)
    (h : (compareNumbers a b).isLE = true) : a.asReal.place ≤ b.asReal.place := by
  cases hi : a.asInt? with
  | none =>
    rw [compareNumbers_of_rounded ha hb (Or.inl hi)] at h
    exact Int.isLE_compare.mp h
  | some i =>
    cases hj : b.asInt? with
    | none =>
      rw [compareNumbers_of_rounded ha hb (Or.inr hj)] at h
      exact Int.isLE_compare.mp h
    | some j =>
      rw [compareNumbers_of_asInt? hi hj] at h
      rw [asReal_of_asInt? hi, asReal_of_asInt? hj]
      exact Binary64.place_ofInt_mono (Int.isLE_compare.mp h)

/-- Do two numbers round to the same one? -/
def RoundsTo (a b : Number) : Prop :=
  a.asReal.compare? b.asReal = some .eq

theorem roundsTo_iff (ha : a.isKept = true) (hb : b.isKept = true) :
    RoundsTo a b ↔ a.asReal.place = b.asReal.place := by
  rw [RoundsTo, Binary64.compare?_eq_place (isFinite_asReal ha) (isFinite_asReal hb),
    Option.some.injEq, Std.LawfulEqOrd.compare_eq_iff_eq]

/--
Are the ends of a chain two integers in falling order that both round to the number between? The
ends are compared as they are, and with the number between after rounding.
-/
def RoundTogether (a b c : Number) : Prop :=
  b.asInt? = none ∧ RoundsTo a b ∧ RoundsTo c b ∧
    ∃ i j, a.asInt? = some i ∧ c.asInt? = some j ∧ j < i

/-- Numbers in order are in order from end to end, unless the ends round to what is between. -/
theorem compareNumbers_breaks_iff (ha : a.isKept = true) (hb : b.isKept = true)
    (hc : c.isKept = true) :
    ((compareNumbers a b).isLE = true ∧ (compareNumbers b c).isLE = true ∧
      ¬(compareNumbers a c).isLE = true) ↔ RoundTogether a b c := by
  constructor
  · rintro ⟨hab, hbc, hac⟩
    have hfront := place_asReal_le ha hb hab
    have hback := place_asReal_le hb hc hbc
    cases hi : a.asInt? with
    | none =>
      rw [compareNumbers_of_rounded ha hc (Or.inl hi), Int.isLE_compare] at hac
      exact absurd (hfront.trans hback) hac
    | some i =>
      cases hj : c.asInt? with
      | none =>
        rw [compareNumbers_of_rounded ha hc (Or.inr hj), Int.isLE_compare] at hac
        exact absurd (hfront.trans hback) hac
      | some j =>
        rw [compareNumbers_of_asInt? hi hj, Int.isLE_compare, Int.not_le] at hac
        cases hk : b.asInt? with
        | some k =>
          rw [compareNumbers_of_asInt? hi hk, Int.isLE_compare] at hab
          rw [compareNumbers_of_asInt? hk hj, Int.isLE_compare] at hbc
          omega
        | none =>
          have hends := Binary64.place_ofInt_mono hac.le
          rw [← asReal_of_asInt? hi, ← asReal_of_asInt? hj] at hends
          exact ⟨hk, (roundsTo_iff ha hb).mpr (by omega), (roundsTo_iff hc hb).mpr (by omega),
            i, j, hi, hj, hac⟩
  · rintro ⟨hk, haround, hcround, i, j, hi, hj, hlt⟩
    rw [roundsTo_iff ha hb] at haround
    rw [roundsTo_iff hc hb] at hcround
    rw [compareNumbers_of_rounded ha hb (Or.inr hk), compareNumbers_of_rounded hb hc (Or.inl hk),
      compareNumbers_of_asInt? hi hj, Int.isLE_compare, Int.isLE_compare, Int.isLE_compare]
    omega

end Numbers

/-! ## Values of all kinds -/

variable {a b c : Json}

/-- The text by which a value is compared that is no truth value and no number. -/
def comparedText : Json → String
  | .str text => text
  | .arr items => (Json.arr items).compact
  | .obj entries => (Json.obj entries).compact
  | _ => ""

/-- Values that are no numbers are compared by their kinds, as truth values, and by their texts. -/
theorem compareValues_of_not_number (ha : a.isNumber = false) :
    compareValues a b = (compare (kindRank a) (kindRank b)).then
      ((compare (numberOf a) (numberOf b)).then (compare (comparedText a) (comparedText b))) := by
  cases a with
  | num n => cases ha
  | null => cases b <;> rfl
  | bool x =>
    cases b with
    | bool y => cases x <;> cases y <;> rfl
    | _ => rfl
  | str x => cases b <;> rfl
  | arr x => cases b <;> rfl
  | obj x => cases b <;> rfl

/-- Values in order are of kinds in order. -/
theorem kindRank_le_of_isLE (h : (compareValues a b).isLE = true) : kindRank a ≤ kindRank b := by
  by_cases hkind : kindRank a = kindRank b
  · exact hkind.le
  · rwa [compareValues_of_ne_kindRank hkind, Nat.isLE_compare] at h

theorem isLE_of_kindRank_lt (h : kindRank a < kindRank b) : (compareValues a b).isLE = true := by
  rw [compareValues_of_ne_kindRank h.ne, Nat.isLE_compare]
  exact h.le

/-- What is of the kind of a number is one. -/
theorem exists_num_of_kindRank {n : Number} (h : kindRank a = kindRank (.num n)) :
    ∃ m, a = .num m := by
  cases a with
  | num m => exact ⟨m, rfl⟩
  | _ => cases h

theorem isNumber_eq_false_of_kindRank (ha : a.isNumber = false) (h : kindRank b = kindRank a) :
    b.isNumber = false := by
  cases b with
  | num n =>
    obtain ⟨m, rfl⟩ := exists_num_of_kindRank h.symm
    cases ha
  | _ => rfl

/-- Values that are no numbers are in an order. -/
theorem transCmp_of_not_number :
    TransCmp fun a b : { v : Json // v.isNumber = false } => compareValues a.1 b.1 := by
  have heq : (fun a b : { v : Json // v.isNumber = false } => compareValues a.1 b.1) =
      compareLex (compareOn fun v => kindRank v.1)
        (compareLex (compareOn fun v => numberOf v.1) (compareOn fun v => comparedText v.1)) := by
    funext a b
    exact compareValues_of_not_number a.2
  rw [heq]
  infer_instance

/-- The other way round values are in the opposite order. -/
theorem compareValues_swap_of_kept (ha : a.isKept = true) (hb : b.isKept = true) :
    compareValues b a = (compareValues a b).swap := by
  by_cases hkind : kindRank a = kindRank b
  · cases hnumber : a.isNumber with
    | false =>
      have hother := isNumber_eq_false_of_kindRank hnumber hkind.symm
      exact transCmp_of_not_number.eq_swap (a := ⟨b, hother⟩) (b := ⟨a, hnumber⟩)
    | true =>
      cases a with
      | num m =>
        obtain ⟨n, rfl⟩ := exists_num_of_kindRank hkind.symm
        exact compareNumbers_swap ha hb
      | _ => cases hnumber
  · rw [compareValues_of_ne_kindRank hkind, compareValues_of_ne_kindRank (Ne.symm hkind)]
    exact Std.OrientedOrd.eq_swap

/--
The order of values has an opposite, and a chain of values in order is in order from end to end,
unless its ends are different integers that both round to the number between.
-/
theorem compareValues_breaks_iff (ha : a.isKept = true) (hb : b.isKept = true)
    (hc : c.isKept = true) :
    compareValues b a = (compareValues a b).swap ∧
    (((compareValues a b).isLE = true ∧ (compareValues b c).isLE = true ∧
        ¬(compareValues a c).isLE = true) ↔
      ∃ x y z, a = .num x ∧ b = .num y ∧ c = .num z ∧ RoundTogether x y z) := by
  refine ⟨compareValues_swap_of_kept ha hb, ?_, ?_⟩
  · rintro ⟨hab, hbc, hac⟩
    -- The ends are not told by their kinds, so all three values are of one kind.
    have hfront := kindRank_le_of_isLE hab
    have hback := kindRank_le_of_isLE hbc
    have hends : ¬kindRank a < kindRank c := fun h => hac (isLE_of_kindRank_lt h)
    cases hnumber : a.isNumber with
    | false =>
      have hbnumber : b.isNumber = false := isNumber_eq_false_of_kindRank hnumber (by omega)
      have hcnumber : c.isNumber = false := isNumber_eq_false_of_kindRank hnumber (by omega)
      exact absurd (transCmp_of_not_number.isLE_trans (a := ⟨a, hnumber⟩) (b := ⟨b, hbnumber⟩)
        (c := ⟨c, hcnumber⟩) hab hbc) hac
    | true =>
      cases a with
      | num x =>
        obtain ⟨y, rfl⟩ := exists_num_of_kindRank (n := x) (a := b) (by omega)
        obtain ⟨z, rfl⟩ := exists_num_of_kindRank (n := x) (a := c) (by omega)
        exact ⟨x, y, z, rfl, rfl, rfl, (compareNumbers_breaks_iff ha hb hc).mp ⟨hab, hbc, hac⟩⟩
      | _ => cases hnumber
  · rintro ⟨x, y, z, rfl, rfl, rfl, hround⟩
    exact (compareNumbers_breaks_iff ha hb hc).mpr hround

/--
The greatest integer with a sign is in order with the next one, which has none, and this one with an
integer below: the ends both round to `2 ^ 63`.
-/
theorem compareValues_breaks_at_sign :
    (Json.ofInt 9223372036854775807).isKept = true ∧
    (Json.ofInt 9223372036854775808).isKept = true ∧
    (Json.ofInt 9223372036854775800).isKept = true ∧
    compareValues (.ofInt 9223372036854775808) (.ofInt 9223372036854775807) =
      (compareValues (.ofInt 9223372036854775807) (.ofInt 9223372036854775808)).swap ∧
    (compareValues (.ofInt 9223372036854775807) (.ofInt 9223372036854775808)).isLE = true ∧
    (compareValues (.ofInt 9223372036854775808) (.ofInt 9223372036854775800)).isLE = true ∧
    ¬(compareValues (.ofInt 9223372036854775807) (.ofInt 9223372036854775800)).isLE = true := by
  have hfirst : (Json.ofInt 9223372036854775807).isKept = true := by decide
  have hbetween : (Json.ofInt 9223372036854775808).isKept = true := by decide
  have hlast : (Json.ofInt 9223372036854775800).isKept = true := by decide
  obtain ⟨hswap, hbreaks⟩ := compareValues_breaks_iff hfirst hbetween hlast
  refine ⟨hfirst, hbetween, hlast, hswap, hbreaks.mpr ?_⟩
  refine ⟨_, _, _, rfl, rfl, rfl, by decide, ?_, ?_, _, _, rfl, rfl, by decide⟩
  · unfold RoundsTo
    decide +kernel
  · unfold RoundsTo
    decide +kernel

/--
The order of values is no preorder: `2 ^ 53 + 1` is not above the number `2 ^ 53`, which is not
above the integer `2 ^ 53`, and yet the first is above the last.
-/
theorem neighbours_go_round :
    (Json.ofInt 9007199254740993).isKept = true ∧
    (Json.ofReal (.ofInt 9007199254740992)).isKept = true ∧
    (Json.ofInt 9007199254740992).isKept = true ∧
    (compareValues (.ofInt 9007199254740993) (.ofReal (.ofInt 9007199254740992))).isLE = true ∧
    (compareValues (.ofReal (.ofInt 9007199254740992)) (.ofInt 9007199254740992)).isLE = true ∧
    ¬(compareValues (.ofInt 9007199254740993) (.ofInt 9007199254740992)).isLE = true := by
  decide +kernel

end Merge

end SqlFederation
