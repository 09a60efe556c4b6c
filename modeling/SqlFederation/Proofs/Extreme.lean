import SqlFederation.Merge.Aggregate
import SqlFederation.Proofs.Order

/-!
# Least and greatest values

The least value of a list is the first one that no other value is below, nulls apart, and likewise
the greatest (`Merge.extreme`). Plain values that are equal in order are the same
(`Merge.eq_of_compareValues_eq`), so there is exactly one such value, and it can be found piece by
piece: `pick` of the extremes of two lists is the extreme of both together
(`Merge.pick_extreme`).
-/

namespace SqlFederation

namespace Merge

open Std (TransCmp)

/-! ## The order of plain values -/

/-- Plain values that are equal in order are the same. -/
theorem eq_of_compareValues_eq {a b : Json} (ha : a.isPlain = true) (hb : b.isPlain = true)
    (h : compareValues a b = .eq) : a = b := by
  rw [compareValues_eq ha hb, Ordering.then_eq_eq, Ordering.then_eq_eq] at h
  simp only [Std.LawfulEqOrd.compare_eq_iff_eq] at h
  obtain ⟨hkind, hnumber, htext⟩ := h
  rcases Json.isPlain_cases ha with rfl | ⟨x, rfl⟩ | ⟨x, rfl, hx⟩ | ⟨x, rfl⟩ <;>
    rcases Json.isPlain_cases hb with rfl | ⟨y, rfl⟩ | ⟨y, rfl, hy⟩ | ⟨y, rfl⟩ <;>
    cases hkind
  · rfl
  · cases x <;> cases y <;> first | rfl | cases hnumber
  · simp only [numberOf, Json.ofInt, Number.asInt?, hx, hy, if_true, Option.getD_some] at hnumber
    rw [hnumber]
  · rw [show x = y from htext]

variable {wanted : Ordering} {a b c : Json}

/-- The other way round the order is the opposite one. -/
theorem compareValues_swap (ha : a.isPlain = true) (hb : b.isPlain = true) :
    compareValues a b = (compareValues b a).swap :=
  (transCmp_compareValues fun v : { v : Json // v.isPlain = true } => v.2).eq_swap
    (a := ⟨a, ha⟩) (b := ⟨b, hb⟩)

/-- No value is on both sides of another one. -/
theorem compareValues_ne_of_eq (hwanted : wanted ≠ .eq) (ha : a.isPlain = true)
    (hb : b.isPlain = true) (h : compareValues a b = wanted) : compareValues b a ≠ wanted := by
  intro hback
  have hswap := compareValues_swap ha hb
  rw [h, hback] at hswap
  cases wanted with
  | eq => exact hwanted rfl
  | lt => cases hswap
  | gt => cases hswap

/-- What is beyond a value is beyond every value that is not. -/
theorem compareValues_eq_trans (hwanted : wanted ≠ .eq) (ha : a.isPlain = true)
    (hb : b.isPlain = true) (hc : c.isPlain = true) (hab : compareValues a b = wanted)
    (hcb : compareValues c b ≠ wanted) : compareValues a c = wanted := by
  have hcmp := transCmp_compareValues fun v : { v : Json // v.isPlain = true } => v.2
  have hswap := compareValues_swap hb hc
  cases wanted with
  | eq => exact absurd rfl hwanted
  | lt =>
    have hbc : (compareValues b c).isLE = true := by
      rw [hswap]
      cases h : compareValues c b with
      | lt => exact absurd h hcb
      | _ => rfl
    exact @TransCmp.lt_of_lt_of_isLE _ _ hcmp ⟨a, ha⟩ ⟨b, hb⟩ ⟨c, hc⟩ hab hbc
  | gt =>
    have hbc : (compareValues b c).isGE = true := by
      rw [hswap]
      cases h : compareValues c b with
      | gt => exact absurd h hcb
      | _ => rfl
    exact @TransCmp.gt_of_gt_of_isGE _ _ hcmp ⟨a, ha⟩ ⟨b, hb⟩ ⟨c, hc⟩ hab hbc

/-! ## Extremes -/

/-- The values that are there. -/
def present (values : List Json) : List Json :=
  values.filter fun value => !value.isNull

theorem present_append (vs ws : List Json) : present (vs ++ ws) = present vs ++ present ws :=
  List.filter_append vs ws

/-- A value is on the wanted side of all values, if none of them is on the wanted side of it. -/
def IsExtreme (wanted : Ordering) (values : List Json) (v : Json) : Prop :=
  v ∈ present values ∧ ∀ other ∈ present values, compareValues other v ≠ wanted

/-- The first value that is on the wanted side of all values that are there, or null. -/
def extreme (wanted : Ordering) (values : List Json) : Json :=
  ((present values).find? fun v =>
    (present values).all fun other => compareValues other v != wanted).getD .null

/-- There is only one extreme. -/
theorem IsExtreme.eq {values : List Json} {v w : Json} (hwanted : wanted ≠ .eq)
    (hplain : ∀ v ∈ values, v.isPlain = true) (hv : IsExtreme wanted values v)
    (hw : IsExtreme wanted values w) : v = w := by
  have hvp := hplain v (List.mem_of_mem_filter hv.1)
  have hwp := hplain w (List.mem_of_mem_filter hw.1)
  have hswap := compareValues_swap hwp hvp
  apply eq_of_compareValues_eq hvp hwp
  cases h : compareValues v w with
  | eq => rfl
  | lt =>
    rw [h] at hswap
    cases wanted with
    | eq => exact absurd rfl hwanted
    | lt => exact absurd h (hw.2 v hv.1)
    | gt => exact absurd hswap (hv.2 w hw.1)
  | gt =>
    rw [h] at hswap
    cases wanted with
    | eq => exact absurd rfl hwanted
    | lt => exact absurd hswap (hv.2 w hw.1)
    | gt => exact absurd h (hw.2 v hv.1)

/-- No values have null for their extreme. -/
theorem extreme_of_present_eq_nil {values : List Json} (h : present values = []) :
    extreme wanted values = .null := by
  rw [extreme, h]
  rfl

/-- Only the values that are there count. -/
theorem extreme_congr {vs ws : List Json} (h : present vs = present ws) :
    extreme wanted vs = extreme wanted ws := by
  rw [extreme, extreme, h]

/-- An extreme is found. -/
theorem extreme_eq {values : List Json} {v : Json} (hwanted : wanted ≠ .eq)
    (hplain : ∀ v ∈ values, v.isPlain = true) (hv : IsExtreme wanted values v) :
    extreme wanted values = v := by
  have hall : (present values).all (fun other => compareValues other v != wanted) = true := by
    rw [List.all_eq_true]
    intro other hother
    simpa using hv.2 other hother
  cases hfind : (present values).find? fun v =>
      (present values).all fun other => compareValues other v != wanted with
  | none =>
    rw [List.find?_eq_none] at hfind
    exact absurd hall (hfind v hv.1)
  | some found =>
    have hfound := List.find?_some hfind
    rw [List.all_eq_true] at hfound
    have hextreme : IsExtreme wanted values found := by
      refine ⟨List.mem_of_find?_eq_some hfind, ?_⟩
      intro other hother
      simpa using hfound other hother
    rw [extreme, hfind, Option.getD_some]
    exact hextreme.eq hwanted hplain hv

/-- One of two extremes is the extreme of both lists. -/
theorem isExtreme_append {vs ws : List Json} {v w : Json} (hwanted : wanted ≠ .eq)
    (hplain : ∀ x ∈ vs ++ ws, x.isPlain = true) (hv : IsExtreme wanted vs v)
    (hw : IsExtreme wanted ws w) :
    IsExtreme wanted (vs ++ ws) (if compareValues w v = wanted then w else v) := by
  have hplainOf : ∀ x ∈ present vs ++ present ws, x.isPlain = true := by
    intro x hx
    rw [← present_append] at hx
    exact hplain x (List.mem_of_mem_filter hx)
  have hvp := hplainOf v (List.mem_append_left _ hv.1)
  have hwp := hplainOf w (List.mem_append_right _ hw.1)
  rw [IsExtreme, present_append]
  split
  · -- The new extreme is beyond the old one, and nothing before it was beyond that one.
    rename_i hwv
    refine ⟨List.mem_append_right _ hw.1, ?_⟩
    intro other hother hbeyond
    have hop := hplainOf other hother
    rcases List.mem_append.mp hother with hold | hnew
    · have hvw := compareValues_ne_of_eq hwanted hwp hvp hwv
      exact hv.2 other hold (compareValues_eq_trans hwanted hop hwp hvp hbeyond hvw)
    · exact hw.2 other hnew hbeyond
  · rename_i hwv
    refine ⟨List.mem_append_left _ hv.1, ?_⟩
    intro other hother hbeyond
    have hop := hplainOf other hother
    rcases List.mem_append.mp hother with hold | hnew
    · exact hv.2 other hold hbeyond
    · exact hw.2 other hnew (compareValues_eq_trans hwanted hop hvp hwp hbeyond hwv)

/-- The only value that is there is the extreme. -/
theorem isExtreme_of_present_eq {values : List Json} {v : Json} (hwanted : wanted ≠ .eq)
    (hplain : v.isPlain = true) (h : present values = [v]) : IsExtreme wanted values v := by
  rw [IsExtreme, h]
  refine ⟨List.mem_singleton_self v, ?_⟩
  intro other hother hself
  rw [List.mem_singleton.mp hother] at hself
  exact compareValues_ne_of_eq hwanted hplain hplain hself hself

/-- Values that are there have an extreme. -/
theorem exists_isExtreme {values : List Json} (hwanted : wanted ≠ .eq)
    (hplain : ∀ v ∈ values, v.isPlain = true) (hne : present values ≠ []) :
    ∃ v, IsExtreme wanted values v := by
  induction values with
  | nil => exact absurd rfl hne
  | cons v rest ih =>
    have hplain' := List.forall_mem_cons.mp hplain
    cases hnull : v.isNull with
    | true =>
      have hsame : present (v :: rest) = present rest := by simp [present, hnull]
      rw [hsame] at hne
      obtain ⟨w, hw⟩ := ih hplain'.2 hne
      refine ⟨w, ?_⟩
      rw [IsExtreme, hsame]
      exact hw
    | false =>
      have hsplit : present (v :: rest) = v :: present rest := by simp [present, hnull]
      have hone : present [v] = [v] := by simp [present, hnull]
      by_cases hrest : present rest = []
      · rw [hrest] at hsplit
        exact ⟨v, isExtreme_of_present_eq hwanted hplain'.1 hsplit⟩
      · obtain ⟨w, hw⟩ := ih hplain'.2 hrest
        exact ⟨_, isExtreme_append hwanted hplain
          (isExtreme_of_present_eq hwanted hplain'.1 hone) hw⟩

/-- Picking from the extremes of two lists finds the extreme of both together. -/
theorem pick_extreme {vs ws : List Json} (hwanted : wanted ≠ .eq)
    (hplain : ∀ x ∈ vs ++ ws, x.isPlain = true) :
    pick wanted (extreme wanted vs) (extreme wanted ws) = extreme wanted (vs ++ ws) := by
  by_cases hws : present ws = []
  · have hsame : present (vs ++ ws) = present vs := by rw [present_append, hws, List.append_nil]
    rw [extreme_of_present_eq_nil hws, extreme_congr hsame]
    rfl
  · obtain ⟨w, hw⟩ := exists_isExtreme hwanted
      (fun x hx => hplain x (List.mem_append_right _ hx)) hws
    have hwnull : w.isNull = false := by simpa using (List.mem_filter.mp hw.1).2
    rw [extreme_eq hwanted (fun x hx => hplain x (List.mem_append_right _ hx)) hw]
    by_cases hvs : present vs = []
    · have hsame : present (vs ++ ws) = present ws := by rw [present_append, hvs, List.nil_append]
      rw [extreme_of_present_eq_nil hvs, extreme_congr hsame,
        extreme_eq hwanted (fun x hx => hplain x (List.mem_append_right _ hx)) hw]
      rw [pick, hwnull]
      rfl
    · obtain ⟨v, hv⟩ := exists_isExtreme hwanted
        (fun x hx => hplain x (List.mem_append_left _ hx)) hvs
      have hvnull : v.isNull = false := by simpa using (List.mem_filter.mp hv.1).2
      rw [extreme_eq hwanted (fun x hx => hplain x (List.mem_append_left _ hx)) hv,
        extreme_eq hwanted hplain (isExtreme_append hwanted hplain hv hw)]
      simp [pick, hwnull, hvnull]

end Merge

end SqlFederation
