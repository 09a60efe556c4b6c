import SqlFederation.Proofs.Extreme
import SqlFederation.Proofs.Groups

/-!
# Aggregation in one place

The answer to a grouped read over rows that are all in one place: the groups in the order in which
they first appear, and for each of them one row of its values (`Central.answer`). An aggregate of a
group is a function of the values of its members (`Central.combine`). What `Merge` folds of the
aggregates of some parts is the aggregate of the parts together: first of two parts
(`Central.mergeValues_combine`), then of any number (`Central.foldl_mergeValues`), as long as the
values can be aggregated at all (`Central.Combinable`).
-/

namespace SqlFederation

namespace Central

open Merge (present extreme addValues mergeValues)

/-- The sum of the integers of some values. -/
def total (values : List Json) : Int :=
  values.foldr (fun value sum => value.asInt?.getD 0 + sum) 0

/-- An aggregate of some values; nulls are not there. Averages are not made here. -/
def combine (function : Aggregate) (values : List Json) : Json :=
  match function with
  | .count => .ofNat (present values).length
  | .sum => if (present values).isEmpty then .null else .ofInt (total values)
  | .min => extreme .lt values
  | .max => extreme .gt values
  | .avg => .null

/-- The group values of a row. -/
def tuple (select : Select) (row : Row) : List Json :=
  select.groupBy.map fun column => row.value column.name

/--
The groups of some rows in the order in which they first appear. Without group columns there is
exactly one group, even of no rows.
-/
def tuples (select : Select) (rows : List Row) : List (List Json) :=
  if select.groupBy.isEmpty then [[]] else (rows.map (tuple select)).eraseDups

/-- The rows of a group. -/
def members (select : Select) (rows : List Row) (key : List Json) : List Row :=
  rows.filter fun row => decide (tuple select row = key)

/-- The value of an output for a group: that of its first row, or an aggregate over its rows. -/
def outputValue (group : List Row) (output : Output) : Json :=
  match output.expression with
  | .column column => (group.head?.map fun row => row.value column.name).getD .null
  | .aggregate function (some column) =>
    combine function (group.map fun row => row.value column.name)
  | .aggregate _ none => .ofNat group.length

/-- The row of a group. -/
def row (select : Select) (group : List Row) : Row :=
  ⟨select.outputs.map fun output => (output.name, outputValue group output)⟩

/-- The answer to a grouped read: one row for each group. -/
def answer (select : Select) (rows : List Row) : List Row :=
  (tuples select rows).map fun key => row select (members select rows key)

/-! ## Aggregates of parts -/

/--
Can some values be aggregated? Counts and sums have to fit 64 bits, the sums of some of the values
as well as of all, and extremes need values in an order.
-/
def Combinable (function : Aggregate) (values : List Json) : Prop :=
  match function with
  | .count => fitsSigned values.length = true
  | .sum => (∀ v ∈ values, v = .null ∨ ∃ k, v.asInt? = some k) ∧
      ∀ part : List Json, part.Sublist values → fitsSigned (total part) = true
  | .min | .max => ∀ v ∈ values, v.isPlain = true
  | .avg => False

/-- A count fits when a larger one does. -/
theorem fitsSigned_of_le {n m : Nat} (hle : n ≤ m) (h : fitsSigned m = true) :
    fitsSigned n = true := by
  rw [fitsSigned, decide_eq_true_iff] at h ⊢
  omega

/-- What can be aggregated can be aggregated in part. -/
theorem Combinable.sublist {function : Aggregate} {part values : List Json}
    (h : Combinable function values) (hsub : part.Sublist values) : Combinable function part := by
  cases function with
  | count => exact fitsSigned_of_le hsub.length_le h
  | sum =>
    exact ⟨fun v hv => h.1 v (hsub.subset hv), fun p hp => h.2 p (hp.trans hsub)⟩
  | min => exact fun v hv => h v (hsub.subset hv)
  | max => exact fun v hv => h v (hsub.subset hv)
  | avg => exact h

theorem total_append (vs ws : List Json) : total (vs ++ ws) = total vs + total ws := by
  induction vs with
  | nil => exact (Int.zero_add _).symm
  | cons v rest ih =>
    show v.asInt?.getD 0 + total (rest ++ ws) = (v.asInt?.getD 0 + total rest) + total ws
    rw [ih, Int.add_assoc]

/-- Nulls add nothing. -/
theorem total_of_present_eq_nil {values : List Json} (h : present values = []) :
    total values = 0 := by
  induction values with
  | nil => rfl
  | cons v rest ih =>
    cases v with
    | null => exact (Int.zero_add _).trans (ih h)
    | _ => cases h

/-- Integers that fit are added as integers. -/
theorem addValues_ofInt {a b : Int} (ha : fitsSigned a = true) (hb : fitsSigned b = true)
    (hab : fitsSigned (a + b) = true) : addValues (.ofInt a) (.ofInt b) = .ofInt (a + b) := by
  simp only [addValues, Json.ofInt, Json.asInt?, Number.asInt?, ha, hb, hab, if_true]

theorem addValues_null_left (value : Json) : addValues .null value = value := by
  rw [addValues]

theorem addValues_null_right (value : Json) : addValues value .null = value := by
  cases value with
  | null => rfl
  | _ => rw [addValues]; exact fun h => by cases h

/-- The merged aggregates of two parts are the aggregate of both together. -/
theorem mergeValues_combine {function : Aggregate} {vs ws : List Json}
    (h : Combinable function (vs ++ ws)) :
    mergeValues function (combine function vs) (combine function ws) =
      combine function (vs ++ ws) := by
  cases function with
  | min => exact Merge.pick_extreme (by decide) h
  | max => exact Merge.pick_extreme (by decide) h
  | avg => exact h.elim
  | count =>
    have hlength : (present (vs ++ ws)).length = (present vs).length + (present ws).length := by
      rw [Merge.present_append, List.length_append]
    have hsize : fitsSigned (present (vs ++ ws)).length = true :=
      fitsSigned_of_le List.filter_sublist.length_le h
    rw [hlength] at hsize
    have hvs := fitsSigned_of_le (Nat.le_add_right _ _) hsize
    have hws := fitsSigned_of_le (Nat.le_add_left _ _) hsize
    rw [Int.natCast_add] at hsize
    have hadd := addValues_ofInt hvs hws hsize
    show addValues (.ofInt (present vs).length) (.ofInt (present ws).length) =
      .ofInt (present (vs ++ ws)).length
    rw [hadd, hlength, Int.natCast_add]
  | sum =>
    have hpresent := Merge.present_append vs ws
    have htotal := total_append vs ws
    -- A part without summands sums to null, which adds nothing to the other part.
    by_cases hvs : present vs = []
    · rw [hvs, List.nil_append] at hpresent
      rw [total_of_present_eq_nil hvs, Int.zero_add] at htotal
      simp only [mergeValues, combine, hvs, hpresent, htotal, List.isEmpty_nil, if_true,
        addValues_null_left]
    · by_cases hws : present ws = []
      · rw [hws, List.append_nil] at hpresent
        rw [total_of_present_eq_nil hws, Int.add_zero] at htotal
        simp only [mergeValues, combine, hws, hpresent, htotal, List.isEmpty_nil, if_true,
          addValues_null_right]
      · have hboth : present (vs ++ ws) ≠ [] := by
          rw [hpresent]
          exact fun hnil => hvs (List.append_eq_nil_iff.mp hnil).1
        have hfits := h.2 (vs ++ ws) (List.Sublist.refl _)
        rw [htotal] at hfits
        simp only [mergeValues, combine, List.isEmpty_iff, hvs, hws, hboth, if_false, htotal]
        exact addValues_ofInt (h.2 vs (List.sublist_append_left vs ws))
          (h.2 ws (List.sublist_append_right vs ws)) hfits

/-- The merged aggregates of some parts are the aggregate of all of them together. -/
theorem foldl_mergeValues {function : Aggregate} {head : List Json} {parts : List (List Json)}
    (h : Combinable function (head ++ parts.flatten)) :
    parts.foldl (fun held values => mergeValues function held (combine function values))
      (combine function head) = combine function (head ++ parts.flatten) := by
  induction parts generalizing head with
  | nil => rw [List.flatten_nil, List.append_nil]; rfl
  | cons values rest ih =>
    rw [List.flatten_cons, ← List.append_assoc] at h
    have hpair := h.sublist (List.sublist_append_left (head ++ values) rest.flatten)
    rw [List.foldl_cons, mergeValues_combine hpair, ih h, List.flatten_cons, List.append_assoc]

end Central

end SqlFederation
