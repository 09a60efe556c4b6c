import SqlFederation.Proofs.Central
import SqlFederation.Proofs.DatabaseOrder
import SqlFederation.Proofs.FoldedRows
import SqlFederation.Proofs.Rounding

/-!
# Running totals

A sum is folded row by row. While 64 bits hold the running total it is an integer, and once they do
not it is a binary64 number, to which the other values are added as such: it is not an integer
again, even if the sum of all values is one of 64 bits (`Merge.Summed.addInt`,
`Merge.Summed.foldl`). It stays finite, whatever the number of rows, since next to a large number an
integer of 64 bits is too small to bring the total above it (`Binary64.magnitude_add_ofInt_le`).

So the sum of a group is the exact one if and only if all running totals fit, which depends on the
order of the rows (`Merge.mergeRows_sums`, `Merge.total_is_rounded`). They fit in every order
exactly if the sum of the positive values fits, and that of the negative ones
(`Merge.forall_totalsFit_iff`).
-/

namespace SqlFederation

namespace Merge

open Central (addValues_ofInt addValues_null_left addValues_null_right)

/-! ## Totals that fit -/

/-- Do 64 bits hold all running totals of some integers, which are added in their order? -/
def TotalsFit (values : List Int) : Prop :=
  ∀ front, front <+: values → fitsSigned front.sum = true

instance (values : List Int) : Decidable (TotalsFit values) :=
  decidable_of_iff (∀ front ∈ values.inits, fitsSigned front.sum = true)
    (forall_congr' fun front => imp_congr_left (List.mem_inits front values))

theorem TotalsFit.sum {values : List Int} (h : TotalsFit values) : fitsSigned values.sum = true :=
  h values List.prefix_rfl

theorem totalsFit_nil : TotalsFit [] := by decide

/-- One more value makes one more running total. -/
theorem totalsFit_concat {values : List Int} {k : Int} :
    TotalsFit (values ++ [k]) ↔ TotalsFit values ∧ fitsSigned (values.sum + k) = true := by
  have hsum : (values ++ [k]).sum = values.sum + k := by rw [List.sum_append, List.sum_singleton]
  constructor
  · intro h
    refine ⟨fun front hfront => h front (hfront.trans (List.prefix_append values [k])), ?_⟩
    rw [← hsum]
    exact h.sum
  · rintro ⟨hvalues, hlast⟩ front hfront
    obtain rfl | hfront := List.prefix_concat_iff.mp hfront
    · rwa [hsum]
    · exact hvalues front hfront

theorem sum_filter_cons (keep : Int → Bool) (k : Int) (values : List Int) :
    ((k :: values).filter keep).sum = (if keep k then k else 0) + (values.filter keep).sum := by
  cases h : keep k with
  | true => rw [List.filter_cons_of_pos h, List.sum_cons]; rfl
  | false => rw [List.filter_cons_of_neg (ne_true_of_eq_false h)]; exact (Int.zero_add _).symm

/-- The sum of some of the values is between those of the negative and of the positive ones. -/
theorem sum_bounds_of_sublist {part values : List Int} (h : part.Sublist values) :
    (values.filter (· < 0)).sum ≤ part.sum ∧ part.sum ≤ (values.filter (0 < ·)).sum := by
  induction h with
  | slnil => exact ⟨le_refl _, le_refl _⟩
  | cons k _ ih =>
    simp only [sum_filter_cons, decide_eq_true_eq]
    split <;> split <;> omega
  | cons_cons k _ ih =>
    simp only [sum_filter_cons, List.sum_cons, decide_eq_true_eq]
    split <;> split <;> omega

/-! ## The fold of a sum -/

/-- What can be held of some integers that have been added up in their order. -/
inductive Summed : List Int → Json → Prop
  | nothing : Summed [] .null
  | exact {values : List Int} (hsome : values ≠ []) (hfit : TotalsFit values) :
      Summed values (.ofInt values.sum)
  | rounded {values : List Int} {x : Binary64} (hover : ¬TotalsFit values)
      (hbound : x.magnitude ≤ Binary64.absorbing) : Summed values (.num (.real x))

theorem natAbs_le_of_fitsSigned {k : Int} (h : fitsSigned k = true) :
    k.natAbs ≤ 9223372036854775808 := by
  have hbounds := of_decide_eq_true h
  omega

/-- An integer of 64 bits is added to a binary64 number. -/
theorem exists_ofReal_add {x : Binary64} (hx : x.magnitude ≤ Binary64.absorbing) {k : Int}
    (hk : fitsSigned k = true) :
    ∃ y, Json.ofReal (x.add (Binary64.ofInt k)) = .num (.real y) ∧
      y.magnitude ≤ Binary64.absorbing := by
  have hsum := Binary64.magnitude_add_ofInt_le hx (natAbs_le_of_fitsSigned hk)
  have hfinite : (x.add (Binary64.ofInt k)).isFinite = true :=
    (Binary64.isFinite_iff _).mpr (hsum.trans_lt (by decide))
  exact ⟨_, if_pos hfinite, hsum⟩

/-- Integers whose sum does not fit are added as binary64 numbers. -/
theorem addValues_of_not_fits {a b : Int} (ha : fitsSigned a = true) (hb : fitsSigned b = true)
    (hab : fitsSigned (a + b) = false) :
    addValues (.ofInt a) (.ofInt b) = .ofReal ((Binary64.ofInt a).add (Binary64.ofInt b)) := by
  simp only [addValues, Json.ofInt, Json.asInt?, Number.asInt?, ha, hb, hab, if_true,
    Bool.false_eq_true, if_false]

/-- Adding an integer keeps an exact total while it fits, and rounds it from then on. -/
theorem Summed.addInt {values : List Int} {held : Json} (h : Summed values held) {k : Int}
    (hk : fitsSigned k = true) : Summed (values ++ [k]) (addValues held (.ofInt k)) := by
  have hsome : values ++ [k] ≠ [] := List.append_ne_nil_of_right_ne_nil _ (List.cons_ne_nil k [])
  cases h with
  | nothing =>
    have hfit : TotalsFit ([] ++ [k]) :=
      totalsFit_concat.mpr ⟨totalsFit_nil, (congrArg fitsSigned (Int.zero_add k)).trans hk⟩
    have htotal := Summed.exact hsome hfit
    rw [addValues_null_left]
    rwa [List.nil_append, List.sum_singleton] at htotal
  | exact _ hfit =>
    cases hnext : fitsSigned (values.sum + k) with
    | true =>
      have htotal := Summed.exact hsome (totalsFit_concat.mpr ⟨hfit, hnext⟩)
      rw [addValues_ofInt hfit.sum hk hnext]
      rwa [List.sum_append, List.sum_singleton] at htotal
    | false =>
      have hover : ¬TotalsFit (values ++ [k]) := by
        rw [totalsFit_concat, hnext]
        exact fun hall => Bool.false_ne_true hall.2
      have hstart := Binary64.magnitude_ofInt_le (natAbs_le_of_fitsSigned hfit.sum)
      obtain ⟨y, hy, hbound⟩ := exists_ofReal_add (hstart.trans (by decide)) hk
      rw [addValues_of_not_fits hfit.sum hk hnext, hy]
      exact Summed.rounded hover hbound
  | rounded hover hbound =>
    -- A binary64 number stays one, also where the exact total fits again.
    obtain ⟨y, hy, hbound⟩ := exists_ofReal_add hbound hk
    rw [show addValues (.num (.real _)) (.ofInt k) = .num (.real y) from hy]
    exact Summed.rounded (fun hall => hover (totalsFit_concat.mp hall).1) hbound

/-- Adding null or an integer; null changes nothing. -/
theorem Summed.add {values : List Int} {held value : Json} (h : Summed values held)
    (hvalue : value.isWhole = true) :
    Summed (values ++ value.asInt?.toList) (addValues held value) := by
  obtain rfl | ⟨_, rfl⟩ | ⟨k, rfl, hk⟩ | ⟨_, rfl⟩ :=
    Json.isPlain_cases (isPlain_of_isWhole hvalue)
  · rw [addValues_null_right]
    show Summed (values ++ []) held
    rwa [List.append_nil]
  · cases hvalue
  · have hint : (Json.ofInt k).asInt? = some k := if_pos hk
    rw [hint, Option.toList_some]
    exact h.addInt hk
  · cases hvalue

/-- Adding up values one after the other. -/
theorem Summed.foldl {values : List Int} {held : Json} (h : Summed values held) {added : List Json}
    (hadded : ∀ value ∈ added, value.isWhole = true) :
    Summed (values ++ added.filterMap Json.asInt?) (added.foldl addValues held) := by
  induction added generalizing values held with
  | nil => rwa [List.filterMap_nil, List.append_nil]
  | cons value rest ih =>
    obtain ⟨hvalue, hrest⟩ := List.forall_mem_cons.mp hadded
    rw [List.filterMap_eq_flatMap_toList, List.flatMap_cons, ← List.filterMap_eq_flatMap_toList,
      ← List.append_assoc]
    exact ih (h.add hvalue) hrest

/-- What is held of some integers is their sum if and only if the running totals fit. -/
theorem Summed.eq_ofInt_iff {values : List Int} {held : Json} (h : Summed values held)
    (hsome : values ≠ []) : held = .ofInt values.sum ↔ TotalsFit values := by
  cases h with
  | nothing => exact absurd rfl hsome
  | exact _ hfit => exact iff_of_true rfl hfit
  | rounded hover _ => exact iff_of_false (fun heq => by cases heq) hover

/-- Else it is a binary64 number. -/
theorem Summed.exists_real {values : List Int} {held : Json} (h : Summed values held)
    (hover : ¬TotalsFit values) : ∃ x, held = .num (.real x) := by
  cases h with
  | nothing => exact absurd totalsFit_nil hover
  | exact _ hfit => exact absurd hfit hover
  | rounded _ _ => exact ⟨_, rfl⟩

/-! ## The sum of a group -/

/-- The integers in a column of some rows; nulls are none. -/
def integersAt (column : String) (rows : List Row) : List Int :=
  rows.filterMap fun row => (row.value column).asInt?

theorem integersAt_perm (column : String) {order rows : List Row} (h : order.Perm rows) :
    (integersAt column order).Perm (integersAt column rows) :=
  h.filterMap _

/-- The rows of some of the integers. -/
theorem integersAt_filter (keep : Int → Bool) (column : String) (rows : List Row) :
    integersAt column (rows.filter fun row => (row.value column).asInt?.any keep) =
      (integersAt column rows).filter keep := by
  rw [integersAt, integersAt, List.filterMap_filter, List.filter_filterMap]
  refine List.filterMap_congr fun row _ => ?_
  cases (row.value column).asInt? with
  | none => rfl
  | some k => rfl

/-- If the running totals fit in every order of the rows, the sum of some of the values fits. -/
theorem fitsSigned_sum_filter {column : String} {rows : List Row}
    (h : ∀ order, order.Perm rows → TotalsFit (integersAt column order)) (keep : Int → Bool) :
    fitsSigned ((integersAt column rows).filter keep).sum = true := by
  -- The rows of these values go first.
  have hfit := h _ (List.filter_append_perm
    (fun row => (row.value column).asInt?.any keep) rows)
  have hfront : integersAt column (rows.filter fun row => (row.value column).asInt?.any keep) <+:
      integersAt column ((rows.filter fun row => (row.value column).asInt?.any keep) ++
        rows.filter fun row => !(row.value column).asInt?.any keep) := by
    rw [integersAt, integersAt, List.filterMap_append]
    exact List.prefix_append _ _
  rw [← integersAt_filter]
  exact hfit _ hfront

/--
The running totals fit in every order of the rows if and only if the sum of the positive values
fits, and that of the negative ones.
-/
theorem forall_totalsFit_iff (column : String) (rows : List Row) :
    (∀ order, order.Perm rows → TotalsFit (integersAt column order)) ↔
      fitsSigned ((integersAt column rows).filter (0 < ·)).sum = true ∧
        fitsSigned ((integersAt column rows).filter (· < 0)).sum = true := by
  constructor
  · exact fun h => ⟨fitsSigned_sum_filter h _, fitsSigned_sum_filter h _⟩
  · rintro ⟨hpositive, hnegative⟩ order horder front hfront
    have hbounds := sum_bounds_of_sublist hfront.sublist
    have hperm := integersAt_perm column horder
    rw [(hperm.filter _).sum_eq, (hperm.filter _).sum_eq] at hbounds
    have hupper := of_decide_eq_true hpositive
    have hlower := of_decide_eq_true hnegative
    exact decide_eq_true ⟨hlower.1.trans hbounds.1, hbounds.2.trans hupper.2⟩

/-- What one function alone folds of an output is in its column, unless that is a hidden count. -/
theorem get?_foldl_settle_self {aggs : List (String × Aggregate)} {name : String}
    {function : Aggregate} (hne : function ≠ .avg) (hmem : (name, function) ∈ aggs)
    (hapart : ∀ a ∈ aggs, (a.1 = name → a.2 = function) ∧
      (a.2 = .avg → name ≠ hiddenCount a.1))
    (value : String × Aggregate → Json) {row : Row} (hrow : row.columns.Nodup) :
    (aggs.foldl (fun row a => settle row a.1 a.2 (value a)) row).get? name =
      some (value (name, function)) := by
  induction aggs generalizing row with
  | nil => exact absurd hmem List.not_mem_nil
  | cons a rest ih =>
    obtain ⟨-, hrest⟩ := List.forall_mem_cons.mp hapart
    have hsettled := nodup_columns_settle hrow a.1 a.2 (value a)
    rw [List.foldl_cons]
    by_cases hlast : (name, function) ∈ rest
    · exact ih hlast hrest hsettled
    · -- What is settled behind the last output of this name leaves its column.
      have hkept : ∀ b ∈ rest, name ≠ b.1 ∧ (b.2 = .avg → name ≠ hiddenCount b.1) := by
        refine fun b hb => ⟨fun hname => hlast ?_, (hrest b hb).2⟩
        rw [show (name, function) = b from Prod.ext hname ((hrest b hb).1 hname.symm).symm]
        exact hb
      obtain rfl : (name, function) = a := (List.mem_cons.mp hmem).resolve_right hlast
      rw [get?_foldl_settle hkept value hsettled]
      cases function with
      | avg => exact absurd rfl hne
      | _ => exact Row.get?_insert_self _ _ _

/-- Rows of one group are folded to one row. -/
theorem foldGroups_of_one_group {select : Select} {rows : List Row} (hsome : rows ≠ [])
    (hgroup : ∀ one ∈ rows, ∀ other ∈ rows, groupKey select one = groupKey select other) :
    foldGroups select rows = [foldedRow select rows] := by
  obtain ⟨head, tail, rfl⟩ := List.exists_cons_of_ne_nil hsome
  have hhead : ∀ row ∈ head :: tail, groupKey select row = groupKey select head :=
    fun row hrow => hgroup row hrow head List.mem_cons_self
  have hkeys : ((head :: tail).map (groupKey select)).eraseDups = [groupKey select head] := by
    have hothers : ((tail.map (groupKey select)).filter fun key => !key == groupKey select head) =
        [] := by
      rw [List.filter_eq_nil_iff]
      intro key hkey
      obtain ⟨row, hrow, rfl⟩ := List.mem_map.mp hkey
      simp [hhead row (List.mem_cons_of_mem head hrow)]
    rw [List.map_cons, List.eraseDups_cons, hothers, List.eraseDups_nil]
  have hall : ((head :: tail).filter fun row =>
      decide (groupKey select row = groupKey select head)) = head :: tail :=
    List.filter_eq_self.mpr fun row hrow => decide_eq_true (hhead row hrow)
  rw [foldGroups_eq_map_foldedRow, hkeys, List.map_singleton, hall]

/--
An accepted read with a sum whose name is no other aggregate's, nor that of the hidden count of an
average.
-/
structure SumsApart (select : Select) (name : String) : Prop where
  accepted : checkGrouping select = .ok ()
  summed : ∃ output ∈ select.outputs, output.name = name ∧ output.function? = some .sum
  apart : ∀ a ∈ aggregates select, (a.1 = name → a.2 = .sum) ∧
    (a.2 = .avg → name ≠ hiddenCount a.1)

/-- Rows of one group, with null or an integer in a column, not all null. -/
structure OneGroup (select : Select) (column : String) (rows : List Row) : Prop where
  columns : ∀ row ∈ rows, row.columns.Nodup
  group : ∀ one ∈ rows, ∀ other ∈ rows, groupKey select one = groupKey select other
  whole : ∀ row ∈ rows, (row.value column).isWhole = true
  some : integersAt column rows ≠ []

variable {select : Select} {name : String}

theorem SumsApart.mem_aggregates (h : SumsApart select name) :
    (name, Aggregate.sum) ∈ aggregates select := by
  obtain ⟨output, hmem, rfl, hsum⟩ := h.summed
  exact List.mem_filterMap.mpr ⟨output, hmem, by rw [hsum]; rfl⟩

theorem SumsApart.isGrouped (h : SumsApart select name) : select.isGrouped = true := by
  obtain ⟨output, hmem, -, hsum⟩ := h.summed
  have haggregates : select.hasAggregates = true :=
    List.any_eq_true.mpr ⟨output, hmem, by rw [hsum]; rfl⟩
  rw [Select.isGrouped, haggregates, Bool.true_or]

/-- The order of the rows does not matter for what they are. -/
theorem OneGroup.perm {column : String} {order rows : List Row}
    (h : OneGroup select column rows) (horder : order.Perm rows) :
    OneGroup select column order where
  columns row hrow := h.columns row (horder.subset hrow)
  group one hone other hother := h.group one (horder.subset hone) other (horder.subset hother)
  whole row hrow := h.whole row (horder.subset hrow)
  some hnil := h.some (by
    have hperm := integersAt_perm column horder
    rw [hnil] at hperm
    exact hperm.nil_eq.symm)

/-- What is folded of a sum has been added up in the order of the rows. -/
theorem summed_foldedValue {head : Row} {tail : List Row}
    (hwhole : ∀ row ∈ head :: tail, (row.value name).isWhole = true) :
    Summed (integersAt name (head :: tail)) (foldedValue name .sum head tail) := by
  have hvalues : ∀ value ∈ (head :: tail).map fun row => row.value name, value.isWhole = true :=
    List.forall_mem_map.mpr hwhole
  have hrun := Summed.nothing.foldl hvalues
  rw [List.nil_append, List.filterMap_map, List.map_cons, List.foldl_cons, addValues_null_left,
    List.foldl_map] at hrun
  rw [foldedValue, finish_foldl_fold (by decide)]
  exact hrun

/-- In the row of a group, the column of a sum has what has been added up. -/
theorem summed_foldedRow (h : SumsApart select name) {rows : List Row}
    (hrows : OneGroup select name rows) :
    Summed (integersAt name rows) ((foldedRow select rows).value name) := by
  cases rows with
  | nil => exact absurd rfl hrows.some
  | cons head tail =>
    have hsettled := get?_foldl_settle_self (by decide) h.mem_aggregates h.apart
      (fun a => foldedValue a.1 a.2 head tail) (hrows.columns head List.mem_cons_self)
    have hvalue : (foldedRow select (head :: tail)).value name =
        foldedValue name .sum head tail := by
      rw [Row.value, foldedRow, hsettled]
      rfl
    rw [hvalue]
    exact summed_foldedValue hrows.whole

/--
Rows of one group are merged to one row, of which the page is cut, in whatever order they come. Its
sum is the integer that is the sum of their values if and only if 64 bits hold all running totals in
this order, and a binary64 number else. The totals fit in every order exactly if the sum of the
positive values fits, and that of the negative ones.
-/
theorem mergeRows_sums (h : SumsApart select name) {rows : List Row}
    (hrows : OneGroup select name rows) :
    (∀ order, order.Perm rows → ∃ row,
      mergeRows select order = .ok (paginate select.limit select.offset [row]) ∧
      (row.value name = .ofInt (integersAt name rows).sum ↔ TotalsFit (integersAt name order)) ∧
      (¬TotalsFit (integersAt name order) → ∃ x, row.value name = .num (.real x))) ∧
    ((∀ order, order.Perm rows → TotalsFit (integersAt name order)) ↔
      fitsSigned ((integersAt name rows).filter (0 < ·)).sum = true ∧
        fitsSigned ((integersAt name rows).filter (· < 0)).sum = true) := by
  refine ⟨fun order horder => ?_, forall_totalsFit_iff name rows⟩
  have hordered := hrows.perm horder
  have hsummed := summed_foldedRow h hordered
  have hsome : order ≠ [] := by
    rintro rfl
    exact hordered.some rfl
  refine ⟨foldedRow select order, ?_, ?_, hsummed.exists_real⟩
  · rw [mergeRows_of_grouped h.isGrouped h.accepted, foldGroups_of_one_group hsome hordered.group,
      sortRows, List.mergeSort_singleton]
  · rw [← (integersAt_perm name horder).sum_eq]
    exact hsummed.eq_ofInt_iff hordered.some

/-- The total of each town. -/
def totalByTown : Select where
  table := "orders"
  outputs := [.ofColumn (.bare "town"), .ofAggregate .sum (some (.bare "amount")) "total"]
  predicate := none
  groupBy := [.bare "town"]
  orderBy := []
  limit := none
  offset := none

/-- The total of the orders of one shard. -/
def townTotal (total : Json) : Row :=
  ⟨[("town", .str "york"), ("total", total)]⟩

/-- The totals of four shards, one of which is the greatest integer of 64 bits. -/
def townTotals : List Row :=
  [townTotal (.ofInt 9223372036854775807), townTotal (.ofInt (-1)), townTotal .null,
    townTotal (.ofInt 1)]

/-- The same totals in another order, in which the greatest integer is added to a positive one. -/
def townTotalsAgain : List Row :=
  [townTotal (.ofInt 1), townTotal .null, townTotal (.ofInt 9223372036854775807),
    townTotal (.ofInt (-1))]

/-- The sum is exact in the one order and not in the other one. -/
theorem mergeRows_sums_townTotals :
    SumsApart totalByTown "total" ∧ OneGroup totalByTown "total" townTotals ∧
    (∃ row, mergeRows totalByTown townTotals = .ok [row] ∧
      row.value "total" = .ofInt 9223372036854775807) ∧
    (∃ row x, mergeRows totalByTown townTotalsAgain = .ok [row] ∧
      row.value "total" = .num (.real x)) ∧
    ¬∀ order, order.Perm townTotals → TotalsFit (integersAt "total" order) := by
  have hsums : SumsApart totalByTown "total" :=
    ⟨rfl, ⟨_, List.mem_cons_of_mem _ List.mem_cons_self, rfl, rfl⟩, by decide⟩
  have hrows : OneGroup totalByTown "total" townTotals :=
    ⟨by decide, by decide, by decide, by decide⟩
  obtain ⟨hmerged, hall⟩ := mergeRows_sums hsums hrows
  refine ⟨hsums, hrows, ?_, ?_, ?_⟩
  · obtain ⟨row, hrow, hexact, -⟩ := hmerged townTotals (List.Perm.refl _)
    exact ⟨row, hrow, hexact.mpr (by decide)⟩
  · obtain ⟨row, hrow, -, hrounded⟩ := hmerged townTotalsAgain (by decide)
    obtain ⟨x, hx⟩ := hrounded (by decide)
    exact ⟨row, x, hrow, hx⟩
  · rw [hall]
    decide

/-- A read of all orders together. -/
def ofOrders (outputs : List Output) : Select where
  table := "orders"
  outputs := outputs
  predicate := none
  groupBy := []
  orderBy := []
  limit := none
  offset := none

/-- The total of all orders. -/
def total : Output :=
  .ofAggregate .sum (some (.bare "amount")) "total"

/--
A sum of integers of 64 bits that is one itself is rounded, where the first two values do not fit
together. A sum is lost behind another aggregate of its name, and refused beside a column that is
not grouped by.
-/
theorem total_is_rounded :
    (integersAt "total" [⟨[("total", .ofInt 9223372036854775807)]⟩, ⟨[("total", .ofInt 1)]⟩,
      ⟨[("total", .ofInt (-1))]⟩]).sum = 9223372036854775807 ∧
    mergeRows (ofOrders [total]) [⟨[("total", .ofInt 9223372036854775807)]⟩,
      ⟨[("total", .ofInt 1)]⟩, ⟨[("total", .ofInt (-1))]⟩] =
        .ok [⟨[("total", .num (.real ⟨0x43E0000000000000⟩))]⟩] ∧
    mergeRows (ofOrders [total, .ofAggregate .min (some (.bare "amount")) "total"])
      [⟨[("total", .ofInt 1)]⟩, ⟨[("total", .ofInt 2)]⟩] = .ok [⟨[("total", .ofInt 1)]⟩] ∧
    mergeRows (ofOrders [.ofColumn (.bare "town"), total])
      [townTotal (.ofInt 1), townTotal (.ofInt 2)] =
        .error (.grouping (.neitherGroupedNorAggregated "town" "orders")) := by
  refine ⟨rfl, ?_, rfl, rfl⟩
  have hrounded : addValues (addValues (.ofInt 9223372036854775807) (.ofInt 1)) (.ofInt (-1)) =
      .num (.real ⟨0x43E0000000000000⟩) := by decide +kernel
  exact congrArg (fun value => Except.ok [Row.mk [("total", value)]]) hrounded

end Merge

end SqlFederation
