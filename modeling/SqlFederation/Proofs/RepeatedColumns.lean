import SqlFederation.Proofs.CarriedOrder
import SqlFederation.Proofs.Paging

/-!
# Columns that are selected again

A grouped read of aggregates and of its group columns (`Select.GroupsItsColumns`) is checked by the
names of its outputs. A group column goes by the name of the first output that is this column
(`Select.resultName_of_filter`), so that output is found among the group names, and an output that
is the same column again, under another name, is not (`Merge.isStray_iff`). Such a read is refused
exactly if a column is selected again (`Merge.mergeRows_refuses_repeats`), though every output is a
group column or aggregated (`Merge.squad_is_refused`).
-/

namespace SqlFederation

namespace Select

/-- A read of aggregates and of all of its group columns, under distinct names. -/
structure GroupsItsColumns (select : Select) : Prop where
  /-- What is not aggregated is a group column. -/
  columns : ∀ output ∈ select.outputs, output.function? = none →
    ∃ group ∈ select.groupBy, selects group output = true
  /-- Group columns are selected; no outputs stand for all columns. -/
  selected : select.outputs = [] ∨
    ∀ group ∈ select.groupBy, ∃ output ∈ select.outputs, selects group output = true
  names : (select.outputs.map Output.name).Nodup

/-- Is an output a column that one of some outputs is as well? -/
def RepeatsOneOf (outputs : List Output) (output : Output) : Prop :=
  ∃ earlier ∈ outputs, ∃ column, selects column earlier = true ∧ selects column output = true

/-- Is an output a column that an output in front of it is already? -/
def Repeats (select : Select) (output : Output) : Prop :=
  ∃ front back, select.outputs = front ++ output :: back ∧ RepeatsOneOf front output

/-- Outputs that are one column are so for every reference to it. -/
theorem selects_of_selects {column other : ColumnRef} {one two : Output}
    (hone : selects column one = true) (htwo : selects column two = true)
    (h : selects other two = true) : selects other one = true := by
  obtain ⟨expression, label⟩ := one
  obtain ⟨expression', label'⟩ := two
  cases expression with
  | aggregate function argument => cases hone
  | column selected =>
    cases expression' with
    | aggregate function argument => cases htwo
    | column selected' =>
      have hname := (of_decide_eq_true hone).trans (of_decide_eq_true htwo).symm
      exact decide_eq_true (hname.trans (of_decide_eq_true h))

/-- A column is no aggregate. -/
theorem function?_of_selects {column : ColumnRef} {output : Output}
    (h : selects column output = true) : output.function? = none := by
  obtain ⟨expression, label⟩ := output
  cases expression with
  | aggregate function argument => cases h
  | column selected => rfl

end Select

namespace Merge

open Select (selects)

variable {select : Select}

/-- The name of a column is a group name, unless the column is selected again by it. -/
theorem name_mem_groupNames_iff (h : select.GroupsItsColumns) {front back : List Output}
    {output : Output} (hsplit : select.outputs = front ++ output :: back)
    (hcolumn : output.function? = none) :
    output.name ∈ select.groupNames ↔ ¬Select.RepeatsOneOf front output := by
  have hmem : output ∈ select.outputs := by
    rw [hsplit]
    exact List.mem_append_right _ List.mem_cons_self
  have hfilter : ∀ column, select.outputs.filter (selects column) =
      front.filter (selects column) ++ (output :: back).filter (selects column) := fun column => by
    rw [hsplit, List.filter_append]
  constructor
  · rintro hname ⟨earlier, hearlier, column, hfirst, hagain⟩
    obtain ⟨group, hgroup, hname⟩ := List.mem_map.mp hname
    obtain ⟨other, hother, hselects⟩ :=
      h.selected.resolve_left (List.ne_nil_of_mem hmem) group hgroup
    -- The group goes by the first output that is its column, which is not in front of this one.
    cases hgroups : select.outputs.filter (selects group) with
    | nil => exact absurd hselects (List.filter_eq_nil_iff.mp hgroups other hother)
    | cons head rest =>
      have hhead : head ∈ select.outputs.filter (selects group) := hgroups ▸ List.mem_cons_self
      obtain ⟨hheadMem, hheadSelects⟩ := List.mem_filter.mp hhead
      have hsame : head = output := by
        refine List.inj_on_of_nodup_map h.names hheadMem hmem ?_
        rw [← Select.resultName_of_filter hgroups, hname]
      have hearlierSelects : selects group earlier = true :=
        Select.selects_of_selects hfirst hagain (hsame ▸ hheadSelects)
      have hfront : earlier ∈ front.filter (selects group) :=
        List.mem_filter.mpr ⟨hearlier, hearlierSelects⟩
      obtain ⟨first, others, hothers⟩ := List.exists_cons_of_ne_nil (List.ne_nil_of_mem hfront)
      rw [hfilter, hothers, List.cons_append, List.cons.injEq] at hgroups
      have hin : output ∈ front := by
        have hfirstMem : first ∈ front.filter (selects group) := hothers ▸ List.mem_cons_self
        rw [← hsame, ← hgroups.1]
        exact List.mem_of_mem_filter hfirstMem
      have hnames := h.names
      rw [hsplit] at hnames
      exact (List.nodup_append.mp hnames.of_map).2.2 output hin output List.mem_cons_self rfl
  · intro hnone
    obtain ⟨group, hgroup, hselects⟩ := h.columns output hmem hcolumn
    have hfront : front.filter (selects group) = [] := by
      rw [List.filter_eq_nil_iff]
      exact fun earlier hearlier hsel => hnone ⟨earlier, hearlier, group, hsel, hselects⟩
    have hgroups : select.outputs.filter (selects group) =
        output :: back.filter (selects group) := by
      rw [hfilter, hfront, List.filter_cons_of_pos hselects, List.nil_append]
    rw [← Select.resultName_of_filter hgroups]
    exact List.mem_map_of_mem hgroup

/-- What is taken for neither grouped nor aggregated is a column that is selected again. -/
theorem isStray_iff (h : select.GroupsItsColumns) {front back : List Output} {output : Output}
    (hsplit : select.outputs = front ++ output :: back) :
    (output.function?.isNone && !select.groupNames.contains output.name) = true ↔
      Select.RepeatsOneOf front output := by
  constructor
  · intro hstray
    rw [Bool.and_eq_true, Option.isNone_iff_eq_none] at hstray
    obtain ⟨hcolumn, hname⟩ := hstray
    have hnotMem : output.name ∉ select.groupNames := by simpa using hname
    rwa [name_mem_groupNames_iff h hsplit hcolumn, not_not] at hnotMem
  · intro hrepeats
    have hcolumn : output.function? = none := by
      obtain ⟨earlier, hearlier, column, -, hselects⟩ := hrepeats
      exact Select.function?_of_selects hselects
    have hnotMem : output.name ∉ select.groupNames := by
      rw [name_mem_groupNames_iff h hsplit hcolumn, not_not]
      exact hrepeats
    simpa [hcolumn] using hnotMem

/-- The first column that is selected again is taken for neither grouped nor aggregated. -/
theorem strayOutput?_eq_none_iff (h : select.GroupsItsColumns) :
    strayOutput? select = none ↔ ∀ output, ¬select.Repeats output := by
  rw [strayOutput?, Option.map_eq_none_iff, List.find?_eq_none]
  constructor
  · rintro hnone output ⟨front, back, hsplit, hrepeats⟩
    refine hnone output ?_ ((isStray_iff h hsplit).mpr hrepeats)
    rw [hsplit]
    exact List.mem_append_right _ List.mem_cons_self
  · intro hnone output hmem hstray
    obtain ⟨front, back, hsplit⟩ := List.append_of_mem hmem
    exact hnone output ⟨front, back, hsplit, (isStray_iff h hsplit).mp hstray⟩

/-- Group columns are among the outputs, so no group is missing. -/
theorem missingGroup?_eq_none (h : select.GroupsItsColumns) : missingGroup? select = none := by
  rw [missingGroup?]
  split
  · rfl
  · rename_i hnonempty
    rw [List.find?_eq_none]
    intro name hname
    obtain ⟨group, hgroup, rfl⟩ := List.mem_map.mp hname
    have hselected := h.selected.resolve_left (fun hnil => hnonempty (by rw [hnil]; rfl))
    obtain ⟨output, hout, -, hresult⟩ := Select.exists_resultName (hselected group hgroup)
    have hmem : select.resultName group ∈ select.outputs.map Output.name := by
      rw [hresult]
      exact List.mem_map_of_mem hout
    simpa using hmem

/-- A read is checked by its columns: none of them may be selected again. -/
theorem checkGrouping_cases (h : select.GroupsItsColumns) :
    (checkGrouping select = .ok () ∧ ∀ output, ¬select.Repeats output) ∨
      ∃ output, select.Repeats output ∧ checkGrouping select =
        .error (.grouping (.neitherGroupedNorAggregated output.name select.table)) := by
  cases hstray : strayOutput? select with
  | none =>
    refine Or.inl ⟨?_, (strayOutput?_eq_none_iff h).mp hstray⟩
    rw [checkGrouping, hstray, missingGroup?_eq_none h]
  | some name =>
    obtain ⟨output, hfound, rfl⟩ := Option.map_eq_some_iff.mp hstray
    obtain ⟨hcolumn, front, back, hsplit, -⟩ := List.find?_eq_some_iff_append.mp hfound
    refine Or.inr ⟨output, ⟨front, back, hsplit, (isStray_iff h hsplit).mp hcolumn⟩, ?_⟩
    rw [checkGrouping, hstray]

/-- A read without groups that selects group columns only has no outputs. -/
theorem not_repeats_of_not_grouped (h : select.GroupsItsColumns) (hplain : select.isGrouped = false)
    (output : Output) : ¬select.Repeats output := by
  rintro ⟨front, back, hsplit, earlier, hearlier, column, hselects, -⟩
  rw [Select.isGrouped, Bool.or_eq_false_iff] at hplain
  have hmem : earlier ∈ select.outputs := by
    rw [hsplit]
    exact List.mem_append_left _ hearlier
  obtain ⟨group, hgroup, -⟩ := h.columns earlier hmem (Select.function?_of_selects hselects)
  have hnil : select.groupBy = [] := by simpa using hplain.2
  rw [hnil] at hgroup
  exact List.not_mem_nil hgroup

/--
A grouped read of aggregates and of its group columns is merged, whatever the rows are, if and only
if no column is selected again; else it is refused for a column that is, as neither grouped nor
aggregated.
-/
theorem mergeRows_refuses_repeats (h : select.GroupsItsColumns) (rows : List Row) :
    ((∃ merged, mergeRows select rows = .ok merged) ↔ ∀ output, ¬select.Repeats output) ∧
    ∀ error, mergeRows select rows = .error error → ∃ output, select.Repeats output ∧
      error = .grouping (.neitherGroupedNorAggregated output.name select.table) := by
  cases hgrouped : select.isGrouped with
  | false =>
    have hmerged := mergeRows_of_not_grouped hgrouped rows
    have hnone := not_repeats_of_not_grouped h hgrouped
    refine ⟨iff_of_true ⟨_, hmerged⟩ hnone, fun error herror => ?_⟩
    rw [hmerged] at herror
    cases herror
  | true =>
    obtain ⟨haccepted, hnone⟩ | ⟨output, hrepeats, hrefused⟩ := checkGrouping_cases h
    · have hmerged := mergeRows_of_grouped hgrouped haccepted rows
      refine ⟨iff_of_true ⟨_, hmerged⟩ hnone, fun error herror => ?_⟩
      rw [hmerged] at herror
      cases herror
    · have hfailed : mergeRows select rows =
          .error (.grouping (.neitherGroupedNorAggregated output.name select.table)) := by
        rw [mergeRows, if_pos hgrouped, aggregate, hrefused]
        rfl
      rw [hfailed]
      refine ⟨iff_of_false ?_ (fun hnone => hnone output hrepeats), fun error herror => ?_⟩
      · rintro ⟨merged, hok⟩
        cases hok
      · exact ⟨output, hrepeats, (Except.error.inj herror).symm⟩

/-- Totals by team and town; the town goes by another name, and is selected once more. -/
def townAgain : Select where
  table := "users"
  outputs := [.columnAs (.bare "town") "team", .ofAggregate .sum (some (.bare "score")) "total",
    .columnAs (.bare "team") "squad", .ofColumn (.bare "town")]
  predicate := none
  groupBy := [.bare "team", .bare "town"]
  orderBy := []
  limit := none
  offset := none

/-- The read is refused for its last output, by whatever names the groups go. -/
theorem mergeRows_refuses_repeats_town :
    townAgain.GroupsItsColumns ∧
    mergeRows townAgain [] = .error (.grouping (.neitherGroupedNorAggregated "town" "users")) ∧
    (∃ output, townAgain.Repeats output ∧ output.name = "town") ∧
    ¬∃ merged, mergeRows townAgain [] = .ok merged := by
  have hvalid : townAgain.GroupsItsColumns :=
    ⟨by decide, Or.inr (by decide), by decide⟩
  have hrefused : mergeRows townAgain [] =
      .error (.grouping (.neitherGroupedNorAggregated "town" "users")) := rfl
  obtain ⟨hmerged, hnamed⟩ := mergeRows_refuses_repeats hvalid []
  obtain ⟨output, hrepeats, herror⟩ := hnamed _ hrefused
  have hname : output.name = "town" ∧ townAgain.table = "users" := by simpa using herror.symm
  exact ⟨hvalid, hrefused, ⟨output, hrepeats, hname.1⟩, fun h => hmerged.mp h output hrepeats⟩

/-- The teams, under two names. -/
def teams : Select where
  table := "users"
  outputs := [.ofColumn (.bare "team"), .columnAs (.bare "team") "squad"]
  predicate := none
  groupBy := [.bare "team"]
  orderBy := []
  limit := none
  offset := none

/--
A grouped read of its group column alone is refused, if the column is selected under two names: the
second one is said to be neither grouped nor aggregated.
-/
theorem squad_is_refused :
    teams.GroupsItsColumns ∧
    mergeRows teams [⟨[("team", .str "red"), ("squad", .str "red")]⟩] =
      .error (.grouping (.neitherGroupedNorAggregated "squad" "users")) :=
  ⟨⟨by decide, Or.inr (by decide), by decide⟩, rfl⟩

end Merge

end SqlFederation
