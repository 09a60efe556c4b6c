import SqlFederation.Merge.Rows
import SqlFederation.Proofs.Central
import SqlFederation.Proofs.KeyText

/-!
# Groups over shards

Each shard answers a grouped read with one row for each of its groups. For a read that selects its
group columns once each and aggregates the rest (`Select.IsRegular`), the row carries the group it
stands for (`Central.groupKey_row`), so the rows that are folded together are those of one group,
one for each shard that has it (`Central.filter_answer`). These shards have all rows of the group
(`Central.members_having`), and the groups appear in the order in which they do in the rows of all
shards (`Central.eraseDups_tuples`).
-/

namespace SqlFederation

namespace Select

/-- Is an output this column? -/
def selects (column : ColumnRef) (output : Output) : Bool :=
  match output.expression with
  | .column selected => decide (selected.name = column.name)
  | .aggregate .. => false

/--
A grouped read of aggregates and of its group columns, each of these selected once, under distinct
names. A read of one table tells columns apart by their names alone.
-/
structure IsRegular (select : Select) : Prop where
  grouped : select.isGrouped = true
  order : select.orderBy = []
  names : (select.outputs.map Output.name).Nodup
  /-- Columns are group columns. -/
  columns : ∀ output ∈ select.outputs, ∀ column, output.expression = .column column →
    ∃ group ∈ select.groupBy, selects group output = true
  /-- Each group column is selected exactly once. -/
  once : ∀ group ∈ select.groupBy, ∃ output, select.outputs.filter (selects group) = [output]
  /-- Sums, counts and extremes of columns, and counts of rows. -/
  functions : ∀ output ∈ select.outputs, ∀ function column,
    output.expression = .aggregate function column →
      function ≠ .avg ∧ (column = none → function = .count)

/-- The label of a column is that of the first output that is this column. -/
theorem labelAmong_eq (column : ColumnRef) (outputs : List Output) :
    labelAmong column outputs = (outputs.filter (selects column)).head?.bind Output.label := by
  induction outputs with
  | nil => rfl
  | cons output rest ih =>
    obtain ⟨expression, label⟩ := output
    cases expression with
    | aggregate function argument => exact ih
    | column selected =>
      by_cases h : selected.name = column.name
      · have hselects : selects column ⟨.column selected, label⟩ = true := decide_eq_true h
        rw [List.filter_cons_of_pos hselects]
        simp only [labelAmong, h, if_true, List.head?_cons, Option.bind_some]
      · have hselects : ¬selects column ⟨.column selected, label⟩ = true := by
          simpa [selects] using h
        rw [List.filter_cons_of_neg hselects, ← ih]
        simp only [labelAmong, h, if_false]

namespace IsRegular

variable {select : Select}

/-- A group column is one of the outputs, and its name in result rows is that of this output. -/
theorem exists_output (h : select.IsRegular) {group : ColumnRef} (hgroup : group ∈ select.groupBy) :
    ∃ output ∈ select.outputs, selects group output = true ∧
      select.resultName group = output.name ∧
      ∀ other ∈ select.outputs, selects group other = true → other = output := by
  obtain ⟨output, hfilter⟩ := h.once group hgroup
  have hmem : output ∈ select.outputs.filter (selects group) := by
    rw [hfilter]
    exact List.mem_singleton_self output
  obtain ⟨hout, hselects⟩ := List.mem_filter.mp hmem
  refine ⟨output, hout, hselects, ?_, ?_⟩
  · rw [resultName, labelAmong_eq, hfilter]
    obtain ⟨expression, label⟩ := output
    cases expression with
    | aggregate function column => cases hselects
    | column selected =>
      have hname : selected.name = group.name := of_decide_eq_true hselects
      cases label with
      | none => exact hname.symm
      | some label => rfl
  · intro other hother hsel
    have hin : other ∈ select.outputs.filter (selects group) :=
      List.mem_filter.mpr ⟨hother, hsel⟩
    rw [hfilter] at hin
    exact List.mem_singleton.mp hin

/-- The rows of a regular read can be told apart by group. -/
theorem checkGrouping_eq (h : select.IsRegular) : Merge.checkGrouping select = .ok () := by
  have hstray : Merge.strayOutput? select = none := by
    rw [Merge.strayOutput?, Option.map_eq_none_iff, List.find?_eq_none]
    intro output hout hstray
    rw [Bool.and_eq_true] at hstray
    cases hexp : output.expression with
    | aggregate function column =>
      rw [Output.function?, hexp] at hstray
      exact Bool.false_ne_true hstray.1
    | column column =>
      obtain ⟨group, hgroup, hselects⟩ := h.columns output hout column hexp
      obtain ⟨chosen, -, -, hname, honly⟩ := h.exists_output hgroup
      have hmem : output.name ∈ select.groupNames := by
        rw [honly output hout hselects, ← hname]
        exact List.mem_map_of_mem hgroup
      simp [hmem] at hstray
  have hmissing : Merge.missingGroup? select = none := by
    rw [Merge.missingGroup?]
    split
    · rfl
    · rw [List.find?_eq_none]
      intro name hname
      obtain ⟨group, hgroup, rfl⟩ := List.mem_map.mp hname
      obtain ⟨output, hout, -, hresult, -⟩ := h.exists_output hgroup
      have hmem : select.resultName group ∈ select.outputs.map Output.name := by
        rw [hresult]
        exact List.mem_map_of_mem hout
      simpa using hmem
  rw [Merge.checkGrouping, hstray, hmissing]

end IsRegular

end Select

namespace Central

open Merge (groupKey mergeValues)

variable {select : Select} {rows : List Row} {key : List Json}

/-! ## The rows of one shard -/

/-- A row for a group has the value of each output under its name. -/
theorem value_row (h : select.IsRegular) {output : Output} (hout : output ∈ select.outputs)
    (group : List Row) : (row select group).value output.name = outputValue group output := by
  have hlookup : (select.outputs.map fun o => (o.name, outputValue group o)).lookup output.name =
      some (outputValue group output) := Json.lookup_map hout h.names
  rw [Row.value, Row.get?, row, hlookup, Option.getD_some]

theorem tuple_of_mem_members {r : Row} (h : r ∈ members select rows key) : tuple select r = key :=
  of_decide_eq_true (List.mem_filter.mp h).2

/-- A group of a read with group columns has a first row. -/
theorem exists_head (hkey : key ∈ tuples select rows) {group : ColumnRef}
    (hgroup : group ∈ select.groupBy) :
    ∃ head tail, members select rows key = head :: tail ∧ tuple select head = key := by
  have hne : ¬select.groupBy.isEmpty = true := by
    rw [List.isEmpty_iff]
    exact List.ne_nil_of_mem hgroup
  rw [tuples, if_neg hne, List.mem_eraseDups] at hkey
  obtain ⟨r, hr, hrk⟩ := List.mem_map.mp hkey
  have hmem : r ∈ members select rows key := List.mem_filter.mpr ⟨hr, decide_eq_true hrk⟩
  cases hmembers : members select rows key with
  | nil =>
    rw [hmembers] at hmem
    exact absurd hmem List.not_mem_nil
  | cons head tail =>
    have hhead : head ∈ members select rows key := by
      rw [hmembers]
      exact List.mem_cons_self
    exact ⟨head, tail, rfl, tuple_of_mem_members hhead⟩

/-- The row of a group has the key of the group. -/
theorem groupKey_row (h : select.IsRegular) (hkey : key ∈ tuples select rows) :
    groupKey select (row select (members select rows key)) = (Json.arr key).compact := by
  -- Group columns are read of the first row of the group, which has the group's values.
  have hvalues : select.groupNames.map (row select (members select rows key)).value = key := by
    rw [Select.groupNames, List.map_map]
    cases hgroups : select.groupBy with
    | nil =>
      rw [tuples, hgroups] at hkey
      exact (List.mem_singleton.mp hkey).symm
    | cons first rest =>
      have hfirst : first ∈ select.groupBy := by
        rw [hgroups]
        exact List.mem_cons_self
      obtain ⟨head, tail, hmembers, htuple⟩ := exists_head hkey hfirst
      rw [← hgroups, hmembers, ← htuple, tuple]
      apply List.map_congr_left
      intro group hgroup
      obtain ⟨output, hout, hselects, hname, -⟩ := h.exists_output hgroup
      rw [Function.comp_apply, hname, value_row h hout]
      obtain ⟨expression, label⟩ := output
      cases expression with
      | aggregate function column => cases hselects
      | column column =>
        have hcolumn : column.name = group.name := of_decide_eq_true hselects
        rw [← hcolumn]
        rfl
  rw [groupKey, hvalues]

/-- The groups of the rows of some shards appear as they do in all rows together. -/
theorem eraseDups_tuples {pieces : List (List Row)} (hne : pieces ≠ []) :
    (pieces.flatMap (tuples select)).eraseDups = tuples select pieces.flatten := by
  unfold tuples
  split
  · -- Every shard has the one group of all its rows, even of none.
    have hone : ∀ l : List (List Row), l ≠ [] →
        (l.flatMap fun _ => [([] : List Json)]).eraseDups = [[]] := by
      intro l hl
      induction l with
      | nil => exact absurd rfl hl
      | cons piece rest ih =>
        cases rest with
        | nil => rfl
        | cons next rest =>
          rw [List.flatMap_cons, ← Pieces.eraseDups_append_eraseDups, ih (List.cons_ne_nil _ _)]
          decide
    exact hone pieces hne
  · have hpieces : pieces.flatMap (fun rows => (rows.map (tuple select)).eraseDups) =
        (pieces.map fun rows => rows.map (tuple select)).flatMap List.eraseDups := by
      rw [List.flatMap_map]
    rw [hpieces, Pieces.eraseDups_flatMap, List.map_flatten]

/-- The rows of a group among the rows of some shards. -/
theorem members_flatten (pieces : List (List Row)) :
    members select pieces.flatten key = pieces.flatMap fun rows => members select rows key := by
  rw [members, List.filter_flatten, List.flatMap_def]
  rfl

/-- A shard that does not have a group of all rows has no row of it. -/
theorem members_eq_nil {all : List Row} (hall : key ∈ tuples select all)
    (h : key ∉ tuples select rows) : members select rows key = [] := by
  rw [members, List.filter_eq_nil_iff]
  intro r hr hrk
  apply h
  unfold tuples at hall ⊢
  split
  · rename_i hempty
    rw [if_pos hempty] at hall
    exact hall
  · rw [List.mem_eraseDups, ← of_decide_eq_true hrk]
    exact List.mem_map_of_mem hr

theorem nodup_tuples (select : Select) (rows : List Row) : (tuples select rows).Nodup := by
  unfold tuples
  split
  · exact List.nodup_singleton _
  · exact Pieces.nodup_eraseDups _

/-! ## The rows of several shards -/

/-- The text of a group. -/
def keyText (key : List Json) : String := (Json.arr key).compact

/-- Values by which rows can be grouped. -/
def PlainTuples (select : Select) (rows : List Row) : Prop :=
  ∀ r ∈ rows, ∀ column ∈ select.groupBy, (r.value column.name).isPlain = true

/-- The values of a group are plain, and as many as there are group columns. -/
theorem plain_of_mem_tuples (hplain : PlainTuples select rows) (hkey : key ∈ tuples select rows) :
    (∀ v ∈ key, v.isPlain = true) ∧ key.length = select.groupBy.length := by
  unfold tuples at hkey
  split at hkey
  · rename_i hempty
    rw [List.mem_singleton.mp hkey, List.isEmpty_iff.mp hempty]
    exact ⟨by simp, rfl⟩
  · rw [List.mem_eraseDups] at hkey
    obtain ⟨r, hr, rfl⟩ := List.mem_map.mp hkey
    refine ⟨?_, List.length_map _⟩
    intro v hv
    obtain ⟨column, hcolumn, rfl⟩ := List.mem_map.mp hv
    exact hplain r hr column hcolumn

/-- Groups are told apart by their texts. -/
theorem keyText_inj {pieces : List (List Row)} (hplain : PlainTuples select pieces.flatten) :
    ∀ a ∈ pieces.flatMap (tuples select), ∀ b ∈ pieces.flatMap (tuples select),
      keyText a = keyText b → a = b := by
  have hpiece : ∀ k ∈ pieces.flatMap (tuples select),
      (∀ v ∈ k, v.isPlain = true) ∧ k.length = select.groupBy.length := by
    intro k hk
    obtain ⟨rows, hrows, hmem⟩ := List.mem_flatMap.mp hk
    exact plain_of_mem_tuples
      (fun r hr => hplain r (List.mem_flatten.mpr ⟨rows, hrows, hr⟩)) hmem
  intro a ha b hb htext
  exact Json.compact_arr_inj (hpiece a ha).1 (hpiece b hb).1
    ((hpiece a ha).2.trans (hpiece b hb).2.symm) htext

/-- The answer of one shard has at most one row of a group. -/
theorem filter_answer_piece (h : select.IsRegular)
    (hkeys : ∀ k ∈ tuples select rows, keyText k = keyText key → k = key) :
    ((answer select rows).filter fun r => decide (groupKey select r = keyText key)) =
      if key ∈ tuples select rows then [row select (members select rows key)] else [] := by
  have hsame : ∀ k ∈ tuples select rows,
      decide (groupKey select (row select (members select rows k)) = keyText key) =
        decide (k = key) := by
    intro k hk
    rw [groupKey_row h hk, decide_eq_decide]
    constructor
    · exact hkeys k hk
    · rintro rfl
      rfl
  have hfilter := List.filter_congr hsame
  rw [List.filter_eq, (nodup_tuples select rows).count] at hfilter
  rw [answer, List.filter_map]
  show ((tuples select rows).filter fun k =>
    decide (groupKey select (row select (members select rows k)) = keyText key)).map _ = _
  rw [hfilter]
  split
  · rfl
  · rfl

/-- The rows of one group among the answers of all shards: one from each shard that has it. -/
theorem filter_answer (h : select.IsRegular) {pieces : List (List Row)}
    (hkeys : ∀ rows ∈ pieces, ∀ k ∈ tuples select rows, keyText k = keyText key → k = key) :
    ((pieces.flatMap (answer select)).filter fun r =>
        decide (groupKey select r = keyText key)) =
      (pieces.filter fun rows => decide (key ∈ tuples select rows)).map fun rows =>
        row select (members select rows key) := by
  induction pieces with
  | nil => rfl
  | cons rows rest ih =>
    obtain ⟨hrows, hrest⟩ := List.forall_mem_cons.mp hkeys
    rw [List.flatMap_cons, List.filter_append, filter_answer_piece h hrows, ih hrest,
      List.filter_cons]
    by_cases hmem : key ∈ tuples select rows
    · simp only [hmem, if_true, decide_true, List.map_cons, List.singleton_append]
    · simp only [hmem, if_false, decide_false, Bool.false_eq_true, List.nil_append]

/-- The rows of a group are in the shards that have the group. -/
theorem members_having {pieces : List (List Row)} (hkey : key ∈ tuples select pieces.flatten) :
    ((pieces.filter fun rows => decide (key ∈ tuples select rows)).map fun rows =>
        members select rows key).flatten = members select pieces.flatten key := by
  have hnone : ∀ rows ∈ pieces, key ∉ tuples select rows → members select rows key = [] :=
    fun rows _ h => members_eq_nil hkey h
  rw [members_flatten]
  clear hkey
  induction pieces with
  | nil => rfl
  | cons rows rest ih =>
    obtain ⟨hrows, hrest⟩ := List.forall_mem_cons.mp hnone
    rw [List.flatMap_cons, List.filter_cons, ← ih hrest]
    by_cases hmem : key ∈ tuples select rows
    · simp only [hmem, decide_true, if_true, List.map_cons, List.flatten_cons]
    · simp only [hmem, decide_false, Bool.false_eq_true, if_false, hrows hmem, List.nil_append]

end Central

end SqlFederation
