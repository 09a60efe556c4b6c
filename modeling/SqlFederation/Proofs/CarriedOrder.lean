import Mathlib
import SqlFederation.Proofs.DatabaseOrder
import SqlFederation.Proofs.Grouping

/-!
# Order by columns that the outputs carry

The rows of shards are merged by what their outputs carry. A sort key whose column is selected
(`Select.Carries`) reads in an output what it reads in the table
(`Select.value_project_resultName`). A column that is not selected reads as null in every row, and
orders nothing. So the merged rows are in order by the carried keys in front of the first key that
is not carried, and the page is one by these (`Merge.mergeRows_answers_leading`), though each shard
was asked for its first rows by all keys. Where all keys are carried, this is the select itself;
where one is not, the page can be wrong (`Merge.youngest_is_lost`).
-/

namespace SqlFederation

namespace Select

variable {select : Select}

/-- The name of an output that is a column. -/
theorem getD_label {column : ColumnRef} {output : Output} (h : selects column output = true) :
    output.label.getD column.name = output.name := by
  obtain ⟨expression, label⟩ := output
  cases expression with
  | aggregate function argument => cases h
  | column selected =>
    have hname : selected.name = column.name := of_decide_eq_true h
    cases label with
    | none => exact hname.symm
    | some label => rfl

/-- The value of an output that is a column. -/
theorem outputValue_of_selects {column : ColumnRef} {output : Output}
    (h : selects column output = true) (row : Row) :
    RowTable.outputValue row output = row.value column.name := by
  obtain ⟨expression, label⟩ := output
  cases expression with
  | aggregate function argument => cases h
  | column selected =>
    have hname : selected.name = column.name := of_decide_eq_true h
    rw [← hname]
    rfl

/-- Is the column of a sort key among the outputs? No outputs stand for all columns. -/
def Carries (select : Select) (key : SortKey) : Prop :=
  select.outputs = [] ∨ ∃ output ∈ select.outputs, selects key.column output = true

/-- A selected column has the name of the first output that is this column. -/
theorem resultName_of_filter {column : ColumnRef} {output : Output} {rest : List Output}
    (h : select.outputs.filter (selects column) = output :: rest) :
    select.resultName column = output.name := by
  have hmem : output ∈ select.outputs.filter (selects column) := h ▸ List.mem_cons_self
  rw [resultName, labelAmong_eq, h]
  exact getD_label (List.mem_filter.mp hmem).2

theorem exists_resultName {column : ColumnRef}
    (h : ∃ output ∈ select.outputs, selects column output = true) :
    ∃ output ∈ select.outputs, selects column output = true ∧
      select.resultName column = output.name := by
  obtain ⟨some, hsome, hselects⟩ := h
  cases hfilter : select.outputs.filter (selects column) with
  | nil => exact absurd hselects (List.filter_eq_nil_iff.mp hfilter some hsome)
  | cons output rest =>
    have hmem : output ∈ select.outputs.filter (selects column) := hfilter ▸ List.mem_cons_self
    obtain ⟨hout, hselects⟩ := List.mem_filter.mp hmem
    exact ⟨output, hout, hselects, resultName_of_filter hfilter⟩

/-- What a carried key reads in the outputs of a row is what it reads in the row. -/
theorem value_project_resultName (hnames : (select.outputs.map Output.name).Nodup)
    {key : SortKey} (hcarried : select.Carries key) (row : Row) :
    (RowTable.project select.outputs row).value (select.resultName key.column) =
      row.value key.column.name := by
  rw [RowTable.project]
  obtain hall | hselected := hcarried
  · rw [hall, resultName, hall]
    rfl
  · obtain ⟨output, hout, hselects, hname⟩ := exists_resultName hselected
    have hentry : (output.name, RowTable.outputValue row output) ∈
        select.outputs.map fun output => (output.name, RowTable.outputValue row output) :=
      List.mem_map_of_mem hout
    have hnonempty : ¬select.outputs.isEmpty = true := by
      rw [List.isEmpty_iff]
      exact List.ne_nil_of_mem hout
    rw [if_neg hnonempty, hname, Row.value, Row.get?_ofList (by rwa [List.map_map]) hentry]
    exact outputValue_of_selects hselects row

/-- Outputs of integers and nulls are integers and nulls. -/
theorem isWhole_project (outputs : List Output) {row : Row} (h : row.IsWhole) :
    (RowTable.project outputs row).IsWhole := by
  have hvalue : ∀ output ∈ outputs, (RowTable.outputValue row output).isWhole = true := by
    rintro ⟨expression, label⟩ -
    cases expression with
    | column column => exact h column.name
    | aggregate function column => rfl
  rw [RowTable.project]
  split
  · exact h
  · apply Row.isWhole_ofList
    intro entry hentry
    obtain ⟨output, hout, rfl⟩ := List.mem_map.mp hentry
    exact hvalue output hout

end Select

namespace Merge

variable {select : Select}

/-- Rows are compared by the keys in front before those behind. -/
theorem compareRows_append (front back : List (SortKey × String)) (a b : Row) :
    compareRows (front ++ back) a b = (compareRows front a b).then (compareRows back a b) := by
  induction front with
  | nil => rfl
  | cons key rest ih =>
    obtain ⟨key, name⟩ := key
    rw [List.cons_append, compareRows, compareRows, ih, Ordering.then_assoc]

/-- Outputs are compared by carried keys as the rows are that they come from. -/
theorem compareRows_project (hnames : (select.outputs.map Output.name).Nodup)
    {keys : List SortKey} (hcarried : ∀ key ∈ keys, select.Carries key) (a b : Row) :
    compareRows (keys.map fun key => (key, select.resultName key.column))
        (RowTable.project select.outputs a) (RowTable.project select.outputs b) =
      compareRows (columnKeys keys) a b := by
  induction keys with
  | nil => rfl
  | cons key rest ih =>
    rw [List.forall_mem_cons] at hcarried
    rw [List.map_cons, columnKeys, List.map_cons, compareRows, compareRows,
      Select.value_project_resultName hnames hcarried.1,
      Select.value_project_resultName hnames hcarried.1, ih hcarried.2]
    rfl

/-- Rows of integers and nulls can be sorted by any keys. -/
theorem plainUnder_of_isWhole (keys : List (SortKey × String)) {row : Row} (h : row.IsWhole) :
    plainUnder keys row = true := by
  rw [plainUnder, List.all_eq_true]
  exact fun key _ => isPlain_of_isWhole (h key.2)

/-- The order of rows with integers and nulls. -/
theorem plainFirst_iff (keys : List (SortKey × String)) {a b : Row} (ha : a.IsWhole)
    (hb : b.IsWhole) : plainFirst keys a b = true ↔ compareRows keys a b ≠ .gt := by
  rw [plainFirst, plainUnder_of_isWhole keys ha, plainUnder_of_isWhole keys hb]
  simp

/-- The order of a database, as one to sort by. -/
theorem plainFirst_columnKeys_iff (keys : List SortKey) {a b : Row} (ha : a.IsWhole)
    (hb : b.IsWhole) :
    plainFirst (columnKeys keys) a b = true ↔ ¬SortKey.comesBefore keys b a := by
  rw [plainFirst_iff _ ha hb, Ne, compareRows_eq_gt_iff keys ha hb]

/-- Rows in order by some keys are in order by those in front. -/
theorem not_gt_of_append {front back : List (SortKey × String)} {a b : Row}
    (h : compareRows (front ++ back) a b ≠ .gt) : compareRows front a b ≠ .gt := by
  rw [compareRows_append, Ne, Ordering.then_eq_gt, not_or] at h
  exact h.1

theorem page_eq_paginate (select : Select) (rows : List Row) :
    select.page rows = paginate select.limit select.offset rows := by
  unfold Select.page paginate
  cases select.limit with
  | some limit => rfl
  | none =>
    rw [Option.getD_none, List.take_of_length_le]
    rw [List.length_drop]
    omega

theorem paginate_map (limit offset : Option Nat) (f : Row → Row) (rows : List Row) :
    paginate limit offset (rows.map f) = (paginate limit offset rows).map f := by
  cases limit with
  | some limit => rw [paginate, paginate, ← List.map_drop, List.map_take]
  | none => rw [paginate, paginate, ← List.map_drop]

/-- A shard answers with its first rows. -/
theorem page_shardSelect (h : select.isGrouped = false) {rows : List Row}
    (hsize : rows.length ≤ maxLimit) :
    (shardSelect select).page rows = rows.take (shardCount select.limit select.offset) := by
  rw [page_eq_paginate, shardSelect_of_not_grouped h]
  unfold paginate shardCount
  cases select.limit with
  | some limit => rfl
  | none =>
    rw [List.take_of_length_le hsize]
    rfl

/-- The answers of shards are the outputs of the first of their rows, in their orders. -/
theorem exists_sorted_of_answers (h : select.isGrouped = false) {pieces answers : List (List Row)}
    (hanswers : List.Forall₂ (shardSelect select).Answers pieces answers)
    (hsize : pieces.flatten.length ≤ maxLimit) :
    ∃ sorted : List (List Row), sorted.flatten.Perm pieces.flatten ∧
      (∀ rows ∈ sorted, rows.Pairwise fun a b => ¬SortKey.comesBefore select.orderBy b a) ∧
      answers.flatten = (sorted.map (List.take (shardCount select.limit select.offset))).flatten.map
        (RowTable.project select.outputs) := by
  induction hanswers with
  | nil => exact ⟨[], List.Perm.refl _, fun _ h => absurd h List.not_mem_nil, rfl⟩
  | cons hanswer _ ih =>
    obtain ⟨rows, hperm, hsorted, hrows⟩ := hanswer
    rw [List.flatten_cons, List.length_append] at hsize
    obtain ⟨sorted, hperms, hsorteds, hanswers⟩ := ih (by omega)
    have hlength : rows.length ≤ maxLimit := by
      rw [hperm.length_eq]
      omega
    refine ⟨rows :: sorted, ?_, ?_, ?_⟩
    · exact hperm.append hperms
    · rw [List.forall_mem_cons]
      rw [shardSelect_of_not_grouped h] at hsorted
      exact ⟨hsorted, hsorteds⟩
    · rw [page_shardSelect h hlength, shardSelect_of_not_grouped h] at hrows
      rw [List.flatten_cons, hrows, hanswers, List.map_cons, List.flatten_cons, List.map_append]

/-- Outputs that are sorted are the outputs of rows that are sorted by them. -/
theorem exists_sortRows_project (select : Select) {rows : List Row}
    (hwhole : ∀ row ∈ rows, row.IsWhole) :
    ∃ sorted : List Row, sorted.Perm rows ∧
      (sorted.Pairwise fun a b => compareRows (sortKeys select)
        (RowTable.project select.outputs a) (RowTable.project select.outputs b) ≠ .gt) ∧
      sortRows select (rows.map (RowTable.project select.outputs)) =
        sorted.map (RowTable.project select.outputs) := by
  let project := RowTable.project select.outputs
  -- The rows are sorted by what their outputs say, so that each output keeps the row it is made of.
  let sorted := rows.mergeSort fun a b =>
    compareRows (sortKeys select) (project a) (project b) != .gt
  have hperm : sorted.Perm rows := List.mergeSort_perm _ _
  have hsame : ∀ a ∈ rows, ∀ b ∈ rows,
      (compareRows (sortKeys select) (project a) (project b) != .gt) =
        (fun a b => compareRows (sortKeys select) a b != .gt) (project a) (project b) :=
    fun _ _ _ _ => rfl
  have hmap : sortRows select (rows.map project) = sorted.map project :=
    (List.map_mergeSort hsame).symm
  refine ⟨sorted, hperm, ?_, hmap⟩
  have hplain : ∀ row ∈ rows.map project, plainUnder (sortKeys select) row = true := by
    intro row hrow
    obtain ⟨base, hbase, rfl⟩ := List.mem_map.mp hrow
    exact plainUnder_of_isWhole _ (Select.isWhole_project _ (hwhole base hbase))
  have horder := isOrder_plainFirst (sortKeys select)
  have hpairs := List.pairwise_mergeSort horder.trans horder.total (rows.map project)
  rw [← sortRows_eq hplain, hmap, List.pairwise_map] at hpairs
  refine hpairs.imp_of_mem fun {a b} ha hb hab => ?_
  exact (plainFirst_iff _ (Select.isWhole_project _ (hwhole a (hperm.mem_iff.mp ha)))
    (Select.isWhole_project _ (hwhole b (hperm.mem_iff.mp hb)))).mp hab

section Leading

variable {leading rest : List SortKey} {rows : List Row}

/-- Rows in the order of a database are in order by the keys in front. -/
theorem pairwise_leading_of_rows (horder : select.orderBy = leading ++ rest)
    (hwhole : ∀ row ∈ rows, row.IsWhole)
    (h : rows.Pairwise fun a b => ¬SortKey.comesBefore select.orderBy b a) :
    rows.Pairwise fun a b => plainFirst (columnKeys leading) a b = true := by
  refine h.imp_of_mem fun {a b} ha hb hab => ?_
  rw [horder, ← compareRows_eq_gt_iff _ (hwhole a ha) (hwhole b hb), columnKeys,
    List.map_append] at hab
  exact (plainFirst_iff _ (hwhole a ha) (hwhole b hb)).mpr (not_gt_of_append hab)

/-- Rows whose outputs are in the merged order are in order by the carried keys in front. -/
theorem pairwise_leading_of_outputs (hnames : (select.outputs.map Output.name).Nodup)
    (horder : select.orderBy = leading ++ rest)
    (hcarried : ∀ key ∈ leading, select.Carries key) (hwhole : ∀ row ∈ rows, row.IsWhole)
    (h : rows.Pairwise fun a b => compareRows (sortKeys select)
      (RowTable.project select.outputs a) (RowTable.project select.outputs b) ≠ .gt) :
    rows.Pairwise fun a b => plainFirst (columnKeys leading) a b = true := by
  refine h.imp_of_mem fun {a b} ha hb hab => ?_
  rw [sortKeys, horder, List.map_append] at hab
  have hleading := not_gt_of_append hab
  rw [compareRows_project hnames hcarried] at hleading
  exact (plainFirst_iff _ (hwhole a ha) (hwhole b hb)).mpr hleading

/--
Ordering by columns that are not all selected. The merged rows are those that a database with all
rows could answer if it ordered them by the carried keys in front of the first that is not carried.
-/
theorem mergeRows_answers_leading (hplain : select.isGrouped = false)
    (hnames : (select.outputs.map Output.name).Nodup)
    (horder : select.orderBy = leading ++ rest)
    (hcarried : ∀ key ∈ leading, select.Carries key) {pieces answers : List (List Row)}
    (hwhole : ∀ row ∈ pieces.flatten, row.IsWhole)
    (hsize : pieces.flatten.length ≤ maxLimit)
    (hanswers : List.Forall₂ (shardSelect select).Answers pieces answers) :
    ∃ merged, mergeRows select answers.flatten = .ok merged ∧
      { select with orderBy := leading }.Answers pieces.flatten merged := by
  let count := shardCount select.limit select.offset
  obtain ⟨sorted, hperm, hsorted, hflat⟩ := exists_sorted_of_answers hplain hanswers hsize
  have hpiece : ∀ piece ∈ sorted, ∀ row ∈ piece, row.IsWhole := fun piece hpiece row hrow =>
    hwhole row (hperm.mem_iff.mp (List.mem_flatten.mpr ⟨piece, hpiece, hrow⟩))
  have hfronts : ∀ row ∈ (sorted.map (List.take count)).flatten, row.IsWhole := by
    intro row hrow
    obtain ⟨front, hfront, hmem⟩ := List.mem_flatten.mp hrow
    obtain ⟨piece, hin, rfl⟩ := List.mem_map.mp hfront
    exact hpiece piece hin row (List.mem_of_mem_take hmem)
  obtain ⟨merged, hmerged, hpairs, hsort⟩ := exists_sortRows_project select hfronts
  have hmergedWhole : ∀ row ∈ merged, row.IsWhole := fun row hrow =>
    hfronts row (hmerged.mem_iff.mp hrow)
  -- Both the pieces and the merged rows are in order by the leading keys.
  obtain ⟨whole, hwhole', hwpairs, htake⟩ :=
    (isOrder_plainFirst (columnKeys leading)).exists_perm_of_fronts count
      (fun piece hin => pairwise_leading_of_rows horder (hpiece piece hin) (hsorted piece hin))
      hmerged (pairwise_leading_of_outputs hnames horder hcarried hmergedWhole hpairs)
  have hall := hwhole'.trans hperm
  refine ⟨(paginate select.limit select.offset merged).map (RowTable.project select.outputs), ?_,
    whole, hall, ?_, ?_⟩
  · rw [mergeRows_of_not_grouped hplain, hflat, hsort, paginate_map]
  · exact hwpairs.imp_of_mem fun ha hb hab => (plainFirst_columnKeys_iff leading
      (hwhole _ (hall.mem_iff.mp ha)) (hwhole _ (hall.mem_iff.mp hb))).mp hab
  · -- The page ends before the rows that the shards cut off, so either list has it.
    have hcut : merged.length ≤ sorted.flatten.length := by
      rw [hmerged.length_eq]
      exact length_flatten_take_le id (fun _ => rfl) count sorted
    rw [hperm.length_eq] at hcut
    rw [page_eq_paginate]
    congr 1
    exact paginate_congr (Nat.le_trans hcut hsize) (hall.length_eq ▸ hsize) htake.symm

end Leading

/-! ## Users by age -/

/-- A user with an age. -/
def agedUser (id age : Int) : Row :=
  Row.ofList [("id", .ofInt id), ("age", .ofInt age)]

/-- The ages of the second and third oldest users; equally old ones come by their ids. -/
def nextOldest : Select where
  table := "users"
  outputs := [.columnAs (.bare "age") "years"]
  predicate := none
  groupBy := []
  orderBy := [⟨.bare "age", .desc, false⟩, ⟨.bare "id", .asc, false⟩]
  limit := some 2
  offset := some 1

/-- Ages are carried and ids are not, so the page is right by age. -/
theorem mergeRows_answers_nextOldest :
    mergeRows nextOldest [⟨[("years", .ofInt 50)]⟩, ⟨[("years", .ofInt 20)]⟩,
        ⟨[("years", .ofInt 30)]⟩] =
      .ok [⟨[("years", .ofInt 30)]⟩, ⟨[("years", .ofInt 20)]⟩] ∧
    { nextOldest with orderBy := [⟨.bare "age", .desc, false⟩] }.Answers
      [agedUser 1 50, agedUser 2 20, agedUser 3 30]
      [⟨[("years", .ofInt 30)]⟩, ⟨[("years", .ofInt 20)]⟩] := by
  have hcarried : ∀ key ∈ [(⟨.bare "age", .desc, false⟩ : SortKey)], nextOldest.Carries key := by
    intro key hkey
    rw [List.mem_singleton.mp hkey]
    exact Or.inr ⟨_, List.mem_singleton_self _, by decide⟩
  have haged : ∀ id age : Int, fitsSigned id = true → fitsSigned age = true →
      (agedUser id age).IsWhole := by
    intro id age hid hage
    apply Row.isWhole_ofList
    intro entry hentry
    simp only [List.mem_cons, List.not_mem_nil, or_false] at hentry
    obtain rfl | rfl := hentry
    · simp [Json.isWhole, Json.ofInt, Json.asInt?, Number.asInt?, hid]
    · simp [Json.isWhole, Json.ofInt, Json.asInt?, Number.asInt?, hage]
  have hwhole : ∀ row ∈ [[agedUser 1 50, agedUser 2 20], [agedUser 3 30]].flatten,
      row.IsWhole := by
    intro row hrow
    simp only [List.flatten_cons, List.flatten_nil, List.cons_append, List.nil_append,
      List.mem_cons, List.not_mem_nil, or_false] at hrow
    obtain rfl | rfl | rfl := hrow
    · exact haged 1 50 (by decide) (by decide)
    · exact haged 2 20 (by decide) (by decide)
    · exact haged 3 30 (by decide) (by decide)
  have hanswers : List.Forall₂ (shardSelect nextOldest).Answers
      [[agedUser 1 50, agedUser 2 20], [agedUser 3 30]]
      [[⟨[("years", .ofInt 50)]⟩, ⟨[("years", .ofInt 20)]⟩], [⟨[("years", .ofInt 30)]⟩]] := by
    have hordered : ¬SortKey.comesBefore nextOldest.orderBy (agedUser 2 20) (agedUser 1 50) := by
      rintro (hbefore | ⟨hequal, -⟩)
      · exact absurd (show (50 : Int) < 20 from hbefore) (by decide)
      · exact absurd (show some (20 : Int) = some 50 from hequal) (by decide)
    refine .cons ⟨_, List.Perm.refl _, List.pairwise_pair.mpr hordered, by cbv⟩ ?_
    exact .cons ⟨_, List.Perm.refl _, List.pairwise_singleton _ _, by cbv⟩ .nil
  have horder : nextOldest.orderBy =
      [⟨.bare "age", .desc, false⟩] ++ [⟨.bare "id", .asc, false⟩] := rfl
  obtain ⟨merged, hmerged, hanswer⟩ :=
    mergeRows_answers_leading rfl (by decide) horder hcarried hwhole (by decide) hanswers
  have hpage : mergeRows nextOldest [⟨[("years", .ofInt 50)]⟩, ⟨[("years", .ofInt 20)]⟩,
      ⟨[("years", .ofInt 30)]⟩] = .ok [⟨[("years", .ofInt 30)]⟩, ⟨[("years", .ofInt 20)]⟩] := by
    cbv
  have hsame : merged = [⟨[("years", .ofInt 30)]⟩, ⟨[("years", .ofInt 20)]⟩] :=
    Except.ok.inj (hmerged.symm.trans hpage)
  exact ⟨hpage, hsame ▸ hanswer⟩

/-- The youngest user. -/
def youngest : Select where
  table := "users"
  outputs := [.ofColumn (.bare "id")]
  predicate := none
  groupBy := []
  orderBy := [⟨.bare "age", .asc, false⟩]
  limit := some 1
  offset := none

/-- Two shards with one user each: ages are not carried, and the wrong user is the youngest. -/
theorem youngest_is_lost :
    List.Forall₂ (shardSelect youngest).Answers [[agedUser 1 50], [agedUser 100 20]]
      [[⟨[("id", .ofInt 1)]⟩], [⟨[("id", .ofInt 100)]⟩]] ∧
    mergeRows youngest [⟨[("id", .ofInt 1)]⟩, ⟨[("id", .ofInt 100)]⟩] =
      .ok [⟨[("id", .ofInt 1)]⟩] ∧
    ¬youngest.Answers [agedUser 1 50, agedUser 100 20] [⟨[("id", .ofInt 1)]⟩] := by
  refine ⟨?_, by cbv, ?_⟩
  · refine .cons ⟨_, List.Perm.refl _, List.pairwise_singleton _ _, by cbv⟩ ?_
    exact .cons ⟨_, List.Perm.refl _, List.pairwise_singleton _ _, by cbv⟩ .nil
  · rintro ⟨sorted, hperm, hpairs, hanswer⟩
    have hbefore : SortKey.comesBefore youngest.orderBy (agedUser 100 20) (agedUser 1 50) :=
      Or.inl (show (20 : Int) < 50 by decide)
    cases sorted with
    | nil => exact absurd hperm.length_eq (by decide)
    | cons first others =>
      have hfirst : first ∈ [agedUser 1 50, agedUser 100 20] := hperm.mem_iff.mp List.mem_cons_self
      rw [List.mem_cons, List.mem_singleton] at hfirst
      obtain rfl | rfl := hfirst
      · -- The other user is younger and stands behind.
        have hother : agedUser 100 20 ∈ agedUser 1 50 :: others :=
          hperm.mem_iff.mpr (List.mem_cons_of_mem _ List.mem_cons_self)
        have hbehind := (List.mem_cons.mp hother).resolve_left (by decide)
        exact (List.pairwise_cons.mp hpairs).1 _ hbehind hbefore
      · have hid : [(⟨[("id", .ofInt 1)]⟩ : Row)] = [⟨[("id", .ofInt 100)]⟩] := hanswer
        revert hid
        decide

end Merge

end SqlFederation
