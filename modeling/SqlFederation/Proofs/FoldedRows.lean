import SqlFederation.Merge.Rows
import SqlFederation.Proofs.Groups
import SqlFederation.Proofs.KeyText

/-!
# The rows of folded groups

Rows are folded together if and only if their group values are the same (`Merge.groupKey_eq_iff`):
the key of a group is the text of its values, and different values have different texts. So the
groups are those of the tuples of group values, in the order in which these first appear
(`Merge.foldGroups_eq_map_tuples`).

The row of a group is the first row of the group, on which each aggregate is settled in turn: its
output is set, and the hidden count of an average is taken out, which moves the last column into its
place (`Row.eraseEntries_perm`). Neither changes any other column (`Merge.get?_settle`), so a folded
row has the other columns of the first row (`Merge.get?_foldedRow`).
-/

namespace SqlFederation

namespace Row

/-- Taking out a column only moves the entries of the other columns. -/
theorem eraseEntries_perm (column : String) (entries : List (String × Json)) :
    (eraseEntries column entries).Perm (entries.eraseP fun entry => entry.1 == column) := by
  induction entries with
  | nil => exact List.Perm.refl _
  | cons entry rest ih =>
    obtain ⟨k, v⟩ := entry
    rw [eraseEntries]
    split
    · rename_i hk
      rw [List.eraseP_cons_of_pos (by simpa using hk)]
      cases hlast : rest.getLast? with
      | none => rw [List.getLast?_eq_none_iff.mp hlast]
      | some last =>
        have hrest := List.dropLast_append_getLast? last hlast
        exact (List.perm_append_singleton last rest.dropLast).symm.trans (.of_eq hrest)
    · rename_i hk
      rw [List.eraseP_cons_of_neg (by simpa using hk)]
      exact ih.cons _

/-- What stands in front of a column stays where it is when the column is taken out. -/
theorem eraseEntries_append {column : String} {front : List (String × Json)}
    (h : column ∉ front.map Prod.fst) (back : List (String × Json)) :
    eraseEntries column (front ++ back) = front ++ eraseEntries column back := by
  induction front with
  | nil => rfl
  | cons entry rest ih =>
    obtain ⟨k, v⟩ := entry
    rw [List.map_cons, List.mem_cons, not_or] at h
    rw [List.cons_append, eraseEntries, if_neg (Ne.symm h.1), ih h.2, List.cons_append]

/-- The columns that are left when one is taken out. -/
theorem columns_erase_perm (row : Row) (column : String) :
    (row.erase column).columns.Perm (row.columns.erase column) := by
  have hcolumns : row.columns.erase column =
      (row.entries.eraseP fun entry => entry.1 == column).map Prod.fst := by
    rw [columns, List.erase_eq_eraseP', List.eraseP_map]
    rfl
  rw [hcolumns]
  exact (eraseEntries_perm column row.entries).map Prod.fst

/-- What stands in front of a column stays in front of what is left behind it. -/
theorem exists_columns_erase {row : Row} {front back : List String} {column : String}
    (hrow : row.columns = front ++ back) (h : column ∉ front) :
    ∃ rest, (row.erase column).columns = front ++ rest ∧ rest.Perm (back.erase column) := by
  obtain ⟨before, behind, hsplit, rfl, rfl⟩ := List.map_eq_append_iff.mp hrow
  refine ⟨(Row.erase ⟨behind⟩ column).columns, ?_, columns_erase_perm ⟨behind⟩ column⟩
  rw [erase, hsplit, eraseEntries_append h, columns, List.map_append]
  rfl

/-- Taking out a column leaves no column twice. -/
theorem nodup_columns_erase {row : Row} (h : row.columns.Nodup) (column : String) :
    (row.erase column).columns.Nodup :=
  (row.columns_erase_perm column).nodup_iff.mpr (h.erase column)

/-- Where no column is twice, a column has the value of its entry. -/
theorem get?_eq_some_iff {row : Row} (hrow : row.columns.Nodup) {column : String} {value : Json} :
    row.get? column = some value ↔ (column, value) ∈ row.entries := by
  constructor
  · intro hvalue
    obtain ⟨front, back, hsplit, -⟩ := List.lookup_eq_some_iff.mp hvalue
    rw [hsplit]
    exact List.mem_append_right _ List.mem_cons_self
  · exact fun hmem => lookup_of_mem hrow hmem

/-- Taking out a column leaves the values of the others. -/
theorem get?_erase_of_ne {row : Row} (hrow : row.columns.Nodup) {column other : String}
    (h : other ≠ column) : (row.erase column).get? other = row.get? other := by
  refine Option.ext fun value => ?_
  rw [get?_eq_some_iff (nodup_columns_erase hrow column), get?_eq_some_iff hrow, erase,
    (eraseEntries_perm column row.entries).mem_iff]
  exact List.mem_eraseP_of_neg (by simpa using h)

/-- Setting a column of a row leaves its columns; setting another one adds it behind them. -/
theorem columns_insert (row : Row) (column : String) (value : Json) :
    (row.insert column value).columns =
      if column ∈ row.columns then row.columns else row.columns ++ [column] := by
  obtain ⟨entries⟩ := row
  show (Json.put column value entries).map Prod.fst =
    if column ∈ entries.map Prod.fst then entries.map Prod.fst else entries.map Prod.fst ++ [column]
  induction entries with
  | nil => rfl
  | cons entry rest ih =>
    obtain ⟨k, v⟩ := entry
    rw [Json.put]
    by_cases hk : k = column
    · simp [hk]
    · by_cases hrest : column ∈ rest.map Prod.fst
      · simp [hk, ih, hrest]
      · simp [hk, Ne.symm hk, ih, hrest]

theorem mem_columns_insert {row : Row} {column other : String} {value : Json} :
    other ∈ (row.insert column value).columns ↔ other = column ∨ other ∈ row.columns := by
  rw [columns_insert]
  split
  · rename_i hmem
    exact ⟨Or.inr, fun h => h.elim (fun heq => heq ▸ hmem) id⟩
  · rw [List.mem_append, List.mem_singleton, or_comm]

theorem mem_columns_erase {row : Row} (hrow : row.columns.Nodup) {column other : String} :
    other ∈ (row.erase column).columns ↔ other ≠ column ∧ other ∈ row.columns := by
  rw [(row.columns_erase_perm column).mem_iff, hrow.mem_erase_iff]

/-- Setting a column leaves no column twice. -/
theorem nodup_columns_insert {row : Row} (h : row.columns.Nodup) (column : String) (value : Json) :
    (row.insert column value).columns.Nodup := by
  rw [columns_insert]
  split
  · exact h
  · rename_i hfresh
    exact List.nodup_append.mpr ⟨h, List.nodup_singleton _,
      fun a ha b hb hab => hfresh (List.mem_singleton.mp hb ▸ hab ▸ ha)⟩

/-- The first value of a row is that of its first column. -/
theorem first_eq_value {row : Row} {name : String} {rest : List String}
    (h : row.columns = name :: rest) : row.first = row.value name := by
  obtain ⟨entries⟩ := row
  cases entries with
  | nil => cases h
  | cons entry others =>
    obtain ⟨k, v⟩ := entry
    obtain rfl : k = name := (List.cons.inj h).1
    rw [Row.first, Row.value, Row.get?, List.lookup_cons_self]
    rfl

end Row

namespace Merge

variable {select : Select} {rows : List Row}

/-! ## Groups of equal values -/

/-- The values that a row is grouped by; a column that is not there counts as null. -/
def groupTuple (select : Select) (row : Row) : List Json :=
  select.groupNames.map row.value

/-- The row of the group of some rows. -/
def foldedRow (select : Select) : List Row → Row
  | [] => Row.empty
  | head :: tail => (aggregates select).foldl
    (fun row a => settle row a.1 a.2 (foldedValue a.1 a.2 head tail)) head

/-- The group of a row has a first row. -/
theorem exists_head_of_mem {α : Type} [DecidableEq α] (keyOf : Row → α) {first : Row}
    (hfirst : first ∈ rows) :
    ∃ head ∈ rows, ∃ tail,
      (rows.filter fun row => decide (keyOf row = keyOf first)) = head :: tail := by
  have hmem : first ∈ rows.filter fun row => decide (keyOf row = keyOf first) :=
    List.mem_filter.mpr ⟨hfirst, decide_eq_true rfl⟩
  obtain ⟨head, tail, hgroup⟩ := List.exists_cons_of_ne_nil (List.ne_nil_of_mem hmem)
  have hhead : head ∈ rows.filter fun row => decide (keyOf row = keyOf first) := by
    rw [hgroup]
    exact List.mem_cons_self
  exact ⟨head, List.mem_of_mem_filter hhead, tail, hgroup⟩

/-- The rows of folded groups: one for each key, of the rows that have it. -/
theorem foldGroups_eq_map_foldedRow (select : Select) (rows : List Row) :
    foldGroups select rows = (rows.map (groupKey select)).eraseDups.map fun key =>
      foldedRow select (rows.filter fun row => decide (groupKey select row = key)) := by
  rw [foldGroups_eq]
  apply List.map_congr_left
  intro key hkey
  rw [List.mem_eraseDups] at hkey
  obtain ⟨first, hfirst, rfl⟩ := List.mem_map.mp hkey
  obtain ⟨head, -, tail, hgroup⟩ := exists_head_of_mem (groupKey select) hfirst
  rw [hgroup]
  exact finish_groupOf_eq_settle _ head tail

/-- A folded row is that of a group of some of the rows. -/
theorem exists_of_mem_foldGroups {row : Row} (h : row ∈ foldGroups select rows) :
    ∃ head ∈ rows, ∃ tail, row = foldedRow select (head :: tail) := by
  rw [foldGroups_eq_map_foldedRow] at h
  obtain ⟨key, hkey, rfl⟩ := List.mem_map.mp h
  rw [List.mem_eraseDups] at hkey
  obtain ⟨first, hfirst, rfl⟩ := List.mem_map.mp hkey
  obtain ⟨head, hhead, tail, hgroup⟩ := exists_head_of_mem (groupKey select) hfirst
  exact ⟨head, hhead, tail, congrArg (foldedRow select) hgroup⟩

/-- Can rows be grouped by their values? They are null, truth values, integers or texts. -/
def PlainGroups (select : Select) (rows : List Row) : Prop :=
  ∀ row ∈ rows, ∀ value ∈ groupTuple select row, value.isPlain = true

instance (select : Select) (rows : List Row) : Decidable (PlainGroups select rows) :=
  inferInstanceAs (Decidable (∀ row ∈ rows, ∀ value ∈ groupTuple select row, value.isPlain = true))

/-- Rows have the same key if and only if they are grouped by the same values. -/
theorem groupKey_eq_iff (hplain : PlainGroups select rows) {one other : Row} (hone : one ∈ rows)
    (hother : other ∈ rows) :
    groupKey select one = groupKey select other ↔
      groupTuple select one = groupTuple select other := by
  constructor
  · intro hkey
    refine Json.compact_arr_inj (hplain one hone) (hplain other hother) ?_ hkey
    rw [groupTuple, groupTuple, List.length_map, List.length_map]
  · exact fun htuple => congrArg (fun values => (Json.arr values).compact) htuple

/-- The rows of folded groups: one for each tuple of group values, of the rows that have it. -/
theorem foldGroups_eq_map_tuples (hplain : PlainGroups select rows) :
    foldGroups select rows = (rows.map (groupTuple select)).eraseDups.map fun tuple =>
      foldedRow select (rows.filter fun row => decide (groupTuple select row = tuple)) := by
  have hkeys : rows.map (groupKey select) =
      (rows.map (groupTuple select)).map fun values => (Json.arr values).compact := by
    rw [List.map_map]
    rfl
  have hinj : ∀ a ∈ rows.map (groupTuple select), ∀ b ∈ rows.map (groupTuple select),
      (Json.arr a).compact = (Json.arr b).compact → a = b := by
    simp only [List.forall_mem_map]
    exact fun one hone other hother => (groupKey_eq_iff hplain hone hother).mp
  rw [foldGroups_eq_map_foldedRow, hkeys, Pieces.eraseDups_map hinj, List.map_map]
  apply List.map_congr_left
  intro tuple htuple
  rw [List.mem_eraseDups] at htuple
  obtain ⟨first, hfirst, rfl⟩ := List.mem_map.mp htuple
  exact congrArg (foldedRow select) (List.filter_congr fun row hrow =>
    decide_eq_decide.mpr (groupKey_eq_iff hplain hrow hfirst))

/-! ## Columns that are not aggregated -/

/-- Settling an output leaves no column twice. -/
theorem nodup_columns_settle {row : Row} (h : row.columns.Nodup) (output : String)
    (function : Aggregate) (value : Json) : (settle row output function value).columns.Nodup := by
  have hset := Row.nodup_columns_insert h output value
  cases function with
  | avg => exact Row.nodup_columns_erase hset _
  | _ => exact hset

/-- Settling an output changes this output, and the hidden count behind an average. -/
theorem get?_settle {row : Row} (hrow : row.columns.Nodup) {column output : String}
    {function : Aggregate} (hne : column ≠ output)
    (hhidden : function = .avg → column ≠ hiddenCount output) (value : Json) :
    (settle row output function value).get? column = row.get? column := by
  have hset := Row.get?_insert_of_ne hne row value
  cases function with
  | avg =>
    rw [settle, Row.get?_erase_of_ne (Row.nodup_columns_insert hrow output value) (hhidden rfl),
      hset]
  | _ => exact hset

/-- Is a column neither an aggregated output nor the hidden count behind one? -/
def IsKept (select : Select) (column : String) : Prop :=
  ∀ a ∈ aggregates select, column ≠ a.1 ∧ (a.2 = .avg → column ≠ hiddenCount a.1)

instance (select : Select) (column : String) : Decidable (IsKept select column) :=
  inferInstanceAs (Decidable (∀ a ∈ aggregates select,
    column ≠ a.1 ∧ (a.2 = .avg → column ≠ hiddenCount a.1)))

/-- Settling outputs one after the other leaves the columns that none of them touches. -/
theorem get?_foldl_settle {aggs : List (String × Aggregate)} {column : String}
    (hkept : ∀ a ∈ aggs, column ≠ a.1 ∧ (a.2 = .avg → column ≠ hiddenCount a.1))
    (value : String × Aggregate → Json) {row : Row} (hrow : row.columns.Nodup) :
    (aggs.foldl (fun row a => settle row a.1 a.2 (value a)) row).get? column =
      row.get? column := by
  induction aggs generalizing row with
  | nil => rfl
  | cons a rest ih =>
    obtain ⟨⟨hne, hhidden⟩, hrest⟩ := List.forall_mem_cons.mp hkept
    rw [List.foldl_cons, ih hrest (nodup_columns_settle hrow a.1 a.2 (value a)),
      get?_settle hrow hne hhidden]

/-- The row of a group has the columns of its first row that are not aggregated. -/
theorem get?_foldedRow {head : Row} (hhead : head.columns.Nodup) (tail : List Row)
    {column : String} (hkept : IsKept select column) :
    (foldedRow select (head :: tail)).get? column = head.get? column :=
  get?_foldl_settle hkept _ hhead

/--
Grouping folds exactly the rows of equal values. There is one row for each tuple of group values, in
the order in which the tuples first appear: the row of the group of all rows that have the tuple.
Two rows have the same key if and only if they have the same tuple. The columns that are not
aggregated, hidden counts apart, are those of the first row of the tuple.
-/
theorem mergeRows_folds_equal_tuples (hgrouped : select.isGrouped = true)
    (haccepted : checkGrouping select = .ok ()) (horder : select.orderBy = [])
    (hlimit : select.limit = none) (hoffset : select.offset = none)
    (hrows : ∀ row ∈ rows, row.columns.Nodup) (hplain : PlainGroups select rows) :
    mergeRows select rows = .ok ((rows.map (groupTuple select)).eraseDups.map fun tuple =>
      foldedRow select (rows.filter fun row => decide (groupTuple select row = tuple))) ∧
    (∀ one ∈ rows, ∀ other ∈ rows, groupKey select one = groupKey select other ↔
      groupTuple select one = groupTuple select other) ∧
    ∀ first ∈ rows, ∃ head tail,
      (rows.filter fun row => decide (groupTuple select row = groupTuple select first)) =
        head :: tail ∧
      ∀ column, IsKept select column →
        (foldedRow select (head :: tail)).get? column = head.get? column := by
  have hsorted : mergeRows select rows = .ok (foldGroups select rows) := by
    rw [mergeRows, if_pos hgrouped, aggregate, haccepted, horder, hlimit, hoffset]
    rfl
  refine ⟨?_, fun one hone other hother => groupKey_eq_iff hplain hone hother, ?_⟩
  · rw [hsorted, foldGroups_eq_map_tuples hplain]
  · intro first hfirst
    obtain ⟨head, hhead, tail, hgroup⟩ := exists_head_of_mem (groupTuple select) hfirst
    exact ⟨head, tail, hgroup, fun column hkept => get?_foldedRow (hrows head hhead) tail hkept⟩

/-- Total and mean by street and house, which are texts, numbers or not known. -/
def byHouse : Select where
  table := "orders"
  outputs := [.ofColumn (.bare "street"), .columnAs (.bare "house") "no",
    .ofAggregate .sum (some (.bare "price")) "total",
    .ofAggregate .avg (some (.bare "price")) "mean"]
  predicate := none
  groupBy := [.bare "street", .bare "house"]
  orderBy := []
  limit := none
  offset := none

/-- The row of an order in a house; the clerk is no output of the read. -/
def houseRow (street house : Json) (price : Int) (clerk : String) : Row :=
  ⟨[("street", street), ("no", house), ("total", .ofInt price), ("mean", .ofInt price),
    ("mean__count", .ofInt 1), ("clerk", .str clerk)]⟩

/-- A house without a street, whose column is missing. -/
def houseless (price : Int) (clerk : String) : Row :=
  ⟨[("no", .ofInt 1), ("total", .ofInt price), ("mean", .ofInt price), ("mean__count", .ofInt 1),
    ("clerk", .str clerk)]⟩

/-- Orders of houses whose streets and numbers run into each other when they are put in a row. -/
def houses : List Row :=
  [houseRow (.str "a\",\"b") (.str "c") 1 "x", houseRow (.str "a") (.str "b\",\"c") 2 "x",
    houseless 3 "x", houseRow .null (.str "1") 4 "x", houseRow .null (.ofInt 1) 5 "y",
    houseRow (.str "a\",\"b") (.str "c") 6 "y"]

/--
Four houses, two of which have two orders: one with quotes, and one without a street, whose row has
the clerk of its first order.
-/
theorem mergeRows_folds_equal_tuples_byHouse :
    mergeRows byHouse houses =
      .ok [foldedRow byHouse [houseRow (.str "a\",\"b") (.str "c") 1 "x",
          houseRow (.str "a\",\"b") (.str "c") 6 "y"],
        foldedRow byHouse [houseRow (.str "a") (.str "b\",\"c") 2 "x"],
        foldedRow byHouse [houseless 3 "x", houseRow .null (.ofInt 1) 5 "y"],
        foldedRow byHouse [houseRow .null (.str "1") 4 "x"]] ∧
    (foldedRow byHouse [houseless 3 "x", houseRow .null (.ofInt 1) 5 "y"]).get? "clerk" =
      some (.str "x") := by
  have hplain : PlainGroups byHouse houses := by decide
  have hgrouped : byHouse.isGrouped = true := rfl
  obtain ⟨hmerged, -, hkept⟩ :=
    mergeRows_folds_equal_tuples hgrouped rfl rfl rfl rfl (by decide) hplain
  constructor
  · have hgroups : ((houses.map (groupTuple byHouse)).eraseDups.map fun tuple =>
        houses.filter fun row => decide (groupTuple byHouse row = tuple)) =
          [[houseRow (.str "a\",\"b") (.str "c") 1 "x", houseRow (.str "a\",\"b") (.str "c") 6 "y"],
            [houseRow (.str "a") (.str "b\",\"c") 2 "x"],
            [houseless 3 "x", houseRow .null (.ofInt 1) 5 "y"],
            [houseRow .null (.str "1") 4 "x"]] := by decide
    have hrows := congrArg (List.map (foldedRow byHouse)) hgroups
    rw [List.map_map] at hrows
    exact hmerged.trans (congrArg Except.ok hrows)
  · obtain ⟨head, tail, hgroup, hcolumn⟩ := hkept (houseless 3 "x") (by decide)
    have hthird : (houses.filter fun row =>
        decide (groupTuple byHouse row = groupTuple byHouse (houseless 3 "x"))) =
          [houseless 3 "x", houseRow .null (.ofInt 1) 5 "y"] := by decide
    obtain ⟨rfl, rfl⟩ := List.cons.inj (hthird.symm.trans hgroup)
    exact hcolumn "clerk" (by decide)

end Merge

end SqlFederation
