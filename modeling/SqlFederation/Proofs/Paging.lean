import SqlFederation.Merge.Rows
import SqlFederation.Proofs.Order

/-!
# Pages of merged reads

A read without groups is sorted and cut to its page (`Merge.mergeRows_of_not_grouped`), and one with
groups as soon as they are folded (`Merge.mergeRows_of_grouped`). Without groups, each shard is
asked for its first `Merge.shardCount` rows, offset included, and as many of the merged rows decide
the page (`Merge.paginate_congr`). By `Sorting.take_mergeSort_flatten` those rows are not among what
the shards cut off, so the page of the whole can be made from theirs (`Merge.mergeRows_pages`).
-/

namespace SqlFederation

namespace Select

variable {select : Select}

/-- Without aggregates every output is a column. -/
theorem function?_eq_none (h : select.hasAggregates = false) {output : Output}
    (hmem : output ∈ select.outputs) : output.function? = none := by
  rw [hasAggregates, List.any_eq_false] at h
  simpa using h output hmem

end Select

namespace Merge

variable {select : Select}

/-- A select without groups is passed on with a limit that covers the offset. -/
theorem shardSelect_of_not_grouped (h : select.isGrouped = false) :
    shardSelect select =
      { select with
        limit := select.limit.map fun limit => min maxLimit (limit + select.offset.getD 0)
        offset := none } := by
  have haggregates : select.hasAggregates = false := by
    rw [Select.isGrouped, Bool.or_eq_false_iff] at h
    exact h.1
  have hcolumn : ∀ output ∈ select.outputs,
      shardOutput output = output ∧ countOutput? output = none := by
    intro output hmem
    have hnone := Select.function?_eq_none haggregates hmem
    obtain ⟨expression, label⟩ := output
    cases expression with
    | column column => exact ⟨rfl, rfl⟩
    | aggregate function column => exact absurd hnone (Option.some_ne_none _)
  have houtputs : select.outputs.map shardOutput = select.outputs := by
    rw [List.map_congr_left fun output hmem => (hcolumn output hmem).1, List.map_id']
  have hcounts : select.outputs.filterMap countOutput? = [] := by
    rw [List.filterMap_eq_nil_iff]
    exact fun output hmem => (hcolumn output hmem).2
  rw [shardSelect, houtputs, hcounts, List.append_nil, h]
  rfl

/-- A shard sorts by the keys of the whole. -/
theorem sortKeys_shardSelect (h : select.isGrouped = false) :
    sortKeys (shardSelect select) = sortKeys select := by
  rw [shardSelect_of_not_grouped h]
  rfl

/-- A shard groups no more than the whole. -/
theorem isGrouped_shardSelect (h : select.isGrouped = false) :
    (shardSelect select).isGrouped = false := by
  rw [shardSelect_of_not_grouped h]
  exact h

/-- Rows without an order stay as they are, which is how they are sorted by no keys. -/
theorem sort_eq_sortRows (select : Select) (rows : List Row) :
    (if select.orderBy.isEmpty then rows else sortRows select rows) = sortRows select rows := by
  split
  · rename_i hempty
    have hkeys : sortKeys select = [] := by
      rw [sortKeys, List.isEmpty_iff.mp hempty, List.map_nil]
    rw [sortRows, hkeys, List.mergeSort_of_pairwise]
    exact List.pairwise_of_forall fun _ _ => rfl
  · rfl

/-- Without groups, rows are merged by sorting them and cutting out the page. -/
theorem mergeRows_of_not_grouped (h : select.isGrouped = false) (rows : List Row) :
    mergeRows select rows =
      .ok (paginate select.limit select.offset (sortRows select rows)) := by
  rw [mergeRows, h]
  exact congrArg (fun sorted => Except.ok (paginate select.limit select.offset sorted))
    (sort_eq_sortRows select rows)

/-- Groups are folded before they are sorted and cut to the page. -/
theorem mergeRows_of_grouped (h : select.isGrouped = true)
    (haccepted : checkGrouping select = .ok ()) (rows : List Row) :
    mergeRows select rows =
      .ok (paginate select.limit select.offset (sortRows select (foldGroups select rows))) := by
  rw [mergeRows, if_pos h, aggregate, haccepted]
  exact congrArg (fun sorted => Except.ok (paginate select.limit select.offset sorted))
    (sort_eq_sortRows select (foldGroups select rows))

/-- A page of sorted rows has only rows that were there. -/
theorem mem_of_mem_page {rows : List Row} {row : Row}
    (h : row ∈ paginate select.limit select.offset (sortRows select rows)) : row ∈ rows := by
  have hpage : (paginate select.limit select.offset (sortRows select rows)).Sublist
      (sortRows select rows) := by
    unfold paginate
    split
    · exact (List.take_sublist _ _).trans (List.drop_sublist _ _)
    · exact List.drop_sublist _ _
  exact List.mem_mergeSort.mp (hpage.subset h)

/-- How many of its first rows a shard is asked for. -/
def shardCount (limit offset : Option Nat) : Nat :=
  match limit with
  | some limit => min maxLimit (limit + offset.getD 0)
  | none => maxLimit

/-- A shard sends its first rows. -/
theorem mergeRows_shardSelect (h : select.isGrouped = false) {rows : List Row}
    (hsize : rows.length ≤ maxLimit) :
    mergeRows (shardSelect select) rows =
      .ok ((sortRows select rows).take (shardCount select.limit select.offset)) := by
  rw [mergeRows_of_not_grouped (isGrouped_shardSelect h), sortRows, sortKeys_shardSelect h,
    ← sortRows, shardSelect_of_not_grouped h]
  cases select.limit with
  | some limit => rfl
  | none =>
    have hlength : (sortRows select rows).length ≤ maxLimit := by
      rw [sortRows, List.length_mergeSort]
      exact hsize
    rw [shardCount, List.take_of_length_le hlength]
    rfl

/-- As many rows as a shard is asked for decide the page, unless there are more than any limit. -/
theorem paginate_congr {limit offset : Option Nat} {a b : List Row} (ha : a.length ≤ maxLimit)
    (hb : b.length ≤ maxLimit)
    (h : a.take (shardCount limit offset) = b.take (shardCount limit offset)) :
    paginate limit offset a = paginate limit offset b := by
  have hall : maxLimit ≤ shardCount limit offset → a = b := by
    intro hcount
    rw [List.take_of_length_le (Nat.le_trans ha hcount),
      List.take_of_length_le (Nat.le_trans hb hcount)] at h
    exact h
  cases limit with
  | none => rw [hall (Nat.le_refl _)]
  | some limit =>
    by_cases hfits : limit + offset.getD 0 ≤ maxLimit
    · rw [shardCount, Nat.min_eq_right hfits, Nat.add_comm] at h
      rw [paginate, paginate, List.take_drop, List.take_drop, h]
    · -- The limit was cut to the largest one, which covers every row.
      rw [hall]
      rw [shardCount]
      omega

/-- Steps that all succeed give the list of their results. -/
theorem mapM_eq_ok {α β ε : Type} {f : α → Except ε β} {g : α → β} {l : List α}
    (h : ∀ a ∈ l, f a = .ok (g a)) : l.mapM f = .ok (l.map g) := by
  induction l with
  | nil => rfl
  | cons a rest ih =>
    rw [List.forall_mem_cons] at h
    rw [List.mapM_cons, h.1, ih h.2]
    rfl

/-- The rows that shards send are no more than those they have. -/
theorem length_flatten_take_le (f : List Row → List Row)
    (hf : ∀ rows, (f rows).length = rows.length) (n : Nat) (pieces : List (List Row)) :
    (pieces.map fun rows => (f rows).take n).flatten.length ≤ pieces.flatten.length := by
  induction pieces with
  | nil => exact Nat.le_refl _
  | cons rows rest ih =>
    rw [List.map_cons, List.flatten_cons, List.flatten_cons, List.length_append,
      List.length_append, List.length_take, hf]
    omega

/-- The page of all rows, made from the rows that each shard sends. -/
theorem mergeRows_pages (h : select.isGrouped = false) {pieces : List (List Row)}
    (hplain : ∀ rows ∈ pieces, ∀ row ∈ rows, plainUnder (sortKeys select) row = true)
    (hsize : pieces.flatten.length ≤ maxLimit) :
    mergeRows select (pieces.map fun rows =>
        (sortRows select rows).take (shardCount select.limit select.offset)).flatten =
      mergeRows select pieces.flatten := by
  -- All rows are plain, so that they are sorted by an order, each page as well as the whole.
  have hsorted : (pieces.map fun rows =>
      (sortRows select rows).take (shardCount select.limit select.offset)) =
        pieces.map fun rows => (rows.mergeSort (plainFirst (sortKeys select))).take
          (shardCount select.limit select.offset) := by
    apply List.map_congr_left
    intro rows hrows
    rw [sortRows_eq (hplain rows hrows)]
  have hpages : ∀ row ∈ (pieces.map fun rows =>
      (rows.mergeSort (plainFirst (sortKeys select))).take
        (shardCount select.limit select.offset)).flatten,
      plainUnder (sortKeys select) row = true := by
    intro row hrow
    obtain ⟨page, hpage, hmem⟩ := List.mem_flatten.mp hrow
    obtain ⟨rows, hrows, rfl⟩ := List.mem_map.mp hpage
    exact hplain rows hrows row (List.mem_mergeSort.mp (List.mem_of_mem_take hmem))
  have hall : ∀ row ∈ pieces.flatten, plainUnder (sortKeys select) row = true := by
    intro row hrow
    obtain ⟨rows, hrows, hmem⟩ := List.mem_flatten.mp hrow
    exact hplain rows hrows row hmem
  have hlength := length_flatten_take_le (fun rows => rows.mergeSort (plainFirst (sortKeys select)))
    (fun rows => List.length_mergeSort rows) (shardCount select.limit select.offset) pieces
  rw [mergeRows_of_not_grouped h, mergeRows_of_not_grouped h, hsorted, sortRows_eq hpages,
    sortRows_eq hall]
  congr 1
  apply paginate_congr
  · rw [List.length_mergeSort]
    exact Nat.le_trans hlength hsize
  · rw [List.length_mergeSort]
    exact hsize
  · exact (isOrder_plainFirst (sortKeys select)).take_mergeSort_flatten (Nat.le_refl _) pieces

end Merge

end SqlFederation
