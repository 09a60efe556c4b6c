import Mathlib.Data.List.Sublists
import SqlFederation.Merge.Rows
import SqlFederation.Proofs.Grouping

/-!
# Distributed aggregation

Folding the rows of the parts of a group makes the row of the group
(`Central.finish_groupOf_row`), since the aggregates of the parts merge to the aggregate of the
group. Group by group, the folded answers of all shards are the answer over the rows of all shards
(`Central.foldGroups_answer`), as long as these can be aggregated at all (`Central.Fits`).
-/

namespace SqlFederation

namespace Central

open Merge (groupKey mergeValues)

variable {select : Select} {rows : List Row} {key : List Json}

/-! ## Merged aggregates -/

/-- What an aggregate reads of a row; one that reads no column counts every row. -/
def argument (column : Option ColumnRef) (r : Row) : Json :=
  match column with
  | some column => r.value column.name
  | none => .bool true

/-- The value of an aggregate combines what is read of the rows of the group. -/
theorem outputValue_aggregate {output : Output} {function : Aggregate} {column : Option ColumnRef}
    (hexp : output.expression = .aggregate function column)
    (hcount : column = none → function = .count) (group : List Row) :
    outputValue group output = combine function (group.map (argument column)) := by
  rw [outputValue, hexp]
  cases column with
  | some column => rfl
  | none =>
    have hall : Merge.present (group.map (argument none)) = group.map (argument none) := by
      rw [Merge.present, List.filter_eq_self]
      intro v hv
      obtain ⟨r, -, rfl⟩ := List.mem_map.mp hv
      rfl
    rw [hcount rfl, combine, hall, List.length_map]

/-- A regular read has no averages. -/
theorem ne_avg_of_mem_aggregates (h : select.IsRegular) :
    ∀ a ∈ Merge.aggregates select, a.2 ≠ .avg := by
  intro a ha
  obtain ⟨output, hout, hsome⟩ := List.mem_filterMap.mp ha
  obtain ⟨function, hfunction, rfl⟩ := Option.map_eq_some_iff.mp hsome
  cases hexp : output.expression with
  | column column =>
    rw [Output.function?, hexp] at hfunction
    cases hfunction
  | aggregate other column =>
    rw [Output.function?, hexp] at hfunction
    cases hfunction
    exact (h.functions output hout function column hexp).1

/-- The aggregates in the rows of the parts of a group merge to the aggregate of the group. -/
theorem foldl_value_row (h : select.IsRegular) {output : Output} (hout : output ∈ select.outputs)
    {function : Aggregate} {column : Option ColumnRef}
    (hexp : output.expression = .aggregate function column) {part : List Row}
    {parts : List (List Row)}
    (hcombinable : Combinable function ((part ++ parts.flatten).map (argument column))) :
    (parts.map (row select)).foldl
        (fun held r => mergeValues function held (r.value output.name))
        ((row select part).value output.name) =
      outputValue (part ++ parts.flatten) output := by
  have hcombined := outputValue_aggregate hexp (h.functions output hout function column hexp).2
  have hvalue : ∀ group : List Row, (row select group).value output.name =
      combine function (group.map (argument column)) := by
    intro group
    rw [value_row h hout, hcombined]
  rw [List.map_append, List.map_flatten] at hcombinable
  have hmerged := foldl_mergeValues hcombinable
  rw [List.foldl_map] at hmerged
  rw [hcombined, List.map_append, List.map_flatten, ← hmerged, List.foldl_map]
  simp only [hvalue]

/-- Folding the rows of the parts of a group makes the row of the group. -/
theorem finish_groupOf_row (h : select.IsRegular) (text : String) {part : List Row}
    {parts : List (List Row)} (hne : ∀ column ∈ select.groupBy, part ≠ [])
    (hcombinable : ∀ output ∈ select.outputs, ∀ function column,
      output.expression = .aggregate function column →
        Combinable function ((part ++ parts.flatten).map (argument column))) :
    (Merge.groupOf (Merge.aggregates select) text
        (row select part :: parts.map (row select))).finish (Merge.aggregates select) =
      row select (part ++ parts.flatten) := by
  rw [Merge.finish_groupOf (ne_avg_of_mem_aggregates h), Merge.aggregates]
  have hset := Merge.foldl_insert_aggregates h.names
    (fun a => (parts.map (row select)).foldl
      (fun held r => mergeValues a.2 held (r.value a.1)) ((row select part).value a.1))
    (fun o ho => ho) (outputValue part)
  refine hset.trans ?_
  rw [row]
  congr 1
  apply List.map_congr_left
  intro output hout
  congr 1
  cases hexp : output.expression with
  | column column =>
    have hnone : output.function? = none := by rw [Output.function?, hexp]
    obtain ⟨group, hgroup, -⟩ := h.columns output hout column hexp
    simp only [hnone]
    -- The first row of the first part is the first row of the group.
    rw [outputValue, outputValue, hexp]
    cases hpart : part with
    | nil => exact absurd hpart (hne group hgroup)
    | cons first rest => rfl
  | aggregate function column =>
    have hsome : output.function? = some function := by rw [Output.function?, hexp]
    simp only [hsome, hout, if_true]
    exact foldl_value_row h hout hexp (hcombinable output hout function column hexp)

/-! ## Folding the answers of all shards -/

/--
Can a grouped read aggregate some rows? Its group columns and extremes have values in an order, its
sums add integers, and neither the number of rows nor the sum of any of them exceeds 64 bits.
-/
structure Fits (select : Select) (rows : List Row) : Prop where
  size : fitsSigned rows.length = true
  groups : PlainTuples select rows
  extremes : ∀ output ∈ select.outputs, ∀ function column,
    output.expression = .aggregate function (some column) → function = .min ∨ function = .max →
      ∀ r ∈ rows, (r.value column.name).isPlain = true
  summands : ∀ output ∈ select.outputs, ∀ column,
    output.expression = .aggregate .sum (some column) →
      ∀ r ∈ rows, r.value column.name = .null ∨ ∃ k, (r.value column.name).asInt? = some k
  sums : ∀ output ∈ select.outputs, ∀ column,
    output.expression = .aggregate .sum (some column) → ∀ part : List Row, part.Sublist rows →
      fitsSigned (total (part.map fun r => r.value column.name)) = true

/-- What is aggregated of a group can be aggregated. -/
theorem Fits.combinable (hfits : Fits select rows) (h : select.IsRegular) {output : Output}
    (hout : output ∈ select.outputs) {function : Aggregate} {column : Option ColumnRef}
    (hexp : output.expression = .aggregate function column) {group : List Row}
    (hsub : group.Sublist rows) : Combinable function (group.map (argument column)) := by
  obtain ⟨havg, hcount⟩ := h.functions output hout function column hexp
  have hsize : fitsSigned (rows.map (argument column)).length = true := by
    rw [List.length_map]
    exact hfits.size
  suffices hall : Combinable function (rows.map (argument column)) from
    hall.sublist (hsub.map (argument column))
  cases column with
  | none =>
    rw [hcount rfl]
    exact hsize
  | some column =>
    cases function with
    | avg => exact absurd rfl havg
    | count => exact hsize
    | min =>
      intro v hv
      obtain ⟨r, hr, rfl⟩ := List.mem_map.mp hv
      exact hfits.extremes output hout .min column hexp (Or.inl rfl) r hr
    | max =>
      intro v hv
      obtain ⟨r, hr, rfl⟩ := List.mem_map.mp hv
      exact hfits.extremes output hout .max column hexp (Or.inr rfl) r hr
    | sum =>
      constructor
      · intro v hv
        obtain ⟨r, hr, rfl⟩ := List.mem_map.mp hv
        exact hfits.summands output hout column hexp r hr
      · intro part hpart
        obtain ⟨some, hsome, rfl⟩ := List.sublist_map_iff.mp hpart
        exact hfits.sums output hout column hexp some hsome

/-- The folded answers of the shards are the answer over the rows of all shards. -/
theorem foldGroups_answer (h : select.IsRegular) {pieces : List (List Row)} (hne : pieces ≠ [])
    (hfits : Fits select pieces.flatten) :
    Merge.foldGroups select (pieces.flatMap (answer select)) = answer select pieces.flatten := by
  have hinj := keyText_inj hfits.groups
  have hkeys : (pieces.flatMap (answer select)).map (groupKey select) =
      (pieces.flatMap (tuples select)).map keyText := by
    rw [List.map_flatMap, List.map_flatMap]
    congr 1
    funext rows
    rw [answer, List.map_map]
    exact List.map_congr_left fun key hkey => groupKey_row h hkey
  rw [Merge.foldGroups_eq, hkeys, Pieces.eraseDups_map hinj, eraseDups_tuples hne, List.map_map,
    answer]
  apply List.map_congr_left
  intro key hkey
  have hflat : key ∈ pieces.flatMap (tuples select) := by
    rw [← eraseDups_tuples hne, List.mem_eraseDups] at hkey
    exact hkey
  have hapart : ∀ rows ∈ pieces, ∀ k ∈ tuples select rows, keyText k = keyText key → k = key :=
    fun rows hrows k hk => hinj k (List.mem_flatMap.mpr ⟨rows, hrows, hk⟩) key hflat
  have hmembers := members_having hkey
  rw [Function.comp_apply, filter_answer h hapart]
  -- At least one shard has the group; its row is the first of the group's rows.
  cases hhaving : pieces.filter fun rows => decide (key ∈ tuples select rows) with
  | nil =>
    obtain ⟨rows, hin, hmem⟩ := List.mem_flatMap.mp hflat
    exact absurd (decide_eq_true hmem) (List.filter_eq_nil_iff.mp hhaving rows hin)
  | cons first others =>
    rw [hhaving, List.map_cons, List.flatten_cons] at hmembers
    have hfirst : key ∈ tuples select first := by
      have hin : first ∈ pieces.filter fun rows => decide (key ∈ tuples select rows) := by
        rw [hhaving]
        exact List.mem_cons_self
      exact of_decide_eq_true (List.mem_filter.mp hin).2
    have hsome : ∀ column ∈ select.groupBy, members select first key ≠ [] := by
      intro column hcolumn hnil
      obtain ⟨head, tail, hcons, -⟩ := exists_head hfirst hcolumn
      rw [hcons] at hnil
      cases hnil
    have hcombinable : ∀ output ∈ select.outputs, ∀ function column,
        output.expression = .aggregate function column → Combinable function
          ((members select first key ++
            (others.map fun rows => members select rows key).flatten).map (argument column)) := by
      intro output hout function column hexp
      rw [hmembers]
      exact hfits.combinable h hout hexp List.filter_sublist
    have hfolded := finish_groupOf_row h (keyText key) hsome hcombinable
    rw [hmembers, List.map_map] at hfolded
    exact hfolded

end Central

namespace Merge

open Central (answer)

variable {select : Select}

/-- Each shard is asked for all groups of a regular read. -/
theorem shardSelect_of_isRegular (h : select.IsRegular) :
    shardSelect select = { select with limit := none, offset := none } := by
  -- Only averages are asked for in another way.
  have hkept : ∀ output ∈ select.outputs,
      shardOutput output = output ∧ countOutput? output = none := by
    intro output hout
    rw [shardOutput, countOutput?]
    cases hexp : output.expression with
    | column column => exact ⟨rfl, rfl⟩
    | aggregate function column =>
      have havg := (h.functions output hout function column hexp).1
      cases function with
      | avg => exact absurd rfl havg
      | _ => exact ⟨rfl, rfl⟩
  have hsame : select.outputs.map shardOutput = select.outputs.map id :=
    List.map_congr_left fun output hout => (hkept output hout).1
  have hhidden : select.outputs.filterMap countOutput? = [] :=
    List.filterMap_eq_nil_iff.mpr fun output hout => (hkept output hout).2
  rw [shardSelect, hsame, hhidden, List.map_id, List.append_nil, if_pos h.grouped]

/--
The merged answers of all shards are the page of the answer over the rows of all shards. What the
shards are asked has no page of its own.
-/
theorem mergeRows_answers (h : select.IsRegular) {pieces : List (List Row)} (hne : pieces ≠ [])
    (hfits : Central.Fits select pieces.flatten) :
    (∀ rows, paginate (shardSelect select).limit (shardSelect select).offset
      (answer (shardSelect select) rows) = answer (shardSelect select) rows) ∧
    mergeRows select (pieces.flatMap (answer (shardSelect select))) =
      .ok (paginate select.limit select.offset (answer select pieces.flatten)) := by
  rw [shardSelect_of_isRegular h]
  constructor
  · intro rows
    rfl
  · have hanswer : answer { select with limit := none, offset := none } = answer select := rfl
    rw [hanswer, mergeRows, if_pos h.grouped, aggregate, h.checkGrouping_eq, h.order,
      Central.foldGroups_answer h hne hfits]
    rfl

/-- An order of one of the shards below. -/
def order (city amount : Json) : Row :=
  ⟨[("city", city), ("amount", amount)]⟩

/-- The orders of four shards: one has none, and two cities are on several shards. -/
def orders : List (List Row) :=
  [[order (.str "A") (.ofInt 5), order .null .null], [],
    [order (.str "B") (.ofInt 7), order (.str "A") (.ofInt (-2))], [order .null (.ofInt 1)]]

/-- What each city ordered, the cities under another name, without the first city. -/
def byTown : Select where
  table := "orders"
  outputs := [.columnAs (.bare "city") "town", .ofAggregate .sum (some (.bare "amount")) "total",
    .ofAggregate .count none "orders", .ofAggregate .count (some (.bare "amount")) "known",
    .ofAggregate .min (some (.bare "amount")) "least",
    .ofAggregate .max (some (.bare "amount")) "most"]
  predicate := none
  groupBy := [.bare "city"]
  orderBy := []
  limit := some 2
  offset := some 1

/-- The row of a city. -/
def town (city : Json) (total orders known least most : Int) : Row :=
  ⟨[("town", city), ("total", .ofInt total), ("orders", .ofInt orders), ("known", .ofInt known),
    ("least", .ofInt least), ("most", .ofInt most)]⟩

theorem byTown_isRegular : byTown.IsRegular where
  grouped := rfl
  order := rfl
  names := by decide
  columns := by
    intro output hout column hexp
    refine ⟨.bare "city", List.mem_singleton_self _, ?_⟩
    simp only [byTown, List.mem_cons, List.not_mem_nil, or_false] at hout
    rcases hout with rfl | rfl | rfl | rfl | rfl | rfl <;> first | rfl | cases hexp
  once := by
    intro group hgroup
    rw [List.mem_singleton.mp hgroup]
    exact ⟨.columnAs (.bare "city") "town", by decide⟩
  functions := by
    intro output hout function column hexp
    simp only [byTown, List.mem_cons, List.not_mem_nil, or_false] at hout
    rcases hout with rfl | rfl | rfl | rfl | rfl | rfl <;> cases hexp <;> decide

/-- Only amounts are aggregated. -/
theorem eq_amount {output : Output} (hout : output ∈ byTown.outputs) {function : Aggregate}
    {column : ColumnRef} (hexp : output.expression = .aggregate function (some column)) :
    column = .bare "amount" := by
  simp only [byTown, List.mem_cons, List.not_mem_nil, or_false] at hout
  rcases hout with rfl | rfl | rfl | rfl | rfl | rfl <;> cases hexp <;> rfl

theorem orders_fit : Central.Fits byTown orders.flatten where
  size := by decide
  groups := by
    intro r hr column hcolumn
    rw [List.mem_singleton.mp hcolumn]
    revert r
    decide
  extremes := by
    intro output hout function column hexp _
    rw [eq_amount hout hexp]
    decide
  summands := by
    intro output hout column hexp r hr
    rw [eq_amount hout hexp]
    have hsummand : r.value "amount" = .null ∨ (r.value "amount").asInt?.isSome = true := by
      revert r
      decide
    exact hsummand.imp_right Option.isSome_iff_exists.mp
  sums := by
    intro output hout column hexp part hpart
    rw [eq_amount hout hexp]
    have hall : ∀ part ∈ orders.flatten.sublists,
        fitsSigned (Central.total (part.map fun r => r.value "amount")) = true := by
      decide
    exact hall part (List.mem_sublists.mpr hpart)

/-- The other two cities of four shards, none of which has all of their orders. -/
theorem mergeRows_answers_byTown :
    mergeRows byTown (orders.flatMap (answer (shardSelect byTown))) =
      .ok [town .null 1 2 1 1 1, town (.str "B") 7 1 1 7 7] := by
  have hmerged := mergeRows_answers byTown_isRegular (by decide) orders_fit
  rw [hmerged.2]
  rfl

end Merge

end SqlFederation
