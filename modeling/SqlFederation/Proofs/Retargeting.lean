import SqlFederation.Proofs.Placeholders
import SqlFederation.Proofs.Serving

/-!
# Aiming statements at other tables

A statement is aimed at another table by renaming the table wherever a column names it. The columns
that a statement refers to (`Query.references`) decide whether the way to a table matters: aiming at
one table and then at another is as good as aiming at the second one at once, unless a column names
the first table, which is then mixed up with the table of the statement
(`Query.retarget_retarget_iff`). The induction is on the condition of the statement, and all of its
other parts are lists.

Results have no tables in the names of their columns. So a read that is aimed at another table names
and groups and sorts its rows as before, its rows are merged as before
(`Merge.mergeRows_retarget_eq_ok`), and what a shard is asked for can be worked out before or behind
(`Merge.shardSelect_retarget`).
-/

namespace SqlFederation

/-! ## The way to a table -/

/-- Is a column aimed at the last table as well by way of the one between? -/
def ColumnRef.GoesThrough (source via target : String) (column : ColumnRef) : Prop :=
  (column.retarget source via).retarget via target = column.retarget source target

/-- The way matters for columns of the table between, unless it is no way at all. -/
theorem ColumnRef.goesThrough_iff {source via target : String} {column : ColumnRef} :
    column.GoesThrough source via target ↔
      source = via ∨ via = target ∨ column.table ≠ some via := by
  unfold GoesThrough
  by_cases hsource : source = via
  · subst hsource
    rw [retarget_self]
    exact iff_of_true rfl (Or.inl rfl)
  by_cases htarget : via = target
  · subst htarget
    rw [retarget_self]
    exact iff_of_true rfl (Or.inr (Or.inl rfl))
  obtain ⟨table, name⟩ := column
  by_cases htable : table = some via
  · -- The table between is renamed on the second way only.
    subst htable
    have hother : some via ≠ some source := fun h => hsource (Option.some.inj h).symm
    simp [retarget, qualified, hother, hsource, htarget, Ne.symm htarget]
  · by_cases howner : table = some source
    · simp [retarget, qualified, howner, hsource, htarget]
    · simp [retarget, howner, htable]

/-- A column of the table between comes back as one of the first table. -/
example :
    ((ColumnRef.qualified "orders" "id").retarget "users" "orders").retarget "orders" "users" =
      .qualified "users" "id" := by decide

namespace Predicate

/-- The columns that a condition compares. -/
def references (p : Predicate) : List ColumnRef :=
  p.comparisons.map Comparison.column

theorem references_join (connective : Connective) (children : List Predicate) :
    (join connective children).references = children.flatMap references := by
  rw [references, comparisons, comparisonsAll_eq_flatMap, List.map_flatMap]
  rfl

theorem retarget_retarget_iff {source via target : String} (p : Predicate) :
    (p.retarget source via).retarget via target = p.retarget source target ↔
      ∀ column ∈ p.references, column.GoesThrough source via target := by
  induction p using Predicate.induct with
  | compare column op value =>
    rw [references, comparisons, List.map_singleton, List.forall_mem_singleton, retarget, retarget,
      retarget, compare.injEq]
    exact and_iff_left ⟨rfl, rfl⟩
  | join connective children ih =>
    rw [references_join, List.forall_mem_flatMap, retarget, retarget, retarget, join.injEq,
      retargetAll_eq_map, retargetAll_eq_map, retargetAll_eq_map, List.map_map, List.map_inj_left]
    exact (and_iff_right rfl).trans (forall₂_congr ih)

end Predicate

/-- The columns of a condition that may be absent. -/
def conditionReferences (condition : Option Predicate) : List ColumnRef :=
  condition.toList.flatMap Predicate.references

theorem condition_retarget_iff {source via target : String} (condition : Option Predicate) :
    (condition.map (Predicate.retarget source via)).map (Predicate.retarget via target) =
        condition.map (Predicate.retarget source target) ↔
      ∀ column ∈ conditionReferences condition, column.GoesThrough source via target := by
  cases condition with
  | none => exact iff_of_true rfl (List.forall_mem_nil _)
  | some p =>
    rw [Option.map_some, Option.map_some, Option.map_some, Option.some.injEq,
      Predicate.retarget_retarget_iff, conditionReferences, Option.toList_some,
      List.flatMap_singleton]

theorem condition_retarget_self (condition : Option Predicate) (table : String) :
    condition.map (Predicate.retarget table table) = condition := by
  have hself : Predicate.retarget table table = id := funext fun p => p.retarget_self table
  rw [hself, Option.map_id]
  rfl

section Lists

variable {source via target : String}

theorem Output.retarget_retarget_iff (output : Output) :
    (output.retarget source via).retarget via target = output.retarget source target ↔
      ∀ column ∈ output.column?, column.GoesThrough source via target := by
  obtain ⟨expression, label⟩ := output
  cases expression with
  | column column => simp [retarget, column?, ColumnRef.GoesThrough]
  | aggregate function column => cases column <;> simp [retarget, column?, ColumnRef.GoesThrough]

theorem outputs_retarget_iff (outputs : List Output) :
    (outputs.map (Output.retarget source via)).map (Output.retarget via target) =
        outputs.map (Output.retarget source target) ↔
      ∀ column ∈ outputs.filterMap Output.column?, column.GoesThrough source via target := by
  rw [List.map_map, List.map_inj_left, List.forall_mem_filterMap]
  exact forall₂_congr fun output _ => output.retarget_retarget_iff

theorem groups_retarget_iff (columns : List ColumnRef) :
    (columns.map fun c => c.retarget source via).map (fun c => c.retarget via target) =
        columns.map (fun c => c.retarget source target) ↔
      ∀ column ∈ columns, column.GoesThrough source via target := by
  rw [List.map_map, List.map_inj_left]
  rfl

theorem SortKey.retarget_retarget_iff (key : SortKey) :
    (key.retarget source via).retarget via target = key.retarget source target ↔
      key.column.GoesThrough source via target := by
  simp [retarget, ColumnRef.GoesThrough]

theorem keys_retarget_iff (keys : List SortKey) :
    (keys.map (SortKey.retarget source via)).map (SortKey.retarget via target) =
        keys.map (SortKey.retarget source target) ↔
      ∀ column ∈ keys.map SortKey.column, column.GoesThrough source via target := by
  rw [List.map_map, List.map_inj_left, List.forall_mem_map]
  exact forall₂_congr fun key _ => key.retarget_retarget_iff

end Lists

theorem SortKey.retarget_self (key : SortKey) (table : String) :
    key.retarget table table = key := by
  rw [retarget, ColumnRef.retarget_self]

namespace Select

/-- The columns that a read refers to. -/
def references (select : Select) : List ColumnRef :=
  select.outputs.filterMap Output.column? ++ conditionReferences select.predicate ++
    select.groupBy ++ select.orderBy.map SortKey.column

/-- Every part of a read is aimed, also when its table is the same. -/
theorem retarget_eq (select : Select) (target : String) :
    select.retarget target =
      { table := target
        outputs := select.outputs.map (Output.retarget select.table target)
        predicate := select.predicate.map (Predicate.retarget select.table target)
        groupBy := select.groupBy.map fun c => c.retarget select.table target
        orderBy := select.orderBy.map (SortKey.retarget select.table target)
        limit := select.limit
        offset := select.offset } := by
  rw [← outputs_retarget, ← predicate_retarget]
  unfold retarget
  split
  · rename_i hsame
    have hcolumn : (fun c : ColumnRef => c.retarget select.table target) = id :=
      funext fun c => hsame ▸ c.retarget_self select.table
    have hkey : SortKey.retarget select.table target = id :=
      funext fun key => hsame ▸ key.retarget_self select.table
    rw [hcolumn, hkey, List.map_id, List.map_id, ← hsame]
  · rfl

theorem retarget_retarget_iff {via target : String} (select : Select) :
    (select.retarget via).retarget target = select.retarget target ↔
      ∀ column ∈ select.references, column.GoesThrough select.table via target := by
  rw [retarget_eq, retarget_eq select via, retarget_eq select target, Select.mk.injEq, references]
  simp only [List.forall_mem_append, outputs_retarget_iff, condition_retarget_iff,
    groups_retarget_iff, keys_retarget_iff, true_and, and_true, and_assoc]

end Select

namespace Query

/-- The columns that a statement refers to; the columns that a write fills are not among them. -/
def references : Query → List ColumnRef
  | .select q => q.references
  | .insert _ => []
  | .update q => conditionReferences q.predicate
  | .delete q => conditionReferences q.predicate

/-- Does a column of a statement name a table? -/
def Names (query : Query) (table : String) : Prop :=
  ∃ column ∈ query.references, column.table = some table

theorem retarget_self (query : Query) : query.retarget query.table = query := by
  cases query with
  | select q => exact congrArg _ (if_pos rfl)
  | insert q => rfl
  | update q => exact if_pos rfl
  | delete q => exact if_pos rfl

/-- The condition of an update is aimed, also when the table is the same. -/
theorem retarget_update (q : Update) (target : String) :
    (Query.update q).retarget target =
      .update ⟨target, q.set, q.predicate.map (Predicate.retarget q.table target)⟩ := by
  rw [retarget]
  split
  · rename_i hsame
    rw [← hsame, condition_retarget_self]
  · rfl

theorem retarget_delete (q : Delete) (target : String) :
    (Query.delete q).retarget target =
      .delete ⟨target, q.predicate.map (Predicate.retarget q.table target)⟩ := by
  rw [retarget]
  split
  · rename_i hsame
    rw [← hsame, condition_retarget_self]
  · rfl

theorem retarget_retarget_iff_forall {via target : String} (query : Query) :
    (query.retarget via).retarget target = query.retarget target ↔
      ∀ column ∈ query.references, column.GoesThrough query.table via target := by
  cases query with
  | select q =>
    rw [retarget, retarget, retarget, select.injEq]
    exact q.retarget_retarget_iff
  | insert q => exact iff_of_true rfl (List.forall_mem_nil _)
  | update q =>
    rw [retarget_update, retarget_update, retarget_update, update.injEq, Update.mk.injEq,
      condition_retarget_iff]
    simp only [true_and]
    rfl
  | delete q =>
    rw [retarget_delete, retarget_delete, retarget_delete, delete.injEq, Delete.mk.injEq,
      condition_retarget_iff]
    simp only [true_and]
    rfl

/-- The way to a table matters only if a column names the table between. -/
theorem retarget_retarget_iff {via target : String} (query : Query) :
    (query.retarget via).retarget target = query.retarget target ↔
      query.table = via ∨ via = target ∨ ¬query.Names via := by
  rw [retarget_retarget_iff_forall, Names]
  simp only [ColumnRef.goesThrough_iff]
  by_cases hsource : query.table = via
  · simp [hsource]
  by_cases htarget : via = target
  · simp [htarget]
  simp [hsource, htarget]

end Query

/-! ## What results show of a table -/

theorem Output.name_retarget (output : Output) (source target : String) :
    (output.retarget source target).name = output.name :=
  (RowTable.output_retarget output source target .empty).1

theorem Output.function?_retarget (output : Output) (source target : String) :
    (output.retarget source target).function? = output.function? := by
  obtain ⟨expression, label⟩ := output
  cases expression with
  | column column => rfl
  | aggregate function column => rfl

namespace Select

theorem names_retarget (select : Select) (target : String) :
    (select.retarget target).outputs.map Output.name = select.outputs.map Output.name := by
  rw [outputs_retarget, List.map_map]
  exact List.map_congr_left fun output _ => output.name_retarget select.table target

theorem hasAggregates_retarget (select : Select) (target : String) :
    (select.retarget target).hasAggregates = select.hasAggregates := by
  rw [hasAggregates, hasAggregates, outputs_retarget, List.any_map]
  simp only [Function.comp_def, Output.function?_retarget]

/-- A column has the same name in results, whether or not it is aimed with the read. -/
theorem resultName_retarget_column (select : Select) (target : String) (column : ColumnRef) :
    (select.retarget target).resultName (column.retarget select.table target) =
      select.resultName column := by
  rw [resultName, resultName, outputs_retarget, labelAmong_retarget, RowTable.name_retarget]

theorem groupNames_retarget (select : Select) (target : String) :
    (select.retarget target).groupNames = select.groupNames := by
  have hgroups : (select.retarget target).groupBy =
      select.groupBy.map fun c => c.retarget select.table target := by
    rw [retarget_eq]
  rw [groupNames, groupNames, hgroups, List.map_map]
  exact List.map_congr_left fun column _ => select.resultName_retarget_column target column

/-- The names of the order columns in results. -/
def orderNames (select : Select) : List String :=
  select.orderBy.map fun key => select.resultName key.column

theorem orderNames_retarget (select : Select) (target : String) :
    (select.retarget target).orderNames = select.orderNames := by
  have hkeys : (select.retarget target).orderBy =
      select.orderBy.map (SortKey.retarget select.table target) := by
    rw [retarget_eq]
  rw [orderNames, orderNames, hkeys, List.map_map]
  exact List.map_congr_left fun key _ => select.resultName_retarget_column target key.column

end Select

namespace Merge

variable (select : Select) (target : String)

/-! ### What shards are asked for -/

theorem shardOutput_retarget (output : Output) (source target : String) :
    shardOutput (output.retarget source target) = (shardOutput output).retarget source target := by
  have hname := output.name_retarget source target
  obtain ⟨expression, label⟩ := output
  cases expression with
  | column column => rfl
  | aggregate function column =>
    cases function with
    | avg => exact congrArg (Output.ofAggregate .sum _) hname
    | _ => rfl

theorem countOutput?_retarget (output : Output) (source target : String) :
    countOutput? (output.retarget source target) =
      (countOutput? output).map (Output.retarget source target) := by
  have hname := output.name_retarget source target
  obtain ⟨expression, label⟩ := output
  cases expression with
  | column column => rfl
  | aggregate function column =>
    cases function with
    | avg =>
      exact congrArg (fun name => some (Output.ofAggregate .count _ (hiddenCount name))) hname
    | _ => rfl

/-- What a shard is asked for can be worked out before the read is aimed, or behind. -/
theorem shardSelect_retarget :
    shardSelect (select.retarget target) = (shardSelect select).retarget target := by
  have hsums : (select.outputs.map (Output.retarget select.table target)).map shardOutput =
      (select.outputs.map shardOutput).map (Output.retarget select.table target) := by
    rw [List.map_map, List.map_map]
    exact List.map_congr_left fun output _ => shardOutput_retarget output select.table target
  have hcounts : (select.outputs.map (Output.retarget select.table target)).filterMap
      countOutput? =
        (select.outputs.filterMap countOutput?).map (Output.retarget select.table target) := by
    rw [List.filterMap_map, List.map_filterMap]
    exact List.filterMap_congr fun output _ => countOutput?_retarget output select.table target
  have hgrouped := select.isGrouped_retarget target
  rw [Select.retarget_eq] at hgrouped ⊢
  rw [Select.retarget_eq, shardSelect, shardSelect, hgrouped, hsums, hcounts, List.map_append]

/-! ### How rows are merged -/

theorem aggregates_retarget : aggregates (select.retarget target) = aggregates select := by
  rw [aggregates, aggregates, Select.outputs_retarget, List.filterMap_map]
  simp only [Function.comp_def, Output.function?_retarget, Output.name_retarget]

theorem strayOutput?_retarget : strayOutput? (select.retarget target) = strayOutput? select := by
  rw [strayOutput?, strayOutput?, Select.outputs_retarget, List.find?_map, Option.map_map,
    Select.groupNames_retarget]
  simp only [Function.comp_def, Output.function?_retarget, Output.name_retarget]

theorem missingGroup?_retarget : missingGroup? (select.retarget target) = missingGroup? select := by
  rw [missingGroup?, missingGroup?, Select.names_retarget, Select.groupNames_retarget,
    Select.outputs_retarget, List.isEmpty_map]

/-- A grouping is refused on any table or on none; the refusal shows which table it is. -/
theorem checkGrouping_retarget_eq_ok :
    checkGrouping (select.retarget target) = .ok () ↔ checkGrouping select = .ok () := by
  rw [checkGrouping, checkGrouping, strayOutput?_retarget, missingGroup?_retarget]
  cases strayOutput? select with
  | some field => simp only [reduceCtorEq]
  | none =>
    cases missingGroup? select with
    | some field => simp only [reduceCtorEq]
    | none => exact Iff.rfl

theorem foldGroups_retarget (rows : List Row) :
    foldGroups (select.retarget target) rows = foldGroups select rows := by
  have hkey : groupKey (select.retarget target) = groupKey select := by
    funext row
    rw [groupKey, groupKey, Select.groupNames_retarget]
  rw [foldGroups, foldGroups, aggregates_retarget, hkey]

/-- Rows are merged to the same answer, whatever the table is called. -/
theorem mergeRows_retarget_eq_ok (rows merged : List Row) :
    mergeRows (select.retarget target) rows = .ok merged ↔ mergeRows select rows = .ok merged := by
  have hgrouped := select.isGrouped_retarget target
  obtain ⟨hlimit, hoffset⟩ := select.page_retarget target
  cases h : select.isGrouped with
  | false =>
    rw [h] at hgrouped
    rw [mergeRows_of_not_grouped h, mergeRows_of_not_grouped hgrouped, hlimit, hoffset,
      sortRows_retarget]
  | true =>
    rw [h] at hgrouped
    have haccepted := checkGrouping_retarget_eq_ok select target
    cases hcheck : checkGrouping select with
    | ok =>
      rw [mergeRows_of_grouped h hcheck, mergeRows_of_grouped hgrouped (haccepted.mpr hcheck),
        hlimit, hoffset, sortRows_retarget, foldGroups_retarget]
    | error e =>
      rw [hcheck] at haccepted
      cases hcheck' : checkGrouping (select.retarget target) with
      | ok => cases haccepted.mp hcheck'
      | error e' =>
        rw [mergeRows, mergeRows, if_pos h, if_pos hgrouped, aggregate, aggregate, hcheck, hcheck']
        exact iff_of_false (fun h => by cases h) fun h => by cases h

end Merge

/--
Aiming a statement at another table can be taken back, and a detour on the way to a table makes no
difference, exactly if no column names the table between, or if the way by it is none. A read that
is aimed at another table shows nothing of it in its results: outputs, group columns and order
columns have the names that they had, aggregates stay aggregates, rows are merged as they were, and
each shard is asked for the same, aimed at that table.
-/
theorem Query.retarget_faithful (query : Query) (select : Select) (p r : String) :
    ((query.retarget p).retarget query.table = query ↔ query.table = p ∨ ¬query.Names p) ∧
      ((query.retarget p).retarget r = query.retarget r ↔
        query.table = p ∨ p = r ∨ ¬query.Names p) ∧
      (select.retarget p).outputs.map Output.name = select.outputs.map Output.name ∧
      (select.retarget p).hasAggregates = select.hasAggregates ∧
      (select.retarget p).groupNames = select.groupNames ∧
      (select.retarget p).orderNames = select.orderNames ∧
      Merge.shardSelect (select.retarget p) = (Merge.shardSelect select).retarget p ∧
      ∀ rows merged, Merge.mergeRows (select.retarget p) rows = .ok merged ↔
        Merge.mergeRows select rows = .ok merged := by
  refine ⟨?_, query.retarget_retarget_iff, select.names_retarget p, select.hasAggregates_retarget p,
    select.groupNames_retarget p, select.orderNames_retarget p, Merge.shardSelect_retarget select p,
    Merge.mergeRows_retarget_eq_ok select p⟩
  -- The way back ends where the statement was.
  have hback : (query.retarget p).retarget query.table = query.retarget query.table ↔
      query.table = p ∨ p = query.table ∨ ¬query.Names p := query.retarget_retarget_iff
  rw [query.retarget_self, @eq_comm String p, ← or_assoc, or_self] at hback
  exact hback

end SqlFederation
