import SqlFederation.Proofs.Dispatch
import SqlFederation.Proofs.FoldedRows
import SqlFederation.Proofs.ReadShapes

/-!
# Hidden counts

Each average of a read has a hidden count, which the shards are asked for behind the outputs. Its
name is that of the average with an ending, so it is another name for every average
(`Merge.hiddenCount_injective`), and what the shards are asked for has distinct names exactly if no
output has the name of a hidden count (`Merge.nodup_shardSelect_iff`).

When the groups are folded, each average takes its hidden count out again. As long as no output has
the name of a hidden count, these stay behind the outputs while they are taken out one by one, the
last of them moving into the gap, and nothing but the outputs is left
(`Merge.columns_foldl_settleOutput`). An output that has the name of one is taken out with it,
unless it is an aggregate that is settled later, behind the average (`Select.Loses`).
-/

namespace SqlFederation

/-- Does the output average? -/
def Output.isAverage (output : Output) : Bool :=
  output.function? == some .avg

namespace Merge

/-- The names of the hidden counts behind some outputs. -/
def hiddenNames (outputs : List Output) : List String :=
  (outputs.filter Output.isAverage).map fun average => hiddenCount average.name

/-! ## Names -/

theorem hiddenCount_injective : Function.Injective hiddenCount := by
  intro a b h
  have htexts := congrArg String.toList h
  rw [hiddenCount, hiddenCount, String.toList_append, String.toList_append] at htexts
  exact String.toList_inj.mp (List.append_cancel_right htexts)

/-- An output has another name than its hidden count. -/
theorem ne_hiddenCount (name : String) : name ≠ hiddenCount name := by
  intro h
  have hlength := congrArg (fun text => text.toList.length) h
  simp [hiddenCount, String.toList_append] at hlength

theorem mem_hiddenNames {outputs : List Output} {name : String} :
    name ∈ hiddenNames outputs ↔
      ∃ average ∈ outputs, average.isAverage = true ∧ name = hiddenCount average.name := by
  rw [hiddenNames, List.mem_map]
  simp only [List.mem_filter, and_assoc, eq_comm]

/-- No output has the name of a hidden count if that is so for each average. -/
theorem forall_notMem_hiddenNames_iff {outputs : List Output} :
    (∀ output ∈ outputs, output.name ∉ hiddenNames outputs) ↔
      ∀ average ∈ outputs, average.isAverage = true →
        ∀ output ∈ outputs, output.name ≠ hiddenCount average.name := by
  simp only [mem_hiddenNames, not_exists, not_and]
  exact ⟨fun h average hmem his output houtput => h output houtput average hmem his,
    fun h output houtput average hmem his => h average hmem his output houtput⟩

/-- A shard is asked for an output under its name. -/
theorem name_shardOutput (output : Output) : (shardOutput output).name = output.name := by
  unfold shardOutput
  split
  · rfl
  · rfl

/-- The counts that the shards are asked for have the names of hidden counts. -/
theorem map_name_countOutput (outputs : List Output) :
    (outputs.filterMap countOutput?).map Output.name = hiddenNames outputs := by
  induction outputs with
  | nil => rfl
  | cons output rest ih =>
    obtain ⟨expression, label⟩ := output
    cases expression with
    | column column => exact ih
    | aggregate function column =>
      cases function with
      | avg => exact congrArg _ ih
      | _ => exact ih

/-- The names that the shards are asked for: the outputs, and the hidden counts behind them. -/
theorem map_name_shardSelect (select : Select) :
    (shardSelect select).outputs.map Output.name =
      select.outputs.map Output.name ++ hiddenNames select.outputs := by
  rw [shardSelect, List.map_append, List.map_map, map_name_countOutput]
  congr 1
  exact List.map_congr_left fun output _ => name_shardOutput output

/-- The shards are asked for distinct names unless an output has the name of a hidden count. -/
theorem nodup_shardSelect_iff {select : Select} (hnames : (select.outputs.map Output.name).Nodup) :
    ((shardSelect select).outputs.map Output.name).Nodup ↔
      ∀ output ∈ select.outputs, output.name ∉ hiddenNames select.outputs := by
  have hhidden : (hiddenNames select.outputs).Nodup := by
    have haverages := hnames.sublist (List.filter_sublist (p := Output.isAverage).map Output.name)
    rw [hiddenNames, ← Function.comp_def hiddenCount Output.name, ← List.map_map]
    exact haverages.map hiddenCount_injective
  rw [map_name_shardSelect, List.nodup_append]
  constructor
  · rintro ⟨-, -, hdisjoint⟩ output houtput hmem
    exact hdisjoint _ (List.mem_map_of_mem houtput) _ hmem rfl
  · intro hfresh
    refine ⟨hnames, hhidden, ?_⟩
    rintro name hname _ hmem rfl
    obtain ⟨output, houtput, rfl⟩ := List.mem_map.mp hname
    exact hfresh output houtput hmem

/-! ## Outputs settled one after the other -/

variable {value : String × Aggregate → Json} {row : Row} {output : Output}

/-- Settles an output of a read; a column stays as it is. -/
def settleOutput (value : String × Aggregate → Json) (row : Row) (output : Output) : Row :=
  match output.function? with
  | some function => settle row output.name function (value (output.name, function))
  | none => row

/-- The row of a group has the outputs of the read settled in turn. -/
theorem foldedRow_cons (select : Select) (head : Row) (tail : List Row) :
    foldedRow select (head :: tail) =
      select.outputs.foldl (settleOutput fun a => foldedValue a.1 a.2 head tail) head := by
  rw [foldedRow, aggregates, List.foldl_filterMap]
  apply List.foldl_ext
  intro row output _
  rw [settleOutput]
  cases output.function? with
  | none => rfl
  | some function => rfl

/-- Settling an average sets it and takes its hidden count out. -/
theorem settleOutput_of_average (haverage : output.isAverage = true) :
    settleOutput value row output =
      (row.insert output.name (value (output.name, .avg))).erase (hiddenCount output.name) := by
  have hfunction : output.function? = some .avg := by simpa [Output.isAverage] using haverage
  rw [settleOutput, hfunction]
  rfl

/-- Settling an output that is no average leaves the row or sets the output. -/
theorem settleOutput_of_not_average (value : String × Aggregate → Json) (row : Row)
    (haverage : output.isAverage = false) :
    settleOutput value row output = row ∨
      ∃ new, settleOutput value row output = row.insert output.name new := by
  rw [settleOutput]
  cases hfunction : output.function? with
  | none => exact Or.inl rfl
  | some function =>
    cases function with
    | avg => simp [Output.isAverage, hfunction] at haverage
    | _ => exact Or.inr ⟨_, rfl⟩

/-- Settling an output that is no average leaves the columns, if the output is one of them. -/
theorem columns_settleOutput (hmem : output.name ∈ row.columns)
    (haverage : output.isAverage = false) :
    (settleOutput value row output).columns = row.columns := by
  obtain hsame | ⟨new, hset⟩ := settleOutput_of_not_average value row haverage
  · rw [hsame]
  · rw [hset, Row.columns_insert, if_pos hmem]

theorem nodup_columns_settleOutput (hrow : row.columns.Nodup) (output : Output) :
    (settleOutput value row output).columns.Nodup := by
  rw [settleOutput]
  cases output.function? with
  | none => exact hrow
  | some function => exact nodup_columns_settle hrow _ _ _

/--
The hidden counts behind some columns go while the averages are settled, if none of these columns
has the name of one.
-/
theorem columns_foldl_settleOutput {front tail : List String} {todo : List Output}
    (hfront : ∀ output ∈ todo, output.name ∈ front)
    (hfresh : ∀ name ∈ hiddenNames todo, name ∉ front)
    (hrow : row.columns = front ++ tail) (htail : tail.Perm (hiddenNames todo)) :
    (todo.foldl (settleOutput value) row).columns = front := by
  -- The hidden counts of the averages to come are behind the columns, in any order.
  induction todo generalizing row tail with
  | nil =>
    rw [List.foldl_nil, hrow, htail.eq_nil, List.append_nil]
  | cons output rest ih =>
    obtain ⟨houtput, hrest⟩ := List.forall_mem_cons.mp hfront
    have hmem : output.name ∈ row.columns := by
      rw [hrow]
      exact List.mem_append_left _ houtput
    rw [List.foldl_cons]
    cases haverage : output.isAverage with
    | false =>
      have hsame : hiddenNames (output :: rest) = hiddenNames rest := by
        rw [hiddenNames, List.filter_cons_of_neg (by rw [haverage]; exact Bool.false_ne_true)]
        rfl
      rw [hsame] at hfresh htail
      exact ih hrest hfresh ((columns_settleOutput hmem haverage).trans hrow) htail
    | true =>
      have hcons : hiddenNames (output :: rest) = hiddenCount output.name :: hiddenNames rest := by
        rw [hiddenNames, List.filter_cons_of_pos haverage]
        rfl
      rw [hcons] at hfresh htail
      obtain ⟨hhidden, hlater⟩ := List.forall_mem_cons.mp hfresh
      have hset := row.columns_insert output.name (value (output.name, .avg))
      rw [if_pos hmem, hrow] at hset
      obtain ⟨left, hcolumns, hleft⟩ := Row.exists_columns_erase hset hhidden
      have hperm := htail.erase (hiddenCount output.name)
      rw [List.erase_cons_head] at hperm
      rw [settleOutput_of_average haverage]
      exact ih hrest hlater hcolumns (hleft.trans hperm)

/-- A folded row has the outputs as its columns, if no output has the name of a hidden count. -/
theorem columns_foldedRow {select : Select} {head : Row} (tail : List Row)
    (hfresh : ∀ output ∈ select.outputs, output.name ∉ hiddenNames select.outputs)
    (hhead : head.columns = (shardSelect select).outputs.map Output.name) :
    (foldedRow select (head :: tail)).columns = select.outputs.map Output.name := by
  rw [map_name_shardSelect] at hhead
  rw [foldedRow_cons]
  refine columns_foldl_settleOutput (fun output => List.mem_map_of_mem) ?_ hhead (List.Perm.refl _)
  intro name hname hmem
  obtain ⟨output, houtput, rfl⟩ := List.mem_map.mp hmem
  exact hfresh output houtput hname

/--
Merged rows have exactly the outputs of the read as their columns, in the order of the outputs. So
the first column of a read that several shards answer is its first output.
-/
theorem mergeRows_columns {select : Select} {first : Output} {others : List Output}
    (hgrouped : select.isGrouped = true) (haccepted : checkGrouping select = .ok ())
    (houtputs : select.outputs = first :: others)
    (hfresh : ∀ average ∈ select.outputs, average.isAverage = true →
      ∀ output ∈ select.outputs, output.name ≠ hiddenCount average.name) :
    (∀ rows : List Row, (∀ row ∈ rows, row.columns = (shardSelect select).outputs.map Output.name) →
      ∃ merged, mergeRows select rows = .ok merged ∧
        ∀ row ∈ merged, row.columns = select.outputs.map Output.name) ∧
    ∀ (β : Type) (link : Sharded β) (plan : List (ShardId × Query)) (rows : List Row)
      (w w' : World β), link.plan (.select select) = .ok plan → 1 < plan.length →
      (link.gather plan).outcome w = (.ok rows, w') →
      (∀ row ∈ rows, row.columns = (shardSelect select).outputs.map Output.name) →
      ∃ merged, (link.connection.querySet (.select select)).outcome w = (.ok merged, w') ∧
        (∀ row ∈ merged, row.columns = select.outputs.map Output.name) ∧
        (link.connection.queryColumn (.select select)).outcome w =
          (.ok (merged.map fun row => row.value first.name), w') := by
  have hnone := forall_notMem_hiddenNames_iff.mpr hfresh
  have hmerged : ∀ rows : List Row,
      (∀ row ∈ rows, row.columns = (shardSelect select).outputs.map Output.name) →
      ∃ merged, mergeRows select rows = .ok merged ∧
        ∀ row ∈ merged, row.columns = select.outputs.map Output.name := by
    intro rows hrows
    refine ⟨_, mergeRows_of_grouped hgrouped haccepted rows, fun row hrow => ?_⟩
    obtain ⟨head, hhead, tail, rfl⟩ := exists_of_mem_foldGroups (mem_of_mem_page hrow)
    exact columns_foldedRow tail hnone (hrows head hhead)
  refine ⟨hmerged, ?_⟩
  intro β link plan rows w w' hplan hseveral hgathered hrows
  obtain ⟨merged, hmerge, hcolumns⟩ := hmerged rows hrows
  have hset : (link.selectSet (.select select)).outcome w = (.ok merged, w') := by
    rw [Sharded.selectSet_of_several hplan hseveral, Call.outcome_bind_of_ok hgathered,
      Call.outcome_done, hmerge]
  refine ⟨merged, hset, hcolumns, ?_⟩
  have hfirst : firstColumn merged = merged.map fun row => row.value first.name := by
    refine List.map_congr_left fun row hrow => ?_
    have hrow' : row.columns = first.name :: others.map Output.name := by
      rw [hcolumns row hrow, houtputs]
      rfl
    exact Row.first_eq_value hrow'
  show (Connection.columnOf link.selectSet (.select select)).outcome w = _
  rw [Connection.columnOf, Call.outcome_bind_of_ok hset, hfirst]
  rfl

/-- The means of two columns around the house, and a total. -/
def meansByHouse : Select where
  table := "users"
  outputs := [.ofAggregate .avg (some (.bare "age")) "age", .ofColumn (.bare "house"),
    .ofAggregate .avg (some (.bare "score")) "score",
    .ofAggregate .sum (some (.bare "age")) "total"]
  predicate := none
  groupBy := [.bare "house"]
  orderBy := []
  limit := none
  offset := none

/-- What a shard answers for a house, from the number of its users and their means. -/
def houseMeans (house : String) (users age score : Int) : Row :=
  ⟨[("age", .ofInt (users * age)), ("house", .str house), ("score", .ofInt (users * score)),
    ("total", .ofInt (users * age)), ("age__count", .ofInt users), ("score__count", .ofInt users)]⟩

/-- Three endpoints, the first and the last of which have a house in common. -/
def housesApart : World Endpoints where
  room := ⟨0, 1, [], ⟨[], []⟩, [], []⟩
  cursors := []
  draws := []
  endpoints := ⟨⟨[{ Scripted.Script.quiet "a" with
      rows := [houseMeans "north" 1 10 5, houseMeans "south" 2 40 6] }, .quiet "b",
    { Scripted.Script.quiet "c" with rows := [houseMeans "north" 3 30 1] }], []⟩, []⟩

/-- What the endpoints answer. -/
def houseAnswers : List Row :=
  [houseMeans "north" 1 10 5, houseMeans "south" 2 40 6, houseMeans "north" 3 30 1]

/--
The mean ages of two houses, one of which is on two shards: the hidden counts are gone, and the
house and the other outputs stand where they were asked for.
-/
theorem mergeRows_columns_byHouse :
    (∃ merged, mergeRows meansByHouse houseAnswers = .ok merged ∧
      (∀ row ∈ merged, row.columns = ["age", "house", "score", "total"]) ∧
      merged.map (fun row => row.value "age") =
        [.ofReal (Binary64.ofInt 25), .ofReal (Binary64.ofInt 40)]) ∧
    ∃ merged w',
      (threeShards.connection.querySet (.select meansByHouse)).outcome housesApart =
        (.ok merged, w') ∧
      (∀ row ∈ merged, row.columns = ["age", "house", "score", "total"]) ∧
      (threeShards.connection.queryColumn (.select meansByHouse)).outcome housesApart =
        (.ok (merged.map fun row => row.value "age"), w') := by
  have hcarried : ∀ row ∈ houseAnswers,
      row.columns = (shardSelect meansByHouse).outputs.map Output.name := by decide
  have hgrouped : meansByHouse.isGrouped = true := rfl
  obtain ⟨hmerged, hlink⟩ := mergeRows_columns hgrouped rfl rfl (by decide)
  constructor
  · obtain ⟨merged, hmerge, hcolumns⟩ := hmerged houseAnswers hcarried
    have hmeans : (mergeRows meansByHouse houseAnswers).map
        (List.map fun row => row.value "age") =
          .ok [.ofReal (Binary64.ofInt 25), .ofReal (Binary64.ofInt 40)] := by decide +kernel
    rw [hmerge] at hmeans
    exact ⟨merged, hmerge, hcolumns, Except.ok.inj hmeans⟩
  · have hplan : threeShards.plan (.select meansByHouse) =
        .ok [(3, .select (meansByHouse.retarget "users_b")), (7, .select meansByHouse)] := by cbv
    obtain ⟨w', hgathered⟩ : ∃ w', (threeShards.gather
        [(3, .select (meansByHouse.retarget "users_b")), (7, .select meansByHouse)]).outcome
          housesApart = (.ok houseAnswers, w') := ⟨_, rfl⟩
    obtain ⟨merged, hanswer⟩ := hlink Endpoints threeShards _ houseAnswers housesApart w' hplan
      (by decide) hgathered hcarried
    exact ⟨merged, w', hanswer⟩

/-! ## Outputs with the name of a hidden count -/

theorem mem_hiddenNames_cons {rest : List Output} {name : String} :
    name ∈ hiddenNames (output :: rest) ↔
      (output.isAverage = true ∧ name = hiddenCount output.name) ∨ name ∈ hiddenNames rest := by
  simp only [mem_hiddenNames, List.mem_cons, exists_eq_or_imp]

/-- Settling an output leaves a column that is not set, unless it is named as the hidden count. -/
theorem mem_columns_settleOutput (hrow : row.columns.Nodup) {name : String}
    (hunset : output.function? = none ∨ name ≠ output.name) :
    name ∈ (settleOutput value row output).columns ↔
      name ∈ row.columns ∧ ¬(output.isAverage = true ∧ name = hiddenCount output.name) := by
  obtain hnone | hne := hunset
  · simp [settleOutput, hnone, Output.isAverage]
  have hset : ∀ new, name ∈ (row.insert output.name new).columns ↔ name ∈ row.columns := by
    intro new
    rw [Row.mem_columns_insert, or_iff_right hne]
  cases haverage : output.isAverage with
  | true =>
    rw [settleOutput_of_average haverage,
      Row.mem_columns_erase (Row.nodup_columns_insert hrow _ _), hset, and_comm]
    simp only [true_and]
  | false =>
    simp only [Bool.false_eq_true, false_and, not_false_eq_true, and_true]
    obtain hsame | ⟨new, hinsert⟩ := settleOutput_of_not_average value row haverage
    · rw [hsame]
    · rw [hinsert, hset]

/-- An aggregate that is settled is a column. -/
theorem mem_columns_settleOutput_self (hrow : row.columns.Nodup)
    (hsome : output.function?.isSome = true) :
    output.name ∈ (settleOutput value row output).columns := by
  obtain ⟨function, hfunction⟩ := Option.isSome_iff_exists.mp hsome
  have hset : ∀ new, output.name ∈ (row.insert output.name new).columns :=
    fun new => Row.mem_columns_insert.mpr (Or.inl rfl)
  rw [settleOutput, hfunction]
  cases function with
  | avg =>
    exact (Row.mem_columns_erase (Row.nodup_columns_insert hrow _ _)).mpr
      ⟨ne_hiddenCount output.name, hset _⟩
  | _ => exact hset _

theorem nodup_columns_foldl_settleOutput (hrow : row.columns.Nodup) (todo : List Output) :
    (todo.foldl (settleOutput value) row).columns.Nodup := by
  induction todo generalizing row with
  | nil => exact hrow
  | cons output rest ih => exact ih (nodup_columns_settleOutput hrow output)

/-- Settling outputs leaves a column that none of them sets, unless it is a hidden count. -/
theorem mem_columns_foldl_settleOutput {name : String} {todo : List Output}
    (hunset : ∀ output ∈ todo, output.function? = none ∨ name ≠ output.name)
    (hrow : row.columns.Nodup) :
    name ∈ (todo.foldl (settleOutput value) row).columns ↔
      name ∈ row.columns ∧ name ∉ hiddenNames todo := by
  induction todo generalizing row with
  | nil => simp [hiddenNames]
  | cons output rest ih =>
    obtain ⟨houtput, hrest⟩ := List.forall_mem_cons.mp hunset
    rw [List.foldl_cons, ih hrest (nodup_columns_settleOutput hrow output),
      mem_columns_settleOutput hrow houtput, mem_hiddenNames_cons, not_or, and_assoc]

variable {select : Select} {head : Row} {tail : List Row}

/-- A selected column stays in the row of a group unless it has the name of a hidden count. -/
theorem mem_columns_foldedRow_of_column (hnames : (select.outputs.map Output.name).Nodup)
    (hhead : head.columns.Nodup) (houtput : output ∈ select.outputs)
    (hnone : output.function? = none) (hcarried : output.name ∈ head.columns) :
    output.name ∈ (foldedRow select (head :: tail)).columns ↔
      output.name ∉ hiddenNames select.outputs := by
  rw [foldedRow_cons, mem_columns_foldl_settleOutput ?_ hhead, and_iff_right hcarried]
  intro other hother
  by_cases heq : output.name = other.name
  · rw [← List.inj_on_of_nodup_map hnames houtput hother heq]
    exact Or.inl hnone
  · exact Or.inr heq

/-- An aggregate is in the row of a group unless it is named as the hidden count of a later one. -/
theorem mem_columns_foldedRow_of_aggregate (hnames : (select.outputs.map Output.name).Nodup)
    (hhead : head.columns.Nodup) {front back : List Output}
    (hsplit : select.outputs = front ++ output :: back) (hsome : output.function?.isSome = true) :
    output.name ∈ (foldedRow select (head :: tail)).columns ↔ output.name ∉ hiddenNames back := by
  rw [hsplit, List.map_append, List.map_cons] at hnames
  have hlater : ∀ other ∈ back, other.function? = none ∨ output.name ≠ other.name := by
    refine fun other hother => Or.inr fun heq => ?_
    exact (List.nodup_cons.mp hnames.of_append_right).1 (heq ▸ List.mem_map_of_mem hother)
  have hfront : (front.foldl (settleOutput fun a => foldedValue a.1 a.2 head tail)
      head).columns.Nodup := nodup_columns_foldl_settleOutput hhead front
  rw [foldedRow_cons, hsplit, List.foldl_append, List.foldl_cons,
    mem_columns_foldl_settleOutput hlater (nodup_columns_settleOutput hfront output)]
  exact and_iff_right (mem_columns_settleOutput_self hfront hsome)

end Merge

/--
Is an output of a read taken out of the merged rows with the hidden count of an average? It has the
name of that count, and is a column, or an aggregate in front of the average.
-/
def Select.Loses (select : Select) (output : Output) : Prop :=
  ∃ front average back, select.outputs = front ++ average :: back ∧ average.isAverage = true ∧
    output.name = Merge.hiddenCount average.name ∧ (output.function? = none ∨ output ∈ front)

namespace Merge

variable {output : Output} {select : Select} {head : Row} {tail : List Row}

/-- The row of a group has all outputs of the read but those that are lost. -/
theorem mem_columns_foldedRow_iff (hnames : (select.outputs.map Output.name).Nodup)
    (hhead : head.columns.Nodup) (houtput : output ∈ select.outputs)
    (hcarried : output.name ∈ head.columns) :
    output.name ∈ (foldedRow select (head :: tail)).columns ↔ ¬select.Loses output := by
  cases hfunction : output.function? with
  | none =>
    rw [mem_columns_foldedRow_of_column hnames hhead houtput hfunction hcarried, mem_hiddenNames,
      not_iff_not]
    constructor
    · rintro ⟨average, hmem, haverage, hname⟩
      obtain ⟨front, back, hsplit⟩ := List.append_of_mem hmem
      exact ⟨front, average, back, hsplit, haverage, hname, Or.inl hfunction⟩
    · rintro ⟨front, average, back, hsplit, haverage, hname, -⟩
      rw [hsplit]
      exact ⟨average, List.mem_append_right _ List.mem_cons_self, haverage, hname⟩
  | some function =>
    have hsome : output.function?.isSome = true := by
      rw [hfunction]
      rfl
    constructor
    · rintro hmem ⟨before, average, behind, hsplit, haverage, hname, hnone | hbefore⟩
      · rw [hnone] at hfunction
        cases hfunction
      · -- The average stands behind the output.
        obtain ⟨front, between, rfl⟩ := List.append_of_mem hbefore
        rw [List.append_assoc, List.cons_append] at hsplit
        rw [mem_columns_foldedRow_of_aggregate hnames hhead hsplit hsome] at hmem
        exact hmem (mem_hiddenNames.mpr
          ⟨average, List.mem_append_right _ List.mem_cons_self, haverage, hname⟩)
    · intro hkept
      obtain ⟨front, back, hsplit⟩ := List.append_of_mem houtput
      rw [mem_columns_foldedRow_of_aggregate hnames hhead hsplit hsome]
      intro hmem
      obtain ⟨average, haverage, his, hname⟩ := mem_hiddenNames.mp hmem
      obtain ⟨between, behind, rfl⟩ := List.append_of_mem haverage
      refine hkept ⟨front ++ output :: between, average, behind, ?_, his, hname, Or.inr ?_⟩
      · rw [hsplit, List.append_assoc, List.cons_append]
      · exact List.mem_append_right _ List.mem_cons_self

/--
When the outputs of a read have distinct names, the shards are asked for distinct names exactly if
no output has the name of a hidden count, and the merged rows have exactly those outputs that are
not lost with a hidden count.
-/
theorem hidden_counts_clash_iff (hnames : (select.outputs.map Output.name).Nodup) :
    (((shardSelect select).outputs.map Output.name).Nodup ↔
      ∀ average ∈ select.outputs, average.isAverage = true →
        ∀ output ∈ select.outputs, output.name ≠ hiddenCount average.name) ∧
    ∀ rows merged, (∀ row ∈ rows, row.columns.Nodup ∧
        ∀ output ∈ (shardSelect select).outputs, output.name ∈ row.columns) →
      mergeRows select rows = .ok merged → ∀ row ∈ merged, ∀ output ∈ select.outputs,
        (output.name ∈ row.columns ↔ ¬select.Loses output) := by
  refine ⟨(nodup_shardSelect_iff hnames).trans forall_notMem_hiddenNames_iff, ?_⟩
  intro rows merged hrows hmerge row hrow output houtput
  have hasked : ∀ r ∈ rows, output.name ∈ r.columns := by
    intro r hr
    have hmem : output.name ∈ (shardSelect select).outputs.map Output.name := by
      rw [map_name_shardSelect]
      exact List.mem_append_left _ (List.mem_map_of_mem houtput)
    obtain ⟨asked, hin, hname⟩ := List.mem_map.mp hmem
    exact hname ▸ (hrows r hr).2 asked hin
  cases hgrouped : select.isGrouped with
  | false =>
    -- Without aggregates the rows are those of the shards, and no output averages.
    rw [mergeRows_of_not_grouped hgrouped] at hmerge
    cases hmerge
    refine iff_of_true (hasked row (mem_of_mem_page hrow)) ?_
    rintro ⟨front, average, back, hsplit, haverage, -⟩
    have hmem : average ∈ select.outputs := hsplit ▸ List.mem_append_right _ List.mem_cons_self
    have hfunction := Select.function?_eq_none (Bool.or_eq_false_iff.mp hgrouped).1 hmem
    simp [Output.isAverage, hfunction] at haverage
  | true =>
    cases haccepted : checkGrouping select with
    | error e =>
      rw [mergeRows, if_pos hgrouped, aggregate, haccepted] at hmerge
      cases hmerge
    | ok _ =>
      rw [mergeRows_of_grouped hgrouped haccepted] at hmerge
      cases hmerge
      obtain ⟨head, hhead, tail, rfl⟩ := exists_of_mem_foldGroups (mem_of_mem_page hrow)
      exact mem_columns_foldedRow_iff hnames (hrows head hhead).1 houtput (hasked head hhead)

/-- The mean age of all users. -/
def meanAge : Output :=
  .ofAggregate .avg (some (.bare "age")) "age"

/-- Their total score, under the name of the hidden count of the mean age. -/
def totalScore : Output :=
  .ofAggregate .sum (some (.bare "score")) "age__count"

/-- A read of all users. -/
def ofUsers (outputs : List Output) : Select where
  table := "users"
  outputs := outputs
  predicate := none
  groupBy := []
  orderBy := []
  limit := none
  offset := none

/-- Shards with one user and two users, who answer with one column of the name asked for twice. -/
def sharedName : List Row :=
  [⟨[("age__count", .ofInt 1), ("age", .ofInt 10)]⟩,
    ⟨[("age__count", .ofInt 2), ("age", .ofInt 50)]⟩]

/-- A total in front of the mean is lost, and one behind it stays. -/
theorem hidden_counts_clash_iff_totalScore :
    ¬((shardSelect (ofUsers [totalScore, meanAge])).outputs.map Output.name).Nodup ∧
    (∃ merged, mergeRows (ofUsers [totalScore, meanAge]) sharedName = .ok merged ∧
      ∀ row ∈ merged, "age__count" ∉ row.columns) ∧
    ∃ merged, mergeRows (ofUsers [meanAge, totalScore]) sharedName = .ok merged ∧
      ∀ row ∈ merged, "age__count" ∈ row.columns := by
  have hnames : ((ofUsers [totalScore, meanAge]).outputs.map Output.name).Nodup := by decide
  have hnames' : ((ofUsers [meanAge, totalScore]).outputs.map Output.name).Nodup := by decide
  obtain ⟨hclash, hfront⟩ := hidden_counts_clash_iff hnames
  obtain ⟨-, hback⟩ := hidden_counts_clash_iff hnames'
  refine ⟨fun hdistinct => ?_, ⟨_, mergeRows_of_grouped rfl rfl _, fun row hrow => ?_⟩,
    ⟨_, mergeRows_of_grouped rfl rfl _, fun row hrow => ?_⟩⟩
  · exact hclash.mp hdistinct meanAge (by decide) rfl totalScore (by decide) rfl
  · intro hmem
    exact (hfront sharedName _ (by decide) (mergeRows_of_grouped rfl rfl _) row hrow totalScore
      (by decide)).mp hmem ⟨[totalScore], meanAge, [], rfl, rfl, rfl, Or.inr (by decide)⟩
  · refine (hback sharedName _ (by decide) (mergeRows_of_grouped rfl rfl _) row hrow totalScore
      (by decide)).mpr ?_
    rintro ⟨front, average, back, hsplit, haverage, hname, hnone | hfront⟩
    · cases hnone
    · -- The only mean is the first output, so nothing is in front of it.
      cases front with
      | nil => exact List.not_mem_nil hfront
      | cons first rest =>
        obtain ⟨-, hrest⟩ := List.cons.inj hsplit
        have hmem : average ∈ [totalScore] := hrest ▸ List.mem_append_right _ List.mem_cons_self
        rw [List.mem_singleton.mp hmem] at haverage
        cases haverage

/--
The total score and the mean age have different names, but the shards are asked for one name twice,
and the merged row has the mean alone.
-/
theorem totalScore_is_lost :
    ((ofUsers [totalScore, meanAge]).outputs.map Output.name).Nodup ∧
    ¬((shardSelect (ofUsers [totalScore, meanAge])).outputs.map Output.name).Nodup ∧
    (∀ row ∈ sharedName, ∀ output ∈ (shardSelect (ofUsers [totalScore, meanAge])).outputs,
      output.name ∈ row.columns) ∧
    mergeRows (ofUsers [totalScore, meanAge]) sharedName =
      .ok [⟨[("age", .ofReal (Binary64.ofInt 20))]⟩] ∧
    totalScore.name ∉ (⟨[("age", .ofReal (Binary64.ofInt 20))]⟩ : Row).columns := by
  refine ⟨by decide, by decide, by decide, by decide +kernel, by decide⟩

end Merge

end SqlFederation
