import SqlFederation.Merge.Aggregate
import SqlFederation.Proofs.Pieces
import SqlFederation.Proofs.Rows

/-!
# Folded groups

What `Merge.foldGroups` makes of some rows: one row for each key, in the order in which the keys
first appear, from the rows of that key alone (`Merge.foldGroups_eq`). `Merge.groupOf` is the group
of some rows of one key, and one more row either opens a group or is folded into the group of its
key (`Merge.addRow_map_of_notMem`, `Merge.addRow_map_of_mem`). The row of a group is its first row
with the aggregated outputs settled (`Merge.finish_groupOf_eq_settle`).
-/

namespace SqlFederation

namespace Merge

variable {aggs : List (String × Aggregate)}

/-- A group with its first row. -/
def Group.open (aggs : List (String × Aggregate)) (key : String) (row : Row) : Group :=
  ⟨key, row, aggs.map fun (output, function) => .seed function row output⟩

/-- A group with another row. -/
def Group.add (aggs : List (String × Aggregate)) (group : Group) (row : Row) : Group :=
  { group with
    accumulators := (group.accumulators.zip aggs).map fun (acc, output, _) => acc.fold row output }

/-- The group of some rows of one key. -/
def groupOf (aggs : List (String × Aggregate)) (key : String) : List Row → Group
  | [] => ⟨key, Row.empty, []⟩
  | head :: tail => tail.foldl (Group.add aggs) (.open aggs key head)

theorem key_foldl_add (group : Group) (rows : List Row) :
    (rows.foldl (Group.add aggs) group).key = group.key := by
  induction rows generalizing group with
  | nil => rfl
  | cons row rest ih => rw [List.foldl_cons, ih]; rfl

theorem key_groupOf (key : String) (rows : List Row) : (groupOf aggs key rows).key = key := by
  cases rows with
  | nil => rfl
  | cons head tail => exact key_foldl_add _ tail

/-- Another row of the key is added to the group. -/
theorem groupOf_append {rows : List Row} (h : rows ≠ []) (key : String) (row : Row) :
    groupOf aggs key (rows ++ [row]) = (groupOf aggs key rows).add aggs row := by
  cases rows with
  | nil => exact absurd rfl h
  | cons head tail =>
    rw [List.cons_append, groupOf, groupOf, List.foldl_append]
    rfl

variable {keys : List String} {key : String} {row : Row} {group : String → Group}

/-- A row of a new key opens a group behind the others. -/
theorem addRow_map_of_notMem (hkey : ∀ k, (group k).key = k) (h : key ∉ keys) :
    addRow aggs key row (keys.map group) = keys.map group ++ [.open aggs key row] := by
  induction keys with
  | nil => rfl
  | cons k rest ih =>
    rw [List.mem_cons, not_or] at h
    rw [List.map_cons, addRow, hkey, if_neg (Ne.symm h.1), ih h.2, List.cons_append]

/-- A row of a known key is folded into the group of that key alone. -/
theorem addRow_map_of_mem (hkey : ∀ k, (group k).key = k) (hnodup : keys.Nodup) (h : key ∈ keys) :
    addRow aggs key row (keys.map group) =
      keys.map fun k => if k = key then (group k).add aggs row else group k := by
  induction keys with
  | nil => exact absurd h List.not_mem_nil
  | cons k rest ih =>
    obtain ⟨hk, hrest⟩ := List.nodup_cons.mp hnodup
    rw [List.map_cons, List.map_cons, addRow]
    by_cases heq : k = key
    · rw [if_pos ((hkey k).trans heq), if_pos heq]
      show (group k).add aggs row :: _ = _
      congr 1
      apply List.map_congr_left
      intro other hother
      rw [if_neg]
      rintro rfl
      exact hk (heq ▸ hother)
    · rw [if_neg (fun hsame => heq ((hkey k).symm.trans hsame)), if_neg heq]
      congr 1
      exact ih hrest ((List.mem_cons.mp h).resolve_left (Ne.symm heq))

/-- The groups of some rows: one for each key, of the rows with that key. -/
theorem foldl_addRow_eq (keyOf : Row → String) (rows : List Row) :
    rows.foldl (fun groups row => addRow aggs (keyOf row) row groups) [] =
      (rows.map keyOf).eraseDups.map fun key =>
        groupOf aggs key (rows.filter fun row => decide (keyOf row = key)) := by
  induction rows using List.reverseRecOn with
  | nil => rfl
  | append_singleton rows row ih =>
    rw [List.foldl_append, ih, List.foldl_cons, List.foldl_nil, List.map_append, List.map_singleton]
    have hkeys : ∀ k, (groupOf aggs k (rows.filter fun r => decide (keyOf r = k))).key = k :=
      fun k => key_groupOf k _
    have hother : ∀ k, k ≠ keyOf row → (rows ++ [row]).filter (fun r => decide (keyOf r = k)) =
        rows.filter fun r => decide (keyOf r = k) := by
      intro k hk
      simp [List.filter_append, Ne.symm hk]
    have hown : (rows ++ [row]).filter (fun r => decide (keyOf r = keyOf row)) =
        (rows.filter fun r => decide (keyOf r = keyOf row)) ++ [row] := by
      simp [List.filter_append]
    -- A row of a known key changes the group of that key, any other row opens a group.
    by_cases h : keyOf row ∈ rows.map keyOf
    · rw [Pieces.eraseDups_concat_of_mem h, addRow_map_of_mem hkeys (Pieces.nodup_eraseDups _)
        (List.mem_eraseDups.mpr h)]
      apply List.map_congr_left
      intro k _
      by_cases hk : k = keyOf row
      · obtain ⟨r, hr, hrk⟩ := List.mem_map.mp h
        have hsome : (rows.filter fun r => decide (keyOf r = keyOf row)) ≠ [] :=
          List.ne_nil_of_mem (List.mem_filter.mpr ⟨hr, decide_eq_true hrk⟩)
        rw [if_pos hk, hk, hown, groupOf_append hsome]
      · rw [if_neg hk, hother k hk]
    · rw [Pieces.eraseDups_concat_of_notMem h,
        addRow_map_of_notMem hkeys (fun hmem => h (List.mem_eraseDups.mp hmem)), List.map_append,
        List.map_singleton, hown]
      have hnone : (rows.filter fun r => decide (keyOf r = keyOf row)) = [] := by
        rw [List.filter_eq_nil_iff]
        intro r hr hsame
        exact h (List.mem_map.mpr ⟨r, hr, of_decide_eq_true hsame⟩)
      rw [hnone]
      congr 1
      apply List.map_congr_left
      intro k hk
      rw [hother k]
      rintro rfl
      exact h (List.mem_eraseDups.mp hk)

/-- The rows of folded groups: one for each key, of the rows with that key. -/
theorem foldGroups_eq (select : Select) (rows : List Row) :
    foldGroups select rows = (rows.map (groupKey select)).eraseDups.map fun key =>
      Group.finish (aggregates select) (groupOf (aggregates select) key
        (rows.filter fun row => decide (groupKey select row = key))) := by
  rw [foldGroups, foldl_addRow_eq, List.map_map]
  rfl

/-! ## The row of a group -/

/-- What folding makes of two values of an aggregate other than an average. -/
def mergeValues (function : Aggregate) (held value : Json) : Json :=
  match function with
  | .sum | .count => addValues held value
  | .min => pick .lt held value
  | .max => pick .gt held value
  | .avg => held

/-- Folding rows into an accumulator merges their values. -/
theorem finish_foldl_fold {function : Aggregate} (h : function ≠ .avg) (output : String)
    (head : Row) (tail : List Row) :
    (tail.foldl (fun acc row => Accumulator.fold acc row output)
        (Accumulator.seed function head output)).finish =
      tail.foldl (fun held row => mergeValues function held (row.value output))
        (head.value output) := by
  -- Each kind of accumulator stays of its kind.
  have hkind : ∀ (kind : Json → Accumulator), (∀ v, (kind v).finish = v) →
      (∀ v row, (kind v).fold row output = kind (mergeValues function v (row.value output))) →
      ∀ v, (tail.foldl (fun acc row => acc.fold row output) (kind v)).finish =
        tail.foldl (fun held row => mergeValues function held (row.value output)) v := by
    intro kind hfinish hfold v
    induction tail generalizing v with
    | nil => exact hfinish v
    | cons row rest ih => rw [List.foldl_cons, List.foldl_cons, hfold, ih]
  cases function with
  | sum => exact hkind .total (fun v => rfl) (fun v row => rfl) _
  | count => exact hkind .total (fun v => rfl) (fun v row => rfl) _
  | min => exact hkind .least (fun v => rfl) (fun v row => rfl) _
  | max => exact hkind .greatest (fun v => rfl) (fun v row => rfl) _
  | avg => exact absurd rfl h

theorem zip_map_self {α β : Type} (f : α → β) (l : List α) :
    (l.map f).zip l = l.map fun a => (f a, a) := by
  induction l with
  | nil => rfl
  | cons a rest ih => rw [List.map_cons, List.zip_cons_cons, ih, List.map_cons]

/-- Each accumulator of a group has folded the rows of the group. -/
theorem accumulators_foldl_add (key : String) (first : Row) (tail : List Row)
    (acc : String × Aggregate → Accumulator) :
    (tail.foldl (Group.add aggs) ⟨key, first, aggs.map acc⟩).accumulators =
      aggs.map fun a => tail.foldl (fun acc row => acc.fold row a.1) (acc a) := by
  induction tail generalizing acc with
  | nil => rfl
  | cons row rest ih =>
    have hadd : Group.add aggs ⟨key, first, aggs.map acc⟩ row =
        ⟨key, first, aggs.map fun a => (acc a).fold row a.1⟩ := by
      rw [Group.add, zip_map_self, List.map_map]
      rfl
    rw [List.foldl_cons, hadd, ih]
    rfl

theorem row_foldl_add (group : Group) (tail : List Row) :
    (tail.foldl (Group.add aggs) group).row = group.row := by
  induction tail generalizing group with
  | nil => rfl
  | cons row rest ih => rw [List.foldl_cons, ih]; rfl

/-- What is folded of an output over some rows. -/
def foldedValue (output : String) (function : Aggregate) (head : Row) (tail : List Row) : Json :=
  (tail.foldl (fun acc row => Accumulator.fold acc row output)
    (Accumulator.seed function head output)).finish

/-- Sets an aggregated output. The hidden count of an average is not needed behind it. -/
def settle (row : Row) (output : String) (function : Aggregate) (value : Json) : Row :=
  match function with
  | .avg => (row.insert output value).erase (hiddenCount output)
  | _ => row.insert output value

/-- The row of a group is its first row with one aggregated output after the other settled. -/
theorem finish_groupOf_eq_settle (key : String) (head : Row) (tail : List Row) :
    (groupOf aggs key (head :: tail)).finish aggs =
      aggs.foldl (fun row a => settle row a.1 a.2 (foldedValue a.1 a.2 head tail)) head := by
  rw [Group.finish, groupOf, Group.open, accumulators_foldl_add, zip_map_self, row_foldl_add,
    List.foldl_map]
  apply List.foldl_ext
  intro row a _
  obtain ⟨output, function⟩ := a
  cases function with
  | _ => rfl

/-- Without averages, the row of a group is its first row with the folded values set. -/
theorem finish_groupOf (havg : ∀ a ∈ aggs, a.2 ≠ .avg) (key : String) (head : Row)
    (tail : List Row) :
    (groupOf aggs key (head :: tail)).finish aggs =
      aggs.foldl (fun row a => row.insert a.1
        (tail.foldl (fun held row => mergeValues a.2 held (row.value a.1)) (head.value a.1)))
        head := by
  rw [finish_groupOf_eq_settle]
  apply List.foldl_ext
  intro row a ha
  rw [← finish_foldl_fold (havg a ha) a.1 head tail]
  obtain ⟨output, function⟩ := a
  cases function with
  | avg => exact absurd rfl (havg _ ha)
  | _ => rfl

/-- Setting the aggregated outputs of a row changes their values and no others. -/
theorem foldl_insert_aggregates {outputs : List Output} (hnodup : (outputs.map Output.name).Nodup)
    (new : String × Aggregate → Json) {todo : List Output} (hsub : ∀ o ∈ todo, o ∈ outputs)
    (old : Output → Json) :
    (todo.filterMap fun o => o.function?.map fun f => (o.name, f)).foldl
      (fun row a => Row.insert row a.1 (new a)) ⟨outputs.map fun o => (o.name, old o)⟩ =
      ⟨outputs.map fun o => (o.name,
        match o.function? with
        | some f => if o ∈ todo then new (o.name, f) else old o
        | none => old o)⟩ := by
  induction todo generalizing old with
  | nil =>
    rw [List.filterMap_nil, List.foldl_nil]
    congr 1
    apply List.map_congr_left
    intro o _
    cases o.function? with
    | none => rfl
    | some f => simp only [List.not_mem_nil, if_false]
  | cons b rest ih =>
    rw [List.forall_mem_cons] at hsub
    -- Names are distinct, so setting a column changes the entry of its output alone.
    have hsame : ∀ o ∈ outputs, o.name = b.name → o = b :=
      fun o ho heq => List.inj_on_of_nodup_map hnodup ho hsub.1 heq
    cases hb : b.function? with
    | none =>
      rw [List.filterMap_cons_none (by rw [hb]; rfl), ih hsub.2]
      congr 1
      apply List.map_congr_left
      intro o _
      cases ho : o.function? with
      | none => rfl
      | some f =>
        have hne : o ≠ b := by
          rintro rfl
          rw [ho] at hb
          cases hb
        simp only [List.mem_cons, hne, false_or]
    | some f =>
      have hput : Row.insert ⟨outputs.map fun o => (o.name, old o)⟩ b.name (new (b.name, f)) =
          ⟨outputs.map fun o => (o.name, if o.name = b.name then new (b.name, f) else old o)⟩ :=
        congrArg Row.mk (Json.put_map hsub.1 hnodup)
      rw [List.filterMap_cons_some (by rw [hb]; rfl), List.foldl_cons, hput, ih hsub.2]
      congr 1
      apply List.map_congr_left
      intro o ho
      by_cases heq : o = b
      · rw [heq, hb]
        simp only [List.mem_cons, true_or, if_true, ite_self]
      · have hname : o.name ≠ b.name := fun h => heq (hsame o ho h)
        cases o.function? with
        | none => rw [if_neg hname]
        | some g => simp only [List.mem_cons, heq, false_or, hname, if_false]

end Merge

end SqlFederation
