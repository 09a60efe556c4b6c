import Mathlib
import SqlFederation.Link.Endpoints
import SqlFederation.Proofs.Serving

/-!
# Ways to read

A link can be asked for all rows of a read, for a cursor over them, for the first row, for the first
column, and for the number of rows. `Connection.ReadsAgree` says that the answers fit together. A
sharded composition counts the rows of most reads that span shards without merging them, by adding
up what its shards count, and reads the others as a whole. Either way it counts what it reads, so a
composition reads as its children do (`Sharded.readsAgree`), at any depth
(`Connection.IsNested.readsAgree`). `Sharded.read_shapes_agree` says what that means for each way to
read.

Two calls that are to agree run from states that need not be equal, only alike: a count of rows and
a read of rows may leave different traces. Which states are alike is left open, as long as reads do
not tell them apart.
-/

namespace SqlFederation

namespace Call

variable {σ α β γ δ : Type} (alike : σ → σ → Prop)

/--
Do two calls agree? From states that are alike both fail, or both succeed with related answers and
leave states that are alike.
-/
def Agrees (related : α → β → Prop) (one : Call σ α) (other : Call σ β) : Prop :=
  ∀ s t, alike s t →
    (∃ a s' b t', one.outcome s = (.ok a, s') ∧ other.outcome t = (.ok b, t') ∧ related a b ∧
      alike s' t') ∨
    ∃ e s' e' t', one.outcome s = (.error e, s') ∧ other.outcome t = (.error e', t')

variable {alike} {related : α → β → Prop} {one : Call σ α} {other : Call σ β}

theorem agrees_pure {a : α} {b : β} (h : related a b) :
    Agrees alike related (pure a) (pure b) :=
  fun s t hst => Or.inl ⟨a, s, b, t, rfl, rfl, h, hst⟩

theorem agrees_fail (e e' : Error) : Agrees alike related (fail e) (fail e') :=
  fun s t _ => Or.inr ⟨e, s, e', t, rfl, rfl⟩

/-- Calls one after the other agree if each of them does. -/
theorem Agrees.bind {related' : γ → δ → Prop} {f : α → Call σ γ} {g : β → Call σ δ}
    (h : Agrees alike related one other)
    (hrest : ∀ a b, related a b → Agrees alike related' (f a) (g b)) :
    Agrees alike related' (one >>= f) (other >>= g) := by
  intro s t hst
  obtain ⟨a, s', b, t', hone, hother, hab, hst'⟩ | ⟨e, s', e', t', hone, hother⟩ := h s t hst
  · rw [outcome_bind_of_ok hone, outcome_bind_of_ok hother]
    exact hrest a b hab s' t' hst'
  · right
    exact ⟨e, s', e', t', outcome_bind_of_error hone, outcome_bind_of_error hother⟩

/-- A result agrees with one that relates to it. -/
theorem agrees_done_self (result : Except Error α) :
    Agrees alike (fun a b => a = b) (done result) (done result) := by
  cases result with
  | ok a => exact agrees_pure rfl
  | error e => exact agrees_fail e e

/-- Of two calls that agree, one succeeds as often as the other, with a related answer. -/
theorem Agrees.toOption_eq {size : β → α} {s : σ}
    (h : Agrees alike (fun a b => a = size b) one other) (hs : alike s s) :
    (one.outcome s).1.toOption = (other.outcome s).1.toOption.map size := by
  obtain ⟨a, s', b, t', hone, hother, rfl, -⟩ | ⟨e, s', e', t', hone, hother⟩ := h s s hs
  · rw [hone, hother]
    rfl
  · rw [hone, hother]
    rfl

end Call

namespace Connection

variable {σ : Type} {β : Type}

/-- Do the ways to read from a link fit together, in states that are alike? -/
structure ReadsAgree (alike : σ → σ → Prop) (connection : Connection σ) : Prop where
  /-- Reads do not tell states apart that are alike. -/
  rows : ∀ select, Call.Agrees alike (fun a b => a = b) (connection.querySet (.select select))
    (connection.querySet (.select select))
  /-- The number of rows is that of the rows. -/
  numRows : ∀ select, Call.Agrees alike (fun n rows => n = rows.length)
    (connection.queryNumRows (.select select)) (connection.querySet (.select select))
  /-- A cursor, if there is one, is over the same rows. -/
  cursor : ∀ select w rows w', (connection.query (.select select)).outcome w = (.ok rows, w') →
    ((connection.querySet (.select select)).outcome w).1 = .ok rows

/-- A link that counts the rows it reads, and whose cursor is over them, in the same state. -/
theorem readsAgree_of_eq {connection : Connection σ}
    (hnum : ∀ query, connection.queryNumRows query = numRowsOf connection.querySet query)
    (hquery : ∀ query, connection.query query = connection.querySet query) :
    connection.ReadsAgree fun s t => s = t where
  rows select := by
    rintro s t rfl
    cases hread : (connection.querySet (.select select)).outcome s with
    | mk result s' =>
      cases result with
      | ok rows => exact Or.inl ⟨rows, s', rows, s', rfl, rfl, rfl, rfl⟩
      | error e => exact Or.inr ⟨e, s', e, s', rfl, rfl⟩
  numRows select := by
    rintro s t rfl
    rw [hnum, numRowsOf]
    cases hread : (connection.querySet (.select select)).outcome s with
    | mk result s' =>
      cases result with
      | ok rows =>
        rw [Call.outcome_bind_of_ok hread]
        exact Or.inl ⟨rows.length, s', rows, s', rfl, rfl, rfl, rfl⟩
      | error e =>
        rw [Call.outcome_bind_of_error hread]
        exact Or.inr ⟨e, s', e, s', rfl, rfl⟩
  cursor select w rows w' h := by
    rw [← hquery, h]

/-- Sharded compositions of any depth over links of a kind. -/
inductive IsNested (leaf : Connection (World β) → Prop) : Connection (World β) → Prop
  | leaf {connection : Connection (World β)} (h : leaf connection) : IsNested leaf connection
  | sharded (link : Sharded β) (h : ∀ c ∈ link.children, IsNested leaf c) :
    IsNested leaf link.connection

end Connection

open Connection (ReadsAgree IsNested)

namespace Sharded

variable {β α γ : Type} {link : Sharded β} {alike : World β → World β → Prop}

/-- Calls on a shard agree if they do on every child. -/
theorem agrees_onShard {related : α → γ → Prop} {call : Connection (World β) → Call (World β) α}
    {other : Connection (World β) → Call (World β) γ}
    (h : ∀ c ∈ link.children, Call.Agrees alike related (call c) (other c)) (shard : ShardId) :
    Call.Agrees alike related (link.onShard shard call) (link.onShard shard other) := by
  unfold onShard
  cases hshard : link.shard shard with
  | error e => exact Call.agrees_fail e e
  | ok connection => exact h connection (mem_children_of_shard hshard)

/-! ## Plans of one shard and of several -/

section Plans

variable {select : Select} {plan : List (ShardId × Query)}

/-- The read of several shards is gathered and merged. -/
theorem selectSet_of_several (hplan : link.plan (.select select) = .ok plan)
    (hseveral : 1 < plan.length) :
    link.selectSet (.select select) =
      link.gather plan >>= fun rows => Call.done (Merge.mergeRows select rows) := by
  simp only [selectSet, hplan]
  split
  · rename_i heq
    cases heq
  · rename_i heq
    cases heq
    exact absurd hseveral (by simp)
  · rename_i heq
    cases heq
    rfl

/-- A cursor over the rows of several shards is refused. -/
theorem single_of_several (hplan : link.plan (.select select) = .ok plan)
    (hseveral : 1 < plan.length) :
    link.single (.select select) = Call.fail .severalShards := by
  simp only [single, hplan]
  split
  · rename_i heq
    cases heq
  · rename_i heq
    cases heq
    exact absurd hseveral (by simp)
  · rfl

/-- A read that is counted shard by shard asks each shard for all of its rows. -/
theorem shardSelect_retarget (hcount : countsMerged (.select select) = false) (target : String) :
    Merge.shardSelect (select.retarget target) = select.retarget target := by
  rw [countsMerged, Bool.or_eq_false_iff, Bool.or_eq_false_iff] at hcount
  obtain ⟨⟨hgrouped, hlimit⟩, hoffset⟩ := hcount
  obtain ⟨hlimit', hoffset'⟩ := select.page_retarget target
  rw [Option.isSome_eq_false_iff, Option.isNone_iff_eq_none] at hlimit hoffset
  rw [hlimit] at hlimit'
  rw [hoffset] at hoffset'
  rw [Merge.shardSelect_of_not_grouped ((select.isGrouped_retarget target).trans hgrouped), hlimit']
  generalize select.retarget target = aimed at hlimit' hoffset'
  obtain ⟨table, outputs, predicate, groupBy, orderBy, limit, offset⟩ := aimed
  cases hlimit'
  cases hoffset'
  rfl

/-- A read that is counted shard by shard has as many rows when it is merged. -/
theorem exists_mergeRows (hcount : countsMerged (.select select) = false) (rows : List Row) :
    ∃ merged, Merge.mergeRows select rows = .ok merged ∧ merged.length = rows.length := by
  rw [countsMerged, Bool.or_eq_false_iff, Bool.or_eq_false_iff] at hcount
  obtain ⟨⟨hgrouped, hlimit⟩, hoffset⟩ := hcount
  rw [Option.isSome_eq_false_iff, Option.isNone_iff_eq_none] at hlimit hoffset
  refine ⟨_, Merge.mergeRows_of_not_grouped hgrouped rows, ?_⟩
  rw [hlimit, hoffset]
  exact List.length_mergeSort _

end Plans

/-! ## Compositions read as their children do -/

variable (h : ∀ c ∈ link.children, c.ReadsAgree alike)

include h

/-- Shards send the same rows from states that are alike. -/
theorem agrees_gather (part : ShardId → Select) (shards : List ShardId) :
    Call.Agrees alike (fun a b => a = b)
      (link.gather (shards.map fun shard => (shard, .select (part shard))))
      (link.gather (shards.map fun shard => (shard, .select (part shard)))) := by
  induction shards with
  | nil => exact Call.agrees_pure rfl
  | cons shard rest ih =>
    refine (agrees_onShard (fun c hc => (h c hc).rows _) shard).bind ?_
    rintro rows _ rfl
    refine ih.bind ?_
    rintro others _ rfl
    exact Call.agrees_pure rfl

/-- The counts of shards that are asked for all of their rows add up to the rows they send. -/
theorem agrees_totalOf_gather {part : ShardId → Select}
    (hpart : ∀ shard, Merge.shardSelect (part shard) = part shard) (shards : List ShardId) :
    Call.Agrees alike (fun n rows => n = rows.length)
      (link.totalOf Connection.queryNumRows
        (shards.map fun shard => (shard, .select (part shard))))
      (link.gather (shards.map fun shard => (shard, .select (part shard)))) := by
  induction shards with
  | nil => exact Call.agrees_pure rfl
  | cons shard rest ih =>
    rw [List.map_cons, totalOf, gather, hpart shard]
    refine (agrees_onShard (fun c hc => (h c hc).numRows _) shard).bind ?_
    rintro _ rows rfl
    refine ih.bind ?_
    rintro _ others rfl
    exact Call.agrees_pure (List.length_append ..).symm

/-- A composition answers a read alike from states that are alike. -/
theorem agrees_selectSet (select : Select) :
    Call.Agrees alike (fun a b => a = b) (link.selectSet (.select select))
      (link.selectSet (.select select)) := by
  cases hplan : link.plan (.select select) with
  | error e =>
    simp only [selectSet, hplan]
    exact Call.agrees_fail e e
  | ok plan =>
    obtain ⟨shards, target, hne, rfl⟩ := exists_of_plan_select hplan
    rcases shards with _ | ⟨shard, _ | ⟨next, rest⟩⟩
    · exact absurd rfl hne
    · simp only [selectSet, hplan]
      exact agrees_onShard (fun c hc => (h c hc).rows _) shard
    · rw [selectSet_of_several hplan (by simp)]
      refine (agrees_gather h _ (shard :: next :: rest)).bind ?_
      rintro rows _ rfl
      exact Call.agrees_done_self _

/-- A composition counts the rows that it reads. -/
theorem agrees_numRows (select : Select) :
    Call.Agrees alike (fun n rows => n = rows.length) (link.numRows (.select select))
      (link.selectSet (.select select)) := by
  cases hplan : link.plan (.select select) with
  | error e =>
    simp only [numRows, selectSet, hplan]
    exact Call.agrees_fail e e
  | ok plan =>
    obtain ⟨shards, target, hne, rfl⟩ := exists_of_plan_select hplan
    rcases shards with _ | ⟨shard, _ | ⟨next, rest⟩⟩
    · exact absurd rfl hne
    · -- One shard is asked for the number of its rows.
      have hone : link.numRows (.select select) = do
          let n ← link.onShard shard fun c =>
            c.queryNumRows (.select (select.retarget (target shard)))
          return n + (← pure 0) := by
        simp only [numRows, hplan]
        cases countsMerged (.select select) <;> rfl
      rw [hone, ← bind_pure (link.selectSet (.select select))]
      simp only [selectSet, hplan]
      refine (agrees_onShard (fun c hc => (h c hc).numRows _) shard).bind ?_
      rintro _ rows rfl
      exact Call.agrees_pure rfl
    · cases hcount : countsMerged (.select select) with
      | true =>
        -- The rows are merged and then counted.
        have hmerged : link.numRows (.select select) =
            link.selectSet (.select select) >>= fun rows => pure rows.length := by
          simp only [numRows, hplan, hcount]
          rfl
        rw [hmerged, ← bind_pure (link.selectSet (.select select)), bind_assoc]
        refine (agrees_selectSet h select).bind ?_
        rintro rows _ rfl
        rw [pure_bind]
        exact Call.agrees_pure rfl
      | false =>
        -- The counts of the shards add up, and merging loses no row.
        have htotal : link.numRows (.select select) =
            link.totalOf Connection.queryNumRows ((shard :: next :: rest).map fun shard =>
              (shard, .select (select.retarget (target shard)))) >>= pure := by
          rw [bind_pure]
          simp only [numRows, hplan, hcount]
          rfl
        rw [htotal, selectSet_of_several hplan (by simp)]
        refine (agrees_totalOf_gather h (fun shard => shardSelect_retarget hcount (target shard))
          (shard :: next :: rest)).bind ?_
        rintro _ rows rfl
        obtain ⟨merged, hmerge, hlength⟩ := exists_mergeRows hcount rows
        rw [hmerge]
        exact Call.agrees_pure hlength.symm

/-- The ways to read from a composition fit together if they do so for each child. -/
theorem readsAgree : link.connection.ReadsAgree alike where
  rows := agrees_selectSet h
  numRows := agrees_numRows h
  cursor select w rows w' hquery := by
    change (link.single (.select select)).outcome w = (.ok rows, w') at hquery
    show ((link.selectSet (.select select)).outcome w).1 = .ok rows
    cases hplan : link.plan (.select select) with
    | error e =>
      simp only [single, hplan] at hquery
      cases hquery
    | ok plan =>
      obtain ⟨shards, target, hne, rfl⟩ := exists_of_plan_select hplan
      rcases shards with _ | ⟨shard, _ | ⟨next, rest⟩⟩
      · exact absurd rfl hne
      · simp only [single, hplan, List.map_cons, List.map_nil, onShard] at hquery
        simp only [selectSet, hplan, List.map_cons, List.map_nil, onShard]
        cases hshard : link.shard shard with
        | error e =>
          rw [hshard] at hquery
          cases hquery
        | ok connection =>
          rw [hshard] at hquery
          exact (h connection (mem_children_of_shard hshard)).cursor _ w rows w' hquery
      · rw [single_of_several hplan (by simp)] at hquery
        cases hquery

end Sharded

/-- A composition of any depth reads as the links do that it ends at. -/
theorem Connection.IsNested.readsAgree {β : Type} {alike : World β → World β → Prop}
    {connection : Connection (World β)} (h : connection.IsNested (ReadsAgree alike)) :
    connection.ReadsAgree alike := by
  induction h with
  | leaf hleaf => exact hleaf
  | sharded link _ ih => exact Sharded.readsAgree ih

namespace Sharded

variable {β : Type} {alike : World β → World β → Prop}

/--
All ways to read from a sharded composition agree, if they agree for the links that it ends at,
whatever its depth. The number of rows is found exactly if the rows are, and is their number. The
first row and the first column are those of the rows, and are found exactly if the rows are. A
cursor is over the same rows, if there is one, and there is none over the rows of several shards.
-/
theorem read_shapes_agree (halike : ∀ w, alike w w) (link : Sharded β)
    (h : ∀ c ∈ link.children, c.IsNested (ReadsAgree alike)) (select : Select) (w : World β) :
    let query := Query.select select
    let rows := ((link.connection.querySet query).outcome w).1
    ((link.connection.queryNumRows query).outcome w).1.toOption =
        rows.toOption.map List.length ∧
      ((link.connection.queryRow query).outcome w).1 = rows.map List.head? ∧
      ((link.connection.queryColumn query).outcome w).1 = rows.map firstColumn ∧
      (∀ read w', (link.connection.query query).outcome w = (.ok read, w') → rows = .ok read) ∧
      (∀ plan, link.plan query = .ok plan → 1 < plan.length →
        (link.connection.query query).outcome w = (.error .severalShards, w)) ∧
      link.connection.ReadsAgree alike := by
  intro query rows
  have hagree : link.connection.ReadsAgree alike := readsAgree fun c hc => (h c hc).readsAgree
  refine ⟨(hagree.numRows select).toOption_eq (halike w), ?_, ?_, hagree.cursor select w, ?_,
    hagree⟩
  · exact congrArg Prod.fst (Call.outcome_map List.head? (link.selectSet query) w)
  · exact congrArg Prod.fst (Call.outcome_map firstColumn (link.selectSet query) w)
  · intro plan hplan hseveral
    show (link.single query).outcome w = _
    rw [single_of_several hplan hseveral]
    rfl

open RowTable (Reading)
open Merge (nested secondPage threeTables)

theorem isNested_nested :
    ∀ c ∈ nested.children, c.IsNested (ReadsAgree fun v w => v = w) := by
  have htable : ∀ number : ShardId, ((Reading.integers "id").connection number).IsNested
      (ReadsAgree fun v w => v = w) :=
    fun _ => .leaf (Connection.readsAgree_of_eq (fun _ => rfl) fun _ => rfl)
  have hpair : pair.connection.IsNested (ReadsAgree fun v w => v = w) := by
    refine .sharded pair fun c hc => ?_
    obtain ⟨p, hp, rfl⟩ := List.mem_map.mp hc
    rw [overTables_pair.plain p hp]
    exact htable p.1
  show ∀ c ∈ [(Reading.integers "id").connection 9, pair.connection], _
  rw [List.forall_mem_cons, List.forall_mem_singleton]
  exact ⟨htable 9, hpair⟩

/-- A page of two users, read from a composition of compositions, in each of the ways. -/
theorem read_shapes_agree_nested :
    ((nested.connection.queryNumRows (.select secondPage)).outcome threeTables).1.toOption =
        some 2 ∧
      ((nested.connection.queryRow (.select secondPage)).outcome threeTables).1 =
        .ok (some (user 1000 "b")) ∧
      ((nested.connection.queryColumn (.select secondPage)).outcome threeTables).1 =
        .ok [.ofInt 1000, .ofInt 60] ∧
      (nested.connection.query (.select secondPage)).outcome threeTables =
        (.error .severalShards, threeTables) := by
  obtain ⟨hnum, hrow, hcolumn, -, hcursor, -⟩ := read_shapes_agree (fun _ => rfl) nested
    isNested_nested secondPage threeTables
  have hrows : ((nested.connection.querySet (.select secondPage)).outcome threeTables).1 =
      .ok [user 1000 "b", user 60 "b"] := by cbv
  have hplan : nested.plan (.select secondPage) =
      .ok [(9, .select secondPage), (1, .select secondPage)] := by cbv
  rw [hnum, hrow, hcolumn, hcursor _ hplan (by decide), hrows]
  exact ⟨rfl, rfl, rfl, rfl⟩

end Sharded

end SqlFederation
