import SqlFederation.Link.Sharded
import SqlFederation.Proofs.Outcome
import Mathlib.Data.List.Nodup

/-!
# Plans of sharded links

A plan asks each shard that a query is routed to for its part, in the order of registration and at
the shard's own table. The shard ids of a map are distinct however the map was built
(`ShardMap.Built.nodup`). An insert is split into one part for each shard, and the part of a shard
has the rows that the map routes to it (`Sharded.route_insert`): `Sharded.Split` is what holds of
the parts after each row, and `Sharded.Split.addRow` that one more row keeps it.
`Sharded.plan_eq_ok` puts routing and registration together, `Sharded.exists_of_plan_ok` takes a
plan apart again, and `Sharded.outcome_selectSet` says what a read by a plan answers. A composition
that was put together shard by shard plans each shard at most once, and in the order of registration
(`Sharded.Sound.plan_sublist`).
-/

namespace SqlFederation

namespace ShardMap

/-- A map that was built range by range, with names for the tables of some shards. -/
inductive Built : ShardMap → Prop
  | empty (table key : String) : Built (.empty table key)
  | addRange {m m' : ShardMap} {shard : ShardId} {range : KeyRange} (hm : Built m)
    (h : m.addRange shard range = .ok m') : Built m'
  | withPhysicalTable {m m' : ShardMap} {shard : ShardId} {physical : String} (hm : Built m)
    (h : m.withPhysicalTable shard physical = .ok m') : Built m'

/-- Naming a physical table leaves everything else of the shards as it is. -/
theorem map_namePhysical {γ : Type} {part : ShardRange → γ} {physical : String}
    (hpart : ∀ s : ShardRange, part { s with physicalTable := some physical } = part s)
    (shard : ShardId) (shards : List ShardRange) :
    (namePhysical shard physical shards).map part = shards.map part := by
  induction shards with
  | nil => rfl
  | cons s rest ih =>
    rw [namePhysical]
    split
    · rw [List.map_cons, List.map_cons, hpart]
    · rw [List.map_cons, List.map_cons, ih]

/-- A map without a shard does not list it. -/
theorem notMem_shardIds {m : ShardMap} {shard : ShardId} (h : m.hasShard shard = false) :
    shard ∉ m.shardIds := by
  intro hmem
  obtain ⟨s, hs, rfl⟩ := List.mem_map.mp hmem
  have hany : m.hasShard s.shard = true := List.any_eq_true.mpr ⟨s, hs, beq_self_eq_true _⟩
  rw [hany] at h
  cases h

/-- The shards of a map are distinct. -/
theorem Built.nodup {m : ShardMap} (h : m.Built) : m.shardIds.Nodup := by
  induction h with
  | empty table key => exact List.nodup_nil
  | @addRange m m' shard range hm h ih =>
    unfold ShardMap.addRange at h
    split at h
    · cases h
    · rename_i hfree
      cases hrange : range.checked with
      | error e =>
        rw [hrange] at h
        cases h
      | ok checked =>
        rw [hrange] at h
        cases h
        rw [shardIds, List.map_append, List.map_singleton]
        refine List.nodup_append.mpr ⟨ih, List.nodup_singleton _, ?_⟩
        rintro a ha b hb rfl
        rw [List.mem_singleton] at hb
        rw [hb] at ha
        exact notMem_shardIds (by simpa using hfree) ha
  | @withPhysicalTable m m' shard physical hm h ih =>
    unfold ShardMap.withPhysicalTable at h
    split at h
    · cases h
      rw [shardIds, map_namePhysical fun _ => rfl]
      exact ih
    · cases h

/-- The shard that a row is written to, if there is one. -/
def shardOf? (m : ShardMap) (row : Row) : Option ShardId :=
  (m.routeByRow row).toOption

theorem shardOf?_of_ok {m : ShardMap} {row : Row} {shard : ShardId}
    (h : m.routeByRow row = .ok shard) : m.shardOf? row = some shard := by
  rw [shardOf?, h]
  rfl

theorem routeByRow_of_shardOf? {m : ShardMap} {row : Row} {shard : ShardId}
    (h : m.shardOf? row = some shard) : m.routeByRow row = .ok shard := by
  unfold shardOf? at h
  cases hroute : m.routeByRow row with
  | error e =>
    rw [hroute] at h
    cases h
  | ok s =>
    rw [hroute] at h
    cases h
    rfl

/-- Shards that a condition routes to are shards of the map. -/
theorem routeByPredicate_sublist (m : ShardMap) (predicate : Option Predicate) :
    (m.routeByPredicate predicate).Sublist m.shardIds := by
  cases predicate with
  | none => exact List.Sublist.refl _
  | some p =>
    rw [routeByPredicate, chooseShards]
    split
    · exact List.nil_sublist _
    · exact (List.filter_sublist).map _

end ShardMap

namespace Sharded

/-- The part of an insert for one shard: those of its rows that are routed there. -/
def partOf (m : ShardMap) (table : String) (rows : List Row) (shard : ShardId) : Insert :=
  ⟨table, rows.filter fun row => decide (m.shardOf? row = some shard), []⟩

/-- The part of a shard takes in a row that is routed to it. -/
theorem partOf_append_of_eq {m : ShardMap} {row : Row} {shard : ShardId}
    (h : m.shardOf? row = some shard) (table : String) (rows : List Row) :
    partOf m table (rows ++ [row]) shard = (partOf m table rows shard).withRow row := by
  simp [partOf, Insert.withRow, List.filter_append, h]

/-- The part of a shard passes over a row that is routed elsewhere. -/
theorem partOf_append_of_ne {m : ShardMap} {row : Row} {shard : ShardId}
    (h : m.shardOf? row ≠ some shard) (table : String) (rows : List Row) :
    partOf m table (rows ++ [row]) shard = partOf m table rows shard := by
  simp [partOf, List.filter_append, h]

/-- The part of a shard that no row is routed to is empty. -/
theorem partOf_eq_into {m : ShardMap} {rows : List Row} {shard : ShardId}
    (h : ∀ row ∈ rows, m.shardOf? row ≠ some shard) (table : String) :
    partOf m table rows shard = Insert.into table := by
  have hnone : rows.filter (fun row => decide (m.shardOf? row = some shard)) = [] := by
    rw [List.filter_eq_nil_iff]
    intro row hrow
    simpa using h row hrow
  rw [partOf, hnone]
  rfl

/-- The parts after some rows: one for each shard that a row was routed to. -/
structure Split (m : ShardMap) (table : String) (rows : List Row) (shards : List ShardId)
    (parts : List (ShardId × Insert)) : Prop where
  nodup : shards.Nodup
  mem : ∀ shard, shard ∈ shards ↔ ∃ row ∈ rows, m.shardOf? row = some shard
  parts : parts = shards.map fun shard => (shard, partOf m table rows shard)

/-- A row whose shard has no part yet opens one behind the others. -/
theorem addToPart_of_notMem {m : ShardMap} {table : String} {rows : List Row} {row : Row}
    {shard : ShardId} {shards : List ShardId} (h : shard ∉ shards) :
    addToPart table shard row (shards.map fun s => (s, partOf m table rows s)) =
      (shards.map fun s => (s, partOf m table rows s)) ++
        [(shard, (Insert.into table).withRow row)] := by
  induction shards with
  | nil => rfl
  | cons s rest ih =>
    rw [List.mem_cons, not_or] at h
    rw [List.map_cons, addToPart, if_neg (Ne.symm h.1), ih h.2, List.cons_append]

/-- A row whose shard has a part goes into that part alone. -/
theorem addToPart_of_mem {m : ShardMap} {table : String} {rows : List Row} {row : Row}
    {shard : ShardId} {shards : List ShardId} (hroute : m.shardOf? row = some shard)
    (hnodup : shards.Nodup) (h : shard ∈ shards) :
    addToPart table shard row (shards.map fun s => (s, partOf m table rows s)) =
      shards.map fun s => (s, partOf m table (rows ++ [row]) s) := by
  have hother : ∀ s, s ≠ shard → partOf m table (rows ++ [row]) s = partOf m table rows s := by
    intro s hs
    apply partOf_append_of_ne
    rw [hroute]
    exact fun heq => hs (Option.some.inj heq).symm
  induction shards with
  | nil => exact absurd h List.not_mem_nil
  | cons s rest ih =>
    obtain ⟨hs, hrest⟩ := List.nodup_cons.mp hnodup
    rw [List.map_cons, List.map_cons, addToPart]
    by_cases heq : s = shard
    · subst heq
      rw [if_pos rfl, partOf_append_of_eq hroute]
      congr 1
      apply List.map_congr_left
      intro t ht
      rw [hother t (fun hts => hs (hts ▸ ht))]
    · rw [if_neg heq, hother s heq]
      congr 1
      exact ih hrest ((List.mem_cons.mp h).resolve_left (Ne.symm heq))

/-- Before any row there are no parts. -/
theorem Split.nil (m : ShardMap) (table : String) : Split m table [] [] [] where
  nodup := List.nodup_nil
  mem := by simp
  parts := rfl

/-- One more row keeps the parts right. -/
theorem Split.addRow {m : ShardMap} {table : String} {rows : List Row} {shards : List ShardId}
    {parts : List (ShardId × Insert)} (h : Split m table rows shards parts) {row : Row}
    {shard : ShardId} (hroute : m.shardOf? row = some shard) :
    ∃ shards', Split m table (rows ++ [row]) shards' (addToPart table shard row parts) := by
  have hmem : ∀ s, (∃ r ∈ rows ++ [row], m.shardOf? r = some s) ↔ s ∈ shards ∨ s = shard := by
    intro s
    rw [h.mem s]
    constructor
    · rintro ⟨r, hr, hrs⟩
      rcases List.mem_append.mp hr with hr | hr
      · exact Or.inl ⟨r, hr, hrs⟩
      · rw [List.mem_singleton.mp hr, hroute] at hrs
        exact Or.inr (Option.some.inj hrs).symm
    · rintro (⟨r, hr, hrs⟩ | rfl)
      · exact ⟨r, List.mem_append_left _ hr, hrs⟩
      · exact ⟨row, List.mem_append_right _ (List.mem_singleton_self row), hroute⟩
  -- The shard has a part already, or the row opens one behind the others.
  by_cases hin : shard ∈ shards
  · refine ⟨shards, h.nodup, ?_, ?_⟩
    · intro s
      rw [hmem s]
      constructor
      · exact Or.inl
      · rintro (hs | rfl)
        · exact hs
        · exact hin
    · rw [h.parts, addToPart_of_mem hroute h.nodup hin]
  · refine ⟨shards ++ [shard], ?_, ?_, ?_⟩
    · exact List.nodup_append.mpr ⟨h.nodup, List.nodup_singleton _,
        fun a ha b hb hab => hin (List.mem_singleton.mp hb ▸ hab ▸ ha)⟩
    · intro s
      rw [hmem s, List.mem_append, List.mem_singleton]
    · have hfresh : ∀ r ∈ rows, m.shardOf? r ≠ some shard :=
        fun r hr hrs => hin ((h.mem shard).mpr ⟨r, hr, hrs⟩)
      rw [h.parts, addToPart_of_notMem hin, List.map_append, List.map_singleton,
        partOf_append_of_eq hroute, partOf_eq_into hfresh]
      congr 1
      apply List.map_congr_left
      intro s hs
      rw [partOf_append_of_ne]
      rw [hroute]
      exact fun heq => hin ((Option.some.inj heq) ▸ hs)

/-- Splitting rows that are all routed keeps the parts right to the end. -/
theorem exists_split {m : ShardMap} {insert : Insert} {parts : List (ShardId × Insert)}
    (h : splitRows m insert = .ok parts) :
    (∀ row ∈ insert.rows, ∃ shard, m.routeByRow row = .ok shard) ∧
      ∃ shards, Split m insert.table insert.rows shards parts := by
  unfold splitRows at h
  -- The rows that are done and the rows to come make up the insert.
  suffices hgen : ∀ (todo done : List Row) (shards : List ShardId)
      (acc : List (ShardId × Insert)), Split m insert.table done shards acc →
      todo.foldlM (fun parts row => do
        let shard ← m.routeByRow row
        .ok (addToPart insert.table shard row parts)) acc = Except.ok parts →
      (∀ row ∈ todo, ∃ shard, m.routeByRow row = .ok shard) ∧
        ∃ shards, Split m insert.table (done ++ todo) shards parts by
    exact hgen insert.rows [] [] [] (Split.nil m insert.table) h
  intro todo
  induction todo with
  | nil =>
    intro done shards acc hacc h
    cases h
    exact ⟨by simp, shards, by simpa using hacc⟩
  | cons row rest ih =>
    intro done shards acc hacc h
    rw [List.foldlM_cons] at h
    cases hroute : m.routeByRow row with
    | error e =>
      rw [hroute] at h
      cases h
    | ok shard =>
      rw [hroute] at h
      obtain ⟨shards', hnext⟩ := hacc.addRow (ShardMap.shardOf?_of_ok hroute)
      obtain ⟨hrest, hsplit⟩ := ih (done ++ [row]) shards' _ hnext h
      rw [List.append_assoc, List.singleton_append] at hsplit
      exact ⟨List.forall_mem_cons.mpr ⟨⟨shard, hroute⟩, hrest⟩, hsplit⟩

/-- An insert that cannot be split has a row that is not routed. -/
theorem exists_of_splitRows_error {m : ShardMap} {insert : Insert} {e : Error}
    (h : splitRows m insert = .error e) : ∃ row ∈ insert.rows, m.routeByRow row = .error e := by
  unfold splitRows at h
  generalize ([] : List (ShardId × Insert)) = acc at h
  generalize insert.rows = rows at h ⊢
  induction rows generalizing acc with
  | nil => cases h
  | cons row rest ih =>
    rw [List.foldlM_cons] at h
    cases hroute : m.routeByRow row with
    | error e' =>
      rw [hroute] at h
      cases h
      exact ⟨row, List.mem_cons_self, hroute⟩
    | ok shard =>
      rw [hroute] at h
      obtain ⟨r, hr, hre⟩ := ih _ h
      exact ⟨r, List.mem_cons_of_mem _ hr, hre⟩

/-- An insert goes to the shards of its rows, to each with the rows that belong there. -/
theorem route_insert {m : ShardMap} {insert : Insert} {routed : List (ShardId × Query)}
    (h : route m (.insert insert) = .ok routed) :
    (∀ row ∈ insert.rows, ∃ shard, m.routeByRow row = .ok shard) ∧
      ∃ shards : List ShardId, shards.Nodup ∧
        (∀ shard, shard ∈ shards ↔ ∃ row ∈ insert.rows, m.shardOf? row = some shard) ∧
        routed = shards.map fun shard =>
          (shard, Query.insert (partOf m insert.table insert.rows shard)) := by
  unfold route at h
  cases hsplit : splitRows m insert with
  | error e =>
    simp only [hsplit] at h
    cases h
  | ok parts =>
    simp only [hsplit] at h
    cases h
    obtain ⟨hrows, shards, hnodup, hmem, hparts⟩ := exists_split hsplit
    refine ⟨hrows, shards, hnodup, hmem, ?_⟩
    rw [hparts, List.map_map]
    rfl

/-- An insert that is not routed has a row that is not. -/
theorem exists_of_route_insert_error {m : ShardMap} {insert : Insert} {e : Error}
    (h : route m (.insert insert) = .error e) :
    ∃ row ∈ insert.rows, m.routeByRow row = .error e := by
  unfold route at h
  cases hsplit : splitRows m insert with
  | error e' =>
    simp only [hsplit] at h
    cases h
    exact exists_of_splitRows_error hsplit
  | ok parts =>
    simp only [hsplit] at h
    cases h

variable {β : Type}

/-- A call on a registered shard is a call on its connection. -/
theorem exists_onShard_eq {link : Sharded β} {shard : ShardId} (h : shard ∈ link.shardIds) :
    ∃ connection, (shard, connection) ∈ link.shards ∧
      ∀ {α : Type} (call : Connection (World β) → Call (World β) α),
        link.onShard shard call = call connection := by
  have hlookup : ∃ connection, (shard, connection) ∈ link.shards ∧
      link.shards.lookup shard = some connection := by
    unfold shardIds at h
    generalize link.shards = shards at h ⊢
    induction shards with
    | nil => exact absurd h List.not_mem_nil
    | cons p rest ih =>
      obtain ⟨s, c⟩ := p
      rw [List.lookup_cons]
      by_cases heq : shard = s
      · rw [heq, beq_self_eq_true]
        exact ⟨c, List.mem_cons_self, rfl⟩
      · rw [List.map_cons, List.mem_cons] at h
        obtain ⟨connection, hmem, hfound⟩ := ih (h.resolve_left heq)
        rw [beq_false_of_ne heq]
        exact ⟨connection, List.mem_cons_of_mem _ hmem, hfound⟩
  obtain ⟨connection, hmem, hfound⟩ := hlookup
  refine ⟨connection, hmem, fun call => ?_⟩
  rw [onShard, Sharded.shard, hfound]

/-- Some shards in the order of their registration. -/
def inOrder (link : Sharded β) (shards : List ShardId) : List ShardId :=
  shards.mergeSort fun a b => decide (link.position a ≤ link.position b)

/-- Ordering shards keeps which they are. -/
theorem inOrder_perm (link : Sharded β) (shards : List ShardId) :
    (link.inOrder shards).Perm shards :=
  List.mergeSort_perm _ _

/-- What is not routed is not planned. -/
theorem plan_eq_error_of_route {link : Sharded β} {m : ShardMap} {query : Query} {e : Error}
    (hmap : link.mapOf query.table = .ok m) (hroute : route m query = .error e) :
    link.plan query = .error e := by
  unfold plan
  rw [hmap]
  simp only [bind, Except.bind, hroute]

/-- A query that is routed to no shard is refused. -/
theorem plan_eq_unroutable {link : Sharded β} {m : ShardMap} {query : Query}
    (hmap : link.mapOf query.table = .ok m) (hroute : route m query = .ok []) :
    link.plan query = .error (.unroutable query.table) := by
  unfold plan
  rw [hmap]
  simp only [bind, Except.bind, hroute, List.isEmpty_nil, if_true]

/--
A query with a part for each of some registered shards is planned: each shard is asked for its part
at its own table, in the order of registration.
-/
theorem plan_eq_ok {link : Sharded β} {m : ShardMap} {query : Query} {shards : List ShardId}
    {part : ShardId → Query} (hmap : link.mapOf query.table = .ok m)
    (hroute : route m query = .ok (shards.map fun shard => (shard, part shard)))
    (hne : shards ≠ []) (hknown : ∀ shard ∈ shards, shard ∈ link.shardIds) :
    link.plan query = .ok ((link.inOrder shards).map fun shard =>
      (shard, (part shard).retarget (m.physicalTable shard))) := by
  have hunknown : link.unknownAmong? (shards.map fun shard => (shard, part shard)) = none := by
    unfold unknownAmong?
    rw [Option.map_eq_none_iff, List.find?_eq_none]
    intro p hp
    obtain ⟨shard, hshard, rfl⟩ := List.mem_map.mp hp
    simpa using hknown shard hshard
  have hsort : (shards.map fun shard => (shard, part shard)).mergeSort
      (fun a b => decide (link.position a.1 ≤ link.position b.1)) =
        (link.inOrder shards).map fun shard => (shard, part shard) := by
    rw [inOrder, List.map_mergeSort]
    exact fun a _ b _ => rfl
  have hempty : (shards.map fun shard => (shard, part shard)).isEmpty = false := by
    cases shards with
    | nil => exact absurd rfl hne
    | cons shard rest => rfl
  unfold plan
  rw [hmap]
  simp only [bind, Except.bind, hroute, hempty, hunknown, hsort, List.map_map]
  rfl

/-- A query that is planned is routed by the map of its table, and to registered shards. -/
theorem exists_of_plan_ok {link : Sharded β} {query : Query} {plan : List (ShardId × Query)}
    (h : link.plan query = .ok plan) :
    ∃ m routed, link.mapOf query.table = .ok m ∧ route m query = .ok routed ∧ routed ≠ [] ∧
      (∀ p ∈ routed, p.1 ∈ link.shardIds) ∧
      plan.map Prod.fst = link.inOrder (routed.map Prod.fst) := by
  unfold Sharded.plan at h
  cases hmap : link.mapOf query.table with
  | error e =>
    rw [hmap] at h
    cases h
  | ok m =>
    rw [hmap] at h
    cases hroute : route m query with
    | error e =>
      simp only [bind, Except.bind, hroute] at h
      cases h
    | ok routed =>
      simp only [bind, Except.bind, hroute] at h
      split at h
      · cases h
      · rename_i hempty
        split at h
        · cases h
        · rename_i hunknown
          rw [unknownAmong?, Option.map_eq_none_iff, List.find?_eq_none] at hunknown
          cases h
          refine ⟨m, routed, rfl, hroute, fun hnil => hempty (List.isEmpty_iff.mpr hnil), ?_, ?_⟩
          · intro p hp
            simpa using hunknown p hp
          · rw [List.map_map]
            exact List.map_mergeSort fun a _ b _ => rfl

/-- A read that is planned asks shards for the same read, each at its own table. -/
theorem exists_of_plan_select {link : Sharded β} {select : Select} {plan : List (ShardId × Query)}
    (h : link.plan (.select select) = .ok plan) :
    ∃ (shards : List ShardId) (target : ShardId → String), shards ≠ [] ∧
      plan = shards.map fun shard => (shard, .select (select.retarget (target shard))) := by
  obtain ⟨m, routed, hmap, hroute, hne, hknown, -⟩ := exists_of_plan_ok h
  obtain rfl : forEach (.select select) (m.routeByPredicate select.predicate) = routed :=
    Except.ok.inj hroute
  rw [forEach, ne_eq, List.map_eq_nil_iff] at hne
  rw [forEach, List.forall_mem_map] at hknown
  rw [plan_eq_ok hmap hroute hne hknown] at h
  refine ⟨_, m.physicalTable, ?_, (Except.ok.inj h).symm⟩
  intro hnil
  exact hne (List.perm_nil.mp (hnil ▸ (link.inOrder_perm _).symm))

/-- The connection of a shard is one of the children. -/
theorem mem_children_of_shard {link : Sharded β} {shard : ShardId}
    {connection : Connection (World β)} (h : link.shard shard = .ok connection) :
    connection ∈ link.children := by
  unfold Sharded.shard at h
  cases hlookup : link.shards.lookup shard with
  | none =>
    rw [hlookup] at h
    cases h
  | some found =>
    rw [hlookup] at h
    cases h
    obtain ⟨front, back, hshards, -⟩ := List.lookup_eq_some_iff.mp hlookup
    have hmem : (shard, connection) ∈ link.shards := by
      rw [hshards]
      exact List.mem_append_right _ List.mem_cons_self
    exact List.mem_map_of_mem hmem

/-! ## The order of a plan -/

/-- Distinct registered shards in order are the registered ones among which they are. -/
theorem inOrder_eq_filter {link : Sharded β} {shards : List ShardId}
    (hids : link.shardIds.Nodup) (hnodup : shards.Nodup)
    (hknown : ∀ shard ∈ shards, shard ∈ link.shardIds) :
    link.inOrder shards = link.shardIds.filter fun shard => decide (shard ∈ shards) := by
  have hperm : (link.inOrder shards).Perm
      (link.shardIds.filter fun shard => decide (shard ∈ shards)) := by
    refine (link.inOrder_perm shards).trans
      ((List.perm_ext_iff_of_nodup hnodup (hids.filter _)).mpr fun shard => ?_)
    rw [List.mem_filter, decide_eq_true_eq]
    exact ⟨fun h => ⟨hknown shard h, h⟩, And.right⟩
  have hsorted : (link.inOrder shards).Pairwise fun a b => link.position a ≤ link.position b := by
    refine (List.pairwise_mergeSort ?_ ?_ shards).imp of_decide_eq_true
    · intro a b c hab hbc
      simp only [decide_eq_true_eq] at hab hbc ⊢
      exact Nat.le_trans hab hbc
    · intro a b
      simpa using Nat.le_total (link.position a) (link.position b)
  have hids' : link.shardIds.Pairwise fun a b => link.position a ≤ link.position b := by
    rw [List.pairwise_iff_getElem]
    intro i j hi hj hij
    rw [position, position, hids.idxOf_getElem, hids.idxOf_getElem]
    exact Nat.le_of_lt hij
  refine List.Perm.eq_of_pairwise ?_ hsorted (hids'.filter _) hperm
  -- Two shards at one place are the same, as one of them is registered.
  intro a b _ hb hab hba
  have hregistered : b ∈ link.shardIds := (List.mem_filter.mp hb).1
  exact ((List.idxOf_inj hregistered).mp (Nat.le_antisymm hba hab)).symm

/-- A query is routed to a shard at most once. -/
theorem nodup_of_route {m : ShardMap} {query : Query} {routed : List (ShardId × Query)}
    (hm : m.Built) (h : route m query = .ok routed) : (routed.map Prod.fst).Nodup := by
  have hall : ∀ condition, ((forEach query (m.routeByPredicate condition)).map Prod.fst).Nodup := by
    intro condition
    rw [forEach, List.map_map, Function.comp_def, List.map_id']
    exact (m.routeByPredicate_sublist condition).nodup hm.nodup
  cases query with
  | select select =>
    cases h
    exact hall _
  | delete delete =>
    cases h
    exact hall _
  | insert insert =>
    obtain ⟨-, shards, hnodup, -, rfl⟩ := route_insert h
    rw [List.map_map, Function.comp_def, List.map_id']
    exact hnodup
  | update update =>
    simp only [route] at h
    split at h
    · cases h
      exact List.nodup_singleton _
    · cases h
      exact hall _
    · cases h


/-- A composition whose shards are distinct, with maps that were built. -/
structure Sound (link : Sharded β) : Prop where
  nodup : link.shardIds.Nodup
  maps : ∀ m ∈ link.maps, m.Built

/-- A composition that was put together shard by shard and map by map. -/
inductive Built : Sharded β → Prop
  | empty : Built .empty
  | addShard {link link' : Sharded β} {shard : ShardId} {connection : Connection (World β)}
    (hlink : Built link) (h : link.addShard shard connection = .ok link') : Built link'
  | setMap {link : Sharded β} {m : ShardMap} (hlink : Built link) (hm : m.Built) :
    Built (link.setMap m)
  | setLock {link : Sharded β} (lock : Locks.ScopedLock) (hlink : Built link) :
    Built (link.setLock lock)

theorem Built.sound {link : Sharded β} (h : link.Built) : link.Sound := by
  induction h with
  | empty => exact ⟨List.nodup_nil, List.forall_mem_nil _⟩
  | @addShard link link' shard connection hlink h ih =>
    unfold Sharded.addShard at h
    split at h
    · cases h
    · rename_i hfree
      cases h
      refine ⟨?_, ih.maps⟩
      rw [shardIds, List.map_append, List.map_singleton]
      refine List.nodup_append.mpr ⟨ih.nodup, List.nodup_singleton _, ?_⟩
      rintro a ha b hb rfl
      rw [List.mem_singleton.mp hb] at ha
      exact hfree (List.contains_iff_mem.mpr ha)
  | @setMap link m hlink hm ih =>
    refine ⟨ih.nodup, fun other hother => ?_⟩
    rcases List.mem_append.mp hother with hkept | hnew
    · exact ih.maps other (List.mem_filter.mp hkept).1
    · rw [List.mem_singleton.mp hnew]
      exact hm
  | setLock lock hlink ih => exact ⟨ih.nodup, ih.maps⟩

/-- The map of a table was built. -/
theorem Sound.built {link : Sharded β} (h : link.Sound) {table : String} {m : ShardMap}
    (hmap : link.mapOf table = .ok m) : m.Built := by
  unfold mapOf at hmap
  split at hmap
  · rename_i found hfind
    cases hmap
    exact h.maps m (List.mem_of_find?_eq_some hfind)
  · cases hmap

/-- A plan asks each of its shards once, in the order of registration. -/
theorem Sound.plan_sublist {link : Sharded β} (h : link.Sound) {query : Query}
    {plan : List (ShardId × Query)} (hplan : link.plan query = .ok plan) :
    (plan.map Prod.fst).Sublist link.shardIds := by
  obtain ⟨m, routed, hmap, hroute, -, hknown, hids⟩ := exists_of_plan_ok hplan
  rw [hids, inOrder_eq_filter h.nodup (nodup_of_route (h.built hmap) hroute)
    (List.forall_mem_map.mpr hknown)]
  exact List.filter_sublist

/-! ## Reads by plan -/

variable {link : Sharded β} {w : World β} {rows : ShardId → List Row}

/-- Shards that each answer their part send their rows one shard after the other. -/
theorem outcome_gather {part : ShardId → Select} {shards : List ShardId}
    (h : ∀ shard ∈ shards, (link.onShard shard fun c =>
      c.querySet (.select (Merge.shardSelect (part shard)))).outcome w = (.ok (rows shard), w)) :
    (link.gather (shards.map fun shard => (shard, .select (part shard)))).outcome w =
      (.ok (shards.flatMap rows), w) := by
  induction shards with
  | nil => rfl
  | cons s rest ih =>
    rw [List.forall_mem_cons] at h
    rw [List.map_cons, gather, Call.outcome_bind_of_ok h.1, Call.outcome_bind_of_ok (ih h.2),
      List.flatMap_cons]
    rfl

/--
The answer to a read: that of the only shard it is routed to, or what is merged from the answers
of several shards to their parts.
-/
theorem outcome_selectSet {m : ShardMap} {select : Select} {page : Except Error (List Row)}
    (rows : ShardId → List Row)
    (hmap : link.mapOf select.table = .ok m) (hne : m.routeByPredicate select.predicate ≠ [])
    (hknown : ∀ shard ∈ m.routeByPredicate select.predicate, shard ∈ link.shardIds)
    (hone : ∀ shard, link.inOrder (m.routeByPredicate select.predicate) = [shard] →
      (link.onShard shard fun c =>
        c.querySet (.select (select.retarget (m.physicalTable shard)))).outcome w = (page, w))
    (hpart : ∀ shard ∈ m.routeByPredicate select.predicate,
      (link.onShard shard fun c => c.querySet
        (.select (Merge.shardSelect (select.retarget (m.physicalTable shard))))).outcome w =
          (.ok (rows shard), w))
    (hmerge : Merge.mergeRows select
      ((link.inOrder (m.routeByPredicate select.predicate)).flatMap rows) = page) :
    (link.connection.querySet (.select select)).outcome w = (page, w) := by
  have hmapped : link.mapOf (Query.select select).table = .ok m := hmap
  have hplan : link.plan (.select select) =
      .ok ((link.inOrder (m.routeByPredicate select.predicate)).map fun shard =>
        (shard, .select (select.retarget (m.physicalTable shard)))) :=
    plan_eq_ok hmapped rfl hne hknown
  have hordered : ∀ shard ∈ link.inOrder (m.routeByPredicate select.predicate),
      (link.onShard shard fun c => c.querySet (.select
        (Merge.shardSelect (select.retarget (m.physicalTable shard))))).outcome w =
          (.ok (rows shard), w) :=
    fun shard hshard => hpart shard ((link.inOrder_perm _).mem_iff.mp hshard)
  show (link.selectSet (.select select)).outcome w = _
  simp only [selectSet, hplan]
  generalize link.inOrder (m.routeByPredicate select.predicate) = ordered
    at hone hordered hmerge ⊢
  have hmerged : (link.gather (ordered.map fun shard =>
      (shard, .select (select.retarget (m.physicalTable shard)))) >>= fun rows =>
        Call.done (Merge.mergeRows select rows)).outcome w = (page, w) := by
    rw [Call.outcome_bind_of_ok (outcome_gather hordered), Call.outcome_done, hmerge]
  rcases ordered with _ | ⟨s, _ | ⟨t, rest⟩⟩
  · exact hmerged
  · exact hone s rfl
  · exact hmerged

end Sharded

end SqlFederation
