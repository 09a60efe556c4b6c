import SqlFederation.Proofs.Dispatch
import SqlFederation.Proofs.InsertParts

/-!
# What a plan dispatches

A plan asks distinct registered shards, in the order of their registration, each about the table
that it has (`Sharded.IsDispatch`). Whatever the query is, it is routed to some shards with a part
for each (`Sharded.exists_map_of_route`), so that `Sharded.plan_eq_ok` says what its plan is. The
parts of an insert have its rows between them (`Sharded.SplitsInsert`): `Sharded.route_insert` says
which shards have one, and `Pieces.flatMap_filter_perm` that no row is lost or doubled. A read or a
delete goes to the shards that its condition leaves, or nowhere
(`Sharded.plan_eq_ok_of_followsCondition`).
-/

namespace SqlFederation

namespace Query

/-- The rows that an insert brings; other queries bring none. -/
def newRows : Query → List Row
  | .insert q => q.rows
  | _ => []

/-- Does a query go wherever rows that meet its condition may be? -/
def followsCondition : Query → Bool
  | .select _ | .delete _ => true
  | _ => false

end Query

namespace Sharded

variable {β : Type} {link : Sharded β} {m : ShardMap} {query : Query} {insert : Insert}
  {plan : List (ShardId × Query)}

/-- What every plan is for a link whose table has the map `m`. -/
structure IsDispatch (link : Sharded β) (m : ShardMap) (plan : List (ShardId × Query)) : Prop where
  nonempty : plan ≠ []
  /-- No shard is asked twice. -/
  nodup : (plan.map Prod.fst).Nodup
  /-- The shards are registered, and asked in the order of their registration. -/
  order : (plan.map Prod.fst).Sublist link.shardIds
  /-- Each shard is asked about the table that it has. -/
  tables : ∀ p ∈ plan, p.2.table = m.physicalTable p.1

/-- What the plan of an insert is besides. -/
structure SplitsInsert (m : ShardMap) (insert : Insert) (plan : List (ShardId × Query)) : Prop where
  /-- The part of a shard inserts the rows that are routed to it, in the order they have. -/
  parts : ∀ p ∈ plan, ∃ part, p.2 = .insert part ∧
    part.rows = insert.rows.filter fun row => decide (m.shardOf? row = some p.1)
  /-- Each row is in one part alone. -/
  once : ∀ row ∈ insert.rows, ∃! p, p ∈ plan ∧ row ∈ p.2.newRows
  /-- A row is in the parts as often as it is in the insert. -/
  rows : (plan.flatMap fun p => p.2.newRows).Perm insert.rows

/-- A query is routed to some shards, with a part for each. -/
theorem exists_map_of_route {routed : List (ShardId × Query)} (h : route m query = .ok routed) :
    ∃ (shards : List ShardId) (part : ShardId → Query),
      routed = shards.map fun shard => (shard, part shard) := by
  cases query with
  | select select =>
    cases h
    exact ⟨m.routeByPredicate select.predicate, fun _ => .select select, rfl⟩
  | delete delete =>
    cases h
    exact ⟨m.routeByPredicate delete.predicate, fun _ => .delete delete, rfl⟩
  | insert insert =>
    obtain ⟨-, shards, -, -, rfl⟩ := route_insert h
    exact ⟨shards, fun shard => .insert (partOf m insert.table insert.rows shard), rfl⟩
  | update update =>
    simp only [route] at h
    split at h
    · rename_i shard hshard
      cases h
      exact ⟨[shard], fun _ => .update update, rfl⟩
    · cases h
      exact ⟨m.routeByPredicate update.predicate, fun _ => .update update, rfl⟩
    · cases h

/-- A plan of a sound composition is a dispatch. -/
theorem Sound.isDispatch (hlink : link.Sound) (h : link.plan query = .ok plan) :
    ∃ m, link.mapOf query.table = .ok m ∧ link.IsDispatch m plan := by
  have horder := hlink.plan_sublist h
  obtain ⟨m, routed, hmap, hroute, hne, hknown, hids⟩ := exists_of_plan_ok h
  refine ⟨m, hmap, ?_, hlink.nodup.sublist horder, horder, ?_⟩
  · rintro rfl
    have hnil := (link.inOrder_perm (routed.map Prod.fst)).symm
    rw [← hids] at hnil
    exact hne (List.map_eq_nil_iff.mp hnil.eq_nil)
  · obtain ⟨shards, part, rfl⟩ := exists_map_of_route hroute
    rw [ne_eq, List.map_eq_nil_iff] at hne
    rw [List.forall_mem_map] at hknown
    rw [plan_eq_ok hmap hroute hne hknown] at h
    cases h
    rw [List.forall_mem_map]
    exact fun shard _ => RowTable.table_retarget _ _

/-! ## Inserts -/

/-- The plan of an insert deals its rows out to the shards that they are routed to. -/
theorem splitsInsert_of_plan (h : link.plan (.insert insert) = .ok plan)
    (hmap : link.mapOf insert.table = .ok m) : SplitsInsert m insert plan := by
  obtain ⟨m', routed, hmap', hroute, hne, hknown, -⟩ := exists_of_plan_ok h
  obtain rfl : m = m' := Except.ok.inj (hmap.symm.trans hmap')
  obtain ⟨hrows, shards, hnodup, hmem, rfl⟩ := route_insert hroute
  rw [ne_eq, List.map_eq_nil_iff] at hne
  rw [List.forall_mem_map] at hknown
  rw [plan_eq_ok hmap' hroute hne hknown] at h
  cases h
  have hperm := link.inOrder_perm shards
  -- A row that is routed to a shard is in the part of this shard and of no other.
  have hplace : ∀ row ∈ insert.rows, ∃ shard ∈ link.inOrder shards,
      m.shardOf? row = some shard := by
    intro row hrow
    obtain ⟨shard, hshard⟩ := hrows row hrow
    have hplaced := ShardMap.shardOf?_of_ok hshard
    exact ⟨shard, hperm.mem_iff.mpr ((hmem shard).mpr ⟨row, hrow, hplaced⟩), hplaced⟩
  refine ⟨?_, ?_, ?_⟩
  · rw [List.forall_mem_map]
    exact fun shard _ => ⟨_, rfl, rfl⟩
  · intro row hrow
    obtain ⟨shard, hshard, hplaced⟩ := hplace row hrow
    refine ⟨_, ⟨List.mem_map_of_mem hshard, List.mem_filter.mpr ⟨hrow, decide_eq_true hplaced⟩⟩, ?_⟩
    rintro p ⟨hp, hin⟩
    obtain ⟨other, -, rfl⟩ := List.mem_map.mp hp
    have hother : m.shardOf? row = some other := of_decide_eq_true (List.mem_filter.mp hin).2
    rw [hplaced] at hother
    rw [Option.some.inj hother]
  · rw [List.flatMap_map]
    exact Pieces.flatMap_filter_perm (hperm.nodup_iff.mpr hnodup) hplace

/-- An insert of a row that is not routed is refused, for the reason that some row is not. -/
theorem exists_plan_eq_error {row : Row} {e : Error} (hmap : link.mapOf insert.table = .ok m)
    (hrow : row ∈ insert.rows) (he : m.routeByRow row = .error e) :
    ∃ other ∈ insert.rows, ∃ reason, m.routeByRow other = .error reason ∧
      link.plan (.insert insert) = .error reason := by
  have hmap' : link.mapOf (Query.insert insert).table = .ok m := hmap
  cases hroute : route m (.insert insert) with
  | ok routed =>
    obtain ⟨shard, hshard⟩ := (route_insert hroute).1 row hrow
    rw [he] at hshard
    cases hshard
  | error reason =>
    obtain ⟨other, hother, hreason⟩ := exists_of_route_insert_error hroute
    exact ⟨other, hother, reason, hreason, plan_eq_error_of_route hmap' hroute⟩

/-! ## Reads and deletes -/

/-- A query that follows its condition goes whole to each shard that the condition leaves. -/
theorem route_of_followsCondition (h : query.followsCondition = true) :
    route m query = .ok ((m.routeByPredicate query.predicate).map fun shard => (shard, query)) := by
  cases query with
  | select select => rfl
  | delete delete => rfl
  | insert insert => cases h
  | update update => cases h

/-- A query is refused if one of the shards that it is routed to is not registered. -/
theorem exists_plan_eq_unknownShard {routed : List (ShardId × Query)} {p : ShardId × Query}
    (hmap : link.mapOf query.table = .ok m) (hroute : route m query = .ok routed)
    (hp : p ∈ routed) (hunknown : p.1 ∉ link.shardIds) :
    ∃ unknown ∈ routed.map Prod.fst, unknown ∉ link.shardIds ∧
      link.plan query = .error (.unknownShard unknown) := by
  have hempty : routed.isEmpty = false := List.isEmpty_eq_false_iff.mpr (List.ne_nil_of_mem hp)
  obtain ⟨first, hfirst⟩ : ∃ first, routed.find? (fun p => !link.shardIds.contains p.1) =
      some first := by
    rw [← Option.isSome_iff_exists, List.find?_isSome]
    exact ⟨p, hp, by simpa using hunknown⟩
  refine ⟨first.1, List.mem_map_of_mem (List.mem_of_find?_eq_some hfirst), ?_, ?_⟩
  · simpa using List.find?_some hfirst
  · unfold Sharded.plan unknownAmong?
    rw [hmap]
    simp only [bind, Except.bind, hroute, hempty, hfirst, Option.map_some]
    rfl

/-- A query that follows its condition is planned whole for each shard that the condition leaves. -/
theorem plan_eq_ok_of_followsCondition (hlink : link.Sound)
    (hmap : link.mapOf query.table = .ok m) (h : query.followsCondition = true)
    (hne : m.routeByPredicate query.predicate ≠ [])
    (hknown : ∀ shard ∈ m.routeByPredicate query.predicate, shard ∈ link.shardIds) :
    link.plan query = .ok ((link.shardIds.filter fun shard =>
      decide (shard ∈ m.routeByPredicate query.predicate)).map fun shard =>
        (shard, query.retarget (m.physicalTable shard))) := by
  have hnodup := (m.routeByPredicate_sublist query.predicate).nodup (hlink.built hmap).nodup
  rw [plan_eq_ok hmap (route_of_followsCondition h) hne hknown,
    inOrder_eq_filter hlink.nodup hnodup hknown]

/--
A plan is a dispatch to distinct registered shards in the order of registration. The parts of an
insert are its rows, each in the part of the shard that it is routed to, and a row that is not
routed refuses the insert. A read or a delete goes to exactly the shards that its condition leaves;
it is refused if there is none, or if one of them is not registered.
-/
theorem plan_dispatches (hlink : link.Built) (query : Query) :
    (∀ plan, link.plan query = .ok plan →
      ∃ m, link.mapOf query.table = .ok m ∧ link.IsDispatch m plan) ∧
    ∀ m, link.mapOf query.table = .ok m →
      (∀ insert, query = .insert insert →
        (∀ plan, link.plan query = .ok plan → SplitsInsert m insert plan) ∧
        ∀ row ∈ insert.rows, ∀ e, m.routeByRow row = .error e →
          ∃ other ∈ insert.rows, ∃ reason, m.routeByRow other = .error reason ∧
            link.plan query = .error reason) ∧
      (query.followsCondition = true →
        let routed := m.routeByPredicate query.predicate
        (routed = [] → link.plan query = .error (.unroutable query.table)) ∧
        (∀ shard ∈ routed, shard ∉ link.shardIds → ∃ unknown ∈ routed,
          unknown ∉ link.shardIds ∧ link.plan query = .error (.unknownShard unknown)) ∧
        (routed ≠ [] → (∀ shard ∈ routed, shard ∈ link.shardIds) →
          link.plan query = .ok ((link.shardIds.filter fun shard => decide (shard ∈ routed)).map
            fun shard => (shard, query.retarget (m.physicalTable shard))))) := by
  refine ⟨fun plan hplan => hlink.sound.isDispatch hplan, fun m hmap => ⟨?_, ?_⟩⟩
  · rintro insert rfl
    exact ⟨fun plan hplan => splitsInsert_of_plan hplan hmap,
      fun row hrow e he => exists_plan_eq_error hmap hrow he⟩
  · intro hfollows routed
    have hroute := route_of_followsCondition (m := m) hfollows
    have hids : ((m.routeByPredicate query.predicate).map fun shard => (shard, query)).map
        Prod.fst = routed := by
      rw [List.map_map, Function.comp_def, List.map_id']
    refine ⟨?_, ?_, fun hne hknown => ?_⟩
    · intro hnil
      rw [show m.routeByPredicate query.predicate = [] from hnil] at hroute
      exact plan_eq_unroutable hmap hroute
    · intro shard hshard hunknown
      rw [← hids]
      exact exists_plan_eq_unknownShard hmap hroute (List.mem_map_of_mem hshard) hunknown
    · exact plan_eq_ok_of_followsCondition hlink.sound hmap hfollows hne hknown

/-- Four users, the second and the fourth of whom go to the shard of larger ids. -/
def fourUsers : Insert :=
  ⟨"users", [user 10 "a", user 150 "b", user 60 "c", user 200 "d"], []⟩

/-- The parts of the four users: the shard of larger ids was registered first. -/
def fourUserParts : List (ShardId × Query) :=
  [(3, .insert ⟨"users_b", [user 150 "b", user 200 "d"], []⟩),
    (7, .insert ⟨"users", [user 10 "a", user 60 "c"], []⟩)]

/--
Four users go to two of three shards, and one with a negative id refuses an insert. Users with
negative ids are deleted nowhere, and all users on the two shards that have some.
-/
theorem plan_dispatches_fourUsers :
    threeShards.Built ∧ threeShards.plan (.insert fourUsers) = .ok fourUserParts ∧
    threeShards.IsDispatch ShardMap.overlapping fourUserParts ∧
    SplitsInsert ShardMap.overlapping fourUsers fourUserParts ∧
    (∃ reason, threeShards.plan (.insert (fourUsers.withRow (user (-1) "e"))) = .error reason) ∧
    threeShards.plan (.delete ⟨"users", some (.compare (.bare "id") .lt (.ofInt 0))⟩) =
      .error (.unroutable "users") ∧
    threeShards.plan (.delete (.all "users")) =
      .ok [(3, .delete (.all "users_b")), (7, .delete (.all "users"))] := by
  have hplan : threeShards.plan (.insert fourUsers) = .ok fourUserParts := by cbv
  have hmap : threeShards.mapOf "users" = .ok ShardMap.overlapping := rfl
  have hinsert := plan_dispatches built_threeShards (.insert fourUsers)
  have hextended := plan_dispatches built_threeShards (.insert (fourUsers.withRow (user (-1) "e")))
  have hnegative := plan_dispatches built_threeShards
    (.delete ⟨"users", some (.compare (.bare "id") .lt (.ofInt 0))⟩)
  have hall := plan_dispatches built_threeShards (.delete (.all "users"))
  obtain ⟨m, hm, hdispatch⟩ := hinsert.1 _ hplan
  obtain rfl : ShardMap.overlapping = m := Except.ok.inj (hmap.symm.trans hm)
  obtain ⟨-, -, reason, -, hreason⟩ := ((hextended.2 _ hmap).1 _ rfl).2 (user (-1) "e") (by decide)
    (.noShardFor "id" "-1") (by cbv)
  refine ⟨built_threeShards, hplan, hdispatch, ((hinsert.2 _ hmap).1 _ rfl).1 _ hplan,
    ⟨reason, hreason⟩, ?_, ?_⟩
  · exact ((hnegative.2 _ hmap).2 rfl).1 (by cbv)
  · exact ((hall.2 _ hmap).2 rfl).2.2 (by decide) (by decide)

end Sharded

end SqlFederation
