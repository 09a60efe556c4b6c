import Mathlib
import SqlFederation.Proofs.OverTables
import SqlFederation.Proofs.Parameters

/-!
# What the parts of an insert bind

The plan of an insert has one part for each shard, with the rows that are routed there in their
order (`Sharded.exists_of_plan_insert`), so a row stands in its part behind as many rows as go to
the same shard before it (`Sharded.getElem?_partOf`). A part names no blob columns: whatever the
insert says of a column, the part binds the values of it as they are. So a row binds in its part
what it binds in the whole, but for the texts in base64 of blob columns, whose bytes the whole binds
(`Sharded.parts_bind_alike_iff`).
-/

namespace SqlFederation

namespace Insert

/-- Does an insert bind the bytes that a text stands for? -/
def BindsBytes (insert : Insert) (column : String) (value : Json) : Prop :=
  insert.isBlobColumn column = true ∧
    ∃ text bytes, value = .str text ∧ Base64.decode? text = some bytes

/-- A value of a blob column binds as it is unless it is a text in base64. -/
theorem blobValue_eq_ofJson_iff (value : Json) :
    blobValue value = .ofJson value ↔
      ¬∃ text bytes, value = .str text ∧ Base64.decode? text = some bytes := by
  cases value with
  | str text =>
    rw [blobValue]
    cases hbytes : Base64.decode? text with
    | none =>
      refine iff_of_true rfl ?_
      rintro ⟨t, bytes, ht, hdecode⟩
      cases ht
      rw [hbytes] at hdecode
      cases hdecode
    | some bytes =>
      exact iff_of_false (fun h => by cases h) (not_not_intro ⟨text, bytes, rfl, hbytes⟩)
  | _ => exact iff_of_true rfl fun ⟨_, _, h, _⟩ => by cases h

/-- A row binds its values as they are unless the insert binds their bytes. -/
theorem boundValue_eq_ofJson_iff {insert : Insert} {row : Row} {column : String} {value : Json}
    (h : row.get? column = some value) :
    insert.boundValue row column = .ofJson value ↔ ¬insert.BindsBytes column value := by
  have hvalue : insert.boundValue row column =
      if insert.isBlobColumn column then blobValue value else .ofJson value := by
    rw [boundValue, h]
  rw [hvalue, BindsBytes]
  by_cases hblob : insert.isBlobColumn column = true
  · simp only [hblob, if_true, true_and, blobValue_eq_ofJson_iff]
  · rw [if_neg hblob]
    exact iff_of_true rfl fun hbytes => hblob hbytes.1

end Insert

namespace ShardMap

/-- The place of a row in the part of a shard: behind the rows before it that go there. -/
def placeInPart (m : ShardMap) (rows : List Row) (i : Nat) (shard : ShardId) : Nat :=
  (rows.take i).countP fun row => decide (m.shardOf? row = some shard)

end ShardMap

namespace Sharded

/-- An element that a filter keeps comes behind those before it that the filter keeps. -/
theorem getElem?_filter_countP {α : Type} {p : α → Bool} {l : List α} {i : Nat} {a : α}
    (ha : l[i]? = some a) (hp : p a = true) : (l.filter p)[(l.take i).countP p]? = some a := by
  induction l generalizing i with
  | nil => cases ha
  | cons b rest ih =>
    cases i with
    | zero =>
      cases ha
      rw [List.filter_cons_of_pos hp]
      rfl
    | succ i =>
      have hrest := ih ha
      rw [List.take_succ_cons, List.countP_cons]
      by_cases hb : p b = true
      · rw [List.filter_cons_of_pos hb, if_pos hb, List.getElem?_cons_succ, hrest]
      · rw [List.filter_cons_of_neg hb, if_neg hb, Nat.add_zero, hrest]

variable {β : Type} {link : Sharded β} {m : ShardMap}

/-- A row has its place in the part of the shard that it is routed to. -/
theorem getElem?_partOf {rows : List Row} {i : Nat} {row : Row} {shard : ShardId}
    (hrow : rows[i]? = some row) (hshard : m.shardOf? row = some shard) (table : String) :
    (partOf m table rows shard).rows[m.placeInPart rows i shard]? = some row :=
  getElem?_filter_countP hrow (decide_eq_true hshard)

/-- A planned insert asks each shard of its rows for the rows that go there, and no other shard. -/
theorem exists_of_plan_insert {insert : Insert} {plan : List (ShardId × Query)}
    (h : link.plan (.insert insert) = .ok plan) :
    ∃ m, link.mapOf insert.table = .ok m ∧
      (∀ row ∈ insert.rows, ∃ shard, m.routeByRow row = .ok shard) ∧
      ∀ shard query, (shard, query) ∈ plan ↔
        (∃ row ∈ insert.rows, m.shardOf? row = some shard) ∧
          query = .insert (partOf m (m.physicalTable shard) insert.rows shard) := by
  obtain ⟨m, routed, hmap, hroute, hne, hknown, -⟩ := exists_of_plan_ok h
  obtain ⟨hrows, shards, -, hmem, rfl⟩ := route_insert hroute
  rw [ne_eq, List.map_eq_nil_iff] at hne
  rw [List.forall_mem_map] at hknown
  rw [plan_eq_ok hmap hroute hne hknown] at h
  cases h
  refine ⟨m, hmap, hrows, fun shard query => ?_⟩
  rw [List.mem_map, ← hmem shard]
  constructor
  · rintro ⟨s, hs, heq⟩
    cases heq
    exact ⟨(link.inOrder_perm shards).mem_iff.mp hs, rfl⟩
  · rintro ⟨hs, rfl⟩
    exact ⟨shard, (link.inOrder_perm shards).mem_iff.mpr hs, rfl⟩

/--
A row binds in the part that carries it what it binds in the whole insert, but for the texts whose
bytes the whole insert binds: those the part binds as texts.
-/
theorem parts_bind_alike_iff {insert : Insert} {plan : List (ShardId × Query)}
    (hplan : link.plan (.insert insert) = .ok plan) {i : Nat} {row : Row}
    (hrow : insert.rows[i]? = some row) :
    ∃ (m : ShardMap) (shard : ShardId) (part : Insert),
      link.mapOf insert.table = .ok m ∧ m.routeByRow row = .ok shard ∧
      (∀ query, (shard, query) ∈ plan ↔ query = .insert part) ∧
      part.rows[m.placeInPart insert.rows i shard]? = some row ∧
      ∀ (dialect : Dialect) (column : String) (value : Json), row.get? column = some value →
        part.parameter dialect (m.placeInPart insert.rows i shard) column =
            .ok (some (.ofJson value)) ∧
          (part.parameter dialect (m.placeInPart insert.rows i shard) column =
              insert.parameter dialect i column ↔ ¬insert.BindsBytes column value) := by
  obtain ⟨m, hmap, hrows, hpart⟩ := exists_of_plan_insert hplan
  have hmem := List.mem_of_getElem? hrow
  obtain ⟨shard, hroute⟩ := hrows row hmem
  have hshard := ShardMap.shardOf?_of_ok hroute
  have hplace := getElem?_partOf hrow hshard (m.physicalTable shard)
  refine ⟨m, shard, partOf m (m.physicalTable shard) insert.rows shard, hmap, hroute, ?_, hplace,
    ?_⟩
  · intro query
    rw [hpart]
    exact and_iff_right ⟨row, hmem, hshard⟩
  · intro dialect column value hvalue
    have hcolumn := Row.mem_columns_of_get? hvalue
    -- The part has no blob columns, so that it binds no bytes.
    have hbound : (partOf m (m.physicalTable shard) insert.rows shard).boundValue row column =
        .ofJson value := by
      rw [Insert.boundValue_eq_ofJson_iff hvalue]
      exact fun h => Bool.noConfusion h.1
    rw [Insert.parameter_eq hplace (Insert.mem_columns (List.mem_of_getElem? hplace) hcolumn),
      Insert.parameter_eq hrow (Insert.mem_columns hmem hcolumn), hbound,
      ← Insert.boundValue_eq_ofJson_iff hvalue]
    refine ⟨rfl, ?_⟩
    constructor
    · intro h
      exact (Option.some.inj (Except.ok.inj h)).symm
    · intro h
      rw [h]

/-- Two users whose names are blobs: the first is on the shard of larger ids. -/
def blobUsers : Insert :=
  ⟨"users", [user 150 "AQI=", user 10 "not base64"], ["name"]⟩

/-- The parts of the two users. -/
def blobUserParts : List (ShardId × Query) :=
  [(3, .insert ⟨"users_b", [user 150 "AQI="], []⟩),
    (7, .insert ⟨"users", [user 10 "not base64"], []⟩)]

theorem plan_blobUsers : pair.plan (.insert blobUsers) = .ok blobUserParts := by cbv

/-- The id of the first user binds alike in its part, and the name, a text in base64, does not. -/
theorem parts_bind_alike_first :
    pair.plan (.insert blobUsers) = .ok blobUserParts ∧
    ∃ (m : ShardMap) (shard : ShardId) (part : Insert), (shard, .insert part) ∈ blobUserParts ∧
      part.parameter .sqlite (m.placeInPart blobUsers.rows 0 shard) "id" =
        blobUsers.parameter .sqlite 0 "id" ∧
      part.parameter .sqlite (m.placeInPart blobUsers.rows 0 shard) "name" ≠
        blobUsers.parameter .sqlite 0 "name" := by
  refine ⟨plan_blobUsers, ?_⟩
  have hfirst : blobUsers.rows[0]? = some (user 150 "AQI=") := rfl
  obtain ⟨m, shard, part, -, -, hmem, -, hbinds⟩ := parts_bind_alike_iff plan_blobUsers hfirst
  have hid : ¬blobUsers.BindsBytes "id" (.ofInt 150) := fun h => absurd h.1 (by decide)
  have hname : blobUsers.BindsBytes "name" (.str "AQI=") :=
    ⟨by decide, "AQI=", [1, 2], rfl, by decide⟩
  refine ⟨m, shard, part, (hmem _).mpr rfl, (hbinds .sqlite "id" _ rfl).2.mpr hid, ?_⟩
  exact fun halike => (hbinds .sqlite "name" _ rfl).2.mp halike hname

/-- The name of the first user is two bytes in the whole insert, and a text in its part. -/
theorem part_binds_text_of_blob :
    pair.plan (.insert blobUsers) = .ok [(3, .insert ⟨"users_b", [user 150 "AQI="], []⟩),
      (7, .insert ⟨"users", [user 10 "not base64"], []⟩)] ∧
    blobUsers.parameter .sqlite 0 "name" = .ok (some (.blob [1, 2])) ∧
    Insert.parameter ⟨"users_b", [user 150 "AQI="], []⟩ .sqlite 0 "name" =
      .ok (some (.text "AQI=")) := by
  refine ⟨plan_blobUsers, ?_, ?_⟩
  · decide
  · decide

end Sharded

end SqlFederation
