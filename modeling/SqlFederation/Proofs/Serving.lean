import Mathlib
import SqlFederation.Proofs.OverTables
import SqlFederation.Proofs.Paging

/-!
# Pages of compositions

A connection serves rows when it answers every read without groups with the page of those rows
(`Connection.Serves`). A plain table serves its rows (`RowTable.Reading.serves`), and a sharded
composition serves the rows of its shards together when each shard serves its own
(`Sharded.serves`). A composition is a connection again, so the same holds of compositions of
compositions. In every case the page is that of the merged rows because of `Merge.mergeRows_pages`.
-/

namespace SqlFederation

variable {β : Type}

/-! ## Aiming a read at another table -/

theorem ColumnRef.retarget_self (column : ColumnRef) (table : String) :
    column.retarget table table = column := by
  obtain ⟨owner, name⟩ := column
  unfold ColumnRef.retarget
  split
  · rename_i h
    cases h
    rfl
  · rfl

theorem Output.retarget_self (output : Output) (table : String) :
    output.retarget table table = output := by
  obtain ⟨expression, label⟩ := output
  cases expression with
  | column column => simp only [Output.retarget, ColumnRef.retarget_self]
  | aggregate function column =>
    have hcolumn : (fun c : ColumnRef => c.retarget table table) = id := by
      funext c
      exact c.retarget_self table
    simp only [Output.retarget, hcolumn, Option.map_id, id]

theorem Predicate.retarget_self (p : Predicate) (table : String) :
    p.retarget table table = p := by
  induction p using Predicate.induct with
  | compare column op value => rw [Predicate.retarget, ColumnRef.retarget_self]
  | join connective children ih =>
    rw [Predicate.retarget, Predicate.retargetAll_eq_map, List.map_congr_left ih, List.map_id']

namespace Select

/-- The outputs of a read on a table of another name, also when the name is the same. -/
theorem outputs_retarget (select : Select) (target : String) :
    (select.retarget target).outputs =
      select.outputs.map (Output.retarget select.table target) := by
  unfold Select.retarget
  split
  · rename_i heq
    have hself : Output.retarget select.table target = id := by
      funext output
      rw [heq, Output.retarget_self]
      rfl
    rw [hself, List.map_id]
  · rfl

/-- The condition of a read on a table of another name, also when the name is the same. -/
theorem predicate_retarget (select : Select) (target : String) :
    (select.retarget target).predicate =
      select.predicate.map (Predicate.retarget select.table target) := by
  unfold Select.retarget
  split
  · rename_i heq
    have hself : Predicate.retarget select.table target = id := by
      funext p
      rw [heq, Predicate.retarget_self]
      rfl
    rw [hself, Option.map_id]
    rfl
  · rfl

theorem page_retarget (select : Select) (target : String) :
    (select.retarget target).limit = select.limit ∧
      (select.retarget target).offset = select.offset := by
  unfold Select.retarget
  split
  · exact ⟨rfl, rfl⟩
  · exact ⟨rfl, rfl⟩

/-- A column has the same label among the outputs of a table of another name. -/
theorem labelAmong_retarget (column : ColumnRef) (outputs : List Output) (source target : String) :
    labelAmong (column.retarget source target) (outputs.map (Output.retarget source target)) =
      labelAmong column outputs := by
  induction outputs with
  | nil => rfl
  | cons output rest ih =>
    obtain ⟨expression, label⟩ := output
    cases expression with
    | column selected =>
      rw [List.map_cons, labelAmong, labelAmong, ← ih]
      simp only [Output.retarget, RowTable.name_retarget]
    | aggregate function argument => exact ih

/-- A column has the same name in the rows of a table of another name. -/
theorem resultName_retarget {select : Select} {target : String} (hne : select.table ≠ target)
    (column : ColumnRef) :
    (select.retarget target).resultName (column.retarget select.table target) =
      select.resultName column := by
  unfold Select.retarget
  rw [if_neg hne, resultName, resultName, labelAmong_retarget, RowTable.name_retarget]

theorem isGrouped_retarget (select : Select) (target : String) :
    (select.retarget target).isGrouped = select.isGrouped := by
  unfold Select.retarget
  split
  · rfl
  · have hfunction : ∀ output : Output,
        (output.retarget select.table target).function? = output.function? := by
      intro output
      obtain ⟨expression, label⟩ := output
      cases expression with
      | column column => rfl
      | aggregate function column => rfl
    rw [isGrouped, isGrouped, hasAggregates, hasAggregates, List.any_map, List.isEmpty_map]
    congr 2
    funext output
    rw [Function.comp_apply, hfunction]

end Select

namespace Merge

/-- The keys of a read on a table of another name only name their columns differently. -/
theorem exists_sortKeys_retarget (select : Select) (target : String) :
    ∃ f : SortKey → SortKey, (∀ key, (f key).direction = key.direction ∧
        (f key).nullsFirst = key.nullsFirst) ∧
      sortKeys (select.retarget target) =
        (sortKeys select).map fun (key, name) => (f key, name) := by
  by_cases heq : select.table = target
  · refine ⟨id, fun key => ⟨rfl, rfl⟩, ?_⟩
    unfold Select.retarget
    rw [if_pos heq]
    exact (List.map_id _).symm
  · refine ⟨SortKey.retarget select.table target, fun key => ⟨rfl, rfl⟩, ?_⟩
    have horder : (select.retarget target).orderBy =
        select.orderBy.map (SortKey.retarget select.table target) := by
      unfold Select.retarget
      rw [if_neg heq]
    rw [sortKeys, sortKeys, horder, List.map_map, List.map_map]
    apply List.map_congr_left
    intro key _
    have hname := Select.resultName_retarget heq key.column
    rw [Function.comp_apply, Function.comp_apply, ← hname]
    rfl

/-- Rows are compared alike by keys with other columns under the same names. -/
theorem compareRows_map {f : SortKey → SortKey}
    (hf : ∀ key, (f key).direction = key.direction ∧ (f key).nullsFirst = key.nullsFirst)
    (keys : List (SortKey × String)) (a b : Row) :
    compareRows (keys.map fun (key, name) => (f key, name)) a b = compareRows keys a b := by
  induction keys with
  | nil => rfl
  | cons key rest ih =>
    obtain ⟨key, name⟩ := key
    have hunder : compareUnder (f key) = compareUnder key := by
      funext x y
      rw [compareUnder, compareUnder, (hf key).1, (hf key).2]
    rw [List.map_cons, compareRows, compareRows, ih, hunder]

theorem sortRows_retarget (select : Select) (target : String) (rows : List Row) :
    sortRows (select.retarget target) rows = sortRows select rows := by
  obtain ⟨f, hf, hkeys⟩ := exists_sortKeys_retarget select target
  rw [sortRows, sortRows, hkeys]
  congr 1
  funext a b
  rw [compareRows_map hf]

/-- Rows are plain for a table of another name if they are. -/
theorem plainUnder_retarget (select : Select) (target : String) (row : Row) :
    plainUnder (sortKeys (select.retarget target)) row = plainUnder (sortKeys select) row := by
  obtain ⟨f, -, hkeys⟩ := exists_sortKeys_retarget select target
  rw [hkeys, plainUnder, plainUnder, List.all_map]
  rfl

end Merge

/-! ## Serving rows -/

/--
Does a connection answer the reads of a table with the pages of some rows? `rows` has the rows of
the given outputs that meet a condition, or none where no answer is promised.
-/
def Connection.Serves (connection : Connection (World β)) (w : World β) (table : String)
    (rows : List Output → Option Predicate → Option (List Row)) : Prop :=
  ∀ (select : Select) (found : List Row), select.table = table → select.isGrouped = false →
    rows select.outputs select.predicate = some found →
    (∀ row ∈ found, Merge.plainUnder (Merge.sortKeys select) row = true) →
    found.length ≤ Merge.maxLimit →
    (connection.querySet (.select select)).outcome w = (Merge.mergeRows select found, w)

/-- A plain table serves the rows that it finds. -/
theorem RowTable.Reading.serves {key : String} (reading : RowTable.Reading key) (number : ShardId)
    (w : World RowTable.Tables) (table : String) :
    (reading.connection number).Serves w table fun outputs condition =>
      some (((w.endpoints number table).filter (reading.meets condition)).map
        (RowTable.project outputs)) := by
  rintro select found rfl hgrouped hfound _ _
  cases hfound
  rw [Merge.mergeRows_of_not_grouped hgrouped]
  rfl

namespace Sharded

/-- The rows that a shard has for a read of the whole. -/
def pieceAt (m : ShardMap) (rowsAt : ShardId → List Output → Option Predicate → Option (List Row))
    (outputs : List Output) (condition : Option Predicate) (shard : ShardId) : Option (List Row) :=
  rowsAt shard (outputs.map (Output.retarget m.table (m.physicalTable shard)))
    (condition.map (Predicate.retarget m.table (m.physicalTable shard)))

/-- The rows of the shards that a condition is routed to, shard by shard. -/
def served (link : Sharded β) (m : ShardMap)
    (rowsAt : ShardId → List Output → Option Predicate → Option (List Row))
    (outputs : List Output) (condition : Option Predicate) : Option (List Row) :=
  if m.routeByPredicate condition = [] then none
  else
    ((link.inOrder (m.routeByPredicate condition)).mapM
      (pieceAt m rowsAt outputs condition)).map List.flatten

section OneShard

variable {connection : Connection (World β)} {w : World β} {target : String}
  {rows : List Output → Option Predicate → Option (List Row)} {select : Select} {found : List Row}

/-- A shard that serves some rows answers alone with their page. -/
theorem outcome_retarget (hserves : connection.Serves w target rows)
    (hgrouped : select.isGrouped = false)
    (hfound : rows (select.outputs.map (Output.retarget select.table target))
      (select.predicate.map (Predicate.retarget select.table target)) = some found)
    (hplain : ∀ row ∈ found, Merge.plainUnder (Merge.sortKeys select) row = true)
    (hsize : found.length ≤ Merge.maxLimit) :
    (connection.querySet (.select (select.retarget target))).outcome w =
      (Merge.mergeRows select found, w) := by
  have hretargeted : (select.retarget target).isGrouped = false := by
    rw [Select.isGrouped_retarget, hgrouped]
  obtain ⟨hlimit, hoffset⟩ := select.page_retarget target
  rw [hserves (select.retarget target) found (RowTable.table_retarget (.select select) target)
    hretargeted, Merge.mergeRows_of_not_grouped hretargeted,
    Merge.mergeRows_of_not_grouped hgrouped, Merge.sortRows_retarget, hlimit, hoffset]
  · rw [Select.outputs_retarget, Select.predicate_retarget, hfound]
  · intro row hrow
    rw [Merge.plainUnder_retarget]
    exact hplain row hrow
  · exact hsize

/-- A shard that serves some rows sends the first of them. -/
theorem outcome_shardSelect (hserves : connection.Serves w target rows)
    (hgrouped : select.isGrouped = false)
    (hfound : rows (select.outputs.map (Output.retarget select.table target))
      (select.predicate.map (Predicate.retarget select.table target)) = some found)
    (hplain : ∀ row ∈ found, Merge.plainUnder (Merge.sortKeys select) row = true)
    (hsize : found.length ≤ Merge.maxLimit) :
    (connection.querySet (.select (Merge.shardSelect (select.retarget target)))).outcome w =
      (.ok ((Merge.sortRows select found).take
        (Merge.shardCount select.limit select.offset)), w) := by
  have hretargeted : (select.retarget target).isGrouped = false := by
    rw [Select.isGrouped_retarget, hgrouped]
  obtain ⟨hlimit, hoffset⟩ := select.page_retarget target
  rw [hserves (Merge.shardSelect (select.retarget target)) found
    (RowTable.table_retarget (.select select) target) (Merge.isGrouped_shardSelect hretargeted),
    Merge.mergeRows_shardSelect hretargeted hsize, Merge.sortRows_retarget, hlimit, hoffset]
  · rw [Merge.shardSelect_of_not_grouped hretargeted]
    show rows (select.retarget target).outputs (select.retarget target).predicate = some found
    rw [Select.outputs_retarget, Select.predicate_retarget, hfound]
  · intro row hrow
    rw [Merge.sortKeys_shardSelect hretargeted, Merge.plainUnder_retarget]
    exact hplain row hrow
  · exact hsize

end OneShard

variable {link : Sharded β} {m : ShardMap} {w : World β}
  {rowsAt : ShardId → List Output → Option Predicate → Option (List Row)} {select : Select}

/-- When every step has a result, the results are those of a function. -/
theorem exists_of_mapM_eq_some {ι α : Type} [Inhabited α] {f : ι → Option α} {l : List ι}
    {results : List α} (h : l.mapM f = some results) :
    ∃ g : ι → α, (∀ i ∈ l, f i = some (g i)) ∧ results = l.map g := by
  refine ⟨fun i => (f i).getD default, ?_⟩
  induction l generalizing results with
  | nil =>
    cases h
    exact ⟨by simp, rfl⟩
  | cons i rest ih =>
    rw [List.mapM_cons] at h
    obtain ⟨a, ha, hrest⟩ := Option.bind_eq_some_iff.mp h
    obtain ⟨others, hothers, hcons⟩ := Option.bind_eq_some_iff.mp hrest
    cases hcons
    obtain ⟨hall, hmap⟩ := ih hothers
    refine ⟨List.forall_mem_cons.mpr ⟨?_, hall⟩, ?_⟩
    · simp only [ha, Option.getD_some]
    · simp only [List.map_cons, ha, Option.getD_some, hmap]

/-- Served rows are made of a piece of each shard that the condition is routed to. -/
theorem exists_of_served {outputs : List Output} {condition : Option Predicate} {found : List Row}
    (h : link.served m rowsAt outputs condition = some found) :
    m.routeByPredicate condition ≠ [] ∧ ∃ piece : ShardId → List Row,
      found = ((link.inOrder (m.routeByPredicate condition)).map piece).flatten ∧
      ∀ shard ∈ m.routeByPredicate condition,
        pieceAt m rowsAt outputs condition shard = some (piece shard) := by
  unfold served at h
  split at h
  · cases h
  · rename_i hne
    obtain ⟨pieces, hpieces, rfl⟩ := Option.map_eq_some_iff.mp h
    obtain ⟨piece, hall, rfl⟩ := exists_of_mapM_eq_some hpieces
    refine ⟨hne, piece, rfl, ?_⟩
    intro shard hshard
    exact hall shard ((link.inOrder_perm _).mem_iff.mpr hshard)

/-- A composition serves the rows of its shards when each shard serves its own. -/
theorem serves (hmap : link.mapOf m.table = .ok m)
    (hknown : ∀ shard ∈ m.shardIds, shard ∈ link.shardIds)
    (hserves : ∀ p ∈ link.shards, p.2.Serves w (m.physicalTable p.1) (rowsAt p.1)) :
    link.connection.Serves w m.table (link.served m rowsAt) := by
  intro select found htable hgrouped hfound hplain hsize
  obtain ⟨hne, piece, rfl, hpiece⟩ := exists_of_served hfound
  have hperm := link.inOrder_perm (m.routeByPredicate select.predicate)
  have hrouted : ∀ shard ∈ m.routeByPredicate select.predicate, shard ∈ link.shardIds :=
    fun shard hshard => hknown shard ((m.routeByPredicate_sublist _).subset hshard)
  have hplainAt : ∀ rows ∈ (link.inOrder (m.routeByPredicate select.predicate)).map piece,
      ∀ row ∈ rows, Merge.plainUnder (Merge.sortKeys select) row = true :=
    fun rows hrows row hrow => hplain row (List.mem_flatten.mpr ⟨rows, hrows, hrow⟩)
  have hsizeAt : ∀ rows ∈ (link.inOrder (m.routeByPredicate select.predicate)).map piece,
      rows.length ≤ Merge.maxLimit :=
    fun rows hrows => Nat.le_trans (List.sublist_flatten_of_mem hrows).length_le hsize
  -- Every shard that is asked serves its piece.
  have hasked : ∀ shard ∈ m.routeByPredicate select.predicate, ∃ connection,
      (∀ call : Connection (World β) → Call (World β) (List Row),
        link.onShard shard call = call connection) ∧
      connection.Serves w (m.physicalTable shard) (rowsAt shard) ∧
      piece shard ∈ (link.inOrder (m.routeByPredicate select.predicate)).map piece ∧
      rowsAt shard
        (select.outputs.map (Output.retarget select.table (m.physicalTable shard)))
        (select.predicate.map (Predicate.retarget select.table (m.physicalTable shard))) =
          some (piece shard) := by
    intro shard hshard
    obtain ⟨connection, hmem, hcall⟩ := exists_onShard_eq (hrouted shard hshard)
    have hordered := hperm.mem_iff.mpr hshard
    refine ⟨connection, hcall, hserves _ hmem, List.mem_map_of_mem hordered, ?_⟩
    rw [htable]
    exact hpiece shard hshard
  apply outcome_selectSet (fun shard => (Merge.sortRows select (piece shard)).take
    (Merge.shardCount select.limit select.offset)) (htable ▸ hmap) hne hrouted
  · intro shard hone
    have hshard : shard ∈ m.routeByPredicate select.predicate := by
      rw [← hperm.mem_iff, hone]
      exact List.mem_singleton_self shard
    obtain ⟨connection, hcall, hserve, hmem, hrows⟩ := hasked shard hshard
    rw [hcall, hone, List.map_singleton, List.flatten_singleton]
    exact outcome_retarget hserve hgrouped hrows (hplainAt _ hmem) (hsizeAt _ hmem)
  · intro shard hshard
    obtain ⟨connection, hcall, hserve, hmem, hrows⟩ := hasked shard hshard
    rw [hcall]
    exact outcome_shardSelect hserve hgrouped hrows (hplainAt _ hmem) (hsizeAt _ hmem)
  · rw [← Merge.mergeRows_pages hgrouped hplainAt hsize, List.map_map, List.flatMap_def]
    rfl

end Sharded

namespace Merge

/--
A widened limit loses no page. When each of some pieces is sorted and cut to its first rows, limit
and offset together, and the page is made from what they send, then it is the page of all rows
merged, ties in the same order. So a composition that asks its shards in this way, be they tables or
compositions, gives the page of the rows of its shards together.
-/
theorem widened_limit_loses_no_page :
    (∀ (select : Select) (pieces : List (List Row)), select.isGrouped = false →
      (∀ rows ∈ pieces, ∀ row ∈ rows, plainUnder (sortKeys select) row = true) →
      pieces.flatten.length ≤ maxLimit →
      (pieces.mapM (mergeRows (shardSelect select)) >>= fun pages =>
          mergeRows select pages.flatten) = mergeRows select pieces.flatten ∧
        mergeRows select pieces.flatten =
          .ok (paginate select.limit select.offset (sortRows select pieces.flatten))) ∧
    ∀ (β : Type) (link : Sharded β) (m : ShardMap) (w : World β)
      (rowsAt : ShardId → List Output → Option Predicate → Option (List Row)),
      link.mapOf m.table = .ok m → (∀ shard ∈ m.shardIds, shard ∈ link.shardIds) →
      (∀ p ∈ link.shards, p.2.Serves w (m.physicalTable p.1) (rowsAt p.1)) →
      link.connection.Serves w m.table (link.served m rowsAt) := by
  refine ⟨?_, fun β link m w rowsAt => Sharded.serves⟩
  intro select pieces hgrouped hplain hmax
  have hpages : ∀ rows ∈ pieces, mergeRows (shardSelect select) rows =
      .ok ((sortRows select rows).take (shardCount select.limit select.offset)) := by
    intro rows hrows
    apply mergeRows_shardSelect hgrouped
    exact Nat.le_trans (List.sublist_flatten_of_mem hrows).length_le hmax
  refine ⟨?_, mergeRows_of_not_grouped hgrouped _⟩
  rw [mapM_eq_ok hpages, ← mergeRows_pages hgrouped hplain hmax]
  rfl

open Sharded (pair user emptyWorld)
open RowTable (Reading Tables)

/-- Users on three databases, two of them of the same name. -/
def threeTables : World Tables :=
  { emptyWorld with
    endpoints := fun number table =>
      if number = 7 ∧ table = "users" then [user 10 "a", user 60 "b"]
      else if number = 3 ∧ table = "users_b" then [user 150 "c"]
      else if number = 9 ∧ table = "users" then [user 1000 "b"]
      else [] }

/-- The second and third user by name, the last name first. -/
def secondPage : Select :=
  ⟨"users", [], none, [], [⟨.bare "name", .desc, true⟩], some 2, some 1⟩

/-- The map of the nested composition; smaller ids are on the pair. -/
def nestedMap : ShardMap :=
  ⟨"users", "id", [⟨1, ⟨some 0, some 999⟩, none⟩, ⟨9, ⟨some 1000, none⟩, none⟩]⟩

/-- A composition of the pair of shards and of a third table for larger ids. -/
def nested : Sharded Tables where
  shards := [(9, (Reading.integers "id").connection 9), (1, pair.connection)]
  maps := [nestedMap]
  lock := none

/-- The rows of one of three tables. -/
def rowsOfTable (number : ShardId) (table : String) (outputs : List Output)
    (condition : Option Predicate) : Option (List Row) :=
  some (((threeTables.endpoints number table).filter
    ((Reading.integers "id").meets condition)).map (RowTable.project outputs))

/-- The rows behind the shards of the nested composition. -/
def rowsOfShard (shard : ShardId) : List Output → Option Predicate → Option (List Row) :=
  if shard = 1 then
    pair.served ShardMap.overlapping fun number =>
      rowsOfTable number (ShardMap.overlapping.physicalTable number)
  else rowsOfTable shard "users"

/-- The page of a composition of compositions: of two users of one name, the shard decides. -/
theorem widened_limit_nested :
    ((([[user 10 "a", user 60 "b"], [user 150 "c"], [], [user 1000 "b"]].mapM
      (mergeRows (shardSelect secondPage))) >>= fun pages =>
        mergeRows secondPage pages.flatten) = .ok [user 60 "b", user 1000 "b"]) ∧
    (nested.connection.querySet (.select secondPage)).outcome threeTables =
      (.ok [user 1000 "b", user 60 "b"], threeTables) := by
  constructor
  · have h := widened_limit_loses_no_page.1 secondPage
      [[user 10 "a", user 60 "b"], [user 150 "c"], [], [user 1000 "b"]] rfl (by decide) (by decide)
    rw [h.1, h.2]
    cbv
  · have hpair := widened_limit_loses_no_page.2 Tables pair ShardMap.overlapping threeTables
      (fun number => rowsOfTable number (ShardMap.overlapping.physicalTable number)) rfl
      (by decide) (by
        intro p hp
        rw [Sharded.overTables_pair.plain p hp]
        exact (Reading.integers "id").serves p.1 threeTables _)
    have hnested := widened_limit_loses_no_page.2 Tables nested nestedMap threeTables rowsOfShard
      rfl (by decide) (by
        intro p hp
        simp only [nested, List.mem_cons, List.not_mem_nil, or_false] at hp
        rcases hp with rfl | rfl
        · exact (Reading.integers "id").serves 9 threeTables "users"
        · exact hpair)
    have hfound : nested.served nestedMap rowsOfShard [] none =
        some [user 1000 "b", user 150 "c", user 10 "a", user 60 "b"] := by cbv
    have hpage : mergeRows secondPage [user 1000 "b", user 150 "c", user 10 "a", user 60 "b"] =
        .ok [user 1000 "b", user 60 "b"] := by cbv
    rw [hnested secondPage _ rfl rfl hfound (by decide) (by decide), hpage]

end Merge

end SqlFederation
