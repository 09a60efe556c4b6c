import SqlFederation.Link.Fanout
import SqlFederation.Merge.Rows
import SqlFederation.Sharding.ShardMap

/-!
# Sharded links

A sharded link has shards in the order of their registration and a shard map for each table. `plan`
says which shards a query goes to and what each of them is asked. One shard answers alone; several
are asked for what `Merge.shardSelect` says, and `Merge.mergeRows` makes one answer of theirs.
-/

namespace SqlFederation

/-- A composition of shards over endpoints `β`. -/
structure Sharded (β : Type) where
  shards : List (ShardId × Connection (World β))
  /-- The shard maps, one for each table. -/
  maps : List ShardMap
  lock : Option Locks.ScopedLock

namespace Sharded

variable {β α : Type}

/-- No shards and no tables. -/
def empty : Sharded β := ⟨[], [], none⟩

/-- The shards in order. -/
def shardIds (link : Sharded β) : List ShardId :=
  link.shards.map Prod.fst

/-- The connections in order. -/
def children (link : Sharded β) : List (Connection (World β)) :=
  link.shards.map Prod.snd

/-- Adds a shard behind the others. -/
def addShard (link : Sharded β) (shard : ShardId) (connection : Connection (World β)) :
    Except Error (Sharded β) :=
  if link.shardIds.contains shard then .error (.duplicateShard shard)
  else .ok { link with shards := link.shards ++ [(shard, connection)] }

/-- Sets the map of a table; an earlier one gives way. -/
def setMap (link : Sharded β) (m : ShardMap) : Sharded β :=
  { link with maps := link.maps.filter (fun other => other.table != m.table) ++ [m] }

/-- Says which lock goes with the link. -/
def setLock (link : Sharded β) (lock : Locks.ScopedLock) : Sharded β :=
  { link with lock := some lock }

/-- The connection of a shard. -/
def shard (link : Sharded β) (shard : ShardId) : Except Error (Connection (World β)) :=
  match link.shards.lookup shard with
  | some connection => .ok connection
  | none => .error (.unknownShard shard)

/-- The map of a table. -/
def mapOf (link : Sharded β) (table : String) : Except Error ShardMap :=
  match link.maps.find? fun m => m.table == table with
  | some m => .ok m
  | none => .error (.notSharded table)

/-- The sharded tables, sorted. -/
def tables (link : Sharded β) : List String :=
  (link.maps.map ShardMap.table).mergeSort fun a b => decide (a ≤ b)

/-- Adds a row to the part of its shard, or opens a part with it behind the others. -/
def addToPart (table : String) (shard : ShardId) (row : Row) :
    List (ShardId × Insert) → List (ShardId × Insert)
  | [] => [(shard, (Insert.into table).withRow row)]
  | (s, part) :: rest =>
    if s = shard then (s, part.withRow row) :: rest
    else (s, part) :: addToPart table shard row rest

/-- The rows of an insert, split by the shard that each belongs to. -/
def splitRows (m : ShardMap) (insert : Insert) : Except Error (List (ShardId × Insert)) :=
  insert.rows.foldlM
    (fun parts row => do
      let shard ← m.routeByRow row
      .ok (addToPart insert.table shard row parts))
    []

/-- The same query for each of some shards. -/
def forEach (query : Query) (shards : List ShardId) : List (ShardId × Query) :=
  shards.map fun shard => (shard, query)

/--
The shards that a query goes to, with the part of the query for each, in the order of the map.
-/
def route (m : ShardMap) (query : Query) : Except Error (List (ShardId × Query)) :=
  match query with
  | .select _ | .delete _ => .ok (forEach query (m.routeByPredicate query.predicate))
  | .insert insert => do
    let parts ← splitRows m insert
    .ok (parts.map fun (shard, part) => (shard, .insert part))
  | .update update =>
    match m.routeByRow update.set with
    | .ok shard => .ok [(shard, query)]
    | .error (.missingKey ..) => .ok (forEach query (m.routeByPredicate query.predicate))
    | .error e => .error e

/-- The place of a shard in the order of registration. -/
def position (link : Sharded β) (shard : ShardId) : Nat :=
  link.shardIds.idxOf shard

/-- The first shard of a list that is not registered. -/
def unknownAmong? (link : Sharded β) (routed : List (ShardId × Query)) : Option ShardId :=
  (routed.find? fun (shard, _) => !link.shardIds.contains shard).map Prod.fst

/-- What each shard is asked, in the order of registration. -/
def plan (link : Sharded β) (query : Query) : Except Error (List (ShardId × Query)) := do
  let m ← link.mapOf query.table
  let routed ← route m query
  if routed.isEmpty then
    .error (.unroutable query.table)
  else
    match link.unknownAmong? routed with
    | some shard => .error (.unknownShard shard)
    | none =>
      let sorted := routed.mergeSort fun a b => decide (link.position a.1 ≤ link.position b.1)
      .ok (sorted.map fun (shard, part) => (shard, part.retarget (m.physicalTable shard)))

/-- Runs a call on a shard. -/
def onShard (link : Sharded β) (shard : ShardId) (call : Connection (World β) → Call (World β) α) :
    Call (World β) α :=
  match link.shard shard with
  | .ok connection => call connection
  | .error e => Call.fail e

/-- The rows of every shard of a plan, one shard after the other. -/
def gather (link : Sharded β) : List (ShardId × Query) → Call (World β) (List Row)
  | [] => pure []
  | (shard, .select select) :: rest => do
    let rows ← link.onShard shard fun c => c.querySet (.select (Merge.shardSelect select))
    return rows ++ (← gather link rest)
  | _ :: rest => gather link rest

/-- All rows of a read. -/
def selectSet (link : Sharded β) (query : Query) : Call (World β) (List Row) :=
  match query with
  | .select select =>
    match link.plan query with
    | .error e => Call.fail e
    | .ok [(shard, single)] => link.onShard shard fun c => c.querySet single
    | .ok plan => do
      let rows ← link.gather plan
      Call.done (Merge.mergeRows select rows)
  | _ => Call.fail (.unsupported .onlyReads)

/-- Runs a call on every shard of a plan and adds up the results. -/
def totalOf (link : Sharded β) (call : Connection (World β) → Query → Call (World β) Nat) :
    List (ShardId × Query) → Call (World β) Nat
  | [] => pure 0
  | (shard, part) :: rest => do
    let n ← link.onShard shard fun c => call c part
    return n + (← totalOf link call rest)

/-- Can the rows of a read only be counted after merging? -/
def countsMerged : Query → Bool
  | .select select => select.isGrouped || select.limit.isSome || select.offset.isSome
  | _ => false

/-- The number of rows of a read. -/
def numRows (link : Sharded β) (query : Query) : Call (World β) Nat :=
  if !query.isSelect then
    Call.fail (.unsupported .onlyReads)
  else
    match link.plan query with
    | .error e => Call.fail e
    | .ok plan =>
      if countsMerged query && decide (1 < plan.length) then do
        return (← link.selectSet query).length
      else
        link.totalOf Connection.queryNumRows plan

/-- Runs a write on every shard of its plan and adds up the counts. -/
def count (link : Sharded β) (query : Query) : Call (World β) Nat :=
  if query.isSelect then
    Call.fail (.unsupported .onlyWrites)
  else
    match link.plan query with
    | .error e => Call.fail e
    | .ok plan => link.totalOf Connection.queryCount plan

/-- Runs a write on every shard of a plan. -/
def writeEach (link : Sharded β) : List (ShardId × Query) → Call (World β) Unit
  | [] => pure ()
  | (shard, part) :: rest => do
    link.onShard shard fun c => c.queryNull part
    writeEach link rest

/-- Runs a write on every shard of its plan. -/
def writeNull (link : Sharded β) (query : Query) : Call (World β) Unit :=
  if query.isSelect then
    Call.fail (.unsupported .onlyWrites)
  else
    match link.plan query with
    | .error e => Call.fail e
    | .ok plan => link.writeEach plan

/-- The rows of a read that one shard answers. -/
def single (link : Sharded β) (query : Query) : Call (World β) (List Row) :=
  match link.plan query with
  | .error e => Call.fail e
  | .ok [(shard, part)] => link.onShard shard fun c => c.query part
  | .ok _ => Call.fail .severalShards

/-- Is this a statement that sets something for the session? -/
def isSessionStatement (sql : String) : Bool :=
  (sql.toList.take 4).map Char.toLower == "set ".toList

/-- Passes a session statement on to every shard; no other statement can be routed. -/
def raw (link : Sharded β) (sql : String) : Call (World β) (List Row) :=
  if isSessionStatement sql then do
    Fanout.assertChildren link.children
    Fanout.each (fun c => do let _ ← c.queryRaw sql) link.children
    return []
  else
    Call.fail (.unsupported .rawStatement)

/-- Runs a call on the first shard. -/
def onFirst (link : Sharded β) (call : Connection (World β) → Call (World β) α) :
    Call (World β) α :=
  match link.children with
  | [] => Call.fail .noEndpoints
  | child :: _ => call child

/-- Gives back the keys that were taken through a lock. -/
def releaseLock (lock : Option Locks.ScopedLock) : Call (World β) Unit :=
  match lock with
  | some lock => World.inRoom do let _ ← lock.releaseHeld
  | none => pure ()

/-- The calls of a sharded link. -/
def connection (link : Sharded β) : Connection (World β) where
  connect := Fanout.connect link.children
  disconnect := do
    Fanout.disconnect link.children
    releaseLock link.lock
  isConnected := Fanout.isConnected false link.children
  dialect := link.onFirst Connection.dialect
  tableInfo table := link.onFirst fun c => c.tableInfo table
  hasSequences w := link.children.head?.any fun c => c.hasSequences w
  obtainSequence sequence := link.onFirst fun c => c.obtainSequence sequence
  queryRaw := link.raw
  query := link.single
  queryRow := Connection.rowOf link.selectSet
  querySet := link.selectSet
  queryColumn := Connection.columnOf link.selectSet
  queryNumRows := link.numRows
  queryCount := link.count
  queryNull := link.writeNull
  begin := Fanout.begin link.children
  commit := Fanout.commit link.children
  rollback := Fanout.rollback link.children
  inTransaction := Fanout.inTransaction false link.children

end Sharded

end SqlFederation
