import SqlFederation.Link.Sharded
import SqlFederation.Text.Blank

/-!
# Replicated links

A replicated link has a primary and mirrors that hold the same data. A write goes to all of them,
the primary first; a read goes to one, chosen by the read policy among the pool that the policy
allows.
-/

namespace SqlFederation

/-- Who may answer a read. -/
inductive ReadPolicy where
  | any
  | primaryOnly
  | mirrorsOnly
  deriving DecidableEq

namespace ReadPolicy

/-- The name of a policy. -/
def name : ReadPolicy → String
  | .any => "any"
  | .primaryOnly => "primaryOnly"
  | .mirrorsOnly => "mirrorsOnly"

/-- The name of a policy for the eye. -/
def title : ReadPolicy → String
  | .any => "Any"
  | .primaryOnly => "PrimaryOnly"
  | .mirrorsOnly => "MirrorsOnly"

def ofJson? (value : Json) : Option ReadPolicy :=
  Json.oneOf false ([any, primaryOnly, mirrorsOnly].map fun policy => (policy.name, policy)) value

end ReadPolicy

/-- How many rows a resync copies at once, if nothing else is said. -/
def defaultBlockSize : Nat := 1000

/-- A composition of a primary and mirrors over endpoints `β`. -/
structure Replicated (β : Type) where
  primary : Option (Connection (World β))
  mirrors : List (Connection (World β))
  policy : ReadPolicy
  /-- The number of the cursor of the read pool. -/
  cursor : Nat
  lock : Option Locks.ScopedLock
  blockSize : Nat
  blockSize_pos : 0 < blockSize

namespace Replicated

variable {β α : Type}

/-- No primary and no mirrors. -/
def empty (cursor : Nat) : Replicated β :=
  ⟨none, [], .any, cursor, none, defaultBlockSize, by decide⟩

/-- Sets the primary. -/
def setPrimary (link : Replicated β) (connection : Connection (World β)) : Replicated β :=
  { link with primary := some connection }

/-- Adds a mirror behind the others. -/
def addMirror (link : Replicated β) (connection : Connection (World β)) : Replicated β :=
  { link with mirrors := link.mirrors ++ [connection] }

/-- Takes a mirror out. -/
def removeMirror (link : Replicated β) (index : Nat) :
    Except Error (Connection (World β) × Replicated β) :=
  match link.mirrors[index]? with
  | some connection => .ok (connection, { link with mirrors := link.mirrors.eraseIdx index })
  | none => .error (.config (.noMirror index link.mirrors.length))

/-- Sets the read policy. -/
def setPolicy (link : Replicated β) (policy : ReadPolicy) : Replicated β :=
  { link with policy := policy }

/-- Sets how many rows a resync copies at once; it is at least one. -/
def setBlockSize (link : Replicated β) (size : Nat) : Replicated β :=
  { link with blockSize := max size 1, blockSize_pos := Nat.le_max_right size 1 }

/-- Says which lock goes with the link. -/
def setLock (link : Replicated β) (lock : Locks.ScopedLock) : Replicated β :=
  { link with lock := some lock }

/-- The primary and the mirrors in order. -/
def children (link : Replicated β) : List (Connection (World β)) :=
  link.primary.toList ++ link.mirrors

/-- The primary, if there is one. -/
def primary? (link : Replicated β) : Except Error (Connection (World β)) :=
  match link.primary with
  | some connection => .ok connection
  | none => .error .noEndpoints

/-- Who may answer a read. -/
def pool (link : Replicated β) : List (Connection (World β)) :=
  match link.policy with
  | .any => link.children
  | .primaryOnly => link.primary.toList
  | .mirrorsOnly => link.mirrors

/--
The place of the next reader in a pool of a size: where the cursor stands if that is a place of the
pool, and else a drawn one.
-/
def place (link : Replicated β) (size : Nat) : Call (World β) Nat := do
  match ← Call.reading (World.cursor link.cursor) with
  | some index => if index < size then return index else World.draw size
  | none => World.draw size

/-- One of a pool that is not empty, by its place. The cursor then moves to a drawn place. -/
def rotate (link : Replicated β) (pool : List (Connection (World β))) :
    Call (World β) (Connection (World β)) :=
  if pool.isEmpty then
    Call.fail .noEndpoints
  else do
    let index ← link.place pool.length
    World.setCursor link.cursor (← World.draw pool.length)
    match pool[index]? with
    | some connection => pure connection
    | none => Call.fail .noEndpoints

/-- Who answers the next read. -/
def nextReader (link : Replicated β) : Call (World β) (Connection (World β)) := do
  Fanout.assertChildren link.children
  match link.policy with
  | .primaryOnly => Call.done link.primary?
  | _ => link.rotate link.pool

/-- A read goes to one endpoint; anything else to all, the last result staying. -/
def dispatch (link : Replicated β) (query : Query)
    (call : Connection (World β) → Call (World β) α) : Call (World β) α := do
  Fanout.assertChildren link.children
  if query.isSelect then
    let reader ← link.nextReader
    call reader
  else
    Fanout.last call link.children

/-- Runs a write everywhere and adds up the counts. -/
def count (link : Replicated β) (query : Query) : Call (World β) Nat := do
  Fanout.assertChildren link.children
  if query.isSelect then
    let reader ← link.nextReader
    reader.queryCount query
  else
    Fanout.total (fun c => c.queryCount query) link.children

/-- Does a statement start with the verb of a read? -/
def isRead (sql : String) : Bool :=
  ((Text.trimStart sql.toList).take 6).map Char.toLower == "select".toList

/-- Passes a statement on: a read to one endpoint, anything else to all. -/
def raw (link : Replicated β) (sql : String) : Call (World β) (List Row) := do
  Fanout.assertChildren link.children
  if isRead sql then
    let reader ← link.nextReader
    reader.queryRaw sql
  else
    Fanout.last (fun c => c.queryRaw sql) link.children

/-- Runs a call on the primary. -/
def onPrimary (link : Replicated β) (call : Connection (World β) → Call (World β) α) :
    Call (World β) α :=
  match link.primary? with
  | .ok connection => call connection
  | .error e => Call.fail e

/-- The calls of a replicated link. -/
def connection (link : Replicated β) : Connection (World β) where
  connect := Fanout.connect link.children
  disconnect := do
    Fanout.disconnect link.children
    Sharded.releaseLock link.lock
  isConnected := Fanout.isConnected false link.children
  dialect := link.onPrimary Connection.dialect
  tableInfo table := link.onPrimary fun c => c.tableInfo table
  hasSequences w := link.primary.any fun c => c.hasSequences w
  obtainSequence sequence := link.onPrimary fun c => c.obtainSequence sequence
  queryRaw := link.raw
  query q := link.dispatch q fun c => c.query q
  queryRow q := link.dispatch q fun c => c.queryRow q
  querySet q := link.dispatch q fun c => c.querySet q
  queryColumn q := link.dispatch q fun c => c.queryColumn q
  queryNumRows q := link.dispatch q fun c => c.queryNumRows q
  queryCount := link.count
  queryNull q := link.dispatch q fun c => c.queryNull q
  begin := Fanout.begin link.children
  commit := Fanout.commit link.children
  rollback := Fanout.rollback link.children
  inTransaction := Fanout.inTransaction false link.children

end Replicated

end SqlFederation
