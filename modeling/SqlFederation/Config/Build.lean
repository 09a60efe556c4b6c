import SqlFederation.Config.Check
import SqlFederation.Link.Endpoints
import SqlFederation.Link.Registry

/-!
# Building links

A configuration becomes a registry of links and the lock that they share. Compositions take their
databases out of those that are left; what no composition takes is registered under its own name.
Nothing is connected.
-/

namespace SqlFederation

/-- The links of a configuration, with the store and the lock that they share. -/
structure Context where
  registry : Registry Endpoints
  lock : Locks.ScopedLock

/-- Databases that no composition has taken. -/
abbrev FreeLinks := List (String × Connection (World Endpoints))

/-- A call that builds links. -/
abbrev BuildCall := Call (World Endpoints)

namespace Context

/-- The lock of a composition: the shared lock in a namespace of its own. -/
def lockFor (lock : Locks.ScopedLock) (name : String) : BuildCall Locks.ScopedLock :=
  World.inRoom (Call.of fun room =>
    let (own, room) := room.newLock lock.store (Locks.partOf lock.scope name) lock.lifetime
    (.ok own, room))

/-- The lock of the composition with a name. -/
def tableLock (context : Context) (name : String) : BuildCall Locks.ScopedLock :=
  lockFor context.lock name

end Context

namespace LocatedConfig

/-- Where a database is. -/
def location (located : LocatedConfig) (entry : LinkEntry) : Embedded.Location :=
  match entry with
  | .memory => .memory
  | .file path => .file (located.pathText path)

/-- Makes the databases of a configuration. -/
def openLinks (located : LocatedConfig) : List (String × LinkEntry) → BuildCall FreeLinks
  | [] => pure []
  | (name, entry) :: rest => do
    let connection ← Call.of fun w =>
      let (connection, w) := Endpoints.addDatabase (located.location entry) w
      (.ok connection, w)
    return (name, connection) :: (← openLinks located rest)

/-- Makes the lock that all links share, with its store. -/
def openLock (located : LocatedConfig) : BuildCall Locks.ScopedLock :=
  World.inRoom (Call.of fun room =>
    let settings := located.config.locks
    let (store, room) := match settings.place with
      | .memory => room.newMemory
      | .directory path => (.directory (located.pathText path), room)
    let (lock, room) := room.newLock store settings.scope settings.lifetime
    (.ok lock, room))

end LocatedConfig

namespace Config

/-- Takes a database out of the free ones. -/
def takeLink (free : FreeLinks) (name : String) :
    Except Error (Connection (World Endpoints) × FreeLinks) :=
  match free.lookup name with
  | some connection => .ok (connection, free.filter fun (other, _) => other != name)
  | none => .error (.config (.unavailableChild name))

/-- Adds shards to a sharded link. -/
def addShards (link : Sharded Endpoints) (free : FreeLinks) :
    List ShardEntry → Except Error (Sharded Endpoints × FreeLinks)
  | [] => .ok (link, free)
  | entry :: rest => do
    let (connection, free) ← takeLink free entry.link
    let link ← link.addShard entry.shard connection
    addShards link free rest

/-- Gives a sharded link the map of a table, all of whose shards it has. -/
def addTable (link : Sharded Endpoints) (entry : TableEntry) :
    Except Error (Sharded Endpoints) := do
  let m ← entry.shardMap link.shardIds.contains
  .ok (link.setMap m)

/-- The sharded link of an entry, without a lock. -/
def shardedLink (free : FreeLinks) (entry : ShardedEntry) :
    Except Error (Sharded Endpoints × FreeLinks) := do
  let (link, free) ← addShards .empty free entry.shards
  let link ← entry.tables.foldlM addTable link
  .ok (link, free)

/-- Adds mirrors to a replicated link. -/
def addMirrors (link : Replicated Endpoints) (free : FreeLinks) :
    List String → Except Error (Replicated Endpoints × FreeLinks)
  | [] => .ok (link, free)
  | name :: rest => do
    let (connection, free) ← takeLink free name
    addMirrors (link.addMirror connection) free rest

/-- The replicated link of an entry, without a lock. -/
def replicatedLink (cursor : Nat) (free : FreeLinks) (entry : ReplicatedEntry) :
    Except Error (Replicated Endpoints × FreeLinks) := do
  let (primary, free) ← takeLink free entry.primary
  let (link, free) ← addMirrors ((Replicated.empty cursor).setPrimary primary) free entry.mirrors
  let link := link.setPolicy entry.policy
  match entry.blockSize with
  | some size => .ok (link.setBlockSize size, free)
  | none => .ok (link, free)

/-- Registers the sharded links. -/
def registerSharded (lock : Locks.ScopedLock) (registry : Registry Endpoints) (free : FreeLinks) :
    List ShardedEntry → BuildCall (Registry Endpoints × FreeLinks)
  | [] => return (registry, free)
  | entry :: rest => do
    let (link, free) ← Call.done (shardedLink free entry)
    let own ← Context.lockFor lock entry.name
    let registry ← Call.done (registry.register entry.name (.sharded (link.setLock own)))
    registerSharded lock registry free rest

/-- Registers the replicated links. -/
def registerReplicated (lock : Locks.ScopedLock) (registry : Registry Endpoints)
    (free : FreeLinks) : List ReplicatedEntry → BuildCall (Registry Endpoints × FreeLinks)
  | [] => return (registry, free)
  | entry :: rest => do
    let cursor ← Call.of fun w =>
      let (cursor, w) := w.newCursor
      (.ok cursor, w)
    let (link, free) ← Call.done (replicatedLink cursor free entry)
    let own ← Context.lockFor lock entry.name
    let registry ← Call.done (registry.register entry.name (.replicated (link.setLock own)))
    registerReplicated lock registry free rest

/-- Registers the databases that are left. -/
def registerFree (registry : Registry Endpoints) (free : FreeLinks) :
    Except Error (Registry Endpoints) :=
  free.foldlM (fun registry (name, connection) => registry.register name (.single connection))
    registry

/-- Makes the default link the default. -/
def chooseDefault (registry : Registry Endpoints) (default : Option String) :
    Except Error (Registry Endpoints) :=
  match default with
  | some name => registry.setDefaultName name
  | none => .ok registry

end Config

namespace LocatedConfig

/-- Builds the links of a configuration that makes sense. -/
def build (located : LocatedConfig) : BuildCall Context := do
  let config := located.config
  Call.done config.check
  let lock ← located.openLock
  let free ← located.openLinks config.links
  let (registry, free) ← Config.registerSharded lock .empty free config.sharded
  let (registry, free) ← Config.registerReplicated lock registry free config.replicated
  let registry ← Call.done (Config.registerFree registry free)
  let registry ← Call.done (Config.chooseDefault registry config.default)
  return ⟨registry, lock⟩

end LocatedConfig

end SqlFederation
