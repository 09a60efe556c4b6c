import SqlFederation.Link.Replicated
import SqlFederation.Sharding.TableEntry

/-!
# Configurations

A configuration names databases, says which of them are composed into sharded and replicated links,
and where locks are kept. It is data only: `Config.Check` says which configurations make sense and
`Config.Build` makes links of them.
-/

namespace SqlFederation

/-- A database that a configuration names. -/
inductive LinkEntry where
  | memory
  | file (path : String)
  deriving DecidableEq

/-- A shard of a sharded link, and the database that is behind it. -/
structure ShardEntry where
  shard : ShardId
  link : String
  deriving DecidableEq

/-- A sharded link. -/
structure ShardedEntry where
  name : String
  shards : List ShardEntry
  tables : List TableEntry
  deriving DecidableEq

/-- A replicated link. -/
structure ReplicatedEntry where
  name : String
  primary : String
  mirrors : List String
  policy : ReadPolicy
  blockSize : Option Nat
  deriving DecidableEq

/-- Where locks are kept. -/
inductive LockPlace where
  | memory
  | directory (path : String)
  deriving DecidableEq

/-- How locks are kept. -/
structure LockSettings where
  place : LockPlace
  scope : String
  /-- The lifetime of a lock in seconds. -/
  lifetime : Nat
  deriving DecidableEq

namespace LockSettings

/-- The usual namespace. -/
def defaultScope : String := "dbfed"

/-- Locks in memory. -/
def default : LockSettings := ⟨.memory, defaultScope, Locks.defaultLifetime⟩

end LockSettings

/-- A configuration; the databases are sorted by name. -/
structure Config where
  version : String
  links : List (String × LinkEntry)
  default : Option String
  sharded : List ShardedEntry
  replicated : List ReplicatedEntry
  locks : LockSettings
  deriving DecidableEq

/-- A configuration, and the directory that its relative paths start from. -/
structure LocatedConfig where
  config : Config
  base : Option String
  deriving DecidableEq

namespace LocatedConfig

/-- The text of a path that the configuration names. -/
def pathText (located : LocatedConfig) (path : String) : String :=
  match located.base with
  | some base => Path.joinText base path
  | none => path

end LocatedConfig

end SqlFederation
