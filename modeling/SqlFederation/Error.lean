/-!
# Errors

An error is its cause. `Error.message` is the one place with wording, and `Error.kind` is the broad
class by which a caller decides whether another try makes sense.
-/

namespace SqlFederation

/-- The number of a shard. -/
abbrev ShardId := Nat

/-- The broad class of an error. -/
inductive ErrorKind where
  /-- A link, shard, table or endpoint is missing or named twice. -/
  | configuration
  /-- A query does not say which shards it belongs to. -/
  | routing
  /-- Another writer interfered, or a query has no meaning across shards. -/
  | consistency
  /-- A connection does not offer the operation. -/
  | unsupported
  /-- The resource is busy. -/
  | state
  /-- A database, the file system or the lock store failed. -/
  | backend
  deriving DecidableEq

/-- What a configuration, or a call that configures, got wrong. -/
inductive ConfigFault where
  | invertedRange (min max : Int)
  | unknownChild (owner link : String)
  | sharedChild (link : String)
  | unavailableChild (link : String)
  | unknownDefault (name : String)
  | fileNotFound (path : String)
  | noFile (searched : List String)
  | wrongKind (link kind wanted : String)
  | noMirror (index count : Nat)
  | lockNotSet
  | namespaceNotSet
  deriving DecidableEq

/-- Why a grouped or aggregated read cannot be merged. -/
inductive GroupFault where
  | neitherGroupedNorAggregated (field table : String)
  | groupNotSelected (field table : String)
  deriving DecidableEq

/-- An operation that a connection does not offer. -/
inductive Feature where
  | sequence (name : String)
  | queue
  | rawStatement
  | onlyReads
  | onlyWrites
  deriving DecidableEq

/-- What a statement or a transaction call got wrong. -/
inductive QueryFault where
  | insertWithoutRows (table : String)
  | updateWithoutFields (table : String)
  | transactionOpen
  | noTransaction
  /-- The database refused, in its own words. -/
  | refused (text : String)
  deriving DecidableEq

/-- What reading a table's schema got wrong. -/
inductive SchemaFault where
  | tableNotFound (table : String)
  /-- The database refused, in its own words. -/
  | refused (text : String)
  deriving DecidableEq

/-- Everything that a call can fail with. -/
inductive Error where
  | unknownLink (name : String)
  | duplicateLink (name : String)
  | noDefaultLink
  | notSharded (table : String)
  | noEndpoints
  | unknownShard (shard : ShardId)
  | duplicateShard (shard : ShardId)
  | config (fault : ConfigFault)
  | unroutable (table : String)
  | missingKey (table key : String)
  | noShardFor (key value : String)
  | racyInsert (table : String) (affected : Nat)
  | grouping (fault : GroupFault)
  | severalShards
  | unsupported (feature : Feature)
  | alreadyReplicating (table : String)
  | notConnected (location : String)
  | query (fault : QueryFault)
  | schema (fault : SchemaFault)
  | lifetimeTooLong
  | fileSystem
  | malformed
  deriving DecidableEq

namespace ConfigFault

/-- The wording. -/
def message : ConfigFault → String
  | .invertedRange min max =>
    "range min " ++ toString min ++ " is greater than max " ++ toString max
  | .unknownChild owner link => "'" ++ owner ++ "' refers to unknown link '" ++ link ++ "'"
  | .sharedChild link => "link '" ++ link ++ "' is used by more than one composition"
  | .unavailableChild link => "link '" ++ link ++ "' is unknown or already used"
  | .unknownDefault name => "default '" ++ name ++ "' is not a registered link"
  | .fileNotFound path => "config file not found: " ++ path
  | .noFile searched =>
    "no config file found (searched " ++ ", ".intercalate searched ++ ")"
  | .wrongKind link kind wanted => "link '" ++ link ++ "' is " ++ kind ++ ", not " ++ wanted
  | .noMirror index count =>
    "no mirror at index " ++ toString index ++ " (" ++ toString count ++ " configured)"
  | .lockNotSet => "a table lock must be set before resync"
  | .namespaceNotSet => "refusing to clean locks without a namespace"

end ConfigFault

namespace GroupFault

/-- The wording. -/
def message : GroupFault → String
  | .neitherGroupedNorAggregated field table =>
    "field '" ++ field ++ "' of \"" ++ table ++ "\" is neither grouped nor aggregated"
  | .groupNotSelected field table =>
    "group field '" ++ field ++ "' of \"" ++ table ++ "\" is not selected"

end GroupFault

namespace Feature

/-- The wording. -/
def message : Feature → String
  | .sequence name => "sequence '" ++ name ++ "'"
  | .queue => "write-ahead queue"
  | .rawStatement => "can not parse raw query string"
  | .onlyReads => "only SELECT queries are supported"
  | .onlyWrites => "only INSERT, UPDATE and DELETE queries are supported"

end Feature

namespace QueryFault

/-- The wording. -/
def message : QueryFault → String
  | .insertWithoutRows table => "INSERT into \"" ++ table ++ "\" without rows"
  | .updateWithoutFields table => "UPDATE of \"" ++ table ++ "\" without fields"
  | .transactionOpen => "transaction already in progress"
  | .noTransaction => "no transaction in progress"
  | .refused text => text

end QueryFault

namespace SchemaFault

/-- The wording. -/
def message : SchemaFault → String
  | .tableNotFound table => "table \"" ++ table ++ "\" not found"
  | .refused text => text

end SchemaFault

namespace Error

/-- The class of an error. -/
def kind : Error → ErrorKind
  | .unknownLink _ | .duplicateLink _ | .noDefaultLink | .notSharded _ | .noEndpoints
  | .unknownShard _ | .duplicateShard _ | .config _ => .configuration
  | .unroutable _ | .missingKey .. | .noShardFor .. => .routing
  | .racyInsert .. | .grouping _ => .consistency
  | .severalShards | .unsupported _ => .unsupported
  | .alreadyReplicating _ => .state
  | .notConnected _ | .query _ | .schema _ | .lifetimeTooLong | .fileSystem | .malformed => .backend

/--
The wording of an error. Of a failure of the file system and of a malformed document only the
beginning is fixed.
-/
def message : Error → String
  | .unknownLink name => "link '" ++ name ++ "' not found"
  | .duplicateLink name => "already have '" ++ name ++ "' link"
  | .noDefaultLink => "no default link and requested link name is empty"
  | .notSharded table => "no sharding strategy for table \"" ++ table ++ "\""
  | .noEndpoints => "no endpoints configured"
  | .unknownShard shard => "shard " ++ toString shard ++ " not found"
  | .duplicateShard shard => "shard " ++ toString shard ++ " already registered"
  | .config fault => "invalid configuration: " ++ fault.message
  | .unroutable table => "unable to route query on table \"" ++ table ++ "\""
  | .missingKey table key =>
    "missing sharding key '" ++ key ++ "' in written fields of \"" ++ table ++ "\""
  | .noShardFor key value => "no shard for " ++ key ++ "=" ++ value
  | .racyInsert table affected =>
    toString affected ++ " rows affected: racy or insane insert into \"" ++ table ++ "\""
  | .grouping fault => "inconsistent aggregation: " ++ fault.message
  | .severalShards => "not possible to return single resource for multiple db requests"
  | .unsupported feature => "feature not implemented: " ++ feature.message
  | .alreadyReplicating table => table ++ " is already being replicated"
  | .notConnected location => "connection error: " ++ location ++ " is not connected"
  | .query fault => "query error: " ++ fault.message
  | .schema fault => "schema error: " ++ fault.message
  | .lifetimeTooLong =>
    "lock store error: invalid ttl: " ++
      "Source duration value is out of range for the target type"
  | .fileSystem => "IO error"
  | .malformed => "JSON error"

end Error

end SqlFederation
