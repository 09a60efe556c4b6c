import SqlFederation.Command.Invocation
import SqlFederation.Command.Text
import SqlFederation.Config.Build
import SqlFederation.Config.Location
import SqlFederation.Link.Resync

/-!
# Running requests

Every request loads the configuration, builds its links, does its work and disconnects everything.
It ends with the text that it prints, or with a failure that says in which part of the work it
happened.
-/

namespace SqlFederation

namespace Command

/-- Why a request failed. -/
inductive Failure where
  | plain (e : Error)
  | loading (path : String) (e : Error)
  | building (e : Error)
  | resyncing (table link : String) (e : Error)
  | unknownLink (name : String)
  | nothingToUnlock
  deriving DecidableEq

namespace Failure

/-- The wording. -/
def message : Failure → String
  | .plain e => e.message
  | .loading path e => "loading " ++ path ++ ": " ++ e.message
  | .building e => "building links: " ++ e.message
  | .resyncing table link e => "resyncing '" ++ table ++ "' on '" ++ link ++ "': " ++ e.message
  | .unknownLink name => "no link named '" ++ name ++ "'"
  | .nothingToUnlock => "pass --table or --all"

end Failure

/-- Work on links that ends with an `α` or a failure. -/
abbrev Work (α : Type) := ExceptT Failure (StateM (World Endpoints)) α

namespace Work

variable {α : Type}

/-- A call whose error becomes a failure. -/
def within (failure : Error → Failure) (call : Call (World Endpoints) α) : Work α :=
  fun w =>
    let (result, w) := call.outcome w
    (result.mapError failure, w)

/-- A call whose error is the failure itself. -/
def plain (call : Call (World Endpoints) α) : Work α :=
  within .plain call

/-- Something that fails or not, without a change. -/
def check (result : Except Error α) : Work α :=
  plain (Call.done result)

/-- Looks at the links. -/
def see (f : World Endpoints → α) : Work α :=
  fun w => (.ok (f w), w)

/-- Work that is done whatever came before; its failure comes first, then the earlier one. -/
def andFinally (work : Work α) (last : Work Unit) : Work α :=
  fun w =>
    let (result, w) := ExceptT.run work w
    let (ended, w) := ExceptT.run last w
    match ended with
    | .ok () => (result, w)
    | .error e => (.error e, w)

end Work

/-- A JSON document on lines of its own. -/
def document (value : Json) : String :=
  value.pretty ++ "\n"

/-- Whether a link is connected, for the eye. -/
def stateText (connected : Bool) : String :=
  if connected then "connected" else "idle"

/-! ## Status -/

/-- What there is to say about a link in particular, as JSON. -/
def detailJson : Link Endpoints → Json
  | .single _ => .obj []
  | .sharded link =>
    .obj [("shards", .arr (link.shardIds.map .ofNat)), ("tables", .ofStrings link.tables)]
  | .replicated link =>
    .obj [("mirrors", .ofNat link.mirrors.length), ("readPolicy", .str link.policy.name)]

/-- What there is to say about a link in particular, for the eye. -/
def detailText : Link Endpoints → String
  | .single _ => ""
  | .sharded link =>
    "shards [" ++ idsText link.shardIds ++ "] tables [" ++ ", ".intercalate link.tables ++ "]"
  | .replicated link => toString link.mirrors.length ++ " mirror(s), " ++ link.policy.title

/-- The status as JSON. -/
def statusJson (context : Context) (w : World Endpoints) : Json :=
  let links := context.registry.links.map fun (name, link) =>
    Json.obj [("name", .str name), ("kind", .str link.kind),
      ("connected", .bool (link.connection.isConnected w)),
      ("default", .bool (context.registry.defaultName == some name)),
      ("detail", detailJson link)]
  .obj [("links", .arr links), ("lockNamespace", .str context.lock.scope)]

/-- The status for the eye. -/
def statusText (context : Context) (w : World Endpoints) : String :=
  let registry := context.registry
  heading "Federation" ++ pair "Lock namespace" context.lock.scope ++
    pair "Default" (registry.defaultName.getD "(none)") ++
    if registry.links.isEmpty then
      warning "No links configured"
    else
      "\n" ++ tableHead ["Name", "Kind", "State", "Detail"] ++
        String.join (registry.links.map fun (name, link) =>
          tableRow [name, link.kind, stateText (link.connection.isConnected w), detailText link])

/-- The links of the configuration. -/
def runStatus (context : Context) (json : Bool) : Work String :=
  Work.see fun w => if json then document (statusJson context w) else statusText context w

/-! ## Routes -/

/-- The condition on a key that is asked about. -/
def routeCondition (key : String) (value min max : Option Int) : Option Predicate :=
  let compare := fun op (bound : Int) =>
    Predicate.compare (ColumnRef.ofText key) op (.ofInt bound)
  match value, min, max with
  | some v, _, _ => some (compare .eq v)
  | none, none, none => none
  | none, min, max =>
    some (.join .and ((min.map (compare .gte)).toList ++ (max.map (compare .lte)).toList))

/-- The shards that a condition on the key leads to. -/
def routeShards (m : ShardMap) (value min max : Option Int) : List ShardId :=
  m.routeByPredicate (routeCondition m.key value min max)

/-- The shards as JSON. -/
def routeJson (m : ShardMap) (table : String) (shards : List ShardId) : Json :=
  let targets := shards.map fun shard =>
    Json.obj [("shard", .ofNat shard), ("table", .str (m.physicalTable shard))]
  .obj [("table", .str table), ("key", .str m.key), ("shards", .arr targets)]

/-- The shards for the eye. -/
def routeText (m : ShardMap) (table : String) (shards : List ShardId) : String :=
  if shards.isEmpty then
    warning ("No shard of '" ++ table ++ "' covers that key")
  else
    info (table ++ "." ++ m.key ++ " routes to shard(s) " ++ idsText shards) ++
      String.join (shards.map fun shard =>
        item ("shard " ++ toString shard ++ " → " ++ m.physicalTable shard))

/-- Which shards of a table hold a key, or the keys between two bounds. -/
def runRoute (context : Context) (link table : String) (value min max : Option Int)
    (json : Bool) : Work String := do
  let sharded ← Work.check (context.registry.sharded link)
  let m ← Work.check (sharded.mapOf table)
  let shards := routeShards m value min max
  return if json then document (routeJson m table shards) else routeText m table shards

/-! ## Counts, resyncs and locks -/

/-- How many rows a table has. -/
def runCount (context : Context) (link : Option String) (table : String) (json : Bool) :
    Work String := do
  let connection ← Work.plain (context.registry.resolve link true)
  let row ← Work.plain (connection.queryRow (Replicated.countQuery table))
  let count := Replicated.countIn row
  return if json then document (.obj [("table", .str table), ("count", .ofNat count)])
    else pair table (toString count)

/-- What a resync did, for the eye. -/
def syncText (report : SyncReport) : String :=
  if report.schemaOnly then
    success ("Recreated '" ++ report.table ++ "' on " ++ toString report.mirrors ++ " mirror(s)")
  else
    success ("Copied " ++ toString report.rows ++ " row(s) of '" ++ report.table ++ "' to " ++
      toString report.mirrors ++ " mirror(s) in " ++ toString report.blocks ++ " block(s)")

/-- Makes a table anew on every mirror. -/
def runSync (context : Context) (link table : String) (schemaOnly json : Bool) :
    Work String := do
  let replicated ← Work.check (context.registry.replicated link)
  Work.plain replicated.connection.connect
  let started ← Work.see fun w => w.room.now
  let report ← Work.within (.resyncing table link) (replicated.resync table schemaOnly)
  let ended ← Work.see fun w => w.room.now
  let elapsed := ((ended - started) / Time.second).toNat
  return if json then
      document (.obj [("report", report.toJson), ("elapsedSecs", .ofNat elapsed)])
    else
      syncText report ++ pair "Elapsed" (durationText elapsed)

/-- Frees the lock of a table, or all locks of a link. -/
def dropLocks (lock : Locks.ScopedLock) (table : Option String) (all : Bool) : Work Nat :=
  if all then
    Work.plain (World.inRoom lock.clean)
  else
    match table with
    | some table => do
      Work.plain (World.inRoom (lock.forceDrop table))
      return 1
    | none => throw .nothingToUnlock

/-- Frees locks of a link. -/
def runUnlock (context : Context) (link : String) (table : Option String) (all json : Bool) :
    Work String := do
  if !context.registry.has link then
    throw (.unknownLink link)
  let lock ← Work.plain (context.tableLock link)
  let dropped ← dropLocks lock table all
  return if json then
      document (.obj [("namespace", .str lock.scope), ("dropped", .ofNat dropped)])
    else
      success ("Dropped " ++ toString dropped ++ " lock(s) in '" ++ lock.scope ++ "'")

/-! ## Everything together -/

/-- Does what is asked for. -/
def runRequest (context : Context) (json : Bool) : Request → Work String
  | .status => runStatus context json
  | .route link table value min max => runRoute context link table value min max json
  | .count link table => runCount context link table json
  | .sync link table schemaOnly => runSync context link table schemaOnly json
  | .unlock link table all => runUnlock context link table all json

/-- Loads the configuration and builds its links. -/
def openContext (home config : Option String) : Work Context := do
  let files ← Work.see fun w => w.room.files
  let path ← Work.check (Config.locate home config files)
  let located ← Work.within (.loading path) (Call.done (Config.load path files))
  Work.within .building located.build

/-- Does what an invocation asks for, and disconnects everything. -/
def runInvocation (home : Option String) (invocation : Invocation) : Work String := do
  let context ← openContext home invocation.config
  (runRequest context invocation.json invocation.request).andFinally do
    let _ ← Work.plain context.registry.shutdownAll

/-- What the program prints and ends with. -/
structure Result where
  code : Nat
  output : String
  failure : Option String
  deriving DecidableEq

/-- The name and version of the program. -/
def versionText : String := "dbfed 0.1.0\n"

/-- How the program is used. -/
def usageText : String :=
  "Sharded and replicated query federation over SQL links\n\n" ++
    "Usage: dbfed [--config FILE] [--format text|json] REQUEST\n\n" ++
    "  status\n" ++
    "  route -l LINK -t TABLE [--value N | --min N --max N]\n" ++
    "  count [-l LINK] -t TABLE\n" ++
    "  sync -l LINK -t TABLE [--schema-only]\n" ++
    "  unlock -l LINK (-t TABLE | --all)\n"

/-- Runs the program with its arguments. -/
def run (home : Option String) (arguments : List String) (w : World Endpoints) :
    Result × World Endpoints :=
  match Invocation.ofArguments arguments with
  | .error .wrong => (⟨2, "", none⟩, w)
  | .error .version => (⟨0, versionText, none⟩, w)
  | .error .help => (⟨0, usageText, none⟩, w)
  | .ok invocation =>
    match ExceptT.run (runInvocation home invocation) w with
    | (.ok output, w) => (⟨0, output, none⟩, w)
    | (.error failure, w) => (⟨1, "", some failure.message⟩, w)

end Command

end SqlFederation
