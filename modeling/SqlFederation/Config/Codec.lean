import SqlFederation.Config.Basic
import SqlFederation.Json.Printer
import SqlFederation.Json.Reader

/-!
# Configurations as text

A configuration is written as a JSON document. Every part of a record may be given at most once;
what is left out has its usual value, and parts that no record has are passed over. A record may
also be given as the list of its parts in order. `Config.shape` says where the reader looks: at
everything that databases, locks and ranges say, and elsewhere at the parts of records only.
-/

namespace SqlFederation

namespace LinkEntry

def toJson : LinkEntry → Json
  | .memory => .obj [("type", .str "sqliteMemory")]
  | .file path => .obj [("type", .str "sqlite"), ("path", .str path)]

/-- The kinds of databases with their parts. -/
def kinds : List (String × Json.Parts) :=
  [("sqlite", .all ["path"]), ("sqliteMemory", .all [])]

def ofJson? (value : Json) : Option LinkEntry := do
  let (kind, entries) ← value.tagged? false "type" kinds
  if Json.hasRepeated ["type"] entries then
    none
  else if kind = "sqliteMemory" then
    some .memory
  else if kind = "sqlite" ∧ !Json.hasRepeated ["path"] entries then
    let path ← Json.field entries "path" Json.asStr?
    some (.file path)
  else
    none

end LinkEntry

namespace ShardEntry

def toJson (entry : ShardEntry) : Json :=
  .obj [("id", .ofNat entry.shard), ("link", .str entry.link)]

/-- The parts of a shard. -/
def parts : Json.Parts := .all ["id", "link"]

def ofJson? (value : Json) : Option ShardEntry := do
  let entries ← parts.distinctEntries? value
  let shard ← Json.field entries "id" Json.asNat32?
  let link ← Json.field entries "link" Json.asStr?
  some ⟨shard, link⟩

end ShardEntry

namespace ShardedEntry

def toJson (entry : ShardedEntry) : Json :=
  .obj [("name", .str entry.name), ("shards", .arr (entry.shards.map ShardEntry.toJson)),
    ("tables", .arr (entry.tables.map TableEntry.toJson))]

/-- The parts of a sharded link. -/
def parts : Json.Parts := ⟨["name", "shards", "tables"], 2⟩

def ofJson? (value : Json) : Option ShardedEntry := do
  let entries ← parts.distinctEntries? value
  let name ← Json.field entries "name" Json.asStr?
  let shards ← Json.field entries "shards" (Json.list ShardEntry.ofJson?)
  let tables ← Json.withDefault entries "tables" [] (Json.list TableEntry.ofJson?)
  some ⟨name, shards, tables⟩

end ShardedEntry

namespace ReplicatedEntry

def toJson (entry : ReplicatedEntry) : Json :=
  .obj ([("name", Json.str entry.name), ("primary", .str entry.primary),
    ("mirrors", .ofStrings entry.mirrors), ("readPolicy", .str entry.policy.name)] ++
    Json.entry? "syncBlockSize" (entry.blockSize.map .ofNat))

/-- The parts of a replicated link. -/
def parts : Json.Parts := ⟨["name", "primary", "mirrors", "readPolicy", "syncBlockSize"], 2⟩

def ofJson? (value : Json) : Option ReplicatedEntry := do
  let entries ← parts.distinctEntries? value
  let name ← Json.field entries "name" Json.asStr?
  let primary ← Json.field entries "primary" Json.asStr?
  let mirrors ← Json.withDefault entries "mirrors" [] (Json.list Json.asStr?)
  let policy ← Json.withDefault entries "readPolicy" ReadPolicy.any ReadPolicy.ofJson?
  let blockSize ← Json.optional entries "syncBlockSize" Json.asNat?
  some ⟨name, primary, mirrors, policy, blockSize⟩

end ReplicatedEntry

namespace LockPlace

def toEntries : LockPlace → List (String × Json)
  | .memory => [("type", .str "memory")]
  | .directory path => [("type", .str "file"), ("dir", .str path)]

/-- Reads the entries of a place; its kind may also be given by number. -/
def ofEntries? (entries : List (String × Json)) : Option LockPlace := do
  let kind ← Json.field entries "type" (Json.kind? true ["memory", "file"])
  if Json.hasRepeated ["type"] entries then
    none
  else if kind = "memory" then
    some .memory
  else if kind = "file" ∧ !Json.hasRepeated ["dir"] entries then
    let path ← Json.field entries "dir" Json.asStr?
    some (.directory path)
  else
    none

end LockPlace

namespace LockSettings

def toJson (settings : LockSettings) : Json :=
  .obj (settings.place.toEntries ++
    [("namespace", .str settings.scope), ("ttlSecs", .ofNat settings.lifetime)])

def ofJson? (value : Json) : Option LockSettings := do
  let entries ← value.distinctEntries? ["namespace", "ttlSecs"]
  let scope ← Json.withDefault entries "namespace" defaultScope Json.asStr?
  let lifetime ← Json.withDefault entries "ttlSecs" Locks.defaultLifetime Json.asNat?
  let place ← LockPlace.ofEntries? entries
  some ⟨place, scope, lifetime⟩

end LockSettings

namespace Config

/-- Puts a database in the place of its name; an earlier one of that name gives way. -/
def insertLink (name : String) (link : LinkEntry) :
    List (String × LinkEntry) → List (String × LinkEntry)
  | [] => [(name, link)]
  | (other, l) :: rest =>
    if name = other then (name, link) :: rest
    else if name < other then (name, link) :: (other, l) :: rest
    else (other, l) :: insertLink name link rest

/-- Databases by name. -/
def links? (value : Json) : Option (List (String × LinkEntry)) := do
  (← value.entries?).foldlM
    (fun links (name, value) => do
      let link ← LinkEntry.ofJson? value
      some (insertLink name link links))
    []

def toJson (config : Config) : Json :=
  .obj ([("version", Json.str config.version),
      ("links", .obj (config.links.map fun (name, link) => (name, link.toJson)))] ++
    Json.entry? "default" (config.default.map .str) ++
    [("sharded", .arr (config.sharded.map ShardedEntry.toJson)),
      ("replicated", .arr (config.replicated.map ReplicatedEntry.toJson)),
      ("locks", config.locks.toJson)])

/-- The parts of a configuration. -/
def parts : Json.Parts := ⟨["version", "links", "default", "sharded", "replicated", "locks"], 0⟩

/-- Where the reader of a configuration looks. -/
def shape : Json.Shape :=
  let record := fun (parts : Json.Parts) (looks : List (String × Json.Shape)) =>
    Json.Shape.record (parts.names.map fun name => (name, (looks.lookup name).getD .whole))
  record parts
    [("sharded", .each (record ShardedEntry.parts
        [("shards", .each (record ShardEntry.parts [])),
          ("tables", .each (record TableEntry.parts []))])),
      ("replicated", .each (record ReplicatedEntry.parts []))]

def ofJson? (value : Json) : Option Config := do
  let entries ← parts.distinctEntries? value
  let version ← Json.withDefault entries "version" "1" Json.asStr?
  let links ← Json.withDefault entries "links" [] links?
  let default ← Json.optional entries "default" Json.asStr?
  let sharded ← Json.withDefault entries "sharded" [] (Json.list ShardedEntry.ofJson?)
  let replicated ← Json.withDefault entries "replicated" [] (Json.list ReplicatedEntry.ofJson?)
  let locks ← Json.withDefault entries "locks" LockSettings.default LockSettings.ofJson?
  some ⟨version, links, default, sharded, replicated, locks⟩

/-- The text of a configuration. -/
def text (config : Config) : String :=
  config.toJson.pretty

/-- The configuration that a text describes. -/
def ofText? (text : String) : Option Config := do
  ofJson? (← Json.readShown? shape text)

end Config

end SqlFederation
