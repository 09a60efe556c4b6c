import SqlFederation.Json.Decode
import SqlFederation.Sharding.ShardMap

/-!
# Entries for sharded tables

The written form of a shard map: a table, its key and the ranges of its shards. `shardMap` builds
the map range by range and stops at the first one that does not fit.
-/

namespace SqlFederation

namespace ShardRange

/-- The names of the parts. -/
def names : List String := ["shard", "min", "max", "physicalTable"]

def toJson (s : ShardRange) : Json :=
  .obj ([("shard", Json.ofNat s.shard)] ++ s.range.toEntries ++
    Json.entry? "physicalTable" (s.physicalTable.map .str))

def ofJson? (value : Json) : Option ShardRange := do
  let entries ← value.distinctEntries? names
  let shard ← Json.field entries "shard" Json.asNat32?
  let range ← KeyRange.ofEntries? entries
  let physical ← Json.optional entries "physicalTable" Json.asStr?
  some ⟨shard, range, physical⟩

end ShardRange

/-- A sharded table as it is written down. -/
structure TableEntry where
  table : String
  key : String
  ranges : List ShardRange
  deriving DecidableEq

namespace TableEntry

def toJson (entry : TableEntry) : Json :=
  .obj [("table", .str entry.table), ("key", .str entry.key),
    ("ranges", .arr (entry.ranges.map ShardRange.toJson))]

/-- The parts of an entry. -/
def parts : Json.Parts := .all ["table", "key", "ranges"]

def ofJson? (value : Json) : Option TableEntry := do
  let entries ← parts.distinctEntries? value
  let table ← Json.field entries "table" Json.asStr?
  let key ← Json.field entries "key" Json.asStr?
  let ranges ← Json.field entries "ranges" (Json.list ShardRange.ofJson?)
  some ⟨table, key, ranges⟩

/-- Adds one range to a map; its shard has to be among the known ones. -/
def addTo (isKnown : ShardId → Bool) (m : ShardMap) (s : ShardRange) : Except Error ShardMap :=
  if isKnown s.shard then do
    let m ← m.addRange s.shard s.range
    match s.physicalTable with
    | some physical => m.withPhysicalTable s.shard physical
    | none => .ok m
  else
    .error (.unknownShard s.shard)

/-- The shard map that the entry describes. -/
def shardMap (isKnown : ShardId → Bool) (entry : TableEntry) : Except Error ShardMap :=
  entry.ranges.foldlM (addTo isKnown) (.empty entry.table entry.key)

end TableEntry

end SqlFederation
