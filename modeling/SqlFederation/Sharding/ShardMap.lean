import SqlFederation.Sharding.KeyRange
import SqlFederation.Query.Basic
import SqlFederation.Json.Printer
import SqlFederation.Text.Blank
import SqlFederation.Text.Digits

/-!
# Shard maps

A shard map says for one table which shard holds which keys. Ranges may overlap: a read goes to
every shard whose range meets the keys that its condition allows (`routeByPredicate`), a written row
to the first shard whose range holds its key (`routeByRow`). `deriveRange` is the interval of keys
that a condition allows.
-/

namespace SqlFederation

/-- The part of a table that one shard holds, under another table name if one is given. -/
structure ShardRange where
  shard : ShardId
  range : KeyRange
  physicalTable : Option String
  deriving DecidableEq

/-- The shards of one table, in the order in which writes look for their place. -/
structure ShardMap where
  table : String
  key : String
  shards : List ShardRange
  deriving DecidableEq

namespace ShardMap

/-- A map without shards. -/
def empty (table key : String) : ShardMap := ⟨table, key, []⟩

/-- The shards in order. -/
def shardIds (m : ShardMap) : List ShardId :=
  m.shards.map ShardRange.shard

/-- Is this shard in the map? -/
def hasShard (m : ShardMap) (shard : ShardId) : Bool :=
  m.shards.any fun s => s.shard == shard

/-- Appends a shard with a range whose bounds are in order. -/
def addRange (m : ShardMap) (shard : ShardId) (range : KeyRange) : Except Error ShardMap :=
  if m.hasShard shard then
    .error (.duplicateShard shard)
  else do
    let range ← range.checked
    .ok { m with shards := m.shards ++ [⟨shard, range, none⟩] }

/-- Names the table of the first entry of a shard. -/
def namePhysical (shard : ShardId) (physical : String) : List ShardRange → List ShardRange
  | [] => []
  | s :: rest =>
    if s.shard = shard then { s with physicalTable := some physical } :: rest
    else s :: namePhysical shard physical rest

/-- Stores the part of a shard under another table name. -/
def withPhysicalTable (m : ShardMap) (shard : ShardId) (physical : String) :
    Except Error ShardMap :=
  if m.hasShard shard then .ok { m with shards := namePhysical shard physical m.shards }
  else .error (.unknownShard shard)

/-- The name that the table has on a shard. -/
def physicalTable (m : ShardMap) (shard : ShardId) : String :=
  ((m.shards.find? fun s => s.shard == shard).bind ShardRange.physicalTable).getD m.table

/-- The first shard whose range holds a key. -/
def chooseShard (m : ShardMap) (key : Int) : Except Error ShardId :=
  match m.shards.find? fun s => s.range.contains key with
  | some s => .ok s.shard
  | none => .error (.noShardFor m.key (toString key))

/-- Every shard whose range meets the given one. -/
def chooseShards (m : ShardMap) (range : KeyRange) : List ShardId :=
  if range.isEmpty then []
  else (m.shards.filter fun s => s.range.intersects range).map ShardRange.shard

/-- Is this column the key of the table? -/
def bindsKey (m : ShardMap) (column : ColumnRef) : Bool :=
  column.name == m.key && column.table.all fun t => t == m.table

/-- The keys that one comparison of the key with an integer allows. -/
def comparisonRange (op : Comparator) (key : Int) : KeyRange :=
  match op with
  | .eq => .point key
  | .gt => .atLeast (keyAfter key)
  | .gte => .atLeast key
  | .lt => .atMost (keyBefore key)
  | .lte => .atMost key
  | _ => .unbounded

/-- The keys that all of some ranges allow. -/
def rangeOfAll (ranges : List KeyRange) : KeyRange :=
  ranges.foldl KeyRange.intersect .unbounded

/-- The smallest range over the keys that any of some ranges allows; empty ranges allow none. -/
def rangeOfAny (ranges : List KeyRange) : KeyRange :=
  match ranges.filter fun r => !r.isEmpty with
  | first :: rest => rest.foldl KeyRange.hull first
  | [] => ranges.head?.getD .unbounded

mutual

/-- The interval of keys that a condition allows. -/
def deriveRange (m : ShardMap) : Predicate → KeyRange
  | .compare column op value =>
    if m.bindsKey column then
      match value.asInt? with
      | some key => comparisonRange op key
      | none => .unbounded
    else
      .unbounded
  | .join .and children => rangeOfAll (deriveRanges m children)
  | .join .or children => rangeOfAny (deriveRanges m children)

/-- The interval of every condition of a list. -/
def deriveRanges (m : ShardMap) : List Predicate → List KeyRange
  | [] => []
  | child :: rest => deriveRange m child :: deriveRanges m rest

end

theorem deriveRanges_eq_map (m : ShardMap) (children : List Predicate) :
    m.deriveRanges children = children.map m.deriveRange := by
  induction children with
  | nil => rfl
  | cons child rest ih => simp [deriveRanges, ih]

/-- The shards that may hold rows meeting a condition; without a condition, all of them. -/
def routeByPredicate (m : ShardMap) (predicate : Option Predicate) : List ShardId :=
  match predicate with
  | none => m.shardIds
  | some p => m.chooseShards (m.deriveRange p)

/-- The key that a written value stands for: an integer, or a text that holds one. -/
def keyOf? : Json → Option Int
  | .num n => n.asInt?
  | .str text =>
    match Text.integer? (Text.trim text.toList) with
    | some key => if fitsSigned key then some key else none
    | none => none
  | _ => none

/-- The shard that a written row belongs to. -/
def routeByRow (m : ShardMap) (row : Row) : Except Error ShardId :=
  match row.get? m.key with
  | none => .error (.missingKey m.table m.key)
  | some .null => .error (.missingKey m.table m.key)
  | some value =>
    match keyOf? value with
    | some key => m.chooseShard key
    | none => .error (.noShardFor m.key value.compact)

end ShardMap

end SqlFederation
