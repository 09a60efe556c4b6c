import SqlFederation.Link.Replicated

/-!
# Resync

A resync makes a table anew on every mirror and copies the rows of the primary in blocks. It holds
the lock of the table from its first call to its last, whatever happens in between.
-/

namespace SqlFederation

/-- What a resync did. -/
structure SyncReport where
  table : String
  mirrors : Nat
  rows : Nat
  blocks : Nat
  schemaOnly : Bool
  deriving DecidableEq

namespace SyncReport

def toJson (report : SyncReport) : Json :=
  .obj [("table", .str report.table), ("mirrors", .ofNat report.mirrors),
    ("rows", .ofNat report.rows), ("blocks", .ofNat report.blocks),
    ("schema_only", .bool report.schemaOnly)]

end SyncReport

namespace Replicated

variable {β : Type}

/-- Runs statements in turn. -/
def runAll (mirror : Connection (World β)) : List String → Call (World β) Unit
  | [] => pure ()
  | sql :: rest => do
    let _ ← mirror.queryRaw sql
    runAll mirror rest

/-- The statements that make a table anew. -/
def rebuildStatements (dialect : Dialect) (schema : TableSchema) (table : String) : List String :=
  dialect.dropTable table true :: dialect.createTable schema ::
    schema.indexes.map (dialect.createIndex table)

/-- Makes a table anew on a mirror. -/
def rebuild (schema : TableSchema) (table : String) (mirror : Connection (World β)) :
    Call (World β) Unit := do
  let dialect ← mirror.dialect
  runAll mirror (rebuildStatements dialect schema table)

/-- The read that counts the rows of a table. -/
def countQuery (table : String) : Query :=
  .select ((Select.all table).withOutput (.ofAggregate .count none "count"))

/-- The count in the row that such a read gives; none counts as zero. -/
def countIn (row : Option Row) : Nat :=
  ((row.bind fun r => r.get? "count").bind Json.asNat?).getD 0

/-- The column that blocks are ordered by: the first one of the key, or `id`. -/
def orderColumn (schema : TableSchema) : String :=
  schema.primaryKey.getD "id"

/-- The read of one block. -/
def blockQuery (schema : TableSchema) (table : String) (size offset : Nat) : Query :=
  .select {
    table := table
    outputs := schema.columns.map fun column => .ofColumn (.bare column.name)
    predicate := none
    groupBy := []
    orderBy := [⟨.bare (orderColumn schema), .asc, false⟩]
    limit := some size
    offset := some offset }

/-- The columns whose texts are blobs in base64. -/
def blobColumns (schema : TableSchema) : List String :=
  (schema.columns.filter fun column =>
    Text.contains (Text.upper column.type).toList "BLOB".toList).map ColumnSchema.name

/-- The write that copies one row. -/
def copyQuery (schema : TableSchema) (table : String) (row : Row) : Query :=
  .insert ⟨table, [row], blobColumns schema⟩

/-- Writes one row to every mirror; each has to report one row. -/
def copyRow (table : String) (insert : Query) : List (Connection (World β)) → Call (World β) Unit
  | [] => pure ()
  | mirror :: rest => do
    let affected ← mirror.queryCount insert
    if affected = 1 then
      copyRow table insert rest
    else
      Call.fail (.racyInsert table affected)

/-- Writes rows to every mirror, one after the other. -/
def copyRows (schema : TableSchema) (table : String) (mirrors : List (Connection (World β))) :
    List Row → Call (World β) Unit
  | [] => pure ()
  | row :: rest => do
    copyRow table (copyQuery schema table row) mirrors
    copyRows schema table mirrors rest

/-- Offsets are 64-bit numbers: behind the largest one, they start over. -/
def offsetBound : Nat := 18446744073709551616

/--
The offset behind a block, with the number of times that it may still start over; none if it would
start over once more than that.
-/
def nextOffset? (size laps offset : Nat) : Option (Nat × Nat) :=
  if offset + size < offsetBound then
    some (laps, offset + size)
  else
    match laps with
    | 0 => none
    | laps + 1 => some (laps, (offset + size) % offsetBound)

/-- Either the rows that are left become fewer, or the times that the offset may start over. -/
theorem nextOffset?_decreases {size laps offset : Nat} {next : Nat × Nat}
    (h : nextOffset? size laps offset = some next) (hsize : 0 < size) {total : Nat}
    (hoffset : offset < total) :
    next.1 * (total + 1) + (total - next.2) < laps * (total + 1) + (total - offset) := by
  unfold nextOffset? at h
  split at h
  · cases h
    dsimp only
    omega
  · split at h
    · cases h
    · cases h
      dsimp only
      rw [Nat.succ_mul]
      omega

/--
Copies the blocks from an offset on; an empty block ends the copy. An offset that has started over
may be in front of rows again, so that the copy need not end by itself. `laps` is how often the
offset may start over; a resync gives it a number that no copy comes to.
-/
def copyBlocks (link : Replicated β) (source : Connection (World β)) (schema : TableSchema)
    (table : String) (total laps offset : Nat) (report : SyncReport) : Call (World β) SyncReport :=
  if offset < total then do
    let block ← source.querySet (blockQuery schema table link.blockSize offset)
    if block.isEmpty then
      return report
    else
      copyRows schema table link.mirrors block
      let report :=
        { report with rows := report.rows + block.length, blocks := report.blocks + 1 }
      match _hnext : nextOffset? link.blockSize laps offset with
      | some next => copyBlocks link source schema table total next.1 next.2 report
      | none => return report
  else
    return report
termination_by laps * (total + 1) + (total - offset)
decreasing_by exact nextOffset?_decreases ‹_› link.blockSize_pos ‹_›

section copyBlocks

variable (link : Replicated β) (source : Connection (World β)) (schema : TableSchema)
  (table : String) {total laps offset : Nat} (report : SyncReport)

/-- Where rows are left, a block is copied, and the copy goes on behind it. -/
theorem copyBlocks_of_lt (h : offset < total) :
    copyBlocks link source schema table total laps offset report = (do
      let block ← source.querySet (blockQuery schema table link.blockSize offset)
      if block.isEmpty then
        return report
      else
        copyRows schema table link.mirrors block
        let report :=
          { report with rows := report.rows + block.length, blocks := report.blocks + 1 }
        match nextOffset? link.blockSize laps offset with
        | some next => copyBlocks link source schema table total next.1 next.2 report
        | none => return report) := by
  rw [copyBlocks, if_pos h]
  refine bind_congr fun block => ite_congr rfl (fun _ => rfl) fun _ => bind_congr fun _ => ?_
  dsimp only
  split <;> simp only [*]

/-- Where no rows are left, the copy ends. -/
theorem copyBlocks_of_not_lt (h : ¬offset < total) :
    copyBlocks link source schema table total laps offset report = pure report := by
  rw [copyBlocks, if_neg h]

end copyBlocks

/-- How often the offset of a resync may start over. -/
def maxLaps : Nat := offsetBound

/-- Makes a table anew and copies its rows, without a lock. -/
def copyTable (link : Replicated β) (table : String) (schemaOnly : Bool) :
    Call (World β) SyncReport := do
  let source ← Call.done link.primary?
  let schema ← source.tableInfo table
  Fanout.each (rebuild schema table) link.mirrors
  let report : SyncReport := ⟨table, link.mirrors.length, 0, 0, schemaOnly⟩
  if schemaOnly then
    return report
  else
    let total := countIn (← source.queryRow (countQuery table))
    copyBlocks link source schema table total maxLaps 0 report

/-- Makes a table anew on every mirror from the primary's copy. -/
def resync (link : Replicated β) (table : String) (schemaOnly : Bool) : Call (World β) SyncReport :=
  match link.lock with
  | none => Call.fail (.config .lockNotSet)
  | some lock =>
    World.guarding lock table (.alreadyReplicating table) (link.copyTable table schemaOnly)

end Replicated

end SqlFederation
