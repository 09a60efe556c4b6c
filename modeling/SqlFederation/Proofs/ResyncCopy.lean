import Mathlib
import SqlFederation.Proofs.Recorded
import SqlFederation.Proofs.RowTable

/-!
# A resync copies every row once

`Replicated.Source` says what a resync needs of a primary and `Replicated.Target` what it needs of a
mirror: that their calls succeed and answer right as long as the world is in order, and leave it in
order. Each stage of a resync then succeeds, and is known by the calls that it makes: making the
table anew (`Replicated.outcome_rebuildAll`), copying rows (`Replicated.outcome_copyRows`), and the
loop over the blocks (`Replicated.outcome_copyBlocks`), by induction on the rows that are left. The
blocks of a table are its rows, none of them twice, because a block that starts at an offset holds
the rows from there on and the next one starts behind it. `Replicated.resync_copies_every_row` puts
the stages together under the lock.
-/

namespace SqlFederation

/-- Does a call succeed in every good state, with a result as wanted, and in a good state again? -/
def Call.Yields {σ α : Type} (good : σ → Prop) (call : Call σ α) (wanted : α → Prop) : Prop :=
  ∀ s, good s → ∃ a s', call.outcome s = (.ok a, s') ∧ wanted a ∧ good s'

/-- A recorded call that succeeds leaves its entry behind the record. -/
theorem Call.Yields.recording {β α : Type} {good : World β → Prop} {call : Call (World β) α}
    {wanted : α → Prop} (h : call.Yields good wanted) {w : World β} (hw : good w) (record : Record)
    (member : Member) (received : Received) :
    ∃ a w', (World.recording member received call).outcome (w.withRecord record) =
        (.ok a, w'.withRecord (record ++ [(member, received)])) ∧ wanted a ∧ good w' := by
  obtain ⟨a, w', hcall, ha, hw'⟩ := h w hw
  refine ⟨a, w', ?_, ha, hw'⟩
  rw [World.outcome_recording, hcall]

namespace Replicated

variable {β : Type}

/-- A primary with the given rows in a table. -/
structure Source (good : World β → Prop) (primary : Connection (World β)) (table : String)
    (schema : TableSchema) (rows : List Row) (size : Nat) : Prop where
  /-- The table has the schema. -/
  tableInfo : (primary.tableInfo table).Yields good fun s => s = schema
  /-- The rows are counted. -/
  count : (primary.queryRow (countQuery table)).Yields good fun row =>
    ∃ r, row = some r ∧ r.get? "count" = some (.ofNat rows.length)
  /-- A block has the rows from its offset on, as many as it holds. -/
  block : ∀ offset, (primary.querySet (blockQuery schema table size offset)).Yields good
    fun block => block = (rows.drop offset).take size

/-- A mirror that fails nothing and answers one row to each insert that copies a row. -/
structure Target (good : World β → Prop) (schema : TableSchema) (table : String)
    (dialect : Dialect) (mirror : Connection (World β)) : Prop where
  /-- The mirror speaks the dialect. -/
  dialect : mirror.dialect.Yields good fun d => d = dialect
  /-- Every statement runs. -/
  queryRaw : ∀ sql, (mirror.queryRaw sql).Yields good fun _ => True
  /-- A row is inserted. -/
  insert : ∀ row, (mirror.queryCount (copyQuery schema table row)).Yields good fun n => n = 1

/-- The statements that a mirror receives first: it drops the table and makes it anew. -/
def rebuildCalls (dialect : Dialect) (schema : TableSchema) (table : String) : List Received :=
  .dialect :: .queryRaw (dialect.dropTable table true) :: .queryRaw (dialect.createTable schema) ::
    schema.indexes.map fun index => .queryRaw (dialect.createIndex table index)

section Calls

variable (schema : TableSchema) (table : String)

/-- The calls that copy a row: the same insert to each of some mirrors. -/
def rowCalls (indices : List Nat) (row : Row) : Record :=
  Record.toEach indices fun _ => [.queryCount (copyQuery schema table row)]

/-- A mirror receives each of some copied rows once, in their order. -/
theorem received_flatMap_rowCalls {indices : List Nat} (hnodup : indices.Nodup) {i : Nat}
    (hi : i ∈ indices) (rows : List Row) :
    Record.received (rows.flatMap (rowCalls schema table indices)) (.mirror i) =
      rows.map fun row => .queryCount (copyQuery schema table row) := by
  induction rows with
  | nil => rfl
  | cons row rest ih =>
    rw [List.flatMap_cons, Record.received_append, ih, rowCalls, Record.received_toEach hnodup hi]
    rfl

/-- The calls that copy one block: the read of the block, and its rows to some mirrors. -/
def blockCalls (indices : List Nat) (size offset : Nat) (block : List Row) : Record :=
  (.primary, .querySet (blockQuery schema table size offset)) ::
    block.flatMap (rowCalls schema table indices)

/-- A mirror receives each row of a copied block once, in their order. -/
theorem received_blockCalls {indices : List Nat} (hnodup : indices.Nodup) {i : Nat}
    (hi : i ∈ indices) (size offset : Nat) (block : List Row) :
    Record.received (blockCalls schema table indices size offset block) (.mirror i) =
      block.map fun row => .queryCount (copyQuery schema table row) :=
  -- The read of the block goes to the primary.
  received_flatMap_rowCalls schema table hnodup hi block

end Calls

variable {good : World β → Prop} {schema : TableSchema} {table : String}

/-- A mirror runs statements one after the other. -/
theorem outcome_runAll {d : Dialect} {mirror : Connection (World β)}
    (h : Target good schema table d mirror) (member : Member) (statements : List String)
    {w : World β} (hw : good w) (record : Record) :
    ∃ w', (runAll (mirror.recorded member) statements).outcome (w.withRecord record) =
        (.ok (), w'.withRecord (record ++ statements.map fun sql => (member, .queryRaw sql))) ∧
      good w' := by
  induction statements generalizing w record with
  | nil => exact ⟨w, by rw [List.map_nil, List.append_nil]; rfl, hw⟩
  | cons sql rest ih =>
    obtain ⟨rows, w₁, hraw, -, hw₁⟩ := (h.queryRaw sql).recording hw record member (.queryRaw sql)
    obtain ⟨w₂, hrest, hw₂⟩ := ih hw₁ (record ++ [(member, .queryRaw sql)])
    refine ⟨w₂, ?_, hw₂⟩
    rw [runAll, Connection.recorded_queryRaw, Call.outcome_bind_of_ok hraw, hrest,
      List.append_assoc]
    rfl

/-- A mirror is asked for its dialect and makes the table anew. -/
theorem outcome_rebuild {d : Dialect} {mirror : Connection (World β)}
    (h : Target good schema table d mirror) (member : Member) {w : World β} (hw : good w)
    (record : Record) :
    ∃ w', (rebuild schema table (mirror.recorded member)).outcome (w.withRecord record) =
        (.ok (), w'.withRecord
          (record ++ (rebuildCalls d schema table).map fun call => (member, call))) ∧
      good w' := by
  obtain ⟨_, w₁, hdialect, hd, hw₁⟩ := h.dialect.recording hw record member .dialect
  rw [hd] at hdialect
  obtain ⟨w₂, hrun, hw₂⟩ := outcome_runAll h member (rebuildStatements d schema table) hw₁
    (record ++ [(member, .dialect)])
  refine ⟨w₂, ?_, hw₂⟩
  rw [rebuild, Connection.recorded_dialect, Call.outcome_bind_of_ok hdialect, hrun,
    List.append_assoc]
  simp [rebuildCalls, rebuildStatements, Function.comp_def]

variable {dialects : Nat → Dialect} {mirrors : List (Connection (World β) × Nat)}

/-- Every mirror makes the table anew, one after the other. -/
theorem outcome_rebuildAll (h : ∀ p ∈ mirrors, Target good schema table (dialects p.2) p.1)
    {w : World β} (hw : good w) (record : Record) :
    ∃ w', (Fanout.each (rebuild schema table) (recordedMirrors mirrors)).outcome
          (w.withRecord record) =
        (.ok (), w'.withRecord (record ++ Record.toEach (mirrors.map Prod.snd) fun i =>
          rebuildCalls (dialects i) schema table)) ∧
      good w' := by
  induction mirrors generalizing w record with
  | nil =>
    refine ⟨w, ?_, hw⟩
    rw [List.map_nil, Record.toEach, List.flatMap_nil, List.append_nil]
    rfl
  | cons p rest ih =>
    obtain ⟨mirror, i⟩ := p
    rw [List.forall_mem_cons] at h
    obtain ⟨w₁, hfirst, hw₁⟩ := outcome_rebuild h.1 (.mirror i) hw record
    obtain ⟨w₂, hrest, hw₂⟩ := ih h.2 hw₁ (record ++ (rebuildCalls (dialects i) schema table).map
      fun call => (.mirror i, call))
    refine ⟨w₂, ?_, hw₂⟩
    rw [recordedMirrors_cons, Fanout.each, Call.outcome_bind_of_ok hfirst, hrest,
      List.append_assoc]
    rfl

/-- Every mirror receives a row, one after the other. -/
theorem outcome_copyRow (h : ∀ p ∈ mirrors, Target good schema table (dialects p.2) p.1) (row : Row)
    {w : World β} (hw : good w) (record : Record) :
    ∃ w', (copyRow table (copyQuery schema table row) (recordedMirrors mirrors)).outcome
          (w.withRecord record) =
        (.ok (), w'.withRecord (record ++ Record.toEach (mirrors.map Prod.snd) fun _ =>
          [.queryCount (copyQuery schema table row)])) ∧
      good w' := by
  induction mirrors generalizing w record with
  | nil =>
    refine ⟨w, ?_, hw⟩
    rw [List.map_nil, Record.toEach, List.flatMap_nil, List.append_nil]
    rfl
  | cons p rest ih =>
    obtain ⟨mirror, i⟩ := p
    rw [List.forall_mem_cons] at h
    obtain ⟨_, w₁, hfirst, rfl, hw₁⟩ := (h.1.insert row).recording hw record (.mirror i)
      (.queryCount (copyQuery schema table row))
    obtain ⟨w₂, hrest, hw₂⟩ := ih h.2 hw₁
      (record ++ [(.mirror i, .queryCount (copyQuery schema table row))])
    refine ⟨w₂, ?_, hw₂⟩
    rw [recordedMirrors_cons, copyRow, Connection.recorded_queryCount,
      Call.outcome_bind_of_ok hfirst, if_pos rfl, hrest, List.append_assoc]
    rfl

/-- Every mirror receives some rows, one row after the other. -/
theorem outcome_copyRows (h : ∀ p ∈ mirrors, Target good schema table (dialects p.2) p.1)
    (rows : List Row) {w : World β} (hw : good w) (record : Record) :
    ∃ w', (copyRows schema table (recordedMirrors mirrors) rows).outcome (w.withRecord record) =
        (.ok (), w'.withRecord
          (record ++ rows.flatMap (rowCalls schema table (mirrors.map Prod.snd)))) ∧
      good w' := by
  induction rows generalizing w record with
  | nil => exact ⟨w, by rw [List.flatMap_nil, List.append_nil]; rfl, hw⟩
  | cons row rest ih =>
    obtain ⟨w₁, hfirst, hw₁⟩ := outcome_copyRow h row hw record
    obtain ⟨w₂, hrest, hw₂⟩ := ih hw₁
      (record ++ rowCalls schema table (mirrors.map Prod.snd) row)
    refine ⟨w₂, ?_, hw₂⟩
    rw [copyRows, Call.outcome_bind_of_ok hfirst, List.flatMap_cons,
      ← List.append_assoc]
    exact hrest

/-- The count that a primary answers is read back. -/
theorem countIn_of_get? {row : Option Row} {n : Nat} (hn : n ≤ 18446744073709551615)
    (h : ∃ r, row = some r ∧ r.get? "count" = some (.ofNat n)) : countIn row = n := by
  obtain ⟨r, rfl, hr⟩ := h
  have hfits : (0 : Int) ≤ n ∧ (n : Int) ≤ 18446744073709551615 := by omega
  rw [countIn, Option.bind_some, hr, Option.bind_some, Json.ofNat, Json.asNat?, if_pos hfits]
  rfl

/-- One block more than the blocks of the rows behind it. -/
theorem blocks_succ {n offset size : Nat} (hsize : 0 < size) (hoffset : offset < n) :
    (n - (offset + size) + size - 1) / size + 1 = (n - offset + size - 1) / size := by
  by_cases hlast : n ≤ offset + size
  · have hzero : (n - (offset + size) + size - 1) / size = 0 := Nat.div_eq_of_lt (by omega)
    have hone : (n - offset + size - 1) / size = 1 :=
      Nat.div_eq_of_lt_le (by omega) (by omega)
    rw [hzero, hone]
  · have hstep : n - offset + size - 1 = n - (offset + size) + size - 1 + size := by omega
    rw [hstep, Nat.add_div_right _ hsize]

/--
Do the offsets of the blocks from one on fit into 64 bits, up to the one behind the rows? Then none
of them starts over.
-/
def OffsetsFit (size offset total : Nat) : Prop :=
  ∀ k, offset + k * size < total → offset + (k + 1) * size < offsetBound

namespace OffsetsFit

variable {size offset total : Nat}

/-- The offset behind the first block does not start over. -/
theorem nextOffset?_eq (h : OffsetsFit size offset total) (hoffset : offset < total)
    (laps : Nat) : nextOffset? size laps offset = some (laps, offset + size) := by
  have hfits : offset + size < offsetBound := by simpa using h 0 (by omega)
  exact if_pos hfits

/-- So do the offsets behind that one. -/
theorem next (h : OffsetsFit size offset total) : OffsetsFit size (offset + size) total := by
  intro k hk
  have hshift : ∀ j, offset + size + j * size = offset + (j + 1) * size := by
    intro j
    rw [Nat.succ_mul]
    omega
  rw [hshift] at hk ⊢
  exact h (k + 1) hk

end OffsetsFit

/-- Do the blocks of some rows end at a 64-bit number, the last of them as all others? -/
def BlocksFit (size total : Nat) : Prop :=
  (total + size - 1) / size * size < offsetBound

instance (size total : Nat) : Decidable (BlocksFit size total) :=
  inferInstanceAs (Decidable (_ < _))

namespace BlocksFit

variable {size total : Nat}

/-- Blocks fit if there is room for one more behind the rows. -/
theorem of_lt (hsize : 0 < size) (h : total + size < offsetBound) : BlocksFit size total := by
  have hblocks := Nat.div_mul_le_self (total + size - 1) size
  unfold BlocksFit
  omega

/-- The offsets of blocks that fit do not start over. -/
theorem offsetsFit (h : BlocksFit size total) (hsize : 0 < size) : OffsetsFit size 0 total := by
  intro k hk
  rw [Nat.zero_add] at hk ⊢
  have hblock : k + 1 ≤ (total + size - 1) / size := by
    rw [Nat.le_div_iff_mul_le hsize, Nat.succ_mul]
    omega
  exact lt_of_le_of_lt (Nat.mul_le_mul_right size hblock) h

/-- The rows of blocks that fit are counted in 64 bits. -/
theorem total_le (h : BlocksFit size total) (hsize : 0 < size) :
    total ≤ 18446744073709551615 := by
  have hrest := Nat.lt_div_mul_add hsize (a := total + size - 1)
  unfold BlocksFit offsetBound at h
  omega

end BlocksFit

variable {link : Replicated β} {primary : Connection (World β)} {rows : List Row}

/-- The numbers of the mirrors. -/
def indices (link : Replicated β) : List Nat :=
  link.mirrors.zipIdx.map Prod.snd

theorem nodup_indices : link.indices.Nodup := by
  rw [indices, List.zipIdx_map_snd]
  exact List.nodup_range'

theorem mem_indices {i : Nat} : i ∈ link.indices ↔ i < link.mirrors.length := by
  rw [indices, List.zipIdx_map_snd, List.mem_range'_1]
  omega

@[simp]
theorem length_recorded_mirrors : link.recorded.mirrors.length = link.mirrors.length := by
  rw [recorded, recordedMirrors, List.length_map, List.length_zipIdx]

/-- Where rows are left, a block is copied to every mirror, and the copy goes on behind it. -/
theorem outcome_copyBlocks_of_lt (hsource : Source good primary table schema rows link.blockSize)
    (hmirrors : ∀ p ∈ link.mirrors.zipIdx, Target good schema table (dialects p.2) p.1)
    {laps offset : Nat} (hoffset : offset < rows.length)
    (hfit : OffsetsFit link.blockSize offset rows.length) (report : SyncReport) {w : World β}
    (hw : good w) (record : Record) :
    let block := (rows.drop offset).take link.blockSize
    ∃ w', (copyBlocks link.recorded (primary.recorded .primary) schema table rows.length laps
          offset report).outcome (w.withRecord record) =
        (copyBlocks link.recorded (primary.recorded .primary) schema table rows.length laps
          (offset + link.blockSize)
          { report with rows := report.rows + block.length, blocks := report.blocks + 1 }).outcome
          (w'.withRecord
            (record ++ blockCalls schema table link.indices link.blockSize offset block)) ∧
      good w' := by
  intro block
  obtain ⟨_, w₁, hread, rfl, hw₁⟩ := (hsource.block offset).recording hw record .primary
    (.querySet (blockQuery schema table link.blockSize offset))
  obtain ⟨w₂, hcopied, hw₂⟩ := outcome_copyRows hmirrors block hw₁
    (record ++ [(.primary, .querySet (blockQuery schema table link.blockSize offset))])
  have hpos := link.blockSize_pos
  have hnonempty : ¬block.isEmpty = true := by
    rw [List.isEmpty_iff, ← List.length_eq_zero_iff, List.length_take, List.length_drop]
    omega
  refine ⟨w₂, ?_, hw₂⟩
  rw [copyBlocks_of_lt _ _ _ _ _ hoffset, Connection.recorded_querySet]
  rw [List.append_assoc] at hcopied
  refine (Call.outcome_bind_of_ok hread).trans ?_
  rw [if_neg hnonempty]
  refine (Call.outcome_bind_of_ok hcopied).trans ?_
  dsimp only
  rw [recorded_blockSize, hfit.nextOffset?_eq hoffset laps]
  rfl

/--
The loop over the blocks from an offset on copies the rows from there on to every mirror, each once
and in order, and counts the rows and the blocks.
-/
theorem outcome_copyBlocks (hsource : Source good primary table schema rows link.blockSize)
    (hmirrors : ∀ p ∈ link.mirrors.zipIdx, Target good schema table (dialects p.2) p.1)
    {laps offset : Nat} (hfit : OffsetsFit link.blockSize offset rows.length)
    (report : SyncReport) {w : World β} (hw : good w) (record : Record) :
    ∃ w' extra, (copyBlocks link.recorded (primary.recorded .primary) schema table rows.length
          laps offset report).outcome (w.withRecord record) =
        (.ok { report with
            rows := report.rows + (rows.length - offset)
            blocks := report.blocks +
              (rows.length - offset + link.blockSize - 1) / link.blockSize },
          w'.withRecord (record ++ extra)) ∧
      good w' ∧
      ∀ i < link.mirrors.length, Record.received extra (.mirror i) =
        (rows.drop offset).map fun row => .queryCount (copyQuery schema table row) := by
  have hpos := link.blockSize_pos
  -- The rows that are left become fewer with each block.
  induction hleft : rows.length - offset using Nat.strongRecOn
    generalizing offset report w record with
  | ind left ih =>
    subst hleft
    by_cases hoffset : offset < rows.length
    · obtain ⟨w₁, hblock, hw₁⟩ := outcome_copyBlocks_of_lt hsource hmirrors hoffset
        hfit report hw record
      let block := (rows.drop offset).take link.blockSize
      let calls := blockCalls schema table link.indices link.blockSize offset block
      obtain ⟨w₂, extra, hrest, hw₂, hextra⟩ := ih (rows.length - (offset + link.blockSize))
        (by omega) hfit.next
        { report with rows := report.rows + block.length, blocks := report.blocks + 1 } hw₁
        (record ++ calls) rfl
      refine ⟨w₂, calls ++ extra, ?_, hw₂, fun i hi => ?_⟩
      · have hblocks := blocks_succ hpos hoffset
        -- The last block may be shorter than the others.
        have hlength : block.length = min link.blockSize (rows.length - offset) := by
          rw [List.length_take, List.length_drop]
        have hrows : report.rows + block.length +
            (rows.length - (offset + link.blockSize)) = report.rows + (rows.length - offset) := by
          omega
        have hcount : report.blocks + 1 +
            (rows.length - (offset + link.blockSize) + link.blockSize - 1) / link.blockSize =
            report.blocks + (rows.length - offset + link.blockSize - 1) / link.blockSize := by
          omega
        rw [hblock, hrest, ← List.append_assoc, hrows, hcount]
      · rw [Record.received_append,
          received_blockCalls schema table nodup_indices (mem_indices.mpr hi), hextra i hi,
          ← List.map_append, ← List.drop_drop, List.take_append_drop]
    · have hnone : rows.length - offset = 0 := by omega
      refine ⟨w, [], ?_, hw, fun i _ => ?_⟩
      · rw [copyBlocks_of_not_lt _ _ _ _ _ hoffset, hnone, Nat.zero_add,
          Nat.div_eq_of_lt (Nat.sub_lt hpos Nat.one_pos), List.append_nil]
        rfl
      · rw [List.drop_eq_nil_of_le (by omega)]
        rfl

/-- The calls that a mirror receives when a table is made anew and its rows are copied. -/
def mirrorCalls (dialect : Dialect) (schema : TableSchema) (table : String) (rows : List Row) :
    List Received :=
  rebuildCalls dialect schema table ++
    rows.map fun row => .queryCount (.insert ⟨table, [row], blobColumns schema⟩)

/-- Without the lock: every mirror makes the table anew, and then every row is copied to it. -/
theorem outcome_copyTable (hprimary : link.primary = some primary)
    (hsource : Source good primary table schema rows link.blockSize)
    (hmirrors : ∀ p ∈ link.mirrors.zipIdx, Target good schema table (dialects p.2) p.1)
    (hfit : BlocksFit link.blockSize rows.length) {w : World β} (hw : good w) (record : Record) :
    ∃ (w' : World β) (extra : Record),
      (link.recorded.copyTable table false).outcome (w.withRecord record) =
        (.ok ⟨table, link.mirrors.length, rows.length,
          (rows.length + link.blockSize - 1) / link.blockSize, false⟩,
          w'.withRecord (record ++ extra)) ∧
      ∀ i < link.mirrors.length, Record.received extra (.mirror i) =
        mirrorCalls (dialects i) schema table rows := by
  let asked : Record := [(.primary, .tableInfo table)]
  let rebuilt := Record.toEach link.indices fun i => rebuildCalls (dialects i) schema table
  let counted : Record := [(.primary, .queryRow (countQuery table))]
  obtain ⟨_, w₁, hinfo, hschema, hw₁⟩ := hsource.tableInfo.recording hw record .primary
    (.tableInfo table)
  rw [hschema] at hinfo
  obtain ⟨w₂, hrebuild, hw₂⟩ := outcome_rebuildAll hmirrors hw₁ (record ++ asked)
  obtain ⟨row, w₃, hcount, hrow, hw₃⟩ := hsource.count.recording hw₂ (record ++ asked ++ rebuilt)
    .primary (.queryRow (countQuery table))
  obtain ⟨w₄, copied, hcopy, -, hcopied⟩ := outcome_copyBlocks hsource hmirrors
    (hfit.offsetsFit link.blockSize_pos) ⟨table, link.mirrors.length, 0, 0, false⟩ hw₃
    (record ++ asked ++ rebuilt ++ counted)
  refine ⟨w₄, asked ++ rebuilt ++ counted ++ copied, ?_, fun i hi => ?_⟩
  · have hsource? : (Call.done link.recorded.primary?).outcome (w.withRecord record) =
        (.ok (primary.recorded .primary), w.withRecord record) := by
      rw [primary?_recorded_of_some hprimary, Call.outcome_done]
    rw [copyTable, Call.outcome_bind_of_ok hsource?, Connection.recorded_tableInfo,
      Call.outcome_bind_of_ok hinfo]
    refine (Call.outcome_bind_of_ok hrebuild).trans ?_
    refine (Call.outcome_bind_of_ok hcount).trans ?_
    rw [countIn_of_get? (hfit.total_le link.blockSize_pos) hrow]
    rw [length_recorded_mirrors]
    refine hcopy.trans ?_
    simp only [Nat.zero_add, Nat.sub_zero, List.append_assoc]
  · -- The schema and the count are asked of the primary, and no mirror receives these calls.
    have hasked : Record.received asked (.mirror i) = [] := rfl
    have hcounted : Record.received counted (.mirror i) = [] := rfl
    rw [Record.received_append, Record.received_append, Record.received_append, hcopied i hi,
      hasked, hcounted, Record.received_toEach nodup_indices (mem_indices.mpr hi), List.nil_append,
      List.append_nil]
    rfl

section Observed

open World (Observes observes_recording observes_pure observes_fail)

variable (schema table)

theorem observes_runAll (member : Member) (mirror : Connection (World β)) :
    ∀ statements, Observes (runAll (mirror.recorded member) statements) (runAll mirror statements)
  | [] => observes_pure ()
  | _ :: rest =>
    (observes_recording member _ _).bind fun _ => observes_runAll member mirror rest

theorem observes_rebuildAll :
    ∀ mirrors : List (Connection (World β) × Nat),
      Observes (Fanout.each (rebuild schema table) (recordedMirrors mirrors))
        (Fanout.each (rebuild schema table) (mirrors.map Prod.fst))
  | [] => observes_pure ()
  | (mirror, i) :: rest => by
    have hmirror : Observes (rebuild schema table (mirror.recorded (Member.mirror i)))
        (rebuild schema table mirror) :=
      (observes_recording (Member.mirror i) _ _).bind fun _ => observes_runAll _ mirror _
    exact hmirror.bind fun _ => observes_rebuildAll rest

theorem observes_copyRow (insert : Query) :
    ∀ mirrors : List (Connection (World β) × Nat),
      Observes (copyRow table insert (recordedMirrors mirrors))
        (copyRow table insert (mirrors.map Prod.fst))
  | [] => observes_pure ()
  | (mirror, i) :: rest => by
    refine (observes_recording (Member.mirror i) _ (mirror.queryCount insert)).bind ?_
    intro affected
    by_cases hone : affected = 1
    · simp only [if_pos hone]
      exact observes_copyRow insert rest
    · simp only [if_neg hone]
      exact observes_fail _

theorem observes_copyRows (mirrors : List (Connection (World β) × Nat)) :
    ∀ rows, Observes (copyRows schema table (recordedMirrors mirrors) rows)
      (copyRows schema table (mirrors.map Prod.fst) rows)
  | [] => observes_pure ()
  | _ :: rest => (observes_copyRow table _ mirrors).bind fun _ => observes_copyRows mirrors rest

theorem observes_copyBlocks (total laps offset : Nat) (report : SyncReport) :
    Observes
      (copyBlocks link.recorded (primary.recorded .primary) schema table total laps offset report)
      (copyBlocks link primary schema table total laps offset report) := by
  induction laps, offset, report using copyBlocks.induct link total with
  | case1 laps offset report hoffset ih =>
    rw [copyBlocks_of_lt _ _ _ _ _ hoffset, copyBlocks_of_lt _ _ _ _ _ hoffset]
    refine (observes_recording Member.primary _ _).bind fun block => ?_
    cases hempty : block.isEmpty with
    | true => exact observes_pure report
    | false =>
      have hrows := observes_copyRows schema table link.mirrors.zipIdx block
      rw [List.zipIdx_map_fst] at hrows
      refine hrows.bind fun _ => ?_
      rw [recorded_blockSize]
      cases hnext : nextOffset? link.blockSize laps offset with
      | some next => exact ih block next hnext
      | none => exact observes_pure _
  | case2 laps offset report hoffset =>
    rw [copyBlocks_of_not_lt _ _ _ _ _ hoffset, copyBlocks_of_not_lt _ _ _ _ _ hoffset]
    exact observes_pure report

theorem observes_copyTable (link : Replicated β) (table : String) (schemaOnly : Bool) :
    Observes (link.recorded.copyTable table schemaOnly) (link.copyTable table schemaOnly) := by
  cases hprimary : link.primary with
  | none =>
    have hnone : link.primary? = .error .noEndpoints := by rw [primary?, hprimary]
    rw [copyTable, copyTable, hnone, primary?_recorded_of_none hprimary, Call.done_error_bind,
      Call.done_error_bind]
    exact observes_fail _
  | some primary =>
    have hsome : link.primary? = .ok primary := by rw [primary?, hprimary]
    rw [copyTable, copyTable, hsome, primary?_recorded_of_some hprimary, Call.done_ok_bind,
      Call.done_ok_bind]
    refine (observes_recording Member.primary _ _).bind fun schema => ?_
    have hrebuild := observes_rebuildAll schema table link.mirrors.zipIdx
    rw [List.zipIdx_map_fst] at hrebuild
    refine hrebuild.bind fun _ => ?_
    rw [length_recorded_mirrors]
    cases schemaOnly with
    | true => exact observes_pure _
    | false =>
      exact (observes_recording Member.primary _ _).bind fun row =>
        observes_copyBlocks schema table (countIn row) maxLaps 0 _

/-- A resync of a composition under observation ends as it does without. -/
theorem observes_resync (link : Replicated β) (table : String) (schemaOnly : Bool) :
    Observes (link.recorded.resync table schemaOnly) (link.resync table schemaOnly) := by
  cases hlock : link.lock with
  | none =>
    have hlock' : link.recorded.lock = none := hlock
    rw [resync, resync, hlock, hlock']
    exact observes_fail _
  | some lock =>
    have hlock' : link.recorded.lock = some lock := hlock
    rw [resync, resync, hlock, hlock']
    exact (observes_copyTable link table schemaOnly).guarding lock table _

end Observed

/--
A resync whose lock is free copies every row of the primary once. It succeeds, and reports as many
rows as the primary has and as many blocks as they fill. Every mirror is asked for its dialect,
drops the table, makes it and its indexes anew, and then receives one insert for each row, in the
order of the primary, and nothing else.
-/
theorem resync_copies_every_row (link : Replicated β) (dialects : Nat → Dialect) (w : World β)
    {lock : Locks.ScopedLock} {room : Locks.Room} (hprimary : link.primary = some primary)
    (hlock : link.lock = some lock)
    (hsource : Source good primary table schema rows link.blockSize)
    (hmirrors : ∀ i mirror, link.mirrors[i]? = some mirror →
      Target good schema table (dialects i) mirror)
    (hrows : rows.length + link.blockSize < 18446744073709551616)
    (hfree : (lock.acquire table).outcome w.room = (.ok true, room))
    (hgood : good { w with room := room }) :
    let report : SyncReport := {
      table := table
      mirrors := link.mirrors.length
      rows := rows.length
      blocks := (rows.length + link.blockSize - 1) / link.blockSize
      schemaOnly := false }
    ∃ (w' : World β) (record : Record),
      (link.resync table false).outcome w = (.ok report, w') ∧
      (link.recorded.resync table false).outcome (w.withRecord []) =
        (.ok report, w'.withRecord record) ∧
      ∀ i < link.mirrors.length, record.received (.mirror i) =
        [.dialect, .queryRaw ((dialects i).dropTable table true),
          .queryRaw ((dialects i).createTable schema)] ++
        (schema.indexes.map fun index => .queryRaw ((dialects i).createIndex table index)) ++
        rows.map fun row => .queryCount (.insert ⟨table, [row], blobColumns schema⟩) := by
  intro report
  have hzip : ∀ p ∈ link.mirrors.zipIdx, Target good schema table (dialects p.2) p.1 := by
    rintro ⟨mirror, i⟩ hp
    exact hmirrors i mirror (List.mem_zipIdx_iff_getElem?.mp hp)
  obtain ⟨w₁, record, hcopy, hcalls⟩ := outcome_copyTable hprimary hsource hzip
    (.of_lt link.blockSize_pos hrows) hgood []
  let freed := { w₁ with room := ((lock.release table).outcome w₁.room).2 }
  have hrecorded : (link.recorded.resync table false).outcome (w.withRecord []) =
      (.ok report, freed.withRecord record) := by
    have hacquire : (World.inRoom (lock.acquire table)).outcome (w.withRecord []) =
        (.ok true, World.withRecord { w with room := room } []) := by
      rw [World.outcome_inRoom_withRecord, hfree]
    have hlock' : link.recorded.lock = some lock := hlock
    rw [resync, hlock']
    refine (Call.outcome_bind_of_ok hacquire).trans ?_
    rw [if_pos rfl, Call.outcome_andThenAlways, hcopy, World.outcome_inRoom_withRecord]
    rfl
  obtain ⟨record', hplain⟩ := observes_resync link table false w []
  obtain ⟨hresult, hworld⟩ := Prod.mk.inj (hplain.symm.trans hrecorded)
  have hfreed : ((link.resync table false).outcome w).2 = freed :=
    congrArg World.unrecorded hworld
  exact ⟨freed, record, Prod.ext hresult hfreed, hrecorded, hcalls⟩

/-! ## Seven rows by three -/

/-- A mirror that is a database of plain tables. -/
def plainMirror (number : ShardId) : Connection (World RowTable.Tables) :=
  (RowTable.Reading.integers "id").connection number

theorem target_plainMirror (schema : TableSchema) (table : String) (number : ShardId) :
    Target (fun _ => True) schema table .sqlite (plainMirror number) where
  dialect := fun w _ => ⟨.sqlite, w, rfl, rfl, trivial⟩
  queryRaw := fun _ w _ => ⟨[], w, rfl, trivial, trivial⟩
  insert := fun _ _ _ => ⟨1, _, rfl, rfl, trivial⟩

/-- A primary that has a schema and answers out of a fixed list of rows. -/
def fixedPrimary (schema : TableSchema) (rows : List Row) :
    Connection (World RowTable.Tables) :=
  { plainMirror 0 with
    tableInfo := fun _ => pure schema
    queryRow := fun _ => pure (some ⟨[("count", .ofNat rows.length)]⟩)
    querySet := fun
      | .select q => pure ((rows.drop (q.offset.getD 0)).take (q.limit.getD rows.length))
      | _ => pure [] }

theorem source_fixedPrimary (schema : TableSchema) (table : String) (rows : List Row)
    (size : Nat) :
    Source (fun _ => True) (fixedPrimary schema rows) table schema rows size where
  tableInfo := fun w _ => ⟨schema, w, rfl, rfl, trivial⟩
  count := fun w _ => ⟨_, w, rfl, ⟨_, rfl, rfl⟩, trivial⟩
  block := fun _ w _ => ⟨_, w, rfl, rfl, trivial⟩

/-- Users with a key and an index. -/
def indexedUsers : TableSchema where
  name := "users"
  columns := [⟨"id", "INTEGER", false, none, true, false, false, none⟩,
    ⟨"name", "TEXT", true, none, false, false, false, none⟩]
  indexes := [⟨"by_name", ["name"], false⟩]

/-- Seven users. -/
def sevenUsers : List Row :=
  (List.range 7).map fun i => ⟨[("id", .ofNat i), ("name", .str "u")]⟩

/-- A primary with seven users and two mirrors, copied three rows at a time under a lock. -/
def sevenByThree : Replicated RowTable.Tables where
  primary := some (fixedPrimary indexedUsers sevenUsers)
  mirrors := [plainMirror 1, plainMirror 2]
  policy := .any
  cursor := 0
  lock := some ⟨.memory 0, "sync", Locks.defaultLifetime, 0⟩
  blockSize := 3
  blockSize_pos := by decide

/-- A world without rows in which no key is taken. -/
def unlockedWorld : World RowTable.Tables where
  room := ⟨0, 1, [], ⟨[], []⟩, [.empty], [[]]⟩
  cursors := []
  draws := []
  endpoints := fun _ _ => []

/-- Seven users reach both mirrors in three blocks. -/
theorem resync_copies_seven_by_three :
    ∃ (w' : World RowTable.Tables) (record : Record),
      (sevenByThree.resync "users" false).outcome unlockedWorld =
        (.ok ⟨"users", 2, 7, 3, false⟩, w') ∧
      (sevenByThree.recorded.resync "users" false).outcome (unlockedWorld.withRecord []) =
        (.ok ⟨"users", 2, 7, 3, false⟩, w'.withRecord record) ∧
      ∀ i < 2, record.received (.mirror i) =
        [.dialect, .queryRaw (Dialect.sqlite.dropTable "users" true),
          .queryRaw (Dialect.sqlite.createTable indexedUsers),
          .queryRaw (Dialect.sqlite.createIndex "users" ⟨"by_name", ["name"], false⟩)] ++
        sevenUsers.map fun row => .queryCount (.insert ⟨"users", [row], []⟩) := by
  have hmirrors : ∀ (i : Nat) (mirror : Connection (World RowTable.Tables)),
      sevenByThree.mirrors[i]? = some mirror →
      Target (fun _ => True) indexedUsers "users" .sqlite mirror := by
    intro i mirror hi
    have hmem : mirror ∈ sevenByThree.mirrors := List.mem_of_getElem? hi
    rw [sevenByThree, List.mem_cons, List.mem_singleton] at hmem
    obtain rfl | rfl := hmem
    · exact target_plainMirror ..
    · exact target_plainMirror ..
  have hblobs : blobColumns indexedUsers = [] := by cbv
  have hcopied := resync_copies_every_row sevenByThree (fun _ => .sqlite) unlockedWorld rfl rfl
    (source_fixedPrimary indexedUsers "users" sevenUsers 3) hmirrors (by decide) rfl trivial
  rw [hblobs] at hcopied
  exact hcopied

end Replicated

end SqlFederation
