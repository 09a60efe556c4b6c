import SqlFederation.Proofs.ResyncCopy
import SqlFederation.Proofs.ResyncLock

/-!
# How a resync ends

Here the primary counts its rows and gives blocks of the right size (`Replicated.Counts`), and the
mirrors fail nothing, but answer any number to an insert that copies a row (`Replicated.Accepts`).
What the blocks hold is left open. A resync then goes through if every mirror answers one, or if
there is nothing to copy; else the first mirror that answers another number ends it at the first row
(`Replicated.resync_ends`).
-/

namespace SqlFederation

/-- Does a call end in a given way in every good state, and leave a good state behind? -/
def Call.Ends {σ α : Type} (good : σ → Prop) (call : Call σ α) (result : Except Error α) : Prop :=
  ∀ s, good s → ∃ s', call.outcome s = (result, s') ∧ good s'

namespace Call

variable {σ α γ : Type} {good : σ → Prop} {call : Call σ α} {f : α → Call σ γ}
  {result : Except Error γ}

theorem ends_pure (a : α) : (pure a : Call σ α).Ends good (.ok a) :=
  fun s hs => ⟨s, rfl, hs⟩

theorem ends_fail (e : Error) : (fail e : Call σ α).Ends good (.error e) :=
  fun s hs => ⟨s, rfl, hs⟩

/-- Behind a call that goes through, the end is that of the rest. -/
theorem Ends.bind_ok {a : α} (h : call.Ends good (.ok a)) (hrest : (f a).Ends good result) :
    (call >>= f).Ends good result := by
  intro s hs
  obtain ⟨s₁, hcall, hs₁⟩ := h s hs
  obtain ⟨s₂, hend, hs₂⟩ := hrest s₁ hs₁
  exact ⟨s₂, (outcome_bind_of_ok hcall).trans hend, hs₂⟩

/-- A call that fails is the end. -/
theorem Ends.bind_error {e : Error} (h : call.Ends good (.error e)) :
    (call >>= f).Ends good (.error e) := by
  intro s hs
  obtain ⟨s₁, hcall, hs₁⟩ := h s hs
  exact ⟨s₁, outcome_bind_of_error hcall, hs₁⟩

/-- Behind a call that yields something, the end is the one that the rest has for all of it. -/
theorem Yields.bind {wanted : α → Prop} (h : call.Yields good wanted)
    (hrest : ∀ a, wanted a → (f a).Ends good result) : (call >>= f).Ends good result := by
  intro s hs
  obtain ⟨a, s₁, hcall, ha, hs₁⟩ := h s hs
  obtain ⟨s₂, hend, hs₂⟩ := hrest a ha s₁ hs₁
  exact ⟨s₂, (outcome_bind_of_ok hcall).trans hend, hs₂⟩

end Call

open Call (ends_pure ends_fail)

/-- What a call yields it yields under observation. -/
theorem World.yields_recording {β α ι : Type} {good : World β → Prop} {call : Call (World β) α}
    {wanted : α → Prop} (h : call.Yields good wanted) (label : ι) (received : Received) :
    (recording label received call).Yields (fun w => good w.unlogged) wanted := by
  intro w hw
  obtain ⟨a, w', hcall, ha, hw'⟩ := h w.unlogged hw
  refine ⟨a, w'.withLog (w.endpoints.2 ++ [(label, received)]), ?_, ha, hw'⟩
  rw [recording, Call.outcome_of, hcall]

namespace Replicated

variable {β : Type}

/-- A primary that counts the rows of a table and gives blocks of the right size. -/
structure Counts (good : World β → Prop) (primary : Connection (World β)) (table : String)
    (schema : TableSchema) (total size : Nat) : Prop where
  tableInfo : (primary.tableInfo table).Yields good fun s => s = schema
  count : (primary.queryRow (countQuery table)).Yields good fun row =>
    ∃ r, row = some r ∧ r.get? "count" = some (.ofNat total)
  /-- A block is as long as there are rows for it. -/
  block : ∀ offset, (primary.querySet (blockQuery schema table size offset)).Yields good
    fun block => block.length = min size (total - offset)

/-- A mirror that fails nothing and answers one number to each insert that copies a row. -/
structure Accepts (good : World β → Prop) (schema : TableSchema) (table : String)
    (mirror : Connection (World β)) (affected : Nat) : Prop where
  dialect : mirror.dialect.Yields good fun _ => True
  /-- Every statement other than a read runs. -/
  queryRaw : ∀ sql, isRead sql = false → (mirror.queryRaw sql).Yields good fun _ => True
  insert : ∀ row, (mirror.queryCount (copyQuery schema table row)).Yields good
    fun n => n = affected

section Observed

variable {ι : Type} {good : World β → Prop} {schema : TableSchema} {table : String}

/-- A primary counts under observation. -/
theorem Counts.recorded {primary : Connection (World β)} {total size : Nat}
    (h : Counts good primary table schema total size) (label : ι) :
    Counts (fun w => good w.unlogged) (primary.recorded label) table schema total size where
  tableInfo := World.yields_recording h.tableInfo _ _
  count := World.yields_recording h.count _ _
  block offset := World.yields_recording (h.block offset) _ _

/-- A mirror accepts under observation. -/
theorem Accepts.recorded {mirror : Connection (World β)} {affected : Nat}
    (h : Accepts good schema table mirror affected) (label : ι) :
    Accepts (fun w => good w.unlogged) schema table (mirror.recorded label) affected where
  dialect := World.yields_recording h.dialect _ _
  queryRaw sql hsql := World.yields_recording (h.queryRaw sql hsql) _ _
  insert row := World.yields_recording (h.insert row) _ _

theorem Source.counts {primary : Connection (World β)} {rows : List Row} {size : Nat}
    (h : Source good primary table schema rows size) :
    Counts good primary table schema rows.length size where
  tableInfo := h.tableInfo
  count := h.count
  block offset := by
    intro w hw
    obtain ⟨_, w', hcall, rfl, hw'⟩ := h.block offset w hw
    have hlength : ((rows.drop offset).take size).length = min size (rows.length - offset) := by
      rw [List.length_take, List.length_drop]
    exact ⟨_, w', hcall, hlength, hw'⟩

theorem Target.accepts {dialect : Dialect} {mirror : Connection (World β)}
    (h : Target good schema table dialect mirror) : Accepts good schema table mirror 1 where
  dialect := by
    intro w hw
    obtain ⟨d, w', hcall, -, hw'⟩ := h.dialect w hw
    exact ⟨d, w', hcall, trivial, hw'⟩
  queryRaw sql _ := h.queryRaw sql
  insert := h.insert

end Observed

/-- A statement that starts with a letter other than that of a read is none. -/
theorem isRead_append {front : String} {c : Char} (hfront : front.toList.head? = some c)
    (hblank : Text.isBlank c = false) (hletter : c.toLower ≠ 's') (back : String) :
    isRead (front ++ back) = false := by
  obtain ⟨rest, hrest⟩ := List.head?_eq_some_iff.mp hfront
  have htrim : Text.trimStart (c :: (rest ++ back.toList)) = c :: (rest ++ back.toList) := by
    rw [Text.trimStart, List.dropWhile_cons_of_neg (by simp [hblank])]
  rw [isRead, String.toList_append, hrest, List.cons_append, htrim, List.take_succ_cons,
    List.map_cons, beq_eq_false_iff_ne]
  exact fun h => hletter (List.cons.inj h).1

/-- A table is not made anew by reads. -/
theorem isRead_of_mem_rebuildStatements {dialect : Dialect} {schema : TableSchema}
    {table sql : String} (h : sql ∈ rebuildStatements dialect schema table) :
    isRead sql = false := by
  rw [rebuildStatements, List.mem_cons, List.mem_cons, List.mem_map] at h
  obtain rfl | rfl | ⟨index, -, rfl⟩ := h
  · rw [Dialect.dropTable, if_pos rfl, String.append_assoc]
    exact isRead_append (c := 'D') rfl rfl (by decide) _
  · rw [Dialect.createTable, String.append_assoc, String.append_assoc, String.append_assoc]
    exact isRead_append (c := 'C') rfl rfl (by decide) _
  · simp only [Dialect.createIndex, String.append_assoc]
    split
    · exact isRead_append (c := 'C') rfl rfl (by decide) _
    · exact isRead_append (c := 'C') rfl rfl (by decide) _

section Mirrors

variable {good : World β → Prop} {schema : TableSchema} {table : String}
  {mirrors : List (Connection (World β) × Nat)}

theorem ends_runAll {mirror : Connection (World β)} {affected : Nat}
    (h : Accepts good schema table mirror affected) {statements : List String}
    (hstatements : ∀ sql ∈ statements, isRead sql = false) :
    (runAll mirror statements).Ends good (.ok ()) := by
  induction statements with
  | nil => exact ends_pure ()
  | cons sql rest ih =>
    rw [List.forall_mem_cons] at hstatements
    exact (h.queryRaw sql hstatements.1).bind fun _ _ => ih hstatements.2

theorem ends_rebuild {mirror : Connection (World β)} {affected : Nat}
    (h : Accepts good schema table mirror affected) :
    (rebuild schema table mirror).Ends good (.ok ()) :=
  h.dialect.bind fun _ _ => ends_runAll h fun _ hsql => isRead_of_mem_rebuildStatements hsql

/-- Every mirror makes the table anew. -/
theorem ends_rebuildAll (h : ∀ p ∈ mirrors, Accepts good schema table p.1 p.2) :
    (Fanout.each (rebuild schema table) (mirrors.map Prod.fst)).Ends good (.ok ()) := by
  induction mirrors with
  | nil => exact ends_pure ()
  | cons p rest ih =>
    rw [List.forall_mem_cons] at h
    exact (ends_rebuild h.1).bind_ok (ih h.2)

/-- What becomes of a row: the first mirror that does not answer one ends the copy. -/
def rowResult (table : String) (answers : List Nat) : Except Error Unit :=
  match answers.find? (· != 1) with
  | none => .ok ()
  | some affected => .error (.racyInsert table affected)

/-- The mirrors receive a row, one after the other, up to the first that does not answer one. -/
theorem ends_copyRow (h : ∀ p ∈ mirrors, Accepts good schema table p.1 p.2) (row : Row) :
    (copyRow table (copyQuery schema table row) (mirrors.map Prod.fst)).Ends good
      (rowResult table (mirrors.map Prod.snd)) := by
  induction mirrors with
  | nil => exact ends_pure ()
  | cons p rest ih =>
    rw [List.forall_mem_cons] at h
    refine (h.1.insert row).bind fun n hn => ?_
    subst hn
    rw [rowResult, List.map_cons, List.find?_cons]
    by_cases hone : p.2 = 1
    · have hskip : (p.2 != 1) = false := by rw [hone]; rfl
      rw [if_pos hone, hskip]
      exact ih h.2
    · rw [if_neg hone, bne_iff_ne.mpr hone]
      exact ends_fail _

/-- Rows are copied as the first one is, and all of them if that one is. -/
theorem ends_copyRows (h : ∀ p ∈ mirrors, Accepts good schema table p.1 p.2) (rows : List Row) :
    (copyRows schema table (mirrors.map Prod.fst) rows).Ends good
      (if rows = [] then .ok () else rowResult table (mirrors.map Prod.snd)) := by
  induction rows with
  | nil => exact ends_pure ()
  | cons row rest ih =>
    have hrow := ends_copyRow h row
    rw [if_neg (List.cons_ne_nil row rest)]
    cases hresult : rowResult table (mirrors.map Prod.snd) with
    | error e =>
      rw [hresult] at hrow
      exact hrow.bind_error
    | ok _ =>
      rw [hresult] at hrow ih
      rw [ite_self] at ih
      exact hrow.bind_ok ih

end Mirrors

section Copy

variable {good : World β → Prop} {schema : TableSchema} {table : String} {link : Replicated β}
  {primary : Connection (World β)} {total : Nat} {answers : List Nat}

/-- The blocks from an offset on are copied, and counted, if each mirror answers one. -/
theorem ends_copyBlocks (hprimary : Counts good primary table schema total link.blockSize)
    (hcount : answers.length = link.mirrors.length)
    (hmirrors : ∀ p ∈ link.mirrors.zip answers, Accepts good schema table p.1 p.2)
    {laps offset : Nat} (hfit : OffsetsFit link.blockSize offset total)
    (hone : offset < total → rowResult table answers = .ok ()) (report : SyncReport) :
    (copyBlocks link primary schema table total laps offset report).Ends good (.ok { report with
      rows := report.rows + (total - offset)
      blocks := report.blocks + (total - offset + link.blockSize - 1) / link.blockSize }) := by
  have hpos := link.blockSize_pos
  have hfst : (link.mirrors.zip answers).map Prod.fst = link.mirrors :=
    List.map_fst_zip hcount.ge
  have hsnd : (link.mirrors.zip answers).map Prod.snd = answers :=
    List.map_snd_zip hcount.le
  -- The rows that are left become fewer with each block.
  induction hleft : total - offset using Nat.strongRecOn generalizing offset report with
  | ind left ih =>
    subst hleft
    by_cases hoffset : offset < total
    · rw [copyBlocks_of_lt _ _ _ _ _ hoffset, hfit.nextOffset?_eq hoffset]
      refine (hprimary.block offset).bind fun block hblock => ?_
      have hnonempty : ¬block.isEmpty = true := by
        rw [List.isEmpty_iff, ← List.length_eq_zero_iff]
        omega
      rw [if_neg hnonempty]
      have hrows := ends_copyRows hmirrors block
      rw [hfst, hsnd, hone hoffset, ite_self] at hrows
      have hrest := ih (total - (offset + link.blockSize)) (by omega) hfit.next
        (fun _ => hone hoffset)
        { report with rows := report.rows + block.length, blocks := report.blocks + 1 } rfl
      have hsum : report.rows + block.length + (total - (offset + link.blockSize)) =
          report.rows + (total - offset) := by omega
      have hblocks := blocks_succ hpos hoffset
      have hcounted : report.blocks + 1 +
          (total - (offset + link.blockSize) + link.blockSize - 1) / link.blockSize =
          report.blocks + (total - offset + link.blockSize - 1) / link.blockSize := by omega
      dsimp only at hrest
      rw [hsum, hcounted] at hrest
      exact hrows.bind_ok hrest
    · have hnone : total - offset = 0 := by omega
      rw [copyBlocks_of_not_lt _ _ _ _ _ hoffset, hnone, Nat.zero_add,
        Nat.div_eq_of_lt (Nat.sub_lt hpos Nat.one_pos)]
      exact ends_pure report

/-- The first row of the first block ends the copy if a mirror does not answer one. -/
theorem ends_copyBlocks_of_error (hprimary : Counts good primary table schema total link.blockSize)
    (hcount : answers.length = link.mirrors.length)
    (hmirrors : ∀ p ∈ link.mirrors.zip answers, Accepts good schema table p.1 p.2) {e : Error}
    (herror : rowResult table answers = .error e) {laps offset : Nat} (hoffset : offset < total)
    (report : SyncReport) :
    (copyBlocks link primary schema table total laps offset report).Ends good (.error e) := by
  have hpos := link.blockSize_pos
  rw [copyBlocks_of_lt _ _ _ _ _ hoffset]
  refine (hprimary.block offset).bind fun block hblock => ?_
  have hnonempty : block ≠ [] := by
    rw [← List.length_pos_iff]
    omega
  have hrows := ends_copyRows hmirrors block
  rw [List.map_fst_zip hcount.ge, List.map_snd_zip hcount.le, if_neg hnonempty, herror] at hrows
  rw [if_neg (by rwa [List.isEmpty_iff])]
  exact hrows.bind_error

/-- Making the table anew and counting come before the blocks, and go through. -/
theorem ends_copyTable (hprimary : link.primary = some primary)
    (hcounts : Counts good primary table schema total link.blockSize)
    (hcount : answers.length = link.mirrors.length)
    (hmirrors : ∀ p ∈ link.mirrors.zip answers, Accepts good schema table p.1 p.2)
    (hfit : BlocksFit link.blockSize total) {result : Except Error SyncReport}
    (hblocks : (copyBlocks link primary schema table total maxLaps 0
      ⟨table, link.mirrors.length, 0, 0, false⟩).Ends good result) :
    (link.copyTable table false).Ends good result := by
  have hsource : link.primary? = .ok primary := by rw [primary?, hprimary]
  have hrebuild := ends_rebuildAll hmirrors
  rw [List.map_fst_zip hcount.ge] at hrebuild
  rw [copyTable, hsource, Call.done_ok_bind]
  refine hcounts.tableInfo.bind fun s hs => ?_
  subst hs
  refine hrebuild.bind_ok ?_
  refine hcounts.count.bind fun row hrow => ?_
  rw [countIn_of_get? (hfit.total_le link.blockSize_pos) hrow]
  exact hblocks

/-- A resync whose lock is free ends as the copy does. -/
theorem resync_ends {lock : Locks.ScopedLock} (hlock : link.lock = some lock)
    {w : World β} {room : Locks.Room}
    (hfree : (lock.acquire table).outcome w.room = (.ok true, room))
    (hgood : good { w with room := room }) {result : Except Error SyncReport}
    (h : (link.copyTable table false).Ends good result) :
    ∃ w', (link.resync table false).outcome w = (result, w') := by
  obtain ⟨w', hcopy, -⟩ := h _ hgood
  rw [resync_eq hlock, World.outcome_guarding_of_taken hfree, hcopy]
  exact ⟨_, rfl⟩

end Copy

end Replicated

end SqlFederation
