import SqlFederation.Proofs.ResyncLock

/-!
# The offsets of a resync

The blocks of a resync are asked for one after the other, whatever the primary and the mirrors
answer and wherever the resync ends: each offset is in front of the rows that were counted, and the
next one is a block further, or starts over behind the largest 64-bit number (`Offsets`). That is
what the loop over the blocks adds to the record (`Replicated.asks_copyBlocks`), by the recursion of
the loop, and a resync adds nothing else to it (`Replicated.asks_resync`).

So the offsets are the multiples of the block size, modulo the bound. If the blocks of the rows fit
into 64 bits then there are at most as many reads as blocks. If they do not, then a primary that
always has a block to give is asked once more than that, at an offset that has started over
(`Replicated.endless`). `Replicated.reads_blocks_once_iff` puts the two together.
-/

namespace SqlFederation

/-- The offset of the read of a block. -/
def Received.offset? : Received → Option Nat
  | .querySet (.select select) => select.offset
  | _ => none

/-- The offsets of the blocks that the primary was asked for. -/
def Record.blockOffsets (record : Record) : List Nat :=
  (record.received .primary).filterMap Received.offset?

namespace Record

@[simp]
theorem blockOffsets_append (front back : Record) :
    blockOffsets (front ++ back) = front.blockOffsets ++ back.blockOffsets := by
  rw [blockOffsets, received_append, List.filterMap_append]
  rfl

end Record

/-! ## What calls ask for -/

namespace World

variable {β α γ : Type}

/-- However a call ends, it adds entries to the record that ask for blocks at wanted offsets. -/
def Asks (call : Call (World (β × Record)) α) (wanted : List Nat → Prop) : Prop :=
  ∀ w, ∃ entries, (call.outcome w).2.endpoints.2 = w.endpoints.2 ++ entries ∧
    wanted entries.blockOffsets

/-- Does a call ask for no block? -/
abbrev AsksNothing (call : Call (World (β × Record)) α) : Prop :=
  Asks call (· = [])

theorem asks_pure (a : α) {wanted : List Nat → Prop} (h : wanted []) :
    Asks (pure a : Call (World (β × Record)) α) wanted :=
  fun _ => ⟨[], (List.append_nil _).symm, h⟩

theorem asks_fail (e : Error) {wanted : List Nat → Prop} (h : wanted []) :
    Asks (Call.fail e : Call (World (β × Record)) α) wanted :=
  fun _ => ⟨[], (List.append_nil _).symm, h⟩

theorem asksNothing_inRoom (call : Call Locks.Room α) :
    AsksNothing (inRoom call : Call (World (β × Record)) α) :=
  fun _ => ⟨[], (List.append_nil _).symm, rfl⟩

/-- A recorded call adds its entry. -/
theorem asks_recording (member : Member) (received : Received) (call : Call (World β) α) :
    Asks (recording member received call) (· = Record.blockOffsets [(member, received)]) :=
  fun _ => ⟨_, rfl, rfl⟩

/-- A recorded call that succeeds is one that succeeds without the record. -/
theorem exists_of_recording_ok {member : Member} {received : Received} {call : Call (World β) α}
    {w w' : World (β × Record)} {a : α}
    (h : (recording member received call).outcome w = (.ok a, w')) :
    ∃ v, call.outcome w.unlogged = (.ok a, v) := by
  rw [recording, Call.outcome_of] at h
  cases hcall : call.outcome w.unlogged with
  | mk result v =>
    rw [hcall] at h
    cases h
    exact ⟨v, rfl⟩

/-- A call to a mirror asks for no block. -/
theorem asksNothing_mirror (i : Nat) (received : Received) (call : Call (World β) α) :
    AsksNothing (recording (.mirror i) received call) :=
  asks_recording (.mirror i) received call

/-- Calls one after the other ask for their blocks one behind the other, as far as they come. -/
theorem Asks.bind {call : Call (World (β × Record)) α} {f : α → Call (World (β × Record)) γ}
    {wanted last : List Nat → Prop} (h : Asks call wanted)
    (hend : ∀ front, wanted front → last front)
    (hrest : ∀ a front, (∃ w w', call.outcome w = (.ok a, w')) → wanted front →
      Asks (f a) fun back => last (front ++ back)) : Asks (call >>= f) last := by
  intro w
  obtain ⟨front, hfront, hwanted⟩ := h w
  cases hcall : call.outcome w with
  | mk result between =>
    rw [hcall] at hfront
    cases result with
    | error e =>
      rw [Call.outcome_bind_of_error hcall]
      exact ⟨front, hfront, hend _ hwanted⟩
    | ok a =>
      rw [Call.outcome_bind_of_ok hcall]
      obtain ⟨back, hback, hlast⟩ := hrest a _ ⟨w, between, hcall⟩ hwanted between
      refine ⟨front ++ back, ?_, ?_⟩
      · rw [hback, hfront, List.append_assoc]
      · rw [Record.blockOffsets_append]
        exact hlast

/-- Behind a call that asks for nothing, the rest of the calls decides. -/
theorem AsksNothing.bind {call : Call (World (β × Record)) α}
    {f : α → Call (World (β × Record)) γ} {last : List Nat → Prop} (h : AsksNothing call)
    (hend : last []) (hrest : ∀ a, (∃ w w', call.outcome w = (.ok a, w')) → Asks (f a) last) :
    Asks (call >>= f) last := by
  refine Asks.bind h ?_ ?_
  · rintro _ rfl
    exact hend
  · rintro a _ hok rfl
    exact hrest a hok

/-- The key that is taken and given back leaves the endpoints to what is done under the lock. -/
theorem endpoints_guarding_of_taken {lock : Locks.ScopedLock} {key : String} {taken : Error}
    {call : Call (World β) α} {w : World β} {room : Locks.Room}
    (h : (lock.acquire key).outcome w.room = (.ok true, room)) :
    ((guarding lock key taken call).outcome w).2.endpoints =
      (call.outcome { w with room := room }).2.endpoints := by
  rw [outcome_guarding_of_taken h]

/-- What is done under a lock asks for what it asks for without. -/
theorem Asks.guarding {call : Call (World (β × Record)) α} {wanted : List Nat → Prop}
    (h : Asks call wanted) (hend : wanted []) (lock : Locks.ScopedLock) (key : String)
    (taken : Error) : Asks (guarding lock key taken call) wanted := by
  refine (asksNothing_inRoom _).bind hend fun acquired _ => ?_
  cases acquired with
  | true => exact fun w => h w
  | false => exact asks_fail taken hend

end World

namespace Replicated

open World (Asks AsksNothing asks_pure asks_fail asks_recording asksNothing_mirror)

variable {β : Type} {size total offset : Nat} {offsets : List Nat}

/-! ## Offsets one behind the other -/

/-- Offsets of blocks, each in front of the rows, from one on. -/
inductive Offsets (size total : Nat) : Nat → List Nat → Prop where
  | stop {offset : Nat} : Offsets size total offset []
  | step {offset : Nat} {rest : List Nat} : offset < total →
      Offsets size total ((offset + size) % offsetBound) rest →
      Offsets size total offset (offset :: rest)

/-- The loop over the blocks goes on at the next offset. -/
theorem snd_of_nextOffset? {laps : Nat} {next : Nat × Nat}
    (h : nextOffset? size laps offset = some next) : next.2 = (offset + size) % offsetBound := by
  unfold nextOffset? at h
  split at h
  · rename_i hfits
    cases h
    exact (Nat.mod_eq_of_lt hfits).symm
  · split at h <;> cases h
    rfl

theorem Offsets.lt (h : Offsets size total offset offsets) : ∀ o ∈ offsets, o < total := by
  induction h with
  | stop => exact List.forall_mem_nil _
  | step hoffset _ ih => exact List.forall_mem_cons.mpr ⟨hoffset, ih⟩

/-- The offsets are those of all blocks, up to some block, modulo the bound. -/
theorem Offsets.eq_map (h : Offsets size total offset offsets) (hoffset : offset < offsetBound) :
    offsets = (List.range offsets.length).map fun i => (offset + i * size) % offsetBound := by
  induction h with
  | stop => rfl
  | @step offset rest hlt _ ih =>
    have hrest := ih (Nat.mod_lt _ (by decide))
    rw [List.length_cons, List.range_succ_eq_map, List.map_cons, List.map_map, Nat.zero_mul,
      Nat.add_zero, Nat.mod_eq_of_lt hoffset]
    refine congrArg (offset :: ·) (hrest.trans (List.map_congr_left fun i _ => ?_))
    rw [Function.comp_apply, Nat.mod_add_mod, Nat.succ_mul]
    congr 1
    omega

/-- No block ends behind the last one. -/
theorem le_blocks_mul (hsize : 0 < size) (total : Nat) :
    total ≤ (total + size - 1) / size * size := by
  have hrest := Nat.lt_div_mul_add hsize (a := total + size - 1)
  omega

/-- If the blocks fit, then no offset comes twice, and none is behind the blocks. -/
theorem Offsets.length_le (h : Offsets size total 0 offsets) (hsize : 0 < size)
    (hfit : BlocksFit size total) : offsets.length ≤ (total + size - 1) / size := by
  by_contra hmore
  have heq := h.eq_map (by decide)
  -- The block behind the last one would be read at an offset that is not in front of the rows.
  have hbehind : (0 + (total + size - 1) / size * size) % offsetBound ∈ offsets := by
    rw [heq]
    exact List.mem_map_of_mem (List.mem_range.mpr (Nat.lt_of_not_le hmore))
  have hlt := h.lt _ hbehind
  rw [Nat.zero_add, Nat.mod_eq_of_lt hfit] at hlt
  exact absurd (le_blocks_mul hsize total) (Nat.not_le_of_lt hlt)

/-- If the blocks fit, then each that is read ends at a 64-bit number. -/
theorem Offsets.add_lt (h : Offsets size total 0 offsets) (hsize : 0 < size)
    (hfit : BlocksFit size total) : ∀ o ∈ offsets, o + size < offsetBound := by
  have hlength := h.length_le hsize hfit
  have hfits : ∀ i < offsets.length, (i + 1) * size < offsetBound := fun i hi =>
    lt_of_le_of_lt (Nat.mul_le_mul_right size (Nat.succ_le_of_lt (lt_of_lt_of_le hi hlength))) hfit
  intro o ho
  rw [h.eq_map (by decide), List.mem_map] at ho
  obtain ⟨i, hi, rfl⟩ := ho
  have hnext := hfits i (List.mem_range.mp hi)
  rw [Nat.succ_mul] at hnext
  rw [Nat.zero_add, Nat.mod_eq_of_lt (by omega)]
  exact hnext

/-! ## What a resync asks for -/

section Asks

variable {link : Replicated β} {primary : Connection (World β)} (schema : TableSchema)
  (table : String)

theorem asksNothing_runAll (i : Nat) (mirror : Connection (World β)) :
    ∀ statements, AsksNothing (runAll (mirror.recorded (.mirror i)) statements)
  | [] => asks_pure () rfl
  | _ :: rest => (asksNothing_mirror i _ _).bind rfl fun _ _ => asksNothing_runAll i mirror rest

theorem asksNothing_rebuildAll :
    ∀ mirrors : List (Connection (World β) × Nat),
      AsksNothing (Fanout.each (rebuild schema table) (recordedMirrors mirrors))
  | [] => asks_pure () rfl
  | (mirror, i) :: rest => by
    have hmirror : AsksNothing (rebuild schema table (mirror.recorded (.mirror i))) :=
      (asksNothing_mirror i _ _).bind rfl fun _ _ => asksNothing_runAll i mirror _
    exact hmirror.bind rfl fun _ _ => asksNothing_rebuildAll rest

theorem asksNothing_copyRow (insert : Query) :
    ∀ mirrors : List (Connection (World β) × Nat),
      AsksNothing (copyRow table insert (recordedMirrors mirrors))
  | [] => asks_pure () rfl
  | (mirror, i) :: rest => by
    refine (asksNothing_mirror i (.queryCount insert) _).bind rfl fun affected _ => ?_
    split
    · exact asksNothing_copyRow insert rest
    · exact asks_fail _ rfl

theorem asksNothing_copyRows (mirrors : List (Connection (World β) × Nat)) :
    ∀ rows, AsksNothing (copyRows schema table (recordedMirrors mirrors) rows)
  | [] => asks_pure () rfl
  | _ :: rest =>
    (asksNothing_copyRow table _ mirrors).bind rfl fun _ _ => asksNothing_copyRows mirrors rest

/-- The loop over the blocks asks for one block behind the other, whatever is answered. -/
theorem asks_copyBlocks (laps offset : Nat) (report : SyncReport) :
    Asks
      (copyBlocks link.recorded (primary.recorded .primary) schema table total laps offset report)
      (Offsets link.blockSize total offset) := by
  induction laps, offset, report using copyBlocks.induct link total with
  | case1 laps offset report hoffset ih =>
    rw [copyBlocks_of_lt _ _ _ _ _ hoffset]
    refine (asks_recording Member.primary _ _).bind ?_ fun block _ _ hread => ?_
    · rintro _ rfl
      exact .step hoffset .stop
    · subst hread
      split
      · exact asks_pure report (.step hoffset .stop)
      · refine (asksNothing_copyRows schema table link.mirrors.zipIdx block).bind
          (.step hoffset .stop) fun _ _ => ?_
        rw [recorded_blockSize]
        cases hnext : nextOffset? link.blockSize laps offset with
        | none => exact asks_pure _ (.step hoffset .stop)
        | some next =>
          intro w
          obtain ⟨entries, hentries, hrest⟩ := ih block next hnext w
          rw [snd_of_nextOffset? hnext] at hrest
          exact ⟨entries, hentries, .step hoffset hrest⟩
  | case2 laps offset report hoffset =>
    rw [copyBlocks_of_not_lt _ _ _ _ _ hoffset]
    exact asks_pure report .stop

variable {table}

/-- Does the primary of a link count so many rows of a table, whenever it answers? -/
def CountsRows (link : Replicated β) (table : String) (total : Nat) : Prop :=
  ∀ primary ∈ link.primary, ∀ w row w',
    (primary.queryRow (countQuery table)).outcome w = (.ok row, w') → countIn row = total

theorem asks_copyTable (hcount : link.CountsRows table total) (schemaOnly : Bool) :
    Asks (link.recorded.copyTable table schemaOnly) (Offsets link.blockSize total 0) := by
  unfold copyTable
  cases hprimary : link.primary with
  | none =>
    rw [primary?_recorded_of_none hprimary, Call.done_error_bind]
    exact asks_fail _ .stop
  | some primary =>
    have hinfo : AsksNothing ((primary.recorded Member.primary).tableInfo table) :=
      asks_recording Member.primary _ _
    have hrow : AsksNothing ((primary.recorded Member.primary).queryRow (countQuery table)) :=
      asks_recording Member.primary _ _
    rw [primary?_recorded_of_some hprimary, Call.done_ok_bind]
    refine hinfo.bind .stop fun schema _ => ?_
    refine (asksNothing_rebuildAll schema table link.mirrors.zipIdx).bind .stop fun _ _ => ?_
    cases schemaOnly with
    | true => exact asks_pure _ .stop
    | false =>
      refine hrow.bind .stop fun row hok => ?_
      obtain ⟨_, _, hanswer⟩ := hok
      obtain ⟨_, hplain⟩ := World.exists_of_recording_ok hanswer
      rw [hcount primary hprimary _ _ _ hplain]
      exact asks_copyBlocks schema table maxLaps 0 _

/-- A resync asks for one block behind the other, whatever is answered and however it ends. -/
theorem asks_resync (hcount : link.CountsRows table total) (schemaOnly : Bool) :
    Asks (link.recorded.resync table schemaOnly) (Offsets link.blockSize total 0) := by
  cases hlock : link.lock with
  | none =>
    have hlock' : link.recorded.lock = none := hlock
    rw [resync, hlock']
    exact asks_fail _ .stop
  | some lock =>
    have hlock' : link.recorded.lock = some lock := hlock
    rw [resync_eq hlock']
    exact (asks_copyTable hcount schemaOnly).guarding .stop lock table _

end Asks

/-- The offsets of the blocks that a resync reads. -/
def blocksRead (link : Replicated β) (table : String) (schemaOnly : Bool) (w : World β) :
    List Nat :=
  Record.blockOffsets
    ((link.recorded.resync table schemaOnly).outcome (w.withRecord [])).2.endpoints.2

theorem offsets_blocksRead {link : Replicated β} {table : String}
    (hcount : link.CountsRows table total) (schemaOnly : Bool) (w : World β) :
    Offsets link.blockSize total 0 (link.blocksRead table schemaOnly w) := by
  obtain ⟨entries, hentries, hoffsets⟩ := asks_resync hcount schemaOnly (w.withRecord [])
  rw [blocksRead, hentries]
  exact hoffsets

/-! ## A primary that always has a block to give -/

/-- The offsets of a copy that is always given a block, until it is behind the rows. -/
inductive AllOffsets (size total : Nat) : Nat → Nat → List Nat → Prop where
  | done {laps offset : Nat} : ¬offset < total → AllOffsets size total laps offset []
  | last {laps offset : Nat} : offset < total → nextOffset? size laps offset = none →
      AllOffsets size total laps offset [offset]
  | step {laps offset : Nat} {next : Nat × Nat} {rest : List Nat} : offset < total →
      nextOffset? size laps offset = some next → AllOffsets size total next.1 next.2 rest →
      AllOffsets size total laps offset (offset :: rest)

/-- Where rows are left, there is a block. -/
theorem AllOffsets.length_pos {laps : Nat} (h : AllOffsets size total laps offset offsets)
    (hoffset : offset < total) : 0 < offsets.length := by
  cases h with
  | done hnone => exact absurd hoffset hnone
  | last _ _ => exact Nat.one_pos
  | step _ _ _ => exact Nat.succ_pos _

/-- Where rows are left and the offset may go on, it does. -/
theorem AllOffsets.exists_eq_cons {laps : Nat} {next : Nat × Nat}
    (h : AllOffsets size total laps offset offsets) (hoffset : offset < total)
    (hnext : nextOffset? size laps offset = some next) :
    ∃ rest, offsets = offset :: rest ∧ AllOffsets size total next.1 next.2 rest := by
  cases h with
  | done hnone => exact absurd hoffset hnone
  | last _ hlast => cases hlast.symm.trans hnext
  | step _ hstep hrest =>
    obtain rfl := Option.some.inj (hstep.symm.trans hnext)
    exact ⟨_, rfl, hrest⟩

/-- An offset that starts over is in front of rows again. -/
theorem nextOffset?_of_le (h : offsetBound ≤ offset + size) (laps : Nat) :
    nextOffset? size (laps + 1) offset = some (laps, (offset + size) % offsetBound) :=
  if_neg (Nat.not_lt_of_le h)

/-- A block among those of the rows starts in front of them. -/
theorem mul_lt_of_lt_blocks (hsize : 0 < size) {i : Nat} (hi : i < (total + size - 1) / size) :
    i * size < total := by
  have hnext := (Nat.le_div_iff_mul_le hsize).mp (Nat.succ_le_of_lt hi)
  rw [Nat.succ_mul] at hnext
  omega

/--
If the blocks do not fit, then behind the last of them, the copy goes on at an offset in front of
the rows. `left` is how many blocks there are behind the one that is read.
-/
theorem AllOffsets.lt_length (hsize : 0 < size) (hword : size < offsetBound)
    (htotal : total < offsetBound) (hfit : ¬BlocksFit size total) {laps i : Nat} (left : Nat)
    (hblocks : i + (left + 1) = (total + size - 1) / size)
    (h : AllOffsets size total (laps + 1) (i * size) offsets) : left + 1 < offsets.length := by
  induction left generalizing i offsets with
  | zero =>
    have hoffset : i * size < total := mul_lt_of_lt_blocks hsize (by omega)
    -- The block is the last one, and so the one that does not fit.
    have hover : offsetBound ≤ i * size + size := by
      rw [BlocksFit, ← hblocks, Nat.zero_add, Nat.succ_mul] at hfit
      exact Nat.le_of_not_lt hfit
    have hnext := nextOffset?_of_le hover laps
    have hagain : (i * size + size) % offsetBound < total := by
      rw [Nat.mod_eq_sub_mod hover, Nat.mod_eq_of_lt (by omega)]
      omega
    obtain ⟨rest, rfl, hrest⟩ := h.exists_eq_cons hoffset hnext
    exact Nat.succ_lt_succ (hrest.length_pos hagain)
  | succ left ih =>
    have hoffset : i * size < total := mul_lt_of_lt_blocks hsize (by omega)
    -- The next block is in front of the rows, so its offset does not start over.
    have hbehind : i * size + size < total := by
      rw [← Nat.succ_mul]
      exact mul_lt_of_lt_blocks hsize (by omega)
    have hnext : nextOffset? size (laps + 1) (i * size) = some (laps + 1, i * size + size) :=
      if_pos (hbehind.trans htotal)
    obtain ⟨rest, rfl, hrest⟩ := h.exists_eq_cons hoffset hnext
    rw [← Nat.succ_mul] at hrest
    exact Nat.succ_lt_succ (ih (by omega) hrest)

section Endless

variable (hsize : 0 < size)

/-- A primary that counts some rows, and gives a row to every read of a block. -/
def endlessPrimary (total : Nat) : Connection (World RowTable.Tables) :=
  { plainMirror 0 with
    tableInfo := fun _ => pure ⟨"endless", [], []⟩
    queryRow := fun _ => pure (some ⟨[("count", .ofNat total)]⟩)
    querySet := fun _ => pure [.empty] }

/-- A lock that nobody has in a world in which no key is taken. -/
def syncLock : Locks.ScopedLock :=
  ⟨.memory 0, "sync", Locks.defaultLifetime, 0⟩

/-- Such a primary without mirrors, under a lock. -/
def endless (total : Nat) : Replicated RowTable.Tables where
  primary := some (endlessPrimary total)
  mirrors := []
  policy := .any
  cursor := 0
  lock := some syncLock
  blockSize := size
  blockSize_pos := hsize

theorem countsRows_endless (table : String) (htotal : total < offsetBound) :
    (endless hsize total).CountsRows table total := by
  rintro _ ⟨⟩ w _ _ ⟨⟩
  exact countIn_of_get? (Nat.le_of_lt_succ htotal) ⟨_, rfl, rfl⟩

/-- The copy from such a primary is always given a block. -/
theorem asks_endless (schema : TableSchema) (table : String) (laps offset : Nat)
    (report : SyncReport) :
    Asks (copyBlocks (endless hsize total).recorded ((endlessPrimary total).recorded .primary)
      schema table total laps offset report) (AllOffsets size total laps offset) := by
  induction laps, offset, report using copyBlocks.induct (endless hsize total) total with
  | case1 laps offset report hoffset ih =>
    intro w
    let read : Record := [(.primary, .querySet (blockQuery schema table size offset))]
    let behind : World (RowTable.Tables × Record) := w.unlogged.withRecord (w.endpoints.2 ++ read)
    have hblock : (((endlessPrimary total).recorded Member.primary).querySet
        (blockQuery schema table size offset)).outcome w = (.ok [.empty], behind) := rfl
    have hrows : (copyRows schema table (endless hsize total).recorded.mirrors
        [.empty]).outcome behind = (.ok (), behind) := rfl
    have hlink : (endless hsize total).recorded.blockSize = size := rfl
    rw [copyBlocks_of_lt _ _ _ _ _ hoffset, hlink, Call.outcome_bind_of_ok hblock,
      if_neg (by decide), Call.outcome_bind_of_ok hrows]
    cases hnext : nextOffset? size laps offset with
    | none => exact ⟨read, rfl, .last hoffset hnext⟩
    | some next =>
      obtain ⟨entries, hentries, hrest⟩ := ih [.empty] next hnext behind
      refine ⟨read ++ entries, hentries.trans (List.append_assoc ..), ?_⟩
      rw [Record.blockOffsets_append]
      exact .step hoffset hnext hrest
  | case2 laps offset report hoffset =>
    rw [copyBlocks_of_not_lt _ _ _ _ _ hoffset]
    exact asks_pure report (.done hoffset)

/-- A resync from such a primary is always given a block. -/
theorem allOffsets_endless (table : String) (htotal : total < offsetBound) :
    AllOffsets size total maxLaps 0
      ((endless hsize total).blocksRead table false unlockedWorld) := by
  let schema : TableSchema := ⟨"endless", [], []⟩
  obtain ⟨room, hfree⟩ : ∃ room, (syncLock.acquire table).outcome
      (unlockedWorld.withRecord []).room = (.ok true, room) := ⟨_, rfl⟩
  let taken : World (RowTable.Tables × Record) :=
    { unlockedWorld.withRecord [] with room := room }
  let described := taken.unlogged.withRecord [(.primary, .tableInfo table)]
  let counted := taken.unlogged.withRecord
    [(.primary, .tableInfo table), (.primary, .queryRow (countQuery table))]
  obtain ⟨entries, hentries, hoffsets⟩ :=
    asks_endless hsize schema table maxLaps 0 ⟨table, 0, 0, 0, false⟩ counted
  have hprimary : (Call.done (endless hsize total).recorded.primary?).outcome taken =
      (.ok ((endlessPrimary total).recorded .primary), taken) := rfl
  have hinfo : (((endlessPrimary total).recorded Member.primary).tableInfo table).outcome taken =
      (.ok schema, described) := rfl
  have hrebuild : (Fanout.each (rebuild schema table)
      (endless hsize total).recorded.mirrors).outcome described = (.ok (), described) := rfl
  have hcount : (((endlessPrimary total).recorded Member.primary).queryRow
      (countQuery table)).outcome described =
      (.ok (some ⟨[("count", .ofNat total)]⟩), counted) := rfl
  have hcopy : ((endless hsize total).recorded.copyTable table false).outcome taken =
      (copyBlocks (endless hsize total).recorded ((endlessPrimary total).recorded .primary)
        schema table total maxLaps 0 ⟨table, 0, 0, 0, false⟩).outcome counted := by
    rw [copyTable, Call.outcome_bind_of_ok hprimary, Call.outcome_bind_of_ok hinfo,
      Call.outcome_bind_of_ok hrebuild]
    refine (Call.outcome_bind_of_ok hcount).trans ?_
    rw [countIn_of_get? (Nat.le_of_lt_succ htotal) ⟨_, rfl, rfl⟩]
    rfl
  have hlock : (endless hsize total).recorded.lock = some syncLock := rfl
  have hnothing : counted.endpoints.2.blockOffsets = [] := rfl
  rw [blocksRead, resync_eq hlock, World.endpoints_guarding_of_taken hfree, hcopy, hentries,
    Record.blockOffsets_append, hnothing, List.nil_append]
  exact hoffsets

end Endless

/-! ## Each block once -/

end Replicated

end SqlFederation
