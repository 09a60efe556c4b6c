import SqlFederation.Proofs.BlockBorders
import SqlFederation.Proofs.ResyncEnds

/-!
# What a resync has done

Nothing is said here about whether a resync goes through, only about its log if it does. A mirror
under observation passes each statement on to some ends, one after the other (`Outlet.Passes`); a
plain mirror is its own end, a composition has several. The primary is known by the blocks that it
may give (`Replicated.Pages`). Each stage of a resync then leaves its own entries behind the log
(`World.Logs`): every end of a mirror receives the statements that make the table anew, in the
dialect of that mirror, and one insert for each row of the blocks (`Replicated.logs_copyTable`).
-/

namespace SqlFederation

/-- Does a call that goes through in a good state give a wanted value, in a good state again? -/
def Call.Gives {σ α : Type} (good : σ → Prop) (call : Call σ α) (wanted : α → Prop) : Prop :=
  ∀ s a s', good s → call.outcome s = (.ok a, s') → wanted a ∧ good s'

theorem Call.gives_pure {σ α : Type} {good : σ → Prop} {a : α} {wanted : α → Prop}
    (h : wanted a) : (pure a : Call σ α).Gives good wanted := by
  rintro s _ _ hs ⟨⟩
  exact ⟨h, hs⟩

/-- The calls of a log under a label. -/
def CallLog.received {ι : Type} [DecidableEq ι] (log : CallLog ι) (label : ι) : List Received :=
  log.filterMap fun (l, call) => if l = label then some call else none

namespace CallLog

variable {ι : Type} [DecidableEq ι]

@[simp]
theorem received_append (front back : CallLog ι) (label : ι) :
    received (front ++ back) label = received front label ++ received back label :=
  List.filterMap_append ..

/-- A call to some ends is received by each of them, as often as it is one of them. -/
theorem received_map (ends : List ι) (call : Received) (label : ι) :
    received (ends.map fun l => (l, call)) label = List.replicate (ends.count label) call := by
  induction ends with
  | nil => rfl
  | cons l rest ih =>
    rw [List.map_cons, received, List.filterMap_cons, List.count_cons]
    by_cases h : l = label
    · subst h
      simp only [if_true, beq_self_eq_true, List.replicate_succ]
      exact congrArg (call :: ·) ih
    · have hne : (l == label) = false := beq_false_of_ne h
      simp only [if_neg h, hne, Bool.false_eq_true, if_false, Nat.add_zero]
      exact ih

/-- A call to somebody else is not received. -/
theorem received_of_ne {other label : ι} (h : other ≠ label) (call : Received) :
    received [(other, call)] label = [] := by
  have hnot : label ∉ [other] := by simpa using Ne.symm h
  have hnone := received_map [other] call label
  rwa [List.count_eq_zero.mpr hnot] at hnone

/-- An end that occurs once receives each of some calls once, in their order. -/
theorem received_flatMap {γ : Type} {ends : List ι} {label : ι} (h : ends.count label = 1)
    (items : List γ) (call : γ → Received) :
    received (items.flatMap fun item => ends.map fun l => (l, call item)) label =
      items.map call := by
  induction items with
  | nil => rfl
  | cons item rest ih =>
    rw [List.flatMap_cons, received_append, received_map, h, ih]
    rfl

/-- Who is not among the ends receives nothing. -/
theorem received_flatMap_of_not_mem {γ : Type} {ends : List ι} {label : ι} (h : label ∉ ends)
    (items : List γ) (call : γ → Received) :
    received (items.flatMap fun item => ends.map fun l => (l, call item)) label = [] := by
  induction items with
  | nil => rfl
  | cons item rest ih =>
    rw [List.flatMap_cons, received_append, received_map, List.count_eq_zero.mpr h, ih]
    rfl

end CallLog

namespace World

variable {β ι α γ : Type} {good : World β → Prop}

/-- Does a call that goes through in a good world leave wanted entries behind the log? -/
def Logs (good : World β → Prop) (call : Call (World (β × CallLog ι)) α)
    (wanted : α → CallLog ι → Prop) : Prop :=
  ∀ w a w', good w.unlogged → call.outcome w = (.ok a, w') →
    good w'.unlogged ∧ ∃ entries, w'.endpoints.2 = w.endpoints.2 ++ entries ∧ wanted a entries

theorem Logs.imp {call : Call (World (β × CallLog ι)) α} {wanted other : α → CallLog ι → Prop}
    (h : Logs good call wanted) (himp : ∀ a entries, wanted a entries → other a entries) :
    Logs good call other := by
  intro w a w' hw hcall
  obtain ⟨hw', entries, hlog, hwanted⟩ := h w a w' hw hcall
  exact ⟨hw', entries, hlog, himp a entries hwanted⟩

theorem logs_pure {a : α} {wanted : α → CallLog ι → Prop} (h : wanted a []) :
    Logs good (pure a : Call (World (β × CallLog ι)) α) wanted := by
  rintro w _ _ hw ⟨⟩
  exact ⟨hw, [], (List.append_nil _).symm, h⟩

theorem logs_fail (e : Error) (wanted : α → CallLog ι → Prop) :
    Logs good (Call.fail e : Call (World (β × CallLog ι)) α) wanted := by
  rintro _ _ _ _ ⟨⟩

/-- Calls one after the other leave their entries one behind the other. -/
theorem Logs.bind {call : Call (World (β × CallLog ι)) α}
    {f : α → Call (World (β × CallLog ι)) γ} {wanted : α → CallLog ι → Prop}
    {last : γ → CallLog ι → Prop} (h : Logs good call wanted)
    (hrest : ∀ a front, wanted a front →
      Logs good (f a) fun c back => last c (front ++ back)) :
    Logs good (call >>= f) last := by
  intro w c w' hw hboth
  obtain ⟨a, between, hcall, hf⟩ := Call.exists_of_bind_ok hboth
  obtain ⟨hbetween, front, hfront, ha⟩ := h w a between hw hcall
  obtain ⟨hw', back, hback, hc⟩ := hrest a front ha between c w' hbetween hf
  exact ⟨hw', front ++ back, by rw [hback, hfront, List.append_assoc], hc⟩

/-- A recorded call leaves one entry. -/
theorem logs_recording {call : Call (World β) α} {wanted : α → Prop}
    (h : call.Gives good wanted) (label : ι) (received : Received) :
    Logs good (recording label received call) fun a entries =>
      wanted a ∧ entries = [(label, received)] := by
  intro w a w' hw hcall
  rw [recording, Call.outcome_of] at hcall
  cases hplain : call.outcome w.unlogged with
  | mk result after =>
    rw [hplain] at hcall
    cases hcall
    obtain ⟨ha, hafter⟩ := h _ _ _ hw hplain
    exact ⟨hafter, _, rfl, ha, rfl⟩

/-- Under a lock that is taken, a call leaves its entries, and to give the lock back none. -/
theorem Logs.of_taken {call : Call (World (β × CallLog ι)) α} {wanted : α → CallLog ι → Prop}
    (h : Logs good call wanted) {lock : Locks.ScopedLock} {key : String} {taken : Error}
    {w w' : World (β × CallLog ι)} {room : Locks.Room} {a : α}
    (hfree : (lock.acquire key).outcome w.room = (.ok true, room))
    (hgood : good { w.unlogged with room := room })
    (hrun : (guarding lock key taken call).outcome w = (.ok a, w')) :
    ∃ room', good { w'.unlogged with room := room' } ∧
      ∃ entries, w'.endpoints.2 = w.endpoints.2 ++ entries ∧ wanted a entries := by
  rw [outcome_guarding_of_taken hfree] at hrun
  cases hcall : call.outcome { w with room := room } with
  | mk result after =>
    rw [hcall] at hrun
    cases hrun
    obtain ⟨hafter, hentries⟩ := h { w with room := room } a after hgood hcall
    exact ⟨after.room, hafter, hentries⟩

/-- Where the state of locks does not matter, a call leaves its entries under any lock. -/
theorem Logs.guarding (hroom : ∀ w room, good w → good { w with room := room })
    {call : Call (World (β × CallLog ι)) α} {wanted : α → CallLog ι → Prop}
    (h : Logs good call wanted) (lock : Locks.ScopedLock) (key : String) (taken : Error) :
    Logs good (guarding lock key taken call) wanted := by
  intro w a w' hw hrun
  cases hacquire : (lock.acquire key).outcome w.room with
  | mk result room =>
    cases result with
    | error e =>
      rw [outcome_guarding_of_error hacquire] at hrun
      cases hrun
    | ok answer =>
      cases answer with
      | false =>
        rw [outcome_guarding_of_held hacquire] at hrun
        cases hrun
      | true =>
        obtain ⟨room', hgood, hentries⟩ := h.of_taken hacquire (hroom w.unlogged room hw) hrun
        exact ⟨hroom _ w'.room hgood, hentries⟩

end World

open Sorting (Blocks)
open World (Logs logs_pure logs_fail logs_recording)

/-- A mirror under observation, and the links behind it that are observed. -/
structure Outlet (β ι : Type) where
  connection : Connection (World (β × CallLog ι))
  /-- Who is asked for the dialect. -/
  speaker : ι
  /-- Whom statements and inserts reach, in this order. -/
  ends : List ι

namespace Outlet

variable {β ι : Type}

/-- A mirror that passes statements and inserts on to each of its ends. -/
structure Passes (good : World β → Prop) (schema : TableSchema) (table : String)
    (outlet : Outlet β ι) : Prop where
  dialect : Logs good outlet.connection.dialect fun _ entries =>
    entries = [(outlet.speaker, .dialect)]
  queryRaw : ∀ sql, Replicated.isRead sql = false →
    Logs good (outlet.connection.queryRaw sql) fun _ entries =>
      entries = outlet.ends.map fun l => (l, .queryRaw sql)
  insert : ∀ row,
    Logs good (outlet.connection.queryCount (Replicated.copyQuery schema table row))
      fun _ entries =>
        entries = outlet.ends.map fun l => (l, .queryCount (Replicated.copyQuery schema table row))

/-- The entries of a mirror that makes the table anew. -/
def rebuildEntries (outlet : Outlet β ι) (dialect : Dialect) (schema : TableSchema)
    (table : String) : CallLog ι :=
  (outlet.speaker, .dialect) :: (Replicated.rebuildStatements dialect schema table).flatMap
    fun sql => outlet.ends.map fun l => (l, .queryRaw sql)

/-- What an end of a mirror receives when the table is made anew. -/
def rebuiltCalls [DecidableEq ι] (outlet : Outlet β ι) (dialect : Dialect) (schema : TableSchema)
    (table : String) (label : ι) : List Received :=
  (if outlet.speaker = label then [.dialect] else []) ++
    (Replicated.rebuildStatements dialect schema table).map .queryRaw

variable [DecidableEq ι] {outlet : Outlet β ι} {label : ι}

theorem received_speaker (outlet : Outlet β ι) (rest : CallLog ι) (label : ι) :
    CallLog.received ((outlet.speaker, .dialect) :: rest) label =
      (if outlet.speaker = label then [.dialect] else []) ++ CallLog.received rest label := by
  rw [CallLog.received, List.filterMap_cons]
  dsimp only
  by_cases h : outlet.speaker = label
  · rw [if_pos h, if_pos h]
    rfl
  · rw [if_neg h, if_neg h]
    rfl

theorem received_rebuildEntries (hnodup : outlet.ends.Nodup) (hlabel : label ∈ outlet.ends)
    (dialect : Dialect) (schema : TableSchema) (table : String) :
    CallLog.received (outlet.rebuildEntries dialect schema table) label =
      outlet.rebuiltCalls dialect schema table label := by
  rw [rebuildEntries, received_speaker,
    CallLog.received_flatMap (List.count_eq_one_of_mem hnodup hlabel) _ .queryRaw, rebuiltCalls]

theorem received_rebuildEntries_of_not_mem (hspeaker : outlet.speaker ∈ outlet.ends)
    (hlabel : label ∉ outlet.ends) (dialect : Dialect) (schema : TableSchema) (table : String) :
    CallLog.received (outlet.rebuildEntries dialect schema table) label = [] := by
  have hne : outlet.speaker ≠ label := fun h => hlabel (h ▸ hspeaker)
  rw [rebuildEntries, received_speaker, if_neg hne,
    CallLog.received_flatMap_of_not_mem hlabel _ .queryRaw, List.nil_append]

end Outlet

namespace Replicated

variable {β ι : Type} {good : World β → Prop} {schema : TableSchema} {table : String}

theorem logs_runAll {outlet : Outlet β ι} (h : outlet.Passes good schema table)
    {statements : List String} (hstatements : ∀ sql ∈ statements, isRead sql = false) :
    Logs good (runAll outlet.connection statements) fun _ entries =>
      entries = statements.flatMap fun sql => outlet.ends.map fun l => (l, .queryRaw sql) := by
  induction statements with
  | nil => exact logs_pure rfl
  | cons sql rest ih =>
    rw [List.forall_mem_cons] at hstatements
    refine (h.queryRaw sql hstatements.1).bind fun _ front hfront => ?_
    refine (ih hstatements.2).imp fun _ back hback => ?_
    rw [hfront, hback, List.flatMap_cons]

/-- A mirror is asked for its dialect, and passes on the statements that make the table anew. -/
theorem logs_rebuild {outlet : Outlet β ι} (h : outlet.Passes good schema table) :
    Logs good (rebuild schema table outlet.connection) fun _ entries =>
      ∃ dialect, entries = outlet.rebuildEntries dialect schema table := by
  refine h.dialect.bind fun dialect front hfront => ?_
  have hstatements : ∀ sql ∈ rebuildStatements dialect schema table, isRead sql = false :=
    fun _ hsql => isRead_of_mem_rebuildStatements hsql
  refine (logs_runAll h hstatements).imp fun _ back hback => ⟨dialect, ?_⟩
  rw [hfront, hback]
  rfl

section Outlets

variable [DecidableEq ι] {outlets : List (Outlet β ι)}

/-- Every end receives the statements of its own mirror, and nobody else receives any. -/
theorem logs_rebuildAll (h : ∀ outlet ∈ outlets, outlet.Passes good schema table)
    (hspeakers : ∀ outlet ∈ outlets, outlet.speaker ∈ outlet.ends)
    (hnodup : (outlets.flatMap Outlet.ends).Nodup) :
    Logs good (Fanout.each (rebuild schema table) (outlets.map Outlet.connection))
      fun _ entries =>
        (∀ outlet ∈ outlets, ∃ dialect, ∀ label ∈ outlet.ends,
          CallLog.received entries label = outlet.rebuiltCalls dialect schema table label) ∧
        ∀ label ∉ outlets.flatMap Outlet.ends, CallLog.received entries label = [] := by
  induction outlets with
  | nil => exact logs_pure ⟨fun _ h => absurd h List.not_mem_nil, fun _ _ => rfl⟩
  | cons outlet rest ih =>
    rw [List.forall_mem_cons] at h hspeakers
    rw [List.flatMap_cons, List.nodup_append] at hnodup
    obtain ⟨hown, hrest, hapart⟩ := hnodup
    refine (logs_rebuild h.1).bind fun _ front ⟨dialect, hfront⟩ => ?_
    refine (ih h.2 hspeakers.2 hrest).imp fun _ back ⟨hback, hnone⟩ => ⟨?_, ?_⟩
    · refine List.forall_mem_cons.mpr ⟨⟨dialect, fun label hlabel => ?_⟩, fun other hother => ?_⟩
      · have hnot : label ∉ rest.flatMap Outlet.ends :=
          fun hmem => hapart label hlabel label hmem rfl
        rw [CallLog.received_append, hfront, Outlet.received_rebuildEntries hown hlabel,
          hnone label hnot, List.append_nil]
      · obtain ⟨otherDialect, hcalls⟩ := hback other hother
        refine ⟨otherDialect, fun label hlabel => ?_⟩
        have hmem : label ∈ rest.flatMap Outlet.ends := List.mem_flatMap.mpr ⟨other, hother, hlabel⟩
        have hnot : label ∉ outlet.ends := fun hin => hapart label hin label hmem rfl
        rw [CallLog.received_append, hfront,
          Outlet.received_rebuildEntries_of_not_mem hspeakers.1 hnot, List.nil_append,
          hcalls label hlabel]
    · intro label hlabel
      rw [List.flatMap_cons, List.mem_append, not_or] at hlabel
      rw [CallLog.received_append, hfront,
        Outlet.received_rebuildEntries_of_not_mem hspeakers.1 hlabel.1, hnone label hlabel.2]
      rfl

omit [DecidableEq ι] in
/-- A row that is copied reaches every end once. -/
theorem logs_copyRow (h : ∀ outlet ∈ outlets, outlet.Passes good schema table) (row : Row) :
    Logs good (copyRow table (copyQuery schema table row) (outlets.map Outlet.connection))
      fun _ entries => entries = (outlets.flatMap Outlet.ends).map fun l =>
        (l, .queryCount (copyQuery schema table row)) := by
  induction outlets with
  | nil => exact logs_pure rfl
  | cons outlet rest ih =>
    rw [List.forall_mem_cons] at h
    refine (h.1.insert row).bind fun affected front hfront => ?_
    split
    · refine (ih h.2).imp fun _ back hback => ?_
      rw [hfront, hback, List.flatMap_cons, List.map_append]
    · exact logs_fail _ _

omit [DecidableEq ι] in
/-- Rows that are copied reach every end, one row after the other. -/
theorem logs_copyRows (h : ∀ outlet ∈ outlets, outlet.Passes good schema table)
    (rows : List Row) :
    Logs good (copyRows schema table (outlets.map Outlet.connection) rows)
      fun _ entries => entries = rows.flatMap fun row => (outlets.flatMap Outlet.ends).map fun l =>
        (l, .queryCount (copyQuery schema table row)) := by
  induction rows with
  | nil => exact logs_pure rfl
  | cons row rest ih =>
    refine (logs_copyRow h row).bind fun _ front hfront => ?_
    refine ih.imp fun _ back hback => ?_
    rw [hfront, hback, List.flatMap_cons]

end Outlets

/-- A primary that counts the rows of a table and gives one of some possible blocks each time. -/
structure Pages (good : World β → Prop) (primary : Connection (World β)) (table : String)
    (schema : TableSchema) (total size : Nat) (page : Nat → List Row → Prop) : Prop where
  tableInfo : (primary.tableInfo table).Gives good fun s => s = schema
  count : (primary.queryRow (countQuery table)).Gives good fun row =>
    ∃ r, row = some r ∧ r.get? "count" = some (.ofNat total)
  block : ∀ offset, (primary.querySet (blockQuery schema table size offset)).Gives good
    (page offset)

section Copy

variable [DecidableEq ι] {outlets : List (Outlet β ι)} {link : Replicated (β × CallLog ι)}
  {primary : Connection (World β)} {source : ι} {total : Nat} {page : Nat → List Row → Prop}

/-- Every end receives the rows of the blocks from an offset on, each block once. -/
theorem logs_copyBlocks (hprimary : Pages good primary table schema total link.blockSize page)
    (hnonempty : ∀ offset block, offset < total → page offset block → block ≠ [])
    (hlink : link.mirrors = outlets.map Outlet.connection)
    (houtlets : ∀ outlet ∈ outlets, outlet.Passes good schema table)
    (hnodup : (outlets.flatMap Outlet.ends).Nodup) (hsource : source ∉ outlets.flatMap Outlet.ends)
    {laps offset : Nat} (hfit : OffsetsFit link.blockSize offset total) (report : SyncReport) :
    Logs good (copyBlocks link (primary.recorded source) schema table total laps offset report)
      fun result entries => ∃ copied, Blocks page total link.blockSize offset copied ∧
        result.rows = report.rows + copied.length ∧
        ∀ label ∈ outlets.flatMap Outlet.ends, CallLog.received entries label =
          copied.map fun row => .queryCount (copyQuery schema table row) := by
  induction laps, offset, report using copyBlocks.induct link total with
  | case1 laps offset report hoffset ih =>
    have hnext := hfit.nextOffset?_eq hoffset laps
    rw [copyBlocks_of_lt _ _ _ _ _ hoffset, hnext]
    refine (logs_recording (hprimary.block offset) source _).bind fun block front hread => ?_
    obtain ⟨hblock, hfront⟩ := hread
    have hfilled : ¬block.isEmpty = true := by
      rw [List.isEmpty_iff]
      exact hnonempty offset block hoffset hblock
    rw [if_neg hfilled, hlink]
    refine (logs_copyRows houtlets block).bind fun _ rows hrows => ?_
    refine (ih block _ hnext hfit.next).imp fun result back hback => ?_
    obtain ⟨copied, hcopied, hresult, hcalls⟩ := hback
    refine ⟨block ++ copied, .step hoffset hblock hcopied, ?_, fun label hlabel => ?_⟩
    · rw [hresult, List.length_append, Nat.add_assoc]
    · have hone : (outlets.flatMap Outlet.ends).count label = 1 :=
        List.count_eq_one_of_mem hnodup hlabel
      have hne : source ≠ label := fun h => hsource (h ▸ hlabel)
      -- The read of the block goes to the primary, and to no end.
      rw [CallLog.received_append, CallLog.received_append, hfront, CallLog.received_of_ne hne,
        hrows, CallLog.received_flatMap hone, hcalls label hlabel, List.nil_append,
        List.map_append]
  | case2 laps offset report hoffset =>
    rw [copyBlocks_of_not_lt _ _ _ _ _ hoffset]
    exact logs_pure ⟨[], .done (Nat.le_of_not_lt hoffset), rfl, fun _ _ => rfl⟩

/--
What each end of each mirror has received when a table was copied: the statements that make the
table anew, and one insert for each row of the blocks.
-/
theorem logs_copyTable (hsome : link.primary = some (primary.recorded source))
    (hprimary : Pages good primary table schema total link.blockSize page)
    (hnonempty : ∀ offset block, offset < total → page offset block → block ≠ [])
    (hfit : BlocksFit link.blockSize total)
    (hlink : link.mirrors = outlets.map Outlet.connection)
    (houtlets : ∀ outlet ∈ outlets, outlet.Passes good schema table)
    (hspeakers : ∀ outlet ∈ outlets, outlet.speaker ∈ outlet.ends)
    (hnodup : (outlets.flatMap Outlet.ends).Nodup)
    (hsource : source ∉ outlets.flatMap Outlet.ends) :
    Logs good (link.copyTable table false) fun report entries =>
      ∃ copied, Blocks page total link.blockSize 0 copied ∧ report.rows = copied.length ∧
        ∀ outlet ∈ outlets, ∃ dialect, ∀ label ∈ outlet.ends, CallLog.received entries label =
          outlet.rebuiltCalls dialect schema table label ++
            copied.map fun row => .queryCount (copyQuery schema table row) := by
  have hsource? : link.primary? = .ok (primary.recorded source) := by rw [primary?, hsome]
  rw [copyTable, hsource?, Call.done_ok_bind]
  refine (logs_recording hprimary.tableInfo source _).bind fun _ asked hinfo => ?_
  obtain ⟨rfl, hasked⟩ := hinfo
  rw [hlink]
  refine (logs_rebuildAll houtlets hspeakers hnodup).bind fun _ rebuilt hmade => ?_
  obtain ⟨hrebuilt, -⟩ := hmade
  refine (logs_recording hprimary.count source _).bind fun row counted hnumber => ?_
  obtain ⟨hrow, hcounted⟩ := hnumber
  rw [countIn_of_get? (hfit.total_le link.blockSize_pos) hrow]
  refine (logs_copyBlocks hprimary hnonempty hlink houtlets hnodup hsource
    (hfit.offsetsFit link.blockSize_pos) _).imp fun report entries hcopy => ?_
  obtain ⟨copied, hcopied, hreport, hcalls⟩ := hcopy
  refine ⟨copied, hcopied, by rw [hreport, Nat.zero_add], fun outlet houtlet => ?_⟩
  obtain ⟨dialect, hdialect⟩ := hrebuilt outlet houtlet
  refine ⟨dialect, fun label hlabel => ?_⟩
  have hmem : label ∈ outlets.flatMap Outlet.ends :=
    List.mem_flatMap.mpr ⟨outlet, houtlet, hlabel⟩
  have hne : source ≠ label := fun h => hsource (h ▸ hmem)
  rw [CallLog.received_append, CallLog.received_append, CallLog.received_append, hasked,
    hcounted, CallLog.received_of_ne hne, CallLog.received_of_ne hne, hdialect label hlabel,
    hcalls label hmem, List.nil_append, List.nil_append]

end Copy

/-- A resync that goes through leaves the entries of the copy. -/
theorem logs_resync {link : Replicated (β × CallLog ι)} {wanted : SyncReport → CallLog ι → Prop}
    (hroom : ∀ w room, good w → good { w with room := room })
    (h : Logs good (link.copyTable table false) wanted) :
    Logs good (link.resync table false) wanted := by
  cases hlock : link.lock with
  | none =>
    rw [resync, hlock]
    exact logs_fail _ _
  | some lock =>
    rw [resync_eq hlock]
    exact h.guarding hroom lock table _

end Replicated

end SqlFederation
