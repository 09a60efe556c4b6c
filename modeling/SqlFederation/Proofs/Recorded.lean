import SqlFederation.Link.Resync
import SqlFederation.Proofs.Outcome
import Mathlib.Tactic.Simps.Basic

/-!
# Compositions under observation

A record lists the calls that links received, each under a label of the link, in the order in which
they came. A recorded link is as before, but for an entry in the record at the start of every call
(`Connection.recorded`), and `Replicated.recorded` is a composition whose members are recorded. What
the links do does not depend on the record, and the record depends on what they are asked alone
(`World.outcome_recording`). A call that is put together from recorded calls therefore ends as it
does without the record (`World.Observes`).
-/

namespace SqlFederation

/-- A call that a link received. Questions about its state that cannot fail are not calls. -/
inductive Received where
  | connect
  | disconnect
  | dialect
  | tableInfo (table : String)
  | obtainSequence (sequence : String)
  | queryRaw (sql : String)
  | query (query : Query)
  | queryRow (query : Query)
  | querySet (query : Query)
  | queryColumn (query : Query)
  | queryNumRows (query : Query)
  | queryCount (query : Query)
  | queryNull (query : Query)
  | begin (level : Option IsolationLevel) (mode : Option AccessMode)
  | commit
  | rollback

/-- What a link answered to a call. -/
inductive Reply where
  | done
  | dialect (dialect : Dialect)
  | schema (schema : TableSchema)
  | value (value : Int)
  | rows (rows : List Row)
  | row (row : Option Row)
  | column (column : List Json)
  | number (n : Nat)

/-- The answer of a call that gives nothing back. -/
def Reply.ofUnit (_ : Unit) : Reply := .done

/-- The call, made on a link. -/
def Received.on {σ : Type} (connection : Connection σ) : Received → Call σ Reply
  | .connect => Reply.ofUnit <$> connection.connect
  | .disconnect => Reply.ofUnit <$> connection.disconnect
  | .dialect => .dialect <$> connection.dialect
  | .tableInfo table => .schema <$> connection.tableInfo table
  | .obtainSequence sequence => .value <$> connection.obtainSequence sequence
  | .queryRaw sql => .rows <$> connection.queryRaw sql
  | .query q => .rows <$> connection.query q
  | .queryRow q => .row <$> connection.queryRow q
  | .querySet q => .rows <$> connection.querySet q
  | .queryColumn q => .column <$> connection.queryColumn q
  | .queryNumRows q => .number <$> connection.queryNumRows q
  | .queryCount q => .number <$> connection.queryCount q
  | .queryNull q => Reply.ofUnit <$> connection.queryNull q
  | .begin level mode => Reply.ofUnit <$> connection.begin level mode
  | .commit => Reply.ofUnit <$> connection.commit
  | .rollback => Reply.ofUnit <$> connection.rollback

/-- Is a statement or a query that is called a read? Other calls are neither reads nor writes. -/
def Received.isRead? : Received → Option Bool
  | .queryRaw sql => some (Replicated.isRead sql)
  | .query q | .queryRow q | .querySet q | .queryColumn q | .queryNumRows q | .queryCount q
  | .queryNull q => some q.isSelect
  | _ => none

/-- A member of a replicated composition. -/
inductive Member where
  | primary
  | mirror (index : Nat)
  deriving DecidableEq

/-- The calls that links received, each under the label of the link, in the order they came in. -/
abbrev CallLog (ι : Type) := List (ι × Received)

/-- The calls that members received, in the order in which they came. -/
abbrev Record := CallLog Member

namespace Record

/-- The calls that one member received. -/
def received (record : Record) (member : Member) : List Received :=
  record.filterMap fun (m, call) => if m = member then some call else none

@[simp]
theorem received_nil (member : Member) : received [] member = [] := rfl

@[simp]
theorem received_append (front back : Record) (member : Member) :
    received (front ++ back) member = front.received member ++ back.received member :=
  List.filterMap_append ..

/-- Calls to a member are received by it. -/
theorem received_map_self (member : Member) (calls : List Received) :
    received (calls.map fun call => (member, call)) member = calls := by
  induction calls with
  | nil => rfl
  | cons call rest ih =>
    rw [List.map_cons, received, List.filterMap_cons]
    dsimp only
    rw [if_pos rfl]
    exact congrArg (call :: ·) ih

/-- Calls to a member are not received by another one. -/
theorem received_map_of_ne {member other : Member} (h : other ≠ member) (calls : List Received) :
    received (calls.map fun call => (other, call)) member = [] := by
  simp [received, h]

/-- Some calls to each of some mirrors, one mirror after the other. -/
def toEach (indices : List Nat) (calls : Nat → List Received) : Record :=
  indices.flatMap fun i => (calls i).map fun call => (.mirror i, call)

/-- Each of distinct mirrors receives its own calls. -/
theorem received_toEach {indices : List Nat} (hnodup : indices.Nodup) {i : Nat} (hi : i ∈ indices)
    (calls : Nat → List Received) : (toEach indices calls).received (.mirror i) = calls i := by
  -- The mirrors are distinct, so behind the one that is looked for there are only others.
  have hother : ∀ {rest : List Nat}, i ∉ rest → (toEach rest calls).received (.mirror i) = [] := by
    intro rest
    induction rest with
    | nil => exact fun _ => rfl
    | cons j rest ih =>
      intro hnot
      rw [List.mem_cons, not_or] at hnot
      have hne : Member.mirror j ≠ .mirror i := fun h => hnot.1 (Member.mirror.inj h).symm
      rw [toEach, List.flatMap_cons, received_append, received_map_of_ne hne, List.nil_append]
      exact ih hnot.2
  induction indices with
  | nil => exact absurd hi List.not_mem_nil
  | cons j rest ih =>
    obtain ⟨hj, hrest⟩ := List.nodup_cons.mp hnodup
    rw [toEach, List.flatMap_cons, received_append]
    by_cases heq : j = i
    · subst heq
      rw [received_map_self]
      show calls j ++ (toEach rest calls).received (.mirror j) = calls j
      rw [hother hj, List.append_nil]
    · have hne : Member.mirror j ≠ .mirror i := fun h => heq (Member.mirror.inj h)
      rw [received_map_of_ne hne, List.nil_append]
      exact ih hrest ((List.mem_cons.mp hi).resolve_left (Ne.symm heq))

end Record

namespace World

variable {β α ι : Type}

/-- A world with a log of calls beside its endpoints. -/
def withLog (w : World β) (log : CallLog ι) : World (β × CallLog ι) :=
  ⟨w.room, w.cursors, w.draws, (w.endpoints, log)⟩

/-- The world without the log. -/
def unlogged (w : World (β × CallLog ι)) : World β :=
  ⟨w.room, w.cursors, w.draws, w.endpoints.1⟩

/-- A world with a record beside its endpoints. -/
abbrev withRecord (w : World β) (record : Record) : World (β × Record) :=
  w.withLog record

/-- The world without the record. -/
abbrev unrecorded (w : World (β × Record)) : World β :=
  w.unlogged

/-- Writes a call down, then runs it. -/
def recording (label : ι) (received : Received) (call : Call (World β) α) :
    Call (World (β × CallLog ι)) α :=
  Call.of fun w =>
    let (result, after) := call.outcome w.unlogged
    (result, after.withLog (w.endpoints.2 ++ [(label, received)]))

/-- A recorded call ends as the call does, with an entry behind the record. -/
theorem outcome_recording (label : ι) (received : Received) (call : Call (World β) α)
    (w : World β) (log : CallLog ι) :
    (recording label received call).outcome (w.withLog log) =
      ((call.outcome w).1, (call.outcome w).2.withLog (log ++ [(label, received)])) := rfl

/-- What is made of the value of a call is made of it under observation as well. -/
theorem map_recording {γ : Type} (f : α → γ) (label : ι) (received : Received)
    (call : Call (World β) α) :
    f <$> recording label received call = recording label received (f <$> call) := by
  refine Call.ext fun w => ?_
  rw [Call.outcome_map, recording, recording, Call.outcome_of, Call.outcome_of, Call.outcome_map]

/-- Calls on locks and files leave the record. -/
theorem outcome_inRoom_withRecord (call : Call Locks.Room α) (w : World β) (log : CallLog ι) :
    (inRoom call).outcome (w.withLog log) =
      ((call.outcome w.room).1,
        World.withLog { w with room := (call.outcome w.room).2 } log) := rfl

/--
Does a call over a world with a record end as another one does without it, and change the world in
the same way? What it adds to the record is left open.
-/
def Observes (observed : Call (World (β × CallLog ι)) α) (call : Call (World β) α) : Prop :=
  ∀ w log, ∃ log',
    observed.outcome (w.withLog log) = ((call.outcome w).1, (call.outcome w).2.withLog log')

theorem observes_recording (label : ι) (received : Received) (call : Call (World β) α) :
    Observes (recording label received call) call :=
  fun w log => ⟨_, outcome_recording label received call w log⟩

theorem observes_inRoom (call : Call Locks.Room α) :
    Observes (inRoom call : Call (World (β × CallLog ι)) α) (inRoom call : Call (World β) α) :=
  fun w log => ⟨log, outcome_inRoom_withRecord call w log⟩

theorem observes_pure (a : α) :
    Observes (pure a : Call (World (β × CallLog ι)) α) (pure a : Call (World β) α) :=
  fun _ log => ⟨log, rfl⟩

theorem observes_fail (e : Error) :
    Observes (Call.fail e : Call (World (β × CallLog ι)) α) (Call.fail e : Call (World β) α) :=
  fun _ log => ⟨log, rfl⟩

/-- Calls one after the other are observed one after the other. -/
theorem Observes.bind {γ : Type} {observed : Call (World (β × CallLog ι)) α}
    {call : Call (World β) α} {f : α → Call (World (β × CallLog ι)) γ} {g : α → Call (World β) γ}
    (h : Observes observed call) (hrest : ∀ a, Observes (f a) (g a)) :
    Observes (observed >>= f) (call >>= g) := by
  intro w log
  obtain ⟨log', hfirst⟩ := h w log
  cases hcall : call.outcome w with
  | mk result w' =>
    rw [hcall] at hfirst
    cases result with
    | error e =>
      refine ⟨log', ?_⟩
      rw [Call.outcome_bind_of_error hfirst, Call.outcome_bind_of_error hcall]
    | ok a =>
      obtain ⟨log'', hsecond⟩ := hrest a w' log'
      refine ⟨log'', ?_⟩
      rw [Call.outcome_bind_of_ok hfirst, Call.outcome_bind_of_ok hcall, hsecond]

/-- A cleanup is observed behind the call. -/
theorem Observes.andThenAlways {observed : Call (World (β × CallLog ι)) α}
    {call : Call (World β) α} {cleanup' : Call (World (β × CallLog ι)) Unit}
    {cleanup : Call (World β) Unit}
    (h : Observes observed call) (hcleanup : Observes cleanup' cleanup) :
    Observes (observed.andThenAlways cleanup') (call.andThenAlways cleanup) := by
  intro w log
  obtain ⟨log', hcall⟩ := h w log
  obtain ⟨log'', hclean⟩ := hcleanup (call.outcome w).2 log'
  refine ⟨log'', ?_⟩
  rw [Call.outcome_andThenAlways, Call.outcome_andThenAlways, hcall, hclean]

/-- What is done under a lock is observed under it. -/
theorem Observes.guarding {observed : Call (World (β × CallLog ι)) α} {call : Call (World β) α}
    (h : Observes observed call) (lock : Locks.ScopedLock) (key : String) (taken : Error) :
    Observes (guarding lock key taken observed) (guarding lock key taken call) := by
  refine (observes_inRoom _).bind fun acquired => ?_
  cases acquired with
  | true => exact h.andThenAlways (observes_inRoom (lock.release key))
  | false => exact observes_fail taken

end World

open World (recording)

/-- The same link, all calls on which are written down. -/
@[simps]
def Connection.recorded {β ι : Type} (label : ι) (connection : Connection (World β)) :
    Connection (World (β × CallLog ι)) where
  connect := recording label .connect connection.connect
  disconnect := recording label .disconnect connection.disconnect
  isConnected w := connection.isConnected w.unlogged
  dialect := recording label .dialect connection.dialect
  tableInfo table := recording label (.tableInfo table) (connection.tableInfo table)
  hasSequences w := connection.hasSequences w.unlogged
  obtainSequence name := recording label (.obtainSequence name) (connection.obtainSequence name)
  queryRaw sql := recording label (.queryRaw sql) (connection.queryRaw sql)
  query q := recording label (.query q) (connection.query q)
  queryRow q := recording label (.queryRow q) (connection.queryRow q)
  querySet q := recording label (.querySet q) (connection.querySet q)
  queryColumn q := recording label (.queryColumn q) (connection.queryColumn q)
  queryNumRows q := recording label (.queryNumRows q) (connection.queryNumRows q)
  queryCount q := recording label (.queryCount q) (connection.queryCount q)
  queryNull q := recording label (.queryNull q) (connection.queryNull q)
  begin level mode := recording label (.begin level mode) (connection.begin level mode)
  commit := recording label .commit connection.commit
  rollback := recording label .rollback connection.rollback
  inTransaction w := connection.inTransaction w.unlogged

/-- A call on a recorded link is written down once. -/
theorem Received.on_recorded {β ι : Type} (label : ι) (connection : Connection (World β))
    (received : Received) :
    received.on (connection.recorded label) =
      recording label received (received.on connection) := by
  cases received <;> exact World.map_recording ..

namespace Replicated

variable {β : Type}

/-- Mirrors under their numbers, all calls on which are written down. -/
def recordedMirrors (mirrors : List (Connection (World β) × Nat)) :
    List (Connection (World (β × Record))) :=
  mirrors.map fun (mirror, i) => mirror.recorded (.mirror i)

theorem recordedMirrors_cons (mirror : Connection (World β)) (i : Nat)
    (rest : List (Connection (World β) × Nat)) :
    recordedMirrors ((mirror, i) :: rest) =
      mirror.recorded (.mirror i) :: recordedMirrors rest := rfl

/-- The same composition, all calls on whose members are written down. -/
def recorded (link : Replicated β) : Replicated (β × Record) where
  primary := link.primary.map (Connection.recorded .primary)
  mirrors := recordedMirrors link.mirrors.zipIdx
  policy := link.policy
  cursor := link.cursor
  lock := link.lock
  blockSize := link.blockSize
  blockSize_pos := link.blockSize_pos

section recorded

variable {link : Replicated β}

theorem recorded_blockSize : link.recorded.blockSize = link.blockSize := rfl

/-- The calls on a primary are written down. -/
theorem primary?_recorded_of_some {primary : Connection (World β)}
    (h : link.primary = some primary) :
    link.recorded.primary? = .ok (primary.recorded .primary) := by
  rw [primary?, recorded, h]
  rfl

theorem primary?_recorded_of_none (h : link.primary = none) :
    link.recorded.primary? = .error .noEndpoints := by
  rw [primary?, recorded, h]
  rfl

end recorded

end Replicated

end SqlFederation
