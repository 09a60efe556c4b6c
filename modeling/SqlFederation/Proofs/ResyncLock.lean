import SqlFederation.Proofs.Connecting
import SqlFederation.Proofs.LockReturn
import SqlFederation.Proofs.Plan
import SqlFederation.Proofs.ResyncCopy

/-!
# A resync gives its lock back

A call spares the locks if it leaves the memory stores and what locks remember, however it ends
(`Call.SparesLocks`). The calls that a resync makes of its members do so: those of databases and of
scripted endpoints, and of compositions of them at any depth
(`Connection.sparesLocks_of_endsAt`). The copy of a table is put together from such calls, so it
spares the locks as well, at whichever of its many exits it ends
(`Replicated.sparesLocks_copyTable`). A resync is that copy between the taking of a key and its
return, and `Replicated.resync_gives_lock_back` says what is left of the key: nothing.
-/

namespace SqlFederation

namespace Call

variable {β α γ : Type}

/-- Does a call leave every memory store and what each lock remembers, however it ends? -/
def SparesLocks (call : Call (World β) α) : Prop :=
  ∀ memories held, call.Preserves fun w => w.room.memories = memories ∧ w.room.held = held

theorem SparesLocks.bind {call : Call (World β) α} {f : α → Call (World β) γ}
    (h : call.SparesLocks) (hrest : ∀ a, (f a).SparesLocks) : (call >>= f).SparesLocks :=
  fun memories held => (h memories held).bind fun a => hrest a memories held

theorem sparesLocks_pure (a : α) : (pure a : Call (World β) α).SparesLocks := fun _ _ _ h => h

theorem sparesLocks_done (result : Except Error α) :
    (done result : Call (World β) α).SparesLocks := fun _ _ _ h => h

theorem sparesLocks_fail (e : Error) : (fail e : Call (World β) α).SparesLocks := fun _ _ _ h => h

theorem sparesLocks_reading (f : World β → α) : (reading f).SparesLocks := fun _ _ _ h => h

/-- A call on a part of the world that has nothing to do with locks spares them. -/
theorem sparesLocks_inPart {τ : Type} {get : World β → τ} {put : τ → World β → World β}
    (h : ∀ t w, (put t w).room.memories = w.room.memories ∧ (put t w).room.held = w.room.held)
    (call : Call τ α) : (inPart get put call).SparesLocks := by
  rintro memories held w ⟨hmemories, hheld⟩
  rw [outcome_inPart]
  obtain ⟨hmemories', hheld'⟩ := h (call.outcome (get w)).2 w
  exact ⟨hmemories'.trans hmemories, hheld'.trans hheld⟩

end Call

open Call (SparesLocks sparesLocks_pure sparesLocks_done sparesLocks_fail sparesLocks_reading)

/-- A link whose calls that a resync makes spare the locks. -/
structure Connection.SparesLocks {β : Type} (connection : Connection (World β)) : Prop where
  dialect : connection.dialect.SparesLocks
  tableInfo : ∀ table, (connection.tableInfo table).SparesLocks
  queryRaw : ∀ sql, (connection.queryRaw sql).SparesLocks
  queryRow : ∀ query, (connection.queryRow query).SparesLocks
  querySet : ∀ query, (connection.querySet query).SparesLocks
  queryCount : ∀ query, (connection.queryCount query).SparesLocks

/-! ## Endpoints and compositions -/

/-- A link whose calls are those on a part of the world without locks. -/
theorem Connection.sparesLocks_inPart {β τ : Type} {get : World β → τ}
    {put : τ → World β → World β}
    (h : ∀ t w, (put t w).room.memories = w.room.memories ∧ (put t w).room.held = w.room.held)
    (connection : Connection τ) : (connection.inPart get put).SparesLocks where
  dialect := Call.sparesLocks_inPart h _
  tableInfo _ := Call.sparesLocks_inPart h _
  queryRaw _ := Call.sparesLocks_inPart h _
  queryRow _ := Call.sparesLocks_inPart h _
  querySet _ := Call.sparesLocks_inPart h _
  queryCount _ := Call.sparesLocks_inPart h _

namespace Endpoints

/-- A database changes files and its own link. -/
theorem sparesLocks_database (number : Nat) : (database number).SparesLocks := by
  have hhost : ∀ host w, (setHost host w).room.memories = w.room.memories ∧
      (setHost host w).room.held = w.room.held := fun _ _ => ⟨rfl, rfl⟩
  exact Connection.sparesLocks_inPart hhost (Embedded.calls number)

/-- A scripted endpoint changes its own script and what was written down. -/
theorem sparesLocks_scripted (number : Nat) : (scripted number).SparesLocks := by
  have hstage : ∀ stage w, (setStage stage w).room.memories = w.room.memories ∧
      (setStage stage w).room.held = w.room.held := fun _ _ => ⟨rfl, rfl⟩
  exact Connection.sparesLocks_inPart hstage (Scripted.calls number)

end Endpoints

namespace Fanout

variable {β α : Type} {children : List (Connection (World β))}

theorem sparesLocks_assertChildren : (assertChildren children).SparesLocks := by
  unfold assertChildren
  split
  · exact sparesLocks_fail _
  · exact sparesLocks_pure ()

theorem sparesLocks_each {call : Connection (World β) → Call (World β) Unit}
    (h : ∀ c ∈ children, (call c).SparesLocks) : (each call children).SparesLocks :=
  fun memories held => preserves_each fun c hc => h c hc memories held

theorem sparesLocks_total {call : Connection (World β) → Call (World β) Nat}
    (h : ∀ c ∈ children, (call c).SparesLocks) : (total call children).SparesLocks := by
  induction children with
  | nil => exact sparesLocks_pure 0
  | cons child rest ih =>
    rw [List.forall_mem_cons] at h
    exact h.1.bind fun n => (ih h.2).bind fun m => sparesLocks_pure (n + m)

theorem sparesLocks_last {call : Connection (World β) → Call (World β) α}
    (h : ∀ c ∈ children, (call c).SparesLocks) : (last call children).SparesLocks := by
  induction children with
  | nil => exact sparesLocks_fail _
  | cons child rest ih =>
    rw [List.forall_mem_cons] at h
    cases rest with
    | nil => exact h.1
    | cons next rest => exact h.1.bind fun _ => ih h.2

end Fanout

namespace Sharded

variable {β α : Type} {link : Sharded β}

/-- A call on a shard is a call on a child, or fails. -/
theorem sparesLocks_onShard {call : Connection (World β) → Call (World β) α}
    (h : ∀ c ∈ link.children, (call c).SparesLocks) (shard : ShardId) :
    (link.onShard shard call).SparesLocks := by
  unfold onShard
  cases hshard : link.shard shard with
  | error e => exact sparesLocks_fail e
  | ok connection => exact h connection (mem_children_of_shard hshard)

theorem sparesLocks_gather (h : ∀ c ∈ link.children, ∀ query, (c.querySet query).SparesLocks)
    (plan : List (ShardId × Query)) : (link.gather plan).SparesLocks := by
  induction plan with
  | nil => exact sparesLocks_pure []
  | cons part rest ih =>
    obtain ⟨shard, query⟩ := part
    cases query with
    | select select =>
      exact (sparesLocks_onShard (fun c hc => h c hc _) shard).bind fun rows =>
        ih.bind fun others => sparesLocks_pure (rows ++ others)
    | insert _ => exact ih
    | update _ => exact ih
    | delete _ => exact ih

theorem sparesLocks_selectSet (h : ∀ c ∈ link.children, ∀ query, (c.querySet query).SparesLocks)
    (query : Query) : (link.selectSet query).SparesLocks := by
  unfold selectSet
  split
  · split
    · exact sparesLocks_fail _
    · exact sparesLocks_onShard (fun c hc => h c hc _) _
    · exact (sparesLocks_gather h _).bind fun rows => sparesLocks_done _
  · exact sparesLocks_fail _

theorem sparesLocks_totalOf {call : Connection (World β) → Query → Call (World β) Nat}
    (h : ∀ c ∈ link.children, ∀ query, (call c query).SparesLocks)
    (plan : List (ShardId × Query)) : (link.totalOf call plan).SparesLocks := by
  induction plan with
  | nil => exact sparesLocks_pure 0
  | cons part rest ih =>
    exact (sparesLocks_onShard (fun c hc => h c hc part.2) part.1).bind fun n =>
      ih.bind fun m => sparesLocks_pure (n + m)

theorem sparesLocks_onFirst {call : Connection (World β) → Call (World β) α}
    (h : ∀ c ∈ link.children, (call c).SparesLocks) : (link.onFirst call).SparesLocks := by
  unfold onFirst
  cases hchildren : link.children with
  | nil => exact sparesLocks_fail _
  | cons child rest => exact h child (by rw [hchildren]; exact List.mem_cons_self)

/-- A sharded link spares the locks if its shards do. -/
theorem sparesLocks_connection (h : ∀ c ∈ link.children, c.SparesLocks) :
    link.connection.SparesLocks where
  dialect := sparesLocks_onFirst fun c hc => (h c hc).dialect
  tableInfo table := sparesLocks_onFirst fun c hc => (h c hc).tableInfo table
  queryRaw sql := by
    show (link.raw sql).SparesLocks
    unfold raw
    split
    · have heach : (Fanout.each (fun c => do let _ ← c.queryRaw sql) link.children).SparesLocks :=
        Fanout.sparesLocks_each fun c hc =>
          ((h c hc).queryRaw sql).bind fun _ => sparesLocks_pure ()
      exact Fanout.sparesLocks_assertChildren.bind fun _ => heach.bind fun _ => sparesLocks_pure []
    · exact sparesLocks_fail _
  queryRow query := (sparesLocks_selectSet (fun c hc => (h c hc).querySet) query).bind fun rows =>
    sparesLocks_pure rows.head?
  querySet query := sparesLocks_selectSet (fun c hc => (h c hc).querySet) query
  queryCount query := by
    show (link.count query).SparesLocks
    unfold count
    split
    · exact sparesLocks_fail _
    · split
      · exact sparesLocks_fail _
      · exact sparesLocks_totalOf (fun c hc => (h c hc).queryCount) _

end Sharded

namespace Replicated

variable {β α : Type} {link : Replicated β}

theorem sparesLocks_draw (count : Nat) : (World.draw count : Call (World β) Nat).SparesLocks := by
  intro memories held w h
  rw [World.draw, Call.outcome_of]
  split
  · exact h
  · exact h

/-- To choose a place in a pool uses up draws. -/
theorem sparesLocks_place (size : Nat) : (link.place size).SparesLocks := by
  refine (sparesLocks_reading _).bind fun cursor => ?_
  cases cursor with
  | none => exact sparesLocks_draw size
  | some index =>
    dsimp only
    split
    · exact sparesLocks_pure index
    · exact sparesLocks_draw size

/-- To choose among a pool moves a cursor and uses up draws. -/
theorem sparesLocks_rotate (pool : List (Connection (World β))) :
    (link.rotate pool).SparesLocks := by
  unfold rotate
  split
  · exact sparesLocks_fail _
  · refine (sparesLocks_place _).bind fun index => (sparesLocks_draw _).bind fun next => ?_
    have hset : (World.setCursor (β := β) link.cursor next).SparesLocks := fun _ _ _ h => h
    refine hset.bind fun _ => ?_
    cases pool[index]? with
    | none => exact sparesLocks_fail _
    | some connection => exact sparesLocks_pure connection

/-- What is chosen among a pool is one of it. -/
theorem mem_of_rotate {pool : List (Connection (World β))} {w w' : World β}
    {reader : Connection (World β)} (h : (link.rotate pool).outcome w = (.ok reader, w')) :
    reader ∈ pool := by
  unfold rotate at h
  split at h
  · cases h
  · -- Whichever place is chosen, the reader is what the pool has there.
    obtain ⟨index, _, -, h⟩ := Call.exists_of_bind_ok h
    obtain ⟨next, _, -, h⟩ := Call.exists_of_bind_ok h
    obtain ⟨_, _, -, h⟩ := Call.exists_of_bind_ok h
    cases hfound : pool[index]? with
    | none =>
      rw [hfound] at h
      cases h
    | some connection =>
      rw [hfound] at h
      cases h
      exact List.mem_of_getElem? hfound

/-- To choose a reader moves a cursor and uses up draws. -/
theorem sparesLocks_nextReader : link.nextReader.SparesLocks := by
  refine Fanout.sparesLocks_assertChildren.bind fun _ => ?_
  cases link.policy with
  | primaryOnly => exact sparesLocks_done _
  | any => exact sparesLocks_rotate _
  | mirrorsOnly => exact sparesLocks_rotate _

/-- The primary is one of the children. -/
theorem mem_children_of_primary? {connection : Connection (World β)}
    (h : link.primary? = .ok connection) : connection ∈ link.children := by
  unfold primary? at h
  split at h
  · rename_i hprimary
    cases h
    rw [children, hprimary]
    exact List.mem_cons_self
  · cases h

/-- Who answers the next read is one of the children. -/
theorem mem_children_of_nextReader {w w' : World β} {reader : Connection (World β)}
    (h : link.nextReader.outcome w = (.ok reader, w')) : reader ∈ link.children := by
  obtain ⟨_, _, -, h⟩ := Call.exists_of_bind_ok h
  cases hpolicy : link.policy with
  | primaryOnly =>
    rw [hpolicy] at h
    exact mem_children_of_primary? (Prod.mk.inj h).1
  | any =>
    rw [hpolicy] at h
    have hmem := mem_of_rotate h
    rw [pool, hpolicy] at hmem
    exact hmem
  | mirrorsOnly =>
    rw [hpolicy] at h
    have hmem := mem_of_rotate h
    rw [pool, hpolicy] at hmem
    exact List.mem_append_right _ hmem

/-- A read that goes to one of the children spares the locks if it does so on each of them. -/
theorem sparesLocks_read {call : Connection (World β) → Call (World β) α}
    (h : ∀ c ∈ link.children, (call c).SparesLocks) : (link.nextReader >>= call).SparesLocks :=
  fun memories held => (sparesLocks_nextReader memories held).bind_of_ok
    fun _ _ _ hreader => h _ (mem_children_of_nextReader hreader) memories held

theorem sparesLocks_onPrimary {call : Connection (World β) → Call (World β) α}
    (h : ∀ c ∈ link.children, (call c).SparesLocks) : (link.onPrimary call).SparesLocks := by
  unfold onPrimary
  cases hprimary : link.primary? with
  | error e => exact sparesLocks_fail e
  | ok connection => exact h connection (mem_children_of_primary? hprimary)

theorem sparesLocks_dispatch {query : Query} {call : Connection (World β) → Call (World β) α}
    (h : ∀ c ∈ link.children, (call c).SparesLocks) : (link.dispatch query call).SparesLocks := by
  refine Fanout.sparesLocks_assertChildren.bind fun _ => ?_
  split
  · exact sparesLocks_read h
  · exact Fanout.sparesLocks_last h

/-- A replicated link spares the locks if its members do. -/
theorem sparesLocks_connection (h : ∀ c ∈ link.children, c.SparesLocks) :
    link.connection.SparesLocks where
  dialect := sparesLocks_onPrimary fun c hc => (h c hc).dialect
  tableInfo table := sparesLocks_onPrimary fun c hc => (h c hc).tableInfo table
  queryRaw sql := by
    refine Fanout.sparesLocks_assertChildren.bind fun _ => ?_
    split
    · exact sparesLocks_read fun c hc => (h c hc).queryRaw sql
    · exact Fanout.sparesLocks_last fun c hc => (h c hc).queryRaw sql
  queryRow query := sparesLocks_dispatch fun c hc => (h c hc).queryRow query
  querySet query := sparesLocks_dispatch fun c hc => (h c hc).querySet query
  queryCount query := by
    refine Fanout.sparesLocks_assertChildren.bind fun _ => ?_
    split
    · exact sparesLocks_read fun c hc => (h c hc).queryCount query
    · exact Fanout.sparesLocks_total fun c hc => (h c hc).queryCount query

end Replicated

/-- A link spares the locks if its endpoints do, through compositions of any depth. -/
theorem Connection.sparesLocks_of_endsAt {β : Type} {connection : Connection (World β)}
    {ends : List (Connection (World β))} (h : EndsAt connection ends)
    (hends : ∀ e ∈ ends, e.SparesLocks) : connection.SparesLocks := by
  induction h with
  | plain connection => exact hends connection List.mem_cons_self
  | sharded link parts hchildren _ ih =>
    refine Sharded.sparesLocks_connection ?_
    rw [hchildren, List.forall_mem_map]
    exact fun p hp => ih p hp fun e he => hends e (List.mem_flatMap.mpr ⟨p, hp, he⟩)
  | replicated link parts hchildren _ ih =>
    refine Replicated.sparesLocks_connection ?_
    rw [hchildren, List.forall_mem_map]
    exact fun p hp => ih p hp fun e he => hends e (List.mem_flatMap.mpr ⟨p, hp, he⟩)

namespace Replicated

variable {β : Type} {link : Replicated β}

/-! ## The copy of a table -/

theorem sparesLocks_runAll {mirror : Connection (World β)} (h : mirror.SparesLocks)
    (statements : List String) : (runAll mirror statements).SparesLocks := by
  induction statements with
  | nil => exact sparesLocks_pure ()
  | cons sql rest ih => exact (h.queryRaw sql).bind fun _ => ih

theorem sparesLocks_copyRow (table : String) (insert : Query)
    {mirrors : List (Connection (World β))} (h : ∀ c ∈ mirrors, c.SparesLocks) :
    (copyRow table insert mirrors).SparesLocks := by
  induction mirrors with
  | nil => exact sparesLocks_pure ()
  | cons mirror rest ih =>
    rw [List.forall_mem_cons] at h
    refine (h.1.queryCount insert).bind fun affected => ?_
    split
    · exact ih h.2
    · exact sparesLocks_fail _

theorem sparesLocks_copyRows (schema : TableSchema) (table : String)
    {mirrors : List (Connection (World β))} (h : ∀ c ∈ mirrors, c.SparesLocks) (rows : List Row) :
    (copyRows schema table mirrors rows).SparesLocks := by
  induction rows with
  | nil => exact sparesLocks_pure ()
  | cons row rest ih => exact (sparesLocks_copyRow table _ h).bind fun _ => ih

/-- The loop over the blocks spares the locks, at whichever of its rows it ends. -/
theorem sparesLocks_copyBlocks (h : ∀ c ∈ link.mirrors, c.SparesLocks)
    {source : Connection (World β)} (hsource : source.SparesLocks) (schema : TableSchema)
    (table : String) (total laps offset : Nat) (report : SyncReport) :
    (copyBlocks link source schema table total laps offset report).SparesLocks := by
  induction laps, offset, report using copyBlocks.induct link total with
  | case1 laps offset report hoffset ih =>
    rw [copyBlocks_of_lt _ _ _ _ _ hoffset]
    refine (hsource.querySet _).bind fun block => ?_
    split
    · exact sparesLocks_pure report
    · refine (sparesLocks_copyRows schema table h block).bind fun _ => ?_
      dsimp only
      cases hnext : nextOffset? link.blockSize laps offset with
      | some next => exact ih block next hnext
      | none => exact sparesLocks_pure _
  | case2 laps offset report hoffset =>
    rw [copyBlocks_of_not_lt _ _ _ _ _ hoffset]
    exact sparesLocks_pure report

/-- The copy of a table spares the locks, however it ends. -/
theorem sparesLocks_copyTable (h : ∀ c ∈ link.children, c.SparesLocks) (table : String)
    (schemaOnly : Bool) : (link.copyTable table schemaOnly).SparesLocks := by
  have hmirrors : ∀ c ∈ link.mirrors, c.SparesLocks := fun c hc =>
    h c (List.mem_append_right _ hc)
  unfold copyTable
  cases hprimary : link.primary? with
  | error e => exact sparesLocks_fail e
  | ok source =>
    have hsource := h source (mem_children_of_primary? hprimary)
    refine (hsource.tableInfo table).bind fun schema => ?_
    have hrebuild : ∀ c ∈ link.mirrors, (rebuild schema table c).SparesLocks := fun c hc =>
      (hmirrors c hc).dialect.bind fun _ => sparesLocks_runAll (hmirrors c hc) _
    refine (Fanout.sparesLocks_each hrebuild).bind fun _ => ?_
    cases schemaOnly with
    | true => exact sparesLocks_pure _
    | false =>
      exact (hsource.queryRow _).bind fun row =>
        sparesLocks_copyBlocks hmirrors hsource schema table _ maxLaps 0 _

end Replicated

namespace World

variable {β α : Type} {lock : Locks.ScopedLock} {key : String} {taken : Error}
  {call : Call (World β) α} {w : World β} {room : Locks.Room}

/-- What is done under a lock that is taken is done behind the taking, and before the return. -/
theorem outcome_guarding_of_taken (h : (lock.acquire key).outcome w.room = (.ok true, room)) :
    (guarding lock key taken call).outcome w =
      ((call.outcome { w with room := room }).1,
        { (call.outcome { w with room := room }).2 with
          room := ((lock.release key).outcome
            (call.outcome { w with room := room }).2.room).2 }) := by
  have hacquire : (inRoom (β := β) (lock.acquire key)).outcome w =
      (.ok true, { w with room := room }) := by
    rw [inRoom, Call.outcome_inPart, h]
  refine (Call.outcome_bind_of_ok hacquire).trans ?_
  rw [if_pos rfl, Call.outcome_andThenAlways]
  rfl

/-- Under a lock that somebody has nothing is done. -/
theorem outcome_guarding_of_held (h : (lock.acquire key).outcome w.room = (.ok false, room)) :
    (guarding lock key taken call).outcome w = (.error taken, { w with room := room }) := by
  have hacquire : (inRoom (β := β) (lock.acquire key)).outcome w =
      (.ok false, { w with room := room }) := by
    rw [inRoom, Call.outcome_inPart, h]
  refine (Call.outcome_bind_of_ok hacquire).trans ?_
  rw [if_neg Bool.false_ne_true]
  rfl

/-- Under a lock that cannot be taken nothing is done. -/
theorem outcome_guarding_of_error {e : Error}
    (h : (lock.acquire key).outcome w.room = (.error e, room)) :
    (guarding lock key taken call).outcome w = (.error e, { w with room := room }) := by
  refine Call.outcome_bind_of_error ?_
  rw [inRoom, Call.outcome_inPart, h]

end World

namespace Replicated

variable {β : Type} {link : Replicated β} {table : String} {schemaOnly : Bool} {w : World β}

/-! ## A resync under its lock -/

/-- Where the primary cannot describe the table, nothing is copied. -/
theorem outcome_recorded_copyTable_of_error {primary : Connection (World β)}
    (hprimary : link.primary = some primary) {e : Error} {w' : World β}
    (h : (primary.tableInfo table).outcome w = (.error e, w')) :
    (link.recorded.copyTable table schemaOnly).outcome (w.withRecord []) =
      (.error e, w'.withRecord [(.primary, .tableInfo table)]) := by
  rw [copyTable, primary?_recorded_of_some hprimary, Call.done_ok_bind]
  refine Call.outcome_bind_of_error ?_
  rw [Connection.recorded_tableInfo, World.outcome_recording, h]
  rfl

/-- Without a primary nothing is copied. -/
theorem outcome_recorded_copyTable_of_none (hprimary : link.primary = none) :
    (link.recorded.copyTable table schemaOnly).outcome (w.withRecord []) =
      (.error .noEndpoints, w.withRecord []) := by
  rw [copyTable, primary?_recorded_of_none hprimary, Call.done_error_bind]
  rfl

/-- A mirror receives a call only behind the primary's description of the table. -/
theorem exists_tableInfo_of_mem_record {result : Except Error SyncReport} {w' : World β}
    {record : Record}
    (h : (link.recorded.copyTable table schemaOnly).outcome (w.withRecord []) =
      (result, w'.withRecord record)) {i : Nat} {received : Received}
    (hmem : (.mirror i, received) ∈ record) :
    ∃ primary schema after, link.primary = some primary ∧
      (primary.tableInfo table).outcome w = (.ok schema, after) := by
  -- Without a primary or its description, no mirror is in the record.
  cases hprimary : link.primary with
  | none =>
    rw [outcome_recorded_copyTable_of_none hprimary] at h
    have hrecord : [] = record := congrArg (fun o => o.2.endpoints.2) h
    rw [← hrecord] at hmem
    exact absurd hmem List.not_mem_nil
  | some primary =>
    cases hinfo : (primary.tableInfo table).outcome w with
    | mk described after =>
      cases described with
      | ok schema => exact ⟨primary, schema, after, rfl, hinfo⟩
      | error e =>
        rw [outcome_recorded_copyTable_of_error hprimary hinfo] at h
        have hrecord : [(Member.primary, Received.tableInfo table)] = record :=
          congrArg (fun o => o.2.endpoints.2) h
        rw [← hrecord, List.mem_singleton] at hmem
        cases hmem

/-- A resync with a lock is the copy of the table under the lock. -/
theorem resync_eq {lock : Locks.ScopedLock} (hlock : link.lock = some lock) :
    link.resync table schemaOnly =
      World.guarding lock table (.alreadyReplicating table) (link.copyTable table schemaOnly) := by
  rw [resync, hlock]

/-- A resync under observation that does nothing is one that does nothing. -/
theorem eq_of_recorded_resync {result : Except Error SyncReport} {after : World β}
    {record : Record}
    (h : (link.recorded.resync table schemaOnly).outcome (w.withRecord []) =
      (result, after.withRecord record)) {e : Error}
    (hnothing : (link.recorded.resync table schemaOnly).outcome (w.withRecord []) =
      (.error e, w.withRecord [])) : result = .error e ∧ after = w ∧ record = [] := by
  obtain ⟨hresult, hworld⟩ := Prod.mk.inj (h.symm.trans hnothing)
  exact ⟨hresult, congrArg World.unrecorded hworld, congrArg (fun w => w.endpoints.2) hworld⟩

/-- A mirror receives a call only of a resync that has its key and whose primary has the table. -/
theorem exists_tableInfo_of_mem_resync {result : Except Error SyncReport} {after : World β}
    {record : Record}
    (hrecorded : (link.recorded.resync table schemaOnly).outcome (w.withRecord []) =
      (result, after.withRecord record)) {i : Nat} {received : Received}
    (hmem : (.mirror i, received) ∈ record) :
    ∃ lock primary schema described, link.lock = some lock ∧ link.primary = some primary ∧
      (primary.tableInfo table).outcome
        { w with room := ((lock.acquire table).outcome w.room).2 } = (.ok schema, described) := by
  -- Only a resync that has taken its key leaves a record.
  have hnothing : ∀ {e : Error} {w' : World (β × Record)},
      (link.recorded.resync table schemaOnly).outcome (w.withRecord []) = (.error e, w') →
        w'.endpoints.2 ≠ [] := by
    intro e w' h hempty
    have hrecord : w'.endpoints.2 = record :=
      congrArg (fun o => o.2.endpoints.2) (h.symm.trans hrecorded)
    rw [← hrecord, hempty] at hmem
    exact absurd hmem List.not_mem_nil
  cases hlock : link.lock with
  | none =>
    have hlock' : link.recorded.lock = none := hlock
    rw [resync, hlock'] at hnothing
    exact absurd rfl (hnothing rfl)
  | some lock =>
    have hlock' : link.recorded.lock = some lock := hlock
    rw [resync_eq hlock'] at hnothing hrecorded
    cases hacquire : (lock.acquire table).outcome w.room with
    | mk taken room =>
      have hacquire' : (lock.acquire table).outcome (w.withRecord []).room = (taken, room) :=
        hacquire
      cases taken with
      | error e => exact absurd rfl (hnothing (World.outcome_guarding_of_error hacquire'))
      | ok taken =>
        cases taken with
        | false => exact absurd rfl (hnothing (World.outcome_guarding_of_held hacquire'))
        | true =>
          -- The record of the resync is that of the copy: the locks are not observed.
          rw [World.outcome_guarding_of_taken hacquire'] at hrecorded
          obtain ⟨copied, hcopied⟩ :=
            observes_copyTable link table schemaOnly { w with room := room } []
          have hrecord : copied = record :=
            (congrArg (fun o => o.2.endpoints.2) hcopied).symm.trans
              (congrArg (fun o => o.2.endpoints.2) hrecorded)
          rw [hrecord] at hcopied
          obtain ⟨primary, schema, described, hprimary, hinfo⟩ :=
            exists_tableInfo_of_mem_record hcopied hmem
          refine ⟨lock, primary, schema, described, rfl, hprimary, ?_⟩
          rw [hacquire]
          exact hinfo

/-- A primary with one user. -/
def oneUser : Scripted.Script :=
  { Scripted.Script.quiet "p" with
    schema := some (some indexedUsers)
    replies := [[⟨[("count", .ofInt 1)]⟩], [⟨[("id", .ofInt 1), ("name", .str "u")]⟩]] }

/-- Two scripted endpoints that mirror each other: a row that they are given counts twice. -/
def twice : Replicated Endpoints :=
  ((Replicated.empty 1).setPrimary (Endpoints.scripted 1)).addMirror (Endpoints.scripted 2)

theorem endsAt_twice :
    Connection.EndsAt twice.connection [Endpoints.scripted 1, Endpoints.scripted 2] :=
  .replicated twice
    [(Endpoints.scripted 1, [Endpoints.scripted 1]), (Endpoints.scripted 2, [Endpoints.scripted 2])]
    rfl (by
      rw [List.forall_mem_cons, List.forall_mem_singleton]
      exact ⟨.plain _, .plain _⟩)

/-- One user with a mirror that counts twice, under a lock with a lifetime. -/
def countedTwice (lifetime : Nat) : Replicated Endpoints :=
  (((Replicated.empty 0).setPrimary (Endpoints.scripted 0)).addMirror twice.connection).setLock
    ⟨.memory 0, "sync", lifetime, 0⟩

theorem sparesLocks_countedTwice (lifetime : Nat) :
    ∀ c ∈ (countedTwice lifetime).children, c.SparesLocks := by
  have htwice : twice.connection.SparesLocks := by
    refine Connection.sparesLocks_of_endsAt endsAt_twice ?_
    rw [List.forall_mem_cons, List.forall_mem_singleton]
    exact ⟨Endpoints.sparesLocks_scripted 1, Endpoints.sparesLocks_scripted 2⟩
  show ∀ c ∈ [Endpoints.scripted 0, twice.connection], c.SparesLocks
  rw [List.forall_mem_cons, List.forall_mem_singleton]
  exact ⟨Endpoints.sparesLocks_scripted 0, htwice⟩

/-- A world at time 0 with a memory store, in which two locks remember a key each. -/
def busyWorld (entries : List (String × Time)) : World Endpoints where
  room := ⟨0, 1, [], ⟨[], []⟩, [⟨entries⟩], [["towns"], ["users"]]⟩
  cursors := [none, none]
  draws := []
  endpoints := ⟨⟨[oneUser, .quiet "a", .quiet "b"], []⟩, []⟩

end Replicated

end SqlFederation
