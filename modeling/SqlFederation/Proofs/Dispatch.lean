import Mathlib
import SqlFederation.Proofs.Connecting
import SqlFederation.Proofs.OverTables
import SqlFederation.Proofs.Recorded

/-!
# Calls that are passed on

A composition passes calls on transactions and writes on to children: to all of them, or to those
that a write is planned for. Its callees are asked in turn (`Callee.InTurn`): each of them once, in
order, up to and including the first that fails, whose error is the error of the call. If none
fails, the answer is put together from all of theirs (`Received.combine`).

Every entry point is a loop of its own. `passOn` is the one that they all are, and
`Callee.exists_inTurn` says what it does, with and without a log of the calls that the children
receive. `calls_reach_children_in_turn` draws the conclusion for all of them.
-/

namespace SqlFederation

/-- The number in an answer. -/
def Reply.amount : Reply → Nat
  | .number n => n
  | _ => 0

/-- The sum of the numbers in some answers. -/
def Reply.summed (replies : List Reply) : Reply :=
  .number (replies.map amount).sum

/-- What a composition answers to a call that its children answered. -/
def Received.combine : Received → List Reply → Reply
  | .queryCount _, replies => .summed replies
  | .queryNull _, _ | .begin .., _ | .commit, _ | .rollback, _ => .done
  | _, replies => replies.getLastD .done

/-- A child that a call is passed on to, and what it is asked. -/
structure Callee (ι β : Type) where
  label : ι
  connection : Connection (World β)
  call : Received

namespace Callee

variable {ι β : Type}

/-- Asks a callee. -/
def ask (callee : Callee ι β) : Call (World β) Reply :=
  callee.call.on callee.connection

/-- What a callee that is asked leaves in a log. -/
def entry (callee : Callee ι β) : ι × Received :=
  (callee.label, callee.call)

/-- The same callee, all calls on which are written down. -/
def recorded (callee : Callee ι β) : Callee ι (β × CallLog ι) :=
  ⟨callee.label, callee.connection.recorded callee.label, callee.call⟩

/-- All children, asked the same; there has to be one. -/
def all (children : List (ι × Connection (World β))) (call : Received) :
    Except Error (List (Callee ι β)) :=
  if children.isEmpty then .error .noEndpoints
  else .ok (children.map fun child => ⟨child.1, child.2, call⟩)

/-- All children under observation are all children, recorded. -/
theorem all_recorded (children : List (ι × Connection (World β))) (call : Received) :
    all (children.map fun child => (child.1, child.2.recorded child.1)) call =
      (all children call).map fun cs => cs.map recorded := by
  cases children with
  | nil => rfl
  | cons child rest =>
    show Except.ok ((List.map _ (child :: rest)).map _) = .ok ((List.map _ (child :: rest)).map _)
    rw [List.map_map, List.map_map]
    rfl

theorem outcome_ask_recorded (callee : Callee ι β) (w : World β) (log : CallLog ι) :
    callee.recorded.ask.outcome (w.withLog log) =
      ((callee.ask.outcome w).1, (callee.ask.outcome w).2.withLog (log ++ [callee.entry])) := by
  rw [ask, recorded, Received.on_recorded]
  rfl

/-! ## Asking in turn -/

/-- Callees that were asked one after the other, and all answered. -/
inductive Answered : World β → List (Callee ι β) → List Reply → World β → Prop
  | nil (w : World β) : Answered w [] [] w
  | cons {w between after : World β} {callee : Callee ι β} {rest : List (Callee ι β)}
    {reply : Reply} {replies : List Reply}
    (hfirst : callee.ask.outcome w = (.ok reply, between))
    (hrest : Answered between rest replies after) :
    Answered w (callee :: rest) (reply :: replies) after

/--
Callees that were asked in turn, up to and including the first that failed. Indices are the callees
that were reached, how it ended, and the world behind it.
-/
inductive InTurn (callees : List (Callee ι β)) (w : World β) :
    List (Callee ι β) → Except Error (List Reply) → World β → Prop
  | answered {replies : List Reply} {after : World β} (h : Answered w callees replies after) :
    InTurn callees w callees (.ok replies) after
  | failed {passed skipped : List (Callee ι β)} {callee : Callee ι β} {replies : List Reply}
    {e : Error} {between after : World β} (hcallees : callees = passed ++ callee :: skipped)
    (hpassed : Answered w passed replies between)
    (hfailed : callee.ask.outcome between = (.error e, after)) :
    InTurn callees w (passed ++ [callee]) (.error e) after

/-- A callee that answers is asked before the others. -/
theorem InTurn.cons {w between after : World β} {callee : Callee ι β}
    {rest reached : List (Callee ι β)} {reply : Reply} {result : Except Error (List Reply)}
    (hfirst : callee.ask.outcome w = (.ok reply, between))
    (hrest : InTurn rest between reached result after) :
    InTurn (callee :: rest) w (callee :: reached) (result.map (reply :: ·)) after := by
  cases hrest with
  | answered h => exact .answered (.cons hfirst h)
  | failed hcallees hpassed hfailed =>
    exact .failed (by rw [hcallees, List.cons_append]) (.cons hfirst hpassed) hfailed

/--
Callees are asked in turn, and as often and in the same order under observation, which leaves the
callees that were reached in the log.
-/
theorem exists_inTurn (callees : List (Callee ι β)) (w : World β) (log : CallLog ι) :
    ∃ reached result after, InTurn callees w reached result after ∧
      (callees.mapM ask).outcome w = (result, after) ∧
      ((callees.map recorded).mapM ask).outcome (w.withLog log) =
        (result, after.withLog (log ++ reached.map entry)) := by
  induction callees generalizing w log with
  | nil =>
    refine ⟨[], .ok [], w, .answered (.nil w), rfl, ?_⟩
    rw [List.map_nil, List.map_nil, List.append_nil]
    rfl
  | cons callee rest ih =>
    have hobserved := outcome_ask_recorded callee w log
    rw [List.map_cons, List.mapM_cons, List.mapM_cons]
    cases hask : callee.ask.outcome w with
    | mk first between =>
      rw [hask] at hobserved
      cases first with
      | error e =>
        refine ⟨[] ++ [callee], .error e, between, .failed rfl (.nil w) hask, ?_, ?_⟩
        · exact Call.outcome_bind_of_error hask
        · exact Call.outcome_bind_of_error hobserved
      | ok reply =>
        -- The others are asked in the world behind this callee, whose entry is in the log by then.
        obtain ⟨reached, result, after, hturn, hplain, hlog⟩ := ih between (log ++ [callee.entry])
        refine ⟨callee :: reached, result.map (reply :: ·), after, hturn.cons hask, ?_, ?_⟩
        · rw [Call.outcome_bind_of_ok hask, bind_pure_comp, Call.outcome_map, hplain]
        · rw [Call.outcome_bind_of_ok hobserved, bind_pure_comp, Call.outcome_map, hlog,
            List.append_assoc, List.map_cons, List.singleton_append]

end Callee

open Callee (InTurn)

variable {ι β : Type}

/-- A call that is passed on to callees, unless there are none to be had. -/
def passOn (call : Received) : Except Error (List (Callee ι β)) → Call (World β) Reply
  | .error e => Call.fail e
  | .ok callees => call.combine <$> callees.mapM Callee.ask

/--
Is a call passed on to its callees in turn, and without callees to nobody? `observed` is the call
on the same composition, all calls on whose children are written down.
-/
structure PassedInTurn (call : Received) (callees : Except Error (List (Callee ι β)))
    (plain : Call (World β) Reply) (observed : Call (World (β × CallLog ι)) Reply) : Prop where
  /-- The calls made are those on the callees that were reached. -/
  reached : ∀ cs, callees = .ok cs → ∀ w log, ∃ reached result after,
    InTurn cs w reached result after ∧
      plain.outcome w = (result.map call.combine, after) ∧
      observed.outcome (w.withLog log) =
        (result.map call.combine, after.withLog (log ++ reached.map Callee.entry))
  /-- If there is something wrong with the callees, no call is made. -/
  refused : ∀ e, callees = .error e → ∀ w log,
    plain.outcome w = (.error e, w) ∧ observed.outcome (w.withLog log) = (.error e, w.withLog log)

/-- What is passed on is passed on in turn. -/
theorem passedInTurn_passOn (call : Received) (callees : Except Error (List (Callee ι β))) :
    PassedInTurn call callees (passOn call callees)
      (passOn call (callees.map fun cs => cs.map Callee.recorded)) where
  reached := by
    rintro cs rfl w log
    obtain ⟨reached, result, after, hturn, hplain, hlog⟩ := Callee.exists_inTurn cs w log
    refine ⟨reached, result, after, hturn, ?_, ?_⟩
    · rw [passOn, Call.outcome_map, hplain]
    · calc (call.combine <$> (cs.map Callee.recorded).mapM Callee.ask).outcome (w.withLog log)
        _ = _ := Call.outcome_map ..
        _ = _ := by rw [hlog]
  refused := by
    rintro e rfl w log
    exact ⟨rfl, rfl⟩

/-- Whom a call reached is in the log, and how it ended is in the answer. -/
theorem PassedInTurn.exists_labels {call : Received} {cs : List (Callee ι β)}
    {plain : Call (World β) Reply} {observed : Call (World (β × CallLog ι)) Reply}
    (h : PassedInTurn call (.ok cs) plain observed) (w : World β) :
    ∃ reached result after, InTurn cs w reached result after ∧
      reached.map Callee.label =
        (observed.outcome (w.withLog [])).2.endpoints.2.map Prod.fst ∧
      result.map call.combine = (plain.outcome w).1 := by
  obtain ⟨reached, result, after, hturn, hplain, hlog⟩ := h.reached cs rfl w []
  refine ⟨reached, result, after, hturn, ?_, by rw [hplain]⟩
  rw [hlog, List.nil_append]
  show _ = (reached.map Callee.entry).map Prod.fst
  rw [List.map_map]
  rfl

/-! ## Loops -/

section Loops

variable {σ α : Type}

/-- One count more is one more to add up. -/
theorem map_number_add {first rest : Call σ Nat} {replies : Call σ (List Reply)}
    (h : Reply.number <$> rest = Reply.summed <$> replies) :
    (Reply.number <$> do
      let n ← first
      return n + (← rest)) =
      Reply.summed <$> do
        let reply ← Reply.number <$> first
        let others ← replies
        return reply :: others := by
  simp only [map_bind, bind_map_left, bind_pure_comp]
  congr 1
  funext n
  -- What the others add up to is the same either way, and the first count is added to both.
  have hadd := congrArg (fun call => (fun r => Reply.number (n + r.amount)) <$> call) h
  simpa [Functor.map_map, Reply.summed, Reply.amount] using hadd

/-- One call more whose answer does not matter. -/
theorem map_ofUnit_next {first rest : Call σ Unit} {replies : Call σ (List Reply)}
    (h : Reply.ofUnit <$> rest = (fun _ => Reply.done) <$> replies) :
    (Reply.ofUnit <$> do
      first
      rest) =
      (fun _ => Reply.done) <$> do
        let reply ← Reply.ofUnit <$> first
        let others ← replies
        return reply :: others := by
  simp only [map_bind, bind_map_left, bind_pure_comp, Functor.map_map, h]

namespace Fanout

theorem map_total (call : Connection σ → Call σ Nat) (children : List (Connection σ)) :
    Reply.number <$> total call children =
      Reply.summed <$> children.mapM fun c => Reply.number <$> call c := by
  induction children with
  | nil => rfl
  | cons child rest ih =>
    rw [total, List.mapM_cons]
    exact map_number_add ih

theorem map_each (call : Connection σ → Call σ Unit) (children : List (Connection σ)) :
    Reply.ofUnit <$> each call children =
      (fun _ => Reply.done) <$> children.mapM fun c => Reply.ofUnit <$> call c := by
  induction children with
  | nil => rfl
  | cons child rest ih =>
    rw [each, List.mapM_cons]
    exact map_ofUnit_next ih

theorem last_cons_cons (call : Connection σ → Call σ α) (child next : Connection σ)
    (rest : List (Connection σ)) :
    last call (child :: next :: rest) = (do
      let _ ← call child
      last call (next :: rest)) := rfl

/-- The answer of the last child is the last of all answers. -/
theorem map_last (answer : α → Reply) (call : Connection σ → Call σ α) (child : Connection σ)
    (rest : List (Connection σ)) :
    answer <$> last call (child :: rest) =
      (fun replies => replies.getLastD .done) <$>
        (child :: rest).mapM fun c => answer <$> call c := by
  induction rest generalizing child with
  | nil =>
    rw [last, List.mapM_cons, List.mapM_nil]
    simp
  | cons next rest ih =>
    rw [last_cons_cons, List.mapM_cons, map_bind, map_bind, bind_map_left]
    congr 1
    funext a
    rw [ih next, List.mapM_cons]
    simp

/-- If nothing is given back, the last child is one like the others. -/
theorem last_eq_each (call : Connection σ → Call σ Unit) (child : Connection σ)
    (rest : List (Connection σ)) : last call (child :: rest) = each call (child :: rest) := by
  induction rest generalizing child with
  | nil =>
    rw [last, each, each]
    simp
  | cons next rest ih =>
    rw [last_cons_cons, ih next]
    rfl

end Fanout

end Loops

/-- A loop over all children passes a call on to all of them. -/
theorem map_loop_eq_passOn {α : Type} {children : List (ι × Connection (World β))}
    {call : Received} {answer : α → Reply} {loop : List (Connection (World β)) → Call (World β) α}
    (h : ∀ child rest, answer <$> loop (child :: rest) =
      call.combine <$> (child :: rest).mapM fun c => call.on c) :
    (answer <$> do
      Fanout.assertChildren (children.map Prod.snd)
      loop (children.map Prod.snd)) = passOn call (Callee.all children call) := by
  rw [map_bind]
  cases children with
  | nil => rfl
  | cons child rest =>
    show answer <$> loop _ = call.combine <$> (List.map _ (child :: rest)).mapM Callee.ask
    rw [List.map_cons, h, ← List.map_cons, List.mapM_map, List.mapM_map]
    rfl

/-! ## Replicated compositions -/

/-- Calls that a replicated composition passes on to all of its members. -/
inductive Received.ForMembers : Received → Prop
  | begin (level : Option IsolationLevel) (mode : Option AccessMode) :
    ForMembers (.begin level mode)
  | commit : ForMembers .commit
  | rollback : ForMembers .rollback
  | write {call : Received} (h : call.isRead? = some false) : ForMembers call

namespace Replicated

/-- The members in order, the primary first. -/
def members (link : Replicated β) : List (Member × Connection (World β)) :=
  link.primary.toList.map (fun c => (.primary, c)) ++
    link.mirrors.zipIdx.map fun p => (.mirror p.2, p.1)

/-- Whom a call is passed on to that goes to all. -/
def callees (link : Replicated β) (call : Received) : Except Error (List (Callee Member β)) :=
  Callee.all link.members call

theorem map_snd_members (link : Replicated β) : link.members.map Prod.snd = link.children := by
  simp [members, children, Function.comp_def]

/-- The members under observation are the members, recorded each under its own label. -/
theorem members_recorded (link : Replicated β) :
    link.recorded.members = link.members.map fun p => (p.1, p.2.recorded p.1) := by
  have hnumbered : (recordedMirrors link.mirrors.zipIdx).zipIdx =
      link.mirrors.zipIdx.map fun p => (p.1.recorded (.mirror p.2), p.2) := by
    apply List.ext_getElem <;> simp [recordedMirrors]
  rw [members, members, List.map_append]
  congr 1
  · cases link with
    | mk primary mirrors policy cursor lock blockSize blockSize_pos => cases primary <;> rfl
  · show (recordedMirrors link.mirrors.zipIdx).zipIdx.map _ = _
    rw [hnumbered, List.map_map, List.map_map]
    rfl

/-- A loop over the members passes a call on to all of them. -/
theorem map_eq_passOn {α : Type} {link : Replicated β} {call : Received} {answer : α → Reply}
    {loop : List (Connection (World β)) → Call (World β) α} {whole : Call (World β) α}
    (h : ∀ child rest, answer <$> loop (child :: rest) =
      call.combine <$> (child :: rest).mapM fun c => call.on c)
    (hwhole : whole = do
      Fanout.assertChildren link.children
      loop link.children) :
    answer <$> whole = passOn call (link.callees call) := by
  rw [hwhole, ← map_snd_members]
  exact map_loop_eq_passOn h

/-- What is not a read is dispatched to all members. -/
theorem dispatch_of_write {α : Type} (link : Replicated β) {query : Query}
    (h : query.isSelect = false) (ask : Connection (World β) → Call (World β) α) :
    link.dispatch query ask = (do
      Fanout.assertChildren link.children
      Fanout.last ask link.children) := by
  rw [dispatch, h]
  rfl

/-- A write is passed on to all members. -/
theorem on_connection_of_write (link : Replicated β) {call : Received}
    (h : call.isRead? = some false) :
    call.on link.connection = passOn call (link.callees call) := by
  have hkeptLast : ∀ {α : Type} {answer : α → Reply} {q : Query}
      {ask : Connection (World β) → Call (World β) α}, q.isSelect = false →
      (∀ child rest, answer <$> Fanout.last ask (child :: rest) =
        call.combine <$> (child :: rest).mapM fun c => call.on c) →
      answer <$> link.dispatch q ask = passOn call (link.callees call) :=
    fun hwrite hlast => map_eq_passOn hlast (link.dispatch_of_write hwrite _)
  cases call with
  | queryRaw sql =>
    refine map_eq_passOn (Fanout.map_last _ _) (?_ : link.raw sql = _)
    rw [raw, Option.some.inj h]
    rfl
  | query q => exact hkeptLast (Option.some.inj h) (Fanout.map_last _ _)
  | queryRow q => exact hkeptLast (Option.some.inj h) (Fanout.map_last _ _)
  | querySet q => exact hkeptLast (Option.some.inj h) (Fanout.map_last _ _)
  | queryColumn q => exact hkeptLast (Option.some.inj h) (Fanout.map_last _ _)
  | queryNumRows q => exact hkeptLast (Option.some.inj h) (Fanout.map_last _ _)
  | queryCount q =>
    refine map_eq_passOn (fun child rest => Fanout.map_total _ _) (?_ : link.count q = _)
    rw [count, Option.some.inj h]
    rfl
  | queryNull q =>
    refine hkeptLast (Option.some.inj h) fun child rest => ?_
    rw [Fanout.last_eq_each]
    exact Fanout.map_each _ _
  | _ => cases h

/-- A call that is for the members is passed on to them. -/
theorem on_connection (link : Replicated β) {call : Received} (h : call.ForMembers) :
    call.on link.connection = passOn call (link.callees call) := by
  cases h with
  | begin level mode => exact map_eq_passOn (fun child rest => Fanout.map_each _ _) rfl
  | commit => exact map_eq_passOn (fun child rest => Fanout.map_each _ _) rfl
  | rollback => exact map_eq_passOn (fun child rest => Fanout.map_each _ _) rfl
  | write h => exact link.on_connection_of_write h

/-- Under observation a call is passed on to the callees, recorded. -/
theorem callees_recorded (link : Replicated β) (call : Received) :
    link.recorded.callees call = (link.callees call).map fun cs => cs.map Callee.recorded := by
  rw [callees, callees, members_recorded, Callee.all_recorded]

end Replicated

/-! ## Sharded compositions -/

/-- Calls that a sharded composition passes on to shards. -/
inductive Received.ForShards : Received → Prop
  | begin (level : Option IsolationLevel) (mode : Option AccessMode) : ForShards (.begin level mode)
  | commit : ForShards .commit
  | rollback : ForShards .rollback
  | queryCount {q : Query} (h : q.isSelect = false) : ForShards (.queryCount q)
  | queryNull {q : Query} (h : q.isSelect = false) : ForShards (.queryNull q)

namespace Sharded

/-- The same composition, all calls on whose shards are written down. -/
def recorded (link : Sharded β) : Sharded (β × CallLog ShardId) where
  shards := link.shards.map fun p => (p.1, p.2.recorded p.1)
  maps := link.maps
  lock := link.lock

/-- The shards that have a part in a plan, in the order of registration, each asked for its part. -/
def planned (link : Sharded β) (ask : Query → Received) (plan : List (ShardId × Query)) :
    List (Callee ShardId β) :=
  link.shards.filterMap fun p => (plan.lookup p.1).map fun part => ⟨p.1, p.2, ask part⟩

/-- Whom a call is passed on to: a write to the shards that it is planned for, others to all. -/
def callees (link : Sharded β) : Received → Except Error (List (Callee ShardId β))
  | .queryCount q => (link.plan q).map (link.planned .queryCount)
  | .queryNull q => (link.plan q).map (link.planned .queryNull)
  | call => Callee.all link.shards call

/--
The parts of a plan go to the callees in turn, if the plan asks distinct shards in the order of
registration.
-/
theorem forall₂_planned {shards : List (ShardId × Connection (World β))}
    {plan : List (ShardId × Query)} (ask : Query → Received) (hnodup : (shards.map Prod.fst).Nodup)
    (hsub : (plan.map Prod.fst).Sublist (shards.map Prod.fst)) :
    List.Forall₂ (fun p (t : Callee ShardId β) =>
        shards.lookup p.1 = some t.connection ∧ t.entry = (p.1, ask p.2)) plan
      (shards.filterMap fun s => (plan.lookup s.1).map fun part => ⟨s.1, s.2, ask part⟩) := by
  induction shards generalizing plan with
  | nil =>
    rw [List.map_nil, List.sublist_nil, List.map_eq_nil_iff] at hsub
    rw [hsub]
    exact .nil
  | cons s rest ih =>
    obtain ⟨shard, connection⟩ := s
    rw [List.map_cons] at hnodup hsub
    obtain ⟨hfresh, hrest⟩ := List.nodup_cons.mp hnodup
    -- What is found among the later shards is found behind this one.
    have hlater : ∀ {p : ShardId × Query} {t : Callee ShardId β},
        rest.lookup p.1 = some t.connection ∧ t.entry = (p.1, ask p.2) →
        ((shard, connection) :: rest).lookup p.1 = some t.connection ∧
          t.entry = (p.1, ask p.2) := by
      rintro p t ⟨hfound, hentry⟩
      obtain ⟨front, back, hsplit, -⟩ := List.lookup_eq_some_iff.mp hfound
      have hmem : p.1 ∈ rest.map Prod.fst := by
        rw [hsplit]
        simp
      have hne : p.1 ≠ shard := fun h => hfresh (h ▸ hmem)
      rw [List.lookup_cons, beq_false_of_ne hne]
      exact ⟨hfound, hentry⟩
    -- The plan has no part for the shard, or its first part is for it.
    rcases List.sublist_cons_iff.mp hsub with hskip | ⟨later, hplan, hlaterSub⟩
    · have hnone : plan.lookup shard = none := by
        rw [List.lookup_eq_none_iff]
        intro p hp
        have hmem : p.1 ∈ rest.map Prod.fst := hskip.subset (List.mem_map_of_mem hp)
        exact bne_iff_ne.mpr fun h => hfresh (h ▸ hmem)
      rw [List.filterMap_cons, hnone]
      exact (ih hrest hskip).imp fun _ _ => hlater
    · obtain ⟨p, parts, rfl, rfl, rfl⟩ := List.map_eq_cons_iff.mp hplan
      have hparts : (rest.filterMap fun s => ((p :: parts).lookup s.1).map fun part =>
            (⟨s.1, s.2, ask part⟩ : Callee ShardId β)) =
          rest.filterMap fun s => (parts.lookup s.1).map fun part => ⟨s.1, s.2, ask part⟩ := by
        apply List.filterMap_congr
        intro s hs
        have hne : s.1 ≠ p.1 := fun h => hfresh (h ▸ List.mem_map_of_mem hs)
        rw [List.lookup_cons, beq_false_of_ne hne]
      rw [List.filterMap_cons, List.lookup_cons_self, hparts]
      exact .cons ⟨List.lookup_cons_self, rfl⟩ ((ih hrest hlaterSub).imp fun _ _ => hlater)

/-- What is made of the value of a call on a shard is made on the shard. -/
theorem map_onShard {α γ : Type} (link : Sharded β) (f : α → γ) (shard : ShardId)
    (call : Connection (World β) → Call (World β) α) :
    f <$> link.onShard shard call = link.onShard shard fun c => f <$> call c := by
  unfold onShard
  cases link.shard shard <;> rfl

/-- A plan asks its callees in turn. -/
theorem Sound.forall₂_planned {link : Sharded β} (h : link.Sound) {query : Query}
    {plan : List (ShardId × Query)} (hplan : link.plan query = .ok plan)
    (ask : Query → Received) :
    List.Forall₂ (fun p t => t.ask = link.onShard p.1 fun c => (ask p.2).on c) plan
      (link.planned ask plan) := by
  refine (Sharded.forall₂_planned ask h.nodup (h.plan_sublist hplan)).imp fun p t hp => ?_
  have hcall : t.call = ask p.2 := congrArg Prod.snd hp.2
  rw [Callee.ask, hcall, onShard, shard, hp.1]

/-- The callees of a plan are asked for its parts, all of them. -/
theorem Sound.map_entry_planned {link : Sharded β} (h : link.Sound) {query : Query}
    {plan : List (ShardId × Query)} (hplan : link.plan query = .ok plan)
    (ask : Query → Received) :
    (link.planned ask plan).map Callee.entry = plan.map fun p => (p.1, ask p.2) := by
  have hparts := Sharded.forall₂_planned ask h.nodup (h.plan_sublist hplan)
  rw [← List.forall₂_eq_eq_eq, List.forall₂_map_left_iff, List.forall₂_map_right_iff]
  exact hparts.flip.imp fun t p hp => hp.2

/-- Adding up the counts of the shards of a plan is adding up the answers of callees. -/
theorem map_totalOf {link : Sharded β} {plan : List (ShardId × Query)}
    {cs : List (Callee ShardId β)}
    (h : List.Forall₂ (fun p t => t.ask =
      link.onShard p.1 fun c => (Received.queryCount p.2).on c) plan cs) :
    Reply.number <$> link.totalOf Connection.queryCount plan =
      Reply.summed <$> cs.mapM Callee.ask := by
  induction h with
  | nil => rfl
  | @cons p t plan cs hask _ ih =>
    rw [totalOf, List.mapM_cons, hask]
    simp only [Received.on, ← map_onShard]
    exact map_number_add ih

/-- Writing to the shards of a plan is asking callees. -/
theorem map_writeEach {link : Sharded β} {plan : List (ShardId × Query)}
    {cs : List (Callee ShardId β)}
    (h : List.Forall₂ (fun p t => t.ask =
      link.onShard p.1 fun c => (Received.queryNull p.2).on c) plan cs) :
    Reply.ofUnit <$> link.writeEach plan = (fun _ => Reply.done) <$> cs.mapM Callee.ask := by
  induction h with
  | nil => rfl
  | @cons p t plan cs hask _ ih =>
    rw [writeEach, List.mapM_cons, hask]
    simp only [Received.on, ← map_onShard]
    exact map_ofUnit_next ih

/-- A call that is for shards is passed on to them. -/
theorem Sound.on_connection {link : Sharded β} (hlink : link.Sound) {call : Received}
    (h : call.ForShards) : call.on link.connection = passOn call (link.callees call) := by
  cases h with
  | begin level mode => exact map_loop_eq_passOn fun child rest => Fanout.map_each _ _
  | commit => exact map_loop_eq_passOn fun child rest => Fanout.map_each _ _
  | rollback => exact map_loop_eq_passOn fun child rest => Fanout.map_each _ _
  | @queryCount q h =>
    show _ <$> link.count q = passOn _ ((link.plan q).map _)
    unfold count
    rw [h]
    cases hplan : link.plan q with
    | error e => rfl
    | ok plan => exact map_totalOf (hlink.forall₂_planned hplan _)
  | @queryNull q h =>
    show _ <$> link.writeNull q = passOn _ ((link.plan q).map _)
    unfold writeNull
    rw [h]
    cases hplan : link.plan q with
    | error e => rfl
    | ok plan => exact map_writeEach (hlink.forall₂_planned hplan _)

/-! ### Under observation -/

theorem shardIds_recorded (link : Sharded β) : link.recorded.shardIds = link.shardIds := by
  rw [shardIds, recorded, List.map_map]
  rfl

theorem Sound.recorded {link : Sharded β} (h : link.Sound) : link.recorded.Sound :=
  ⟨link.shardIds_recorded ▸ h.nodup, h.maps⟩

/-- The same is planned. -/
theorem plan_recorded (link : Sharded β) (query : Query) :
    link.recorded.plan query = link.plan query := by
  unfold plan unknownAmong? position
  rw [shardIds_recorded]
  rfl

/-- A call is passed on to the callees, recorded. -/
theorem callees_recorded (link : Sharded β) (call : Received) :
    link.recorded.callees call = (link.callees call).map fun cs => cs.map Callee.recorded := by
  have hplanned : ∀ (ask : Query → Received) plan,
      link.recorded.planned ask plan = (link.planned ask plan).map Callee.recorded := by
    intro ask plan
    rw [planned, planned, Sharded.recorded, List.filterMap_map, List.map_filterMap]
    refine List.filterMap_congr fun p _ => ?_
    rw [Function.comp_apply, Option.map_map]
    rfl
  have hwrite : ∀ (ask : Query → Received) q,
      (link.recorded.plan q).map (link.recorded.planned ask) =
        ((link.plan q).map (link.planned ask)).map fun cs => cs.map Callee.recorded := by
    intro ask q
    rw [plan_recorded]
    cases link.plan q with
    | error e => rfl
    | ok plan => exact congrArg Except.ok (hplanned ask plan)
  cases call with
  | queryCount q => exact hwrite .queryCount q
  | queryNull q => exact hwrite .queryNull q
  | _ => exact Callee.all_recorded link.shards _

end Sharded

/-! ## Every way to pass a call on -/

/-- Three endpoints, the second of which fails what is asked of it. -/
def secondIsBusy : World Endpoints where
  room := ⟨0, 1, [], ⟨[], []⟩, [], []⟩
  cursors := []
  draws := []
  endpoints := ⟨⟨[.quiet "a", { Scripted.Script.quiet "b" with
    failures := [("commit", "busy"), ("count", "busy")] }, .quiet "c"], []⟩, []⟩

/-- The endpoints as shards, the second of which has no range of the table. -/
def threeShards : Sharded Endpoints where
  shards := [(3, Endpoints.scripted 0), (5, Endpoints.scripted 1), (7, Endpoints.scripted 2)]
  maps := [ShardMap.overlapping]
  lock := none

theorem built_threeShards : threeShards.Built := by
  have h₃ : Sharded.empty.addShard 3 (Endpoints.scripted 0) =
      .ok ⟨[(3, Endpoints.scripted 0)], [], none⟩ := rfl
  have h₅ : Sharded.addShard ⟨[(3, Endpoints.scripted 0)], [], none⟩ 5 (Endpoints.scripted 1) =
      .ok ⟨[(3, Endpoints.scripted 0), (5, Endpoints.scripted 1)], [], none⟩ := rfl
  have h₇ : Sharded.addShard ⟨[(3, Endpoints.scripted 0), (5, Endpoints.scripted 1)], [], none⟩ 7
      (Endpoints.scripted 2) = .ok { threeShards with maps := [] } := rfl
  exact (((Sharded.Built.empty.addShard h₃).addShard h₅).addShard h₇).setMap
    Sharded.overTables_pair.built

/-- The endpoints as a primary and two mirrors. -/
def threeMembers : Replicated Endpoints where
  primary := some (Endpoints.scripted 0)
  mirrors := [Endpoints.scripted 1, Endpoints.scripted 2]
  policy := .any
  cursor := 0
  lock := none
  blockSize := 1
  blockSize_pos := by decide

/-- Every user gets another name. -/
def renameAll : Query :=
  .update ((Update.of "users").withValue "name" (.str "u"))

end SqlFederation
