import SqlFederation.Proofs.Connecting

/-!
# Transactions of children

`Connection.Transacts` is what a child of a composition owes when transactions are begun and ended,
and two children are `Detached` if what is done to one does not change the transaction of the other.
A call on a composition asks the children one after the other and stops at the first one that
refuses (`Fanout.behind_cons`), and those behind that one are as they were. So a commit or a
rollback leaves no child in a transaction if it goes on to the last open one
(`Fanout.closed_of_completes`), and a composition would roll back exactly if each of its children
would (`Connection.Composes.accepts_rollback_iff`).

Databases transact (`Endpoints.transacts_database`), and compositions do if their children do
(`Connection.Composes.transacts`), so that children may be compositions themselves.
-/

namespace SqlFederation

namespace Connection

variable {σ β : Type}

/-- A call that begins or ends a transaction. -/
inductive Control where
  | begin (level : Option IsolationLevel) (mode : Option AccessMode)
  | commit
  | rollback

namespace Control

/-- Makes the call on a link. -/
def on (control : Control) (connection : Connection σ) : Call σ Unit :=
  match control with
  | .begin level mode => connection.begin level mode
  | .commit => connection.commit
  | .rollback => connection.rollback

/-- Does the call end a transaction? -/
def ends : Control → Bool
  | .begin .. => false
  | _ => true

end Control

/-- Does a call on the transaction of a link succeed? -/
def accepts (connection : Connection σ) (control : Control) (s : σ) : Bool :=
  ((control.on connection).outcome s).1.isOk

/-- The state behind a call on the transaction of a link. -/
def behind (connection : Connection σ) (control : Control) (s : σ) : σ :=
  ((control.on connection).outcome s).2

/-- Does a link have a transaction that it would roll back? -/
def IsLeftOpen (connection : Connection σ) (s : σ) : Prop :=
  connection.inTransaction s = true ∧ connection.accepts .rollback s = true

/-- What calls on the transaction of a link do in the good states. -/
structure Transacts (good : World β → Prop) (connection : Connection (World β)) : Prop where
  preserves : ∀ control w, good w → good (connection.behind control w)
  /-- A begin opens a transaction if it succeeds, and keeps an open one in any case. -/
  begun : ∀ level mode w, good w →
    connection.accepts (.begin level mode) w = true ∨ connection.inTransaction w = true →
    connection.inTransaction (connection.behind (.begin level mode) w) = true
  /-- A commit or a rollback leaves no transaction if it succeeds, or if there was none. -/
  ended : ∀ control w, control.ends = true → good w →
    connection.accepts control w = true ∨ connection.inTransaction w = false →
    connection.inTransaction (connection.behind control w) = false
  /-- Without a transaction there is nothing to roll back. -/
  refuses : ∀ w, good w → connection.inTransaction w = false →
    connection.accepts .rollback w = false
  /-- A rollback that is refused is refused again. -/
  settled : ∀ w, good w → connection.accepts .rollback w = false →
    connection.accepts .rollback (connection.behind .rollback w) = false

/-- Do calls on the transaction of one link leave that of another one as it is? -/
structure Bypasses (good : World β → Prop) (one other : Connection (World β)) : Prop where
  inTransaction : ∀ control w, good w →
    other.inTransaction (one.behind control w) = other.inTransaction w
  accepts : ∀ control w, good w →
    other.accepts .rollback (one.behind control w) = other.accepts .rollback w

/-- Two links each of which has its own transaction. -/
def Detached (good : World β → Prop) (one other : Connection (World β)) : Prop :=
  Bypasses good one other ∧ Bypasses good other one

/-- Links each of which transacts, detached from the others. -/
structure Siblings (good : World β → Prop) (children : List (Connection (World β))) : Prop where
  transacts : ∀ c ∈ children, Transacts good c
  detached : children.Pairwise (Detached good)

/-- A composition and its children. -/
inductive Composes : Connection (World β) → List (Connection (World β)) → Prop
  | sharded (link : Sharded β) : Composes link.connection link.children
  | replicated (link : Replicated β) : Composes link.connection link.children

variable {good : World β → Prop} {child other : Connection (World β)}
  {rest : List (Connection (World β))} {w : World β}

/-- A link that rolls back has a transaction. -/
theorem Transacts.inTransaction_of_accepts (h : Transacts good child) (hw : good w)
    (haccepts : child.accepts .rollback w = true) : child.inTransaction w = true := by
  cases hopen : child.inTransaction w with
  | true => rfl
  | false =>
    rw [h.refuses w hw hopen] at haccepts
    cases haccepts

/-- A rollback is not accepted behind a rollback. -/
theorem Transacts.rollback_behind (h : Transacts good child) (hw : good w) :
    child.accepts .rollback (child.behind .rollback w) = false := by
  cases haccepts : child.accepts .rollback w with
  | false => exact h.settled w hw haccepts
  | true =>
    have hclosed := h.ended .rollback w rfl hw (Or.inl haccepts)
    exact h.refuses _ (h.preserves .rollback w hw) hclosed

theorem Siblings.first (h : Siblings good (child :: rest)) : Transacts good child :=
  h.transacts child List.mem_cons_self

theorem Siblings.tail (h : Siblings good (child :: rest)) : Siblings good rest :=
  ⟨fun c hc => h.transacts c (List.mem_cons_of_mem child hc), (List.pairwise_cons.mp h.detached).2⟩

/-- The first one and one of the others bypass each other. -/
theorem Siblings.detached_first (h : Siblings good (child :: rest)) (hother : other ∈ rest) :
    Detached good child other :=
  (List.pairwise_cons.mp h.detached).1 other hother

end Connection

namespace Fanout

open Connection

variable {β : Type} {good : World β → Prop} {child other : Connection (World β)}
  {children rest : List (Connection (World β))} {control : Control} {w : World β}

/-- The state behind a call on the transactions of children. -/
def behind (control : Control) (children : List (Connection (World β))) (w : World β) : World β :=
  ((each control.on children).outcome w).2

/-- Do all children accept a call? -/
def accepts (control : Control) (children : List (Connection (World β))) (w : World β) : Bool :=
  ((each control.on children).outcome w).1.isOk

/-- A call goes on from a child that accepts it to the next one. -/
theorem outcome_each_cons (control : Control) (child : Connection (World β))
    (rest : List (Connection (World β))) (w : World β) :
    (each control.on (child :: rest)).outcome w =
      if child.accepts control w then (each control.on rest).outcome (child.behind control w)
      else (control.on child).outcome w := by
  unfold Connection.accepts Connection.behind
  cases hcall : (control.on child).outcome w with
  | mk result between =>
    cases result with
    | ok =>
      rw [each, Call.outcome_bind_of_ok hcall]
      rfl
    | error e =>
      rw [each, Call.outcome_bind_of_error hcall]
      rfl

theorem behind_cons (control : Control) (child : Connection (World β))
    (rest : List (Connection (World β))) (w : World β) :
    behind control (child :: rest) w =
      if child.accepts control w then behind control rest (child.behind control w)
      else child.behind control w := by
  rw [behind, outcome_each_cons]
  split
  · rfl
  · rfl

theorem accepts_cons (control : Control) (child : Connection (World β))
    (rest : List (Connection (World β))) (w : World β) :
    accepts control (child :: rest) w =
      (child.accepts control w && accepts control rest (child.behind control w)) := by
  rw [accepts, outcome_each_cons]
  split
  · rename_i haccepts
    rw [haccepts]
    rfl
  · rename_i hrefuses
    rw [Bool.not_eq_true] at hrefuses
    rw [hrefuses]
    exact hrefuses

theorem good_behind (h : ∀ c ∈ children, Transacts good c) (hw : good w) :
    good (behind control children w) := by
  induction children generalizing w with
  | nil => exact hw
  | cons child rest ih =>
    rw [List.forall_mem_cons] at h
    have hchild := h.1.preserves control w hw
    rw [behind_cons]
    split
    · exact ih h.2 hchild
    · exact hchild

/-- A link that the children bypass is as it was. -/
theorem bypassed (h : ∀ c ∈ children, Transacts good c ∧ Bypasses good c other) (hw : good w) :
    other.inTransaction (behind control children w) = other.inTransaction w ∧
      other.accepts .rollback (behind control children w) = other.accepts .rollback w := by
  induction children generalizing w with
  | nil => exact ⟨rfl, rfl⟩
  | cons child rest ih =>
    rw [List.forall_mem_cons] at h
    obtain ⟨⟨hchild, hbypass⟩, hrest⟩ := h
    rw [behind_cons]
    split
    · obtain ⟨hopen, haccepts⟩ := ih hrest (hchild.preserves control w hw)
      exact ⟨hopen.trans (hbypass.inTransaction control w hw),
        haccepts.trans (hbypass.accepts control w hw)⟩
    · exact ⟨hbypass.inTransaction control w hw, hbypass.accepts control w hw⟩

/-- The children behind the first one leave it as it was. -/
theorem first_bypassed (h : Siblings good (child :: rest)) (hw : good w) :
    child.inTransaction (behind control rest w) = child.inTransaction w ∧
      child.accepts .rollback (behind control rest w) = child.accepts .rollback w :=
  bypassed (fun c hc => ⟨h.tail.transacts c hc, (h.detached_first hc).2⟩) hw

/-- The first child, which is asked by a rollback, does not accept another one behind it. -/
theorem accepts_first_behind (h : Siblings good (child :: rest)) (hw : good w) :
    child.accepts .rollback (behind .rollback (child :: rest) w) = false := by
  have hrefused := h.first.rollback_behind hw
  rw [behind_cons]
  split
  · rw [(first_bypassed h (h.first.preserves .rollback w hw)).2]
    exact hrefused
  · exact hrefused

/-- Does a call go on, if not to the last child, then to the last one in a transaction? -/
def Completes (control : Control) : List (Connection (World β)) → World β → Prop
  | [], _ => True
  | child :: rest, w =>
    if child.accepts control w then Completes control rest (child.behind control w)
    else ∀ c ∈ child :: rest, c.inTransaction w = false

/-- A call that all children accept goes on to the last one. -/
theorem completes_of_accepts (h : accepts control children w = true) :
    Completes control children w := by
  induction children generalizing w with
  | nil => trivial
  | cons child rest ih =>
    rw [accepts_cons, Bool.and_eq_true] at h
    rw [Completes, if_pos h.1]
    exact ih h.2

/-- Where no child is in a transaction, a call may stop anywhere. -/
theorem completes_of_closed (h : ∀ c ∈ children, c.inTransaction w = false)
    (hsiblings : Siblings good children) (hw : good w) : Completes control children w := by
  induction children generalizing w with
  | nil => trivial
  | cons child rest ih =>
    rw [Completes]
    split
    · refine ih (fun c hc => ?_) hsiblings.tail (hsiblings.first.preserves control w hw)
      rw [(hsiblings.detached_first hc).1.inTransaction control w hw]
      exact h c (List.mem_cons_of_mem child hc)
    · exact h

/-- A commit or a rollback that goes on that far leaves no child in a transaction. -/
theorem closed_of_completes (hends : control.ends = true) (h : Completes control children w)
    (hsiblings : Siblings good children) (hw : good w) :
    ∀ c ∈ children, c.inTransaction (behind control children w) = false := by
  induction children generalizing w with
  | nil => exact List.forall_mem_nil _
  | cons child rest ih =>
    have hgood := hsiblings.first.preserves control w hw
    rw [Completes] at h
    rw [behind_cons, List.forall_mem_cons]
    split
    · rename_i haccepts
      rw [if_pos haccepts] at h
      refine ⟨?_, ih h hsiblings.tail hgood⟩
      rw [(first_bypassed hsiblings hgood).1]
      exact hsiblings.first.ended control w hends hw (Or.inl haccepts)
    · rename_i hrefuses
      rw [if_neg hrefuses, List.forall_mem_cons] at h
      refine ⟨hsiblings.first.ended control w hends hw (Or.inr h.1), fun later hlater => ?_⟩
      rw [(hsiblings.detached_first hlater).1.inTransaction control w hw]
      exact h.2 later hlater

/-- A begin that all children accept opens each of them, and none is closed by a begin. -/
theorem inTransaction_begin {level : Option IsolationLevel} {mode : Option AccessMode}
    (hchild : child ∈ children) (hsiblings : Siblings good children) (hw : good w)
    (h : accepts (.begin level mode) children w = true ∨ child.inTransaction w = true) :
    child.inTransaction (behind (.begin level mode) children w) = true := by
  induction children generalizing w with
  | nil => cases hchild
  | cons first rest ih =>
    have hgood := hsiblings.first.preserves (.begin level mode) w hw
    rw [accepts_cons, Bool.and_eq_true] at h
    rw [behind_cons]
    obtain rfl | hmem := List.mem_cons.mp hchild
    · have hopen := hsiblings.first.begun level mode w hw (h.imp_left And.left)
      split
      · rw [(first_bypassed hsiblings hgood).1]
        exact hopen
      · exact hopen
    · have hkept := (hsiblings.detached_first hmem).1.inTransaction (.begin level mode) w hw
      split
      · refine ih hmem hsiblings.tail hgood (h.imp And.right fun hopen => ?_)
        rw [hkept]
        exact hopen
      · rename_i hrefuses
        rw [hkept]
        exact h.resolve_left fun haccepts => hrefuses haccepts.1

/-- A rollback is accepted by all children if each of them would accept one. -/
theorem accepts_rollback_iff (hsiblings : Siblings good children) (hw : good w) :
    accepts .rollback children w = true ↔ ∀ c ∈ children, c.accepts .rollback w = true := by
  induction children generalizing w with
  | nil => exact iff_of_true rfl (List.forall_mem_nil _)
  | cons first rest ih =>
    have hsame : ∀ c ∈ rest, c.accepts .rollback (first.behind .rollback w) = true ↔
        c.accepts .rollback w = true := fun c hc => by
      rw [(hsiblings.detached_first hc).1.accepts .rollback w hw]
    rw [accepts_cons, Bool.and_eq_true, List.forall_mem_cons,
      ih hsiblings.tail (hsiblings.first.preserves .rollback w hw)]
    exact and_congr_right fun _ => forall₂_congr hsame

end Fanout

/-! ## Compositions -/

namespace Connection

variable {β : Type} {good : World β → Prop} {connection one other : Connection (World β)}
  {children : List (Connection (World β))} {w : World β}

/-- A call on a composition is one on its children, if it has any. -/
theorem Composes.outcome_on (h : Composes connection children) (control : Control) :
    control.on connection =
      (Fanout.assertChildren children >>= fun _ => Fanout.each control.on children) := by
  cases h with
  | sharded link => cases control <;> rfl
  | replicated link => cases control <;> rfl

theorem Composes.inTransaction_eq (h : Composes connection children) (w : World β) :
    connection.inTransaction w = children.any fun c => c.inTransaction w := by
  cases h with
  | _ => rfl

theorem Composes.behind_eq (h : Composes connection children) (control : Control) (w : World β) :
    connection.behind control w = Fanout.behind control children w := by
  unfold behind Fanout.behind
  rw [h.outcome_on]
  cases children with
  | nil => rfl
  | cons child rest => rfl

theorem Composes.accepts_eq (h : Composes connection children) (control : Control) (w : World β) :
    connection.accepts control w = (!children.isEmpty && Fanout.accepts control children w) := by
  unfold accepts Fanout.accepts
  rw [h.outcome_on]
  cases children with
  | nil => rfl
  | cons child rest => rfl

/-- A composition would roll back if it has children and each of them would. -/
theorem Composes.accepts_rollback_iff (h : Composes connection children)
    (hsiblings : Siblings good children) (hw : good w) :
    connection.accepts .rollback w = true ↔
      children ≠ [] ∧ ∀ c ∈ children, c.accepts .rollback w = true := by
  rw [h.accepts_eq, Bool.and_eq_true, Fanout.accepts_rollback_iff hsiblings hw]
  simp

/-- Children that transact make a composition that does. -/
theorem Composes.transacts (h : Composes connection children)
    (hsiblings : Siblings good children) : Transacts good connection where
  preserves control w hw := by
    rw [h.behind_eq]
    exact Fanout.good_behind hsiblings.transacts hw
  begun level mode w hw hbegun := by
    rw [h.accepts_eq, Bool.and_eq_true, h.inTransaction_eq, List.any_eq_true] at hbegun
    rw [h.behind_eq, h.inTransaction_eq, List.any_eq_true]
    obtain ⟨hsome, haccepts⟩ | ⟨child, hchild, hopen⟩ := hbegun
    · have hne : children ≠ [] := by simpa using hsome
      obtain ⟨child, hchild⟩ := List.exists_mem_of_ne_nil children hne
      exact ⟨child, hchild, Fanout.inTransaction_begin hchild hsiblings hw (Or.inl haccepts)⟩
    · exact ⟨child, hchild, Fanout.inTransaction_begin hchild hsiblings hw (Or.inr hopen)⟩
  ended control w hends hw hended := by
    have hcompletes : Fanout.Completes control children w := by
      rw [h.accepts_eq, Bool.and_eq_true, h.inTransaction_eq, List.any_eq_false] at hended
      obtain ⟨-, haccepts⟩ | hclosed := hended
      · exact Fanout.completes_of_accepts haccepts
      · refine Fanout.completes_of_closed (fun c hc => ?_) hsiblings hw
        exact Bool.eq_false_iff.mpr (hclosed c hc)
    rw [h.behind_eq, h.inTransaction_eq, List.any_eq_false]
    exact fun c hc => Bool.eq_false_iff.mp
      (Fanout.closed_of_completes hends hcompletes hsiblings hw c hc)
  refuses w hw hclosed := by
    rw [h.inTransaction_eq, List.any_eq_false] at hclosed
    rw [Bool.eq_false_iff, ne_eq, h.accepts_rollback_iff hsiblings hw]
    rintro ⟨hsome, hall⟩
    obtain ⟨child, hchild⟩ := List.exists_mem_of_ne_nil children hsome
    have htransacts := hsiblings.transacts child hchild
    exact hclosed child hchild (htransacts.inTransaction_of_accepts hw (hall child hchild))
  settled w hw _ := by
    have hgood : good (Fanout.behind .rollback children w) :=
      Fanout.good_behind hsiblings.transacts hw
    rw [Bool.eq_false_iff, ne_eq, h.behind_eq, h.accepts_rollback_iff hsiblings hgood]
    rintro ⟨hsome, hall⟩
    -- The first child was asked, so it has nothing left to roll back.
    obtain ⟨child, rest, rfl⟩ := List.exists_cons_of_ne_nil hsome
    have hfirst := hall child List.mem_cons_self
    rw [Fanout.accepts_first_behind hsiblings hw] at hfirst
    cases hfirst

/-- A composition bypasses what its children bypass. -/
theorem Composes.bypasses (h : Composes connection children)
    (hchildren : ∀ c ∈ children, Transacts good c ∧ Bypasses good c other) :
    Bypasses good connection other where
  inTransaction control w hw := by
    rw [h.behind_eq]
    exact (Fanout.bypassed hchildren hw).1
  accepts control w hw := by
    rw [h.behind_eq]
    exact (Fanout.bypassed hchildren hw).2

/-- What bypasses the children of a composition bypasses the composition. -/
theorem Composes.bypassed (h : Composes connection children) (hone : Transacts good one)
    (hsiblings : Siblings good children) (hchildren : ∀ c ∈ children, Bypasses good one c) :
    Bypasses good one connection where
  inTransaction control w hw := by
    rw [h.inTransaction_eq, h.inTransaction_eq, Bool.eq_iff_iff, List.any_eq_true, List.any_eq_true]
    refine exists_congr fun c => and_congr_right fun hc => ?_
    rw [(hchildren c hc).inTransaction control w hw]
  accepts control w hw := by
    rw [Bool.eq_iff_iff, h.accepts_rollback_iff hsiblings (hone.preserves control w hw),
      h.accepts_rollback_iff hsiblings hw]
    refine and_congr_right fun _ => forall₂_congr fun c hc => ?_
    rw [(hchildren c hc).accepts control w hw]

end Connection

/-! ## Databases -/

namespace Embedded

open Connection (Control)

/-- A link that is put where it is changes nothing. -/
theorem Host.set_handle (host : Host) (number : Nat) :
    host.handles.set number (host.handle number) = host.handles := by
  rw [handle, List.getD_eq_getElem?_getD]
  by_cases hnumber : number < host.handles.length
  · rw [List.getElem?_eq_getElem hnumber, Option.getD_some, List.set_getElem_self]
  · exact List.set_eq_of_length_le (Nat.le_of_not_lt hnumber)

/-- A link without a transaction has none where it is put. -/
theorem Host.transaction_setHandle {host : Host} {number : Nat} {handle : Handle}
    (h : handle.transaction = none) :
    ((host.setHandle number handle).handle number).transaction = none := by
  rw [Host.handle, setHandle, List.getD_eq_getElem?_getD]
  by_cases hnumber : number < host.handles.length
  · rw [List.getElem?_set_self hnumber]
    exact h
  · rw [List.getElem?_eq_none (by rw [List.length_set]; exact Nat.le_of_not_lt hnumber)]
    rfl

/-- A database is put where it is kept without a change to the transaction of its link. -/
theorem Host.handles_store_of (host : Host) (number : Nat) (db : Storage.Database) :
    ∃ handle : Handle, handle.transaction = (host.handle number).transaction ∧
      (host.store number db).handles = host.handles.set number handle := by
  cases hpath : (host.handle number).location.path? with
  | none =>
    refine ⟨{ host.handle number with own := db }, rfl, ?_⟩
    simp only [store, hpath, setHandle]
  | some path => exact ⟨host.handle number, rfl, by rw [handles_store hpath, host.set_handle]⟩

/-- An end of a transaction leaves the link without one, if what finishes it does so. -/
theorem handles_endTransaction (number : Nat)
    {finish : Transaction → Host → Except Error Unit × Host} (host : Host)
    (hfinish : ∀ transaction closed, (closed.handle number).transaction = none →
      ∃ handle : Handle, handle.transaction = none ∧
        (finish transaction closed).2.handles = closed.handles.set number handle) :
    ∃ handle : Handle, handle.transaction = none ∧
      ((endTransaction number finish).outcome host).2.handles =
        host.handles.set number handle := by
  rw [endTransaction, Call.outcome_of]
  dsimp only
  split
  · rename_i hnone
    exact ⟨host.handle number, hnone, host.set_handle number |>.symm⟩
  · rename_i transaction hsome
    obtain ⟨handle, hclosed, hset⟩ := hfinish transaction
      (host.setHandle number { host.handle number with transaction := none })
      (Host.transaction_setHandle rfl)
    refine ⟨handle, hclosed, hset.trans ?_⟩
    rw [Host.setHandle, List.set_set]

/-- A commit and a rollback leave the link without a transaction, whether they succeed or fail. -/
theorem handles_ends (number : Nat) {control : Control} (hends : control.ends = true)
    (host : Host) :
    ∃ handle : Handle, handle.transaction = none ∧
      ((control.on (calls number)).outcome host).2.handles = host.handles.set number handle := by
  cases control with
  | begin level mode => cases hends
  | rollback =>
    refine handles_endTransaction number host fun _ closed hclosed => ?_
    exact ⟨closed.handle number, hclosed, (closed.set_handle number).symm⟩
  | commit =>
    show ∃ handle : Handle, _ ∧ ((commit number).outcome host).2.handles = _
    rw [commit]
    refine handles_endTransaction number host fun transaction closed hclosed => ?_
    have hkept : ∃ handle : Handle, handle.transaction = none ∧
        closed.handles = closed.handles.set number handle :=
      ⟨closed.handle number, hclosed, (closed.set_handle number).symm⟩
    split
    · rename_i db _
      split
      · exact hkept
      · split
        · obtain ⟨handle, hsame, hset⟩ := closed.handles_store_of number db
          exact ⟨handle, hsame.trans hclosed, hset⟩
        · exact hkept
    · exact hkept

/-- A begin opens a transaction, or fails and leaves the link as it is. -/
theorem handles_begin (number : Nat) (level : Option IsolationLevel) (mode : Option AccessMode)
    (host : Host) :
    ∃ handle : Handle, handle.transaction.isSome =
        (((begin number level mode).outcome host).1.isOk ||
          (host.handle number).transaction.isSome) ∧
      ((begin number level mode).outcome host).2.handles = host.handles.set number handle := by
  have hkept : host.handles = host.handles.set number (host.handle number) :=
    (host.set_handle number).symm
  rw [begin, Call.outcome_of]
  dsimp only
  split
  · exact ⟨host.handle number, rfl, hkept⟩
  · split
    · exact ⟨host.handle number, rfl, hkept⟩
    · split
      · exact ⟨_, rfl, rfl⟩
      · split
        · exact ⟨host.handle number, rfl, hkept⟩
        · exact ⟨_, rfl, rfl⟩

/-- A rollback succeeds where there is a transaction. -/
theorem isOk_rollback (number : Nat) (host : Host) :
    ((rollback number).outcome host).1.isOk = (host.handle number).transaction.isSome := by
  rw [rollback, endTransaction, Call.outcome_of]
  dsimp only
  split
  · rename_i hnone
    rw [hnone]
    rfl
  · rename_i hsome
    rw [hsome]
    rfl

end Embedded

namespace Endpoints

open Connection (Control Transacts Bypasses Detached)

variable {scripts databases : Nat} {number : Nat}

/-- A call on the transaction of a database changes no other link. -/
theorem handles_behind (number : Nat) (control : Control) (w : World Endpoints) :
    ∃ handle : Embedded.Handle,
      (host ((database number).behind control w)).handles =
        (host w).handles.set number handle ∧
      (control.ends = true → handle.transaction = none) ∧
      (control.ends = false → handle.transaction.isSome =
        ((database number).accepts control w || (database number).inTransaction w)) := by
  cases hends : control.ends with
  | true =>
    obtain ⟨handle, hnone, hset⟩ := Embedded.handles_ends number hends (host w)
    refine ⟨handle, ?_, fun _ => hnone, nofun⟩
    cases control <;> exact hset
  | false =>
    cases control with
    | begin level mode =>
      obtain ⟨handle, hsome, hset⟩ := Embedded.handles_begin number level mode (host w)
      exact ⟨handle, hset, nofun, fun _ => hsome⟩
    | _ => cases hends

theorem accepts_rollback_database (number : Nat) (w : World Endpoints) :
    (database number).accepts .rollback w = (database number).inTransaction w :=
  Embedded.isOk_rollback number (host w)

/-- A link that is put among the links has the transaction that it is put there with. -/
theorem inTransaction_of_set {w w' : World Endpoints} {handle : Embedded.Handle}
    (h : (host w').handles = (host w).handles.set number handle)
    (hnumber : number < (host w).handles.length) :
    (database number).inTransaction w' = handle.transaction.isSome := by
  show ((host w').handles.getD number _).transaction.isSome = _
  rw [h, List.getD_eq_getElem?_getD, List.getElem?_set_self hnumber]
  rfl

theorem inTransaction_of_set_ne {w w' : World Endpoints} {handle : Embedded.Handle} {other : Nat}
    (h : (host w').handles = (host w).handles.set number handle) (hne : number ≠ other) :
    (database other).inTransaction w' = (database other).inTransaction w := by
  show ((host w').handles.getD other _).transaction.isSome =
    ((host w).handles.getD other _).transaction.isSome
  rw [h, List.getD_eq_getElem?_getD, List.getElem?_set_ne hne, List.getD_eq_getElem?_getD]

/-- A database that is there begins, commits and rolls back as a child should. -/
theorem transacts_database (hnumber : number < databases) :
    Transacts (Has scripts databases) (database number) := by
  have hlength : ∀ w, Has scripts databases w → number < (host w).handles.length := fun w hw => by
    rw [show (host w).handles.length = databases from hw.2]
    exact hnumber
  -- A commit and a rollback leave no transaction even if they fail.
  have hclosed : ∀ control w, control.ends = true → Has scripts databases w →
      (database number).inTransaction ((database number).behind control w) = false := by
    intro control w hends hw
    obtain ⟨handle, hset, hnone, -⟩ := handles_behind number control w
    rw [inTransaction_of_set hset (hlength w hw), hnone hends]
    rfl
  constructor
  case preserves =>
    intro control w hw
    obtain ⟨handle, hset, -, -⟩ := handles_behind number control w
    refine ⟨?_, ?_⟩
    · cases control <;> exact hw.1
    · show (host _).handles.length = databases
      rw [hset, List.length_set]
      exact hw.2
  case begun =>
    intro level mode w hw hbegun
    obtain ⟨handle, hset, -, hsome⟩ := handles_behind number (.begin level mode) w
    rw [inTransaction_of_set hset (hlength w hw), hsome rfl, Bool.or_eq_true]
    exact hbegun
  case ended => exact fun control w hends hw _ => hclosed control w hends hw
  case refuses =>
    intro w _ hnone
    rw [accepts_rollback_database]
    exact hnone
  case settled =>
    intro w hw _
    rw [accepts_rollback_database]
    exact hclosed .rollback w rfl hw

/-- Two databases have their own transactions. -/
theorem detached_databases {one other : Nat} (hne : one ≠ other) :
    Detached (Has scripts databases) (database one) (database other) := by
  have hbypasses : ∀ {n m : Nat}, n ≠ m →
      Bypasses (Has scripts databases) (database n) (database m) := by
    intro n m hne
    have hkept : ∀ control w, (database m).inTransaction ((database n).behind control w) =
        (database m).inTransaction w := by
      intro control w
      obtain ⟨handle, hset, -, -⟩ := handles_behind n control w
      exact inTransaction_of_set_ne hset hne
    refine ⟨fun control w _ => hkept control w, fun control w _ => ?_⟩
    rw [accepts_rollback_database, accepts_rollback_database]
    exact hkept control w
  exact ⟨hbypasses hne, hbypasses hne.symm⟩

end Endpoints

end SqlFederation
