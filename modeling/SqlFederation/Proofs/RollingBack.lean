import SqlFederation.Proofs.Transactions

/-!
# Rolling back

A rollback of a composition asks its children one after the other and stops at the first one that
refuses. `Connection.rollback_cleans_up` says what that leaves. Behind a rollback a child is still
in a transaction that it would roll back exactly if it would have done so before and a child in
front of it refused. And as long as no commit and no rollback fails at a child that is in a
transaction, the open children are the first ones (`Fanout.OpenFirst`), because a begin that fails
leaves the children behind as they were. Then the rollback refuses behind the last open child, if it
does, and no child is left in a transaction. A commit that fails half-way breaks that
(`Sharded.rollback_leaves_open`).
-/

namespace SqlFederation

open Connection (Control Siblings)

namespace Fanout

variable {β : Type} {good : World β → Prop} {child : Connection (World β)}
  {children : List (Connection (World β))} {control : Control} {w : World β}

/--
Behind a rollback of children, one of them has a transaction that it would roll back exactly if it
would have done so before and a child in front of it refused.
-/
theorem accepts_behind_iff {front back : List (Connection (World β))}
    (h : Siblings good (front ++ child :: back)) (hw : good w) :
    child.accepts .rollback (behind .rollback (front ++ child :: back) w) = true ↔
      child.accepts .rollback w = true ∧ ∃ first ∈ front, first.accepts .rollback w = false := by
  induction front generalizing w with
  | nil =>
    rw [List.nil_append] at h ⊢
    rw [accepts_first_behind h hw]
    simp
  | cons first front ih =>
    rw [List.cons_append] at h ⊢
    have hsame : ∀ c ∈ front ++ child :: back,
        c.accepts .rollback (first.behind .rollback w) = c.accepts .rollback w :=
      fun c hc => (h.detached_first hc).1.accepts .rollback w hw
    have hchild := hsame child (List.mem_append_right _ List.mem_cons_self)
    rw [behind_cons]
    split
    · rename_i haccepts
      have hfront : ∀ c ∈ front, c.accepts .rollback (first.behind .rollback w) = false ↔
          c.accepts .rollback w = false := fun c hc => by
        rw [hsame c (List.mem_append_left _ hc)]
      rw [ih h.tail (h.first.preserves .rollback w hw), hchild,
        exists_congr fun c => and_congr_right (hfront c)]
      simp [haccepts]
    · rename_i hrefuses
      rw [hchild]
      simp [hrefuses]

/-! ## Children that are open first -/

/-- Are the children in a transaction the first ones? -/
def OpenFirst (children : List (Connection (World β))) (w : World β) : Prop :=
  children.Pairwise fun first later =>
    later.inTransaction w = true → first.inTransaction w = true

/-- Does a call stop, if it does, at a child without a transaction? -/
def stopsOutside (control : Control) : List (Connection (World β)) → World β → Bool
  | [], _ => true
  | child :: rest, w =>
    if child.accepts control w then stopsOutside control rest (child.behind control w)
    else !child.inTransaction w

/-- What does not change the transactions of children leaves the first ones open. -/
theorem OpenFirst.congr {w' : World β} (h : OpenFirst children w)
    (hsame : ∀ c ∈ children, c.inTransaction w' = c.inTransaction w) : OpenFirst children w' := by
  refine List.Pairwise.imp_of_mem (fun {first later} hfirst hlater himp => ?_) h
  rw [hsame first hfirst, hsame later hlater]
  exact himp

/-- Children none of which is open are open first. -/
theorem openFirst_of_closed (h : ∀ c ∈ children, c.inTransaction w = false) :
    OpenFirst children w := by
  refine List.pairwise_of_forall_mem_list fun first _ later hlater hopen => ?_
  rw [h later hlater] at hopen
  cases hopen

/-- A begin keeps the first children open, wherever it stops. -/
theorem OpenFirst.begin {level : Option IsolationLevel} {mode : Option AccessMode}
    (h : OpenFirst children w) (hsiblings : Siblings good children) (hw : good w) :
    OpenFirst children (behind (.begin level mode) children w) := by
  induction children generalizing w with
  | nil => exact List.Pairwise.nil
  | cons child rest ih =>
    obtain ⟨hfirst, hrest⟩ := List.pairwise_cons.mp h
    have hgood := hsiblings.first.preserves (.begin level mode) w hw
    have hkept : ∀ c ∈ rest, c.inTransaction (child.behind (.begin level mode) w) =
        c.inTransaction w := fun c hc => (hsiblings.detached_first hc).1.inTransaction _ w hw
    have hbehind := OpenFirst.congr hrest hkept
    rw [behind_cons]
    split
    · rename_i haccepts
      have hopen := hsiblings.first.begun level mode w hw (Or.inl haccepts)
      refine List.pairwise_cons.mpr ⟨fun later _ _ => ?_, ih hbehind hsiblings.tail hgood⟩
      rw [(first_bypassed hsiblings hgood).1]
      exact hopen
    · -- The children behind are as they were, and one of them is open only if the first one was.
      refine List.pairwise_cons.mpr ⟨fun later hlater hopen => ?_, hbehind⟩
      rw [hkept later hlater] at hopen
      exact hsiblings.first.begun level mode w hw (Or.inr (hfirst later hlater hopen))

/-- A call that stops outside does so behind the open children, if these are the first ones. -/
theorem OpenFirst.completes (h : OpenFirst children w)
    (hstops : stopsOutside control children w = true) (hsiblings : Siblings good children)
    (hw : good w) : Completes control children w := by
  induction children generalizing w with
  | nil => trivial
  | cons child rest ih =>
    obtain ⟨hfirst, hrest⟩ := List.pairwise_cons.mp h
    rw [stopsOutside] at hstops
    rw [Completes]
    split
    · rename_i haccepts
      rw [if_pos haccepts] at hstops
      have hbehind : OpenFirst rest (child.behind control w) := OpenFirst.congr hrest
        fun c hc => (hsiblings.detached_first hc).1.inTransaction control w hw
      exact ih hbehind hstops hsiblings.tail (hsiblings.first.preserves control w hw)
    · rename_i hrefuses
      rw [if_neg hrefuses, Bool.not_eq_true'] at hstops
      refine List.forall_mem_cons.mpr ⟨hstops, fun later hlater => ?_⟩
      rw [Bool.eq_false_iff]
      intro hopen
      rw [hfirst later hlater hopen] at hstops
      cases hstops

end Fanout

/-! ## Rolling back -/

namespace Connection

variable {β : Type} {good : World β → Prop} {connection : Connection (World β)}
  {children : List (Connection (World β))} {w : World β}

/--
A state that calls on the transaction of a composition lead to from one without transactions, where
no commit and no rollback failed at a child that was in a transaction. A begin may fail anywhere.
-/
inductive Unbroken (good : World β → Prop) (connection : Connection (World β))
    (children : List (Connection (World β))) : World β → Prop
  | start {w : World β} (hw : good w) (hclosed : ∀ c ∈ children, c.inTransaction w = false) :
    Unbroken good connection children w
  | begin {w : World β} (h : Unbroken good connection children w) (level : Option IsolationLevel)
    (mode : Option AccessMode) :
    Unbroken good connection children (connection.behind (.begin level mode) w)
  | finish {w : World β} (h : Unbroken good connection children w) {control : Control}
    (hends : control.ends = true) (hstops : Fanout.stopsOutside control children w = true) :
    Unbroken good connection children (connection.behind control w)

/-- In such a state the open children are the first ones. -/
theorem Unbroken.openFirst (h : Unbroken good connection children w)
    (hcomposes : Composes connection children) (hsiblings : Siblings good children) :
    good w ∧ Fanout.OpenFirst children w := by
  induction h with
  | start hw hclosed => exact ⟨hw, Fanout.openFirst_of_closed hclosed⟩
  | begin _ level mode ih =>
    obtain ⟨hw, hopen⟩ := ih
    rw [hcomposes.behind_eq]
    exact ⟨Fanout.good_behind hsiblings.transacts hw, hopen.begin hsiblings hw⟩
  | finish _ hends hstops ih =>
    obtain ⟨hw, hopen⟩ := ih
    have hcompletes := hopen.completes hstops hsiblings hw
    have hclosed := Fanout.closed_of_completes hends hcompletes hsiblings hw
    rw [hcomposes.behind_eq]
    exact ⟨Fanout.good_behind hsiblings.transacts hw, Fanout.openFirst_of_closed hclosed⟩

/--
What a rollback of a composition leaves, whether it succeeds or fails. In any state, a child is
still in a transaction that it would roll back exactly if it would have done so before and a child
in front of it refused its own rollback. So a rollback cleans up unless a commit or a rollback has
failed at a child that was in a transaction: in all other states that begins, commits and rollbacks
lead to, no child is in a transaction behind a rollback.
-/
theorem rollback_cleans_up (hcomposes : Composes connection children)
    (hsiblings : Siblings good children) :
    (∀ w, good w → ∀ front child back, children = front ++ child :: back →
      (child.IsLeftOpen (connection.behind .rollback w) ↔
        child.accepts .rollback w = true ∧ ∃ first ∈ front, first.accepts .rollback w = false)) ∧
    ∀ w, Unbroken good connection children w →
      Fanout.stopsOutside .rollback children w = true →
      ∀ child ∈ children, child.inTransaction (connection.behind .rollback w) = false := by
  constructor
  · rintro w hw front child back rfl
    have hiff := Fanout.accepts_behind_iff hsiblings hw
    have hgood : good (Fanout.behind .rollback (front ++ child :: back) w) :=
      Fanout.good_behind hsiblings.transacts hw
    have hchild := hsiblings.transacts child (List.mem_append_right _ List.mem_cons_self)
    rw [IsLeftOpen, hcomposes.behind_eq, ← hiff]
    exact ⟨And.right, fun haccepts => ⟨hchild.inTransaction_of_accepts hgood haccepts, haccepts⟩⟩
  · intro w hunbroken hstops
    obtain ⟨hw, hopen⟩ := hunbroken.openFirst hcomposes hsiblings
    have hcompletes := hopen.completes hstops hsiblings hw
    rw [hcomposes.behind_eq]
    exact Fanout.closed_of_completes rfl hcompletes hsiblings hw

end Connection

/-! ## Three databases -/

namespace Sharded

open Connection (Composes)

/-- Three databases, each of which has a part of the orders. -/
def ordersInThree : Sharded Endpoints where
  shards := [(1, Endpoints.database 0), (2, Endpoints.database 1), (3, Endpoints.database 2)]
  maps := [⟨"orders", "id",
    [⟨1, .atMost 99, none⟩, ⟨2, ⟨some 100, some 199⟩, none⟩, ⟨3, .atLeast 200, none⟩]⟩]
  lock := none

/-- The state of three databases. -/
def worldOf (first second third : Embedded.Handle) : World Endpoints where
  room := ⟨0, 1, [], ⟨[], []⟩, [], []⟩
  cursors := []
  draws := []
  endpoints := ⟨.empty, [first, second, third]⟩

theorem composes_ordersInThree :
    Composes ordersInThree.connection
      [Endpoints.database 0, Endpoints.database 1, Endpoints.database 2] :=
  .sharded ordersInThree

theorem siblings_ordersInThree :
    Siblings (Endpoints.Has 0 3)
      [Endpoints.database 0, Endpoints.database 1, Endpoints.database 2] where
  transacts := by
    rw [List.forall_mem_cons, List.forall_mem_cons, List.forall_mem_singleton]
    exact ⟨Endpoints.transacts_database (by decide), Endpoints.transacts_database (by decide),
      Endpoints.transacts_database (by decide)⟩
  detached := by
    rw [List.pairwise_cons, List.forall_mem_cons, List.forall_mem_singleton, List.pairwise_pair]
    exact ⟨⟨Endpoints.detached_databases (by decide), Endpoints.detached_databases (by decide)⟩,
      Endpoints.detached_databases (by decide)⟩

/-- A database that is connected. -/
def connectedMemory : Embedded.Handle := { Embedded.Handle.new .memory with connected := true }

/-- The second of three databases is not connected. -/
def secondMissing : World Endpoints :=
  worldOf connectedMemory (.new .memory) connectedMemory

/-- All three databases are connected. -/
def allConnected : World Endpoints :=
  worldOf connectedMemory connectedMemory connectedMemory

end Sharded

open Sharded in
/--
A begin that fails at the second database leaves the first one open. The rollback fails at the
second one too, and no database is in a transaction behind it. But where the second one is in a
transaction of its own and the first one in none, the second one is still open behind a rollback.
-/
theorem Connection.rollback_cleans_up_orders :
    let failed := ordersInThree.connection.behind (.begin none none) secondMissing
    let later := (Endpoints.database 1).behind (.begin none none) allConnected
    (Endpoints.database 0).inTransaction failed = true ∧
      Unbroken (Endpoints.Has 0 3) ordersInThree.connection
        [Endpoints.database 0, Endpoints.database 1, Endpoints.database 2] failed ∧
      (∀ c ∈ [Endpoints.database 0, Endpoints.database 1, Endpoints.database 2],
        c.inTransaction (ordersInThree.connection.behind .rollback failed) = false) ∧
      (Endpoints.database 1).IsLeftOpen (ordersInThree.connection.behind .rollback later) := by
  intro failed later
  obtain ⟨hopen, hclosed⟩ := rollback_cleans_up composes_ordersInThree siblings_ordersInThree
  have hstart : ∀ c ∈ [Endpoints.database 0, Endpoints.database 1, Endpoints.database 2],
      c.inTransaction secondMissing = false := by
    rw [List.forall_mem_cons, List.forall_mem_cons, List.forall_mem_singleton]
    exact ⟨rfl, rfl, rfl⟩
  have hunbroken := (Unbroken.start ⟨rfl, rfl⟩ hstart : Unbroken (Endpoints.Has 0 3)
    ordersInThree.connection _ secondMissing).begin none none
  refine ⟨rfl, hunbroken, hclosed failed hunbroken rfl, ?_⟩
  refine (hopen later ⟨rfl, rfl⟩ [Endpoints.database 0] _ [Endpoints.database 2] rfl).mpr ?_
  exact ⟨rfl, _, List.mem_singleton_self _, rfl⟩

namespace Sharded

open Connection (Composes)

/-- Three databases that are connected, the second one with tables. -/
def withTables : World Endpoints :=
  ((do
    let _ ← (Endpoints.database 1).queryRaw "CREATE TABLE users (id INTEGER PRIMARY KEY)"
    let _ ← (Endpoints.database 1).queryRaw ("CREATE TABLE orders (id INTEGER PRIMARY KEY, " ++
      "buyer INTEGER REFERENCES users(id) DEFERRABLE INITIALLY DEFERRED)")
    return ()).outcome allConnected).2

/-- An order of a user that there is not, in a transaction of all three databases. -/
def withOrder : World Endpoints :=
  let begun := ordersInThree.connection.behind (.begin none none) withTables
  let order := (Insert.into "orders").withRow ⟨[("id", .ofInt 150), ("buyer", .ofInt 7)]⟩
  ((ordersInThree.connection.queryCount (.insert order)).outcome begun).2

/--
A commit that fails at the second database, whose order refers to no user, has committed the first
one and left the third one open. The rollback behind it stops at the first database, which has no
transaction any more. So the third one is still in a transaction that it would roll back.
-/
theorem rollback_leaves_open :
    let half := ordersInThree.connection.behind .commit withOrder
    Composes ordersInThree.connection
        [Endpoints.database 0, Endpoints.database 1, Endpoints.database 2] ∧
      Siblings (Endpoints.Has 0 3)
        [Endpoints.database 0, Endpoints.database 1, Endpoints.database 2] ∧
      ordersInThree.connection.accepts (.begin none none) withTables = true ∧
      ordersInThree.connection.accepts .commit withOrder = false ∧
      ordersInThree.connection.accepts .rollback half = false ∧
      (Endpoints.database 2).IsLeftOpen (ordersInThree.connection.behind .rollback half) := by
  refine ⟨composes_ordersInThree, siblings_ordersInThree, ?_⟩
  unfold Connection.IsLeftOpen
  decide +kernel

end Sharded

end SqlFederation
