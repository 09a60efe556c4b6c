import Mathlib
import SqlFederation.Proofs.LockHolders
import SqlFederation.Proofs.LockLeads
import SqlFederation.Proofs.LockReturn

/-!
# Namespaces that do not interfere

Locks of two namespaces share a store. Two rooms look the same to the locks of a namespace if the
store has the same keys of the namespace and the locks remember the same (`Alike`). Then they still
do after a move of one of these locks in both rooms, which has the same answer
(`Move.answersAlike`), and after a move of the other namespace in one of them, provided that neither
namespace is a part of the other (`Move.preserves_alike`). By induction on the moves, all answers
are as if the other namespace did not exist (`Move.answers_eq_without`). A namespace and a part of
it have keys with the same text, so between them this fails (`Move.not_separate_of_keyIn_eq`), and
then to clean the one removes keys of the other (`Move.clean_frees_part`).
-/

namespace SqlFederation

/-- A call preserves what it preserves when something is made of its answer. -/
theorem Call.preserves_map_iff {σ α β : Type} {property : σ → Prop} {call : Call σ α} {f : α → β} :
    (f <$> call).Preserves property ↔ call.Preserves property := by
  refine forall₂_congr fun s _ => ?_
  rw [Call.outcome_map]

namespace Locks

/-! ## Calls that two rooms answer alike -/

/-- Does a call have the same answer in rooms that are related, and leave rooms that are? -/
def AnswersAlike {α : Type} (related : Room → Room → Prop) (call : Call Room α) : Prop :=
  ∀ room other, related room other →
    (call.outcome room).1 = (call.outcome other).1 ∧
      related (call.outcome room).2 (call.outcome other).2

namespace AnswersAlike

variable {α β : Type} {related : Room → Room → Prop} {call : Call Room α}

theorem pure (a : α) : AnswersAlike related (pure a) := fun _ _ h => ⟨rfl, h⟩

theorem bind (h : AnswersAlike related call) {f : α → Call Room β}
    (hrest : ∀ a, AnswersAlike related (f a)) : AnswersAlike related (call >>= f) := by
  intro room other hrelated
  obtain ⟨hanswer, hafter⟩ := h room other hrelated
  cases hours : call.outcome room with
  | mk result after =>
    cases htheirs : call.outcome other with
    | mk result' after' =>
      rw [hours, htheirs] at hanswer hafter
      obtain rfl : result = result' := hanswer
      cases result with
      | ok a =>
        rw [Call.outcome_bind_of_ok hours, Call.outcome_bind_of_ok htheirs]
        exact hrest a after after' hafter
      | error e =>
        rw [Call.outcome_bind_of_error hours, Call.outcome_bind_of_error htheirs]
        exact ⟨rfl, hafter⟩

theorem map (h : AnswersAlike related call) (f : α → β) : AnswersAlike related (f <$> call) := by
  intro room other hrelated
  obtain ⟨hanswer, hafter⟩ := h room other hrelated
  rw [Call.outcome_map, Call.outcome_map]
  exact ⟨congrArg (Except.map f) hanswer, hafter⟩

/-- A call answers alike if what is made of its answers does, and tells them apart. -/
theorem of_map {f : α → β} (hf : Function.Injective f)
    (h : AnswersAlike related (f <$> call)) : AnswersAlike related call := by
  intro room other hrelated
  obtain ⟨hanswer, hafter⟩ := h room other hrelated
  rw [Call.outcome_map, Call.outcome_map] at hanswer hafter
  refine ⟨?_, hafter⟩
  cases hours : (call.outcome room).1 with
  | ok a =>
    cases htheirs : (call.outcome other).1 with
    | ok b =>
      rw [hours, htheirs] at hanswer
      rw [hf (Except.ok.inj hanswer)]
    | error e =>
      rw [hours, htheirs] at hanswer
      cases hanswer
  | error e =>
    cases htheirs : (call.outcome other).1 with
    | ok b =>
      rw [hours, htheirs] at hanswer
      cases hanswer
    | error e' =>
      rw [hours, htheirs] at hanswer
      rw [Except.error.inj hanswer]

end AnswersAlike

/-! ## Rooms that look the same to the locks of a namespace -/

variable {ι : Type} {locks : ι → ScopedLock} {store : Store} {ours theirs : String}
  {room other : Room}

/-- Have some locks the same store, and namespaces of two, each with what it remembers? -/
structure Shared (locks : ι → ScopedLock) (store : Store) (ours theirs : String) : Prop where
  store_eq : ∀ i, (locks i).store = store
  scope_eq : ∀ i, (locks i).scope = ours ∨ (locks i).scope = theirs
  /-- Locks of different namespaces remember different keys; copies of a lock remember the same. -/
  apart : ∀ {i j}, (locks i).holder = (locks j).holder → (locks i).scope = (locks j).scope

/-- Do two rooms look the same to the locks of a namespace? -/
structure Alike (locks : ι → ScopedLock) (store : Store) (ours : String) (room other : Room) :
    Prop where
  now : room.now = other.now
  held : ∀ i, (locks i).scope = ours →
    room.held[(locks i).holder]? = other.held[(locks i).holder]?
  /-- The store has the same keys of the namespace. -/
  keys : ∃ keys keys', store.Holds room keys ∧ store.Holds other keys' ∧
    keys.ledBy (leadOf ours) = keys'.ledBy (leadOf ours)

namespace Alike

theorem heldBy (h : Alike locks store ours room other) {i : ι} (hi : (locks i).scope = ours) :
    room.heldBy (locks i).holder = other.heldBy (locks i).holder := by
  rw [Room.heldBy, Room.heldBy, List.getD_eq_getElem?_getD, List.getD_eq_getElem?_getD, h.held i hi]

/-- What locks remember is not the business of a store. -/
theorem holds_setHeld {keys : MemoryStore} (h : store.Holds room keys) (holder : Nat)
    (held : List String) : store.Holds (room.setHeld holder held) keys := by
  cases store with
  | memory number => exact h
  | directory text => exact h

/-- Locks that remember new keys in both rooms leave them alike. -/
theorem setHeld (h : Alike locks store ours room other) (holder : Nat) (held : List String) :
    Alike locks store ours (room.setHeld holder held) (other.setHeld holder held) := by
  constructor
  case now => exact h.now
  case held =>
    intro i hi
    unfold Room.setHeld
    by_cases hsame : holder = (locks i).holder
    · rw [hsame, List.getElem?_set_self', List.getElem?_set_self', h.held i hi]
    · rw [List.getElem?_set_ne hsame, List.getElem?_set_ne hsame, h.held i hi]
  case keys =>
    obtain ⟨keys, keys', hkeys, hkeys', hsame⟩ := h.keys
    exact ⟨keys, keys', holds_setHeld hkeys holder held, holds_setHeld hkeys' holder held, hsame⟩

/-- What the locks of other namespaces remember is of no concern. -/
theorem setHeld_of_ne (h : Alike locks store ours room other) {holder : Nat}
    (hholder : ∀ i, (locks i).scope = ours → holder ≠ (locks i).holder) (held : List String) :
    Alike locks store ours (room.setHeld holder held) other := by
  constructor
  case now => exact h.now
  case held =>
    intro i hi
    rw [← h.held i hi]
    exact List.getElem?_set_ne (hholder i hi)
  case keys =>
    obtain ⟨keys, keys', hkeys, hkeys', hsame⟩ := h.keys
    exact ⟨keys, keys', holds_setHeld hkeys holder held, hkeys', hsame⟩

end Alike

/-- What a store is asked for a namespace has the same answer in rooms that are alike. -/
theorem answersAlike_ask {operation : Operation} (h : operation.IsLedBy (leadOf ours)) :
    AnswersAlike (Alike locks store ours) (operation.ask store) := by
  intro room other halike
  obtain ⟨keys, keys', hkeys, hkeys', hsame⟩ := halike.keys
  obtain ⟨after, houtcome, hafter, hnow, hheld⟩ := hkeys.exists_outcome_ask (h.sparesEmptyKey keys)
  obtain ⟨after', houtcome', hafter', hnow', hheld'⟩ :=
    hkeys'.exists_outcome_ask (h.sparesEmptyKey keys')
  -- Both answers are those of a store that has the keys of the namespace and no others.
  have honKeys := Operation.onKeys_ledBy h store other.now keys
  rw [hsame, Operation.onKeys_ledBy h store other.now keys'] at honKeys
  obtain ⟨hanswer, hleft⟩ := Prod.mk.inj honKeys
  rw [houtcome, houtcome', halike.now]
  rw [halike.now] at hafter
  refine ⟨hanswer.symm, ?_⟩
  constructor
  case now => rw [hnow, hnow', halike.now]
  case held =>
    intro i hi
    rw [hheld, hheld', halike.held i hi]
  case keys => exact ⟨_, _, hafter, hafter', hleft.symm⟩

/-- What a store is asked for another namespace leaves rooms alike. -/
theorem preserves_alike_ask {operation : Operation} (h : operation.IsLedBy (leadOf theirs))
    (hapart : ∀ key, hasLead (leadOf theirs) key = true → hasLead (leadOf ours) key = false)
    (other : Room) :
    (operation.ask store).Preserves fun room => Alike locks store ours room other := by
  intro room halike
  obtain ⟨keys, keys', hkeys, hkeys', hsame⟩ := halike.keys
  obtain ⟨after, houtcome, hafter, hnow, hheld⟩ := hkeys.exists_outcome_ask (h.sparesEmptyKey keys)
  rw [houtcome]
  constructor
  case now => rw [hnow, halike.now]
  case held =>
    intro i hi
    rw [hheld, halike.held i hi]
  case keys =>
    exact ⟨_, keys', hafter, hkeys',
      (Operation.ledBy_onKeys h hapart store room.now keys).trans hsame⟩

/-! ## What is done through locks -/

/-- A lock with a namespace cleans it. -/
theorem ScopedLock.clean_of_ne {lock : ScopedLock} (h : lock.scope ≠ "") :
    lock.clean = (do
      let removed ← lock.store.deleteLead (leadOf lock.scope)
      Call.changing fun room => room.setHeld lock.holder []
      return removed) := by
  rw [clean, if_neg fun hempty => h (String.isEmpty_iff.mp hempty), leadOf]

/-- What a lock remembers is replaced in rooms that are alike. -/
theorem answersAlike_setHeld (holder : Nat) (held : List String) :
    AnswersAlike (Alike locks store ours) (Call.changing fun room => room.setHeld holder held) :=
  fun _ _ halike => ⟨rfl, halike.setHeld holder held⟩

section Own

variable (hshared : Shared locks store ours theirs) (hours : ours ≠ "") {i : ι}
  (hi : (locks i).scope = ours)
include hshared hours hi

omit hshared in
/-- The keys of a lock are led by its namespace. -/
theorem hasLead_fullKey (key : String) : hasLead (leadOf ours) ((locks i).fullKey key) = true := by
  rw [ScopedLock.fullKey, hi]
  exact hasLead_keyIn hours key

omit hshared hours in
theorem answersAlike_heldBy :
    AnswersAlike (Alike locks store ours)
      (Call.reading fun room => room.heldBy (locks i).holder) :=
  fun _ _ halike => ⟨congrArg Except.ok (halike.heldBy hi), halike⟩

omit hshared hours in
/-- A lock remembers the same in rooms that are alike. -/
theorem answersAlike_remember (key : String) :
    AnswersAlike (Alike locks store ours) ((locks i).remember key) := by
  intro room other halike
  rw [ScopedLock.remember, Call.outcome_changing, Call.outcome_changing]
  refine ⟨rfl, ?_⟩
  dsimp only
  rw [halike.heldBy hi]
  split
  · exact halike
  · exact halike.setHeld _ _

omit hshared hours in
theorem answersAlike_forget (key : String) :
    AnswersAlike (Alike locks store ours) ((locks i).forget key) := by
  intro room other halike
  rw [ScopedLock.forget, Call.outcome_changing, Call.outcome_changing, halike.heldBy hi]
  exact ⟨rfl, halike.setHeld _ _⟩

theorem answersAlike_delete (key : String) :
    AnswersAlike (Alike locks store ours)
      ((locks i).store.delete ((locks i).fullKey key)) := by
  rw [hshared.store_eq]
  have hled : (Operation.delete ((locks i).fullKey key)).IsLedBy (leadOf ours) :=
    hasLead_fullKey hours hi key
  exact (answersAlike_ask hled).of_map fun _ _ _ => rfl

theorem answersAlike_acquire (key : String) :
    AnswersAlike (Alike locks store ours) ((locks i).acquire key) := by
  have hadd : AnswersAlike (Alike locks store ours)
      ((locks i).store.add ((locks i).fullKey key) (locks i).lifetime) := by
    rw [hshared.store_eq]
    have hled : (Operation.add ((locks i).fullKey key) (nanoseconds (locks i).lifetime)).IsLedBy
        (leadOf ours) := hasLead_fullKey hours hi key
    exact (answersAlike_ask hled).of_map fun _ _ => Answer.taken.inj
  refine hadd.bind fun taken => ?_
  cases taken with
  | true => exact (answersAlike_remember hi key).bind fun _ => .pure true
  | false => exact .pure false

theorem answersAlike_release (key : String) :
    AnswersAlike (Alike locks store ours) ((locks i).release key) :=
  (answersAlike_forget hi key).bind fun _ => answersAlike_delete hshared hours hi key

theorem answersAlike_deleteKeys (keys : List String) :
    AnswersAlike (Alike locks store ours) ((locks i).deleteKeys keys) := by
  induction keys with
  | nil => exact .pure ()
  | cons key rest ih => exact (answersAlike_delete hshared hours hi key).bind fun _ => ih

theorem answersAlike_releaseHeld :
    AnswersAlike (Alike locks store ours) (locks i).releaseHeld := by
  refine (answersAlike_heldBy hi).bind fun keys => ?_
  exact (answersAlike_setHeld _ []).bind fun _ =>
    (answersAlike_deleteKeys hshared hours hi keys).bind fun _ => .pure _

theorem answersAlike_clean : AnswersAlike (Alike locks store ours) (locks i).clean := by
  have hremove : AnswersAlike (Alike locks store ours)
      ((locks i).store.deleteLead (leadOf (locks i).scope)) := by
    rw [hshared.store_eq, hi]
    have hled : (Operation.deleteLead (leadOf ours)).IsLedBy (leadOf ours) := rfl
    exact (answersAlike_ask hled).of_map fun _ _ => Answer.count.inj
  rw [ScopedLock.clean_of_ne (hi.trans_ne hours)]
  exact hremove.bind fun removed => (answersAlike_setHeld _ []).bind fun _ => .pure removed

end Own

section Other

variable (hshared : Shared locks store ours theirs) (htheirs : theirs ≠ "") (hne : ours ≠ theirs)
  (hapart : ¬Nested ours theirs ∧ ¬Nested theirs ours) {i : ι} (hi : (locks i).scope = theirs)
include hshared hne hi

/-- What a lock of another namespace remembers is of no concern. -/
theorem preserves_alike_setHeld (held : Room → List String) (other : Room) :
    (Call.changing fun room => room.setHeld (locks i).holder (held room)).Preserves
      fun room => Alike locks store ours room other := by
  intro room halike
  refine halike.setHeld_of_ne (fun j hj hsame => ?_) (held room)
  exact hne (hj.symm.trans ((hshared.apart hsame).symm.trans hi))

theorem preserves_alike_remember (key : String) (other : Room) :
    ((locks i).remember key).Preserves fun room => Alike locks store ours room other := by
  intro room halike
  rw [ScopedLock.remember, Call.outcome_changing]
  dsimp only
  split
  · exact halike
  · exact preserves_alike_setHeld hshared hne hi
      (fun room => room.heldBy (locks i).holder ++ [key]) other room halike

include htheirs hapart

theorem preserves_alike_delete (key : String) (other : Room) :
    ((locks i).store.delete ((locks i).fullKey key)).Preserves
      fun room => Alike locks store ours room other := by
  rw [hshared.store_eq]
  have hled : (Operation.delete ((locks i).fullKey key)).IsLedBy (leadOf theirs) :=
    hasLead_fullKey htheirs hi key
  exact Call.preserves_map_iff.mp
    (preserves_alike_ask hled (fun _ => not_hasLead_of_not_nested hne hapart) other)

theorem preserves_alike_acquire (key : String) (other : Room) :
    ((locks i).acquire key).Preserves fun room => Alike locks store ours room other := by
  have hadd : ((locks i).store.add ((locks i).fullKey key) (locks i).lifetime).Preserves
      fun room => Alike locks store ours room other := by
    rw [hshared.store_eq]
    have hled : (Operation.add ((locks i).fullKey key) (nanoseconds (locks i).lifetime)).IsLedBy
        (leadOf theirs) := hasLead_fullKey htheirs hi key
    exact Call.preserves_map_iff.mp
      (preserves_alike_ask hled (fun _ => not_hasLead_of_not_nested hne hapart) other)
  refine hadd.bind fun taken => ?_
  cases taken with
  | true =>
    exact (preserves_alike_remember hshared hne hi key other).bind fun _ =>
      Call.preserves_pure _ true
  | false => exact Call.preserves_pure _ false

theorem preserves_alike_release (key : String) (other : Room) :
    ((locks i).release key).Preserves fun room => Alike locks store ours room other :=
  (preserves_alike_setHeld hshared hne hi _ other).bind fun _ =>
    preserves_alike_delete hshared htheirs hne hapart hi key other

theorem preserves_alike_deleteKeys (keys : List String) (other : Room) :
    ((locks i).deleteKeys keys).Preserves fun room => Alike locks store ours room other := by
  induction keys with
  | nil => exact Call.preserves_pure _ ()
  | cons key rest ih =>
    exact (preserves_alike_delete hshared htheirs hne hapart hi key other).bind fun _ => ih

theorem preserves_alike_releaseHeld (other : Room) :
    (locks i).releaseHeld.Preserves fun room => Alike locks store ours room other := by
  have hread : (Call.reading fun room => room.heldBy (locks i).holder : Call Room _).Preserves
      fun room => Alike locks store ours room other := fun _ halike => halike
  refine hread.bind fun keys => (preserves_alike_setHeld hshared hne hi _ other).bind fun _ => ?_
  exact (preserves_alike_deleteKeys hshared htheirs hne hapart hi keys other).bind fun _ =>
    Call.preserves_pure _ _

theorem preserves_alike_clean (other : Room) :
    (locks i).clean.Preserves fun room => Alike locks store ours room other := by
  have hremove : ((locks i).store.deleteLead (leadOf (locks i).scope)).Preserves
      fun room => Alike locks store ours room other := by
    rw [hshared.store_eq, hi]
    have hled : (Operation.deleteLead (leadOf theirs)).IsLedBy (leadOf theirs) := rfl
    exact Call.preserves_map_iff.mp
      (preserves_alike_ask hled (fun _ => not_hasLead_of_not_nested hne hapart) other)
  rw [ScopedLock.clean_of_ne (hi.trans_ne htheirs)]
  exact hremove.bind fun removed =>
    (preserves_alike_setHeld hshared hne hi _ other).bind fun _ => Call.preserves_pure _ removed

end Other

/-! ## Moves and their answers -/

namespace Move

variable (locks)

/-- A move, with what it answers. -/
def ask : Move ι → Call Room Answer
  | acquire i key => Answer.taken <$> (locks i).acquire key
  | guard i key => (fun guard? => Answer.taken guard?.isSome) <$> (locks i).guard key
  | drop i key => (fun _ => Answer.done) <$> Guard.drop ⟨locks i, key⟩
  | release i key => (fun _ => Answer.done) <$> (locks i).release key
  | releaseHeld i => Answer.count <$> (locks i).releaseHeld
  | forceDrop i key => (fun _ => Answer.done) <$> (locks i).forceDrop key
  | clean i => Answer.count <$> (locks i).clean
  | wait time =>
    (fun _ => Answer.done) <$> Call.changing fun room => { room with now := room.now + time }

/-- The lock of a move; time passes without one. -/
def lock? : Move ι → Option ι
  | acquire i _ | guard i _ | drop i _ | release i _ | releaseHeld i | forceDrop i _ | clean i =>
    some i
  | wait _ => none

/-- Is a move made through a lock of a namespace? -/
def isIn (scope : String) (move : Move ι) : Bool :=
  move.lock?.any fun i => (locks i).scope == scope

/-- The answers to the moves that are made through the locks of a namespace. -/
def answers (scope : String) : List (Move ι) → Room → List (Except Error Answer)
  | [], _ => []
  | move :: rest, room =>
    let (answer, after) := (move.ask locks).outcome room
    if move.isIn locks scope then answer :: answers scope rest after else answers scope rest after

/-- The moves that are not made through the locks of a namespace. -/
def without (scope : String) (moves : List (Move ι)) : List (Move ι) :=
  moves.filter fun move => !move.isIn locks scope

variable {locks}

section Step

variable (hshared : Shared locks store ours theirs) {move : Move ι}
include hshared

/-- A move that is not made through the other namespace is answered alike. -/
theorem answersAlike (hours : ours ≠ "") (hnot : move.isIn locks theirs = false) :
    AnswersAlike (Alike locks store ours) (move.ask locks) := by
  have hscope : ∀ i, ((locks i).scope == theirs) = false → (locks i).scope = ours := fun i hi =>
    (hshared.scope_eq i).resolve_right (beq_eq_false_iff_ne.mp hi)
  cases move with
  | acquire i key => exact (answersAlike_acquire hshared hours (hscope i hnot) key).map _
  | guard i key =>
    have hguard : AnswersAlike (Alike locks store ours) ((locks i).guard key) := by
      refine (answersAlike_acquire hshared hours (hscope i hnot) key).bind fun taken => ?_
      cases taken with
      | true => exact .pure _
      | false => exact .pure _
    exact hguard.map _
  | drop i key =>
    have hdrop : AnswersAlike (Alike locks store ours) (Guard.drop ⟨locks i, key⟩) :=
      fun room other halike =>
        ⟨rfl, (answersAlike_release hshared hours (hscope i hnot) key room other halike).2⟩
    exact hdrop.map _
  | release i key => exact (answersAlike_release hshared hours (hscope i hnot) key).map _
  | releaseHeld i => exact (answersAlike_releaseHeld hshared hours (hscope i hnot)).map _
  | forceDrop i key => exact (answersAlike_release hshared hours (hscope i hnot) key).map _
  | clean i => exact (answersAlike_clean hshared hours (hscope i hnot)).map _
  | wait time =>
    refine AnswersAlike.map (fun room other halike => ⟨rfl, ?_⟩) _
    constructor
    case now => exact congrArg (· + (time : Time)) halike.now
    case held => exact halike.held
    case keys =>
      obtain ⟨keys, keys', hkeys, hkeys', hsame⟩ := halike.keys
      refine ⟨keys, keys', ?_, ?_, hsame⟩
      all_goals
        cases store with
        | memory number => assumption
        | directory text => assumption

/-- A move of the other namespace leaves rooms alike. -/
theorem preserves_alike (htheirs : theirs ≠ "") (hne : ours ≠ theirs)
    (hapart : ¬Nested ours theirs ∧ ¬Nested theirs ours) (hin : move.isIn locks theirs = true)
    (other : Room) :
    (move.ask locks).Preserves fun room => Alike locks store ours room other := by
  have hscope : ∀ i, ((locks i).scope == theirs) = true → (locks i).scope = theirs := fun i hi =>
    beq_iff_eq.mp hi
  have hrelease : ∀ i key, ((locks i).scope == theirs) = true →
      ((locks i).release key).Preserves fun room => Alike locks store ours room other :=
    fun i key hi => preserves_alike_release hshared htheirs hne hapart (hscope i hi) key other
  have hacquire : ∀ i key, ((locks i).scope == theirs) = true →
      ((locks i).acquire key).Preserves fun room => Alike locks store ours room other :=
    fun i key hi => preserves_alike_acquire hshared htheirs hne hapart (hscope i hi) key other
  cases move with
  | acquire i key => exact Call.preserves_map_iff.mpr (hacquire i key hin)
  | guard i key =>
    refine Call.preserves_map_iff.mpr fun room halike => ?_
    rw [ScopedLock.outcome_guard]
    exact hacquire i key hin room halike
  | drop i key =>
    refine Call.preserves_map_iff.mpr fun room halike => ?_
    exact hrelease i key hin room halike
  | release i key => exact Call.preserves_map_iff.mpr (hrelease i key hin)
  | releaseHeld i =>
    exact Call.preserves_map_iff.mpr
      (preserves_alike_releaseHeld hshared htheirs hne hapart (hscope i hin) other)
  | forceDrop i key => exact Call.preserves_map_iff.mpr (hrelease i key hin)
  | clean i =>
    exact Call.preserves_map_iff.mpr
      (preserves_alike_clean hshared htheirs hne hapart (hscope i hin) other)
  | wait time => cases hin

end Step

theorem answers_cons (scope : String) (move : Move ι) (rest : List (Move ι)) (room : Room) :
    answers locks scope (move :: rest) room =
      if move.isIn locks scope then
        ((move.ask locks).outcome room).1 ::
          answers locks scope rest ((move.ask locks).outcome room).2
      else answers locks scope rest ((move.ask locks).outcome room).2 :=
  rfl

/-- No move is made through two namespaces. -/
theorem not_isIn_of_isIn {move : Move ι} (hne : ours ≠ theirs)
    (h : move.isIn locks theirs = true) : ¬move.isIn locks ours = true := by
  intro hours
  rw [isIn] at h hours
  cases hlock : move.lock? with
  | none =>
    rw [hlock] at h
    cases h
  | some i =>
    rw [hlock, Option.any_some, beq_iff_eq] at h hours
    exact hne (hours.symm.trans h)

/-- The answers of one namespace are as if nothing had been done through the other one. -/
theorem answers_eq_without (hshared : Shared locks store ours theirs) (hours : ours ≠ "")
    (htheirs : theirs ≠ "") (hne : ours ≠ theirs)
    (hapart : ¬Nested ours theirs ∧ ¬Nested theirs ours) (moves : List (Move ι))
    (halike : Alike locks store ours room other) :
    answers locks ours moves room = answers locks ours (without locks theirs moves) other := by
  induction moves generalizing room other with
  | nil => rfl
  | cons move rest ih =>
    rw [answers_cons]
    cases hin : move.isIn locks theirs with
    | true =>
      have hleft : without locks theirs (move :: rest) = without locks theirs rest :=
        List.filter_cons_of_neg (by rw [hin]; exact Bool.false_ne_true)
      rw [hleft, if_neg (not_isIn_of_isIn hne hin)]
      exact ih (preserves_alike hshared htheirs hne hapart hin other room halike)
    | false =>
      have hleft : without locks theirs (move :: rest) = move :: without locks theirs rest :=
        List.filter_cons_of_pos (by rw [hin]; rfl)
      obtain ⟨hanswer, hafter⟩ := answersAlike hshared hours hin room other halike
      rw [hleft, answers_cons, hanswer, ih hafter]

/--
Do locks of two namespaces, over whatever store, get the same answers in one of them however much is
done in the other one in between?
-/
def Separate (ours theirs : String) : Prop :=
  ∀ (ι : Type) (locks : ι → ScopedLock) (store : Store) (room : Room) (keys : MemoryStore),
    Shared locks store ours theirs → store.Holds room keys → ∀ moves,
      answers locks ours moves room = answers locks ours (without locks theirs moves) room

/-- Two locks over one memory, each with a namespace of its own. -/
def twoScopes (ours theirs : String) (other : Bool) : ScopedLock :=
  ⟨.memory 0, if other then theirs else ours, defaultLifetime, other.toNat⟩

theorem shared_twoScopes (ours theirs : String) :
    Shared (twoScopes ours theirs) (.memory 0) ours theirs := by
  constructor
  case store_eq => exact fun _ => rfl
  case scope_eq =>
    intro other
    cases other with
    | false => exact Or.inl rfl
    | true => exact Or.inr rfl
  case apart =>
    intro i j hsame
    have hnumbers : Function.Injective Bool.toNat := by decide
    rw [hnumbers hsame]

/-- A key is not taken while the other namespace has one with the same text. -/
theorem not_separate_of_keyIn_eq (hne : ours ≠ theirs) {a b : String}
    (h : keyIn ours a = keyIn theirs b) : ¬Separate ours theirs := by
  intro hseparate
  let locks := twoScopes ours theirs
  have hsame := hseparate Bool locks (.memory 0) Ledger.freshRoom .empty
    (shared_twoScopes ours theirs) ⟨by decide, rfl⟩ [.acquire true b, .acquire false a]
  have hmine : (acquire false a : Move Bool).isIn locks ours = true := beq_self_eq_true ours
  have hother : (acquire false a : Move Bool).isIn locks theirs = false := beq_false_of_ne hne
  have htheirs : (acquire true b : Move Bool).isIn locks theirs = true := beq_self_eq_true theirs
  have hleft : without locks theirs [.acquire true b, .acquire false a] = [.acquire false a] := by
    simp [without, htheirs, hother]
  -- The other lock takes its key first, and the store knows ours by the same text.
  let ends : Time := 0 + (nanoseconds defaultLifetime : Nat)
  let store : MemoryStore := ⟨[(keyIn theirs b, ends)]⟩
  let taken : Room := { Ledger.freshRoom with memories := [store], held := [[], [b]] }
  have htaken : (((locks true).acquire b).outcome Ledger.freshRoom).2 = taken := rfl
  have hstored : store.expiry? (keyIn ours a) = some ends := by
    rw [h]
    exact List.lookup_cons_self
  have hlive : (locks false).store.isLive taken ((locks false).fullKey a) = true :=
    (MemoryStore.isLive_of_some hstored 0).trans (by decide)
  have hlong : (locks false).lifetime ≤ maxLifetime := Nat.le_of_ble_eq_true rfl
  have hrefused := (locks false).outcome_acquire_of_live a taken rfl hlong hlive
  have hanswer : (((locks false).acquire a).outcome Ledger.freshRoom).1 = .ok true := rfl
  rw [hleft, answers_cons, answers_cons, answers_cons, if_pos hmine, if_pos hmine,
    if_neg (not_isIn_of_isIn hne htheirs)] at hsame
  have hfirst := (List.cons.inj hsame).1
  rw [ask, ask, Call.outcome_map, Call.outcome_map, Call.outcome_map, htaken, hrefused, hanswer]
    at hfirst
  cases hfirst

/-- Namespaces neither of which is a part of the other do not interfere. -/
theorem separate_of_not_nested (hours : ours ≠ "") (htheirs : theirs ≠ "") (hne : ours ≠ theirs)
    (hapart : ¬Nested ours theirs ∧ ¬Nested theirs ours) : Separate ours theirs := by
  intro ι locks store room keys hshared hkeys moves
  refine answers_eq_without hshared hours htheirs hne hapart moves ?_
  exact ⟨rfl, fun _ _ => rfl, keys, keys, hkeys, hkeys, rfl⟩

/-- The locks of compositions whose names hold no colon do not interfere. -/
theorem separate_partOf (base : String) {a b : String} (hne : a ≠ b) (ha : ':' ∉ a.toList)
    (hb : ':' ∉ b.toList) : Separate (partOf base a) (partOf base b) := by
  have hscope : ∀ name, partOf base name ≠ "" := by
    intro name hempty
    rw [partOf, String.append_eq_empty_iff, String.append_eq_empty_iff] at hempty
    exact absurd hempty.1.2 (by decide)
  have hapart : ¬Nested (partOf base a) (partOf base b) ∧
      ¬Nested (partOf base b) (partOf base a) := by
    rw [nested_partOf_iff, nested_partOf_iff]
    exact ⟨not_nested_of_not_mem hb, not_nested_of_not_mem ha⟩
  exact separate_of_not_nested (hscope a) (hscope b)
    (fun hsame => hne ((String.append_right_inj _).mp hsame)) hapart

/--
Two different namespaces do not interfere if and only if neither is a part of the other: then the
locks of one of them, over a memory or in a directory, get the same answers whatever is taken, given
back, dropped and cleaned through locks of the other one in between, and at whatever times.
-/
theorem separate_iff {ours theirs : String} (hours : ours ≠ "") (htheirs : theirs ≠ "")
    (hne : ours ≠ theirs) :
    Separate ours theirs ↔ ¬Nested ours theirs ∧ ¬Nested theirs ours := by
  constructor
  · intro hseparate
    refine ⟨fun hinner => ?_, fun houter => ?_⟩
    · obtain ⟨a, b, hsame⟩ := exists_keyIn_eq hours htheirs hinner
      exact not_separate_of_keyIn_eq hne hsame hseparate
    · obtain ⟨a, b, hsame⟩ := exists_keyIn_eq htheirs hours houter
      exact not_separate_of_keyIn_eq hne hsame.symm hseparate
  · exact separate_of_not_nested hours htheirs hne

/-- Of three compositions of a federation, one has a name that makes it a part of another one. -/
theorem separate_iff_catalog :
    Separate (partOf "dbfed" "users") (partOf "dbfed" "catalog") ∧
      ¬Separate (partOf "dbfed" "users") (partOf "dbfed" "users:eu") := by
  constructor
  · exact (separate_iff (by decide) (by decide) (by decide)).mpr (by decide)
  · exact fun h => absurd ((separate_iff (by decide) (by decide) (by decide)).mp h) (by decide)

/-- A lock of one composition takes a key; the locks of another one are cleaned. -/
def cleanedBetween : List (Move Bool) :=
  [.acquire false "events", .clean true, .acquire false "events"]

/-- A composition is cleaned, and a key can be taken that a lock of another one has. -/
theorem clean_frees_part :
    answers (twoScopes (partOf "dbfed" "users:eu") (partOf "dbfed" "users"))
        (partOf "dbfed" "users:eu") cleanedBetween Ledger.freshRoom =
        [.ok (.taken true), .ok (.taken true)] ∧
      answers (twoScopes (partOf "dbfed" "users:eu") (partOf "dbfed" "users"))
          (partOf "dbfed" "users:eu")
          (without (twoScopes (partOf "dbfed" "users:eu") (partOf "dbfed" "users"))
            (partOf "dbfed" "users") cleanedBetween) Ledger.freshRoom =
        [.ok (.taken true), .ok (.taken false)] := by
  decide +kernel

end Move

end Locks

end SqlFederation
