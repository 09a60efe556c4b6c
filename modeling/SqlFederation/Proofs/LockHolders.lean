import Mathlib
import SqlFederation.Proofs.LockMemory

/-!
# Whose keys a lock gives back

Some locks share a store. `Ledger` is the room that they work in, the guards that are out, and for
each key of the store the lock through which it was taken last. A lock remembers a key from the time
that it takes it until it gives it back, and gives back what it remembers, whoever has it by then.
So everything depends on whether a key was taken through another lock while the first one still
remembered it, which happens when it ran out or when somebody else freed it
(`Ledger.takesOver`). As long as that does not happen, a lock remembers only keys that were taken
through it last (`Ledger.Sound`), which one move preserves (`Ledger.Sound.after`) and so does a run.
Then a lock that gives back what it has leaves the keys of all others alone
(`Ledger.returns_spare_others`). After a takeover it does not (`Ledger.isLive_after_drop`).
-/

namespace SqlFederation

namespace Locks

/-- What is done through one of some locks, or time that passes. -/
inductive Move (ι : Type) where
  | acquire (lock : ι) (key : String)
  | guard (lock : ι) (key : String)
  /-- A guard that is out is dropped. -/
  | drop (lock : ι) (key : String)
  | release (lock : ι) (key : String)
  | releaseHeld (lock : ι)
  | forceDrop (lock : ι) (key : String)
  | clean (lock : ι)
  | wait (time : Nat)

/-- A room with locks, and what became of their keys. -/
structure Ledger (ι : Type) where
  room : Room
  /-- The guards that are out: their locks and keys. -/
  guards : List (ι × String)
  /-- The lock through which a key of the store was taken last. -/
  taker : String → Option ι

variable {ι : Type} (locks : ι → ScopedLock)

namespace Move

/-- The room behind a move. -/
def run (room : Room) : Move ι → Room
  | acquire i key => (((locks i).acquire key).outcome room).2
  | guard i key => (((locks i).guard key).outcome room).2
  | drop i key => ((Guard.drop ⟨locks i, key⟩).outcome room).2
  | release i key => (((locks i).release key).outcome room).2
  | releaseHeld i => ((locks i).releaseHeld.outcome room).2
  | forceDrop i key => (((locks i).forceDrop key).outcome room).2
  | clean i => ((locks i).clean.outcome room).2
  | wait time => { room with now := room.now + time }

/-- The lock and the store's key, if a move takes one. -/
def taken? (room : Room) : Move ι → Option (ι × String)
  | acquire i key =>
    match (((locks i).acquire key).outcome room).1 with
    | .ok true => some (i, (locks i).fullKey key)
    | _ => none
  | guard i key =>
    match (((locks i).guard key).outcome room).1 with
    | .ok (some _) => some (i, (locks i).fullKey key)
    | _ => none
  | _ => none

variable {locks}

/-- A move that hands a guard out takes its key. -/
theorem eq_of_taken?_guard {room : Room} {i : ι} {key : String} {taken : ι × String}
    (h : (guard i key).taken? locks room = some taken) : taken = (i, (locks i).fullKey key) := by
  rw [taken?] at h
  split at h
  · exact (Option.some.inj h).symm
  · cases h

/-- A lock remembers no more than it did, and a key that a move takes through it. -/
theorem mem_heldBy_run (hown : Function.Injective fun i => (locks i).holder) {room : Room}
    {move : Move ι} {i : ι} {key : String}
    (h : key ∈ (move.run locks room).heldBy (locks i).holder) :
    key ∈ room.heldBy (locks i).holder ∨
      move.taken? locks room = some (i, (locks i).fullKey key) := by
  have htaken : ∀ {j : ι} {k : String},
      key ∈ (((locks j).acquire k).outcome room).2.heldBy (locks i).holder →
        key ∈ room.heldBy (locks i).holder ∨
          (i = j ∧ key = k ∧ (((locks j).acquire k).outcome room).1 = .ok true) :=
    fun hmem => ((locks _).mem_heldBy_acquire _ hmem).imp_right fun ⟨hholder, hrest⟩ =>
      ⟨hown hholder, hrest⟩
  -- All moves but the two that take a key add nothing to what locks remember.
  have hshrunk : ∀ {α : Type} {call : Call Room α},
      call.Preserves (fun room => key ∉ room.heldBy (locks i).holder) →
        key ∈ (call.outcome room).2.heldBy (locks i).holder → key ∈ room.heldBy (locks i).holder :=
    fun hcall hmem => Classical.byContradiction fun hnot => hcall room hnot hmem
  cases move with
  | acquire j k =>
    obtain hbefore | ⟨rfl, rfl, hok⟩ := htaken h
    · exact Or.inl hbefore
    · right
      rw [Move.taken?, hok]
  | guard j k =>
    have hroom : (Move.guard j k).run locks room = (((locks j).acquire k).outcome room).2 := by
      rw [Move.run, ScopedLock.outcome_guard]
    rw [hroom] at h
    obtain hbefore | ⟨rfl, rfl, hok⟩ := htaken h
    · exact Or.inl hbefore
    · right
      rw [Move.taken?, ScopedLock.outcome_guard, hok]
  | drop j k => exact Or.inl (hshrunk ((locks j).not_mem_heldBy_release k) h)
  | release j k => exact Or.inl (hshrunk ((locks j).not_mem_heldBy_release k) h)
  | releaseHeld j => exact Or.inl (hshrunk (locks j).not_mem_heldBy_releaseHeld h)
  | forceDrop j k => exact Or.inl (hshrunk ((locks j).not_mem_heldBy_release k) h)
  | clean j => exact Or.inl (hshrunk (locks j).not_mem_heldBy_clean h)
  | wait time => exact Or.inl h

end Move

variable [DecidableEq ι]

namespace Ledger

/-- A room at the start: no guard is out and no key was taken. -/
def start (room : Room) : Ledger ι := ⟨room, [], fun _ => none⟩

/-- The guards that are out behind a move. -/
def guardsAfter (ledger : Ledger ι) (move : Move ι) : List (ι × String) :=
  match move with
  | .guard i key =>
    if (move.taken? locks ledger.room).isSome then ledger.guards ++ [(i, key)] else ledger.guards
  | .drop i key => ledger.guards.erase (i, key)
  | _ => ledger.guards

/-- Can a move be made? Only a guard that is out can be dropped. -/
def allows (ledger : Ledger ι) : Move ι → Bool
  | .drop i key => ledger.guards.contains (i, key)
  | _ => true

/-- The ledger behind a move. -/
def after (ledger : Ledger ι) (move : Move ι) : Ledger ι :=
  if ledger.allows move then
    { room := move.run locks ledger.room
      guards := ledger.guardsAfter locks move
      taker := fun key =>
        match move.taken? locks ledger.room with
        | some (i, k) => if k = key then some i else ledger.taker key
        | none => ledger.taker key }
  else
    ledger

/-- The ledger behind a run. -/
def run (ledger : Ledger ι) (moves : List (Move ι)) : Ledger ι :=
  moves.foldl (after locks) ledger

/-- The keys that a lock remembers, by itself or by guards that are out. -/
def keysOf (ledger : Ledger ι) (i : ι) : List String :=
  ledger.room.heldBy (locks i).holder ++
    (ledger.guards.filter fun (j, _) => j = i).map Prod.snd

/-- Does a lock remember a key of the store? -/
def remembers (ledger : Ledger ι) (i : ι) (key : String) : Bool :=
  ((ledger.keysOf locks i).map (locks i).fullKey).contains key

/-- Does a move take a key through another lock, while a lock still remembers it? -/
def takesOver (ledger : Ledger ι) (i : ι) (key : String) (move : Move ι) : Bool :=
  ledger.remembers locks i key &&
    (move.taken? locks ledger.room).any fun (j, k) => j != i && k == key

/-- Does some move of a run take a key over from a lock? -/
def takenOver (i : ι) (key : String) : Ledger ι → List (Move ι) → Bool
  | _, [] => false
  | ledger, move :: rest =>
    ledger.takesOver locks i key move || takenOver i key (ledger.after locks move) rest

/-- If a lock remembers a key of the store, it was taken through this lock last. -/
def Sound (ledger : Ledger ι) (i : ι) (key : String) : Prop :=
  ledger.remembers locks i key = true → ledger.taker key = some i

variable {locks}

theorem mem_keysOf {ledger : Ledger ι} {i : ι} {key : String} :
    key ∈ ledger.keysOf locks i ↔
      key ∈ ledger.room.heldBy (locks i).holder ∨ (i, key) ∈ ledger.guards := by
  rw [keysOf, List.mem_append]
  apply or_congr_right
  simp only [List.mem_map, List.mem_filter, decide_eq_true_eq]
  constructor
  · rintro ⟨⟨j, k⟩, ⟨hmem, rfl⟩, rfl⟩
    exact hmem
  · exact fun hmem => ⟨(i, key), ⟨hmem, rfl⟩, rfl⟩

theorem remembers_iff {ledger : Ledger ι} {i : ι} {key : String} :
    ledger.remembers locks i key = true ↔
      ∃ k ∈ ledger.keysOf locks i, (locks i).fullKey k = key := by
  rw [remembers, List.contains_iff_mem, List.mem_map]

/-- No guard is out that was not, but for one whose key a move takes. -/
theorem mem_guardsAfter {ledger : Ledger ι} {move : Move ι} {i : ι} {key : String}
    (h : (i, key) ∈ ledger.guardsAfter locks move) :
    (i, key) ∈ ledger.guards ∨
      move.taken? locks ledger.room = some (i, (locks i).fullKey key) := by
  cases move with
  | guard j k =>
    rw [guardsAfter] at h
    split at h
    · rename_i hsome
      rw [List.mem_append, List.mem_singleton] at h
      refine h.imp_right fun heq => ?_
      cases heq
      obtain ⟨taken, htaken⟩ := Option.isSome_iff_exists.mp hsome
      rw [htaken, Move.eq_of_taken?_guard htaken]
    · exact Or.inl h
  | drop j k => exact Or.inl (List.mem_of_mem_erase h)
  | _ => exact Or.inl h

theorem mem_keysOf_after (hown : Function.Injective fun i => (locks i).holder)
    {ledger : Ledger ι} {move : Move ι} {i : ι} {key : String}
    (h : key ∈ (ledger.after locks move).keysOf locks i) :
    key ∈ ledger.keysOf locks i ∨
      (ledger.allows move = true ∧
        move.taken? locks ledger.room = some (i, (locks i).fullKey key)) := by
  rw [after] at h
  split at h
  · rename_i hallows
    rw [mem_keysOf] at h ⊢
    obtain hheld | hguard := h
    · exact (Move.mem_heldBy_run hown hheld).imp Or.inl fun htaken => ⟨hallows, htaken⟩
    · exact (mem_guardsAfter hguard).imp Or.inr fun htaken => ⟨hallows, htaken⟩
  · exact Or.inl h

/-- A move that takes no key over from a lock leaves it with keys that it took last. -/
theorem Sound.after (hown : Function.Injective fun i => (locks i).holder)
    {ledger : Ledger ι} {move : Move ι} {i : ι} {key : String} (h : ledger.Sound locks i key)
    (hkept : ledger.takesOver locks i key move = false) :
    (ledger.after locks move).Sound locks i key := by
  intro hafter
  obtain ⟨k, hk, rfl⟩ := remembers_iff.mp hafter
  obtain hbefore | ⟨hallows, htaken⟩ := mem_keysOf_after hown hk
  · -- The key was remembered before the move, which therefore takes it through no other lock.
    have hremembers := remembers_iff.mpr ⟨k, hbefore, rfl⟩
    rw [Ledger.after]
    split
    · rename_i hallows
      dsimp only
      split
      · rename_i j other htaken
        split
        · rename_i hother
          rw [takesOver, hremembers, htaken, hother] at hkept
          simpa using hkept
        · exact h hremembers
      · exact h hremembers
    · exact h hremembers
  · -- The move takes the key through the lock itself.
    rw [Ledger.after, if_pos hallows]
    simp only [htaken, if_true]

/-- A run that takes no key over from a lock leaves it with keys that it took last. -/
theorem Sound.run (hown : Function.Injective fun i => (locks i).holder) {i : ι} {key : String}
    (moves : List (Move ι)) {ledger : Ledger ι} (h : ledger.Sound locks i key)
    (hkept : takenOver locks i key ledger moves = false) :
    (ledger.run locks moves).Sound locks i key := by
  induction moves generalizing ledger with
  | nil => exact h
  | cons move rest ih =>
    rw [takenOver, Bool.or_eq_false_iff] at hkept
    exact ih (h.after hown hkept.1) hkept.2

/-- Does a move drop a guard of a lock, or give back what was taken through it? -/
def Returns (i : ι) (move : Move ι) : Prop :=
  move = .releaseHeld i ∨ ∃ key, move = .drop i key

/--
A lock that gives back what it has, or whose guard is dropped, leaves the keys alone that were not
taken through it last, as long as no such key was taken over from it: a key that is live stays live.
-/
theorem returns_spare_others {store : Store} (hstore : ∀ i, (locks i).store = store)
    (hown : Function.Injective fun i => (locks i).holder) {room : Room}
    (hfresh : ∀ i, room.heldBy (locks i).holder = []) (moves : List (Move ι)) {i : ι}
    {key : String} (hkept : takenOver locks i key (start room) moves = false) {move : Move ι}
    (hreturns : Returns i move)
    (hlive : store.isLive ((start room).run locks moves).room key = true)
    (hother : ((start room).run locks moves).taker key ≠ some i) :
    store.isLive (((start room).run locks moves).after locks move).room key = true := by
  have hstart : (start room).Sound locks i key := by
    intro h
    obtain ⟨k, hk, -⟩ := remembers_iff.mp h
    rw [mem_keysOf] at hk
    obtain hheld | hguard := hk
    · rw [start, hfresh] at hheld
      cases hheld
    · cases hguard
  have hsound := hstart.run hown moves hkept
  generalize (start room).run locks moves = ledger at *
  -- Only what the lock remembers is given back, and all of that was taken through it last.
  have hforeign : ∀ k ∈ ledger.keysOf locks i, key ≠ (locks i).fullKey k := by
    intro k hk heq
    exact hother (hsound (remembers_iff.mpr ⟨k, hk, heq.symm⟩))
  rw [← hstore i] at hlive ⊢
  obtain rfl | ⟨k, rfl⟩ := hreturns
  · exact (locks i).isLive_releaseHeld
      (fun k hk => hforeign k (mem_keysOf.mpr (Or.inl hk))) hlive
  · rw [after]
    split
    · rename_i hout
      have hk : k ∈ ledger.keysOf locks i :=
        mem_keysOf.mpr (Or.inr (List.contains_iff_mem.mp hout))
      exact (locks i).isLive_release_of_ne k (hforeign k hk) ledger.room hlive
    · exact hlive

/-- A guard that is dropped frees its key, whoever took it last. -/
theorem isLive_after_drop {store : Store} (hstore : ∀ i, (locks i).store = store)
    {ledger : Ledger ι} {i : ι} {key : String} (hout : (i, key) ∈ ledger.guards) :
    store.isLive (ledger.after locks (.drop i key)).room ((locks i).fullKey key) = false := by
  rw [after, allows, if_pos (List.contains_iff_mem.mpr hout), ← hstore i]
  exact (locks i).isLive_release_self key ledger.room

/-! ## Two locks over one memory store -/

/-- Two locks over one memory and one namespace; the first one keeps a key for some seconds. -/
def pairOver (seconds : Nat) (i : Fin 2) : ScopedLock :=
  ⟨.memory 0, "sync", if i = 0 then seconds else defaultLifetime, i⟩

/-- A room with an empty memory, in which two locks have taken nothing. -/
def freshRoom : Room := ⟨0, 1, [], ⟨[], []⟩, [.empty], [[], []]⟩

/-- One lock gives back a key, which the other one takes; then it gives back another key. -/
def handedOver : List (Move (Fin 2)) :=
  [.acquire 0 "a", .releaseHeld 0, .acquire 1 "a", .acquire 0 "b"]

/-- The key that was given back in between stays with the lock that took it. -/
theorem releaseHeld_spares_handed_over :
    (Store.memory 0).isLive (((start freshRoom).run (pairOver 600) handedOver).after
      (pairOver 600) (.releaseHeld 0)).room "sync:a" = true := by
  have hstore : ∀ i, (pairOver 600 i).store = .memory 0 := fun _ => rfl
  have hown : Function.Injective fun i => (pairOver 600 i).holder := fun _ _ => Fin.eq_of_val_eq
  have hfresh : ∀ i, freshRoom.heldBy (pairOver 600 i).holder = [] := by decide
  have hkept : takenOver (pairOver 600) 0 "sync:a" (start freshRoom) handedOver = false := by cbv
  have hlive : (Store.memory 0).isLive ((start freshRoom).run (pairOver 600) handedOver).room
      "sync:a" = true := by cbv
  have hother : ((start freshRoom).run (pairOver 600) handedOver).taker "sync:a" ≠ some 0 := by
    have htaker : ((start freshRoom).run (pairOver 600) handedOver).taker "sync:a" = some 1 := by
      cbv
    rw [htaker]
    decide
  have hreturns : Returns (0 : Fin 2) (.releaseHeld 0) := Or.inl rfl
  exact returns_spare_others hstore hown hfresh handedOver hkept hreturns hlive hother

/-- One lock takes a key that runs out at once, and the other one takes it then. -/
def ranOut : List (Move (Fin 2)) := [.acquire 0 "a", .acquire 1 "a"]

/-- The first lock gives back the key although it is the other one's by then. -/
theorem releaseHeld_frees_ran_out :
    (Store.memory 0).isLive ((start freshRoom).run (pairOver 0) ranOut).room "sync:a" = true ∧
      ((start freshRoom).run (pairOver 0) ranOut).taker "sync:a" = some 1 ∧
      (Store.memory 0).isLive (((start freshRoom).run (pairOver 0) ranOut).after
        (pairOver 0) (.releaseHeld 0)).room "sync:a" = false := by
  refine ⟨?_, ?_, ?_⟩
  · cbv
  · cbv
  · cbv

end Ledger

end Locks

end SqlFederation
