import SqlFederation.Proofs.LockStore

/-!
# What locks remember and what they free

A lock remembers a key when it takes it (`ScopedLock.mem_heldBy_acquire`), and nothing else makes
any lock remember more. To give a key back frees that key, whoever has it, and no other one
(`ScopedLock.isLive_release_self`, `ScopedLock.isLive_release_of_ne`); to give back what was taken
frees only keys that the lock remembers (`ScopedLock.isLive_releaseHeld`).
-/

namespace SqlFederation

namespace Locks

namespace Room

/-- What a lock remembers after its keys were replaced. -/
theorem mem_heldBy_setHeld {room : Room} {holder other : Nat} {keys : List String} {key : String}
    (h : key ∈ (room.setHeld holder keys).heldBy other) :
    key ∈ room.heldBy other ∨ (other = holder ∧ key ∈ keys) := by
  unfold heldBy setHeld at h
  dsimp only at h
  by_cases hother : other = holder
  · subst hother
    rw [List.getD_eq_getElem?_getD, List.getElem?_set_self'] at h
    cases hheld : room.held[other]? with
    | none =>
      -- No lock has this number, so nothing was replaced.
      rw [hheld] at h
      cases h
    | some held =>
      rw [hheld] at h
      exact Or.inr ⟨rfl, h⟩
  · rw [List.getD_eq_getElem?_getD, List.getElem?_set_ne (Ne.symm hother)] at h
    left
    rw [heldBy, List.getD_eq_getElem?_getD]
    exact h

end Room

namespace ScopedLock

variable (lock : ScopedLock) (key : String)

/--
Taking a key either succeeds, and the lock remembers it, or changes nothing that locks remember.
-/
theorem outcome_acquire (room : Room) :
    (∃ between, (lock.acquire key).outcome room =
        (.ok true, ((lock.remember key).outcome between).2) ∧ between.held = room.held) ∨
      (∃ result after, (lock.acquire key).outcome room = (result, after) ∧ result ≠ .ok true ∧
        after.held = room.held) := by
  have hheld := lock.store.held_add room.held (lock.fullKey key) lock.lifetime room rfl
  cases hadd : (lock.store.add (lock.fullKey key) lock.lifetime).outcome room with
  | mk result after =>
    rw [hadd] at hheld
    cases result with
    | error e =>
      exact Or.inr ⟨.error e, after, Call.outcome_bind_of_error hadd, nofun, hheld⟩
    | ok taken =>
      cases taken with
      | true => exact Or.inl ⟨after, Call.outcome_bind_of_ok hadd, hheld⟩
      | false =>
        refine Or.inr ⟨.ok false, after, Call.outcome_bind_of_ok hadd, ?_, hheld⟩
        intro h
        cases h

/-- What a lock remembers after it remembers one more key. -/
theorem mem_heldBy_remember {room : Room} {holder : Nat} {k : String}
    (h : k ∈ ((lock.remember key).outcome room).2.heldBy holder) :
    k ∈ room.heldBy holder ∨ (holder = lock.holder ∧ k = key) := by
  rw [remember, Call.outcome_changing] at h
  dsimp only at h
  split at h
  · exact Or.inl h
  · obtain hbefore | ⟨hholder, hmem⟩ := Room.mem_heldBy_setHeld h
    · exact Or.inl hbefore
    · rw [List.mem_append, List.mem_singleton] at hmem
      obtain hbefore | rfl := hmem
      · exact Or.inl (hholder ▸ hbefore)
      · exact Or.inr ⟨hholder, rfl⟩

/-- Taking a key leaves what locks remember, but for the key if it was taken. -/
theorem mem_heldBy_acquire {room : Room} {holder : Nat} {k : String}
    (h : k ∈ ((lock.acquire key).outcome room).2.heldBy holder) :
    k ∈ room.heldBy holder ∨
      (holder = lock.holder ∧ k = key ∧ ((lock.acquire key).outcome room).1 = .ok true) := by
  obtain ⟨between, htaken, hheld⟩ | ⟨result, after, hnot, -, hheld⟩ := lock.outcome_acquire key room
  · rw [htaken] at h ⊢
    obtain hbefore | ⟨hholder, hkey⟩ := lock.mem_heldBy_remember key h
    · rw [Room.heldBy, hheld] at hbefore
      exact Or.inl hbefore
    · exact Or.inr ⟨hholder, hkey, rfl⟩
  · rw [hnot, Room.heldBy, hheld] at h
    exact Or.inl h

/-- A guard is handed out if its key is taken, and the room is the same in either case. -/
theorem outcome_guard (room : Room) :
    (lock.guard key).outcome room =
      (match ((lock.acquire key).outcome room).1 with
        | .ok true => .ok (some ⟨lock, key⟩)
        | .ok false => .ok none
        | .error e => .error e,
        ((lock.acquire key).outcome room).2) := by
  cases hacquire : (lock.acquire key).outcome room with
  | mk result after =>
    cases result with
    | error e => exact Call.outcome_bind_of_error hacquire
    | ok taken =>
      cases taken with
      | true => exact Call.outcome_bind_of_ok hacquire
      | false => exact Call.outcome_bind_of_ok hacquire

variable {holder : Nat} {k : String}

/-- What only replaces files and memories leaves what locks remember. -/
theorem not_mem_heldBy_of_held {α : Type} {call : Call Room α}
    (h : ∀ held, call.Preserves fun room => room.held = held) :
    call.Preserves fun room => k ∉ room.heldBy holder := by
  intro room hk
  rw [Room.heldBy, h room.held room rfl]
  exact hk

theorem not_mem_heldBy_forget :
    (lock.forget key).Preserves fun room => k ∉ room.heldBy holder := by
  intro room hk hmem
  obtain hbefore | ⟨rfl, hfilter⟩ := Room.mem_heldBy_setHeld hmem
  · exact hk hbefore
  · exact hk (List.mem_filter.mp hfilter).1

/-- To give a key back adds nothing to what locks remember. -/
theorem not_mem_heldBy_release :
    (lock.release key).Preserves fun room => k ∉ room.heldBy holder :=
  (lock.not_mem_heldBy_forget key).bind fun _ =>
    not_mem_heldBy_of_held fun held => lock.store.held_delete held _

theorem not_mem_heldBy_clear :
    (Call.changing fun room : Room => room.setHeld lock.holder []).Preserves
      fun room => k ∉ room.heldBy holder := by
  intro room hk hmem
  obtain hbefore | ⟨-, hnil⟩ := Room.mem_heldBy_setHeld hmem
  · exact hk hbefore
  · cases hnil

theorem not_mem_heldBy_deleteKeys (keys : List String) :
    (lock.deleteKeys keys).Preserves fun room => k ∉ room.heldBy holder := by
  induction keys with
  | nil => exact Call.preserves_pure _ ()
  | cons key rest ih =>
    exact (not_mem_heldBy_of_held fun held => lock.store.held_delete held _).bind fun _ => ih

/-- To give back what was taken adds nothing to what locks remember. -/
theorem not_mem_heldBy_releaseHeld :
    lock.releaseHeld.Preserves fun room => k ∉ room.heldBy holder := by
  have hread : (Call.reading fun room => room.heldBy lock.holder : Call Room _).Preserves
      fun room => k ∉ room.heldBy holder := fun _ hk => hk
  exact hread.bind fun keys => lock.not_mem_heldBy_clear.bind fun _ =>
    (lock.not_mem_heldBy_deleteKeys keys).bind fun _ => Call.preserves_pure _ _

/-- To clean a namespace adds nothing to what locks remember. -/
theorem not_mem_heldBy_clean : lock.clean.Preserves fun room => k ∉ room.heldBy holder := by
  unfold clean
  split
  · exact fun _ hk => hk
  · exact (not_mem_heldBy_of_held fun held => lock.store.held_deleteLead held _).bind fun _ =>
      lock.not_mem_heldBy_clear.bind fun _ => Call.preserves_pure _ _

/-! ### What is freed -/

/-- Whether a key is live does not depend on what locks remember. -/
theorem isLive_setHeld (store : Store) (room : Room) (holder : Nat) (keys : List String)
    (key : String) : store.isLive (room.setHeld holder keys) key = store.isLive room key := by
  cases store with
  | memory number => rfl
  | directory path => rfl

/-- To give a key back leaves the life of the others. -/
theorem isLive_release_of_ne {other : String} (hne : other ≠ lock.fullKey key) :
    (lock.release key).Preserves fun room => lock.store.isLive room other = true := by
  have hforget : (lock.forget key).Preserves fun room => lock.store.isLive room other = true :=
    fun room h => (isLive_setHeld ..).trans h
  exact hforget.bind fun _ => lock.store.isLive_delete_of_ne hne

/-- A key that is given back is free, whoever had it. -/
theorem isLive_release_self (room : Room) :
    lock.store.isLive ((lock.release key).outcome room).2 (lock.fullKey key) = false :=
  lock.store.isLive_delete_self (lock.fullKey key) _

theorem isLive_deleteKeys {other : String} {keys : List String}
    (h : ∀ key ∈ keys, other ≠ lock.fullKey key) :
    (lock.deleteKeys keys).Preserves fun room => lock.store.isLive room other = true := by
  induction keys with
  | nil => exact Call.preserves_pure _ ()
  | cons key rest ih =>
    rw [List.forall_mem_cons] at h
    exact (lock.store.isLive_delete_of_ne h.1).bind fun _ => ih h.2

/-- To give back what was taken leaves the life of keys that the lock does not remember. -/
theorem isLive_releaseHeld {room : Room} {other : String}
    (h : ∀ key ∈ room.heldBy lock.holder, other ≠ lock.fullKey key)
    (hlive : lock.store.isLive room other = true) :
    lock.store.isLive (lock.releaseHeld.outcome room).2 other = true := by
  have hclear : (Call.changing fun room : Room => room.setHeld lock.holder []).Preserves
      fun room => lock.store.isLive room other = true := fun room hlive =>
    (isLive_setHeld ..).trans hlive
  -- The keys are read from the room before they are cleared, so that `h` speaks of them.
  have hbehind := hclear.bind fun _ => (lock.isLive_deleteKeys h).bind fun _ =>
    Call.preserves_pure (fun room => lock.store.isLive room other = true)
      (room.heldBy lock.holder).length
  exact hbehind room hlive

end ScopedLock

end Locks

end SqlFederation
