import SqlFederation.Proofs.LockMemory

/-!
# A key that is taken and given back

What is known of the locks of a room is when each key of each memory store runs out and what each
lock remembers. A lock over a memory store refuses a key and leaves the room as it is
(`ScopedLock.outcome_acquire_of_tooLong`, `ScopedLock.outcome_acquire_of_live`), or changes what is
known of that key alone (`ScopedLock.outcome_acquire_of_free`). To give the key back removes what is
known of it (`ScopedLock.givenBack_release`): everything else is then as it was before the key was
taken, as long as nothing in between touched the locks.
-/

namespace SqlFederation

namespace Locks

namespace MemoryStore

/-- To give a key an end leaves the others. -/
theorem expiry?_put_of_ne (store : MemoryStore) {key other : String} (h : key ≠ other)
    (ends : Time) : (store.put other ends).expiry? key = store.expiry? key := by
  -- A key is put by removing it and appending it with its new end.
  have hdelete := store.expiry?_delete other key
  rw [if_neg h] at hdelete
  rw [← hdelete]
  unfold put expiry?
  rw [List.lookup_append, List.lookup_cons, beq_false_of_ne h, List.lookup_nil, Option.or_none]

end MemoryStore

namespace Room

variable (room : Room)

/-- A memory store that is replaced leaves the others. -/
theorem memory_set_of_ne {number other : Nat} (h : other ≠ number) (store : MemoryStore) :
    Room.memory { room with memories := room.memories.set number store } other =
      room.memory other := by
  rw [memory, List.getD_eq_getElem?_getD, List.getElem?_set_ne h.symm]
  rw [memory, List.getD_eq_getElem?_getD]

/-- A memory store that is replaced by itself leaves the room. -/
theorem set_memory_self (number : Nat) :
    { room with memories := room.memories.set number (room.memory number) } = room := by
  have hsame : room.memories.set number (room.memory number) = room.memories := by
    by_cases hnumber : number < room.memories.length
    · rw [memory, List.getD_eq_getElem?_getD, List.getElem?_eq_getElem hnumber, Option.getD_some,
        List.set_getElem_self]
    · exact List.set_eq_of_length_le (Nat.le_of_not_lt hnumber)
  rw [hsame]

/-- A lock that is given new keys leaves what the others remember. -/
theorem heldBy_setHeld_of_ne {holder other : Nat} (h : other ≠ holder) (keys : List String) :
    (room.setHeld holder keys).heldBy other = room.heldBy other := by
  rw [heldBy, setHeld, List.getD_eq_getElem?_getD, List.getElem?_set_ne h.symm]
  rw [heldBy, List.getD_eq_getElem?_getD]

/-- A lock that is given new keys remembers them, if there is such a lock. -/
theorem heldBy_setHeld_self (holder : Nat) (keys : List String) :
    (room.setHeld holder keys).heldBy holder = keys ∨
      (room.heldBy holder = [] ∧ (room.setHeld holder keys).heldBy holder = []) := by
  by_cases hholder : holder < room.held.length
  · left
    simp [heldBy, setHeld, hholder]
  · right
    simp [heldBy, setHeld, hholder]

end Room

namespace ScopedLock

/-- Is a key of a lock gone behind a call, and all else that is known of locks as it was? -/
structure GivenBack (lock : ScopedLock) (number : Nat) (key : String) (before after : Room) :
    Prop where
  /-- The store does not have the key. -/
  not_stored : (after.memory number).expiry? (lock.fullKey key) = none
  /-- The lock does not remember the key. -/
  not_held : key ∉ after.heldBy lock.holder
  /-- Every other entry of every store is as it was. -/
  stored : ∀ n k, (n = number → k ≠ lock.fullKey key) →
    (after.memory n).expiry? k = (before.memory n).expiry? k
  /-- Every lock remembers every other key as it did. -/
  held : ∀ holder k, (holder = lock.holder → k ≠ key) →
    (k ∈ after.heldBy holder ↔ k ∈ before.heldBy holder)

variable (lock : ScopedLock) {number : Nat} (key : String) (room : Room)

/-- Nobody can take a key for longer than there is time. -/
theorem outcome_acquire_of_tooLong (hstore : lock.store = .memory number)
    (hlong : maxLifetime < lock.lifetime) :
    (lock.acquire key).outcome room = (.error .lifetimeTooLong, room) := by
  refine Call.outcome_bind_of_error ?_
  rw [hstore, Store.add, Store.addFor, Store.outcome_inMemory,
    MemoryStore.add_of_tooLong _ _ _ (maxSpan_lt_nanoseconds.mpr hlong)]
  exact congrArg (Prod.mk _) (room.set_memory_self number)

/-- A key that somebody has is not taken. -/
theorem outcome_acquire_of_live (hstore : lock.store = .memory number)
    (hlong : lock.lifetime ≤ maxLifetime)
    (hlive : lock.store.isLive room (lock.fullKey key) = true) :
    (lock.acquire key).outcome room = (.ok false, room) := by
  rw [hstore] at hlive
  have hlive' : (room.memory number).isLive room.now (lock.fullKey key) = true := hlive
  have hadd : (lock.store.add (lock.fullKey key) lock.lifetime).outcome room =
      (.ok false, room) := by
    rw [hstore, Store.add, Store.addFor, Store.outcome_inMemory,
      MemoryStore.add_of_live _ _ _ (nanoseconds_le_maxSpan hlong) hlive']
    exact congrArg (Prod.mk _) (room.set_memory_self number)
  exact Call.outcome_bind_of_ok hadd

/-- A key that nobody has is taken and remembered. -/
theorem outcome_acquire_of_free (hstore : lock.store = .memory number)
    (hlong : lock.lifetime ≤ maxLifetime)
    (hfree : lock.store.isLive room (lock.fullKey key) = false) :
    ∃ ends, (lock.acquire key).outcome room = (.ok true, ((lock.remember key).outcome { room with
      memories := room.memories.set number
        ((room.memory number).put (lock.fullKey key) ends) }).2) := by
  rw [hstore] at hfree
  have hfree' : (room.memory number).isLive room.now (lock.fullKey key) = false := hfree
  let ends := room.now + (nanoseconds lock.lifetime : Nat)
  have hadd : (lock.store.add (lock.fullKey key) lock.lifetime).outcome room =
      (.ok true, { room with
        memories := room.memories.set number
          ((room.memory number).put (lock.fullKey key) ends) }) := by
    rw [hstore, Store.add, Store.addFor, Store.outcome_inMemory,
      MemoryStore.add_of_free _ _ _ (nanoseconds_le_maxSpan hlong) hfree']
  exact ⟨ends, Call.outcome_bind_of_ok hadd⟩

/-- What a lock remembers of other keys when it remembers one more. -/
theorem mem_heldBy_remember_iff {holder : Nat} {k : String} (h : holder = lock.holder → k ≠ key) :
    k ∈ ((lock.remember key).outcome room).2.heldBy holder ↔ k ∈ room.heldBy holder := by
  rw [remember, Call.outcome_changing]
  dsimp only
  split
  · rfl
  · by_cases hholder : holder = lock.holder
    · subst hholder
      obtain hkeys | ⟨hnone, hempty⟩ :=
        room.heldBy_setHeld_self lock.holder (room.heldBy lock.holder ++ [key])
      · rw [hkeys, List.mem_append, List.mem_singleton]
        exact or_iff_left (h rfl)
      · rw [hempty, hnone]
    · rw [room.heldBy_setHeld_of_ne hholder]

/-- What locks remember when one of them gives a key back: all but the key. -/
theorem mem_heldBy_release_iff {holder : Nat} {k : String} :
    k ∈ ((lock.release key).outcome room).2.heldBy holder ↔
      k ∈ room.heldBy holder ∧ (holder = lock.holder → k ≠ key) := by
  have hheld := lock.store.held_delete ((lock.forget key).outcome room).2.held (lock.fullKey key)
    ((lock.forget key).outcome room).2 rfl
  have hrelease : ((lock.release key).outcome room).2.heldBy holder =
      (room.setHeld lock.holder
        ((room.heldBy lock.holder).filter fun k => k != key)).heldBy holder :=
    congrArg (fun held : List (List String) => held.getD holder []) hheld
  rw [hrelease]
  by_cases hholder : holder = lock.holder
  · subst hholder
    obtain hkeys | ⟨hnone, hempty⟩ := room.heldBy_setHeld_self lock.holder
      ((room.heldBy lock.holder).filter fun k => k != key)
    · rw [hkeys, List.mem_filter, bne_iff_ne]
      exact and_congr_right fun _ => ⟨fun hne _ => hne, fun hne => hne rfl⟩
    · rw [hempty, hnone]
      exact iff_of_false List.not_mem_nil fun hmem => List.not_mem_nil hmem.1
  · rw [room.heldBy_setHeld_of_ne hholder]
    exact (and_iff_left fun hsame => absurd hsame hholder).symm

/-- Memory stores are not concerned with what locks remember. -/
theorem memories_remember :
    ((lock.remember key).outcome room).2.memories = room.memories := by
  rw [remember, Call.outcome_changing]
  dsimp only
  split
  · rfl
  · rfl

/-- What memory stores have of keys when one of them is given back: all but the key. -/
theorem expiry?_memory_release (hstore : lock.store = .memory number) (n : Nat) (k : String) :
    (((lock.release key).outcome room).2.memory n).expiry? k =
      if n = number ∧ k = lock.fullKey key then none else (room.memory n).expiry? k := by
  have hmemories : ((lock.release key).outcome room).2.memories =
      room.memories.set number ((room.memory number).delete (lock.fullKey key)) := by
    show ((lock.store.delete (lock.fullKey key)).outcome _).2.memories = _
    rw [hstore]
    rfl
  rw [Room.memory, hmemories]
  show (Room.memory { room with memories := room.memories.set number _ } n).expiry? k = _
  by_cases hn : n = number
  · subst hn
    obtain hset | ⟨hempty, hempty'⟩ :=
      room.memory_set n ((room.memory n).delete (lock.fullKey key))
    · rw [hset, MemoryStore.expiry?_delete]
      simp only [true_and]
    · rw [hempty', hempty]
      exact (ite_self _).symm
  · rw [room.memory_set_of_ne hn, if_neg fun h => hn h.1]

/--
A key that was taken is given back, whatever happened in between, as long as that left the memory
stores and what locks remember.
-/
theorem givenBack_release (hstore : lock.store = .memory number)
    (hlong : lock.lifetime ≤ maxLifetime)
    (hfree : lock.store.isLive room (lock.fullKey key) = false) {between : Room}
    (hmemories : between.memories = ((lock.acquire key).outcome room).2.memories)
    (hheld : between.held = ((lock.acquire key).outcome room).2.held) :
    lock.GivenBack number key room ((lock.release key).outcome between).2 := by
  obtain ⟨ends, htaken⟩ := lock.outcome_acquire_of_free key room hstore hlong hfree
  rw [htaken] at hmemories hheld
  rw [lock.memories_remember] at hmemories
  constructor
  case not_stored => rw [lock.expiry?_memory_release key between hstore, if_pos ⟨rfl, rfl⟩]
  case not_held => exact fun hmem => ((lock.mem_heldBy_release_iff key between).mp hmem).2 rfl rfl
  case stored =>
    intro n k hother
    rw [lock.expiry?_memory_release key between hstore, if_neg fun h => hother h.1 h.2,
      Room.memory, hmemories]
    show (Room.memory { room with memories := room.memories.set number _ } n).expiry? k = _
    by_cases hn : n = number
    · -- The store had the key for a while; its other entries are as they were.
      subst hn
      obtain hset | ⟨hempty, hempty'⟩ :=
        room.memory_set n ((room.memory n).put (lock.fullKey key) ends)
      · rw [hset, MemoryStore.expiry?_put_of_ne _ (hother rfl)]
      · rw [hempty', hempty]
    · rw [room.memory_set_of_ne hn]
  case held =>
    -- The key joined what the lock remembers and left it again.
    intro holder k hother
    rw [lock.mem_heldBy_release_iff, and_iff_left hother, Room.heldBy, hheld]
    exact lock.mem_heldBy_remember_iff key _ hother

end ScopedLock

end Locks

end SqlFederation
