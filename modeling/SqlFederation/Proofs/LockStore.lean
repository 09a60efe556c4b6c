import SqlFederation.Locks.Scoped
import SqlFederation.Proofs.LockFiles
import SqlFederation.Proofs.Outcome

/-!
# What a lock store says of its keys

A key is live while somebody has it (`Store.isLive`), in a memory store and in a lock directory. To
free a key ends its life and leaves the life of all other keys (`Store.isLive_delete_self`,
`Store.isLive_delete_of_ne`), and nothing that a store does changes what locks remember.
-/

namespace SqlFederation

namespace Locks

/-- Has somebody got the key now? -/
def Store.isLive (store : Store) (room : Room) (key : String) : Bool :=
  match store with
  | .memory number => (room.memory number).isLive room.now key
  | .directory path =>
    match room.files.find (Directory.pathOf path key) with
    | .file _ file => file.entry?.any fun entry => !room.isStale entry
    | _ => false

namespace MemoryStore

theorem expiry?_delete (store : MemoryStore) (removed key : String) :
    (store.delete removed).expiry? key = if key = removed then none else store.expiry? key := by
  unfold expiry? delete
  rw [lookup_filter_key fun k => k != removed]
  by_cases hkey : key = removed
  · rw [if_pos hkey, hkey, bne_self_eq_false, if_neg Bool.false_ne_true]
  · rw [if_neg hkey, bne_iff_ne.mpr hkey, if_pos rfl]

section Add

variable (store : MemoryStore) (now : Time) (key : String) {span : Nat}

/-- Nobody can take a key for longer than there is time. -/
theorem add_of_tooLong (hspan : maxSpan < span) :
    store.add now key span = (.error .lifetimeTooLong, store) := by
  rw [add, expiry, if_pos hspan]

/-- A key that somebody has is not taken. -/
theorem add_of_live (hspan : span ≤ maxSpan) (hlive : store.isLive now key = true) :
    store.add now key span = (.ok false, store) := by
  rw [add, expiry, if_neg (Nat.not_lt.mpr hspan)]
  exact if_pos hlive

/-- A key that nobody has is taken. -/
theorem add_of_free (hspan : span ≤ maxSpan) (hfree : store.isLive now key = false) :
    store.add now key span = (.ok true, store.put key (now + span)) := by
  rw [add, expiry, if_neg (Nat.not_lt.mpr hspan)]
  exact if_neg (Bool.eq_false_iff.mp hfree)

end Add

end MemoryStore

/-- A memory store that was replaced is the new one. -/
theorem Room.memory_set_of_lt (room : Room) {number : Nat} (h : number < room.memories.length)
    (store : MemoryStore) :
    Room.memory { room with memories := room.memories.set number store } number = store := by
  simp [memory, h]

/-- A memory store that was replaced is the new one, or there is none with that number. -/
theorem Room.memory_set (room : Room) (number : Nat) (store : MemoryStore) :
    Room.memory { room with memories := room.memories.set number store } number = store ∨
      (room.memory number = .empty ∧
        Room.memory { room with memories := room.memories.set number store } number = .empty) := by
  by_cases hnumber : number < room.memories.length
  · exact Or.inl (room.memory_set_of_lt hnumber store)
  · right
    simp [memory, hnumber]

namespace Store

/-- What is done in a memory store is done there, and the room is otherwise as it was. -/
theorem outcome_inMemory {α : Type} (number : Nat)
    (f : Time → MemoryStore → Except Error α × MemoryStore) (room : Room) :
    (inMemory number f).outcome room =
      ((f room.now (room.memory number)).1,
        { room with memories := room.memories.set number (f room.now (room.memory number)).2 }) :=
  rfl

/-- To free one key leaves the life of the others. -/
theorem isLive_delete_of_ne (store : Store) {key other : String} (hne : other ≠ key) :
    (store.delete key).Preserves fun room => store.isLive room other = true := by
  intro room h
  cases store with
  | memory number =>
    show ((Room.memory { room with
      memories := room.memories.set number ((room.memory number).delete key) } number).isLive
        room.now other) = true
    have hlive : (room.memory number).isLive room.now other = true := h
    obtain hset | ⟨hempty, -⟩ := room.memory_set number ((room.memory number).delete key)
    · rw [hset, MemoryStore.isLive, MemoryStore.expiry?_delete, if_neg hne]
      exact hlive
    · -- There is no such memory: it reads as an empty one, in which nothing is live.
      rw [hempty] at hlive
      cases hlive
  | directory path =>
    simp only [isLive] at h ⊢
    split at h
    · rename_i ours file hours
      rw [delete, Directory.delete, Call.outcome_of]
      cases htheirs : room.files.find (Directory.pathOf path key) with
      | file theirs _ =>
        have hpath : ours ≠ theirs := Directory.path_ne hne hours htheirs
        simp only [Files.find_remove_of_ne hours hpath]
        exact h
      | _ =>
        simp only [hours]
        exact h
    · cases h

/-- A key that is freed is free, whoever had it. -/
theorem isLive_delete_self (store : Store) (key : String) (room : Room) :
    store.isLive ((store.delete key).outcome room).2 key = false := by
  cases store with
  | memory number =>
    show ((Room.memory { room with
      memories := room.memories.set number ((room.memory number).delete key) } number).isLive
        room.now key) = false
    obtain hset | ⟨-, hempty⟩ := room.memory_set number ((room.memory number).delete key)
    · rw [hset, MemoryStore.isLive, MemoryStore.expiry?_delete, if_pos rfl]
      rfl
    · rw [hempty]
      rfl
  | directory path =>
    rw [delete, Directory.delete, Call.outcome_of, isLive]
    cases hfind : room.files.find (Directory.pathOf path key) with
    | file ours file => simp only [Files.find_remove_self hfind]
    | _ => simp only [hfind]

end Store

/-! ## What locks remember is not the business of a store -/

variable (held : List (List String))

namespace Directory

theorem held_delete (path key : String) :
    (delete path key).Preserves fun room => room.held = held := by
  intro room h
  rw [delete, Call.outcome_of]
  split
  all_goals exact h

theorem held_deleteAll (path : String) (keys : List String) (count : Nat) :
    (deleteAll path keys count).Preserves fun room => room.held = held := by
  induction keys generalizing count with
  | nil => exact Call.preserves_pure _ count
  | cons key rest ih => exact (held_delete held path key).bind fun _ => ih (count + 1)

theorem held_tryCreate (path key : String) (ends : Time) :
    (tryCreate path key ends).Preserves fun room => room.held = held := by
  intro room h
  rw [tryCreate, Call.outcome_of]
  split
  all_goals exact h

theorem held_moveAway (path key : String) :
    (moveAway path key).Preserves fun room => room.held = held := by
  intro room h
  rw [moveAway, Call.outcome_of]
  split
  all_goals exact h

theorem held_discard (path key : String) :
    (discard path key).Preserves fun room => room.held = held := by
  intro room h
  rw [discard, Call.outcome_of]
  split
  all_goals exact h

theorem held_putBack (path key : String) :
    (putBack path key).Preserves fun room => room.held = held := by
  intro room h
  rw [putBack, Call.outcome_of]
  split
  · dsimp only
    split
    all_goals exact h
  · exact h

theorem held_reclaim (path key : String) (span : Nat) :
    (reclaim path key span).Preserves fun room => room.held = held := by
  refine (held_moveAway held path key).bind fun isMoved => ?_
  split
  · refine Call.Preserves.bind (fun _ h => h) fun isFree => ?_
    split
    · exact (held_discard held path key).bind fun _ => Call.preserves_pure _ true
    · exact (held_putBack held path key).bind fun _ => Call.preserves_pure _ false
  · exact Call.preserves_pure _ false

theorem held_take (path key : String) (span : Nat) (ends : Time) :
    (take path key span ends).Preserves fun room => room.held = held := by
  refine (held_tryCreate held path key ends).bind fun isMade => ?_
  split
  · exact Call.preserves_pure _ true
  · refine Call.Preserves.bind (fun _ h => h) fun isFree => ?_
    split
    · refine (held_reclaim held path key span).bind fun isOurs => ?_
      split
      · exact held_tryCreate held path key ends
      · exact Call.preserves_pure _ false
    · exact Call.preserves_pure _ false

theorem held_add (path key : String) (span : Nat) :
    (add path key span).Preserves fun room => room.held = held := by
  have hmake : (make path).Preserves fun room => room.held = held := fun _ h => h
  refine hmake.bind fun _ => ?_
  exact Call.Preserves.bind (fun _ h => h) fun ends => held_take held path key span ends

end Directory

namespace Store

variable (store : Store)

theorem held_inMemory {α : Type} (number : Nat)
    (f : Time → MemoryStore → Except Error α × MemoryStore) :
    (inMemory number f).Preserves fun room => room.held = held :=
  fun _ h => h

theorem held_delete (key : String) : (store.delete key).Preserves fun room => room.held = held := by
  cases store with
  | memory number => exact held_inMemory held number _
  | directory path => exact Directory.held_delete held path key

theorem held_addFor (key : String) (span : Nat) :
    (store.addFor key span).Preserves fun room => room.held = held := by
  cases store with
  | memory number => exact held_inMemory held number _
  | directory path => exact Directory.held_add held path key span

theorem held_add (key : String) (seconds : Nat) :
    (store.add key seconds).Preserves fun room => room.held = held :=
  store.held_addFor held key (nanoseconds seconds)

theorem held_deleteLead (lead : String) :
    (store.deleteLead lead).Preserves fun room => room.held = held := by
  cases store with
  | memory number => exact held_inMemory held number _
  | directory path =>
    have hentries : (Call.of fun room => (Directory.entries path room.files, room) :
        Call Room (List Entry)).Preserves fun room => room.held = held := fun _ h => h
    exact hentries.bind fun entries => Directory.held_deleteAll held path _ 0

end Store

end Locks

end SqlFederation
