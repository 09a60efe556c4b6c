import Mathlib
import SqlFederation.Proofs.LockHolders
import SqlFederation.Proofs.LockMirror
import SqlFederation.Proofs.LockReturn

/-!
# At most one holder of a key

Locks that share a memory store take keys, give back what they hold, and drop guards; none of them
frees a key that is not its own, or that a guard still covers (`Ledger.KeepsToOwn`), and no key runs
out. Then the keys of the store are the keys that the locks hold, each of them held through one lock
only (`Ledger.Exclusive`). Every move either lets one lock gain a key that the store did not have
(`ScopedLock.Gains`) or lets it lose keys that it held, which the store loses too
(`ScopedLock.Loses`), and both preserve the invariant. So a key is taken exactly if nobody holds it
(`Ledger.one_holder_per_key`), whatever the namespaces and keys are whose texts the store joins.
What is left to refuse is a lifetime that is longer than there is time
(`Ledger.acquire_refuses_endless_lifetime`).
-/

namespace SqlFederation

namespace Locks

/-! ## The keys of a store -/

namespace MemoryStore

variable {store : MemoryStore} {key other : String}

/-- The keys that a store has. -/
def keys (store : MemoryStore) : List String := store.entries.map Prod.fst

/-- Has no key of a store run out? -/
def Lasts (store : MemoryStore) (now : Time) : Prop := ∀ entry ∈ store.entries, now < entry.2

instance (store : MemoryStore) (now : Time) : Decidable (store.Lasts now) :=
  inferInstanceAs (Decidable (∀ entry ∈ store.entries, now < entry.2))

theorem mem_keys : key ∈ store.keys ↔ (store.expiry? key).isSome = true := mem_keys_iff

theorem mem_keys_delete : key ∈ (store.delete other).keys ↔ key ∈ store.keys ∧ key ≠ other := by
  rw [mem_keys, mem_keys, expiry?_delete]
  by_cases hkey : key = other
  · rw [if_pos hkey]
    exact iff_of_false Bool.false_ne_true fun h => h.2 hkey
  · rw [if_neg hkey]
    exact (and_iff_left hkey).symm

theorem mem_keys_put (ends : Time) :
    key ∈ (store.put other ends).keys ↔ key ∈ store.keys ∨ key = other := by
  have hput : (store.put other ends).keys = (store.delete other).keys ++ [other] := by
    unfold keys put
    rw [List.map_append, List.map_singleton]
  rw [hput, List.mem_append, List.mem_singleton, mem_keys_delete]
  -- The key that is put is there in either case, so that it does not matter that it was deleted.
  by_cases hkey : key = other
  · exact iff_of_true (Or.inr hkey) (Or.inr hkey)
  · rw [and_iff_left hkey]

theorem mem_keys_foldl_delete (removed : List String) :
    key ∈ (removed.foldl delete store).keys ↔ key ∈ store.keys ∧ key ∉ removed := by
  induction removed generalizing store with
  | nil => simp
  | cons first rest ih =>
    rw [List.foldl_cons, ih, mem_keys_delete, List.mem_cons, not_or, and_assoc]

/-- Where no key has run out, those that somebody has are those of the store. -/
theorem Lasts.isLive_iff {now : Time} (h : store.Lasts now) :
    store.isLive now key = true ↔ key ∈ store.keys := by
  rw [mem_keys]
  cases hends : store.expiry? key with
  | none =>
    rw [isLive_of_none hends]
    rfl
  | some ends =>
    obtain ⟨front, back, hentries, -⟩ := List.lookup_eq_some_iff.mp hends
    have hentry : (key, ends) ∈ store.entries := by
      rw [hentries]
      exact List.mem_append_right front List.mem_cons_self
    rw [isLive_of_some hends, decide_eq_true (h _ hentry)]
    rfl

end MemoryStore

/-! ## What one lock gains and loses -/

namespace ScopedLock

/-- Different keys of a lock are different keys of its store. -/
theorem fullKey_injective (lock : ScopedLock) {a b : String}
    (h : lock.fullKey a = lock.fullKey b) : a = b := by
  unfold fullKey keyIn at h
  split at h
  · exact h
  · exact (String.append_right_inj _).mp h

/-- Has a room one more key, which a lock took? -/
structure Gains (lock : ScopedLock) (number : Nat) (key : String) (before after : Room) :
    Prop where
  memories : after.memories.length = before.memories.length
  holders : after.held.length = before.held.length
  stored : ∀ full, full ∈ (after.memory number).keys ↔
    full ∈ (before.memory number).keys ∨ full = lock.fullKey key
  held : ∀ holder k, k ∈ after.heldBy holder ↔
    k ∈ before.heldBy holder ∨ (holder = lock.holder ∧ k = key)

/-- Has a room all keys but some, which a lock gave back? -/
structure Loses (lock : ScopedLock) (number : Nat) (lost : List String) (before after : Room) :
    Prop where
  memories : after.memories.length = before.memories.length
  holders : after.held.length = before.held.length
  stored : ∀ full, full ∈ (after.memory number).keys ↔
    full ∈ (before.memory number).keys ∧ full ∉ lost.map lock.fullKey
  held : ∀ holder k, k ∈ after.heldBy holder ↔
    k ∈ before.heldBy holder ∧ (holder = lock.holder → k ∉ lost)

variable (lock : ScopedLock) {number : Nat} (key : String) (room : Room)

/-- A lock that is there remembers a key that it takes. -/
theorem mem_heldBy_remember_of_lt (hholder : lock.holder < room.held.length) (holder : Nat)
    (k : String) :
    k ∈ ((lock.remember key).outcome room).2.heldBy holder ↔
      k ∈ room.heldBy holder ∨ (holder = lock.holder ∧ k = key) := by
  by_cases hother : holder = lock.holder → k ≠ key
  · rw [lock.mem_heldBy_remember_iff key room hother]
    exact (or_iff_left fun h => hother h.1 h.2).symm
  · obtain ⟨rfl, hkey⟩ := Classical.not_imp.mp hother
    obtain rfl := not_not.mp hkey
    refine iff_of_true ?_ (Or.inr ⟨rfl, rfl⟩)
    rw [remember, Call.outcome_changing]
    dsimp only
    split
    · rename_i hheld
      exact List.contains_iff_mem.mp hheld
    · have hkeys : (room.setHeld lock.holder (room.heldBy lock.holder ++ [k])).heldBy lock.holder =
          room.heldBy lock.holder ++ [k] := by
        simp [Room.setHeld, Room.heldBy, hholder]
      rw [hkeys]
      exact List.mem_append_right _ List.mem_cons_self

theorem length_held_remember :
    ((lock.remember key).outcome room).2.held.length = room.held.length := by
  rw [remember, Call.outcome_changing]
  dsimp only
  split
  · rfl
  · exact List.length_set

/-- A lock that takes a key which nobody has gains it. -/
theorem gains_acquire (hstore : lock.store = .memory number)
    (hnumber : number < room.memories.length) (hholder : lock.holder < room.held.length)
    (hlong : lock.lifetime ≤ maxLifetime)
    (hfree : lock.store.isLive room (lock.fullKey key) = false) :
    ((lock.acquire key).outcome room).1 = .ok true ∧
      lock.Gains number key room ((lock.acquire key).outcome room).2 := by
  obtain ⟨ends, htaken⟩ := lock.outcome_acquire_of_free key room hstore hlong hfree
  let between : Room := { room with
    memories := room.memories.set number ((room.memory number).put (lock.fullKey key) ends) }
  rw [htaken]
  refine ⟨rfl, ?_⟩
  constructor
  case memories => rw [lock.memories_remember, List.length_set]
  case holders => exact lock.length_held_remember key between
  case stored =>
    intro full
    rw [Room.memory, lock.memories_remember]
    show full ∈ (between.memory number).keys ↔ _
    rw [room.memory_set_of_lt hnumber, MemoryStore.mem_keys_put]
  case held => exact lock.mem_heldBy_remember_of_lt key between hholder

/-- A lock that gives back keys loses them, if it remembers all others and the store keeps them. -/
theorem loses_of_eq (hnumber : number < room.memories.length)
    (hholder : lock.holder < room.held.length) {lost : List String} (left : List String)
    (hleft : ∀ k, k ∈ left ↔ k ∈ room.heldBy lock.holder ∧ k ∉ lost) {after : Room}
    (hafter : after = { room.setHeld lock.holder left with
      memories := room.memories.set number
        ((lost.map lock.fullKey).foldl MemoryStore.delete (room.memory number)) }) :
    lock.Loses number lost room after := by
  subst hafter
  constructor
  case memories => exact List.length_set
  case holders => exact List.length_set
  case stored =>
    intro full
    have hmemory := room.memory_set_of_lt hnumber
      ((lost.map lock.fullKey).foldl MemoryStore.delete (room.memory number))
    rw [← MemoryStore.mem_keys_foldl_delete]
    exact iff_of_eq (congrArg (fun store : MemoryStore => full ∈ store.keys) hmemory)
  case held =>
    intro holder k
    show k ∈ (room.setHeld lock.holder left).heldBy holder ↔ _
    by_cases hsame : holder = lock.holder
    · subst hsame
      have hkeys : (room.setHeld lock.holder left).heldBy lock.holder = left := by
        simp [Room.setHeld, Room.heldBy, hholder]
      rw [hkeys, hleft]
      exact and_congr_right fun _ => ⟨fun h _ => h, fun h => h rfl⟩
    · rw [room.heldBy_setHeld_of_ne hsame]
      exact (and_iff_left fun h => absurd h hsame).symm

/-- A lock that gives one key back loses it. -/
theorem loses_release (hstore : lock.store = .memory number)
    (hnumber : number < room.memories.length) (hholder : lock.holder < room.held.length) :
    lock.Loses number [key] room ((lock.release key).outcome room).2 := by
  refine lock.loses_of_eq room hnumber hholder
    ((room.heldBy lock.holder).filter fun k => k != key) (fun k => ?_) ?_
  · rw [List.mem_filter, bne_iff_ne, List.mem_singleton]
  · show ((lock.store.delete (lock.fullKey key)).outcome _).2 = _
    rw [hstore]
    rfl

/-- Keys are freed one after the other. -/
theorem outcome_deleteKeys (hstore : lock.store = .memory number) (keys : List String)
    (hnumber : number < room.memories.length) :
    (lock.deleteKeys keys).outcome room = (.ok (), { room with
      memories := room.memories.set number
        ((keys.map lock.fullKey).foldl MemoryStore.delete (room.memory number)) }) := by
  induction keys generalizing room with
  | nil => exact congrArg (Prod.mk _) (room.set_memory_self number).symm
  | cons first rest ih =>
    let between : Room := { room with
      memories := room.memories.set number ((room.memory number).delete (lock.fullKey first)) }
    have hdelete : (lock.store.delete (lock.fullKey first)).outcome room = (.ok (), between) := by
      rw [hstore]
      rfl
    have hbetween : number < between.memories.length := by
      show number < (room.memories.set number _).length
      rwa [List.length_set]
    have hmemory : between.memory number = (room.memory number).delete (lock.fullKey first) :=
      room.memory_set_of_lt hnumber _
    rw [deleteKeys, Call.outcome_bind_of_ok hdelete, ih between hbetween, hmemory]
    show (_, { room with memories := (room.memories.set number _).set number _ }) = _
    rw [List.set_set]
    rfl

/-- A lock that gives back what it holds loses all of it. -/
theorem loses_releaseHeld (hstore : lock.store = .memory number)
    (hnumber : number < room.memories.length) (hholder : lock.holder < room.held.length) :
    lock.Loses number (room.heldBy lock.holder) room (lock.releaseHeld.outcome room).2 := by
  refine lock.loses_of_eq room hnumber hholder [] (fun k => ?_) ?_
  · exact iff_of_false List.not_mem_nil fun h => h.2 h.1
  · let cleared := room.setHeld lock.holder []
    have hkeys := lock.outcome_deleteKeys cleared hstore (room.heldBy lock.holder) hnumber
    -- The keys are read from the room before they are cleared, and freed in the room behind that.
    show ((lock.deleteKeys (room.heldBy lock.holder) >>= fun _ => _).outcome cleared).2 = _
    rw [Call.outcome_bind_of_ok hkeys]
    rfl

end ScopedLock

/-! ## Runs of locks that keep to their own -/

variable {ι : Type} (locks : ι → ScopedLock)

namespace Ledger

/--
Does a move free only keys that its lock holds and that no guard covers? Guards that are out may be
dropped.
-/
def KeepsToOwn (ledger : Ledger ι) : Move ι → Prop
  | .acquire .. | .guard .. | .drop .. | .wait _ => True
  | .release i key => key ∈ ledger.room.heldBy (locks i).holder ∧ (i, key) ∉ ledger.guards
  | .releaseHeld i => ∀ key ∈ ledger.room.heldBy (locks i).holder, (i, key) ∉ ledger.guards
  | .forceDrop .. | .clean _ => False

/-- The keys of the store that a lock holds. -/
def fullKeys (ledger : Ledger ι) (i : ι) : Set String :=
  (locks i).fullKey '' {key | key ∈ ledger.room.heldBy (locks i).holder}

/-- Does a store have the keys that locks hold, and does one lock hold each of them? -/
structure Exclusive (number : Nat) (ledger : Ledger ι) : Prop where
  /-- There is a memory with the number. -/
  known : number < ledger.room.memories.length
  /-- Each lock has a place for what it remembers. -/
  holders : ∀ i, (locks i).holder < ledger.room.held.length
  stored : ∀ full, full ∈ (ledger.room.memory number).keys ↔ ∃ i, full ∈ ledger.fullKeys locks i
  alone : ∀ {i j full}, full ∈ ledger.fullKeys locks i → full ∈ ledger.fullKeys locks j → i = j
  /-- What a guard covers is held. -/
  guarded : ∀ {i key}, (i, key) ∈ ledger.guards → key ∈ ledger.room.heldBy (locks i).holder
  /-- No key is covered twice. -/
  nodup : ledger.guards.Nodup

variable {locks} {number : Nat} {room after : Room} {ledger : Ledger ι} {i : ι} {key : String}

theorem mem_fullKeys {full : String} :
    full ∈ ledger.fullKeys locks i ↔
      ∃ k, k ∈ ledger.room.heldBy (locks i).holder ∧ (locks i).fullKey k = full :=
  Iff.rfl

section Gains

variable (hown : Function.Injective fun i => (locks i).holder)
  (hgains : (locks i).Gains number key ledger.room after)
include hown hgains

/-- Only the lock that gains a key remembers more than before. -/
theorem mem_heldBy_of_gains (j : ι) (k : String) :
    k ∈ after.heldBy (locks j).holder ↔
      k ∈ ledger.room.heldBy (locks j).holder ∨ (j = i ∧ k = key) := by
  rw [hgains.held]
  exact or_congr_right (and_congr_left fun _ =>
    ⟨fun hsame => hown hsame, fun hsame => hsame ▸ rfl⟩)

/-- Only the lock that gains a key holds more of the store than before. -/
theorem mem_fullKeys_of_gains {other : Ledger ι} (hroom : other.room = after) (j : ι)
    (full : String) :
    full ∈ other.fullKeys locks j ↔
      full ∈ ledger.fullKeys locks j ∨ (j = i ∧ full = (locks i).fullKey key) := by
  have hheld := mem_heldBy_of_gains hown hgains j
  rw [mem_fullKeys, mem_fullKeys, hroom]
  constructor
  · rintro ⟨k, hk, rfl⟩
    obtain hk | ⟨rfl, rfl⟩ := (hheld k).mp hk
    · exact Or.inl ⟨k, hk, rfl⟩
    · exact Or.inr ⟨rfl, rfl⟩
  · rintro (⟨k, hk, rfl⟩ | ⟨rfl, rfl⟩)
    · exact ⟨k, (hheld k).mpr (Or.inl hk), rfl⟩
    · exact ⟨key, (hheld key).mpr (Or.inr ⟨rfl, rfl⟩), rfl⟩

end Gains

namespace Exclusive

variable (h : ledger.Exclusive locks number) (hown : Function.Injective fun i => (locks i).holder)
include h hown

/-- A lock that gains a key which the store did not have is the only one that holds it. -/
theorem gain (hgains : (locks i).Gains number key ledger.room after)
    (hnew : (locks i).fullKey key ∉ (ledger.room.memory number).keys) {guards : List (ι × String)}
    (hguards : guards = ledger.guards ∨ guards = ledger.guards ++ [(i, key)])
    (taker : String → Option ι) : Exclusive locks number ⟨after, guards, taker⟩ := by
  have hheld := mem_heldBy_of_gains hown hgains
  have hfull := mem_fullKeys_of_gains hown hgains
    (rfl : (⟨after, guards, taker⟩ : Ledger ι).room = after)
  have hunheld : ∀ j, (locks i).fullKey key ∉ ledger.fullKeys locks j := fun j hj =>
    hnew ((h.stored _).mpr ⟨j, hj⟩)
  constructor
  case known => exact hgains.memories ▸ h.known
  case holders => exact fun j => hgains.holders ▸ h.holders j
  case stored =>
    intro full
    rw [hgains.stored, h.stored]
    constructor
    · rintro (⟨j, hj⟩ | rfl)
      · exact ⟨j, (hfull j full).mpr (Or.inl hj)⟩
      · exact ⟨i, (hfull i _).mpr (Or.inr ⟨rfl, rfl⟩)⟩
    · rintro ⟨j, hj⟩
      exact ((hfull j full).mp hj).imp (fun hj => ⟨j, hj⟩) And.right
  case alone =>
    intro j k full hj hk
    obtain hj | ⟨rfl, rfl⟩ := (hfull j full).mp hj
    · obtain hk | ⟨rfl, rfl⟩ := (hfull k full).mp hk
      · exact h.alone hj hk
      · exact absurd hj (hunheld j)
    · obtain hk | ⟨rfl, -⟩ := (hfull k _).mp hk
      · exact absurd hk (hunheld k)
      · rfl
  case guarded =>
    intro j k hguard
    obtain rfl | rfl := hguards
    · exact (hheld j k).mpr (Or.inl (h.guarded hguard))
    · rw [List.mem_append, List.mem_singleton] at hguard
      obtain hguard | hguard := hguard
      · exact (hheld j k).mpr (Or.inl (h.guarded hguard))
      · obtain ⟨rfl, rfl⟩ := Prod.mk.inj hguard
        exact (hheld j k).mpr (Or.inr ⟨rfl, rfl⟩)
  case nodup =>
    obtain rfl | rfl := hguards
    · exact h.nodup
    · rw [List.nodup_append]
      refine ⟨h.nodup, List.nodup_singleton _, fun guard hguard last hlast hsame => ?_⟩
      rw [hsame, List.mem_singleton.mp hlast] at hguard
      -- The key would be held already, and so be in the store.
      exact hunheld i ⟨key, h.guarded hguard, rfl⟩

/-- A lock that loses keys that it held, none of them under a guard, leaves those of the others. -/
theorem lose {lost : List String} (hloses : (locks i).Loses number lost ledger.room after)
    (hlost : ∀ k ∈ lost, k ∈ ledger.room.heldBy (locks i).holder)
    {guards : List (ι × String)} (hguards : guards.Sublist ledger.guards)
    (huncovered : ∀ k ∈ lost, (i, k) ∉ guards) (taker : String → Option ι) :
    Exclusive locks number ⟨after, guards, taker⟩ := by
  have hheld : ∀ j k, k ∈ after.heldBy (locks j).holder ↔
      k ∈ ledger.room.heldBy (locks j).holder ∧ (j = i → k ∉ lost) := by
    intro j k
    rw [hloses.held]
    refine and_congr_right fun _ => ⟨fun hk hsame => hk (hsame ▸ rfl), fun hk hsame => ?_⟩
    exact hk (hown hsame)
  have hfull : ∀ j full, full ∈ (⟨after, guards, taker⟩ : Ledger ι).fullKeys locks j ↔
      full ∈ ledger.fullKeys locks j ∧ full ∉ lost.map (locks i).fullKey := by
    intro j full
    rw [mem_fullKeys, mem_fullKeys, List.mem_map]
    constructor
    · rintro ⟨k, hk, rfl⟩
      obtain ⟨hk, hkept⟩ := (hheld j k).mp hk
      refine ⟨⟨k, hk, rfl⟩, ?_⟩
      rintro ⟨l, hl, hsame⟩
      -- A key that is lost is a key of this lock alone, and then it is the same one.
      obtain rfl : i = j := h.alone ⟨l, hlost l hl, hsame⟩ ⟨k, hk, rfl⟩
      exact hkept rfl ((locks i).fullKey_injective hsame ▸ hl)
    · rintro ⟨⟨k, hk, rfl⟩, hkept⟩
      refine ⟨k, (hheld j k).mpr ⟨hk, ?_⟩, rfl⟩
      rintro rfl hmem
      exact hkept ⟨k, hmem, rfl⟩
  constructor
  case known => exact hloses.memories ▸ h.known
  case holders => exact fun j => hloses.holders ▸ h.holders j
  case stored =>
    intro full
    rw [hloses.stored, h.stored, ← exists_and_right]
    exact exists_congr fun j => (hfull j full).symm
  case alone =>
    intro j k full hj hk
    exact h.alone ((hfull j full).mp hj).1 ((hfull k full).mp hk).1
  case guarded =>
    intro j k hguard
    refine (hheld j k).mpr ⟨h.guarded (hguards.mem hguard), ?_⟩
    rintro rfl hmem
    exact huncovered k hmem hguard
  case nodup => exact h.nodup.sublist hguards

end Exclusive

/-- Who holds which keys depends on the stores, on what locks remember, and on guards. -/
theorem Exclusive.congr (h : ledger.Exclusive locks number) {other : Ledger ι}
    (hmemories : other.room.memories = ledger.room.memories)
    (hheld : other.room.held = ledger.room.held) (hguards : other.guards = ledger.guards) :
    other.Exclusive locks number := by
  have hmemory : other.room.memory number = ledger.room.memory number := by
    rw [Room.memory, Room.memory, hmemories]
  have hkeys : ∀ j, other.room.heldBy (locks j).holder = ledger.room.heldBy (locks j).holder := by
    intro j
    rw [Room.heldBy, Room.heldBy, hheld]
  have hfull : ∀ j, other.fullKeys locks j = ledger.fullKeys locks j := by
    intro j
    rw [fullKeys, fullKeys, hkeys]
  constructor
  case known => exact hmemories ▸ h.known
  case holders => exact fun j => hheld ▸ h.holders j
  case stored =>
    intro full
    simp only [hmemory, hfull]
    exact h.stored full
  case alone =>
    intro j k full hj hk
    rw [hfull] at hj hk
    exact h.alone hj hk
  case guarded =>
    intro j k hguard
    rw [hkeys]
    exact h.guarded (hguards ▸ hguard)
  case nodup => exact hguards ▸ h.nodup

/-- At the start nobody holds anything. -/
theorem exclusive_start (hnumber : number < room.memories.length)
    (hholders : ∀ i, (locks i).holder < room.held.length) (hempty : room.memory number = .empty)
    (hfresh : ∀ i, room.heldBy (locks i).holder = []) : (start room).Exclusive locks number := by
  have hnone : ∀ i full, full ∉ (start room).fullKeys locks i := by
    rintro i full ⟨key, hkey, -⟩
    rw [Set.mem_ofPred_eq, start, hfresh] at hkey
    cases hkey
  constructor
  case known => exact hnumber
  case holders => exact hholders
  case stored =>
    intro full
    rw [start, hempty]
    exact iff_of_false List.not_mem_nil (not_exists.mpr fun i => hnone i full)
  case alone => exact fun hfull => absurd hfull (hnone _ _)
  case guarded => exact fun hguard => absurd hguard List.not_mem_nil
  case nodup => exact List.nodup_nil

/-- A lock either gains a key that the store did not have, or leaves the room as it is. -/
theorem Exclusive.acquire_cases (hstore : ∀ i, (locks i).store = .memory number)
    (h : ledger.Exclusive locks number)
    (hlasts : (ledger.room.memory number).Lasts ledger.room.now) (i : ι) (key : String) :
    ((locks i).lifetime ≤ maxLifetime ∧
        (locks i).fullKey key ∉ (ledger.room.memory number).keys ∧
        (((locks i).acquire key).outcome ledger.room).1 = .ok true ∧
        (locks i).Gains number key ledger.room (((locks i).acquire key).outcome ledger.room).2) ∨
      ((maxLifetime < (locks i).lifetime ∨
          (locks i).fullKey key ∈ (ledger.room.memory number).keys) ∧
        (((locks i).acquire key).outcome ledger.room).1 ≠ .ok true ∧
        (((locks i).acquire key).outcome ledger.room).2 = ledger.room) := by
  have hlive : (locks i).store.isLive ledger.room ((locks i).fullKey key) = true ↔
      (locks i).fullKey key ∈ (ledger.room.memory number).keys := by
    rw [hstore i]
    exact hlasts.isLive_iff
  by_cases hlong : (locks i).lifetime ≤ maxLifetime
  · by_cases hstored : (locks i).fullKey key ∈ (ledger.room.memory number).keys
    · right
      rw [(locks i).outcome_acquire_of_live key ledger.room (hstore i) hlong (hlive.mpr hstored)]
      exact ⟨Or.inr hstored, nofun, rfl⟩
    · left
      have hfree := Bool.eq_false_iff.mpr fun hheld => hstored (hlive.mp hheld)
      exact ⟨hlong, hstored, (locks i).gains_acquire key ledger.room (hstore i) h.known
        (h.holders i) hlong hfree⟩
  · right
    have hendless := Nat.lt_of_not_le hlong
    rw [(locks i).outcome_acquire_of_tooLong key ledger.room (hstore i) hendless]
    exact ⟨Or.inl hendless, nofun, rfl⟩

/-- A guard is handed out only where its key was taken. -/
theorem taken?_guard_of_ne {room : Room}
    (h : (((locks i).acquire key).outcome room).1 ≠ .ok true) :
    (Move.guard i key).taken? locks room = none := by
  rw [Move.taken?, ScopedLock.outcome_guard]
  dsimp only
  split
  · rename_i hguard
    split at hguard
    · rename_i hok
      exact absurd hok h
    · cases hguard
    · cases hguard
  · rfl

section Runs

variable [DecidableEq ι]

/--
Is this a ledger behind some moves of locks that keep to their own, none of whose keys has run out
on the way?
-/
inductive Reached (locks : ι → ScopedLock) (number : Nat) (room : Room) : Ledger ι → Prop where
  | start : Reached locks number room (start room)
  | after {ledger : Ledger ι} (before : Reached locks number room ledger) (move : Move ι)
      (keeps : ledger.KeepsToOwn locks move)
      (lasts : ((ledger.after locks move).room.memory number).Lasts
        (ledger.after locks move).room.now) :
      Reached locks number room (ledger.after locks move)

/-- No key has run out on the way to a ledger. -/
theorem Reached.lasts (hempty : room.memory number = .empty)
    (h : Reached locks number room ledger) :
    (ledger.room.memory number).Lasts ledger.room.now := by
  cases h with
  | start =>
    intro entry hentry
    rw [Ledger.start, hempty] at hentry
    cases hentry
  | after _ _ _ hlasts => exact hlasts

variable (hstore : ∀ i, (locks i).store = .memory number)
  (hown : Function.Injective fun i => (locks i).holder)

include hstore hown

/-- A move of a lock that keeps to its own leaves one holder of each key. -/
theorem Exclusive.step (h : ledger.Exclusive locks number)
    (hlasts : (ledger.room.memory number).Lasts ledger.room.now) {move : Move ι}
    (hkeeps : ledger.KeepsToOwn locks move) : (ledger.after locks move).Exclusive locks number := by
  rw [Ledger.after]
  split
  case isFalse => exact h
  rename_i hallows
  cases move with
  | acquire i key =>
    obtain ⟨-, hnew, -, hgains⟩ | ⟨-, -, hsame⟩ := h.acquire_cases hstore hlasts i key
    · exact h.gain hown hgains hnew (Or.inl rfl) _
    · exact h.congr (congrArg Room.memories hsame) (congrArg Room.held hsame) rfl
  | guard i key =>
    have hroom : (Move.guard i key).run locks ledger.room =
        (((locks i).acquire key).outcome ledger.room).2 := by
      rw [Move.run, ScopedLock.outcome_guard]
    rw [hroom, guardsAfter]
    obtain ⟨-, hnew, -, hgains⟩ | ⟨-, hnot, hsame⟩ := h.acquire_cases hstore hlasts i key
    · refine h.gain hown hgains hnew ?_ _
      split
      · exact Or.inr rfl
      · exact Or.inl rfl
    · rw [taken?_guard_of_ne hnot]
      exact h.congr (congrArg Room.memories hsame) (congrArg Room.held hsame) rfl
  | drop i key =>
    have hguard : (i, key) ∈ ledger.guards := List.contains_iff_mem.mp hallows
    have hloses := (locks i).loses_release key ledger.room (hstore i) h.known (h.holders i)
    refine h.lose hown hloses ?_ List.erase_sublist ?_ _
    · simpa using h.guarded hguard
    · simpa using h.nodup.not_mem_erase
  | release i key =>
    have hloses := (locks i).loses_release key ledger.room (hstore i) h.known (h.holders i)
    refine h.lose hown hloses ?_ (List.Sublist.refl _) ?_ _
    · simpa using hkeeps.1
    · simpa using hkeeps.2
  | releaseHeld i =>
    have hloses := (locks i).loses_releaseHeld ledger.room (hstore i) h.known (h.holders i)
    exact h.lose hown hloses (fun _ hk => hk) (List.Sublist.refl _) hkeeps _
  | forceDrop i key => exact hkeeps.elim
  | clean i => exact hkeeps.elim
  | wait time => exact h.congr rfl rfl rfl

/-- At most one lock holds each key, however many moves were made. -/
theorem Reached.exclusive (hnumber : number < room.memories.length)
    (hholders : ∀ i, (locks i).holder < room.held.length) (hempty : room.memory number = .empty)
    (hfresh : ∀ i, room.heldBy (locks i).holder = []) (h : Reached locks number room ledger) :
    ledger.Exclusive locks number := by
  induction h with
  | start => exact exclusive_start hnumber hholders hempty hfresh
  | after hbefore move hkeeps _ ih => exact ih.step hstore hown (hbefore.lasts hempty) hkeeps

end Runs

/-! ## Two locks whose namespaces nest -/

/-- Two locks over one memory; the namespace of the second one is part of that of the first. -/
def nested (second : Bool) : ScopedLock :=
  ⟨.memory 0, if second then "eu:west" else "eu", defaultLifetime, second.toNat⟩

/-- The first lock takes a key whose text with its namespace the second one could have as well. -/
def sameText : List (Move Bool) :=
  [.guard false "west:users", .acquire true "orders", .acquire true "users", .release true "orders"]

end Ledger

end Locks

end SqlFederation
