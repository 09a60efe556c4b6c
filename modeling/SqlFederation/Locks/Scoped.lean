import SqlFederation.Locks.Store

/-!
# Scoped locks

A scoped lock takes keys within a namespace of a store, for a fixed lifetime, and remembers which
keys were taken through it. Copies of a lock share that memory; a lock scoped to another namespace
has its own. A guard is a key that was taken and has to be given back.
-/

namespace SqlFederation

namespace Locks

/-- A lock over the keys of one namespace. -/
structure ScopedLock where
  store : Store
  scope : String
  /-- The lifetime of a taken key, in seconds. -/
  lifetime : Nat
  /-- The number of the memory of taken keys. -/
  holder : Nat
  deriving DecidableEq

/-- The usual lifetime in seconds: twice the longest operation that is expected. -/
def defaultLifetime : Nat := 600

namespace Room

/-- A lock with a memory of its own. -/
def newLock (room : Room) (store : Store) (scope : String) (lifetime : Nat) : ScopedLock × Room :=
  (⟨store, scope, lifetime, room.held.length⟩, { room with held := room.held ++ [[]] })

/-- The keys that were taken through a lock. -/
def heldBy (room : Room) (holder : Nat) : List String :=
  room.held.getD holder []

/-- Replaces the keys that were taken through a lock. -/
def setHeld (room : Room) (holder : Nat) (keys : List String) : Room :=
  { room with held := room.held.set holder keys }

end Room

/-- The key under which a store knows a key of a namespace. -/
def keyIn (scope key : String) : String :=
  if scope.isEmpty then key else scope ++ ":" ++ key

/-- The namespace of a part of a namespace. -/
def partOf (scope name : String) : String :=
  scope ++ ":" ++ name

namespace ScopedLock

/-- The key under which the store knows a key of the namespace. -/
def fullKey (lock : ScopedLock) (key : String) : String :=
  keyIn lock.scope key

/-- Remembers a key. -/
def remember (lock : ScopedLock) (key : String) : Call Room Unit :=
  Call.changing fun room =>
    let keys := room.heldBy lock.holder
    if keys.contains key then room else room.setHeld lock.holder (keys ++ [key])

/-- Forgets a key. -/
def forget (lock : ScopedLock) (key : String) : Call Room Unit :=
  Call.changing fun room =>
    room.setHeld lock.holder ((room.heldBy lock.holder).filter fun k => k != key)

/-- Takes a key, unless somebody has it. -/
def acquire (lock : ScopedLock) (key : String) : Call Room Bool := do
  let taken ← lock.store.add (lock.fullKey key) lock.lifetime
  if taken then
    lock.remember key
  return taken

/-- Gives a key back. -/
def release (lock : ScopedLock) (key : String) : Call Room Unit := do
  lock.forget key
  lock.store.delete (lock.fullKey key)

/-- Frees a key, whoever has it. -/
def forceDrop (lock : ScopedLock) (key : String) : Call Room Unit := do
  lock.forget key
  lock.store.delete (lock.fullKey key)

/-- The keys that were taken through this lock, sorted. -/
def heldKeys (lock : ScopedLock) (room : Room) : List String :=
  (room.heldBy lock.holder).mergeSort fun a b => decide (a ≤ b)

/-- Frees keys of the namespace in turn. -/
def deleteKeys (lock : ScopedLock) : List String → Call Room Unit
  | [] => pure ()
  | key :: rest => do
    lock.store.delete (lock.fullKey key)
    deleteKeys lock rest

/-- Gives back the keys that were taken through this lock, and counts them. -/
def releaseHeld (lock : ScopedLock) : Call Room Nat := do
  let keys ← Call.reading fun room => room.heldBy lock.holder
  Call.changing fun room => room.setHeld lock.holder []
  lock.deleteKeys keys
  return keys.length

/--
Frees every key of the namespace, and counts them; without a namespace that would be all keys.
-/
def clean (lock : ScopedLock) : Call Room Nat := do
  if lock.scope.isEmpty then
    Call.fail (.config .namespaceNotSet)
  else
    let removed ← lock.store.deleteLead (lock.scope ++ ":")
    Call.changing fun room => room.setHeld lock.holder []
    return removed

end ScopedLock

/-- A key that was taken and has to be given back. -/
structure Guard where
  lock : ScopedLock
  key : String
  deriving DecidableEq

namespace ScopedLock

/-- Takes a key and hands it out to be given back later. -/
def guard (lock : ScopedLock) (key : String) : Call Room (Option Guard) := do
  if ← lock.acquire key then return some ⟨lock, key⟩ else return none

end ScopedLock

namespace Guard

/-- Gives the key back; a failure to do so is passed over. -/
def drop (guard : Guard) : Call Room Unit :=
  Call.of fun room =>
    let (_, room) := (guard.lock.release guard.key).outcome room
    (.ok (), room)

end Guard

end Locks

end SqlFederation
