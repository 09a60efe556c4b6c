import SqlFederation.Locks.Scoped
import SqlFederation.Text.Quoted

/-!
# Locks for the eye

A lock is described by its namespace and lifetime, a guard by its lock and key.
-/

namespace SqlFederation

namespace Locks

/-- A lifetime for the eye; no time at all is counted in the smallest unit. -/
def lifetimeText (seconds : Nat) : String :=
  if seconds = 0 then "0ns" else toString seconds ++ "s"

namespace ScopedLock

/-- A lock for the eye. -/
def description (lock : ScopedLock) : String :=
  "ScopedLock \x7b namespace: " ++ Text.quoted lock.scope ++ ", ttl: " ++
    lifetimeText lock.lifetime ++ " \x7d"

end ScopedLock

namespace Guard

/-- A guard for the eye. -/
def description (guard : Guard) : String :=
  "LockGuard \x7b lock: " ++ guard.lock.description ++ ", key: " ++ Text.quoted guard.key ++ " \x7d"

end Guard

end Locks

end SqlFederation
