import SqlFederation.Call
import SqlFederation.Files.Basic
import SqlFederation.Text.Case

/-!
# Lock stores

A store keeps keys for a while. `add` takes a key unless somebody has it; a key that has run out is
free. A memory store is a table of keys with their ends. A lock directory has one file for each key,
whose name is the key in base64; a file is also free when its process is gone, and one that says
nothing readable when it is older than the wanted lifetime. Such a file is moved away before the key
is taken, so that only one of those who want the key gets it.
-/

namespace SqlFederation

namespace Locks

/-- The largest lifetime in seconds. -/
def maxLifetime : Nat := 9223372036854775

/-- The nanoseconds of a lifetime in seconds. -/
def nanoseconds (seconds : Nat) : Nat := 1000000000 * seconds

/-- The longest time in nanoseconds for which a key can be taken. -/
def maxSpan : Nat := 9223372036854775807000000

/-- The longest lifetime in seconds is also the longest one in nanoseconds. -/
theorem maxSpan_lt_nanoseconds {seconds : Nat} :
    maxSpan < nanoseconds seconds ↔ maxLifetime < seconds := by
  unfold maxSpan nanoseconds maxLifetime
  omega

theorem nanoseconds_le_maxSpan {seconds : Nat} (h : seconds ≤ maxLifetime) :
    nanoseconds seconds ≤ maxSpan :=
  Nat.le_of_not_lt fun hlong => Nat.not_lt.mpr h (maxSpan_lt_nanoseconds.mp hlong)

/-- The end of a time of some nanoseconds that starts now. -/
def expiry (now : Time) (span : Nat) : Except Error Time :=
  if maxSpan < span then .error .lifetimeTooLong else .ok (now + span)

/-- Does a key start with a text? -/
def hasLead (lead key : String) : Bool :=
  Text.startsWith key.toList lead.toList

/-- The keys of a memory store with the ends of their locks. -/
structure MemoryStore where
  entries : List (String × Time)
  deriving DecidableEq

namespace MemoryStore

/-- No key is taken. -/
def empty : MemoryStore := ⟨[]⟩

/-- When the lock of a key ends. -/
def expiry? (store : MemoryStore) (key : String) : Option Time :=
  store.entries.lookup key

/-- Is the key taken now? -/
def isLive (store : MemoryStore) (now : Time) (key : String) : Bool :=
  (store.expiry? key).any fun ends => decide (now < ends)

/-- Removes a key. -/
def delete (store : MemoryStore) (key : String) : MemoryStore :=
  ⟨store.entries.filter fun (k, _) => k != key⟩

/-- Gives a key an end. -/
def put (store : MemoryStore) (key : String) (ends : Time) : MemoryStore :=
  ⟨(store.delete key).entries ++ [(key, ends)]⟩

/-- Takes a key for some nanoseconds, unless it is taken. -/
def add (store : MemoryStore) (now : Time) (key : String) (span : Nat) :
    Except Error Bool × MemoryStore :=
  match expiry now span with
  | .error e => (.error e, store)
  | .ok ends => if store.isLive now key then (.ok false, store) else (.ok true, store.put key ends)

/-- Removes every key that starts with a text, and counts them. -/
def deleteLead (store : MemoryStore) (lead : String) : Nat × MemoryStore :=
  ((store.entries.filter fun (k, _) => hasLead lead k).length,
    ⟨store.entries.filter fun (k, _) => !hasLead lead k⟩)

end MemoryStore

/--
What locks depend on: the time, the processes that run, files, and the memory of this process.
-/
structure Room where
  now : Time
  /-- The number of this process. -/
  process : Nat
  /-- Other processes that run. -/
  others : List Nat
  files : Files
  memories : List MemoryStore
  /-- The keys that were taken through each lock. -/
  held : List (List String)

namespace Room

/-- The memory store with a number. -/
def memory (room : Room) (number : Nat) : MemoryStore :=
  room.memories.getD number .empty

/-- Does a process run? -/
def isRunning (room : Room) (process : Nat) : Bool :=
  process == room.process || room.others.contains process

/-- Is the lock of an entry free to be taken? -/
def isStale (room : Room) (entry : Entry) : Bool :=
  entry.isExpired room.now || !room.isRunning entry.process

/-- Is a lock file free to be taken by somebody who wants it for some nanoseconds? -/
def isReclaimable (room : Room) (span : Nat) (file : File) : Bool :=
  match file.entry? with
  | some entry => room.isStale entry
  | none => decide ((span : Time) ≤ room.now - file.modified)

end Room

namespace Directory

/-- The name of a key's file without its ending. -/
def stem (key : String) : String :=
  Base64.encodeUrl (Base64.bytesOf key)

/-- The path of a key's file. -/
def pathOf (directory key : String) : String :=
  Path.joinText directory (stem key ++ ".lock")

/-- The name of a key's file while it is moved away; nobody else draws the same id for it. -/
def tombstoneName (key : String) : String :=
  (if key.isEmpty then ".lock" else stem key) ++ ".lock.00000000000040008000000000000000.stale"

/-- The path of a key's file while it is moved away. -/
def tombstoneOf (directory key : String) : String :=
  Path.joinText directory (tombstoneName key)

/-- Every readable entry of a directory; where there is nothing there are none. -/
def entries (directory : String) (files : Files) : Except Error (List Entry) :=
  match files.find directory with
  | .directory path =>
    .ok ((files.inDirectory path).filterMap fun (p, file) =>
      if Path.extension? p.name = some "lock" then file.entry? else none)
  | .file .. => .error .fileSystem
  | _ => .ok []

/-- The entry that this process writes for a key. -/
def ownEntry (room : Room) (key : String) (ends : Time) : Entry :=
  ⟨key, room.process, "00000000-0000-4000-8000-000000000000", room.now, ends⟩

/-- Writes the file of a key until its end, unless something is in its place. -/
def tryCreate (directory key : String) (ends : Time) : Call Room Bool :=
  Call.of fun room =>
    match room.files.find (pathOf directory key) with
    | .free path _ =>
      let file : File := ⟨.lock (ownEntry room key ends), room.now⟩
      (.ok true, { room with files := room.files.set path file })
    | .file .. | .directory _ => (.ok false, room)
    | .missing | .barred => (.error .fileSystem, room)

/--
Is what a text points to free to be taken by somebody who wants it for some nanoseconds? A directory
says nothing readable, and it was made just now.
-/
def isReclaimable (text : String) (span : Nat) (room : Room) : Bool :=
  match room.files.find text with
  | .file _ file => room.isReclaimable span file
  | .directory _ => span == 0
  | .free .. | .missing | .barred => false

/--
Moves the file of a key away, if it is there. A directory in its place is moved too, but it cannot
be removed then.
-/
def moveAway (directory key : String) : Call Room Bool :=
  Call.of fun room =>
    match room.files.find (pathOf directory key), room.files.find (tombstoneOf directory key) with
    | .file path file, .free grave _ =>
      (.ok true, { room with files := (room.files.remove path).set grave file })
    | .directory path, .free .. =>
      (.error .fileSystem, { room with files := room.files.removeTree path })
    | .free .., _ | .missing, _ => (.ok false, room)
    | _, _ => (.error .fileSystem, room)

/-- Removes the file of a key that was moved away. -/
def discard (directory key : String) : Call Room Unit :=
  Call.of fun room =>
    match room.files.find (tombstoneOf directory key) with
    | .file grave _ => (.ok (), { room with files := room.files.remove grave })
    | _ => (.error .fileSystem, room)

/-- Gives a file that was moved away its name back, unless something has the name by now. -/
def putBack (directory key : String) : Call Room Unit :=
  Call.of fun room =>
    match room.files.find (tombstoneOf directory key) with
    | .file grave file =>
      let left := room.files.remove grave
      match room.files.find (pathOf directory key) with
      | .free path _ => (.ok (), { room with files := left.set path file })
      | .file .. | .directory _ => (.ok (), { room with files := left })
      | .missing | .barred => (.error .fileSystem, { room with files := left })
    | _ => (.error .fileSystem, room)

/--
Moves the file of a key out of the way and says whether the key can be taken now. The file that was
moved is looked at again: it may be that of somebody who took the key in the meantime, and then it
goes back.
-/
def reclaim (directory key : String) (span : Nat) : Call Room Bool := do
  if ← moveAway directory key then
    if ← Call.reading (isReclaimable (tombstoneOf directory key) span) then
      discard directory key
      return true
    else
      putBack directory key
      return false
  else
    return false

/-- Takes a key until its end, unless a file says that it is taken. -/
def take (directory key : String) (span : Nat) (ends : Time) : Call Room Bool := do
  if ← tryCreate directory key ends then
    return true
  else
    if ← Call.reading (isReclaimable (pathOf directory key) span) then
      if ← reclaim directory key span then
        tryCreate directory key ends
      else
        return false
    else
      return false

/-- Makes the directory with those on the way. -/
def make (directory : String) : Call Room Unit :=
  Call.of fun room =>
    let (files, isMade) := room.files.makeDirectories directory
    (if isMade then .ok () else .error .fileSystem, { room with files := files })

/-- Takes a key for some nanoseconds; the directory is made if it is missing. -/
def add (directory key : String) (span : Nat) : Call Room Bool := do
  make directory
  let ends ← Call.of fun room => (expiry room.now span, room)
  take directory key span ends

/-- Removes the file of a key, if it is there. -/
def delete (directory key : String) : Call Room Unit :=
  Call.of fun room =>
    match room.files.find (pathOf directory key) with
    | .file path _ => (.ok (), { room with files := room.files.remove path })
    | .free .. | .missing => (.ok (), room)
    | .directory _ | .barred => (.error .fileSystem, room)

/-- Removes the files of some keys and counts them. -/
def deleteAll (directory : String) : List String → Nat → Call Room Nat
  | [], count => pure count
  | key :: rest, count => do
    delete directory key
    deleteAll directory rest (count + 1)

/-- Removes the file of every key that starts with a text and that some file says. -/
def deleteLead (directory lead : String) : Call Room Nat := do
  let entries ← Call.of fun room => (entries directory room.files, room)
  deleteAll directory ((entries.map Entry.key).filter (hasLead lead)) 0

end Directory

/-- Where locks are kept. -/
inductive Store where
  | memory (number : Nat)
  | directory (path : String)
  deriving DecidableEq

namespace Store

/-- Changes a memory store. -/
def inMemory {α : Type} (number : Nat) (f : Time → MemoryStore → Except Error α × MemoryStore) :
    Call Room α :=
  Call.of fun room =>
    let (result, store) := f room.now (room.memory number)
    (result, { room with memories := room.memories.set number store })

/-- Takes a key for some nanoseconds, unless it is taken. -/
def addFor (store : Store) (key : String) (span : Nat) : Call Room Bool :=
  match store with
  | .memory number => inMemory number fun now s => s.add now key span
  | .directory path => Directory.add path key span

/-- Takes a key for some seconds, unless it is taken. -/
def add (store : Store) (key : String) (seconds : Nat) : Call Room Bool :=
  store.addFor key (nanoseconds seconds)

/-- Frees a key, whoever has it. -/
def delete (store : Store) (key : String) : Call Room Unit :=
  match store with
  | .memory number => inMemory number fun _ s => (.ok (), s.delete key)
  | .directory path => Directory.delete path key

/-- Frees every key that starts with a text, and counts them. -/
def deleteLead (store : Store) (lead : String) : Call Room Nat :=
  match store with
  | .memory number =>
    inMemory number fun _ s =>
      let (count, rest) := s.deleteLead lead
      (.ok count, rest)
  | .directory path => Directory.deleteLead path lead

end Store

namespace Room

/-- Makes a memory store. -/
def newMemory (room : Room) : Store × Room :=
  (.memory room.memories.length, { room with memories := room.memories ++ [.empty] })

end Room

end Locks

end SqlFederation
