import Mathlib
import SqlFederation.Proofs.LockRefinement

/-!
# Files whose names are too long

A lock directory that mirrors a memory store refuses what it is asked where the file system cannot
have the name of a file that it would need, and stays as it is
(`Operation.endsIn_ask_of_not_namesFit`). Everywhere else it does what the memory store does. So
there is one answer to each operation on each lock store (`Operation.onKeys`), whatever the keys are
that the store has (`Store.Holds.exists_outcome_ask`).
-/

namespace SqlFederation

/-- A name that is too long, or whose path is, points nowhere. -/
theorem Files.Flat.find_of_not_fitsIn {fs : Files} {directory name : String} {path : Path}
    (h : fs.Flat directory path) (hname : IsPlain name) (hnot : ¬FitsIn directory name) :
    fs.find (Path.joinText directory name) = .barred := by
  by_cases hpath : (Path.joinText directory name).utf8ByteSize < 4096
  · have hlong : fits name = false := decide_eq_false fun hshort => hnot ⟨hshort, hpath⟩
    rw [h.find_joinText hname hpath, walk, if_neg hname.not_dots, hlong]
    rfl
  · have hempty : ¬(Path.joinText directory name).isEmpty = true := by
      intro hempty
      rw [String.isEmpty_iff.mp hempty] at hpath
      exact hpath (by decide)
    have hlong : decide (4096 ≤ (Path.joinText directory name).utf8ByteSize) = true :=
      decide_eq_true (Nat.le_of_not_lt hpath)
    rw [find, if_neg hempty, hlong, Bool.or_true, if_pos rfl]

namespace Locks

/-- To take a key for as long as there is time has an answer. -/
theorem MemoryStore.exists_add_eq_ok (store : MemoryStore) (now : Time) (key : String) {span : Nat}
    (hspan : ¬maxSpan < span) : ∃ taken, (store.add now key span).1 = .ok taken := by
  cases hlive : store.isLive now key with
  | true => exact ⟨false, congrArg Prod.fst (store.add_of_live now key (Nat.not_lt.mp hspan) hlive)⟩
  | false => exact ⟨true, congrArg Prod.fst (store.add_of_free now key (Nat.not_lt.mp hspan) hlive)⟩

namespace Directory

variable {directory key : String} {path : Path} {room : Room} {store : MemoryStore} {ends : Time}

/-- Calls one after the other end as the first one that fails. -/
theorem EndsIn.bind_of_error {α β : Type} {call : Call Room α} {e : Error}
    (h : EndsIn directory path call room (.error e) store) (f : α → Call Room β) :
    EndsIn directory path (call >>= f) room (.error e) store := by
  obtain ⟨files, houtcome, hmirrors⟩ := h
  exact ⟨files, Call.outcome_bind_of_error houtcome, hmirrors⟩

namespace Mirrors

variable (h : Mirrors room.process room.files directory path store)
include h

/-- A directory that is there needs not be made. -/
theorem outcome_make : (make directory).outcome room = (.ok (), room) := by
  rw [make, Call.outcome_of, Files.makeDirectories_of_find h.flat.place]
  rfl

/-- Nobody can take a key for longer than there is time. -/
theorem endsIn_add_of_tooLong {span : Nat} (hspan : maxSpan < span) :
    EndsIn directory path (add directory key span) room (.error .lifetimeTooLong) store := by
  refine ⟨room.files, ?_, h⟩
  rw [add, Call.outcome_bind_of_ok h.outcome_make]
  refine Call.outcome_bind_of_error ?_
  rw [Call.outcome_of, expiry, if_pos hspan]

/-- Where the directory is there, its key is what is left to take. -/
theorem endsIn_add_of_take {span : Nat} (hspan : ¬maxSpan < span) {result : Except Error Bool}
    (htake : EndsIn directory path (take directory key span (room.now + span)) room result store) :
    EndsIn directory path (add directory key span) room result store := by
  have hends : (Call.of fun room : Room => (expiry room.now span, room)).outcome room =
      (.ok (room.now + span), room) := by
    rw [Call.outcome_of, expiry, if_neg hspan]
  rw [EndsIn, add, Call.outcome_bind_of_ok h.outcome_make, Call.outcome_bind_of_ok hends]
  exact htake

section FileName

variable (hnot : ¬Files.FitsIn directory (fileName key))
include hnot

theorem find_pathOf_of_not_fitsIn : room.files.find (pathOf directory key) = .barred :=
  h.flat.find_of_not_fitsIn (isPlain_fileName key) hnot

theorem endsIn_delete_of_not_fitsIn :
    EndsIn directory path (Directory.delete directory key) room (.error .fileSystem) store := by
  refine ⟨room.files, ?_, h⟩
  rw [Directory.delete, Call.outcome_of, h.find_pathOf_of_not_fitsIn hnot]

theorem endsIn_take_of_not_fitsIn (span : Nat) (newEnds : Time) :
    EndsIn directory path (take directory key span newEnds) room (.error .fileSystem) store := by
  have hcreate : EndsIn directory path (tryCreate directory key newEnds) room
      (.error .fileSystem) store := by
    refine ⟨room.files, ?_, h⟩
    rw [tryCreate, Call.outcome_of, h.find_pathOf_of_not_fitsIn hnot]
  exact hcreate.bind_of_error _

end FileName

/-- A file that has run out stays where it is if it cannot be moved away. -/
theorem endsIn_take_of_tombstone (hfits : Files.FitsIn directory (fileName key))
    (hnot : ¬Files.FitsIn directory (tombstoneName key)) (hkey : store.expiry? key = some ends)
    (hover : ends ≤ room.now) (span : Nat) (newEnds : Time) :
    EndsIn directory path (take directory key span newEnds) room (.error .fileSystem) store := by
  refine (h.endsIn_tryCreate_of_some hfits hkey newEnds).bind fun between hnow hbetween => ?_
  have hread := hbetween.endsIn_isReclaimable hfits hkey span
  rw [hnow, decide_eq_true hover] at hread
  rw [if_neg Bool.false_ne_true]
  refine hread.bind fun later _ hlater => ?_
  obtain ⟨file, hfile, -⟩ := hlater.exists_file_of_some hkey
  have hmove : EndsIn directory path (moveAway directory key) later (.error .fileSystem) store := by
    refine ⟨later.files, ?_, hlater⟩
    have hgrave : later.files.find (tombstoneOf directory key) = .barred :=
      hlater.flat.find_of_not_fitsIn (isPlain_tombstoneName key) hnot
    rw [moveAway, Call.outcome_of, hlater.find_pathOf_of_some hfits hfile, hgrave]
  rw [if_pos rfl]
  exact (hmove.bind_of_error _).bind_of_error _

end Mirrors

end Directory

/-! ## What a store answers -/

namespace Operation

instance (directory : String) (now : Time) (store : MemoryStore) :
    (operation : Operation) → Decidable (operation.NamesFit directory now store)
  | add key _ =>
    inferInstanceAs (Decidable (Files.FitsIn directory (Directory.fileName key) ∧
      ∀ ends ∈ store.expiry? key, ends ≤ now →
        Files.FitsIn directory (Directory.tombstoneName key)))
  | delete key => inferInstanceAs (Decidable (Files.FitsIn directory (Directory.fileName key)))
  | deleteLead _ => isTrue trivial

/-- The answer where a file would need a name that is too long. -/
def refused (now : Time) (keys : MemoryStore) (operation : Operation) : Except Error Answer :=
  match (operation.onMemory now keys).1 with
  | .error e => .error e
  | .ok _ => .error .fileSystem

/-- The answer of a lock store with some keys, and its keys afterwards. -/
def onKeys (store : Store) (now : Time) (keys : MemoryStore) (operation : Operation) :
    Except Error Answer × MemoryStore :=
  match store with
  | .memory _ => operation.onMemory now keys
  | .directory directory =>
    if operation.NamesFit directory now keys then operation.onMemory now keys
    else (operation.refused now keys, keys)

open Directory in
/-- A directory refuses what it cannot name the files of, and stays as it is. -/
theorem endsIn_ask_of_not_namesFit {directory : String} {path : Path} {room : Room}
    {keys : MemoryStore} (h : Mirrors room.process room.files directory path keys)
    {operation : Operation} (hnot : ¬operation.NamesFit directory room.now keys) :
    EndsIn directory path (operation.ask (.directory directory)) room
      (operation.refused room.now keys) keys := by
  cases operation with
  | add key span =>
    by_cases hspan : maxSpan < span
    · have hrefused : (add key span).refused room.now keys = .error .lifetimeTooLong := by
        rw [refused, onMemory, keys.add_of_tooLong room.now key hspan]
        rfl
      rw [hrefused]
      exact (h.endsIn_add_of_tooLong hspan).map Answer.taken
    · have hrefused : (add key span).refused room.now keys = .error .fileSystem := by
        obtain ⟨taken, htaken⟩ := keys.exists_add_eq_ok room.now key hspan
        rw [refused, onMemory, htaken]
        rfl
      rw [hrefused]
      have htake : EndsIn directory path (take directory key span (room.now + span)) room
          (.error .fileSystem) keys := by
        by_cases hfits : Files.FitsIn directory (fileName key)
        · -- Then the key is stored, its lock is over, and the tombstone is what cannot be named.
          obtain ⟨ends, hends⟩ := not_forall.mp fun hall => hnot ⟨hfits, hall⟩
          obtain ⟨hkey, hends⟩ := Classical.not_imp.mp hends
          obtain ⟨hover, htomb⟩ := Classical.not_imp.mp hends
          exact h.endsIn_take_of_tombstone hfits htomb hkey hover span _
        · exact h.endsIn_take_of_not_fitsIn hfits span _
      exact (h.endsIn_add_of_take hspan htake).map Answer.taken
  | delete key => exact (h.endsIn_delete_of_not_fitsIn hnot).map fun _ => Answer.done
  | deleteLead lead => exact absurd trivial hnot

end Operation

/-- Has a lock store these keys? -/
def Store.Holds (store : Store) (room : Room) (keys : MemoryStore) : Prop :=
  match store with
  | .memory number => number < room.memories.length ∧ room.memory number = keys
  | .directory text => ∃ path, Directory.Mirrors room.process room.files text path keys

/--
A lock store that has some keys answers accordingly, has the keys that it should have afterwards,
and leaves the time and what locks remember.
-/
theorem Store.Holds.exists_outcome_ask {store : Store} {room : Room} {keys : MemoryStore}
    (h : store.Holds room keys) {operation : Operation} (hspared : operation.SparesEmptyKey keys) :
    ∃ after, (operation.ask store).outcome room =
        ((operation.onKeys store room.now keys).1, after) ∧
      store.Holds after (operation.onKeys store room.now keys).2 ∧
      after.now = room.now ∧ after.held = room.held := by
  cases store with
  | memory number =>
    obtain ⟨hnumber, rfl⟩ := h
    refine ⟨_, operation.outcome_ask_memory number room, ⟨?_, ?_⟩, rfl, rfl⟩
    · rw [List.length_set]
      exact hnumber
    · exact room.memory_set_of_lt hnumber _
  | directory directory =>
    obtain ⟨path, hmirrors⟩ := h
    rw [Operation.onKeys]
    by_cases hfit : operation.NamesFit directory room.now keys
    · rw [if_pos hfit]
      obtain ⟨files, houtcome, hafter⟩ := Operation.endsIn_ask room hmirrors hfit hspared
      exact ⟨_, houtcome, ⟨path, hafter⟩, rfl, rfl⟩
    · rw [if_neg hfit]
      obtain ⟨files, houtcome, hafter⟩ := Operation.endsIn_ask_of_not_namesFit hmirrors hfit
      exact ⟨_, houtcome, ⟨path, hafter⟩, rfl, rfl⟩

end Locks

end SqlFederation
