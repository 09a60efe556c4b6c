import Mathlib
import SqlFederation.Proofs.LockCalls

/-!
# A lock directory does what a memory store does

A lock directory and a memory store are asked the same, one request after the other, each at its
time. They agree if the directory mirrors the store (`Request.Agree`), and one request that both
answer alike keeps that (`Request.Agree.step`). There is one that they answer differently: to remove
everything while the empty key is stored, whose file is named `.lock` and so is not shown as that of
a lock (`Request.Agree.answer_ne`). By induction on the requests, the answers are the same exactly
if that does not happen (`Request.directory_refines_memory`).
-/

namespace SqlFederation

namespace Locks

/-- What a lock store is asked to do. -/
inductive Operation where
  | add (key : String) (span : Nat)
  | delete (key : String)
  | deleteLead (lead : String)
  deriving DecidableEq

/-- What a lock store answers. -/
inductive Answer where
  | taken (isTaken : Bool)
  | done
  | count (number : Nat)
  deriving DecidableEq

namespace Operation

/--
Are the names of the files that an operation is about short enough? The file of a key is moved away
only where the key is stored and its lock is over.
-/
def NamesFit (directory : String) (now : Time) (store : MemoryStore) : Operation → Prop
  | add key _ =>
    Files.FitsIn directory (Directory.fileName key) ∧
      ∀ ends, store.expiry? key = some ends → ends ≤ now →
        Files.FitsIn directory (Directory.tombstoneName key)
  | delete key => Files.FitsIn directory (Directory.fileName key)
  | deleteLead _ => True

/-- Asks a lock store. -/
def ask (store : Store) : Operation → Call Room Answer
  | add key span => Answer.taken <$> store.addFor key span
  | delete key => (fun _ => Answer.done) <$> store.delete key
  | deleteLead lead => Answer.count <$> store.deleteLead lead

/-- The answer of a memory store, and the store afterwards. -/
def onMemory (now : Time) (store : MemoryStore) : Operation → Except Error Answer × MemoryStore
  | add key span => ((store.add now key span).1.map Answer.taken, (store.add now key span).2)
  | delete key => (.ok .done, store.delete key)
  | deleteLead lead => (.ok (.count (store.deleteLead lead).1), (store.deleteLead lead).2)

/-- Is the empty key not stored when everything is removed? -/
def SparesEmptyKey (store : MemoryStore) (operation : Operation) : Prop :=
  operation = deleteLead "" → store.expiry? "" = none

instance (store : MemoryStore) (operation : Operation) :
    Decidable (operation.SparesEmptyKey store) :=
  inferInstanceAs (Decidable (_ → _))

theorem outcome_ask_memory (operation : Operation) (number : Nat) (room : Room) :
    (operation.ask (.memory number)).outcome room =
      ((operation.onMemory room.now (room.memory number)).1, { room with
        memories := room.memories.set number
          (operation.onMemory room.now (room.memory number)).2 }) := by
  cases operation with
  | add key span => rw [ask, Call.outcome_map, Store.addFor, Store.outcome_inMemory, onMemory]
  | delete key => rfl
  | deleteLead lead => rfl

variable {directory : String} {path : Path} (room : Room) {store : MemoryStore}
  {operation : Operation}

open Directory in
/-- A directory answers as the store that it mirrors, and mirrors it afterwards. -/
theorem endsIn_ask (h : Mirrors room.process room.files directory path store)
    (hfit : operation.NamesFit directory room.now store)
    (hspared : operation.SparesEmptyKey store) :
    EndsIn directory path (operation.ask (.directory directory)) room
      (operation.onMemory room.now store).1 (operation.onMemory room.now store).2 := by
  cases operation with
  | add key span => exact (h.endsIn_add hfit.1 hfit.2 span).map Answer.taken
  | delete key => exact (h.endsIn_delete hfit).map fun _ => Answer.done
  | deleteLead lead =>
    have hlead : lead = "" → store.expiry? "" = none := fun hlead => hspared (hlead ▸ rfl)
    rw [onMemory, MemoryStore.deleteLead_of_spared hlead]
    exact (h.endsIn_deleteLead lead).map Answer.count

/-- Where the empty key is not spared, the directory answers otherwise. -/
theorem answer_ne_of_not_spares
    (h : Directory.Mirrors room.process room.files directory path store)
    (hnot : ¬operation.SparesEmptyKey store) :
    ((operation.ask (.directory directory)).outcome room).1 ≠
      (operation.onMemory room.now store).1 := by
  obtain ⟨rfl, hstored⟩ := Classical.not_imp.mp hnot
  have hless := MemoryStore.lt_deleteLead (Option.isSome_iff_ne_none.mpr hstored)
  obtain ⟨files, houtcome, -⟩ := (h.endsIn_deleteLead "").map Answer.count
  intro hsame
  have hcount := (congrArg Prod.fst houtcome).symm.trans hsame
  exact absurd (Answer.count.inj (Except.ok.inj hcount)) (Nat.ne_of_lt hless)

end Operation

/-- What a lock store is asked to do at a time. -/
structure Request where
  time : Time
  operation : Operation

namespace Request

/-- The answer of a store to a request, and the room afterwards. -/
def outcome (store : Store) (room : Room) (request : Request) : Except Error Answer × Room :=
  (request.operation.ask store).outcome { room with now := request.time }

/-- The answers of a store to one request after the other, and the room in the end. -/
def run (store : Store) : List Request → Room → List (Except Error Answer) × Room
  | [], room => ([], room)
  | request :: rest, room =>
    let (answer, room) := request.outcome store room
    let (answers, room) := run store rest room
    (answer :: answers, room)

theorem run_cons (store : Store) (request : Request) (rest : List Request) (room : Room) :
    run store (request :: rest) room =
      ((request.outcome store room).1 :: (run store rest (request.outcome store room).2).1,
        (run store rest (request.outcome store room).2).2) :=
  rfl

/-- Is the empty key never stored in a memory when everything is to be removed from it? -/
def SparesEmptyKey (number : Nat) : List Request → Room → Prop
  | [], _ => True
  | request :: rest, room =>
    request.operation.SparesEmptyKey (room.memory number) ∧
      SparesEmptyKey number rest (request.outcome (.memory number) room).2

instance decidableSparesEmptyKey (number : Nat) :
    (requests : List Request) → (room : Room) → Decidable (SparesEmptyKey number requests room)
  | [], _ => isTrue trivial
  | request :: rest, room =>
    have := decidableSparesEmptyKey number rest (request.outcome (.memory number) room).2
    inferInstanceAs (Decidable (_ ∧ _))

/-- Are the names of all files short enough that requests are about? -/
def NamesFit (directory : String) (number : Nat) : List Request → Room → Prop
  | [], _ => True
  | request :: rest, room =>
    request.operation.NamesFit directory request.time (room.memory number) ∧
      NamesFit directory number rest (request.outcome (.memory number) room).2

theorem NamesFit.of_append {directory : String} {number : Nat} {front back : List Request}
    {room : Room} (h : NamesFit directory number (front ++ back) room) :
    NamesFit directory number front room := by
  induction front generalizing room with
  | nil => trivial
  | cons request rest ih => exact ⟨h.1, ih h.2⟩

/-- Does a lock directory of one room mirror a memory store of another one? -/
structure Agree (process : Nat) (directory : String) (path : Path) (number : Nat)
    (onDisk inMemory : Room) : Prop where
  process_eq : onDisk.process = process
  mirrors : Directory.Mirrors process onDisk.files directory path (inMemory.memory number)
  /-- There is a memory with the number. -/
  known : number < inMemory.memories.length

variable {process number : Nat} {directory : String} {path : Path} {onDisk inMemory : Room}
  {request : Request} {requests : List Request}

/-- The store answers a request as it does at the time of the request, and keeps its number. -/
theorem outcome_memory (request : Request) (hknown : number < inMemory.memories.length) :
    (request.outcome (.memory number) inMemory).1 =
        (request.operation.onMemory request.time (inMemory.memory number)).1 ∧
      (request.outcome (.memory number) inMemory).2.memory number =
        (request.operation.onMemory request.time (inMemory.memory number)).2 ∧
      number < (request.outcome (.memory number) inMemory).2.memories.length := by
  rw [outcome, Operation.outcome_ask_memory]
  refine ⟨rfl, ?_, ?_⟩
  · exact Room.memory_set_of_lt { inMemory with now := request.time } hknown _
  · rw [List.length_set]
    exact hknown

/-- One request is answered alike, and the directory mirrors the store afterwards. -/
theorem Agree.step (h : Agree process directory path number onDisk inMemory)
    (hfit : request.operation.NamesFit directory request.time (inMemory.memory number))
    (hspared : request.operation.SparesEmptyKey (inMemory.memory number)) :
    (request.outcome (.directory directory) onDisk).1 =
        (request.outcome (.memory number) inMemory).1 ∧
      Agree process directory path number (request.outcome (.directory directory) onDisk).2
        (request.outcome (.memory number) inMemory).2 := by
  obtain ⟨hanswer, hstore, hknown⟩ := outcome_memory request h.known
  obtain rfl := h.process_eq
  obtain ⟨files, houtcome, hmirrors⟩ :=
    Operation.endsIn_ask { onDisk with now := request.time } h.mirrors hfit hspared
  rw [hanswer, outcome, houtcome]
  refine ⟨rfl, rfl, ?_, hknown⟩
  rw [hstore]
  exact hmirrors

/-- A request that does not spare the empty key is answered differently. -/
theorem Agree.answer_ne (h : Agree process directory path number onDisk inMemory)
    (hnot : ¬request.operation.SparesEmptyKey (inMemory.memory number)) :
    (request.outcome (.directory directory) onDisk).1 ≠
      (request.outcome (.memory number) inMemory).1 := by
  rw [(outcome_memory request h.known).1]
  obtain rfl := h.process_eq
  exact Operation.answer_ne_of_not_spares { onDisk with now := request.time } h.mirrors hnot

/-- The requests are answered alike exactly if they spare the empty key. -/
theorem Agree.run_eq_iff (h : Agree process directory path number onDisk inMemory)
    (hfit : NamesFit directory number requests inMemory) :
    (run (.directory directory) requests onDisk).1 = (run (.memory number) requests inMemory).1 ↔
      SparesEmptyKey number requests inMemory := by
  induction requests generalizing onDisk inMemory with
  | nil => exact iff_of_true rfl trivial
  | cons request rest ih =>
    rw [run_cons, run_cons, List.cons.injEq, SparesEmptyKey]
    -- Up to the first request that does not spare the empty key all answers agree; its own do not.
    by_cases hspared : request.operation.SparesEmptyKey (inMemory.memory number)
    · obtain ⟨hanswer, hafter⟩ := h.step hfit.1 hspared
      rw [and_iff_right hanswer, and_iff_right hspared]
      exact ih hafter hfit.2
    · exact iff_of_false (fun hsame => h.answer_ne hspared hsame.1) fun hall => hspared hall.1

/-- Where the requests spare the empty key, the directory mirrors the store in the end. -/
theorem Agree.after_run (h : Agree process directory path number onDisk inMemory)
    (hfit : NamesFit directory number requests inMemory)
    (hspared : SparesEmptyKey number requests inMemory) :
    Agree process directory path number (run (.directory directory) requests onDisk).2
      (run (.memory number) requests inMemory).2 := by
  induction requests generalizing onDisk inMemory with
  | nil => exact h
  | cons request rest ih =>
    obtain ⟨-, hafter⟩ := h.step hfit.1 hspared.1
    exact ih hafter hfit.2 hspared.2

/--
An empty lock directory, none of whose names become too long, and an empty memory store that are
asked the same, at whatever times, answer alike if and only if not everything is ever removed while
the empty key is stored. Until then there is, after each request, one file in the directory for each
key that is stored, which says the key and the end of its lock, and nothing else; no tombstone is
left.
-/
theorem directory_refines_memory (hknown : number < inMemory.memories.length)
    (hempty : inMemory.memory number = .empty) (hflat : onDisk.files.Flat directory path)
    (hbare : onDisk.files.inDirectory path = [])
    (hfit : NamesFit directory number requests inMemory) :
    ((run (.directory directory) requests onDisk).1 = (run (.memory number) requests inMemory).1 ↔
      SparesEmptyKey number requests inMemory) ∧
    ∀ front, front <+: requests → SparesEmptyKey number front inMemory →
      Directory.Mirrors onDisk.process (run (.directory directory) front onDisk).2.files
        directory path ((run (.memory number) front inMemory).2.memory number) := by
  have hagree : Agree onDisk.process directory path number onDisk inMemory := by
    refine ⟨rfl, ?_, hknown⟩
    rw [hempty]
    exact Directory.Mirrors.empty hflat hbare
  refine ⟨hagree.run_eq_iff hfit, fun front hfront hspared => ?_⟩
  obtain ⟨back, rfl⟩ := hfront
  exact (hagree.after_run hfit.of_append hspared).mirrors

/-! ## Two runs -/

/-- A room with an empty lock directory and an empty memory. -/
def bareRoom : Room := ⟨0, 7, [], ⟨[⟨["locks"]⟩], []⟩, [.empty], []⟩

/-- A key is taken again at its very end, and the empty key is removed before everything is. -/
def takenAgain : List Request :=
  [⟨1, .add "a/b" 4⟩, ⟨3, .add "a/b" 4⟩, ⟨5, .add "a/b" 4⟩, ⟨5, .add "" 9⟩, ⟨6, .delete ""⟩,
    ⟨6, .deleteLead ""⟩]

/-- Both stores take the key again at its end, and remove it with everything else. -/
theorem directory_refines_memory_takenAgain :
    (run (.directory "locks") takenAgain bareRoom).1 =
        (run (.memory 0) takenAgain bareRoom).1 ∧
      (run (.memory 0) takenAgain bareRoom).1 =
        [.ok (.taken true), .ok (.taken false), .ok (.taken true), .ok (.taken true), .ok .done,
          .ok (.count 1)] ∧
      Directory.Mirrors 7
        (run (.directory "locks") (takenAgain.take 3) bareRoom).2.files "locks"
        ⟨["locks"]⟩ ⟨[("a/b", 9)]⟩ := by
  have hknown : 0 < bareRoom.memories.length := by decide
  have hflat : bareRoom.files.Flat "locks" ⟨["locks"]⟩ := by
    constructor
    · rfl
    · decide
  have hfit : NamesFit "locks" 0 takenAgain bareRoom := by
    have hfits : ∀ key ∈ ["a/b", ""], Files.FitsIn "locks" (Directory.fileName key) ∧
        Files.FitsIn "locks" (Directory.tombstoneName key) := by
      decide +kernel
    obtain ⟨hname, hgrave⟩ := hfits "a/b" (by decide)
    obtain ⟨hempty, hemptyGrave⟩ := hfits "" (by decide)
    exact ⟨⟨hname, fun _ _ _ => hgrave⟩, ⟨hname, fun _ _ _ => hgrave⟩,
      ⟨hname, fun _ _ _ => hgrave⟩, ⟨hempty, fun _ _ _ => hemptyGrave⟩, hempty, trivial, trivial⟩
  have hspared : SparesEmptyKey 0 takenAgain bareRoom := by decide +kernel
  obtain ⟨hanswers, hmirrors⟩ := directory_refines_memory hknown rfl hflat rfl hfit
  have hfront := hmirrors (takenAgain.take 3) (List.take_prefix 3 takenAgain) (by decide +kernel)
  have hstore : (run (.memory 0) (takenAgain.take 3) bareRoom).2.memory 0 =
      ⟨[("a/b", 9)]⟩ := by
    decide +kernel
  rw [hstore] at hfront
  exact ⟨hanswers.mpr hspared, by decide +kernel, hfront⟩

/-- The empty key is taken, and everything is removed. -/
def wipedAtOnce : List Request := [⟨1, .add "" 600⟩, ⟨2, .deleteLead ""⟩]

/-- The memory store counts and forgets the key; the directory counts nothing and keeps the file. -/
theorem directory_keeps_empty_key :
    (run (.memory 0) wipedAtOnce bareRoom).1 = [.ok (.taken true), .ok (.count 1)] ∧
      (run (.directory "locks") wipedAtOnce bareRoom).1 =
        [.ok (.taken true), .ok (.count 0)] ∧
      (run (.memory 0) wipedAtOnce bareRoom).2.memory 0 = .empty ∧
      (run (.directory "locks") wipedAtOnce bareRoom).2.files.namesAt "locks" =
        [".lock"] := by
  decide +kernel

end Request

end Locks

end SqlFederation
