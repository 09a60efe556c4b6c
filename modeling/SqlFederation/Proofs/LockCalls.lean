import Mathlib
import SqlFederation.Proofs.LockMirror

/-!
# Calls on a lock directory that mirrors a memory store

Each call on a lock directory ends as the call on the memory store that the directory mirrors, and
leaves a directory that mirrors the store afterwards (`Directory.EndsIn`). To take a key
(`Directory.Mirrors.endsIn_add`) is to write its file, where there is none. Where there is one, it
stays if the lock in it still lasts; if it has run out, the file is moved away, looked at again and
removed before the new one is written, so that no tombstone is left
(`Directory.Mirrors.endsIn_reclaim`). To remove the keys that start with a text goes through the
entries that the directory shows, which leave the empty key out
(`Directory.Mirrors.endsIn_deleteLead`). So there the directory does what the store does only as
long as the empty key is not at stake (`MemoryStore.deleteLead_of_spared`).
-/

namespace SqlFederation

namespace Locks

/-! ## The keys that a text leads -/

/-- The empty text leads every key. -/
theorem hasLead_empty (key : String) : hasLead "" key = true := by
  show Text.startsWith key.toList [] = true
  cases key.toList with
  | nil => rfl
  | cons c chars => rfl

/-- No other text leads the empty key. -/
theorem eq_empty_of_hasLead {lead : String} (h : hasLead lead "" = true) : lead = "" := by
  have hstarts : Text.startsWith [] lead.toList = true := h
  cases hlead : lead.toList with
  | nil => exact String.toList_eq_nil_iff.mp hlead
  | cons c chars =>
    rw [hlead] at hstarts
    cases hstarts

/-- Does a directory remove a key when it removes those that start with a text? -/
def Directory.removes (lead key : String) : Bool :=
  key != "" && hasLead lead key

namespace MemoryStore

variable {store : MemoryStore} {lead : String}

/-- Where the empty key is not at stake, a directory removes the keys that a store removes. -/
theorem deleteLead_of_spared (h : lead = "" → store.expiry? "" = none) :
    store.deleteLead lead =
      ((store.entries.map Prod.fst).countP (Directory.removes lead),
        ⟨store.entries.filter fun entry => !Directory.removes lead entry.1⟩) := by
  have hall : ∀ entry ∈ store.entries, hasLead lead entry.1 = Directory.removes lead entry.1 := by
    intro entry hentry
    rw [Directory.removes]
    by_cases hkey : entry.1 = ""
    · rw [hkey, bne_self_eq_false, Bool.false_and, Bool.eq_false_iff]
      intro hlead
      have hstored := mem_keys_iff.mp (List.mem_map_of_mem hentry)
      rw [hkey, h (eq_empty_of_hasLead hlead)] at hstored
      cases hstored
    · rw [bne_iff_ne.mpr hkey, Bool.true_and]
  refine Prod.ext ?_ (congrArg MemoryStore.mk ?_)
  · show (store.entries.filter fun entry => hasLead lead entry.1).length = _
    rw [List.filter_congr hall, List.countP_map, List.countP_eq_length_filter]
    rfl
  · exact List.filter_congr fun entry hentry => congrArg not (hall entry hentry)

/-- Where the empty key is stored, a store that removes everything removes more. -/
theorem lt_deleteLead (h : (store.expiry? "").isSome = true) :
    (store.entries.map Prod.fst).countP (Directory.removes "") < (store.deleteLead "").1 := by
  have hlength : (store.deleteLead "").1 = (store.entries.map Prod.fst).length := by
    show (store.entries.filter fun entry => hasLead "" entry.1).length = _
    rw [List.filter_eq_self.mpr fun entry _ => hasLead_empty entry.1, List.length_map]
  rw [hlength, List.countP_lt_length_iff]
  exact ⟨"", mem_keys_iff.mpr h, rfl⟩

end MemoryStore

namespace Directory

variable {directory key : String} {path : Path}

/--
Does a call end as given and leave a directory that mirrors a store, with the room otherwise as it
was?
-/
def EndsIn {α : Type} (directory : String) (path : Path) (call : Call Room α) (room : Room)
    (result : Except Error α) (store : MemoryStore) : Prop :=
  ∃ files, call.outcome room = (result, { room with files := files }) ∧
    Mirrors room.process files directory path store

/-- Calls one after the other end as the last one does. -/
theorem EndsIn.bind {α β : Type} {call : Call Room α} {f : α → Call Room β} {room : Room} {a : α}
    {result : Except Error β} {store store' : MemoryStore}
    (h : EndsIn directory path call room (.ok a) store)
    (hrest : ∀ between : Room, between.now = room.now →
      Mirrors between.process between.files directory path store →
        EndsIn directory path (f a) between result store') :
    EndsIn directory path (call >>= f) room result store' := by
  obtain ⟨files, houtcome, hmirrors⟩ := h
  rw [EndsIn, Call.outcome_bind_of_ok houtcome]
  exact hrest { room with files := files } rfl hmirrors

/-- What is made of the result changes nothing else. -/
theorem EndsIn.map {α β : Type} {call : Call Room α} {room : Room} {result : Except Error α}
    {store : MemoryStore} (h : EndsIn directory path call room result store) (f : α → β) :
    EndsIn directory path (f <$> call) room (result.map f) store := by
  obtain ⟨files, houtcome, hmirrors⟩ := h
  refine ⟨files, ?_, hmirrors⟩
  rw [Call.outcome_map, houtcome]

namespace Mirrors

variable {room : Room} {store : MemoryStore} {ends : Time}

theorem endsIn_pure {α : Type} (h : Mirrors room.process room.files directory path store) (a : α) :
    EndsIn directory path (pure a) room (.ok a) store :=
  ⟨room.files, rfl, h⟩

section Keys

variable (h : Mirrors room.process room.files directory path store)
  (hfits : Files.FitsIn directory (fileName key))
include h hfits

/-! ## Taking a key -/

theorem endsIn_tryCreate_of_none (hkey : store.expiry? key = none) (ends : Time) :
    EndsIn directory path (tryCreate directory key ends) room (.ok true) (store.put key ends) := by
  let file : File := ⟨.lock (ownEntry room key ends), room.now⟩
  refine ⟨room.files.set (path.child (fileName key)) file, ?_, h.set hfits hkey ?_⟩
  · rw [tryCreate, Call.outcome_of, h.find_pathOf_of_none hfits hkey]
  · exact ⟨rfl, ownEntry room key ends, rfl, rfl, rfl, rfl⟩

theorem endsIn_tryCreate_of_some (hkey : store.expiry? key = some ends) (newEnds : Time) :
    EndsIn directory path (tryCreate directory key newEnds) room (.ok false) store := by
  obtain ⟨file, hfile, -⟩ := h.exists_file_of_some hkey
  refine ⟨room.files, ?_, h⟩
  rw [tryCreate, Call.outcome_of, h.find_pathOf_of_some hfits hfile]

omit h hfits in
/-- A file of this process can be reclaimed from the end of its lock on. -/
theorem isReclaimable_of_find {text : String} {p q : Path} {file : File}
    (hfind : room.files.find text = .file p file)
    (hrecords : Records room.process path (q, file) (key, ends)) (span : Nat) :
    isReclaimable text span room = decide (ends ≤ room.now) := by
  obtain ⟨said, hentry, -, hprocess, hends⟩ := hrecords.said
  have hrunning : room.isRunning said.process = true := by
    rw [Room.isRunning, hprocess, beq_self_eq_true, Bool.true_or]
  rw [isReclaimable, hfind]
  show room.isReclaimable span file = _
  rw [Room.isReclaimable, hentry]
  show room.isStale said = _
  rw [Room.isStale, hrunning, Entry.isExpired, hends, Bool.not_true, Bool.or_false]

/-- A file that has run out is moved away, looked at again and removed. -/
theorem endsIn_reclaim (htomb : Files.FitsIn directory (tombstoneName key))
    (hkey : store.expiry? key = some ends) (hover : ends ≤ room.now) (span : Nat) :
    EndsIn directory path (reclaim directory key span) room (.ok true) (store.delete key) := by
  obtain ⟨file, hfile, hrecords⟩ := h.exists_file_of_some hkey
  have hleft := h.remove key
  have hnone := hleft.file?_tombstoneName key
  let left := room.files.remove (path.child (fileName key))
  let moved : Room := { room with files := left.set (path.child (tombstoneName key)) file }
  have hmove : (moveAway directory key).outcome room = (.ok true, moved) := by
    rw [moveAway, Call.outcome_of, h.find_pathOf_of_some hfits hfile, h.find_tombstoneOf htomb]
  have hflat : moved.files.Flat directory path := h.flat.of_eq rfl
  -- Looked at again under its other name, the file says what it said.
  have hfind : moved.files.find (tombstoneOf directory key) =
      .file (path.child (tombstoneName key)) file :=
    hflat.find_of_some (isPlain_tombstoneName key) htomb (Files.file?_set_self _ _ file)
  have hfree : isReclaimable (tombstoneOf directory key) span moved = true :=
    (isReclaimable_of_find hfind hrecords span).trans (decide_eq_true hover)
  have hdiscard : (discard directory key).outcome moved =
      (.ok (), { room with files := left }) := by
    rw [discard, Call.outcome_of, hfind]
    show (Except.ok (), { moved with files := _ }) = _
    rw [Files.remove_set_of_none hnone]
  -- The tombstone is gone again, so the directory has lost the file of the key and nothing else.
  refine ⟨left, ?_, hleft⟩
  rw [reclaim, Call.outcome_bind_of_ok hmove, if_pos rfl]
  have hread : (Call.reading (isReclaimable (tombstoneOf directory key) span)).outcome moved =
      (.ok true, moved) := by
    rw [Call.outcome_reading, hfree]
  rw [Call.outcome_bind_of_ok hread, if_pos rfl, Call.outcome_bind_of_ok hdiscard,
    Call.outcome_pure]

/-- Whether the file of a key can be reclaimed is read without a change. -/
theorem endsIn_isReclaimable (hkey : store.expiry? key = some ends) (span : Nat) :
    EndsIn directory path (Call.reading (isReclaimable (pathOf directory key) span)) room
      (.ok (decide (ends ≤ room.now))) store := by
  obtain ⟨file, hfile, hrecords⟩ := h.exists_file_of_some hkey
  refine ⟨room.files, ?_, h⟩
  rw [Call.outcome_reading,
    isReclaimable_of_find (h.find_pathOf_of_some hfits hfile) hrecords span]

/-- A key that somebody has is not taken. -/
theorem endsIn_take_of_live (hlive : store.isLive room.now key = true) (span : Nat)
    (newEnds : Time) :
    EndsIn directory path (take directory key span newEnds) room (.ok false) store := by
  cases hkey : store.expiry? key with
  | none =>
    rw [MemoryStore.isLive_of_none hkey] at hlive
    cases hlive
  | some ends =>
    rw [MemoryStore.isLive_of_some hkey, decide_eq_true_eq] at hlive
    refine (h.endsIn_tryCreate_of_some hfits hkey newEnds).bind fun between hnow hbetween => ?_
    have hread := hbetween.endsIn_isReclaimable hfits hkey span
    rw [hnow, decide_eq_false (Int.not_le.mpr hlive)] at hread
    rw [if_neg Bool.false_ne_true]
    refine hread.bind fun between _ hbetween => ?_
    rw [if_neg Bool.false_ne_true]
    exact hbetween.endsIn_pure false

/-- A key that nobody has is taken. -/
theorem endsIn_take_of_free (hfree : store.isLive room.now key = false)
    (htomb : ∀ ends, store.expiry? key = some ends → ends ≤ room.now →
      Files.FitsIn directory (tombstoneName key))
    (span : Nat) (newEnds : Time) :
    EndsIn directory path (take directory key span newEnds) room (.ok true)
      (store.put key newEnds) := by
  cases hkey : store.expiry? key with
  | none =>
    refine (h.endsIn_tryCreate_of_none hfits hkey newEnds).bind fun between _ hbetween => ?_
    rw [if_pos rfl]
    exact hbetween.endsIn_pure true
  | some ends =>
    rw [MemoryStore.isLive_of_some hkey, decide_eq_false_iff_not, Int.not_lt] at hfree
    refine (h.endsIn_tryCreate_of_some hfits hkey newEnds).bind fun between hnow hbetween => ?_
    have hread := hbetween.endsIn_isReclaimable hfits hkey span
    rw [hnow, decide_eq_true hfree] at hread
    rw [if_neg Bool.false_ne_true]
    refine hread.bind fun later hlater hmirrors => ?_
    have hover : ends ≤ later.now := by
      rw [hlater, hnow]
      exact hfree
    have hreclaim := hmirrors.endsIn_reclaim hfits (htomb ends hkey hfree) hkey hover span
    rw [if_pos rfl]
    refine hreclaim.bind fun last _ hlast => ?_
    -- With its old file gone, the key is stored anew: at the end, as in the memory store.
    rw [if_pos rfl, ← store.put_delete key newEnds]
    exact hlast.endsIn_tryCreate_of_none hfits (store.expiry?_delete_self key) newEnds

/-- The directory and the store answer alike when a key is to be taken. -/
theorem endsIn_add
    (htomb : ∀ ends, store.expiry? key = some ends → ends ≤ room.now →
      Files.FitsIn directory (tombstoneName key)) (span : Nat) :
    EndsIn directory path (add directory key span) room (store.add room.now key span).1
      (store.add room.now key span).2 := by
  have hmake : EndsIn directory path (make directory) room (.ok ()) store := by
    refine ⟨room.files, ?_, h⟩
    rw [make, Call.outcome_of, Files.makeDirectories_of_find h.flat.place]
    rfl
  refine hmake.bind fun between hnow hbetween => ?_
  rw [← hnow]
  by_cases hspan : maxSpan < span
  · rw [store.add_of_tooLong between.now key hspan]
    refine ⟨between.files, Call.outcome_bind_of_error ?_, hbetween⟩
    rw [Call.outcome_of, expiry, if_pos hspan]
  · have hends : EndsIn directory path (Call.of fun room => (expiry room.now span, room)) between
        (.ok (between.now + span)) store := by
      refine ⟨between.files, ?_, hbetween⟩
      rw [Call.outcome_of, expiry, if_neg hspan]
    refine hends.bind fun later hlater hmirrors => ?_
    rw [← hlater]
    cases hlive : store.isLive later.now key with
    | true =>
      rw [store.add_of_live later.now key (Nat.not_lt.mp hspan) hlive]
      exact hmirrors.endsIn_take_of_live hfits hlive span _
    | false =>
      rw [store.add_of_free later.now key (Nat.not_lt.mp hspan) hlive]
      rw [← hnow, ← hlater] at htomb
      exact hmirrors.endsIn_take_of_free hfits hlive htomb span _

/-! ## Removing keys -/

theorem endsIn_delete :
    EndsIn directory path (Directory.delete directory key) room (.ok ()) (store.delete key) := by
  cases hkey : store.expiry? key with
  | none =>
    rw [MemoryStore.delete_of_none hkey]
    refine ⟨room.files, ?_, h⟩
    rw [Directory.delete, Call.outcome_of, h.find_pathOf_of_none hfits hkey]
  | some ends =>
    obtain ⟨file, hfile, -⟩ := h.exists_file_of_some hkey
    refine ⟨room.files.remove (path.child (fileName key)), ?_, h.remove key⟩
    rw [Directory.delete, Call.outcome_of, h.find_pathOf_of_some hfits hfile]

end Keys

variable (h : Mirrors room.process room.files directory path store)
include h

/-- Keys are removed one after the other and counted. -/
theorem endsIn_deleteAll {keys : List String}
    (hfits : ∀ key ∈ keys, Files.FitsIn directory (fileName key)) (count : Nat) :
    EndsIn directory path (deleteAll directory keys count) room (.ok (count + keys.length))
      (keys.foldl MemoryStore.delete store) := by
  induction keys generalizing room store count with
  | nil => exact h.endsIn_pure count
  | cons key rest ih =>
    refine (h.endsIn_delete (hfits key List.mem_cons_self)).bind fun between _ hbetween => ?_
    rw [List.length_cons, List.foldl_cons, Nat.add_comm rest.length, ← Nat.add_assoc]
    exact ih hbetween (fun k hk => hfits k (List.mem_cons_of_mem key hk)) (count + 1)

/-- A directory shows the entries of all keys but the empty one. -/
theorem exists_entries :
    ∃ shown, entries directory room.files = .ok shown ∧
      shown.map Entry.key = (store.entries.map Prod.fst).filter fun key => key != "" := by
  refine ⟨_, ?_, keys_filterMap h.records⟩
  rw [entries, h.flat.place]

/-- Of the keys that start with a text, all but the empty one are removed and counted. -/
theorem endsIn_deleteLead (lead : String) :
    EndsIn directory path (Directory.deleteLead directory lead) room
      (.ok ((store.entries.map Prod.fst).countP (removes lead)))
      ⟨store.entries.filter fun entry => !removes lead entry.1⟩ := by
  obtain ⟨shown, hshown, hkeys⟩ := h.exists_entries
  have hread : EndsIn directory path (Call.of fun room => (entries directory room.files, room)) room
      (.ok shown) store := by
    refine ⟨room.files, ?_, h⟩
    rw [Call.outcome_of, hshown]
  let keys := (store.entries.map Prod.fst).filter (removes lead)
  have hremoved : (shown.map Entry.key).filter (hasLead lead) = keys := by
    rw [hkeys, List.filter_filter]
    exact List.filter_congr fun key _ => Bool.and_comm _ _
  have hfits : ∀ key ∈ keys, Files.FitsIn directory (fileName key) := fun key hkey =>
    h.fits key (List.mem_of_mem_filter hkey)
  have hleft : keys.foldl MemoryStore.delete store =
      ⟨store.entries.filter fun entry => !removes lead entry.1⟩ := by
    refine congrArg MemoryStore.mk ((MemoryStore.entries_foldl_delete keys store).trans ?_)
    refine List.filter_congr fun entry hentry => congrArg not ?_
    rw [Bool.eq_iff_iff, List.contains_iff_mem, List.mem_filter,
      and_iff_right (List.mem_map_of_mem hentry)]
  -- The keys are removed in the order in which the directory shows them.
  refine hread.bind fun between _ hbetween => ?_
  rw [hremoved, ← hleft, List.countP_eq_length_filter, ← Nat.zero_add (List.length _)]
  exact hbetween.endsIn_deleteAll hfits 0

end Mirrors

end Directory

end Locks

end SqlFederation
