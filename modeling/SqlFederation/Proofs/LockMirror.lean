import Mathlib
import SqlFederation.Proofs.LockDirectory
import SqlFederation.Proofs.LockStore

/-!
# A lock directory that mirrors a memory store

A lock directory mirrors a memory store if its files are those of the keys that are stored, in the
same order, each of which says its key and the end of its lock (`Directory.Mirrors`). Then a key has
a file exactly if it is stored (`Directory.lookup_fileName`), no tombstone is there
(`Directory.lookup_tombstoneName`), and what the directory shows are the entries of all keys but the
empty one, whose file is named `.lock` and has no ending (`Directory.keys_filterMap`). To remove the
file of a key or to write that of a new one mirrors what happens in the store
(`Directory.Mirrors.remove`, `Directory.Mirrors.set`).
-/

namespace SqlFederation

/-! ## Memory stores -/

namespace Locks

namespace MemoryStore

variable {store : MemoryStore} {key : String}

/-- To remove a key that is not stored changes nothing. -/
theorem delete_of_none (h : store.expiry? key = none) : store.delete key = store := by
  refine congrArg MemoryStore.mk (List.filter_eq_self.mpr fun entry hentry => ?_)
  show (entry.1 != key) = true
  rw [bne_comm]
  exact List.lookup_eq_none_iff.mp h entry hentry

/-- A key that is not stored is stored at the end. -/
theorem put_of_none (h : store.expiry? key = none) (ends : Time) :
    store.put key ends = ⟨store.entries ++ [(key, ends)]⟩ := by
  rw [put, delete_of_none h]

theorem expiry?_delete_self (store : MemoryStore) (key : String) :
    (store.delete key).expiry? key = none := by
  rw [expiry?_delete, if_pos rfl]

/-- To store a key anew is to remove it first. -/
theorem put_delete (store : MemoryStore) (key : String) (ends : Time) :
    (store.delete key).put key ends = store.put key ends := by
  rw [put, delete_of_none (store.expiry?_delete_self key), put]

theorem isLive_of_some {ends : Time} (h : store.expiry? key = some ends) (now : Time) :
    store.isLive now key = decide (now < ends) := by
  rw [isLive, h, Option.any_some]

theorem isLive_of_none (h : store.expiry? key = none) (now : Time) :
    store.isLive now key = false := by
  rw [isLive, h, Option.any_none]

/-- What is left where some keys were removed one after the other. -/
theorem entries_foldl_delete (keys : List String) (store : MemoryStore) :
    (keys.foldl delete store).entries =
      store.entries.filter fun entry => !keys.contains entry.1 := by
  induction keys generalizing store with
  | nil => exact (List.filter_eq_self.mpr fun _ _ => rfl).symm
  | cons key rest ih =>
    have hdelete : (store.delete key).entries = store.entries.filter fun entry => entry.1 != key :=
      rfl
    rw [List.foldl_cons, ih, hdelete, List.filter_filter]
    refine List.filter_congr fun entry _ => ?_
    rw [List.contains_cons, Bool.not_or, Bool.and_comm]
    rfl

/-- A key is stored if it has an end. -/
theorem mem_keys_iff : key ∈ store.entries.map Prod.fst ↔ (store.expiry? key).isSome = true :=
  isSome_lookup_iff.symm

end MemoryStore

namespace Directory

/-! ## The names in a lock directory -/

/-- The name of a key's file. -/
def fileName (key : String) : String := stem key ++ ".lock"

theorem fileName_injective {a b : String} (h : fileName a = fileName b) : a = b :=
  stem_injective ((String.append_left_inj _).mp h)

/-- A tombstone ends otherwise than the file of a key. -/
theorem tombstoneName_ne_fileName (key other : String) : tombstoneName key ≠ fileName other := by
  intro h
  have hlast := congrArg (fun name : String => name.toList.getLast?) h
  rw [tombstoneName, fileName] at hlast
  simp only [String.toList_append] at hlast
  rw [List.getLast?_append_of_ne_nil _ (by decide), List.getLast?_append_of_ne_nil _ (by decide)]
    at hlast
  exact absurd hlast (by decide)

/-- The file of a key has the ending of lock files, unless its name is nothing but the ending. -/
theorem extension?_fileName (key : String) :
    Path.extension? (fileName key) = if key = "" then none else some "lock" := by
  have hreverse : (fileName key).toList.reverse =
      'k' :: 'c' :: 'o' :: 'l' :: '.' :: (stem key).toList.reverse := by
    rw [fileName, String.toList_append, List.reverse_append]
    rfl
  have htail : ('k' :: 'c' :: 'o' :: 'l' :: '.' :: (stem key).toList.reverse).takeWhile
      (fun c => c != '.') = ['k', 'c', 'o', 'l'] := rfl
  rw [Path.extension?, hreverse, htail]
  by_cases hkey : key = ""
  · rw [if_pos hkey, hkey, stem_empty]
    rfl
  · have hstem : (stem key).toList.reverse ≠ [] := by
      intro hnil
      have hempty := String.toList_eq_nil_iff.mp (List.reverse_eq_nil_iff.mp hnil)
      exact hkey (stem_injective (hempty.trans stem_empty.symm))
    obtain ⟨c, rest, hrest⟩ := List.exists_cons_of_ne_nil hstem
    rw [if_neg hkey, hrest]
    rfl

theorem isPlain_fileName (key : String) : Files.IsPlain (fileName key) := by
  have hending : (".lock").utf8ByteSize = 5 := rfl
  have hsize : 2 < (fileName key).utf8ByteSize := by
    rw [fileName, String.utf8ByteSize_append, hending]
    omega
  constructor
  case not_dots => exact Files.not_dots_of_lt hsize
  case not_slash => exact slash_not_mem_fileName key
  case not_nul =>
    rw [fileName, String.toList_append, List.mem_append, not_or]
    exact ⟨(not_mem_stem key).2, by decide⟩

theorem isPlain_tombstoneName (key : String) : Files.IsPlain (tombstoneName key) := by
  have hending : (".lock.00000000000040008000000000000000.stale").utf8ByteSize = 44 := rfl
  have hsize : 2 < (tombstoneName key).utf8ByteSize := by
    rw [tombstoneName, String.utf8ByteSize_append, hending]
    omega
  have hchars : ∀ c, c ∉ (stem key).toList → c ∉ (".lock").toList →
      c ∉ (".lock.00000000000040008000000000000000.stale").toList →
        c ∉ (tombstoneName key).toList := by
    intro c hstem hlock htail
    rw [tombstoneName, String.toList_append, List.mem_append, not_or]
    refine ⟨?_, htail⟩
    split
    · exact hlock
    · exact hstem
  constructor
  case not_dots => exact Files.not_dots_of_lt hsize
  case not_slash => exact hchars _ (not_mem_stem key).1 (by decide) (by decide)
  case not_nul => exact hchars _ (not_mem_stem key).2 (by decide) (by decide)

/-! ## What the files of a lock directory say -/

/-- A file says that a process has a key until an end, and it has the name of the key. -/
structure Records (process : Nat) (path : Path) (entry : Path × File) (lock : String × Time) :
    Prop where
  name : entry.1 = path.child (fileName lock.1)
  said : ∃ said : Entry, File.entry? entry.2 = some said ∧ said.key = lock.1 ∧
    said.process = process ∧ said.expiresAt = lock.2

variable {directory key : String} {process : Nat} {path : Path} {entries : List (Path × File)}
  {locks : List (String × Time)}

/-- Among files that say what is stored, the file of a key is there if the key is stored. -/
theorem lookup_fileName (h : List.Forall₂ (Records process path) entries locks) (key : String) :
    Option.Rel (fun file ends => Records process path (path.child (fileName key), file) (key, ends))
      (entries.lookup (path.child (fileName key))) (locks.lookup key) := by
  induction h with
  | nil => exact Option.Rel.none
  | @cons entry lock entries locks hrecords _ ih =>
    obtain ⟨p, file⟩ := entry
    obtain ⟨k, ends⟩ := lock
    obtain rfl : p = path.child (fileName k) := hrecords.name
    by_cases hk : key = k
    · subst hk
      rw [List.lookup_cons_self, List.lookup_cons_self]
      exact Option.Rel.some hrecords
    · have hpath : path.child (fileName key) ≠ path.child (fileName k) := fun hpath =>
        hk (fileName_injective (path.child_injective hpath))
      rw [List.lookup_cons, beq_false_of_ne hpath, List.lookup_cons, beq_false_of_ne hk]
      exact ih

/-- Among files that say what is stored there is no tombstone. -/
theorem lookup_tombstoneName (h : List.Forall₂ (Records process path) entries locks)
    (key : String) : entries.lookup (path.child (tombstoneName key)) = none := by
  induction h with
  | nil => rfl
  | @cons entry lock entries locks hrecords _ ih =>
    have hpath : path.child (tombstoneName key) ≠ entry.1 := by
      rw [hrecords.name]
      exact fun hpath => tombstoneName_ne_fileName key lock.1 (path.child_injective hpath)
    rw [List.lookup_cons, beq_false_of_ne hpath]
    exact ih

/-- The keys of the entries that a directory shows: all but the empty one. -/
theorem keys_filterMap (h : List.Forall₂ (Records process path) entries locks) :
    (entries.filterMap fun entry =>
        if Path.extension? entry.1.name = some "lock" then File.entry? entry.2
        else none).map Entry.key =
      (locks.map Prod.fst).filter fun key => key != "" := by
  induction h with
  | nil => rfl
  | @cons entry lock entries locks hrecords _ ih =>
    obtain ⟨said, hentry, hkey, -⟩ := hrecords.said
    have hname : Path.extension? entry.1.name = if lock.1 = "" then none else some "lock" := by
      rw [hrecords.name, Path.name_child, extension?_fileName]
    -- The entry of the empty key is passed over: the name of its file has no ending.
    rw [List.map_cons]
    by_cases hempty : lock.1 = ""
    · rw [if_pos hempty] at hname
      have hleft : ¬(lock.1 != "") = true := by
        rw [hempty]
        decide
      rw [List.filterMap_cons_none (by rw [hname]; rfl), ih,
        List.filter_cons_of_neg (p := fun key => key != "") hleft]
    · rw [if_neg hempty] at hname
      rw [List.filterMap_cons_some (by rw [hname, if_pos rfl, hentry]), List.map_cons, hkey, ih,
        List.filter_cons_of_pos (p := fun key => key != "") (bne_iff_ne.mpr hempty)]

/-- Is there one file in a directory for each key that is stored, and nothing else? -/
structure Mirrors (process : Nat) (files : Files) (directory : String) (path : Path)
    (store : MemoryStore) : Prop where
  flat : files.Flat directory path
  /-- Each file says its key and the end of its lock. -/
  records : List.Forall₂ (Records process path) (files.inDirectory path) store.entries
  /-- No key is stored twice. -/
  nodup : (store.entries.map Prod.fst).Nodup
  /-- The names of the files are not too long. -/
  fits : ∀ key ∈ store.entries.map Prod.fst, Files.FitsIn directory (fileName key)

namespace Mirrors

variable {files : Files} {store : MemoryStore}

/-- The empty directory mirrors the empty store. -/
theorem empty (hflat : files.Flat directory path) (hbare : files.inDirectory path = []) :
    Mirrors process files directory path .empty := by
  constructor
  case flat => exact hflat
  case records =>
    rw [hbare]
    exact List.Forall₂.nil
  case nodup => exact List.nodup_nil
  case fits => exact fun _ hmem => absurd hmem List.not_mem_nil

section Names

variable (h : Mirrors process files directory path store)
include h

/-- A key that is not stored has no file. -/
theorem file?_of_none (hkey : store.expiry? key = none) :
    files.file? (path.child (fileName key)) = none := by
  have hlookup := lookup_fileName h.records key
  rw [MemoryStore.expiry?] at hkey
  rw [hkey, ← Files.file?_child] at hlookup
  cases hfile : files.file? (path.child (fileName key)) with
  | none => rfl
  | some file =>
    rw [hfile] at hlookup
    cases hlookup

/-- A key that is stored has a file that says so. -/
theorem exists_file_of_some {ends : Time} (hkey : store.expiry? key = some ends) :
    ∃ file, files.file? (path.child (fileName key)) = some file ∧
      Records process path (path.child (fileName key), file) (key, ends) := by
  have hlookup := lookup_fileName h.records key
  rw [MemoryStore.expiry?] at hkey
  rw [hkey, ← Files.file?_child] at hlookup
  cases hfile : files.file? (path.child (fileName key)) with
  | none =>
    rw [hfile] at hlookup
    cases hlookup
  | some file =>
    rw [hfile] at hlookup
    cases hlookup with
    | some hrecords => exact ⟨file, rfl, hrecords⟩

theorem file?_tombstoneName (key : String) :
    files.file? (path.child (tombstoneName key)) = none := by
  rw [Files.file?_child]
  exact lookup_tombstoneName h.records key

theorem find_pathOf_of_none (hfits : Files.FitsIn directory (fileName key))
    (hkey : store.expiry? key = none) :
    files.find (pathOf directory key) = .free (path.child (fileName key)) false :=
  h.flat.find_of_none (isPlain_fileName key) hfits (h.file?_of_none hkey)

theorem find_pathOf_of_some (hfits : Files.FitsIn directory (fileName key)) {file : File}
    (hfile : files.file? (path.child (fileName key)) = some file) :
    files.find (pathOf directory key) = .file (path.child (fileName key)) file :=
  h.flat.find_of_some (isPlain_fileName key) hfits hfile

theorem find_tombstoneOf (hfits : Files.FitsIn directory (tombstoneName key)) :
    files.find (tombstoneOf directory key) = .free (path.child (tombstoneName key)) false :=
  h.flat.find_of_none (isPlain_tombstoneName key) hfits (h.file?_tombstoneName key)

end Names

/-! ## What changes in the directory -/

/-- Where a key's file is removed, the directory mirrors the store without the key. -/
theorem remove (h : Mirrors process files directory path store) (key : String) :
    Mirrors process (files.remove (path.child (fileName key))) directory path
      (store.delete key) := by
  constructor
  case flat => exact h.flat.of_eq rfl
  case records =>
    rw [Files.inDirectory_remove]
    refine List.rel_filter ?_ h.records
    intro entry lock hrecords
    show (entry.1 != path.child (fileName key)) = true ↔ (lock.1 != key) = true
    rw [bne_iff_ne, bne_iff_ne, hrecords.name]
    refine not_congr ⟨fun hpath => fileName_injective (path.child_injective hpath), ?_⟩
    rintro rfl
    rfl
  case nodup => exact h.nodup.sublist (List.filter_sublist.map Prod.fst)
  case fits =>
    exact fun other hother => h.fits other ((List.filter_sublist.map Prod.fst).mem hother)

/-- Where the file of a new key is written, the directory mirrors the store with the key. -/
theorem set (h : Mirrors process files directory path store)
    (hfits : Files.FitsIn directory (fileName key)) (hkey : store.expiry? key = none)
    {file : File} {ends : Time}
    (hrecords : Records process path (path.child (fileName key), file) (key, ends)) :
    Mirrors process (files.set (path.child (fileName key)) file) directory path
      (store.put key ends) := by
  rw [MemoryStore.put_of_none hkey]
  constructor
  case flat => exact h.flat.of_eq rfl
  case records =>
    rw [Files.inDirectory_set_of_none (h.file?_of_none hkey)]
    exact List.rel_append h.records (List.Forall₂.cons hrecords List.Forall₂.nil)
  case nodup =>
    have hnew : key ∉ store.entries.map Prod.fst := by
      rw [MemoryStore.mem_keys_iff, hkey]
      exact Bool.false_ne_true
    rw [List.map_append, List.map_singleton, List.nodup_append]
    refine ⟨h.nodup, List.nodup_singleton key, fun other hother last hlast hsame => ?_⟩
    obtain rfl : last = key := List.mem_singleton.mp hlast
    exact hnew (hsame ▸ hother)
  case fits =>
    intro other hother
    rw [List.map_append, List.map_singleton, List.mem_append, List.mem_singleton] at hother
    obtain hold | rfl := hother
    · exact h.fits other hold
    · exact hfits

end Mirrors

end Directory

end Locks

end SqlFederation
