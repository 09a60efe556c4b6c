import Mathlib
import SqlFederation.Proofs.LockFiles

/-!
# A directory of files

What a text points to is found name by name, and the way through directories does not depend on the
files (`Files.walk_eq_directory_of_eq`). So where a text points to a directory in which there are
files only (`Files.Flat`), a name behind it points to the file of that name, or to nothing
(`Files.Flat.find_of_some`, `Files.Flat.find_of_none`). The files of the directory are a list that
grows at its end when a file is written under a new name (`Files.inDirectory_set_of_none`) and loses
the one file that is removed (`Files.inDirectory_remove`).
-/

namespace SqlFederation

/-! ## The text of a path -/

namespace Path

/-- What stands behind a text does not change where the text starts from. -/
theorem start_append {text : String} (h : text ≠ "") (rest : String) :
    start (text ++ rest) = start text := by
  have hhead : (text ++ rest).toList.head? = text.toList.head? := by
    rw [String.toList_append]
    exact List.head?_append_of_ne_nil _ fun hnil => h (String.toList_eq_nil_iff.mp hnil)
  have habsolute : isAbsolute (text ++ rest) = isAbsolute text := by
    rw [Bool.eq_iff_iff, isAbsolute_iff, isAbsolute_iff, hhead]
  rw [start, start, habsolute]

theorem parent_child (path : Path) (name : String) : (path.child name).parent = path := by
  rw [parent, child, List.dropLast_concat]

theorem child_injective (path : Path) {a b : String} (h : path.child a = path.child b) : a = b := by
  rw [← name_child path a, ← name_child path b, h]

end Path

/-! ## The way to a directory -/

namespace Files

variable {fs : Files} {place path : Path} {names : List String}

/-- The way to a directory goes on behind every name. -/
theorem walk_eq_directory {name : String} {rest : List String}
    (h : fs.walk place (name :: rest) = .directory path) :
    fs.passes place name ∧ fs.walk (place.step name) rest = .directory path := by
  by_cases hpasses : fs.passes place name
  · exact ⟨hpasses, (walk_of_passes hpasses rest).symm.trans h⟩
  · rw [walk_of_not_passes hpasses] at h
    split at h
    · split at h
      · split at h
        · cases h
        · cases h
      · split at h
        · cases h
        · cases h
    · cases h

/-- The way to a directory is the same whatever files there are. -/
theorem walk_eq_directory_of_eq {fs' : Files} (heq : fs'.directories = fs.directories)
    (h : fs.walk place names = .directory path) : fs'.walk place names = .directory path := by
  induction names generalizing place with
  | nil => exact h
  | cons name rest ih =>
    obtain ⟨hpasses, hrest⟩ := walk_eq_directory h
    have hpasses' : fs'.passes place name := by
      rw [passes, isDirectory, heq]
      exact hpasses
    rw [walk_of_passes hpasses', ih hrest]

/-- A way that leads to a directory goes on from there. -/
theorem walk_append (h : fs.walk place names = .directory path) (rest : List String) :
    fs.walk place (names ++ rest) = fs.walk path rest := by
  induction names generalizing place with
  | nil =>
    cases h
    rfl
  | cons name names ih =>
    obtain ⟨hpasses, hnames⟩ := walk_eq_directory h
    rw [List.cons_append, walk_of_passes hpasses, ih hnames]

/-- A blank name at the end of the way to a directory changes nothing. -/
theorem walk_of_concat_blank (h : fs.walk place (names ++ [""]) = .directory path) :
    fs.walk place names = .directory path := by
  induction names generalizing place with
  | nil => exact h
  | cons name names ih =>
    obtain ⟨hpasses, hnames⟩ := walk_eq_directory h
    rw [walk_of_passes hpasses, ih hnames]

/-- Is a text one that is followed name by name? -/
structure IsFollowed (text : String) : Prop where
  ne_empty : text ≠ ""
  not_nul : Char.ofNat 0 ∉ text.toList
  short : text.utf8ByteSize < 4096

theorem IsFollowed.find {text : String} (h : IsFollowed text) (fs : Files) :
    fs.find text = fs.walk (Path.start text) (Path.names text) := by
  have hempty : ¬text.isEmpty = true := fun hempty => h.ne_empty (String.isEmpty_iff.mp hempty)
  have hbarred : ¬(text.toList.contains (Char.ofNat 0) || decide (4096 ≤ text.utf8ByteSize)) = true
      := by
    rw [Bool.or_eq_true, List.contains_iff_mem, decide_eq_true_eq]
    exact not_or.mpr ⟨h.not_nul, Nat.not_le.mpr h.short⟩
  rw [Files.find, if_neg hempty, if_neg hbarred]

/-- A text that points to a directory is followed. -/
theorem isFollowed_of_find {text : String} (h : fs.find text = .directory path) :
    IsFollowed text := by
  unfold find at h
  split at h
  · cases h
  · rename_i hempty
    split at h
    · cases h
    · rename_i hbarred
      rw [Bool.or_eq_true, List.contains_iff_mem, decide_eq_true_eq] at hbarred
      obtain ⟨hnul, hlong⟩ := not_or.mp hbarred
      exact ⟨fun h => hempty (String.isEmpty_iff.mpr h), hnul, Nat.lt_of_not_le hlong⟩

/-- A directory that is there needs not be made. -/
theorem makeDirectories_of_find {text : String} (h : fs.find text = .directory path) :
    fs.makeDirectories text = (fs, true) := by
  have hlength : text.length ≠ 0 := fun hlength =>
    (isFollowed_of_find h).ne_empty (String.length_eq_zero_iff.mp hlength)
  obtain ⟨fuel, hfuel⟩ := Nat.exists_eq_succ_of_ne_zero hlength
  rw [makeDirectories, hfuel, Nat.succ_eq_add_one, makeDirectoriesIn]
  simp only [h, isDirectoryAt]

/-! ## The files in a directory -/

/-- Does a text point to a directory in which there are files only? -/
structure Flat (fs : Files) (directory : String) (path : Path) : Prop where
  place : fs.find directory = .directory path
  plain : ∀ p ∈ fs.directories, p.parent ≠ path

/-- Is a text a name of its own, and not one that steps through directories? -/
structure IsPlain (name : String) : Prop where
  not_dots : ¬(name = "" ∨ name = "." ∨ name = "..")
  not_slash : '/' ∉ name.toList
  not_nul : Char.ofNat 0 ∉ name.toList

/-- Is a name short enough, and its path too? -/
structure FitsIn (directory name : String) : Prop where
  short : name.utf8ByteSize ≤ 255
  shortPath : (Path.joinText directory name).utf8ByteSize < 4096

instance (directory name : String) : Decidable (FitsIn directory name) :=
  decidable_of_iff
    (name.utf8ByteSize ≤ 255 ∧ (Path.joinText directory name).utf8ByteSize < 4096)
    ⟨fun h => ⟨h.1, h.2⟩, fun h => ⟨h.short, h.shortPath⟩⟩

variable {directory name : String} {file : File}

/-- A name of more than two bytes is neither blank nor made of dots. -/
theorem not_dots_of_lt (h : 2 < name.utf8ByteSize) : ¬(name = "" ∨ name = "." ∨ name = "..") := by
  rintro (rfl | rfl | rfl)
  · exact absurd h (by decide)
  · exact absurd h (by decide)
  · exact absurd h (by decide)

/-- A directory stays as it is when its files change. -/
theorem Flat.of_eq {fs' : Files} (h : fs.Flat directory path)
    (heq : fs'.directories = fs.directories) : fs'.Flat directory path := by
  have hfollowed := isFollowed_of_find h.place
  constructor
  case place =>
    rw [hfollowed.find]
    exact walk_eq_directory_of_eq heq ((hfollowed.find fs).symm.trans h.place)
  case plain =>
    rw [heq]
    exact h.plain

namespace Flat

/-- A name behind the directory is looked for there. -/
theorem find_joinText (h : fs.Flat directory path) (hname : IsPlain name)
    (hshort : (Path.joinText directory name).utf8ByteSize < 4096) :
    fs.find (Path.joinText directory name) = fs.walk path [name] := by
  have hdirectory := isFollowed_of_find h.place
  have hplace := (hdirectory.find fs).symm.trans h.place
  obtain ⟨between, hjoin, hbetween⟩ :=
    Path.exists_joinText_eq hdirectory.ne_empty hname.not_slash
  rw [hjoin] at hshort ⊢
  have hnul : Char.ofNat 0 ∉ between.toList := by
    obtain rfl | ⟨rfl, -⟩ := hbetween
    · decide
    · decide
  have hfollowed : IsFollowed (directory ++ between ++ name) := by
    constructor
    case ne_empty =>
      exact fun hempty => hname.not_dots (Or.inl (String.append_eq_empty_iff.mp hempty).2)
    case not_nul =>
      rw [String.toList_append, String.toList_append, List.mem_append, List.mem_append]
      exact not_or.mpr ⟨not_or.mpr ⟨hdirectory.not_nul, hnul⟩, hname.not_nul⟩
    case short => exact hshort
  rw [hfollowed.find, String.append_assoc, Path.start_append hdirectory.ne_empty,
    ← String.append_assoc]
  obtain rfl | ⟨rfl, front, rfl⟩ := hbetween
  · rw [Path.names_append_slash directory hname.not_slash, walk_append hplace]
  · -- The directory ends with a slash: behind the slash its last name is blank.
    have hblank : Path.names (front ++ "/") = Path.names front ++ [""] := by
      have hslash : '/' ∉ ("").toList := by decide
      have hnames := Path.names_append_slash front hslash
      rwa [String.append_empty] at hnames
    rw [hblank] at hplace
    rw [String.append_empty, Path.names_append_slash front hname.not_slash,
      walk_append (walk_of_concat_blank hplace)]

/-- The way does not go on behind the name of a file. -/
theorem not_passes (h : fs.Flat directory path) (hname : IsPlain name) :
    ¬fs.passes path name := by
  refine not_or.mpr ⟨hname.not_dots, fun hpasses => ?_⟩
  have hdirectory := hpasses.2
  rw [step_eq_child hname.not_dots, isDirectory, Bool.or_eq_true, Bool.or_eq_true, beq_iff_eq,
    List.contains_iff_mem] at hdirectory
  obtain (hroot | hups) | hmem := hdirectory
  · have hlast := congrArg Path.name hroot
    rw [Path.name_child] at hlast
    exact hname.not_dots (Or.inl hlast)
  · rw [Path.child, List.all_append, Bool.and_eq_true, List.all_cons, Bool.and_eq_true,
      beq_iff_eq] at hups
    exact hname.not_dots (Or.inr (Or.inr hups.2.1))
  · exact h.plain _ hmem (path.parent_child name)

/-- A name behind the directory points to the file of that name. -/
theorem find_of_some (h : fs.Flat directory path) (hname : IsPlain name)
    (hfits : FitsIn directory name) (hfile : fs.file? (path.child name) = some file) :
    fs.find (Path.joinText directory name) = .file (path.child name) file := by
  rw [h.find_joinText hname hfits.shortPath,
    walk_last (h.not_passes hname) (decide_eq_true hfits.short), hfile]

/-- A name that no file of the directory has points to nothing there. -/
theorem find_of_none (h : fs.Flat directory path) (hname : IsPlain name)
    (hfits : FitsIn directory name) (hfile : fs.file? (path.child name) = none) :
    fs.find (Path.joinText directory name) = .free (path.child name) false := by
  rw [h.find_joinText hname hfits.shortPath,
    walk_last (h.not_passes hname) (decide_eq_true hfits.short), hfile]

end Flat

/-- The file of a name is one of those in the directory. -/
theorem file?_child (fs : Files) (path : Path) (name : String) :
    fs.file? (path.child name) = (fs.inDirectory path).lookup (path.child name) := by
  have hparent : ((path.child name).parent == path) = true := by
    rw [path.parent_child]
    exact beq_self_eq_true path
  have hlookup := lookup_filter_key (fun p : Path => p.parent == path) fs.files (path.child name)
  exact (hlookup.trans (if_pos hparent)).symm

/-- Of the files in a directory the one that is removed is gone. -/
theorem inDirectory_remove (fs : Files) (removed path : Path) :
    (fs.remove removed).inDirectory path =
      (fs.inDirectory path).filter fun entry => entry.1 != removed := by
  unfold inDirectory remove
  rw [List.filter_filter, List.filter_filter]
  exact List.filter_congr fun entry _ => Bool.and_comm _ _

theorem put_of_lookup_eq_none {entries : List (Path × File)} (h : entries.lookup path = none)
    (file : File) : put path file entries = entries ++ [(path, file)] := by
  induction entries with
  | nil => rfl
  | cons entry rest ih =>
    obtain ⟨p, f⟩ := entry
    rw [List.lookup_cons] at h
    by_cases hp : p = path
    · rw [hp, beq_self_eq_true] at h
      cases h
    · rw [beq_false_of_ne (Ne.symm hp)] at h
      rw [put, if_neg hp, ih h, List.cons_append]

/-- A file that is written under a new name is the last one of its directory. -/
theorem inDirectory_set_of_none (h : fs.file? (path.child name) = none) (file : File) :
    (fs.set (path.child name) file).inDirectory path =
      fs.inDirectory path ++ [(path.child name, file)] := by
  unfold inDirectory set
  rw [put_of_lookup_eq_none h, List.filter_append]
  refine congrArg _ (List.filter_cons_of_pos ?_)
  show ((path.child name).parent == path) = true
  rw [path.parent_child]
  exact beq_self_eq_true path

/-- A file that was written under a new name and is removed again leaves nothing behind. -/
theorem remove_set_of_none (h : fs.file? path = none) (file : File) :
    (fs.set path file).remove path = fs := by
  have hkept : ∀ entry ∈ fs.files, (entry.1 != path) = true := by
    intro entry hentry
    rw [bne_comm]
    exact List.lookup_eq_none_iff.mp h entry hentry
  have hgone : ¬(path != path) = true := by
    rw [bne_self_eq_false]
    exact Bool.false_ne_true
  have hlast : [(path, file)].filter (fun entry => entry.1 != path) = [] :=
    List.filter_cons_of_neg hgone
  have hfiles : (put path file fs.files).filter (fun entry => entry.1 != path) = fs.files := by
    rw [put_of_lookup_eq_none h, List.filter_append, List.filter_eq_self.mpr hkept, hlast,
      List.append_nil]
  exact congrArg (Files.mk fs.directories) hfiles

end Files

end SqlFederation
