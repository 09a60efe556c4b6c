import SqlFederation.Locks.Store
import SqlFederation.Proofs.Rows

/-!
# The files of lock keys

A lock directory has one file for each key. Different keys have different file names, because
base64 can be undone (`Directory.stem_injective`) and because its digits hold no slash, so the name
is the last step of the path that the key's text points to (`Directory.name_of_find_pathOf`). Taking
one file away leaves what all other texts point to (`Files.find_remove_of_ne`).
-/

namespace SqlFederation

/-! ## Base64 can be undone -/

namespace Base64

/-- Different values have different digits in the alphabet of file names. -/
theorem digit_injective {v w : Nat} (hv : v < 64) (hw : w < 64)
    (h : digit ('-', '_') v = digit ('-', '_') w) : v = w := by
  have hall : ∀ v w : Fin 64, digit ('-', '_') v = digit ('-', '_') w → v = w := by
    decide +kernel
  exact Fin.mk.inj (hall ⟨v, hv⟩ ⟨w, hw⟩ h)

/-- No digit of file names is a slash or ends a text. -/
theorem digit_ne (v : Nat) :
    digit ('-', '_') v ≠ '/' ∧ digit ('-', '_') v ≠ Char.ofNat 0 := by
  by_cases hv : v < 64
  · have hall : ∀ v : Fin 64,
        digit ('-', '_') v ≠ '/' ∧ digit ('-', '_') v ≠ Char.ofNat 0 := by
      decide +kernel
    exact hall ⟨v, hv⟩
  · rw [digit, if_neg (by omega), if_neg (by omega), if_neg (by omega), if_neg (by omega)]
    decide

/-- What is encoded for file names are digits. -/
theorem exists_digit_of_mem {c : Char} {bytes : List UInt8}
    (h : c ∈ encodeWith ('-', '_') [] bytes) : ∃ v, c = digit ('-', '_') v := by
  induction bytes using encodeWith.induct with
  | case1 => cases h
  | case2 a =>
    simp only [encodeWith, List.append_nil, List.mem_cons, List.not_mem_nil, or_false] at h
    obtain rfl | rfl := h
    all_goals exact ⟨_, rfl⟩
  | case3 a b =>
    simp only [encodeWith, List.mem_cons, List.not_mem_nil, or_false] at h
    obtain rfl | rfl | rfl := h
    all_goals exact ⟨_, rfl⟩
  | case4 a b c rest _ _ _ _ ih =>
    simp only [encodeWith, List.mem_cons] at h
    obtain rfl | rfl | rfl | rfl | hrest := h
    case inr.inr.inr.inr => exact ih hrest
    all_goals exact ⟨_, rfl⟩

section Groups

variable {a b c a' b' c' : UInt8} {x y : Nat}

/-- The first two digits of a group give its first byte, and what they say of the second one. -/
theorem first_byte (hx : x < 16) (hy : y < 16)
    (h₁ : digit ('-', '_') (a.toNat / 4) = digit ('-', '_') (a'.toNat / 4))
    (h₂ : digit ('-', '_') (a.toNat % 4 * 16 + x) = digit ('-', '_') (a'.toNat % 4 * 16 + y)) :
    a = a' ∧ x = y := by
  have ha := a.toNat_lt
  have ha' := a'.toNat_lt
  have hhigh := digit_injective (by omega) (by omega) h₁
  have hlow := digit_injective (by omega) (by omega) h₂
  exact ⟨UInt8.toNat_inj.mp (by omega), by omega⟩

/-- The third digit gives the rest of the second byte, and what it says of the third one. -/
theorem second_byte (hx : x < 4) (hy : y < 4) (hhigh : b.toNat / 16 = b'.toNat / 16)
    (h : digit ('-', '_') (b.toNat % 16 * 4 + x) = digit ('-', '_') (b'.toNat % 16 * 4 + y)) :
    b = b' ∧ x = y := by
  have hlow := digit_injective (by omega) (by omega) h
  exact ⟨UInt8.toNat_inj.mp (by omega), by omega⟩

/-- The last digit gives the rest of the third byte. -/
theorem third_byte (hhigh : c.toNat / 64 = c'.toNat / 64)
    (h : digit ('-', '_') (c.toNat % 64) = digit ('-', '_') (c'.toNat % 64)) : c = c' := by
  have hlow := digit_injective (by omega) (by omega) h
  exact UInt8.toNat_inj.mp (by omega)

end Groups

/-- A byte shifted right is as small as the bits that are left. -/
theorem toNat_div_lt (byte : UInt8) : byte.toNat / 16 < 16 ∧ byte.toNat / 64 < 4 := by
  have := byte.toNat_lt
  omega

/-- What is encoded for file names can be told from the digits. -/
theorem encodeWith_injective (xs ys : List UInt8)
    (h : encodeWith ('-', '_') [] xs = encodeWith ('-', '_') [] ys) : xs = ys := by
  -- Texts of digits of different shapes differ in length, and in the same shape byte by byte.
  induction xs using encodeWith.induct generalizing ys with
  | case1 =>
    obtain _ | ⟨a', _ | ⟨b', _ | ⟨c', rest'⟩⟩⟩ := ys
    · rfl
    all_goals simp [encodeWith] at h
  | case2 a =>
    obtain _ | ⟨a', _ | ⟨b', _ | ⟨c', rest'⟩⟩⟩ := ys
    case cons.nil =>
      simp only [encodeWith, List.append_nil, List.cons.injEq, and_true] at h
      obtain ⟨rfl, -⟩ := first_byte (x := 0) (y := 0) (by decide) (by decide) h.1 h.2
      rfl
    all_goals simp [encodeWith] at h
  | case3 a b =>
    obtain _ | ⟨a', _ | ⟨b', _ | ⟨c', rest'⟩⟩⟩ := ys
    case cons.cons.nil =>
      simp only [encodeWith, List.cons.injEq, and_true] at h
      obtain ⟨rfl, hb⟩ := first_byte (toNat_div_lt b).1 (toNat_div_lt b').1 h.1 h.2.1
      obtain ⟨rfl, -⟩ := second_byte (x := 0) (y := 0) (by decide) (by decide) hb h.2.2
      rfl
    all_goals simp [encodeWith] at h
  | case4 a b c rest _ _ _ _ ih =>
    obtain _ | ⟨a', _ | ⟨b', _ | ⟨c', rest'⟩⟩⟩ := ys
    case cons.cons.cons =>
      simp only [encodeWith, List.cons.injEq] at h
      obtain ⟨rfl, hb⟩ := first_byte (toNat_div_lt b).1 (toNat_div_lt b').1 h.1 h.2.1
      obtain ⟨rfl, hc⟩ := second_byte (toNat_div_lt c).2 (toNat_div_lt c').2 hb h.2.2.1
      rw [third_byte hc h.2.2.2.1, ih rest' h.2.2.2.2]
    all_goals simp [encodeWith] at h

/-- The bytes of an array from a place on are read behind those that were read before. -/
theorem toList_loop (bytes : ByteArray) (i : Nat) (read : List UInt8) :
    ByteArray.toList.loop bytes i read = read.reverse ++ bytes.data.toList.drop i := by
  induction i, read using ByteArray.toList.loop.induct bytes with
  | case1 i read hi ih =>
    have hget : bytes.get! i = bytes.data.toList[i] := by
      rw [Array.getElem_toList]
      exact getElem!_pos bytes.data i hi
    rw [ByteArray.toList.loop, if_pos hi, ih, List.reverse_cons, List.append_assoc, hget,
      List.singleton_append, ← List.drop_eq_getElem_cons]
  | case2 i read hi =>
    rw [ByteArray.toList.loop, if_neg hi, List.drop_eq_nil_of_le (Nat.le_of_not_lt hi),
      List.append_nil]

theorem bytesOf_eq (s : String) : bytesOf s = s.toUTF8.data.toList := by
  rw [bytesOf, ByteArray.toList, toList_loop]
  rfl

theorem bytesOf_injective {s t : String} (h : bytesOf s = bytesOf t) : s = t := by
  rw [bytesOf_eq, bytesOf_eq] at h
  exact String.toByteArray_inj.mp (ByteArray.ext (Array.toList_inj.mp h))

end Base64

/-! ## Names and paths -/

namespace Path

/-- A text without slashes is one part. -/
theorem splitSlash_of_not_mem {text : List Char} (h : '/' ∉ text) : splitSlash text = [text] := by
  induction text with
  | nil => rfl
  | cons c rest ih =>
    rw [List.mem_cons, not_or] at h
    rw [splitSlash, if_neg (Ne.symm h.1), ih h.2]

theorem splitSlash_ne_nil (text : List Char) : splitSlash text ≠ [] := by
  induction text with
  | nil => exact List.cons_ne_nil _ _
  | cons c rest ih =>
    rw [splitSlash]
    split
    · exact List.cons_ne_nil _ _
    · split
      · exact List.cons_ne_nil _ _
      · exact List.cons_ne_nil _ _

/-- A slash splits a text into the parts before it and the parts behind it. -/
theorem splitSlash_append (front text : List Char) :
    splitSlash (front ++ '/' :: text) = splitSlash front ++ splitSlash text := by
  induction front with
  | nil => exact if_pos rfl
  | cons c rest ih =>
    rw [List.cons_append, splitSlash, splitSlash, ih]
    by_cases hc : c = '/'
    · rw [if_pos hc, if_pos hc, List.cons_append]
    · rw [if_neg hc, if_neg hc]
      cases hrest : splitSlash rest with
      | nil => exact absurd hrest (splitSlash_ne_nil rest)
      | cons part parts => rfl

/-- A text without slashes is one name. -/
theorem names_of_not_mem {name : String} (h : '/' ∉ name.toList) : names name = [name] := by
  rw [names, splitSlash_of_not_mem h, List.map_singleton, String.ofList_toList]

/-- What stands behind a slash is the last name. -/
theorem names_append_slash (front : String) {name : String} (h : '/' ∉ name.toList) :
    names (front ++ "/" ++ name) = names front ++ [name] := by
  unfold names
  rw [String.toList_append, String.toList_append, List.append_assoc]
  show (splitSlash (front.toList ++ '/' :: name.toList)).map String.ofList = _
  rw [splitSlash_append, splitSlash_of_not_mem h, List.map_append, List.map_singleton,
    String.ofList_toList]

theorem isAbsolute_iff {text : String} : isAbsolute text = true ↔ text.toList.head? = some '/' := by
  unfold isAbsolute
  split
  · rename_i hslash
    rw [hslash]
    exact iff_of_true rfl rfl
  · rename_i hother
    refine iff_of_false Bool.false_ne_true fun hhead => ?_
    obtain ⟨rest, hslash⟩ := List.head?_eq_some_iff.mp hhead
    exact hother rest hslash

/-- A name is put behind a directory with a slash between them, unless there is one. -/
theorem exists_joinText_eq {directory : String} (hdirectory : directory ≠ "") {name : String}
    (hname : '/' ∉ name.toList) :
    ∃ between, joinText directory name = directory ++ between ++ name ∧
      (between = "/" ∨ between = "" ∧ ∃ front, directory = front ++ "/") := by
  have hrelative : ¬(isAbsolute name = true ∨ directory = "") :=
    not_or.mpr ⟨fun h => hname (List.mem_of_mem_head? (isAbsolute_iff.mp h)), hdirectory⟩
  unfold joinText
  rw [if_neg hrelative]
  by_cases hslash : directory.toList.getLast? = some '/'
  · rw [if_pos hslash]
    obtain ⟨front, hfront⟩ := List.getLast?_eq_some_iff.mp hslash
    refine ⟨"", by rw [String.append_empty], Or.inr ⟨rfl, String.ofList front, ?_⟩⟩
    rw [← String.toList_inj, hfront, String.toList_append, String.toList_ofList]
    rfl
  · rw [if_neg hslash]
    exact ⟨"/", rfl, Or.inl rfl⟩

/-- The last name of a text below a directory is the name that was put there. -/
theorem getLast?_names_joinText (directory : String) {name : String} (h : '/' ∉ name.toList) :
    (names (joinText directory name)).getLast? = some name := by
  by_cases hdirectory : directory = ""
  · rw [joinText, if_pos (Or.inr hdirectory), names_of_not_mem h]
    rfl
  · obtain ⟨between, hjoin, rfl | ⟨rfl, front, rfl⟩⟩ := exists_joinText_eq hdirectory h
    · rw [hjoin, names_append_slash directory h, List.getLast?_concat]
    · rw [hjoin, String.append_empty, names_append_slash front h, List.getLast?_concat]

theorem name_child (path : Path) (name : String) : (path.child name).name = name := by
  rw [Path.name, child, List.getLast?_concat]
  rfl

end Path

namespace Files

variable {fs : Files}

/-- Does the way to a file go on behind a name? -/
def passes (fs : Files) (place : Path) (name : String) : Prop :=
  (name = "" ∨ name = "." ∨ name = "..") ∨
    (fits name = true ∧ fs.isDirectory (place.step name) = true)

theorem walk_of_passes {place : Path} {name : String} (h : fs.passes place name)
    (rest : List String) : fs.walk place (name :: rest) = fs.walk (place.step name) rest := by
  rw [walk]
  by_cases hdots : name = "" ∨ name = "." ∨ name = ".."
  · rw [if_pos hdots]
  · obtain ⟨hfits, hdirectory⟩ := h.resolve_left hdots
    rw [if_neg hdots, hfits, hdirectory]
    rfl

theorem step_eq_child {place : Path} {name : String}
    (h : ¬(name = "" ∨ name = "." ∨ name = "..")) : place.step name = place.child name := by
  obtain ⟨hempty, hdot, hup⟩ : name ≠ "" ∧ name ≠ "." ∧ name ≠ ".." := by simpa using h
  rw [Path.step, if_neg (not_or.mpr ⟨hempty, hdot⟩), if_neg hup]

/-- Where the way does not go on, it ends at a file or at nothing. -/
theorem walk_of_not_passes {place : Path} {name : String} (h : ¬fs.passes place name)
    (rest : List String) :
    fs.walk place (name :: rest) =
      if fits name = true then
        match fs.file? (place.child name) with
        | some file => if rest.isEmpty then .file (place.child name) file else .barred
        | none =>
          if rest.all (· == "") then .free (place.child name) (!rest.isEmpty) else .missing
      else .barred := by
  obtain ⟨hdots, hdirectory⟩ := not_or.mp h
  rw [walk, if_neg hdots]
  by_cases hfits : fits name = true
  · have hmissing : ¬fs.isDirectory (place.child name) = true := by
      rw [← step_eq_child hdots]
      exact fun h => hdirectory ⟨hfits, h⟩
    simp only [hfits, Bool.not_true, Bool.false_eq_true, if_false, if_true, step_eq_child hdots]
    exact if_neg hmissing
  · rw [if_neg hfits, Bool.eq_false_iff.mpr hfits]
    rfl

/-- Where the way does not go on, the last name is that of a file or free. -/
theorem walk_last {place : Path} {name : String} (h : ¬fs.passes place name)
    (hfits : fits name = true) :
    fs.walk place [name] =
      match fs.file? (place.child name) with
      | some file => .file (place.child name) file
      | none => .free (place.child name) false := by
  rw [walk_of_not_passes h, if_pos hfits]
  rfl

/-- A way to a file goes on behind a name, or the name is the last one and that of the file. -/
theorem walk_eq_file {place path : Path} {file : File} {name : String} {rest : List String}
    (h : fs.walk place (name :: rest) = .file path file) :
    (fs.passes place name ∧ fs.walk (place.step name) rest = .file path file) ∨
      (¬fs.passes place name ∧ fits name = true ∧ rest = [] ∧ path = place.child name ∧
        fs.file? path = some file) := by
  by_cases hpasses : fs.passes place name
  · exact Or.inl ⟨hpasses, walk_of_passes hpasses rest ▸ h⟩
  · rw [walk_of_not_passes hpasses] at h
    split at h
    · -- The way ends here, and at a file only if there is one and no name is left.
      split at h
      · split at h
        · cases h
          exact Or.inr ⟨hpasses, ‹_›, List.isEmpty_iff.mp ‹_›, rfl, ‹_›⟩
        · cases h
      · split at h
        · cases h
        · cases h
    · cases h

/-- A file that is found has the last name on the way. -/
theorem getLast?_of_walk {place path : Path} {file : File} {names : List String}
    (h : fs.walk place names = .file path file) : names.getLast? = some path.name := by
  induction names generalizing place with
  | nil => cases h
  | cons name rest ih =>
    obtain ⟨-, hwalk⟩ | ⟨-, -, rfl, rfl, -⟩ := walk_eq_file h
    · rw [List.getLast?_cons, ih hwalk]
      rfl
    · rw [Path.name_child]
      rfl

/-- Where one file is taken away, the others are still there. -/
theorem file?_remove (fs : Files) (removed path : Path) :
    (fs.remove removed).file? path = if path = removed then none else fs.file? path := by
  unfold remove file?
  rw [lookup_filter_key fun p => p != removed]
  by_cases hpath : path = removed
  · rw [if_pos hpath, hpath, bne_self_eq_false, if_neg Bool.false_ne_true]
  · rw [if_neg hpath, bne_iff_ne.mpr hpath, if_pos rfl]

/-- A file that is set is there. -/
theorem file?_set_self (fs : Files) (path : Path) (file : File) :
    (fs.set path file).file? path = some file := by
  show (put path file fs.files).lookup path = some file
  induction fs.files with
  | nil => exact List.lookup_cons_self
  | cons entry rest ih =>
    obtain ⟨other, old⟩ := entry
    rw [put]
    by_cases hother : other = path
    · rw [if_pos hother, hother, List.lookup_cons_self]
    · rw [if_neg hother, List.lookup_cons, beq_false_of_ne (Ne.symm hother)]
      exact ih

/-- Taking a file away leaves the way to another one. -/
theorem walk_remove_of_ne {place path removed : Path} {file : File} {names : List String}
    (h : fs.walk place names = .file path file) (hne : path ≠ removed) :
    (fs.remove removed).walk place names = .file path file := by
  induction names generalizing place with
  | nil => cases h
  | cons name rest ih =>
    obtain ⟨hpasses, hwalk⟩ | ⟨hlast, hfits, rfl, rfl, hfile⟩ := walk_eq_file h
    · -- Which names are those of directories does not depend on the files.
      have hpasses' : (fs.remove removed).passes place name := hpasses
      rw [walk_of_passes hpasses', ih hwalk]
    · have hlast' : ¬(fs.remove removed).passes place name := hlast
      rw [walk_last hlast' hfits, file?_remove, if_neg hne, hfile]

/-- Where a file was taken away, the way ends at nothing. -/
theorem walk_remove_self {place path : Path} {file : File} {names : List String}
    (h : fs.walk place names = .file path file) :
    (fs.remove path).walk place names = .free path false := by
  induction names generalizing place with
  | nil => cases h
  | cons name rest ih =>
    obtain ⟨hpasses, hwalk⟩ | ⟨hlast, hfits, rfl, rfl, hfile⟩ := walk_eq_file h
    · have hpasses' : (fs.remove path).passes place name := hpasses
      rw [walk_of_passes hpasses', ih hwalk]
    · have hlast' : ¬(fs.remove (place.child name)).passes place name := hlast
      rw [walk_last hlast' hfits, file?_remove, if_pos rfl]

/-- A text that points to a file is followed name by name whatever files there are. -/
theorem find_eq_walk {text : String} {path : Path} {file : File}
    (h : fs.find text = .file path file) (fs' : Files) :
    fs'.find text = fs'.walk (Path.start text) (Path.names text) := by
  unfold find at h ⊢
  split at h
  · cases h
  · split at h
    · cases h
    · rw [if_neg ‹_›, if_neg ‹_›]

/-- Taking a file away leaves another one where it is. -/
theorem find_remove_of_ne {text : String} {path removed : Path} {file : File}
    (h : fs.find text = .file path file) (hne : path ≠ removed) :
    (fs.remove removed).find text = .file path file := by
  rw [find_eq_walk h]
  exact walk_remove_of_ne ((find_eq_walk h fs).symm.trans h) hne

/-- Where a file was taken away there is nothing. -/
theorem find_remove_self {text : String} {path : Path} {file : File}
    (h : fs.find text = .file path file) : (fs.remove path).find text = .free path false := by
  rw [find_eq_walk h]
  exact walk_remove_self ((find_eq_walk h fs).symm.trans h)

/-- A text that points to a file ends with the name of the file. -/
theorem name_of_find {text : String} {path : Path} {file : File}
    (h : fs.find text = .file path file) : (Path.names text).getLast? = some path.name :=
  getLast?_of_walk ((find_eq_walk h fs).symm.trans h)

end Files

/-! ## The files of keys -/

namespace Locks

namespace Directory

theorem stem_eq (key : String) :
    stem key =
      String.ofList (Base64.encodeWith ('-', '_') [] key.toUTF8.data.toList) := by
  rw [stem, Base64.encodeUrl, Base64.bytesOf_eq]

theorem stem_empty : stem "" = "" := stem_eq ""

theorem stem_injective {a b : String} (h : stem a = stem b) : a = b :=
  Base64.bytesOf_injective (Base64.encodeWith_injective _ _ (String.ofList_injective h))

/-- The name of a key without its ending neither holds a slash nor ends a text. -/
theorem not_mem_stem (key : String) :
    '/' ∉ (stem key).toList ∧ Char.ofNat 0 ∉ (stem key).toList := by
  rw [stem, Base64.encodeUrl, String.toList_ofList]
  constructor
  · intro hmem
    obtain ⟨v, hv⟩ := Base64.exists_digit_of_mem hmem
    exact (Base64.digit_ne v).1 hv.symm
  · intro hmem
    obtain ⟨v, hv⟩ := Base64.exists_digit_of_mem hmem
    exact (Base64.digit_ne v).2 hv.symm

theorem slash_not_mem_fileName (key : String) : '/' ∉ (stem key ++ ".lock").toList := by
  rw [String.toList_append, List.mem_append, not_or]
  exact ⟨(not_mem_stem key).1, by decide⟩

/-- The file of a key has the name of the key. -/
theorem name_of_find_pathOf {fs : Files} {directory key : String} {path : Path} {file : File}
    (h : fs.find (pathOf directory key) = .file path file) : path.name = stem key ++ ".lock" := by
  have hlast := Files.name_of_find h
  rw [pathOf, Path.getLast?_names_joinText directory (slash_not_mem_fileName key)] at hlast
  exact (Option.some.inj hlast).symm

/-- Different keys have different files. -/
theorem path_ne {fs : Files} {directory a b : String} {p q : Path} {f g : File} (hne : a ≠ b)
    (ha : fs.find (pathOf directory a) = .file p f)
    (hb : fs.find (pathOf directory b) = .file q g) : p ≠ q := by
  intro hpq
  have hnames : stem a ++ ".lock" = stem b ++ ".lock" := by
    rw [← name_of_find_pathOf ha, ← name_of_find_pathOf hb, hpq]
  exact hne (stem_injective ((String.append_left_inj _).mp hnames))

end Directory

end Locks

end SqlFederation
