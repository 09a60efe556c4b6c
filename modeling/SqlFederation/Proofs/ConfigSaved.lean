import Mathlib
import SqlFederation.Config.Location
import SqlFederation.Proofs.ConfigJson
import SqlFederation.Proofs.LockFiles
import SqlFederation.Proofs.Outcome

/-!
# Configurations that are saved and loaded

A file that is written is found where it was written (`Files.find_of_write`). The reader of a
configuration passes over entries that no record has; in what a configuration is written as there
are none (`Config.seen_toJson`), so it sees all of it (`Json.Draft.shown?_of_value?`). Given that
the text of a configuration is read as the document that it was printed from, the configuration
that was saved is loaded as it was (`Config.load_after_save`).
-/

namespace SqlFederation

/-! ## Values of which a reader sees everything -/

namespace Json

/-- Does a reader look at all of a value? -/
inductive Seen : Shape → Json → Prop where
  | whole (value : Json) : Seen .whole value
  | record {parts : List (String × Shape)} {entries : List (String × Json)}
      (hknown : ∀ entry ∈ entries, (parts.lookup entry.1).isSome = true)
      (hseen : ∀ entry ∈ entries, ∀ shape, parts.lookup entry.1 = some shape →
        Seen shape entry.2) :
      Seen (.record parts) (.obj entries)
  | each {item : Shape} {items : List Json} (h : ∀ value ∈ items, Seen item value) :
      Seen (.each item) (.arr items)

namespace Draft

variable {depth : Nat} {draft : Draft}

/-- Entries that are all looked at, and seen as they are, are those that are there. -/
theorem shownEntries?_of_entryValues? {parts : List (String × Shape)}
    {drafts : List (Option String × Draft)} {entries : List (String × Json)}
    (hvalues : entryValues? depth drafts = some entries)
    (hknown : ∀ entry ∈ entries, (parts.lookup entry.1).isSome = true)
    (hread : ∀ entry ∈ entries, ∀ shape, parts.lookup entry.1 = some shape →
      ∀ draft : Draft, draft.value? depth = some entry.2 →
        draft.shown? depth shape = some entry.2) :
    shownEntries? depth parts drafts = some entries := by
  induction drafts generalizing entries with
  | nil => exact hvalues
  | cons entry rest ih =>
    obtain ⟨key, draft⟩ := entry
    rw [entryValues?] at hvalues
    obtain ⟨name, rfl, hname⟩ := Option.bind_eq_some_iff.mp hvalues
    obtain ⟨value, hvalue, hbehind⟩ := Option.bind_eq_some_iff.mp hname
    obtain ⟨values, hrest, hentries⟩ := Option.bind_eq_some_iff.mp hbehind
    obtain rfl := Option.some.inj hentries
    rw [List.forall_mem_cons] at hknown hread
    obtain ⟨shape, hshape⟩ := Option.isSome_iff_exists.mp hknown.1
    rw [shownEntries?]
    simp only [hshape, hread.1 shape hshape draft hvalue, ih hrest hknown.2 hread.2,
      Option.bind_eq_bind, Option.bind_some]

theorem shownItems?_of_itemValues? {shape : Shape} {drafts : List Draft} {items : List Json}
    (hvalues : itemValues? depth drafts = some items)
    (hread : ∀ item ∈ items, ∀ draft : Draft, draft.value? depth = some item →
      draft.shown? depth shape = some item) :
    shownItems? depth shape drafts = some items := by
  induction drafts generalizing items with
  | nil => exact hvalues
  | cons draft rest ih =>
    rw [itemValues?] at hvalues
    obtain ⟨value, hvalue, hbehind⟩ := Option.bind_eq_some_iff.mp hvalues
    obtain ⟨values, hrest, hitems⟩ := Option.bind_eq_some_iff.mp hbehind
    obtain rfl := Option.some.inj hitems
    rw [List.forall_mem_cons] at hread
    rw [shownItems?]
    simp only [hread.1 draft hvalue, ih hrest hread.2, Option.bind_eq_bind, Option.bind_some]

/-- The draft of an object has drafts of the entries. -/
theorem exists_of_value?_obj {entries : List (String × Json)}
    (h : draft.value? depth = some (.obj entries)) :
    ∃ drafts below, draft = .obj drafts ∧ depth = below + 1 ∧
      entryValues? below drafts = some entries := by
  cases depth with
  | zero => cases draft <;> simp [value?] at h
  | succ below =>
    cases draft with
    | obj drafts => exact ⟨drafts, below, rfl, rfl, by simpa [value?] using h⟩
    | _ => simp [value?] at h

/-- The draft of a list has drafts of the items. -/
theorem exists_of_value?_arr {items : List Json} (h : draft.value? depth = some (.arr items)) :
    ∃ drafts below, draft = .arr drafts ∧ depth = below + 1 ∧
      itemValues? below drafts = some items := by
  cases depth with
  | zero => cases draft <;> simp [value?] at h
  | succ below =>
    cases draft with
    | arr drafts => exact ⟨drafts, below, rfl, rfl, by simpa [value?] using h⟩
    | _ => simp [value?] at h

/-- A reader that looks at all of a value sees the value. -/
theorem shown?_of_value? {shape : Shape} {value : Json} (hseen : Seen shape value)
    (h : draft.value? depth = some value) : draft.shown? depth shape = some value := by
  -- The induction is on where the reader looks; what it takes whole is read as any value is.
  induction hseen generalizing draft depth with
  | whole value => rwa [shown?]
  | record hknown _ ih =>
    obtain ⟨drafts, below, rfl, rfl, hvalues⟩ := exists_of_value?_obj h
    have hentries := shownEntries?_of_entryValues? hvalues hknown fun entry hentry shape hshape
      draft hdraft => ih entry hentry shape hshape hdraft
    rw [shown?, hentries]
    rfl
  | each _ ih =>
    obtain ⟨drafts, below, rfl, rfl, hvalues⟩ := exists_of_value?_arr h
    have hitems := shownItems?_of_itemValues? hvalues fun item hitem draft hdraft =>
      ih item hitem hdraft
    rw [shown?, hitems]
    rfl

end Draft

/-- A text that is read as a value is read by a reader that looks at all of the value. -/
theorem readShown?_of_read? {shape : Shape} {text : String} {value : Json}
    (hseen : Seen shape value) (h : read? text = some value) :
    readShown? shape text = some value := by
  obtain ⟨draft, hdraft, hvalue⟩ := Option.bind_eq_some_iff.mp h
  rw [readShown?, hdraft]
  exact Draft.shown?_of_value? hseen hvalue

/-- Of an object with known keys everything is seen if everything is seen of each entry. -/
theorem Seen.of_entries {parts : List (String × Shape)} {entries : List (String × Json)}
    (h : ∀ entry ∈ entries, ∃ shape, parts.lookup entry.1 = some shape ∧ Seen shape entry.2) :
    Seen (.record parts) (.obj entries) := by
  refine .record (fun entry hentry => ?_) fun entry hentry shape hshape => ?_
  · obtain ⟨shape, hshape, -⟩ := h entry hentry
    rw [hshape]
    rfl
  · obtain ⟨known, hknown, hseen⟩ := h entry hentry
    obtain rfl := Option.some.inj (hknown.symm.trans hshape)
    exact hseen

/-- Of a list that is written item by item everything is seen if everything is seen of each item. -/
theorem Seen.of_items {α : Type} {item : Shape} {toJson : α → Json} {items : List α}
    (h : ∀ a ∈ items, Seen item (toJson a)) : Seen (.each item) (.arr (items.map toJson)) :=
  .each fun value hvalue => by
    obtain ⟨a, ha, rfl⟩ := List.mem_map.mp hvalue
    exact h a ha

theorem forall_mem_entry?_iff {name : String} {value : Option Json} {p : String × Json → Prop} :
    (∀ entry ∈ entry? name value, p entry) ↔ ∀ v ∈ value, p (name, v) := by
  cases value with
  | none => simp [Json.entry?]
  | some v => simp [Json.entry?]

end Json

/-! ## Files that are written -/

/-- The path at which a file can be written. -/
def Spot.target? : Spot → Option Path
  | .file path _ | .free path false => some path
  | _ => none

namespace Files

variable {fs : Files} {file : File}

theorem write_eq (fs : Files) (text : String) (file : File) :
    fs.write text file = (fs.find text).target?.map fun path => fs.set path file := by
  unfold write
  split
  all_goals simp_all [Spot.target?]

/-- A way to where a file is written goes on behind a name, or the name is the last one. -/
theorem target?_walk {place path : Path} {name : String} {rest : List String}
    (h : (fs.walk place (name :: rest)).target? = some path) :
    (fs.passes place name ∧ (fs.walk (place.step name) rest).target? = some path) ∨
      (¬fs.passes place name ∧ fits name = true ∧ rest = [] ∧ path = place.child name) := by
  by_cases hpasses : fs.passes place name
  · exact Or.inl ⟨hpasses, walk_of_passes hpasses rest ▸ h⟩
  · rw [walk_of_not_passes hpasses] at h
    split at h
    · -- Behind the last name there is no further one, whether or not there is a file already.
      split at h
      · split at h
        · exact Or.inr ⟨hpasses, ‹_›, List.isEmpty_iff.mp ‹_›, (Option.some.inj h).symm⟩
        · cases h
      · split at h
        · cases rest with
          | nil => exact Or.inr ⟨hpasses, ‹_›, rfl, (Option.some.inj h).symm⟩
          | cons next rest => cases h
        · cases h
    · cases h

/-- The way to where a file is written ends at the file. -/
theorem walk_set_self {place path : Path} {names : List String}
    (h : (fs.walk place names).target? = some path) :
    (fs.set path file).walk place names = .file path file := by
  induction names generalizing place with
  | nil => cases h
  | cons name rest ih =>
    obtain ⟨hpasses, hwalk⟩ | ⟨hlast, hfits, rfl, rfl⟩ := target?_walk h
    · -- Which names are those of directories does not depend on the files.
      have hpasses' : (fs.set path file).passes place name := hpasses
      rw [walk_of_passes hpasses', ih hwalk]
    · have hlast' : ¬(fs.set (place.child name) file).passes place name := hlast
      rw [walk_last hlast' hfits, file?_set_self]

/-- A file that was written is found. -/
theorem find_of_write {text : String} {fs' : Files} (h : fs.write text file = some fs') :
    ∃ path, fs'.find text = .file path file := by
  rw [write_eq] at h
  obtain ⟨path, htarget, rfl⟩ := Option.map_eq_some_iff.mp h
  refine ⟨path, ?_⟩
  unfold find at htarget ⊢
  split
  · rw [if_pos ‹_›] at htarget
    cases htarget
  · rw [if_neg ‹_›] at htarget
    split
    · rw [if_pos ‹_›] at htarget
      cases htarget
    · rw [if_neg ‹_›] at htarget
      exact walk_set_self htarget

end Files

/-! ## What a configuration is written as -/

theorem ShardEntry.seen_toJson (entry : ShardEntry) :
    Json.Seen (.record [("id", .whole), ("link", .whole)]) entry.toJson := by
  refine .of_entries ?_
  simp only [List.forall_mem_cons]
  exact ⟨⟨_, rfl, .whole _⟩, ⟨_, rfl, .whole _⟩, by simp⟩

theorem TableEntry.seen_toJson (entry : TableEntry) :
    Json.Seen (.record [("table", .whole), ("key", .whole), ("ranges", .whole)]) entry.toJson := by
  refine .of_entries ?_
  simp only [List.forall_mem_cons]
  exact ⟨⟨_, rfl, .whole _⟩, ⟨_, rfl, .whole _⟩, ⟨_, rfl, .whole _⟩, by simp⟩

theorem ShardedEntry.seen_toJson (entry : ShardedEntry) :
    Json.Seen (.record [("name", .whole),
      ("shards", .each (.record [("id", .whole), ("link", .whole)])),
      ("tables", .each (.record [("table", .whole), ("key", .whole), ("ranges", .whole)]))])
      entry.toJson := by
  refine .of_entries ?_
  simp only [List.forall_mem_cons]
  exact ⟨⟨_, rfl, .whole _⟩, ⟨_, rfl, .of_items fun shard _ => shard.seen_toJson⟩,
    ⟨_, rfl, .of_items fun table _ => table.seen_toJson⟩, by simp⟩

theorem ReplicatedEntry.seen_toJson (entry : ReplicatedEntry) :
    Json.Seen (.record [("name", .whole), ("primary", .whole), ("mirrors", .whole),
      ("readPolicy", .whole), ("syncBlockSize", .whole)]) entry.toJson := by
  refine .of_entries ?_
  rw [List.forall_mem_append, Json.forall_mem_entry?_iff]
  simp only [List.forall_mem_cons]
  exact ⟨⟨⟨_, rfl, .whole _⟩, ⟨_, rfl, .whole _⟩, ⟨_, rfl, .whole _⟩, ⟨_, rfl, .whole _⟩, by simp⟩,
    fun size _ => ⟨_, rfl, .whole size⟩⟩

namespace Config

variable {config : Config}

/-- The reader of a configuration sees all of what a configuration is written as. -/
theorem seen_toJson (config : Config) : Json.Seen shape config.toJson := by
  refine Json.Seen.of_entries ?_
  rw [List.forall_mem_append, List.forall_mem_append, Json.forall_mem_entry?_iff]
  simp only [List.forall_mem_cons]
  refine ⟨⟨⟨⟨_, rfl, .whole _⟩, ⟨_, rfl, .whole _⟩, by simp⟩, fun name _ => ⟨_, rfl, .whole name⟩⟩,
    ?_, ?_, ⟨_, rfl, .whole _⟩, by simp⟩
  · exact ⟨_, rfl, .of_items fun entry _ => entry.seen_toJson⟩
  · exact ⟨_, rfl, .of_items fun entry _ => entry.seen_toJson⟩

/-- A text that is read as the document of a configuration says the configuration. -/
theorem ofText?_text (hfits : config.Fits) (htext : Json.read? config.text = some config.toJson) :
    ofText? config.text = some config := by
  rw [ofText?, Json.readShown?_of_read? config.seen_toJson htext]
  exact ofJson?_toJson hfits

/-- What was saved is in the file. -/
theorem find_of_save {path : String} {room after : Locks.Room}
    (h : (config.save path).outcome room = (.ok (), after)) :
    ∃ place, after.files.find path = .file place ⟨.text config.text, room.now⟩ := by
  rw [save, Call.outcome_of] at h
  split at h
  · rename_i files hwrite
    obtain rfl := (Prod.mk.inj h).2
    exact Files.find_of_write hwrite
  · cases (Prod.mk.inj h).1

/-- A configuration that was saved is loaded as it was, with the directory of its file. -/
theorem load_after_save (hfits : config.Fits)
    (htext : Json.read? config.text = some config.toJson) {path : String}
    {room after : Locks.Room} (hsave : (config.save path).outcome room = (.ok (), after)) :
    load path after.files = .ok ⟨config, Path.parentText? path⟩ := by
  obtain ⟨place, hfind⟩ := find_of_save hsave
  have hpresent : after.files.isPresentAt path = true := by
    rw [Files.isPresentAt, hfind]
  have htext? : (after.files.fileAt? path).bind File.text? = some config.text := by
    rw [Files.fileAt?, hfind]
    rfl
  simp only [load, hpresent, htext?, ofText?_text hfits htext, Bool.not_true, Bool.false_eq_true,
    if_false]

/--
Saving and loading a configuration loses nothing: it is read back from the document that it is
written as, and if the text of that document is read as the document again, then from every file
that it is saved to.
-/
theorem kept_by_save_and_load (hfits : config.Fits) :
    ofJson? config.toJson = some config ∧
      (Json.read? config.text = some config.toJson →
        ∀ (path : String) (room after : Locks.Room),
          (config.save path).outcome room = (.ok (), after) →
            load path after.files = .ok ⟨config, Path.parentText? path⟩) :=
  ⟨ofJson?_toJson hfits, fun htext _ _ _ hsave => load_after_save hfits htext hsave⟩

/-- A table over two databases, a mirror of one of them, and locks in files. -/
def twoRegions : Config :=
  ⟨"1", [("archive", .file "data/archive.db"), ("cache", .memory)], some "cache",
    [⟨"people", [⟨0, "archive"⟩, ⟨1, "cache"⟩],
      [⟨"users", "id", [⟨0, ⟨none, some 100⟩, none⟩, ⟨1, ⟨some 101, none⟩, some "users_1"⟩]⟩]⟩],
    [⟨"mirrored", "archive", ["cache"], .mirrorsOnly, some 64⟩],
    ⟨.directory "locks", "fleet", 30⟩⟩

theorem twoRegions_fits : twoRegions.Fits where
  links := by decide
  sharded := by
    have hlow : ShardRange.Fits ⟨0, ⟨none, some 100⟩, none⟩ :=
      ⟨by decide, by decide, by decide⟩
    have hhigh : ShardRange.Fits ⟨1, ⟨some 101, none⟩, some "users_1"⟩ :=
      ⟨by decide, by decide, by decide⟩
    have hranges := List.forall_mem_cons.mpr ⟨hlow, List.forall_mem_singleton.mpr hhigh⟩
    refine List.forall_mem_singleton.mpr ⟨?_, List.forall_mem_singleton.mpr hranges⟩
    simp [ShardEntry.Fits]
  replicated := List.forall_mem_singleton.mpr fun size hsize => by
    obtain rfl := Option.some.inj hsize
    decide
  locks := by
    show 30 ≤ 18446744073709551615
    decide

set_option maxRecDepth 4000 in
/-- The text of the two regions is read as the document that it was printed from. -/
theorem read?_text_twoRegions : Json.read? twoRegions.text = some twoRegions.toJson := by
  rw [Json.read?, Json.draft?]
  -- The characters of every piece are put together as lists, which are quick to read.
  simp only [text, twoRegions, toJson, LinkEntry.toJson, ShardedEntry.toJson, ShardEntry.toJson,
    TableEntry.toJson, ShardRange.toJson, KeyRange.toEntries, ReplicatedEntry.toJson,
    ReadPolicy.name, LockSettings.toJson, LockPlace.toEntries, Json.entry?, Json.ofNat, Json.ofInt,
    Json.ofStrings, List.map, Option.map, List.cons_append, List.nil_append, Json.pretty,
    Json.prettyAt, Json.prettyItems, Json.prettyEntries, Json.compact, Json.quote, Json.lineStart,
    String.toList_append, String.toList_ofList]
  decide +kernel

/-- The two regions are saved to a file where there was none, and loaded from it. -/
theorem kept_by_save_and_load_twoRegions :
    let room : Locks.Room := ⟨0, 1, [], .empty, [], []⟩
    twoRegions.Fits ∧ ofJson? twoRegions.toJson = some twoRegions ∧
      ((twoRegions.save "federation.json").outcome room).1 = .ok () ∧
      load "federation.json" ((twoRegions.save "federation.json").outcome room).2.files =
        .ok ⟨twoRegions, some ""⟩ := by
  intro room
  obtain ⟨hread, hload⟩ := kept_by_save_and_load twoRegions_fits
  have hsaved : ((twoRegions.save "federation.json").outcome room).1 = .ok () := rfl
  refine ⟨twoRegions_fits, hread, hsaved, ?_⟩
  exact hload read?_text_twoRegions "federation.json" room _ (Prod.ext hsaved rfl)

end Config

end SqlFederation
