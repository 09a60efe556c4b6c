import SqlFederation.Link.Resync
import SqlFederation.Proofs.BlobTexts
import SqlFederation.Proofs.Parameters
import SqlFederation.Proofs.Rows
import SqlFederation.Storage.Read

/-!
# Cells on their way to a mirror

A resync reads the cells of a row as JSON values and binds them in an insert that names the columns
which hold blobs: those whose type contains `BLOB`, in small or capital letters
(`ColumnSchema.name_mem_blobColumns`). What such a column binds is decided by the value that was
read (`Replicated.parameter_copied`), and a text in base64 reads as the blob whose encoding it is.
So a blob arrives as it was (`Replicated.copied_blob_arrives`), and a text arrives if it is not the
encoding of anything (`Replicated.copied_text_arrives_iff`).
-/

namespace SqlFederation

namespace Text

theorem startsWith_iff {text lead : List Char} : startsWith text lead = true ↔ lead <+: text := by
  induction text generalizing lead with
  | nil => cases lead <;> simp [startsWith]
  | cons c text ih =>
    cases lead with
    | nil => simp [startsWith]
    | cons d lead =>
      rw [startsWith, Bool.and_eq_true, beq_iff_eq, ih, List.cons_prefix_cons, eq_comm]

theorem contains_iff {text part : List Char} : contains text part = true ↔ part <:+: text := by
  induction text with
  | nil => rw [contains, List.isEmpty_iff, List.infix_nil]
  | cons c text ih => rw [contains, Bool.or_eq_true, startsWith_iff, ih, List.infix_cons_iff]

/-- Characters other than small ASCII letters are capital. -/
theorem toUpper_of_le {c : Char} (h : 128 ≤ c.toNat) : c.toUpper = c := by
  have hval : 128 ≤ c.val.toNat := h
  unfold Char.toUpper
  rw [dif_neg]
  rintro ⟨-, hle⟩
  have hlast : c.val.toNat ≤ 122 := hle
  omega

/-- A letter with an ASCII capital has this one as its capital form. -/
theorem upperChar_of_lt {c : Char} (h : c.toUpper.toNat < 128) : upperChar c = [c.toUpper] := by
  -- The characters with other capital forms lie behind the ASCII ones.
  have hascii : c.toNat < 128 := by
    refine Nat.lt_of_not_le fun hlarge => ?_
    rw [toUpper_of_le hlarge] at h
    omega
  unfold upperChar
  split <;> first | omega | rfl

theorem flatMap_upperChar {letters : List Char} (h : ∀ c ∈ letters, c.toUpper.toNat < 128) :
    letters.flatMap upperChar = letters.map Char.toUpper := by
  induction letters with
  | nil => rfl
  | cons c rest ih =>
    rw [List.forall_mem_cons] at h
    rw [List.flatMap_cons, upperChar_of_lt h.1, ih h.2]
    rfl

/-- Letters in a text are in its capital form, if their capitals are ASCII ones. -/
theorem infix_upper {letters : List Char} {text : String} (hpart : letters <:+: text.toList)
    (h : ∀ c ∈ letters, c.toUpper.toNat < 128) :
    letters.map Char.toUpper <:+: (upper text).toList := by
  obtain ⟨front, back, htext⟩ := hpart
  refine ⟨front.flatMap upperChar, back.flatMap upperChar, ?_⟩
  rw [upper, String.toList_ofList, ← htext, List.flatMap_append, List.flatMap_append,
    flatMap_upperChar h]

end Text

namespace ColumnSchema

/-- Is `BLOB` a part of a column's type, in small or capital letters? -/
def HoldsBlobs (column : ColumnSchema) : Prop :=
  ∃ letters, letters <:+: column.type.toList ∧ letters.map Char.toUpper = "BLOB".toList

/-- A column that holds blobs is marked as such. -/
theorem name_mem_blobColumns {column : ColumnSchema} {schema : TableSchema}
    (hcolumn : column ∈ schema.columns) (hblobs : column.HoldsBlobs) :
    column.name ∈ Replicated.blobColumns schema := by
  obtain ⟨letters, hpart, hletters⟩ := hblobs
  have hascii : ∀ c ∈ letters, c.toUpper.toNat < 128 := by
    intro c hc
    have hmem : c.toUpper ∈ ['B', 'L', 'O', 'B'] := by
      rw [show ['B', 'L', 'O', 'B'] = "BLOB".toList from rfl, ← hletters]
      exact List.mem_map_of_mem hc
    have hall : ∀ d ∈ ['B', 'L', 'O', 'B'], d.toNat < 128 := by simp
    exact hall _ hmem
  have hupper := Text.infix_upper hpart hascii
  rw [hletters] at hupper
  exact List.mem_map_of_mem (List.mem_filter.mpr ⟨hcolumn, Text.contains_iff.mpr hupper⟩)

end ColumnSchema

namespace Storage

theorem map_fst_zip_sublist {α γ : Type} (first : List α) (second : List γ) :
    ((first.zip second).map Prod.fst).Sublist first := by
  induction first generalizing second with
  | nil => exact .slnil
  | cons a rest ih =>
    cases second with
    | nil => exact List.nil_sublist _
    | cons b others => exact (ih others).cons_cons a

/-- A row that is handed out has the value of each of its cells, under the name of its heading. -/
theorem Relation.exists_toRows {relation : Relation}
    (hnames : (relation.headings.map Heading.name).Nodup) {i j : Nat} {cells : List Cell}
    {heading : Heading} {cell : Cell} (hrow : relation.rows[i]? = some cells)
    (hheading : relation.headings[j]? = some heading) (hcell : cells[j]? = some cell) :
    ∃ row, relation.toRows[i]? = some row ∧ row.get? heading.name = some cell.toJson := by
  let entries := (relation.headings.zip cells).map fun p => (p.1.name, p.2.toJson)
  refine ⟨Row.ofList entries, ?_, Row.get?_ofList ?_ ?_⟩
  · rw [toRows, List.getElem?_map, hrow]
    rfl
  · have hfst : entries.map Prod.fst =
        ((relation.headings.zip cells).map Prod.fst).map Heading.name := by
      rw [List.map_map, List.map_map]
      rfl
    rw [hfst]
    exact hnames.sublist ((map_fst_zip_sublist _ _).map _)
  · have hpair : (relation.headings.zip cells)[j]? = some (heading, cell) :=
      List.getElem?_zip_eq_some.mpr ⟨hheading, hcell⟩
    exact List.mem_map_of_mem (List.mem_of_getElem? hpair)

end Storage

namespace Replicated

open Storage (Cell Heading Relation)

variable {schema : TableSchema} {column : ColumnSchema}

/-- A column that holds blobs binds what the value of the row stands for. -/
theorem parameter_copied (hcolumn : column ∈ schema.columns) (hblobs : column.HoldsBlobs)
    (table : String) {row : Row} {value : Json} (hvalue : row.get? column.name = some value)
    (dialect : Dialect) :
    (Insert.mk table [row] (blobColumns schema)).parameter dialect 0 column.name =
      .ok (some (Insert.blobValue value)) := by
  let insert : Insert := ⟨table, [row], blobColumns schema⟩
  have hmarked : insert.isBlobColumn column.name = true :=
    List.contains_iff_mem.mpr (column.name_mem_blobColumns hcolumn hblobs)
  have hknown : column.name ∈ insert.columns :=
    Insert.mem_columns List.mem_cons_self (Row.mem_columns_of_get? hvalue)
  have hbound : insert.boundValue row column.name = Insert.blobValue value := by
    rw [Insert.boundValue, hvalue]
    dsimp only
    rw [if_pos hmarked]
  have hparameter := Insert.parameter_eq (show insert.rows[0]? = some row from rfl) hknown dialect
  rw [hparameter, hbound]

/-- The bytes of a file. -/
def fileData : ColumnSchema := ⟨"data", "mediumBlob", true, none, false, false, false, none⟩

theorem holdsBlobs_fileData : fileData.HoldsBlobs :=
  ⟨['B', 'l', 'o', 'b'], ⟨"medium".toList, [], rfl⟩, by decide⟩

/-- Files with a key. -/
def storedFiles : TableSchema where
  name := "files"
  columns := [⟨"id", "INTEGER", false, none, true, false, false, none⟩, fileData]
  indexes := []

theorem fileData_mem : fileData ∈ storedFiles.columns :=
  List.mem_cons_of_mem _ List.mem_cons_self

/-- The rows of files: a blob whose encoding is filled up, a text, and a text in base64. -/
def readFiles : Relation where
  label := none
  headings := [⟨"id", none⟩, ⟨"data", none⟩]
  idName := none
  rows := [[.integer 1, .blob [0, 255, 61, 10]], [.integer 2, .text "plain"],
    [.integer 3, .text "abcd"]]

theorem nodup_readFiles : (readFiles.headings.map Heading.name).Nodup := by decide

section Copied

variable {relation : Relation} {i j : Nat} {cells : List Cell} {heading : Heading}

/--
A blob arrives at a mirror as it was. The row that is read of it is copied by an insert that binds
the bytes of the blob, all of them and no others, in every dialect.
-/
theorem copied_blob_arrives (hcolumn : column ∈ schema.columns) (hblobs : column.HoldsBlobs)
    (hnames : (relation.headings.map Heading.name).Nodup) (hrow : relation.rows[i]? = some cells)
    (hheading : relation.headings[j]? = some heading) (hname : heading.name = column.name)
    {bytes : List UInt8} (hcell : cells[j]? = some (.blob bytes)) (table : String)
    (dialect : Dialect) :
    ∃ row insert, relation.toRows[i]? = some row ∧
      copyQuery schema table row = .insert insert ∧
      insert.parameter dialect 0 column.name = .ok (some (.blob bytes)) := by
  obtain ⟨row, hread, hvalue⟩ := relation.exists_toRows hnames hrow hheading hcell
  rw [hname] at hvalue
  refine ⟨row, _, hread, rfl, ?_⟩
  have hdecoded : Base64.decode? (Base64.encode bytes) = some bytes :=
    Base64.decode?_eq_some_iff.mpr rfl
  rw [parameter_copied hcolumn hblobs table hvalue, Cell.toJson, Insert.blobValue, hdecoded]

/-- Four bytes whose encoding is filled up arrive as they were. -/
theorem copied_file_arrives :
    ∃ row insert, readFiles.toRows[0]? = some row ∧
      copyQuery storedFiles "files" row = .insert insert ∧
      insert.parameter .mysql 0 "data" = .ok (some (.blob [0, 255, 61, 10])) :=
  copied_blob_arrives (j := 1) fileData_mem holdsBlobs_fileData nodup_readFiles rfl rfl rfl rfl
    "files" .mysql

/--
A text in a column that holds blobs arrives at a mirror as it was if and only if it is not the
encoding of some bytes; if it is, these bytes arrive instead.
-/
theorem copied_text_arrives_iff (hcolumn : column ∈ schema.columns) (hblobs : column.HoldsBlobs)
    (hnames : (relation.headings.map Heading.name).Nodup) (hrow : relation.rows[i]? = some cells)
    (hheading : relation.headings[j]? = some heading) (hname : heading.name = column.name)
    {text : String} (hcell : cells[j]? = some (.text text)) (table : String)
    (dialect : Dialect) :
    ∃ row insert, relation.toRows[i]? = some row ∧
      copyQuery schema table row = .insert insert ∧
      (insert.parameter dialect 0 column.name = .ok (some (.text text)) ↔
        ¬∃ bytes, text = Base64.encode bytes) ∧
      ∀ bytes, text = Base64.encode bytes →
        insert.parameter dialect 0 column.name = .ok (some (.blob bytes)) := by
  obtain ⟨row, hread, hvalue⟩ := relation.exists_toRows hnames hrow hheading hcell
  rw [hname] at hvalue
  refine ⟨row, _, hread, rfl, ?_⟩
  rw [parameter_copied hcolumn hblobs table hvalue, Cell.toJson, Insert.blobValue]
  cases hdecoded : Base64.decode? text with
  | none =>
    have hno : ∀ bytes, text ≠ Base64.encode bytes := by
      intro bytes henc
      rw [Base64.decode?_eq_some_iff.mpr henc] at hdecoded
      cases hdecoded
    exact ⟨iff_of_true rfl fun ⟨bytes, henc⟩ => hno bytes henc,
      fun bytes henc => absurd henc (hno bytes)⟩
  | some found =>
    have henc := Base64.decode?_eq_some_iff.mp hdecoded
    refine ⟨iff_of_false (fun h => by cases h) (not_not_intro ⟨found, henc⟩), ?_⟩
    intro bytes hbytes
    rw [Base64.decode?_eq_some_iff.mpr hbytes] at hdecoded
    cases hdecoded
    rfl

/-- A text that is the encoding of nothing arrives as it was. -/
theorem copied_plain_text_arrives :
    (¬∃ bytes, "plain" = Base64.encode bytes) ∧
    ∃ row insert, readFiles.toRows[1]? = some row ∧
      copyQuery storedFiles "files" row = .insert insert ∧
      insert.parameter .sqlite 0 "data" = .ok (some (.text "plain")) := by
  have hplain : ¬∃ bytes, "plain" = Base64.encode bytes := by
    rintro ⟨bytes, henc⟩
    have hdecoded := Base64.decode?_eq_some_iff.mpr henc
    have hnone : Base64.decode? "plain" = none := by decide
    rw [hnone] at hdecoded
    cases hdecoded
  obtain ⟨row, insert, hread, hcopied, hkept, -⟩ := copied_text_arrives_iff (j := 1)
    fileData_mem holdsBlobs_fileData nodup_readFiles (show readFiles.rows[1]? = _ from rfl) rfl rfl
    rfl "files" .sqlite
  exact ⟨hplain, row, insert, hread, hcopied, hkept.mpr hplain⟩

/-- A text in base64 does not arrive: the mirror is sent a blob of three other bytes. -/
theorem copied_text_becomes_blob :
    ∃ row insert, readFiles.rows[2]? = some [.integer 3, .text "abcd"] ∧
      readFiles.toRows[2]? = some row ∧ copyQuery storedFiles "files" row = .insert insert ∧
      insert.parameter .sqlite 0 "data" = .ok (some (.blob [105, 183, 29])) := by
  let row : Row := ⟨[("id", .ofInt 3), ("data", .str "abcd")]⟩
  have hvalue : row.get? fileData.name = some (.str "abcd") := by decide
  have hdecoded : Base64.decode? "abcd" = some [105, 183, 29] := by decide
  have hparameter := parameter_copied fileData_mem holdsBlobs_fileData "files" hvalue .sqlite
  rw [Insert.blobValue, hdecoded] at hparameter
  exact ⟨row, _, rfl, rfl, rfl, hparameter⟩

end Copied

end Replicated

end SqlFederation
