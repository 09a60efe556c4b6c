import SqlFederation.Proofs.Truth
import SqlFederation.Sql.Statement

/-!
# The lexemes of a statement

`Dialect.lex` reads the text of a statement: a name starts at the quote character of the dialect, a
doubled quote in it stands for one, and it ends at the first quote that is not doubled; a
placeholder is the sign of the dialect, with the digits behind it where the dialect numbers its
placeholders; every other character stands for itself. The pieces that a statement is written from
have lexemes of their own (`Piece.lexemes`). `Piece.lexFrom_textFrom` says that the text of pieces
reads as the lexemes of the pieces, whatever the names are, as long as the pieces are well spaced:
the words have no quote and no sign, and behind a name or a bound value comes the end or a word that
does not start with a digit. Lists of pieces that are well spaced on their own can be put together
by `Piece.Fits` and `Piece.Follows`.
-/

namespace SqlFederation

/-- What a statement is read as. -/
inductive Lexeme where
  /-- A name, without its quotes. -/
  | name (identifier : String)
  /-- The place of a value, with the digits of its number. -/
  | placeholder (number : String)
  /-- A character outside of names and placeholders. -/
  | other (c : Char)
  /-- A name that does not end. -/
  | unclosed (text : String)
  deriving DecidableEq

namespace Lexeme

/-- Characters that stand for themselves. -/
def ofText (text : String) : List Lexeme :=
  text.toList.map other

end Lexeme

namespace Dialect

/-- The sign of a placeholder. -/
def sign : Dialect → Char
  | .postgres => '$'
  | _ => '?'

/-- Are placeholders numbered? -/
def isNumbered : Dialect → Bool
  | .mysql => false
  | _ => true

/-- How the placeholder of a parameter is numbered. -/
def ordinal (dialect : Dialect) (n : Nat) : String :=
  if dialect.isNumbered then toString n else ""

/-- Where the reading of a statement stands. -/
inductive Reading where
  | between
  | inName (read : List Char)
  /-- Behind a quote in a name, which ends the name if it is not doubled. -/
  | behindQuote (read : List Char)
  | inNumber (read : List Char)

/-- What has been read, if nothing more belongs to it. -/
def Reading.lexemes : Reading → List Lexeme
  | .between => []
  | .inName read => [.unclosed (String.ofList read)]
  | .behindQuote read => [.name (String.ofList read)]
  | .inNumber read => [.placeholder (String.ofList read)]

/-- Reads a character that starts something new. -/
def start (dialect : Dialect) (c : Char) : List Lexeme × Reading :=
  if c = dialect.quoteChar then ([], .inName [])
  else if c = dialect.sign then ([], .inNumber [])
  else ([.other c], .between)

/-- Reads a character: the lexemes that end in front of it or with it, and where that leads. -/
def step (dialect : Dialect) (reading : Reading) (c : Char) : List Lexeme × Reading :=
  match reading with
  | .between => dialect.start c
  | .inName read =>
    if c = dialect.quoteChar then ([], .behindQuote read) else ([], .inName (read ++ [c]))
  | .behindQuote read =>
    if c = dialect.quoteChar then ([], .inName (read ++ [c]))
    else (.name (String.ofList read) :: (dialect.start c).1, (dialect.start c).2)
  | .inNumber read =>
    if dialect.isNumbered && c.isDigit then ([], .inNumber (read ++ [c]))
    else (.placeholder (String.ofList read) :: (dialect.start c).1, (dialect.start c).2)

/-- Reads the rest of a statement. -/
def lexFrom (dialect : Dialect) : Reading → List Char → List Lexeme
  | reading, [] => reading.lexemes
  | reading, c :: rest =>
    (dialect.step reading c).1 ++ lexFrom dialect (dialect.step reading c).2 rest

/-- Reads a statement. -/
def lex (dialect : Dialect) (sql : String) : List Lexeme :=
  dialect.lexFrom .between sql.toList

variable (dialect : Dialect)

/-- Is this a character that no dialect reads as the start of a name or of a placeholder? -/
def isPlain (c : Char) : Bool :=
  c != '"' && c != Char.ofNat 0x60 && c != '?' && c != '$'

/-- A number is written in digits. -/
theorem isDigit_of_mem_toString {n : Nat} {c : Char} (h : c ∈ (toString n).toList) :
    c.isDigit = true := by
  rw [Nat.toString_eq_repr, Nat.toList_repr] at h
  exact Nat.isDigit_of_mem_toDigits (by decide) (by decide) h

/-- Digits are plain. -/
theorem isPlain_of_isDigit {c : Char} (h : c.isDigit = true) : isPlain c = true := by
  have hne : ∀ other : Char, other.isDigit = false → c ≠ other := by
    rintro other hother rfl
    rw [hother] at h
    cases h
  simp only [isPlain, Bool.and_eq_true, bne_iff_ne]
  exact ⟨⟨⟨hne _ (by decide), hne _ (by decide)⟩, hne _ (by decide)⟩, hne _ (by decide)⟩

theorem start_of_isPlain {c : Char} (h : isPlain c = true) :
    dialect.start c = ([.other c], .between) := by
  rw [isPlain] at h
  simp only [Bool.and_eq_true, bne_iff_ne] at h
  obtain ⟨⟨⟨hquote, hbacktick⟩, hquestion⟩, hdollar⟩ := h
  have hname : c ≠ dialect.quoteChar := by
    cases dialect with
    | mysql => exact hbacktick
    | _ => exact hquote
  have hsign : c ≠ dialect.sign := by
    cases dialect with
    | postgres => exact hdollar
    | _ => exact hquestion
  rw [start, if_neg hname, if_neg hsign]

/-- Plain characters stand for themselves. -/
theorem lexFrom_plain {text : List Char} (h : text.all isPlain = true) (rest : List Char) :
    dialect.lexFrom .between (text ++ rest) =
      text.map Lexeme.other ++ dialect.lexFrom .between rest := by
  induction text with
  | nil => rfl
  | cons c text ih =>
    rw [List.all_cons, Bool.and_eq_true] at h
    rw [List.cons_append, lexFrom, step, dialect.start_of_isPlain h.1, ih h.2]
    rfl

/-- The characters of a name are read back, a doubled quote as one. -/
theorem lexFrom_doubled (text read rest : List Char) :
    dialect.lexFrom (.inName read) (doubled dialect.quoteChar text ++ rest) =
      dialect.lexFrom (.inName (read ++ text)) rest := by
  induction text generalizing read with
  | nil =>
    rw [List.append_nil]
    rfl
  | cons c text ih =>
    have hread : read ++ c :: text = (read ++ [c]) ++ text := by
      rw [List.append_assoc, List.singleton_append]
    rw [hread, ← ih]
    unfold doubled
    rw [List.flatMap_cons]
    by_cases hc : c = dialect.quoteChar
    · -- The first quote might end the name, and the second says that it does not.
      subst hc
      rw [if_pos rfl]
      simp only [List.cons_append, List.nil_append]
      rw [lexFrom, step, if_pos rfl, List.nil_append, lexFrom, step, if_pos rfl, List.nil_append]
    · rw [if_neg hc]
      simp only [List.cons_append, List.nil_append]
      rw [lexFrom, step, if_neg hc, List.nil_append]

/-- A quoted name is read up to the quote that ends it, if it is not doubled. -/
theorem lexFrom_quote (identifier : String) (rest : List Char) :
    dialect.lexFrom .between ((dialect.quote identifier).toList ++ rest) =
      dialect.lexFrom (.behindQuote identifier.toList) rest := by
  have hquote : dialect.start dialect.quoteChar = ([], .inName []) := if_pos rfl
  rw [quote, String.toList_ofList, List.cons_append, List.cons_append, List.append_assoc, lexFrom,
    step, hquote, List.nil_append, lexFrom_doubled, List.nil_append, List.singleton_append, lexFrom,
    step, if_pos rfl, List.nil_append]

/-- The digits of a number are read. -/
theorem lexFrom_digits (h : dialect.isNumbered = true) {digits : List Char}
    (hdigits : ∀ c ∈ digits, c.isDigit = true) (read rest : List Char) :
    dialect.lexFrom (.inNumber read) (digits ++ rest) =
      dialect.lexFrom (.inNumber (read ++ digits)) rest := by
  induction digits generalizing read with
  | nil => rw [List.append_nil, List.nil_append]
  | cons c digits ih =>
    rw [List.forall_mem_cons] at hdigits
    rw [List.cons_append, lexFrom, step, h, hdigits.1, Bool.and_self, if_pos rfl, List.nil_append,
      ih hdigits.2, List.append_assoc, List.singleton_append]

/-- A placeholder is its sign and its number. -/
theorem toList_placeholder (n : Nat) :
    (dialect.placeholder n).toList = dialect.sign :: (dialect.ordinal n).toList := by
  cases dialect with
  | mysql =>
    have hordinal : mysql.ordinal n = "" := if_neg Bool.false_ne_true
    rw [hordinal]
    show "?".toList = ['?']
    decide
  | sqlite => exact String.toList_append
  | postgres => exact String.toList_append

/-- A placeholder is read up to the end of its number. -/
theorem lexFrom_placeholder (n : Nat) (rest : List Char) :
    dialect.lexFrom .between ((dialect.placeholder n).toList ++ rest) =
      dialect.lexFrom (.inNumber (dialect.ordinal n).toList) rest := by
  have hsign : dialect.start dialect.sign = ([], .inNumber []) := by
    cases dialect with
    | _ => rfl
  rw [toList_placeholder, List.cons_append, lexFrom, step, hsign, List.nil_append]
  rw [ordinal]
  split
  · rename_i hnumbered
    rw [dialect.lexFrom_digits hnumbered (fun c hc => isDigit_of_mem_toString hc), List.nil_append]
  · rfl

/-- Does a text neither double a quote in front of it nor go on with a number? -/
def Separates (text : List Char) : Prop :=
  ∀ c ∈ text.head?, isPlain c = true ∧ c.isDigit = false

/-- A name ends at its quote if what comes behind it separates. -/
theorem lexFrom_behindQuote {text : List Char} (h : Separates text) (read : List Char) :
    dialect.lexFrom (.behindQuote read) text =
      .name (String.ofList read) :: dialect.lexFrom .between text := by
  cases text with
  | nil => rfl
  | cons c rest =>
    have hstart := dialect.start_of_isPlain (h c rfl).1
    have hname : c ≠ dialect.quoteChar := by
      intro hc
      rw [start, if_pos hc] at hstart
      cases hstart
    rw [lexFrom, step, if_neg hname, lexFrom, step, hstart]
    rfl

/-- A placeholder ends with its number if what comes behind it separates. -/
theorem lexFrom_inNumber {text : List Char} (h : Separates text) (read : List Char) :
    dialect.lexFrom (.inNumber read) text =
      .placeholder (String.ofList read) :: dialect.lexFrom .between text := by
  cases text with
  | nil => rfl
  | cons c rest =>
    obtain ⟨hplain, hdigit⟩ := h c rfl
    have hstart := dialect.start_of_isPlain hplain
    rw [lexFrom, step, hdigit, Bool.and_false, if_neg Bool.false_ne_true, lexFrom, step, hstart]
    rfl

end Dialect

namespace Piece

/-- The lexemes of pieces, the next placeholder having the given number. -/
def lexemes (dialect : Dialect) : Nat → List Piece → List Lexeme
  | _, [] => []
  | n, .word text :: rest => Lexeme.ofText text ++ lexemes dialect n rest
  | n, .name identifier :: rest => .name identifier :: lexemes dialect n rest
  | n, .bound _ :: rest => .placeholder (dialect.ordinal n) :: lexemes dialect (n + 1) rest

/-- Is this a word of characters that stand for themselves? -/
def isPlainWord (text : String) : Bool :=
  text.toList.all Dialect.isPlain

/-- Do pieces start with the end, or with a word that does not go on with a number? -/
def Separates : List Piece → Prop
  | [] => True
  | .word text :: rest =>
    match text.toList with
    | [] => Separates rest
    | c :: _ => c.isDigit = false
  | _ => False

/-- Are words plain, and is something that separates behind each name and each bound value? -/
def WellSpaced : List Piece → Prop
  | [] => True
  | .word text :: rest => isPlainWord text = true ∧ WellSpaced rest
  | _ :: rest => Separates rest ∧ WellSpaced rest

variable (dialect : Dialect)

/-- The text of pieces that separate does so. -/
theorem separates_textFrom {pieces : List Piece} (h : Separates pieces)
    (hspaced : WellSpaced pieces) (n : Nat) :
    Dialect.Separates (textFrom dialect n pieces).toList := by
  induction pieces with
  | nil => exact fun c hc => nomatch hc
  | cons piece rest ih =>
    cases piece with
    | name identifier => exact h.elim
    | bound value => exact h.elim
    | word text =>
      obtain ⟨hplain, hrest⟩ := hspaced
      rw [textFrom, String.toList_append]
      rw [Separates] at h
      rw [isPlainWord] at hplain
      cases htext : text.toList with
      | nil =>
        rw [htext] at h
        exact ih h hrest
      | cons c others =>
        rw [htext] at h hplain
        rw [List.all_cons, Bool.and_eq_true] at hplain
        rintro _ ⟨⟩
        exact ⟨hplain.1, h⟩

/-- The text of well spaced pieces reads as the lexemes of the pieces. -/
theorem lexFrom_textFrom {pieces : List Piece} (h : WellSpaced pieces) (n : Nat) :
    dialect.lexFrom .between (textFrom dialect n pieces).toList = lexemes dialect n pieces := by
  induction pieces generalizing n with
  | nil => rfl
  | cons piece rest ih =>
    cases piece with
    | word text =>
      rw [textFrom, String.toList_append, dialect.lexFrom_plain h.1, ih h.2]
      rfl
    | name identifier =>
      have hrest := separates_textFrom dialect h.1 h.2 n
      rw [textFrom, String.toList_append, dialect.lexFrom_quote,
        dialect.lexFrom_behindQuote hrest, ih h.2, String.ofList_toList]
      rfl
    | bound value =>
      have hrest := separates_textFrom dialect h.1 h.2 (n + 1)
      rw [textFrom, String.toList_append, dialect.lexFrom_placeholder,
        dialect.lexFrom_inNumber hrest, ih h.2, String.ofList_toList]
      rfl

/-! ## Putting pieces together -/

/-- Pieces that are well spaced in front of anything that separates. -/
def Fits (pieces : List Piece) : Prop :=
  ∀ rest, Separates rest → WellSpaced rest → WellSpaced (pieces ++ rest)

/-- Pieces that fit behind a name or a bound value. -/
structure Follows (pieces : List Piece) : Prop where
  fits : Fits pieces
  separates : ∀ rest, Separates rest → Separates (pieces ++ rest)

/-- Is this a plain word that does not start with a digit? -/
def isSeparator (text : String) : Bool :=
  match text.toList with
  | [] => false
  | c :: rest => Dialect.isPlain c && !c.isDigit && rest.all Dialect.isPlain

theorem isSeparator_append {front back : String} (hfront : isSeparator front = true)
    (hback : isPlainWord back = true) : isSeparator (front ++ back) = true := by
  unfold isSeparator at hfront ⊢
  rw [String.toList_append]
  split at hfront
  · cases hfront
  · rename_i c rest hchars
    rw [hchars, List.cons_append]
    dsimp only
    rw [List.all_append, show back.toList.all Dialect.isPlain = true from hback, Bool.and_true]
    exact hfront

/-- A number is a plain word. -/
theorem isPlainWord_toString (n : Nat) : isPlainWord (toString n) = true := by
  rw [isPlainWord, List.all_eq_true]
  exact fun c hc => Dialect.isPlain_of_isDigit (Dialect.isDigit_of_mem_toString hc)

theorem Fits.wellSpaced {pieces : List Piece} (h : Fits pieces) : WellSpaced pieces := by
  have hspaced := h [] trivial trivial
  rwa [List.append_nil] at hspaced

theorem fits_nil : Fits [] := fun _ _ hspaced => hspaced

theorem fits_name (identifier : String) : Fits [.name identifier] :=
  fun _ hseparates hspaced => ⟨hseparates, hspaced⟩

theorem fits_bound (value : SqlValue) : Fits [.bound value] :=
  fun _ hseparates hspaced => ⟨hseparates, hspaced⟩

theorem Fits.word {text : String} (htext : isPlainWord text = true) {pieces : List Piece}
    (h : Fits pieces) : Fits (.word text :: pieces) :=
  fun rest hseparates hspaced => ⟨htext, h rest hseparates hspaced⟩

theorem follows_nil : Follows [] := ⟨fits_nil, fun _ hseparates => hseparates⟩

theorem Follows.word {text : String} (htext : isSeparator text = true) {pieces : List Piece}
    (h : Fits pieces) : Follows (.word text :: pieces) := by
  unfold isSeparator at htext
  split at htext
  · cases htext
  · rename_i c rest hchars
    rw [Bool.and_eq_true, Bool.and_eq_true, Bool.not_eq_true'] at htext
    obtain ⟨⟨hplain, hdigit⟩, hrest⟩ := htext
    constructor
    · refine Fits.word ?_ h
      rw [isPlainWord, hchars, List.all_cons, hplain, hrest, Bool.and_self]
    · intro _ _
      rw [List.cons_append, Separates, hchars]
      exact hdigit

/-- Pieces that fit can go on with pieces that follow. -/
theorem Fits.append {front back : List Piece} (hfront : Fits front) (hback : Follows back) :
    Fits (front ++ back) := by
  intro rest hseparates hspaced
  rw [List.append_assoc]
  exact hfront (back ++ rest) (hback.separates rest hseparates) (hback.fits rest hseparates hspaced)

/-- What holds of pieces holds of them joined, if it holds of any two with the word between. -/
theorem join_of_each {property : List Piece → Prop} {separator : String} (hnil : property [])
    (happend : ∀ {front back}, property front → property back →
      property (front ++ .word separator :: back))
    {α : Type} {items : List α} {pieces : α → List Piece} (h : ∀ a ∈ items, property (pieces a)) :
    property (join separator (items.map pieces)) := by
  induction items with
  | nil => exact hnil
  | cons a rest ih =>
    rw [List.forall_mem_cons] at h
    cases rest with
    | nil => exact h.1
    | cons b rest => exact happend h.1 (ih h.2)

/-- Pieces that fit can be joined by a word that separates them. -/
theorem fits_join {separator : String} (hseparator : isSeparator separator = true)
    {α : Type} {items : List α} {pieces : α → List Piece} (h : ∀ a ∈ items, Fits (pieces a)) :
    Fits (join separator (items.map pieces)) :=
  join_of_each fits_nil (fun hfront hback => hfront.append (Follows.word hseparator hback)) h

end Piece

open Piece (Fits Follows fits_nil fits_name fits_bound fits_join follows_nil)

theorem ColumnRef.fits_pieces (column : ColumnRef) : Fits column.pieces := by
  unfold pieces
  cases column.table with
  | none => exact fits_name column.name
  | some table =>
    have hdot : Follows [.word ".", .name column.name] :=
      Follows.word (by decide) (fits_name column.name)
    exact (fits_name table).append hdot

namespace Predicate

theorem fits_comparisonPieces (column : ColumnRef) (op : Comparator) (value : Json) :
    Fits (comparisonPieces column op value) := by
  have hnull : ∀ text, Piece.isSeparator text = true →
      Fits (column.pieces ++ [.word text]) := fun text htext =>
    column.fits_pieces.append (Follows.word htext fits_nil)
  have hop : Piece.isSeparator (" " ++ op.sql ++ " ") = true := by
    cases op <;> decide
  unfold comparisonPieces
  split
  · exact hnull _ (by decide)
  · exact hnull _ (by decide)
  · exact hnull _ (by decide)
  · exact hnull _ (by decide)
  · exact column.fits_pieces.append (Follows.word hop (fits_bound _))

theorem fits_joinPieces (connective : Connective) {children : List Predicate}
    (h : ∀ child ∈ children, Fits child.pieces) :
    Fits (joinPieces connective (children.map pieces)) := by
  have hconnective : Piece.isSeparator (" " ++ connective.sql ++ " ") = true := by
    cases connective <;> decide
  cases children with
  | nil =>
    cases connective with
    | and => exact Fits.word (by decide) fits_nil
    | or => exact Fits.word (by decide) fits_nil
  | cons first rest =>
    cases rest with
    | nil => exact h first List.mem_cons_self
    | cons second rest =>
      exact Fits.word (by decide)
        ((fits_join hconnective h).append (Follows.word (by decide) fits_nil))

theorem fits_pieces (predicate : Predicate) : Fits predicate.pieces := by
  induction predicate using Predicate.induct with
  | compare column op value => exact fits_comparisonPieces column op value
  | join connective children ih =>
    rw [pieces, piecesAll_eq_map]
    exact fits_joinPieces connective ih

theorem follows_whereClause (predicate : Option Predicate) : Follows (whereClause predicate) := by
  unfold whereClause
  cases predicate with
  | none => exact follows_nil
  | some p => exact Follows.word (by decide) p.fits_pieces

end Predicate

theorem Output.fits_pieces (output : Output) : Fits output.pieces := by
  have hlabel : ∀ label, Follows [.word " AS ", .name label] := fun label =>
    Follows.word (by decide) (fits_name label)
  have hclose : ∀ label, Follows [.word ")", .word " AS ", .name label] := fun label =>
    Follows.word (by decide) (hlabel label).fits
  unfold pieces
  split
  · rename_i column _
    split
    · exact column.fits_pieces
    · exact column.fits_pieces.append (hlabel _)
  · rename_i function column _
    have hfunction : Piece.isPlainWord (Text.upper function.name ++ "(") = true := by
      cases function <;> decide
    refine Fits.word hfunction (Fits.append ?_ (hclose output.name))
    cases column with
    | none => exact Fits.word (by decide) fits_nil
    | some column => exact column.fits_pieces

theorem SortKey.fits_pieces (dialect : Dialect) (key : SortKey) : Fits (key.pieces dialect) := by
  unfold pieces
  split
  · have hnulls : Piece.isSeparator
        (if key.nullsFirst then " IS NULL DESC, " else " IS NULL ASC, ") = true := by
      cases key.nullsFirst <;> decide
    have hdirection : Piece.isSeparator (" " ++ key.direction.sql) = true := by
      cases key.direction <;> decide
    rw [List.append_assoc key.column.pieces]
    exact (key.column.fits_pieces.append (Follows.word hnulls key.column.fits_pieces)).append
      (Follows.word hdirection fits_nil)
  · have hdirection : Piece.isSeparator (" " ++ key.direction.sql ++
        if key.nullsFirst then " NULLS FIRST" else " NULLS LAST") = true := by
      cases key.direction <;> cases key.nullsFirst <;> decide
    exact key.column.fits_pieces.append (Follows.word hdirection fits_nil)

/-- The clause of a page is empty or separates. -/
theorem follows_pageClause (dialect : Dialect) (limit offset : Option Nat) :
    Follows [.word (pageClause dialect limit offset)] := by
  have hnumber : ∀ {text : String} (n : Nat), Piece.isSeparator text = true →
      Piece.isSeparator (text ++ toString n) = true := fun n h =>
    Piece.isSeparator_append h (Piece.isPlainWord_toString n)
  have hclause : ∀ {text : String}, Piece.isSeparator text = true → Follows [.word text] :=
    fun h => Follows.word h fits_nil
  unfold pageClause
  split
  · exact ⟨fits_nil.word rfl, fun _ hseparates => hseparates⟩
  · exact hclause (hnumber _ (by decide))
  · rename_i limit offset
    refine hclause (hnumber offset ?_)
    exact Piece.isSeparator_append (hnumber limit (by decide)) (by decide)
  · split
    · exact hclause (hnumber _ (by decide))
    · exact hclause (hnumber _ (by decide))
    · exact hclause (hnumber _ (by decide))

namespace Select

theorem fits_pieces (dialect : Dialect) (select : Select) : Fits (select.pieces dialect) := by
  have htable : Follows [.word " FROM ", .name select.table] :=
    Follows.word (by decide) (fits_name select.table)
  unfold pieces
  refine Fits.word (by decide) (((((Fits.append ?outputs htable).append
    (Predicate.follows_whereClause select.predicate)).append ?groups).append ?order).append
      (follows_pageClause dialect select.limit select.offset))
  case outputs =>
    split
    · exact Fits.word (by decide) fits_nil
    · exact fits_join (by decide) fun output _ => output.fits_pieces
  case groups =>
    split
    · exact follows_nil
    · exact Follows.word (by decide) (fits_join (by decide) fun column _ => column.fits_pieces)
  case order =>
    split
    · exact follows_nil
    · exact Follows.word (by decide) (fits_join (by decide) fun key _ => key.fits_pieces dialect)

end Select

namespace Insert

theorem fits_rowPieces (insert : Insert) (columns : List String) (row : Row) :
    Fits (insert.rowPieces columns row) := by
  have hvalues : Fits (Piece.join ", "
      (columns.map fun column => [.bound (insert.boundValue row column)])) :=
    fits_join (by decide) fun column _ => fits_bound _
  exact Fits.word (by decide) (hvalues.append (Follows.word (by decide) fits_nil))

theorem fits_pieces {insert : Insert} {pieces : List Piece} (h : insert.pieces = .ok pieces) :
    Fits pieces := by
  obtain ⟨-, rfl⟩ | rfl := eq_of_pieces h
  · exact Fits.word (by decide) ((fits_name insert.table).append
      (Follows.word (by decide) fits_nil))
  · have hnames : Fits (Piece.join ", " (insert.columns.map fun column => [.name column])) :=
      fits_join (by decide) fun column _ => fits_name column
    have hrows : Fits (Piece.join ", " (insert.rows.map (insert.rowPieces insert.columns))) :=
      fits_join (by decide) fun row _ => insert.fits_rowPieces insert.columns row
    have hvalues : Follows (.word ") VALUES " ::
        Piece.join ", " (insert.rows.map (insert.rowPieces insert.columns))) :=
      Follows.word (by decide) hrows
    have hcolumns : Follows (.word " (" ::
        (Piece.join ", " (insert.columns.map fun column => [.name column]) ++ .word ") VALUES " ::
          Piece.join ", " (insert.rows.map (insert.rowPieces insert.columns)))) :=
      Follows.word (by decide) (hnames.append hvalues)
    rw [List.append_assoc, List.append_assoc]
    exact Fits.word (by decide) ((fits_name insert.table).append hcolumns)

end Insert

theorem Update.fits_pieces {update : Update} {pieces : List Piece}
    (h : update.pieces = .ok pieces) : Fits pieces := by
  have hset : Fits (Piece.join ", " (update.set.entries.map fun entry =>
      [.name entry.1, .word " = ", .bound (.ofJson entry.2)])) :=
    fits_join (by decide) fun entry _ =>
      (fits_name entry.1).append (Follows.word (by decide) (fits_bound _))
  have htable : Fits [.word "UPDATE ", .name update.table] :=
    Fits.word (by decide) (fits_name update.table)
  have hfollows := Follows.word (show Piece.isSeparator " SET " = true by decide) hset
  rw [Update.eq_of_pieces h]
  exact (htable.append hfollows).append (Predicate.follows_whereClause update.predicate)

theorem Delete.fits_pieces (delete : Delete) : Fits delete.pieces :=
  (Fits.word (by decide) (fits_name delete.table)).append
    (Predicate.follows_whereClause delete.predicate)

namespace Query

/-- The pieces of a query are well spaced. -/
theorem fits_pieces {dialect : Dialect} {query : Query} {pieces : List Piece}
    (h : query.pieces dialect = .ok pieces) : Fits pieces := by
  cases query with
  | select q =>
    cases h
    exact q.fits_pieces dialect
  | insert q => exact Insert.fits_pieces h
  | update q => exact Update.fits_pieces h
  | delete q =>
    cases h
    exact q.fits_pieces

/-- The text of a rendered query reads as the lexemes of its pieces, whose values it binds. -/
theorem exists_lexemes_of_render {dialect : Dialect} {query : Query} {statement : Statement}
    (h : query.render dialect = .ok statement) :
    ∃ pieces, query.pieces dialect = .ok pieces ∧
      dialect.lex statement.sql = Piece.lexemes dialect 1 pieces ∧
      statement.params = Piece.values pieces := by
  unfold render at h
  cases hpieces : query.pieces dialect with
  | error e =>
    rw [hpieces] at h
    cases h
  | ok pieces =>
    rw [hpieces] at h
    cases h
    exact ⟨pieces, rfl, Piece.lexFrom_textFrom dialect (fits_pieces hpieces).wellSpaced 1, rfl⟩

end Query

/-- A doubled quote is one quote of the name. -/
example : Dialect.sqlite.lex "a\"b\"\"?\"=?12" =
    [.other 'a', .name "b\"?", .other '=', .placeholder "12"] := by decide

end SqlFederation
