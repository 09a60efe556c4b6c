import Mathlib
import SqlFederation.Proofs.Placeholders

/-!
# The tokens of a condition

`Condition.read?` reads the text of a condition as tokens: names, the values of the parameters that
placeholders stand for, and words. Letters and digits that touch are one word, so are the characters
of an operator that touch, and any other character is a word of its own. A placeholder stands for
the parameter with its number, or where placeholders have no numbers, for the one with its place in
the statement.

`Predicate.tokens` are the tokens that a predicate should be written with.
`Predicate.read?_textFrom` says that the text of a predicate reads as these. It takes two steps. The
text reads as the tokens of its pieces (`Condition.tokens?_lexemes`), whatever pieces they are. The
tokens of the pieces of a predicate are then found piece by piece, in front of anything that does
not go on with the last word (`Piece.Apart`), by induction on the predicate.
-/

namespace SqlFederation

namespace Condition

/-- What a condition is read as. -/
inductive Token where
  | name (identifier : String)
  /-- The value of the parameter that a placeholder stands for. -/
  | value (value : SqlValue)
  /-- A keyword, a number, an operator, or a mark such as a parenthesis. -/
  | word (text : String)
  /-- A blank, which ends a word. -/
  | gap
  deriving DecidableEq

/-- Is this a character of operators? -/
def isOperator (c : Char) : Bool :=
  ['=', '!', '<', '>'].contains c

/-- Do two characters that touch belong to one word? -/
def belong (c d : Char) : Bool :=
  (c.isAlphanum && d.isAlphanum) || (isOperator c && isOperator d)

/-- Puts a character in front of tokens, as a part of the first word if it belongs to that. -/
def attach (c : Char) (tokens : List Token) : List Token :=
  if c.isWhitespace then .gap :: tokens
  else
    match tokens with
    | .word text :: rest =>
      if text.toList.head?.any (belong c) then .word (String.ofList (c :: text.toList)) :: rest
      else .word (String.singleton c) :: .word text :: rest
    | tokens => .word (String.singleton c) :: tokens

/--
The parameter that a placeholder stands for: the one with its number, counted from one, or the one
behind as many parameters as there are placeholders in front of it.
-/
def parameter? (dialect : Dialect) (params : List SqlValue) (before : Nat) (number : String) :
    Option SqlValue :=
  if dialect.isNumbered then
    match number.toNat? with
    | some (n + 1) => params[n]?
    | _ => none
  else
    params[before]?

/-- The tokens of lexemes behind some placeholders; a name that does not end is none. -/
def tokens? (dialect : Dialect) (params : List SqlValue) : Nat → List Lexeme → Option (List Token)
  | _, [] => some []
  | before, .name identifier :: rest =>
    (tokens? dialect params before rest).map fun tokens => .name identifier :: tokens
  | before, .placeholder number :: rest => do
    let value ← parameter? dialect params before number
    let tokens ← tokens? dialect params (before + 1) rest
    some (.value value :: tokens)
  | before, .other c :: rest => (tokens? dialect params before rest).map (attach c)
  | _, .unclosed _ :: _ => none

/-- Tokens without the gaps between them. -/
def close (tokens : List Token) : List Token :=
  tokens.filter fun token => token != .gap

/-- Reads a text as tokens, behind a text that has some placeholders. -/
def read? (dialect : Dialect) (params : List SqlValue) (before : Nat) (sql : String) :
    Option (List Token) :=
  (tokens? dialect params before (dialect.lex sql)).map close

end Condition

open Condition (Token attach close)

namespace Piece

/-- The tokens of pieces. -/
def tokens : List Piece → List Token
  | [] => []
  | .word text :: rest => text.toList.foldr attach (tokens rest)
  | .name identifier :: rest => .name identifier :: tokens rest
  | .bound value :: rest => .value value :: tokens rest

end Piece

namespace Condition

variable {dialect : Dialect} {params : List SqlValue}

/-- A placeholder with the number behind that of the earlier ones stands for the next parameter. -/
theorem parameter?_ordinal (before : Nat) :
    parameter? dialect params before (dialect.ordinal (before + 1)) = params[before]? := by
  unfold parameter? Dialect.ordinal
  split
  · rw [Nat.toString_eq_repr, Nat.toNat?_repr]
  · rfl

/-- The characters of a text go in front of the tokens behind it. -/
theorem tokens?_ofText (before : Nat) (text : String) (rest : List Lexeme) :
    tokens? dialect params before (Lexeme.ofText text ++ rest) =
      (tokens? dialect params before rest).map fun tokens => text.toList.foldr attach tokens := by
  unfold Lexeme.ofText
  induction text.toList with
  | nil => exact Option.map_id'.symm
  | cons c text ih =>
    rw [List.map_cons, List.cons_append, tokens?, ih, Option.map_map]
    rfl

/-- The lexemes of pieces read as their tokens, if the parameters are those that they bind. -/
theorem tokens?_lexemes {pieces : List Piece} {before : Nat}
    (h : ∀ (i : Nat) (value : SqlValue), (Piece.values pieces)[i]? = some value →
      params[before + i]? = some value) :
    tokens? dialect params before (Piece.lexemes dialect (before + 1) pieces) =
      some (Piece.tokens pieces) := by
  induction pieces generalizing before with
  | nil => rfl
  | cons piece rest ih =>
    cases piece with
    | word text =>
      rw [Piece.lexemes, tokens?_ofText, ih h]
      rfl
    | name identifier =>
      rw [Piece.lexemes, tokens?, ih h]
      rfl
    | bound value =>
      have hfirst : params[before]? = some value := h 0 value rfl
      have hbehind : ∀ (i : Nat) (v : SqlValue), (Piece.values rest)[i]? = some v →
          params[before + 1 + i]? = some v := by
        intro i v hv
        rw [Nat.add_assoc, Nat.add_comm 1]
        exact h (i + 1) v hv
      rw [Piece.lexemes, tokens?, parameter?_ordinal, hfirst, ih hbehind]
      rfl

end Condition

/-- The text of pieces reads as their tokens, each placeholder as its own parameter. -/
theorem Piece.read?_textFrom (dialect : Dialect) {pieces : List Piece} (h : WellSpaced pieces)
    (earlier : List SqlValue) :
    Condition.read? dialect (earlier ++ values pieces) earlier.length
      (textFrom dialect (earlier.length + 1) pieces) = some (close (tokens pieces)) := by
  have hparams : ∀ (i : Nat) (value : SqlValue), (values pieces)[i]? = some value →
      (earlier ++ values pieces)[earlier.length + i]? = some value := by
    intro i value hvalue
    rw [List.getElem?_append_right (Nat.le_add_right _ _), Nat.add_sub_cancel_left]
    exact hvalue
  rw [Condition.read?, Dialect.lex, lexFrom_textFrom dialect h, Condition.tokens?_lexemes hparams,
    Option.map_some]

/-! ## The tokens of a predicate -/

namespace Condition

/-- What a comparison asks of its column. -/
inductive Test where
  | isNull
  | isNotNull
  | compare (op : Comparator) (value : SqlValue)
  deriving DecidableEq

/-- The tokens behind the column of a comparison. -/
def Test.tokens : Test → List Token
  | .isNull => [.word "IS", .word "NULL"]
  | .isNotNull => [.word "IS", .word "NOT", .word "NULL"]
  | .compare op value => [.word op.sql, .value value]

/-- The tokens of conditions that a word joins. -/
def joinWords (word : String) : List (List Token) → List Token
  | [] => []
  | first :: rest => first ++ rest.flatMap fun part => .word word :: part

/-- The tokens of joined conditions: in parentheses, unless there is only one of them. -/
def joinTokens (connective : Connective) : List (List Token) → List Token
  | [] =>
    match connective with
    | .and => [.word "1", .word "=", .word "1"]
    | .or => [.word "1", .word "=", .word "0"]
  | [part] => part
  | parts => .word "(" :: joinWords connective.sql parts ++ [.word ")"]

end Condition

open Condition (Test joinTokens)

/-- The tokens of a column, with its table in front if it is named. -/
def ColumnRef.tokens (column : ColumnRef) : List Token :=
  match column.table with
  | some table => [.name table, .word ".", .name column.name]
  | none => [.name column.name]

/-- What a comparison asks of its column; equality with null asks for null. -/
def Comparison.test (comparison : Comparison) : Test :=
  match comparison.op with
  | .isNull => .isNull
  | .isNotNull => .isNotNull
  | .eq => if comparison.value.isNull then .isNull else .compare .eq (.ofJson comparison.value)
  | .ne => if comparison.value.isNull then .isNotNull else .compare .ne (.ofJson comparison.value)
  | op => .compare op (.ofJson comparison.value)

namespace Predicate

mutual

/-- The tokens that a predicate should be written with. -/
def tokens : Predicate → List Token
  | .compare column op value => column.tokens ++ (Comparison.test ⟨column, op, value⟩).tokens
  | .join connective children => joinTokens connective (tokensAll children)

/-- The tokens of every predicate of a list. -/
def tokensAll : List Predicate → List (List Token)
  | [] => []
  | child :: rest => tokens child :: tokensAll rest

end

theorem tokensAll_eq_map (children : List Predicate) :
    tokensAll children = children.map tokens := by
  induction children with
  | nil => rfl
  | cons child rest ih => rw [tokensAll, ih, List.map_cons]

end Predicate

namespace Condition

/-- A letter or a digit is no blank. -/
theorem isWhitespace_of_isAlphanum {c : Char} (h : c.isAlphanum = true) :
    c.isWhitespace = false := by
  rw [Bool.eq_false_iff]
  intro hblank
  simp only [Char.isWhitespace, Bool.or_eq_true, decide_eq_true_eq] at hblank
  obtain ((rfl | rfl) | rfl) | rfl := hblank
  all_goals cases h

/-- A character that belongs to no other one is a word of its own. -/
theorem attach_mark {c : Char} (hblank : c.isWhitespace = false) (halone : ∀ d, belong c d = false)
    (tokens : List Token) : attach c tokens = .word (String.singleton c) :: tokens := by
  unfold attach
  rw [if_neg (Bool.eq_false_iff.mp hblank)]
  split
  · rename_i text rest
    have hmark : text.toList.head?.any (belong c) = false := by
      cases text.toList.head? with
      | none => rfl
      | some d => exact halone d
    rw [hmark]
    rfl
  · rfl

theorem attach_open (tokens : List Token) : attach '(' tokens = .word "(" :: tokens :=
  attach_mark rfl (fun _ => rfl) tokens

theorem attach_close (tokens : List Token) : attach ')' tokens = .word ")" :: tokens :=
  attach_mark rfl (fun _ => rfl) tokens

theorem attach_dot (tokens : List Token) : attach '.' tokens = .word "." :: tokens :=
  attach_mark rfl (fun _ => rfl) tokens

end Condition

namespace Piece

/-- Pieces that do not go on with a word in front of them. -/
def Apart (rest : List Piece) : Prop :=
  ∀ c : Char, c.isAlphanum = true →
    attach c (tokens rest) = .word (String.singleton c) :: tokens rest

theorem apart_nil : Apart [] := by
  intro c hc
  unfold attach
  rw [Condition.isWhitespace_of_isAlphanum hc]
  rfl

/-- A word that starts with a blank does not go on with what is in front of it. -/
theorem apart_blank {text : String} (h : text.toList.head? = some ' ') (rest : List Piece) :
    Apart (.word text :: rest) := by
  obtain ⟨others, hchars⟩ := List.head?_eq_some_iff.mp h
  have hgap : tokens (.word text :: rest) = .gap :: others.foldr attach (tokens rest) := by
    rw [tokens, hchars]
    rfl
  intro c hc
  rw [hgap]
  unfold attach
  rw [Condition.isWhitespace_of_isAlphanum hc]
  rfl

theorem apart_connective (connective : Connective) (rest : List Piece) :
    Apart (.word (" " ++ connective.sql ++ " ") :: rest) :=
  apart_blank (by cases connective <;> rfl) rest

/-- A mark is a word of its own, with which no word in front of it goes on. -/
theorem apart_mark {mark : Char} (hplain : mark.isAlphanum = false)
    (hoperator : Condition.isOperator mark = false) {rest : List Piece} {others : List Token}
    (h : tokens rest = .word (String.singleton mark) :: others) : Apart rest := by
  intro c hc
  have hapart : Condition.belong c mark = false := by
    rw [Condition.belong, hplain, hoperator, Bool.and_false, Bool.and_false, Bool.or_false]
  have hhead : (String.singleton mark).toList.head?.any (Condition.belong c) = false := by
    rw [String.toList_singleton]
    exact hapart
  rw [h]
  unfold attach
  rw [Condition.isWhitespace_of_isAlphanum hc]
  dsimp only
  rw [hhead]
  rfl

theorem apart_close (rest : List Piece) : Apart (.word ")" :: rest) := by
  have hclose : tokens (.word ")" :: rest) = .word (String.singleton ')') :: tokens rest :=
    Condition.attach_close _
  exact apart_mark rfl rfl hclose

/-- Pieces that read as some tokens in front of anything that does not go on with a word. -/
def ReadAs (pieces : List Piece) (expected : List Token) : Prop :=
  ∀ rest, Apart rest → close (tokens (pieces ++ rest)) = expected ++ close (tokens rest)

/-- The tokens of a text on its own. -/
def textTokens (text : String) : List Token :=
  close (text.toList.foldr attach [])

/-- A character is put in front of tokens whatever comes behind the first of them. -/
theorem attach_append (c : Char) {front : List Token} (hne : front ≠ []) (back : List Token) :
    attach c (front ++ back) = attach c front ++ back := by
  obtain ⟨first, others, rfl⟩ := List.exists_cons_of_ne_nil hne
  unfold attach
  split
  · rfl
  · cases first with
    | word text =>
      dsimp only [List.cons_append]
      split
      · rfl
      · rfl
    | _ => rfl

theorem attach_ne_nil (c : Char) (tokens : List Token) : attach c tokens ≠ [] := by
  unfold attach
  split
  · exact List.cons_ne_nil _ _
  · split
    · split
      · exact List.cons_ne_nil _ _
      · exact List.cons_ne_nil _ _
    · exact List.cons_ne_nil _ _

/-- A character that is no part of an operator is read on its own, if no word goes on with it. -/
theorem attach_of_apart {c : Char} (hc : Condition.isOperator c = false) {rest : List Piece}
    (hrest : c.isAlphanum = true → Apart rest) :
    attach c (tokens rest) = attach c [] ++ tokens rest := by
  by_cases hblank : c.isWhitespace = true
  · unfold attach
    rw [if_pos hblank, if_pos hblank]
    rfl
  · rw [Bool.not_eq_true] at hblank
    have halone : attach c [] = [.word (String.singleton c)] := by
      unfold attach
      rw [hblank]
      rfl
    rw [halone]
    cases hplain : c.isAlphanum with
    | true => exact hrest hplain c hplain
    | false =>
      refine Condition.attach_mark hblank (fun d => ?_) _
      rw [Condition.belong, hplain, hc, Bool.false_and, Bool.false_and, Bool.or_false]

/-- A word that ends in no operator reads as its own tokens, if no word goes on with its end. -/
theorem close_word {text : String} {c : Char} (hlast : text.toList.getLast? = some c)
    (hc : Condition.isOperator c = false) {rest : List Piece}
    (hrest : c.isAlphanum = true → Apart rest) :
    close (tokens (.word text :: rest)) = textTokens text ++ close (tokens rest) := by
  obtain ⟨front, hchars⟩ := List.getLast?_eq_some_iff.mp hlast
  have hfold : ∀ front : List Char, (front ++ [c]).foldr attach (tokens rest) =
      (front ++ [c]).foldr attach [] ++ tokens rest := by
    intro front
    induction front with
    | nil => exact attach_of_apart hc hrest
    | cons d front ih =>
      have hne : (front ++ [c]).foldr attach [] ≠ [] := by
        cases front with
        | nil => exact attach_ne_nil _ _
        | cons => exact attach_ne_nil _ _
      rw [List.cons_append, List.foldr_cons, List.foldr_cons, ih, attach_append d hne]
  rw [tokens, textTokens, hchars, hfold front]
  exact List.filter_append _ _

theorem readAs_word {text : String} {c : Char} (hlast : text.toList.getLast? = some c)
    (hc : Condition.isOperator c = false) : ReadAs [.word text] (textTokens text) :=
  fun _ hrest => close_word hlast hc fun _ => hrest

/-- Pieces with a separator between each two read as their tokens with a word between them. -/
theorem readAs_join {separator word : String} (hapart : ∀ rest, Apart (.word separator :: rest))
    (hword : ∀ behind, close (tokens (.word separator :: behind)) =
      .word word :: close (tokens behind))
    {α : Type} {items : List α} {pieces : α → List Piece} {expected : α → List Token}
    (h : ∀ a ∈ items, ReadAs (pieces a) (expected a)) :
    ReadAs (join separator (items.map pieces))
      (Condition.joinWords word (items.map expected)) := by
  induction items with
  | nil => exact fun rest _ => rfl
  | cons item others ih =>
    rw [List.forall_mem_cons] at h
    cases others with
    | nil =>
      intro rest hrest
      show close (tokens (pieces item ++ rest)) = expected item ++ [] ++ _
      rw [List.append_nil]
      exact h.1 rest hrest
    | cons next others =>
      intro rest hrest
      rw [List.map_cons, List.map_cons, join_cons_cons, ← List.map_cons, List.append_assoc,
        List.cons_append, h.1 _ (hapart _), hword, ih h.2 rest hrest]
      simp only [Condition.joinWords, List.map_cons, List.flatMap_cons, List.cons_append,
        List.append_assoc]

end Piece

/-- The tokens of a column, whatever comes behind it. -/
theorem ColumnRef.tokens_pieces (column : ColumnRef) (rest : List Piece) :
    Piece.tokens (column.pieces ++ rest) = column.tokens ++ Piece.tokens rest := by
  unfold pieces tokens
  cases column.table with
  | none => rfl
  | some table =>
    show .name table :: attach '.' (.name column.name :: Piece.tokens rest) = _
    rw [Condition.attach_dot]
    rfl

namespace Predicate

open Piece (ReadAs)

/-- The words behind the column of a comparison. -/
theorem readAs_behind (column : ColumnRef) {behind : List Piece} {expected : List Token}
    (h : ReadAs behind expected) :
    ReadAs (column.pieces ++ behind) (column.tokens ++ expected) := by
  intro rest hrest
  have hcolumn : close column.tokens = column.tokens := by
    unfold ColumnRef.tokens
    cases column.table <;> rfl
  rw [List.append_assoc, column.tokens_pieces, close, List.filter_append]
  show close column.tokens ++ close (Piece.tokens (behind ++ rest)) = _
  rw [hcolumn, h rest hrest, List.append_assoc]

theorem readAs_isNull : ReadAs [.word " IS NULL"] Test.isNull.tokens :=
  Piece.readAs_word (c := 'L') rfl rfl

theorem readAs_isNotNull : ReadAs [.word " IS NOT NULL"] Test.isNotNull.tokens :=
  Piece.readAs_word (c := 'L') rfl rfl

theorem readAs_compare {op : Comparator} (h : op.needsValue = true) (value : SqlValue) :
    ReadAs [.word (" " ++ op.sql ++ " "), .bound value] (Test.compare op value).tokens := by
  intro rest _
  cases op with
  | isNull => cases h
  | isNotNull => cases h
  | _ => rfl

/-- A comparison reads as its column and what it asks of it. -/
theorem readAs_comparison (comparison : Comparison) :
    ReadAs (comparisonPieces comparison.column comparison.op comparison.value)
      (comparison.column.tokens ++ comparison.test.tokens) := by
  obtain ⟨column, op, value⟩ := comparison
  have hnull := readAs_behind column readAs_isNull
  have hnotNull := readAs_behind column readAs_isNotNull
  have hvalue : ∀ op : Comparator, op.needsValue = true →
      ReadAs (column.pieces ++ [.word (" " ++ op.sql ++ " "), .bound (.ofJson value)])
        (column.tokens ++ (Test.compare op (.ofJson value)).tokens) :=
    fun op h => readAs_behind column (readAs_compare h _)
  unfold comparisonPieces Comparison.test
  cases op with
  | isNull => exact hnull
  | isNotNull => exact hnotNull
  | eq =>
    cases hasked : value.isNull with
    | true => exact hnull
    | false => exact hvalue .eq rfl
  | ne =>
    cases hasked : value.isNull with
    | true => exact hnotNull
    | false => exact hvalue .ne rfl
  | gt => exact hvalue .gt rfl
  | gte => exact hvalue .gte rfl
  | lt => exact hvalue .lt rfl
  | lte => exact hvalue .lte rfl
  | like => exact hvalue .like rfl

/-- Conditions with a connective between them read as their tokens with its word between them. -/
theorem readAs_join (connective : Connective) {children : List Predicate}
    (h : ∀ child ∈ children, ReadAs child.pieces child.tokens) :
    ReadAs (Piece.join (" " ++ connective.sql ++ " ") (children.map pieces))
      (Condition.joinWords connective.sql (children.map tokens)) := by
  have hword : ∀ behind, close (Piece.tokens (.word (" " ++ connective.sql ++ " ") :: behind)) =
      .word connective.sql :: close (Piece.tokens behind) := by
    intro behind
    cases connective with
    | _ => rfl
  exact Piece.readAs_join (Piece.apart_connective connective) hword h

/-- A predicate reads as its tokens, wherever it stands. -/
theorem readAs_pieces (p : Predicate) : ReadAs p.pieces p.tokens := by
  induction p using Predicate.induct with
  | compare column op value =>
    rw [pieces, tokens]
    exact readAs_comparison ⟨column, op, value⟩
  | join connective children ih =>
    rw [pieces, tokens, piecesAll_eq_map, tokensAll_eq_map]
    cases children with
    | nil =>
      cases connective with
      | and => exact Piece.readAs_word (c := '1') rfl rfl
      | or => exact Piece.readAs_word (c := '0') rfl rfl
    | cons first others =>
      cases others with
      | nil => exact ih first (List.mem_singleton_self first)
      | cons second others =>
        intro rest _
        show close (attach '(' (Piece.tokens (Piece.join (" " ++ connective.sql ++ " ")
          ((first :: second :: others).map pieces) ++ [.word ")"] ++ rest))) = _
        have hclose : close (Piece.tokens (.word ")" :: rest)) =
            .word ")" :: close (Piece.tokens rest) := by
          show close (attach ')' (Piece.tokens rest)) = _
          rw [Condition.attach_close]
          rfl
        rw [Condition.attach_open, List.append_assoc]
        show .word "(" :: close (Piece.tokens (_ ++ .word ")" :: rest)) = _
        rw [readAs_join connective ih _ (Piece.apart_close rest), hclose]
        show _ = .word "(" :: (Condition.joinWords connective.sql _ ++ [.word ")"]) ++ _
        rw [List.cons_append, List.append_assoc]
        rfl

/-- The text of a predicate reads as its tokens, each placeholder as its own parameter. -/
theorem read?_textFrom (dialect : Dialect) (p : Predicate) (earlier : List SqlValue) :
    Condition.read? dialect (earlier ++ Piece.values p.pieces) earlier.length
      (Piece.textFrom dialect (earlier.length + 1) p.pieces) = some p.tokens := by
  have htokens := readAs_pieces p [] Piece.apart_nil
  rw [List.append_nil] at htokens
  rw [Piece.read?_textFrom dialect (fits_pieces p).wellSpaced, htokens]
  exact congrArg some (List.append_nil p.tokens)

end Predicate

end SqlFederation
