import SqlFederation.Proofs.ConditionGrammar

/-!
# The ORDER BY clause of a statement

`Statement.orderTerms?` reads the text of a statement up to its ORDER BY clause and the clause by
the grammar of ORDER BY: a term is a column, or `IS NULL` of one, with a direction and with the
place of its nulls if that is said. `Select.orderTerms?_ofPieces` says that the text of a select
reads as the terms of its sort keys (`SortKey.terms`), in every dialect.

The text is taken apart piece by piece. No word in front of the clause starts it, whatever the
outputs, conditions and groups are (`Select.leads_front`). The sort keys read as their terms with
commas between them (`Select.readAs_orderBy`), and the terms end where the page starts
(`OrderTerm.clause?_tokens`).
-/

namespace SqlFederation

open Condition (Token Reader attach close joinWords)

/-- A term of an ORDER BY clause. -/
structure OrderTerm where
  column : ColumnRef
  /-- Is the term about the column being null? -/
  asksForNull : Bool
  direction : Direction
  /-- Where nulls stand, if the term says it. -/
  nullsFirst : Option Bool
  deriving DecidableEq

namespace OrderTerm

/-! ## Reading -/

/-- Reads what behind a column asks whether it is null. -/
def readNull : List Token → Bool × List Token
  | .word "IS" :: .word "NULL" :: rest => (true, rest)
  | rest => (false, rest)

/-- Reads a direction, which is ascending if nothing is said. -/
def readDirection : List Token → Direction × List Token
  | .word "ASC" :: rest => (.asc, rest)
  | .word "DESC" :: rest => (.desc, rest)
  | rest => (.asc, rest)

/-- Reads the place of nulls. -/
def readPlace : List Token → Option Bool × List Token
  | .word "NULLS" :: .word "FIRST" :: rest => (some true, rest)
  | .word "NULLS" :: .word "LAST" :: rest => (some false, rest)
  | rest => (none, rest)

/-- Reads a term. -/
def read? : Reader OrderTerm := fun tokens => do
  let (column, rest) ← Condition.column? tokens
  let (asksForNull, rest) := readNull rest
  let (direction, rest) := readDirection rest
  let (nullsFirst, rest) := readPlace rest
  some (⟨column, asksForNull, direction, nullsFirst⟩, rest)

/-- Reads terms with a comma between each two, of which there are at most so many. -/
def readAll? : Nat → Reader (List OrderTerm)
  | 0, _ => none
  | most + 1, tokens => do
    let (term, rest) ← read? tokens
    match rest with
    | .word "," :: rest => do
      let (terms, rest) ← readAll? most rest
      some (term :: terms, rest)
    | rest => some ([term], rest)

/-- Is this the first word of the clause, or of the page behind it? -/
def isBorder : Token → Bool
  | .word text => ["ORDER", "LIMIT", "OFFSET"].contains text
  | _ => false

/-- Does the clause end in front of these tokens? -/
def isEnd : List Token → Bool
  | [] => true
  | .word text :: _ => text == "LIMIT" || text == "OFFSET"
  | _ => false

/-- Reads what is behind the conditions and groups of a statement: the clause, if there is one. -/
def clause? : List Token → Option (List OrderTerm)
  | .word "ORDER" :: .word "BY" :: rest => do
    let (terms, behind) ← readAll? rest.length rest
    if isEnd behind then some terms else none
  | rest => if isEnd rest then some [] else none

end OrderTerm

/-- Reads the terms of the ORDER BY clause; a statement without the clause has none. -/
def Statement.orderTerms? (dialect : Dialect) (statement : Statement) : Option (List OrderTerm) :=
  (Condition.read? dialect statement.params 0 statement.sql).bind fun tokens =>
    OrderTerm.clause? (tokens.dropWhile fun token => !OrderTerm.isBorder token)

/-! ## The terms of a select -/

/-- A sort key as a term that places nulls. -/
def SortKey.placed (key : SortKey) : OrderTerm :=
  ⟨key.column, false, key.direction, some key.nullsFirst⟩

/-- The terms that a sort key should be written with. -/
def SortKey.terms (dialect : Dialect) (key : SortKey) : List OrderTerm :=
  match dialect with
  | .mysql =>
    [⟨key.column, true, if key.nullsFirst then .desc else .asc, none⟩,
      ⟨key.column, false, key.direction, none⟩]
  | _ => [key.placed]

namespace OrderTerm

/-- The tokens behind the column of a term. -/
def tokensBehind (term : OrderTerm) : List Token :=
  (if term.asksForNull then [.word "IS", .word "NULL"] else []) ++ .word term.direction.sql ::
    match term.nullsFirst with
    | some true => [.word "NULLS", .word "FIRST"]
    | some false => [.word "NULLS", .word "LAST"]
    | none => []

/-- The tokens that a term should be written with. -/
def tokens (term : OrderTerm) : List Token :=
  term.column.tokens ++ term.tokensBehind

/-- Do these tokens not go on with a term? -/
def Stops (rest : List Token) : Prop :=
  isEnd rest = true ∨ rest.head? = some (.word ",")

/-- A column is read in front of a word that is no dot. -/
theorem column?_tokens (column : ColumnRef) {word : String} (hword : word ≠ ".")
    (rest : List Token) :
    Condition.column? (column.tokens ++ .word word :: rest) =
      some (column, .word word :: rest) := by
  obtain ⟨table, name⟩ := column
  cases table with
  | some table => rfl
  | none =>
    show Condition.column? (.name name :: .word word :: rest) = _
    unfold Condition.column?
    split
    · rename_i heq
      cases heq
      exact absurd rfl hword
    · rename_i heq
      cases heq
      rfl
    · rename_i hnone
      exact absurd rfl (hnone name _)

theorem text_of_isEnd {text : String} {rest : List Token} (h : isEnd (.word text :: rest) = true) :
    text = "LIMIT" ∨ text = "OFFSET" := by
  simpa [isEnd] using h

/-- Nothing is said of nulls where a term ends. -/
theorem readPlace_of_stops {rest : List Token} (h : Stops rest) :
    readPlace rest = (none, rest) := by
  have hword : ∀ behind, rest ≠ .word "NULLS" :: behind := by
    rintro behind rfl
    obtain hend | hcomma := h
    · exact absurd (text_of_isEnd hend) (by decide)
    · exact absurd hcomma (by simp)
  unfold readPlace
  split
  · exact absurd rfl (hword _)
  · exact absurd rfl (hword _)
  · rfl

/-- A term is read in front of what does not go on with it. -/
theorem read?_tokens (term : OrderTerm) {rest : List Token} (hrest : Stops rest) :
    read? (term.tokens ++ rest) = some (term, rest) := by
  obtain ⟨column, asksForNull, direction, nullsFirst⟩ := term
  have hplace : ∀ place : Option Bool, readPlace ((match place with
      | some true => [.word "NULLS", .word "FIRST"]
      | some false => [.word "NULLS", .word "LAST"]
      | none => []) ++ rest) = (place, rest) := by
    intro place
    match place with
    | some true => rfl
    | some false => rfl
    | none => exact readPlace_of_stops hrest
  have hdirection : ∀ behind,
      readDirection (.word direction.sql :: behind) = (direction, behind) := by
    intro behind
    cases direction <;> rfl
  have hplain : ∀ behind, readNull (.word direction.sql :: behind) =
      (false, .word direction.sql :: behind) := by
    intro behind
    cases direction <;> rfl
  have hdot : direction.sql ≠ "." := by
    cases direction <;> decide
  unfold tokens tokensBehind read?
  cases asksForNull with
  | true =>
    have hcolumn := column?_tokens column (show "IS" ≠ "." by decide)
    simp only [if_true, List.append_assoc, List.cons_append, List.nil_append, hcolumn, readNull,
      hdirection, hplace, Option.bind_eq_bind, Option.bind_some]
  | false =>
    have hcolumn := column?_tokens column hdot
    simp only [Bool.false_eq_true, if_false, List.append_assoc, List.cons_append, List.nil_append,
      hcolumn, hplain, hdirection, hplace, Option.bind_eq_bind, Option.bind_some]

/-- Terms are read up to the end of the clause. -/
theorem readAll?_tokens {terms : List OrderTerm} (hne : terms ≠ []) {rest : List Token}
    (hrest : isEnd rest = true) {most : Nat} (hmost : terms.length ≤ most) :
    readAll? most (joinWords "," (terms.map tokens) ++ rest) = some (terms, rest) := by
  induction terms generalizing most with
  | nil => exact absurd rfl hne
  | cons term others ih =>
    obtain ⟨most, rfl⟩ := Nat.exists_eq_add_of_le' (Nat.one_le_of_lt hmost)
    have hothers := Nat.le_of_succ_le_succ hmost
    cases others with
    | nil =>
      have hend : ∀ behind, rest ≠ .word "," :: behind := by
        rintro behind rfl
        exact absurd (text_of_isEnd hrest) (by decide)
      rw [List.map_singleton, joinWords, List.flatMap_nil, List.append_nil, readAll?,
        read?_tokens term (Or.inl hrest)]
      show (match rest with
        | .word "," :: rest => _
        | rest => _) = _
      split
      · rename_i behind
        exact absurd rfl (hend behind)
      · rfl
    | cons next others =>
      have hjoin : joinWords "," ((term :: next :: others).map tokens) =
          term.tokens ++ .word "," :: joinWords "," ((next :: others).map tokens) := by
        simp only [joinWords, List.map_cons, List.flatMap_cons, List.cons_append]
      rw [hjoin, List.append_assoc, readAll?, read?_tokens term (Or.inr rfl)]
      show (readAll? most (joinWords "," ((next :: others).map tokens) ++ rest)).bind _ = _
      rw [ih (List.cons_ne_nil _ _) hothers]
      rfl

/-- Terms have at least as many tokens as there are terms. -/
theorem length_le_tokens (terms : List OrderTerm) :
    terms.length ≤ (joinWords "," (terms.map tokens)).length := by
  cases terms with
  | nil => exact Nat.zero_le _
  | cons term others =>
    have hfirst : 1 ≤ term.tokens.length := by
      rw [tokens, tokensBehind, List.length_append, List.length_append, List.length_cons]
      omega
    have hothers : others.length ≤
        (others.flatMap fun other => .word "," :: other.tokens).length := by
      rw [List.length_flatMap]
      calc others.length = (others.map fun other => (.word "," :: other.tokens).length).length :=
            (List.length_map _).symm
        _ ≤ _ := List.length_le_sum_of_one_le _ (by simp)
    rw [List.map_cons, joinWords, List.flatMap_map, List.length_append, List.length_cons]
    omega

/-- Behind the words ORDER BY, terms are read up to the end. -/
theorem clause?_tokens {terms : List OrderTerm} (hne : terms ≠ []) {rest : List Token}
    (hrest : isEnd rest = true) :
    clause? (.word "ORDER" :: .word "BY" :: (joinWords "," (terms.map tokens) ++ rest)) =
      some terms := by
  have hlength : terms.length ≤ (joinWords "," (terms.map tokens) ++ rest).length := by
    rw [List.length_append]
    exact (length_le_tokens terms).trans (Nat.le_add_right _ _)
  rw [clause?, readAll?_tokens hne hrest hlength]
  show (if isEnd rest = true then some terms else none) = some terms
  rw [if_pos hrest]

/-- Without the words ORDER BY there are no terms. -/
theorem clause?_of_isEnd {rest : List Token} (hrest : isEnd rest = true) :
    clause? rest = some [] := by
  unfold clause?
  split
  · exact absurd (text_of_isEnd hrest) (by decide)
  · rw [if_pos hrest]

/-- The end of the clause starts with a border. -/
theorem dropWhile_of_isEnd {rest : List Token} (hrest : isEnd rest = true) :
    rest.dropWhile (fun token => !isBorder token) = rest := by
  cases rest with
  | nil => rfl
  | cons token rest =>
    cases token with
    | word text =>
      obtain rfl | rfl := text_of_isEnd hrest <;> rfl
    | _ => cases hrest

end OrderTerm

/-! ## The tokens of a select -/

namespace Piece

theorem ReadAs.append {front back : List Piece} {a b : List Token} (hfront : ReadAs front a)
    (hback : ReadAs back b) (hapart : ∀ rest, Apart rest → Apart (back ++ rest)) :
    ReadAs (front ++ back) (a ++ b) := by
  intro rest hrest
  rw [List.append_assoc, hfront _ (hapart rest hrest), hback rest hrest, List.append_assoc]

theorem readAs_column (column : ColumnRef) : ReadAs column.pieces column.tokens := by
  have hnothing : ReadAs [] [] := fun rest _ => rfl
  have h := Predicate.readAs_behind column hnothing
  rwa [List.append_nil, List.append_nil] at h

/-- A comma is a word of its own. -/
theorem close_comma (rest : List Piece) :
    close (tokens (.word ", " :: rest)) = .word "," :: close (tokens rest) :=
  close_word (c := ' ') rfl rfl nofun

theorem apart_comma (rest : List Piece) : Apart (.word ", " :: rest) := by
  have hcomma : tokens (.word ", " :: rest) =
      .word (String.singleton ',') :: attach ' ' (tokens rest) := by
    show attach ',' (attach ' ' (tokens rest)) = _
    exact Condition.attach_mark rfl (fun _ => rfl) _
  exact apart_mark rfl rfl hcomma

end Piece

open Piece (ReadAs Apart readAs_word)

namespace SortKey

/-- A column and the text behind it read as a term. -/
theorem readAs_term {term : OrderTerm} {behind : List Piece} (h : ReadAs behind term.tokensBehind) :
    ReadAs (term.column.pieces ++ behind) term.tokens :=
  Predicate.readAs_behind term.column h

/-- A sort key reads as its terms. -/
theorem readAs_pieces (dialect : Dialect) (key : SortKey) :
    ReadAs (key.pieces dialect) (joinWords "," ((key.terms dialect).map OrderTerm.tokens)) := by
  obtain ⟨column, direction, nullsFirst⟩ := key
  have hdirection : ReadAs [.word (" " ++ direction.sql)]
      (OrderTerm.tokensBehind ⟨column, false, direction, none⟩) := by
    cases direction <;> exact readAs_word (c := 'C') rfl rfl
  -- Where nulls are placed by name, there is one term.
  have hplaced : ReadAs [.word (" " ++ direction.sql ++
      if nullsFirst then " NULLS FIRST" else " NULLS LAST")]
      (OrderTerm.tokensBehind ⟨column, false, direction, some nullsFirst⟩) := by
    cases direction <;> cases nullsFirst <;> exact readAs_word (c := 'T') rfl rfl
  have hone := readAs_term hplaced
  rw [← List.append_nil (OrderTerm.tokens _)] at hone
  cases dialect with
  | sqlite => exact hone
  | postgres => exact hone
  | mysql =>
    -- The comma between the two terms is written with the first of them.
    have hnull : ∀ rest, close (Piece.tokens
        (.word (if nullsFirst then " IS NULL DESC, " else " IS NULL ASC, ") :: rest)) =
        OrderTerm.tokensBehind ⟨column, true, if nullsFirst then .desc else .asc, none⟩ ++
          .word "," :: close (Piece.tokens rest) := by
      intro rest
      cases nullsFirst <;> exact Piece.close_word (c := ' ') rfl rfl nofun
    have hbehind : ReadAs (.word (if nullsFirst then " IS NULL DESC, " else " IS NULL ASC, ") ::
        (column.pieces ++ [.word (" " ++ direction.sql)]))
        (OrderTerm.tokensBehind ⟨column, true, if nullsFirst then .desc else .asc, none⟩ ++
          .word "," :: OrderTerm.tokens ⟨column, false, direction, none⟩) := by
      intro rest hrest
      rw [List.cons_append, hnull, readAs_term hdirection rest hrest, ← List.cons_append,
        ← List.append_assoc]
    have htwo := Predicate.readAs_behind column hbehind
    show ReadAs (column.pieces ++ [.word (if nullsFirst then _ else _)] ++ column.pieces ++ [_])
      (OrderTerm.tokens _ ++ (.word "," :: OrderTerm.tokens _ ++ []))
    rw [List.append_nil, List.append_assoc, List.append_assoc, OrderTerm.tokens, List.append_assoc]
    exact htwo

theorem terms_ne_nil (dialect : Dialect) (key : SortKey) : key.terms dialect ≠ [] := by
  cases dialect with
  | _ => exact List.cons_ne_nil _ _

end SortKey

/-- The word in front of joined parts is in front of each of them. -/
theorem cons_joinWords (word : String) {parts : List (List Token)} (h : parts ≠ []) :
    .word word :: joinWords word parts = parts.flatMap fun part => .word word :: part := by
  obtain ⟨first, others, rfl⟩ := List.exists_cons_of_ne_nil h
  rw [joinWords, List.flatMap_cons, List.cons_append]

/-- Joined parts that are joined are one joined list, if none of them is empty. -/
theorem joinWords_flatMap (word : String) {α : Type} {items : List α}
    {parts : α → List (List Token)} (h : ∀ item ∈ items, parts item ≠ []) :
    joinWords word (items.map fun item => joinWords word (parts item)) =
      joinWords word (items.flatMap parts) := by
  cases items with
  | nil => rfl
  | cons item others =>
    rw [List.forall_mem_cons] at h
    obtain ⟨first, rest, hparts⟩ := List.exists_cons_of_ne_nil h.1
    have hothers : (others.flatMap fun item => .word word :: joinWords word (parts item)) =
        (others.flatMap parts).flatMap fun part => .word word :: part := by
      rw [List.flatMap_assoc]
      exact List.flatMap_congr fun item hitem => cons_joinWords word (h.2 item hitem)
    rw [List.map_cons, List.flatMap_cons, hparts, List.cons_append, joinWords, joinWords, joinWords,
      List.flatMap_map, hothers, List.flatMap_append, List.append_assoc]

/-- The sort keys read as their terms. -/
theorem Select.readAs_orderBy (dialect : Dialect) (keys : List SortKey) :
    ReadAs (Piece.join ", " (keys.map (SortKey.pieces dialect)))
      (joinWords "," ((keys.flatMap (SortKey.terms dialect)).map OrderTerm.tokens)) := by
  have h := Piece.readAs_join Piece.apart_comma Piece.close_comma
    fun key (_ : key ∈ keys) => key.readAs_pieces dialect
  rw [joinWords_flatMap "," fun key _ => mt List.map_eq_nil_iff.mp (key.terms_ne_nil dialect)] at h
  rwa [List.map_flatMap]

/-! ## In front of the clause and behind it -/

namespace Piece

/-- Pieces that read as tokens among which neither the clause nor the page starts. -/
def Leads (pieces : List Piece) : Prop :=
  ∃ expected, ReadAs pieces expected ∧ ∀ token ∈ expected, OrderTerm.isBorder token = false

theorem leads_nil : Leads [] :=
  ⟨[], fun _ _ => rfl, List.forall_mem_nil _⟩

theorem leads_name (identifier : String) : Leads [.name identifier] :=
  ⟨[.name identifier], fun _ _ => rfl, List.forall_mem_singleton.mpr rfl⟩

theorem Leads.append {front back : List Piece} (hfront : Leads front) (hback : Leads back)
    (hapart : ∀ rest, Apart rest → Apart (back ++ rest)) : Leads (front ++ back) := by
  obtain ⟨a, hfront, ha⟩ := hfront
  obtain ⟨b, hback, hb⟩ := hback
  exact ⟨a ++ b, hfront.append hback hapart, List.forall_mem_append.mpr ⟨ha, hb⟩⟩

/-- A word that ends in a blank or in a mark may stand in front of anything. -/
theorem Leads.word {text : String} {c : Char} (hlast : text.toList.getLast? = some c)
    (hplain : c.isAlphanum = false) (hoperator : Condition.isOperator c = false)
    (htext : (textTokens text).all fun token => !OrderTerm.isBorder token) {pieces : List Piece}
    (h : Leads pieces) : Leads (.word text :: pieces) := by
  obtain ⟨expected, hreads, hexpected⟩ := h
  refine ⟨textTokens text ++ expected, fun rest hrest => ?_, ?_⟩
  · rw [List.cons_append, close_word hlast hoperator fun h => absurd h (by rw [hplain]; decide),
      hreads rest hrest, List.append_assoc]
  · rw [List.forall_mem_append]
    exact ⟨by simpa using htext, hexpected⟩

/-- A word that ends in no operator, and does not start the clause or the page. -/
theorem leads_word {text : String} {c : Char} (hlast : text.toList.getLast? = some c)
    (hoperator : Condition.isOperator c = false)
    (htext : (textTokens text).all fun token => !OrderTerm.isBorder token) : Leads [.word text] :=
  ⟨textTokens text, readAs_word hlast hoperator, by simpa using htext⟩

theorem isBorder_column (column : ColumnRef) :
    ∀ token ∈ column.tokens, OrderTerm.isBorder token = false := by
  obtain ⟨table, name⟩ := column
  cases table with
  | none => exact List.forall_mem_singleton.mpr rfl
  | some table => simp [ColumnRef.tokens, OrderTerm.isBorder]

theorem leads_column (column : ColumnRef) : Leads column.pieces :=
  ⟨column.tokens, readAs_column column, isBorder_column column⟩

/-- Parts with a comma between each two. -/
theorem leads_join {α : Type} {items : List α} {pieces : α → List Piece}
    (h : ∀ item ∈ items, Leads (pieces item)) : Leads (join ", " (items.map pieces)) :=
  join_of_each leads_nil (fun hfront hback => hfront.append
    (hback.word (c := ' ') rfl rfl rfl rfl) fun _ _ => apart_comma _) h

end Piece

open Piece (Leads)

theorem Output.leads_pieces (output : Output) : Leads output.pieces := by
  have hlabel : ∀ label, Leads [.word " AS ", .name label] := fun label =>
    (Piece.leads_name label).word (c := ' ') rfl rfl rfl rfl
  have hlabelApart : ∀ label rest, Apart rest → Apart ([.word " AS ", .name label] ++ rest) :=
    fun _ _ _ => Piece.apart_blank rfl _
  have hclose : ∀ label, Leads [.word ")", .word " AS ", .name label] := fun label =>
    (hlabel label).word (c := ')') rfl rfl rfl rfl
  unfold pieces
  split
  · rename_i column _
    split
    · exact Piece.leads_column column
    · exact (Piece.leads_column column).append (hlabel _) (hlabelApart _)
  · rename_i function column _
    have hfunction : (Text.upper function.name ++ "(").toList.getLast? = some '(' ∧
        (Piece.textTokens (Text.upper function.name ++ "(")).all
          (fun token => !OrderTerm.isBorder token) = true := by
      cases function <;> exact ⟨by decide, by decide⟩
    refine Leads.word hfunction.1 rfl rfl hfunction.2 (Leads.append ?_ (hclose output.name)
      fun rest _ => Piece.apart_close _)
    cases column with
    | none => exact Piece.leads_word (c := '*') rfl rfl rfl
    | some column => exact Piece.leads_column column

namespace Predicate

theorem leads_comparisonPieces (comparison : Comparison) :
    Leads (comparisonPieces comparison.column comparison.op comparison.value) := by
  have htest : ∀ token ∈ comparison.test.tokens, OrderTerm.isBorder token = false := by
    cases comparison.test with
    | compare op value =>
      cases op <;> simp [Condition.Test.tokens, Comparator.sql, OrderTerm.isBorder]
    | _ => decide
  exact ⟨_, readAs_comparison comparison,
    List.forall_mem_append.mpr ⟨Piece.isBorder_column comparison.column, htest⟩⟩

theorem leads_pieces (p : Predicate) : Leads p.pieces := by
  induction p using Predicate.induct with
  | compare column op value =>
    rw [pieces]
    exact leads_comparisonPieces ⟨column, op, value⟩
  | join connective children ih =>
    rw [pieces, piecesAll_eq_map]
    have hjoin : Leads (Piece.join (" " ++ connective.sql ++ " ") (children.map pieces)) := by
      refine Piece.join_of_each Piece.leads_nil (fun hfront hback => hfront.append ?_
        fun _ _ => Piece.apart_connective connective _) ih
      cases connective with
      | _ => exact hback.word (c := ' ') rfl rfl rfl rfl
    cases children with
    | nil =>
      cases connective with
      | and => exact Piece.leads_word (c := '1') rfl rfl rfl
      | or => exact Piece.leads_word (c := '0') rfl rfl rfl
    | cons first others =>
      cases others with
      | nil => exact ih first (List.mem_singleton_self first)
      | cons second others =>
        have hclose : Leads [.word ")"] := Piece.leads_word (c := ')') rfl rfl rfl
        exact Leads.word (c := '(') rfl rfl rfl rfl
          (hjoin.append hclose fun _ _ => Piece.apart_close _)

theorem leads_whereClause (predicate : Option Predicate) : Leads (whereClause predicate) := by
  cases predicate with
  | none => exact Piece.leads_nil
  | some p => exact (leads_pieces p).word (c := ' ') rfl rfl rfl rfl

end Predicate

namespace Select

/-- The pieces in front of the ORDER BY clause. -/
def front (select : Select) : List Piece :=
  let outputs := match select.outputs with
    | [] => [.word "*"]
    | outputs => Piece.join ", " (outputs.map Output.pieces)
  let groups := match select.groupBy with
    | [] => []
    | columns => .word " GROUP BY " :: Piece.join ", " (columns.map ColumnRef.pieces)
  .word "SELECT " :: outputs ++ [.word " FROM ", .name select.table] ++
    Predicate.whereClause select.predicate ++ groups

/-- The pieces of the ORDER BY clause. -/
def orderClause (dialect : Dialect) (select : Select) : List Piece :=
  match select.orderBy with
  | [] => []
  | keys => .word " ORDER BY " :: Piece.join ", " (keys.map (SortKey.pieces dialect))

/-- A read is what is in front of its order, its order and its page. -/
theorem pieces_eq (dialect : Dialect) (select : Select) :
    select.pieces dialect = select.front ++ select.orderClause dialect ++
      [.word (pageClause dialect select.limit select.offset)] := rfl

theorem leads_front (select : Select) : Leads select.front := by
  have hgroups : ∀ columns : List ColumnRef,
      Leads (.word " GROUP BY " :: Piece.join ", " (columns.map ColumnRef.pieces)) := fun columns =>
    (Piece.leads_join fun column _ => Piece.leads_column column).word (c := ' ') rfl rfl rfl rfl
  have htable : Leads [.word " FROM ", .name select.table] :=
    (Piece.leads_name select.table).word (c := ' ') rfl rfl rfl rfl
  unfold front
  refine Leads.word (c := ' ') rfl rfl rfl rfl (((Leads.append ?outputs htable
    fun _ _ => Piece.apart_blank rfl _).append (Predicate.leads_whereClause select.predicate)
      ?whereApart).append ?groups ?groupsApart)
  case outputs =>
    split
    · exact Piece.leads_word (c := '*') rfl rfl rfl
    · exact Piece.leads_join fun output _ => output.leads_pieces
  case whereApart =>
    intro rest hrest
    cases select.predicate with
    | none => exact hrest
    | some p => exact Piece.apart_blank rfl _
  case groups =>
    split
    · exact Piece.leads_nil
    · exact hgroups _
  case groupsApart =>
    intro rest hrest
    split
    · exact hrest
    · exact Piece.apart_blank rfl _

end Select

namespace Piece

/-- A word in two parts. -/
theorem tokens_append_word (front back : String) (rest : List Piece) :
    tokens (.word (front ++ back) :: rest) = tokens (.word front :: .word back :: rest) := by
  rw [tokens, String.toList_append, List.foldr_append]
  rfl

/-- The page is empty or starts with its own word. -/
theorem pageClause_cases (dialect : Dialect) (limit offset : Option Nat) :
    pageClause dialect limit offset = "" ∨
      ∃ behind, pageClause dialect limit offset = " LIMIT " ++ behind ∨
        pageClause dialect limit offset = " OFFSET " ++ behind := by
  have hunlimited : ∀ number behind : String, " LIMIT " ++ number ++ " OFFSET " ++ behind =
      " LIMIT " ++ (number ++ " OFFSET " ++ behind) := fun number behind => by
    rw [String.append_assoc, String.append_assoc, String.append_assoc]
  cases limit with
  | none =>
    cases offset with
    | none => exact Or.inl rfl
    | some offset =>
      refine Or.inr ?_
      cases dialect with
      | sqlite => exact ⟨_, Or.inl (hunlimited "-1" (toString offset))⟩
      | postgres => exact ⟨_, Or.inr rfl⟩
      | mysql => exact ⟨_, Or.inl (hunlimited "18446744073709551615" (toString offset))⟩
  | some limit =>
    cases offset with
    | none => exact Or.inr ⟨_, Or.inl rfl⟩
    | some offset => exact Or.inr ⟨_, Or.inl (hunlimited (toString limit) (toString offset))⟩

theorem isEnd_pageClause (dialect : Dialect) (limit offset : Option Nat) :
    OrderTerm.isEnd (close (tokens [.word (pageClause dialect limit offset)])) = true := by
  obtain hpage | ⟨behind, hpage | hpage⟩ := pageClause_cases dialect limit offset
  · rw [hpage]
    rfl
  · rw [hpage, tokens_append_word, close_word (c := ' ') rfl rfl nofun]
    rfl
  · rw [hpage, tokens_append_word, close_word (c := ' ') rfl rfl nofun]
    rfl

theorem apart_pageClause (dialect : Dialect) (limit offset : Option Nat) :
    Apart [.word (pageClause dialect limit offset)] := by
  have hblank : ∀ {front back : String}, front.toList.head? = some ' ' →
      Apart [.word (front ++ back)] := fun {front back} h => by
    refine apart_blank ?_ []
    rw [String.toList_append, List.head?_append, h]
    rfl
  obtain hpage | ⟨behind, hpage | hpage⟩ := pageClause_cases dialect limit offset
  · rw [hpage]
    exact apart_nil
  · rw [hpage]
    exact hblank rfl
  · rw [hpage]
    exact hblank rfl

end Piece

namespace Select

/-- The text of a rendered select reads as the terms of its sort keys. -/
theorem orderTerms?_ofPieces (dialect : Dialect) (select : Select) :
    (Statement.ofPieces dialect (select.pieces dialect)).orderTerms? dialect =
      some (select.orderBy.flatMap (SortKey.terms dialect)) := by
  obtain ⟨expected, hreads, hexpected⟩ := select.leads_front
  have hpage := Piece.apart_pageClause dialect select.limit select.offset
  have hend := Piece.isEnd_pageClause dialect select.limit select.offset
  generalize hrest : [Piece.word (pageClause dialect select.limit select.offset)] = rest
    at hpage hend
  have hread : Condition.read? dialect (Piece.values (select.pieces dialect)) 0
      (Piece.textFrom dialect 1 (select.pieces dialect)) =
      some (close (Piece.tokens (select.pieces dialect))) :=
    Piece.read?_textFrom dialect (select.fits_pieces dialect).wellSpaced []
  have hskip : ∀ tokens : List Token,
      (expected ++ tokens).dropWhile (fun token => !OrderTerm.isBorder token) =
        tokens.dropWhile fun token => !OrderTerm.isBorder token := fun tokens =>
    List.dropWhile_append_of_pos (by simpa using hexpected)
  rw [Statement.orderTerms?, Statement.ofPieces, hread, Option.bind_some, pieces_eq, hrest,
    List.append_assoc]
  unfold orderClause
  cases hkeys : select.orderBy with
  | nil =>
    dsimp only
    rw [List.nil_append, hreads rest hpage, hskip, OrderTerm.dropWhile_of_isEnd hend,
      OrderTerm.clause?_of_isEnd hend]
    rfl
  | cons key others =>
    have hterms : (key :: others).flatMap (SortKey.terms dialect) ≠ [] := by
      rw [List.flatMap_cons]
      exact List.append_ne_nil_of_left_ne_nil (key.terms_ne_nil dialect) _
    dsimp only
    rw [List.cons_append, hreads _ (Piece.apart_blank rfl _), hskip,
      Piece.close_word (c := ' ') rfl rfl nofun, readAs_orderBy dialect (key :: others) rest hpage]
    exact OrderTerm.clause?_tokens hterms hend

end Select

end SqlFederation
