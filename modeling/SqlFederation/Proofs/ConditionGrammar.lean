import SqlFederation.Proofs.ConditionTokens

/-!
# The grammar of conditions

`Condition.parse?` reads tokens by the grammar of conditions: a factor is a comparison of a column,
`1=1`, `1=0`, or a condition in parentheses; factors are joined by AND, and what AND joins is joined
by OR. It knows nothing of how predicates are written. What it reads is a tree in which AND and OR
have two sides each (`Condition`).

`Predicate.parse?_textFrom` says that the text of a predicate is read as a tree with the comparisons
of the predicate, in their order, and with its truth, whichever truths the comparisons have. The
tree is named (`Predicate.condition`), and there are two inductions on the predicate: one says that
its tokens are read as that tree (`Predicate.factor_tokens`), where the tokens of children are
shorter, which bounds the depth of parentheses; the other that the tree has the truth of the
predicate (`Predicate.truthFrom_condition`), which joins its children from the other end.
-/

namespace SqlFederation

/-- A condition as the grammar reads it. -/
inductive Condition where
  | constant (holds : Bool)
  | comparison (column : ColumnRef) (test : Condition.Test)
  | join (connective : Connective) (left right : Condition)

namespace Condition

open Storage (Cell)

/-- The comparisons of a condition in their order. -/
def comparisons : Condition → List (ColumnRef × Test)
  | .constant _ => []
  | .comparison column test => [(column, test)]
  | .join _ left right => left.comparisons ++ right.comparisons

/-- How a connective joins two truths. -/
def combine : Connective → Option Bool → Option Bool → Option Bool
  | .and => Cell.both
  | .or => Cell.either

/-- The truth of a condition whose comparisons have the truths from a place of a sequence on. -/
def truthFrom (assignment : Nat → Option Bool) (place : Nat) : Condition → Option Bool
  | .constant holds => some holds
  | .comparison _ _ => assignment place
  | .join connective left right =>
    combine connective (left.truthFrom assignment place)
      (right.truthFrom assignment (place + left.comparisons.length))

/-! ## Reading -/

/-- What is read at the front of some tokens, with the tokens behind it. -/
abbrev Reader (α : Type) := List Token → Option (α × List Token)

/-- The comparator that an operator stands for. -/
def comparator? : String → Option Comparator
  | "=" => some .eq
  | "!=" => some .ne
  | ">" => some .gt
  | ">=" => some .gte
  | "<" => some .lt
  | "<=" => some .lte
  | "LIKE" => some .like
  | _ => none

/-- The word that joins conditions. -/
def keyword : Connective → String
  | .and => "AND"
  | .or => "OR"

/-- Reads a column, which may name its table. -/
def column? : Reader ColumnRef
  | .name table :: .word "." :: .name name :: rest => some (.qualified table name, rest)
  | .name name :: rest => some (.bare name, rest)
  | _ => none

/-- Reads what a comparison asks of its column. -/
def test? : Reader Test
  | .word "IS" :: .word "NULL" :: rest => some (.isNull, rest)
  | .word "IS" :: .word "NOT" :: .word "NULL" :: rest => some (.isNotNull, rest)
  | .word operator :: .value value :: rest =>
    (comparator? operator).map fun op => (.compare op value, rest)
  | _ => none

/-- Reads a comparison, a constant, or a condition in parentheses. -/
def factor (inside : Reader Condition) : Reader Condition
  | .word "1" :: .word "=" :: .word "1" :: rest => some (.constant true, rest)
  | .word "1" :: .word "=" :: .word "0" :: rest => some (.constant false, rest)
  | .word "(" :: rest => do
    let (condition, rest) ← inside rest
    match rest with
    | .word ")" :: rest => some (condition, rest)
    | _ => none
  | tokens => do
    let (column, rest) ← column? tokens
    let (test, rest) ← test? rest
    some (.comparison column test, rest)

/-- Joins what was read to the parts behind it, of which there are at most so many. -/
def joinedTo (connective : Connective) (part : Reader Condition) :
    Nat → Condition → Reader Condition
  | most + 1, left, .word text :: rest =>
    if text = keyword connective then do
      let (right, rest) ← part rest
      joinedTo connective part most (.join connective left right) rest
    else
      some (left, .word text :: rest)
  | _, left, tokens => some (left, tokens)

/-- Reads parts with a connective between each two, and joins them from the left. -/
def chain (connective : Connective) (part : Reader Condition) : Reader Condition := fun tokens => do
  let (left, rest) ← part tokens
  joinedTo connective part rest.length left rest

/-- Reads a condition with parentheses up to a depth; AND binds tighter than OR. -/
def nested : Nat → Reader Condition
  | 0 => fun _ => none
  | depth + 1 => chain .or (chain .and (factor (nested depth)))

/-- Reads some tokens, all of them, as a condition. -/
def parse? (tokens : List Token) : Option Condition :=
  match nested (tokens.length + 1) tokens with
  | some (condition, []) => some condition
  | _ => none

end Condition

/-! ## The condition of a predicate -/

/-- The comparison of a condition that a comparison becomes. -/
def Comparison.tested (comparison : Comparison) : ColumnRef × Condition.Test :=
  (comparison.column, comparison.test)

namespace Predicate

/-- The condition that some conditions are joined to; without any, it is always or never true. -/
def joinConditions (connective : Connective) : List Condition → Condition
  | [] => .constant (connective == .and)
  | first :: others => others.foldl (.join connective) first

mutual

/-- The condition that a predicate is read as. -/
def condition : Predicate → Condition
  | .compare column op value => .comparison column (Comparison.test ⟨column, op, value⟩)
  | .join connective children => joinConditions connective (conditions children)

/-- The condition of every predicate of a list. -/
def conditions : List Predicate → List Condition
  | [] => []
  | child :: rest => condition child :: conditions rest

end

theorem conditions_eq_map (children : List Predicate) :
    conditions children = children.map condition := by
  induction children with
  | nil => rfl
  | cons child rest ih => rw [conditions, ih, List.map_cons]

mutual

/-- The truth of a predicate whose comparisons have the truths from a place of a sequence on. -/
def truthFrom (assignment : Nat → Option Bool) (place : Nat) : Predicate → Option Bool
  | .compare _ _ _ => assignment place
  | .join .and children => allTrue (truthsFrom assignment place children)
  | .join .or children => anyTrue (truthsFrom assignment place children)

/-- The truths of predicates that follow each other. -/
def truthsFrom (assignment : Nat → Option Bool) (place : Nat) :
    List Predicate → List (Option Bool)
  | [] => []
  | child :: rest =>
    truthFrom assignment place child ::
      truthsFrom assignment (place + child.comparisons.length) rest

end

end Predicate

/-! ## Reading the tokens of a predicate -/

namespace Condition

variable {connective : Connective} {part : Reader Condition}

/-- A connective is the word that the grammar knows it by. -/
theorem keyword_eq_sql (connective : Connective) : keyword connective = connective.sql := by
  cases connective <;> rfl

/-- Nothing is joined where the connective does not come next. -/
theorem joinedTo_of_ends {rest : List Token}
    (h : rest.head? ≠ some (.word (keyword connective))) (most : Nat) (left : Condition) :
    joinedTo connective part most left rest = some (left, rest) := by
  unfold joinedTo
  split
  · rename_i text rest
    rw [if_neg]
    rintro rfl
    exact h rfl
  · rfl

/-- A connective or the end of parentheses comes next. -/
def Ends (connective : Connective) (rest : List Token) : Prop :=
  rest.head? = some (.word (keyword connective)) ∨ rest.head? = some (.word ")")

/-- The end of parentheses is no connective. -/
theorem close_ne_keyword (connective : Connective) (rest : List Token) :
    (.word ")" :: rest : List Token).head? ≠ some (.word (keyword connective)) := by
  intro heq
  have hword : ")" = keyword connective := Token.word.inj (Option.some.inj heq)
  cases connective with
  | and => exact absurd hword (by decide)
  | or => exact absurd hword (by decide)

/-- The tokens of predicates behind another one, up to the end of parentheses. -/
def tail (connective : Connective) (children : List Predicate) (rest : List Token) : List Token :=
  ((children.map Predicate.tokens).flatMap fun tokens => .word connective.sql :: tokens) ++
    .word ")" :: rest

theorem tail_cons (child : Predicate) (others : List Predicate) (rest : List Token) :
    tail connective (child :: others) rest =
      .word connective.sql :: (child.tokens ++ tail connective others rest) := by
  rw [tail, List.map_cons, List.flatMap_cons, List.cons_append, List.cons_append, List.append_assoc]
  rfl

theorem ends_tail (children : List Predicate) (rest : List Token) :
    Ends connective (tail connective children rest) := by
  cases children with
  | nil => exact Or.inr rfl
  | cons child others =>
    rw [tail_cons, Ends, keyword_eq_sql]
    exact Or.inl rfl

theorem length_le_tail (children : List Predicate) (rest : List Token) :
    children.length ≤ (tail connective children rest).length := by
  induction children with
  | nil => exact Nat.zero_le _
  | cons child others ih =>
    rw [tail_cons, List.length_cons, List.length_cons, List.length_append]
    exact Nat.succ_le_succ (ih.trans (Nat.le_add_left _ _))

/-- Predicates that the parts of a chain are read as, in front of its connective or its end. -/
def ReadsChildren (connective : Connective) (part : Reader Condition)
    (children : List Predicate) : Prop :=
  ∀ child ∈ children, ∀ rest, Ends connective rest →
    part (child.tokens ++ rest) = some (child.condition, rest)

/-- The predicates behind a condition are joined to it, up to the end of parentheses. -/
theorem joinedTo_tail {children : List Predicate} (h : ReadsChildren connective part children)
    (rest : List Token) {most : Nat} (hmost : children.length ≤ most) (left : Condition) :
    joinedTo connective part most left (tail connective children rest) =
      some ((children.map Predicate.condition).foldl (.join connective) left,
        .word ")" :: rest) := by
  induction children generalizing most left with
  | nil => exact joinedTo_of_ends (close_ne_keyword connective rest) most left
  | cons child others ih =>
    obtain ⟨fewer, rfl⟩ := Nat.exists_eq_add_of_le' (Nat.one_le_of_lt hmost)
    rw [ReadsChildren, List.forall_mem_cons] at h
    rw [tail_cons, joinedTo, if_pos (keyword_eq_sql connective).symm, h.1 _ (ends_tail others rest)]
    exact ih h.2 (Nat.le_of_succ_le_succ hmost) _

/-- A chain reads the tokens of its children as their conditions, joined from the left. -/
theorem chain_tokens {first : Predicate} {others : List Predicate}
    (h : ReadsChildren connective part (first :: others)) (rest : List Token) :
    chain connective part (first.tokens ++ tail connective others rest) =
      some (Predicate.joinConditions connective ((first :: others).map Predicate.condition),
        .word ")" :: rest) := by
  have hothers : ReadsChildren connective part others :=
    fun child hchild => h child (List.mem_cons_of_mem first hchild)
  rw [chain, h first List.mem_cons_self _ (ends_tail others rest)]
  exact joinedTo_tail hothers rest (length_le_tail others rest) first.condition

/-- A part of a chain is a chain of the other connective on its own. -/
theorem chain_of_ends {rest tokens : List Token} {condition : Condition}
    (h : part tokens = some (condition, rest))
    (hrest : rest.head? ≠ some (.word (keyword connective))) :
    chain connective part tokens = some (condition, rest) := by
  rw [chain, h]
  exact joinedTo_of_ends hrest _ condition

/-- A condition in parentheses stands for itself. -/
theorem factor_open {inside : Reader Condition} {tokens rest : List Token} {condition : Condition}
    (h : inside tokens = some (condition, .word ")" :: rest)) :
    factor inside (.word "(" :: tokens) = some (condition, rest) := by
  show (inside tokens).bind _ = _
  rw [h]
  rfl

/-- What AND or OR joins in parentheses is read as the chain of its connective. -/
theorem nested_tokens (connective : Connective) {depth : Nat} {first : Predicate}
    {others : List Predicate}
    (h : ∀ child ∈ first :: others, ∀ rest,
      factor (nested depth) (child.tokens ++ rest) = some (child.condition, rest))
    (rest : List Token) :
    nested (depth + 1) (first.tokens ++ tail connective others rest) =
      some (Predicate.joinConditions connective ((first :: others).map Predicate.condition),
        .word ")" :: rest) := by
  rw [nested]
  cases connective with
  | and =>
    have hparts : ReadsChildren .and (factor (nested depth)) (first :: others) :=
      fun child hchild rest _ => h child hchild rest
    have hchain := chain_tokens hparts rest
    exact chain_of_ends hchain (close_ne_keyword .or rest)
  | or =>
    -- A single child is a chain of AND, since OR or the end comes behind it.
    apply chain_tokens
    intro child hchild rest hends
    apply chain_of_ends (h child hchild rest)
    obtain hnext | hnext := hends
    · rw [hnext]
      decide
    · rw [hnext]
      decide

end Condition

namespace Predicate

open Condition (factor nested)

/-- A comparison that looks at a value has an operator for that. -/
theorem needsValue_of_test {comparison : Comparison} {op : Comparator} {value : SqlValue}
    (h : comparison.test = .compare op value) : op.needsValue = true := by
  obtain ⟨column, ownOp, ownValue⟩ := comparison
  unfold Comparison.test at h
  cases ownOp with
  | isNull => cases h
  | isNotNull => cases h
  | eq =>
    dsimp only at h
    split at h
    · cases h
    · cases h
      rfl
  | ne =>
    dsimp only at h
    split at h
    · cases h
    · cases h
      rfl
  | _ =>
    cases h
    rfl

/-- A comparison is read as a factor. -/
theorem factor_comparison (inside : Condition.Reader Condition) (comparison : Comparison)
    (rest : List Condition.Token) :
    factor inside (comparison.column.tokens ++ comparison.test.tokens ++ rest) =
      some (.comparison comparison.column comparison.test, rest) := by
  have htest : Condition.test? (comparison.test.tokens ++ rest) =
      some (comparison.test, rest) := by
    cases hkind : comparison.test with
    | isNull => rfl
    | isNotNull => rfl
    | compare op value =>
      have hop := needsValue_of_test hkind
      cases op with
      | isNull => cases hop
      | isNotNull => cases hop
      | _ => rfl
  have hcolumn : Condition.column? (comparison.column.tokens ++ (comparison.test.tokens ++ rest)) =
      some (comparison.column, comparison.test.tokens ++ rest) := by
    obtain ⟨⟨table, name⟩, op, value⟩ := comparison
    cases table with
    | some table => rfl
    | none =>
      cases hkind : Comparison.test ⟨⟨none, name⟩, op, value⟩ with
      | compare op value => cases op <;> rfl
      | _ => rfl
  have hfactor : ∀ behind, factor inside (comparison.column.tokens ++ behind) = (do
      let (column, rest) ← Condition.column? (comparison.column.tokens ++ behind)
      let (test, rest) ← Condition.test? rest
      some (.comparison column test, rest)) := by
    intro behind
    unfold ColumnRef.tokens
    cases comparison.column.table <;> rfl
  rw [List.append_assoc, hfactor, hcolumn]
  show (Condition.test? (comparison.test.tokens ++ rest)).bind _ = _
  rw [htest]
  rfl

/-- Parts are no longer than what they are joined to. -/
theorem length_le_joinWords (word : String) {parts : List (List Condition.Token)}
    {part : List Condition.Token} (h : part ∈ parts) :
    part.length ≤ (Condition.joinWords word parts).length := by
  cases parts with
  | nil => cases h
  | cons first others =>
    rw [Condition.joinWords, List.length_append]
    obtain rfl | hmem := List.mem_cons.mp h
    · exact Nat.le_add_right _ _
    · have hbehind := (List.singleton_sublist.mpr hmem).flatMap fun part => .word word :: part
      rw [List.flatMap_singleton] at hbehind
      have hpart := (List.sublist_cons_self (.word word) part).trans hbehind
      exact hpart.length_le.trans (Nat.le_add_left _ _)

/-- The tokens of a predicate are read as its condition, whatever comes behind them. -/
theorem factor_tokens (p : Predicate) {depth : Nat} (h : p.tokens.length ≤ depth)
    (rest : List Condition.Token) :
    factor (nested depth) (p.tokens ++ rest) = some (p.condition, rest) := by
  induction p using Predicate.induct generalizing depth rest with
  | compare column op value =>
    rw [tokens, condition]
    exact factor_comparison _ ⟨column, op, value⟩ rest
  | join connective children ih =>
    rw [tokens, tokensAll_eq_map] at h ⊢
    rw [condition, conditions_eq_map]
    cases children with
    | nil => cases connective <;> rfl
    | cons first others =>
      cases others with
      | nil => exact ih first (List.mem_singleton_self first) h rest
      | cons second others =>
        have htokens : Condition.joinTokens connective ((first :: second :: others).map tokens) =
            .word "(" :: Condition.joinWords connective.sql
              ((first :: second :: others).map tokens) ++ [.word ")"] := rfl
        rw [htokens] at h ⊢
        rw [List.length_append, List.length_cons, List.length_singleton] at h
        -- The tokens of the children are shorter, so one level of parentheses less is enough.
        obtain ⟨inner, rfl⟩ := Nat.exists_eq_add_of_le' (Nat.one_le_of_lt h)
        have hchildren : ∀ child ∈ first :: second :: others, ∀ rest,
            factor (nested inner) (child.tokens ++ rest) = some (child.condition, rest) := by
          intro child hchild rest
          have hlength := length_le_joinWords connective.sql
            (List.mem_map_of_mem (f := tokens) hchild)
          exact ih child hchild (hlength.trans (Nat.le_of_succ_le (Nat.le_of_succ_le_succ h))) rest
        have hinside := Condition.nested_tokens connective hchildren rest
        rw [List.cons_append, List.cons_append, List.map_cons, Condition.joinWords,
          List.append_assoc, List.append_assoc]
        exact Condition.factor_open hinside

/-- The tokens of a predicate, on their own, are read as its condition. -/
theorem parse?_tokens (p : Predicate) : Condition.parse? p.tokens = some p.condition := by
  have hfactor := factor_tokens p (Nat.le_refl p.tokens.length) []
  rw [List.append_nil] at hfactor
  have hnone : ∀ connective,
      ([] : List Condition.Token).head? ≠ some (.word (Condition.keyword connective)) :=
    fun _ heq => nomatch heq
  rw [Condition.parse?, nested,
    Condition.chain_of_ends (Condition.chain_of_ends hfactor (hnone .and)) (hnone .or)]

/-! ## The truth of a predicate -/

/-- A condition has the comparisons of the predicate that it is read from, in their order. -/
theorem comparisons_condition (p : Predicate) :
    p.condition.comparisons = p.comparisons.map Comparison.tested := by
  have hfold : ∀ (connective : Connective) (others : List Condition) (left : Condition),
      (others.foldl (.join connective) left).comparisons =
        left.comparisons ++ others.flatMap Condition.comparisons := by
    intro connective others
    induction others with
    | nil => exact fun left => (List.append_nil _).symm
    | cons next others ih =>
      intro left
      rw [List.foldl_cons, ih, Condition.comparisons, List.append_assoc, List.flatMap_cons]
  induction p using Predicate.induct with
  | compare column op value => rfl
  | join connective children ih =>
    have hchildren : (joinConditions connective (children.map condition)).comparisons =
        (children.map condition).flatMap Condition.comparisons := by
      cases children with
      | nil => rfl
      | cons first others => exact hfold connective (others.map condition) first.condition
    rw [condition, conditions_eq_map, hchildren, comparisons, comparisonsAll_eq_flatMap,
      List.flatMap_map, List.map_flatMap]
    exact List.flatMap_congr ih

end Predicate

namespace Condition

open Storage (Cell)

instance (connective : Connective) : Std.Associative (combine connective) where
  assoc a b c := by
    cases connective <;> rcases a with _ | _ | _ <;> rcases b with _ | _ | _ <;>
      rcases c with _ | _ | _ <;> rfl

instance (connective : Connective) : Std.Commutative (combine connective) where
  comm a b := by
    cases connective <;> rcases a with _ | _ | _ <;> rcases b with _ | _ | _ <;> rfl

/-- The truth of a connective without anything to join. -/
def neutral (connective : Connective) : Option Bool :=
  some (connective == .and)

/-- Truths are the same joined from the left as from the right. -/
theorem foldl_combine (connective : Connective) (truth : Option Bool)
    (others : List (Option Bool)) :
    others.foldl (combine connective) truth =
      (truth :: others).foldr (combine connective) (neutral connective) := by
  have hneutral : combine connective truth (neutral connective) = truth := by
    cases connective <;> rcases truth with _ | _ | _ <;> rfl
  have hassoc : others.foldl (combine connective) (combine connective truth (neutral connective)) =
      combine connective truth (others.foldl (combine connective) (neutral connective)) :=
    List.foldl_assoc
  rw [List.foldr_cons, ← List.foldl_eq_foldr, ← hassoc, hneutral]

end Condition

namespace Predicate

/-- The truth of joined predicates. -/
theorem truthFrom_join (assignment : Nat → Option Bool) (place : Nat) (connective : Connective)
    (children : List Predicate) :
    truthFrom assignment place (.join connective children) =
      (truthsFrom assignment place children).foldr (Condition.combine connective)
        (Condition.neutral connective) := by
  cases connective <;> rfl

/-- The condition that a predicate is read as has its truth. -/
theorem truthFrom_condition (assignment : Nat → Option Bool) (p : Predicate) (place : Nat) :
    p.condition.truthFrom assignment place = p.truthFrom assignment place := by
  induction p using Predicate.induct generalizing place with
  | compare column op value => rfl
  | join connective children ih =>
    have hfold : ∀ (others : List Predicate), (∀ child ∈ others, ∀ place,
        child.condition.truthFrom assignment place = child.truthFrom assignment place) →
        ∀ left : Condition, ((others.map condition).foldl (.join connective) left).truthFrom
            assignment place =
          (truthsFrom assignment (place + left.comparisons.length) others).foldl
            (Condition.combine connective) (left.truthFrom assignment place) := by
      intro others hothers
      induction others with
      | nil => exact fun left => rfl
      | cons next others ihothers =>
        intro left
        rw [List.forall_mem_cons] at hothers
        rw [List.map_cons, List.foldl_cons, ihothers hothers.2, truthsFrom, List.foldl_cons,
          Condition.comparisons, List.length_append, Condition.truthFrom, hothers.1,
          comparisons_condition next, List.length_map, Nat.add_assoc]
    rw [truthFrom_join, condition, conditions_eq_map]
    cases children with
    | nil => rfl
    | cons first others =>
      rw [List.forall_mem_cons] at ih
      rw [truthsFrom, ← Condition.foldl_combine, ← ih.1, ← List.length_map Comparison.tested,
        ← comparisons_condition]
      exact hfold others ih.2 first.condition

/--
The text of a predicate is read by the grammar as a condition that has the comparisons of the
predicate, each with the operator and the parameter of its own, and its truth, whatever truths the
comparisons have. Parameters of what is written in front of it may come first.
-/
theorem parse?_textFrom (dialect : Dialect) (p : Predicate) (earlier : List SqlValue) :
    ∃ condition : Condition,
      (Condition.read? dialect (earlier ++ Piece.values p.pieces) earlier.length
        (Piece.textFrom dialect (earlier.length + 1) p.pieces)).bind Condition.parse? =
          some condition ∧
      condition.comparisons = p.comparisons.map Comparison.tested ∧
      ∀ assignment, condition.truthFrom assignment 0 = p.truthFrom assignment 0 := by
  refine ⟨p.condition, ?_, p.comparisons_condition, fun assignment => ?_⟩
  · rw [read?_textFrom]
    exact parse?_tokens p
  · exact truthFrom_condition assignment p 0

/-- A single child stands without parentheses, an OR in an AND needs them. -/
example : Piece.textFrom .sqlite 1 (all [any [.compare (.bare "a") .eq .null,
      .compare (.bare "b") .gt (.ofInt 1)], any [.compare (.bare "c") .ne .null], all []]).pieces =
    "((\"a\" IS NULL OR \"b\" > ?1) AND \"c\" IS NOT NULL AND 1=1)" := by
  decide

end Predicate

end SqlFederation
