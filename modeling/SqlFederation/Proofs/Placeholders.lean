import Mathlib.Data.List.Forall2
import SqlFederation.Proofs.Lexemes
import SqlFederation.Proofs.Parameters

/-!
# Placeholders and parameters

`Query.bindings` lists what a query binds, in order, without looking at how it is written: for an
insert the value of each column in each row, for an update the new values, and then one value for
each comparison of the condition, from left to right, that does not ask for null. Each has the place
where its placeholder belongs (`Place`): the place of a column in the parentheses of a row, or right
behind its column and the operator.

`Query.placeholders_line_up` reads the text of a rendered query (`Dialect.lex`): it has as many
placeholders as there are parameters, numbered in order where the dialect numbers them, the
parameters are those of the bindings, and each placeholder stands in the place of its binding. What
stands in front of a placeholder is given by `Lexeme.fronts`. A condition binds its values wherever
it is put (`Piece.Stands`), so the proof goes by the tree; the rows of an insert are counted by the
parentheses in front of them (`Lexeme.slot`).
-/

namespace SqlFederation

namespace Lexeme

/-- The number of a placeholder. -/
def number? : Lexeme → Option String
  | .placeholder number => some number
  | _ => none

/-- The text of a name. -/
def identifier? : Lexeme → Option String
  | .name identifier => some identifier
  | _ => none

/-- What stands in front of each placeholder, if some lexemes stand in front of them all. -/
def fronts (before : List Lexeme) : List Lexeme → List (List Lexeme)
  | [] => []
  | .placeholder number :: rest => before :: fronts (before ++ [.placeholder number]) rest
  | lexeme :: rest => fronts (before ++ [lexeme]) rest

/-- Counts a parenthesis that opens, or a comma behind it. -/
def countSlot (slot : Nat × Nat) : Lexeme → Nat × Nat
  | .other '(' => (slot.1 + 1, 0)
  | .other ',' => (slot.1, slot.2 + 1)
  | _ => slot

/-- How many parentheses open, and how many commas stand behind the last of them. -/
def slot (lexemes : List Lexeme) : Nat × Nat :=
  lexemes.foldl countSlot (0, 0)

theorem slot_append (front back : List Lexeme) :
    slot (front ++ back) = back.foldl countSlot (slot front) :=
  List.foldl_append

theorem fronts_append (before front back : List Lexeme) :
    fronts before (front ++ back) = fronts before front ++ fronts (before ++ front) back := by
  induction front generalizing before with
  | nil =>
    rw [List.append_nil]
    rfl
  | cons lexeme rest ih =>
    have hbefore : before ++ lexeme :: rest = (before ++ [lexeme]) ++ rest := by
      rw [List.append_assoc, List.singleton_append]
    rw [List.cons_append, hbefore]
    cases lexeme with
    | placeholder number => rw [fronts, fronts, ih, List.cons_append]
    | _ => exact ih _

/-- What is not read off single characters is not read off text. -/
theorem filterMap_ofText {α : Type} {read : Lexeme → Option α} {text : String}
    (h : ∀ c, read (.other c) = none) : (ofText text).filterMap read = [] := by
  rw [ofText, List.filterMap_map]
  exact List.filterMap_eq_nil_iff.mpr fun c _ => h c

/-- Text has no placeholders. -/
theorem fronts_ofText (before : List Lexeme) (text : String) :
    fronts before (ofText text) = [] := by
  unfold ofText
  induction text.toList generalizing before with
  | nil => rfl
  | cons c rest ih => exact ih _

end Lexeme

/-- Where the placeholder of a value belongs. -/
inductive Place where
  /-- Right behind some lexemes. -/
  | behind (lead : List Lexeme)
  /-- In the parentheses of a row, which come behind those of the columns, in the order of these. -/
  | inRow (row column : Nat)

/-- A value and where its placeholder belongs. -/
structure Binding where
  place : Place
  value : SqlValue

/-- Does a placeholder with some lexemes in front of it stand in the place of the value? -/
def Binding.IsBehind (binding : Binding) (front : List Lexeme) : Prop :=
  match binding.place with
  | .behind lead => lead <:+ front
  | .inRow row column => Lexeme.slot front = (row + 2, column)

/-! ## What a query binds -/

/-- A column as it is read. -/
def ColumnRef.lexemes (column : ColumnRef) : List Lexeme :=
  match column.table with
  | some table => [.name table, .other '.', .name column.name]
  | none => [.name column.name]

/-- A comparison of a predicate. -/
structure Comparison where
  column : ColumnRef
  op : Comparator
  value : Json

namespace Comparison

/-- Does the comparison ask whether the column is null? -/
def asksForNull (comparison : Comparison) : Bool :=
  match comparison.op with
  | .isNull | .isNotNull => true
  | .eq | .ne => comparison.value.isNull
  | _ => false

/-- The value of a comparison belongs behind the column and the operator. -/
def binding (comparison : Comparison) : Binding :=
  ⟨.behind (comparison.column.lexemes ++ Lexeme.ofText (" " ++ comparison.op.sql ++ " ")),
    .ofJson comparison.value⟩

end Comparison

namespace Predicate

mutual

/-- The comparisons of a predicate, from left to right. -/
def comparisons : Predicate → List Comparison
  | .compare column op value => [⟨column, op, value⟩]
  | .join _ children => comparisonsAll children

/-- The comparisons of every predicate of a list. -/
def comparisonsAll : List Predicate → List Comparison
  | [] => []
  | child :: rest => comparisons child ++ comparisonsAll rest

end

theorem comparisonsAll_eq_flatMap (children : List Predicate) :
    comparisonsAll children = children.flatMap comparisons := by
  induction children with
  | nil => rfl
  | cons child rest ih => rw [comparisonsAll, ih, List.flatMap_cons]

/-- What a predicate binds: the value of each comparison that does not ask for null. -/
def bindings (predicate : Predicate) : List Binding :=
  (predicate.comparisons.filter fun c => !c.asksForNull).map Comparison.binding

/-- What a condition binds that may be absent. -/
def whereBindings (predicate : Option Predicate) : List Binding :=
  match predicate with
  | some p => p.bindings
  | none => []

end Predicate

/-- What an insert binds: for each row, its value for each column. -/
def Insert.bindings (insert : Insert) : List Binding :=
  insert.rows.zipIdx.flatMap fun (row, i) =>
    insert.columns.zipIdx.map fun (column, j) => ⟨.inRow i j, insert.boundValue row column⟩

/-- What an update binds: first the new values, each behind its column and the equals sign. -/
def Update.bindings (update : Update) : List Binding :=
  (update.set.entries.map fun (column, value) =>
    ⟨.behind (.name column :: Lexeme.ofText " = "), .ofJson value⟩) ++
    Predicate.whereBindings update.predicate

/-- What a query binds, in order. -/
def Query.bindings : Query → List Binding
  | .select q => Predicate.whereBindings q.predicate
  | .insert q => q.bindings
  | .update q => q.bindings
  | .delete q => Predicate.whereBindings q.predicate

/-! ## Pieces that bind values in their places -/

namespace Piece

theorem join_cons_cons (separator : String) (part next : List Piece) (rest : List (List Piece)) :
    join separator (part :: next :: rest) =
      part ++ .word separator :: join separator (next :: rest) := rfl

variable (dialect : Dialect)

theorem lexemes_append (n : Nat) (front back : List Piece) :
    lexemes dialect n (front ++ back) =
      lexemes dialect n front ++ lexemes dialect (n + (values front).length) back := by
  induction front generalizing n with
  | nil => rfl
  | cons piece rest ih =>
    cases piece with
    | word text => rw [List.cons_append, lexemes, lexemes, ih, values_word, List.append_assoc]
    | name identifier => rw [List.cons_append, lexemes, lexemes, ih, values_name, List.cons_append]
    | bound value =>
      rw [List.cons_append, lexemes, lexemes, ih, values_bound, List.length_cons, List.cons_append,
        Nat.add_assoc, Nat.add_comm 1]

/-- The placeholders of pieces are counted from the number of the first. -/
theorem numbers_lexemes (n : Nat) (pieces : List Piece) :
    (lexemes dialect n pieces).filterMap Lexeme.number? =
      (List.range' n (values pieces).length).map dialect.ordinal := by
  induction pieces generalizing n with
  | nil => rfl
  | cons piece rest ih =>
    cases piece with
    | word text =>
      rw [lexemes, List.filterMap_append, Lexeme.filterMap_ofText fun _ => rfl, ih]
      rfl
    | name identifier => exact ih n
    | bound value =>
      have hnumber : Lexeme.number? (.placeholder (dialect.ordinal n)) =
          some (dialect.ordinal n) := rfl
      rw [lexemes, List.filterMap_cons_some hnumber, ih, values_bound, List.length_cons,
        List.range'_succ, List.map_cons]

/-- The text of a piece that is a name. -/
def identifier? : Piece → Option String
  | .name identifier => some identifier
  | _ => none

/-- The names that are read are those of the pieces. -/
theorem identifiers_lexemes (n : Nat) (pieces : List Piece) :
    (lexemes dialect n pieces).filterMap Lexeme.identifier? = pieces.filterMap identifier? := by
  induction pieces generalizing n with
  | nil => rfl
  | cons piece rest ih =>
    cases piece with
    | word text =>
      rw [lexemes, List.filterMap_append, Lexeme.filterMap_ofText fun _ => rfl, ih]
      rfl
    | name identifier => exact congrArg (identifier :: ·) (ih n)
    | bound value => exact ih (n + 1)

/-- The words between lists of pieces are no names. -/
theorem identifiers_join (separator : String) (parts : List (List Piece)) :
    (join separator parts).filterMap identifier? = parts.flatMap (List.filterMap identifier?) := by
  induction parts with
  | nil => rfl
  | cons part rest ih =>
    rw [List.flatMap_cons]
    cases rest with
    | nil =>
      rw [List.flatMap_nil, List.append_nil]
      rfl
    | cons next rest =>
      rw [join_cons_cons, List.filterMap_append, ← ih]
      rfl

variable {dialect}

/-- Pieces that bind values in their places, wherever the pieces are put. -/
structure Stands (dialect : Dialect) (pieces : List Piece) (bindings : List Binding) : Prop where
  values_eq : values pieces = bindings.map Binding.value
  places : ∀ n before, List.Forall₂ Binding.IsBehind bindings
    (Lexeme.fronts before (lexemes dialect n pieces))

theorem stands_nil : Stands dialect [] [] := ⟨rfl, fun _ _ => .nil⟩

theorem stands_word (text : String) : Stands dialect [.word text] [] := by
  refine ⟨rfl, fun n before => ?_⟩
  rw [lexemes, lexemes, List.append_nil, Lexeme.fronts_ofText]
  exact .nil

theorem stands_name (identifier : String) : Stands dialect [.name identifier] [] :=
  ⟨rfl, fun _ _ => .nil⟩

theorem Stands.append {front back : List Piece} {first second : List Binding}
    (hfront : Stands dialect front first) (hback : Stands dialect back second) :
    Stands dialect (front ++ back) (first ++ second) := by
  constructor
  · rw [values_append, hfront.values_eq, hback.values_eq, List.map_append]
  · intro n before
    rw [lexemes_append, Lexeme.fronts_append]
    exact List.rel_append (hfront.places n before) (hback.places _ _)

/-- Pieces that bind nothing may stand behind. -/
theorem Stands.append_nil {front back : List Piece} {bindings : List Binding}
    (hfront : Stands dialect front bindings) (hback : Stands dialect back []) :
    Stands dialect (front ++ back) bindings := by
  have happend := hfront.append hback
  rwa [List.append_nil] at happend

theorem Stands.word (text : String) {pieces : List Piece} {bindings : List Binding}
    (h : Stands dialect pieces bindings) : Stands dialect (.word text :: pieces) bindings :=
  (stands_word text).append h

/-- Pieces that are joined bind what each of them binds. -/
theorem stands_join {α : Type} (separator : String) {items : List α} {pieces : α → List Piece}
    {bindings : α → List Binding} (h : ∀ a ∈ items, Stands dialect (pieces a) (bindings a)) :
    Stands dialect (join separator (items.map pieces)) (items.flatMap bindings) := by
  induction items with
  | nil => exact stands_nil
  | cons a rest ih =>
    rw [List.forall_mem_cons] at h
    rw [List.flatMap_cons]
    cases rest with
    | nil =>
      rw [List.flatMap_nil, List.append_nil]
      exact h.1
    | cons b rest => exact h.1.append ((ih h.2).word separator)

/-- Pieces that bind nothing do so when they are joined. -/
theorem stands_join_nil {α : Type} (separator : String) {items : List α} {pieces : α → List Piece}
    (h : ∀ a ∈ items, Stands dialect (pieces a) []) :
    Stands dialect (join separator (items.map pieces)) [] := by
  have hjoin := stands_join separator h
  rwa [List.flatMap_eq_nil_iff.mpr fun _ _ => rfl] at hjoin

end Piece

open Piece (Stands stands_nil stands_word stands_name stands_join stands_join_nil)

variable {dialect : Dialect}

/-- A column binds nothing. -/
theorem ColumnRef.stands_pieces (column : ColumnRef) : Stands dialect column.pieces [] := by
  unfold pieces
  cases column.table with
  | none => exact stands_name column.name
  | some table => exact (stands_name table).append ((stands_name column.name).word ".")

theorem ColumnRef.lexemes_pieces (column : ColumnRef) (n : Nat) :
    Piece.lexemes dialect n column.pieces = column.lexemes := by
  unfold pieces lexemes
  cases column.table with
  | none => rfl
  | some table =>
    have hdot : Lexeme.ofText "." = [.other '.'] := by decide
    show .name table :: (Lexeme.ofText "." ++ [.name column.name]) = _
    rw [hdot]
    rfl

/-- A value stands right behind the lexemes of the pieces in front of it. -/
theorem Piece.stands_behind {pieces : List Piece} {lead : List Lexeme}
    (hpieces : Stands dialect pieces []) (hlead : ∀ n, lexemes dialect n pieces = lead)
    (value : SqlValue) : Stands dialect (pieces ++ [.bound value]) [⟨.behind lead, value⟩] := by
  constructor
  · rw [values_append, hpieces.values_eq]
    rfl
  · intro n before
    -- Only one placeholder is there, so only its front has to be looked at.
    have hsilent : Lexeme.fronts before lead = [] := by
      have hplaces := hpieces.places n before
      rw [hlead] at hplaces
      exact List.forall₂_nil_left_iff.mp hplaces
    rw [lexemes_append, Lexeme.fronts_append, hlead, hsilent]
    exact .cons (List.suffix_append before lead) .nil

namespace Predicate

theorem comparisonPieces_of_asksForNull {comparison : Comparison}
    (h : comparison.asksForNull = true) :
    ∃ text, comparisonPieces comparison.column comparison.op comparison.value =
      comparison.column.pieces ++ [.word text] := by
  obtain ⟨column, op, value⟩ := comparison
  unfold Comparison.asksForNull at h
  unfold comparisonPieces
  cases op with
  | isNull => exact ⟨" IS NULL", rfl⟩
  | isNotNull => exact ⟨" IS NOT NULL", rfl⟩
  | eq =>
    rw [show value.isNull = true from h]
    exact ⟨" IS NULL", rfl⟩
  | ne =>
    rw [show value.isNull = true from h]
    exact ⟨" IS NOT NULL", rfl⟩
  | _ => cases h

theorem comparisonPieces_of_not_asksForNull {comparison : Comparison}
    (h : comparison.asksForNull = false) :
    comparisonPieces comparison.column comparison.op comparison.value =
      comparison.column.pieces ++
        [.word (" " ++ comparison.op.sql ++ " "), .bound (.ofJson comparison.value)] := by
  obtain ⟨column, op, value⟩ := comparison
  unfold Comparison.asksForNull at h
  unfold comparisonPieces
  cases op with
  | eq => rw [show value.isNull = false from h]
  | ne => rw [show value.isNull = false from h]
  | isNull => cases h
  | isNotNull => cases h
  | _ => rfl

/-- A comparison that does not ask for null binds its value behind the column and the operator. -/
theorem stands_comparisonPieces (comparison : Comparison) :
    Stands dialect (comparisonPieces comparison.column comparison.op comparison.value)
      (if comparison.asksForNull then [] else [comparison.binding]) := by
  have hword : ∀ text, Stands dialect (comparison.column.pieces ++ [.word text]) [] := fun text =>
    comparison.column.stands_pieces.append (stands_word text)
  cases hnull : comparison.asksForNull with
  | true =>
    obtain ⟨text, hpieces⟩ := comparisonPieces_of_asksForNull hnull
    rw [hpieces]
    exact hword text
  | false =>
    have hlead : ∀ text n, Piece.lexemes dialect n (comparison.column.pieces ++ [.word text]) =
        comparison.column.lexemes ++ Lexeme.ofText text := by
      intro text n
      rw [Piece.lexemes_append, ColumnRef.lexemes_pieces, Piece.lexemes, Piece.lexemes,
        List.append_nil]
    have hstands := Piece.stands_behind (hword (" " ++ comparison.op.sql ++ " ")) (hlead _)
      (.ofJson comparison.value)
    rw [List.append_assoc] at hstands
    rw [comparisonPieces_of_not_asksForNull hnull]
    exact hstands

/-- A predicate binds the values of its comparisons, wherever it stands. -/
theorem stands_pieces (predicate : Predicate) :
    Stands dialect predicate.pieces predicate.bindings := by
  induction predicate using Predicate.induct with
  | compare column op value =>
    have hbindings : bindings (.compare column op value) =
        if Comparison.asksForNull ⟨column, op, value⟩ then []
        else [Comparison.binding ⟨column, op, value⟩] := by
      rw [bindings, comparisons, List.filter_singleton]
      cases Comparison.asksForNull ⟨column, op, value⟩ <;> rfl
    rw [pieces, hbindings]
    exact stands_comparisonPieces ⟨column, op, value⟩
  | join connective children ih =>
    have hbindings : bindings (.join connective children) = children.flatMap bindings := by
      rw [bindings, comparisons, comparisonsAll_eq_flatMap, List.filter_flatMap, List.map_flatMap]
      rfl
    have hjoin := stands_join (" " ++ connective.sql ++ " ") ih
    rw [pieces, piecesAll_eq_map, hbindings]
    -- However many children there are, the words around them bind nothing.
    cases children with
    | nil =>
      cases connective with
      | and => exact stands_word "1=1"
      | or => exact stands_word "1=0"
    | cons first rest =>
      cases rest with
      | nil => exact hjoin
      | cons second rest => exact (hjoin.word "(").append_nil (stands_word ")")

theorem stands_whereClause (predicate : Option Predicate) :
    Stands dialect (whereClause predicate) (whereBindings predicate) := by
  cases predicate with
  | none => exact stands_nil
  | some p => exact p.stands_pieces.word " WHERE "

end Predicate

/-! ## Queries -/

theorem Output.stands_pieces (output : Output) : Stands dialect output.pieces [] := by
  have hlabel : ∀ label, Stands dialect [.word " AS ", .name label] [] := fun label =>
    (stands_name label).word " AS "
  unfold pieces
  split
  · rename_i column _
    split
    · exact column.stands_pieces
    · exact column.stands_pieces.append (hlabel _)
  · rename_i function column _
    have hclose := (hlabel output.name).word ")"
    cases column with
    | none => exact ((stands_word "*").word _).append hclose
    | some column => exact (column.stands_pieces.word _).append hclose

theorem SortKey.stands_pieces (key : SortKey) : Stands dialect (key.pieces dialect) [] := by
  have hword : ∀ text, Stands dialect (key.column.pieces ++ [.word text]) [] := fun text =>
    key.column.stands_pieces.append (stands_word text)
  unfold pieces
  split
  · rw [List.append_assoc _ key.column.pieces]
    exact (hword _).append (hword _)
  · exact hword _

theorem Select.stands_pieces (select : Select) :
    Stands dialect (select.pieces dialect) (Predicate.whereBindings select.predicate) := by
  have htable : Stands dialect [.word " FROM ", .name select.table] [] :=
    (stands_name select.table).word " FROM "
  have hhead : ∀ {outputs : List Piece}, Stands dialect outputs [] → Stands dialect
      (.word "SELECT " :: outputs ++ [.word " FROM ", .name select.table] ++
        Predicate.whereClause select.predicate) (Predicate.whereBindings select.predicate) :=
    fun houtputs => ((houtputs.word "SELECT ").append htable).append
      (Predicate.stands_whereClause select.predicate)
  unfold pieces
  refine (((hhead ?outputs).append_nil ?groups).append_nil ?order).append_nil (stands_word _)
  case outputs =>
    split
    · exact stands_word "*"
    · exact stands_join_nil ", " fun output _ => output.stands_pieces
  case groups =>
    split
    · exact stands_nil
    · exact (stands_join_nil ", " fun column _ => column.stands_pieces).word " GROUP BY "
  case order =>
    split
    · exact stands_nil
    · exact (stands_join_nil ", " fun key _ => key.stands_pieces).word " ORDER BY "

theorem Update.stands_pieces {update : Update} {pieces : List Piece}
    (h : update.pieces = .ok pieces) : Stands dialect pieces update.bindings := by
  have hset : ∀ entry ∈ update.set.entries, Stands dialect
      [.name entry.1, .word " = ", .bound (.ofJson entry.2)]
      [⟨.behind (.name entry.1 :: Lexeme.ofText " = "), .ofJson entry.2⟩] := by
    intro entry _
    have hcolumn : Stands dialect [.name entry.1, .word " = "] [] :=
      (stands_name entry.1).append (stands_word " = ")
    have hlead : ∀ n, Piece.lexemes dialect n [.name entry.1, .word " = "] =
        .name entry.1 :: Lexeme.ofText " = " := by
      intro n
      rw [Piece.lexemes, Piece.lexemes, Piece.lexemes, List.append_nil]
    exact Piece.stands_behind hcolumn hlead _
  have htable : Stands dialect [.word "UPDATE ", .name update.table, .word " SET "] [] :=
    ((stands_name update.table).append (stands_word " SET ")).word "UPDATE "
  -- Each entry binds one value, so what the entries bind together is a map over them.
  have hstands := (htable.append (stands_join ", " hset)).append
    (Predicate.stands_whereClause update.predicate)
  rw [List.nil_append, ← List.map_eq_flatMap] at hstands
  rw [Update.eq_of_pieces h]
  exact hstands

theorem Delete.stands_pieces (delete : Delete) :
    Stands dialect delete.pieces (Predicate.whereBindings delete.predicate) :=
  ((stands_name delete.table).word "DELETE FROM ").append
    (Predicate.stands_whereClause delete.predicate)

/-! ## The rows of an insert -/

namespace Piece

/-- Pieces that open no parentheses. -/
def OpensNothing (dialect : Dialect) (pieces : List Piece) : Prop :=
  ∀ n slot, ((lexemes dialect n pieces).foldl Lexeme.countSlot slot).1 = slot.1

theorem opensNothing_nil : OpensNothing dialect [] := fun _ _ => rfl

theorem opensNothing_name (identifier : String) : OpensNothing dialect [.name identifier] :=
  fun _ _ => rfl

theorem opensNothing_bound (value : SqlValue) : OpensNothing dialect [.bound value] :=
  fun _ _ => rfl

theorem OpensNothing.append {front back : List Piece} (hfront : OpensNothing dialect front)
    (hback : OpensNothing dialect back) : OpensNothing dialect (front ++ back) := by
  intro n slot
  rw [lexemes_append, List.foldl_append, hback, hfront]

/-- Pieces that open no parentheses can be joined by commas. -/
theorem opensNothing_join {α : Type} {items : List α} {pieces : α → List Piece}
    (h : ∀ a ∈ items, OpensNothing dialect (pieces a)) :
    OpensNothing dialect (join ", " (items.map pieces)) := by
  have hcomma : OpensNothing dialect [.word ", "] := fun _ _ => rfl
  exact join_of_each opensNothing_nil
    (fun hfront hback => hfront.append (hcomma.append hback)) h

end Piece

namespace Insert

variable (insert : Insert)

/-- What a row binds for some columns, of which the first has the number `j`. -/
def rowBindings (columns : List String) (row : Row) (i j : Nat) : List Binding :=
  (columns.zipIdx j).map fun (column, j) => ⟨.inRow i j, insert.boundValue row column⟩

/-- The values of a row stand in the order of the columns, behind as many commas. -/
theorem places_columns (columns : List String) (row : Row) (i j n : Nat) {before : List Lexeme}
    (hbefore : Lexeme.slot before = (i + 2, j)) :
    List.Forall₂ Binding.IsBehind
      (insert.rowBindings columns row i j)
      (Lexeme.fronts before (Piece.lexemes dialect n (Piece.join ", "
        (columns.map fun column => [.bound (insert.boundValue row column)])))) := by
  induction columns generalizing j n before with
  | nil => exact .nil
  | cons column rest ih =>
    rw [rowBindings, List.zipIdx_cons, List.map_cons]
    cases rest with
    | nil => exact .cons hbefore .nil
    | cons next rest =>
      have hlexemes : Piece.lexemes dialect n (Piece.join ", " ((column :: next :: rest).map
            fun column => [.bound (insert.boundValue row column)])) =
          .placeholder (dialect.ordinal n) :: (Lexeme.ofText ", " ++ Piece.lexemes dialect (n + 1)
            (Piece.join ", " ((next :: rest).map
              fun column => [.bound (insert.boundValue row column)]))) := rfl
      have hcomma : Lexeme.slot (before ++ [.placeholder (dialect.ordinal n)] ++
          Lexeme.ofText ", ") = (i + 2, j + 1) := by
        rw [Lexeme.slot_append, Lexeme.slot_append, hbefore]
        rfl
      rw [hlexemes, Lexeme.fronts, Lexeme.fronts_append, Lexeme.fronts_ofText, List.nil_append]
      exact .cons hbefore (ih (j + 1) (n + 1) hcomma)

theorem values_rowBindings (row : Row) (i : Nat) :
    (insert.rowBindings insert.columns row i 0).map Binding.value =
      insert.columns.map (insert.boundValue row) := by
  have hvalue : (insert.columns.zipIdx.map Prod.fst).map (insert.boundValue row) =
      insert.columns.map (insert.boundValue row) := by
    rw [List.zipIdx_map_fst]
  rw [rowBindings, List.map_map, ← hvalue, List.map_map]
  rfl

/-- What an insert binds for a row and a column, counted row by row. -/
theorem getElem?_bindings {i j : Nat} {row : Row} {column : String}
    (hrow : insert.rows[i]? = some row) (hcolumn : insert.columns[j]? = some column) :
    insert.bindings[i * insert.columns.length + j]? =
      some ⟨.inRow i j, insert.boundValue row column⟩ := by
  obtain ⟨hj, hget⟩ := List.getElem?_eq_some_iff.mp hcolumn
  have hplace : j < insert.columns.zipIdx.length := by rwa [List.length_zipIdx]
  have hgrid := getElem?_grid insert.rows.zipIdx insert.columns.zipIdx
    (fun (row, i) (column, j) => (⟨.inRow i j, insert.boundValue row column⟩ : Binding)) i hplace
  simp only [List.length_zipIdx, List.getElem?_zipIdx, hrow, List.getElem_zipIdx, hget,
    Option.map_some, Nat.zero_add] at hgrid
  exact hgrid

theorem values_bindings : insert.bindings.map Binding.value =
    insert.rows.flatMap fun row => insert.columns.map (insert.boundValue row) := by
  have hrows : (insert.rows.zipIdx.map Prod.fst).flatMap
        (fun row => insert.columns.map (insert.boundValue row)) =
      insert.rows.flatMap fun row => insert.columns.map (insert.boundValue row) := by
    rw [List.zipIdx_map_fst]
  rw [bindings, List.map_flatMap, ← hrows, List.flatMap_map]
  exact List.flatMap_congr fun (row, i) _ => insert.values_rowBindings row i

theorem lexemes_rowPieces (columns : List String) (row : Row) (n : Nat) :
    Piece.lexemes dialect n (insert.rowPieces columns row) =
      Lexeme.ofText "(" ++ (Piece.lexemes dialect n (Piece.join ", "
        (columns.map fun column => [.bound (insert.boundValue row column)])) ++
          Lexeme.ofText ")") := by
  rw [rowPieces, Piece.lexemes_append, Piece.lexemes, Piece.lexemes, Piece.lexemes, List.append_nil,
    List.append_assoc]

/-- A row opens one pair of parentheses. -/
theorem slot_row (columns : List String) (row : Row) (n : Nat) (before : List Lexeme) :
    (Lexeme.slot (before ++ Piece.lexemes dialect n (insert.rowPieces columns row))).1 =
      (Lexeme.slot before).1 + 1 := by
  have hjoin : Piece.OpensNothing dialect (Piece.join ", "
      (columns.map fun column => [.bound (insert.boundValue row column)])) :=
    Piece.opensNothing_join fun column _ => Piece.opensNothing_bound _
  have hclose : ∀ slot, ((Lexeme.ofText ")").foldl Lexeme.countSlot slot).1 = slot.1 :=
    fun _ => rfl
  rw [Lexeme.slot_append, lexemes_rowPieces, List.foldl_append, List.foldl_append, hclose, hjoin]
  rfl

/-- The values of rows stand in their parentheses, if those of earlier rows stand in front. -/
theorem places_rows (columns : List String) (rows : List Row) (i n : Nat) {before : List Lexeme}
    (hbefore : (Lexeme.slot before).1 = i + 1) :
    List.Forall₂ Binding.IsBehind
      ((rows.zipIdx i).flatMap fun (row, i) => insert.rowBindings columns row i 0)
      (Lexeme.fronts before (Piece.lexemes dialect n
        (Piece.join ", " (rows.map (insert.rowPieces columns))))) := by
  have hrow : ∀ (row : Row) (i n : Nat) {before : List Lexeme}, (Lexeme.slot before).1 = i + 1 →
      List.Forall₂ Binding.IsBehind
        (insert.rowBindings columns row i 0)
        (Lexeme.fronts before (Piece.lexemes dialect n (insert.rowPieces columns row))) := by
    intro row i n before hbefore
    have hrows : i + 2 = (Lexeme.slot before).1 + 1 := by rw [hbefore]
    have hopen : Lexeme.slot (before ++ Lexeme.ofText "(") = (i + 2, 0) := by
      rw [Lexeme.slot_append, hrows]
      rfl
    rw [lexemes_rowPieces, Lexeme.fronts_append, Lexeme.fronts_ofText, List.nil_append,
      Lexeme.fronts_append, Lexeme.fronts_ofText, List.append_nil]
    exact insert.places_columns columns row i 0 n hopen
  induction rows generalizing i n before with
  | nil => exact .nil
  | cons row rest ih =>
    rw [List.zipIdx_cons, List.flatMap_cons]
    cases rest with
    | nil =>
      rw [List.zipIdx_nil, List.flatMap_nil, List.append_nil]
      exact hrow row i n hbefore
    | cons next rest =>
      -- Behind the row, one more pair of parentheses is counted, and a comma does not change that.
      have hnext : (Lexeme.slot (before ++ Piece.lexemes dialect n (insert.rowPieces columns row) ++
          Lexeme.ofText ", ")).1 = i + 1 + 1 := by
        rw [Lexeme.slot_append, ← hbefore, ← insert.slot_row columns row n before]
        rfl
      rw [List.map_cons, List.map_cons, Piece.join_cons_cons, ← List.map_cons]
      rw [Piece.lexemes_append, Lexeme.fronts_append, Piece.lexemes, Lexeme.fronts_append,
        Lexeme.fronts_ofText, List.nil_append]
      exact List.rel_append (hrow row i n hbefore) (ih _ _ hnext)

/-- The placeholders of an insert stand in the places of the values of its rows. -/
theorem places_pieces {insert : Insert} {pieces : List Piece} (h : insert.pieces = .ok pieces) :
    List.Forall₂ Binding.IsBehind insert.bindings
      (Lexeme.fronts [] (Piece.lexemes dialect 1 pieces)) := by
  have hopening : ∀ text,
      Stands dialect [.word "INSERT INTO ", .name insert.table, .word text] [] := fun text =>
    ((stands_name insert.table).append (stands_word text)).word "INSERT INTO "
  obtain ⟨hcolumns, rfl⟩ | rfl := eq_of_pieces h
  · have hnone : insert.bindings = [] := by
      rw [bindings, hcolumns]
      exact List.flatMap_eq_nil_iff.mpr fun _ _ => rfl
    rw [hnone]
    exact (hopening " DEFAULT VALUES").places 1 []
  · have hnames : Stands dialect (Piece.join ", " (insert.columns.map fun c => [.name c])) [] :=
      stands_join_nil ", " fun column _ => stands_name column
    have hhead := ((hopening " (").append hnames).append (stands_word ") VALUES ")
    have hflat : Piece.OpensNothing dialect
        (Piece.join ", " (insert.columns.map fun c => [.name c])) :=
      Piece.opensNothing_join fun column _ => Piece.opensNothing_name column
    have hvalues : Piece.OpensNothing dialect [.word ") VALUES "] := fun _ _ => rfl
    -- In front of the rows there are no placeholders, and one pair of parentheses.
    rw [Piece.lexemes_append, Lexeme.fronts_append,
      List.forall₂_nil_left_iff.mp (hhead.places 1 []), List.nil_append]
    refine insert.places_rows insert.columns insert.rows 0 _ ?_
    rw [List.nil_append, Piece.lexemes_append, Piece.lexemes_append, Lexeme.slot_append,
      Lexeme.slot_append, hvalues, hflat]
    rfl

/-- An insert names its table and then its columns. -/
theorem identifiers_pieces {insert : Insert} {pieces : List Piece}
    (h : insert.pieces = .ok pieces) :
    pieces.filterMap Piece.identifier? = insert.table :: insert.columns := by
  have hrow : ∀ row : Row,
      (insert.rowPieces insert.columns row).filterMap Piece.identifier? = [] := by
    intro row
    have hslots : (insert.columns.map fun column =>
        [Piece.bound (insert.boundValue row column)]).flatMap
          (List.filterMap Piece.identifier?) = [] := by
      rw [List.flatMap_eq_nil_iff, List.forall_mem_map]
      exact fun _ _ => rfl
    rw [rowPieces, List.filterMap_append, List.filterMap_cons_none rfl, Piece.identifiers_join,
      hslots]
    rfl
  have hrows : (Piece.join ", " (insert.rows.map (insert.rowPieces insert.columns))).filterMap
      Piece.identifier? = [] := by
    rw [Piece.identifiers_join, List.flatMap_eq_nil_iff, List.forall_mem_map]
    exact fun row _ => hrow row
  have hnames : (Piece.join ", " (insert.columns.map fun c => [.name c])).filterMap
      Piece.identifier? = insert.columns := by
    rw [Piece.identifiers_join, List.flatMap_map]
    exact List.flatMap_singleton' _
  obtain ⟨hcolumns, rfl⟩ | rfl := eq_of_pieces h
  · rw [hcolumns]
    rfl
  · have htable : [.word "INSERT INTO ", .name insert.table, .word " ("].filterMap
        Piece.identifier? = [insert.table] := rfl
    have hvalues : [.word ") VALUES "].filterMap Piece.identifier? = [] := rfl
    rw [List.filterMap_append, List.filterMap_append, List.filterMap_append, htable, hnames,
      hvalues, hrows, List.append_nil, List.append_nil, List.singleton_append]

end Insert

/-- A query binds what it lists, and each placeholder stands in its place. -/
theorem Query.stands_pieces {query : Query} {pieces : List Piece}
    (h : query.pieces dialect = .ok pieces) :
    Piece.values pieces = query.bindings.map Binding.value ∧
      List.Forall₂ Binding.IsBehind query.bindings
        (Lexeme.fronts [] (Piece.lexemes dialect 1 pieces)) := by
  have hstands : ∀ {bindings : List Binding}, Stands dialect pieces bindings →
      Piece.values pieces = bindings.map Binding.value ∧
        List.Forall₂ Binding.IsBehind bindings
          (Lexeme.fronts [] (Piece.lexemes dialect 1 pieces)) :=
    fun h => ⟨h.values_eq, h.places 1 []⟩
  cases query with
  | select q =>
    cases h
    exact hstands q.stands_pieces
  | insert q => exact ⟨(Insert.values_of_pieces h).trans q.values_bindings.symm, q.places_pieces h⟩
  | update q => exact hstands (Update.stands_pieces h)
  | delete q =>
    cases h
    exact hstands q.stands_pieces

/-! ## Rendered queries -/

/-- The placeholders of a statement line up with its parameters, which are those of bindings. -/
structure Statement.LinesUp (dialect : Dialect) (statement : Statement) (bindings : List Binding) :
    Prop where
  /-- Outside of names there is one placeholder for each parameter, with its number. -/
  numbers : (dialect.lex statement.sql).filterMap Lexeme.number? =
    (List.range statement.params.length).map fun i => dialect.ordinal (i + 1)
  /-- The parameters are the values of the bindings. -/
  params : statement.params = bindings.map Binding.value
  /-- Each placeholder stands where the value of its parameter belongs. -/
  places : List.Forall₂ Binding.IsBehind bindings
    (Lexeme.fronts [] (dialect.lex statement.sql))

/-- A parameter is the value of the binding with its number, and its placeholder stands there. -/
theorem Statement.LinesUp.getElem? {dialect : Dialect} {statement : Statement}
    {bindings : List Binding} (h : statement.LinesUp dialect bindings) {k : Nat} {binding : Binding}
    (hk : bindings[k]? = some binding) :
    statement.params[k]? = some binding.value ∧
      ∃ front, (Lexeme.fronts [] (dialect.lex statement.sql))[k]? = some front ∧
        binding.IsBehind front := by
  constructor
  · rw [h.params, List.getElem?_map, hk, Option.map_some]
  · obtain ⟨hlt, rfl⟩ := List.getElem?_eq_some_iff.mp hk
    have hlt' : k < (Lexeme.fronts [] (dialect.lex statement.sql)).length := by
      rwa [← h.places.length_eq]
    exact ⟨_, List.getElem?_eq_getElem hlt', h.places.get hlt hlt'⟩

/--
The placeholders of a rendered query line up with what the query binds. An insert names its table
and then its columns. Behind the parameters of `r` rows and of `j` columns it has the value of the
next row for the next column, and the placeholder stands there.
-/
theorem Query.placeholders_line_up {dialect : Dialect} {query : Query} {statement : Statement}
    (h : query.render dialect = .ok statement) :
    statement.LinesUp dialect query.bindings ∧
      ∀ insert, query = .insert insert →
        (dialect.lex statement.sql).filterMap Lexeme.identifier? = insert.table :: insert.columns ∧
          ∀ (r : Nat) (row : Row) (j : Nat) (column : String), insert.rows[r]? = some row →
            insert.columns[j]? = some column →
            statement.params[r * insert.columns.length + j]? =
                some (insert.boundValue row column) ∧
              ((Lexeme.fronts [] (dialect.lex statement.sql))[r * insert.columns.length + j]?).map
                Lexeme.slot = some (r + 2, j) := by
  obtain ⟨pieces, hpieces, hlexemes, hparams⟩ := Query.exists_lexemes_of_render h
  obtain ⟨hvalues, hplaces⟩ := Query.stands_pieces hpieces
  have hlines : statement.LinesUp dialect query.bindings := by
    constructor
    · rw [hlexemes, hparams, Piece.numbers_lexemes, List.range'_eq_map_range, List.map_map]
      exact List.map_congr_left fun i _ => congrArg dialect.ordinal (Nat.add_comm 1 i)
    · exact hparams.trans hvalues
    · rw [hlexemes]
      exact hplaces
  refine ⟨hlines, ?_⟩
  rintro insert rfl
  constructor
  · rw [hlexemes, Piece.identifiers_lexemes, insert.identifiers_pieces hpieces]
  · intro r row j column hrow hcolumn
    obtain ⟨hparam, front, hfront, hslot⟩ := hlines.getElem? (insert.getElem?_bindings hrow hcolumn)
    refine ⟨hparam, ?_⟩
    rw [hfront]
    exact congrArg some hslot

/-- An update that asks for null twice, and an insert of a row that lacks a column. -/
theorem Query.placeholders_line_up_update_and_insert :
    (∃ (query : Query) (statement : Statement),
        query = .update ⟨"o", ⟨[("n?", .ofInt 3), ("b", .null)]⟩,
          some (.join .or [.compare (.bare "a") .eq .null,
            .compare (.qualified "o" "c") .gt (.ofInt 7),
            .join .and [.compare (.bare "d") .isNull (.ofInt 1),
              .compare (.bare "e") .like (.str "x")]])⟩ ∧
        query.render .postgres = .ok statement ∧
        statement.sql = "UPDATE \"o\" SET \"n?\" = $1, \"b\" = $2 WHERE " ++
          "(\"a\" IS NULL OR \"o\".\"c\" > $3 OR (\"d\" IS NULL AND \"e\" LIKE $4))" ∧
        statement.LinesUp .postgres query.bindings ∧
        query.bindings = [⟨.behind (.name "n?" :: Lexeme.ofText " = "), .integer 3⟩,
          ⟨.behind (.name "b" :: Lexeme.ofText " = "), .null⟩,
          ⟨.behind ([.name "o", .other '.', .name "c"] ++ Lexeme.ofText " > "), .integer 7⟩,
          ⟨.behind (.name "e" :: Lexeme.ofText " LIKE "), .text "x"⟩]) ∧
      ∃ statement : Statement, Query.render .mysql (.insert ⟨"t", [⟨[("a?", .ofInt 1)]⟩,
          ⟨[("b", .str "x"), ("a?", .ofInt 2)]⟩], []⟩) = .ok statement ∧
        statement.sql.toList.filter (· = '?') = ['?', '?', '?', '?', '?'] ∧
        (Dialect.mysql.lex statement.sql).filterMap Lexeme.identifier? = ["t", "a?", "b"] ∧
        statement.params[0 * 2 + 1]? = some .null ∧
        statement.params[1 * 2 + 0]? = some (.integer 2) ∧
        ((Lexeme.fronts [] (Dialect.mysql.lex statement.sql))[1 * 2 + 0]?).map Lexeme.slot =
          some (3, 0) := by
  constructor
  · exact ⟨_, _, rfl, rfl, by decide, (placeholders_line_up rfl).1, rfl⟩
  · have hrender : Query.render .mysql (.insert ⟨"t", [⟨[("a?", .ofInt 1)]⟩,
        ⟨[("b", .str "x"), ("a?", .ofInt 2)]⟩], []⟩) = .ok _ := rfl
    obtain ⟨hnames, hvalues⟩ := (placeholders_line_up hrender).2 _ rfl
    exact ⟨_, hrender, by decide, hnames, (hvalues 0 _ 1 "b" rfl rfl).1, hvalues 1 _ 0 "a?" rfl rfl⟩

end SqlFederation
