import Mathlib.Data.Set.Function
import SqlFederation.Proofs.Pieces
import SqlFederation.Proofs.Placeholders

/-!
# The outline of a statement

No name and no value has a say in the structure of a statement. `Query.outline_fixed` takes a query
that is rendered, reads its text (`Dialect.lex`) and says three things. Every name that is read is
one of the query, and stands in its place (`Query.identifiers`). Every name ends. And a query that
differs from this one by other names and other values (`Query.DiffersBy`) is rendered too, and its
text reads as the same lexemes, up to what stands in names (`Lexeme.outline`). Values have to agree
on being null, and names have to be changed one-to-one where an insert tells its columns apart.

The proof compares pieces up to names and values (`Piece.skeleton`): these decide the outline of the
text (`Piece.lexemes_skeleton`), and they do not change with the names and values of a query
(`Query.skeleton?_rewrite`). Two queries that differ by names and values are both rewritten to the
same one.
-/

namespace SqlFederation

/-- A lexeme up to what stands in a name. -/
def Lexeme.outline : Lexeme → Lexeme
  | .name _ => .name ""
  | lexeme => lexeme

namespace Piece

/-- A piece up to its name or value. -/
def outline : Piece → Piece
  | .word text => .word text
  | .name _ => .name ""
  | .bound _ => .bound .null

/-- Pieces up to names and values. -/
def skeleton (pieces : List Piece) : List Piece :=
  pieces.map outline

/-- The lexemes of pieces up to names are those of the pieces up to names and values. -/
theorem lexemes_skeleton (dialect : Dialect) (n : Nat) (pieces : List Piece) :
    lexemes dialect n (skeleton pieces) = (lexemes dialect n pieces).map Lexeme.outline := by
  have htext : ∀ text, (Lexeme.ofText text).map Lexeme.outline = Lexeme.ofText text := by
    intro text
    rw [Lexeme.ofText, List.map_map]
    rfl
  induction pieces generalizing n with
  | nil => rfl
  | cons piece rest ih =>
    cases piece with
    | word text =>
      rw [lexemes, List.map_append, htext, ← ih]
      rfl
    | name identifier => exact congrArg (.name "" :: ·) (ih n)
    | bound value => exact congrArg (.placeholder (dialect.ordinal n) :: ·) (ih (n + 1))

theorem skeleton_append (front back : List Piece) :
    skeleton (front ++ back) = skeleton front ++ skeleton back :=
  List.map_append

/-- Pieces with the same skeletons have the same skeleton together. -/
theorem skeleton_congr {front front' back back' : List Piece}
    (hfront : skeleton front = skeleton front') (hback : skeleton back = skeleton back') :
    skeleton (front ++ back) = skeleton (front' ++ back') := by
  rw [skeleton_append, skeleton_append, hfront, hback]

theorem skeleton_word (text : String) (rest : List Piece) :
    skeleton (.word text :: rest) = .word text :: skeleton rest := rfl

theorem skeleton_word_congr (text : String) {rest rest' : List Piece}
    (h : skeleton rest = skeleton rest') :
    skeleton (.word text :: rest) = skeleton (.word text :: rest') := by
  rw [skeleton_word, skeleton_word, h]

theorem skeleton_join (separator : String) (parts : List (List Piece)) :
    skeleton (join separator parts) = join separator (parts.map skeleton) := by
  induction parts with
  | nil => rfl
  | cons part rest ih =>
    cases rest with
    | nil => rfl
    | cons next rest =>
      rw [join_cons_cons, skeleton_append, skeleton_word, ih]
      rfl

end Piece

open Piece (skeleton skeleton_append skeleton_congr skeleton_word skeleton_word_congr skeleton_join)

/-! ## Other names and other values -/

/-- Null stays null, and any other value becomes the same one. -/
def Json.mask (value : Json) : Json :=
  if value.isNull then .null else .bool true

/-- The same column under other names. -/
def ColumnRef.rename (rename : String → String) (column : ColumnRef) : ColumnRef :=
  ⟨column.table.map rename, rename column.name⟩

namespace Predicate

variable (names : String → String) (change : Json → Json)

mutual

/-- The same tree with other names and other values. -/
def rewrite : Predicate → Predicate
  | .compare column op value => .compare (column.rename names) op (change value)
  | .join connective children => .join connective (rewriteAll children)

/-- Rewrites every tree of a list. -/
def rewriteAll : List Predicate → List Predicate
  | [] => []
  | child :: rest => rewrite child :: rewriteAll rest

end

theorem rewriteAll_eq_map (children : List Predicate) :
    rewriteAll names change children = children.map (rewrite names change) := by
  induction children with
  | nil => rfl
  | cons child rest ih => rw [rewriteAll, ih, List.map_cons]

end Predicate

section Rewrite

variable (names : String → String) (change : Json → Json)

/-- The same output with other names. -/
def Output.rename (output : Output) : Output :=
  { expression := match output.expression with
      | .column column => .column (column.rename names)
      | .aggregate function column => .aggregate function (column.map (ColumnRef.rename names))
    label := output.label.map names }

/-- The same sort key with other names. -/
def SortKey.rename (key : SortKey) : SortKey :=
  { key with column := key.column.rename names }

/-- A row with other names and other values. -/
def Row.rewrite (row : Row) : Row :=
  ⟨row.entries.map fun entry => (names entry.1, change entry.2)⟩

/-- The same read with other names and other values. -/
def Select.rewrite (select : Select) : Select :=
  { table := names select.table
    outputs := select.outputs.map (Output.rename names)
    predicate := select.predicate.map (Predicate.rewrite names change)
    groupBy := select.groupBy.map (ColumnRef.rename names)
    orderBy := select.orderBy.map (SortKey.rename names)
    limit := select.limit
    offset := select.offset }

/-- The same insert with other names and other values. -/
def Insert.rewrite (insert : Insert) : Insert :=
  ⟨names insert.table, insert.rows.map (Row.rewrite names change), insert.blobColumns.map names⟩

/-- The same update with other names and other values. -/
def Update.rewrite (update : Update) : Update :=
  ⟨names update.table, update.set.rewrite names change,
    update.predicate.map (Predicate.rewrite names change)⟩

/-- The same delete with other names and other values. -/
def Delete.rewrite (delete : Delete) : Delete :=
  ⟨names delete.table, delete.predicate.map (Predicate.rewrite names change)⟩

/-- The same query with other names and other values. -/
def Query.rewrite : Query → Query
  | .select q => .select (q.rewrite names change)
  | .insert q => .insert (q.rewrite names change)
  | .update q => .update (q.rewrite names change)
  | .delete q => .delete (q.rewrite names change)

end Rewrite

namespace Query

/--
Is the second query the first one under other names, and with other values that agree with those of
the first on being null?
-/
def DiffersBy (rename : String → String) (query other : Query) : Prop :=
  other.rewrite id Json.mask = query.rewrite rename Json.mask

/-- Are the names changed one-to-one where the text depends on which of them are the same? -/
def TellsApart (rename : String → String) : Query → Prop
  | .insert q => Set.InjOn rename {column | column ∈ q.columns}
  | _ => True

end Query

/-! ## The skeleton of a query -/

section Skeleton

variable (rename : String → String) {change : Json → Json}

theorem Json.isNull_mask (value : Json) : value.mask.isNull = value.isNull := by
  unfold Json.mask
  split
  · rename_i h
    exact h.symm
  · rename_i h
    exact (Bool.eq_false_iff.mpr h).symm

theorem ColumnRef.skeleton_rename (column : ColumnRef) :
    skeleton (column.rename rename).pieces = skeleton column.pieces := by
  obtain ⟨table, name⟩ := column
  cases table <;> rfl

/-- What stands behind a column. -/
theorem ColumnRef.skeleton_behind (column : ColumnRef) {behind other : List Piece}
    (h : skeleton behind = skeleton other) :
    skeleton ((column.rename rename).pieces ++ behind) = skeleton (column.pieces ++ other) :=
  skeleton_congr (column.skeleton_rename rename) h

namespace Predicate

variable (hchange : ∀ value, (change value).isNull = value.isNull)

include hchange

theorem skeleton_comparison (column : ColumnRef) (op : Comparator) (value : Json) :
    skeleton (comparisonPieces (column.rename rename) op (change value)) =
      skeleton (comparisonPieces column op value) := by
  unfold comparisonPieces
  rw [hchange]
  cases op with
  | isNull => exact column.skeleton_behind rename rfl
  | isNotNull => exact column.skeleton_behind rename rfl
  | _ => cases value.isNull <;> exact column.skeleton_behind rename rfl

omit hchange in
theorem skeleton_joinPieces (connective : Connective) (parts : List (List Piece)) :
    skeleton (joinPieces connective parts) = joinPieces connective (parts.map skeleton) := by
  match parts with
  | [] => cases connective <;> rfl
  | [part] => rfl
  | first :: second :: others =>
    show skeleton (.word "(" :: Piece.join _ _ ++ [.word ")"]) = _
    rw [List.cons_append, skeleton_word, skeleton_append, skeleton_join]
    rfl

theorem skeleton_rewrite (p : Predicate) :
    skeleton (p.rewrite rename change).pieces = skeleton p.pieces := by
  induction p using Predicate.induct with
  | compare column op value =>
    rw [rewrite, pieces, pieces]
    exact skeleton_comparison rename hchange column op value
  | join connective children ih =>
    have hchildren : ((children.map (rewrite rename change)).map pieces).map skeleton =
        (children.map pieces).map skeleton := by
      rw [List.map_map, List.map_map, List.map_map]
      exact List.map_congr_left ih
    rw [rewrite, rewriteAll_eq_map, pieces, pieces, piecesAll_eq_map, piecesAll_eq_map,
      skeleton_joinPieces, hchildren, skeleton_joinPieces]

theorem skeleton_whereClause (predicate : Option Predicate) :
    skeleton (whereClause (predicate.map (rewrite rename change))) =
      skeleton (whereClause predicate) := by
  cases predicate with
  | none => rfl
  | some p => exact skeleton_word_congr _ (skeleton_rewrite rename hchange p)

end Predicate

theorem Output.skeleton_rename (output : Output) :
    skeleton (output.rename rename).pieces = skeleton output.pieces := by
  obtain ⟨expression, label⟩ := output
  cases expression with
  | column column =>
    cases label with
    | none => exact column.skeleton_rename rename
    | some label => exact column.skeleton_behind rename rfl
  | aggregate function column =>
    cases column with
    | none => rfl
    | some column =>
      show skeleton (.word _ :: ((column.rename rename).pieces ++ [.word ")", .word " AS ",
        .name _])) = skeleton (.word _ :: (column.pieces ++ [.word ")", .word " AS ", .name _]))
      rw [skeleton_word, skeleton_word, column.skeleton_behind rename]
      rfl

theorem SortKey.skeleton_rename (dialect : Dialect) (key : SortKey) :
    skeleton ((key.rename rename).pieces dialect) = skeleton (key.pieces dialect) := by
  cases dialect with
  | mysql =>
    show skeleton ((key.column.rename rename).pieces ++ [.word _] ++
      (key.column.rename rename).pieces ++ [.word _]) =
        skeleton (key.column.pieces ++ [.word _] ++ key.column.pieces ++ [.word _])
    have hcolumn := key.column.skeleton_rename rename
    exact skeleton_congr (skeleton_congr (skeleton_congr hcolumn rfl) hcolumn) rfl
  | _ => exact key.column.skeleton_behind rename rfl

/-- A list of items that are rewritten each on its own has the same parts. -/
theorem Piece.skeleton_parts {α : Type} {item : α → α} {part : α → List Piece}
    (h : ∀ a, skeleton (part (item a)) = skeleton (part a)) (separator : String) (items : List α) :
    skeleton (Piece.join separator ((items.map item).map part)) =
      skeleton (Piece.join separator (items.map part)) := by
  rw [skeleton_join, skeleton_join, List.map_map, List.map_map, List.map_map]
  exact congrArg _ (List.map_congr_left fun a _ => h a)

theorem Select.skeleton_rewrite (hchange : ∀ value, (change value).isNull = value.isNull)
    (dialect : Dialect) (select : Select) :
    skeleton ((select.rewrite rename change).pieces dialect) =
      skeleton (select.pieces dialect) := by
  obtain ⟨table, outputs, predicate, groupBy, orderBy, limit, offset⟩ := select
  have hpredicate := Predicate.skeleton_whereClause rename hchange predicate
  have houtputs := Piece.skeleton_parts (Output.skeleton_rename rename) ", " outputs
  have hgroups := Piece.skeleton_parts (ColumnRef.skeleton_rename rename) ", " groupBy
  have horder := Piece.skeleton_parts (SortKey.skeleton_rename rename dialect) ", " orderBy
  refine skeleton_congr (skeleton_congr (skeleton_congr (skeleton_congr (skeleton_congr ?outputs
    rfl) hpredicate) ?groups) ?order) rfl
  case outputs =>
    cases outputs with
    | nil => rfl
    | cons output others => exact skeleton_word_congr _ houtputs
  case groups =>
    cases groupBy with
    | nil => rfl
    | cons column others => exact skeleton_word_congr _ hgroups
  case order =>
    cases orderBy with
    | nil => rfl
    | cons key others => exact skeleton_word_congr _ horder

namespace Insert

/-- Columns that are known already are told apart from those that are added. -/
theorem addColumns_eraseDups (known : List String) (row : Row) :
    addColumns known.eraseDups row = (known ++ row.columns).eraseDups := by
  unfold addColumns
  generalize row.columns = added
  induction added generalizing known with
  | nil => rw [List.append_nil, List.foldl_nil]
  | cons column others ih =>
    have hstep : (if known.eraseDups.contains column then known.eraseDups
        else known.eraseDups ++ [column]) = (known ++ [column]).eraseDups := by
      by_cases h : column ∈ known
      · rw [Pieces.eraseDups_concat_of_mem h, if_pos]
        rwa [List.contains_iff_mem, List.mem_eraseDups]
      · rw [Pieces.eraseDups_concat_of_notMem h, if_neg]
        rwa [List.contains_iff_mem, List.mem_eraseDups]
    rw [List.foldl_cons, hstep, ih, List.append_assoc, List.singleton_append]

/-- The columns of an insert are the first appearances of the columns of its rows. -/
theorem columns_eq_eraseDups (insert : Insert) :
    insert.columns = (insert.rows.flatMap Row.columns).eraseDups := by
  have hfold : ∀ (rows : List Row) (known : List String),
      rows.foldl addColumns known.eraseDups = (known ++ rows.flatMap Row.columns).eraseDups := by
    intro rows
    induction rows with
    | nil => exact fun known => by rw [List.flatMap_nil, List.append_nil, List.foldl_nil]
    | cons row others ih =>
      intro known
      rw [List.foldl_cons, addColumns_eraseDups, ih, List.append_assoc, List.flatMap_cons]
  exact hfold insert.rows []

variable (change) in
/-- Under other names, an insert has its columns under these. -/
theorem columns_rewrite {insert : Insert}
    (h : Set.InjOn rename {column | column ∈ insert.columns}) :
    (insert.rewrite rename change).columns = insert.columns.map rename := by
  have hrows : (insert.rows.map (Row.rewrite rename change)).flatMap Row.columns =
      (insert.rows.flatMap Row.columns).map rename := by
    rw [List.flatMap_map, List.map_flatMap]
    apply List.flatMap_congr
    intro row _
    rw [Row.columns, Row.columns, Row.rewrite, List.map_map, List.map_map]
    rfl
  rw [columns_eq_eraseDups] at h
  rw [columns_eq_eraseDups, columns_eq_eraseDups, rewrite, hrows]
  apply Pieces.eraseDups_map
  intro a ha b hb heq
  exact h (List.mem_eraseDups.mpr ha) (List.mem_eraseDups.mpr hb) heq

/-- A row has one value for each column, whatever the values are. -/
theorem skeleton_rowPieces (insert other : Insert) (row otherRow : Row) (columns : List String) :
    skeleton (insert.rowPieces (columns.map rename) row) =
      skeleton (other.rowPieces columns otherRow) := by
  refine skeleton_congr (skeleton_word_congr "(" ?_) rfl
  rw [skeleton_join, skeleton_join, List.map_map, List.map_map, List.map_map]
  rfl

/-- An insert has its skeleton under other names, too, if it tells its columns apart by them. -/
theorem skeleton_rewrite {insert : Insert}
    (h : Set.InjOn rename {column | column ∈ insert.columns}) :
    (insert.rewrite rename change).pieces.toOption.map skeleton =
      insert.pieces.toOption.map skeleton := by
  have hcolumns := columns_rewrite rename change h
  have hnames : ∀ columns : List String,
      skeleton (Piece.join ", " ((columns.map rename).map fun column => [.name column])) =
        skeleton (Piece.join ", " (columns.map fun column => [.name column])) := by
    intro columns
    rw [skeleton_join, skeleton_join, List.map_map, List.map_map, List.map_map]
    rfl
  have hrows : ∀ columns : List String,
      skeleton (Piece.join ", " ((insert.rows.map (Row.rewrite rename change)).map
          ((insert.rewrite rename change).rowPieces (columns.map rename)))) =
        skeleton (Piece.join ", " (insert.rows.map (insert.rowPieces columns))) := by
    intro columns
    rw [skeleton_join, skeleton_join, List.map_map, List.map_map, List.map_map]
    exact congrArg _ (List.map_congr_left fun row _ => skeleton_rowPieces rename _ _ _ _ _)
  unfold pieces
  rw [hcolumns, show (insert.rewrite rename change).rows.isEmpty = insert.rows.isEmpty from
    List.isEmpty_map]
  split
  · rfl
  · cases insert.columns with
    | nil => rfl
    | cons column others =>
      exact congrArg some (skeleton_congr (skeleton_congr (skeleton_congr rfl
        (hnames (column :: others))) rfl) (hrows (column :: others)))

end Insert

theorem Update.skeleton_rewrite (hchange : ∀ value, (change value).isNull = value.isNull)
    (update : Update) :
    (update.rewrite rename change).pieces.toOption.map skeleton =
      update.pieces.toOption.map skeleton := by
  obtain ⟨table, ⟨entries⟩, predicate⟩ := update
  have hpredicate := Predicate.skeleton_whereClause rename hchange predicate
  have hset : ∀ entries : List (String × Json),
      skeleton (Piece.join ", " ((entries.map fun entry => (rename entry.1, change entry.2)).map
          fun entry => [.name entry.1, .word " = ", .bound (.ofJson entry.2)])) =
        skeleton (Piece.join ", " (entries.map fun entry =>
          [.name entry.1, .word " = ", .bound (.ofJson entry.2)])) := by
    intro entries
    apply Piece.skeleton_parts
    exact fun _ => rfl
  cases entries with
  | nil => rfl
  | cons entry others =>
    exact congrArg some (skeleton_congr (skeleton_congr rfl (hset (entry :: others))) hpredicate)

namespace Query

/-- The skeleton of a query that can be rendered. -/
def skeleton? (dialect : Dialect) (query : Query) : Option (List Piece) :=
  (query.pieces dialect).toOption.map skeleton

/-- A query has the same skeleton with other names and values that agree on being null. -/
theorem skeleton?_rewrite (hchange : ∀ value, (change value).isNull = value.isNull)
    (dialect : Dialect) {query : Query} (h : query.TellsApart rename) :
    (query.rewrite rename change).skeleton? dialect = query.skeleton? dialect := by
  cases query with
  | select q => exact congrArg some (q.skeleton_rewrite rename hchange dialect)
  | insert q => exact Insert.skeleton_rewrite rename h
  | update q => exact q.skeleton_rewrite rename hchange
  | delete q =>
    have hpredicate := Predicate.skeleton_whereClause rename hchange q.predicate
    exact congrArg some (skeleton_congr rfl hpredicate)

end Query

end Skeleton

/-! ## The names of a query -/

/-- The names of a column. -/
def ColumnRef.names (column : ColumnRef) : List String :=
  column.table.toList ++ [column.name]

/-- The names of a condition that may be absent, from left to right. -/
def Predicate.names (predicate : Option Predicate) : List String :=
  predicate.toList.flatMap fun p => p.comparisons.flatMap fun c => c.column.names

/-- The names of an output: its column, and what it is called if that is written. -/
def Output.names (output : Output) : List String :=
  match output.expression with
  | .column column => column.names ++ output.label.toList
  | .aggregate _ column => column.toList.flatMap ColumnRef.names ++ [output.name]

/-- The names of a sort key; where nulls cannot be placed by name, they are written twice. -/
def SortKey.names (dialect : Dialect) (key : SortKey) : List String :=
  match dialect with
  | .mysql => key.column.names ++ key.column.names
  | _ => key.column.names

/-- The names of a query in the order in which they are written. -/
def Query.identifiers (dialect : Dialect) : Query → List String
  | .select q => q.outputs.flatMap Output.names ++ [q.table] ++ Predicate.names q.predicate ++
      q.groupBy.flatMap ColumnRef.names ++ q.orderBy.flatMap (SortKey.names dialect)
  | .insert q => q.table :: q.columns
  | .update q => q.table :: q.set.columns ++ Predicate.names q.predicate
  | .delete q => q.table :: Predicate.names q.predicate

section Identifiers

/-- The names of pieces. -/
def Piece.identifiers (pieces : List Piece) : List String :=
  pieces.filterMap Piece.identifier?

open Piece (identifiers)

theorem Piece.identifiers_append (front back : List Piece) :
    identifiers (front ++ back) = identifiers front ++ identifiers back :=
  List.filterMap_append

/-- Items that have their names each on their own have them together. -/
theorem Piece.identifiers_parts {α : Type} {part : α → List Piece} {names : α → List String}
    (h : ∀ a, identifiers (part a) = names a) (separator : String) (items : List α) :
    identifiers (Piece.join separator (items.map part)) = items.flatMap names := by
  rw [identifiers, Piece.identifiers_join, List.flatMap_map]
  exact List.flatMap_congr fun a _ => h a

theorem ColumnRef.identifiers_pieces (column : ColumnRef) :
    identifiers column.pieces = column.names := by
  obtain ⟨table, name⟩ := column
  cases table <;> rfl

namespace Predicate

theorem identifiers_comparison (comparison : Comparison) :
    identifiers (comparisonPieces comparison.column comparison.op comparison.value) =
      comparison.column.names := by
  have hbehind : ∀ behind : List Piece, identifiers behind = [] →
      identifiers (comparison.column.pieces ++ behind) = comparison.column.names := by
    intro behind h
    rw [Piece.identifiers_append, comparison.column.identifiers_pieces, h, List.append_nil]
  cases hnull : comparison.asksForNull with
  | true =>
    obtain ⟨text, hpieces⟩ := comparisonPieces_of_asksForNull hnull
    rw [hpieces]
    exact hbehind _ rfl
  | false =>
    rw [comparisonPieces_of_not_asksForNull hnull]
    exact hbehind _ rfl

theorem identifiers_joinPieces (connective : Connective) (parts : List (List Piece)) :
    identifiers (joinPieces connective parts) = parts.flatMap identifiers := by
  match parts with
  | [] => cases connective <;> rfl
  | [part] => exact (List.append_nil _).symm
  | first :: second :: others =>
    show identifiers (Piece.join _ (first :: second :: others) ++ [.word ")"]) = _
    rw [Piece.identifiers_append, identifiers, Piece.identifiers_join]
    exact List.append_nil _

theorem identifiers_pieces (p : Predicate) :
    identifiers p.pieces = p.comparisons.flatMap fun c => c.column.names := by
  induction p using Predicate.induct with
  | compare column op value =>
    rw [pieces, comparisons, List.flatMap_singleton]
    exact identifiers_comparison ⟨column, op, value⟩
  | join connective children ih =>
    rw [pieces, piecesAll_eq_map, identifiers_joinPieces, comparisons, comparisonsAll_eq_flatMap,
      List.flatMap_map, List.flatMap_assoc]
    exact List.flatMap_congr ih

theorem identifiers_whereClause (predicate : Option Predicate) :
    identifiers (whereClause predicate) = names predicate := by
  cases predicate with
  | none => rfl
  | some p => exact p.identifiers_pieces.trans (List.append_nil _).symm

end Predicate

theorem Output.identifiers_pieces (output : Output) :
    identifiers output.pieces = output.names := by
  obtain ⟨expression, label⟩ := output
  cases expression with
  | column column =>
    cases label with
    | none => exact column.identifiers_pieces.trans (List.append_nil _).symm
    | some label =>
      show identifiers (column.pieces ++ [.word " AS ", .name label]) = _
      rw [Piece.identifiers_append, column.identifiers_pieces]
      rfl
  | aggregate function column =>
    cases column with
    | none => rfl
    | some column =>
      show identifiers (column.pieces ++ [.word ")", .word " AS ", .name _]) = _
      rw [Piece.identifiers_append, column.identifiers_pieces]
      exact congrArg (· ++ _) (List.append_nil _).symm

theorem SortKey.identifiers_pieces (dialect : Dialect) (key : SortKey) :
    identifiers (key.pieces dialect) = key.names dialect := by
  have hbehind : ∀ text, identifiers (key.column.pieces ++ [.word text]) = key.column.names := by
    intro text
    rw [Piece.identifiers_append, key.column.identifiers_pieces]
    exact List.append_nil _
  cases dialect with
  | mysql =>
    show identifiers (key.column.pieces ++ [.word _] ++ key.column.pieces ++ [.word _]) = _
    rw [List.append_assoc, Piece.identifiers_append, hbehind, hbehind]
    rfl
  | _ => exact hbehind _

theorem Select.identifiers_pieces (dialect : Dialect) (select : Select) :
    identifiers (select.pieces dialect) = Query.identifiers dialect (.select select) := by
  obtain ⟨table, outputs, predicate, groupBy, orderBy, limit, offset⟩ := select
  have houtputs := Piece.identifiers_parts Output.identifiers_pieces ", " outputs
  have hgroups := Piece.identifiers_parts ColumnRef.identifiers_pieces ", " groupBy
  have horder := Piece.identifiers_parts (SortKey.identifiers_pieces dialect) ", " orderBy
  unfold Select.pieces
  rw [Piece.identifiers_append, Piece.identifiers_append, Piece.identifiers_append,
    Piece.identifiers_append, Piece.identifiers_append, Predicate.identifiers_whereClause]
  refine (List.append_nil _).trans ?_
  refine congrArg₂ _ (congrArg₂ _ (congrArg₂ _ (congrArg₂ _ ?outputs rfl) rfl) ?groups) ?order
  case outputs =>
    cases outputs with
    | nil => rfl
    | cons output others => exact houtputs
  case groups =>
    cases groupBy with
    | nil => rfl
    | cons column others => exact hgroups
  case order =>
    cases orderBy with
    | nil => rfl
    | cons key others => exact horder

/-- The names of what a query is rendered to are its own, in order. -/
theorem Query.identifiers_pieces {dialect : Dialect} {query : Query} {pieces : List Piece}
    (h : query.pieces dialect = .ok pieces) :
    Piece.identifiers pieces = query.identifiers dialect := by
  cases query with
  | select q =>
    cases h
    exact q.identifiers_pieces dialect
  | insert q => exact Insert.identifiers_pieces h
  | update q =>
    have hset : ∀ entry : String × Json,
        Piece.identifiers [.name entry.1, .word " = ", .bound (.ofJson entry.2)] = [entry.1] :=
      fun _ => rfl
    rw [Update.eq_of_pieces h, Piece.identifiers_append, Piece.identifiers_append,
      Piece.identifiers_parts hset, Predicate.identifiers_whereClause, ← List.map_eq_flatMap]
    rfl
  | delete q =>
    cases h
    exact congrArg (q.table :: ·) (Predicate.identifiers_whereClause q.predicate)

end Identifiers

/-! ## Rendered queries -/

/-- The lexemes of pieces are names that end. -/
theorem Piece.unclosed_notMem_lexemes (dialect : Dialect) (text : String) (n : Nat)
    (pieces : List Piece) : .unclosed text ∉ lexemes dialect n pieces := by
  induction pieces generalizing n with
  | nil => exact List.not_mem_nil
  | cons piece rest ih =>
    cases piece with
    | word word =>
      rw [lexemes, List.mem_append, Lexeme.ofText, List.mem_map]
      rintro (⟨c, _, hc⟩ | hrest)
      · cases hc
      · exact ih n hrest
    | name identifier =>
      rw [lexemes, List.mem_cons, not_or]
      exact ⟨Lexeme.noConfusion, ih n⟩
    | bound value =>
      rw [lexemes, List.mem_cons, not_or]
      exact ⟨Lexeme.noConfusion, ih (n + 1)⟩

/--
The names that are read in the text of a rendered query are its own, in order, and each of them
ends. A query that differs from it by other names and by other values that agree on being null is
rendered to a text with the same lexemes up to names. Names have to be changed one-to-one, though
that matters for the columns of an insert only.
-/
theorem Query.outline_fixed {dialect : Dialect} {query : Query} {statement : Statement}
    (h : query.render dialect = .ok statement) :
    (dialect.lex statement.sql).filterMap Lexeme.identifier? = query.identifiers dialect ∧
      (∀ text, .unclosed text ∉ dialect.lex statement.sql) ∧
      ∀ (rename : String → String) (other : Query), query.TellsApart rename →
        query.DiffersBy rename other →
        ∃ otherStatement, other.render dialect = .ok otherStatement ∧
          (dialect.lex otherStatement.sql).map Lexeme.outline =
            (dialect.lex statement.sql).map Lexeme.outline := by
  obtain ⟨pieces, hpieces, hlexemes, -⟩ := exists_lexemes_of_render h
  rw [hlexemes]
  refine ⟨?_, fun text => Piece.unclosed_notMem_lexemes dialect text 1 pieces, ?_⟩
  · rw [Piece.identifiers_lexemes]
    exact identifiers_pieces hpieces
  · intro rename other hapart hdiffers
    have hid : other.TellsApart id := by
      cases other with
      | insert q => exact Set.injOn_id _
      | _ => trivial
    -- Both queries are rewritten to the same one, which has the skeleton of both.
    have hskeleton : other.skeleton? dialect = some (skeleton pieces) := by
      rw [← skeleton?_rewrite id Json.isNull_mask dialect hid, hdiffers,
        skeleton?_rewrite rename Json.isNull_mask dialect hapart, skeleton?, hpieces]
      rfl
    cases hother : other.pieces dialect with
    | error e =>
      rw [skeleton?, hother] at hskeleton
      cases hskeleton
    | ok otherPieces =>
      have hrender : other.render dialect = .ok (Statement.ofPieces dialect otherPieces) := by
        rw [render, hother]
        rfl
      obtain ⟨own, hown, hlex, -⟩ := exists_lexemes_of_render hrender
      cases hother.symm.trans hown
      rw [skeleton?, hother] at hskeleton
      refine ⟨_, hrender, ?_⟩
      rw [hlex, ← Piece.lexemes_skeleton, ← Piece.lexemes_skeleton]
      exact congrArg _ (Option.some.inj hskeleton)

/-- An insert with quotes and signs in its names, and one with other names and values. -/
theorem Query.outline_fixed_insert :
    ∃ statement other : Statement,
      Query.render .postgres (.insert ⟨"t", [⟨[("a$1", .ofInt 1), ("b\"", .null)]⟩], []⟩) =
        .ok statement ∧
      statement.sql = "INSERT INTO \"t\" (\"a$1\", \"b\"\"\") VALUES ($1, $2)" ∧
      (Dialect.postgres.lex statement.sql).filterMap Lexeme.identifier? = ["t", "a$1", "b\""] ∧
      Query.render .postgres
        (.insert ⟨"t\" ", [⟨[("a$1\" ", .str "') --"), ("b\"\" ", .null)]⟩], []⟩) = .ok other ∧
      (Dialect.postgres.lex other.sql).map Lexeme.outline =
        (Dialect.postgres.lex statement.sql).map Lexeme.outline := by
  have hrender : Query.render .postgres
      (.insert ⟨"t", [⟨[("a$1", .ofInt 1), ("b\"", .null)]⟩], []⟩) = .ok _ := rfl
  obtain ⟨hnames, -, hothers⟩ := outline_fixed hrender
  have hrename : Function.Injective fun name : String => name ++ "\" " := by
    intro a b h
    have hchars := congrArg String.toList h
    rw [String.toList_append, String.toList_append, List.append_left_inj] at hchars
    exact String.toList_inj.mp hchars
  obtain ⟨other, hother, houtline⟩ := hothers (fun name => name ++ "\" ")
    (.insert ⟨"t\" ", [⟨[("a$1\" ", .str "') --"), ("b\"\" ", .null)]⟩], []⟩) hrename.injOn rfl
  exact ⟨_, other, hrender, by decide, hnames, hother, houtline⟩

end SqlFederation
