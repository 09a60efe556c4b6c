import SqlFederation.Proofs.Placeholders

/-!
# The rows that an insert makes

`Dialect.readInsert?` reads the text of an insert as the language has it: a table, and then either
the words for one row of defaults or the columns and a tuple of as many values for each row. A
rendered insert is read so in every dialect, with the table and the columns of the query, and a
tuple for each of its rows (`Insert.readInsert?_text`); the tuples are read one after the other, by
induction on the rows (`Insert.tuples?_rows`), and their values by induction on the columns
(`Insert.tuples?_values`).

The words for a row of defaults stand for one row only. So a rendered insert makes a row for each
row of the query if one of these has a column, or if there is one row (`Insert.keeps_rows_iff`), and
of several rows without columns it makes one.
-/

namespace SqlFederation

/-- What the text of an insert says. -/
inductive InsertText where
  /-- A row of defaults. -/
  | defaults (table : String)
  /-- As many tuples, each with a value for every column. -/
  | tuples (table : String) (columns : List String) (count : Nat)
  deriving DecidableEq

namespace InsertText

/-- The table that is written to. -/
def table : InsertText → String
  | .defaults table => table
  | .tuples table _ _ => table

/-- The columns that get values. -/
def columns : InsertText → List String
  | .defaults _ => []
  | .tuples _ columns _ => columns

/-- How many rows are made. -/
def rows : InsertText → Nat
  | .defaults _ => 1
  | .tuples _ _ count => count

end InsertText

namespace Lexeme

/-- Reads names up to the parenthesis that closes behind them. -/
def columns? : List Lexeme → Option (List String × List Lexeme)
  | .name column :: .other ')' :: rest => some ([column], rest)
  | .name column :: .other ',' :: .other ' ' :: rest =>
    (columns? rest).map fun (columns, rest) => (column :: columns, rest)
  | _ => none

/-- Reads a tuple behind some of its values, and the tuples behind it: the sizes of all of them. -/
def tuples? (before : Nat) : List Lexeme → Option (List Nat)
  | [.placeholder _, .other ')'] => some [before + 1]
  | .placeholder _ :: .other ')' :: .other ',' :: .other ' ' :: .other '(' :: rest =>
    (tuples? 0 rest).map ((before + 1) :: ·)
  | .placeholder _ :: .other ',' :: .other ' ' :: rest => tuples? (before + 1) rest
  | _ => none

/-- Reads the columns and the tuples of an insert into a table. -/
def insert? (table : String) (lexemes : List Lexeme) : Option InsertText := do
  let (columns, rest) ← columns? (← lexemes.dropPrefix? (ofText " ("))
  let sizes ← tuples? 0 (← rest.dropPrefix? (ofText " VALUES ("))
  if sizes.all (· = columns.length) then some (.tuples table columns sizes.length) else none

end Lexeme

/-- Reads the text of an insert. -/
def Dialect.readInsert? (dialect : Dialect) (sql : String) : Option InsertText := do
  match ← (dialect.lex sql).dropPrefix? (Lexeme.ofText "INSERT INTO ") with
  | .name table :: rest =>
    if rest = Lexeme.ofText " DEFAULT VALUES" then some (.defaults table)
    else Lexeme.insert? table rest
  | _ => none

namespace Insert

variable {dialect : Dialect}

/-- The columns are read back. -/
theorem columns?_names {columns : List String} (h : columns ≠ []) (n : Nat) (rest : List Lexeme) :
    Lexeme.columns? (Piece.lexemes dialect n (Piece.join ", "
      (columns.map fun column => [.name column])) ++ .other ')' :: rest) =
        some (columns, rest) := by
  induction columns with
  | nil => exact absurd rfl h
  | cons column others ih =>
    cases others with
    | nil => rfl
    | cons next others =>
      have hlexemes : Piece.lexemes dialect n (Piece.join ", " ((column :: next :: others).map
            fun column => [.name column])) =
          .name column :: .other ',' :: .other ' ' :: Piece.lexemes dialect n
            (Piece.join ", " ((next :: others).map fun column => [.name column])) := rfl
      rw [hlexemes, List.cons_append, List.cons_append, List.cons_append, Lexeme.columns?,
        ih (List.cons_ne_nil next others)]
      rfl

variable (insert : Insert)

/-- The values of a tuple are counted, and the reading goes on at the parenthesis behind them. -/
theorem tuples?_values (dialect : Dialect) {columns : List String} (h : columns ≠ []) (row : Row)
    (before n : Nat) (rest : List Lexeme) :
    ∃ number, Lexeme.tuples? before (Piece.lexemes dialect n (Piece.join ", "
      (columns.map fun column => [.bound (insert.boundValue row column)])) ++ rest) =
        Lexeme.tuples? (before + columns.length - 1) (.placeholder number :: rest) := by
  induction columns generalizing before n with
  | nil => exact absurd rfl h
  | cons column others ih =>
    cases others with
    | nil => exact ⟨dialect.ordinal n, rfl⟩
    | cons next others =>
      obtain ⟨number, hrest⟩ := ih (List.cons_ne_nil next others) (before + 1) (n + 1)
      refine ⟨number, ?_⟩
      have hlexemes : Piece.lexemes dialect n (Piece.join ", " ((column :: next :: others).map
            fun column => [.bound (insert.boundValue row column)])) =
          .placeholder (dialect.ordinal n) :: .other ',' :: .other ' ' ::
            Piece.lexemes dialect (n + 1) (Piece.join ", " ((next :: others).map
              fun column => [.bound (insert.boundValue row column)])) := rfl
      have hcount : before + 1 + (next :: others).length - 1 =
          before + (column :: next :: others).length - 1 := by
        rw [List.length_cons, List.length_cons, List.length_cons]
        omega
      rw [hlexemes, List.cons_append, List.cons_append, List.cons_append, Lexeme.tuples?, hrest,
        hcount]

/-- The tuples of rows are read one after the other, each with a value for every column. -/
theorem tuples?_rows (dialect : Dialect) {columns : List String} (h : columns ≠ [])
    {rows : List Row} (hrows : rows ≠ []) (n : Nat) :
    ∃ rest, Piece.lexemes dialect n (Piece.join ", " (rows.map (insert.rowPieces columns))) =
        .other '(' :: rest ∧
      Lexeme.tuples? 0 rest = some (rows.map fun _ => columns.length) := by
  have hlength : columns.length - 1 + 1 = columns.length :=
    Nat.sub_add_cancel (List.length_pos_iff.mpr h)
  induction rows generalizing n with
  | nil => exact absurd rfl hrows
  | cons row others ih =>
    cases others with
    | nil =>
      obtain ⟨number, hvalues⟩ := insert.tuples?_values dialect h row 0 n [.other ')']
      refine ⟨_, insert.lexemes_rowPieces columns row n, hvalues.trans ?_⟩
      rw [Nat.zero_add, Lexeme.tuples?, hlength]
      rfl
    | cons next others =>
      obtain ⟨rest, hnext, hread⟩ := ih (List.cons_ne_nil next others)
        (n + (Piece.values (insert.rowPieces columns row)).length)
      obtain ⟨number, hvalues⟩ := insert.tuples?_values dialect h row 0 n
        (.other ')' :: .other ',' :: .other ' ' :: .other '(' :: rest)
      refine ⟨_, ?_, hvalues.trans ?_⟩
      · rw [List.map_cons, List.map_cons, Piece.join_cons_cons, Piece.lexemes_append, Piece.lexemes,
          ← List.map_cons, hnext, lexemes_rowPieces, List.append_assoc, List.append_assoc]
        rfl
      · rw [Nat.zero_add, Lexeme.tuples?, hread, hlength]
        rfl

/-- A rendered insert names its table first, and is read from there on. -/
theorem readInsert?_of_pieces {insert : Insert} {pieces : List Piece}
    (h : insert.pieces = .ok pieces) {rest : List Lexeme}
    (hlexemes : Piece.lexemes dialect 1 pieces =
      Lexeme.ofText "INSERT INTO " ++ .name insert.table :: rest) :
    ∃ statement, (Query.insert insert).render dialect = .ok statement ∧
      dialect.readInsert? statement.sql =
        if rest = Lexeme.ofText " DEFAULT VALUES" then some (.defaults insert.table)
        else Lexeme.insert? insert.table rest := by
  have hlex : dialect.lex (Statement.ofPieces dialect pieces).sql =
      Piece.lexemes dialect 1 pieces :=
    Piece.lexFrom_textFrom dialect (fits_pieces h).wellSpaced 1
  refine ⟨Statement.ofPieces dialect pieces, ?_, ?_⟩
  · rw [Query.render, Query.pieces, h]
    rfl
  · rw [Dialect.readInsert?, hlex, hlexemes, List.dropPrefix?_append_of_beq _ (beq_self_eq_true _)]
    rfl

/-- The pieces of an insert with columns. -/
def tuplePieces (columns : List String) : List Piece :=
  [.word "INSERT INTO ", .name insert.table, .word " ("] ++
    Piece.join ", " (columns.map fun column => [.name column]) ++ [.word ") VALUES "] ++
      Piece.join ", " (insert.rows.map (insert.rowPieces columns))

/-- What is read of an insert with columns behind its table. -/
theorem insert?_tuplePieces (dialect : Dialect) {columns : List String} (h : columns ≠ [])
    (hrows : insert.rows ≠ []) :
    ∃ rest, Piece.lexemes dialect 1 (insert.tuplePieces columns) =
        Lexeme.ofText "INSERT INTO " ++ .name insert.table :: (Lexeme.ofText " (" ++ rest) ∧
      Lexeme.insert? insert.table (Lexeme.ofText " (" ++ rest) =
        some (.tuples insert.table columns insert.rows.length) := by
  obtain ⟨behind, hlexemes, hread⟩ := insert.tuples?_rows dialect h hrows
    (1 + (Piece.values ([.word "INSERT INTO ", .name insert.table, .word " ("] ++
      Piece.join ", " (columns.map fun column => [.name column]) ++ [.word ") VALUES "])).length)
  have hclose : Lexeme.ofText ") VALUES " ++ .other '(' :: behind =
      .other ')' :: (Lexeme.ofText " VALUES (" ++ behind) := rfl
  have hsizes : (insert.rows.map fun _ => columns.length).all (· = columns.length) = true := by
    rw [List.all_map, List.all_eq_true]
    exact fun _ _ => decide_eq_true rfl
  refine ⟨Piece.lexemes dialect 1 (Piece.join ", " (columns.map fun column => [.name column])) ++
    .other ')' :: (Lexeme.ofText " VALUES (" ++ behind), ?_, ?_⟩
  · rw [tuplePieces, Piece.lexemes_append, hlexemes, Piece.lexemes_append, Piece.lexemes_append,
      ← hclose]
    simp only [List.append_assoc]
    rfl
  · rw [Lexeme.insert?]
    simp only [Option.bind_eq_bind, Option.bind_some, columns?_names h,
      List.dropPrefix?_append_of_beq _ (beq_self_eq_true _), hread, hsizes, if_true,
      List.length_map]

/-- What the text of a rendered insert says. -/
theorem readInsert?_text {insert : Insert} (hrows : insert.rows ≠ []) (dialect : Dialect) :
    ∃ statement, (Query.insert insert).render dialect = .ok statement ∧
      dialect.readInsert? statement.sql = some (if insert.columns = [] then .defaults insert.table
        else .tuples insert.table insert.columns insert.rows.length) := by
  have hsome : insert.rows.isEmpty = false := List.isEmpty_eq_false_iff.mpr hrows
  cases hcolumns : insert.columns with
  | nil =>
    have hpieces : insert.pieces =
        .ok [.word "INSERT INTO ", .name insert.table, .word " DEFAULT VALUES"] := by
      rw [Insert.pieces, hsome, hcolumns]
      rfl
    exact readInsert?_of_pieces hpieces rfl
  | cons first others =>
    have hne : first :: others ≠ [] := List.cons_ne_nil first others
    have hpieces : insert.pieces = .ok (insert.tuplePieces (first :: others)) := by
      rw [Insert.pieces, hsome, hcolumns]
      rfl
    obtain ⟨rest, hlexemes, hread⟩ := insert.insert?_tuplePieces dialect hne hrows
    obtain ⟨statement, hrender, htext⟩ := readInsert?_of_pieces hpieces hlexemes
    refine ⟨statement, hrender, ?_⟩
    rw [htext, hread, if_neg (by rintro ⟨⟩), if_neg hne]

/-- An insert has no columns if none of its rows has one. -/
theorem columns_eq_nil_iff {insert : Insert} :
    insert.columns = [] ↔ ∀ row ∈ insert.rows, row.columns = [] := by
  constructor
  · intro h row hrow
    rw [List.eq_nil_iff_forall_not_mem] at h ⊢
    exact fun column hcolumn => h column (mem_columns hrow hcolumn)
  · intro h
    have hfold : ∀ rows : List Row, (∀ row ∈ rows, row.columns = []) →
        rows.foldl addColumns [] = [] := by
      intro rows hrows
      induction rows with
      | nil => rfl
      | cons row rest ih =>
        rw [List.forall_mem_cons] at hrows
        rw [List.foldl_cons, addColumns, hrows.1]
        exact ih hrows.2
    exact hfold insert.rows h

/--
A rendered insert makes a row for each row of the query if and only if one of these has a column or
there is only one of them. Of rows without columns it makes one, however many there are.
-/
theorem keeps_rows_iff {insert : Insert} (hrows : insert.rows ≠ []) (dialect : Dialect) :
    ∃ statement text, (Query.insert insert).render dialect = .ok statement ∧
      dialect.readInsert? statement.sql = some text ∧ text.table = insert.table ∧
      text.columns = insert.columns ∧
      (text.rows = insert.rows.length ↔
        (∃ row ∈ insert.rows, row.columns ≠ []) ∨ insert.rows.length = 1) ∧
      ((∀ row ∈ insert.rows, row.columns = []) → text.rows = 1) := by
  obtain ⟨statement, hrender, hread⟩ := readInsert?_text hrows dialect
  refine ⟨statement, _, hrender, hread, ?_⟩
  by_cases hcolumns : insert.columns = []
  · rw [if_pos hcolumns]
    have hnone : ¬∃ row ∈ insert.rows, row.columns ≠ [] := by
      rintro ⟨row, hrow, hne⟩
      exact hne (columns_eq_nil_iff.mp hcolumns row hrow)
    refine ⟨rfl, hcolumns.symm, ?_, fun _ => rfl⟩
    rw [or_iff_right hnone]
    exact eq_comm
  · rw [if_neg hcolumns]
    have hsome : ∃ row ∈ insert.rows, row.columns ≠ [] := by
      rw [columns_eq_nil_iff] at hcolumns
      push Not at hcolumns
      exact hcolumns
    refine ⟨rfl, rfl, iff_of_true rfl (Or.inl hsome), fun hall => ?_⟩
    exact absurd (columns_eq_nil_iff.mpr hall) hcolumns

/-- Two guests, the first without columns. -/
def namelessGuest : Insert := ⟨"guests", [.empty, ⟨[("name", .str "x")]⟩], []⟩

/-- A guest without columns is a row beside one with a name. -/
theorem keeps_rows_namelessGuest :
    ∃ statement text, (Query.insert namelessGuest).render .postgres = .ok statement ∧
      Dialect.postgres.readInsert? statement.sql = some text ∧ text.rows = 2 := by
  have hsome : namelessGuest.rows ≠ [] := List.cons_ne_nil _ _
  obtain ⟨statement, text, hrender, hread, -, -, hrows, -⟩ := keeps_rows_iff hsome .postgres
  exact ⟨statement, text, hrender, hread, hrows.mpr (Or.inl (by decide))⟩

/-- Two guests without columns are one row. -/
theorem empty_row_is_lost :
    ∃ statement, (Query.insert ⟨"guests", [.empty, .empty], []⟩).render .sqlite = .ok statement ∧
      statement.sql = "INSERT INTO \"guests\" DEFAULT VALUES" ∧
      (Dialect.sqlite.readInsert? statement.sql).map InsertText.rows = some 1 := by
  refine ⟨_, rfl, by decide, by decide⟩

end Insert

end SqlFederation
