import SqlFederation.Sql.Statement

/-!
# Parameters of inserts

The values of a statement are those of its pieces, in order (`Piece.values_append`,
`Piece.values_join`). So an insert binds a grid: for each row, one after the other, a value for each
of the columns of all rows (`Insert.values_of_pieces`). `Insert.parameter` reads the value at the
place of a row and a column out of the rendered statement, and by `Insert.parameter_eq` it is the
one that the row binds for that column.
-/

namespace SqlFederation

namespace Piece

@[simp]
theorem values_nil : values [] = [] := rfl

@[simp]
theorem values_word (text : String) (rest : List Piece) :
    values (.word text :: rest) = values rest := rfl

@[simp]
theorem values_name (identifier : String) (rest : List Piece) :
    values (.name identifier :: rest) = values rest := rfl

@[simp]
theorem values_bound (value : SqlValue) (rest : List Piece) :
    values (.bound value :: rest) = value :: values rest := rfl

@[simp]
theorem values_append (front back : List Piece) :
    values (front ++ back) = values front ++ values back := by
  induction front with
  | nil => rfl
  | cons piece rest ih => cases piece <;> simp [ih]

/-- The words between lists of pieces bind nothing. -/
@[simp]
theorem values_join (separator : String) (parts : List (List Piece)) :
    values (join separator parts) = parts.flatMap values := by
  induction parts with
  | nil => rfl
  | cons part rest ih =>
    cases rest with
    | nil => simp [join]
    | cons next rest =>
      show values (part ++ .word separator :: join separator (next :: rest)) = _
      rw [values_append, values_word, ih]
      rfl

end Piece

/-- A row has the columns that it has values for. -/
theorem Row.mem_columns_of_get? {row : Row} {column : String} {value : Json}
    (h : row.get? column = some value) : column ∈ row.columns := by
  obtain ⟨front, back, hentries, -⟩ := List.lookup_eq_some_iff.mp h
  rw [columns, hentries, List.map_append, List.map_cons]
  exact List.mem_append_right _ List.mem_cons_self

namespace Insert

/-- Columns that were known stay, and those of the row join them. -/
theorem mem_addColumns {known : List String} {row : Row} {column : String} :
    column ∈ addColumns known row ↔ column ∈ known ∨ column ∈ row.columns := by
  unfold addColumns
  generalize row.columns = added
  induction added generalizing known with
  | nil => simp
  | cons c rest ih =>
    rw [List.foldl_cons, ih, List.mem_cons]
    by_cases hc : c ∈ known
    · rw [if_pos (List.contains_iff_mem.mpr hc)]
      constructor
      · exact fun h => h.imp_right Or.inr
      · rintro (h | rfl | h)
        · exact Or.inl h
        · exact Or.inl hc
        · exact Or.inr h
    · rw [if_neg (by rwa [List.contains_iff_mem]), List.mem_append, List.mem_singleton, or_assoc]

/-- An insert has the columns of its rows. -/
theorem mem_columns {insert : Insert} {row : Row} {column : String} (hrow : row ∈ insert.rows)
    (hcolumn : column ∈ row.columns) : column ∈ insert.columns := by
  unfold columns
  -- The columns are gathered row by row, so the induction is over any that are known already.
  suffices hfold : ∀ (rows : List Row) (known : List String),
      (column ∈ known ∨ row ∈ rows) → column ∈ rows.foldl addColumns known from
    hfold insert.rows [] (Or.inr hrow)
  intro rows
  induction rows with
  | nil => exact fun known h => h.resolve_right List.not_mem_nil
  | cons first rest ih =>
    intro known h
    rw [List.foldl_cons]
    apply ih
    rcases h with h | h
    · exact Or.inl (mem_addColumns.mpr (Or.inl h))
    · rcases List.mem_cons.mp h with rfl | h
      · exact Or.inl (mem_addColumns.mpr (Or.inr hcolumn))
      · exact Or.inr h

/-- The values of an insert: for each row, one for each column. -/
theorem values_of_pieces {insert : Insert} {pieces : List Piece} (h : insert.pieces = .ok pieces) :
    Piece.values pieces =
      insert.rows.flatMap fun row => insert.columns.map (insert.boundValue row) := by
  have hrow : ∀ row : Row, Piece.values (insert.rowPieces insert.columns row) =
      insert.columns.map (insert.boundValue row) := by
    intro row
    simp [rowPieces, List.flatMap_map, ← List.map_eq_flatMap]
  obtain ⟨hcolumns, rfl⟩ | rfl := eq_of_pieces h
  · rw [hcolumns]
    simp
  · simp [List.flatMap_map, hrow]

/-- What stands in a grid at the place of a row and a column. -/
theorem getElem?_grid {ρ κ α : Type} (rows : List ρ) (columns : List κ) (value : ρ → κ → α)
    (i : Nat) {j : Nat} (hj : j < columns.length) :
    (rows.flatMap fun row => columns.map (value row))[i * columns.length + j]? =
      (rows[i]?).map fun row => value row columns[j] := by
  induction rows generalizing i with
  | nil => simp
  | cons row rest ih =>
    rw [List.flatMap_cons]
    cases i with
    | zero =>
      rw [Nat.zero_mul, Nat.zero_add, List.getElem?_append_left (by simpa using hj)]
      simp [hj]
    | succ i =>
      have hplace : (i + 1) * columns.length + j =
          (columns.map (value row)).length + (i * columns.length + j) := by
        rw [List.length_map, Nat.succ_mul]
        omega
      rw [hplace, List.getElem?_append_right (Nat.le_add_right _ _), Nat.add_sub_cancel_left, ih,
        List.getElem?_cons_succ]

/--
The parameter that a rendered insert binds for a column of one of its rows. Parameters are counted
row by row, those of a row in the order of the columns.
-/
def parameter (insert : Insert) (dialect : Dialect) (row : Nat) (column : String) :
    Except Error (Option SqlValue) := do
  let statement ← (Query.insert insert).render dialect
  .ok statement.params[row * insert.columns.length + insert.columns.idxOf column]?

/-- The parameter of a row and a column is the value that the row binds for it. -/
theorem parameter_eq {insert : Insert} {i : Nat} {row : Row} {column : String}
    (hrow : insert.rows[i]? = some row) (hcolumn : column ∈ insert.columns) (dialect : Dialect) :
    insert.parameter dialect i column = .ok (some (insert.boundValue row column)) := by
  have hrows : insert.rows.isEmpty = false := by
    rw [List.isEmpty_eq_false_iff]
    exact List.ne_nil_of_mem (List.mem_of_getElem? hrow)
  obtain ⟨pieces, hpieces⟩ : ∃ pieces, insert.pieces = .ok pieces := by
    unfold Insert.pieces
    rw [hrows]
    cases insert.columns with
    | nil => exact ⟨_, rfl⟩
    | cons first rest => exact ⟨_, rfl⟩
  have hrender :
      (Query.insert insert).render dialect = .ok (Statement.ofPieces dialect pieces) := by
    rw [Query.render, Query.pieces, hpieces]
    rfl
  have hj := List.idxOf_lt_length_iff.mpr hcolumn
  rw [parameter, hrender]
  show Except.ok (Piece.values pieces)[_]? = _
  rw [values_of_pieces hpieces, getElem?_grid _ _ _ _ hj, hrow, Option.map_some,
    List.getElem_idxOf]

end Insert

end SqlFederation
