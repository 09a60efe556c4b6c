import SqlFederation.Proofs.DatabaseOrder
import SqlFederation.Proofs.OrderClause

/-!
# The order of a clause and the order of a merge

`OrderTerm.compareRows` is the order that SQL gives to the terms of an ORDER BY clause: `IS NULL` is
0 or 1, two nulls are alike, nulls stand where a term puts them whatever its direction is, and a
term that does not place them may have them anywhere. In every dialect the terms of a sort key
compare two rows as the key does in a merge (`SortKey.compareRows_terms`), and the text of a select
reads as these terms, so the clause and the merge sort the same way
(`Select.clause_orders_as_merge`).
-/

namespace SqlFederation

/-! ## The order of terms -/

namespace OrderTerm

/-- What a row is sorted by: a column of it, or 1 where the column is null and 0 elsewhere. -/
def value (term : OrderTerm) (cells : ColumnRef → Option Int) : Option Int :=
  if term.asksForNull then some (if (cells term.column).isNone then 1 else 0)
  else cells term.column

/--
The order of two values under a term. The direction does not move nulls that are placed, and nulls
that are not placed have any order to values.
-/
def compare (unplaced : Option Int → Option Int → Ordering) (term : OrderTerm) :
    Option Int → Option Int → Ordering
  | none, none => .eq
  | some i, some j =>
    match term.direction with
    | .asc => Ord.compare i j
    | .desc => Ord.compare j i
  | a, b =>
    match term.nullsFirst with
    | some true => if a.isNone then .lt else .gt
    | some false => if a.isNone then .gt else .lt
    | none => unplaced a b

/-- The order of two rows: each term decides among rows that are equal on the earlier ones. -/
def compareRows (unplaced : Option Int → Option Int → Ordering) :
    List OrderTerm → (ColumnRef → Option Int) → (ColumnRef → Option Int) → Ordering
  | [], _, _ => .eq
  | term :: rest, a, b =>
    (term.compare unplaced (term.value a) (term.value b)).then (compareRows unplaced rest a b)

end OrderTerm

/-! ## The order of the terms of a key -/

variable (unplaced : Option Int → Option Int → Ordering)

/-- A merge compares whole values as the term of the key does, null being none. -/
theorem Merge.compareUnder_whole (key : SortKey) {x y : Json} (hx : x.isWhole = true)
    (hy : y.isWhole = true) :
    compareUnder key x y = key.placed.compare unplaced x.asInt? y.asInt? := by
  obtain ⟨column, direction, nullsFirst⟩ := key
  obtain rfl | ⟨m, i, rfl, hm⟩ := isWhole_cases hx
  · obtain rfl | ⟨n, j, rfl, hn⟩ := isWhole_cases hy
    · rfl
    · show (if nullsFirst then Ordering.lt else .gt) = OrderTerm.compare unplaced _ none n.asInt?
      rw [hn]
      cases nullsFirst <;> rfl
  · obtain rfl | ⟨n, j, rfl, hn⟩ := isWhole_cases hy
    · show (if nullsFirst then Ordering.gt else .lt) = OrderTerm.compare unplaced _ m.asInt? none
      rw [hm]
      cases nullsFirst <;> rfl
    · show _ = OrderTerm.compare unplaced _ m.asInt? n.asInt?
      rw [compareUnder_num hm hn, hm, hn]
      rfl

/--
The terms of a key compare rows as the one term does that places nulls. Without such a term, rows
with a null and without are told apart by the first term, and the second one has no nulls to place.
-/
theorem SortKey.compareRows_terms (dialect : Dialect) (key : SortKey) (rest : List OrderTerm)
    (a b : ColumnRef → Option Int) :
    OrderTerm.compareRows unplaced (key.terms dialect ++ rest) a b =
      (key.placed.compare unplaced (a key.column) (b key.column)).then
        (OrderTerm.compareRows unplaced rest a b) := by
  obtain ⟨column, direction, nullsFirst⟩ := key
  cases dialect with
  | sqlite => rfl
  | postgres => rfl
  | mysql =>
    show (OrderTerm.compare unplaced _ (some (if (a column).isNone then 1 else 0))
      (some (if (b column).isNone then 1 else 0))).then
        ((OrderTerm.compare unplaced _ (a column) (b column)).then _) =
      (OrderTerm.compare unplaced _ (a column) (b column)).then _
    cases a column with
    | none =>
      cases b column with
      | none => cases nullsFirst <;> rfl
      | some j => cases nullsFirst <;> rfl
    | some i =>
      cases b column with
      | none => cases nullsFirst <;> rfl
      | some j => cases nullsFirst <;> rfl

/-! ## The clause and the merge -/

namespace Select

/-- Does a row have the cells that a select orders by, under their names in result rows? -/
def ShowsOrder (select : Select) (cells : ColumnRef → Option Int) (row : Row) : Prop :=
  ∀ key ∈ select.orderBy, (row.value (select.resultName key.column)).isWhole = true ∧
    (row.value (select.resultName key.column)).asInt? = cells key.column

variable {select : Select}

/-- The terms of all keys compare rows as a merge does. -/
theorem compareRows_sortKeys (dialect : Dialect) {a b : ColumnRef → Option Int} {rowA rowB : Row}
    (ha : select.ShowsOrder a rowA) (hb : select.ShowsOrder b rowB) :
    OrderTerm.compareRows unplaced (select.orderBy.flatMap (SortKey.terms dialect)) a b =
      Merge.compareRows (Merge.sortKeys select) rowA rowB := by
  unfold ShowsOrder at ha hb
  unfold Merge.sortKeys
  generalize select.orderBy = keys at ha hb ⊢
  induction keys with
  | nil => rfl
  | cons key rest ih =>
    rw [List.forall_mem_cons] at ha hb
    obtain ⟨⟨hwholeA, hcellA⟩, hrestA⟩ := ha
    obtain ⟨⟨hwholeB, hcellB⟩, hrestB⟩ := hb
    rw [List.flatMap_cons, List.map_cons, SortKey.compareRows_terms, Merge.compareRows,
      Merge.compareUnder_whole unplaced key hwholeA hwholeB, hcellA, hcellB, ih hrestA hrestB]

/--
The ORDER BY clause and the merge sort the same way. A select is rendered in every dialect, and the
text reads as terms that compare two rows as the merge does, wherever nulls stand under terms that
do not place them. The rows may hold any integers and nulls in the ordered columns, and show them
under their names in result rows. So rows that are merged are sorted by the terms of the clause.
-/
theorem clause_orders_as_merge (dialect : Dialect) (select : Select) :
    ∃ statement terms, (Query.select select).render dialect = .ok statement ∧
      statement.orderTerms? dialect = some terms ∧
      (∀ (unplaced : Option Int → Option Int → Ordering) (a b : ColumnRef → Option Int)
        (rowA rowB : Row), select.ShowsOrder a rowA → select.ShowsOrder b rowB →
        OrderTerm.compareRows unplaced terms a b =
          Merge.compareRows (Merge.sortKeys select) rowA rowB) ∧
      ∀ (unplaced : Option Int → Option Int → Ordering) (cells : Row → ColumnRef → Option Int)
        (rows : List Row), (∀ row ∈ rows, select.ShowsOrder (cells row) row) →
        Merge.sortRows select rows = rows.mergeSort fun a b =>
          OrderTerm.compareRows unplaced terms (cells a) (cells b) != .gt := by
  refine ⟨_, _, rfl, orderTerms?_ofPieces dialect select, ?_, ?_⟩
  · intro unplaced a b rowA rowB ha hb
    exact compareRows_sortKeys unplaced dialect ha hb
  · intro unplaced cells rows hrows
    have hsame : ∀ a ∈ rows, ∀ b ∈ rows,
        (Merge.compareRows (Merge.sortKeys select) a b != .gt) =
          (OrderTerm.compareRows unplaced (select.orderBy.flatMap (SortKey.terms dialect))
            (cells a) (cells b) != .gt) := fun a ha b hb => by
      rw [compareRows_sortKeys unplaced dialect (hrows a ha) (hrows b hb)]
    have hmap := List.map_mergeSort (f := id) (s := fun a b =>
      OrderTerm.compareRows unplaced (select.orderBy.flatMap (SortKey.terms dialect))
        (cells a) (cells b) != .gt) hsame
    rwa [List.map_id, List.map_id] at hmap

/-- Users by age, the oldest first and unknown ages last, and then by their rank. -/
def byAge : Select where
  table := "users"
  outputs := [⟨.column (.bare "age"), some "years"⟩, ⟨.column (.bare "rank"), none⟩]
  predicate := none
  groupBy := []
  orderBy := [⟨.bare "age", .desc, false⟩, ⟨.qualified "users" "rank", .asc, true⟩]
  limit := some 10
  offset := none

/-- A user as the select shows it. -/
def ranked (years rank : Json) : Row :=
  .ofList [("years", years), ("rank", rank)]

/-- What such a user has in the ordered columns. -/
def cellsOf (row : Row) (column : ColumnRef) : Option Int :=
  (row.value (byAge.resultName column)).asInt?

/-- A user without an age, one without a rank, and one with both. -/
def someUsers : List Row :=
  [ranked .null (.ofInt 1), ranked (.ofInt 36) .null, ranked (.ofInt 45) (.ofInt 2)]

/--
Where nulls are not placed by name, the clause has a pair of terms for each key. By these, wherever
nulls stand under them, the user with both is in front of the one without an age, as in the merge.
-/
theorem clause_orders_as_merge_byAge :
    (∀ row ∈ someUsers, byAge.ShowsOrder (cellsOf row) row) ∧
    ∃ statement terms, (Query.select byAge).render .mysql = .ok statement ∧
      statement.orderTerms? .mysql = some terms ∧
      (∀ unplaced, OrderTerm.compareRows unplaced terms (cellsOf (ranked (.ofInt 45) (.ofInt 2)))
        (cellsOf (ranked .null (.ofInt 1))) = .lt) ∧
      ∀ unplaced, (someUsers.mergeSort fun a b =>
          OrderTerm.compareRows unplaced terms (cellsOf a) (cellsOf b) != .gt) =
        [ranked (.ofInt 45) (.ofInt 2), ranked (.ofInt 36) .null, ranked .null (.ofInt 1)] := by
  have hshown : ∀ row ∈ someUsers, byAge.ShowsOrder (cellsOf row) row := by
    have hwhole : ∀ row ∈ someUsers, ∀ key ∈ byAge.orderBy,
        (row.value (byAge.resultName key.column)).isWhole = true := by decide
    exact fun row hrow key hkey => ⟨hwhole row hrow key hkey, rfl⟩
  obtain ⟨statement, terms, hrender, hterms, hcompare, hsort⟩ := clause_orders_as_merge .mysql byAge
  refine ⟨hshown, statement, terms, hrender, hterms, fun unplaced => ?_, fun unplaced => ?_⟩
  · rw [hcompare unplaced _ _ (ranked (.ofInt 45) (.ofInt 2)) (ranked .null (.ofInt 1))
      (hshown _ (by decide)) (hshown _ (by decide))]
    decide
  · rw [← hsort unplaced cellsOf someUsers hshown]
    cbv

end Select

end SqlFederation
