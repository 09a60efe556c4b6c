import SqlFederation.Proofs.Paging
import SqlFederation.Proofs.RowTable

/-!
# The order of a database

A database orders the rows of a table by their columns, whether or not these are selected, and cuts
the page out before it makes the outputs of the rows. Rows that are equal on all sort keys may come
in any order, so a database has several right answers to a select (`Select.Answers`). Columns of
integers and nulls are considered here (`Row.IsWhole`). On them the order of a database is the one
that `Merge.compareRows` has under the columns' own names (`Merge.compareRows_eq_gt_iff`).
-/

namespace SqlFederation

/-- Null or an integer of 64 bits. -/
def Json.isWhole (value : Json) : Bool :=
  value.isNull || value.asInt?.isSome

/-- Every column of a row is null or an integer of 64 bits. -/
def Row.IsWhole (row : Row) : Prop :=
  ∀ column, (row.value column).isWhole = true

theorem Row.isWhole_insert {row : Row} {column : String} {value : Json} (hrow : row.IsWhole)
    (hvalue : value.isWhole = true) : (row.insert column value).IsWhole := by
  intro other
  rw [Row.value]
  by_cases h : other = column
  · rw [h, get?_insert_self]
    exact hvalue
  · rw [get?_insert_of_ne h]
    exact hrow other

/-- A row that is made of integers and nulls has no other values. -/
theorem Row.isWhole_ofList {entries : List (String × Json)}
    (h : ∀ entry ∈ entries, entry.2.isWhole = true) : (ofList entries).IsWhole := by
  have hempty : Row.empty.IsWhole := fun _ => rfl
  rw [ofList]
  generalize Row.empty = row at hempty
  induction entries generalizing row with
  | nil => exact hempty
  | cons entry rest ih =>
    rw [List.forall_mem_cons] at h
    exact ih h.2 _ (isWhole_insert hempty h.1)

namespace SortKey

/-- Does one integer stand before another one, either of which may be null? -/
def precedes (key : SortKey) : Option Int → Option Int → Prop
  | none, none => False
  | none, some _ => key.nullsFirst = true
  | some _, none => key.nullsFirst = false
  | some i, some j =>
    match key.direction with
    | .asc => i < j
    | .desc => j < i

/-- What a key reads in a row of a table; none is null. -/
def cell (key : SortKey) (row : Row) : Option Int :=
  (row.value key.column.name).asInt?

/-- Does one row of a table come before another one by some keys? -/
def comesBefore : List SortKey → Row → Row → Prop
  | [], _, _ => False
  | key :: rest, a, b =>
    key.precedes (key.cell a) (key.cell b) ∨ (key.cell a = key.cell b ∧ comesBefore rest a b)

end SortKey

namespace Select

/-- The page of some rows. -/
def page (select : Select) (rows : List Row) : List Row :=
  (rows.drop (select.offset.getD 0)).take (select.limit.getD rows.length)

/--
Is this an answer of a database to a select without groups, where the given rows meet its condition?
The rows are put into an order in which none comes before an earlier one, and the page is cut out.
-/
def Answers (select : Select) (rows answer : List Row) : Prop :=
  ∃ sorted : List Row, sorted.Perm rows ∧
    (sorted.Pairwise fun a b => ¬SortKey.comesBefore select.orderBy b a) ∧
    answer = (select.page sorted).map (RowTable.project select.outputs)

end Select

namespace Merge

theorem isPlain_of_isWhole {value : Json} (h : value.isWhole = true) : value.isPlain = true := by
  cases value with
  | null => rfl
  | num n => exact h
  | _ => cases h

/-- A value that is null, or an integer of 64 bits. -/
theorem isWhole_cases {value : Json} (h : value.isWhole = true) :
    value = .null ∨ ∃ n k, value = .num n ∧ n.asInt? = some k := by
  cases value with
  | null => exact Or.inl rfl
  | num n =>
    obtain ⟨k, hk⟩ := Option.isSome_iff_exists.mp (show n.asInt?.isSome = true from h)
    exact Or.inr ⟨n, k, rfl, hk⟩
  | _ => cases h

variable {key : SortKey} {a b : Json}

/-- Numbers that are integers are compared as these, in the direction of the key. -/
theorem compareUnder_num {m n : Number} {i j : Int} (hm : m.asInt? = some i)
    (hn : n.asInt? = some j) :
    compareUnder key (.num m) (.num n) =
      match key.direction with
      | .asc => compare i j
      | .desc => compare j i := by
  have hnumbers : compareValues (.num m) (.num n) = compare i j := by
    rw [compareValues, compareNumbers, hm, hn]
  show (match key.direction with
    | .asc => compareValues (.num m) (.num n)
    | .desc => (compareValues (.num m) (.num n)).swap) = _
  rw [hnumbers, ← Std.OrientedOrd.eq_swap]

/-- Under a sort key a value is behind another one where the key puts it there. -/
theorem compareUnder_eq_gt_iff (ha : a.isWhole = true) (hb : b.isWhole = true) :
    compareUnder key a b = .gt ↔ key.precedes b.asInt? a.asInt? := by
  obtain rfl | ⟨m, i, rfl, hm⟩ := isWhole_cases ha
  · obtain rfl | ⟨n, j, rfl, hn⟩ := isWhole_cases hb
    · exact ⟨nofun, nofun⟩
    · show (if key.nullsFirst then Ordering.lt else .gt) = .gt ↔ key.precedes n.asInt? none
      rw [hn]
      cases hfirst : key.nullsFirst <;> simp [SortKey.precedes, hfirst]
  · obtain rfl | ⟨n, j, rfl, hn⟩ := isWhole_cases hb
    · show (if key.nullsFirst then Ordering.gt else .lt) = .gt ↔ key.precedes none m.asInt?
      rw [hm]
      cases hfirst : key.nullsFirst <;> simp [SortKey.precedes, hfirst]
    · show compareUnder key (.num m) (.num n) = .gt ↔ key.precedes n.asInt? m.asInt?
      rw [compareUnder_num hm hn, hm, hn]
      cases hdirection : key.direction with
      | asc => simp [SortKey.precedes, hdirection, Int.compare_eq_gt]
      | desc => simp [SortKey.precedes, hdirection, Int.compare_eq_gt]

/-- Under a sort key only equal values are equal. -/
theorem compareUnder_eq_eq_iff (ha : a.isWhole = true) (hb : b.isWhole = true) :
    compareUnder key a b = .eq ↔ b.asInt? = a.asInt? := by
  obtain rfl | ⟨m, i, rfl, hm⟩ := isWhole_cases ha
  · obtain rfl | ⟨n, j, rfl, hn⟩ := isWhole_cases hb
    · exact ⟨fun _ => rfl, fun _ => rfl⟩
    · show (if key.nullsFirst then Ordering.lt else .gt) = .eq ↔ n.asInt? = none
      rw [hn]
      cases key.nullsFirst <;> simp
  · obtain rfl | ⟨n, j, rfl, hn⟩ := isWhole_cases hb
    · show (if key.nullsFirst then Ordering.gt else .lt) = .eq ↔ none = m.asInt?
      rw [hm]
      cases key.nullsFirst <;> simp
    · show compareUnder key (.num m) (.num n) = .eq ↔ n.asInt? = m.asInt?
      rw [compareUnder_num hm hn, hm, hn]
      cases key.direction with
      | asc =>
        rw [Std.compare_eq_iff_eq, Option.some.injEq]
        exact eq_comm
      | desc => rw [Std.compare_eq_iff_eq, Option.some.injEq]

/-- Sort keys under the names of their columns. -/
def columnKeys (keys : List SortKey) : List (SortKey × String) :=
  keys.map fun key => (key, key.column.name)

/-- Under the names of their columns, rows are compared as a database does. -/
theorem compareRows_eq_gt_iff (keys : List SortKey) {a b : Row} (ha : a.IsWhole)
    (hb : b.IsWhole) :
    compareRows (columnKeys keys) a b = .gt ↔ SortKey.comesBefore keys b a := by
  induction keys with
  | nil => exact ⟨nofun, nofun⟩
  | cons key rest ih =>
    have hgt : compareUnder key (a.value key.column.name) (b.value key.column.name) = .gt ↔
        key.precedes (key.cell b) (key.cell a) :=
      compareUnder_eq_gt_iff (ha key.column.name) (hb key.column.name)
    have heq : compareUnder key (a.value key.column.name) (b.value key.column.name) = .eq ↔
        key.cell b = key.cell a :=
      compareUnder_eq_eq_iff (ha key.column.name) (hb key.column.name)
    show (compareUnder key (a.value key.column.name) (b.value key.column.name)).then
      (compareRows (columnKeys rest) a b) = .gt ↔ _
    rw [Ordering.then_eq_gt, hgt, heq, ih]
    rfl

end Merge

end SqlFederation
