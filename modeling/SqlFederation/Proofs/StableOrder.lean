import SqlFederation.Proofs.Extreme

/-!
# The stable sort of rows

What the order of a select says of plain values, apart from how they are compared: which value
stands below which (`Json.Below`), which of two values a sort key puts first (`SortKey.Puts`), and
which of two rows comes first under a chain of keys (`Merge.PutBefore`), where a key decides only
among rows with the same values under the keys in front of it. `Merge.compareRows` is that order
(`Merge.compareRows_eq_lt_iff`, `Merge.compareRows_eq_eq_iff`), so the sorted rows are the rows in
it, rows with the same values under all keys keep their places, and under each key the nulls stand
together at their end, whatever the direction is (`Merge.sortRows_stable`).
-/

namespace SqlFederation

open Merge (kindRank)

/-- Does one plain value stand below another one? Values of different kinds are told by the kind. -/
inductive Json.Below : Json → Json → Prop
  | kinds {a b : Json} (h : kindRank a < kindRank b) : Json.Below a b
  | truths : Json.Below (.bool false) (.bool true)
  | numbers {i j : Int} (h : i < j) : Json.Below (.ofInt i) (.ofInt j)
  | texts {s t : String} (h : s < t) : Json.Below (.str s) (.str t)

/-- Does a sort key put one value before another one? The direction does not move nulls. -/
def SortKey.Puts (key : SortKey) (a b : Json) : Prop :=
  match a.isNull, b.isNull with
  | true, true => False
  | true, false => key.nullsFirst = true
  | false, true => key.nullsFirst = false
  | false, false =>
    match key.direction with
    | .asc => a.Below b
    | .desc => b.Below a

/-- No value stands below itself. -/
theorem Json.not_below_self (value : Json) : ¬value.Below value := by
  intro h
  cases h with
  | kinds h => exact Nat.lt_irrefl _ h
  | numbers h => exact Int.lt_irrefl _ h
  | texts h => exact String.lt_irrefl _ h

/-- No key puts a value before itself. -/
theorem SortKey.not_puts_self (key : SortKey) (value : Json) : ¬key.Puts value value := by
  unfold Puts
  cases value.isNull with
  | true => exact id
  | false =>
    cases key.direction with
    | asc => exact value.not_below_self
    | desc => exact value.not_below_self

namespace Merge

/-- Do two rows have the same values under some keys? -/
def SameUnder (keys : List (SortKey × String)) (a b : Row) : Prop :=
  ∀ key ∈ keys, a.value key.2 = b.value key.2

instance (keys : List (SortKey × String)) (a b : Row) : Decidable (SameUnder keys a b) :=
  inferInstanceAs (Decidable (∀ key ∈ keys, a.value key.2 = b.value key.2))

/-- Does one row come before another one? A key decides among rows with the same values so far. -/
def PutBefore : List (SortKey × String) → Row → Row → Prop
  | [], _, _ => False
  | (key, name) :: rest, a, b =>
    key.Puts (a.value name) (b.value name) ∨ (a.value name = b.value name ∧ PutBefore rest a b)

/-! ## Values -/

variable {a b : Json}

/-- Values of different kinds are compared by their kinds. -/
theorem compareValues_of_ne_kindRank (h : kindRank a ≠ kindRank b) :
    compareValues a b = compare (kindRank a) (kindRank b) := by
  cases a <;> cases b <;> first | rfl | exact absurd rfl h

theorem compareValues_ofInt {i j : Int} (hi : fitsSigned i = true) (hj : fitsSigned j = true) :
    compareValues (.ofInt i) (.ofInt j) = compare i j := by
  rw [Json.ofInt, Json.ofInt, compareValues, compareNumbers, Number.asInt?, Number.asInt?,
    if_pos hi, if_pos hj]

/-- Values of the same kind are not told by the kind. -/
theorem not_lt_of_kindRank_eq (h : kindRank a = kindRank b) : ¬kindRank a < kindRank b :=
  fun hlt => absurd h (Nat.ne_of_lt hlt)

/-- Plain values are compared as they stand below each other. -/
theorem compareValues_eq_lt_iff (ha : a.isPlain = true) (hb : b.isPlain = true) :
    compareValues a b = .lt ↔ a.Below b := by
  by_cases hkind : kindRank a = kindRank b
  · have hsame := not_lt_of_kindRank_eq hkind
    rcases Json.isPlain_cases ha with rfl | ⟨x, rfl⟩ | ⟨x, rfl, hx⟩ | ⟨x, rfl⟩ <;>
      rcases Json.isPlain_cases hb with rfl | ⟨y, rfl⟩ | ⟨y, rfl, hy⟩ | ⟨y, rfl⟩ <;>
      cases hkind
    · refine ⟨nofun, fun hbelow => ?_⟩
      cases hbelow with
      | kinds h => exact absurd h hsame
    · have htruths : compare x y = .lt ↔ x = false ∧ y = true := by
        cases x <;> cases y <;> decide
      refine htruths.trans ⟨?_, fun hbelow => ?_⟩
      · rintro ⟨rfl, rfl⟩
        exact .truths
      · cases hbelow with
        | kinds h => exact absurd h hsame
        | truths => exact ⟨rfl, rfl⟩
    · rw [compareValues_ofInt hx hy, Int.compare_eq_lt]
      refine ⟨.numbers, fun hbelow => ?_⟩
      cases hbelow with
      | kinds h => exact absurd h hsame
      | numbers h => exact h
    · have htexts : compare x y = .lt ↔ x < y := compareOfLessAndEq_eq_lt
      refine htexts.trans ⟨.texts, fun hbelow => ?_⟩
      cases hbelow with
      | kinds h => exact absurd h hsame
      | texts h => exact h
  · rw [compareValues_of_ne_kindRank hkind, Nat.compare_eq_lt]
    refine ⟨.kinds, fun hbelow => ?_⟩
    cases hbelow with
    | kinds h => exact h
    | _ => exact absurd rfl hkind

/-- Under a sort key plain values come in the order in which the key puts them. -/
theorem compareUnder_eq_lt_iff (key : SortKey) (ha : a.isPlain = true) (hb : b.isPlain = true) :
    compareUnder key a b = .lt ↔ key.Puts a b := by
  have hforth := compareValues_eq_lt_iff ha hb
  have hback := compareValues_eq_lt_iff hb ha
  rw [compareValues_swap hb ha, Ordering.swap_eq_lt] at hback
  obtain ⟨column, direction, nullsFirst⟩ := key
  unfold compareUnder SortKey.Puts
  cases a.isNull <;> cases b.isNull
  · cases direction with
    | asc => exact hforth
    | desc => exact Ordering.swap_eq_lt.trans hback
  · cases nullsFirst <;> simp
  · cases nullsFirst <;> simp
  · simp

/-- Under a sort key only the same values are equal. -/
theorem compareUnder_eq_eq_iff_eq (key : SortKey) (ha : a.isPlain = true) (hb : b.isPlain = true) :
    compareUnder key a b = .eq ↔ a = b := by
  constructor
  · intro heq
    rw [compareUnder_eq, Ordering.then_eq_eq] at heq
    refine eq_of_compareValues_eq ha hb ?_
    cases hdirection : key.direction with
    | asc => simpa only [hdirection] using heq.2
    | desc => simpa only [hdirection, Ordering.swap_eq_eq] using heq.2
  · rintro rfl
    have hcmp := transCmp_compareUnder key fun v : { v : Json // v.isPlain = true } => v.2
    have hrefl : Std.ReflCmp fun v w : { v : Json // v.isPlain = true } =>
      compareUnder key v.1 w.1 := inferInstance
    exact hrefl.compare_self (a := ⟨a, ha⟩)

/-! ## Rows -/

variable {keys front back : List (SortKey × String)} {key : SortKey × String} {one other : Row}

theorem plainUnder_cons {key : SortKey} {name : String} {row : Row}
    (h : plainUnder ((key, name) :: keys) row = true) :
    (row.value name).isPlain = true ∧ plainUnder keys row = true := by
  rwa [plainUnder, List.all_cons, Bool.and_eq_true] at h

theorem sameUnder_cons :
    SameUnder (key :: keys) one other ↔
      one.value key.2 = other.value key.2 ∧ SameUnder keys one other :=
  List.forall_mem_cons

/-- Rows are equal in order if and only if they have the same values under all keys. -/
theorem compareRows_eq_eq_iff (hone : plainUnder keys one = true)
    (hother : plainUnder keys other = true) :
    compareRows keys one other = .eq ↔ SameUnder keys one other := by
  induction keys with
  | nil => exact ⟨fun _ _ h => absurd h List.not_mem_nil, fun _ => rfl⟩
  | cons key rest ih =>
    obtain ⟨key, name⟩ := key
    obtain ⟨hone, honeRest⟩ := plainUnder_cons hone
    obtain ⟨hother, hotherRest⟩ := plainUnder_cons hother
    rw [compareRows, Ordering.then_eq_eq, compareUnder_eq_eq_iff_eq key hone hother,
      ih honeRest hotherRest, sameUnder_cons]

/-- Rows are compared as the keys put them, one key after the other. -/
theorem compareRows_eq_lt_iff (hone : plainUnder keys one = true)
    (hother : plainUnder keys other = true) :
    compareRows keys one other = .lt ↔ PutBefore keys one other := by
  induction keys with
  | nil => exact ⟨nofun, nofun⟩
  | cons key rest ih =>
    obtain ⟨key, name⟩ := key
    obtain ⟨hone, honeRest⟩ := plainUnder_cons hone
    obtain ⟨hother, hotherRest⟩ := plainUnder_cons hother
    rw [compareRows, Ordering.then_eq_lt, compareUnder_eq_lt_iff key hone hother,
      compareUnder_eq_eq_iff_eq key hone hother, ih honeRest hotherRest]
    rfl

/-- A row that does not come behind another one is put before it, or has the same values. -/
theorem putBefore_or_sameUnder (hone : plainUnder keys one = true)
    (hother : plainUnder keys other = true) (h : plainFirst keys one other = true) :
    PutBefore keys one other ∨ SameUnder keys one other := by
  have hle : (compareRows keys one other != .gt) = true := by
    simpa [plainFirst, hone, hother] using h
  rw [← compareRows_eq_lt_iff hone hother, ← compareRows_eq_eq_iff hone hother]
  cases hcompare : compareRows keys one other with
  | lt => exact Or.inl rfl
  | eq => exact Or.inr rfl
  | gt =>
    rw [hcompare] at hle
    cases hle

/-- A key decides among rows with the same values under the keys in front of it. -/
theorem puts_of_sameUnder_front (hfront : SameUnder front one other)
    (h : PutBefore (front ++ key :: back) one other ∨ SameUnder (front ++ key :: back) one other) :
    key.1.Puts (one.value key.2) (other.value key.2) ∨ one.value key.2 = other.value key.2 := by
  obtain hbefore | hsame := h
  · induction front with
    | nil => exact hbefore.imp id And.left
    | cons first rest ih =>
      obtain ⟨hfirst, hrest⟩ := sameUnder_cons.mp hfront
      obtain hputs | ⟨-, hlater⟩ := hbefore
      · rw [hfirst] at hputs
        exact absurd hputs (first.1.not_puts_self _)
      · exact ih hrest hlater
  · exact Or.inr (hsame key (List.mem_append_right _ List.mem_cons_self))

/-- A key puts nulls in front of other values, or behind them, as it says. -/
theorem isNull_of_puts {key : SortKey} (h : key.Puts a b ∨ a = b) :
    (key.nullsFirst = true → b.isNull = true → a.isNull = true) ∧
      (key.nullsFirst = false → a.isNull = true → b.isNull = true) := by
  obtain hputs | rfl := h
  · unfold SortKey.Puts at hputs
    cases ha : a.isNull <;> cases hb : b.isNull <;> simp_all
  · exact ⟨fun _ => id, fun _ => id⟩

/-! ## Sorted rows -/

variable {select : Select} {rows : List Row}

/-- Rows with the same values under all keys are sorted as they are. -/
theorem filter_sortRows (h : ∀ row ∈ rows, plainUnder (sortKeys select) row = true) (row : Row) :
    (sortRows select rows).filter (fun other => decide (SameUnder (sortKeys select) row other)) =
      rows.filter fun other => decide (SameUnder (sortKeys select) row other) := by
  have horder := isOrder_plainFirst (sortKeys select)
  have hperm : (sortRows select rows).Perm rows := List.mergeSort_perm _ _
  have hsame : (rows.filter fun other => decide (SameUnder (sortKeys select) row other)).Pairwise
      fun a b => plainFirst (sortKeys select) a b = true := by
    refine List.pairwise_of_forall_mem_list fun a ha b hb => ?_
    obtain ⟨hamem, harow⟩ := List.mem_filter.mp ha
    obtain ⟨hbmem, hbrow⟩ := List.mem_filter.mp hb
    have heq : SameUnder (sortKeys select) a b := fun key hkey =>
      (of_decide_eq_true harow key hkey).symm.trans (of_decide_eq_true hbrow key hkey)
    rw [← compareRows_eq_eq_iff (h a hamem) (h b hbmem)] at heq
    simp [plainFirst, h a hamem, h b hbmem, heq]
  have hsub := List.sublist_mergeSort horder.trans horder.total hsame List.filter_sublist
  rw [← sortRows_eq h] at hsub
  have hkept := hsub.filter fun other => decide (SameUnder (sortKeys select) row other)
  rw [List.filter_filter] at hkept
  simp only [Bool.and_self] at hkept
  exact (hkept.eq_of_length (hperm.filter _).length_eq.symm).symm

/--
The sorted rows are the rows, each put before the ones behind it or with the same values under all
keys; rows with the same values keep their order; and among rows with the same values under the
keys in front of a key, the nulls of this key stand where it says.
-/
theorem sortRows_stable (h : ∀ row ∈ rows, plainUnder (sortKeys select) row = true) :
    (sortRows select rows).Perm rows ∧
    ((sortRows select rows).Pairwise fun a b =>
      PutBefore (sortKeys select) a b ∨ SameUnder (sortKeys select) a b) ∧
    (∀ row, (sortRows select rows).filter
        (fun other => decide (SameUnder (sortKeys select) row other)) =
      rows.filter fun other => decide (SameUnder (sortKeys select) row other)) ∧
    ∀ front key back, sortKeys select = front ++ key :: back →
      (sortRows select rows).Pairwise fun a b => SameUnder front a b →
        (key.1.nullsFirst = true →
          (b.value key.2).isNull = true → (a.value key.2).isNull = true) ∧
        (key.1.nullsFirst = false →
          (a.value key.2).isNull = true → (b.value key.2).isNull = true) := by
  have horder := isOrder_plainFirst (sortKeys select)
  have hperm : (sortRows select rows).Perm rows := List.mergeSort_perm _ _
  have hsorted : (sortRows select rows).Pairwise fun a b =>
      PutBefore (sortKeys select) a b ∨ SameUnder (sortKeys select) a b := by
    have hpairs := List.pairwise_mergeSort horder.trans horder.total rows
    rw [← sortRows_eq h] at hpairs
    refine hpairs.imp_of_mem fun ha hb hle => ?_
    exact putBefore_or_sameUnder (h _ (hperm.mem_iff.mp ha)) (h _ (hperm.mem_iff.mp hb)) hle
  refine ⟨hperm, hsorted, filter_sortRows h, fun front key back hkeys => ?_⟩
  rw [hkeys] at hsorted
  exact hsorted.imp fun hab hfront => isNull_of_puts (puts_of_sameUnder_front hfront hab)

/-- Players by their squad from behind, the unattached first, and then by their score. -/
def bySquad : Select where
  table := "players"
  outputs := [.columnAs (.bare "team") "squad", .ofColumn (.bare "score"), .ofColumn (.bare "name")]
  predicate := none
  groupBy := []
  orderBy := [⟨.bare "team", .desc, true⟩, ⟨.bare "score", .asc, false⟩]
  limit := none
  offset := none

/-- The row of a player in a squad. -/
def player (squad score : Json) (name : String) : Row :=
  ⟨[("squad", squad), ("score", score), ("name", .str name)]⟩

/-- Players whose squads and scores are of all kinds; one has no squad column. -/
def players : List Row :=
  [player (.str "red") (.ofInt 2) "a", player .null (.bool true) "b", player (.ofInt 3) .null "c",
    player (.str "red") (.ofInt 2) "d", ⟨[("score", .str "x"), ("name", .str "e")]⟩,
    player (.str "red") .null "f", player (.bool false) (.ofInt 1) "g",
    player (.str "red") (.str "x") "h"]

/-- The players `a` and `d` keep their order, and the unattached come first under a falling key. -/
theorem sortRows_stable_bySquad :
    (∀ row ∈ players, plainUnder (sortKeys bySquad) row = true) ∧
    (sortRows bySquad players).Perm players ∧
    ((sortRows bySquad players).Pairwise fun a b =>
      PutBefore (sortKeys bySquad) a b ∨ SameUnder (sortKeys bySquad) a b) ∧
    ((sortRows bySquad players).filter fun other =>
        decide (SameUnder (sortKeys bySquad) (player (.str "red") (.ofInt 2) "a") other)) =
      [player (.str "red") (.ofInt 2) "a", player (.str "red") (.ofInt 2) "d"] ∧
    (sortRows bySquad players).Pairwise fun a b =>
      (b.value "squad").isNull = true → (a.value "squad").isNull = true := by
  have hplain : ∀ row ∈ players, plainUnder (sortKeys bySquad) row = true := by decide
  obtain ⟨hperm, hsorted, hstable, hnulls⟩ := sortRows_stable hplain
  refine ⟨hplain, hperm, hsorted, (hstable _).trans (by decide), ?_⟩
  refine (hnulls [] (⟨.bare "team", .desc, true⟩, "squad") _ rfl).imp fun hab => ?_
  exact (hab fun _ h => absurd h List.not_mem_nil).1 rfl

example : (sortRows bySquad players).map (fun row => (row.value "name").asStr?) =
    [some "b", some "e", some "a", some "d", some "h", some "f", some "c", some "g"] := by cbv

end Merge

end SqlFederation
