import SqlFederation.Proofs.Truth
import SqlFederation.Sharding.ShardMap

/-!
# Routing loses no row

A read and a write by condition go to the shards that `routeByPredicate` finds, so a row that meets
the condition has to be on one of them. `ShardMap.contains_deriveRange` shows it for the interval:
when a predicate is true of a row, the derived interval holds the key of the row. The induction is
on the predicate, and each of its cases is a fact about intervals: an intersection holds exactly the
keys of both sides (`KeyRange.contains_intersect`), a hull holds the keys of either
(`KeyRange.contains_hull`), and a range that holds a key is not empty, so that the OR does not drop
it (`ShardMap.contains_rangeOfAny`). `routing_covers_matches` goes on to the shards.
-/

namespace SqlFederation

namespace KeyRange

/-- A range holds a key that is within each of its bounds. -/
theorem contains_iff {range : KeyRange} {key : Int} :
    range.contains key = true ↔
      (∀ lo, range.min = some lo → lo ≤ key) ∧ (∀ hi, range.max = some hi → key ≤ hi) := by
  obtain ⟨min, max⟩ := range
  rcases min with _ | lo <;> rcases max with _ | hi <;> simp [contains]

/-- The range without bounds holds every key. -/
theorem contains_unbounded (key : Int) : unbounded.contains key = true := rfl

/-- The tighter of two lower bounds is the stronger one. -/
theorem forall_tighter_max {a b : Option Int} {key : Int} :
    (∀ lo, tighter Max.max a b = some lo → lo ≤ key) ↔
      (∀ lo, a = some lo → lo ≤ key) ∧ (∀ lo, b = some lo → lo ≤ key) := by
  rcases a with _ | a <;> rcases b with _ | b <;>
    simp only [tighter, Option.some.injEq, reduceCtorEq, forall_eq', false_implies, implies_true,
      true_and, and_true]
  exact Int.max_le

/-- The tighter of two upper bounds is the stronger one. -/
theorem forall_tighter_min {a b : Option Int} {key : Int} :
    (∀ hi, tighter Min.min a b = some hi → key ≤ hi) ↔
      (∀ hi, a = some hi → key ≤ hi) ∧ (∀ hi, b = some hi → key ≤ hi) := by
  rcases a with _ | a <;> rcases b with _ | b <;>
    simp only [tighter, Option.some.injEq, reduceCtorEq, forall_eq', false_implies, implies_true,
      true_and, and_true]
  exact Int.le_min

/-- An intersection holds the keys that both ranges hold. -/
theorem contains_intersect {a b : KeyRange} {key : Int} :
    (a.intersect b).contains key = true ↔ a.contains key = true ∧ b.contains key = true := by
  rw [contains_iff, contains_iff, contains_iff, intersect, forall_tighter_max, forall_tighter_min]
  constructor
  · rintro ⟨⟨ha, hb⟩, ha', hb'⟩
    exact ⟨⟨ha, ha'⟩, hb, hb'⟩
  · rintro ⟨⟨ha, ha'⟩, hb, hb'⟩
    exact ⟨⟨ha, hb⟩, ha', hb'⟩

/-- The looser of two lower bounds is below what either bound is below. -/
theorem le_of_looser_min {a b : Option Int} {key : Int}
    (h : (∀ lo, a = some lo → lo ≤ key) ∨ (∀ lo, b = some lo → lo ≤ key)) :
    ∀ lo, looser Min.min a b = some lo → lo ≤ key := by
  rcases a with _ | a <;> rcases b with _ | b <;> simp [looser] at h ⊢
  omega

/-- The looser of two upper bounds is above what either bound is above. -/
theorem le_of_looser_max {a b : Option Int} {key : Int}
    (h : (∀ hi, a = some hi → key ≤ hi) ∨ (∀ hi, b = some hi → key ≤ hi)) :
    ∀ hi, looser Max.max a b = some hi → key ≤ hi := by
  rcases a with _ | a <;> rcases b with _ | b <;> simp [looser] at h ⊢
  omega

/-- A hull holds the keys of either range. -/
theorem contains_hull {a b : KeyRange} {key : Int}
    (h : a.contains key = true ∨ b.contains key = true) : (a.hull b).contains key = true := by
  rw [contains_iff, contains_iff] at h
  rw [contains_iff]
  constructor
  · exact le_of_looser_min (h.imp And.left And.left)
  · exact le_of_looser_max (h.imp And.right And.right)

/-- A range that holds a key is not empty. -/
theorem isEmpty_of_contains {range : KeyRange} {key : Int} (h : range.contains key = true) :
    range.isEmpty = false := by
  obtain ⟨hlo, hhi⟩ := contains_iff.mp h
  unfold isEmpty
  split
  · rename_i lo hi hmin hmax
    have h1 := hlo lo hmin
    have h2 := hhi hi hmax
    exact decide_eq_false (by omega)
  · rfl

/-- Ranges that share a key meet. -/
theorem intersects_of_contains {a b : KeyRange} {key : Int} (ha : a.contains key = true)
    (hb : b.contains key = true) : a.intersects b = true := by
  obtain ⟨halo, hahi⟩ := contains_iff.mp ha
  obtain ⟨hblo, hbhi⟩ := contains_iff.mp hb
  obtain ⟨alo, ahi⟩ := a
  obtain ⟨blo, bhi⟩ := b
  have hab : ∀ hi lo, ahi = some hi → blo = some lo → ¬hi < lo := by
    intro hi lo hhi hlo
    have h1 := hahi hi hhi
    have h2 := hblo lo hlo
    omega
  have hba : ∀ hi lo, bhi = some hi → alo = some lo → ¬hi < lo := by
    intro hi lo hhi hlo
    have h1 := hbhi hi hhi
    have h2 := halo lo hlo
    omega
  rcases alo with _ | alo <;> rcases ahi with _ | ahi <;> rcases blo with _ | blo <;>
    rcases bhi with _ | bhi <;> simp_all [intersects]

end KeyRange

/--
How a key stands to an integer under a comparator that bounds the key. The other comparators say
nothing about an interval of keys.
-/
def Comparator.onKey? (op : Comparator) (key value : Int) : Option Bool :=
  match op with
  | .eq => some (decide (key = value))
  | .gt => some (decide (value < key))
  | .gte => some (decide (value ≤ key))
  | .lt => some (decide (key < value))
  | .lte => some (decide (key ≤ value))
  | _ => none

namespace ShardMap

/--
The comparisons of a row with this key: where the column is the key and the value an integer, keys
are compared as integers. Any other comparison may have any truth.
-/
def ReadsKey (m : ShardMap) (key : Int) (valuation : Predicate.Valuation) : Prop :=
  ∀ column op value v answer, m.bindsKey column = true → value.asInt? = some v →
    op.onKey? key v = some answer → valuation column op value = some answer

/-- The range of a comparison holds every key of which the comparison is true. -/
theorem contains_comparisonRange {op : Comparator} {key value : Int}
    (h : ∀ answer, op.onKey? key value = some answer → answer = true) :
    (comparisonRange op value).contains key = true := by
  rw [KeyRange.contains_iff]
  cases op <;> simp [Comparator.onKey?, comparisonRange, KeyRange.point, KeyRange.atLeast,
    KeyRange.atMost, KeyRange.unbounded, keyAfter, keyBefore] at h ⊢ <;> omega

/-- All of some ranges hold a key exactly when their common range does. -/
theorem contains_rangeOfAll {ranges : List KeyRange} {key : Int} :
    (rangeOfAll ranges).contains key = true ↔ ∀ r ∈ ranges, r.contains key = true := by
  have hfold : ∀ acc : KeyRange, (ranges.foldl KeyRange.intersect acc).contains key = true ↔
      acc.contains key = true ∧ ∀ r ∈ ranges, r.contains key = true := by
    induction ranges with
    | nil => simp
    | cons r rest ih =>
      intro acc
      rw [List.foldl_cons, ih, KeyRange.contains_intersect, List.forall_mem_cons, and_assoc]
  rw [rangeOfAll, hfold]
  exact and_iff_right (KeyRange.contains_unbounded key)

/-- Folding hulls keeps the keys of the first range and of every other one. -/
theorem contains_foldl_hull {ranges : List KeyRange} {acc : KeyRange} {key : Int}
    (h : acc.contains key = true ∨ ∃ r ∈ ranges, r.contains key = true) :
    (ranges.foldl KeyRange.hull acc).contains key = true := by
  induction ranges generalizing acc with
  | nil => simpa using h
  | cons r rest ih =>
    rw [List.foldl_cons]
    apply ih
    rcases h with hacc | ⟨s, hs, hkey⟩
    · exact Or.inl (KeyRange.contains_hull (Or.inl hacc))
    · rcases List.mem_cons.mp hs with rfl | hs
      · exact Or.inl (KeyRange.contains_hull (Or.inr hkey))
      · exact Or.inr ⟨s, hs, hkey⟩

/-- The range of an OR holds every key that one of its ranges holds. -/
theorem contains_rangeOfAny {ranges : List KeyRange} {range : KeyRange} {key : Int}
    (hmem : range ∈ ranges) (hkey : range.contains key = true) :
    (rangeOfAny ranges).contains key = true := by
  -- The range survives the filter, so there is a first live range to start the hull from.
  have hlive : range ∈ ranges.filter fun r => !r.isEmpty := by
    rw [List.mem_filter, KeyRange.isEmpty_of_contains hkey]
    exact ⟨hmem, rfl⟩
  unfold rangeOfAny
  split
  · rename_i first rest hsplit
    rw [hsplit] at hlive
    apply contains_foldl_hull
    rcases List.mem_cons.mp hlive with rfl | hrest
    · exact Or.inl hkey
    · exact Or.inr ⟨range, hrest, hkey⟩
  · rename_i hnone
    rw [hnone] at hlive
    exact absurd hlive List.not_mem_nil

/-- The interval of a predicate holds the key of every row that meets the predicate. -/
theorem contains_deriveRange {m : ShardMap} {key : Int} {valuation : Predicate.Valuation}
    (hreads : m.ReadsKey key valuation) (p : Predicate)
    (htrue : p.truth valuation = some true) : (m.deriveRange p).contains key = true := by
  induction p using Predicate.induct with
  | compare column op value =>
    rw [Predicate.truth] at htrue
    rw [deriveRange]
    split
    · rename_i hbinds
      split
      · rename_i v hv
        apply contains_comparisonRange
        intro answer hanswer
        have h := hreads column op value v answer hbinds hv hanswer
        rw [h] at htrue
        exact Option.some.inj htrue
      · exact KeyRange.contains_unbounded key
    · exact KeyRange.contains_unbounded key
  | join connective children ih =>
    cases connective with
    | and =>
      rw [deriveRange, deriveRanges_eq_map, contains_rangeOfAll]
      rw [Predicate.truth_all] at htrue
      intro r hr
      obtain ⟨child, hchild, rfl⟩ := List.mem_map.mp hr
      exact ih child hchild (htrue child hchild)
    | or =>
      rw [deriveRange, deriveRanges_eq_map]
      obtain ⟨child, hchild, hchildTrue⟩ := Predicate.truth_any.mp htrue
      exact contains_rangeOfAny (List.mem_map_of_mem hchild) (ih child hchild hchildTrue)

/-- The shards for a range are those whose range shares a key with it. -/
theorem mem_chooseShards {m : ShardMap} {range : KeyRange} {s : ShardRange} {key : Int}
    (hs : s ∈ m.shards) (hshard : s.range.contains key = true)
    (hkey : range.contains key = true) : s.shard ∈ m.chooseShards range := by
  unfold chooseShards
  rw [KeyRange.isEmpty_of_contains hkey]
  refine List.mem_map.mpr ⟨s, ?_, rfl⟩
  exact List.mem_filter.mpr ⟨hs, KeyRange.intersects_of_contains hshard hkey⟩

/-- A condition that is true of a row routes to every shard whose range holds the row's key. -/
theorem mem_routeByPredicate {m : ShardMap} {key : Int} {valuation : Predicate.Valuation}
    (hreads : m.ReadsKey key valuation) {p : Predicate} (htrue : p.truth valuation = some true)
    {s : ShardRange} (hs : s ∈ m.shards) (hshard : s.range.contains key = true) :
    s.shard ∈ m.routeByPredicate (some p) :=
  mem_chooseShards hs hshard (contains_deriveRange hreads p htrue)

/-- The shard for a key is one of those whose range holds the key. -/
theorem exists_of_chooseShard {m : ShardMap} {key : Int} {shard : ShardId}
    (h : m.chooseShard key = .ok shard) :
    ∃ s ∈ m.shards, s.range.contains key = true ∧ s.shard = shard := by
  unfold chooseShard at h
  split at h
  · rename_i s hfind
    have hholds : s.range.contains key = true := by simpa using List.find?_some hfind
    exact ⟨s, List.mem_of_find?_eq_some hfind, hholds, Except.ok.inj h⟩
  · cases h

/-- A row whose key is an integer is routed by that integer. -/
theorem routeByRow_of_asInt {m : ShardMap} {row : Row} {value : Json} {key : Int}
    (hvalue : row.get? m.key = some value) (hkey : value.asInt? = some key) :
    m.routeByRow row = m.chooseShard key := by
  unfold routeByRow
  rw [hvalue]
  cases value with
  | num n => simp only [keyOf?, show n.asInt? = some key from hkey]
  | _ => cases hkey

/--
A condition that is true of a row misses no shard that the row may be on. The interval derived from
the condition holds the row's key, so every shard whose range holds the key is routed to, and with
them the one shard that the row itself is written to.
-/
theorem routing_covers_matches (m : ShardMap) (p : Predicate) (key : Int)
    (valuation : Predicate.Valuation) (hreads : m.ReadsKey key valuation)
    (htrue : p.truth valuation = some true) :
    (m.deriveRange p).contains key = true ∧
      (∀ s ∈ m.shards, s.range.contains key = true → s.shard ∈ m.routeByPredicate (some p)) ∧
      ∀ (row : Row) (shard : ShardId), (row.get? m.key).bind Json.asInt? = some key →
        m.routeByRow row = .ok shard → shard ∈ m.routeByPredicate (some p) := by
  refine ⟨contains_deriveRange hreads p htrue, ?_, ?_⟩
  · intro s hs hshard
    exact mem_routeByPredicate hreads htrue hs hshard
  · intro row shard hrow hroute
    obtain ⟨value, hvalue, hint⟩ := Option.bind_eq_some_iff.mp hrow
    rw [routeByRow_of_asInt hvalue hint] at hroute
    obtain ⟨s, hs, hshard, rfl⟩ := exists_of_chooseShard hroute
    exact mem_routeByPredicate hreads htrue hs hshard

/-- Two shards whose ranges overlap from 50 to 100. -/
def overlapping : ShardMap :=
  ⟨"users", "id", [⟨7, ⟨some 0, some 100⟩, none⟩, ⟨3, ⟨some 50, none⟩, some "users_b"⟩]⟩

/-- The truth of comparisons of a row with key 60; what is not about the key is unknown. -/
def sixty : Predicate.Valuation := fun column op value =>
  if column.name = "id" then value.asInt?.bind (op.onKey? 60) else none

/-- `id > 59 AND users.id <= 60`, or a contradiction. -/
def nearSixty : Predicate :=
  .any
    [.all [.compare (.bare "id") .gt (.ofInt 59),
      .compare (.qualified "users" "id") .lte (.ofInt 60)],
    .all [.compare (.bare "id") .gt (.ofInt 70), .compare (.bare "id") .lt (.ofInt 10)]]

/-- Key 60 lies in the overlap; it is written to the first shard and looked for on both. -/
theorem routing_covers_sixty :
    overlapping.ReadsKey 60 sixty ∧ nearSixty.truth sixty = some true ∧
      overlapping.routeByPredicate (some nearSixty) = [7, 3] ∧
      overlapping.routeByRow ⟨[("id", .ofInt 60)]⟩ = .ok 7 ∧
      7 ∈ overlapping.routeByPredicate (some nearSixty) := by
  have hreads : overlapping.ReadsKey 60 sixty := by
    intro column op value v answer hbinds hv hanswer
    have hname : column.name = "id" := by
      simp only [bindsKey, Bool.and_eq_true, beq_iff_eq] at hbinds
      exact hbinds.1
    rw [sixty, if_pos hname, hv]
    exact hanswer
  have htrue : nearSixty.truth sixty = some true := by decide
  have hroute : overlapping.routeByRow ⟨[("id", .ofInt 60)]⟩ = .ok 7 := rfl
  refine ⟨hreads, htrue, by decide, hroute, ?_⟩
  exact (routing_covers_matches overlapping nearSixty 60 sixty hreads htrue).2.2
    ⟨[("id", .ofInt 60)]⟩ 7 (by decide) hroute

end ShardMap

end SqlFederation
