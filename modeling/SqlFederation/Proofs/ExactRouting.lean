import SqlFederation.Proofs.ConfigJson
import SqlFederation.Proofs.Placeholders
import SqlFederation.Proofs.Plan
import SqlFederation.Proofs.RouteShape

/-!
# Routing by conjunctions is exact

Bounds are 64-bit integers, so a missing bound is as good as the smallest or the largest key, and a
range is the keys from its lowest to its highest one (`KeyRange.contains_iff_between`). Seen so,
ranges that hold keys meet exactly if they share one (`KeyRange.intersects_iff_exists`), and their
hull lies within every range that both lie within (`KeyRange.within_hull`).

A predicate of nested ANDs (`Predicate.IsAnds`) is as good as a list of comparisons. The range that
is derived from it holds exactly the keys that its comparisons allow
(`ShardMap.contains_deriveRange_iff`), unless one of them asks for a key above the largest or below
the smallest, which has the range of that key. So it is routed to exactly the shards that could hold
an allowed key, and an OR of such predicates has the smallest range over the keys that its branches
allow (`ShardMap.routing_exact`).
-/

namespace SqlFederation

theorem fitsSigned_iff {key : Int} : fitsSigned key = true ↔ minKey ≤ key ∧ key ≤ maxKey := by
  rw [fitsSigned, decide_eq_true_iff]
  rfl

theorem fitsSigned_of_asInt? {value : Json} {key : Int} (h : value.asInt? = some key) :
    fitsSigned key = true := by
  cases value with
  | num n =>
    cases n with
    | real r => cases h
    | int k =>
      rw [Json.asInt?, Number.asInt?] at h
      split at h
      · rename_i hfits
        cases h
        exact hfits
      · cases h
  | _ => cases h

/-! ## Ranges of 64-bit keys -/

namespace KeyRange

variable {a b range : KeyRange} {key : Int}

/-- The first key that the lower bound lets in. -/
def lowest (range : KeyRange) : Int := range.min.getD minKey

/-- The last key that the upper bound lets in. -/
def highest (range : KeyRange) : Int := range.max.getD maxKey

theorem Fits.lowest (h : range.Fits) : fitsSigned range.lowest = true := by
  obtain ⟨lo, hi⟩ := range
  cases lo with
  | none =>
    show fitsSigned minKey = true
    decide
  | some lo => exact h.1 lo rfl

theorem Fits.highest (h : range.Fits) : fitsSigned range.highest = true := by
  obtain ⟨lo, hi⟩ := range
  cases hi with
  | none =>
    show fitsSigned maxKey = true
    decide
  | some hi => exact h.2 hi rfl

/-- A range is the keys from its lowest to its highest one. -/
theorem contains_iff_between (hkey : fitsSigned key = true) :
    range.contains key = true ↔ range.lowest ≤ key ∧ key ≤ range.highest := by
  rw [fitsSigned_iff] at hkey
  obtain ⟨lo, hi⟩ := range
  cases lo <;> cases hi <;> simp [contains, KeyRange.lowest, KeyRange.highest, hkey]

theorem isEmpty_iff (h : range.Fits) :
    range.isEmpty = true ↔ range.highest < range.lowest := by
  have hlowest := fitsSigned_iff.mp h.lowest
  have hhighest := fitsSigned_iff.mp h.highest
  obtain ⟨lo, hi⟩ := range
  cases lo <;> cases hi <;> simp [isEmpty, KeyRange.lowest, KeyRange.highest] at hlowest hhighest ⊢
  all_goals omega

/-- A range that is not empty holds its lowest and its highest key. -/
theorem contains_ends (h : range.Fits) (hne : range.isEmpty = false) :
    range.contains range.lowest = true ∧ range.contains range.highest = true := by
  have horder : ¬range.highest < range.lowest := by
    rw [← isEmpty_iff h, hne]
    exact Bool.false_ne_true
  rw [contains_iff_between h.lowest, contains_iff_between h.highest]
  omega

/-- A range without a key is empty. -/
theorem isEmpty_of_forall (h : range.Fits)
    (hnone : ∀ key, fitsSigned key = true → range.contains key ≠ true) : range.isEmpty = true := by
  by_contra hne
  exact hnone range.lowest h.lowest (contains_ends h (Bool.eq_false_iff.mpr hne)).1

/-- Ranges meet where neither ends below the other. -/
theorem intersects_iff (ha : a.Fits) (hb : b.Fits) :
    a.intersects b = true ↔ b.lowest ≤ a.highest ∧ a.lowest ≤ b.highest := by
  have halo := fitsSigned_iff.mp ha.lowest
  have hahi := fitsSigned_iff.mp ha.highest
  have hblo := fitsSigned_iff.mp hb.lowest
  have hbhi := fitsSigned_iff.mp hb.highest
  obtain ⟨alo, ahi⟩ := a
  obtain ⟨blo, bhi⟩ := b
  cases alo <;> cases ahi <;> cases blo <;> cases bhi <;>
    simp [intersects, KeyRange.lowest, KeyRange.highest] at halo hahi hblo hbhi ⊢
  all_goals omega

/-- Ranges that hold keys meet exactly if they share one. -/
theorem intersects_iff_exists (ha : a.Fits) (hb : b.Fits) (hane : a.isEmpty = false)
    (hbne : b.isEmpty = false) :
    a.intersects b = true ↔
      ∃ key, fitsSigned key = true ∧ a.contains key = true ∧ b.contains key = true := by
  have hain := (contains_iff_between ha.lowest).mp (contains_ends ha hane).1
  have hbin := (contains_iff_between hb.lowest).mp (contains_ends hb hbne).1
  constructor
  · intro hmeet
    rw [intersects_iff ha hb] at hmeet
    -- The greater one of the lowest keys lies in both.
    by_cases hle : a.lowest ≤ b.lowest
    · refine ⟨b.lowest, hb.lowest, ?_, (contains_ends hb hbne).1⟩
      rw [contains_iff_between hb.lowest]
      omega
    · refine ⟨a.lowest, ha.lowest, (contains_ends ha hane).1, ?_⟩
      rw [contains_iff_between ha.lowest]
      omega
  · rintro ⟨key, -, hak, hbk⟩
    exact intersects_of_contains hak hbk

/-! ### Bounds that fit -/

/-- A bound that is picked out of two is one of them. -/
theorem eq_of_tighter {pick : Int → Int → Int} (hpick : ∀ i j, pick i j = i ∨ pick i j = j)
    {x y : Option Int} {bound : Int} (h : tighter pick x y = some bound) :
    x = some bound ∨ y = some bound := by
  cases x with
  | none => exact Or.inr h
  | some i =>
    cases y with
    | none => exact Or.inl h
    | some j =>
      rw [tighter, Option.some.injEq] at h
      rcases hpick i j with hi | hj
      · exact Or.inl (congrArg some (hi.symm.trans h))
      · exact Or.inr (congrArg some (hj.symm.trans h))

theorem eq_of_looser {pick : Int → Int → Int} (hpick : ∀ i j, pick i j = i ∨ pick i j = j)
    {x y : Option Int} {bound : Int} (h : looser pick x y = some bound) :
    x = some bound ∨ y = some bound := by
  cases x with
  | none => cases h
  | some i =>
    cases y with
    | none => cases h
    | some j => exact eq_of_tighter hpick h

theorem Fits.intersect (ha : a.Fits) (hb : b.Fits) : (a.intersect b).Fits := by
  constructor
  · intro lo hlo
    exact (eq_of_tighter max_choice hlo).elim (ha.1 lo) (hb.1 lo)
  · intro hi hhi
    exact (eq_of_tighter min_choice hhi).elim (ha.2 hi) (hb.2 hi)

theorem Fits.hull (ha : a.Fits) (hb : b.Fits) : (a.hull b).Fits := by
  constructor
  · intro lo hlo
    exact (eq_of_looser min_choice hlo).elim (ha.1 lo) (hb.1 lo)
  · intro hi hhi
    exact (eq_of_looser max_choice hhi).elim (ha.2 hi) (hb.2 hi)

theorem fits_unbounded : unbounded.Fits := ⟨nofun, nofun⟩

theorem fits_point (h : fitsSigned key = true) : (point key).Fits :=
  ⟨fun _ hlo => Option.some.inj hlo ▸ h, fun _ hhi => Option.some.inj hhi ▸ h⟩

theorem fits_atLeast (h : fitsSigned key = true) : (atLeast key).Fits :=
  ⟨fun _ hlo => Option.some.inj hlo ▸ h, nofun⟩

theorem fits_atMost (h : fitsSigned key = true) : (atMost key).Fits :=
  ⟨nofun, fun _ hhi => Option.some.inj hhi ▸ h⟩

/-! ### Hulls -/

theorem lowest_hull (ha : a.Fits) (hb : b.Fits) :
    (a.hull b).lowest = Min.min a.lowest b.lowest := by
  have halo := (fitsSigned_iff.mp ha.lowest).1
  have hblo := (fitsSigned_iff.mp hb.lowest).1
  obtain ⟨alo, ahi⟩ := a
  obtain ⟨blo, bhi⟩ := b
  cases alo <;> cases blo <;> simp [KeyRange.hull, looser, KeyRange.lowest] at halo hblo ⊢
  all_goals omega

theorem highest_hull (ha : a.Fits) (hb : b.Fits) :
    (a.hull b).highest = Max.max a.highest b.highest := by
  have hahi := (fitsSigned_iff.mp ha.highest).2
  have hbhi := (fitsSigned_iff.mp hb.highest).2
  obtain ⟨alo, ahi⟩ := a
  obtain ⟨blo, bhi⟩ := b
  cases ahi <;> cases bhi <;> simp [KeyRange.hull, looser, KeyRange.highest] at hahi hbhi ⊢
  all_goals omega

/-- Does a range hold every key of another one? -/
def Within (range outer : KeyRange) : Prop :=
  ∀ key, fitsSigned key = true → range.contains key = true → outer.contains key = true

/-- The smallest range over some keys. -/
structure IsSmallest (range : KeyRange) (keys : Int → Prop) : Prop where
  contains : ∀ key, keys key → range.contains key = true
  within : ∀ outer : KeyRange, (∀ key, keys key → outer.contains key = true) → range.Within outer

/-- A range that two ranges lie within has their hull within. -/
theorem within_hull {outer : KeyRange} (ha : a.Fits) (hb : b.Fits) (hane : a.isEmpty = false)
    (hbne : b.isEmpty = false) (haouter : a.Within outer) (hbouter : b.Within outer) :
    (a.hull b).Within outer := by
  intro key hkey hin
  -- The outer range reaches over the ends of both.
  obtain ⟨halo, hahi⟩ := contains_ends ha hane
  obtain ⟨hblo, hbhi⟩ := contains_ends hb hbne
  have h1 := (contains_iff_between ha.lowest).mp (haouter _ ha.lowest halo)
  have h2 := (contains_iff_between ha.highest).mp (haouter _ ha.highest hahi)
  have h3 := (contains_iff_between hb.lowest).mp (hbouter _ hb.lowest hblo)
  have h4 := (contains_iff_between hb.highest).mp (hbouter _ hb.highest hbhi)
  rw [contains_iff_between hkey, lowest_hull ha hb, highest_hull ha hb] at hin
  rw [contains_iff_between hkey]
  omega

/-- A hull holds what its ranges hold. -/
theorem isEmpty_hull (ha : a.Fits) (hb : b.Fits) (hane : a.isEmpty = false) :
    (a.hull b).isEmpty = false := by
  have hends := (contains_iff_between ha.lowest).mp (contains_ends ha hane).1
  rw [Bool.eq_false_iff, ne_eq, isEmpty_iff (ha.hull hb), lowest_hull ha hb, highest_hull ha hb]
  omega

end KeyRange

namespace ShardMap

open KeyRange (IsSmallest)

variable {m : ShardMap} {ranges : List KeyRange}

/-- The hull of ranges that hold keys lies within every range that all of them lie within. -/
theorem within_foldl_hull {outer first : KeyRange} {rest : List KeyRange}
    (hfits : ∀ r ∈ first :: rest, r.Fits) (hlive : ∀ r ∈ first :: rest, r.isEmpty = false)
    (houter : ∀ r ∈ first :: rest, r.Within outer) :
    (rest.foldl KeyRange.hull first).Within outer := by
  induction rest generalizing first with
  | nil => exact houter first List.mem_cons_self
  | cons r rest ih =>
    simp only [List.forall_mem_cons] at hfits hlive houter ih
    obtain ⟨hfirstFits, hfits, hrestFits⟩ := hfits
    obtain ⟨hfirstLive, hlive, hrestLive⟩ := hlive
    obtain ⟨hfirstOuter, houter, hrestOuter⟩ := houter
    rw [List.foldl_cons]
    exact ih ⟨hfirstFits.hull hfits, hrestFits⟩
      ⟨KeyRange.isEmpty_hull hfirstFits hfits hfirstLive, hrestLive⟩
      ⟨KeyRange.within_hull hfirstFits hfits hfirstLive hlive hfirstOuter houter, hrestOuter⟩

/-- The range of an OR is the smallest one over the keys of its ranges. -/
theorem isSmallest_rangeOfAny (hfits : ∀ r ∈ ranges, r.Fits) (hne : ranges ≠ []) :
    IsSmallest (rangeOfAny ranges)
      fun key => fitsSigned key = true ∧ ∃ r ∈ ranges, r.contains key = true where
  contains := by
    rintro key ⟨-, r, hr, hkey⟩
    exact contains_rangeOfAny hr hkey
  within := by
    intro outer houter
    have hwithin : ∀ r ∈ live ranges, r.Within outer := fun r hr key hkey hin =>
      houter key ⟨hkey, r, List.mem_of_mem_filter hr, hin⟩
    have hlive : ∀ r ∈ live ranges, r.isEmpty = false := fun r hr => by
      simpa using List.of_mem_filter hr
    cases hsplit : live ranges with
    | nil =>
      intro key _ hin
      have hempty := isEmpty_rangeOfAny hsplit hne
      rw [KeyRange.isEmpty_of_contains hin] at hempty
      cases hempty
    | cons first rest =>
      have hrange : rangeOfAny ranges = rest.foldl KeyRange.hull first := by
        rw [rangeOfAny_eq, hsplit, hullOf?_cons]
        rfl
      rw [hsplit] at hwithin hlive
      rw [hrange]
      refine within_foldl_hull (fun r hr => hfits r ?_) hlive hwithin
      exact List.mem_of_mem_filter (hsplit ▸ hr : r ∈ live ranges)

/-- The range of an OR is empty exactly if no key lies in any of its ranges. -/
theorem isEmpty_rangeOfAny_iff (hfits : ∀ r ∈ ranges, r.Fits) (hne : ranges ≠ []) :
    (rangeOfAny ranges).isEmpty = true ↔
      ∀ r ∈ ranges, ∀ key, fitsSigned key = true → r.contains key ≠ true := by
  constructor
  · intro hempty r hr key hkey hin
    rw [KeyRange.isEmpty_of_contains (contains_rangeOfAny hr hin)] at hempty
    cases hempty
  · intro hnone
    refine isEmpty_rangeOfAny ?_ hne
    rw [live, List.filter_eq_nil_iff]
    intro r hr
    rw [KeyRange.isEmpty_of_forall (hfits r hr) (hnone r hr)]
    decide

end ShardMap

/-! ## Comparisons of the key -/

namespace Comparison

/--
What a comparison says of a key: its truth there, if it compares the key with an integer by an order
or by equality.
-/
def atKey? (m : ShardMap) (key : Int) (comparison : Comparison) : Option Bool :=
  if m.bindsKey comparison.column then
    comparison.value.asInt?.bind fun value => comparison.op.onKey? key value
  else
    none

/-- Does a comparison hold at a key, or say nothing of it? -/
def Allows (m : ShardMap) (key : Int) (comparison : Comparison) : Prop :=
  ∀ answer, comparison.atKey? m key = some answer → answer = true

/-- Does a comparison ask for a key above the largest or below the smallest? -/
def AsksBeyond (m : ShardMap) (comparison : Comparison) : Prop :=
  m.bindsKey comparison.column = true ∧
    ((comparison.op = .gt ∧ comparison.value.asInt? = some maxKey) ∨
      (comparison.op = .lt ∧ comparison.value.asInt? = some minKey))

instance (m : ShardMap) (comparison : Comparison) : Decidable (comparison.AsksBeyond m) :=
  inferInstanceAs (Decidable (_ ∧ _))

end Comparison

namespace Predicate

/-- Nested ANDs of any number of predicates, and comparisons in them. -/
inductive IsAnds : Predicate → Prop
  | compare (column : ColumnRef) (op : Comparator) (value : Json) :
    IsAnds (.compare column op value)
  | all (children : List Predicate) (h : ∀ child ∈ children, IsAnds child) :
    IsAnds (.all children)

/-- Do all comparisons of a predicate allow a key? -/
def Allows (m : ShardMap) (key : Int) (p : Predicate) : Prop :=
  ∀ comparison ∈ p.comparisons, comparison.Allows m key

/-- An AND of comparisons none of which asks for a key beyond the ends. -/
structure IsExact (m : ShardMap) (p : Predicate) : Prop where
  isAnds : p.IsAnds
  inside : ∀ comparison ∈ p.comparisons, ¬comparison.AsksBeyond m

end Predicate

/-! ## Derived ranges -/

/-- The key after one that fits fits: the largest stands for itself. -/
theorem fitsSigned_keyAfter {key : Int} (h : fitsSigned key = true) :
    fitsSigned (keyAfter key) = true := by
  have hends : minKey ≤ maxKey := by decide
  rw [fitsSigned_iff] at h ⊢
  unfold keyAfter
  omega

/-- The key before one that fits fits: the smallest stands for itself. -/
theorem fitsSigned_keyBefore {key : Int} (h : fitsSigned key = true) :
    fitsSigned (keyBefore key) = true := by
  have hends : minKey ≤ maxKey := by decide
  rw [fitsSigned_iff] at h ⊢
  unfold keyBefore
  omega

namespace ShardMap

variable {m : ShardMap} {ranges : List KeyRange}

theorem fits_comparisonRange (op : Comparator) {key : Int} (h : fitsSigned key = true) :
    (comparisonRange op key).Fits := by
  cases op with
  | eq => exact KeyRange.fits_point h
  | gt => exact KeyRange.fits_atLeast (fitsSigned_keyAfter h)
  | gte => exact KeyRange.fits_atLeast h
  | lt => exact KeyRange.fits_atMost (fitsSigned_keyBefore h)
  | lte => exact KeyRange.fits_atMost h
  | _ => exact KeyRange.fits_unbounded

theorem fits_rangeOfAll (h : ∀ r ∈ ranges, r.Fits) : (rangeOfAll ranges).Fits := by
  induction ranges with
  | nil => exact KeyRange.fits_unbounded
  | cons r rest ih =>
    rw [List.forall_mem_cons] at h
    rw [rangeOfAll_cons]
    exact h.1.intersect (ih h.2)

theorem fits_foldl_hull {first : KeyRange} (h : ∀ r ∈ first :: ranges, r.Fits) :
    (ranges.foldl KeyRange.hull first).Fits := by
  induction ranges generalizing first with
  | nil => exact h first List.mem_cons_self
  | cons r rest ih =>
    simp only [List.forall_mem_cons] at h ih
    exact ih ⟨h.1.hull h.2.1, h.2.2⟩

theorem fits_rangeOfAny (h : ∀ r ∈ ranges, r.Fits) : (rangeOfAny ranges).Fits := by
  unfold rangeOfAny
  split
  · rename_i first rest hlive
    refine fits_foldl_hull fun r hr => h r ?_
    exact List.mem_of_mem_filter (hlive ▸ hr : r ∈ ranges.filter fun r => !r.isEmpty)
  · cases ranges with
    | nil => exact KeyRange.fits_unbounded
    | cons r rest => exact h r List.mem_cons_self

/-- A derived range has 64-bit bounds. -/
theorem fits_deriveRange (m : ShardMap) (p : Predicate) : (m.deriveRange p).Fits := by
  induction p using Predicate.induct with
  | compare column op value =>
    rw [deriveRange]
    split
    · split
      · rename_i key hkey
        exact fits_comparisonRange op (fitsSigned_of_asInt? hkey)
      · exact KeyRange.fits_unbounded
    · exact KeyRange.fits_unbounded
  | join connective children ih =>
    rw [← List.forall_mem_map] at ih
    cases connective with
    | and =>
      rw [deriveRange_all]
      exact fits_rangeOfAll ih
    | or =>
      rw [deriveRange_any]
      exact fits_rangeOfAny ih

/-- The range of a comparison holds exactly the keys at which the comparison holds. -/
theorem contains_comparisonRange_iff {op : Comparator} {key value : Int}
    (hvalue : fitsSigned value = true) (hgt : op = .gt → value ≠ maxKey)
    (hlt : op = .lt → value ≠ minKey) :
    (comparisonRange op value).contains key = true ↔
      ∀ answer, op.onKey? key value = some answer → answer = true := by
  refine ⟨fun hin => ?_, contains_comparisonRange⟩
  rw [fitsSigned_iff] at hvalue
  rw [KeyRange.contains_iff] at hin
  cases op <;> simp [Comparator.onKey?, comparisonRange, KeyRange.point, KeyRange.atLeast,
    KeyRange.atMost, keyAfter, keyBefore] at hin hgt hlt ⊢ <;> omega

/-- The range of an AND of comparisons holds exactly the keys that all of them allow. -/
theorem contains_deriveRange_iff {p : Predicate} (h : p.IsExact m) {key : Int} :
    (m.deriveRange p).contains key = true ↔ p.Allows m key := by
  obtain ⟨hands, hinside⟩ := h
  induction hands with
  | compare column op value =>
    rw [Predicate.comparisons, List.forall_mem_singleton, Comparison.AsksBeyond] at hinside
    rw [Predicate.Allows, Predicate.comparisons, List.forall_mem_singleton, Comparison.Allows,
      Comparison.atKey?, deriveRange]
    dsimp only at hinside ⊢
    by_cases hbinds : m.bindsKey column = true
    · rw [if_pos hbinds, if_pos hbinds]
      cases hvalue : value.asInt? with
      | none => simp [KeyRange.contains_unbounded]
      | some v =>
        refine contains_comparisonRange_iff (fitsSigned_of_asInt? hvalue) ?_ ?_
        · rintro rfl rfl
          exact hinside ⟨hbinds, Or.inl ⟨rfl, hvalue⟩⟩
        · rintro rfl rfl
          exact hinside ⟨hbinds, Or.inr ⟨rfl, hvalue⟩⟩
    · rw [if_neg hbinds, if_neg hbinds]
      simp [KeyRange.contains_unbounded]
  | all children _ ih =>
    have hcomparisons : (Predicate.all children).comparisons =
        children.flatMap Predicate.comparisons := by
      rw [Predicate.all, Predicate.comparisons, Predicate.comparisonsAll_eq_flatMap]
    rw [hcomparisons, List.forall_mem_flatMap] at hinside
    rw [Predicate.Allows, hcomparisons, List.forall_mem_flatMap, Predicate.all, deriveRange_all,
      contains_rangeOfAll, List.forall_mem_map]
    exact forall₂_congr fun child hchild => ih child hchild (hinside child hchild)

/-! ## Routing -/

/-- A range with its bounds in order holds keys. -/
theorem isEmpty_of_checked {range kept : KeyRange} (h : range.checked = .ok kept) :
    kept.isEmpty = false := by
  obtain ⟨lo, hi⟩ := range
  cases lo with
  | none =>
    cases h
    rfl
  | some lo =>
    cases hi with
    | none =>
      cases h
      rfl
    | some hi =>
      unfold KeyRange.checked at h
      dsimp only at h
      split at h
      · cases h
      · rename_i horder
        cases h
        exact decide_eq_false horder

/-- The ranges of a map that was built range by range hold keys. -/
theorem Built.isEmpty_range (hm : m.Built) :
    ∀ range ∈ m.shards.map ShardRange.range, range.isEmpty = false := by
  induction hm with
  | empty table key => exact List.forall_mem_nil _
  | @addRange m m' shard range hm h ih =>
    unfold ShardMap.addRange at h
    split at h
    · cases h
    · cases hchecked : range.checked with
      | error e =>
        rw [hchecked] at h
        cases h
      | ok kept =>
        rw [hchecked] at h
        cases h
        rw [List.map_append, List.forall_mem_append, List.map_singleton, List.forall_mem_singleton]
        exact ⟨ih, isEmpty_of_checked hchecked⟩
  | @withPhysicalTable m m' shard physical hm h ih =>
    unfold ShardMap.withPhysicalTable at h
    split at h
    · cases h
      rw [map_namePhysical fun _ => rfl]
      exact ih
    · cases h

open Classical in
/-- A range is routed to the shards that share a key with it. -/
theorem chooseShards_eq_filter (hm : m.Built) (hfits : ∀ s ∈ m.shards, s.range.Fits)
    {range : KeyRange} (hrange : range.Fits) :
    m.chooseShards range = (m.shards.filter fun s => decide (∃ key, fitsSigned key = true ∧
      s.range.contains key = true ∧ range.contains key = true)).map ShardRange.shard := by
  unfold chooseShards
  split
  · rename_i hempty
    -- No key is left to share.
    rw [List.filter_eq_nil_iff.mpr, List.map_nil]
    rintro s - hshared
    obtain ⟨key, -, -, hkey⟩ := of_decide_eq_true hshared
    rw [KeyRange.isEmpty_of_contains hkey] at hempty
    cases hempty
  · rename_i hlive
    refine congrArg (List.map ShardRange.shard) (List.filter_congr fun s hs => ?_)
    have hholds := hm.isEmpty_range s.range (List.mem_map_of_mem hs)
    rw [Bool.eq_iff_iff, decide_eq_true_iff]
    exact KeyRange.intersects_iff_exists (hfits s hs) hrange hholds (Bool.eq_false_iff.mpr hlive)

open Classical in
/--
Routing by conjunctions is exact. Over a map that was built range by range, the range of an AND of
comparisons, however nested, holds exactly the keys that all of its comparisons of the key allow,
and the AND is routed to exactly the shards whose range holds such a key, in the order of the map.
The range of an OR of ANDs is the smallest one over the keys that its branches allow, and it is
empty exactly if they allow none.
-/
theorem routing_exact (m : ShardMap) (hm : m.Built) (hfits : ∀ s ∈ m.shards, s.range.Fits) :
    (∀ p : Predicate, p.IsExact m →
      (∀ key, (m.deriveRange p).contains key = true ↔ p.Allows m key) ∧
      m.routeByPredicate (some p) = (m.shards.filter fun s => decide (∃ key,
        fitsSigned key = true ∧ s.range.contains key = true ∧ p.Allows m key)).map
          ShardRange.shard) ∧
    (∀ branches : List Predicate, branches ≠ [] → (∀ p ∈ branches, p.IsExact m) →
      (m.deriveRange (.any branches)).IsSmallest (fun key =>
        fitsSigned key = true ∧ ∃ p ∈ branches, p.Allows m key) ∧
      ((m.deriveRange (.any branches)).isEmpty = true ↔
        ∀ p ∈ branches, ∀ key, fitsSigned key = true → ¬p.Allows m key)) := by
  constructor
  · intro p hp
    refine ⟨fun key => contains_deriveRange_iff hp, ?_⟩
    rw [routeByPredicate, chooseShards_eq_filter hm hfits (fits_deriveRange m p)]
    simp only [contains_deriveRange_iff hp]
  · intro branches hne hbranches
    have hranges : branches.map m.deriveRange ≠ [] := mt List.map_eq_nil_iff.mp hne
    have hrangesFit : ∀ r ∈ branches.map m.deriveRange, r.Fits :=
      List.forall_mem_map.mpr fun p _ => fits_deriveRange m p
    rw [Predicate.any, deriveRange_any]
    constructor
    · have hsmallest := isSmallest_rangeOfAny hrangesFit hranges
      have hkeys : ∀ key, (∃ r ∈ branches.map m.deriveRange, r.contains key = true) ↔
          ∃ p ∈ branches, p.Allows m key := fun key => by
        simp only [List.mem_map, exists_exists_and_eq_and]
        exact exists_congr fun p => and_congr_right fun hp =>
          contains_deriveRange_iff (hbranches p hp)
      simpa only [hkeys] using hsmallest
    · rw [isEmpty_rangeOfAny_iff hrangesFit hranges, List.forall_mem_map]
      exact forall₂_congr fun p hp => forall₂_congr fun key _ =>
        not_congr (contains_deriveRange_iff (hbranches p hp))

/-- Three shards whose ranges border on each other. -/
def bordering : ShardMap :=
  ⟨"users", "id",
    [⟨1, .atMost 99, none⟩, ⟨2, ⟨some 100, some 199⟩, none⟩, ⟨3, .atLeast 200, none⟩]⟩

theorem bordering_built : bordering.Built := by
  have h₁ : (empty "users" "id").addRange 1 (.atMost 99) =
      .ok ⟨"users", "id", [⟨1, .atMost 99, none⟩]⟩ := rfl
  have h₂ : addRange ⟨"users", "id", [⟨1, .atMost 99, none⟩]⟩ 2 ⟨some 100, some 199⟩ =
      .ok ⟨"users", "id", [⟨1, .atMost 99, none⟩, ⟨2, ⟨some 100, some 199⟩, none⟩]⟩ := rfl
  have h₃ : addRange ⟨"users", "id", [⟨1, .atMost 99, none⟩, ⟨2, ⟨some 100, some 199⟩, none⟩]⟩ 3
      (.atLeast 200) = .ok bordering := rfl
  exact (((Built.empty "users" "id").addRange h₁).addRange h₂).addRange h₃

theorem bordering_fits : ∀ s ∈ bordering.shards, s.range.Fits := by
  simp only [bordering, List.forall_mem_cons]
  refine ⟨KeyRange.fits_atMost (by decide), ⟨?_, ?_⟩, KeyRange.fits_atLeast (by decide),
    List.forall_mem_nil _⟩
  · rintro lo ⟨⟩
    decide
  · rintro hi ⟨⟩
    decide

/-- The keys between 99 and 200, both left out, by a nested AND and next to an empty one. -/
def strictlyInside : Predicate :=
  .all [.all [], .compare (.bare "id") .gt (.ofInt 99),
    .all [.compare (.qualified "users" "id") .lt (.ofInt 200)]]

theorem strictlyInside_isExact : strictlyInside.IsExact bordering where
  isAnds := by
    refine .all _ ?_
    simp only [List.forall_mem_cons]
    refine ⟨.all _ (List.forall_mem_nil _), .compare _ _ _, .all _ ?_, List.forall_mem_nil _⟩
    exact List.forall_mem_singleton.mpr (.compare _ _ _)
  inside := by decide

/-- One key, past the last border. -/
def pastBorder : Predicate :=
  .all [.compare (.bare "id") .eq (.ofInt 400)]

theorem pastBorder_isExact : pastBorder.IsExact bordering where
  isAnds := .all _ (List.forall_mem_singleton.mpr (.compare _ _ _))
  inside := by decide

open Classical in
/--
Strict bounds next to the borders are routed to the shard between them and to no other, and an OR
with a single key has the smallest range over that key and the ones between.
-/
theorem routing_exact_bordering :
    bordering.Built ∧ (∀ s ∈ bordering.shards, s.range.Fits) ∧
      strictlyInside.IsExact bordering ∧ pastBorder.IsExact bordering ∧
      (∀ key, (bordering.deriveRange strictlyInside).contains key = true ↔
        strictlyInside.Allows bordering key) ∧
      bordering.routeByPredicate (some strictlyInside) = [2] ∧
      (bordering.shards.filter fun s => decide (∃ key, fitsSigned key = true ∧
        s.range.contains key = true ∧ strictlyInside.Allows bordering key)).map
          ShardRange.shard = [2] ∧
      (bordering.deriveRange (.any [strictlyInside, pastBorder])).IsSmallest (fun key =>
        fitsSigned key = true ∧ ∃ p ∈ [strictlyInside, pastBorder], p.Allows bordering key) ∧
      bordering.deriveRange (.any [strictlyInside, pastBorder]) = ⟨some 100, some 400⟩ := by
  obtain ⟨hands, hors⟩ := routing_exact bordering bordering_built bordering_fits
  obtain ⟨hcontains, hroute⟩ := hands strictlyInside strictlyInside_isExact
  have hmiddle : bordering.routeByPredicate (some strictlyInside) = [2] := by decide
  have hbranches : ∀ p ∈ [strictlyInside, pastBorder], p.IsExact bordering := by
    rw [List.forall_mem_cons, List.forall_mem_singleton]
    exact ⟨strictlyInside_isExact, pastBorder_isExact⟩
  exact ⟨bordering_built, bordering_fits, strictlyInside_isExact, pastBorder_isExact,
    hcontains, hmiddle, hroute.symm.trans hmiddle,
    (hors _ (List.cons_ne_nil _ _) hbranches).1, by decide⟩

end ShardMap

end SqlFederation
