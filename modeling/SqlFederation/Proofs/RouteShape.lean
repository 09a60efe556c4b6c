import Mathlib.Data.List.Perm.Basic
import Mathlib.Logic.Relation
import SqlFederation.Proofs.Routing

/-!
# The shape of a predicate and its route

A predicate can be written in many ways: the children of a join in another order, an AND within an
AND drawn into it, a join of one child as that child, and all of this at any depth
(`Predicate.Reshapes`). The interval that is derived from it may change then, because an OR whose
children all contradict themselves has the interval of the first of them. But it changes from one
empty interval to another one: `KeyRange.SameKeys` holds of intervals that are equal or both empty,
and both ways to join intervals keep it (`ShardMap.sameKeys_rangeOfAll`,
`ShardMap.sameKeys_rangeOfAny`). An empty interval routes nowhere, so the route does not depend on
the shape of a predicate (`ShardMap.route_depends_on_shape`), and neither does it on the order and
the grouping in which conditions are added to a query (`Predicate.Groups`).
-/

namespace SqlFederation

/-! ## Intervals -/

namespace KeyRange

variable {a b c : KeyRange}

theorem intersect_comm (a b : KeyRange) : a.intersect b = b.intersect a := by
  obtain ⟨alo, ahi⟩ := a
  obtain ⟨blo, bhi⟩ := b
  cases alo <;> cases ahi <;> cases blo <;> cases bhi <;>
    simp [intersect, tighter, Int.max_comm, Int.min_comm]

theorem intersect_assoc (a b c : KeyRange) :
    (a.intersect b).intersect c = a.intersect (b.intersect c) := by
  have htighter : ∀ {pick : Int → Int → Int}, (∀ i j k, pick (pick i j) k = pick i (pick j k)) →
      ∀ x y z, tighter pick (tighter pick x y) z = tighter pick x (tighter pick y z) := by
    intro pick hpick x y z
    cases x <;> cases y <;> cases z <;> simp [tighter, hpick]
  simp only [intersect, htighter Int.max_assoc, htighter Int.min_assoc]

theorem hull_comm (a b : KeyRange) : a.hull b = b.hull a := by
  obtain ⟨alo, ahi⟩ := a
  obtain ⟨blo, bhi⟩ := b
  cases alo <;> cases ahi <;> cases blo <;> cases bhi <;>
    simp [hull, looser, Int.max_comm, Int.min_comm]

theorem hull_assoc (a b c : KeyRange) : (a.hull b).hull c = a.hull (b.hull c) := by
  have hlooser : ∀ {pick : Int → Int → Int}, (∀ i j k, pick (pick i j) k = pick i (pick j k)) →
      ∀ x y z, looser pick (looser pick x y) z = looser pick x (looser pick y z) := by
    intro pick hpick x y z
    cases x <;> cases y <;> cases z <;> simp [looser, hpick]
  simp only [hull, hlooser Int.max_assoc, hlooser Int.min_assoc]

instance : Std.Commutative intersect := ⟨intersect_comm⟩
instance : Std.Associative intersect := ⟨intersect_assoc⟩
instance : Std.Commutative hull := ⟨hull_comm⟩
instance : Std.Associative hull := ⟨hull_assoc⟩

theorem intersect_unbounded (a : KeyRange) : a.intersect unbounded = a := by
  obtain ⟨lo, hi⟩ := a
  cases lo <;> cases hi <;> rfl

/-- What an empty range is cut with stays empty. -/
theorem isEmpty_intersect (h : a.isEmpty = true) : (a.intersect b).isEmpty = true := by
  obtain ⟨alo, ahi⟩ := a
  obtain ⟨blo, bhi⟩ := b
  rcases alo with _ | alo <;> rcases ahi with _ | ahi <;> rcases blo with _ | blo <;>
    rcases bhi with _ | bhi <;> simp [isEmpty, intersect, tighter] at h ⊢ <;> omega

/-- Are two ranges the same, or both without any key? -/
def SameKeys (a b : KeyRange) : Prop :=
  a = b ∨ (a.isEmpty = true ∧ b.isEmpty = true)

theorem SameKeys.refl (a : KeyRange) : SameKeys a a := Or.inl rfl

theorem SameKeys.symm (h : SameKeys a b) : SameKeys b a :=
  h.imp Eq.symm And.symm

theorem SameKeys.trans (hab : SameKeys a b) (hbc : SameKeys b c) : SameKeys a c := by
  rcases hab with rfl | ⟨ha, hb⟩
  · exact hbc
  · rcases hbc with rfl | ⟨-, hc⟩
    · exact Or.inr ⟨ha, hb⟩
    · exact Or.inr ⟨ha, hc⟩

/-- Of two such ranges both are empty, or none is. -/
theorem SameKeys.isEmpty_eq (h : SameKeys a b) : a.isEmpty = b.isEmpty := by
  rcases h with rfl | ⟨ha, hb⟩
  · rfl
  · rw [ha, hb]

theorem SameKeys.intersect {a' b' : KeyRange} (ha : SameKeys a a') (hb : SameKeys b b') :
    SameKeys (a.intersect b) (a'.intersect b') := by
  rcases ha with rfl | ⟨ha, ha'⟩
  · rcases hb with rfl | ⟨hb, hb'⟩
    · exact .refl _
    · rw [intersect_comm a b, intersect_comm a b']
      exact Or.inr ⟨isEmpty_intersect hb, isEmpty_intersect hb'⟩
  · exact Or.inr ⟨isEmpty_intersect ha, isEmpty_intersect ha'⟩

end KeyRange

namespace ShardMap

open KeyRange (SameKeys intersect hull)

variable {ranges others : List KeyRange}

/-! ## All of some ranges -/

/-- One range more is cut with what the others have in common. -/
theorem rangeOfAll_cons (range : KeyRange) (ranges : List KeyRange) :
    rangeOfAll (range :: ranges) = range.intersect (rangeOfAll ranges) := by
  calc ranges.foldl intersect range
    _ = ranges.foldl intersect (range.intersect .unbounded) := by
      rw [KeyRange.intersect_unbounded]
    _ = range.intersect (ranges.foldl intersect .unbounded) := List.foldl_assoc

theorem rangeOfAll_append (front back : List KeyRange) :
    rangeOfAll (front ++ back) = (rangeOfAll front).intersect (rangeOfAll back) := by
  induction front with
  | nil => rfl
  | cons range rest ih =>
    rw [List.cons_append, rangeOfAll_cons, rangeOfAll_cons, ih, KeyRange.intersect_assoc]

/-- The order of the ranges does not matter. -/
theorem rangeOfAll_perm (h : ranges.Perm others) : rangeOfAll ranges = rangeOfAll others :=
  h.foldl_op_eq

theorem sameKeys_rangeOfAll (h : List.Forall₂ SameKeys ranges others) :
    SameKeys (rangeOfAll ranges) (rangeOfAll others) := by
  induction h with
  | nil => exact .refl _
  | cons hfirst _ ih =>
    rw [rangeOfAll_cons, rangeOfAll_cons]
    exact hfirst.intersect ih

/-! ## Any of some ranges -/

/-- The ranges that hold a key. -/
def live (ranges : List KeyRange) : List KeyRange :=
  ranges.filter fun r => !r.isEmpty

/-- The hull of some ranges, if there are any. -/
def hullOf? (ranges : List KeyRange) : Option KeyRange :=
  (ranges.map some).foldl (Option.merge hull) none

theorem hullOf?_cons (first : KeyRange) (rest : List KeyRange) :
    hullOf? (first :: rest) = some (rest.foldl hull first) := by
  have hfold : ∀ acc : KeyRange,
      (rest.map some).foldl (Option.merge hull) (some acc) = some (rest.foldl hull acc) := by
    induction rest with
    | nil => exact fun _ => rfl
    | cons range rest ih => exact fun acc => ih (acc.hull range)
  exact hfold first

/-- The range of an OR is the hull of the live ranges, and without any the first range. -/
theorem rangeOfAny_eq (ranges : List KeyRange) :
    rangeOfAny ranges = (hullOf? (live ranges)).getD (ranges.head?.getD .unbounded) := by
  unfold rangeOfAny live
  split
  · rename_i first rest hlive
    rw [hlive, hullOf?_cons]
    rfl
  · rename_i hlive
    rw [hlive]
    rfl

theorem hullOf?_perm (h : ranges.Perm others) : hullOf? ranges = hullOf? others :=
  (h.map some).foldl_op_eq

/-- If no range is live, the range of an OR holds no key, unless the OR has no children. -/
theorem isEmpty_rangeOfAny (hlive : live ranges = []) (hne : ranges ≠ []) :
    (rangeOfAny ranges).isEmpty = true := by
  cases ranges with
  | nil => exact absurd rfl hne
  | cons range rest =>
    rw [live, List.filter_eq_nil_iff] at hlive
    rw [rangeOfAny_eq, live, List.filter_eq_nil_iff.mpr hlive]
    show range.isEmpty = true
    simpa using hlive range List.mem_cons_self

/-- Ranges whose live ones have the same hull, and of which both lists or none are empty. -/
theorem sameKeys_of_hullOf? (hhull : hullOf? (live ranges) = hullOf? (live others))
    (hnil : ranges = [] ↔ others = []) : SameKeys (rangeOfAny ranges) (rangeOfAny others) := by
  have hlive : ∀ {ranges : List KeyRange}, hullOf? (live ranges) = none → live ranges = [] := by
    intro ranges h
    cases hranges : live ranges with
    | nil => rfl
    | cons first rest =>
      rw [hranges, hullOf?_cons] at h
      cases h
  cases hsome : hullOf? (live ranges) with
  | some range =>
    rw [rangeOfAny_eq, rangeOfAny_eq, ← hhull, hsome]
    exact .refl range
  | none =>
    by_cases hempty : ranges = []
    · rw [hempty, hnil.mp hempty]
      exact .refl _
    · have hothers : live others = [] := hlive (hhull.symm.trans hsome)
      exact Or.inr ⟨isEmpty_rangeOfAny (hlive hsome) hempty,
        isEmpty_rangeOfAny hothers (fun h => hempty (hnil.mpr h))⟩

/-- The order of the ranges does not matter, or only which of them holds no key. -/
theorem sameKeys_rangeOfAny_of_perm (h : ranges.Perm others) :
    SameKeys (rangeOfAny ranges) (rangeOfAny others) :=
  sameKeys_of_hullOf? (hullOf?_perm (h.filter _)) ⟨fun hnil => (hnil ▸ h).nil_eq.symm,
    fun hnil => (hnil ▸ h).eq_nil⟩

theorem live_eq_of_sameKeys (h : List.Forall₂ SameKeys ranges others) :
    live ranges = live others := by
  unfold live
  induction h with
  | nil => rfl
  | @cons a b _ _ hfirst _ ih =>
    rw [List.filter_cons, List.filter_cons, ih, hfirst.isEmpty_eq]
    rcases hfirst with rfl | ⟨-, hb⟩
    · rfl
    · rw [hb]
      rfl

theorem sameKeys_rangeOfAny (h : List.Forall₂ SameKeys ranges others) :
    SameKeys (rangeOfAny ranges) (rangeOfAny others) := by
  refine sameKeys_of_hullOf? (by rw [live_eq_of_sameKeys h]) ?_
  rw [← List.length_eq_zero_iff, ← List.length_eq_zero_iff, h.length_eq]

theorem sameKeys_rangeOfAny_singleton (range : KeyRange) :
    SameKeys (rangeOfAny [range]) range := by
  rw [rangeOfAny, List.filter_singleton]
  cases hempty : range.isEmpty with
  | false => exact .refl range
  | true => exact .refl range

end ShardMap

/-! ## Predicates in another shape -/

namespace Predicate

/-- One step to another shape: at the root of a predicate, or within one of its children. -/
inductive Reshapes : Predicate → Predicate → Prop
  /-- The children of a join come in another order. -/
  | permute (connective : Connective) {children others : List Predicate}
    (h : children.Perm others) : Reshapes (.join connective children) (.join connective others)
  /-- An AND right within an AND gives its children to it. -/
  | merge (front inner back : List Predicate) :
    Reshapes (.all (front ++ .all inner :: back)) (.all (front ++ inner ++ back))
  /-- A join of one child is that child. -/
  | single (connective : Connective) (child : Predicate) :
    Reshapes (.join connective [child]) child
  | within (connective : Connective) (front back : List Predicate) {child other : Predicate}
    (h : Reshapes child other) :
    Reshapes (.join connective (front ++ child :: back)) (.join connective (front ++ other :: back))

/-- The same but for the shape: any number of steps, in either direction. -/
def Alike : Predicate → Predicate → Prop :=
  Relation.EqvGen Reshapes

/-- An AND of some predicates, in this order, grouped by ANDs in any way. -/
inductive Groups : Predicate → List Predicate → Prop
  | one (p : Predicate) : Groups p [p]
  | all (parts : List (Predicate × List Predicate)) (h : ∀ part ∈ parts, Groups part.1 part.2) :
    Groups (.all (parts.map Prod.fst)) (parts.flatMap Prod.snd)

namespace Alike

variable {p q r : Predicate}

theorem refl (p : Predicate) : Alike p p := Relation.EqvGen.refl p

theorem symm (h : Alike p q) : Alike q p := Relation.EqvGen.symm p q h

theorem trans (hpq : Alike p q) (hqr : Alike q r) : Alike p r :=
  Relation.EqvGen.trans p q r hpq hqr

theorem of_reshapes (h : Reshapes p q) : Alike p q := Relation.EqvGen.rel p q h

/-- A child may be replaced by one that is alike. -/
theorem within (connective : Connective) (front back : List Predicate) (h : Alike p q) :
    Alike (.join connective (front ++ p :: back)) (.join connective (front ++ q :: back)) := by
  induction h with
  | rel p q h => exact of_reshapes (.within connective front back h)
  | refl p => exact refl _
  | symm p q _ ih => exact ih.symm
  | trans p q r _ _ ihpq ihqr => exact ihpq.trans ihqr

/-- A grouped AND is alike to the plain one. -/
theorem of_groups {given : List Predicate} (h : q.Groups given) : Alike q (.all given) := by
  induction h with
  | one p => exact (of_reshapes (.single .and p)).symm
  | all parts hgroups ih =>
    clear hgroups
    -- The parts are replaced from the left, behind the predicates of those that are done.
    have hparts : ∀ front : List Predicate,
        Alike (.all (front ++ parts.map Prod.fst)) (.all (front ++ parts.flatMap Prod.snd)) := by
      induction parts with
      | nil => exact fun _ => refl _
      | cons part rest ihrest =>
        intro front
        rw [List.forall_mem_cons] at ih
        have hrest := ihrest ih.2 (front ++ part.2)
        rw [List.map_cons, List.flatMap_cons, ← List.append_assoc]
        exact ((within .and front (rest.map Prod.fst) ih.1).trans
          (of_reshapes (.merge front part.2 (rest.map Prod.fst)))).trans hrest
    exact hparts []

/-- One predicate added to another one is their AND. -/
theorem andAlso (p q : Predicate) : Alike (p.andAlso q) (.all [p, q]) := by
  have hmerge : ∀ children, Alike (.all (children ++ [q])) (.all [.all children, q]) :=
    fun children => (of_reshapes (.merge [] children [q])).symm
  cases p with
  | compare column op value => exact refl _
  | join connective children =>
    cases connective with
    | and => exact hmerge children
    | or => exact refl _

/-- Predicates added one after the other are the AND of all. -/
theorem foldl_andAlso (p : Predicate) (added : List Predicate) :
    Alike (added.foldl Predicate.andAlso p) (.all (p :: added)) := by
  induction added generalizing p with
  | nil => exact (of_reshapes (.single .and p)).symm
  | cons q rest ih =>
    have hfirst : Alike (.all (p.andAlso q :: rest)) (.all (.all [p, q] :: rest)) :=
      within .and [] rest (andAlso p q)
    exact ((ih (p.andAlso q)).trans hfirst).trans (of_reshapes (.merge [] [p, q] rest))

end Alike

/-- Conditions added to one that may be absent. -/
theorem foldl_addTo (p : Predicate) (added : List Predicate) :
    added.foldl (fun existing q => some (addTo existing q)) (some p) =
      some (added.foldl andAlso p) := by
  induction added generalizing p with
  | nil => rfl
  | cons q rest ih => exact ih (p.andAlso q)

end Predicate

/-- Adding conditions to a select adds them to its condition. -/
theorem Select.predicate_foldl_filter (select : Select) (added : List Predicate) :
    (added.foldl Select.filter select).predicate =
      added.foldl (fun existing q => some (Predicate.addTo existing q)) select.predicate := by
  induction added generalizing select with
  | nil => rfl
  | cons q rest ih => exact ih (select.filter q)

/-- Adding conditions to a query adds them to its condition, if the query takes any. -/
theorem Query.predicate_of_foldlM_filter? {query filtered : Query} {added : List Predicate}
    (h : added.foldlM Query.filter? query = some filtered) :
    filtered.predicate =
      added.foldl (fun existing q => some (Predicate.addTo existing q)) query.predicate := by
  induction added generalizing query with
  | nil =>
    cases h
    rfl
  | cons q rest ih =>
    rw [List.foldlM_cons] at h
    cases query with
    | insert insert => cases h
    | select select => exact ih h
    | update update => exact ih h
    | delete delete => exact ih h

open Predicate (Reshapes Alike Groups)

namespace ShardMap

open KeyRange (SameKeys)

variable {m : ShardMap} {p q : Predicate}

theorem deriveRange_all (m : ShardMap) (children : List Predicate) :
    m.deriveRange (.join .and children) = rangeOfAll (children.map m.deriveRange) := by
  rw [deriveRange, deriveRanges_eq_map]

theorem deriveRange_any (m : ShardMap) (children : List Predicate) :
    m.deriveRange (.join .or children) = rangeOfAny (children.map m.deriveRange) := by
  rw [deriveRange, deriveRanges_eq_map]

/-- A step to another shape keeps the range, or both ranges are empty. -/
theorem sameKeys_of_reshapes (h : Reshapes p q) :
    SameKeys (m.deriveRange p) (m.deriveRange q) := by
  induction h with
  | permute connective h =>
    cases connective with
    | and =>
      rw [deriveRange_all, deriveRange_all, rangeOfAll_perm (h.map _)]
      exact .refl _
    | or =>
      rw [deriveRange_any, deriveRange_any]
      exact sameKeys_rangeOfAny_of_perm (h.map _)
  | merge front inner back =>
    -- Both sides cut the ranges in front, within and behind with each other.
    have hmerged : m.deriveRange (.join .and (front ++ .join .and inner :: back)) =
        m.deriveRange (.join .and (front ++ inner ++ back)) := by
      simp only [deriveRange_all, List.map_append, List.map_cons, rangeOfAll_append,
        rangeOfAll_cons, KeyRange.intersect_assoc]
    exact Or.inl hmerged
  | single connective child =>
    cases connective with
    | and =>
      rw [deriveRange_all]
      exact .refl _
    | or =>
      rw [deriveRange_any]
      exact sameKeys_rangeOfAny_singleton _
  | within connective front back _ ih =>
    -- The other children keep their ranges.
    have hsame : ∀ ranges : List KeyRange, List.Forall₂ SameKeys ranges ranges :=
      fun ranges => List.forall₂_same.mpr fun range _ => .refl range
    cases connective with
    | and =>
      rw [deriveRange_all, deriveRange_all, List.map_append, List.map_append]
      exact sameKeys_rangeOfAll (List.rel_append (hsame _) (.cons ih (hsame _)))
    | or =>
      rw [deriveRange_any, deriveRange_any, List.map_append, List.map_append]
      exact sameKeys_rangeOfAny (List.rel_append (hsame _) (.cons ih (hsame _)))

theorem sameKeys_of_alike (h : Alike p q) : SameKeys (m.deriveRange p) (m.deriveRange q) := by
  induction h with
  | rel p q h => exact sameKeys_of_reshapes h
  | refl p => exact .refl _
  | symm p q _ ih => exact ih.symm
  | trans p q r _ _ ihpq ihqr => exact ihpq.trans ihqr

/-- Ranges that are equal or both empty meet the same shards. -/
theorem chooseShards_eq {a b : KeyRange} (h : SameKeys a b) :
    m.chooseShards a = m.chooseShards b := by
  rcases h with rfl | ⟨ha, hb⟩
  · rfl
  · rw [chooseShards, chooseShards, if_pos ha, if_pos hb]

theorem routeByPredicate_eq_of_alike (h : Alike p q) :
    m.routeByPredicate (some p) = m.routeByPredicate (some q) :=
  chooseShards_eq (sameKeys_of_alike h)

/-- Every shard is routed to by an AND of nothing. -/
theorem routeByPredicate_all_nil (m : ShardMap) :
    m.routeByPredicate (some (.all [])) = m.shardIds := by
  have hmeets : ∀ s ∈ m.shards, s.range.intersects .unbounded = true := by
    intro s _
    obtain ⟨lo, hi⟩ := s.range
    cases lo <;> cases hi <;> rfl
  show (m.shards.filter fun s => s.range.intersects .unbounded).map ShardRange.shard = m.shardIds
  rw [List.filter_eq_self.mpr hmeets, shardIds]

/-- The route of conditions added one after the other is that of their AND, however it is put. -/
theorem routeByPredicate_foldl_addTo (existing : Option Predicate) {added given : List Predicate}
    (hgiven : given.Perm (existing.toList ++ added)) (hq : q.Groups given) :
    m.routeByPredicate
        (added.foldl (fun existing q => some (Predicate.addTo existing q)) existing) =
      m.routeByPredicate (some q) := by
  have hall : Alike (.all (existing.toList ++ added)) q :=
    (Alike.of_reshapes (.permute .and hgiven.symm)).trans (Alike.of_groups hq).symm
  rw [← routeByPredicate_eq_of_alike hall]
  cases existing with
  | some p =>
    rw [Predicate.foldl_addTo]
    exact routeByPredicate_eq_of_alike (Alike.foldl_andAlso p added)
  | none =>
    cases added with
    | nil => exact (routeByPredicate_all_nil m).symm
    | cons p rest =>
      rw [List.foldl_cons]
      show m.routeByPredicate (rest.foldl _ (some p)) = _
      rw [Predicate.foldl_addTo]
      exact routeByPredicate_eq_of_alike (Alike.foldl_andAlso p rest)

/--
The route of a predicate does not depend on its shape. Predicates that differ in the order of the
children of joins, in ANDs drawn into ANDs and in joins of one child, at any depth, have the same
shards in the same order. So conditions that are added to a predicate or to a query one after the
other are routed as their AND is, in whichever order and grouping.
-/
theorem route_depends_on_shape (m : ShardMap) :
    (∀ p q : Predicate, p.Alike q →
      m.routeByPredicate (some p) = m.routeByPredicate (some q)) ∧
    (∀ (p q : Predicate) (added given : List Predicate), given.Perm (p :: added) →
      q.Groups given →
      m.routeByPredicate (some (added.foldl Predicate.andAlso p)) =
        m.routeByPredicate (some q)) ∧
    (∀ (select : Select) (q : Predicate) (added given : List Predicate),
      given.Perm (select.predicate.toList ++ added) → q.Groups given →
      m.routeByPredicate (added.foldl Select.filter select).predicate =
        m.routeByPredicate (some q)) ∧
    (∀ (query filtered : Query) (q : Predicate) (added given : List Predicate),
      added.foldlM Query.filter? query = some filtered →
      given.Perm (query.predicate.toList ++ added) → q.Groups given →
      m.routeByPredicate filtered.predicate = m.routeByPredicate (some q)) := by
  refine ⟨?_, ?_, ?_, ?_⟩
  · exact fun p q h => routeByPredicate_eq_of_alike h
  · intro p q added given hgiven hq
    rw [← Predicate.foldl_addTo]
    exact routeByPredicate_foldl_addTo (some p) hgiven hq
  · intro select q added given hgiven hq
    rw [Select.predicate_foldl_filter]
    exact routeByPredicate_foldl_addTo select.predicate hgiven hq
  · intro query filtered q added given hfiltered hgiven hq
    rw [Query.predicate_of_foldlM_filter? hfiltered]
    exact routeByPredicate_foldl_addTo query.predicate hgiven hq

/-- No key is above 70 and below 10. -/
def farApart : Predicate :=
  .all [.compare (.bare "id") .gt (.ofInt 70), .compare (.bare "id") .lt (.ofInt 10)]

/-- No key is 5 and 7. -/
def twoPoints : Predicate :=
  .all [.compare (.bare "id") .eq (.ofInt 5), .compare (.bare "id") .eq (.ofInt 7)]

/-- A condition that most keys meet. -/
def notNegative : Predicate :=
  .compare (.bare "id") .gte (.ofInt 0)

/--
An OR of contradictions is written the other way round, and an AND drawn into another one. The
derived intervals differ, and both are empty. And conditions added to a select are routed as an AND
that groups them in another order.
-/
theorem route_depends_on_shape_contradictions :
    (Predicate.all [.any [farApart, twoPoints], .all [notNegative]]).Alike
        (.all [.any [twoPoints, farApart], notNegative]) ∧
      overlapping.deriveRange (.all [.any [farApart, twoPoints], .all [notNegative]]) ≠
        overlapping.deriveRange (.all [.any [twoPoints, farApart], notNegative]) ∧
      overlapping.routeByPredicate (some (.all [.any [farApart, twoPoints], .all [notNegative]])) =
        overlapping.routeByPredicate (some (.all [.any [twoPoints, farApart], notNegative])) ∧
      (Predicate.all [notNegative, .all [nearSixty]]).Groups [notNegative, nearSixty] ∧
      overlapping.routeByPredicate
          ([nearSixty, notNegative].foldl Select.filter (.all "users")).predicate =
        overlapping.routeByPredicate (some (.all [notNegative, .all [nearSixty]])) := by
  have hfirst : (Predicate.all [.any [farApart, twoPoints], .all [notNegative]]).Alike
      (.all [.any [twoPoints, farApart], .all [notNegative]]) :=
    Alike.within .and [] _ (Alike.of_reshapes (.permute .or (List.Perm.swap _ _ _)))
  have hsecond : (Predicate.all [.any [twoPoints, farApart], .all [notNegative]]).Alike
      (.all [.any [twoPoints, farApart], notNegative]) :=
    Alike.of_reshapes (.merge [.any [twoPoints, farApart]] [notNegative] [])
  have hgroups : (Predicate.all [notNegative, .all [nearSixty]]).Groups [notNegative, nearSixty] :=
    .all [(notNegative, [notNegative]), (.all [nearSixty], [nearSixty])] (by
      rw [List.forall_mem_cons, List.forall_mem_singleton]
      refine ⟨.one _, .all [(nearSixty, [nearSixty])] ?_⟩
      rw [List.forall_mem_singleton]
      exact .one _)
  obtain ⟨hshape, -, hfilter, -⟩ := route_depends_on_shape overlapping
  refine ⟨hfirst.trans hsecond, by decide, hshape _ _ (hfirst.trans hsecond), hgroups, ?_⟩
  exact hfilter (.all "users") _ _ _ (List.Perm.swap _ _ _) hgroups

end ShardMap

end SqlFederation
