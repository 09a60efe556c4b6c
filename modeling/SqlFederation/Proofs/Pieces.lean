import Mathlib.Data.List.Induction
import Mathlib.Data.List.Nodup
import Mathlib.Data.List.Perm.Basic

/-!
# Lists in pieces

A list whose elements are each told a place falls into pieces, one for each place, and the pieces
are the list again up to order (`Pieces.flatMap_filter_perm`). Places without elements may be left
out (`Pieces.flatMap_perm_of_subset`).

The first appearances of the elements of a list are those among the first appearances in its pieces
(`Pieces.eraseDups_flatMap`). Proofs about first appearances go from the back, where one more
element either has been seen or comes last.
-/

namespace SqlFederation

namespace Pieces

variable {ι α β : Type}

/-- Some of the places have everything when the other places are empty. -/
theorem flatMap_perm_of_subset {some all : List ι} {piece : ι → List α} (hsome : some.Nodup)
    (hall : all.Nodup) (hsub : ∀ i ∈ some, i ∈ all) (hnone : ∀ i ∈ all, i ∉ some → piece i = []) :
    (some.flatMap piece).Perm (all.flatMap piece) := by
  classical
  have hsplit := List.filter_append_perm (fun i => decide (i ∈ some)) all
  have hinside : (all.filter fun i => decide (i ∈ some)).Perm some := by
    apply (List.perm_ext_iff_of_nodup (hall.filter _) hsome).mpr
    intro i
    rw [List.mem_filter, decide_eq_true_iff]
    exact ⟨And.right, fun hi => ⟨hsub i hi, hi⟩⟩
  have houtside : (all.filter fun i => !decide (i ∈ some)).flatMap piece = [] := by
    rw [List.flatMap_eq_nil_iff]
    intro i hi
    rw [List.mem_filter, Bool.not_eq_true', decide_eq_false_iff_not] at hi
    exact hnone i hi.1 hi.2
  have h := hsplit.flatMap_right piece
  rw [List.flatMap_append, houtside, List.append_nil] at h
  exact (hinside.flatMap_right piece).symm.trans h

/-- The elements of a list, place by place. -/
theorem flatMap_filter_perm [DecidableEq ι] {places : List ι} {place : α → Option ι} {l : List α}
    (hnodup : places.Nodup) (hplace : ∀ a ∈ l, ∃ i ∈ places, place a = some i) :
    (places.flatMap fun i => l.filter fun a => decide (place a = some i)).Perm l := by
  induction l with
  | nil =>
    rw [List.flatMap_eq_nil_iff.mpr (fun i _ => List.filter_nil)]
  | cons a rest ih =>
    obtain ⟨i, hi, hai⟩ := hplace a List.mem_cons_self
    have hrest := ih fun b hb => hplace b (List.mem_cons_of_mem a hb)
    -- The first element alone is in the piece of its place, and in no other.
    have hfirst : (places.flatMap fun j => if place a = some j then [a] else []).Perm [a] := by
      have hone : ∀ j ∈ places, j ∉ [i] → (if place a = some j then [a] else []) = [] := by
        intro j _ hj
        rw [if_neg]
        rw [hai]
        exact fun heq => hj (List.mem_singleton.mpr (Option.some.inj heq).symm)
      have h := flatMap_perm_of_subset (List.nodup_singleton i) hnodup
        (fun j hj => List.mem_singleton.mp hj ▸ hi) hone
      rw [List.flatMap_singleton, if_pos hai] at h
      exact h.symm
    have hcons : ∀ j, (a :: rest).filter (fun b => decide (place b = some j)) =
        (if place a = some j then [a] else []) ++
          rest.filter (fun b => decide (place b = some j)) := by
      intro j
      rw [List.filter_cons]
      by_cases haj : place a = some j
      · simp only [haj, decide_true, if_true, List.singleton_append]
      · simp only [haj, decide_false, Bool.false_eq_true, if_false, List.nil_append]
    simp only [hcons]
    exact (List.flatMap_append_perm places _ _).symm.trans (hfirst.append hrest)

/-! ## First appearances -/

variable [BEq α] [LawfulBEq α] [BEq β] [LawfulBEq β]

/-- An element that was seen before does not appear for the first time. -/
theorem eraseDups_concat_of_mem {l : List α} {a : α} (h : a ∈ l) :
    (l ++ [a]).eraseDups = l.eraseDups := by
  rw [List.eraseDups_append]
  simp [List.removeAll, h]

/-- An element that was not seen before appears last. -/
theorem eraseDups_concat_of_notMem {l : List α} {a : α} (h : a ∉ l) :
    (l ++ [a]).eraseDups = l.eraseDups ++ [a] := by
  rw [List.eraseDups_append]
  simp [List.removeAll, h, List.eraseDups_cons]

/-- Nothing appears for the first time twice. -/
theorem nodup_eraseDups (l : List α) : l.eraseDups.Nodup := by
  induction l using List.reverseRecOn with
  | nil => exact List.nodup_nil
  | append_singleton l a ih =>
    by_cases h : a ∈ l
    · rw [eraseDups_concat_of_mem h]
      exact ih
    · rw [eraseDups_concat_of_notMem h]
      refine List.nodup_append.mpr ⟨ih, List.nodup_singleton a, ?_⟩
      rintro b hb c hc rfl
      rw [List.mem_singleton.mp hc, List.mem_eraseDups] at hb
      exact h hb

/-- A function that tells the elements apart keeps what appears for the first time. -/
theorem eraseDups_map {f : α → β} {l : List α} (hf : ∀ a ∈ l, ∀ b ∈ l, f a = f b → a = b) :
    (l.map f).eraseDups = l.eraseDups.map f := by
  induction l using List.reverseRecOn with
  | nil => rfl
  | append_singleton l a ih =>
    have hl := ih fun b hb c hc => hf b (List.mem_append_left _ hb) c (List.mem_append_left _ hc)
    rw [List.map_append, List.map_singleton]
    by_cases h : a ∈ l
    · rw [eraseDups_concat_of_mem h, eraseDups_concat_of_mem (List.mem_map_of_mem h), hl]
    · have hfresh : f a ∉ l.map f := by
        intro hmem
        obtain ⟨b, hb, heq⟩ := List.mem_map.mp hmem
        have hba := hf b (List.mem_append_left _ hb) a
          (List.mem_append_right _ (List.mem_singleton_self a)) heq
        exact h (hba ▸ hb)
      rw [eraseDups_concat_of_notMem h, eraseDups_concat_of_notMem hfresh, hl, List.map_append,
        List.map_singleton]

/-- Behind other elements, too, only first appearances count. -/
theorem eraseDups_append_eraseDups (l m : List α) :
    (l ++ m.eraseDups).eraseDups = (l ++ m).eraseDups := by
  induction m using List.reverseRecOn with
  | nil => rfl
  | append_singleton m a ih =>
    rw [← List.append_assoc]
    by_cases hm : a ∈ m
    · rw [eraseDups_concat_of_mem hm, eraseDups_concat_of_mem (List.mem_append_right l hm), ih]
    · rw [eraseDups_concat_of_notMem hm, ← List.append_assoc]
      by_cases hl : a ∈ l
      · rw [eraseDups_concat_of_mem (List.mem_append_left _ hl),
          eraseDups_concat_of_mem (List.mem_append_left _ hl), ih]
      · rw [eraseDups_concat_of_notMem, eraseDups_concat_of_notMem, ih]
        · simp [hl, hm]
        · simp [hl, hm]

/-- Before other elements, too, only first appearances count. -/
theorem eraseDups_eraseDups_append (l m : List α) :
    (l.eraseDups ++ m).eraseDups = (l ++ m).eraseDups := by
  induction m using List.reverseRecOn with
  | nil =>
    rw [List.append_nil, List.append_nil]
    exact eraseDups_append_eraseDups [] l
  | append_singleton m a ih =>
    rw [← List.append_assoc, ← List.append_assoc]
    by_cases h : a ∈ l ++ m
    · rw [eraseDups_concat_of_mem h, eraseDups_concat_of_mem, ih]
      simpa using h
    · rw [eraseDups_concat_of_notMem h, eraseDups_concat_of_notMem, ih]
      simpa using h

/-- The first appearances in some pieces, among all of which only first appearances count. -/
theorem eraseDups_flatMap (pieces : List (List α)) :
    (pieces.flatMap List.eraseDups).eraseDups = pieces.flatten.eraseDups := by
  induction pieces with
  | nil => rfl
  | cons piece rest ih =>
    rw [List.flatMap_cons, List.flatten_cons, eraseDups_eraseDups_append,
      ← eraseDups_append_eraseDups, ih, eraseDups_append_eraseDups]

end Pieces

end SqlFederation
