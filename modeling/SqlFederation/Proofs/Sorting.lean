import Mathlib.Data.List.Basic

/-!
# Sorting in pieces

The stable sort of a list in pieces is the merge of the sorted pieces (`Sorting.mergeSort_append`):
putting one more element in front merges it in (`Sorting.mergeSort_cons_eq`), and merging is
associative. The front of a merge depends on the fronts of its sides alone (`Sorting.take_merge`).
Both together give `Sorting.take_mergeSort_flatten`: who wants the first `k` of all elements in
order has them from the first `n` of each piece, for any `n` that is at least `k`, ties included.
Where the order of ties is free, it does not matter either how the pieces and what is merged out of
their fronts were sorted (`Sorting.exists_perm_of_fronts`).
-/

namespace SqlFederation

namespace Sorting

variable {α : Type} {le : α → α → Bool}

/-- An order that `mergeSort` sorts by: any two elements are comparable, and so along chains. -/
structure IsOrder (le : α → α → Bool) : Prop where
  trans : ∀ a b c, le a b = true → le b c = true → le a c = true
  total : ∀ a b, (le a b || le b a) = true

namespace IsOrder

/-- What is not below is above. -/
theorem le_of_not_le (h : IsOrder le) {a b : α} (hab : ¬le a b = true) : le b a = true := by
  have htotal := h.total a b
  rw [Bool.or_eq_true] at htotal
  exact htotal.resolve_left hab

/-- Merging is associative, and equal elements come in the order of the sides. -/
theorem merge_assoc (h : IsOrder le) (xs ys zs : List α) :
    List.merge (List.merge xs ys le) zs le = List.merge xs (List.merge ys zs le) le := by
  induction xs generalizing ys zs with
  | nil => rw [List.nil_merge, List.nil_merge]
  | cons x xs ihx =>
    induction ys generalizing zs with
    | nil => rw [List.merge_right, List.nil_merge]
    | cons y ys ihy =>
      induction zs with
      | nil => rw [List.merge_right, List.merge_right]
      | cons z zs ihz =>
        -- The least of the three heads comes first on both sides.
        by_cases hxy : le x y = true
        · rw [List.cons_merge_cons_pos _ _ _ hxy]
          by_cases hyz : le y z = true
          · rw [List.cons_merge_cons_pos _ _ _ (h.trans x y z hxy hyz),
              List.cons_merge_cons_pos _ _ _ hyz, List.cons_merge_cons_pos _ _ _ hxy, ihx,
              List.cons_merge_cons_pos _ _ _ hyz]
          · rw [List.cons_merge_cons_neg _ ys zs hyz]
            by_cases hxz : le x z = true
            · rw [List.cons_merge_cons_pos _ _ _ hxz, List.cons_merge_cons_pos _ _ _ hxz, ihx,
                List.cons_merge_cons_neg _ _ _ hyz]
            · rw [List.cons_merge_cons_neg _ _ _ hxz, List.cons_merge_cons_neg _ _ _ hxz, ← ihz,
                List.cons_merge_cons_pos _ _ _ hxy]
        · rw [List.cons_merge_cons_neg _ _ _ hxy]
          by_cases hyz : le y z = true
          · rw [List.cons_merge_cons_pos _ _ _ hyz, List.cons_merge_cons_pos _ _ _ hyz,
              List.cons_merge_cons_neg _ _ _ hxy, ihy]
          · have hxz : ¬le x z = true := fun hxz => hxy (h.trans x z y hxz (h.le_of_not_le hyz))
            rw [List.cons_merge_cons_neg _ _ _ hyz, List.cons_merge_cons_neg _ _ _ hyz,
              List.cons_merge_cons_neg _ _ _ hxz, ← ihz, List.cons_merge_cons_neg _ _ _ hxy]

/-- Sorting with one more element in front merges that element into the sorted rest. -/
theorem mergeSort_cons_eq (h : IsOrder le) (a : α) (l : List α) :
    (a :: l).mergeSort le = List.merge [a] (l.mergeSort le) le := by
  obtain ⟨front, back, hcons, hrest, hfront⟩ := List.mergeSort_cons h.trans h.total a l
  have hsorted := List.pairwise_mergeSort h.trans h.total (a :: l)
  rw [hcons, List.pairwise_append] at hsorted
  have hback := (List.pairwise_cons.mp hsorted.2.1).1
  rw [hcons, hrest]
  -- The element passes over exactly what is below it.
  clear hcons hrest hsorted
  induction front with
  | nil =>
    cases back with
    | nil => rw [List.nil_append, List.append_nil, List.merge_right]
    | cons b back =>
      rw [List.nil_append, List.nil_append,
        List.cons_merge_cons_pos _ _ _ (hback b List.mem_cons_self), List.nil_merge]
  | cons b front ih =>
    have hb : ¬le a b = true := by simpa using hfront b List.mem_cons_self
    rw [List.cons_append, List.cons_append, List.cons_merge_cons_neg _ _ _ hb,
      ih fun c hc => hfront c (List.mem_cons_of_mem b hc)]

/-- The sorted pieces of a list, merged, are the sorted list. -/
theorem mergeSort_append (h : IsOrder le) (xs ys : List α) :
    (xs ++ ys).mergeSort le = List.merge (xs.mergeSort le) (ys.mergeSort le) le := by
  induction xs with
  | nil => rw [List.nil_append, List.mergeSort_nil, List.nil_merge]
  | cons x xs ih =>
    rw [List.cons_append, h.mergeSort_cons_eq, ih, ← h.merge_assoc, ← h.mergeSort_cons_eq]

/-- The front of a sorted list is sorted. -/
theorem mergeSort_take (h : IsOrder le) (n : Nat) (xs : List α) :
    ((xs.mergeSort le).take n).mergeSort le = (xs.mergeSort le).take n := by
  apply List.mergeSort_of_pairwise
  exact (List.pairwise_mergeSort h.trans h.total xs).sublist (List.take_sublist n _)

end IsOrder

/-- The first of a merge are among the first of its sides. -/
theorem take_merge {k n m : Nat} (hn : k ≤ n) (hm : k ≤ m) (xs ys : List α) :
    (List.merge (xs.take n) (ys.take m) le).take k = (List.merge xs ys le).take k := by
  induction k generalizing xs ys n m with
  | zero => rw [List.take_zero, List.take_zero]
  | succ k ih =>
    cases n with
    | zero => omega
    | succ n =>
      cases m with
      | zero => omega
      | succ m =>
        cases xs with
        | nil =>
          rw [List.take_nil, List.nil_merge, List.nil_merge, List.take_take, Nat.min_eq_left hm]
        | cons x xs =>
          cases ys with
          | nil =>
            rw [List.take_nil, List.merge_right, List.merge_right, List.take_take,
              Nat.min_eq_left hn]
          | cons y ys =>
            -- One side gives its head, and of the other side nothing is taken.
            rw [List.take_succ_cons, List.take_succ_cons]
            by_cases hxy : le x y = true
            · have hrest := @ih n (m + 1) (by omega) (by omega) xs (y :: ys)
              rw [List.take_succ_cons] at hrest
              rw [List.cons_merge_cons_pos _ _ _ hxy, List.cons_merge_cons_pos _ _ _ hxy,
                List.take_succ_cons, List.take_succ_cons, hrest]
            · have hrest := @ih (n + 1) m (by omega) (by omega) (x :: xs) ys
              rw [List.take_succ_cons] at hrest
              rw [List.cons_merge_cons_neg _ _ _ hxy, List.cons_merge_cons_neg _ _ _ hxy,
                List.take_succ_cons, List.take_succ_cons, hrest]

/--
The first of all elements in order, from the first of each piece: what is cut off a sorted piece is
behind as many elements as are wanted.
-/
theorem IsOrder.take_mergeSort_flatten (h : IsOrder le) {k n : Nat} (hk : k ≤ n)
    (pieces : List (List α)) :
    ((pieces.map fun xs => (xs.mergeSort le).take n).flatten.mergeSort le).take k =
      (pieces.flatten.mergeSort le).take k := by
  induction pieces generalizing k with
  | nil => rfl
  | cons xs rest ih =>
    rw [List.map_cons, List.flatten_cons, List.flatten_cons, h.mergeSort_append,
      h.mergeSort_append, h.mergeSort_take]
    generalize hrest : ((rest.map fun xs => (xs.mergeSort le).take n).flatten.mergeSort le) = cut
      at ih ⊢
    -- Only the first `k` of the other pieces matter, and these are known by induction.
    calc (List.merge ((xs.mergeSort le).take n) cut le).take k
        = (List.merge ((xs.mergeSort le).take n) (cut.take k) le).take k := by
          rw [← take_merge hk (Nat.le_refl k) ((xs.mergeSort le).take n) cut, List.take_take,
            Nat.min_self]
      _ = (List.merge ((xs.mergeSort le).take n)
            ((rest.flatten.mergeSort le).take k) le).take k := by
          rw [ih hk]
      _ = (List.merge (xs.mergeSort le) (rest.flatten.mergeSort le) le).take k :=
          take_merge hk (Nat.le_refl k) _ _

/-- Of a sorted list, fewer than `k` elements are strictly below one of the first `k`. -/
theorem IsOrder.countP_lt_of_mem_take (h : IsOrder le) {sorted : List α}
    (hsorted : sorted.Pairwise fun a b => le a b = true) {k : Nat} {a : α}
    (ha : a ∈ sorted.take k) : (sorted.countP fun b => !le a b) < k := by
  obtain ⟨front, back, hsplit⟩ := List.append_of_mem ha
  have hwhole : sorted = front ++ a :: (back ++ sorted.drop k) := by
    rw [← List.cons_append, ← List.append_assoc, ← hsplit, List.take_append_drop]
  have hlength : front.length < k := by
    have htake := congrArg List.length hsplit
    rw [List.length_append, List.length_cons, List.length_take] at htake
    omega
  -- The element and what stands behind it are not below it.
  have hbehind : (a :: (back ++ sorted.drop k)).countP (fun b => !le a b) = 0 := by
    rw [hwhole, List.pairwise_append] at hsorted
    rw [List.countP_eq_zero]
    intro b hb
    have hle : le a b = true := by
      obtain rfl | hb := List.mem_cons.mp hb
      · simpa using h.total b b
      · exact (List.pairwise_cons.mp hsorted.2.1).1 b hb
    rw [hle]
    decide
  rw [hwhole, List.countP_append, hbehind]
  exact Nat.lt_of_le_of_lt List.countP_le_length hlength

/-- The fronts of some pieces and what they leave behind are the elements of the pieces. -/
theorem perm_flatten_take_drop (k : Nat) (pieces : List (List α)) :
    ((pieces.map (List.take k)).flatten ++ (pieces.map (List.drop k)).flatten).Perm
      pieces.flatten := by
  induction pieces with
  | nil => exact List.Perm.refl _
  | cons piece rest ih =>
    have hswap : (piece.take k ++ (rest.map (List.take k)).flatten ++
        (piece.drop k ++ (rest.map (List.drop k)).flatten)).Perm
        (piece ++ ((rest.map (List.take k)).flatten ++ (rest.map (List.drop k)).flatten)) := by
      rw [← List.append_assoc, ← List.append_assoc]
      refine List.Perm.append_right _ ?_
      rw [List.append_assoc]
      refine (List.Perm.append_left _ List.perm_append_comm).trans ?_
      rw [← List.append_assoc, List.take_append_drop]
    exact hswap.trans (ih.append_left piece)

/--
What is merged out of the fronts of sorted pieces starts as all their elements in some order: the
elements that a piece leaves behind are not below any of the first `k`.
-/
theorem IsOrder.exists_perm_of_fronts (h : IsOrder le) (k : Nat) {pieces : List (List α)}
    (hpieces : ∀ piece ∈ pieces, piece.Pairwise fun a b => le a b = true) {merged : List α}
    (hperm : merged.Perm (pieces.map (List.take k)).flatten)
    (hmerged : merged.Pairwise fun a b => le a b = true) :
    ∃ whole : List α, whole.Perm pieces.flatten ∧ (whole.Pairwise fun a b => le a b = true) ∧
      whole.take k = merged.take k := by
  have hsplit : (merged.take k ++ merged.drop k).Pairwise fun a b => le a b = true := by
    rw [List.take_append_drop]
    exact hmerged
  obtain ⟨hfront, -, hcross⟩ := List.pairwise_append.mp hsplit
  have hbehind : ∀ a ∈ merged.take k, ∀ b ∈ (pieces.map (List.drop k)).flatten,
      le a b = true := by
    intro a ha b hb
    obtain ⟨back, hback, hmem⟩ := List.mem_flatten.mp hb
    obtain ⟨piece, hpiece, rfl⟩ := List.mem_map.mp hback
    by_contra hnot
    -- Else the whole front of that piece would be below the first element.
    have hbelow : ∀ c ∈ piece.take k, (!le a c) = true := by
      intro c hc
      rw [Bool.not_eq_true', Bool.eq_false_iff]
      intro hac
      have hsorted := hpieces piece hpiece
      rw [← List.take_append_drop k piece, List.pairwise_append] at hsorted
      exact hnot (h.trans a c b hac (hsorted.2.2 c hc b hmem))
    have hlength : (piece.take k).length = k := by
      have hdrop := List.length_pos_of_mem hmem
      rw [List.length_drop] at hdrop
      rw [List.length_take]
      omega
    have hsublist : (piece.take k).Sublist (pieces.map (List.take k)).flatten :=
      List.sublist_flatten_of_mem (List.mem_map_of_mem hpiece)
    have hcount : (piece.take k).countP (fun c => !le a c) ≤
        (pieces.map (List.take k)).flatten.countP (fun c => !le a c) := hsublist.countP_le
    rw [List.countP_eq_length.mpr hbelow, hlength, ← hperm.countP_eq] at hcount
    exact absurd (h.countP_lt_of_mem_take hmerged ha) (Nat.not_lt_of_le hcount)
  refine ⟨merged.take k ++ (merged.drop k ++ (pieces.map (List.drop k)).flatten).mergeSort le,
    ?_, ?_, ?_⟩
  · refine ((List.mergeSort_perm _ _).append_left _).trans ?_
    rw [← List.append_assoc, List.take_append_drop]
    exact (hperm.append_right _).trans (perm_flatten_take_drop k pieces)
  · refine List.pairwise_append.mpr ⟨hfront, List.pairwise_mergeSort h.trans h.total _, ?_⟩
    intro a ha b hb
    obtain hb | hb := List.mem_append.mp (List.mem_mergeSort.mp hb)
    · exact hcross a ha b hb
    · exact hbehind a ha b hb
  · by_cases hk : k ≤ merged.length
    · rw [List.take_append_of_le_length (by rw [List.length_take]; omega), List.take_take,
        Nat.min_self]
    · -- Fewer than `k` elements are merged, so that no piece leaves any behind.
      have hnone : (pieces.map (List.drop k)).flatten = [] := by
        rw [List.flatten_eq_nil_iff]
        intro back hback
        obtain ⟨piece, hpiece, rfl⟩ := List.mem_map.mp hback
        have hsublist : (piece.take k).Sublist (pieces.map (List.take k)).flatten :=
          List.sublist_flatten_of_mem (List.mem_map_of_mem hpiece)
        have hle := hsublist.length_le
        rw [← hperm.length_eq, List.length_take] at hle
        exact List.drop_eq_nil_of_le (by omega)
      rw [hnone, List.drop_eq_nil_of_le (by omega), List.append_nil, List.mergeSort_nil,
        List.append_nil, List.take_take, Nat.min_self]

end Sorting

end SqlFederation
