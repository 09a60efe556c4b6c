import SqlFederation.Proofs.Sorting
import Mathlib.Data.List.Perm.Basic

/-!
# Blocks out of several arrangements

Elements that an order does not tell apart may be arranged in any way. Who takes elements block by
block, each block out of an arrangement of its own, takes as many as there are, and nothing else
(`Sorting.Blocks.length_eq`, `Sorting.Blocks.forall_mem`). Whether that is each of them once is
decided at the borders between the blocks. If no tie lies across a border, then all arrangements
have the same elements behind it (`Sorting.Arranges.drop_perm`), and so the blocks are the elements
(`Sorting.Blocks.perm_drop`). If a tie lies across a border, then its two elements may change their
places between one block and the next (`Sorting.Arranges.swap`).
-/

namespace SqlFederation

namespace Sorting

variable {α : Type} {le : α → α → Bool} {rows sorted : List α}

/-- Is this an arrangement of some elements in which none is in front of a lesser one? -/
def Arranges (le : α → α → Bool) (rows sorted : List α) : Prop :=
  sorted.Perm rows ∧ sorted.Pairwise fun a b => le a b = true

/-- Does an arrangement have tied elements on the two sides of a border? -/
def Splits (le : α → α → Bool) (rows : List α) (border : Nat) : Prop :=
  ∃ front a b back, border = front.length + 1 ∧ Arranges le rows (front ++ a :: b :: back) ∧
    le b a = true

/-- A border with a tie across it lies inside. -/
theorem Splits.inside {border : Nat} (h : Splits le rows border) :
    0 < border ∧ border < rows.length := by
  obtain ⟨front, a, b, back, rfl, hsorted, -⟩ := h
  have hlength := hsorted.1.length_eq
  rw [List.length_append, List.length_cons, List.length_cons] at hlength
  omega

/-- Tied neighbours may be exchanged. -/
theorem Arranges.swap {front back : List α} {a b : α}
    (h : Arranges le rows (front ++ a :: b :: back)) (htied : le b a = true) :
    Arranges le rows (front ++ b :: a :: back) := by
  obtain ⟨hperm, hsorted⟩ := h
  refine ⟨((List.Perm.swap a b back).append_left front).trans hperm, ?_⟩
  rw [List.pairwise_append, List.pairwise_cons, List.pairwise_cons] at hsorted ⊢
  obtain ⟨hfront, ⟨ha, hb, hback⟩, hcross⟩ := hsorted
  refine ⟨hfront, ⟨?_, fun y hy => ha y (List.mem_cons_of_mem b hy), hback⟩, ?_⟩
  · exact List.forall_mem_cons.mpr ⟨htied, hb⟩
  · exact fun x hx y hy => hcross x hx y ((List.Perm.swap a b back).mem_iff.mp hy)

/-- In sorted elements, those that are not below a given one stand at the end. -/
theorem filter_append_filter (horder : IsOrder le)
    (hsorted : sorted.Pairwise fun a b => le a b = true) (b : α) :
    (sorted.filter fun x => !le b x) ++ sorted.filter (le b) = sorted := by
  induction sorted with
  | nil => rfl
  | cons x rest ih =>
    rw [List.pairwise_cons] at hsorted
    cases hx : le b x with
    | false => simp [hx, ih hsorted.2]
    | true =>
      -- From here on nothing is below the given element.
      have hrest : ∀ y ∈ x :: rest, le b y = true :=
        List.forall_mem_cons.mpr ⟨hx, fun y hy => horder.trans b x y hx (hsorted.1 y hy)⟩
      have hnone : ((x :: rest).filter fun x => !le b x) = [] :=
        List.filter_eq_nil_iff.mpr fun y hy => by simp [hrest y hy]
      rw [hnone, List.filter_eq_self.mpr hrest, List.nil_append]

/-- Where neighbours are not tied, the elements below the second one are those up to the first. -/
theorem length_filter_not (horder : IsOrder le) {front back : List α} {a b : α}
    (hsorted : (front ++ a :: b :: back).Pairwise fun a b => le a b = true)
    (huntied : le b a = false) :
    ((front ++ a :: b :: back).filter fun x => !le b x).length = front.length + 1 := by
  rw [List.pairwise_append, List.pairwise_cons, List.pairwise_cons] at hsorted
  obtain ⟨-, ⟨-, hb, -⟩, hcross⟩ := hsorted
  have hfront : ∀ x ∈ front, (!le b x) = true := by
    intro x hx
    cases hbx : le b x with
    | false => rfl
    | true =>
      rw [horder.trans b x a hbx (hcross x hx a List.mem_cons_self)] at huntied
      cases huntied
  have hself : le b b = true := by simpa using horder.total b b
  have hback : (back.filter fun x => !le b x) = [] :=
    List.filter_eq_nil_iff.mpr fun y hy => by simp [hb y hy]
  rw [List.filter_append, List.filter_eq_self.mpr hfront, List.filter_cons, List.filter_cons,
    hback]
  simp [huntied, hself]

/-- Without a tie across a border, all arrangements have the same elements behind it. -/
theorem Arranges.drop_perm (horder : IsOrder le) {border : Nat} (h : ¬Splits le rows border)
    {one other : List α} (hone : Arranges le rows one) (hother : Arranges le rows other) :
    (one.drop border).Perm (other.drop border) := by
  have hperm : one.Perm other := hone.1.trans hother.1.symm
  obtain rfl | hpos := Nat.eq_zero_or_pos border
  · exact hperm
  rcases Nat.lt_or_ge border one.length with hinside | hbehind
  case inr =>
    rw [List.drop_eq_nil_of_le hbehind, List.drop_eq_nil_of_le (hperm.length_eq ▸ hbehind)]
  -- What stands behind the border is what is not below the first element there.
  obtain ⟨front, a, b, back, hlength, rfl⟩ :
      ∃ front a b back, border = front.length + 1 ∧ one = front ++ a :: b :: back := by
    refine ⟨one.take (border - 1), one[border - 1], one[border], one.drop (border + 1), ?_, ?_⟩
    · rw [List.length_take]
      omega
    · have hnext := List.drop_eq_getElem_cons (show border - 1 < one.length by omega)
      rw [Nat.sub_add_cancel hpos, List.drop_eq_getElem_cons hinside] at hnext
      rw [← hnext, List.take_append_drop]
  have huntied : le b a = false :=
    Bool.eq_false_iff.mpr fun htied => h ⟨front, a, b, back, hlength, hone, htied⟩
  have hbelow := length_filter_not horder hone.2 huntied
  have hdrop : ∀ list : List α, Arranges le rows list →
      list.drop border = list.filter (le b) := by
    intro list hlist
    have hsame : (list.filter fun x => !le b x).length = border := by
      rw [hlength, ← hbelow]
      exact ((hlist.1.trans hone.1.symm).filter _).length_eq
    calc list.drop border
        = ((list.filter fun x => !le b x) ++ list.filter (le b)).drop border := by
          rw [filter_append_filter horder hlist.2]
      _ = list.filter (le b) := List.drop_left' hsame
  rw [hdrop _ hone, hdrop _ hother]
  exact hperm.filter _

/-- One arrangement without a tie across a border shows that there is none in any other. -/
theorem Arranges.not_splits (horder : IsOrder le) {front back : List α} {a b : α}
    (h : Arranges le rows (front ++ a :: b :: back)) (huntied : le b a = false) :
    ¬Splits le rows (front.length + 1) := by
  rintro ⟨other, x, y, rest, hborder, hother, htied⟩
  have hlength : other.length = front.length := (Nat.succ.inj hborder).symm
  -- Up to the border stands what is below the second element here, in the other one as well.
  have hfilter := filter_append_filter horder hother.2 b
  have hbelow : ((other ++ x :: y :: rest).filter fun z => !le b z).length = front.length + 1 := by
    rw [← length_filter_not horder h.2 huntied]
    exact ((hother.1.trans h.1.symm).filter _).length_eq
  have hsplit : (other ++ [x]) ++ (y :: rest) = other ++ x :: y :: rest := by simp
  rw [← hsplit] at hfilter
  rw [← hsplit] at hbelow
  have hends : (other ++ [x]).length = front.length + 1 := by
    rw [List.length_append, hlength, List.length_singleton]
  obtain ⟨hfront, hback⟩ := List.append_inj hfilter (hbelow.trans hends.symm)
  have hx : x ∈ ((other ++ [x]) ++ (y :: rest)).filter fun z => !le b z := by
    rw [hfront]
    simp
  have hy : y ∈ ((other ++ [x]) ++ (y :: rest)).filter (le b) := by
    rw [hback]
    exact List.mem_cons_self
  have hbx : le b x = false := by simpa using (List.mem_filter.mp hx).2
  have hby : le b y = true := (List.mem_filter.mp hy).2
  rw [horder.trans b y x hby htied] at hbx
  cases hbx

/--
Are these the elements from an offset on, block by block? Each block is a wanted one for the place
where it starts.
-/
inductive Blocks (wanted : Nat → List α → Prop) (total size : Nat) : Nat → List α → Prop where
  | done {offset : Nat} : total ≤ offset → Blocks wanted total size offset []
  | step {offset : Nat} {block rest : List α} : offset < total → wanted offset block →
      Blocks wanted total size (offset + size) rest →
      Blocks wanted total size offset (block ++ rest)

/-- Is this the part of an arrangement from an offset on, as many elements as a block holds? -/
def Slice (le : α → α → Bool) (rows : List α) (size offset : Nat) (block : List α) : Prop :=
  ∃ sorted, Arranges le rows sorted ∧ block = (sorted.drop offset).take size

theorem Slice.length_eq {size offset : Nat} {block : List α}
    (h : Slice le rows size offset block) : block.length = min size (rows.length - offset) := by
  obtain ⟨sorted, hsorted, rfl⟩ := h
  rw [List.length_take, List.length_drop, hsorted.1.length_eq]

theorem Slice.mem_of_mem {size offset : Nat} {block : List α}
    (h : Slice le rows size offset block) {a : α} (ha : a ∈ block) : a ∈ rows := by
  obtain ⟨sorted, hsorted, rfl⟩ := h
  exact hsorted.1.mem_iff.mp (List.mem_of_mem_drop (List.mem_of_mem_take ha))

variable {size offset : Nat} {taken : List α}

/-- Blocks are as many elements as there are from the offset on. -/
theorem Blocks.length_eq (h : Blocks (Slice le rows size) rows.length size offset taken) :
    taken.length = rows.length - offset := by
  induction h with
  | done hbehind =>
    rw [List.length_nil]
    omega
  | step _ hblock _ ih =>
    rw [List.length_append, hblock.length_eq, ih]
    omega

/-- What holds of each element of each block holds of all that is taken. -/
theorem Blocks.forall_mem {wanted : Nat → List α → Prop} {total : Nat} {p : α → Prop}
    (h : Blocks wanted total size offset taken)
    (hblocks : ∀ k block, wanted (offset + k * size) block → ∀ a ∈ block, p a) :
    ∀ a ∈ taken, p a := by
  induction h with
  | done _ => exact fun _ ha => absurd ha List.not_mem_nil
  | @step offset block rest _ hblock _ ih =>
    have hlater : ∀ k block, wanted (offset + size + k * size) block → ∀ a ∈ block, p a := by
      intro k block hwanted
      refine hblocks (k + 1) block ?_
      rwa [Nat.succ_mul, Nat.add_comm (k * size), ← Nat.add_assoc]
    refine List.forall_mem_append.mpr ⟨hblocks 0 block ?_, ih hlater⟩
    rwa [Nat.zero_mul, Nat.add_zero]

/-- Blocks out of one arrangement are its elements from the offset on. -/
theorem Blocks.eq_drop (h : Blocks (fun offset block => block = (sorted.drop offset).take size)
    sorted.length size offset taken) : taken = sorted.drop offset := by
  induction h with
  | done hbehind => rw [List.drop_eq_nil_of_le hbehind]
  | step _ hblock _ ih => rw [hblock, ih, ← List.drop_drop, List.take_append_drop]

/-- Without a tie across a border between blocks, the blocks are the elements behind the offset. -/
theorem Blocks.perm_drop (horder : IsOrder le)
    (h : Blocks (Slice le rows size) rows.length size offset taken)
    (hborders : ∀ k, ¬Splits le rows (offset + k * size)) {sorted : List α}
    (hsorted : Arranges le rows sorted) : taken.Perm (sorted.drop offset) := by
  induction h generalizing sorted with
  | done hbehind => rw [List.drop_eq_nil_of_le (hsorted.1.length_eq ▸ hbehind)]
  | @step offset block rest _ hblock _ ih =>
    obtain ⟨other, hother, rfl⟩ := hblock
    have hlater : ∀ k, ¬Splits le rows (offset + size + k * size) := by
      intro k
      have hk := hborders (k + 1)
      rwa [Nat.succ_mul, Nat.add_comm (k * size), ← Nat.add_assoc] at hk
    have hrest := ih hlater hother
    rw [← List.drop_drop] at hrest
    -- The rest continues the arrangement that the block was taken from.
    have hwhole := hrest.append_left ((other.drop offset).take size)
    rw [List.take_append_drop] at hwhole
    have hborder : ¬Splits le rows offset := by simpa using hborders 0
    exact hwhole.trans (hother.drop_perm horder hborder hsorted)

end Sorting

end SqlFederation
