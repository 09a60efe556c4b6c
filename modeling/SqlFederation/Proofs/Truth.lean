import SqlFederation.Query.Basic
import SqlFederation.Storage.Evaluation

/-!
# The truth of predicates

A predicate is evaluated in three-valued logic once the truth of its comparisons is known: AND and
OR are those of the database (`Storage.Cell.both`, `Storage.Cell.either`), an AND without children
is true and an OR without children is false. `truth_all` and `truth_any` say when a join is true,
and `truth_retarget` that a table may be renamed in a predicate whose comparisons do not look at
the table's name. Proofs about predicates go by `Predicate.induct`, which gives a join the claim
for each of its children.
-/

namespace SqlFederation

open Storage (Cell)

namespace Predicate

/-- The truth of every comparison; none is unknown. -/
abbrev Valuation := ColumnRef → Comparator → Json → Option Bool

/-- The truth of an AND of some truths. -/
def allTrue (truths : List (Option Bool)) : Option Bool :=
  truths.foldr Cell.both (some true)

/-- The truth of an OR of some truths. -/
def anyTrue (truths : List (Option Bool)) : Option Bool :=
  truths.foldr Cell.either (some false)

mutual

/-- The truth of a predicate under the truth of its comparisons. -/
def truth (valuation : Valuation) : Predicate → Option Bool
  | .compare column op value => valuation column op value
  | .join .and children => allTrue (truths valuation children)
  | .join .or children => anyTrue (truths valuation children)

/-- The truth of every predicate of a list. -/
def truths (valuation : Valuation) : List Predicate → List (Option Bool)
  | [] => []
  | child :: rest => truth valuation child :: truths valuation rest

end

/-- Induction on predicates: a claim about comparisons, and about a join from its children. -/
@[elab_as_elim]
theorem induct {motive : Predicate → Prop}
    (compare : ∀ column op value, motive (.compare column op value))
    (join : ∀ connective children, (∀ child ∈ children, motive child) →
      motive (.join connective children)) : ∀ p, motive p
  | .compare column op value => compare column op value
  | .join connective children =>
    join connective children fun child _ => induct compare join child

theorem truths_eq_map (valuation : Valuation) (children : List Predicate) :
    truths valuation children = children.map (truth valuation) := by
  induction children with
  | nil => rfl
  | cons child rest ih => rw [truths, ih, List.map_cons]

/-- An AND of two truths is true when both are. -/
theorem both_eq_true {a b : Option Bool} :
    Cell.both a b = some true ↔ a = some true ∧ b = some true := by
  rcases a with _ | _ | _ <;> rcases b with _ | _ | _ <;> decide

/-- An OR of two truths is true when one of them is. -/
theorem either_eq_true {a b : Option Bool} :
    Cell.either a b = some true ↔ a = some true ∨ b = some true := by
  rcases a with _ | _ | _ <;> rcases b with _ | _ | _ <;> decide

/-- An AND of truths is true when all of them are. -/
theorem allTrue_eq_true {truths : List (Option Bool)} :
    allTrue truths = some true ↔ ∀ t ∈ truths, t = some true := by
  unfold allTrue
  induction truths with
  | nil => simp
  | cons t rest ih => rw [List.foldr_cons, both_eq_true, ih, List.forall_mem_cons]

/-- An OR of truths is true when one of them is. -/
theorem anyTrue_eq_true {truths : List (Option Bool)} :
    anyTrue truths = some true ↔ ∃ t ∈ truths, t = some true := by
  unfold anyTrue
  induction truths with
  | nil => simp
  | cons t rest ih =>
    rw [List.foldr_cons, either_eq_true, ih]
    simp only [List.mem_cons, exists_eq_or_imp]

/-- A predicate of AND is true when all of its children are. -/
theorem truth_all {valuation : Valuation} {children : List Predicate} :
    truth valuation (.join .and children) = some true ↔
      ∀ child ∈ children, truth valuation child = some true := by
  rw [truth, truths_eq_map, allTrue_eq_true, List.forall_mem_map]

/-- A predicate of OR is true when one of its children is. -/
theorem truth_any {valuation : Valuation} {children : List Predicate} :
    truth valuation (.join .or children) = some true ↔
      ∃ child ∈ children, truth valuation child = some true := by
  rw [truth, truths_eq_map, anyTrue_eq_true]
  constructor
  · rintro ⟨t, ht, rfl⟩
    exact List.mem_map.mp ht
  · rintro ⟨child, hchild, htrue⟩
    exact ⟨some true, List.mem_map.mpr ⟨child, hchild, htrue⟩, rfl⟩

/-- Renaming a table keeps the truth when no comparison depends on the table's name. -/
theorem truth_retarget {valuation : Valuation} {source target : String}
    (hname : ∀ column op value,
      valuation (ColumnRef.retarget column source target) op value = valuation column op value)
    (p : Predicate) : truth valuation (p.retarget source target) = truth valuation p := by
  induction p using induct with
  | compare column op value => rw [retarget, truth, truth, hname]
  | join connective children ih =>
    have hmap : (children.map (retarget source target)).map (truth valuation) =
        children.map (truth valuation) := by
      rw [List.map_map]
      exact List.map_congr_left ih
    cases connective with
    | and => rw [retarget, retargetAll_eq_map, truth, truth, truths_eq_map, hmap, truths_eq_map]
    | or => rw [retarget, retargetAll_eq_map, truth, truth, truths_eq_map, hmap, truths_eq_map]

end Predicate

end SqlFederation
