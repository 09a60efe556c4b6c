import SqlFederation.Json.Basic

/-!
# Predicates

A predicate compares one column with one value, or joins predicates by AND or OR. A column may name
its table; `retarget` renames that table wherever it is named.
-/

namespace SqlFederation

/-- A column, with its table if the table is named. -/
structure ColumnRef where
  table : Option String
  name : String
  deriving DecidableEq, Inhabited

namespace ColumnRef

/-- A column without its table. -/
def bare (name : String) : ColumnRef := ⟨none, name⟩

/-- A column of a named table. -/
def qualified (table name : String) : ColumnRef := ⟨some table, name⟩

/-- The text before the first dot and the text behind it. -/
def splitDot : List Char → Option (List Char × List Char)
  | [] => none
  | '.' :: rest => some ([], rest)
  | c :: rest => (splitDot rest).map fun (before, behind) => (c :: before, behind)

/-- Reads `table.name`, split at the first dot, when neither part is empty; else a bare name. -/
def ofText (text : String) : ColumnRef :=
  match splitDot text.toList with
  | some (t :: table, n :: name) =>
    qualified (String.ofList (t :: table)) (String.ofList (n :: name))
  | _ => bare text

/-- The text of a column, with its table in front if it is named. -/
def text (column : ColumnRef) : String :=
  match column.table with
  | some table => table ++ "." ++ column.name
  | none => column.name

/-- The same column of table `target`, if it names the table `source`. -/
def retarget (column : ColumnRef) (source target : String) : ColumnRef :=
  if column.table = some source then qualified target column.name else column

end ColumnRef

/-- How a column is compared. -/
inductive Comparator where
  | eq
  | ne
  | gt
  | gte
  | lt
  | lte
  | like
  | isNull
  | isNotNull
  deriving DecidableEq

namespace Comparator

/-- The comparator in SQL. -/
def sql : Comparator → String
  | .eq => "="
  | .ne => "!="
  | .gt => ">"
  | .gte => ">="
  | .lt => "<"
  | .lte => "<="
  | .like => "LIKE"
  | .isNull => "IS NULL"
  | .isNotNull => "IS NOT NULL"

/-- Does the comparison look at a value? -/
def needsValue : Comparator → Bool
  | .isNull | .isNotNull => false
  | _ => true

end Comparator

/-- How predicates are joined. -/
inductive Connective where
  | and
  | or
  deriving DecidableEq

namespace Connective

/-- The connective in SQL. -/
def sql : Connective → String
  | .and => "AND"
  | .or => "OR"

end Connective

/-- A condition on rows. -/
inductive Predicate where
  | compare (column : ColumnRef) (op : Comparator) (value : Json)
  | join (connective : Connective) (children : List Predicate)

namespace Predicate

/-- All of the predicates. -/
def all (children : List Predicate) : Predicate := .join .and children

/-- Any of the predicates. -/
def any (children : List Predicate) : Predicate := .join .or children

/-- Both predicates; one that is already an AND takes the other in as its last child. -/
def andAlso (first second : Predicate) : Predicate :=
  match first with
  | .join .and children => .join .and (children ++ [second])
  | first => .join .and [first, second]

/-- A condition added to one that may be absent. -/
def addTo (existing : Option Predicate) (added : Predicate) : Predicate :=
  match existing with
  | some first => first.andAlso added
  | none => added

mutual

/-- The same tree with the table `source` called `target`. -/
def retarget (source target : String) : Predicate → Predicate
  | .compare column op value => .compare (column.retarget source target) op value
  | .join connective children => .join connective (retargetAll source target children)

/-- Renames the table in every tree of a list. -/
def retargetAll (source target : String) : List Predicate → List Predicate
  | [] => []
  | child :: rest => retarget source target child :: retargetAll source target rest

end

theorem retargetAll_eq_map (source target : String) (children : List Predicate) :
    retargetAll source target children = children.map (retarget source target) := by
  induction children with
  | nil => rfl
  | cons child rest ih => simp [retargetAll, ih]

end Predicate

end SqlFederation
