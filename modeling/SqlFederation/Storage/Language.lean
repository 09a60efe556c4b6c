import SqlFederation.Storage.Database
import SqlFederation.Storage.Fault

/-!
# Statements of a database

What the text of a statement says. Terms are written over the way in which they refer to columns: by
a name (`ColumnName`) as they are read, and by a place in a row after names are looked up. Offsets
are those of the text, for faults that show where they are.
-/

namespace SqlFederation

namespace Storage

/-- How two values are compared. -/
inductive Comparison where
  | eq
  | ne
  | lt
  | le
  | gt
  | ge
  deriving DecidableEq

namespace Comparison

/-- Does the comparison hold between values in this order? -/
def holds (op : Comparison) (order : Ordering) : Bool :=
  match op with
  | .eq => order.isEq
  | .ne => order.isNe
  | .lt => order.isLT
  | .le => order.isLE
  | .gt => order.isGT
  | .ge => order.isGE

end Comparison

/-- A column by its name, with the name of its table in front if that is given. -/
structure ColumnName where
  table : Option String
  name : String
  /-- Is it a name in double quotes? Without a column of its name it is a text then. -/
  quoted : Bool
  /-- Where the name starts. -/
  start : Nat

/-- A term over columns that are referred to by an `ρ`. -/
inductive Term (ρ : Type) where
  | literal (value : Cell)
  /-- A bound value, by its number from one on. -/
  | parameter (number : Nat)
  | column (ref : ρ)
  | compare (op : Comparison) (a b : Term ρ)
  | and (a b : Term ρ)
  | or (a b : Term ρ)
  | not (a : Term ρ)
  | isNull (a : Term ρ)
  | like (text pattern : Term ρ)
  | negate (a : Term ρ)
  /-- A function of whole rows. -/
  | callAll (function : String) (start : Nat)
  | call (function : String) (start : Nat) (argument : Term ρ)

namespace Term

variable {ρ σ : Type}

/-- Replaces every column by a term, or fails. -/
def replaceColumns (f : ρ → Except Fault (Term σ)) : Term ρ → Except Fault (Term σ)
  | .literal value => .ok (.literal value)
  | .parameter number => .ok (.parameter number)
  | .column ref => f ref
  | .compare op a b => do
    let a ← replaceColumns f a
    let b ← replaceColumns f b
    .ok (.compare op a b)
  | .and a b => do
    let a ← replaceColumns f a
    let b ← replaceColumns f b
    .ok (.and a b)
  | .or a b => do
    let a ← replaceColumns f a
    let b ← replaceColumns f b
    .ok (.or a b)
  | .not a => do .ok (.not (← replaceColumns f a))
  | .isNull a => do .ok (.isNull (← replaceColumns f a))
  | .like text pattern => do
    let text ← replaceColumns f text
    let pattern ← replaceColumns f pattern
    .ok (.like text pattern)
  | .negate a => do .ok (.negate (← replaceColumns f a))
  | .callAll function start => .ok (.callAll function start)
  | .call function start argument => do
    .ok (.call function start (← replaceColumns f argument))

/--
How many terms are inside each other at most; a column by its table is two, and the test for
something else than null is one.
-/
def depth : Term ColumnName → Nat
  | .literal _ | .parameter _ | .callAll .. => 1
  | .column name => if name.table.isSome then 2 else 1
  | .compare _ a b | .and a b | .or a b | .like a b => max (depth a) (depth b) + 1
  | .not (.isNull a) | .not a | .isNull a | .negate a | .call _ _ a => depth a + 1

end Term

/-- One column of a result. -/
inductive ResultColumn where
  /-- All columns of the source. -/
  | all
  /-- A term with its name, if it is given one, and its text. -/
  | term (term : Term ColumnName) (label : Option String) (text : String)

/-- What rows are sorted by. -/
structure SortTerm where
  term : Term ColumnName
  descending : Bool
  nullsFirst : Bool

mutual

/-- Something that gives rows. -/
inductive Reading where
  | values (rows : List (List (Term ColumnName)))
  | select (columns : List ResultColumn) (source : Source) (condition : Option (Term ColumnName))
    (groups : List (Term ColumnName)) (order : List SortTerm)
    (limit offset : Option (Term ColumnName))

/-- Where a reading takes its rows from. -/
inductive Source where
  /-- From nowhere; there is one row without columns. -/
  | nothing
  | table (name : String)
  /-- From another reading, which may have a name. -/
  | reading (name : Option String) (inner : Reading)

end

/-- A column that points to another table; see `Reference`. -/
structure ReferenceClause where
  table : String
  target : Option String
  deferred : Bool

/-- The key of a table that one column is. -/
structure KeyClause where
  generated : Bool

/-- A column of a table that is to be made. -/
structure ColumnClause where
  name : String
  type : String
  notNull : Bool
  unique : Bool
  key : Option KeyClause
  default : Option (String × Term ColumnName)
  reference : Option ReferenceClause

/-- A constraint on several columns. -/
inductive TableClause where
  | key (columns : List String)
  | unique (columns : List String)

/-- A name as it is written, and where it starts. -/
structure WrittenName where
  name : String
  written : String
  start : Nat

/-- A statement. -/
inductive Action where
  | read (reading : Reading)
  | createTable (name : WrittenName) (ifAbsent : Bool) (columns : List ColumnClause)
    (constraints : List TableClause) (source : String)
  | createIndex (name : WrittenName) (unique ifAbsent : Bool) (table : String)
    (columns : List String)
  | dropTable (name : String) (ifPresent : Bool)
  | insert (table : String) (columns : Option (List String)) (rows : List (List (Term ColumnName)))
  | insertDefaults (table : String)
  | update (table : String) (changes : List (String × Term ColumnName))
    (condition : Option (Term ColumnName))
  | delete (table : String) (condition : Option (Term ColumnName))
  /-- Asks for a setting of the database. -/
  | setting (name : String)

end Storage

end SqlFederation
