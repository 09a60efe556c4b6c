import SqlFederation.Storage.Evaluation

/-!
# Relations

A relation has named columns and rows. Names in terms are looked up in it: a column by its name,
else a column of the result by the name it was given, else a name in double quotes is a text. The
number of a stored row stands behind its columns.
-/

namespace SqlFederation

namespace Storage

/-- The name of a column, and the kind that the column prefers if it is stored. -/
structure Heading where
  name : String
  affinity : Option Affinity

/-- Named columns and rows. -/
structure Relation where
  /-- The name by which terms refer to the relation itself. -/
  label : Option String
  headings : List Heading
  /-- The name of the number of a row, if each row has its number behind its columns. -/
  idName : Option String
  rows : List (List Cell)

/-- A name that a result gives to a column. -/
structure Alias where
  label : String
  term : Term Place
  /-- The column is a value of whole rows where single rows are meant. -/
  isBarred : Bool

namespace Alias

/-- The name where single rows are meant. -/
def forRows (entry : Alias) : Alias :=
  { entry with isBarred := entry.term.groupCall?.isSome }

/-- What the name stands for. -/
def use (entry : Alias) : Except Fault (Term Place) :=
  if entry.isBarred then .error (.aliasedAggregate entry.label) else .ok entry.term

end Alias

namespace Relation

/-- One row without columns. -/
def unit : Relation := ⟨none, [], none, [[]]⟩

/-- A stored table. The number of a row is called by its key column, if it has one. -/
def ofTable (table : Table) : Relation where
  label := some table.name
  headings := table.columns.map fun column => ⟨column.name, some column.affinity⟩
  idName := some ((table.idColumn.map table.columnName).getD "rowid")
  rows := table.rows.map fun row => row.cells ++ [.integer row.id]

/-- Names of the number of a row. -/
def idNames : List String := ["rowid", "_rowid_", "oid"]

/-- The position of the heading with a name, from the given one on. -/
def headingFrom (name : String) : Nat → List Heading → Option Place
  | _, [] => none
  | n, heading :: rest =>
    if Text.sameAscii heading.name name then some ⟨n, heading.affinity⟩
    else headingFrom name (n + 1) rest

/-- The place of the column with a name. -/
def place? (relation : Relation) (name : String) : Option Place :=
  match headingFrom name 0 relation.headings with
  | some place => some place
  | none =>
    if relation.idName.isSome && idNames.any (Text.sameAscii name) then
      some ⟨relation.headings.length, some .integer⟩
    else
      none

/-- The name of the column at a place. -/
def nameAt (relation : Relation) (place : Place) : String :=
  match relation.headings[place.position]? with
  | some heading => heading.name
  | none => relation.idName.getD ""

/-- Is this the name of the relation? -/
def isCalled (relation : Relation) (name : String) : Bool :=
  relation.label.any fun label => Text.sameAscii label name

/-- The result column with the given name. -/
def aliased? (aliases : List Alias) (name : String) : Option Alias :=
  aliases.find? fun entry => Text.sameAscii entry.label name

/-- What a name without a column is: a truth value, a text if it is quoted, or nothing. -/
def fallback (column : ColumnName) : Except Fault (Term Place) :=
  if column.quoted then .ok (.literal (.text column.name))
  else if Text.sameAscii column.name "true" then .ok (.literal (.integer 1))
  else if Text.sameAscii column.name "false" then .ok (.literal (.integer 0))
  else .error (.unknownColumn column.name (some column.start))

/-- What a name of a column stands for. -/
def lookUp (relation : Relation) (aliases : List Alias) (column : ColumnName) :
    Except Fault (Term Place) :=
  match column.table with
  | some label =>
    match if relation.isCalled label then relation.place? column.name else none with
    | some place => .ok (.column place)
    | none => .error (.unknownColumn (label ++ "." ++ column.name) (some column.start))
  | none =>
    match relation.place? column.name with
    | some place => .ok (.column place)
    | none =>
      match aliased? aliases column.name with
      | some entry => entry.use
      | none => fallback column

/-- A term over the places of the relation. -/
def resolve (relation : Relation) (aliases : List Alias) (term : Term ColumnName) :
    Except Fault (Term Place) := do
  let resolved ← term.replaceColumns (relation.lookUp aliases)
  resolved.checkCalls
  .ok resolved

end Relation

end Storage

end SqlFederation
