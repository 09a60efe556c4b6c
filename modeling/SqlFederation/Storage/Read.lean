import SqlFederation.Row
import SqlFederation.Storage.Relation

/-!
# Readings

The relation that a reading gives. All names are looked up before any row is read. Rows that satisfy
the condition are grouped if the reading asks for groups or for values of whole rows, then each row
or group becomes a row of the result, and the result is sorted and cut to its page.
-/

namespace SqlFederation

namespace Storage

/-- A column of a result with its name. -/
structure Output where
  name : String
  term : Term Place

/-- What rows are sorted by, over places. -/
structure SortBy where
  term : Term Place
  descending : Bool
  nullsFirst : Bool

/-- A group: its rows, and the row in which plain columns are read. -/
structure Group where
  rows : List (List Cell)
  shown : List Cell

namespace Group

/-- A group of one row. -/
def single (row : List Cell) : Group := ⟨[row], row⟩

/-- Does the row of a cell become the one that is shown, given the best cell so far? -/
def isShown (function : GroupFunction) (best : Option Cell) (cell : Cell) : Bool :=
  match best with
  | none => true
  | some b => !cell.isNull && function.improves cell b

/-- The row where the best cell stands; as long as all cells are null it is the latest one. -/
def bestRow (function : GroupFunction) (cells : List (Cell × List Cell)) : List Cell :=
  (cells.foldl
    (fun (best, shown) (cell, row) =>
      if isShown function best cell then
        (if cell.isNull then best else some cell, row)
      else
        (best, shown))
    ((none : Option Cell), ([] : List Cell))).2

end Group

namespace Term

/-- The last call of the least or the greatest cell in a term. -/
def extremeCall? : Term Place → Option (GroupFunction × Term Place)
  | .literal _ | .parameter _ | .column _ | .callAll .. => none
  | .compare _ a b | .and a b | .or a b | .like a b =>
    match extremeCall? b with
    | some found => some found
    | none => extremeCall? a
  | .not a | .isNull a | .negate a => extremeCall? a
  | .call function _ argument =>
    match GroupFunction.ofName? function with
    | some .least => some (.least, argument)
    | some .greatest => some (.greatest, argument)
    | _ => extremeCall? argument

end Term

/-- A reading over one relation, with every name looked up. -/
structure Plan where
  outputs : List Output
  condition : Option (Term Place)
  groups : List (Term Place)
  order : List SortBy
  skip : Nat
  take : Option Nat

namespace Plan

/-- The terms of a result and of its order. -/
def shownTerms (plan : Plan) : List (Term Place) :=
  plan.outputs.map Output.term ++ plan.order.map SortBy.term

/-- Does the reading give groups? -/
def isGrouped (plan : Plan) : Bool :=
  !plan.groups.isEmpty || plan.shownTerms.any fun term => term.groupCall?.isSome

/-- Refuses values of whole rows where single rows are meant. -/
def checkGroups (plan : Plan) : Except Fault Unit :=
  if plan.groups.any fun term => term.groupCall?.isSome then
    .error .aggregateInGroup
  else
    match plan.condition.bind Term.groupCall? with
    | some (function, start) => .error (.misplacedAggregate function start)
    | none => .ok ()

/-- The row of a group in which plain columns are read. -/
def shownRow (plan : Plan) (params : List Cell) (rows : List (List Cell)) : List Cell :=
  match (plan.shownTerms.filterMap Term.extremeCall?).getLast? with
  | some (function, argument) =>
    Group.bestRow function (rows.map fun row => (argument.valueIn params row, row))
  | none => rows.headD []

/-- The order of two lists of cells. -/
def compareKeys : List Cell → List Cell → Ordering
  | a :: as, b :: bs => (a.order b).then (compareKeys as bs)
  | [], [] => .eq
  | [], _ :: _ => .lt
  | _ :: _, [] => .gt

/-- Parts of a sorted list with equal keys. -/
def equalRuns : List (List Cell × List Cell) → List (List Cell × List (List Cell))
  | [] => []
  | (key, row) :: rest =>
    match equalRuns rest with
    | [] => [(key, [row])]
    | (other, rows) :: runs =>
      if (compareKeys key other).isEq then (key, row :: rows) :: runs
      else (key, [row]) :: (other, rows) :: runs

/-- The groups of rows, sorted by their keys; without keys all rows are one group. -/
def groupsOf (plan : Plan) (params : List Cell) (rows : List (List Cell)) : List Group :=
  let parts := match plan.groups with
    | [] => [rows]
    | keys =>
      let keyed := rows.map fun row => (keys.map (Term.valueIn params row), row)
      let sorted := keyed.mergeSort fun a b => (compareKeys a.1 b.1).isLE
      (equalRuns sorted).map Prod.snd
  parts.map fun rows => ⟨rows, plan.shownRow params rows⟩

/-- Does the condition hold in a row? -/
def accepts (plan : Plan) (params : List Cell) (row : List Cell) : Bool :=
  match plan.condition with
  | some condition => (condition.valueIn params row).truth? == some true
  | none => true

/-- The order of two cells in one sort key. -/
def compareCells (key : SortBy) (a b : Cell) : Ordering :=
  if a.isNull && b.isNull then .eq
  else if a.isNull then (if key.nullsFirst then .lt else .gt)
  else if b.isNull then (if key.nullsFirst then .gt else .lt)
  else if key.descending then (a.order b).swap
  else a.order b

/-- The order of two rows of sort keys. -/
def compareSorted : List SortBy → List Cell → List Cell → Ordering
  | key :: keys, a :: as, b :: bs => (compareCells key a b).then (compareSorted keys as bs)
  | _, _, _ => .eq

/-- The rows of a page. -/
def page (plan : Plan) (rows : List (List Cell)) : List (List Cell) :=
  let rows := rows.drop plan.skip
  match plan.take with
  | some count => rows.take count
  | none => rows

/-- The row of the result for a group, with its sort keys. -/
def rowFor (plan : Plan) (params : List Cell) (group : Group) :
    Except Fault (List Cell × List Cell) := do
  let value := Term.valueFor params group.rows group.shown
  let row ← plan.outputs.mapM fun output => value output.term
  let keys ← plan.order.mapM fun key => value key.term
  .ok (keys, row)

/-- The rows of the result. -/
def rows (plan : Plan) (params : List Cell) (source : List (List Cell)) :
    Except Fault (List (List Cell)) := do
  let accepted := source.filter (plan.accepts params)
  let groups := if plan.isGrouped then plan.groupsOf params accepted else accepted.map Group.single
  let keyed ← groups.mapM (plan.rowFor params)
  let sorted := keyed.mergeSort fun a b => (compareSorted plan.order a.1 b.1).isLE
  .ok (plan.page (sorted.map Prod.snd))

end Plan

namespace Reading

/-- The columns of a result. -/
def outputs (source : Relation) : List ResultColumn → Except Fault (List Output)
  | [] => .ok []
  | .all :: rest => do
    let rest ← outputs source rest
    if source.headings.isEmpty then
      .error .noTables
    else
      let all := source.headings.zipIdx.map fun (heading, position) =>
        ⟨heading.name, .column ⟨position, heading.affinity⟩⟩
      .ok (all ++ rest)
  | .term term label text :: rest => do
    let resolved ← source.resolve [] term
    let rest ← outputs source rest
    let name := match label, resolved with
      | some label, _ => label
      | none, .column place => source.nameAt place
      | none, _ => text
    .ok (⟨name, resolved⟩ :: rest)

/-- The names that a result gives to its columns. -/
def aliases : List ResultColumn → List Output → List Alias
  | .term _ (some label) _ :: columns, output :: outputs =>
    ⟨label, output.term, false⟩ :: aliases columns outputs
  | .term .. :: columns, _ :: outputs => aliases columns outputs
  | _, _ => []

/-- A sort key; a name that the result gives to a column comes first. -/
def sortBy (source : Relation) (aliases : List Alias) (key : SortTerm) : Except Fault SortBy := do
  let own := match key.term with
    | .column ⟨none, name, _, _⟩ => Relation.aliased? aliases name
    | _ => none
  match own with
  | some entry => .ok ⟨entry.term, key.descending, key.nullsFirst⟩
  | none => .ok ⟨← source.resolve aliases key.term, key.descending, key.nullsFirst⟩

/-- A count of a page; nothing but an integer will do. -/
def countOf (params : List Cell) (term : Term ColumnName) : Except Fault Int := do
  let resolved ← Relation.unit.resolve [] term
  match (resolved.valueIn params []).numeric.integral with
  | .integer value => .ok value
  | _ => .error .wrongKind

/-- How many rows are taken; none stands for all. -/
def takenOf (params : List Cell) (term : Option (Term ColumnName)) : Except Fault (Option Nat) :=
  match term with
  | none => .ok none
  | some term => do
    let count ← countOf params term
    .ok (if count < 0 then none else some count.toNat)

/-- How many rows are skipped. -/
def skippedOf (params : List Cell) (term : Option (Term ColumnName)) : Except Fault Nat :=
  match term with
  | none => .ok 0
  | some term => do
    let count ← countOf params term
    .ok count.toNat

/-- The relation of tuples. -/
def ofTuples (params : List Cell) (rows : List (List (Term ColumnName))) :
    Except Fault Relation := do
  let width := (rows.headD []).length
  let headings := (List.range width).map fun n => ⟨"column" ++ toString (n + 1), none⟩
  let rows ← rows.mapM fun row => row.mapM fun term => do
    let resolved ← Relation.unit.resolve [] term
    .ok (resolved.valueIn params [])
  .ok ⟨none, headings, none, rows⟩

/-- The result of a plan over a relation. -/
def ofPlan (params : List Cell) (source : Relation) (plan : Plan) : Except Fault Relation := do
  let rows ← plan.rows params source.rows
  let headings := plan.outputs.map fun output => ⟨output.name, output.term.affinity?⟩
  .ok ⟨none, headings, none, rows⟩

mutual

/-- The relation that a reading gives. -/
def relation (db : Database) (params : List Cell) : Reading → Except Fault Relation
  | .values rows => ofTuples params rows
  | .select columns source condition groups order limit offset => do
    let source ← sourceOf db params source
    let outputs ← outputs source columns
    let aliases := aliases columns outputs
    let condition ← condition.mapM (source.resolve (aliases.map Alias.forRows))
    let order ← order.mapM (sortBy source aliases)
    let groups ← groups.mapM (source.resolve aliases)
    let plan : Plan := ⟨outputs, condition, groups, order, 0, none⟩
    plan.checkGroups
    let take ← takenOf params limit
    let skip ← skippedOf params offset
    ofPlan params source { plan with skip := skip, take := take }

/-- The relation that a reading takes its rows from. -/
def sourceOf (db : Database) (params : List Cell) : Source → Except Fault Relation
  | .nothing => .ok .unit
  | .table name =>
    match db.table? name with
    | some table => .ok (.ofTable table)
    | none => .error (.unknownTable name)
  | .reading name inner => do
    let inner ← relation db params inner
    .ok { inner with label := name }

end

end Reading

namespace Relation

/--
The rows as they are handed out: a name that occurs twice keeps its first place and last value.
-/
def toRows (relation : Relation) : List Row :=
  relation.rows.map fun row =>
    Row.ofList (relation.headings.zip row |>.map fun (heading, cell) => (heading.name, cell.toJson))

end Relation

end Storage

end SqlFederation
