import SqlFederation.Storage.Define
import SqlFederation.Storage.Parser
import SqlFederation.Storage.Read
import SqlFederation.Storage.Write

/-!
# Running statements

A statement gives rows, or changes the database and says how many rows it touched. References are
checked at the end of the statement, the deferred ones only when no transaction is open. A refused
statement changes nothing.
-/

namespace SqlFederation

namespace Storage

/-- What a statement did. -/
structure Outcome where
  database : Database
  rows : List Row
  /-- How many rows were touched, if rows were to be changed. -/
  touched : Option Nat

/-- Why a text is refused. -/
structure Refusal where
  fault : Fault
  /-- The part of the text that the offsets of the fault count from. -/
  source : String
  /-- The statement was about to change the database by then. -/
  isWriting : Bool
  /-- The statement was counting rows by then. -/
  isCounting : Bool
  deriving DecidableEq

namespace Action

/-- Does an action change the database? -/
def isWriting : Action → Bool
  | .read _ | .setting _ => false
  | _ => true

/-- Does an action count the rows that it removes or changes? -/
def isCounting : Action → Bool
  | .insert .. | .insertDefaults _ | .update .. | .delete .. | .dropTable .. => true
  | _ => false

end Action

namespace Refusal

/-- The wording. -/
def message (refusal : Refusal) : String :=
  refusal.fault.report refusal.source

end Refusal

namespace Database

/-- Ends a change of rows: references around the table have to be kept. -/
def finish (db : Database) (inTransaction : Bool) (change : Change) : Except Fault Outcome :=
  let db := db.replace change.table
  if !db.keepsAround false change.table.name then .error .foreignKey
  else if !inTransaction && !db.keepsAround true change.table.name then .error .foreignKey
  else .ok ⟨db, [], some change.touched⟩

/-- Finds the table that is to be changed. -/
def target (db : Database) (name : String) : Except Fault Table :=
  match db.table? name with
  | some table => .ok table
  | none => .error (.unknownTable name)

/-- The rows of a setting; one that there is not has none. -/
def settingRows (name : String) : List Row :=
  if Text.sameAscii name "user_version" then [Row.ofList [("user_version", .ofNat 0)]] else []

/-- Runs a statement. -/
def perform (db : Database) (inTransaction : Bool) (params : List Cell) (action : Action) :
    Except Fault Outcome :=
  match action with
  | .read reading => do
    let relation ← reading.relation db params
    .ok ⟨db, relation.toRows, none⟩
  | .createTable name ifAbsent columns constraints source => do
    let db ← db.createTable name ifAbsent columns constraints source
    .ok ⟨db, [], none⟩
  | .createIndex name unique ifAbsent table columns => do
    let db ← db.createIndex name unique ifAbsent table columns
    .ok ⟨db, [], none⟩
  | .dropTable name ifPresent => do
    let (db, touched) ← db.dropTable inTransaction name ifPresent
    .ok ⟨db, [], touched⟩
  | .insert name columns rows => do
    let table ← db.target name
    let rows ← table.slottedRows params name columns rows
    db.checkInsert table (rows.length == 1)
    db.finish inTransaction (← table.insertRows rows)
  | .insertDefaults name => do
    let table ← db.target name
    db.checkInsert table true
    db.finish inTransaction (← table.insertRows [[]])
  | .update name changes condition => do
    let table ← db.target name
    let changes ← table.slottedChanges changes
    let condition ← table.resolveCondition condition
    db.checkUpdate table fun position => (changes.map Prod.fst).contains (table.slotAt position)
    db.finish inTransaction (← table.update params changes condition)
  | .delete name condition => do
    let table ← db.target name
    let condition ← table.resolveCondition condition
    db.checkDelete table
    db.finish inTransaction (table.delete params condition)
  | .setting name => .ok ⟨db, settingRows name, none⟩

/-- Runs one statement of a text; nothing at all changes nothing. -/
def runPassage (db : Database) (inTransaction : Bool) (params : List Cell) (passage : Passage) :
    Except Refusal Outcome :=
  let source := String.ofList passage.source
  match passage.action with
  | .error fault => .error ⟨fault, source, false, false⟩
  | .ok none => .ok ⟨db, [], none⟩
  | .ok (some action) =>
    (db.perform inTransaction params action).mapError fun fault =>
      ⟨fault, source, fault.isLate && action.isWriting, fault.isLate && action.isCounting⟩

/-- Runs the first statement of a text with bound values. -/
def runFirst (db : Database) (inTransaction : Bool) (params : List Cell) (text : String) :
    Except Refusal Outcome :=
  match Passage.ofText text with
  | [] => .ok ⟨db, [], none⟩
  | passage :: _ => db.runPassage inTransaction params passage

end Database

end Storage

end SqlFederation
