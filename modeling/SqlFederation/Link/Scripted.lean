import SqlFederation.Link.Connection

/-!
# Scripted endpoints

A scripted endpoint answers from a script and writes down every call. It stands in for a database
when the conduct of compositions is observed.
-/

namespace SqlFederation

namespace Scripted

/-- A call that was written down. -/
inductive Event where
  | connect
  | disconnect
  | tableInfo (table : String)
  | raw (sql : String)
  | set (query : Query)
  | count (query : Query)
  | begin (level : Option IsolationLevel) (mode : Option AccessMode)
  | commit
  | rollback
  | sequence (name : String)

namespace Event

/-- The name of a kind of call. -/
def name : Event → String
  | .connect => "connect"
  | .disconnect => "disconnect"
  | .tableInfo _ => "table_info"
  | .raw _ => "raw"
  | .set _ => "set"
  | .count _ => "count"
  | .begin .. => "begin"
  | .commit => "commit"
  | .rollback => "rollback"
  | .sequence _ => "sequence"

end Event

/-- The script of an endpoint, as far as it is still to be played. -/
structure Script where
  name : String
  rows : List Row
  /-- Answers to reads before `rows`. -/
  replies : List (List Row)
  /-- Answers to writes; the last one repeats. -/
  affected : List Nat
  /-- The kinds of calls that fail, and what they say. -/
  failures : List (String × String)
  /-- The dialect; none if what was given is not one. -/
  dialect : Option Dialect
  /-- The table that every table is like; the inner none stands for one that cannot be read. -/
  schema : Option (Option TableSchema)
  /-- The next value of every sequence. -/
  sequence : Option Int
  connected : Bool
  inTransaction : Bool

/-- Scripted endpoints by number, and what was called, the latest call first. -/
structure Stage where
  scripts : List Script
  events : List (String × Event)

namespace Stage

/-- No endpoints. -/
def empty : Stage := ⟨[], []⟩

/-- Adds an endpoint and gives its number. -/
def add (stage : Stage) (script : Script) : Nat × Stage :=
  (stage.scripts.length, { stage with scripts := stage.scripts ++ [script] })

end Stage

variable {σ α : Type}

/-- Runs a call on the script of an endpoint. -/
def onScript (number : Nat) (f : Script → Except Error α × Script) : Call Stage α :=
  Call.of fun stage =>
    match stage.scripts[number]? with
    | none => (.error .noEndpoints, stage)
    | some script =>
      let (result, script) := f script
      (result, { stage with scripts := stage.scripts.set number script })

/-- Writes a call down; a kind of call that is to fail fails then. -/
def record (number : Nat) (event : Event) : Call Stage Unit :=
  Call.of fun stage =>
    match stage.scripts[number]? with
    | none => (.error .noEndpoints, stage)
    | some script =>
      let stage := { stage with events := (script.name, event) :: stage.events }
      match script.failures.lookup event.name with
      | some text => (.error (.query (.refused text)), stage)
      | none => (.ok (), stage)

/-- Writes a call down, then plays it. -/
def play (number : Nat) (event : Event) (f : Script → Except Error α × Script) : Call Stage α := do
  record number event
  onScript number f

/-- The next answer to a read; a select is cut to its limit. -/
def nextRows (query : Query) (script : Script) : Except Error (List Row) × Script :=
  let (rows, script) := match script.replies with
    | [] => (script.rows, script)
    | reply :: rest => (reply, { script with replies := rest })
  let rows := match query with
    | .select select =>
      match select.limit with
      | some limit => rows.take limit
      | none => rows
    | _ => rows
  (.ok rows, script)

/-- The next answer to a write. -/
def nextAffected (script : Script) : Except Error Nat × Script :=
  match script.affected with
  | [] => (.ok 1, script)
  | [last] => (.ok last, script)
  | n :: rest => (.ok n, { script with affected := rest })

/-- The next value of a sequence. -/
def nextValue (name : String) (script : Script) : Except Error Int × Script :=
  match script.sequence with
  | some value => (.ok value, { script with sequence := some (value + 1) })
  | none => (.error (.unsupported (.sequence name)), script)

/-- The table that a name stands for. -/
def schemaOf (table : String) (script : Script) : Except Error TableSchema :=
  match script.schema with
  | none => .error (.schema (.tableNotFound table))
  | some none => .error .malformed
  | some (some schema) => .ok { schema with name := table }

/-- Something about the script of an endpoint. -/
def peek (number : Nat) (f : Script → Bool) (stage : Stage) : Bool :=
  (stage.scripts[number]?).any f

/-- The calls of an endpoint on a stage. -/
def calls (number : Nat) : Connection Stage :=
  let querySet := fun q => play number (.set q) (nextRows q)
  let queryCount := fun q => play number (.count q) nextAffected
  { connect := play number .connect fun s => (.ok (), { s with connected := true })
    disconnect := play number .disconnect fun s => (.ok (), { s with connected := false })
    isConnected := peek number Script.connected
    dialect := onScript number fun s =>
      match s.dialect with
      | some dialect => (.ok dialect, s)
      | none => (.error .malformed, s)
    tableInfo := fun table => play number (.tableInfo table) fun s => (schemaOf table s, s)
    hasSequences := peek number fun s => s.sequence.isSome
    obtainSequence := fun name => Call.of fun stage =>
      if peek number (fun s => s.sequence.isSome) stage then
        (play number (.sequence name) (nextValue name)).outcome stage
      else
        (Connection.noSequence name).outcome stage
    queryRaw := fun sql => play number (.raw sql) fun s => (.ok s.rows, s)
    query := querySet
    queryRow := Connection.rowOf querySet
    querySet := querySet
    queryColumn := Connection.columnOf querySet
    queryNumRows := Connection.numRowsOf querySet
    queryCount := queryCount
    queryNull := Connection.nullOf queryCount
    begin := fun level mode =>
      play number (.begin level mode) fun s => (.ok (), { s with inTransaction := true })
    commit := play number .commit fun s => (.ok (), { s with inTransaction := false })
    rollback := play number .rollback fun s => (.ok (), { s with inTransaction := false })
    inTransaction := peek number Script.inTransaction }

end Scripted

end SqlFederation
