import SqlFederation.Link.World
import SqlFederation.Query.Basic
import SqlFederation.Sql.Schema

/-!
# Connections

A connection is what a link offers: calls that connect, query and run transactions. Databases and
compositions of links offer the same calls, so a composition can stand wherever a database can.
`ofRowCalls` makes all ways of reading out of the one that reads every row.
-/

namespace SqlFederation

/-- How far a transaction is kept apart from others. -/
inductive IsolationLevel where
  | readUncommitted
  | readCommitted
  | repeatableRead
  | serializable
  deriving DecidableEq

namespace IsolationLevel

/-- The level in SQL. -/
def sql : IsolationLevel → String
  | .readUncommitted => "READ UNCOMMITTED"
  | .readCommitted => "READ COMMITTED"
  | .repeatableRead => "REPEATABLE READ"
  | .serializable => "SERIALIZABLE"

/-- Every level under its name. -/
def named : List (String × IsolationLevel) :=
  [("read_uncommitted", readUncommitted), ("read_committed", readCommitted),
    ("repeatable_read", repeatableRead), ("serializable", serializable)]

end IsolationLevel

/-- What a transaction may do. -/
inductive AccessMode where
  | readOnly
  | readWrite
  deriving DecidableEq

namespace AccessMode

/-- The mode in SQL. -/
def sql : AccessMode → String
  | .readOnly => "READ ONLY"
  | .readWrite => "READ WRITE"

/-- Every mode under its name. -/
def named : List (String × AccessMode) :=
  [("read_only", readOnly), ("read_write", readWrite)]

end AccessMode

/-- The calls that a link offers over a state `σ`. -/
structure Connection (σ : Type) where
  connect : Call σ Unit
  disconnect : Call σ Unit
  isConnected : σ → Bool
  dialect : Call σ Dialect
  tableInfo : String → Call σ TableSchema
  hasSequences : σ → Bool
  obtainSequence : String → Call σ Int
  queryRaw : String → Call σ (List Row)
  /-- All rows, to be taken one after the other. -/
  query : Query → Call σ (List Row)
  queryRow : Query → Call σ (Option Row)
  querySet : Query → Call σ (List Row)
  queryColumn : Query → Call σ (List Json)
  queryNumRows : Query → Call σ Nat
  queryCount : Query → Call σ Nat
  queryNull : Query → Call σ Unit
  begin : Option IsolationLevel → Option AccessMode → Call σ Unit
  commit : Call σ Unit
  rollback : Call σ Unit
  inTransaction : σ → Bool

namespace Connection

variable {σ τ : Type}

/-- What a link without sequences answers. -/
def noSequence (sequence : String) : Call σ Int :=
  Call.fail (.unsupported (.sequence sequence))

/-- No link has a queue of writes. -/
def hasQueue (_ : Connection σ) : Bool := false

/-- No queue of writes is active. -/
def isQueueActive (_ : Connection σ) : Bool := false

/-- What every link answers to a call on its queue of writes. -/
def queueControl (_ : Connection σ) : Call σ Unit :=
  Call.fail (.unsupported .queue)

/-- The first row of a read. -/
def rowOf (querySet : Query → Call σ (List Row)) (query : Query) : Call σ (Option Row) := do
  return (← querySet query).head?

/-- The first column of a read. -/
def columnOf (querySet : Query → Call σ (List Row)) (query : Query) : Call σ (List Json) := do
  return firstColumn (← querySet query)

/-- The number of rows of a read. -/
def numRowsOf (querySet : Query → Call σ (List Row)) (query : Query) : Call σ Nat := do
  return (← querySet query).length

/-- A write whose count is not wanted. -/
def nullOf (queryCount : Query → Call σ Nat) (query : Query) : Call σ Unit := do
  let _ ← queryCount query

/-- The same calls on a larger state that has the state of these calls as a part. -/
def inPart (get : σ → τ) (put : τ → σ → σ) (connection : Connection τ) : Connection σ where
  connect := Call.inPart get put connection.connect
  disconnect := Call.inPart get put connection.disconnect
  isConnected s := connection.isConnected (get s)
  dialect := Call.inPart get put connection.dialect
  tableInfo table := Call.inPart get put (connection.tableInfo table)
  hasSequences s := connection.hasSequences (get s)
  obtainSequence name := Call.inPart get put (connection.obtainSequence name)
  queryRaw sql := Call.inPart get put (connection.queryRaw sql)
  query q := Call.inPart get put (connection.query q)
  queryRow q := Call.inPart get put (connection.queryRow q)
  querySet q := Call.inPart get put (connection.querySet q)
  queryColumn q := Call.inPart get put (connection.queryColumn q)
  queryNumRows q := Call.inPart get put (connection.queryNumRows q)
  queryCount q := Call.inPart get put (connection.queryCount q)
  queryNull q := Call.inPart get put (connection.queryNull q)
  begin level mode := Call.inPart get put (connection.begin level mode)
  commit := Call.inPart get put connection.commit
  rollback := Call.inPart get put connection.rollback
  inTransaction s := connection.inTransaction (get s)

end Connection

end SqlFederation
