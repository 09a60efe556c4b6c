import SqlFederation.Link.Connection

/-!
# Calls to every child

A composition passes calls on to its children in their order. The first child that fails ends the
call; what earlier children did stays done.
-/

namespace SqlFederation

namespace Fanout

variable {σ α : Type}

/-- Refuses a call on a composition without children. -/
def assertChildren (children : List (Connection σ)) : Call σ Unit :=
  if children.isEmpty then Call.fail .noEndpoints else pure ()

/-- Runs a call on every child. -/
def each (call : Connection σ → Call σ Unit) : List (Connection σ) → Call σ Unit
  | [] => pure ()
  | child :: rest => do
    call child
    each call rest

/-- Runs a call on every child and adds up the results. -/
def total (call : Connection σ → Call σ Nat) : List (Connection σ) → Call σ Nat
  | [] => pure 0
  | child :: rest => do
    let n ← call child
    return n + (← total call rest)

/-- Runs a call on every child; the result of the last one stays. -/
def last (call : Connection σ → Call σ α) : List (Connection σ) → Call σ α
  | [] => Call.fail .noEndpoints
  | [child] => call child
  | child :: rest => do
    let _ ← call child
    last call rest

/-- Runs a call on a child if a condition holds of it then. -/
def onlyIf (condition : Connection σ → σ → Bool) (call : Connection σ → Call σ Unit)
    (child : Connection σ) : Call σ Unit := do
  if ← Call.reading (condition child) then
    call child

/-- Connects every child that is not connected. -/
def connect (children : List (Connection σ)) : Call σ Unit :=
  each (onlyIf (fun c s => !c.isConnected s) Connection.connect) children

/-- Disconnects every child that is connected. -/
def disconnect (children : List (Connection σ)) : Call σ Unit :=
  each (onlyIf Connection.isConnected Connection.disconnect) children

/-- Does a condition hold of all children, or of any? No child is all children, but not any. -/
def holds (all : Bool) (condition : Connection σ → Bool) (children : List (Connection σ)) : Bool :=
  if all then children.all condition else children.any condition

/-- Are all, or any, of the children connected? -/
def isConnected (all : Bool) (children : List (Connection σ)) (s : σ) : Bool :=
  holds all (fun c => c.isConnected s) children

/-- Are all, or any, of the children in a transaction? -/
def inTransaction (all : Bool) (children : List (Connection σ)) (s : σ) : Bool :=
  holds all (fun c => c.inTransaction s) children

/-- Begins a transaction on every child. -/
def begin (children : List (Connection σ)) (level : Option IsolationLevel)
    (mode : Option AccessMode) : Call σ Unit := do
  assertChildren children
  each (fun c => c.begin level mode) children

/-- Commits on every child; a child that fails leaves the ones behind it as they are. -/
def commit (children : List (Connection σ)) : Call σ Unit := do
  assertChildren children
  each Connection.commit children

/-- Rolls every child back; a child that fails leaves the ones behind it as they are. -/
def rollback (children : List (Connection σ)) : Call σ Unit := do
  assertChildren children
  each Connection.rollback children

end Fanout

end SqlFederation
