import SqlFederation.Error

/-!
# Calls

A call reads and changes a state and ends with a value or an error. What it changed before an error
stays changed. `inPart` runs a call on a part of a larger state.
-/

namespace SqlFederation

/-- A call on a state `σ` that ends with an `α` or an error. -/
abbrev Call (σ α : Type) := ExceptT Error (StateM σ) α

namespace Call

/-- The outcome of a call and the state behind it. -/
def outcome {σ α : Type} (call : Call σ α) (s : σ) : Except Error α × σ :=
  call.run.run s

/-- A call given by its outcome. -/
def of {σ α : Type} (f : σ → Except Error α × σ) : Call σ α :=
  fun s => f s

/-- A call that fails. -/
def fail {σ α : Type} (e : Error) : Call σ α :=
  of fun s => (.error e, s)

/-- A call that ends as given and changes nothing. -/
def done {σ α : Type} (result : Except Error α) : Call σ α :=
  of fun s => (result, s)

/-- Reads the state. -/
def reading {σ α : Type} (f : σ → α) : Call σ α :=
  of fun s => (.ok (f s), s)

/-- Changes the state. -/
def changing {σ : Type} (f : σ → σ) : Call σ Unit :=
  of fun s => (.ok (), f s)

/-- Runs a call on a part of the state. -/
def inPart {σ τ α : Type} (get : σ → τ) (put : τ → σ → σ) (call : Call τ α) : Call σ α :=
  of fun s =>
    let (result, t) := call.outcome (get s)
    (result, put t s)

/-- Runs a call, then another one whatever the outcome was; the outcome of the first stays. -/
def andThenAlways {σ α : Type} (call : Call σ α) (cleanup : Call σ Unit) : Call σ α :=
  of fun s =>
    let (result, s) := call.outcome s
    let (_, s) := cleanup.outcome s
    (result, s)

end Call

end SqlFederation
