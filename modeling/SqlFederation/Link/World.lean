import SqlFederation.Locks.Scoped

/-!
# The state behind links

Everything that calls on links read and change: locks and files, the cursors of read pools, the
draws that choose a replica, and the endpoints themselves, whatever they are.
-/

namespace SqlFederation

/-- The state behind links over endpoints `β`. -/
structure World (β : Type) where
  room : Locks.Room
  /-- Where each read pool goes next; none stands for a fresh draw. -/
  cursors : List (Option Nat)
  /-- The draws to come; when they are used up every draw is the first choice. -/
  draws : List Nat
  endpoints : β

namespace World

variable {β α : Type}

/-- Runs a call on locks and files. -/
def inRoom (call : Call Locks.Room α) : Call (World β) α :=
  Call.inPart World.room (fun room w => { w with room := room }) call

/-- Runs a call on the endpoints. -/
def inEndpoints (call : Call β α) : Call (World β) α :=
  Call.inPart World.endpoints (fun endpoints w => { w with endpoints := endpoints }) call

/-- Draws one of `count` choices. -/
def draw (count : Nat) : Call (World β) Nat :=
  Call.of fun w =>
    match w.draws with
    | [] => (.ok 0, w)
    | d :: rest => (.ok (d % count), { w with draws := rest })

/-- Where a read pool goes next. -/
def cursor (number : Nat) (w : World β) : Option Nat :=
  w.cursors.getD number none

/-- Says where a read pool goes next. -/
def setCursor (number next : Nat) : Call (World β) Unit :=
  Call.changing fun w => { w with cursors := w.cursors.set number (some next) }

/-- Makes a cursor. -/
def newCursor (w : World β) : Nat × World β :=
  (w.cursors.length, { w with cursors := w.cursors ++ [none] })

/-- Takes a key for the time of a call, and gives it back whatever the call did. -/
def guarding (lock : Locks.ScopedLock) (key : String) (taken : Error) (call : Call (World β) α) :
    Call (World β) α := do
  if ← inRoom (lock.acquire key) then
    call.andThenAlways (inRoom (lock.release key))
  else
    Call.fail taken

end World

end SqlFederation
