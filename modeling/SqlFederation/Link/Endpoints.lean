import SqlFederation.Link.Embedded
import SqlFederation.Link.Scripted

/-!
# Endpoints

The endpoints that links end at: embedded databases and scripted ones, each known by its number. The
files of databases are those of the room that locks live in.
-/

namespace SqlFederation

/-- The endpoints behind links. -/
structure Endpoints where
  stage : Scripted.Stage
  databases : List Embedded.Handle

namespace Endpoints

/-- No endpoints. -/
def empty : Endpoints := ⟨.empty, []⟩

/-- What embedded databases see of the world. -/
def host (w : World Endpoints) : Embedded.Host :=
  ⟨w.room.files, w.room.now, w.endpoints.databases⟩

/-- Puts back what embedded databases see of the world. -/
def setHost (host : Embedded.Host) (w : World Endpoints) : World Endpoints :=
  { w with
    room := { w.room with files := host.files }
    endpoints := { w.endpoints with databases := host.handles } }

/-- Puts back the scripted endpoints. -/
def setStage (stage : Scripted.Stage) (w : World Endpoints) : World Endpoints :=
  { w with endpoints := { w.endpoints with stage := stage } }

/-- The calls of an embedded database. -/
def database (number : Nat) : Connection (World Endpoints) :=
  (Embedded.calls number).inPart host setHost

/-- The calls of a scripted endpoint. -/
def scripted (number : Nat) : Connection (World Endpoints) :=
  (Scripted.calls number).inPart (fun w => w.endpoints.stage) setStage

/-- Adds a database and gives the link to it. -/
def addDatabase (location : Embedded.Location) (w : World Endpoints) :
    Connection (World Endpoints) × World Endpoints :=
  let databases := w.endpoints.databases
  (database databases.length,
    { w with endpoints := { w.endpoints with databases := databases ++ [.new location] } })

/-- Adds a scripted endpoint and gives the link to it. -/
def addScripted (script : Scripted.Script) (w : World Endpoints) :
    Connection (World Endpoints) × World Endpoints :=
  let (number, stage) := w.endpoints.stage.add script
  (scripted number, setStage stage w)

end Endpoints

end SqlFederation
