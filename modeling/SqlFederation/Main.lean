import SqlFederation.Command.Run
import SqlFederation.Command.Surroundings
import Std.Time.DateTime.Timestamp

/-!
# The program

Reads the files that an invocation is about, runs it, writes back what it changed, and prints what
it has to say. Everything but the reading and writing itself is decided elsewhere.
-/

namespace SqlFederation

namespace Program

/-- The text of a file, if it can be read. -/
def readText? (path : String) : IO (Option String) := do
  match ← (IO.FS.readFile path).toBaseIO with
  | .ok text => return some text
  | .error _ => return none

/-- Adds the files at some paths, as far as they can be read. -/
def load (now : Time) (content : String → Content) : List String → Files → IO Files
  | [], files => return files
  | path :: rest, files => do
    match ← readText? path with
    | some text => load now content rest (files.place path ⟨content text, now⟩).1
    | none => load now content rest files

/-- Makes directories. -/
def makeDirectories : List Path → IO Unit
  | [] => return ()
  | path :: rest => do
    IO.FS.createDirAll path.text
    makeDirectories rest

/-- Writes back the files at some paths that are not what they were. -/
def save (earlier later : Files) : List String → IO Unit
  | [] => return ()
  | path :: rest => do
    let text := fun (files : Files) => (files.fileAt? path).map fun file => file.content.fileText
    if text earlier != text later then
      match text later with
      | some text => IO.FS.writeFile path text
      | none => IO.FS.removeFile path
    save earlier later rest

/-- The time. -/
def now : IO Time := do
  return (← Std.Time.Timestamp.now).toNanosecondsSinceUnixEpoch.val

/-- The number of this process, where the system shows it. -/
def process : IO Nat := do
  let shown ← readText? "/proc/self/stat"
  return (shown.bind fun text => (String.ofList (text.toList.takeWhile Char.isDigit)).toNat?).getD 0

/-- The processes that run among those of some lock entries. -/
def running : List Nat → IO (List Nat)
  | [] => return []
  | process :: rest => do
    let found ← running rest
    let shown ← readText? ("/proc/" ++ toString process ++ "/stat")
    return if shown.isSome then process :: found else found

/-- Draws to choose among replicas by. -/
def draws : IO (List Nat) :=
  (List.range 64).mapM fun _ => IO.rand 0 1000000000

/-- Prints what a run ends with, and gives its code. -/
def report (result : Command.Result) : IO UInt32 := do
  (← IO.getStdout).putStr result.output
  match result.failure with
  | some message => IO.eprintln ("✗ " ++ message)
  | none => if result.code != 0 then IO.eprint Command.usageText
  return result.code.toUInt32

/-- Runs an invocation in the surroundings that it is about. -/
def runIn (home : Option String) (arguments : List String) (invocation : Command.Invocation) :
    IO Command.Result := do
  let now ← now
  let configs ← load now .text (Command.configPaths home invocation) .empty
  let located := Command.configOf? home invocation configs
  let databases := (located.map Command.databasePaths).getD []
  let files ← load now .ofDatabaseText databases configs
  let locks := (located.map fun located =>
    Command.lockPaths located (Command.tablesIn files) invocation.request).getD []
  let files ← load now .text locks files
  let holders := files.files.filterMap fun (_, file) => file.entry?.map Locks.Entry.process
  let room : Locks.Room := ⟨now, ← process, ← running holders, files, [], []⟩
  let (result, world) := Command.run home arguments ⟨room, [], ← draws, .empty⟩
  let later := world.room.files
  makeDirectories (later.directories.filter fun path => !files.directories.contains path)
  save files later (databases ++ locks).eraseDups
  return result

/-- The world of an invocation that stops before it looks at anything. -/
def emptyWorld : World Endpoints :=
  ⟨⟨0, 0, [], .empty, [], []⟩, [], [], .empty⟩

/-- Runs the program with its arguments. -/
def run (arguments : List String) : IO UInt32 := do
  let home ← IO.getEnv "HOME"
  match Command.Invocation.ofArguments arguments with
  | .ok invocation => report (← runIn home arguments invocation)
  | .error _ => report (Command.run home arguments emptyWorld).1

end Program

end SqlFederation

/-- The program. -/
def main (arguments : List String) : IO UInt32 :=
  SqlFederation.Program.run arguments
