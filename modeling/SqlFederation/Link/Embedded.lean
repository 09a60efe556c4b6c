import SqlFederation.Files.Address
import SqlFederation.Link.Connection
import SqlFederation.Sql.Statement
import SqlFederation.Storage.Describe
import SqlFederation.Storage.Run
import SqlFederation.Text.Blank

/-!
# Embedded databases

A link to a database in a file, or to one that nobody else sees and that is empty at each connect. A
transaction works on its own copy from its first statement on, and others see its changes after the
commit. One transaction at a time may write to a file, and only while its copy is the current one.
-/

namespace SqlFederation

namespace Embedded

/-- Where a database is. -/
inductive Location where
  | memory
  | file (path : String)
  deriving DecidableEq

namespace Location

/-- The location as messages show it. -/
def text : Location → String
  | .memory => "sqlite://:memory:"
  | .file path => "sqlite://" ++ path

/-- The file of a name; two names stand for none. -/
def fileOf? (name : String) : Option Path :=
  if name = "" ∨ name = ":memory:" then none else some (.ofText name)

/-- The file of a database; one without a file is seen by nobody else. -/
def path? : Location → Option Path
  | .memory => none
  | .file path =>
    match Address.ofText? path with
    | some address => if address.isMemory then none else fileOf? address.name
    | none => fileOf? path

end Location

/-- An open transaction. -/
structure Transaction where
  /-- What the transaction sees; nothing before its first statement. -/
  view : Option Storage.Database
  writes : Bool

/-- A link to a database. -/
structure Handle where
  location : Location
  connected : Bool
  /-- The database, if it has no file. -/
  own : Storage.Database
  transaction : Option Transaction
  /-- How many rows the latest change touched. -/
  touched : Nat

namespace Handle

/-- A link that is not connected. -/
def new (location : Location) : Handle := ⟨location, false, .empty, none, 0⟩

end Handle

/-- Files, the time, and links by number. -/
structure Host where
  files : Files
  now : Time
  handles : List Handle

namespace Host

/-- The link with a number. -/
def handle (host : Host) (number : Nat) : Handle :=
  host.handles.getD number (.new .memory)

/-- Changes the link with a number. -/
def setHandle (host : Host) (number : Nat) (handle : Handle) : Host :=
  { host with handles := host.handles.set number handle }

/-- The database in a file; an empty file is an empty one, and another text is none. -/
def inFile? (host : Host) (path : Path) : Option Storage.Database :=
  match (host.files.file? path).map File.content with
  | some (.database db) => some db
  | some (.text s) => if s.isEmpty then some .empty else none
  | some (.lock _) => none
  | none => some .empty

/-- The database that a link sees outside of a transaction. -/
def current (host : Host) (handle : Handle) : Storage.Database :=
  match handle.location.path? with
  | none => handle.own
  | some path => (host.inFile? path).getD .empty

/-- Puts a database where a link keeps it. -/
def store (host : Host) (number : Nat) (db : Storage.Database) : Host :=
  let handle := host.handle number
  match handle.location.path? with
  | none => host.setHandle number { handle with own := db }
  | some path =>
    { host with files := host.files.set path ⟨.database db, host.now⟩ }

/-- Is another link writing to the same file? -/
def isLocked (host : Host) (number : Nat) : Bool :=
  match (host.handle number).location.path? with
  | none => false
  | some path =>
    host.handles.zipIdx.any fun (other, n) =>
      n != number && other.location.path? == some path &&
        other.transaction.any Transaction.writes

end Host

/-- The refusal of a statement that another writer stands in the way of. -/
def locked : Error :=
  .query (.refused Storage.Fault.locked.message)

/-- Why something is not done. -/
structure Setback where
  error : Error
  /-- It was about to change the database by then. -/
  isWriting : Bool
  /-- It was counting rows by then. -/
  isCounting : Bool

namespace Setback

/-- An error before anything was done. -/
def early (error : Error) : Setback := ⟨error, false, false⟩

/-- A refusal of a statement. -/
def ofRefusal (refusal : Storage.Refusal) : Setback :=
  ⟨.query (.refused refusal.message), refusal.isWriting, refusal.isCounting⟩

end Setback

/-- Something that is done with a database, inside of a transaction or not. -/
abbrev Task (α : Type) := Storage.Database → Bool → Except Setback (α × Storage.Outcome)

/-- Does an outcome need the right to write? -/
def needsWrite (before : Storage.Database) (outcome : Storage.Outcome) : Bool :=
  outcome.touched.isSome || decide (outcome.database ≠ before)

variable {α : Type}

/-- Notes how many rows the latest change touched, if rows were counted. -/
def noteTouched (number : Nat) (touched : Option Nat) (host : Host) : Host :=
  match touched with
  | some n => host.setHandle number { host.handle number with touched := n }
  | none => host

/-- A change that counts rows and fails has touched none. -/
def noneIf (isCounting : Bool) : Option Nat :=
  if isCounting then some 0 else none

/-- Does something outside of a transaction. -/
def runAlone (number : Nat) (task : Task α) (host : Host) : Except Error α × Host :=
  let db := host.current (host.handle number)
  match task db false with
  | .error setback =>
    let error := if setback.isWriting && host.isLocked number then locked else setback.error
    (.error error, noteTouched number (noneIf setback.isCounting) host)
  | .ok (result, outcome) =>
    if !needsWrite db outcome then (.ok result, host)
    else if host.isLocked number then
      (.error locked, noteTouched number (noneIf outcome.touched.isSome) host)
    else (.ok result, noteTouched number outcome.touched (host.store number outcome.database))

/--
Does something inside of a transaction. A change that fails has taken the right to write all the
same.
-/
def runInside (number : Nat) (transaction : Transaction) (task : Task α) (host : Host) :
    Except Error α × Host :=
  let handle := host.handle number
  let db := transaction.view.getD (host.current handle)
  let keep := fun (t : Transaction) => host.setHandle number { handle with transaction := some t }
  let isBarred := !transaction.writes && (host.isLocked number || db ≠ host.current handle)
  match task db true with
  | .error setback =>
    if !setback.isWriting then
      (.error setback.error, host)
    else
      let (error, next) :=
        if isBarred then (locked, { transaction with view := some db })
        else (setback.error, ⟨some db, true⟩)
      (.error error, noteTouched number (noneIf setback.isCounting) (keep next))
  | .ok (result, outcome) =>
    if !needsWrite db outcome then
      (.ok result, keep { transaction with view := some db })
    else if isBarred then
      (.error locked, noteTouched number (noneIf outcome.touched.isSome)
        (keep { transaction with view := some db }))
    else
      (.ok result, noteTouched number outcome.touched (keep ⟨some outcome.database, true⟩))

/-- Does something with the database of a link that is connected. -/
def run (number : Nat) (task : Task α) : Call Host α :=
  Call.of fun host =>
    let handle := host.handle number
    match handle.transaction with
    | some transaction => runInside number transaction task host
    | none =>
      if handle.connected then runAlone number task host
      else (.error (.notConnected handle.location.text), host)

/-- Runs the first statement of a text and gives its rows. -/
def fetch (number : Nat) (sql : String) (params : List SqlValue) : Call Host (List Row) :=
  run number fun db inTransaction =>
    match db.runFirst inTransaction (params.map Storage.Cell.ofValue) sql with
    | .ok outcome => .ok (outcome.rows, outcome)
    | .error refusal => .error (.ofRefusal refusal)

/--
Runs a statement that gives no rows, and counts the rows it touched. A statement that touches none
by its nature shows the count of the latest change.
-/
def execute (number : Nat) (sql : String) (params : List SqlValue) : Call Host Nat := do
  let latest ← Call.reading fun host => (host.handle number).touched
  run number fun db inTransaction =>
    match db.runFirst inTransaction (params.map Storage.Cell.ofValue) sql with
    | .ok outcome =>
      if outcome.rows.isEmpty then .ok (outcome.touched.getD latest, outcome)
      else .error (.early (.query (.refused Storage.Fault.gaveRows.message)))
    | .error refusal => .error (.ofRefusal refusal)

/-- Runs the statements of a text one after the other. -/
def runPassages (number : Nat) : List Storage.Passage → Call Host Unit
  | [] => pure ()
  | passage :: rest => do
    run number fun db inTransaction =>
      match db.runPassage inTransaction [] passage with
      | .ok outcome => .ok ((), outcome)
      | .error refusal => .error (.ofRefusal refusal)
    runPassages number rest

/-- Words in front of statements that give rows. -/
def rowWords : List String := ["SELECT", "PRAGMA", "WITH", "VALUES", "EXPLAIN"]

/-- Does a text start with a statement that gives rows? -/
def givesRows (sql : String) : Bool :=
  rowWords.contains (Text.upper (String.ofList (Text.firstWord sql.toList)))

/-- Runs a text as it is. -/
def raw (number : Nat) (sql : String) : Call Host (List Row) :=
  if givesRows sql then
    fetch number sql []
  else do
    runPassages number (Storage.Passage.ofText sql)
    return []

/-- Renders a query and goes on with its text and values. -/
def rendered (query : Query) (call : String → List SqlValue → Call Host α) : Call Host α :=
  match query.render .sqlite with
  | .ok statement => call statement.sql statement.params
  | .error e => Call.fail e

/-- The files with the directories that a link makes on the way to its file. -/
def Location.prepare (location : Location) (files : Files) : Files :=
  match location with
  | .memory => files
  | .file path =>
    match Path.parentText? path with
    | some parent => (files.makeDirectories parent).1
    | none => files

/-- Connects a link: the file of a database is made if it is missing, with its directories. -/
def connect (number : Nat) : Call Host Unit :=
  Call.of fun host =>
    let handle := host.handle number
    if handle.connected then
      (.ok (), host)
    else
      let host := { host with files := handle.location.prepare host.files }
      let opened := { handle with connected := true, own := .empty, touched := 0 }
      match handle.location.path? with
      | none => (.ok (), host.setHandle number opened)
      | some path =>
        match host.inFile? path with
        | none => (.error (.schema (.refused "file is not a database")), host)
        | some db => (.ok (), (host.store number db).setHandle number opened)

/-- Disconnects a link; an open transaction is lost. -/
def disconnect (number : Nat) : Call Host Unit :=
  Call.changing fun host =>
    host.setHandle number
      { host.handle number with connected := false, own := .empty, transaction := none }

/-- Is the right to write taken when the transaction begins? -/
def writesAtOnce (level : Option IsolationLevel) (mode : Option AccessMode) : Bool :=
  level == some .serializable || mode == some .readWrite

/-- Begins a transaction. -/
def begin (number : Nat) (level : Option IsolationLevel) (mode : Option AccessMode) :
    Call Host Unit :=
  Call.of fun host =>
    let handle := host.handle number
    let opened := fun (t : Transaction) =>
      (Except.ok (), host.setHandle number { handle with transaction := some t })
    if handle.transaction.isSome then (.error (.query .transactionOpen), host)
    else if !handle.connected then (.error (.notConnected handle.location.text), host)
    else if !writesAtOnce level mode then opened ⟨none, false⟩
    else if host.isLocked number then (.error locked, host)
    else opened ⟨some (host.current handle), true⟩

/-- Takes the transaction of a link and ends it; the link has none from then on. -/
def endTransaction (number : Nat) (finish : Transaction → Host → Except Error Unit × Host) :
    Call Host Unit :=
  Call.of fun host =>
    let handle := host.handle number
    match handle.transaction with
    | none => (.error (.query .noTransaction), host)
    | some transaction =>
      finish transaction (host.setHandle number { handle with transaction := none })

/-- Commits; changes that leave a reference unkept are lost. -/
def commit (number : Nat) : Call Host Unit :=
  endTransaction number fun transaction host =>
    match transaction.view with
    | some db =>
      if !transaction.writes then (.ok (), host)
      else if db.keepsReferences then (.ok (), host.store number db)
      else (.error (.query (.refused Storage.Fault.foreignKey.message)), host)
    | none => (.ok (), host)

/-- Rolls back. -/
def rollback (number : Nat) : Call Host Unit :=
  endTransaction number fun _ host => (.ok (), host)

/-- The schema of a table. -/
def tableInfo (number : Nat) (table : String) : Call Host TableSchema :=
  run number fun db _ =>
    match db.schema table with
    | .ok schema => .ok (schema, ⟨db, [], none⟩)
    | .error fault => .error (.early (.schema fault))

/-- The number of rows of a read, counted by the database. -/
def numRows (number : Nat) (query : Query) : Call Host Nat :=
  rendered query fun sql params => do
    let rows ← fetch number ("SELECT COUNT(*) AS n FROM (" ++ sql ++ ")") params
    return ((rows.head?.bind fun row => row.get? "n").bind Json.asNat?).getD 0

/-- The calls of an embedded database. -/
def calls (number : Nat) : Connection Host :=
  let querySet := fun q => rendered q (fetch number)
  let queryCount := fun q => rendered q (execute number)
  { connect := connect number
    disconnect := disconnect number
    isConnected := fun host => (host.handle number).connected
    dialect := pure .sqlite
    tableInfo := tableInfo number
    hasSequences := fun _ => false
    obtainSequence := Connection.noSequence
    queryRaw := raw number
    query := querySet
    queryRow := Connection.rowOf querySet
    querySet := querySet
    queryColumn := Connection.columnOf querySet
    queryNumRows := numRows number
    queryCount := queryCount
    queryNull := Connection.nullOf queryCount
    begin := begin number
    commit := commit number
    rollback := rollback number
    inTransaction := fun host => (host.handle number).transaction.isSome }

end Embedded

end SqlFederation
