import SqlFederation.Files.Path
import SqlFederation.Locks.Entry
import SqlFederation.Storage.Database

/-!
# Files

The directories and files that a program sees. A file holds a text, a lock entry or a database. A
text points to a file by the names on the way to it, and every step on the way has to be there, also
one that a step up undoes. What is written needs its directory, and no name is longer than 255
bytes.
-/

namespace SqlFederation

/-- What a file holds. -/
inductive Content where
  | text (value : String)
  | lock (entry : Locks.Entry)
  | database (value : Storage.Database)

/-- A file with the time of its last change. -/
structure File where
  content : Content
  modified : Time

namespace File

/-- What a database without tables starts with, seen as a text. -/
def databaseHeader : String := "SQLite format 3"

/-- The text of a file; a database with tables has none. -/
def text? (file : File) : Option String :=
  match file.content with
  | .text value => some value
  | .lock entry => some entry.text
  | .database db => if db.tables.isEmpty then some databaseHeader else none

/-- The lock entry of a file, if it says one. -/
def entry? (file : File) : Option Locks.Entry :=
  match file.content with
  | .text value => Locks.Entry.ofText? value
  | .lock entry => some entry
  | .database _ => none

end File

/-- Directories and files; the directory where the program runs is always there. -/
structure Files where
  directories : List Path
  files : List (Path × File)

/-- What a text points to. -/
inductive Spot where
  | directory (path : Path)
  | file (path : Path) (file : File)
  /-- Nothing, in a directory that is there; `slashed` says that a directory is asked for. -/
  | free (path : Path) (slashed : Bool)
  /-- Nothing, and a directory on the way is missing. -/
  | missing
  /-- Nothing that could ever be there: a file is on the way, or a name is too long. -/
  | barred

namespace Files

/-- No directory and no file. -/
def empty : Files := ⟨[], []⟩

/-- The file at a path. -/
def file? (fs : Files) (path : Path) : Option File :=
  fs.files.lookup path

/-- Is there a directory at a path? Those above the one where the program runs are there. -/
def isDirectory (fs : Files) (path : Path) : Bool :=
  path == .root || path.steps.all (· == "..") || fs.directories.contains path

/-- Can a file or directory have this name? -/
def fits (name : String) : Bool :=
  decide (name.utf8ByteSize ≤ 255)

/-- Goes on from a directory by names; each name but the last has to be that of a directory. -/
def walk (fs : Files) (place : Path) : List String → Spot
  | [] => .directory place
  | name :: rest =>
    let next := place.step name
    if name = "" ∨ name = "." ∨ name = ".." then
      walk fs next rest
    else if !fits name then
      .barred
    else if fs.isDirectory next then
      walk fs next rest
    else
      match fs.file? next with
      | some file => if rest.isEmpty then .file next file else .barred
      | none => if rest.all (· == "") then .free next (!rest.isEmpty) else .missing

/-- What a text points to; the empty text points nowhere. -/
def find (fs : Files) (text : String) : Spot :=
  if text.isEmpty then .missing
  else if text.toList.contains (Char.ofNat 0) || decide (4096 ≤ text.utf8ByteSize) then .barred
  else fs.walk (Path.start text) (Path.names text)

/-- The file that a text points to. -/
def fileAt? (fs : Files) (text : String) : Option File :=
  match fs.find text with
  | .file _ file => some file
  | _ => none

/-- Does a text point to a directory? -/
def isDirectoryAt (fs : Files) (text : String) : Bool :=
  match fs.find text with
  | .directory _ => true
  | _ => false

/-- Does a text point to anything that is there? -/
def isPresentAt (fs : Files) (text : String) : Bool :=
  match fs.find text with
  | .directory _ | .file .. => true
  | _ => false

/--
Makes a directory and every directory on the way to it, as far as this can be done; says whether the
directory is there in the end. The fuel is the length of the text.
-/
def makeDirectoriesIn : Nat → String → Files → Files × Bool
  | 0, _, fs => (fs, true)
  | fuel + 1, text, fs =>
    let made := fun (fs : Files) =>
      match fs.find text with
      | .free path _ => ({ fs with directories := fs.directories ++ [path] }, true)
      | _ => (fs, fs.isDirectoryAt text)
    match fs.find text, Path.parentText? text with
    | .missing, some parent =>
      let (fs, isMade) := makeDirectoriesIn fuel parent fs
      if isMade then made fs else (fs, false)
    | _, _ => made fs

/-- Makes a directory with those on the way; the empty text asks for none. -/
def makeDirectories (fs : Files) (text : String) : Files × Bool :=
  makeDirectoriesIn text.length text fs

/-- Sets the file at a path. -/
def put (path : Path) (file : File) : List (Path × File) → List (Path × File)
  | [] => [(path, file)]
  | (p, f) :: rest => if p = path then (p, file) :: rest else (p, f) :: put path file rest

/-- Sets the file at a path. -/
def set (fs : Files) (path : Path) (file : File) : Files :=
  { fs with files := put path file fs.files }

/-- Writes a file; none where its directory is missing or something is in the way. -/
def write (fs : Files) (text : String) (file : File) : Option Files :=
  match fs.find text with
  | .file path _ | .free path false => some (fs.set path file)
  | _ => none

/-- Writes a file and makes its directory. -/
def place (fs : Files) (text : String) (file : File) : Files × Bool :=
  let (fs, isMade) := match Path.parentText? text with
    | some parent => fs.makeDirectories parent
    | none => (fs, true)
  match if isMade then fs.write text file else none with
  | some written => (written, true)
  | none => (fs, false)

/-- Removes a file. -/
def remove (fs : Files) (path : Path) : Files :=
  { fs with files := fs.files.filter fun (p, _) => p != path }

/-- Removes a directory with everything in it. -/
def removeTree (fs : Files) (path : Path) : Files :=
  let isOutside := fun (p : Path) => !path.steps.isPrefixOf p.steps
  ⟨fs.directories.filter isOutside, fs.files.filter fun (p, _) => isOutside p⟩

/-- The files of a directory. -/
def inDirectory (fs : Files) (directory : Path) : List (Path × File) :=
  fs.files.filter fun (p, _) => p.parent == directory

/-- The names of everything in the directory that a text points to. -/
def namesAt (fs : Files) (text : String) : List String :=
  match fs.find text with
  | .directory directory =>
    (fs.inDirectory directory).map (fun (p, _) => p.name) ++
      (fs.directories.filter fun p => p.parent == directory).map Path.name
  | _ => []

end Files

end SqlFederation
