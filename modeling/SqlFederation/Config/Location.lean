import SqlFederation.Call
import SqlFederation.Config.Codec

/-!
# Configuration files

Where a configuration is looked for, and how it is loaded and saved. Without an explicit path it is
the file in the directory where the program runs, or else the one in a directory of the user.
-/

namespace SqlFederation

namespace Config

/-- The name of a configuration file. -/
def fileName : String := "federation.json"

/-- Where a configuration is looked for, given the home directory of the user. -/
def candidates (home : Option String) : List String :=
  fileName :: (home.map fun home =>
    Path.joinText (Path.joinText home ".dbfed") fileName).toList

/-- The path of the configuration. -/
def locate (home explicit : Option String) (files : Files) : Except Error String :=
  match explicit with
  | some path => .ok path
  | none =>
    match (candidates home).find? files.isPresentAt with
    | some path => .ok path
    | none => .error (.config (.noFile (candidates home)))

/-- Loads a configuration; its relative paths start from its own directory. -/
def load (path : String) (files : Files) : Except Error LocatedConfig :=
  if !files.isPresentAt path then
    .error (.config (.fileNotFound path))
  else
    match (files.fileAt? path).bind File.text? with
    | none => .error .fileSystem
    | some text =>
      match ofText? text with
      | some config => .ok ⟨config, Path.parentText? path⟩
      | none => .error .malformed

/-- Saves a configuration. -/
def save (config : Config) (path : String) : Call Locks.Room Unit :=
  Call.of fun room =>
    match room.files.write path ⟨.text config.text, room.now⟩ with
    | some files => (.ok (), { room with files := files })
    | none => (.error .fileSystem, room)

end Config

end SqlFederation
