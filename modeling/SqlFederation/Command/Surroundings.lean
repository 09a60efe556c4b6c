import SqlFederation.Command.Invocation
import SqlFederation.Config.Build
import SqlFederation.Config.Location
import SqlFederation.Storage.Saved

/-!
# The surroundings of a request

Which files a request may read or change: its configuration, the databases that the configuration
names, and the lock files of the link that it is about. A database is kept as its saved text.
-/

namespace SqlFederation

namespace Content

/-- What the text of a database's file holds; another text stays a text. -/
def ofDatabaseText (text : String) : Content :=
  match Storage.Database.ofSavedText? text with
  | some db => .database db
  | none => .text text

/-- The text of a file. -/
def fileText : Content → String
  | .text value => value
  | .lock entry => entry.text
  | .database db => db.savedText

end Content

namespace Command

/-- Where the configuration of an invocation may be. -/
def configPaths (home : Option String) (invocation : Invocation) : List String :=
  match invocation.config with
  | some path => [path]
  | none => Config.candidates home

/-- The configuration of an invocation, if there is one that can be read. -/
def configOf? (home : Option String) (invocation : Invocation) (files : Files) :
    Option LocatedConfig :=
  let loaded := do Config.load (← Config.locate home invocation.config files) files
  loaded.toOption

/-- The files of the databases that a configuration names. -/
def databasePaths (located : LocatedConfig) : List String :=
  located.config.links.filterMap fun (_, entry) => (located.location entry).path?.map Path.text

/-- The tables of all databases among some files. -/
def tablesIn (files : Files) : List String :=
  files.files.flatMap fun (_, file) =>
    match file.content with
    | .database db => db.tables.map Storage.Table.name
    | _ => []

/-- The link that a request locks, and the tables whose locks it may touch. -/
def lockedTables (tables : List String) : Request → Option (String × List String)
  | .sync link table _ => some (link, [table])
  | .unlock link table _ => some (link, table.toList ++ tables)
  | _ => none

/-- The lock files that a request may read or change, given the tables that there are. -/
def lockPaths (located : LocatedConfig) (tables : List String) (request : Request) :
    List String :=
  let settings := located.config.locks
  match settings.place, lockedTables tables request with
  | .directory directory, some (link, tables) =>
    tables.map fun table =>
      Locks.Directory.pathOf (located.pathText directory)
        (Locks.keyIn (Locks.partOf settings.scope link) table)
  | _, _ => []

end Command

end SqlFederation
