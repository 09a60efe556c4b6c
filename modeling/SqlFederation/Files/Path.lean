/-!
# Paths

A path is the list of names on the way to a file; a path that starts at the root has an empty first
name. `ofText` forgets blank steps, and `parentText?` and `joinText` work on the text of a path,
which is what messages show.
-/

namespace SqlFederation

/-- The names on the way to a file. -/
structure Path where
  steps : List String
  deriving DecidableEq

namespace Path

/-- The parts between slashes. -/
def splitSlash : List Char → List (List Char)
  | [] => [[]]
  | c :: rest =>
    if c = '/' then
      [] :: splitSlash rest
    else
      match splitSlash rest with
      | [] => [[c]]
      | part :: parts => (c :: part) :: parts

/-- The directory where the program runs. -/
def here : Path := ⟨[]⟩

/-- The directory of all directories. -/
def root : Path := ⟨[""]⟩

/-- The path of a name in a directory. -/
def child (path : Path) (name : String) : Path := ⟨path.steps ++ [name]⟩

/-- The path of the directory that a path lies in. -/
def parent (path : Path) : Path := ⟨path.steps.dropLast⟩

/-- The last name of a path. -/
def name (path : Path) : String :=
  path.steps.getLast?.getD ""

/-- One more step; a step up undoes the step before it. -/
def step (path : Path) (name : String) : Path :=
  if name = "" ∨ name = "." then path
  else if name = ".." then
    if path = here ∨ path.name = ".." then path.child name
    else if path = root then path
    else path.parent
  else
    path.child name

/-- Does a text name a path from the root? -/
def isAbsolute (text : String) : Bool :=
  match text.toList with
  | '/' :: _ => true
  | _ => false

/-- The directory that the names of a text start from. -/
def start (text : String) : Path :=
  if isAbsolute text then root else here

/-- The names between the slashes of a text. -/
def names (text : String) : List String :=
  (splitSlash text.toList).map String.ofList

/-- The path that a text names, whether or not the directories on the way are there. -/
def ofText (text : String) : Path :=
  (names text).foldl step (start text)

/-- The text of a path; the directory where the program runs is a single dot. -/
def text (path : Path) : String :=
  if path = here then "."
  else if path = root then "/"
  else "/".intercalate path.steps

/-- Drops slashes and single dots from the end, which is given in reverse. -/
def trimEnd : List Char → List Char
  | '/' :: rest => if rest.isEmpty then ['/'] else trimEnd rest
  | '.' :: '/' :: rest => if rest.isEmpty then ['/'] else trimEnd rest
  | text => text

/-- The text of the directory of a path; the empty text and the root have none. -/
def parentText? (text : String) : Option String :=
  let reversed := trimEnd text.toList.reverse
  if reversed.isEmpty ∨ reversed = ['/'] then none
  else
    let rest := reversed.dropWhile fun c => c != '/'
    some (String.ofList (trimEnd rest).reverse)

/-- The text of a path below a directory; a path from the root stands for itself. -/
def joinText (directory text : String) : String :=
  if isAbsolute text ∨ directory = "" then text
  else if directory.toList.getLast? = some '/' then directory ++ text
  else directory ++ "/" ++ text

/-- The part of a file name behind its last dot; a dot in front starts no such part. -/
def extension? (name : String) : Option String :=
  let reversed := name.toList.reverse
  let tail := reversed.takeWhile fun c => c != '.'
  match reversed.drop tail.length with
  | '.' :: _ :: _ => some (String.ofList tail.reverse)
  | _ => none

end Path

end SqlFederation
