import SqlFederation.Command.Options
import SqlFederation.Json.Basic
import SqlFederation.Text.Digits

/-!
# Invocations

What the program is asked to do. Two options, the configuration and the format, may stand in front
of the name of the request or behind it; behind it they win.
-/

namespace SqlFederation

namespace Command

/-- A request to the program. -/
inductive Request where
  | status
  /-- Which shards hold a key, or the keys between two bounds. -/
  | route (link table : String) (value min max : Option Int)
  | count (link : Option String) (table : String)
  | sync (link table : String) (schemaOnly : Bool)
  /-- Frees the lock of a table, or all locks of a link. -/
  | unlock (link : String) (table : Option String) (all : Bool)
  deriving DecidableEq

/-- A request with what holds for every request. -/
structure Invocation where
  config : Option String
  json : Bool
  request : Request
  deriving DecidableEq

namespace Invocation

/-- Any text is acceptable. -/
def anyText (_ : String) : Bool := true

/-- The integer of 64 bits that a text is. -/
def integer? (text : String) : Option Int := do
  let value ← Text.integer? text.toList
  if fitsSigned value then some value else none

/-- The options that stand in front of the name of the request or behind it. -/
def commonOptions : List OptionSpec :=
  [⟨"config", some 'c', .value fun text => !text.isEmpty⟩,
    ⟨"format", some 'f', .value fun text => text == "text" || text == "json"⟩,
    ⟨"help", some 'h', .stop .help⟩]

/-- The options in front of the name of the request. -/
def leadingOptions : List OptionSpec :=
  commonOptions ++ [⟨"version", some 'V', .stop .version⟩]

def linkOption : OptionSpec := ⟨"link", some 'l', .value anyText⟩

def tableOption : OptionSpec := ⟨"table", some 't', .value anyText⟩

/-- An option whose value is an integer. -/
def integerOption (name : String) : OptionSpec :=
  ⟨name, none, .value fun text => (integer? text).isSome⟩

/-- The options of each request under its name. -/
def requestOptions : List (String × List OptionSpec) :=
  [("status", []),
    ("route", [linkOption, tableOption, integerOption "value", integerOption "min",
      integerOption "max"]),
    ("count", [linkOption, tableOption]),
    ("sync", [linkOption, tableOption, ⟨"schema-only", none, .flag⟩]),
    ("unlock", [linkOption, tableOption, ⟨"all", none, .flag⟩])]

/-- The value of an option that has to be given. -/
def needed (given : Given) (name : String) : Except Stop String :=
  match given.lookup name with
  | some value => .ok value
  | none => .error .wrong

/-- The integer of an option. -/
def integerOf (given : Given) (name : String) : Option Int :=
  (given.lookup name).bind integer?

/-- The request with a name; a key and bounds do not go together. -/
def requestOf (name : String) (given : Given) : Except Stop Request := do
  match name with
  | "status" => .ok .status
  | "route" =>
    let link ← needed given "link"
    let table ← needed given "table"
    if given.has "value" && (given.has "min" || given.has "max") then
      .error .wrong
    else
      .ok (.route link table (integerOf given "value") (integerOf given "min")
        (integerOf given "max"))
  | "count" => .ok (.count (given.lookup "link") (← needed given "table"))
  | "sync" =>
    let link ← needed given "link"
    let table ← needed given "table"
    .ok (.sync link table (given.has "schema-only"))
  | "unlock" =>
    let link ← needed given "link"
    if given.has "table" || given.has "all" then
      .ok (.unlock link (given.lookup "table") (given.has "all"))
    else
      .error .wrong
  | _ => .error .wrong

/-- What is asked about behind the word `help`: nothing, or one request by its name. -/
def helpOn (topics : List String) : Stop :=
  match topics with
  | [] => .help
  | [topic] => if topic = "help" || (requestOptions.lookup topic).isSome then .help else .wrong
  | _ => .wrong

/-- The invocation that the arguments of the program make. -/
def ofArguments (arguments : List String) : Except Stop Invocation := do
  let (leading, rest) ← readOptions leadingOptions arguments []
  match rest with
  | [] => .error .wrong
  | "help" :: topics => .error (helpOn topics)
  | name :: rest =>
    match requestOptions.lookup name with
    | none => .error .wrong
    | some options =>
      let (given, rest) ← readOptions (options ++ commonOptions) rest []
      if !rest.isEmpty && rest != ["--"] then
        .error .wrong
      else
        let request ← requestOf name given
        let common := given ++ leading
        .ok ⟨common.lookup "config", common.lookup "format" == some "json", request⟩

end Invocation

end Command

end SqlFederation
