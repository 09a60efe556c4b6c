/-!
# Options

The options in front of the words of a command line. An option has a long name behind two dashes and
may have a letter behind one. Its value stands behind an equals sign or a letter, or is the next
argument, which then must not look like an option. No option is given twice, and two dashes alone
end the options.
-/

namespace SqlFederation

namespace Command

/-- Why a command line is not carried out. -/
inductive Stop where
  | wrong
  | version
  | help
  deriving DecidableEq

/-- What an option is for. -/
inductive OptionKind where
  /-- The option has a value, which has to be acceptable. -/
  | value (accepts : String → Bool)
  | flag
  /-- The option ends the reading at once. -/
  | stop (reason : Stop)

/-- An option. -/
structure OptionSpec where
  long : String
  short : Option Char
  kind : OptionKind

/-- The values of the options that were given; that of a flag is empty. -/
abbrev Given := List (String × String)

/-- What an argument looks like. -/
inductive Look where
  | word
  /-- Two dashes alone. -/
  | ending
  /-- A long name, with a value behind an equals sign if there is one. -/
  | long (name : String) (attached : Option String)
  /-- A letter, with what stands behind it. -/
  | short (letter : Char) (attached : Option String)

namespace Look

/-- What an argument looks like; a single dash is a word. -/
def ofArgument (argument : String) : Look :=
  match argument.toList with
  | ['-', '-'] => .ending
  | '-' :: '-' :: text =>
    let name := text.takeWhile fun c => c != '='
    match text.drop name.length with
    | '=' :: value => .long (String.ofList name) (some (String.ofList value))
    | _ => .long (String.ofList name) none
  | ['-', letter] => .short letter none
  | '-' :: letter :: '=' :: value => .short letter (some (String.ofList value))
  | '-' :: letter :: value => .short letter (some (String.ofList value))
  | _ => .word

/-- Is it a long name? -/
def isLong : Look → Bool
  | .long .. => true
  | _ => false

/-- The option that an argument names, with the value that is attached to it. -/
def option? (options : List OptionSpec) : Look → Option (OptionSpec × Option String)
  | .long name attached => (options.find? fun o => o.long == name).map fun o => (o, attached)
  | .short letter attached =>
    (options.find? fun o => o.short == some letter).map fun o => (o, attached)
  | _ => none

end Look

/-- Can an argument be the value of the option in front of it? -/
def isValue (argument : String) : Bool :=
  match Look.ofArgument argument with
  | .word => true
  | _ => false

namespace Given

/-- Adds an option that was not given before. -/
def add (given : Given) (name value : String) : Except Stop Given :=
  if (given.lookup name).isSome then .error .wrong else .ok (given ++ [(name, value)])

/-- Adds an option with an acceptable value. -/
def addValue (given : Given) (name : String) (accepts : String → Bool) (value : String) :
    Except Stop Given :=
  if accepts value then given.add name value else .error .wrong

/-- Was an option given? -/
def has (given : Given) (name : String) : Bool :=
  (given.lookup name).isSome

end Given

/--
The options in front of the first word or the end of all options, and the arguments from there on.
-/
def readOptions (options : List OptionSpec) :
    List String → Given → Except Stop (Given × List String)
  | [], given => .ok (given, [])
  | argument :: rest, given =>
    match Look.ofArgument argument with
    | .word | .ending => .ok (given, argument :: rest)
    | look =>
      match look.option? options with
      | none => .error .wrong
      | some (option, attached) =>
        match option.kind, attached with
        | .stop reason, attached =>
          if look.isLong && attached.isSome then .error .wrong else .error reason
        | .flag, none => do readOptions options rest (← given.add option.long "")
        | .value accepts, some value => do
          readOptions options rest (← given.addValue option.long accepts value)
        | .value accepts, none =>
          match rest with
          | [] => .error .wrong
          | value :: rest => do
            if isValue value then
              readOptions options rest (← given.addValue option.long accepts value)
            else
              .error .wrong
        | _, _ => .error .wrong
termination_by arguments => arguments.length

end Command

end SqlFederation
