/-!
# Faults of a database

Why a database refuses a statement, and how it says so. Some faults have a place in the text of the
statement; `report` then shows the text and the place.
-/

namespace SqlFederation

namespace Storage

/-- Why a statement is refused; offsets count bytes of its text. -/
inductive Fault where
  | unexpected (token : String) (offset : Nat)
  | unrecognized (token : String) (offset : Nat)
  | incomplete
  | unknownTable (name : String)
  | unknownColumn (name : String) (offset : Option Nat)
  | unknownTarget (table column : String)
  | unknownFunction (name : String) (offset : Nat)
  | wrongArguments (function : String) (offset : Nat)
  | misplacedAggregate (function : String) (offset : Nat)
  | aliasedAggregate (name : String)
  | aggregateInGroup
  | termTooDeep
  | tableExists (token : String) (offset : Nat)
  | indexExists (name : String)
  | nameTaken (kind name : String)
  | repeatedColumn (name : String)
  | severalKeys (table : String)
  | generatedKey
  | unlikeTuples
  | valueCount (values columns : Nat)
  | tableValueCount (table : String) (columns values : Nat)
  | unique (columns : List String)
  | notNull (column : String)
  | foreignKey
  | unmatchedKey (child parent : String)
  | wrongKind
  | sumTooLarge
  | noTables
  | full
  | locked
  | gaveRows
  deriving DecidableEq

namespace Fault

/-- The wording. -/
def message : Fault → String
  | .unexpected token _ => "near \"" ++ token ++ "\": syntax error"
  | .unrecognized token _ => "unrecognized token: \"" ++ token ++ "\""
  | .incomplete => "incomplete input"
  | .unknownTable name => "no such table: " ++ name
  | .unknownColumn name _ => "no such column: " ++ name
  | .unknownTarget table column => "table " ++ table ++ " has no column named " ++ column
  | .unknownFunction name _ => "no such function: " ++ name
  | .wrongArguments function _ => "wrong number of arguments to function " ++ function ++ "()"
  | .misplacedAggregate function _ => "misuse of aggregate: " ++ function ++ "()"
  | .aliasedAggregate name => "misuse of aliased aggregate " ++ name
  | .termTooDeep => "Expression tree is too large (maximum depth 1000)"
  | .aggregateInGroup => "aggregate functions are not allowed in the GROUP BY clause"
  | .tableExists token _ => "table " ++ token ++ " already exists"
  | .indexExists name => "index " ++ name ++ " already exists"
  | .nameTaken kind name => "there is already " ++ kind ++ " named " ++ name
  | .repeatedColumn name => "duplicate column name: " ++ name
  | .severalKeys table => "table \"" ++ table ++ "\" has more than one primary key"
  | .generatedKey => "AUTOINCREMENT is only allowed on an INTEGER PRIMARY KEY"
  | .unlikeTuples => "all VALUES must have the same number of terms"
  | .valueCount values columns =>
    toString values ++ " values for " ++ toString columns ++ " columns"
  | .tableValueCount table columns values =>
    "table " ++ table ++ " has " ++ toString columns ++ " columns but " ++ toString values ++
      " values were supplied"
  | .unique columns => "UNIQUE constraint failed: " ++ ", ".intercalate columns
  | .notNull column => "NOT NULL constraint failed: " ++ column
  | .foreignKey => "FOREIGN KEY constraint failed"
  | .unmatchedKey child parent =>
    "foreign key mismatch - \"" ++ child ++ "\" referencing \"" ++ parent ++ "\""
  | .wrongKind => "datatype mismatch"
  | .sumTooLarge => "integer overflow"
  | .noTables => "no tables specified"
  | .full => "database or disk is full"
  | .locked => "database is locked"
  | .gaveRows => "Execute returned results - did you mean to call query?"

/-- Is a fault found only while rows are changed? The others are found before. -/
def isLate : Fault → Bool
  | .unique _ | .notNull _ | .foreignKey | .wrongKind | .full => true
  | _ => false

/-- The place of a fault. -/
def offset? : Fault → Option Nat
  | .unexpected _ offset | .unrecognized _ offset | .unknownFunction _ offset
  | .wrongArguments _ offset | .misplacedAggregate _ offset | .tableExists _ offset => some offset
  | .unknownColumn _ offset => offset
  | _ => none

/-- The wording with the text of the statement and the place in it. -/
def report (fault : Fault) (sql : String) : String :=
  match fault.offset? with
  | some offset => fault.message ++ " in " ++ sql ++ " at offset " ++ toString offset
  | none => fault.message

end Fault

end Storage

end SqlFederation
