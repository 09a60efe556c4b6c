import SqlFederation.Storage.Language
import SqlFederation.Storage.Token
import SqlFederation.Text.Hex

/-!
# Reading statements

A parser takes tokens from the front of an input, or fails at the first token that does not fit.
Terms are read by binding strength: OR, AND, NOT, equality and the tests beside it, and the other
comparisons, from weak to strong. A name that a WITH clause gives to a reading stands for that
reading from there on.
-/

namespace SqlFederation

namespace Storage

/--
The text of a statement, its tokens that are still to be read, and where the last one stopped.
-/
structure Input where
  source : List Char
  tokens : List Token
  last : Nat

/-- A parser of an `α`. -/
abbrev Parser (α : Type) := StateT Input (Except Fault) α

namespace Parser

variable {α : Type}

/-- The text between two places. -/
def textBetween (start stop : Nat) : Parser String := do
  return String.ofList (Token.slice (← get).source start stop)

/-- Fails at the next token. -/
def unexpected : Parser α := do
  match (← get).tokens with
  | [] => throw .incomplete
  | token :: _ =>
    let written ← textBetween token.start token.stop
    if token.kind = .illegal then throw (.unrecognized written token.start)
    else throw (.unexpected written token.start)

/-- Where the next token starts. -/
def place : Parser Nat := do
  match (← get).tokens with
  | [] => return (← get).last
  | token :: _ => return token.start

/-- Takes the next token if it fits. -/
def takeIf (fits : Token → Bool) : Parser (Option Token) := do
  let input ← get
  match input.tokens with
  | [] => return none
  | token :: rest =>
    if fits token then
      set { input with tokens := rest, last := token.stop }
      return some token
    else
      return none

/-- Takes the next token, which has to fit. -/
def take (fits : Token → Bool) : Parser Token := do
  match ← takeIf fits with
  | some token => return token
  | none => unexpected

/-- Is a token this keyword? -/
def isKeyword (word : String) (token : Token) : Bool :=
  token.kind == .word && Text.sameAscii token.text word

/-- Is a token this symbol? -/
def isSymbol (symbol : String) (token : Token) : Bool :=
  token.kind == .symbol && token.text == symbol

/-- Takes a keyword if it comes next. -/
def keyword? (word : String) : Parser Bool := do
  return (← takeIf (isKeyword word)).isSome

/-- Takes a symbol if it comes next. -/
def symbol? (symbol : String) : Parser Bool := do
  return (← takeIf (isSymbol symbol)).isSome

/-- Takes a keyword. -/
def keyword (word : String) : Parser Unit := do
  let _ ← take (isKeyword word)

/-- Takes keywords one after the other. -/
def keywords : List String → Parser Unit
  | [] => pure ()
  | word :: rest => do
    keyword word
    keywords rest

/-- Takes keywords one after the other if the first one comes next. -/
def keywords? (words : List String) : Parser Bool := do
  match words with
  | [] => return true
  | word :: rest =>
    if ← keyword? word then
      keywords rest
      return true
    else
      return false

/-- Takes a symbol. -/
def symbol (symbol : String) : Parser Unit := do
  let _ ← take (isSymbol symbol)

/-- Words that are no names unless they are quoted. -/
def reserved : List String :=
  ["add", "all", "alter", "and", "as", "autoincrement", "between", "case", "check", "collate",
    "commit", "constraint", "create", "default", "deferrable", "delete", "distinct", "drop", "else",
    "escape", "except", "exists", "foreign", "from", "group", "having", "in", "index", "insert",
    "intersect", "into", "is", "isnull", "join", "limit", "not", "nothing", "notnull", "null", "on",
    "or", "order", "primary", "references", "returning", "select", "set", "table", "then", "to",
    "transaction", "union", "unique", "update", "using", "values", "when", "where"]

/-- Is a token a name? -/
def isName (token : Token) : Bool :=
  token.kind == .quoted ||
    (token.kind == .word && !reserved.contains (Text.lowerAscii token.text))

/-- Is a token a name where a text can also be one? -/
def isLooseName (token : Token) : Bool :=
  isName token || token.kind == .string

/-- Takes a name. -/
def name : Parser String := do
  return (← take isLooseName).text

/-- Takes a name and notes how it is written. -/
def writtenName : Parser WrittenName := do
  let token ← take isLooseName
  return ⟨token.text, ← textBetween token.start token.stop, token.start⟩

/-- Items with commas between them, as many as the fuel allows. -/
def itemsWith (item : Parser α) : Nat → Parser (List α)
  | 0 => unexpected
  | fuel + 1 => do
    let first ← item
    if ← symbol? "," then
      return first :: (← itemsWith item fuel)
    else
      return [first]

/-- Items with commas between them. -/
def items (item : Parser α) : Parser (List α) := do
  itemsWith item ((← get).tokens.length + 1)

/-- Something in parentheses. -/
def inParens (inner : Parser α) : Parser α := do
  symbol "("
  let result ← inner
  symbol ")"
  return result

/-! ## Terms -/

/-- The number of a token, with a sign in front if there was one. -/
def numberOf (lead : String) (token : Token) : Parser Cell := do
  match NumberPrefix.scan (lead ++ token.text).toList with
  | some p =>
    if p.rest.isEmpty then return p.toCell
    else throw (.unrecognized token.text token.start)
  | none => throw (.unrecognized token.text token.start)

/-- The bytes that pairs of hexadecimal digits are. -/
def bytes? : List Char → Option (List UInt8)
  | [] => some []
  | [_] => none
  | a :: b :: rest => do
    let high ← Text.hexValue? a
    let low ← Text.hexValue? b
    let bytes ← bytes? rest
    some (UInt8.ofNat (16 * high + low) :: bytes)

/-- The value that a token writes down, if it does. -/
def literal? (token : Token) : Parser (Option Cell) := do
  match token.kind with
  | .string => return some (.text token.text)
  | .number => return some (← numberOf "" token)
  | .blob =>
    match bytes? token.text.toList with
    | some bytes => return some (.blob bytes)
    | none => throw (.unrecognized (← textBetween token.start token.stop) token.start)
  | .word => return if isKeyword "null" token then some .null else none
  | _ => return none

/-- Symbols between two terms, with their binding strength. -/
def comparisons : List (String × Nat × Comparison) :=
  [("=", 4, .eq), ("==", 4, .eq), ("<>", 4, .ne), ("!=", 4, .ne), ("<", 5, .lt), ("<=", 5, .le),
    (">", 5, .gt), (">=", 5, .ge)]

/-- The comparison that a token is, with its binding strength. -/
def comparison? (token : Token) : Option (Nat × Comparison) :=
  if token.kind = .symbol then comparisons.lookup token.text else none

/-- A column whose first name was taken. -/
def columnAfter (first : Token) : Parser (Term ColumnName) := do
  if ← symbol? "." then
    let second ← take isName
    return .column ⟨some first.text, second.text, false, first.start⟩
  else
    return .column ⟨none, first.text, first.kind == .quoted, first.start⟩

mutual

/-- A term whose parts bind at least as strongly as `least`. -/
def termWith : Nat → Nat → Parser (Term ColumnName)
  | 0, _ => unexpected
  | fuel + 1, least => do
    let first ← leadWith fuel
    tailWith fuel least first

/-- The first part of a term. -/
def leadWith : Nat → Parser (Term ColumnName)
  | 0 => unexpected
  | fuel + 1 => do
    if ← keyword? "not" then
      return .not (← termWith fuel 3)
    else if ← symbol? "-" then
      match ← takeIf fun t => t.kind == .number with
      | some token => return .literal (← numberOf "-" token)
      | none => return .negate (← leadWith fuel)
    else if ← symbol? "+" then
      leadWith fuel
    else if ← symbol? "(" then
      let inner ← termWith fuel 1
      symbol ")"
      return inner
    else
      match ← takeIf fun t => t.kind == .parameter with
      | some token => return .parameter ((Text.natural? token.text.toList).getD 0)
      | none => namedWith fuel

/-- A value that is written down, a column or a call. -/
def namedWith : Nat → Parser (Term ColumnName)
  | 0 => unexpected
  | fuel + 1 => do
    let token ← take fun t =>
      isName t || isKeyword "null" t || t.kind == .string || t.kind == .number || t.kind == .blob
    match ← literal? token with
    | some value => return .literal value
    | none =>
      if ← symbol? "(" then
        if ← symbol? ")" then
          return .callAll token.text token.start
        else if ← symbol? "*" then
          symbol ")"
          return .callAll token.text token.start
        else
          let argument ← termWith fuel 1
          symbol ")"
          return .call token.text token.start argument
      else
        columnAfter token

/-- What follows the first part of a term. -/
def tailWith : Nat → Nat → Term ColumnName → Parser (Term ColumnName)
  | 0, _, left => return left
  | fuel + 1, least, left => do
    match (← get).tokens with
    | [] => return left
    | token :: _ =>
      if isKeyword "or" token && decide (least ≤ 1) then
        keyword "or"
        tailWith fuel least (.or left (← termWith fuel 2))
      else if isKeyword "and" token && decide (least ≤ 2) then
        keyword "and"
        tailWith fuel least (.and left (← termWith fuel 3))
      else if isKeyword "is" token && decide (least ≤ 4) then
        keyword "is"
        let negated ← keyword? "not"
        keyword "null"
        tailWith fuel least (if negated then .not (.isNull left) else .isNull left)
      else if isKeyword "like" token && decide (least ≤ 4) then
        keyword "like"
        tailWith fuel least (.like left (← termWith fuel 5))
      else
        match comparison? token with
        | some (strength, op) =>
          if least ≤ strength then
            symbol token.text
            tailWith fuel least (.compare op left (← termWith fuel (strength + 1)))
          else
            return left
        | none => return left

end

/-- Terms are not deeper than this. -/
def maxDepth : Nat := 1000

/-- A term. -/
def term : Parser (Term ColumnName) := do
  let term ← termWith (3 * (← get).tokens.length + 3) 1
  if term.depth ≤ maxDepth then return term else throw .termTooDeep

/-! ## Readings -/

/-- A name for a column of a result. -/
def label? : Parser (Option String) := do
  if ← keyword? "as" then
    return some (← name)
  else
    return (← takeIf isLooseName).map Token.text

/-- One column of a result. -/
def resultColumn : Parser ResultColumn := do
  if ← symbol? "*" then
    return .all
  else
    let start ← place
    let term ← term
    let text ← textBetween start (← get).last
    return .term term (← label?) text

/-- Something behind a keyword, if the keyword comes next. -/
def clause? (word : String) (inner : Parser α) : Parser (Option α) := do
  if ← keyword? word then
    return some (← inner)
  else
    return none

/-- A list behind two keywords, if the first keyword comes next. -/
def listAfter (words : List String) (item : Parser α) : Parser (List α) := do
  if ← keywords? words then items item else return []

/-- What rows are sorted by; nulls come first unless the order descends or they are placed. -/
def sortTerm : Parser SortTerm := do
  let term ← term
  let descending ← keyword? "desc"
  if !descending then
    let _ ← keyword? "asc"
  if ← keyword? "nulls" then
    if ← keyword? "first" then
      return ⟨term, descending, true⟩
    else
      keyword "last"
      return ⟨term, descending, false⟩
  else
    return ⟨term, descending, !descending⟩

/-- Do tuples have the same length? -/
def isEven (rows : List (List (Term ColumnName))) : Bool :=
  match rows with
  | [] => true
  | first :: rest => rest.all fun row => row.length == first.length

/-- Tuples behind VALUES. -/
def tuples : Parser (List (List (Term ColumnName))) := do
  let rows ← items (inParens (items term))
  if isEven rows then return rows else throw .unlikeTuples

/-- The reading that a name stands for, the latest first. -/
def named? (names : List (String × Reading)) (name : String) : Option (String × Reading) :=
  names.find? fun (n, _) => Text.sameAscii n name

mutual

/-- A reading, where some names stand for readings. -/
def readingWith : Nat → List (String × Reading) → Parser Reading
  | 0, _ => unexpected
  | fuel + 1, names => do
    if ← keyword? "with" then
      namesWith fuel names
    else if ← keyword? "values" then
      return .values (← tuples)
    else
      keyword "select"
      let columns ← items resultColumn
      let source ← sourceWith fuel names
      let condition ← clause? "where" term
      let groups ← listAfter ["group", "by"] term
      let order ← listAfter ["order", "by"] sortTerm
      let limit ← clause? "limit" term
      let offset ← if limit.isSome then clause? "offset" term else pure none
      return .select columns source condition groups order limit offset

/-- Names for readings, and the reading behind them. -/
def namesWith : Nat → List (String × Reading) → Parser Reading
  | 0, _ => unexpected
  | fuel + 1, names => do
    let label ← name
    keyword "as"
    symbol "("
    let inner ← readingWith fuel names
    symbol ")"
    let names := (label, inner) :: names
    if ← symbol? "," then namesWith fuel names else readingWith fuel names

/-- Where a reading takes its rows from. -/
def sourceWith : Nat → List (String × Reading) → Parser Source
  | 0, _ => unexpected
  | fuel + 1, names => do
    if ← keyword? "from" then
      if ← symbol? "(" then
        let inner ← readingWith fuel names
        symbol ")"
        return .reading none inner
      else
        let label ← name
        match named? names label with
        | some (label, inner) => return .reading (some label) inner
        | none => return .table label
    else
      return .nothing

end

/-- A reading. -/
def reading : Parser Reading := do
  readingWith (2 * (← get).tokens.length + 2) []

/-! ## Tables and indexes -/

/-- The words of a type, as many as the fuel allows. -/
def skipNames : Nat → Parser Unit
  | 0 => pure ()
  | fuel + 1 => do
    match ← takeIf isLooseName with
    | some _ => skipNames fuel
    | none => pure ()

/-- A number with an optional sign. -/
def signedNumber : Parser Unit := do
  if !(← symbol? "-") then
    let _ ← symbol? "+"
  let _ ← take fun t => t.kind == .number

/-- The types that are written in capitals wherever they are shown. -/
def standardTypes : List String := ["ANY", "BLOB", "INT", "INTEGER", "REAL", "TEXT"]

/-- The type of a column, which may be left out. -/
def columnType : Parser String := do
  let start ← place
  match ← takeIf isLooseName with
  | none => return ""
  | some first =>
    skipNames (← get).tokens.length
    if ← symbol? "(" then
      signedNumber
      if ← symbol? "," then
        signedNumber
      symbol ")"
    let stop := (← get).last
    let written ← if stop = first.stop then pure first.text else textBetween start stop
    return (standardTypes.find? fun t => Text.sameAscii t written).getD written

/-- What a bare word stands for as a value: a truth value, or its own text. -/
def wordValue (token : Token) : Cell :=
  if isKeyword "true" token then .integer 1
  else if isKeyword "false" token then .integer 0
  else .text token.text

/-- A default: a value, a bare word, or a term in parentheses. -/
def defaultValue : Parser (String × Term ColumnName) := do
  let start ← place
  match ← takeIf isName with
  | some token => return (← textBetween start (← get).last, .literal (wordValue token))
  | none =>
    let isTerm ← symbol? "("
    let inner ← place
    let value ← if isTerm then term else do leadWith ((← get).tokens.length + 1)
    let text ← textBetween inner (← get).last
    if isTerm then
      symbol ")"
    return (text, value)

/-- When a reference is checked: only one that says so waits for the end of the transaction. -/
def deferral : Parser Bool := do
  if ← keyword? "not" then
    keyword "deferrable"
    return false
  else if ← keyword? "deferrable" then
    if ← keyword? "initially" then
      if ← keyword? "deferred" then
        return true
      else
        keyword "immediate"
        return false
    else
      return false
  else
    return false

/-- A reference to another table. -/
def referenceClause : Parser ReferenceClause := do
  let table ← name
  let target ← if ← symbol? "(" then do
      let column ← name
      symbol ")"
      pure (some column)
    else
      pure none
  return ⟨table, target, ← deferral⟩

/-- The constraints of a column, as many as the fuel allows. -/
def columnConstraints : Nat → ColumnClause → Parser ColumnClause
  | 0, column => return column
  | fuel + 1, column => do
    if ← keyword? "not" then
      keyword "null"
      columnConstraints fuel { column with notNull := true }
    else if ← keyword? "null" then
      columnConstraints fuel column
    else if ← keywords? ["primary", "key"] then
      if !(← keyword? "desc") then
        let _ ← keyword? "asc"
      columnConstraints fuel { column with key := some ⟨← keyword? "autoincrement"⟩ }
    else if ← keyword? "unique" then
      columnConstraints fuel { column with unique := true }
    else if ← keyword? "default" then
      columnConstraints fuel { column with default := some (← defaultValue) }
    else if ← keyword? "references" then
      columnConstraints fuel { column with reference := some (← referenceClause) }
    else
      return column

/-- A column of a table that is to be made. -/
def columnClause : Parser ColumnClause := do
  let label ← name
  let type ← columnType
  columnConstraints (← get).tokens.length ⟨label, type, false, false, none, none, none⟩

/-- A column, or a constraint on several. -/
def tablePart : Parser (ColumnClause ⊕ TableClause) := do
  if ← keywords? ["primary", "key"] then
    return .inr (.key (← inParens (items name)))
  else if ← keyword? "unique" then
    return .inr (.unique (← inParens (items name)))
  else
    return .inl (← columnClause)

/-- The table that CREATE TABLE makes. -/
def createTable : Parser Action := do
  let ifAbsent ← keywords? ["if", "not", "exists"]
  let label ← writtenName
  let parts ← inParens (items tablePart)
  let text ← textBetween label.start (← get).last
  return .createTable label ifAbsent (parts.filterMap Sum.getLeft?) (parts.filterMap Sum.getRight?)
    text

/-- The index that CREATE INDEX makes. -/
def createIndex (unique : Bool) : Parser Action := do
  keyword "index"
  let ifAbsent ← keywords? ["if", "not", "exists"]
  let label ← writtenName
  keyword "on"
  let table ← name
  return .createIndex label unique ifAbsent table (← inParens (items name))

/-! ## Changes -/

/-- What is behind INSERT INTO. -/
def insert : Parser Action := do
  let table ← name
  let columns ← if ← symbol? "(" then do
      let columns ← items name
      symbol ")"
      pure (some columns)
    else
      pure none
  if ← keywords? ["default", "values"] then
    return .insertDefaults table
  else
    keyword "values"
    return .insert table columns (← tuples)

/-- A column that is set to a term. -/
def change : Parser (String × Term ColumnName) := do
  let column ← name
  symbol "="
  return (column, ← term)

/-- A statement. -/
def action : Parser Action := do
  if ← keyword? "create" then
    if ← keyword? "table" then
      createTable
    else
      createIndex (← keyword? "unique")
  else if ← keywords? ["drop", "table"] then
    let ifPresent ← keywords? ["if", "exists"]
    return .dropTable (← name) ifPresent
  else if ← keywords? ["insert", "into"] then
    insert
  else if ← keyword? "update" then
    let table ← name
    keyword "set"
    let changes ← items change
    return .update table changes (← clause? "where" term)
  else if ← keywords? ["delete", "from"] then
    let table ← name
    return .delete table (← clause? "where" term)
  else if ← keyword? "pragma" then
    return .setting (← name)
  else
    return .read (← reading)

/-- A statement with a semicolon behind it if anything follows; nothing at all is no statement. -/
def statement : Parser (Option Action) := do
  if (← get).tokens.isEmpty || (← symbol? ";") then
    return none
  else
    let action ← action
    if !(← get).tokens.isEmpty then
      symbol ";"
    return some action

end Parser

/-- One statement of a text, with the text from its start to the end of all. -/
structure Passage where
  source : List Char
  tokens : List Token

namespace Passage

/-- Tokens, the first statement of which is cut off behind its semicolon. -/
def cut : List Token → List (List Token)
  | [] => [[]]
  | token :: rest =>
    if Parser.isSymbol ";" token then
      [token] :: cut rest
    else
      match cut rest with
      | [] => [[token]]
      | first :: others => (token :: first) :: others

/-- The statements, each with its own view of the text. -/
def place (text : List Char) : Nat → List (List Token) → List Passage
  | _, [] => []
  | start, tokens :: rest =>
    let source := Token.slice text start (String.ofList text).utf8ByteSize
    let next := match tokens.getLast? with
      | some token => token.stop
      | none => start
    ⟨source, tokens.map fun t => { t with start := t.start - start, stop := t.stop - start }⟩ ::
      place text next rest

/-- The statements of a text, which ends at a character of number zero for the reader. -/
def ofText (text : String) : List Passage :=
  place text.toList 0 (cut (Token.ofText (text.toList.takeWhile fun c => c.toNat != 0)))

/-- What a passage says. -/
def action (passage : Passage) : Except Fault (Option Action) :=
  (Parser.statement.run ⟨passage.source, passage.tokens, 0⟩).map Prod.fst

end Passage

end Storage

end SqlFederation
