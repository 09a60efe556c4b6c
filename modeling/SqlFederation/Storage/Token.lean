/-!
# Tokens of SQL text

`Token.ofText` cuts a text into tokens in one pass over its characters. Each token knows where it
starts and stops, in bytes. Blanks and comments are no tokens.
-/

namespace SqlFederation

namespace Storage

/-- The kind of a token. -/
inductive TokenKind where
  /-- A name or a keyword. -/
  | word
  /-- A name in quotes. -/
  | quoted
  /-- A text in single quotes. -/
  | string
  /-- Hexadecimal digits in single quotes. -/
  | blob
  | number
  /-- A placeholder; its text is its number. -/
  | parameter
  | symbol
  /-- Something that is no token. -/
  | illegal
  deriving DecidableEq

/-- A token; quotes around its text are taken off and doubled ones inside are single. -/
structure Token where
  kind : TokenKind
  text : String
  start : Nat
  stop : Nat
  deriving DecidableEq

namespace Token

/-- What the characters since the last token form; characters are kept in reverse. -/
inductive Mode where
  | between
  | inWord (done : List Char)
  | inNumber (done : List Char)
  | inParameter (done : List Char)
  | inQuotes (kind : TokenKind) (close : Char) (done : List Char)
  /-- A closing quote was read; another one would stand for one inside. -/
  | closing (kind : TokenKind) (close : Char) (done : List Char)
  | inSymbol (first : Char)
  | inLineComment
  | inBlockComment (star : Bool)

/-- The tokens so far in reverse, where the current one starts, and where the reader stands. -/
structure State where
  mode : Mode
  start : Nat
  offset : Nat
  tokens : List Token

/-- A character of a name. -/
def isNameChar (c : Char) : Bool :=
  c.isAlphanum || c == '_' || c == '$' || decide (127 < c.toNat)

/-- A blank between tokens. -/
def isSpace (c : Char) : Bool :=
  c == ' ' || c == '\n' || c == '\t' || c == '\r' || decide (c.toNat = 12)

/-- Characters that may be the first of two that form one symbol. -/
def startsPair (c : Char) : Bool :=
  "<>=!|-/.".toList.contains c

/-- Do two characters form one symbol? -/
def isPair (a b : Char) : Bool :=
  ["<=", ">=", "<>", "<<", ">>", "==", "!=", "||"].contains (String.ofList [a, b])

/-- Characters that are symbols by themselves. -/
def isSymbol (c : Char) : Bool :=
  "(),;*+&~%".toList.contains c || startsPair c

namespace State

/-- Adds a token that ends before the reader. -/
def emit (s : State) (kind : TokenKind) (done : List Char) : State :=
  { s with
    mode := .between
    tokens := ⟨kind, String.ofList done.reverse, s.start, s.offset⟩ :: s.tokens }

/-- Ends the current token, if there is one. -/
def flush (s : State) : State :=
  match s.mode with
  | .between | .inLineComment | .inBlockComment _ => { s with mode := .between }
  | .inWord done => s.emit .word done
  | .inNumber done => s.emit .number done
  | .inParameter done => s.emit .parameter done
  | .inQuotes _ close done => s.emit .illegal (done ++ [close])
  | .closing kind _ done => s.emit kind done
  | .inSymbol c => s.emit .symbol [c]

/-- A character that starts something. -/
def begin (s : State) (c : Char) : State :=
  let s := { s with start := s.offset }
  if isSpace c then { s with mode := .between }
  else if c.isDigit then { s with mode := .inNumber [c] }
  else if isNameChar c then { s with mode := .inWord [c] }
  else if c = '"' then { s with mode := .inQuotes .quoted c [] }
  else if c = '\'' then { s with mode := .inQuotes .string c [] }
  else if c.toNat = 0x60 then { s with mode := .inQuotes .quoted c [] }
  else if c = '[' then { s with mode := .inQuotes .quoted ']' [] }
  else if c = '?' then { s with mode := .inParameter [] }
  else if isSymbol c then { s with mode := .inSymbol c }
  else
    { s with
      mode := .between
      tokens := ⟨.illegal, String.singleton c, s.offset, s.offset + c.utf8Size⟩ :: s.tokens }

/-- Adds a token that ends behind the current character. -/
def emitThrough (s : State) (kind : TokenKind) (text : List Char) (c : Char) : State :=
  { s with
    mode := .between
    tokens := ⟨kind, String.ofList text, s.start, s.offset + c.utf8Size⟩ :: s.tokens }

/-- Reads one character. -/
def read (s : State) (c : Char) : State :=
  match s.mode with
  | .between => s.begin c
  | .inWord done =>
    if isNameChar c then { s with mode := .inWord (c :: done) }
    else if c = '\'' ∧ (done = ['x'] ∨ done = ['X']) then { s with mode := .inQuotes .blob c [] }
    else s.flush.begin c
  | .inNumber done =>
    let afterE := match done with
      | 'e' :: _ | 'E' :: _ => true
      | _ => false
    if isNameChar c || c == '.' || (afterE && (c == '+' || c == '-')) then
      { s with mode := .inNumber (c :: done) }
    else
      s.flush.begin c
  | .inParameter done =>
    if c.isDigit then { s with mode := .inParameter (c :: done) } else s.flush.begin c
  | .inQuotes kind close done =>
    if c = close then { s with mode := .closing kind close done }
    else { s with mode := .inQuotes kind close (c :: done) }
  | .closing kind close done =>
    if c = close ∧ close ≠ ']' then { s with mode := .inQuotes kind close (c :: done) }
    else s.flush.begin c
  | .inSymbol first =>
    if first = '-' ∧ c = '-' then { s with mode := .inLineComment }
    else if first = '/' ∧ c = '*' then { s with mode := .inBlockComment false }
    else if first = '.' ∧ c.isDigit then { s with mode := .inNumber [c, '.'] }
    else if isPair first c then s.emitThrough .symbol [first, c] c
    else s.flush.begin c
  | .inLineComment => if c = '\n' then { s with mode := .between } else s
  | .inBlockComment star =>
    if star && c == '/' then { s with mode := .between }
    else { s with mode := .inBlockComment (c == '*') }

/-- Reads one character and moves behind it. -/
def step (s : State) (c : Char) : State :=
  let s := s.read c
  { s with offset := s.offset + c.utf8Size }

end State

/-- The tokens of a text. -/
def ofText (text : List Char) : List Token :=
  ((text.foldl State.step ⟨.between, 0, 0, []⟩).flush).tokens.reverse

/-- The characters of a text between two byte offsets. -/
def slice (text : List Char) (start stop : Nat) : List Char :=
  (text.foldl
    (fun (offset, taken) c =>
      (offset + c.utf8Size, if start ≤ offset ∧ offset < stop then c :: taken else taken))
    ((0 : Nat), ([] : List Char))).2.reverse

end Token

end Storage

end SqlFederation
