import SqlFederation.Json.Draft
import SqlFederation.Number.Decimal
import SqlFederation.Text.Digits
import SqlFederation.Text.Hex

/-!
# Reading JSON text

`Lexer.run` cuts a text into tokens, one character at a time, and `Builder.run` nests the tokens to
a draft. Both are folds, so they end with their input. `read?` keeps every entry of an object as it
was written; `merged` then gives a repeated key its first place and its last value. `readShown?`
reads only what a record has use for. Containers nest at most 127 deep.
-/

namespace SqlFederation

namespace Json

/-- A token of JSON text. -/
inductive Token where
  | openList
  | closeList
  | openObject
  | closeObject
  | colon
  | comma
  | text (value : Option String)
  | number (value : Option Number)
  | word (value : Draft)

namespace Lexer

/-- What a text is made of: characters, and halves of pairs that stand for one together. -/
inductive Piece where
  | char (c : Char)
  | half (value : Nat)

namespace Piece

/-- The piece that a number of four hexadecimal digits stands for. -/
def ofCode (value : Nat) : Piece :=
  if 0xD800 ≤ value ∧ value < 0xE000 then .half value else .char (Char.ofNat value)

/-- The character of a pair, the high half in front. -/
def pair? (high low : Nat) : Option Char :=
  if high < 0xDC00 ∧ 0xDC00 ≤ low then
    some (Char.ofNat (0x10000 + (high - 0xD800) * 0x400 + (low - 0xDC00)))
  else
    none

/-- The text of pieces; a half that is not part of a pair has none. -/
def text? : List Piece → Option (List Char)
  | [] => some []
  | .char c :: rest => (text? rest).map (c :: ·)
  | .half high :: .half low :: rest => do
    let c ← pair? high low
    (text? rest).map (c :: ·)
  | .half _ :: _ => none

end Piece

/-- What the characters since the last token form; they are kept in reverse. -/
inductive Mode where
  | between
  | inText (done : List Piece)
  | inEscape (done : List Piece)
  /-- Four hexadecimal digits follow a backslash and a `u`. -/
  | inCode (done : List Piece) (digits : Nat) (value : Nat)
  | inNumber (done : List Char)
  | inWord (done : List Char)

/-- The lexer between two characters; tokens are kept in reverse. -/
structure State where
  mode : Mode
  tokens : List Token

/-- Characters that a number token is made of. -/
def isNumberChar (c : Char) : Bool :=
  c.isDigit || c == '-' || c == '+' || c == '.' || c == 'e' || c == 'E'

/-- An optional exponent that ends the token. -/
def exponent? : List Char → Option Int
  | [] => some 0
  | c :: rest =>
    if c = 'e' ∨ c = 'E' then
      let (negative, rest) := match rest with
        | '-' :: rest => (true, rest)
        | '+' :: rest => (false, rest)
        | rest => (false, rest)
      match Text.spanDigits rest with
      | ([], _) => none
      | (digits, []) =>
        some (if negative then -(Text.valueOf digits : Int) else (Text.valueOf digits : Int))
      | _ => none
    else
      none

/--
The number of a token that is well formed, or none if it is too large. Without a point and an
exponent it is an integer, unless 64 bits do not hold it or it is a negative zero.
-/
def number? (text : List Char) : Option (Option Number) :=
  let real := fun (negative : Bool) (whole fraction : List Nat) (exponent : Int) =>
    (Binary64.ofDecimalDigits? negative whole fraction exponent).map .real
  let (negative, rest) := match text with
    | '-' :: rest => (true, rest)
    | rest => (false, rest)
  match Text.spanDigits rest with
  | ([], _) => none
  | (0 :: _ :: _, _) => none
  | (whole, []) =>
    let value := Text.valueOf whole
    if negative then
      if 0 < value ∧ value ≤ 9223372036854775808 then some (some (.int (-(value : Int))))
      else some (real true whole [] 0)
    else if value ≤ 18446744073709551615 then some (some (.int value))
    else some (real false whole [] 0)
  | (whole, '.' :: rest) =>
    match Text.spanDigits rest with
    | ([], _) => none
    | (fraction, rest) => (exponent? rest).map (real negative whole fraction)
  | (whole, rest) => (exponent? rest).map (real negative whole [])

/-- The three words of JSON. -/
def word? (text : List Char) : Option Draft :=
  if text = "null".toList then some .null
  else if text = "true".toList then some (.bool true)
  else if text = "false".toList then some (.bool false)
  else none

/-- Ends a number or a word, if one was being read. -/
def flush (s : State) : Option State :=
  match s.mode with
  | .inNumber done => do
    let n ← number? done.reverse
    some ⟨.between, .number n :: s.tokens⟩
  | .inWord done => do
    let w ← word? done.reverse
    some ⟨.between, .word w :: s.tokens⟩
  | .between => some s
  | _ => none

/-- A character outside a text. -/
def start (tokens : List Token) (c : Char) : Option State :=
  match c with
  | ' ' | '\n' | '\r' | '\t' => some ⟨.between, tokens⟩
  | '[' => some ⟨.between, .openList :: tokens⟩
  | ']' => some ⟨.between, .closeList :: tokens⟩
  | '\x7b' => some ⟨.between, .openObject :: tokens⟩
  | '\x7d' => some ⟨.between, .closeObject :: tokens⟩
  | ':' => some ⟨.between, .colon :: tokens⟩
  | ',' => some ⟨.between, .comma :: tokens⟩
  | '"' => some ⟨.inText [], tokens⟩
  | c =>
    if c.isDigit || c == '-' then some ⟨.inNumber [c], tokens⟩
    else if c.isLower then some ⟨.inWord [c], tokens⟩
    else none

/-- The character of a one-letter escape. -/
def escape? (c : Char) : Option Char :=
  match c with
  | '"' => some '"'
  | '\\' => some '\\'
  | '/' => some '/'
  | 'b' => some (Char.ofNat 8)
  | 'f' => some (Char.ofNat 12)
  | 'n' => some '\n'
  | 'r' => some '\r'
  | 't' => some '\t'
  | _ => none

/-- Reads one character. -/
def step (s : State) (c : Char) : Option State :=
  match s.mode with
  | .between => start s.tokens c
  | .inNumber done =>
    if isNumberChar c then some ⟨.inNumber (c :: done), s.tokens⟩
    else do
      let s ← flush s
      start s.tokens c
  | .inWord done =>
    if c.isLower then some ⟨.inWord (c :: done), s.tokens⟩
    else do
      let s ← flush s
      start s.tokens c
  | .inText done =>
    if c = '"' then
      some ⟨.between, .text ((Piece.text? done.reverse).map String.ofList) :: s.tokens⟩
    else if c = '\\' then some ⟨.inEscape done, s.tokens⟩
    else if c.toNat < 32 then none
    else some ⟨.inText (.char c :: done), s.tokens⟩
  | .inEscape done =>
    if c = 'u' then some ⟨.inCode done 0 0, s.tokens⟩
    else do
      let d ← escape? c
      some ⟨.inText (.char d :: done), s.tokens⟩
  | .inCode done digits value => do
    let v ← Text.hexValue? c
    let value := value * 16 + v
    if digits = 3 then some ⟨.inText (.ofCode value :: done), s.tokens⟩
    else some ⟨.inCode done (digits + 1) value, s.tokens⟩

/-- All tokens of a text. -/
def run (text : List Char) : Option (List Token) := do
  let s ← text.foldlM step ⟨.between, []⟩
  let s ← flush s
  match s.mode with
  | .between => some s.tokens.reverse
  | _ => none

end Lexer

namespace Builder

/-- An open container; items and entries are kept in reverse. -/
inductive Frame where
  | list (done : List Draft)
  | object (done : List (Option String × Draft)) (key : Option String)

/-- What may come next. -/
inductive State where
  /-- A value; `first` says that a container was just opened, which may also close at once. -/
  | value (frames : List Frame) (first : Bool)
  /-- A key; `first` says that the object was just opened. -/
  | key (done : List (Option String × Draft)) (frames : List Frame) (first : Bool)
  | colon (done : List (Option String × Draft)) (key : Option String) (frames : List Frame)
  /-- A comma or the end of the innermost container. -/
  | after (frames : List Frame)
  | finished (draft : Draft)

/-- Puts a complete draft into the innermost container. -/
def complete (frames : List Frame) (draft : Draft) : State :=
  match frames with
  | [] => .finished draft
  | .list done :: rest => .after (.list (draft :: done) :: rest)
  | .object done key :: rest => .after (.object ((key, draft) :: done) key :: rest)

/-- Reads one token. -/
def step (s : State) (t : Token) : Option State :=
  match s, t with
  | .value frames _, .text v => some (complete frames (.str v))
  | .value frames _, .number v => some (complete frames (.num v))
  | .value frames _, .word v => some (complete frames v)
  | .value frames _, .openList => some (.value (.list [] :: frames) true)
  | .value frames _, .openObject => some (.key [] frames true)
  | .value (.list done :: rest) true, .closeList => some (complete rest (.arr done.reverse))
  | .key done frames _, .text k => some (.colon done k frames)
  | .key done frames true, .closeObject => some (complete frames (.obj done.reverse))
  | .colon done k frames, .colon => some (.value (.object done k :: frames) false)
  | .after (.list done :: rest), .comma => some (.value (.list done :: rest) false)
  | .after (.list done :: rest), .closeList => some (complete rest (.arr done.reverse))
  | .after (.object done _ :: rest), .comma => some (.key done rest false)
  | .after (.object done _ :: rest), .closeObject => some (complete rest (.obj done.reverse))
  | _, _ => none

/-- The one draft that the tokens form. -/
def run (tokens : List Token) : Option Draft := do
  match ← tokens.foldlM step (.value [] false) with
  | .finished draft => some draft
  | _ => none

end Builder

/-- The draft of a text. -/
def draft? (text : String) : Option Draft := do
  Builder.run (← Lexer.run text.toList)

/-- The deepest nesting of containers that is read. -/
def maxDepth : Nat := 127

/-- The value of a text, every entry of an object in its place. -/
def read? (text : String) : Option Json := do
  (← draft? text).value? maxDepth

/-- The value of a text without the entries that a reader passes over. -/
def readShown? (shape : Shape) (text : String) : Option Json := do
  (← draft? text).shown? maxDepth shape

/-- Sets the value of a key: in its place if it is there, else at the end. -/
def put {α : Type} (key : String) (value : α) : List (String × α) → List (String × α)
  | [] => [(key, value)]
  | (k, v) :: rest => if k = key then (k, value) :: rest else (k, v) :: put key value rest

mutual

/-- The same value with every repeated key kept once: its first place and its last value. -/
def merged : Json → Json
  | .arr items => .arr (mergedItems items)
  | .obj entries => .obj (mergedEntries [] entries)
  | value => value

/-- Merges inside every item. -/
def mergedItems : List Json → List Json
  | [] => []
  | item :: rest => merged item :: mergedItems rest

/-- Adds the entries, merged inside, to those already there. -/
def mergedEntries (done : List (String × Json)) : List (String × Json) → List (String × Json)
  | [] => done
  | (key, value) :: rest => mergedEntries (put key (merged value) done) rest

end

end Json

end SqlFederation
