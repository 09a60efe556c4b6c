import SqlFederation.Text.Blank
import SqlFederation.Text.Case
import SqlFederation.Text.Digits

/-!
# Points in time

A point in time is a count of nanoseconds since the start of 1970. Its text is a date, a time of day
and an offset from UTC, as in `2020-01-31T12:00:00.5+01:00`. Reading is lenient: parts may have
fewer digits, blanks may stand in front of them, and a blank may stand where the `T` does. Years are
those from -262143 to 262142.
-/

namespace SqlFederation

/-- Nanoseconds since the start of 1970. -/
abbrev Time := Int

namespace Time

/-- The nanoseconds of a second. -/
def second : Int := 1000000000

/-- Is this a leap year? -/
def isLeap (year : Int) : Bool :=
  (year % 4 == 0 && year % 100 != 0) || year % 400 == 0

/-- The days of a month. -/
def daysOfMonth (year : Int) (month : Nat) : Nat :=
  match month with
  | 2 => if isLeap year then 29 else 28
  | 4 | 6 | 9 | 11 => 30
  | _ => 31

/-- The days from the start of 1970 to a date; years start in March, so a leap day comes last. -/
def daysOf (year : Int) (month day : Nat) : Int :=
  let y := if month ≤ 2 then year - 1 else year
  let era := y / 400
  let yearOfEra := y - era * 400
  let shifted : Nat := if month ≤ 2 then month + 9 else month - 3
  let dayOfYear : Int := (153 * shifted + 2) / 5 + day - 1
  let dayOfEra := yearOfEra * 365 + yearOfEra / 4 - yearOfEra / 100 + dayOfYear
  era * 146097 + dayOfEra - 719468

/-- The date of a day: year, month and day of the month. -/
def dateOf (days : Int) : Int × Nat × Nat :=
  let z := days + 719468
  let era := z / 146097
  let dayOfEra := z - era * 146097
  let yearOfEra := (dayOfEra - dayOfEra / 1460 + dayOfEra / 36524 - dayOfEra / 146096) / 365
  let dayOfYear := dayOfEra - (365 * yearOfEra + yearOfEra / 4 - yearOfEra / 100)
  let shifted := (5 * dayOfYear + 2) / 153
  let day := (dayOfYear - (153 * shifted + 2) / 5 + 1).toNat
  let month := if shifted < 10 then (shifted + 3).toNat else (shifted - 9).toNat
  let year := yearOfEra + era * 400
  (if month ≤ 2 then year + 1 else year, month, day)

/-- A number of at most `width` digits, and the rest. -/
def digits? (width : Nat) (text : List Char) : Option (Nat × List Char) :=
  match Text.spanDigits (text.take width) with
  | ([], _) => none
  | (digits, _) => some (Text.valueOf digits, text.drop digits.length)

/-- A number of at most two digits behind blanks, and the rest. -/
def number? (text : List Char) : Option (Nat × List Char) :=
  digits? 2 (Text.trimStart text)

/-- A year behind blanks; behind a sign it may have any number of digits. -/
def year? (text : List Char) : Option (Int × List Char) :=
  match Text.trimStart text with
  | '-' :: rest => (digits? rest.length rest).map fun (n, rest) => (-(n : Int), rest)
  | '+' :: rest => (digits? rest.length rest).map fun (n, rest) => ((n : Int), rest)
  | text => (digits? 4 text).map fun (n, rest) => ((n : Int), rest)

/-- A character behind blanks, and the rest. -/
def char? (wanted : Char) (text : List Char) : Option (List Char) :=
  match Text.trimStart text with
  | c :: rest => if c = wanted then some rest else none
  | [] => none

/-- The nanoseconds of a fraction of a second; digits beyond the ninth are dropped. -/
def fraction? (text : List Char) : Option (Nat × List Char) :=
  match text with
  | '.' :: rest =>
    match Text.spanDigits rest with
    | ([], _) => none
    | (digits, rest) =>
      let kept := digits.take 9
      some (Text.valueOf kept * Nat.pow 10 (9 - kept.length), rest)
  | text => some (0, text)

/-- A number of just two digits, and the rest. -/
def twoDigits? : List Char → Option (Nat × List Char)
  | a :: b :: rest => (Text.natural? [a, b]).map fun n => (n, rest)
  | _ => none

/-- The seconds of hours and minutes, any colons and blanks between them, and the rest. -/
def hoursAndMinutes? (text : List Char) : Option (Nat × List Char) := do
  let (hours, rest) ← twoDigits? text
  let (minutes, rest) ← twoDigits? (rest.dropWhile fun c => c == ':' || Text.isBlank c)
  if minutes < 60 ∧ hours < 24 then some (hours * 3600 + minutes * 60, rest) else none

/-- The seconds of an offset from UTC, and the rest; the sign may also be a mathematical minus. -/
def offset? (text : List Char) : Option (Int × List Char) :=
  if Text.lowerAscii (String.ofList (text.take 3)) = "utc" then
    some (0, text.drop 3)
  else
    match text with
    | 'Z' :: rest | 'z' :: rest => some (0, rest)
    | '+' :: rest => (hoursAndMinutes? rest).map fun (n, rest) => ((n : Int), rest)
    | '-' :: rest | '−' :: rest => (hoursAndMinutes? rest).map fun (n, rest) => (-(n : Int), rest)
    | _ => none

/-- The first day of all. -/
def firstDay : Int := daysOf (-262143) 1 1

/-- The last day of all. -/
def lastDay : Int := daysOf 262142 12 31

/-- Is a day one of those that are counted? -/
def isCounted (day : Int) : Bool :=
  decide (firstDay ≤ day ∧ day ≤ lastDay)

/-- The point in time that a text names. -/
def ofText? (text : String) : Option Time := do
  let (year, rest) ← year? text.toList
  let rest ← char? '-' rest
  let (month, rest) ← number? rest
  let rest ← char? '-' rest
  let (day, rest) ← number? rest
  let rest ← match rest with
    | c :: rest => if c = 'T' ∨ c = 't' ∨ c = ' ' then some rest else none
    | [] => none
  let (hour, rest) ← number? rest
  let rest ← char? ':' rest
  let (minute, rest) ← number? rest
  let rest ← char? ':' rest
  let (sec, rest) ← number? rest
  let (nanos, rest) ← fraction? rest
  let (offset, rest) ← offset? (Text.trimStart rest)
  let isTime := decide (hour < 24 ∧ minute < 60 ∧ sec ≤ 60)
  let isDate := decide (1 ≤ month ∧ month ≤ 12 ∧ 1 ≤ day ∧ day ≤ daysOfMonth year month)
  let localDay := daysOf year month day
  -- a leap second counts for the minute that it ends
  let ofMinute : Int := hour * 3600 + minute * 60 + min sec 59 - offset
  if isTime && isDate && rest.all Text.isBlank && isCounted localDay &&
      isCounted (localDay + ofMinute / 86400) then
    some ((localDay * 86400 + ofMinute + (sec - min sec 59 : Nat)) * second + nanos)
  else
    none

/-- A number with zeros in front of it up to a width. -/
def padded (width n : Nat) : String :=
  let digits := toString n
  String.ofList (List.replicate (width - digits.length) '0') ++ digits

/-- The text of a point in time, in UTC. -/
def text (time : Time) : String :=
  let seconds := time / second
  let nanos := (time % second).toNat
  let (year, month, day) := dateOf (seconds / 86400)
  let rest := (seconds % 86400).toNat
  let fraction := if nanos = 0 then "" else "." ++ padded 9 nanos
  let years :=
    if year < 0 then "-" ++ padded 4 year.natAbs
    else if 9999 < year then "+" ++ toString year
    else padded 4 year.toNat
  years ++ "-" ++ padded 2 month ++ "-" ++ padded 2 day ++ "T" ++ padded 2 (rest / 3600) ++ ":" ++
    padded 2 (rest % 3600 / 60) ++ ":" ++ padded 2 (rest % 60) ++ fraction ++ "Z"

end Time

end SqlFederation
