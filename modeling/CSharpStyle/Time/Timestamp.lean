/-!
# Points in time

A point in time is counted in seconds from the beginning of 1970 in universal time. It is written as a date and
a time of day in the proleptic Gregorian calendar.
-/

namespace CSharpStyle

structure Timestamp where
  seconds : Int
  nanoseconds : Nat
  deriving DecidableEq, Repr, Inhabited

structure Date where
  year : Int
  month : Nat
  day : Nat
  deriving DecidableEq, Repr, Inhabited

namespace Date

def isLeapYear (year : Int) : Bool := year % 4 == 0 && (year % 100 != 0 || year % 400 == 0)

def daysInMonth (year : Int) (month : Nat) : Nat :=
  match month with
  | 2 => if isLeapYear year then 29 else 28
  | 4 | 6 | 9 | 11 => 30
  | _ => 31

def isValid (d : Date) : Bool := 1 ≤ d.month && d.month ≤ 12 && 1 ≤ d.day && d.day ≤ daysInMonth d.year d.month

/-- The days from the beginning of 1970. Years are counted from March, so that a leap day ends its year. -/
def toDays (d : Date) : Int :=
  let year := if d.month ≤ 2 then d.year - 1 else d.year
  let era := year / 400
  let yearOfEra := year - era * 400
  let dayOfYear : Int := (153 * ((d.month + 9) % 12) + 2) / 5 + d.day - 1
  era * 146097 + yearOfEra * 365 + yearOfEra / 4 - yearOfEra / 100 + dayOfYear - 719468

def ofDays (days : Int) : Date :=
  let shifted := days + 719468
  let era := shifted / 146097
  let dayOfEra := (shifted - era * 146097).toNat
  let yearOfEra := (dayOfEra - dayOfEra / 1460 + dayOfEra / 36524 - dayOfEra / 146096) / 365
  let dayOfYear := dayOfEra - (365 * yearOfEra + yearOfEra / 4 - yearOfEra / 100)
  let shiftedMonth := (5 * dayOfYear + 2) / 153
  let month := if shiftedMonth < 10 then shiftedMonth + 3 else shiftedMonth - 9
  let year := era * 400 + yearOfEra
  ⟨if month ≤ 2 then year + 1 else year, month, dayOfYear - (153 * shiftedMonth + 2) / 5 + 1⟩

end Date

namespace Timestamp

/-- A number with at least `width` digits. -/
def padded (width n : Nat) : String :=
  let digits := Nat.toDigits 10 n
  String.ofList (List.replicate (width - digits.length) '0' ++ digits)

def date (t : Timestamp) : Date := .ofDays (t.seconds / 86400)

def secondOfDay (t : Timestamp) : Nat := (t.seconds % 86400).toNat

def dateText (t : Timestamp) : String :=
  s!"{padded 4 t.date.year.toNat}-{padded 2 t.date.month}-{padded 2 t.date.day}"

def timeText (t : Timestamp) : String :=
  s!"{padded 2 (t.secondOfDay / 3600)}:{padded 2 (t.secondOfDay / 60 % 60)}:{padded 2 (t.secondOfDay % 60)}"

/-- The form for readers. -/
def text (t : Timestamp) : String := s!"{t.dateText} {t.timeText} UTC"

/-- Fractions of a second, in the form of RFC 3339. -/
def fractionText (t : Timestamp) : String :=
  if t.nanoseconds == 0 then "" else "." ++ padded 9 t.nanoseconds

/-- The form of RFC 3339. -/
def print (t : Timestamp) : String := s!"{t.dateText}T{t.timeText}{t.fractionText}Z"

/-! ## Reading -/

/-- A number of one to `width` digits at the beginning. -/
def number? (width : Nat) (text : List Char) : Option (Nat × List Char) :=
  let digits := (text.take width).takeWhile Char.isDigit
  if digits.isEmpty then none
  else some (digits.foldl (fun n c => n * 10 + (c.toNat - '0'.toNat)) 0, text.drop digits.length)

/-- The text behind a mark. -/
def behind? (marks : List Char) (text : List Char) : Option (List Char) :=
  match text with
  | c :: rest => if marks.contains c then some rest else none
  | [] => none

def fraction? (text : List Char) : Option (Nat × List Char) :=
  match text with
  | '.' :: rest =>
    let digits := rest.takeWhile Char.isDigit
    (number? 9 rest).map fun (n, _) => (n * Nat.pow 10 (9 - min 9 digits.length), rest.drop digits.length)
  | _ => some (0, text)

/-- The distance from universal time in seconds. -/
def offset? (text : List Char) : Option Int :=
  match text with
  | ['Z'] | ['z'] => some 0
  | sign :: h1 :: h2 :: rest =>
    let minutes := (behind? [':', ' '] rest).getD rest
    match minutes with
    | [m1, m2] =>
      if [h1, h2, m1, m2].all Char.isDigit && m1 < '6' then do
        let (hours, _) ← number? 2 [h1, h2]
        let (minutes, _) ← number? 2 [m1, m2]
        let distance := hours * 3600 + minutes * 60
        if 86400 ≤ distance then none
        else if sign = '+' then some distance
        else if sign = '-' then some (-distance)
        else none
      else none
    | _ => none
  | _ => none

/-- Reads the form of RFC 3339. -/
def parse? (text : String) : Option Timestamp := do
  let (year, rest) ← number? 4 text.toList
  let (month, rest) ← number? 2 (← behind? ['-'] rest)
  let (day, rest) ← number? 2 (← behind? ['-'] rest)
  let (hour, rest) ← number? 2 (← behind? ['T', 't', ' '] rest)
  let (minute, rest) ← number? 2 (← behind? [':'] rest)
  let (second, rest) ← number? 2 (← behind? [':'] rest)
  let (fraction, rest) ← fraction? rest
  let offset ← offset? rest
  let date : Date := ⟨year, month, day⟩
  if date.isValid && hour < 24 && minute < 60 && second ≤ 60 then
    some ⟨date.toDays * 86400 + (hour * 3600 + minute * 60 + second : Nat) - offset, fraction⟩
  else none

end Timestamp

end CSharpStyle
