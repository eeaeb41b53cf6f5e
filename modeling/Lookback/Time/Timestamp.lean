import Lookback.Number.Integer
import Lookback.Text.Blank
import Lookback.Text.Reader

/-!
# Points in time

A `Timestamp` is a point in time in UTC: a day of the proleptic Gregorian calendar, a second of that day, and
nanoseconds. A leap second shows as nanoseconds past one second, after second 59 of its minute.

`Timestamp.read?` reads a date, a time and an offset from UTC. It allows blanks around the parts and a single digit
where two are usual; the offset is required. `Timestamp.write` gives UTC with as few fraction digits as lose nothing:
none, three, six or nine.
-/

namespace Lookback

/-- A point in time, in UTC. -/
structure Timestamp where
  /-- Days since 1970-01-01. -/
  day : Int
  /-- Seconds since the day began, below 86400. -/
  second : Nat
  /-- Nanoseconds since that second began; past one second in a leap second. -/
  nanosecond : Nat
  deriving DecidableEq, Repr

namespace Timestamp

/-- The beginning of 1970. -/
def epoch : Timestamp := ⟨0, 0, 0⟩

/-- The point in time some milliseconds after the beginning of 1970. -/
def ofMillis (n : Nat) : Timestamp := ⟨n / 86400000, n % 86400000 / 1000, n % 1000 * 1000000⟩

/-! ## The calendar -/

/-- Whether a year has a 29th of February. -/
def isLeapYear (year : Int) : Bool := year % 4 = 0 && (year % 100 ≠ 0 || year % 400 = 0)

/-- The number of days of a month. -/
def daysInMonth (year : Int) (month : Nat) : Nat :=
  match month with
  | 2 => if isLeapYear year then 29 else 28
  | 4 | 6 | 9 | 11 => 30
  | _ => 31

/-- The number of days from 1970-01-01 to a date. Years are counted from March here, so that a leap day ends its year. -/
def dayOfDate (year : Int) (month day : Nat) : Int :=
  let y := if month ≤ 2 then year - 1 else year
  let era := y / 400
  let yearOfEra := y % 400
  let monthFromMarch := (month + 9) % 12
  let dayOfYear := (153 * monthFromMarch + 2) / 5 + day - 1
  era * 146097 + yearOfEra * 365 + yearOfEra / 4 - yearOfEra / 100 + dayOfYear - 719468

/-- The year, month and day of the month of a day counted from 1970-01-01. -/
def dateOfDay (day : Int) : Int × Nat × Nat :=
  let shifted := day + 719468
  let era := shifted / 146097
  let dayOfEra := (shifted % 146097).toNat
  let yearOfEra := (dayOfEra - dayOfEra / 1460 + dayOfEra / 36524 - dayOfEra / 146096) / 365
  let dayOfYear := dayOfEra - (365 * yearOfEra + yearOfEra / 4 - yearOfEra / 100)
  let monthFromMarch := (5 * dayOfYear + 2) / 153
  let dayOfMonth := dayOfYear - (153 * monthFromMarch + 2) / 5 + 1
  let month := if monthFromMarch < 10 then monthFromMarch + 3 else monthFromMarch - 9
  let year := era * 400 + yearOfEra + (if month ≤ 2 then 1 else 0)
  (year, month, dayOfMonth)

/-- The first and the last year that a timestamp may lie in. -/
def years : Int × Int := (-262143, 262142)

/-! ## Reading -/

open Reader

/-- Passes over blanks. -/
def blanks : Reader Unit := do
  let _ ← takeWhile isBlank

/-- Up to `width` decimal digits, at least one. -/
def digits (width : Nat) : Reader (List Char) := fun s =>
  let ds := (s.take width).takeWhile Char.isDigit
  if ds.isEmpty then none else some (ds, s.drop ds.length)

/-- A number of up to `width` digits, after blanks. -/
def number (width : Nat) : Reader Nat := do
  blanks
  let ds ← digits width
  match Integer.natural? ds with
  | some n => pure n
  | none => refuse

/-- A separator, after blanks. -/
def separator (c : Char) : Reader Unit := do
  blanks
  char c

/-- A year: up to four digits, or a sign and any number of them. -/
def year : Reader Int := do
  blanks
  match ← peek? with
  | some '-' => do
    let _ ← next
    let ds ← takeWhile1 Char.isDigit
    pure (-((Integer.natural? ds).getD 0 : Nat))
  | some '+' => do
    let _ ← next
    let ds ← takeWhile1 Char.isDigit
    pure ((Integer.natural? ds).getD 0 : Nat)
  | _ => do
    let n ← number 4
    pure n

/-- A date that is in the calendar. -/
def date : Reader Int := do
  let y ← year
  separator '-'
  let month ← number 2
  separator '-'
  let day ← number 2
  if years.1 ≤ y ∧ y ≤ years.2 ∧ 1 ≤ month ∧ month ≤ 12 ∧ 1 ≤ day ∧ day ≤ daysInMonth y month then
    pure (dayOfDate y month day)
  else refuse

/-- The fraction of a second in nanoseconds: of its digits the first nine count. -/
def fraction : Reader Nat := do
  if ← skip? "." then
    let ds ← digits 9
    let _ ← takeWhile Char.isDigit
    pure ((Integer.natural? ds).getD 0 * Nat.pow 10 (9 - ds.length))
  else pure 0

/-- A time of day, in seconds and nanoseconds. A second numbered 60 is the leap second after second 59. -/
def timeOfDay : Reader (Nat × Nat) := do
  let hour ← number 2
  separator ':'
  let minute ← number 2
  separator ':'
  let second ← number 2
  let nanosecond ← fraction
  if hour < 24 ∧ minute < 60 ∧ second ≤ 60 then
    let leap := if second = 60 then 1000000000 else 0
    pure (hour * 3600 + minute * 60 + min second 59, leap + nanosecond)
  else refuse

/-- Exactly two digits. -/
def twoDigits : Reader Nat := do
  let a ← next
  let b ← next
  match Integer.natural? [a, b] with
  | some n => pure n
  | none => refuse

/-- An offset from UTC in seconds: a name of UTC itself, or a sign, two digits of hours and two of minutes. -/
def offset : Reader Int := fun s =>
  if (s.take 3).map Char.toUpper = ['U', 'T', 'C'] then some (0, s.drop 3)
  else match s with
    | 'Z' :: rest | 'z' :: rest => some (0, rest)
    | '+' :: rest => (signed 1).run rest
    | '-' :: rest | '\u2212' :: rest => (signed (-1)).run rest
    | _ => none
where
  signed (sign : Int) : Reader Int := do
    let hours ← twoDigits
    let _ ← takeWhile fun c => c = ':' || isBlank c
    let minutes ← twoDigits
    if hours < 24 ∧ minutes < 60 then pure (sign * (hours * 3600 + minutes * 60 : Nat)) else refuse

/-- The point in time that a day and time at an offset from UTC stand for. -/
def ofLocal? (day : Int) (second nanosecond : Nat) (offset : Int) : Option Timestamp :=
  let seconds := (second : Int) - offset
  let t : Timestamp := ⟨day + seconds / 86400, (seconds % 86400).toNat, nanosecond⟩
  let y := (dateOfDay t.day).1
  if years.1 ≤ y ∧ y ≤ years.2 then some t else none

/-- A date, a time of day and an offset, with blanks between the last two. -/
def dateTime : Reader Timestamp := do
  let day ← date
  match ← next with
  | 'T' | 't' | ' ' => do
    let (second, nanosecond) ← timeOfDay
    blanks
    let offset ← offset
    blanks
    match ofLocal? day second nanosecond offset with
    | some t => pure t
    | none => refuse
  | _ => refuse

/-- Reads a point in time. -/
def read? (text : String) : Option Timestamp := run? dateTime text

/-! ## Writing -/

/-- A number with zeros in front of it up to a width. -/
def padded (width n : Nat) : String :=
  let ds := Nat.toDigits 10 n
  String.ofList (List.replicate (width - ds.length) '0' ++ ds)

/-- A year of four digits, or with a sign where four unsigned digits cannot hold it. -/
def yearText (year : Int) : String :=
  if 0 ≤ year ∧ year ≤ 9999 then padded 4 year.toNat
  else (if year < 0 then "-" else "+") ++ padded 4 year.natAbs

/-- The fraction of a second with 0, 3, 6 or 9 digits. -/
def fractionText (nanosecond : Nat) : String :=
  if nanosecond = 0 then ""
  else if nanosecond % 1000000 = 0 then "." ++ padded 3 (nanosecond / 1000000)
  else if nanosecond % 1000 = 0 then "." ++ padded 6 (nanosecond / 1000)
  else "." ++ padded 9 nanosecond

/-- Writes a point in time in UTC. -/
def write (t : Timestamp) : String :=
  let (year, month, day) := dateOfDay t.day
  let leap := t.nanosecond / 1000000000
  let date := yearText year ++ "-" ++ padded 2 month ++ "-" ++ padded 2 day
  let time := padded 2 (t.second / 3600) ++ ":" ++ padded 2 (t.second / 60 % 60) ++ ":" ++ padded 2 (t.second % 60 + leap)
  date ++ "T" ++ time ++ fractionText (t.nanosecond % 1000000000) ++ "Z"

end Timestamp

end Lookback
