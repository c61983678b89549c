import Prewarm.Text.Blank
import Prewarm.Text.Numeral

/-!
# Times of day and dates

A time stamp is a date, a time of day and the offset of its time zone from universal time, as in
`2006-01-02T15:04:05.123+07:00`. It is read generously: numbers may lack their leading zeros, blanks
may stand around them, and the offset may be `Z` or `UTC`. It is written in universal time and in
whole seconds.
-/

namespace Prewarm

/-- A point in universal time: the seconds since the first of March of the year zero, counted in
the Gregorian calendar throughout. -/
structure Timestamp where
  seconds : Int
  /-- Whether the point lies in the second that a minute has on top of sixty. -/
  leap : Bool
  deriving DecidableEq, Repr

namespace Timestamp

/-! ## The calendar -/

/-- The days from the first of March of the year zero to a date. -/
def daysFromMarch (year : Int) (month day : Nat) : Int :=
  let y : Int := if month ≤ 2 then year - 1 else year
  let m : Int := if month ≤ 2 then month + 9 else month - 3
  365 * y + y / 4 - y / 100 + y / 400 + (153 * m + 2) / 5 + (day - 1)

/-- Whether a year has a day more. -/
def isLeapYear (y : Int) : Bool := y % 4 == 0 && (y % 100 != 0 || y % 400 == 0)

/-- The number of days of a month. -/
def daysIn (year : Int) (month : Nat) : Nat :=
  if month = 2 then (if isLeapYear year then 29 else 28)
  else if month = 4 ∨ month = 6 ∨ month = 9 ∨ month = 11 then 30
  else 31

/-- The year, month and day that lie a number of days after the first of March of the year zero. -/
def dateOf (days : Int) : Int × Nat × Nat :=
  let era := days / 146097
  let d := (days % 146097).toNat
  let yearOfEra := (d - d / 1460 + d / 36524 - d / 146096) / 365
  let dayOfYear := d - (365 * yearOfEra + yearOfEra / 4 - yearOfEra / 100)
  let m := (5 * dayOfYear + 2) / 153
  let day := dayOfYear - (153 * m + 2) / 5 + 1
  let month := if m < 10 then m + 3 else m - 9
  let year := (yearOfEra : Int) + 400 * era + (if month ≤ 2 then 1 else 0)
  (year, month, day)

/-- Whether a year is one that time stamps know. -/
def isKnownYear (year : Int) : Bool := -262143 ≤ year && year ≤ 262142

/-! ## Reading -/

/-- At least one digit, at most `n` of them if there is a bound, and what follows them. -/
def digits? (n : Option Nat) (s : List Char) : Option (Nat × List Char) :=
  let run := s.takeWhile Char.isDigit
  let ds := n.elim run run.take
  if ds = [] then none else some (Text.digitsValue ds, s.drop ds.length)

/-- A number of one or two digits after blanks, and what follows it. -/
def pair? (s : List Char) : Option (Nat × List Char) := digits? (some 2) (Text.trimLeft s)

/-- A year after blanks, and what follows it. Only a year with a sign has more than four digits. -/
def year? (s : List Char) : Option (Int × List Char) :=
  match Text.trimLeft s with
  | '-' :: r => (digits? none r).map (fun (n, r) => (-(n : Int), r))
  | '+' :: r => (digits? none r).map (fun (n, r) => ((n : Int), r))
  | r => (digits? (some 4) r).map (fun (n, r) => ((n : Int), r))

/-- What follows one of some characters. -/
def after? (cs : List Char) : List Char → Option (List Char)
  | c :: r => if c ∈ cs then some r else none
  | [] => none

/-- What follows a separator and the blanks before it. -/
def afterBlanks? (c : Char) (s : List Char) : Option (List Char) := after? [c] (Text.trimLeft s)

/-- What follows a fraction, if there is one. It is not kept. -/
def skipFraction? : List Char → Option (List Char)
  | '.' :: r => (digits? none r).map Prod.snd
  | r => some r

/-- A number of exactly two digits, and what follows it. -/
def exactPair? : List Char → Option (Nat × List Char)
  | c :: d :: r => if c.isDigit ∧ d.isDigit then some (Text.digitsValue [c, d], r) else none
  | _ => none

/-- The seconds that hours and minutes of an offset come to, and what follows them. Between the two
stand any number of colons and blanks. -/
def shift? (s : List Char) : Option (Nat × List Char) := do
  let (h, r) ← exactPair? s
  let (m, r) ← exactPair? (r.dropWhile (fun c => c = ':' || Text.isBlank c))
  if m < 60 then some (60 * (60 * h + m), r) else none

/-- The seconds by which a time zone is ahead of universal time, and what follows them. -/
def offset? : List Char → Option (Int × List Char)
  | 'Z' :: r | 'z' :: r => some (0, r)
  | '+' :: r => (shift? r).map (fun (n, r) => ((n : Int), r))
  | '-' :: r | '\u2212' :: r => (shift? r).map (fun (n, r) => (-(n : Int), r))
  | u :: t :: c :: r =>
    if String.ofList ([u, t, c].map Char.toUpper) = "UTC" then some (0, r) else none
  | _ => none

/-- The point in time that a text writes. -/
def parse (s : String) : Option Timestamp := do
  let (year, r) ← year? s.toList
  let (month, r) ← pair? (← afterBlanks? '-' r)
  let (day, r) ← pair? (← afterBlanks? '-' r)
  let (hour, r) ← pair? (← after? ['T', 't', ' '] r)
  let (minute, r) ← pair? (← afterBlanks? ':' r)
  let (second, r) ← pair? (← afterBlanks? ':' r)
  let (offset, r) ← offset? (Text.trimLeft (← skipFraction? r))
  let ofDay : Int := 3600 * hour + 60 * minute + min second 59
  let seconds := 86400 * daysFromMarch year month day + ofDay - offset
  if Text.trimLeft r = [] ∧ isKnownYear year ∧ isKnownYear (dateOf (seconds / 86400)).1 ∧
      1 ≤ month ∧ month ≤ 12 ∧ 1 ≤ day ∧ day ≤ daysIn year month ∧
      hour < 24 ∧ minute < 60 ∧ second ≤ 60 ∧ offset.natAbs < 86400 then
    some ⟨seconds, second == 60⟩
  else none

/-! ## Writing -/

/-- A number with at least `n` digits. -/
def padded (n : Nat) (v : Nat) : String :=
  let ds := Nat.toDigits 10 v
  String.ofList (List.replicate (n - ds.length) '0' ++ ds)

/-- A year. One that does not have four digits has a sign. -/
def yearText (year : Int) : String :=
  let sign := if year < 0 then "-" else if 9999 < year then "+" else ""
  sign ++ padded 4 year.natAbs

/-- A point in time as a text in universal time. -/
def text (t : Timestamp) : String :=
  let (year, month, day) := dateOf (t.seconds / 86400)
  let s := (t.seconds % 86400).toNat
  let second := if t.leap then s % 60 + 1 else s % 60
  yearText year ++ "-" ++ padded 2 month ++ "-" ++ padded 2 day ++ "T" ++
    padded 2 (s / 3600) ++ ":" ++ padded 2 (s / 60 % 60) ++ ":" ++ padded 2 second ++ "Z"

end Timestamp

end Prewarm
