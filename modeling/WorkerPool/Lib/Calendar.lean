import Mathlib

/-!
# Instants and their ISO text

An instant is the number of microseconds since the first instant of year 1, in
UTC; the calendar ends with year 9999. The text is what `datetime.isoformat`
renders for a UTC value, with `Z` for the offset: the fraction is left out
when it is zero.
-/

namespace Calendar

def microsPerSecond : Nat := 1000000

def secondsPerDay : Nat := 86400

/-- The days of the years 1 to 9999. -/
def calendarDays : Nat := 3652059

structure Instant where
  micros : Nat
  inCalendar : micros < calendarDays * secondsPerDay * microsPerSecond
  deriving DecidableEq

instance : LinearOrder Instant :=
  LinearOrder.lift' Instant.micros fun a b h => by
    cases a
    cases b
    cases h
    rfl

def Instant.ofMicros? (n : Nat) : Option Instant :=
  if h : n < calendarDays * secondsPerDay * microsPerSecond then some ⟨n, h⟩ else none

/-- `dt + timedelta(seconds=n)`; leaving the calendar is an overflow. -/
def Instant.shift? (t : Instant) (seconds : Int) : Option Instant :=
  let n := (t.micros : Int) + seconds * microsPerSecond
  if 0 ≤ n then Instant.ofMicros? n.toNat else none

def isLeap (year : Nat) : Bool := year % 4 == 0 && (year % 100 != 0 || year % 400 == 0)

def daysInMonth (year month : Nat) : Nat :=
  if month = 2 then if isLeap year then 29 else 28
  else if month = 4 ∨ month = 6 ∨ month = 9 ∨ month = 11 then 30 else 31

def daysBeforeYear (year : Nat) : Nat :=
  let y := year - 1
  y * 365 + y / 4 - y / 100 + y / 400

def daysBeforeMonth (year month : Nat) : Nat :=
  ((List.range (month - 1)).map fun m => daysInMonth year (m + 1)).sum

/-- Split the day of a year into month and day. -/
def monthAndDay (year : Nat) : Nat → Nat → Nat → Nat × Nat
  | 0, month, day => (month, day + 1)
  | fuel + 1, month, day =>
    if day < daysInMonth year month then (month, day + 1)
    else monthAndDay year fuel (month + 1) (day - daysInMonth year month)

/-- Year, month and day of a day number, day 0 being the first of January of year 1. -/
def civil (days : Nat) : Nat × Nat × Nat :=
  let n400 := days / 146097
  let r400 := days % 146097
  let n100 := r400 / 36524
  let r100 := r400 % 36524
  let n4 := r100 / 1461
  let r4 := r100 % 1461
  let n1 := r4 / 365
  let year := n400 * 400 + n100 * 100 + n4 * 4 + n1 + 1
  if n1 = 4 ∨ n100 = 4 then (year - 1, 12, 31)
  else
    let (month, day) := monthAndDay year 11 1 (r4 % 365)
    (year, month, day)

def digitChar (n : Nat) : Char := Char.ofNat (48 + n % 10)

/-- The last `width` decimal digits of a number. -/
def padded : Nat → Nat → List Char
  | 0, _ => []
  | width + 1, n => padded width (n / 10) ++ [digitChar n]

def isoChars (t : Instant) : List Char :=
  let seconds := t.micros / microsPerSecond
  let fraction := t.micros % microsPerSecond
  let (year, month, day) := civil (seconds / secondsPerDay)
  let clock := seconds % secondsPerDay
  padded 4 year ++ '-' :: padded 2 month ++ '-' :: padded 2 day ++ 'T' ::
    padded 2 (clock / 3600) ++ ':' :: padded 2 (clock % 3600 / 60) ++ ':' ::
    padded 2 (clock % 60) ++
    (if fraction = 0 then [] else '.' :: padded 6 fraction) ++ ['Z']

/-- `isoformat` of a UTC instant with `Z` in place of `+00:00`. -/
def iso (t : Instant) : String := String.ofList (isoChars t)

def readDigits : List Char → Option Nat :=
  List.foldl (fun acc c => acc.bind fun n =>
    if '0' ≤ c ∧ c ≤ '9' then some (n * 10 + (c.toNat - 48)) else none) (some 0)

def ofCivil? (year month day clock fraction : Nat) : Option Instant :=
  if 1 ≤ year ∧ 1 ≤ month ∧ month ≤ 12 ∧ 1 ≤ day ∧ day ≤ daysInMonth year month then
    let days := daysBeforeYear year + daysBeforeMonth year month + (day - 1)
    Instant.ofMicros? ((days * secondsPerDay + clock) * microsPerSecond + fraction)
  else none

def readClock (h1 h2 n1 n2 s1 s2 : Char) : Option Nat := do
  let hour ← readDigits [h1, h2]
  let minute ← readDigits [n1, n2]
  let second ← readDigits [s1, s2]
  if hour < 24 ∧ minute < 60 ∧ second < 60 then
    some (hour * 3600 + minute * 60 + second)
  else none

def readFraction : List Char → Option Nat
  | ['Z'] => some 0
  | ['.', a, b, c, d, e, f, 'Z'] => readDigits [a, b, c, d, e, f]
  | _ => none

/-- `datetime.fromisoformat` on the two spellings that `iso` renders. Every
other text is a `ValueError` here; no other text is ever handed to it. -/
def parseIso (text : String) : Option Instant :=
  match text.toList with
  | y1 :: y2 :: y3 :: y4 :: '-' :: m1 :: m2 :: '-' :: d1 :: d2 :: 'T' ::
      h1 :: h2 :: ':' :: n1 :: n2 :: ':' :: s1 :: s2 :: rest => do
    let year ← readDigits [y1, y2, y3, y4]
    let month ← readDigits [m1, m2]
    let day ← readDigits [d1, d2]
    let clock ← readClock h1 h2 n1 n2 s1 s2
    let fraction ← readFraction rest
    ofCivil? year month day clock fraction
  | _ => none

end Calendar
