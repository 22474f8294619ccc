/-!
Instants in nanoseconds since the start of 1970 in UTC, and the calendar behind them. Spans of
time are whole nanoseconds, too.
-/

namespace MarketMaker

structure Instant where
  nanoseconds : Int
deriving DecidableEq, Inhabited

/-- A length of time in nanoseconds. -/
abbrev Span := Int

namespace Span

/-- Nanoseconds in a second. -/
abbrev second : Nat := 1000000000

/-- Nanoseconds in a millisecond. -/
abbrev millisecond : Nat := 1000000

def ofSeconds (n : Int) : Span := n * second

def ofMilliseconds (n : Int) : Span := n * millisecond

/-- Whole seconds, toward zero. -/
def seconds (span : Span) : Int := Int.tdiv span second

/-- Whole milliseconds, toward zero. -/
def milliseconds (span : Span) : Int := Int.tdiv span millisecond

end Span

namespace Instant

instance : LT Instant := ⟨fun a b => a.nanoseconds < b.nanoseconds⟩

instance : LE Instant := ⟨fun a b => a.nanoseconds ≤ b.nanoseconds⟩

instance (a b : Instant) : Decidable (a < b) :=
  inferInstanceAs (Decidable (a.nanoseconds < b.nanoseconds))

instance (a b : Instant) : Decidable (a ≤ b) :=
  inferInstanceAs (Decidable (a.nanoseconds ≤ b.nanoseconds))

instance : Ord Instant := ⟨fun a b => compare a.nanoseconds b.nanoseconds⟩

/-- The time from `start` to `now`; negative if `start` is the later. -/
def since (now start : Instant) : Span :=
  now.nanoseconds - start.nanoseconds

def plus (start : Instant) (span : Span) : Instant :=
  ⟨start.nanoseconds + span⟩

end Instant

/-- A day of the Gregorian calendar, extended to all years. -/
structure Date where
  year : Int
  month : Nat
  day : Nat
deriving DecidableEq

namespace Date

def isLeap (year : Int) : Bool :=
  year % 4 == 0 && (year % 100 != 0 || year % 400 == 0)

def daysIn (year : Int) (month : Nat) : Nat :=
  if month = 2 then (if isLeap year then 29 else 28)
  else if month = 4 ∨ month = 6 ∨ month = 9 ∨ month = 11 then 30
  else 31

/-- The day exists and its year has at most six digits. -/
def isValid (date : Date) : Bool :=
  decide (-262143 ≤ date.year ∧ date.year ≤ 262142 ∧ 1 ≤ date.month ∧ date.month ≤ 12 ∧
    1 ≤ date.day ∧ date.day ≤ daysIn date.year date.month)

/-- Days from the first of January 1970. Years count from March, so that a leap day is the last
day of its year, in eras of 400 years. -/
def toDays (date : Date) : Int :=
  let year := if date.month ≤ 2 then date.year - 1 else date.year
  let era := year / 400
  let yearOfEra := year % 400
  let dayOfYear := (153 * (((date.month + 9) % 12 : Nat) : Int) + 2) / 5 + date.day - 1
  let dayOfEra := yearOfEra * 365 + yearOfEra / 4 - yearOfEra / 100 + dayOfYear
  era * 146097 + dayOfEra - 719468

def ofDays (days : Int) : Date :=
  let shifted := days + 719468
  let era := shifted / 146097
  let dayOfEra := shifted % 146097
  let yearOfEra := (dayOfEra - dayOfEra / 1460 + dayOfEra / 36524 - dayOfEra / 146096) / 365
  let dayOfYear := dayOfEra - (365 * yearOfEra + yearOfEra / 4 - yearOfEra / 100)
  let m := (5 * dayOfYear + 2) / 153
  let day := dayOfYear - (153 * m + 2) / 5 + 1
  let month := if m < 10 then m + 3 else m - 9
  let year := yearOfEra + era * 400 + (if month ≤ 2 then 1 else 0)
  ⟨year, month.toNat, day.toNat⟩

end Date

namespace Instant

/-- Nanoseconds of a day. -/
def dayLength : Int := 86400 * Span.second

def date (t : Instant) : Date :=
  Date.ofDays (t.nanoseconds / dayLength)

/-- Nanoseconds since midnight. -/
def timeOfDay (t : Instant) : Nat :=
  (t.nanoseconds % dayLength).toNat

def ofDate (date : Date) (timeOfDay : Int) : Instant :=
  ⟨date.toDays * dayLength + timeOfDay⟩

end Instant

end MarketMaker
