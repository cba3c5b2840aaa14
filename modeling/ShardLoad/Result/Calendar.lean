/-!
# Dates of reports

A moment is counted in seconds from the start of 1970, without leap seconds, and
written in the Gregorian calendar, which is followed into the past and the future
alike.  A year of four hundred years has always the same number of days, so a day
is found by its place in such an era, which starts on the first of March: a leap
day then ends its year.

* `Date.ofDay`: the date of a day.
* `Moment.ofEpoch?`: the moment of a second count, within a quarter of a million
  years.
* `reportName`: the name of a report made at a moment.
* `timestamp`: how a moment stands in a report.
-/

namespace ShardLoad

/-- A day in the Gregorian calendar. -/
structure Date where
  year : Int
  month : Nat
  day : Nat
  deriving Repr, DecidableEq

namespace Date

/-- Days in four hundred years. -/
def eraDays : Nat := 146097

/-- Days from the first of March of year zero to the start of 1970. -/
def epochDay : Nat := 719468

/-- The year of its era, starting in March, that a day of the era lies in. -/
def yearOfEra (day : Nat) : Nat := (day - day / 1460 + day / 36524 - day / 146096) / 365

/-- The days of its era before the first of March of a year. -/
def daysBefore (year : Nat) : Nat := 365 * year + year / 4 - year / 100

/-- The date of a day, counted from the start of 1970. -/
def ofDay (n : Int) : Date :=
  let days := n + epochDay
  let era := days.fdiv eraDays
  let day := (days.fmod eraDays).toNat
  let year := yearOfEra day
  let dayOfYear := day - daysBefore year
  let month := (5 * dayOfYear + 2) / 153
  ⟨400 * era + year + (if month < 10 then 0 else 1),
    if month < 10 then month + 3 else month - 9, dayOfYear - (153 * month + 2) / 5 + 1⟩

end Date

/-- A second in the Gregorian calendar. -/
structure Moment where
  date : Date
  hour : Nat
  minute : Nat
  second : Nat
  deriving Repr, DecidableEq

namespace Moment

/-- The first second that a moment can be. -/
def earliest : Int := -8334601228800

/-- The last second that a moment can be. -/
def latest : Int := 8210266876799

/-- Whether a second can have so many nanoseconds: a second more than usual only
at the end of a minute. -/
def allowsNanos (secs : Int) (nanos : Nat) : Bool :=
  nanos < 1000000000 || (nanos < 2000000000 && secs.fmod 60 == 59)

/-- The moment of a number of seconds and nanoseconds since the start of 1970. -/
def ofEpoch? (secs : Int) (nanos : Nat) : Option Moment :=
  if earliest ≤ secs ∧ secs ≤ latest ∧ allowsNanos secs nanos then
    let second := (secs.fmod 86400).toNat
    some ⟨Date.ofDay (secs.fdiv 86400), second / 3600, second / 60 % 60,
      second % 60 + nanos / 1000000000⟩
  else none

/-- A number with zeros in front of it up to a number of digits. -/
def padded (digits n : Nat) : List Char :=
  let ds := Nat.toDigits 10 n
  List.replicate (digits - ds.length) '0' ++ ds

/-- A year in four digits, with a sign if it is negative or has more. -/
def yearText (y : Int) : List Char :=
  if 9999 < y then '+' :: padded 4 y.natAbs
  else if y < 0 then '-' :: padded 4 y.natAbs
  else padded 4 y.natAbs

/-- The name of a report made at a moment.  Hyphens stand where a time has
colons, which not every file system takes. -/
def reportName (m : Moment) : String :=
  String.ofList ("loadtest-".toList ++ yearText m.date.year ++ '-' :: padded 2 m.date.month ++
    '-' :: padded 2 m.date.day ++ 'T' :: padded 2 m.hour ++ '-' :: padded 2 m.minute ++
    '-' :: padded 2 m.second ++ ".json".toList)

/-- The decimals of a second, in groups of three as far as they are needed. -/
def fraction (nanos : Nat) : List Char :=
  if nanos = 0 then []
  else if nanos % 1000000 = 0 then '.' :: padded 3 (nanos / 1000000)
  else if nanos % 1000 = 0 then '.' :: padded 6 (nanos / 1000)
  else '.' :: padded 9 nanos

/-- A moment and the nanoseconds past it, in the universal time zone. -/
def timestamp (m : Moment) (nanos : Nat) : String :=
  String.ofList (yearText m.date.year ++ '-' :: padded 2 m.date.month ++
    '-' :: padded 2 m.date.day ++ 'T' :: padded 2 m.hour ++ ':' :: padded 2 m.minute ++
    ':' :: padded 2 m.second ++ fraction nanos ++ "+00:00".toList)

/-- The start of 1970. -/
def epoch : Moment := ⟨⟨1970, 1, 1⟩, 0, 0, 0⟩

end Moment
end ShardLoad
