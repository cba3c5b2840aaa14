import ShardLoad.Toml.Number

/-!
# Dates and times

A moment is a date, a time of day, or a date and a time joined by `T` or one
blank, then with an optional offset from universal time.  Seconds may be left
out; they may have a fraction and may be 60.  The day must exist in its month.
-/

namespace ShardLoad.Toml

/-- A number of exactly two digits and what follows it. -/
def two? : List Char → Option (Nat × List Char)
  | a :: b :: rest =>
    if isDigit a && isDigit b then some (10 * digitValue a + digitValue b, rest) else none
  | _ => none

/-- Whether a year has a leap day. -/
def isLeapYear (y : Nat) : Bool := (y % 4 == 0 && y % 100 != 0) || y % 400 == 0

/-- The days of a month. -/
def daysIn (year month : Nat) : Nat :=
  match month with
  | 4 | 6 | 9 | 11 => 30
  | 2 => if isLeapYear year then 29 else 28
  | _ => 31

/-- What follows a date. -/
def date? (cs : List Char) : Option (List Char) := do
  let (century, cs) ← two? cs
  let (year, cs) ← two? cs
  match cs with
  | '-' :: cs =>
    let (month, cs) ← two? cs
    match cs with
    | '-' :: cs =>
      let (day, cs) ← two? cs
      if 1 ≤ month ∧ month ≤ 12 ∧ 1 ≤ day ∧ day ≤ daysIn (100 * century + year) month then
        some cs
      else none
    | _ => none
  | _ => none

/-- What follows hours and minutes. -/
def hoursMinutes? (cs : List Char) : Option (List Char) := do
  let (hour, cs) ← two? cs
  match cs with
  | ':' :: cs =>
    let (minute, cs) ← two? cs
    if hour ≤ 23 ∧ minute ≤ 59 then some cs else none
  | _ => none

/-- What follows a fraction of a second, if there is one. -/
def fraction? : List Char → Option (List Char)
  | '.' :: cs => if (cs.takeWhile isDigit).isEmpty then none else some (cs.dropWhile isDigit)
  | cs => some cs

/-- What follows a time of day. -/
def time? (cs : List Char) : Option (List Char) := do
  let cs ← hoursMinutes? cs
  match cs with
  | ':' :: cs =>
    let (second, cs) ← two? cs
    if second ≤ 60 then fraction? cs else none
  | cs => some cs

/-- Whether the rest of a word is an offset from universal time, or nothing. -/
def isOffset : List Char → Bool
  | [] => true
  | ['Z'] => true
  | ['z'] => true
  | '+' :: cs => hoursMinutes? cs == some []
  | '-' :: cs => hoursMinutes? cs == some []
  | _ => false

/-- Whether a word is a moment. -/
def isMoment (word : List Char) : Bool :=
  match date? word with
  | some [] => true
  | some (sep :: cs) =>
    (sep == 'T' || sep == 't' || sep == ' ') &&
      match time? cs with
      | some rest => isOffset rest
      | none => false
  | none => time? word == some []

end ShardLoad.Toml
