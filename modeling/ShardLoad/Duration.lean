import ShardLoad.Power

/-!
# Lengths of time

A length of time is a whole number of nanoseconds.  Latencies are accounted in
whole milliseconds, rounded down; a timer fires on whole milliseconds, so a wait
is rounded up.

The text of a length of time names its largest unit that is not zero and gives
the rest as decimals, without trailing zeros: `0ns`, `3ms`, `1.5s`.

* `Duration.millis`, `Duration.ceilMillis`: the two roundings.
* `Duration.text`: the written form.
-/

namespace ShardLoad

/-- A length of time in nanoseconds. -/
structure Duration where
  nanos : Nat
  deriving Repr, DecidableEq, Ord

namespace Duration

/-- No time at all. -/
def zero : Duration := ⟨0⟩

/-- So many milliseconds. -/
def ofMillis (n : Nat) : Duration := ⟨n * 1000000⟩

/-- So many seconds and nanoseconds. -/
def ofSecs (secs nanos : Nat) : Duration := ⟨secs * 1000000000 + nanos⟩

/-- The whole milliseconds in a length of time. -/
def millis (d : Duration) : Nat := d.nanos / 1000000

/-- The least number of whole milliseconds that is not shorter. -/
def ceilMillis (d : Duration) : Nat := (d.nanos + 999999) / 1000000

/-- The whole seconds in a length of time. -/
def secs (d : Duration) : Nat := d.nanos / 1000000000

/-- The nanoseconds past the last whole second. -/
def subsecNanos (d : Duration) : Nat := d.nanos % 1000000000

/-- The whole milliseconds as a 64-bit count. -/
def millis64 (d : Duration) : Nat := d.millis % 2 ^ 64

@[simp] theorem millis_ofMillis (n : Nat) : (ofMillis n).millis = n := by
  simp [millis, ofMillis]

@[simp] theorem ceilMillis_ofMillis (n : Nat) : (ofMillis n).ceilMillis = n := by
  simp only [ceilMillis, ofMillis]; omega

/-- The length in seconds as a double: whole seconds plus the rest. -/
def seconds (d : Duration) : Float :=
  d.secs.toUInt64.toFloat + d.subsecNanos.toUInt64.toFloat / 1000000000.0

/-! ## The written form -/

/-- The decimals of `part` out of `10 ^ places`, without trailing zeros. -/
def decimals (part places : Nat) : List Char :=
  let digits := (Nat.toDigits 10 part)
  let padded := List.replicate (places - digits.length) '0' ++ digits
  (padded.reverse.dropWhile (· == '0')).reverse

/-- A number of units and the part of a unit beyond them. -/
def amount (whole part places : Nat) (unit : String) : String :=
  if part = 0 then s!"{whole}{unit}"
  else s!"{whole}.{String.ofList (decimals part places)}{unit}"

/-- The written form of a length of time. -/
def text (d : Duration) : String :=
  if d.secs > 0 then amount d.secs d.subsecNanos 9 "s"
  else if d.nanos ≥ 1000000 then amount (d.nanos / 1000000) (d.nanos % 1000000) 6 "ms"
  else if d.nanos ≥ 1000 then amount (d.nanos / 1000) (d.nanos % 1000) 3 "µs"
  else s!"{d.nanos}ns"

end Duration
end ShardLoad
