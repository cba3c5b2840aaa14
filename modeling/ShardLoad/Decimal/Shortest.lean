import ShardLoad.Decimal.Binary64

/-!
# The fewest digits that read back

A finite double stands for every real that is nearer to it than to any other
double, the two ends included when its significand is even.  Its decimal form
is the shortest decimal in that interval, and of the shortest the nearest one.

`shortest` tries one digit, two, and so on.  For each count it looks at the two
neighbours of the value on the grid of decimals with so many digits: if any
point of the grid lies in the interval, one of these two does.  Seventeen digits
always suffice.

* `Decimal`: a sign, digits and a power of ten.
* `shortest`: the decimal form of `m · 2 ^ q`.
* `ofFloat?`: the decimal form of a finite double.
-/

namespace ShardLoad

/-- The number `± digits · 10 ^ exponent`. -/
structure Decimal where
  negative : Bool
  digits : Nat
  exponent : Int
  deriving Repr, DecidableEq

namespace Decimal

/-- How many decimal digits a number has; zero has one. -/
def width (n : Nat) : Nat := (Nat.toDigits 10 n).length

/-- The numerator and denominator of a power of `b`. -/
def power (b : Nat) (e : Int) : Nat × Nat :=
  if 0 ≤ e then (b ^ e.toNat, 1) else (1, b ^ (-e).toNat)

/-- The exponent of the leading decimal digit of `num / den`, which is not
zero. -/
def leading (num den : Nat) : Int :=
  if den ≤ num then width (num / den) - 1
  else
    let d := width (den / num)
    if den ≤ num * 10 ^ (d - 1) then -((d - 1 : Nat) : Int) else -(d : Int)

/-- Moves trailing zeros of the digits into the exponent. -/
def strip : Nat → Nat → Int → Nat × Int
  | 0, digits, exponent => (digits, exponent)
  | fuel + 1, digits, exponent =>
    if digits % 10 = 0 ∧ digits ≠ 0 then strip fuel (digits / 10) (exponent + 1)
    else (digits, exponent)

/-- The interval of reals that a double stands for, in quarters of its last
binary digit: the ends, the double itself, and whether the ends belong to it. -/
structure Span where
  low : Nat
  mid : Nat
  high : Nat
  closed : Bool
  deriving Repr, DecidableEq

/-- The interval of `m · 2 ^ q`.  Below a power of two the doubles are twice as
dense, so the lower end is only half as far away. -/
def Span.of (m : Nat) (q : Int) : Span :=
  let low := if m = 2 ^ 52 ∧ q ≠ -1074 then 4 * m - 1 else 4 * m - 2
  ⟨low, 4 * m, 4 * m + 2, m % 2 == 0⟩

/-- Whether `n · unit` lies in the interval, whose ends are multiples of
`quarter`. -/
def Span.holds (s : Span) (quarter unit n : Nat) : Bool :=
  if s.closed then s.low * quarter ≤ n * unit && n * unit ≤ s.high * quarter
  else s.low * quarter < n * unit && n * unit < s.high * quarter

/-- The neighbour on the grid that stands for the value, if one does: the nearer
of the two, and of two equally near the even one. -/
def Span.nearest? (s : Span) (quarter unit : Nat) : Option Nat :=
  let below := s.mid * quarter / unit
  let above := below + 1
  match s.holds quarter unit below, s.holds quarter unit above with
  | true, true =>
    let down := s.mid * quarter - below * unit
    let up := above * unit - s.mid * quarter
    if down < up then some below
    else if up < down then some above
    else if below % 2 = 0 then some below else some above
  | true, false => some below
  | false, true => some above
  | false, false => none

/-- Tries grids from a count of digits on. -/
def search (s : Span) (quarter : Nat × Nat) (lead : Int) : Nat → Nat → Nat × Int
  | 0, _ => (0, 0)
  | tries + 1, count =>
    let exponent := lead - count
    let ten := power 10 exponent
    match s.nearest? (quarter.1 * ten.2) (ten.1 * quarter.2) with
    | some n => (n, exponent)
    | none => search s quarter lead tries (count + 1)

/-- The shortest decimal that reads back as `m · 2 ^ q`, as digits and an
exponent. -/
def shortest (m : Nat) (q : Int) : Nat × Int :=
  if m = 0 then (0, 0)
  else
    let two := power 2 q
    let quarter := power 2 (q - 2)
    let (digits, exponent) := search (Span.of m q) quarter (leading (m * two.1) two.2) 17 0
    strip 17 digits exponent

/-- The decimal form of a finite double. -/
def ofFloat? (x : Float) : Option Decimal :=
  match Binary64.ofFloat x with
  | .finite negative m q =>
    let (digits, exponent) := shortest m q
    some ⟨negative, digits, exponent⟩
  | _ => none

end Decimal
end ShardLoad
