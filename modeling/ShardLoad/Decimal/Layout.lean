import ShardLoad.Decimal.Shortest

/-!
# Written decimals

Digits and an exponent can be written with the point where it belongs, or with
one digit before the point and a power of ten.  A layout says for which
exponents of the leading digit the first form is used.  A number always shows
that it is not an integer: by `.0` in the first form, by its exponent in the
second.

A number can also be written with a fixed number of places after the point,
rounded from its exact value, a tie going to the even digit.

* `Layout.json`: the layout of numbers in a report.
* `Layout.plain`: the point always where it belongs.
* `write`, `fixed`: the two ways to write.
-/

namespace ShardLoad.Decimal

/-- Which exponents of the leading digit are written with the point where it
belongs. -/
inductive Layout where
  | always
  | between (least greatest : Int)
  deriving Repr, DecidableEq

/-- Numbers in JSON: small exponents have the point where it belongs. -/
def Layout.json : Layout := .between (-5) 15

/-- Numbers in messages: the point is always where it belongs. -/
def Layout.plain : Layout := .always

/-- Whether a leading exponent is written with the point where it belongs. -/
def Layout.positional : Layout → Int → Bool
  | .always, _ => true
  | .between least greatest, e => least ≤ e && e ≤ greatest

/-- The digits of a number. -/
def digitChars (n : Nat) : List Char := Nat.toDigits 10 n

/-- Digits with the point where it belongs. -/
def writePositional (digits : Nat) (exponent : Int) : List Char :=
  let ds := digitChars digits
  if 0 ≤ exponent then ds ++ List.replicate exponent.toNat '0' ++ ['.', '0']
  else
    let places := (-exponent).toNat
    if places < ds.length then
      ds.take (ds.length - places) ++ '.' :: ds.drop (ds.length - places)
    else ['0', '.'] ++ List.replicate (places - ds.length) '0' ++ ds

/-- One digit, the point, the other digits, and the power of ten. -/
def writeScientific (digits : Nat) (exponent : Int) : List Char :=
  let ds := digitChars digits
  let lead := exponent + (ds.length - 1 : Nat)
  let mantissa := match ds with
    | [d] => [d]
    | d :: more => d :: '.' :: more
    | [] => []
  let sign := if 0 ≤ lead then '+' else '-'
  mantissa ++ 'e' :: sign :: digitChars lead.natAbs

/-- A decimal in a layout. -/
def write (layout : Layout) (d : Decimal) : String :=
  let lead := d.exponent + (width d.digits - 1 : Nat)
  let body :=
    if layout.positional lead then writePositional d.digits d.exponent
    else writeScientific d.digits d.exponent
  String.ofList (if d.negative then '-' :: body else body)

/-- The text of a double in a layout. -/
def writeFloat (layout : Layout) (x : Float) : String :=
  match ofFloat? x with
  | some d => write layout d
  | none => if x.isNaN then "NaN" else if x > 0 then "inf" else "-inf"

/-- A whole number of units of `10 ^ -places` with the point where it belongs. -/
def writePlaces (n places : Nat) : List Char :=
  let ds := digitChars n
  let ds := List.replicate (places + 1 - ds.length) '0' ++ ds
  if places = 0 then ds
  else ds.take (ds.length - places) ++ '.' :: ds.drop (ds.length - places)

/-- A double with so many places after the point. -/
def fixed (places : Nat) (x : Float) : String :=
  match Binary64.ofFloat x with
  | .finite negative m q =>
    let two := power 2 q
    let n := roundHalfEven (m * two.1 * 10 ^ places) two.2
    let body := writePlaces n places
    String.ofList (if negative then '-' :: body else body)
  | .infinite negative => if negative then "-inf" else "inf"
  | .nan => "NaN"

end ShardLoad.Decimal
