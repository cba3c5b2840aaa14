import ShardLoad.Power
import ShardLoad.Toml.Value

/-!
# Numbers

The first characters of a bare word settle what it is meant to be.  `0x`, `0o`
and `0b` announce an integer in their base.  Decimal digits, with or without a
sign, announce a float if `.`, `e` or `E` comes anywhere behind them, and an
integer if they end the word or an underscore follows; an integer has no leading
zero.  An underscore stands between two digits, or between the sign at the start
and a digit.

A float must be written out correctly.  Of an integer only the shape is checked:
the digits beside its underscores may be hexadecimal in every base, and behind the
first underscore there may be anything.  Whether such a word names a number is
seen when its underscores are gone.

* `integer?`, `float?`: what a bare word means as a number.
* `FloatText.double?`: the double nearest to it.
-/

namespace ShardLoad.Toml

/-! ## Digits -/

/-- A decimal digit. -/
def isDigit (c : Char) : Bool := 48 ≤ c.toNat && c.toNat ≤ 57

/-- A hexadecimal digit. -/
def isHexDigit (c : Char) : Bool :=
  isDigit c || (65 ≤ c.toNat && c.toNat ≤ 70) || (97 ≤ c.toNat && c.toNat ≤ 102)

/-- An octal digit. -/
def isOctalDigit (c : Char) : Bool := 48 ≤ c.toNat && c.toNat ≤ 55

/-- A binary digit. -/
def isBinaryDigit (c : Char) : Bool := c == '0' || c == '1'

/-- The value of a digit in the bases up to sixteen. -/
def digitValue (c : Char) : Nat :=
  let n := c.toNat
  if n ≤ 57 then n - 48 else if n ≤ 70 then n - 55 else n - 87

/-- The number that digits stand for in a base. -/
def valueOf (base : Nat) (ds : List Char) : Nat :=
  ds.foldl (fun n c => base * n + digitValue c) 0

/-- A sign and what follows it. -/
def signed : List Char → Bool × List Char
  | '+' :: rest => (false, rest)
  | '-' :: rest => (true, rest)
  | cs => (false, cs)

/-- A number with its sign. -/
def withSign (negative : Bool) (n : Nat) : Int := if negative then -(n : Int) else n

/-! ## Underscores -/

/-- A word without its underscores. -/
def withoutUnderscores (cs : List Char) : List Char := cs.filter (· != '_')

/-- Whether each underscore stands directly between two digits.  `after` says
whether one may stand at the start. -/
def underscoresFit (digit : Char → Bool) (after : Bool) : List Char → Bool
  | [] => true
  | ['_'] => false
  | '_' :: c :: rest => after && digit c && underscoresFit digit true rest
  | c :: rest => underscoresFit digit (digit c) rest

/-- Whether the underscores of a number fit, one behind its sign included. -/
def numberUnderscoresFit (digit : Char → Bool) (word : List Char) : Bool :=
  let (_, cs) := signed word
  underscoresFit digit (cs.length != word.length) cs

/-! ## Integers -/

/-- The integer that a sign and digits of a base name. -/
def integerOf (base : Nat) (digit : Char → Bool) (negative : Bool) (cs : List Char) :
    Scalar :=
  let ds := withoutUnderscores cs
  if !ds.isEmpty && ds.all digit then .int (withSign negative (valueOf base ds))
  else .unreadable

/-- The integer behind the mark of a base, with digits of that base only. -/
def basedInteger? (base : Nat) (digit : Char → Bool) (cs : List Char) : Option Scalar :=
  if (withoutUnderscores cs).all digit && underscoresFit digit false cs then
    some (integerOf base digit false cs)
  else none

/-- Whether a character starts the exponent of a float. -/
def isExponentMark (c : Char) : Bool := c == 'e' || c == 'E'

/-- Whether what follows the first digits of a word leaves it an integer: nothing,
or an underscore and no mark of a float. -/
def endsInteger (rest : List Char) : Bool :=
  rest.isEmpty || (rest.head? == some '_' && !rest.any fun c => c == '.' || isExponentMark c)

/-- The decimal integer of a word. -/
def decimalInteger? (word : List Char) : Option Scalar :=
  let (negative, cs) := signed word
  if cs.isEmpty || !endsInteger (cs.dropWhile isDigit) then none
  else if cs.head? == some '0' && cs.length != 1 then none
  else if numberUnderscoresFit isHexDigit word then some (integerOf 10 isDigit negative cs)
  else none

/-- The integer of a bare word that has the shape of one. -/
def integer? : (word : List Char) → Option Scalar
  | '0' :: 'x' :: cs => basedInteger? 16 isHexDigit cs
  | '0' :: 'o' :: cs => basedInteger? 8 isOctalDigit cs
  | '0' :: 'b' :: cs => basedInteger? 2 isBinaryDigit cs
  | word => decimalInteger? word

/-! ## Floats -/

/-- The digits of a run of digits and underscores. -/
def digits? (cs : List Char) : Option (List Char) :=
  let ds := withoutUnderscores cs
  if !ds.isEmpty && ds.all isDigit then some ds else none

/-- The digits before the point, which have no leading zero. -/
def wholeDigits? (cs : List Char) : Option (List Char) := do
  let ds ← digits? cs
  if cs.head? = some '0' ∧ ds.length ≠ 1 then none else some ds

/-- The exponent after `e`: a sign and digits, leading zeros allowed. -/
def exponent? (cs : List Char) : Option Int :=
  let (negative, cs) := signed cs
  (digits? cs).map fun ds => withSign negative (valueOf 10 ds)

/-- The float that a sign and the rest of a word spell. -/
def decimalFloat? (negative : Bool) (cs : List Char) : Option FloatText := do
  let body := cs.takeWhile fun c => !isExponentMark c
  let tail := cs.dropWhile fun c => !isExponentMark c
  let e ← match tail with
    | [] => some 0
    | _ :: e => exponent? e
  let whole ← wholeDigits? (body.takeWhile (· != '.'))
  match body.dropWhile (· != '.') with
  | [] => if tail = [] then none else some (.decimal negative (valueOf 10 whole) e)
  | _ :: fraction =>
    let ds ← digits? fraction
    some (.decimal negative (valueOf 10 (whole ++ ds)) (e - ds.length))

/-- The float that a bare word is. -/
def float? (word : List Char) : Option FloatText :=
  let (negative, cs) := signed word
  if cs = ['i', 'n', 'f'] then some (.infinite negative)
  else if cs = ['n', 'a', 'n'] then some .notANumber
  else if numberUnderscoresFit isDigit word then decimalFloat? negative cs
  else none

/-! ## Doubles -/

/-- The double nearest to a decimal, or `none` if it is too large for a double.
The leading digit decides first, so that no huge power of ten is computed. -/
def nearest? (digits : Nat) (exponent : Int) : Option Float :=
  let lead := exponent + ((Nat.toDigits 10 digits).length : Nat)
  if digits = 0 ∨ lead < -400 then some 0
  else if 400 < lead then none
  else
    let x := Float.ofScientific (if 0 ≤ exponent then digits * 10 ^ exponent.toNat else digits)
      true (-exponent).toNat
    if x.isFinite then some x else none

/-- The double that a float means. -/
def FloatText.double? : FloatText → Option Float
  | .decimal negative digits exponent =>
    (nearest? digits exponent).map fun x => if negative then -x else x
  | .infinite negative => some (if negative then -1 / 0 else 1 / 0)
  | .notANumber => some (0 / 0)

end ShardLoad.Toml
