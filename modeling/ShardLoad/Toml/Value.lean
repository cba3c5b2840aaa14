/-!
# TOML values

What a TOML document says, once its layout is forgotten: scalars, arrays, and
tables whose keys come in increasing order.  Integers are unbounded here; how
wide one may be is a matter for whoever reads it.  A word may also have the shape
of an integer and name none; that too comes up only when it is read.  A date or a
time is kept as its text, and a float as the exact decimal that was written.

* `Toml.Value`: the values.
* `Scalar`, `FloatText`: the values without parts.
-/

namespace ShardLoad.Toml

/-- A number with a fraction or an exponent, or one that is not finite. -/
inductive FloatText where
  /-- `± digits · 10 ^ exponent` -/
  | decimal (negative : Bool) (digits : Nat) (exponent : Int)
  | infinite (negative : Bool)
  | notANumber
  deriving Repr, DecidableEq

/-- A value without parts. -/
inductive Scalar where
  | string (s : String)
  | int (n : Int)
  /-- An integer by its shape whose digits are no digits, such as `1_a` or `0x`. -/
  | unreadable
  | float (x : FloatText)
  | bool (b : Bool)
  /-- A date, a time, or both. -/
  | moment (text : String)
  deriving Repr, DecidableEq

/-- A TOML value. -/
inductive Value where
  | scalar (s : Scalar)
  | array (items : List Value)
  /-- Keys in increasing order. -/
  | table (members : List (String × Value))
  deriving Repr

end ShardLoad.Toml
