import ShardLoad.Power

/-!
# Doubles as exact numbers

A double is not a number, infinite, or `± m · 2 ^ q` with natural `m` and
integer `q`.  All that is written about a double is computed from this form in
exact arithmetic.

* `Binary64.ofFloat`: the form of a double.
* `roundHalfEven`: the whole number nearest to a quotient, a tie going to the
  even one.
* `roundSignificand`: the double nearest to a natural number, as a natural
  number.
-/

namespace ShardLoad.Decimal

/-- A double as an exact number. -/
inductive Binary64 where
  | finite (negative : Bool) (m : Nat) (q : Int)
  | infinite (negative : Bool)
  | nan
  deriving Repr, DecidableEq

/-- The exact number that a double is. -/
def Binary64.ofFloat (x : Float) : Binary64 :=
  let bits := x.toBits.toNat
  let negative := decide (2 ^ 63 ≤ bits)
  let exponent : Nat := bits / 2 ^ 52 % 2048
  let fraction := bits % 2 ^ 52
  if exponent = 2047 then
    if fraction = 0 then .infinite negative else .nan
  else if exponent = 0 then .finite negative fraction (-1074)
  else .finite negative (fraction + 2 ^ 52) ((exponent : Int) - 1075)

/-- The whole number nearest to `num / den`; of two equally near the even one. -/
def roundHalfEven (num den : Nat) : Nat :=
  let whole := num / den
  let rest := num % den
  if 2 * rest < den then whole
  else if den < 2 * rest then whole + 1
  else if whole % 2 = 0 then whole else whole + 1

/-- Rounding is within half a unit of the quotient. -/
theorem roundHalfEven_near {num den : Nat} (h : 0 < den) :
    2 * num ≤ 2 * (roundHalfEven num den * den) + den ∧
      2 * (roundHalfEven num den * den) ≤ 2 * num + den := by
  have hd := Nat.div_add_mod num den
  have hm := Nat.mod_lt num h
  have hc : den * (num / den) = num / den * den := Nat.mul_comm _ _
  have hs : (num / den + 1) * den = num / den * den + den := Nat.succ_mul _ _
  unfold roundHalfEven
  simp only
  split
  · omega
  · split
    · rw [hs]; omega
    · split
      · omega
      · rw [hs]; omega

/-- A quotient that is whole is its own rounding. -/
@[simp] theorem roundHalfEven_mul (n : Nat) {den : Nat} (h : 0 < den) :
    roundHalfEven (n * den) den = n := by
  simp [roundHalfEven, Nat.mul_div_cancel _ h, h]

/-- The binary digits of a natural number past the fifty-three that a double
keeps. -/
def surplusBits (n : Nat) : Nat := Nat.log2 n + 1 - 53

/-- The natural number that the double nearest to `n` is. -/
def roundSignificand (n : Nat) : Nat :=
  let k := surplusBits n
  roundHalfEven n (2 ^ k) * 2 ^ k

end ShardLoad.Decimal
