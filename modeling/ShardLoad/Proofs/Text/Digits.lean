import Mathlib.Data.String.Basic
import ShardLoad.Power
import ShardLoad.Result.Calendar

/-!
# Digits

A number is written by its decimal digits, with no zero in front unless it is zero.  Where it is
filled up with zeros to a width, its value does not change, and numbers of one width are compared
as their texts are, character by character: by the first digit in which they differ.

* `isDigit_of_mem_filled`, `not_mem_filled`: which characters there are.
* `ofDigitChars_filled`: the value of what is filled up.
* `length_toDigits_of_head?`: what starts with a zero.
* `append_lt_append_iff`: texts in order whose starts have one length.
* `Moment.padded_lt_padded_iff`: numbers of one width in order.
-/

namespace ShardLoad

variable {digits m n : ℕ}

/-! ## Digits -/

/-- The digits of a number start with zero only if it is zero. -/
theorem head?_toDigits_ne (h : n ≠ 0) : (Nat.toDigits 10 n).head? ≠ some '0' := by
  induction n using Nat.strongRecOn with
  | ind n ih =>
    by_cases hlt : n < 10
    · have hdigit : ∀ m < 10, m ≠ 0 → Nat.digitChar m ≠ '0' := by decide
      rw [Nat.toDigits_of_lt_base hlt, List.head?_cons]
      exact fun he => hdigit n hlt h (Option.some.inj he)
    · rw [Nat.toDigits_of_base_le (by decide) (by omega),
        List.head?_append_of_ne_nil _ Nat.toDigits_ne_nil]
      exact ih (n / 10) (by omega) (by omega)

/-- Only zero is written with a zero in front. -/
theorem length_toDigits_of_head? (h : (Nat.toDigits 10 n).head? = some '0') :
    (Nat.toDigits 10 n).length = 1 := by
  by_cases hn : n = 0
  · rw [hn]
    rfl
  · exact absurd h (head?_toDigits_ne hn)

theorem isDigit_of_mem_toDigits {c : Char} (h : c ∈ Nat.toDigits 10 n) :
    c.isDigit = true := Nat.isDigit_of_mem_toDigits (by decide) (by decide) h

theorem isDigit_of_mem_zeros {zeros : ℕ} {c : Char} (h : c ∈ List.replicate zeros '0') :
    c.isDigit = true := by
  obtain rfl := List.eq_of_mem_replicate h
  rfl

theorem isDigit_of_mem_filled {zeros : ℕ} {c : Char}
    (h : c ∈ List.replicate zeros '0' ++ Nat.toDigits 10 n) : c.isDigit = true := by
  rcases List.mem_append.mp h with hzero | hdigit
  · exact isDigit_of_mem_zeros hzero
  · exact isDigit_of_mem_toDigits hdigit

theorem not_mem_filled {c : Char} (hc : c.isDigit = false) (zeros n : ℕ) :
    c ∉ List.replicate zeros '0' ++ Nat.toDigits 10 n := by
  intro h
  rw [isDigit_of_mem_filled h] at hc
  exact Bool.noConfusion hc

/-- Zeros in front of a number do not change it. -/
theorem ofDigitChars_filled (zeros n : ℕ) :
    Nat.ofDigitChars 10 (List.replicate zeros '0' ++ Nat.toDigits 10 n) 0 = n := by
  rw [Nat.ofDigitChars_append, Nat.ofDigitChars_replicate_zero, Nat.mul_zero,
    Nat.ofDigitChars_ten_toDigits]

/-! ## Texts in order -/

/-- Texts that start with equally many characters are in the order of these, or of the rest. -/
theorem append_lt_append_iff {xs ys us vs : List Char} (h : xs.length = ys.length) :
    xs ++ us < ys ++ vs ↔ xs < ys ∨ xs = ys ∧ us < vs := by
  induction xs generalizing ys with
  | nil =>
    obtain rfl := List.length_eq_zero_iff.mp h.symm
    simp
  | cons x xs ih =>
    cases ys with
    | nil => exact absurd h (Nat.succ_ne_zero _)
    | cons y ys =>
      rw [List.cons_append, List.cons_append, List.cons_lt_cons_iff, List.cons_lt_cons_iff,
        ih (Nat.succ.inj h), List.cons.injEq]
      tauto

/-- Single digits. -/
theorem digit_lt_digit_iff (hm : m < 10) (hn : n < 10) :
    [Nat.digitChar m] < [Nat.digitChar n] ↔ m < n := by
  have hdigits : ∀ i < 10, ∀ j < 10, Nat.digitChar i < Nat.digitChar j ↔ i < j := by decide
  rw [List.cons_lt_cons_iff, hdigits m hm n hn]
  simp

/-! ## Numbers of a width -/

namespace Moment

/-- A number of a width is what stands in front of its last digit, and this digit. -/
theorem padded_add_one (hdigits : 0 < digits) (n : ℕ) :
    padded (digits + 1) n = padded digits (n / 10) ++ [Nat.digitChar (n % 10)] := by
  rcases Nat.lt_or_ge n 10 with hlt | hge
  · obtain ⟨digits, rfl⟩ := Nat.exists_eq_succ_of_ne_zero hdigits.ne'
    simp [padded, Nat.toDigits_of_lt_base hlt, Nat.div_eq_of_lt hlt, Nat.mod_eq_of_lt hlt,
      List.replicate_succ']
  · simp [padded, Nat.toDigits_of_base_le (by decide) hge]

/-- A number that fits has its width. -/
theorem length_padded (hdigits : 0 < digits) (hn : n < 10 ^ digits) :
    (padded digits n).length = digits := by
  have hle : (Nat.toDigits 10 n).length ≤ digits :=
    (Nat.length_toDigits_le_iff (by decide) hdigits).mpr hn
  rw [padded, List.length_append, List.length_replicate, Nat.sub_add_cancel hle]

theorem padded_inj : padded digits m = padded digits n ↔ m = n := by
  refine ⟨fun h => ?_, fun h => h ▸ rfl⟩
  rw [← ofDigitChars_filled (digits - (Nat.toDigits 10 m).length) m, ← padded, h, padded,
    ofDigitChars_filled]

/-- **Numbers of one width are in the order of their digits.** -/
theorem padded_lt_padded_iff (hdigits : 0 < digits) (hm : m < 10 ^ digits) (hn : n < 10 ^ digits) :
    padded digits m < padded digits n ↔ m < n := by
  induction digits, hdigits using Nat.le_induction generalizing m n with
  | base =>
    have hone {k : ℕ} (hk : k < 10) : padded 1 k = [Nat.digitChar k] := by
      simp [padded, Nat.toDigits_of_lt_base hk]
    rw [hone hm, hone hn, digit_lt_digit_iff hm hn]
  | succ digits hdigits ih =>
    have hdiv {k : ℕ} (hk : k < 10 ^ (digits + 1)) : k / 10 < 10 ^ digits := by
      rw [Nat.pow_succ] at hk
      omega
    have hlength : (padded digits (m / 10)).length = (padded digits (n / 10)).length := by
      rw [length_padded hdigits (hdiv hm), length_padded hdigits (hdiv hn)]
    rw [padded_add_one hdigits, padded_add_one hdigits, append_lt_append_iff hlength,
      ih (hdiv hm) (hdiv hn), padded_inj, digit_lt_digit_iff (by omega) (by omega)]
    omega

/-- Numbers of one width in front of texts. -/
theorem padded_append_lt_iff (hdigits : 0 < digits) (hm : m < 10 ^ digits) (hn : n < 10 ^ digits)
    (us vs : List Char) :
    padded digits m ++ us < padded digits n ++ vs ↔ m < n ∨ m = n ∧ us < vs := by
  rw [append_lt_append_iff (by rw [length_padded hdigits hm, length_padded hdigits hn]),
    padded_lt_padded_iff hdigits hm hn, padded_inj]

end Moment
end ShardLoad
