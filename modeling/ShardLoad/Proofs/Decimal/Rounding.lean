import ShardLoad.Decimal.Binary64

/-!
# Laws of rounding

Rounding to a double keeps the order of numbers, does not look at factors of two, and changes
a number by no more than one part in `2 ^ 53`.

* `roundSignificand_le_roundSignificand`: the order.
* `roundSignificand_mul_two_pow`: factors of two.
* `roundSignificand_mul_le`: how much a number may grow.
-/

namespace ShardLoad.Decimal

/-! ## Quotients -/

theorem div_le_roundHalfEven (num den : Nat) : num / den ≤ roundHalfEven num den := by
  unfold roundHalfEven
  simp only
  split
  · exact Nat.le_refl _
  · split
    · exact Nat.le_succ _
    · split
      · exact Nat.le_refl _
      · exact Nat.le_succ _

theorem roundHalfEven_le_succ_div (num den : Nat) : roundHalfEven num den ≤ num / den + 1 := by
  unfold roundHalfEven
  simp only
  split
  · exact Nat.le_succ _
  · split
    · exact Nat.le_refl _
    · split
      · exact Nat.le_succ _
      · exact Nat.le_refl _

/-- Rounding keeps the order of quotients. -/
theorem roundHalfEven_le_roundHalfEven {m n : Nat} (h : m ≤ n) (den : Nat) :
    roundHalfEven m den ≤ roundHalfEven n den := by
  rcases Nat.eq_or_lt_of_le (Nat.div_le_div_right (c := den) h) with hq | hq
  · have hm := Nat.div_add_mod m den
    have hn := Nat.div_add_mod n den
    have hrest : m % den ≤ n % den := by
      rw [hq] at hm
      omega
    unfold roundHalfEven
    rw [hq]
    grind
  · calc roundHalfEven m den ≤ m / den + 1 := roundHalfEven_le_succ_div m den
      _ ≤ n / den := hq
      _ ≤ roundHalfEven n den := div_le_roundHalfEven n den

/-- Rounding does not look at common factors. -/
theorem roundHalfEven_mul_mul (num den : Nat) {k : Nat} (hk : 0 < k) :
    roundHalfEven (num * k) (den * k) = roundHalfEven num den := by
  have hbelow : 2 * (num % den * k) < den * k ↔ 2 * (num % den) < den := by
    rw [← Nat.mul_assoc]
    exact Nat.mul_lt_mul_right hk
  have habove : den * k < 2 * (num % den * k) ↔ den < 2 * (num % den) := by
    rw [← Nat.mul_assoc]
    exact Nat.mul_lt_mul_right hk
  unfold roundHalfEven
  simp only [Nat.mul_div_mul_right _ _ hk, Nat.mul_mod_mul_right, hbelow, habove]

/-- A whole number is its own rounding. -/
theorem roundHalfEven_one (n : Nat) : roundHalfEven n 1 = n := by
  have h := @roundHalfEven_mul n 1 Nat.one_pos
  rw [Nat.mul_one] at h
  exact h

/-! ## Doubles -/

/-- A number is below the power of two behind its digits. -/
theorem lt_two_pow_surplusBits (n : Nat) : n < 2 ^ (53 + surplusBits n) :=
  Nat.lt_of_lt_of_le Nat.lt_log2_self
    (Nat.pow_le_pow_right (by decide) (by unfold surplusBits; omega))

/-- A number with more digits than a double keeps has its first one set. -/
theorem two_pow_surplusBits_le {n : Nat} (h : 0 < surplusBits n) :
    2 ^ (52 + surplusBits n) ≤ n := by
  unfold surplusBits at h ⊢
  have hn : n ≠ 0 := by
    rintro rfl
    exact absurd h (by decide)
  have he : 52 + (Nat.log2 n + 1 - 53) = Nat.log2 n := by omega
  rw [he]
  exact Nat.log2_self_le hn

/-- A greater number has no fewer digits than a double keeps. -/
theorem surplusBits_le_surplusBits {m n : Nat} (h : m ≤ n) : surplusBits m ≤ surplusBits n := by
  refine Nat.le_of_not_lt fun hlt => ?_
  have hm := two_pow_surplusBits_le (Nat.lt_of_le_of_lt (Nat.zero_le _) hlt)
  have hn := lt_two_pow_surplusBits n
  have hpow : 2 ^ (53 + surplusBits n) ≤ 2 ^ (52 + surplusBits m) :=
    Nat.pow_le_pow_right (by decide) (by omega)
  omega

/-- Rounding to a double keeps the order of numbers. -/
theorem roundSignificand_le_roundSignificand {m n : Nat} (h : m ≤ n) :
    roundSignificand m ≤ roundSignificand n := by
  unfold roundSignificand
  simp only
  rcases Nat.eq_or_lt_of_le (surplusBits_le_surplusBits h) with hk | hk
  · rw [hk]
    exact Nat.mul_le_mul_right _ (roundHalfEven_le_roundHalfEven h _)
  · -- the power of two between the two numbers is a double
    have hm : m / 2 ^ surplusBits m < 2 ^ 53 := by
      rw [Nat.div_lt_iff_lt_mul (Nat.two_pow_pos _), ← Nat.pow_add]
      exact lt_two_pow_surplusBits m
    have hn : 2 ^ 52 ≤ n / 2 ^ surplusBits n := by
      rw [Nat.le_div_iff_mul_le (Nat.two_pow_pos _), ← Nat.pow_add]
      exact two_pow_surplusBits_le (Nat.lt_of_le_of_lt (Nat.zero_le _) hk)
    calc roundHalfEven m (2 ^ surplusBits m) * 2 ^ surplusBits m
        ≤ 2 ^ 53 * 2 ^ surplusBits m :=
          Nat.mul_le_mul_right _ (Nat.le_trans (roundHalfEven_le_succ_div _ _) hm)
      _ ≤ 2 ^ 52 * 2 ^ surplusBits n := by
          rw [← Nat.pow_add, ← Nat.pow_add]
          exact Nat.pow_le_pow_right (by decide) (by omega)
      _ ≤ roundHalfEven n (2 ^ surplusBits n) * 2 ^ surplusBits n :=
          Nat.mul_le_mul_right _ (Nat.le_trans hn (div_le_roundHalfEven _ _))

theorem log2_mul_two_pow {n : Nat} (h : n ≠ 0) (k : Nat) :
    Nat.log2 (n * 2 ^ k) = Nat.log2 n + k := by
  have hpos : 0 < 2 ^ k := Nat.two_pow_pos k
  refine (Nat.log2_eq_iff (Nat.mul_ne_zero h (Nat.ne_of_gt hpos))).mpr ⟨?_, ?_⟩
  · rw [Nat.pow_add]
    exact Nat.mul_le_mul_right _ (Nat.log2_self_le h)
  · rw [Nat.add_right_comm, Nat.pow_add]
    exact Nat.mul_lt_mul_of_pos_right Nat.lt_log2_self hpos

/-- Rounding to a double does not look at factors of two. -/
theorem roundSignificand_mul_two_pow (n k : Nat) :
    roundSignificand (n * 2 ^ k) = roundSignificand n * 2 ^ k := by
  rcases Nat.eq_zero_or_pos n with rfl | hn
  · rw [Nat.zero_mul, show roundSignificand 0 = 0 by decide, Nat.zero_mul]
  have hlog := log2_mul_two_pow (Nat.ne_of_gt hn) k
  by_cases hfull : 53 ≤ Nat.log2 n + 1
  · -- the factor falls to the bits that are dropped
    have hs : surplusBits (n * 2 ^ k) = surplusBits n + k := by
      unfold surplusBits
      omega
    unfold roundSignificand
    simp only
    rw [hs, Nat.pow_add, roundHalfEven_mul_mul _ _ (Nat.two_pow_pos k), Nat.mul_assoc]
  · -- nothing is dropped of the number, and of its product only zeros
    have hs : surplusBits n = 0 := by
      unfold surplusBits
      omega
    obtain ⟨j, hj⟩ : ∃ j, k = j + surplusBits (n * 2 ^ k) := by
      refine ⟨k - surplusBits (n * 2 ^ k), ?_⟩
      unfold surplusBits
      omega
    have hprod : n * 2 ^ k = n * 2 ^ j * 2 ^ surplusBits (n * 2 ^ k) := by
      rw [Nat.mul_assoc, ← Nat.pow_add, ← hj]
    have hround := roundHalfEven_mul (n * 2 ^ j) (Nat.two_pow_pos (surplusBits (n * 2 ^ k)))
    rw [← hprod] at hround
    unfold roundSignificand
    simp only
    rw [hround, ← hprod, hs, Nat.pow_zero, roundHalfEven_one, Nat.mul_one]

/-- A number grows by no more than one part in `2 ^ 53` when it is rounded to a double. -/
theorem roundSignificand_mul_le (n : Nat) : roundSignificand n * 2 ^ 53 ≤ n * (2 ^ 53 + 1) := by
  unfold roundSignificand
  simp only
  have hnear := (@roundHalfEven_near n _ (Nat.two_pow_pos (surplusBits n))).2
  rcases Nat.eq_zero_or_pos (surplusBits n) with hk | hk
  · rw [hk, Nat.pow_zero, roundHalfEven_one, Nat.mul_one]
    exact Nat.mul_le_mul_left _ (Nat.le_succ _)
  · have hn := two_pow_surplusBits_le hk
    rw [Nat.pow_add] at hn
    omega

end ShardLoad.Decimal
