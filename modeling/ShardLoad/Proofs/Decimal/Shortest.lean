import ShardLoad.Decimal.Shortest

/-!
# Shortest decimals of zero

The search for the shortest decimal of a double that is not zero never ends at zero, since zero
does not lie in the interval that the double stands for.  So a decimal form without digits has no
power of ten, which would otherwise be printed as a row of zeros.

* `Span.holds_of_nearest?`: a search on one grid.
* `exponent_shortest`: the decimal form.
-/

namespace ShardLoad.Decimal

theorem power_pos {b : Nat} (hb : 0 < b) (e : Int) : 0 < (power b e).1 ∧ 0 < (power b e).2 := by
  unfold power
  split
  · exact ⟨Nat.pow_pos hb, Nat.one_pos⟩
  · exact ⟨Nat.one_pos, Nat.pow_pos hb⟩

/-- The interval of a double that is not zero lies above zero. -/
theorem Span.low_pos {m : Nat} (hm : m ≠ 0) (q : Int) : 0 < (Span.of m q).low := by
  simp only [Span.of]
  split <;> omega

/-- An interval above zero does not hold zero. -/
theorem Span.holds_zero {s : Span} (hlow : 0 < s.low) {quarter : Nat} (hquarter : 0 < quarter)
    (unit : Nat) : s.holds quarter unit 0 = false := by
  have hpos : 0 < s.low * quarter := Nat.mul_pos hlow hquarter
  unfold holds
  rw [Nat.zero_mul]
  split
  · rw [decide_eq_false (by omega), Bool.false_and]
  · rw [decide_eq_false (by omega), Bool.false_and]

/-- The neighbour that stands for a double lies in its interval. -/
theorem Span.holds_of_nearest? {s : Span} {quarter unit n : Nat}
    (h : s.nearest? quarter unit = some n) : s.holds quarter unit n = true := by
  simp only [nearest?] at h
  split at h
  · rename_i hbelow habove
    split at h
    · exact Option.some.inj h ▸ hbelow
    · split at h
      · exact Option.some.inj h ▸ habove
      · split at h
        · exact Option.some.inj h ▸ hbelow
        · exact Option.some.inj h ▸ habove
  · rename_i hbelow _
    exact Option.some.inj h ▸ hbelow
  · rename_i _ habove
    exact Option.some.inj h ▸ habove
  · exact absurd h (Option.some_ne_none n).symm

/-- No search on a grid ends at zero. -/
theorem Span.nearest?_ne_zero {s : Span} (hlow : 0 < s.low) {quarter : Nat}
    (hquarter : 0 < quarter) (unit : Nat) : s.nearest? quarter unit ≠ some 0 := by
  intro h
  have hholds := holds_of_nearest? h
  rw [holds_zero hlow hquarter unit] at hholds
  exact Bool.noConfusion hholds

theorem exponent_search {s : Span} (hlow : 0 < s.low) {quarter : Nat × Nat}
    (hquarter : 0 < quarter.1) (lead : Int) (tries count : Nat)
    (h : (search s quarter lead tries count).1 = 0) :
    (search s quarter lead tries count).2 = 0 := by
  induction tries generalizing count with
  | zero => rfl
  | succ tries ih =>
    have hten := (power_pos (b := 10) (by decide) (lead - count)).2
    have hne := Span.nearest?_ne_zero hlow (Nat.mul_pos hquarter hten)
      ((power 10 (lead - count)).1 * quarter.2)
    simp only [search] at h ⊢
    split at h
    · rename_i n hn
      obtain rfl : n = 0 := h
      exact absurd hn hne
    · exact ih (count + 1) h

/-- Nothing is moved into the exponent of zero. -/
theorem strip_eq_zero {fuel digits : Nat} {exponent : Int}
    (h : (strip fuel digits exponent).1 = 0) :
    digits = 0 ∧ (strip fuel digits exponent).2 = exponent := by
  induction fuel generalizing digits exponent with
  | zero => exact ⟨h, rfl⟩
  | succ fuel ih =>
    unfold strip at h ⊢
    split at h
    · rename_i hten
      obtain ⟨hdigits, -⟩ := ih h
      omega
    · rename_i hten
      rw [if_neg hten]
      exact ⟨h, rfl⟩

/-- **A decimal form without digits has no power of ten.** -/
theorem exponent_shortest {m : Nat} {q : Int} (h : (shortest m q).1 = 0) :
    (shortest m q).2 = 0 := by
  by_cases hm : m = 0
  · rw [shortest, if_pos hm]
  · let lead := leading (m * (power 2 q).1) (power 2 q).2
    let found := search (Span.of m q) (power 2 (q - 2)) lead 17 0
    have hstrip : shortest m q = strip 17 found.1 found.2 := by rw [shortest, if_neg hm]
    rw [hstrip] at h ⊢
    obtain ⟨hdigits, hexponent⟩ := strip_eq_zero h
    rw [hexponent]
    exact exponent_search (Span.low_pos hm q) (power_pos (by decide) (q - 2)).1 lead 17 0 hdigits

end ShardLoad.Decimal
