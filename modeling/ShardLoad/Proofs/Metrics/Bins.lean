import Mathlib.Data.Nat.Size
import Mathlib.Order.Bounds.Defs
import ShardLoad.Metrics.Histogram

/-!
# Values and what is shown of them

A histogram shows a value as the highest one of its bin.  That is the value itself if it has
at most eleven bits, and otherwise the value with all bits behind its first eleven set.  Only
the topmost bin is shown as something less than its highest value.

So what is shown grows with the value, falls short of it at the very top only, and exceeds it
by no more than a thousandth.

* `shown`, `highest_bin`: what is shown of a value.
* `bin_le_bin`: the bins are in the order of their values.
* `bin_lt_bin_topmost`, `bin_eq_of_topmost_le`: which values the topmost bin has.
* `shown_le_shown`, `le_shown`, `shown_le`: what is shown against the value.
* `isGreatest_shown`: it is the highest value of the bin.
-/

namespace ShardLoad.Histogram

/-- The least value of the topmost bin. -/
def topmost : Nat := 2 ^ 64 - 2 ^ 53

/-- What is shown of a 64-bit value. -/
def shown (v : Nat) : Nat :=
  if v < 2048 then v
  else if topmost ≤ v then 2 ^ 64 - 2
  else v ||| (2 ^ (v.size - 11) - 1)

/-! ## The bits of a value -/

/-- The bits that a bin does not tell apart are those behind the first eleven. -/
theorem size_sub_eq_dropped {v : Nat} (h : 0 < v) : v.size - 11 = dropped v := by
  have hsize : v.size = Nat.log2 v + 1 := by
    apply Nat.le_antisymm
    · exact Nat.size_le.mpr Nat.lt_log2_self
    · exact Nat.lt_size.mpr (Nat.log2_self_le (Nat.ne_of_gt h))
  rw [hsize, dropped]

/-- More is dropped of greater values. -/
theorem dropped_le_dropped {v w : Nat} (h : v ≤ w) : dropped v ≤ dropped w := by
  rcases Nat.eq_zero_or_pos v with rfl | hpos
  · exact Nat.zero_le _
  · rw [← size_sub_eq_dropped hpos, ← size_sub_eq_dropped (Nat.lt_of_lt_of_le hpos h)]
    exact Nat.sub_le_sub_right (Nat.size_le_size h) 11

/-- No more than fifty-three bits are dropped. -/
theorem dropped_le {v : Nat} (h : v < 2 ^ 64) : dropped v ≤ 53 := by
  have hle := dropped_le_dropped (Nat.le_of_lt_succ (show v < (2 ^ 64 - 1) + 1 from h))
  exact Nat.le_trans hle (by decide)

/-- Setting the low bits of a value goes to the end of its bin. -/
theorem or_low_bits (v d : Nat) : v ||| (2 ^ d - 1) = (v / 2 ^ d + 1) * 2 ^ d - 1 := by
  have hpos : 0 < 2 ^ d := Nat.two_pow_pos d
  have hrest : v % 2 ^ d ||| (2 ^ d - 1) = 2 ^ d - 1 := by
    apply Nat.eq_of_testBit_eq
    intro i
    rw [Nat.testBit_or, Nat.testBit_two_pow_sub_one, Nat.testBit_mod_two_pow]
    by_cases hi : i < d <;> simp [hi]
  calc v ||| (2 ^ d - 1)
      = (2 ^ d * (v / 2 ^ d) + v % 2 ^ d) ||| (2 ^ d - 1) := by rw [Nat.div_add_mod]
    _ = 2 ^ d * (v / 2 ^ d) ||| (v % 2 ^ d ||| (2 ^ d - 1)) := by
        rw [Nat.two_pow_add_eq_or_of_lt (Nat.mod_lt v hpos), Nat.or_assoc]
    _ = 2 ^ d * (v / 2 ^ d) + (2 ^ d - 1) := by
        rw [hrest, Nat.two_pow_add_eq_or_of_lt (Nat.sub_lt hpos Nat.one_pos)]
    _ = (v / 2 ^ d + 1) * 2 ^ d - 1 := by
        rw [Nat.succ_mul, Nat.mul_comm, Nat.add_sub_assoc hpos]

/-- The end of a bin lies before every multiple of its length that its values do not reach. -/
theorem succ_div_mul_le {v d c : Nat} (h : v < c * 2 ^ d) : (v / 2 ^ d + 1) * 2 ^ d ≤ c * 2 ^ d :=
  Nat.mul_le_mul_right _ ((Nat.div_lt_iff_lt_mul (Nat.two_pow_pos d)).mpr h)

/-! ## Bins -/

/-- At most eleven bits of a value are left. -/
theorem div_dropped_lt (v : Nat) : v / 2 ^ dropped v < 2048 := by
  by_cases hv : v < 2048
  · exact Nat.lt_of_le_of_lt (Nat.div_le_self _ _) hv
  · exact (div_dropped_mem (Nat.le_of_not_lt hv)).2

/-- The bins are in the order of their values. -/
theorem bin_le_bin {v w : Nat} (h : v ≤ w) : bin v ≤ bin w := by
  unfold bin
  rcases Nat.eq_or_lt_of_le (dropped_le_dropped h) with hd | hd
  · rw [hd]
    exact Nat.add_le_add_left (Nat.div_le_div_right h) _
  · -- a value of which more is dropped has its eleven bits full
    have hw : 2048 ≤ w := by
      refine Nat.le_of_not_lt fun hlt => ?_
      rw [dropped_eq_zero hlt] at hd
      exact Nat.not_lt_zero _ hd
    have hlow := div_dropped_lt v
    have hhigh := (div_dropped_mem hw).1
    omega

/-- The highest value of the bin of a value, before the ceiling. -/
theorem highest_bin_eq (v : Nat) :
    highest (bin v) = min ((v / 2 ^ dropped v + 1) * 2 ^ dropped v - 1) ceiling := by
  unfold highest
  rw [width_bin, bin, Nat.add_sub_cancel_left]

/-- What is shown of a value is the highest one of its bin. -/
theorem highest_bin {v : Nat} (h : v < 2 ^ 64) : highest (bin v) = shown v := by
  rw [highest_bin_eq]
  unfold shown
  by_cases hsmall : v < 2048
  · rw [if_pos hsmall, dropped_eq_zero hsmall, Nat.pow_zero, Nat.div_one, Nat.mul_one,
      Nat.add_sub_cancel]
    exact Nat.min_eq_left (Nat.le_trans (Nat.le_of_lt hsmall) (by decide))
  · rw [if_neg hsmall]
    have hpos : 0 < v := by omega
    have hdropped := dropped_le h
    by_cases htop : topmost ≤ v
    · rw [if_pos htop]
      have hd : dropped v = 53 := by
        refine Nat.le_antisymm hdropped ?_
        rw [← size_sub_eq_dropped hpos]
        have : 63 < v.size := Nat.lt_size.mpr (Nat.le_trans (by decide) htop)
        omega
      have hquot : v / 2 ^ 53 = 2047 := by
        unfold topmost at htop
        omega
      rw [hd, hquot]
      rfl
    · rw [if_neg htop, size_sub_eq_dropped hpos, or_low_bits]
      apply Nat.min_eq_left
      obtain ⟨k, hk⟩ := Nat.exists_eq_add_of_le hdropped
      have hmul : topmost = 2047 * 2 ^ k * 2 ^ dropped v := by
        rw [Nat.mul_assoc, ← Nat.pow_add, Nat.add_comm, ← hk]
        rfl
      have hle := succ_div_mul_le (c := 2047 * 2 ^ k) (hmul ▸ Nat.lt_of_not_le htop)
      rw [← hmul] at hle
      calc (v / 2 ^ dropped v + 1) * 2 ^ dropped v - 1 ≤ topmost := Nat.le_trans (Nat.sub_le _ _) hle
        _ ≤ ceiling := by decide

/-! ## The topmost bin -/

/-- The bin of a value is known from the length of the value and its first eleven bits. -/
theorem dropped_eq_of_le_of_lt {v d : Nat} (h : 2 ^ (d + 10) ≤ v) (h' : v < 2 ^ (d + 11)) :
    dropped v = d := by
  have hpos : v ≠ 0 := Nat.ne_of_gt (Nat.lt_of_lt_of_le (Nat.two_pow_pos _) h)
  have hlog : Nat.log2 v = d + 10 := (Nat.log2_eq_iff hpos).mpr ⟨h, h'⟩
  rw [dropped, hlog]
  omega

/-- All values of the topmost bin share it with the very greatest value. -/
theorem bin_eq_of_topmost_le {v : Nat} (h : topmost ≤ v) (h' : v < 2 ^ 64) :
    bin v = bin (2 ^ 64 - 1) := by
  refine Nat.le_antisymm (bin_le_bin (Nat.le_of_lt_succ h')) ?_
  calc bin (2 ^ 64 - 1) = bin topmost := by decide
    _ ≤ bin v := bin_le_bin h

/-- All other values lie in bins before it. -/
theorem bin_lt_bin_topmost {v : Nat} (h : v < topmost) : bin v < bin topmost := by
  have htop : bin topmost = 1024 * 53 + 2047 := by decide
  rw [htop, bin]
  rcases Nat.eq_or_lt_of_le (dropped_le (Nat.lt_trans h (by decide))) with hd | hd
  · have hlow : v / 2 ^ 53 < 2047 := (Nat.div_lt_iff_lt_mul (by decide)).mpr h
    rw [hd]
    exact Nat.add_lt_add_left hlow _
  · have hlow := div_dropped_lt v
    omega

/-! ## What is shown against the value -/

/-- More is shown of greater values. -/
theorem shown_le_shown {v w : Nat} (h : v ≤ w) (hw : w < 2 ^ 64) : shown v ≤ shown w := by
  rw [← highest_bin hw, ← highest_bin (Nat.lt_of_le_of_lt h hw), highest_bin_eq, highest_bin_eq]
  refine Nat.le_min.mpr ⟨Nat.le_trans (Nat.min_le_left _ _) ?_, Nat.min_le_right _ _⟩
  apply Nat.sub_le_sub_right
  obtain ⟨k, hk⟩ := Nat.exists_eq_add_of_le (dropped_le_dropped h)
  have hlt : w < (w / 2 ^ dropped w + 1) * 2 ^ dropped w :=
    (Nat.div_lt_iff_lt_mul (Nat.two_pow_pos _)).mp (Nat.lt_succ_self _)
  -- the end of the bin of the greater value is a multiple of the length of both
  have hmul : (w / 2 ^ dropped w + 1) * 2 ^ dropped w =
      (w / 2 ^ dropped w + 1) * 2 ^ k * 2 ^ dropped v := by
    rw [Nat.mul_assoc, ← Nat.pow_add, Nat.add_comm k, ← hk]
  rw [hmul] at hlt ⊢
  exact succ_div_mul_le (Nat.lt_of_le_of_lt h hlt)

/-- Only of the very greatest value less is shown. -/
theorem le_shown {v : Nat} (h : v ≤ ceiling) : v ≤ shown v := by
  rw [← highest_bin (Nat.lt_of_le_of_lt h (by decide))]
  exact le_highest_bin h

/-- What is shown exceeds the value by a thousandth at most. -/
theorem shown_le {v : Nat} (h : v < 2 ^ 64) : shown v ≤ v + v / 1024 := by
  rw [← highest_bin h, highest_bin_eq]
  refine Nat.le_trans (Nat.min_le_left _ _) ?_
  by_cases hsmall : v < 2048
  · rw [dropped_eq_zero hsmall, Nat.pow_zero, Nat.div_one, Nat.mul_one, Nat.add_sub_cancel]
    exact Nat.le_add_right _ _
  · have hbits := (div_dropped_mem (Nat.le_of_not_lt hsmall)).1
    have hlength : 2 ^ dropped v ≤ v / 1024 := by
      rw [Nat.le_div_iff_mul_le (by decide), Nat.mul_comm]
      exact (Nat.le_div_iff_mul_le (Nat.two_pow_pos _)).mp hbits
    have hle : v / 2 ^ dropped v * 2 ^ dropped v ≤ v := Nat.div_mul_le_self _ _
    rw [Nat.succ_mul]
    omega

/-- What is shown of a value lies in its bin. -/
theorem bin_shown {v : Nat} (h : v < topmost) : bin (shown v) = bin v := by
  unfold shown
  by_cases hsmall : v < 2048
  · rw [if_pos hsmall]
  · have hlarge := Nat.le_of_not_lt hsmall
    have hpos : 0 < v := Nat.lt_of_lt_of_le (by decide) hlarge
    rw [if_neg hsmall, if_neg (Nat.not_le.mpr h), size_sub_eq_dropped hpos, or_low_bits]
    obtain ⟨hge, hlt⟩ := div_dropped_mem hlarge
    generalize hd : dropped v = d at hge hlt ⊢
    have hlen : 0 < 2 ^ d := Nat.two_pow_pos d
    -- the last value of the bin has the same first eleven bits
    have hquot : ((v / 2 ^ d + 1) * 2 ^ d - 1) / 2 ^ d = v / 2 ^ d := by
      rw [Nat.succ_mul, Nat.add_sub_assoc hlen, Nat.mul_comm, Nat.mul_add_div hlen,
        Nat.div_eq_of_lt (Nat.sub_lt hlen Nat.one_pos), Nat.add_zero]
    have hdropped : dropped ((v / 2 ^ d + 1) * 2 ^ d - 1) = d := by
      apply dropped_eq_of_le_of_lt
      · rw [Nat.add_comm d, Nat.pow_add, ← Nat.le_div_iff_mul_le hlen, hquot]
        exact hge
      · rw [Nat.add_comm d, Nat.pow_add, ← Nat.div_lt_iff_lt_mul hlen, hquot]
        exact hlt
    rw [bin, bin, hdropped, hquot, hd]

/-- **What is shown of a value is the highest value of its bin.** -/
theorem isGreatest_shown {v : Nat} (h : v < topmost) : IsGreatest {w | bin w = bin v} (shown v) := by
  have hv : v < 2 ^ 64 := Nat.lt_trans h (by decide)
  constructor
  · exact bin_shown h
  · intro w hw
    have hwv : bin w = bin v := hw
    have hlow : w < topmost := by
      refine Nat.lt_of_not_le fun htop => ?_
      have hle := bin_le_bin htop
      rw [hwv] at hle
      exact Nat.not_lt.mpr hle (bin_lt_bin_topmost h)
    calc w ≤ highest (bin w) := le_highest_bin (Nat.le_trans (Nat.le_of_lt hlow) (by decide))
      _ = shown v := by rw [hwv, highest_bin hv]

example : highest (bin 2047) = 2047 ∧ highest (bin 2048) = 2049 := by decide

end ShardLoad.Histogram
