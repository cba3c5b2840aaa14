import Mathlib.Algebra.Order.Ring.Nat
import Mathlib.Data.List.Sort
import ShardLoad.Proofs.Decimal.Rounding
import ShardLoad.Proofs.Metrics.Bins

/-!
# Histograms against sorted lists

A histogram forgets in which order values came and, within a bin, which they were.  It still
knows how many of them lie before any bin.  In the sorted list of the values those are the
first ones.  So the scan for a rank stops at the bin of the value that has this rank in the
sorted list, and shows the highest value of that bin.

The rank of a percentile is a product of doubles.  Rounding keeps the order of the products,
and a fraction that is less than one by a few parts in `2 ^ 53` does not lead past the last
value.

* `nth`: the value of a rank in the sorted list.
* `Holds`: a histogram counts given values.
* `Holds.total`, `Holds.atRank`: how many they are, and what a scan shows.
* `rank_le_rank`, `rank_le`: the ranks of fractions.
* `IsPercentile`, `Holds.isPercentile`: what a percentile is.
-/

namespace ShardLoad.Histogram

/-! ## Sorted lists -/

/-- The value of a rank, which is counted from one, in the sorted list. -/
def nth (values : List Nat) (r : Nat) : Nat := values.mergeSort.getD (r - 1) 0

theorem pairwise_mergeSort_le (values : List Nat) : values.mergeSort.Pairwise (· ≤ ·) :=
  List.pairwise_mergeSort' (· ≤ ·) values

/-- What holds of the smaller of two values whenever it holds of the greater holds of as many
first values of a sorted list as of values at all. -/
theorem holds_getElem_iff {l : List Nat} (hl : l.Pairwise (· ≤ ·)) {p : Nat → Bool}
    (hp : ∀ a b, a ≤ b → p b = true → p a = true) {i : Nat} (hi : i < l.length) :
    p l[i] = true ↔ i < l.countP p := by
  induction l generalizing i with
  | nil => exact absurd hi (Nat.not_lt_zero _)
  | cons a l ih =>
    obtain ⟨ha, hl⟩ := List.pairwise_cons.mp hl
    by_cases hpa : p a = true
    · rw [List.countP_cons_of_pos hpa]
      cases i with
      | zero => simp [hpa]
      | succ i =>
        rw [List.getElem_cons_succ, ih hl (Nat.lt_of_succ_lt_succ hi)]
        exact Nat.succ_lt_succ_iff.symm
    · -- it fails at once, and so at every later value
      have hlater : ∀ b ∈ l, ¬p b = true := by
        intro b hb hpb
        exact hpa (hp a b (ha b hb) hpb)
      rw [List.countP_cons_of_neg hpa, List.countP_eq_zero.mpr hlater]
      have hmem : (a :: l)[i] ∈ a :: l := List.getElem_mem hi
      have hfail : ¬p (a :: l)[i] = true := by
        rcases List.mem_cons.mp hmem with heq | hm
        · rw [heq]
          exact hpa
        · exact hlater _ hm
      constructor
      · intro h
        exact absurd h hfail
      · intro h
        exact absurd h (Nat.not_lt_zero _)

section Nth

variable {values : List Nat} {r r' : Nat}

theorem nth_eq_getElem (h : 1 ≤ r) (h' : r ≤ values.length) :
    ∃ hr : r - 1 < values.mergeSort.length, nth values r = values.mergeSort[r - 1] := by
  have hr : r - 1 < values.mergeSort.length := by
    rw [List.length_mergeSort]
    omega
  exact ⟨hr, (List.getElem_eq_getD 0).symm⟩

/-- The value of a rank is one of the values. -/
theorem nth_mem (h : 1 ≤ r) (h' : r ≤ values.length) : nth values r ∈ values := by
  obtain ⟨hr, heq⟩ := nth_eq_getElem h h'
  rw [heq]
  exact List.mem_mergeSort.mp (List.getElem_mem hr)

/-- Greater ranks have greater values. -/
theorem nth_le_nth (h : 1 ≤ r) (hrr : r ≤ r') (h' : r' ≤ values.length) :
    nth values r ≤ nth values r' := by
  obtain ⟨hr, heq⟩ := nth_eq_getElem h (Nat.le_trans hrr h')
  obtain ⟨hr', heq'⟩ := nth_eq_getElem (Nat.le_trans h hrr) h'
  rw [heq, heq']
  rcases Nat.eq_or_lt_of_le (Nat.sub_le_sub_right hrr 1) with hi | hi
  · simp only [hi]
    exact Nat.le_refl _
  · exact List.pairwise_iff_getElem.mp (pairwise_mergeSort_le values) _ _ hr hr' hi

/-- What holds of the smaller of two values whenever it holds of the greater holds of as many
first ranks as of values at all. -/
theorem holds_nth_iff {p : Nat → Bool} (hp : ∀ a b, a ≤ b → p b = true → p a = true)
    (h : 1 ≤ r) (h' : r ≤ values.length) : p (nth values r) = true ↔ r ≤ values.countP p := by
  obtain ⟨hr, heq⟩ := nth_eq_getElem h h'
  rw [heq, holds_getElem_iff (pairwise_mergeSort_le values) hp hr,
    (List.mergeSort_perm values _).countP_eq]
  omega

end Nth

/-! ## What a histogram holds -/

/-- A histogram counts these values and nothing else. -/
def Holds (h : Histogram) (values : List Nat) : Prop :=
  ∀ i, h.count i = values.countP fun v => bin v = i

theorem holds_empty : Holds empty [] := by
  intro i
  rfl

theorem Holds.add {h : Histogram} {values : List Nat} (hh : h.Holds values) (v : Nat) :
    (h.add v).Holds (values ++ [v]) := by
  intro i
  rw [count_add, hh i, List.countP_append, List.countP_singleton]
  by_cases hi : i = bin v
  · simp [hi]
  · simp [hi, Ne.symm hi]

theorem Holds.foldl_add {h : Histogram} {values : List Nat} (hh : h.Holds values)
    (more : List Nat) : (more.foldl Histogram.add h).Holds (values ++ more) := by
  induction more generalizing h values with
  | nil =>
    rw [List.append_nil]
    exact hh
  | cons v more ih =>
    rw [List.foldl_cons, List.append_cons]
    exact ih (hh.add v)

/-- The running count up to a bin is the number of values that lie before it. -/
theorem Holds.sum_take {h : Histogram} {values : List Nat} (hh : h.Holds values) (k : Nat) :
    (h.counts.toList.take k).sum = values.countP fun v => bin v < k := by
  induction k with
  | zero => simp
  | succ k ih =>
    have hnext : (h.counts.toList[k]?.toList).sum = values.countP fun v => bin v = k := by
      rw [← hh k, count, Array.getElem?_toList]
      cases h.counts[k]? <;> simp
    have hsplit : (values.countP fun v => bin v < k + 1) =
        (values.countP fun v => bin v < k) + values.countP fun v => bin v = k := by
      clear hh ih hnext
      induction values with
      | nil => rfl
      | cons v values ih =>
        simp only [List.countP_cons, decide_eq_true_eq, ih]
        split_ifs <;> omega
    rw [List.take_add_one, List.sum_append, ih, hnext, hsplit]

/-- A histogram counts each of its values once. -/
theorem Holds.total {h : Histogram} {values : List Nat} (hh : h.Holds values) :
    h.total = values.length := by
  -- no value lies past the end
  have hend : ∀ v ∈ values, bin v < h.counts.size := by
    intro v hv
    by_contra hpast
    have hnone : h.count (bin v) = 0 := by
      rw [count, Array.getElem?_eq_none (Nat.le_of_not_lt hpast)]
      rfl
    rw [hh] at hnone
    exact List.countP_eq_zero.mp hnone v hv (decide_eq_true rfl)
  have hall : (values.countP fun v => bin v < h.counts.size) = values.length := by
    refine List.countP_eq_length.mpr ?_
    intro v hv
    exact decide_eq_true (hend v hv)
  rw [← hall, ← hh.sum_take, ← Array.length_toList, List.take_length, Histogram.total,
    ← Array.foldl_toList, List.sum_eq_foldl]

/-! ## Scanning for a rank -/

/-- The scan stops where the running count first reaches the rank. -/
theorem reach?_eq_some {l : List Nat} {rank k : Nat} (hbefore : (l.take k).sum < rank)
    (hat : rank ≤ (l.take (k + 1)).sum) (i : Nat) : reach? l rank i = some (i + k) := by
  induction l generalizing rank k i with
  | nil =>
    simp only [List.take_nil, List.sum_nil] at hbefore hat
    omega
  | cons c l ih =>
    rw [List.take_succ_cons, List.sum_cons] at hat
    cases k with
    | zero =>
      rw [List.take_zero, List.sum_nil, Nat.add_zero] at hat
      rw [reach?, if_pos hat]
      rfl
    | succ k =>
      rw [List.take_succ_cons, List.sum_cons] at hbefore
      have hc : ¬rank ≤ c := by omega
      have hrest : reach? l (rank - c) (i + 1) = some (i + 1 + k) :=
        ih (by omega) (by omega) (i + 1)
      rw [reach?, if_neg hc, hrest, Nat.add_right_comm, Nat.add_assoc]

/-- The scan runs dry if the rank is never reached. -/
theorem reach?_eq_none {l : List Nat} {rank : Nat} (h : l.sum < rank) (i : Nat) :
    reach? l rank i = none := by
  induction l generalizing rank i with
  | nil => rfl
  | cons c l ih =>
    rw [List.sum_cons] at h
    have hc : ¬rank ≤ c := by omega
    rw [reach?, if_neg hc]
    exact ih (by omega) (i + 1)

/-- **A scan shows the value of its rank.**  It stops at the bin of the value that has the rank
in the sorted list. -/
theorem Holds.atRank {h : Histogram} {values : List Nat} (hh : h.Holds values) {r : Nat}
    (hr : 1 ≤ r) (hr' : r ≤ values.length) : h.atRank r = highest (bin (nth values r)) := by
  have hreached (k : Nat) : bin (nth values r) < k ↔ r ≤ (h.counts.toList.take k).sum := by
    rw [hh.sum_take, ← holds_nth_iff _ hr hr', decide_eq_true_eq]
    intro a b hab hb
    rw [decide_eq_true_eq] at hb ⊢
    exact Nat.lt_of_le_of_lt (bin_le_bin hab) hb
  have hbefore : (h.counts.toList.take (bin (nth values r))).sum < r := by
    rw [← Nat.not_le, ← hreached]
    exact Nat.lt_irrefl _
  have hat := (hreached (bin (nth values r) + 1)).mp (Nat.lt_succ_self _)
  rw [Histogram.atRank, reach?_eq_some hbefore hat, Nat.zero_add]

/-! ## The ranks of fractions -/

theorem one_le_rank (q : Fraction) (n : Nat) : 1 ≤ rank q n := Nat.le_max_left _ _

/-- A quotient that is rounded up is at most a number if the dividend is at most so often the
divisor. -/
theorem ceilDiv_le_iff {product unit n : Nat} (h : 0 < unit) :
    (product + unit - 1) / unit ≤ n ↔ product ≤ n * unit := by
  rw [Nat.div_le_iff_le_mul_add_pred h, Nat.mul_comm]
  omega

/-- Greater fractions have greater ranks. -/
theorem rank_le_rank {q q' : Fraction}
    (h : q.numerator * 2 ^ q'.shift ≤ q'.numerator * 2 ^ q.shift) (n : Nat) :
    rank q n ≤ rank q' n := by
  unfold rank
  simp only
  generalize Decimal.roundSignificand n = m
  refine Nat.max_le.mpr ⟨Nat.le_max_left _ _, Nat.le_trans ?_ (Nat.le_max_right _ _)⟩
  refine (ceilDiv_le_iff (Nat.two_pow_pos _)).mpr ?_
  -- both products as multiples of the same power of two
  have hround : Decimal.roundSignificand (m * q.numerator) * 2 ^ q'.shift ≤
      Decimal.roundSignificand (m * q'.numerator) * 2 ^ q.shift := by
    rw [← Decimal.roundSignificand_mul_two_pow, ← Decimal.roundSignificand_mul_two_pow]
    refine Decimal.roundSignificand_le_roundSignificand ?_
    rw [Nat.mul_assoc, Nat.mul_assoc]
    exact Nat.mul_le_mul_left m h
  have hup : Decimal.roundSignificand (m * q'.numerator) ≤
      (Decimal.roundSignificand (m * q'.numerator) + 2 ^ q'.shift - 1) / 2 ^ q'.shift *
        2 ^ q'.shift := (ceilDiv_le_iff (Nat.two_pow_pos _)).mp (Nat.le_refl _)
  refine Nat.le_of_mul_le_mul_right ?_ (Nat.two_pow_pos q'.shift)
  calc Decimal.roundSignificand (m * q.numerator) * 2 ^ q'.shift
      ≤ Decimal.roundSignificand (m * q'.numerator) * 2 ^ q.shift := hround
    _ ≤ _ := Nat.mul_le_mul_right _ hup
    _ = _ := Nat.mul_right_comm _ _ _

/-- A fraction less than one by more than what two roundings may add. -/
def Fraction.IsProper (q : Fraction) : Prop :=
  q.numerator * (2 ^ 53 + 1) ^ 2 ≤ 2 ^ q.shift * 2 ^ 106

/-- The rank of a fraction of some values is that of one of them. -/
theorem rank_le {q : Fraction} (hq : Fraction.IsProper q) {n : Nat} (hn : 0 < n) :
    rank q n ≤ n := by
  refine Nat.max_le.mpr ⟨hn, (ceilDiv_le_iff (Nat.two_pow_pos _)).mpr ?_⟩
  have hcount := Decimal.roundSignificand_mul_le n
  have hproduct := Decimal.roundSignificand_mul_le (Decimal.roundSignificand n * q.numerator)
  generalize Decimal.roundSignificand n = m at hcount hproduct ⊢
  generalize Decimal.roundSignificand (m * q.numerator) = p at hproduct ⊢
  refine Nat.le_of_mul_le_mul_right ?_ (Nat.two_pow_pos 106)
  calc p * 2 ^ 106 = p * 2 ^ 53 * 2 ^ 53 := by rw [Nat.mul_assoc, ← Nat.pow_add]
    _ ≤ m * q.numerator * (2 ^ 53 + 1) * 2 ^ 53 := Nat.mul_le_mul_right _ hproduct
    _ = m * 2 ^ 53 * (q.numerator * (2 ^ 53 + 1)) := by
        rw [Nat.mul_assoc m, Nat.mul_right_comm]
    _ ≤ n * (2 ^ 53 + 1) * (q.numerator * (2 ^ 53 + 1)) := Nat.mul_le_mul_right _ hcount
    _ = n * (q.numerator * (2 ^ 53 + 1) ^ 2) := by
        rw [Nat.pow_two, Nat.mul_assoc n, Nat.mul_left_comm (2 ^ 53 + 1)]
    _ ≤ n * (2 ^ q.shift * 2 ^ 106) := Nat.mul_le_mul_left _ hq
    _ = n * 2 ^ q.shift * 2 ^ 106 := (Nat.mul_assoc _ _ _).symm

/-- The product with the double below 0.99 is rounded up to a whole number. -/
example : rank .p99 100 = 99 := by decide

theorem isProper_p50 : Fraction.IsProper .p50 := by
  unfold Fraction.IsProper
  decide

theorem isProper_p95 : Fraction.IsProper .p95 := by
  unfold Fraction.IsProper
  decide

theorem isProper_p99 : Fraction.IsProper .p99 := by
  unfold Fraction.IsProper
  decide

/-! ## Percentiles -/

/-- What the percentile of a fraction is: zero if there are no values, and otherwise what is
shown of the value that has the rank of the fraction. -/
def IsPercentile (q : Fraction) (values : List Nat) (p : Nat) : Prop :=
  (values = [] ∧ p = 0) ∨
    (1 ≤ rank q values.length ∧ rank q values.length ≤ values.length ∧
      p = shown (nth values (rank q values.length)))

variable {h : Histogram} {values : List Nat}

/-- A histogram of 64-bit values tells their percentiles. -/
theorem Holds.isPercentile (hh : h.Holds values) (hv : ∀ v ∈ values, v < 2 ^ 64) {q : Fraction}
    (hq : Fraction.IsProper q) : IsPercentile q values (h.atQuantile q) := by
  unfold atQuantile
  rw [hh.total]
  have hone := one_le_rank q values.length
  rcases List.eq_nil_or_concat values with rfl | ⟨init, last, hvalues⟩
  · left
    have hsum : h.counts.toList.sum = 0 := by
      rw [List.sum_eq_foldl, Array.foldl_toList]
      exact hh.total
    refine ⟨rfl, ?_⟩
    rw [Histogram.atRank, reach?_eq_none (by rw [hsum]; exact hone)]
  · right
    have hpos : 0 < values.length := by
      rw [hvalues, List.length_concat]
      exact Nat.succ_pos _
    have hle := rank_le hq hpos
    refine ⟨hone, hle, ?_⟩
    rw [hh.atRank hone hle, highest_bin (hv _ (nth_mem hone hle))]

/-- The percentile of a greater fraction is greater. -/
theorem IsPercentile.le (hv : ∀ v ∈ values, v < 2 ^ 64) {q q' : Fraction} {p p' : Nat}
    (hqq : q.numerator * 2 ^ q'.shift ≤ q'.numerator * 2 ^ q.shift)
    (hp : IsPercentile q values p) (hp' : IsPercentile q' values p') : p ≤ p' := by
  rcases hp with ⟨-, rfl⟩ | ⟨hone, hle, rfl⟩
  · exact Nat.zero_le _
  · rcases hp' with ⟨rfl, -⟩ | ⟨hone', hle', rfl⟩
    · exact absurd (Nat.le_trans hone hle) (by decide)
    · exact shown_le_shown (nth_le_nth hone (rank_le_rank hqq _) hle') (hv _ (nth_mem hone' hle'))

end ShardLoad.Histogram
