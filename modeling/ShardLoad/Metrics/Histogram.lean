import ShardLoad.Decimal.Binary64

/-!
# Latency histograms

A histogram counts values below `2 ^ 64` in bins that keep three significant
decimal digits.  Values below 2048 have a bin each.  A value of bit length
`L > 11` shares its bin with all values that agree with it after their low
`L - 11` bits are dropped, so a bin is at most a thousandth of its values wide.
The bins are numbered in the order of their values.

A percentile is the highest value of the first bin at which the running count
reaches a rank.  The rank of a fraction is the fraction of the count, rounded up
and at least one, with the product taken in doubles.

A caller that waited long for an answer did not make the calls it would have made
meanwhile.  Such a latency is recorded together with the latencies that those
calls would have had: smaller and smaller ones by whole intervals.

* `bin`, `highest`: between values and bins.
* `record`: a latency with its fill-ins.
* `atQuantile`: a percentile.
* `count_add`: counting a value touches no bin but its own.
* `le_highest_bin`: no value exceeds the highest one of its bin.
-/

namespace ShardLoad

/-- How often the values of each bin were counted; bins past the end are empty. -/
structure Histogram where
  counts : Array Nat
  deriving Repr, DecidableEq

/-- A fraction with a power of two below the line. -/
structure Fraction where
  numerator : Nat
  shift : Nat
  deriving Repr, DecidableEq

namespace Fraction

/-- One half. -/
def p50 : Fraction := ⟨1, 1⟩

/-- The double nearest to 0.95. -/
def p95 : Fraction := ⟨4278419646001971, 52⟩

/-- The double nearest to 0.99. -/
def p99 : Fraction := ⟨4458563631096791, 52⟩

end Fraction

namespace Histogram

/-- Nothing was counted. -/
def empty : Histogram := ⟨#[]⟩

/-! ## Bins -/

/-- How many low bits of a value its bin does not tell apart. -/
def dropped (v : Nat) : Nat := Nat.log2 v + 1 - 11

/-- The bin of a value. -/
def bin (v : Nat) : Nat := 1024 * dropped v + v / 2 ^ dropped v

/-- How many low bits the values of a bin differ in. -/
def width (i : Nat) : Nat := if i < 2048 then 0 else i / 1024 - 1

/-- The highest value that a histogram ever shows. -/
def ceiling : Nat := 2 ^ 64 - 2

/-- The highest value of a bin, and of the topmost bin the highest one shown. -/
def highest (i : Nat) : Nat :=
  min ((i - 1024 * width i + 1) * 2 ^ width i - 1) ceiling

/-! ## Counting -/

/-- The counts with one more at an index. -/
def bump (counts : Array Nat) (i : Nat) : Array Nat :=
  if i < counts.size then counts.modify i (· + 1)
  else (counts ++ Array.replicate (i - counts.size) 0).push 1

/-- How often the values of a bin were counted. -/
def count (h : Histogram) (i : Nat) : Nat := (h.counts[i]?).getD 0

/-- How many values were counted. -/
def total (h : Histogram) : Nat := h.counts.foldl (· + ·) 0

/-- One more value. -/
def add (h : Histogram) (v : Nat) : Histogram := ⟨bump h.counts (bin v)⟩

/-- The latencies of the calls that a latency held up: less by one interval, by
two, and so on, down to the last that is at least an interval. -/
def fillIns (interval v : Nat) : List Nat :=
  (List.range (v / interval - 1)).map fun k => v - (k + 1) * interval

/-- A latency and the latencies of the calls it held up. -/
def corrected (interval v : Nat) : List Nat := v :: fillIns interval v

/-- Counts a latency together with those of the calls it held up. -/
def record (interval : Nat) (h : Histogram) (v : Nat) : Histogram :=
  (corrected interval v).foldl add h

/-! ## Percentiles -/

/-- The first index from `i` on at which the running count reaches a rank. -/
def reach? : List Nat → (rank i : Nat) → Option Nat
  | [], _, _ => none
  | c :: cs, rank, i => if rank ≤ c then some i else reach? cs (rank - c) (i + 1)

/-- The highest value of the first bin at which the running count reaches a rank,
or zero if it never does. -/
def atRank (h : Histogram) (rank : Nat) : Nat :=
  match reach? h.counts.toList rank 0 with
  | some i => highest i
  | none => 0

/-- The rank of a fraction among `n` values. -/
def rank (q : Fraction) (n : Nat) : Nat :=
  let product := Decimal.roundSignificand (Decimal.roundSignificand n * q.numerator)
  max 1 ((product + 2 ^ q.shift - 1) / 2 ^ q.shift)

/-- The percentile of a fraction; zero when nothing was counted. -/
def atQuantile (h : Histogram) (q : Fraction) : Nat := h.atRank (rank q h.total)

/-! ## First laws -/

/-- Counting a value touches no bin but its own. -/
theorem count_add (h : Histogram) (v i : Nat) :
    (h.add v).count i = h.count i + if i = bin v then 1 else 0 := by
  simp only [count, add, bump]
  split
  · rename_i hb
    rw [Array.getElem?_modify]
    by_cases hi : i = bin v
    · subst hi
      simp [hb]
    · simp [Ne.symm hi, hi]
  · rename_i hb
    rw [Array.getElem?_push, Array.size_append, Array.size_replicate]
    have hs : h.counts.size + (bin v - h.counts.size) = bin v := by omega
    rw [hs]
    by_cases hi : i = bin v
    · subst hi
      have : h.counts.size ≤ bin v := by omega
      simp [Array.getElem?_eq_none this]
    · rw [if_neg hi, if_neg hi, Array.getElem?_append]
      split
      · simp
      · rename_i hi'
        have : h.counts.size ≤ i := by omega
        rw [Array.getElem?_eq_none this, Array.getElem?_replicate]
        split <;> rfl

/-- A latency stands for as many values as whole intervals fit into it, and for
at least one. -/
theorem length_corrected (interval v : Nat) :
    (corrected interval v).length = max 1 (v / interval) := by
  simp only [corrected, fillIns, List.length_cons, List.length_map, List.length_range]
  omega

/-- A small value has a bin of its own. -/
theorem dropped_eq_zero {v : Nat} (h : v < 2048) : dropped v = 0 := by
  have : Nat.log2 v < 11 := by
    by_cases h0 : v = 0
    · subst h0; decide
    · exact (Nat.log2_lt h0).2 h
  simp only [dropped]
  omega

/-- Eleven bits of a larger value are left. -/
theorem div_dropped_mem {v : Nat} (h : 2048 ≤ v) :
    1024 ≤ v / 2 ^ dropped v ∧ v / 2 ^ dropped v < 2048 := by
  have h0 : v ≠ 0 := by omega
  have hl : 11 ≤ Nat.log2 v := (Nat.le_log2 h0).2 h
  have hd : dropped v + 10 = Nat.log2 v := by simp only [dropped]; omega
  have hpos : 0 < 2 ^ dropped v := Nat.two_pow_pos _
  refine ⟨(Nat.le_div_iff_mul_le hpos).2 ?_, (Nat.div_lt_iff_lt_mul hpos).2 ?_⟩
  · calc 1024 * 2 ^ dropped v = 2 ^ (dropped v + 10) := by rw [Nat.pow_add]; omega
      _ = 2 ^ Nat.log2 v := by rw [hd]
      _ ≤ v := Nat.log2_self_le h0
  · calc v < 2 ^ (Nat.log2 v + 1) := Nat.lt_log2_self
      _ = 2 ^ (dropped v + 11) := by rw [← hd]
      _ = 2048 * 2 ^ dropped v := by rw [Nat.pow_add]; omega

/-- The bin of a value knows how many bits the value lost. -/
theorem width_bin (v : Nat) : width (bin v) = dropped v := by
  by_cases h : v < 2048
  · simp [bin, dropped_eq_zero h, width, h]
  · have hd := div_dropped_mem (Nat.le_of_not_lt h)
    have hpos : 0 < dropped v := by
      have : 11 ≤ Nat.log2 v := (Nat.le_log2 (by omega)).2 (Nat.le_of_not_lt h)
      simp only [dropped]; omega
    have hb : bin v = 1024 * dropped v + v / 2 ^ dropped v := rfl
    have hn : ¬ bin v < 2048 := by omega
    rw [width, if_neg hn]
    omega

/-- No value below the topmost bin exceeds the highest one of its bin. -/
theorem le_highest_bin {v : Nat} (h : v ≤ ceiling) : v ≤ highest (bin v) := by
  have hw := width_bin v
  have hpos : 0 < 2 ^ dropped v := Nat.two_pow_pos _
  have hm : v < (v / 2 ^ dropped v + 1) * 2 ^ dropped v :=
    (Nat.div_lt_iff_lt_mul hpos).1 (Nat.lt_succ_self _)
  have hb : bin v - 1024 * dropped v = v / 2 ^ dropped v :=
    Nat.add_sub_cancel_left _ _
  simp only [highest, hw, hb]
  omega

end Histogram
end ShardLoad
