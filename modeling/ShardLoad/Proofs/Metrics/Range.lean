import ShardLoad.Proofs.Metrics.Percentiles

/-!
# Percentiles and the range of latencies

A snapshot has the least and the greatest latency as they were measured, and percentiles as a
histogram shows them.  A histogram shows the highest value of a bin.  So a percentile may lie
above the greatest latency, though only by as much as the greatest latency is itself shown too
high: not at all below 2048, and by a thousandth at most.  Below the least latency it never
lies, unless the least latency is the very greatest value, of which less is shown.

* `NearRange`, `Percentiles.nearRange`: percentiles against the least and the greatest value.
* `Recorder.percentiles_near_range`: percentiles against the range of a snapshot.
* `Recorder.percentiles_past_range`: a percentile above the greatest latency.
-/

namespace ShardLoad

namespace Histogram

variable {values : List Nat} {q : Fraction} {p : Nat}

/-- The percentile of a single value is what is shown of it. -/
theorem IsPercentile.eq_shown {v : Nat} (hp : IsPercentile q [v] p) : p = shown v := by
  rcases hp with ⟨hnil, -⟩ | ⟨hone, hle, rfl⟩
  · exact absurd hnil (List.cons_ne_nil _ _)
  · rw [List.mem_singleton.mp (nth_mem hone hle)]

/-- Three percentiles lie in order between the least and the greatest value, except that the
greatest may be passed by as much as it is shown too high. -/
structure NearRange (least low mid high greatest : Nat) : Prop where
  least_le_low : least ≤ ceiling → least ≤ low
  low_le_mid : low ≤ mid
  mid_le_high : mid ≤ high
  high_le_shown : high ≤ shown greatest
  high_le_greatest : greatest < 2048 → high ≤ greatest
  high_le : high ≤ greatest + greatest / 1024

/-- The percentiles of 64-bit values lie near their range. -/
theorem Percentiles.nearRange {low mid high : Nat} (hp : Percentiles values low mid high)
    (hv : ∀ v ∈ values, v < 2 ^ 64) :
    NearRange (values.min?.getD 0) low mid high (values.max?.getD 0) := by
  have hgreatest : values.max?.getD 0 < 2 ^ 64 := by
    cases hmax : values.max? with
    | none => decide
    | some greatest => exact hv greatest (List.max?_mem hmax)
  have hlower : values.min?.getD 0 ≤ ceiling → values.min?.getD 0 ≤ low := by
    intro hceiling
    rcases hp.p50 with ⟨rfl, -⟩ | ⟨hone, hle, rfl⟩
    · exact Nat.zero_le _
    · have hmem := nth_mem hone hle
      calc values.min?.getD 0 ≤ shown (values.min?.getD 0) := le_shown hceiling
        _ ≤ _ := shown_le_shown (List.min?_getD_le_of_mem hmem) (hv _ hmem)
  have hupper : high ≤ shown (values.max?.getD 0) := by
    rcases hp.p99 with ⟨-, rfl⟩ | ⟨hone, hle, rfl⟩
    · exact Nat.zero_le _
    · exact shown_le_shown (List.le_max?_getD_of_mem (nth_mem hone hle)) hgreatest
  refine ⟨hlower, hp.low_le_mid, hp.mid_le_high, hupper, ?_, ?_⟩
  · intro hsmall
    have hexact : shown (values.max?.getD 0) = values.max?.getD 0 := if_pos hsmall
    rw [hexact] at hupper
    exact hupper
  · exact Nat.le_trans hupper (shown_le hgreatest)

end Histogram

open Histogram

/-- The latencies of samples of which all meet a condition. -/
theorem latencies_of_forall {p : Sample → Bool} {samples : List Sample}
    (h : ∀ x ∈ samples, p x = true) : latencies p samples = samples.map Sample.millis := by
  rw [latencies, List.filter_eq_self.mpr h]

namespace Recorder

/-- A histogram of a recorder lies near the range of all samples, if all of them enter it and
none was held up. -/
theorem nearRange_of_forall {interval : Nat} {samples : List Sample} {p : Sample → Bool}
    {hist : Histogram} (hhist : hist.Holds (held interval (latencies p samples)))
    (hp : ∀ x ∈ samples, p x = true) (hwithin : ∀ x ∈ samples, x.millis ≤ interval) :
    let s := ((new interval).recordAll samples).snapshot
    NearRange s.least (hist.atQuantile .p50) (hist.atQuantile .p95) (hist.atQuantile .p99)
      s.greatest := by
  intro s
  have hvalues : held interval (latencies p samples) = samples.map Sample.millis := by
    rw [latencies_of_forall hp]
    refine held_of_le ?_
    intro v hv
    obtain ⟨x, hx, rfl⟩ := List.mem_map.mp hv
    exact hwithin x hx
  rw [hvalues] at hhist
  have hlt : ∀ v ∈ samples.map Sample.millis, v < 2 ^ 64 := by
    rw [← latencies_of_forall hp]
    exact latencies_lt p samples
  have hleast : s.least = (samples.map Sample.millis).min?.getD 0 :=
    congrArg (·.getD 0) (least_recordAll interval samples)
  have hgreatest : s.greatest = (samples.map Sample.millis).max?.getD 0 :=
    greatest_recordAll interval samples
  rw [hleast, hgreatest]
  exact (hhist.percentiles hlt).nearRange hlt

/-- **Percentiles lie near the range.**  If all samples passed and none took longer than the
interval, the percentiles lie in order between the least and the greatest latency; only the
last may pass the greatest, by as much as the greatest is itself shown too high.  The same
holds for failed samples. -/
theorem percentiles_near_range (interval : Nat) (samples : List Sample)
    (hwithin : ∀ x ∈ samples, x.millis ≤ interval) :
    let s := ((new interval).recordAll samples).snapshot
    ((∀ x ∈ samples, x.outcome.isPass = true) →
      NearRange s.least s.p50 s.p95 s.p99 s.greatest) ∧
    ((∀ x ∈ samples, x.outcome.isPass = false) →
      NearRange s.least s.failedP50 s.failedP95 s.failedP99 s.greatest) := by
  intro s
  constructor
  · intro hpass
    exact nearRange_of_forall (holds_passes interval samples) hpass hwithin
  · intro hfail
    refine nearRange_of_forall (holds_failures interval samples) ?_ hwithin
    intro x hx
    rw [hfail x hx]
    rfl

/-- Three passes within the interval, of which the longest is not shown as it is. -/
theorem percentiles_near_range_three :
    let samples : List Sample := [⟨.transaction, .ofMillis 2048, .pass, none⟩,
      ⟨.rootRead, .ofMillis 7, .pass, none⟩, ⟨.transaction, .ofMillis 900, .pass, none⟩]
    let s := ((new 10000).recordAll samples).snapshot
    (∀ x ∈ samples, x.millis ≤ 10000) ∧ (∀ x ∈ samples, x.outcome.isPass = true) ∧
      s.least = 7 ∧ s.greatest = 2048 ∧ 7 ≤ s.p50 ∧ s.p50 ≤ s.p95 ∧ s.p95 ≤ s.p99 ∧
      s.p99 ≤ 2050 := by
  intro samples s
  have hwithin : ∀ x ∈ samples, x.millis ≤ 10000 := by decide
  have hpass : ∀ x ∈ samples, x.outcome.isPass = true := by decide
  have hnear : NearRange s.least s.p50 s.p95 s.p99 s.greatest :=
    (percentiles_near_range 10000 samples hwithin).1 hpass
  have hgreatest : s.greatest = 2048 := rfl
  have hhigh := hnear.high_le
  rw [hgreatest] at hhigh
  exact ⟨hwithin, hpass, rfl, hgreatest, hnear.least_le_low (by decide), hnear.low_le_mid,
    hnear.mid_le_high, hhigh⟩

/-- A pass of 2048 ms shares its bin with one of 2049 ms, and so all percentiles lie above the
greatest latency; the very greatest latency is shown as less, and so they lie below the
least. -/
theorem percentiles_past_range :
    let samples := fun ms => [(⟨.transaction, .ofMillis ms, .pass, none⟩ : Sample)]
    let of := fun ms => ((new (2 ^ 64 - 1)).recordAll (samples ms)).snapshot
    (∀ x ∈ samples 2048 ++ samples (2 ^ 64 - 1),
      x.outcome.isPass = true ∧ x.millis ≤ 2 ^ 64 - 1) ∧
    ((of 2048).greatest = 2048 ∧ (of 2048).p50 = 2049 ∧ (of 2048).p95 = 2049 ∧
      (of 2048).p99 = 2049) ∧
    (of (2 ^ 64 - 1)).least = 2 ^ 64 - 1 ∧ (of (2 ^ 64 - 1)).p50 = 2 ^ 64 - 2 := by
  intro samples of
  have hone (ms : Nat) (hms : ms < 2 ^ 64) :
      Percentiles [ms] (of ms).p50 (of ms).p95 (of ms).p99 := by
    have hholds := holds_passes (2 ^ 64 - 1) (samples ms)
    have hvalues : latencies (·.outcome.isPass) (samples ms) = [ms] := by
      show [(Duration.ofMillis ms).millis % 2 ^ 64] = [ms]
      rw [Duration.millis_ofMillis, Nat.mod_eq_of_lt hms]
    have hlt : ∀ v ∈ [ms], v < 2 ^ 64 := by
      intro v hv
      rw [List.mem_singleton.mp hv]
      exact hms
    have hwithin : ∀ v ∈ [ms], v ≤ 2 ^ 64 - 1 := fun v hv => Nat.le_of_lt_succ (hlt v hv)
    rw [hvalues, held_of_le hwithin] at hholds
    exact hholds.percentiles hlt
  have hlow := hone 2048 (by decide)
  have hhigh := hone (2 ^ 64 - 1) (by decide)
  have hlowShown : shown 2048 = 2049 := by
    rw [← highest_bin (by decide)]
    decide
  have hhighShown : shown (2 ^ 64 - 1) = 2 ^ 64 - 2 := by
    rw [← highest_bin (by decide)]
    decide
  refine ⟨by decide, ⟨rfl, ?_, ?_, ?_⟩, rfl, ?_⟩
  · rw [hlow.p50.eq_shown, hlowShown]
  · rw [hlow.p95.eq_shown, hlowShown]
  · rw [hlow.p99.eq_shown, hlowShown]
  · rw [hhigh.p50.eq_shown, hhighShown]

end Recorder
end ShardLoad
