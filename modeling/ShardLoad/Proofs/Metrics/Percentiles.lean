import ShardLoad.Proofs.Metrics.Ranks
import ShardLoad.Proofs.Metrics.Bookkeeping
import ShardLoad.Proofs.Metrics.Outcomes

/-!
# What the percentiles of a snapshot are

A recorder keeps one histogram for the passed iterations, one for the failed ones, and one
for the passed ones of each shard.  Each latency enters its histograms with the latencies of
the calls that it held up.  So what a histogram holds at the end is a list that is known from
the samples alone, and all percentiles are read off this list in order.

* `heldUp`, `corrected_eq_heldUp`: a latency with those that it held up.
* `held`: what a histogram holds after some latencies.
* `Recorder.holds_passes`, `holds_failures`, `holds_shard`: the histograms of a recorder.
* `Recorder.percentiles_refine`: what the percentiles are.
-/

namespace ShardLoad

namespace Histogram

/-! ## Latencies that were held up -/

/-- A latency, the latency less by an interval, less by two, and so on for as long as what is
left is an interval at least. -/
def heldUp (interval v : Nat) : List Nat :=
  v :: if 0 < interval ∧ interval ≤ v - interval then heldUp interval (v - interval) else []
termination_by v

/-- A latency is recorded with exactly those that it held up. -/
theorem corrected_eq_heldUp (interval v : Nat) : corrected interval v = heldUp interval v := by
  induction v using heldUp.induct interval with
  | case1 v ih =>
    rw [heldUp, corrected]
    congr 1
    by_cases h : 0 < interval ∧ interval ≤ v - interval
    · obtain ⟨hpos, hle⟩ := h
      -- one interval less fits into what is left
      have hquot : v / interval = (v - interval) / interval + 1 := by
        rw [← Nat.add_div_right _ hpos, Nat.sub_add_cancel (by omega)]
      have hleft : 0 < (v - interval) / interval := Nat.div_pos hle hpos
      have hcount : v / interval - 1 = (v - interval) / interval - 1 + 1 := by omega
      rw [if_pos ⟨hpos, hle⟩, ← ih ⟨hpos, hle⟩, fillIns, hcount, List.range_succ_eq_map,
        List.map_cons, List.map_map, corrected, fillIns, Nat.zero_add, Nat.one_mul]
      congr 1
      refine List.map_congr_left fun k _ => ?_
      rw [Function.comp_apply, Nat.succ_mul (k + 1), Nat.add_comm, Nat.sub_sub]
    · have hquot : v / interval ≤ 1 := by
        rcases Nat.eq_zero_or_pos interval with rfl | hpos
        · rw [Nat.div_zero]
          exact Nat.zero_le 1
        · refine Nat.le_of_lt_succ ((Nat.div_lt_iff_lt_mul hpos).mpr ?_)
          have hshort : ¬interval ≤ v - interval := fun hle => h ⟨hpos, hle⟩
          omega
      rw [if_neg h, fillIns, Nat.sub_eq_zero_of_le hquot]
      rfl

example : corrected 100 350 = [350, 250, 150] := by decide

/-- No latency that was held up is longer. -/
theorem le_of_mem_heldUp {interval v w : Nat} (h : w ∈ heldUp interval v) : w ≤ v := by
  rw [← corrected_eq_heldUp, corrected] at h
  rcases List.mem_cons.mp h with rfl | hm
  · exact Nat.le_refl _
  · obtain ⟨k, -, rfl⟩ := List.mem_map.mp hm
    exact Nat.sub_le _ _

theorem length_heldUp (interval v : Nat) : (heldUp interval v).length = max 1 (v / interval) := by
  rw [← corrected_eq_heldUp]
  exact length_corrected interval v

/-- A latency within the interval holds nothing up. -/
theorem heldUp_of_le {interval v : Nat} (h : v ≤ interval) : heldUp interval v = [v] := by
  have hnone : ¬(0 < interval ∧ interval ≤ v - interval) := by omega
  rw [heldUp, if_neg hnone]

/-- All values that are recorded for some latencies. -/
def held (interval : Nat) (latencies : List Nat) : List Nat := latencies.flatMap (heldUp interval)

theorem lt_of_mem_held {interval bound : Nat} {latencies : List Nat}
    (h : ∀ v ∈ latencies, v < bound) : ∀ w ∈ held interval latencies, w < bound := by
  intro w hw
  obtain ⟨v, hv, hwv⟩ := List.mem_flatMap.mp hw
  exact Nat.lt_of_le_of_lt (le_of_mem_heldUp hwv) (h v hv)

/-- Latencies within the interval hold nothing up. -/
theorem held_of_le {interval : Nat} {latencies : List Nat} (h : ∀ v ∈ latencies, v ≤ interval) :
    held interval latencies = latencies := by
  induction latencies with
  | nil => rfl
  | cons v latencies ih =>
    rw [held, List.flatMap_cons, heldUp_of_le (h v List.mem_cons_self)]
    exact congrArg (v :: ·) (ih fun w hw => h w (List.mem_cons_of_mem _ hw))

theorem Holds.record {h : Histogram} {values : List Nat} (hh : h.Holds values)
    (interval v : Nat) : (h.record interval v).Holds (values ++ heldUp interval v) := by
  rw [← corrected_eq_heldUp]
  exact hh.foldl_add _

/-- What a histogram tells of values: how many they are, and for each rank what is shown of
the value that has it in the sorted list. -/
structure Tells (h : Histogram) (values : List Nat) : Prop where
  total : h.total = values.length
  atRank : ∀ r, 1 ≤ r → r ≤ values.length → h.atRank r = shown (nth values r)

theorem Holds.tells {h : Histogram} {values : List Nat} (hh : h.Holds values)
    (hv : ∀ v ∈ values, v < 2 ^ 64) : h.Tells values := by
  refine ⟨hh.total, fun r hr hr' => ?_⟩
  rw [hh.atRank hr hr', highest_bin (hv _ (nth_mem hr hr'))]

/-- Three numbers are the percentiles of values, in this order. -/
structure Percentiles (values : List Nat) (low mid high : Nat) : Prop where
  p50 : IsPercentile .p50 values low
  p95 : IsPercentile .p95 values mid
  p99 : IsPercentile .p99 values high
  low_le_mid : low ≤ mid
  mid_le_high : mid ≤ high

/-- A histogram of 64-bit values tells its percentiles in order. -/
theorem Holds.percentiles {h : Histogram} {values : List Nat} (hh : h.Holds values)
    (hv : ∀ v ∈ values, v < 2 ^ 64) :
    Percentiles values (h.atQuantile .p50) (h.atQuantile .p95) (h.atQuantile .p99) := by
  have h50 := hh.isPercentile hv isProper_p50
  have h95 := hh.isPercentile hv isProper_p95
  have h99 := hh.isPercentile hv isProper_p99
  exact ⟨h50, h95, h99, h50.le hv (by decide) h95, h95.le hv (by decide) h99⟩

end Histogram

open Histogram

/-! ## The histograms of a recorder -/

/-- The latencies of the samples that meet a condition. -/
def latencies (p : Sample → Bool) (samples : List Sample) : List Nat :=
  (samples.filter p).map Sample.millis

/-- Whether a sample passed on a shard. -/
def Sample.passedOn (label : String) (x : Sample) : Bool :=
  x.outcome.isPass && decide (x.shard = some label)

theorem latencies_lt (p : Sample → Bool) (samples : List Sample) :
    ∀ v ∈ latencies p samples, v < 2 ^ 64 := by
  intro v hv
  obtain ⟨x, -, rfl⟩ := List.mem_map.mp hv
  exact Nat.mod_lt _ (Nat.two_pow_pos 64)

namespace Recorder

/-- A histogram of a recorder that takes in the samples that meet a condition holds their
latencies with those that they held up. -/
theorem holds_recordAll (hist : Recorder → Histogram) (p : Sample → Bool)
    (hnew : ∀ interval, hist (new interval) = .empty)
    (hrecord : ∀ r : Recorder, r.Ordered → ∀ x, hist (r.record x) =
      if p x then (hist r).record r.interval x.millis else hist r)
    (interval : Nat) (samples : List Sample) :
    (hist ((new interval).recordAll samples)).Holds (held interval (latencies p samples)) := by
  induction samples using List.reverseRecOn with
  | nil =>
    rw [recordAll_nil, hnew]
    exact holds_empty
  | append_singleton samples x ih =>
    have hinterval : ((new interval).recordAll samples).interval = interval :=
      interval_recordAll _ _
    rw [recordAll_concat, hrecord _ (ordered_recordAll (ordered_new interval) samples), hinterval]
    by_cases hx : p x = true
    · have hmore : held interval (latencies p (samples ++ [x])) =
          held interval (latencies p samples) ++ heldUp interval x.millis := by
        simp [held, latencies, hx]
      rw [if_pos hx, hmore]
      exact ih.record interval x.millis
    · have hsame : latencies p (samples ++ [x]) = latencies p samples := by
        simp [latencies, hx]
      rw [if_neg hx, hsame]
      exact ih

theorem holds_passes (interval : Nat) (samples : List Sample) :
    ((new interval).recordAll samples).passes.Holds
      (held interval (latencies (·.outcome.isPass) samples)) := by
  exact holds_recordAll passes _ (fun _ => rfl) (fun r _ x => passHistogram_record r x) interval
    samples

theorem holds_failures (interval : Nat) (samples : List Sample) :
    ((new interval).recordAll samples).failures.Holds
      (held interval (latencies (!·.outcome.isPass) samples)) := by
  exact holds_recordAll failures _ (fun _ => rfl) (fun r _ x => failHistogram_record r x) interval
    samples

theorem holds_shard (interval : Nat) (samples : List Sample) (label : String) :
    (((new interval).recordAll samples).tallyOf label).latencies.Holds
      (held interval (latencies (Sample.passedOn label) samples)) := by
  refine holds_recordAll (fun r => (r.tallyOf label).latencies) _ (fun _ => rfl)
    (fun r hr x => ?_) interval samples
  rw [tallyOf_record hr, Sample.passedOn]
  by_cases hx : x.shard = some label
  · rw [if_pos hx, ShardTally.record]
    cases x.outcome with
    | pass => simp [Outcome.isPass, hx]
    | fail kind => simp [Outcome.isPass]
  · simp [hx]

/-- **Percentiles are read off the sorted latencies.**  The histogram of the passed samples,
that of the failed ones, and that of the passed ones of each shard hold each latency and, with
it, those that it held up, none of them lost: as many as whole intervals fit into the latency,
and at least one.  The scan for any rank shows the highest value of the bin of the value that
has this rank in the sorted list, and the percentiles of the snapshot and of its rows are such
scans, in ascending order, or zero if there are no values.  What is shown lies above the value
by a thousandth at most, except in the topmost bin. -/
theorem percentiles_refine (interval : Nat) (samples : List Sample) :
    let r := (new interval).recordAll samples
    let s := r.snapshot
    let values := fun p => held interval (latencies p samples)
    (r.passes.Tells (values (·.outcome.isPass)) ∧
      Percentiles (values (·.outcome.isPass)) s.p50 s.p95 s.p99) ∧
    (r.failures.Tells (values (!·.outcome.isPass)) ∧
      Percentiles (values (!·.outcome.isPass)) s.failedP50 s.failedP95 s.failedP99) ∧
    (∀ label, (r.tallyOf label).latencies.Tells (values (Sample.passedOn label))) ∧
    (∀ row ∈ s.shards, IsPercentile .p50 (values (Sample.passedOn row.name)) row.p50 ∧
      IsPercentile .p99 (values (Sample.passedOn row.name)) row.p99 ∧ row.p50 ≤ row.p99) ∧
    (∀ v, (heldUp interval v).length = max 1 (v / interval)) ∧
    (∀ v < topmost, IsGreatest {w | bin w = bin v} (shown v) ∧
      v ≤ shown v ∧ shown v ≤ v + v / 1024) ∧
    ∀ v, topmost ≤ v → v < 2 ^ 64 → bin v = bin (2 ^ 64 - 1) := by
  intro r s values
  have hlt (p : Sample → Bool) : ∀ v ∈ values p, v < 2 ^ 64 :=
    lt_of_mem_held (latencies_lt p samples)
  have hpasses : r.passes.Holds _ := holds_passes interval samples
  have hfailures : r.failures.Holds _ := holds_failures interval samples
  have hshard (label : String) : (r.tallyOf label).latencies.Holds _ :=
    holds_shard interval samples label
  refine ⟨⟨hpasses.tells (hlt _), hpasses.percentiles (hlt _)⟩,
    ⟨hfailures.tells (hlt _), hfailures.percentiles (hlt _)⟩, ?_, ?_, ?_, ?_, ?_⟩
  · intro label
    exact (hshard label).tells (hlt _)
  · intro row hrow
    have heq := eq_of_mem_rows (ordered_recordAll (ordered_new interval) samples) hrow
    have hp := (hshard row.name).percentiles (hlt _)
    rw [heq]
    exact ⟨hp.p50, hp.p99, Nat.le_trans hp.low_le_mid hp.mid_le_high⟩
  · intro v
    exact length_heldUp interval v
  · intro v hv
    have hceiling : v ≤ ceiling := Nat.le_trans (Nat.le_of_lt hv) (by decide)
    exact ⟨isGreatest_shown hv, le_shown hceiling, shown_le (Nat.lt_trans hv (by decide))⟩
  · intro v hv hv'
    exact bin_eq_of_topmost_le hv hv'

end Recorder
end ShardLoad
