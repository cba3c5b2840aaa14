import ShardLoad.Metrics.Recorder

/-!
# What one more sample changes

A sample is booked in several places of a recorder: among the passed or the failed
ones, under its operation, under its shard.  Each place is read off here on its own,
so that nothing else has to look into the recorder.

* `total_record`, `operations_record`, `shards_record`: the places.
* `Recorder.Ordered`, `ordered_record`: the keyed lists stay in order.
* `Recorder.tallyOf`, `tallyOf_record`: what is counted for one shard.
* `Recorder.shardTotal`, `shardTotal_record`: how many samples that are.
* `filter_rows`, `rows_eq`: the rows of a snapshot with one name.
-/

namespace ShardLoad

namespace Keyed

variable {α : Type}

/-- An entry of an updated list is the updated one or an old one. -/
theorem eq_or_mem_of_mem_update {key : String} {change : Option α → α} {l : Keyed α}
    {kv : String × α} (h : kv ∈ update key change l) :
    (∃ old, kv = (key, change old)) ∨ kv ∈ l := by
  induction l with
  | nil => exact Or.inl ⟨none, List.mem_singleton.mp h⟩
  | cons p rest ih =>
    obtain ⟨k, v⟩ := p
    simp only [update] at h
    split at h
    · rcases List.mem_cons.mp h with rfl | hm
      · exact Or.inl ⟨none, rfl⟩
      · exact Or.inr hm
    · split at h
      · rcases List.mem_cons.mp h with rfl | hm
        · exact Or.inl ⟨some v, rfl⟩
        · exact Or.inr (List.mem_cons_of_mem _ hm)
      · rcases List.mem_cons.mp h with rfl | hm
        · exact Or.inr List.mem_cons_self
        · exact (ih hm).imp id (List.mem_cons_of_mem _)

/-- The entries of an ordered list with one key are the one that is found. -/
theorem filter_key_eq {key : String} {l : Keyed α} (h : Ordered l) :
    l.filter (fun kv => kv.1 = key) = (find? key l).toList.map fun v => (key, v) := by
  induction l with
  | nil => rfl
  | cons kv rest ih =>
    obtain ⟨k, v⟩ := kv
    obtain ⟨hlt, hr⟩ := List.pairwise_cons.mp h
    by_cases hk : k = key
    · subst hk
      have hn : find? k rest = none := find?_eq_none_of_lt fun kv hkv => hlt kv hkv
      rw [List.filter_cons_of_pos (by simp), ih hr, hn]
      simp [find?]
    · rw [List.filter_cons_of_neg (by simpa using hk), ih hr]
      simp [find?, hk]

/-- What is found is an entry. -/
theorem mem_of_find? {key : String} {l : Keyed α} {v : α} (h : find? key l = some v) :
    (key, v) ∈ l := by
  induction l with
  | nil => exact absurd h (by simp [find?])
  | cons kv rest ih =>
    obtain ⟨k, w⟩ := kv
    by_cases hk : k = key
    · subst hk
      rw [find?, if_pos rfl] at h
      rw [Option.some.inj h]
      exact List.mem_cons_self
    · rw [find?, if_neg hk] at h
      exact List.mem_cons_of_mem _ (ih h)

end Keyed

/-- How many samples were booked for a shard. -/
def ShardTally.total (t : ShardTally) : Nat := t.passed + t.failed

/-- A sample of a shard is booked for it once. -/
@[simp] theorem ShardTally.total_record (interval : Nat) (t : ShardTally) (x : Sample) :
    (t.record interval x).total = t.total + 1 := by
  unfold record total
  cases x.outcome with
  | pass =>
    show t.passed + 1 + t.failed = _
    omega
  | fail kind =>
    show t.passed + (t.failed + 1) = _
    omega

namespace Recorder

@[simp] theorem interval_recordAll (r : Recorder) (samples : List Sample) :
    (r.recordAll samples).interval = r.interval := by
  induction samples generalizing r with
  | nil => rfl
  | cons x samples ih => rw [recordAll_cons, ih, interval_record]

/-- How many samples were booked. -/
def total (r : Recorder) : Nat := r.passed + r.failed

@[simp] theorem total_new (interval : Nat) : (new interval).total = 0 := rfl

/-- A sample is booked once. -/
@[simp] theorem total_record (r : Recorder) (x : Sample) :
    (r.record x).total = r.total + 1 := by
  simp only [record, recordShard, recordOutcome, recordSeen, total]
  cases x.outcome <;> cases x.shard <;> (simp only; omega)

/-- The samples of a list are booked one by one. -/
theorem total_recordAll (r : Recorder) (xs : List Sample) :
    (r.recordAll xs).total = r.total + xs.length := by
  induction xs generalizing r with
  | nil => rfl
  | cons x xs ih =>
    rw [recordAll_cons, ih, total_record, List.length_cons]
    omega

/-- The latency of a sample that passed enters the histogram of those. -/
theorem passHistogram_record (r : Recorder) (x : Sample) :
    (r.record x).passes =
      if x.outcome.isPass then r.passes.record r.interval x.millis else r.passes := by
  simp only [record, recordShard, recordOutcome, recordSeen]
  cases x.outcome <;> cases x.shard <;> rfl

/-- The latency of a sample that failed enters the histogram of those. -/
theorem failHistogram_record (r : Recorder) (x : Sample) :
    (r.record x).failures =
      if !x.outcome.isPass then r.failures.record r.interval x.millis else r.failures := by
  simp only [record, recordShard, recordOutcome, recordSeen]
  cases x.outcome <;> cases x.shard <;> rfl

/-- A sample is booked by its verdict. -/
theorem verdicts_record (r : Recorder) (x : Sample) :
    (r.record x).passed = (r.passed + if x.outcome.isPass then 1 else 0) ∧
      (r.record x).failed = (r.failed + if !x.outcome.isPass then 1 else 0) := by
  simp only [record, recordShard, recordOutcome, recordSeen]
  cases x.outcome <;> cases x.shard <;> exact ⟨rfl, rfl⟩

/-- The range of latencies is widened to that of a sample. -/
theorem range_record (r : Recorder) (x : Sample) :
    (r.record x).least = some (r.least.elim x.millis (min · x.millis)) ∧
      (r.record x).greatest = max r.greatest x.millis := by
  simp only [record, recordShard, recordOutcome, recordSeen]
  cases x.outcome <;> cases x.shard <;> cases r.least <;> exact ⟨rfl, rfl⟩

/-- A sample is booked under its operation. -/
@[simp] theorem operations_record (r : Recorder) (x : Sample) :
    (r.record x).operations = r.operations.bump x.operation.name := by
  simp only [record, recordShard, recordOutcome, recordSeen]
  cases x.outcome <;> cases x.shard <;> rfl

/-- A sample is booked under its shard, if it has one. -/
theorem shards_record (r : Recorder) (x : Sample) :
    (r.record x).shards = match x.shard with
      | some name =>
        Keyed.update name (fun t => (t.getD .empty).record r.interval x) r.shards
      | none => r.shards := by
  simp only [record, recordShard, recordOutcome, recordSeen]
  cases x.outcome <;> cases x.shard <;> rfl

/-- A sample is booked among the failed ones of its operation, of its category and of its
status code only if it failed. -/
theorem failures_record (r : Recorder) (x : Sample) :
    ((r.record x).operationErrors, (r.record x).categories, (r.record x).rejections) =
      match x.outcome with
      | .pass => (r.operationErrors, r.categories, r.rejections)
      | .fail kind => (r.operationErrors.bump x.operation.name,
          r.categories.bump kind.category.name, match kind with
            | .verification code => r.rejections.bump code.name
            | _ => r.rejections) := by
  simp only [record, recordShard, recordOutcome, recordSeen]
  cases x.outcome <;> cases x.shard <;> rfl

/-- All keyed lists of a recorder are in order. -/
structure Ordered (r : Recorder) : Prop where
  operations : Keyed.Ordered r.operations
  operationErrors : Keyed.Ordered r.operationErrors
  categories : Keyed.Ordered r.categories
  rejections : Keyed.Ordered r.rejections
  shards : Keyed.Ordered r.shards

theorem ordered_new (interval : Nat) : (new interval).Ordered :=
  ⟨.nil, .nil, .nil, .nil, .nil⟩

/-- Booking a sample keeps the order. -/
theorem ordered_record {r : Recorder} (h : r.Ordered) (x : Sample) : (r.record x).Ordered := by
  have hf := failures_record r x
  have hs := shards_record r x
  cases ho : x.outcome with
  | pass =>
    rw [ho] at hf
    obtain ⟨he, hc, hr⟩ := by simpa only [Prod.mk.injEq] using hf
    refine ⟨?_, by rw [he]; exact h.operationErrors, by rw [hc]; exact h.categories,
      by rw [hr]; exact h.rejections, ?_⟩
    · rw [operations_record]
      exact Keyed.ordered_update _ _ h.operations
    · rw [hs]
      cases x.shard with
      | none => exact h.shards
      | some name => exact Keyed.ordered_update _ _ h.shards
  | fail kind =>
    rw [ho] at hf
    obtain ⟨he, hc, hr⟩ := by simpa only [Prod.mk.injEq] using hf
    refine ⟨?_, by rw [he]; exact Keyed.ordered_update _ _ h.operationErrors,
      by rw [hc]; exact Keyed.ordered_update _ _ h.categories, ?_, ?_⟩
    · rw [operations_record]
      exact Keyed.ordered_update _ _ h.operations
    · rw [hr]
      cases kind with
      | verification code => exact Keyed.ordered_update _ _ h.rejections
      | _ => exact h.rejections
    · rw [hs]
      cases x.shard with
      | none => exact h.shards
      | some name => exact Keyed.ordered_update _ _ h.shards

theorem ordered_recordAll {r : Recorder} (h : r.Ordered) (samples : List Sample) :
    (r.recordAll samples).Ordered := by
  induction samples generalizing r with
  | nil => exact h
  | cons x samples ih => exact ih (ordered_record h x)

/-- What is counted under a label; nothing if no sample carried it. -/
def tallyOf (r : Recorder) (label : String) : ShardTally :=
  (Keyed.find? label r.shards).getD .empty

/-- A sample is booked in the tally of its label only. -/
theorem tallyOf_record {r : Recorder} (h : r.Ordered) (x : Sample) (label : String) :
    (r.record x).tallyOf label =
      if x.shard = some label then (r.tallyOf label).record r.interval x
      else r.tallyOf label := by
  unfold tallyOf
  rw [shards_record]
  cases hx : x.shard with
  | none => rfl
  | some name =>
    by_cases hn : name = label
    · subst hn
      rw [if_pos rfl, Keyed.find?_update_self _ _ h.shards]
      rfl
    · have hne : ¬some name = some label := fun he => hn (Option.some.inj he)
      rw [if_neg hne, Keyed.find?_update_of_ne (Ne.symm hn)]

/-- How many samples were booked under a label. -/
def shardTotal (label : String) (r : Recorder) : Nat :=
  ((Keyed.find? label r.shards).map ShardTally.total).getD 0

theorem shardTotal_eq (label : String) (r : Recorder) :
    r.shardTotal label = (r.tallyOf label).total := by
  unfold shardTotal tallyOf
  cases Keyed.find? label r.shards with
  | none => rfl
  | some t => rfl

/-- A sample is booked under the label that it carries and under no other. -/
theorem shardTotal_record {r : Recorder} (h : r.Ordered) (label : String) (x : Sample) :
    (r.record x).shardTotal label =
      r.shardTotal label + if x.shard = some label then 1 else 0 := by
  rw [shardTotal_eq, shardTotal_eq, tallyOf_record h]
  split
  · exact ShardTally.total_record ..
  · rfl

/-- A shard has a tally only if a sample was booked for it, and under a label that a
sample carried. -/
def Fed (P : String → Prop) (r : Recorder) : Prop :=
  ∀ kv ∈ r.shards, P kv.1 ∧ 0 < kv.2.total

theorem fed_new (P : String → Prop) (interval : Nat) : (new interval).Fed P :=
  fun _ h => absurd h List.not_mem_nil

theorem fed_record {P : String → Prop} {r : Recorder} (h : r.Fed P) {x : Sample}
    (hx : ∀ label, x.shard = some label → P label) : (r.record x).Fed P := by
  intro kv hkv
  rw [shards_record] at hkv
  cases hs : x.shard with
  | none =>
    rw [hs] at hkv
    exact h kv hkv
  | some name =>
    rw [hs] at hkv
    rcases Keyed.eq_or_mem_of_mem_update hkv with ⟨old, rfl⟩ | hm
    · exact ⟨hx name hs, by rw [ShardTally.total_record]; exact Nat.succ_pos _⟩
    · exact h kv hm

theorem fed_recordAll {P : String → Prop} {r : Recorder} (h : r.Fed P) {samples : List Sample}
    (hx : ∀ x ∈ samples, ∀ label, x.shard = some label → P label) : (r.recordAll samples).Fed P := by
  induction samples generalizing r with
  | nil => exact h
  | cons x samples ih =>
    exact ih (fed_record h (hx x List.mem_cons_self)) fun y hy => hx y (List.mem_cons_of_mem _ hy)

/-- Every row of a snapshot is that of the tally of its name. -/
theorem eq_of_mem_rows {r : Recorder} (h : r.Ordered) {row : ShardRow}
    (hrow : row ∈ r.snapshot.shards) : row = (r.tallyOf row.name).row row.name := by
  obtain ⟨⟨label, t⟩, hmem, rfl⟩ := List.mem_map.mp hrow
  have hfind : Keyed.find? label r.shards = some t := by
    have hin : (label, t) ∈ r.shards.filter fun kv => kv.1 = label := by simp [hmem]
    rw [Keyed.filter_key_eq h.shards] at hin
    simpa using hin
  show t.row label = (r.tallyOf label).row label
  rw [tallyOf, hfind]
  rfl

theorem shards_snapshot (r : Recorder) :
    r.snapshot.shards = r.shards.map fun kv => kv.2.row kv.1 := rfl

/-- The rows of a snapshot with one name are that of the tally that is found under it. -/
theorem filter_rows {r : Recorder} (h : r.Ordered) (label : String) :
    r.snapshot.shards.filter (fun row => row.name = label) =
      (Keyed.find? label r.shards).toList.map (ShardTally.row label) := by
  have hname : ((fun row : ShardRow => decide (row.name = label)) ∘
      fun kv : String × ShardTally => kv.2.row kv.1) = fun kv => decide (kv.1 = label) := rfl
  rw [shards_snapshot, List.filter_map, hname, Keyed.filter_key_eq h.shards, List.map_map]
  rfl

/-- The rows of a snapshot with one name: one with the number of samples that were booked
under it, or none if there were none. -/
theorem rows_eq {P : String → Prop} {r : Recorder} (ho : r.Ordered) (hf : r.Fed P)
    (label : String) :
    (r.snapshot.shards.filter fun row => row.name = label).map ShardRow.total =
      if r.shardTotal label = 0 then [] else [r.shardTotal label] := by
  rw [filter_rows ho]
  unfold shardTotal
  cases hfind : Keyed.find? label r.shards with
  | none => rfl
  | some t =>
    have hpos : t.total ≠ 0 := Nat.pos_iff_ne_zero.mp (hf _ (Keyed.mem_of_find? hfind)).2
    simp only [Option.map_some, Option.getD_some, if_neg hpos]
    rfl

end Recorder
end ShardLoad
