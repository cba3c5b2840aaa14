import ShardLoad.Proofs.Metrics.Tally

/-!
# What a snapshot counts

Every iteration is judged by the result of its call and booked once.  So each count of a
snapshot is the number of iterations of some kind, and the kind can be said of the results
themselves, without the verdicts and without the recorder.

The calls that a long call held up are booked nowhere but in the histograms: no count depends
on the interval between calls.

* `Iteration`: an iteration before it is judged.
* `tally_recordAll`: keyed counts are the tally of what samples meet.
* `least_recordAll`, `greatest_recordAll`: the range of latencies.
* `Recorder.counts_of_results`: what a snapshot counts.
-/

namespace ShardLoad

/-! ## Results -/

/-- Whether a call was answered with the status OK. -/
def CallResult.hasStatusOk : CallResult → Bool
  | .ok ⟨.ok, _⟩ => true
  | _ => false

/-- The code that a call was rejected with. -/
def CallResult.rejection? : CallResult → Option Status
  | .ok ⟨.rejected code, _⟩ => some code
  | _ => none

/-- The group that a result is counted in unless its status is OK: that of its error, or the
one of all rejections. -/
def CallResult.category? : CallResult → Option Category
  | .ok ⟨.ok, _⟩ => none
  | .ok ⟨.rejected _, _⟩ => some .verification
  | .error e => some e.category

/-- What failed, if anything did. -/
def Outcome.kind? : Outcome → Option FailureKind
  | .pass => none
  | .fail kind => some kind

/-- The code of a rejection. -/
def FailureKind.code? : FailureKind → Option Status
  | .verification code => some code
  | _ => none

@[simp] theorem isPass_judge (r : CallResult) : (judge r).isPass = r.hasStatusOk := by
  rcases r with e | ⟨_ | code, body⟩ <;> rfl

theorem isSome_kind_judge (r : CallResult) : (judge r).kind?.isSome = !r.hasStatusOk := by
  rcases r with e | ⟨_ | code, body⟩ <;> rfl

@[simp] theorem category_judge (r : CallResult) :
    (judge r).kind?.map FailureKind.category = r.category? := by
  rcases r with e | ⟨_ | code, body⟩
  · cases e <;> rfl
  · rfl
  · rfl

@[simp] theorem code_judge (r : CallResult) :
    (judge r).kind?.bind FailureKind.code? = r.rejection? := by
  rcases r with e | ⟨_ | code, body⟩
  · cases e <;> rfl
  · rfl
  · rfl

/-- A result is counted in the group of rejections exactly when it has a code. -/
theorem CallResult.category?_eq_verification_iff (r : CallResult) :
    r.category? = some .verification ↔ r.rejection?.isSome = true := by
  rcases r with e | ⟨_ | code, body⟩
  · cases e <;> simp [category?, rejection?, CallError.category]
  · simp [category?, rejection?]
  · simp [category?, rejection?]

/-- An iteration before it is judged. -/
structure Iteration where
  operation : Operation
  latency : Duration
  result : CallResult
  /-- The label of the endpoint that was called. -/
  shard : Option String

/-- The sample of an iteration. -/
def Iteration.sample (x : Iteration) : Sample := ⟨x.operation, x.latency, judge x.result, x.shard⟩

/-- What a snapshot counts besides the rows of shards. -/
def Snapshot.counted (s : Snapshot) : (Nat × Nat × Nat) × (Counts × Counts × Counts × Counts) ×
    (Nat × Nat) :=
  ((s.passed, s.failed, s.total), (s.operations, s.operationErrors, s.categories, s.rejections),
    (s.least, s.greatest))

namespace Recorder

variable {β : Type}

theorem recordAll_concat (r : Recorder) (samples : List Sample) (x : Sample) :
    r.recordAll (samples ++ [x]) = (r.recordAll samples).record x := recordAll_append ..

/-! ## Keyed counts -/

/-- A sample that failed is booked under its operation once more. -/
theorem operationErrors_record (r : Recorder) (x : Sample) :
    (r.record x).operationErrors =
      r.operationErrors.meet ((x.outcome.kind?.map fun _ => x.operation).map Operation.name) := by
  have h := congrArg Prod.fst (failures_record r x)
  cases hx : x.outcome with
  | pass => rw [hx] at h; exact h
  | fail kind => rw [hx] at h; exact h

/-- A sample that failed is booked under its category. -/
theorem categories_record (r : Recorder) (x : Sample) :
    (r.record x).categories =
      r.categories.meet ((x.outcome.kind?.map FailureKind.category).map Category.name) := by
  have h := congrArg (fun p => p.2.1) (failures_record r x)
  cases hx : x.outcome with
  | pass => rw [hx] at h; exact h
  | fail kind => rw [hx] at h; exact h

/-- A sample that was rejected is booked under its code. -/
theorem rejections_record (r : Recorder) (x : Sample) :
    (r.record x).rejections =
      r.rejections.meet ((x.outcome.kind?.bind FailureKind.code?).map Status.name) := by
  have h := congrArg (fun p => p.2.2) (failures_record r x)
  cases hx : x.outcome with
  | pass => rw [hx] at h; exact h
  | fail kind =>
    rw [hx] at h
    cases kind with
    | verification code => exact h
    | connection | timeout | protocol => exact h

/-- Counts of a recorder that book a sample under the name of what it meets, if it meets
anything, are the tally of what samples meet. -/
theorem tally_recordAll (field : Recorder → Counts) (name : β → String) (met? : Sample → Option β)
    (hnew : ∀ interval, field (new interval) = [])
    (hrecord : ∀ r x, field (r.record x) = (field r).meet ((met? x).map name))
    (interval : Nat) (samples : List Sample) :
    field ((new interval).recordAll samples) =
      Counts.tally ((samples.filterMap met?).map name) := by
  induction samples using List.reverseRecOn with
  | nil => exact hnew interval
  | append_singleton samples x ih =>
    rw [recordAll_concat, hrecord, List.filterMap_append, List.map_append, ih]
    cases hx : met? x with
    | none => simp [hx, Counts.meet]
    | some b => simp [hx, Counts.meet, Counts.tally_concat]

theorem operations_recordAll (interval : Nat) (samples : List Sample) :
    ((new interval).recordAll samples).operations =
      Counts.tally ((samples.filterMap fun x => some x.operation).map Operation.name) :=
  tally_recordAll operations Operation.name (fun x => some x.operation) (fun _ => rfl)
    operations_record interval samples

theorem operationErrors_recordAll (interval : Nat) (samples : List Sample) :
    ((new interval).recordAll samples).operationErrors =
      Counts.tally ((samples.filterMap fun x => x.outcome.kind?.map fun _ => x.operation).map
        Operation.name) :=
  tally_recordAll operationErrors Operation.name
    (fun x => x.outcome.kind?.map fun _ => x.operation) (fun _ => rfl) operationErrors_record
    interval samples

theorem categories_recordAll (interval : Nat) (samples : List Sample) :
    ((new interval).recordAll samples).categories =
      Counts.tally ((samples.filterMap fun x => x.outcome.kind?.map FailureKind.category).map
        Category.name) :=
  tally_recordAll categories Category.name (fun x => x.outcome.kind?.map FailureKind.category)
    (fun _ => rfl) categories_record interval samples

theorem rejections_recordAll (interval : Nat) (samples : List Sample) :
    ((new interval).recordAll samples).rejections =
      Counts.tally ((samples.filterMap fun x => x.outcome.kind?.bind FailureKind.code?).map
        Status.name) :=
  tally_recordAll rejections Status.name (fun x => x.outcome.kind?.bind FailureKind.code?)
    (fun _ => rfl) rejections_record interval samples

/-! ## Plain counts -/

/-- How many samples passed and how many failed. -/
theorem passed_failed_recordAll (interval : Nat) (samples : List Sample) :
    ((new interval).recordAll samples).passed = samples.countP (·.outcome.isPass) ∧
      ((new interval).recordAll samples).failed = samples.countP (!·.outcome.isPass) := by
  induction samples using List.reverseRecOn with
  | nil => exact ⟨rfl, rfl⟩
  | append_singleton samples x ih =>
    rw [recordAll_concat, List.countP_append, List.countP_append, ← ih.1, ← ih.2,
      List.countP_singleton, List.countP_singleton]
    exact verdicts_record _ x

/-! ## The range of latencies -/

/-- The least latency of all samples. -/
theorem least_recordAll (interval : Nat) (samples : List Sample) :
    ((new interval).recordAll samples).least = (samples.map Sample.millis).min? := by
  induction samples using List.reverseRecOn with
  | nil => rfl
  | append_singleton samples x ih =>
    rw [recordAll_concat, (range_record _ x).1, ih, List.map_append]
    cases samples with
    | nil => rfl
    | cons y samples =>
      rw [List.map_cons, List.cons_append, List.min?_cons', List.min?_cons', List.foldl_append]
      rfl

/-- The greatest latency of all samples. -/
theorem greatest_recordAll (interval : Nat) (samples : List Sample) :
    ((new interval).recordAll samples).greatest = (samples.map Sample.millis).max?.getD 0 := by
  induction samples using List.reverseRecOn with
  | nil => rfl
  | append_singleton samples x ih =>
    rw [recordAll_concat, (range_record _ x).2, ih, List.map_append]
    cases samples with
    | nil => exact Nat.zero_max _
    | cons y samples =>
      rw [List.map_cons, List.cons_append, List.max?_cons', List.max?_cons', List.foldl_append]
      rfl

/-! ## What the results are -/

/-- What the tally of iterations shows is how many of them meet each thing. -/
theorem shows_iterations [DecidableEq β] {name : β → String} (hname : name.Injective)
    {met? : Sample → Option β} {meets : β → Iteration → Bool}
    (hmeets : ∀ x b, met? x.sample = some b ↔ meets b x = true) (xs : List Iteration) :
    (Counts.tally (((xs.map Iteration.sample).filterMap met?).map name)).Shows name
      fun b => xs.countP (meets b) := by
  refine (Counts.shows_tally hname _).congr fun b => ?_
  rw [List.count_filterMap, List.countP_map]
  refine List.countP_congr fun x _ => ?_
  rw [Function.comp_apply, beq_iff_eq, hmeets]

/-- The latencies of samples are those of the iterations, if they are 64-bit numbers. -/
theorem map_millis_sample {xs : List Iteration} (h : ∀ x ∈ xs, x.latency.millis < 2 ^ 64) :
    (xs.map Iteration.sample).map Sample.millis = xs.map fun x => x.latency.millis := by
  rw [List.map_map]
  exact List.map_congr_left fun x hx => Nat.mod_eq_of_lt (h x hx)

/-- What is counted does not depend on the interval between calls. -/
theorem counted_recordAll (interval other : Nat) (samples : List Sample) :
    ((new interval).recordAll samples).snapshot.counted =
      ((new other).recordAll samples).snapshot.counted := by
  obtain ⟨hp, hf⟩ := passed_failed_recordAll interval samples
  obtain ⟨hp', hf'⟩ := passed_failed_recordAll other samples
  simp only [Snapshot.counted, snapshot, hp, hf, hp', hf', operations_recordAll,
    operationErrors_recordAll, categories_recordAll, rejections_recordAll, least_recordAll,
    greatest_recordAll]

/-- **A snapshot counts exactly the results.**  Passed are the iterations whose calls were
answered with the status OK, failed are the others, and together they are all.  Operations,
operations of failed iterations, categories and status codes of rejections are there if they
were met at all, with how often they were met, and nothing else is there; the rejections sum
to the verification failures.  The range is that of all latencies.  None of this depends on
the interval between calls, and so on the calls that were held up. -/
theorem counts_of_results (interval : Nat) (xs : List Iteration)
    (h : ∀ x ∈ xs, x.latency.millis < 2 ^ 64) :
    let s := ((new interval).recordAll (xs.map Iteration.sample)).snapshot
    s.passed = xs.countP (·.result.hasStatusOk) ∧
    s.failed = xs.countP (!·.result.hasStatusOk) ∧
    s.total = xs.length ∧
    s.operations.Shows Operation.name (fun o => xs.countP fun x => x.operation = o) ∧
    s.operationErrors.Shows Operation.name
      (fun o => xs.countP fun x => x.operation = o ∧ x.result.hasStatusOk = false) ∧
    s.categories.Shows Category.name
      (fun k => xs.countP fun x => x.result.category? = some k) ∧
    s.rejections.Shows Status.name
      (fun code => xs.countP fun x => x.result.rejection? = some code) ∧
    s.rejections.total = xs.countP (fun x => x.result.category? = some .verification) ∧
    s.least = (xs.map fun x => x.latency.millis).min?.getD 0 ∧
    s.greatest = (xs.map fun x => x.latency.millis).max?.getD 0 ∧
    ∀ other : Nat,
      ((new other).recordAll (xs.map Iteration.sample)).snapshot.counted = s.counted := by
  intro s
  obtain ⟨hp, hf⟩ := passed_failed_recordAll interval (xs.map Iteration.sample)
  have hpassed : s.passed = xs.countP (·.result.hasStatusOk) := by
    show ((new interval).recordAll (xs.map Iteration.sample)).passed = _
    rw [hp, List.countP_map]
    exact List.countP_congr fun x _ => by simp [Iteration.sample]
  have hfailed : s.failed = xs.countP (!·.result.hasStatusOk) := by
    show ((new interval).recordAll (xs.map Iteration.sample)).failed = _
    rw [hf, List.countP_map]
    exact List.countP_congr fun x _ => by simp [Iteration.sample]
  refine ⟨hpassed, hfailed, ?_, ?_, ?_, ?_, ?_, ?_, ?_, ?_, ?_⟩
  · show s.passed + s.failed = _
    rw [hpassed, hfailed, List.length_eq_countP_add_countP (fun x => x.result.hasStatusOk)]
    simp
  · show ((new interval).recordAll _).operations.Shows _ _
    rw [operations_recordAll]
    exact shows_iterations (fun _ _ => Operation.name_injective) (by simp [Iteration.sample]) xs
  · show ((new interval).recordAll _).operationErrors.Shows _ _
    rw [operationErrors_recordAll]
    refine shows_iterations (fun _ _ => Operation.name_injective) (fun x o => ?_) xs
    have hkind := isSome_kind_judge x.result
    rw [decide_eq_true_eq, and_comm, ← Bool.not_eq_true', ← hkind, Option.isSome_iff_exists]
    exact Option.map_eq_some_iff.trans exists_and_right
  · show ((new interval).recordAll _).categories.Shows _ _
    rw [categories_recordAll]
    exact shows_iterations (fun _ _ => Category.name_injective) (by simp [Iteration.sample]) xs
  · show ((new interval).recordAll _).rejections.Shows _ _
    rw [rejections_recordAll]
    exact shows_iterations (fun _ _ => Status.name_injective) (by simp [Iteration.sample]) xs
  · show ((new interval).recordAll _).rejections.total = _
    rw [rejections_recordAll, Counts.total_tally, List.length_map, List.length_filterMap_eq_countP,
      List.countP_map]
    exact List.countP_congr fun x _ => by
      simp [Iteration.sample, CallResult.category?_eq_verification_iff]
  · show ((new interval).recordAll _).least.getD 0 = _
    rw [least_recordAll, map_millis_sample h]
  · show ((new interval).recordAll _).greatest = _
    rw [greatest_recordAll, map_millis_sample h]
  · intro other
    exact counted_recordAll other interval _

/-- A pass that was held up for twenty-four intervals, a timeout, and two rejections. -/
theorem counts_of_results_four :
    let xs : List Iteration :=
      [⟨.transaction, .ofMillis 2500, .ok ⟨.ok, []⟩, some "a:1"⟩,
        ⟨.rootRead, .ofMillis 3, .error .timeout, none⟩,
        ⟨.transaction, .ofMillis 40, .ok ⟨.rejected .aborted, []⟩, some "a:2"⟩,
        ⟨.rootRead, .ofMillis 40, .ok ⟨.rejected .aborted, []⟩, some "a:1"⟩]
    let s := ((new 100).recordAll (xs.map Iteration.sample)).snapshot
    (∀ x ∈ xs, x.latency.millis < 2 ^ 64) ∧ s.passed = 1 ∧ s.failed = 3 ∧ s.total = 4 ∧
      Keyed.find? "transaction" s.operationErrors = some 1 ∧
      Keyed.find? "Aborted" s.rejections = some 2 ∧ Keyed.find? "Internal" s.rejections = none ∧
      s.rejections.total = 2 ∧ s.least = 3 ∧ s.greatest = 2500 := by
  intro xs s
  have h : ∀ x ∈ xs, x.latency.millis < 2 ^ 64 := by decide
  obtain ⟨hp, hf, ht, -, he, -, hr, hsum, hl, hg, -⟩ := counts_of_results 100 xs h
  exact ⟨h, hp.trans (by decide), hf.trans (by decide), ht, he.found .transaction,
    hr.found .aborted, hr.found .internal, hsum.trans (by decide), hl, hg⟩

end Recorder
end ShardLoad
