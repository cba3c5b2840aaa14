import ShardLoad.Config.Basic
import ShardLoad.Duration
import ShardLoad.Invocation
import ShardLoad.Metrics.Histogram
import ShardLoad.Metrics.Snapshot

/-!
# Recording iterations

Each iteration of a user yields one sample: its operation, its latency, the
verdict, and the shard it went to.  A recorder counts every sample once.  Passed
and failed iterations have latency histograms of their own, so that calls which
are refused at once do not make the passed ones look fast.  The latencies of
calls that were held up enter the histograms and nothing else.

* `Recorder.record`: one more sample.
* `Recorder.snapshot`: what was counted so far.
* `recordAll_append`: recording goes sample by sample.
-/

namespace ShardLoad

/-- What is measured of one iteration. -/
structure Sample where
  operation : Operation
  latency : Duration
  outcome : Outcome
  /-- The label of the endpoint that was called. -/
  shard : Option String
  deriving Repr, DecidableEq

/-- The latency of a sample in whole milliseconds. -/
def Sample.millis (s : Sample) : Nat := s.latency.millis64

/-- What is counted for one shard. -/
structure ShardTally where
  latencies : Histogram
  passed : Nat
  failed : Nat
  categories : Counts
  deriving Repr, DecidableEq

namespace ShardTally

/-- Nothing was counted. -/
def empty : ShardTally := ⟨.empty, 0, 0, []⟩

/-- One more sample of the shard. -/
def record (interval : Nat) (t : ShardTally) (s : Sample) : ShardTally :=
  match s.outcome with
  | .pass =>
    { t with latencies := t.latencies.record interval s.millis, passed := t.passed + 1 }
  | .fail kind =>
    { t with failed := t.failed + 1, categories := t.categories.bump kind.category.name }

/-- The row of the shard. -/
def row (name : String) (t : ShardTally) : ShardRow :=
  ⟨name, t.latencies.atQuantile .p50, t.latencies.atQuantile .p99, t.passed + t.failed,
    t.passed, t.failed, t.categories⟩

end ShardTally

/-- What is counted for a run. -/
structure Recorder where
  /-- The interval between the calls of one user, in milliseconds. -/
  interval : Nat
  passes : Histogram
  failures : Histogram
  operations : Counts
  operationErrors : Counts
  passed : Nat
  failed : Nat
  least : Option Nat
  greatest : Nat
  categories : Counts
  rejections : Counts
  shards : Keyed ShardTally
  deriving Repr, DecidableEq

namespace Recorder

/-- Nothing was counted. -/
def new (interval : Nat) : Recorder :=
  ⟨interval, .empty, .empty, [], [], 0, 0, none, 0, [], [], []⟩

/-- Counts what every sample has. -/
def recordSeen (r : Recorder) (s : Sample) : Recorder :=
  { r with
    operations := r.operations.bump s.operation.name
    least := some (match r.least with
      | some n => min n s.millis
      | none => s.millis)
    greatest := max r.greatest s.millis }

/-- Counts the verdict on a sample. -/
def recordOutcome (r : Recorder) (s : Sample) : Recorder :=
  match s.outcome with
  | .pass => { r with passes := r.passes.record r.interval s.millis, passed := r.passed + 1 }
  | .fail kind =>
    { r with
      failures := r.failures.record r.interval s.millis
      failed := r.failed + 1
      operationErrors := r.operationErrors.bump s.operation.name
      categories := r.categories.bump kind.category.name
      rejections := match kind with
        | .verification code => r.rejections.bump code.name
        | _ => r.rejections }

/-- Counts a sample for its shard. -/
def recordShard (r : Recorder) (s : Sample) : Recorder :=
  match s.shard with
  | some name =>
    { r with shards := Keyed.update name (fun t => (t.getD .empty).record r.interval s) r.shards }
  | none => r

/-- One more sample. -/
def record (r : Recorder) (s : Sample) : Recorder :=
  ((r.recordSeen s).recordOutcome s).recordShard s

/-- Samples in order. -/
def recordAll (r : Recorder) (samples : List Sample) : Recorder := samples.foldl record r

/-- The fraction of iterations that failed; zero before anything was counted. -/
def errorRate (r : Recorder) : Float :=
  if r.passed + r.failed = 0 then 0
  else r.failed.toUInt64.toFloat / (r.passed + r.failed).toUInt64.toFloat

/-- What was counted so far. -/
def snapshot (r : Recorder) : Snapshot where
  p50 := r.passes.atQuantile .p50
  p95 := r.passes.atQuantile .p95
  p99 := r.passes.atQuantile .p99
  failedP50 := r.failures.atQuantile .p50
  failedP95 := r.failures.atQuantile .p95
  failedP99 := r.failures.atQuantile .p99
  least := r.least.getD 0
  greatest := r.greatest
  passed := r.passed
  failed := r.failed
  total := r.passed + r.failed
  errorRate := r.errorRate
  operations := r.operations
  operationErrors := r.operationErrors
  categories := r.categories
  rejections := r.rejections
  shards := r.shards.map fun (name, t) => t.row name

@[simp] theorem recordAll_nil (r : Recorder) : r.recordAll [] = r := rfl

@[simp] theorem recordAll_cons (r : Recorder) (s : Sample) (samples : List Sample) :
    r.recordAll (s :: samples) = (r.record s).recordAll samples := rfl

theorem recordAll_append (r : Recorder) (xs ys : List Sample) :
    r.recordAll (xs ++ ys) = (r.recordAll xs).recordAll ys := List.foldl_append

/-- The interval never changes. -/
@[simp] theorem interval_record (r : Recorder) (s : Sample) :
    (r.record s).interval = r.interval := by
  simp only [record, recordShard, recordOutcome, recordSeen]
  cases s.outcome <;> cases s.shard <;> rfl

end Recorder
end ShardLoad
