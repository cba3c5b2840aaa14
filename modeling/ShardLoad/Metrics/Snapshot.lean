import ShardLoad.Keyed

/-!
# Snapshots

A snapshot is all that was counted up to some moment: percentiles of the
latencies of passed and of failed iterations, counts by operation, by failure
category and by status code, and a row for each shard.  Latencies are whole
milliseconds.

* `ShardRow`: what was counted for one shard.
* `Snapshot`: what was counted for the run.
-/

namespace ShardLoad

/-- What was counted for one shard. -/
structure ShardRow where
  /-- The label of the endpoint. -/
  name : String
  /-- Percentiles of the latencies of passed iterations. -/
  p50 : Nat
  p99 : Nat
  total : Nat
  passed : Nat
  failed : Nat
  /-- Failures by category. -/
  categories : Counts
  deriving Repr, DecidableEq

/-- What was counted for a run. -/
structure Snapshot where
  /-- Percentiles of the latencies of passed iterations. -/
  p50 : Nat
  p95 : Nat
  p99 : Nat
  /-- Percentiles of the latencies of failed iterations. -/
  failedP50 : Nat
  failedP95 : Nat
  failedP99 : Nat
  /-- The least and the greatest latency of all iterations. -/
  least : Nat
  greatest : Nat
  passed : Nat
  failed : Nat
  total : Nat
  /-- Failed iterations by all iterations. -/
  errorRate : Float
  /-- Iterations by operation. -/
  operations : Counts
  /-- Failed iterations by operation. -/
  operationErrors : Counts
  /-- Failed iterations by category. -/
  categories : Counts
  /-- Rejections by the name of the status code. -/
  rejections : Counts
  /-- One row for each shard that was called. -/
  shards : List ShardRow
  deriving Repr

namespace Snapshot

/-- Nothing was counted. -/
def empty : Snapshot := ⟨0, 0, 0, 0, 0, 0, 0, 0, 0, 0, 0, 0, [], [], [], [], []⟩

/-- Whether any iteration failed. -/
def hasFailures (s : Snapshot) : Bool := 0 < s.failed

end Snapshot
end ShardLoad
