import ShardLoad.Config.Json
import ShardLoad.Invocation
import ShardLoad.Json.Printer
import ShardLoad.Result.Basic
import ShardLoad.Shard.Pool

/-!
# The report of a run

A report is a JSON file that says what was run, on which shards, for how long,
and what was counted, in a fixed order of its fields.  Names that differ from run
to run, such as shards and status codes, come in increasing order.  The whole
configuration is in it, so that the run can be repeated.

* `Report.toJson`: the report of a result.
* `Report.render`: its text.
-/

namespace ShardLoad.Report

/-- The version of the layout of reports. -/
def schemaVersion : String := "1.0"

/-- Counts as an object. -/
def countsJson (c : Counts) : Json :=
  .object ((Keyed.ofPairs c).map fun (name, n) => (name, .nat n))

/-- The labels of the shards; ports past the last one do not exist. -/
def targets (t : Target) : List String :=
  ((List.range t.poolSize.toNat).map fun i => t.basePort.toNat + i).filterMap fun port =>
    if port ≤ 65535 then some (Endpoint.label ⟨t.host, port.toUInt16⟩) else none

/-- Iterations by outcome: those that passed and each category of failures. -/
def outcomes (s : Snapshot) : Counts :=
  Keyed.ofPairs (("ok", s.passed) ::
    Category.all.map fun k => (k.name, s.categories.count k.name))

/-- The latencies of a run. -/
def latencyJson (s : Snapshot) : Json :=
  .object [("p50_ms", .nat s.p50), ("p95_ms", .nat s.p95), ("p99_ms", .nat s.p99),
    ("error_p50_ms", .nat s.failedP50), ("error_p95_ms", .nat s.failedP95),
    ("error_p99_ms", .nat s.failedP99), ("min_ms", .nat s.least), ("max_ms", .nat s.greatest)]

/-- What was counted for the whole run. -/
def metricsJson (s : Snapshot) (elapsed : Duration) : Json :=
  .object [("total_iterations", .nat s.total), ("success_count", .nat s.passed),
    ("error_count", .nat s.failed), ("error_rate", .ofFloat s.errorRate),
    ("throughput_ips", .ofFloat (s.throughput elapsed)), ("latency", latencyJson s),
    ("operation_counts", countsJson s.operations),
    ("operation_errors", countsJson s.operationErrors)]

/-- What was counted for one shard. -/
def shardJson (r : ShardRow) : Json :=
  .object [("total_iterations", .nat r.total), ("success_count", .nat r.passed),
    ("error_count", .nat r.failed), ("p50_ms", .nat r.p50), ("p99_ms", .nat r.p99),
    ("errors", countsJson r.categories)]

/-- The shards by their labels. -/
def shardsJson (rows : List ShardRow) : Json :=
  .object (Keyed.ofPairs (rows.map fun r => (r.name, shardJson r)))

/-- The report of a run that was made at a given time. -/
def toJson (timestamp : String) (c : Config) (s : Snapshot) (elapsed : Duration) : Json :=
  .object [("schema_version", .string schemaVersion), ("timestamp", .string timestamp),
    ("targets", .array ((targets c.target).map .string)),
    ("duration_secs", .ofFloat elapsed.seconds), ("config", c.toJson),
    ("metrics", metricsJson s elapsed), ("outcomes", countsJson (outcomes s)),
    ("rejections", countsJson s.rejections), ("per_shard", shardsJson s.shards)]

/-- The text of a report. -/
def render (timestamp : String) (c : Config) (s : Snapshot) (elapsed : Duration) : String :=
  Json.pretty (toJson timestamp c s elapsed)

end ShardLoad.Report
