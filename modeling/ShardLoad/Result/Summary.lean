import ShardLoad.Config.Basic
import ShardLoad.Decimal.Layout
import ShardLoad.Invocation
import ShardLoad.Result.Basic
import ShardLoad.Result.Paint

/-!
# The summary of a run

After a run a summary is printed: what was run, how fast the calls were, how many
iterations passed and failed and why, and a table of the shards.  A metric is a
name, dots, and a value; its color says whether it is good news.

Failure categories are all listed, also those that never occurred.  Rejections
come with the most frequent first, and operations by name, the latter only if
there are several.

* `Summary.Line`: one line, before it is written.
* `Summary.lines`: the lines of a result.
* `Summary.render`: the text.
-/

namespace ShardLoad.Summary

/-- One line of a summary. -/
inductive Line where
  | text (s : String)
  | title (name : String)
  /-- A name and a value with dots between them. -/
  | metric (name : String) (value : Painted)
  /-- A row of the table of shards. -/
  | shard (row : ShardRow)
  deriving Repr

/-- A percentage with one decimal. -/
def percent (x : Float) : String := s!"{Decimal.fixed 1 x}%"

/-- Up to how many characters a metric's name is filled with dots. -/
def nameWidth : Nat := 40

/-! ## What was run -/

/-- The lines that say what was run. -/
def header (c : Config) : List Line :=
  let t := c.target
  let last := t.basePort.toNat + max t.poolSize.toNat 1 - 1
  let transport := if t.plaintext then "plaintext" else "tls"
  [.text "", .title "mverse-loadgen", .text "",
    .text s!"  target:    {t.host}:{t.basePort}-{last} ({t.poolSize} shards, {transport})",
    .text s!"  vus:       {c.settings.virtualUsers}",
    .text s!"  duration:  {c.settings.durationSecs}s (pacing {c.settings.pacing}ms)",
    .text s!"  scenarios: {c.scenario.length} steps", .text ""]

/-! ## Latencies and totals -/

/-- The percentiles, a warning from a second on. -/
def latency (s : Snapshot) : Painted :=
  .shaded (if s.p99 < 1000 then .green else .yellow)
    s!"p50={s.p50}ms  p95={s.p95}ms  p99={s.p99}ms"

/-- The part of iterations that failed, in percent. -/
def failureRate (s : Snapshot) : Painted :=
  let rate := s.errorRate * 100
  .shaded (if rate > 5 then .red else if rate > 1 then .yellow else .green) (percent rate)

/-- The lines of the totals. -/
def totals (s : Snapshot) (elapsed : Duration) : List Line :=
  [.metric "iteration_duration" (latency s),
    .metric "iteration_duration_range" (.plain s!"min={s.least}ms  max={s.greatest}ms"),
    .metric "iterations" (.plain (toString s.total)),
    .metric "checks_passed" (.shaded .green (toString s.passed)),
    .metric "checks_failed" (.alarm s.failed),
    .metric "failure_rate" (failureRate s),
    .metric "throughput" (.shaded .green s!"{Decimal.fixed 1 (s.throughput elapsed)} it/s"),
    .metric "elapsed" (.plain s!"{Decimal.fixed 1 elapsed.seconds}s")]

/-! ## Outcomes -/

/-- The lines of the outcomes, each category included. -/
def outcomes (s : Snapshot) : List Line :=
  .text "" :: .text "  outcomes:" :: .metric "    ok" (.shaded .green (toString s.passed)) ::
    Category.all.map fun k => .metric s!"    {k.name}" (.alarm (s.categories.count k.name))

/-- Whether one count is shown before another: the greater one first, and of equal
ones the one whose name comes first. -/
def ranksBefore (a b : String × Nat) : Bool := b.2 < a.2 || (a.2 == b.2 && a.1 ≤ b.1)

/-- Counts with the most frequent first. -/
def ranked (c : Counts) : List (String × Nat) := List.mergeSort c ranksBefore

/-- The lines of the rejections, if there are any. -/
def rejections (s : Snapshot) : List Line :=
  if s.rejections.isEmpty then []
  else .text "" :: .text "  rejections by status:" ::
    (ranked s.rejections).map fun (code, n) =>
      .metric s!"    {code}" (.shaded .red (toString n))

/-- The lines of the operations, if there are several. -/
def operations (s : Snapshot) : List Line :=
  if s.operations.length ≤ 1 then []
  else .text "" :: .text "  operations:" ::
    (Keyed.ofPairs s.operations).map fun (op, n) =>
      .metric s!"    {op}" (.plain s!"{n} ({s.operationErrors.count op} failed)")

/-! ## Shards -/

/-- The cells of a row of the table of shards. -/
def cells (name total failed rate p50 p99 : String) : String :=
  "  " ++ " ".intercalate [padRight ' ' 24 name, padLeft ' ' 8 total, padLeft ' ' 8 failed,
    padLeft ' ' 7 rate, padLeft ' ' 7 p50, padLeft ' ' 7 p99]

/-- The part of the iterations of a shard that failed, in percent. -/
def shardRate (r : ShardRow) : Painted :=
  let rate := if 0 < r.total then Float.ofNat r.failed / Float.ofNat r.total * 100 else 0
  .shaded (if rate > 5 then .red else .green) (percent rate)

/-- The lines of the shards, if any was called. -/
def shards (s : Snapshot) : List Line :=
  if s.shards.isEmpty then []
  else .text "" :: .text "  per-shard:" :: .text "" ::
    .text (cells "shard" "iters" "failed" "err%" "p50" "p99") ::
    .text ("  " ++ String.ofList (List.replicate 66 '─')) :: s.shards.map .shard

/-! ## The text -/

/-- A line as it is written. -/
def Line.render (color : Bool) : Line → String
  | text s => s
  | title name => "  " ++ (Painted.shaded .bold name).render color
  | metric name value => "  " ++ padRight '.' nameWidth name ++ ": " ++ value.render color
  | shard r =>
    cells r.name (toString r.total) (toString r.failed) ((shardRate r).render color)
      s!"{r.p50}ms" s!"{r.p99}ms"

/-- The lines of a summary. -/
def lines (c : Config) (s : Snapshot) (elapsed : Duration) : List Line :=
  header c ++ totals s elapsed ++ outcomes s ++ rejections s ++ operations s ++ shards s

/-- The summary of a run. -/
def render (color : Bool) (c : Config) (s : Snapshot) (elapsed : Duration) : String :=
  "\n".intercalate ((lines c s elapsed).map (Line.render color))

end ShardLoad.Summary
