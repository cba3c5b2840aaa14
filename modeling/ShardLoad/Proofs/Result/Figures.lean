import ShardLoad.Proofs.Metrics.Arrival
import ShardLoad.Proofs.Metrics.Totals
import ShardLoad.Proofs.Result.Printed
import ShardLoad.Proofs.Result.ReportText

/-!
# Report and summary show the same counts

A report and a summary are made from one snapshot, each in its own way: the report as an object
with objects in it, the summary as lines.  What is read off the two is the same.

The counts of a recorder are in the order of their keys, so an object of a report has an entry for
each of them, with its number, and nothing is merged.  The outcomes have an entry for each category
and one for what passed; no failure is counted under another name, and so they sum up to all
iterations.

* `Report.Figures`, `Report.figures?`: what is read off a report.
* `figures?_toJson`: what is read is what was counted.
* `InOrder`, `Balanced`: what holds of all snapshots of a recorder.
* `Figures.Partition`, `partition_figuresOf`: the counts add up.
* `Figures.Keeps`, `keeps_figuresOf`: no key is lost.
* `Figures.texts`, `render_eq`: they are what a summary prints.
* `Report.agrees_with_summary`: all of it, for every run.
-/

namespace ShardLoad

/-! ## Reading numbers off a report -/

namespace Json

/-- What stands at a path of names. -/
def at? (j : Json) (path : List String) : Option Json :=
  path.foldlM (fun j name => j.field? name) j

/-- A natural number. -/
def nat? : Json → Option Nat
  | .int n => if 0 ≤ n then some n.toNat else none
  | _ => none

/-- An object of natural numbers, each of its members with its name. -/
def counts? : Json → Option Counts
  | .object members => members.mapM fun m => (nat? m.2).map (m.1, ·)
  | _ => none

@[simp] theorem nat?_nat (n : Nat) : nat? (.nat n) = some n := by
  simp [nat, nat?]

/-- What was written one by one is read one by one. -/
theorem mapM_map_some {α β γ : Type} {write : α → β} {read : β → Option γ} {view : α → γ}
    {l : List α} (h : ∀ a ∈ l, read (write a) = some (view a)) :
    (l.map write).mapM read = some (l.map view) := by
  induction l with
  | nil => rfl
  | cons a l ih =>
    rw [List.forall_mem_cons] at h
    rw [List.map_cons, List.mapM_cons, h.1, ih h.2]
    rfl

end Json

namespace Report

/-- Counts that are in order are read as they are. -/
theorem counts?_countsJson {c : Counts} (h : Keyed.Ordered c) :
    Json.counts? (countsJson c) = some c := by
  have hread : (c.map fun kv => (kv.1, Json.nat kv.2)).mapM
      (fun m => (Json.nat? m.2).map (m.1, ·)) = some (c.map id) :=
    Json.mapM_map_some fun kv _ => by rw [Json.nat?_nat]; rfl
  rw [List.map_id] at hread
  rw [countsJson, Keyed.ofPairs_of_ordered h]
  exact hread

/-- What a report says of a shard. -/
structure ShardFigures where
  name : String
  p50 : Nat
  p99 : Nat
  total : Nat
  passed : Nat
  failed : Nat
  errors : Counts
  deriving Repr, DecidableEq

/-- The latencies of passed iterations that a report says, and the extremes of all. -/
structure Latencies where
  p50 : Nat
  p95 : Nat
  p99 : Nat
  least : Nat
  greatest : Nat
  deriving Repr, DecidableEq

/-- The numbers that a report says. -/
structure Figures where
  latencies : Latencies
  total : Nat
  passed : Nat
  failed : Nat
  operations : Counts
  operationErrors : Counts
  outcomes : Counts
  rejections : Counts
  shards : List ShardFigures
  deriving Repr, DecidableEq

/-- What is read off the object of a shard. -/
def shardFigures? (m : String × Json) : Option ShardFigures := do
  let p50 ← (m.2.field? "p50_ms").bind Json.nat?
  let p99 ← (m.2.field? "p99_ms").bind Json.nat?
  let total ← (m.2.field? "total_iterations").bind Json.nat?
  let passed ← (m.2.field? "success_count").bind Json.nat?
  let failed ← (m.2.field? "error_count").bind Json.nat?
  let errors ← (m.2.field? "errors").bind Json.counts?
  return ⟨m.1, p50, p99, total, passed, failed, errors⟩

/-- What is read off the object of all shards. -/
def shardsFigures? : Json → Option (List ShardFigures)
  | .object members => members.mapM shardFigures?
  | _ => none

/-- What is read off the object of the latencies. -/
def latencies? (j : Json) : Option Latencies := do
  let p50 ← (j.field? "p50_ms").bind Json.nat?
  let p95 ← (j.field? "p95_ms").bind Json.nat?
  let p99 ← (j.field? "p99_ms").bind Json.nat?
  let least ← (j.field? "min_ms").bind Json.nat?
  let greatest ← (j.field? "max_ms").bind Json.nat?
  return ⟨p50, p95, p99, least, greatest⟩

/-- What is read off a report. -/
def figures? (report : Json) : Option Figures := do
  let latencies ← (report.at? ["metrics", "latency"]).bind latencies?
  let total ← (report.at? ["metrics", "total_iterations"]).bind Json.nat?
  let passed ← (report.at? ["metrics", "success_count"]).bind Json.nat?
  let failed ← (report.at? ["metrics", "error_count"]).bind Json.nat?
  let operations ← (report.at? ["metrics", "operation_counts"]).bind Json.counts?
  let operationErrors ← (report.at? ["metrics", "operation_errors"]).bind Json.counts?
  let outcomes ← (report.at? ["outcomes"]).bind Json.counts?
  let rejections ← (report.at? ["rejections"]).bind Json.counts?
  let shards ← (report.at? ["per_shard"]).bind shardsFigures?
  return ⟨latencies, total, passed, failed, operations, operationErrors, outcomes, rejections,
    shards⟩

/-! ## What a report says -/

/-- The numbers of a row. -/
def shardFiguresOf (r : ShardRow) : ShardFigures :=
  ⟨r.name, r.p50, r.p99, r.total, r.passed, r.failed, r.categories⟩

/-- The numbers of a snapshot. -/
def figuresOf (s : Snapshot) : Figures :=
  ⟨⟨s.p50, s.p95, s.p99, s.least, s.greatest⟩, s.total, s.passed, s.failed, s.operations,
    s.operationErrors, outcomes s, s.rejections, s.shards.map shardFiguresOf⟩

/-- Written out by rewriting: a check by reduction would sort the names of the outcomes. -/
theorem outcomes_figuresOf (s : Snapshot) : (figuresOf s).outcomes = outcomes s := by
  rw [figuresOf]

/-- All keyed counts of a snapshot are in order, and so are its rows. -/
structure InOrder (s : Snapshot) : Prop where
  operations : Keyed.Ordered s.operations
  operationErrors : Keyed.Ordered s.operationErrors
  categories : Keyed.Ordered s.categories
  rejections : Keyed.Ordered s.rejections
  rows : s.shards.Pairwise fun a b => a.name < b.name
  rowCategories : ∀ r ∈ s.shards, Keyed.Ordered r.categories

theorem inOrder_snapshot (interval : Nat) (samples : List Sample) :
    InOrder ((Recorder.new interval).recordAll samples).snapshot := by
  have hordered (samples : List Sample) :=
    Recorder.ordered_recordAll (Recorder.ordered_new interval) samples
  have hrows := Recorder.pairwise_name_snapshot (hordered samples)
  refine ⟨(hordered samples).operations, (hordered samples).operationErrors,
    (hordered samples).categories, (hordered samples).rejections, hrows, ?_⟩
  intro r hr
  have hrow := Recorder.eq_of_mem_rows (hordered samples) hr
  rw [Recorder.tallyOf_recordAll] at hrow
  rw [hrow]
  exact (hordered (Recorder.samplesOf r.name samples)).categories

theorem shardFigures?_shardJson {r : ShardRow} (h : Keyed.Ordered r.categories) :
    shardFigures? (r.name, shardJson r) = some (shardFiguresOf r) := by
  have hp50 : (shardJson r).field? "p50_ms" = some (.nat r.p50) := rfl
  have hp99 : (shardJson r).field? "p99_ms" = some (.nat r.p99) := rfl
  have htotal : (shardJson r).field? "total_iterations" = some (.nat r.total) := rfl
  have hpassed : (shardJson r).field? "success_count" = some (.nat r.passed) := rfl
  have hfailed : (shardJson r).field? "error_count" = some (.nat r.failed) := rfl
  have herrors : (shardJson r).field? "errors" = some (countsJson r.categories) := rfl
  simp only [shardFigures?, hp50, hp99, htotal, hpassed, hfailed, herrors, Option.bind_some,
    Json.nat?_nat, counts?_countsJson h, bind, pure]
  rfl

theorem shardsFigures?_shardsJson {s : Snapshot} (h : InOrder s) :
    shardsFigures? (shardsJson s.shards) = some (s.shards.map shardFiguresOf) := by
  have hrows : Keyed.Ordered (s.shards.map fun r => (r.name, r)) := List.pairwise_map.mpr h.rows
  rw [shardsJson_eq, Keyed.ofPairs_of_ordered hrows, List.map_map, shardsFigures?]
  exact Json.mapM_map_some fun r hr => shardFigures?_shardJson (h.rowCategories r hr)

theorem latencies?_latencyJson (s : Snapshot) :
    latencies? (latencyJson s) = some (figuresOf s).latencies := by
  have hp50 : (latencyJson s).field? "p50_ms" = some (.nat s.p50) := rfl
  have hp95 : (latencyJson s).field? "p95_ms" = some (.nat s.p95) := rfl
  have hp99 : (latencyJson s).field? "p99_ms" = some (.nat s.p99) := rfl
  have hleast : (latencyJson s).field? "min_ms" = some (.nat s.least) := rfl
  have hgreatest : (latencyJson s).field? "max_ms" = some (.nat s.greatest) := rfl
  simp only [latencies?, hp50, hp95, hp99, hleast, hgreatest, Option.bind_some, Json.nat?_nat,
    bind, pure]
  rfl

/-- **A report says what was counted.** -/
theorem figures?_toJson (timestamp : String) (c : Config) {s : Snapshot} (h : InOrder s)
    (elapsed : Duration) : figures? (toJson timestamp c s elapsed) = some (figuresOf s) := by
  let report := toJson timestamp c s elapsed
  have hlatency : report.at? ["metrics", "latency"] = some (latencyJson s) := rfl
  have htotal : report.at? ["metrics", "total_iterations"] = some (.nat s.total) := rfl
  have hpassed : report.at? ["metrics", "success_count"] = some (.nat s.passed) := rfl
  have hfailed : report.at? ["metrics", "error_count"] = some (.nat s.failed) := rfl
  have hoperations : report.at? ["metrics", "operation_counts"] =
      some (countsJson s.operations) := rfl
  have herrors : report.at? ["metrics", "operation_errors"] =
      some (countsJson s.operationErrors) := rfl
  have houtcomes : report.at? ["outcomes"] = some (countsJson (outcomes s)) := rfl
  have hrejections : report.at? ["rejections"] = some (countsJson s.rejections) := rfl
  have hshards : report.at? ["per_shard"] = some (shardsJson s.shards) := rfl
  have houtcome : Json.counts? (countsJson (outcomes s)) = some (outcomes s) :=
    counts?_countsJson (Keyed.ordered_ofPairs _)
  simp only [figures?, report, hlatency, htotal, hpassed, hfailed, hoperations, herrors,
    houtcomes, hrejections, hshards, Option.bind_some, Json.nat?_nat,
    latencies?_latencyJson, counts?_countsJson h.operations,
    counts?_countsJson h.operationErrors, counts?_countsJson h.rejections, houtcome,
    shardsFigures?_shardsJson h, bind, pure]
  rfl

/-! ## The counts add up -/

/-- The counts of a snapshot add up, and its failures are in the four categories. -/
structure Balanced (s : Snapshot) : Prop where
  total : s.passed + s.failed = s.total
  categories : (Category.all.map fun k => s.categories.count k.name).sum = s.failed
  named : ∀ kv ∈ s.categories, ∃ k : Category, kv.1 = k.name
  operations : s.operations.total = s.total
  operationErrors : s.operationErrors.total = s.failed
  rejections : s.rejections.total = s.categories.count "verification"
  rows : ∀ r ∈ s.shards, r.categories.total = r.failed ∧ r.passed + r.failed = r.total

theorem balanced_snapshot (interval : Nat) (samples : List Sample) :
    Balanced ((Recorder.new interval).recordAll samples).snapshot where
  total := rfl
  categories := Recorder.sum_categories_recordAll interval samples
  named _ hkv := Recorder.named_categories_recordAll interval samples hkv
  operations := Recorder.total_operations_recordAll interval samples
  operationErrors := Recorder.total_operationErrors_recordAll interval samples
  rejections := Recorder.total_rejections_recordAll interval samples
  rows _ hr := Recorder.total_row interval samples hr

/-- The entries of the outcomes. -/
theorem outcomes_eq (s : Snapshot) :
    outcomes s = [("connection", s.categories.count "connection"), ("ok", s.passed),
      ("protocol", s.categories.count "protocol"), ("timeout", s.categories.count "timeout"),
      ("verification", s.categories.count "verification")] := by
  simp +decide only [outcomes, Category.all, Category.name, Keyed.ofPairs, Keyed.insert,
    Keyed.update, List.map_cons, List.map_nil, List.foldl_cons, List.foldl_nil, if_true, if_false]

/-- The outcomes are those of all iterations. -/
theorem total_outcomes {s : Snapshot} (h : Balanced s) : (outcomes s).total = s.total := by
  have htotal := h.total
  have hcategories := h.categories
  simp only [Category.all, Category.name, List.map_cons, List.map_nil, List.sum_cons,
    List.sum_nil] at hcategories
  rw [outcomes_eq]
  simp only [Counts.total, List.foldr_cons, List.foldr_nil]
  omega

/-- No category of a snapshot is missing in the outcomes. -/
theorem find?_outcomes_of_mem {s : Snapshot} (hordered : Keyed.Ordered s.categories)
    (hbalanced : Balanced s) {kv : String × Nat} (h : kv ∈ s.categories) :
    Keyed.find? kv.1 (outcomes s) = some kv.2 := by
  have hcount : s.categories.count kv.1 = kv.2 := by
    rw [Counts.count, Keyed.find?_of_mem hordered h, Option.getD_some]
  obtain ⟨k, hk⟩ := hbalanced.named kv h
  rw [outcomes_eq, ← hcount, hk]
  cases k <;> rfl

/-- The counts of a report partition the iterations: the outcomes and the operations are those of
all iterations, the errors of operations those of the failed ones, and the rejections those of one
category; the counts of a shard add up likewise. -/
structure Figures.Partition (f : Figures) : Prop where
  names : f.outcomes.map Prod.fst = ["connection", "ok", "protocol", "timeout", "verification"]
  outcomes : f.outcomes.total = f.total
  operations : f.operations.total = f.total
  operationErrors : f.operationErrors.total = f.failed
  rejections : f.rejections.total = f.outcomes.count "verification"
  shards : ∀ r ∈ f.shards, r.errors.total = r.failed ∧ r.passed + r.failed = r.total

/-- **The counts of a report add up.** -/
theorem partition_figuresOf {s : Snapshot} (h : Balanced s) : (figuresOf s).Partition := by
  refine ⟨?_, ?_, h.operations, h.operationErrors, ?_, ?_⟩
  · rw [outcomes_figuresOf, outcomes_eq]
    rfl
  · rw [outcomes_figuresOf, total_outcomes h]
    rfl
  · rw [outcomes_figuresOf, outcomes_eq]
    exact h.rejections
  · intro r hr
    obtain ⟨row, hrow, rfl⟩ := List.mem_map.mp hr
    exact h.rows row hrow

/-- The counts of a report have all keys of a snapshot: each with its number, and no two of them
in one entry. -/
structure Figures.Keeps (f : Figures) (s : Snapshot) : Prop where
  operations : f.operations = s.operations
  operationErrors : f.operationErrors = s.operationErrors
  rejections : f.rejections = s.rejections
  passed : Keyed.find? "ok" f.outcomes = some s.passed
  categories : ∀ kv ∈ s.categories, Keyed.find? kv.1 f.outcomes = some kv.2
  shards : f.shards.map ShardFigures.name = s.shards.map ShardRow.name
  errors : f.shards.map ShardFigures.errors = s.shards.map ShardRow.categories
  distinct : (f.shards.map ShardFigures.name).Nodup

/-- **No key of a snapshot is lost in a report.** -/
theorem keeps_figuresOf {s : Snapshot} (hordered : InOrder s) (hbalanced : Balanced s) :
    (figuresOf s).Keeps s := by
  have hnames : (s.shards.map shardFiguresOf).map ShardFigures.name =
      s.shards.map ShardRow.name := by
    rw [List.map_map]
    rfl
  have herrors : (s.shards.map shardFiguresOf).map ShardFigures.errors =
      s.shards.map ShardRow.categories := by
    rw [List.map_map]
    rfl
  have hrows : (s.shards.map ShardRow.name).Pairwise (· < ·) :=
    List.pairwise_map.mpr hordered.rows
  have hdistinct : (s.shards.map ShardRow.name).Nodup := by
    refine hrows.imp fun {a b} hlt he => ?_
    exact String.lt_irrefl b (he ▸ hlt)
  refine ⟨rfl, rfl, rfl, ?_, ?_, hnames, herrors, hnames ▸ hdistinct⟩
  · rw [outcomes_figuresOf, outcomes_eq]
    rfl
  · intro kv hkv
    rw [outcomes_figuresOf]
    exact find?_outcomes_of_mem hordered.categories hbalanced hkv

end Report

/-! ## What a summary prints -/

namespace Report

open Printed

/-- The lines of the totals.  The rate of failures, the throughput and the length of the run are
given; a rate is yellow above one percent and red above five. -/
def Figures.totals (color : Bool) (f : Figures) (rate throughput seconds : Float) : List String :=
  [metricText "iteration_duration" (tinted color (if f.latencies.p99 < 1000 then "32" else "33")
      s!"p50={f.latencies.p50}ms  p95={f.latencies.p95}ms  p99={f.latencies.p99}ms"),
    metricText "iteration_duration_range"
      s!"min={f.latencies.least}ms  max={f.latencies.greatest}ms",
    metricText "iterations" (toString f.total),
    metricText "checks_passed" (tinted color "32" (toString f.passed)),
    metricText "checks_failed" (alarmed color f.failed),
    metricText "failure_rate" (tinted color
      (if rate > 5 then "31" else if rate > 1 then "33" else "32") s!"{Decimal.fixed 1 rate}%"),
    metricText "throughput" (tinted color "32" s!"{Decimal.fixed 1 throughput} it/s"),
    metricText "elapsed" s!"{Decimal.fixed 1 seconds}s"]

/-- The section of the outcomes: what passed, and each category of failures. -/
def Figures.outcomeTexts (color : Bool) (f : Figures) : List String :=
  ["", "  outcomes:",
    metricText "    ok" (tinted color "32" (toString (f.outcomes.count "ok"))),
    metricText "    connection" (alarmed color (f.outcomes.count "connection")),
    metricText "    timeout" (alarmed color (f.outcomes.count "timeout")),
    metricText "    protocol" (alarmed color (f.outcomes.count "protocol")),
    metricText "    verification" (alarmed color (f.outcomes.count "verification"))]

/-- The row of a shard. -/
def ShardFigures.text (color : Bool) (r : ShardFigures) : String :=
  rowText r.name (toString r.total) (toString r.failed) (rateText color r.total r.failed)
    s!"{r.p50}ms" s!"{r.p99}ms"

/-- The table of the shards, if there are any: the titles of its columns, a rule, and the rows. -/
def Figures.shardTexts (color : Bool) (f : Figures) : List String :=
  if f.shards.length = 0 then []
  else "" :: "  per-shard:" :: "" ::
    "  shard                       iters   failed    err%     p50     p99" ::
    ("  " ++ repeated 66 '─') :: f.shards.map (ShardFigures.text color)

/-- The lines of a summary, as the numbers of a report have them; the rejections are given in an
order. -/
def Figures.texts (color : Bool) (f : Figures) (rate throughput seconds : Float)
    (rejections : List (String × Nat)) : List String :=
  f.totals color rate throughput seconds ++ f.outcomeTexts color ++
    rejectionTexts color rejections ++ operationTexts f.operations f.operationErrors ++
    f.shardTexts color

theorem render_totals (color : Bool) (s : Snapshot) (elapsed : Duration) :
    (Summary.totals s elapsed).map (Summary.Line.render color) =
      (figuresOf s).totals color (s.errorRate * 100) (s.throughput elapsed) elapsed.seconds := by
  have hlatency : (Summary.latency s).render color =
      tinted color (if s.p99 < 1000 then "32" else "33")
        s!"p50={s.p50}ms  p95={s.p95}ms  p99={s.p99}ms" := by
    rw [Summary.latency, render_shaded _ _ (by simp +decide), apply_ite code]
    rfl
  have hrate : (Summary.failureRate s).render color =
      tinted color (if s.errorRate * 100 > 5 then "31" else if s.errorRate * 100 > 1 then "33"
        else "32") s!"{Decimal.fixed 1 (s.errorRate * 100)}%" := by
    rw [Summary.failureRate, render_shaded _ _ (by simp +decide [Summary.percent]),
      apply_ite code, apply_ite code]
    rfl
  have hpassed : (Painted.shaded .green (toString s.passed)).render color =
      tinted color "32" (toString s.passed) :=
    render_shaded color .green (Colors.quiet_repr s.passed)
  have hthroughput (x : Float) : (Painted.shaded .green s!"{Decimal.fixed 1 x} it/s").render color =
      tinted color "32" s!"{Decimal.fixed 1 x} it/s" :=
    render_shaded color .green (by simp +decide)
  simp only [Summary.totals, List.map_cons, List.map_nil, render_metric, hlatency, hrate, hpassed,
    hthroughput, render_alarm]
  rfl

theorem render_outcomes (color : Bool) (s : Snapshot) :
    (Summary.outcomes s).map (Summary.Line.render color) = (figuresOf s).outcomeTexts color := by
  have hpassed : (Painted.shaded .green (toString s.passed)).render color =
      tinted color "32" (toString s.passed) :=
    render_shaded color .green (Colors.quiet_repr s.passed)
  simp only [Figures.outcomeTexts, outcomes_figuresOf, outcomes_eq]
  simp only [Summary.outcomes, Category.all, List.map_cons, List.map_nil, render_metric, hpassed,
    render_alarm]
  rfl

theorem render_shards (color : Bool) (s : Snapshot) :
    (Summary.shards s).map (Summary.Line.render color) = (figuresOf s).shardTexts color := by
  have htitles : Summary.cells "shard" "iters" "failed" "err%" "p50" "p99" =
      "  shard                       iters   failed    err%     p50     p99" := by
    decide +kernel
  have hrows : (s.shards.map Summary.Line.shard).map (Summary.Line.render color) =
      (s.shards.map shardFiguresOf).map (ShardFigures.text color) := by
    rw [List.map_map, List.map_map]
    exact List.map_congr_left fun r _ => render_shard color r
  have hlength : (figuresOf s).shards.length = s.shards.length := List.length_map _
  unfold Summary.shards Figures.shardTexts
  rw [hlength, htitles]
  by_cases hempty : s.shards.length = 0
  · rw [if_pos hempty, if_pos (List.isEmpty_iff_length_eq_zero.mpr hempty)]
    rfl
  · rw [if_neg hempty, if_neg fun h => hempty (List.isEmpty_iff_length_eq_zero.mp h)]
    simp only [List.map_cons, hrows]
    rfl

/-- **A summary prints the numbers of the report.** -/
theorem render_eq (color : Bool) (c : Config) {s : Snapshot} (h : Keyed.Ordered s.operations)
    (elapsed : Duration) :
    Summary.render color c s elapsed =
      "\n".intercalate ((Summary.header c).map (Summary.Line.render color) ++
        (figuresOf s).texts color (s.errorRate * 100) (s.throughput elapsed) elapsed.seconds
          (Summary.ranked s.rejections)) := by
  have hoperations : Keyed.ofPairs s.operations = s.operations := Keyed.ofPairs_of_ordered h
  have hlisted := render_operations color (s := s) (congrArg List.length hoperations)
  rw [hoperations] at hlisted
  simp only [Summary.render, Summary.lines, List.map_append, render_totals, render_outcomes,
    render_rejections, render_shards, hlisted, Figures.texts, List.append_assoc]
  rfl

/-- **A report and a summary of a run partition its iterations and agree**: what is read off the
report adds up and has all keys, and below its header the summary is nothing but these numbers,
with those of the rejections in some order. -/
theorem agrees_with_summary (timestamp : String) (c : Config) (interval : Nat)
    (samples : List Sample) (elapsed : Duration) :
    let s := ((Recorder.new interval).recordAll samples).snapshot
    ∃ f, figures? (toJson timestamp c s elapsed) = some f ∧ f.Partition ∧ f.Keeps s ∧
      ∃ rejections, rejections.Perm f.rejections ∧
        ∀ color, Summary.render color c s elapsed =
          "\n".intercalate ((Summary.header c).map (Summary.Line.render color) ++
            f.texts color (s.errorRate * 100) (s.throughput elapsed) elapsed.seconds
              rejections) := by
  intro s
  have hordered := inOrder_snapshot interval samples
  have hbalanced := balanced_snapshot interval samples
  refine ⟨figuresOf s, ?_, ?_, ?_, Summary.ranked s.rejections, List.mergeSort_perm _ _, ?_⟩
  · exact figures?_toJson timestamp c hordered elapsed
  · exact partition_figuresOf hbalanced
  · exact keeps_figuresOf hordered hbalanced
  · exact fun color => render_eq color c hordered.operations elapsed

end Report
end ShardLoad
