import ShardLoad.Decimal.Layout
import ShardLoad.Result.Basic
import ShardLoad.Result.Paint

/-!
# The status line

While users are at work, one line says how the run is going: users at work, pace,
latency, failures with their most frequent category, and the time that has
passed.

* `StatusLine.dominant?`: the most frequent category.
* `StatusLine.render`: the line.
-/

namespace ShardLoad.StatusLine

/-- The one of two counts that is greater, and of equal ones the one whose name
comes first. -/
def leading (a b : String × Nat) : String × Nat :=
  if a.2 < b.2 || (a.2 == b.2 && b.1 < a.1) then b else a

/-- The most frequent category with its count. -/
def dominant? : Counts → Option (String × Nat)
  | [] => none
  | a :: rest => some (rest.foldl leading a)

/-- The failures: how many, the part of all iterations, the most frequent
category. -/
def failures (s : Snapshot) : String :=
  let rate := Decimal.fixed 1 (s.errorRate * 100)
  match dominant? s.categories with
  | some (category, n) => s!"{s.failed} ({rate}%, {category} {n})"
  | none => s!"{s.failed} ({rate}%)"

/-- The status line. -/
def render (color : Bool) (s : Snapshot) (elapsed : Duration) (active users : UInt32) : String :=
  let green := fun text => (Painted.shaded .green text).render color
  let shade := if 1000 < s.p95 then Shade.yellow else .green
  let p95 := (Painted.shaded shade s!"{s.p95}ms").render color
  let failed :=
    (Painted.mk (if 0 < s.failed then some .red else none) (failures s)).render color
  let atWork := green s!"{active}/{users}"
  let pace := green (Decimal.fixed 1 (s.throughput elapsed))
  "  |  ".intercalate [s!"  vus: {atWork}", s!"it/s: {pace}", s!"p95: {p95}",
    s!"failed: {failed}", s!"elapsed: {elapsed.secs}s"]

end ShardLoad.StatusLine
