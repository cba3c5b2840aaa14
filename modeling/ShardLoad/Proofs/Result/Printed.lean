import ShardLoad.Proofs.Result.Colors
import ShardLoad.Result.StatusLine

/-!
# What is printed of counts

The lines of a summary and the status line are written out here character by character: how far a
name is filled with dots, which blanks stand in front of a number, and between which sequences a
text in color stands.  Numbers have no escape character in them, so nothing is turned on again
inside of one; the name of a category is any text.

A rate in color is wider than its column.  It is filled up as it is written, with its sequences, so
in color no blanks are in front of it.

* `tinted`, `alarmed`: a text and a count in color.
* `metricText`, `rowText`: a metric and a row of the table of shards.
* `rejectionTexts`, `operationTexts`: the sections that list counts by name.
* `statusText`: the status line.
* `render_metric`, `render_shard`, `render_statusLine`: they are printed like this.
-/

namespace ShardLoad.Printed

open Colors Summary

/-! ## Texts -/

/-- A character so many times. -/
def repeated (n : Nat) (c : Char) : String := String.ofList (List.replicate n c)

/-- A text at the right of a column. -/
def rightAligned (width : Nat) (text : String) : String :=
  repeated (width - text.length) ' ' ++ text

/-- On a terminal with color, a text between the sequence with a code, which turns a color on, and
the one that turns it off: red is 31, green 32, yellow 33. -/
def tinted (color : Bool) (code text : String) : String :=
  if color then "\x1b[" ++ code ++ "m" ++ text ++ "\x1b[0m" else text

/-- A count, in red unless it is zero. -/
def alarmed (color : Bool) (n : Nat) : String :=
  if 0 < n then tinted color "31" (toString n) else "0"

/-- A name filled up to forty characters with dots, and what is said. -/
def metricText (name value : String) : String :=
  "  " ++ name ++ repeated (40 - name.length) '.' ++ ": " ++ value

/-- The columns of the table of shards, with a blank between each two of them. -/
def rowText (name total failed rate p50 p99 : String) : String :=
  "  " ++ " ".intercalate [name ++ repeated (24 - name.length) ' ', rightAligned 8 total,
    rightAligned 8 failed, rightAligned 7 rate, rightAligned 7 p50, rightAligned 7 p99]

/-- How many iterations of a shard failed, in percent. -/
def shardPercent (total failed : Nat) : Float :=
  if 0 < total then Float.ofNat failed / Float.ofNat total * 100 else 0

/-- The rate of a shard, in red if it is above five percent. -/
def rateText (color : Bool) (total failed : Nat) : String :=
  tinted color (if shardPercent total failed > 5 then "31" else "32")
    (Decimal.fixed 1 (shardPercent total failed) ++ "%")

/-- The section of the rejections, if there are any: each code with its count in red. -/
def rejectionTexts (color : Bool) (entries : List (String × Nat)) : List String :=
  if entries.length = 0 then []
  else "" :: "  rejections by status:" ::
    entries.map fun e => metricText ("    " ++ e.1) (tinted color "31" (toString e.2))

/-- The section of the operations, if there are several: each with its count and how many of these
failed. -/
def operationTexts (operations : List (String × Nat)) (errors : Counts) : List String :=
  if operations.length ≤ 1 then []
  else "" :: "  operations:" ::
    operations.map fun e =>
      metricText ("    " ++ e.1) (toString e.2 ++ " (" ++ toString (errors.count e.1) ++ " failed)")

/-- How many iterations of a run failed, and a category with its count. -/
def failureText (s : Snapshot) (category : String) (n : Nat) : String :=
  s!"{s.failed} ({Decimal.fixed 1 (s.errorRate * 100)}%, {category} {n})"

/-- The status line with a category.  The failures are in red, if there are any, and red is turned
on again wherever the name of the category turns it off. -/
def statusText (color : Bool) (s : Snapshot) (elapsed : Duration) (active users : UInt32)
    (category : String) (n : Nat) : String :=
  let failures := failureText s category n
  "  |  ".intercalate ["  vus: " ++ tinted color "32" s!"{active}/{users}",
    "it/s: " ++ tinted color "32" (Decimal.fixed 1 (s.throughput elapsed)),
    "p95: " ++ tinted color (if 1000 < s.p95 then "33" else "32") s!"{s.p95}ms",
    "failed: " ++ if 0 < s.failed then
        tinted color "31"
          (if color then String.ofList (resume Shade.red.start failures.toList) else failures)
      else failures,
    s!"elapsed: {elapsed.secs}s"]

/-! ## Lines -/

/-- The code of a color. -/
def code : Shade → String
  | .bold => "1"
  | .red => "31"
  | .green => "32"
  | .yellow => "33"

/-- A text in color is written between two sequences, and its color is turned on again in it. -/
theorem render_shaded_eq (color : Bool) (shade : Shade) (text : String) :
    (Painted.shaded shade text).render color = tinted color (code shade)
      (if color then String.ofList (resume shade.start text.toList) else text) := by
  cases color with
  | false => rfl
  | true =>
    have hstart : "\x1b[" ++ code shade ++ "m" = String.ofList shade.start := by
      cases shade <;> rfl
    have hreset : "\x1b[0m" = String.ofList reset := rfl
    simp only [tinted, Painted.shaded, Painted.render, if_true, hstart, hreset,
      String.ofList_append]

/-- A text without escape characters is written as it is. -/
theorem render_shaded (color : Bool) (shade : Shade) {text : String} (h : Quiet text) :
    (Painted.shaded shade text).render color = tinted color (code shade) text := by
  rw [render_shaded_eq, resume_of_quiet _ h, String.ofList_toList, ite_self]

theorem render_alarm (color : Bool) (n : Nat) :
    (Painted.alarm n).render color = alarmed color n := by
  unfold Painted.alarm alarmed
  split
  · exact render_shaded color .red (quiet_repr n)
  · rename_i hzero
    obtain rfl : n = 0 := by omega
    rfl

theorem padLeft_eq (fill : Char) (width : Nat) (text : String) :
    padLeft fill width text = repeated (width - text.length) fill ++ text := by
  rw [← String.toList_inj, padLeft, repeated, String.toList_append, String.toList_ofList,
    String.toList_ofList]

theorem padRight_eq (fill : Char) (width : Nat) (text : String) :
    padRight fill width text = text ++ repeated (width - text.length) fill := by
  rw [← String.toList_inj, padRight, repeated, String.toList_append, String.toList_ofList,
    String.toList_ofList]

theorem render_metric (color : Bool) (name : String) (value : Painted) :
    (Line.metric name value).render color = metricText name (value.render color) := by
  simp only [Line.render, padRight_eq, nameWidth, metricText, String.append_assoc]

theorem cells_eq (name total failed rate p50 p99 : String) :
    cells name total failed rate p50 p99 = rowText name total failed rate p50 p99 := by
  simp only [cells, rowText, padLeft_eq, padRight_eq, rightAligned]

/-- The rate of a shard, as it is written. -/
theorem render_shardRate (color : Bool) (r : ShardRow) :
    (shardRate r).render color = rateText color r.total r.failed := by
  have hrate : shardRate r = .shaded (if shardPercent r.total r.failed > 5 then .red else .green)
      (percent (shardPercent r.total r.failed)) := rfl
  have hquiet : Quiet (percent (shardPercent r.total r.failed)) :=
    quiet_append.mpr ⟨quiet_fixed 1 _, by decide⟩
  rw [hrate, render_shaded color _ hquiet, apply_ite code, rateText]
  rfl

theorem render_shard (color : Bool) (r : ShardRow) :
    (Line.shard r).render color =
      rowText r.name (toString r.total) (toString r.failed) (rateText color r.total r.failed)
        (toString r.p50 ++ "ms") (toString r.p99 ++ "ms") := by
  rw [Line.render, cells_eq, render_shardRate]
  rfl

/-! ## Sections -/

/-- The section of the rejections has the entries of the ranking. -/
theorem render_rejections (color : Bool) (s : Snapshot) :
    (rejections s).map (Line.render color) = rejectionTexts color (ranked s.rejections) := by
  have hlength : (ranked s.rejections).length = s.rejections.length :=
    (List.mergeSort_perm _ _).length_eq
  have hempty : s.rejections.isEmpty = true ↔ s.rejections.length = 0 :=
    List.isEmpty_iff_length_eq_zero
  unfold rejections rejectionTexts
  simp only [hlength, hempty]
  split
  · rfl
  · rw [List.map_cons, List.map_cons, List.map_map]
    refine congrArg (fun texts => "" :: "  rejections by status:" :: texts) ?_
    refine List.map_congr_left fun e _ => ?_
    exact (render_metric color _ _).trans
      (congrArg _ (render_shaded color .red (quiet_repr e.2)))

/-- The section of the operations has the entries of the keyed list. -/
theorem render_operations (color : Bool) {s : Snapshot}
    (h : (Keyed.ofPairs s.operations).length = s.operations.length) :
    (operations s).map (Line.render color) =
      operationTexts (Keyed.ofPairs s.operations) s.operationErrors := by
  unfold operations operationTexts
  rw [h]
  split
  · rfl
  · rw [List.map_cons, List.map_cons, List.map_map]
    refine congrArg (fun texts => "" :: "  operations:" :: texts) ?_
    exact List.map_congr_left fun e _ => render_metric color _ _

/-! ## The status line -/

/-- The status line names the category that leads. -/
theorem render_statusLine (color : Bool) {s : Snapshot} {category : String} {n : Nat}
    (h : StatusLine.dominant? s.categories = some (category, n)) (elapsed : Duration)
    (active users : UInt32) :
    StatusLine.render color s elapsed active users =
      statusText color s elapsed active users category n := by
  have htext : StatusLine.failures s = failureText s category n := by
    rw [StatusLine.failures, h, failureText]
  have hfailed : (Painted.mk (if 0 < s.failed then some .red else none)
      (failureText s category n)).render color = if 0 < s.failed then tinted color "31"
        (if color then String.ofList (resume Shade.red.start (failureText s category n).toList)
        else failureText s category n) else failureText s category n := by
    split
    · exact render_shaded_eq color .red _
    · rfl
  have hp95 : Quiet s!"{s.p95}ms" := quiet_append.mpr ⟨quiet_repr s.p95, by decide⟩
  have hatWork : Quiet s!"{active}/{users}" := quiet_append.mpr
    ⟨quiet_append.mpr ⟨quiet_uint32 active, by decide⟩, quiet_uint32 users⟩
  have hpace := quiet_fixed 1 (s.throughput elapsed)
  unfold StatusLine.render statusText
  dsimp only
  rw [htext, hfailed, render_shaded color _ hp95, render_shaded color _ hatWork,
    render_shaded color _ hpace, apply_ite code]
  rfl

end ShardLoad.Printed
