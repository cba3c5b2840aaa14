import ShardLoad.Proofs.Result.AnyOrder
import ShardLoad.Proofs.Result.Figures

/-!
# The order in which entries are written

A snapshot is written the same for all enumerations of its maps because each text has an order of
its own.  In a summary the most frequent rejections come first, and equally frequent ones by their
names; operations come by their names.  The status line names the most frequent category, and of
several the first by name.  In a report all names come in increasing order, those of the shards
too, and of several rows with one name the last is kept.

All this is said of the texts: of the summary and of the status line as they are printed, and of a
report as it is read back.

* `Keyed.mem_ofPairs_iff`: which of several entries with one key is kept.
* `Report.Lists`, `Report.Enters`, `Report.Arranged`: the order in a report that was read.
* `Snapshot.Arranged`: the order in all three texts.
* `Snapshot.Alike.same_texts`: snapshots that are alike are written alike, in this order.
-/

namespace ShardLoad

open Keyed Printed

/-! ## Entries that are kept -/

namespace Keyed

variable {α : Type} {l : Keyed α}

/-- Of an ordered list a new entry leaves those with other keys. -/
theorem mem_insert_iff (h : Ordered l) {key : String} {v : α} {kv : String × α} :
    kv ∈ insert key v l ↔ kv = (key, v) ∨ kv ∈ l ∧ kv.1 ≠ key := by
  obtain ⟨k, w⟩ := kv
  rw [← find?_eq_some_iff (ordered_insert key v h).distinct, ← find?_eq_some_iff h.distinct]
  by_cases hk : k = key
  · subst hk
    rw [find?_insert_self k v h, Option.some.injEq, Prod.mk.injEq]
    constructor
    · exact fun hv => Or.inl ⟨rfl, hv.symm⟩
    · rintro (⟨-, hw⟩ | ⟨-, hne⟩)
      · exact hw.symm
      · exact absurd rfl hne
  · rw [find?_insert_of_ne hk]
    constructor
    · exact fun hfind => Or.inr ⟨hfind, hk⟩
    · rintro (heq | ⟨hfind, -⟩)
      · exact absurd (Prod.mk.inj heq).1 hk
      · exact hfind

/-- A list that is built from pairs has the last pair of each key. -/
theorem mem_ofPairs_iff {pairs : List (String × α)} {kv : String × α} :
    kv ∈ ofPairs pairs ↔
      ∃ before after, pairs = before ++ kv :: after ∧ ∀ other ∈ after, other.1 ≠ kv.1 := by
  induction pairs using List.reverseRecOn with
  | nil =>
    refine iff_of_false List.not_mem_nil ?_
    rintro ⟨before, after, heq, -⟩
    exact absurd heq (by simp)
  | append_singleton pairs last ih =>
    have hstep : ofPairs (pairs ++ [last]) = insert last.1 last.2 (ofPairs pairs) := by
      rw [ofPairs, List.foldl_append]
      rfl
    rw [hstep, mem_insert_iff (ordered_ofPairs pairs), ih]
    constructor
    · rintro (rfl | ⟨⟨before, after, rfl, hafter⟩, hne⟩)
      · exact ⟨pairs, [], rfl, by simp⟩
      · refine ⟨before, after ++ [last], by simp, ?_⟩
        rw [List.forall_mem_append, List.forall_mem_singleton]
        exact ⟨hafter, hne.symm⟩
    · rintro ⟨before, after, heq, hafter⟩
      rcases List.eq_nil_or_concat after with rfl | ⟨front, x, rfl⟩
      · obtain ⟨-, hlast⟩ := List.append_inj' heq rfl
        exact Or.inl (List.singleton_inj.mp hlast).symm
      · rw [List.concat_eq_append] at heq hafter
        rw [← List.cons_append, ← List.append_assoc] at heq
        obtain ⟨hpairs, hlast⟩ := List.append_inj' heq rfl
        obtain rfl := List.singleton_inj.mp hlast
        rw [List.forall_mem_append, List.forall_mem_singleton] at hafter
        exact Or.inr ⟨⟨before, front, hpairs, hafter.1⟩, hafter.2.symm⟩

end Keyed

/-! ## The order in a report -/

variable {s s' : Snapshot}

namespace Report

/-- Counts stand in a report, at a path of names, in the order of their own names. -/
def Lists (report : Json) (path : List String) (c : Counts) : Prop :=
  ∃ entries : Counts, entries.Perm c ∧ Ordered entries ∧
    report.at? path = some (.object (entries.map fun e => (e.1, .nat e.2)))

/-- A row stands in a report under its name, with its categories in the order of their names. -/
def Enters (r : ShardRow) (member : String × Json) : Prop :=
  ∃ errors : Counts, errors.Perm r.categories ∧ Ordered errors ∧
    member = (r.name, .object [("total_iterations", .nat r.total),
      ("success_count", .nat r.passed), ("error_count", .nat r.failed), ("p50_ms", .nat r.p50),
      ("p99_ms", .nat r.p99), ("errors", .object (errors.map fun e => (e.1, .nat e.2)))])

/-- What is counted by name stands in a report in the order of the names. -/
structure Arranged (s : Snapshot) (report : Json) : Prop where
  operations : Lists report ["metrics", "operation_counts"] s.operations
  operationErrors : Lists report ["metrics", "operation_errors"] s.operationErrors
  outcomes : report.at? ["outcomes"] = some (.object
    [("connection", .nat (s.categories.count "connection")), ("ok", .nat s.passed),
      ("protocol", .nat (s.categories.count "protocol")),
      ("timeout", .nat (s.categories.count "timeout")),
      ("verification", .nat (s.categories.count "verification"))])
  rejections : Lists report ["rejections"] s.rejections
  /-- Of several rows with one name the last counts. -/
  shards : ∃ rows members, report.at? ["per_shard"] = some (.object members) ∧
    List.Forall₂ Enters rows members ∧ Ordered members ∧
    ∀ r, r ∈ rows ↔ ∃ before after, s.shards = before ++ r :: after ∧
      ∀ other ∈ after, other.name ≠ r.name

/-- Counts are read as they are written. -/
theorem asRead_countsJson (c : Counts) : (countsJson c).asRead = countsJson c := by
  rw [countsJson, Json.asRead, Json.asReadMembers_eq_map, List.map_map]
  rfl

theorem asRead_shardsJson (rows : List ShardRow) :
    (shardsJson rows).asRead = shardsJson rows := by
  have hrow (r : ShardRow) : (shardJson r).asRead = shardJson r := by
    simp only [shardJson, Json.asRead, Json.asReadMembers, asRead_countsJson]
    rfl
  rw [shardsJson_eq, Json.asRead, Json.asReadMembers_eq_map, List.map_map]
  exact congrArg Json.object (List.map_congr_left fun kv _ => by rw [Function.comp, hrow])

/-- A map that has each key once is listed. -/
theorem lists_countsJson {report : Json} {path : List String} {c : Counts}
    (h : (c.map Prod.fst).Nodup) (hat : report.at? path = some (countsJson c).asRead) :
    Lists report path c :=
  ⟨ofPairs c, ofPairs_perm h, ordered_ofPairs c, by rw [hat, asRead_countsJson, countsJson]⟩

/-- The members of the object of the shards are the last rows of their names. -/
theorem exists_shardsJson {rows : List ShardRow}
    (h : ∀ r ∈ rows, (r.categories.map Prod.fst).Nodup) :
    ∃ kept members, shardsJson rows = .object members ∧ List.Forall₂ Enters kept members ∧
      Ordered members ∧ ∀ r, r ∈ kept ↔ ∃ before after, rows = before ++ r :: after ∧
        ∀ other ∈ after, other.name ≠ r.name := by
  let entries := ofPairs (rows.map fun r => (r.name, r))
  -- every entry is a row under its own name
  have hentry : ∀ kv ∈ entries, kv.2 ∈ rows ∧ kv.1 = kv.2.name := by
    intro kv hkv
    obtain ⟨before, after, heq, -⟩ := mem_ofPairs_iff.mp hkv
    have hmem : kv ∈ rows.map fun r => (r.name, r) := by simp [heq]
    obtain ⟨r, hr, rfl⟩ := List.mem_map.mp hmem
    exact ⟨hr, rfl⟩
  refine ⟨entries.map Prod.snd, _, shardsJson_eq rows, ?_, ?_, fun r => ?_⟩
  · rw [List.forall₂_map_left_iff, List.forall₂_map_right_iff, List.forall₂_same]
    intro kv hkv
    obtain ⟨hr, hname⟩ := hentry kv hkv
    refine ⟨ofPairs kv.2.categories, ofPairs_perm (h kv.2 hr), ordered_ofPairs _, ?_⟩
    rw [hname]
    rfl
  · exact List.pairwise_map.mpr (ordered_ofPairs _)
  · have hmem : r ∈ entries.map Prod.snd ↔ (r.name, r) ∈ entries := by
      constructor
      · rintro hr
        obtain ⟨⟨name, row⟩, hkv, rfl⟩ := List.mem_map.mp hr
        obtain rfl : name = row.name := (hentry _ hkv).2
        exact hkv
      · exact fun hr => List.mem_map.mpr ⟨_, hr, rfl⟩
    rw [hmem, mem_ofPairs_iff]
    constructor
    · rintro ⟨before, after, heq, hafter⟩
      obtain ⟨front, back, rfl, rfl, hback⟩ := List.map_eq_append_iff.mp heq
      obtain ⟨row, rest, rfl, hrow, rfl⟩ := List.map_eq_cons_iff.mp hback
      obtain rfl : row = r := (Prod.mk.inj hrow).2
      exact ⟨front, rest, rfl, fun other ho => hafter _ (List.mem_map_of_mem ho)⟩
    · rintro ⟨before, after, rfl, hafter⟩
      refine ⟨before.map fun r => (r.name, r), after.map fun r => (r.name, r), by simp, ?_⟩
      exact List.forall_mem_map.mpr hafter

/-- A report of maps that have each key once is arranged as it is read. -/
theorem arranged_asRead (h : s.Alike s') (timestamp : String) (c : Config) (elapsed : Duration) :
    Arranged s (toJson timestamp c s elapsed).asRead := by
  have hrows := (List.forall₂_and_left s.shards s'.shards).mp
    (h.shards.imp fun r _ hr => ⟨hr.categories.distinct, hr⟩)
  obtain ⟨rows, members, hmembers, hkept⟩ := exists_shardsJson hrows.1
  have houtcomes : (toJson timestamp c s elapsed).asRead.at? ["outcomes"] =
      some (countsJson (outcomes s)).asRead := rfl
  have hordered : Ordered (outcomes s) := ordered_ofPairs _
  have hshards : (toJson timestamp c s elapsed).asRead.at? ["per_shard"] =
      some (shardsJson s.shards).asRead := rfl
  constructor
  · exact lists_countsJson h.operations.distinct rfl
  · exact lists_countsJson h.operationErrors.distinct rfl
  · rw [houtcomes, asRead_countsJson, countsJson, ofPairs_of_ordered hordered, outcomes_eq]
    rfl
  · exact lists_countsJson h.rejections.distinct rfl
  · exact ⟨rows, members, by rw [hshards, asRead_shardsJson, hmembers], hkept⟩

end Report

/-! ## The order in all texts -/

namespace Snapshot

/-- In which order the texts that are written of a snapshot have its entries. -/
structure Arranged (s : Snapshot) : Prop where
  /-- Rejections come with the most frequent first, and equally frequent ones by their names;
  operations come by their names. -/
  summary : ∃ rejections operations : Counts, rejections.Perm s.rejections ∧
    rejections.Pairwise (fun a b => b.2 < a.2 ∨ a.2 = b.2 ∧ a.1 < b.1) ∧
    operations.Perm s.operations ∧ Ordered operations ∧
    ∀ color c elapsed, Summary.render color c s elapsed = "\n".intercalate
      ((Summary.header c ++ Summary.totals s elapsed ++ Summary.outcomes s).map
          (Summary.Line.render color) ++
        rejectionTexts color rejections ++ operationTexts operations s.operationErrors ++
        (Summary.shards s).map (Summary.Line.render color))
  /-- The status line names the most frequent category, of several the first by name. -/
  status : s.categories ≠ [] → ∃ name n, (name, n) ∈ s.categories ∧
    (∀ e ∈ s.categories, e.2 < n ∨ e.2 = n ∧ name ≤ e.1) ∧
    ∀ color elapsed active users, StatusLine.render color s elapsed active users =
      statusText color s elapsed active users name n
  /-- What is read of the text of a report has its members by their names. -/
  report : ∀ timestamp c elapsed, ∃ report,
    Json.parse? (Report.render timestamp c s elapsed) = some report ∧ Report.Arranged s report

/-- Maps that have each key once are written in the order of the keys, and rejections in the order
of their frequency. -/
theorem Alike.arranged (h : s.Alike s') : s.Arranged where
  summary := by
    have hoperations := ofPairs_perm h.operations.distinct
    refine ⟨Summary.ranked s.rejections, ofPairs s.operations, List.mergeSort_perm _ _,
      Summary.pairwise_ranked_of_distinct h.rejections.distinct, hoperations,
      ordered_ofPairs _, fun color c elapsed => ?_⟩
    simp only [Summary.render, Summary.lines, List.map_append, render_rejections,
      render_operations color hoperations.length_eq]
  status hsome := by
    obtain ⟨name, n, hleads⟩ := StatusLine.exists_dominant? hsome
    obtain ⟨hmem, hfirst⟩ := StatusLine.dominant?_eq_some_iff.mp hleads
    refine ⟨name, n, hmem, fun e he => ?_, fun color => render_statusLine color hleads⟩
    exact (Summary.ranksBefore_iff.mp (hfirst e he)).imp id (And.imp_left Eq.symm)
  report timestamp c elapsed := ⟨_, Report.parse?_render timestamp c s elapsed,
    Report.arranged_asRead h timestamp c elapsed⟩

/-- **The order of entries does not show.**  Of two snapshots that differ at most in the order of
the entries of their maps the same summary, the same status line and the same report are written:
rejections by their frequency and then by name, operations and members of the report by name, and
in the status line the most frequent category, of several the first by name. -/
theorem Alike.same_texts (h : s.Alike s') :
    (∀ color c elapsed, Summary.render color c s elapsed = Summary.render color c s' elapsed) ∧
    (∀ color elapsed active users, StatusLine.render color s elapsed active users =
      StatusLine.render color s' elapsed active users) ∧
    (∀ timestamp c elapsed, Report.render timestamp c s elapsed =
      Report.render timestamp c s' elapsed) ∧
    s.Arranged := by
  refine ⟨Summary.render_eq_of_alike h, StatusLine.render_eq_of_alike h, ?_, h.arranged⟩
  intro timestamp c elapsed
  rw [Report.render, Report.toJson_eq_of_alike h, Report.render]

/-- Two enumerations with ties: of rejections, of operations, of categories, and in a row.  Of the
three categories that came once each the status line names `connection`. -/
theorem same_texts_of_ties :
    let s : Snapshot := { empty with
      failed := 3
      total := 5
      errorRate := 3 / 5
      operations := [("transaction", 3), ("root-read", 2)]
      operationErrors := [("transaction", 2), ("root-read", 1)]
      categories := [("verification", 1), ("timeout", 1), ("connection", 1)]
      rejections := [("Internal", 1), ("Aborted", 1)]
      shards := [⟨"localhost:8000", 0, 0, 5, 2, 3, [("timeout", 1), ("connection", 1)]⟩] }
    let s' : Snapshot := { s with
      operations := [("root-read", 2), ("transaction", 3)]
      operationErrors := [("root-read", 1), ("transaction", 2)]
      categories := [("connection", 1), ("verification", 1), ("timeout", 1)]
      rejections := [("Aborted", 1), ("Internal", 1)]
      shards := [⟨"localhost:8000", 0, 0, 5, 2, 3, [("connection", 1), ("timeout", 1)]⟩] }
    s.Alike s' ∧
    (∀ color c elapsed, Summary.render color c s elapsed = Summary.render color c s' elapsed) ∧
    (∀ color elapsed active users, StatusLine.render color s elapsed active users =
      StatusLine.render color s' elapsed active users) ∧
    (∀ timestamp c elapsed, Report.render timestamp c s elapsed =
      Report.render timestamp c s' elapsed) ∧
    s.Arranged ∧
    ∀ color elapsed active users, StatusLine.render color s elapsed active users =
      statusText color s elapsed active users "connection" 1 := by
  intro s s'
  have halike : s.Alike s' := {
    operations := ⟨by decide, by decide⟩
    operationErrors := ⟨by decide, by decide⟩
    categories := ⟨by decide, by decide⟩
    rejections := ⟨by decide, by decide⟩
    shards := .cons ⟨⟨by decide, by decide⟩, rfl⟩ .nil
    rest := rfl }
  obtain ⟨hsummary, hstatus, hreport, harranged⟩ := Alike.same_texts halike
  refine ⟨halike, hsummary, hstatus, hreport, harranged, fun color elapsed active users => ?_⟩
  obtain ⟨name, n, hmem, hfirst, hline⟩ := harranged.status (by decide)
  -- the leader is ranked before `connection`, so it is `connection`
  have hleader : (name, n) = ("connection", 1) := by
    have hconnection := hfirst ("connection", 1) (by decide)
    simp only [s, List.mem_cons, Prod.mk.injEq, List.not_mem_nil, or_false] at hmem
    rcases hmem with ⟨rfl, rfl⟩ | ⟨rfl, rfl⟩ | ⟨rfl, rfl⟩
    · exact absurd hconnection (by decide)
    · exact absurd hconnection (by decide)
    · rfl
  obtain ⟨rfl, rfl⟩ := Prod.mk.inj hleader
  exact hline color elapsed active users

end Snapshot
end ShardLoad
