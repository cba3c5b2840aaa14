import Mathlib.Algebra.Order.Ring.Nat
import ShardLoad.Proofs.Metrics.Outcomes

/-!
# The rows of shards

A recorder keeps its accounts twice, once for the run and once for each shard.  The tally of a
shard is what a recorder of its own would have counted for the run, had it been given only the
samples of the shard, in their order.  That is so after no sample at all, a sample of another
shard leaves both as they are, and a sample of the shard goes through both alike.

What a tally counts, as against what its histogram shows, adds up: a sample is counted once in
the tally of its shard and once for the run.  So if every sample has a shard, the tallies sum
to what is counted for the run.

* `Recorder.asTally`, `Recorder.tallyOf_recordAll`: the tally of a shard.
* `Recorder.isSome_find?_recordAll`: which shards have one.
* `Keyed.sum_update`, `Recorder.sum_recordAll`: sums over all shards.
* `Recorder.rows_project`: the rows of a snapshot.
-/

namespace ShardLoad

namespace Keyed

variable {α : Type}

/-- A measure of what stands at the keys, summed up. -/
def sum (f : α → Nat) (l : Keyed α) : Nat := (l.map fun kv => f kv.2).sum

/-- An update changes a sum by what it changes at its key. -/
theorem sum_update (f : α → Nat) (key : String) (change : Option α → α) {l : Keyed α}
    (h : Ordered l) :
    sum f (update key change l) + (find? key l).elim 0 f = sum f l + f (change (find? key l)) := by
  induction l with
  | nil => simp [sum, update, find?]
  | cons kv rest ih =>
    obtain ⟨k, v⟩ := kv
    obtain ⟨hk, hr⟩ := List.pairwise_cons.mp h
    by_cases hlt : key < k
    · have hnone : find? key ((k, v) :: rest) = none := by
        refine find?_eq_none_of_lt fun kv hkv => ?_
        rcases List.mem_cons.mp hkv with rfl | hm
        · exact hlt
        · exact String.lt_trans hlt (hk kv hm)
      rw [hnone]
      simp [sum, update, hlt, Nat.add_comm]
    · by_cases heq : key = k
      · subst heq
        simp only [sum, update, hlt, find?, if_true, if_false, List.map_cons, List.sum_cons,
          Option.elim_some]
        omega
      · have ih := ih hr
        simp only [sum] at ih
        simp only [sum, update, hlt, heq, find?, Ne.symm heq, if_false, List.map_cons,
          List.sum_cons]
        omega

end Keyed

/-- A key that is met counts one more. -/
theorem Counts.count_meet {c : Counts} (h : Keyed.Ordered c) (key? : Option String)
    (key : String) : (c.meet key?).count key = c.count key + if key? = some key then 1 else 0 := by
  cases key? with
  | none => rfl
  | some other =>
    by_cases he : other = key
    · subst he
      rw [if_pos rfl]
      exact count_bump_self other h
    · rw [if_neg fun hs => he (Option.some.inj hs)]
      exact count_bump_of_ne (Ne.symm he) c

/-- What a snapshot says of a run, as the row of a shard. -/
def Snapshot.asRow (name : String) (s : Snapshot) : ShardRow :=
  ⟨name, s.p50, s.p99, s.total, s.passed, s.failed, s.categories⟩

namespace Recorder

/-! ## The tally of one shard -/

/-- What a recorder counts for a run, as the tally of a shard. -/
def asTally (r : Recorder) : ShardTally := ⟨r.passes, r.passed, r.failed, r.categories⟩

/-- A sample goes through the tally of a shard as it goes through the recorder. -/
theorem asTally_record (r : Recorder) (x : Sample) :
    (r.record x).asTally = r.asTally.record r.interval x := by
  simp only [record, recordShard, recordOutcome, recordSeen, asTally, ShardTally.record]
  cases x.outcome <;> cases x.shard <;> rfl

theorem row_asTally (r : Recorder) (name : String) : r.asTally.row name = r.snapshot.asRow name :=
  rfl

/-- The samples of a shard. -/
def samplesOf (label : String) (samples : List Sample) : List Sample :=
  samples.filter fun x => x.shard = some label

theorem samplesOf_concat (label : String) (samples : List Sample) (x : Sample) :
    samplesOf label (samples ++ [x]) =
      samplesOf label samples ++ if x.shard = some label then [x] else [] := by
  unfold samplesOf
  rw [List.filter_append]
  congr 1
  by_cases hx : x.shard = some label <;> simp [hx]

/-- **The tally of a shard is what is counted of its own samples.** -/
theorem tallyOf_recordAll (interval : Nat) (samples : List Sample) (label : String) :
    ((new interval).recordAll samples).tallyOf label =
      ((new interval).recordAll (samplesOf label samples)).asTally := by
  induction samples using List.reverseRecOn with
  | nil => rfl
  | append_singleton samples x ih =>
    have hordered := ordered_recordAll (ordered_new interval) samples
    rw [recordAll_concat, tallyOf_record hordered, samplesOf_concat, ih, interval_recordAll]
    by_cases hx : x.shard = some label
    · rw [if_pos hx, if_pos hx, recordAll_concat, asTally_record, interval_recordAll]
    · rw [if_neg hx, if_neg hx, List.append_nil]

/-- A shard has a tally exactly if some sample is of it. -/
theorem isSome_find?_recordAll (interval : Nat) (samples : List Sample) (label : String) :
    (Keyed.find? label ((new interval).recordAll samples).shards).isSome =
      samples.any fun x => x.shard = some label := by
  induction samples using List.reverseRecOn with
  | nil => rfl
  | append_singleton samples x ih =>
    have hordered := ordered_recordAll (ordered_new interval) samples
    rw [recordAll_concat, shards_record, List.any_append, ← ih, List.any_cons, List.any_nil,
      Bool.or_false]
    cases hx : x.shard with
    | none => simp
    | some name =>
      by_cases hn : name = label
      · subst hn
        simp only [Keyed.find?_update_self _ _ hordered.shards, Option.isSome_some, decide_true,
          Bool.or_true]
      · simp only [Keyed.find?_update_of_ne (Ne.symm hn), Option.some.injEq, hn, decide_false,
          Bool.or_false]

/-- The row of a shard, if there is one, shows what is counted of its own samples. -/
theorem filter_rows_recordAll (interval : Nat) (samples : List Sample) (label : String) :
    ((new interval).recordAll samples).snapshot.shards.filter (fun row => row.name = label) =
      if samples.any fun x => x.shard = some label then
        [((new interval).recordAll (samplesOf label samples)).snapshot.asRow label]
      else [] := by
  have hordered := ordered_recordAll (ordered_new interval) samples
  have htally := tallyOf_recordAll interval samples label
  rw [filter_rows hordered, ← isSome_find?_recordAll interval, ← row_asTally, ← htally, tallyOf]
  cases Keyed.find? label ((new interval).recordAll samples).shards with
  | none => rfl
  | some t => rfl

/-! ## All shards together -/

/-- A sample of a shard changes a sum over all shards by what it changes in the tally of that
shard. -/
theorem sum_record {f : ShardTally → Nat} (hempty : f .empty = 0) {r : Recorder} (h : r.Ordered)
    {x : Sample} {label : String} (hx : x.shard = some label) :
    Keyed.sum f (r.record x).shards + f (r.tallyOf label) =
      Keyed.sum f r.shards + f ((r.tallyOf label).record r.interval x) := by
  have hold : (Keyed.find? label r.shards).elim 0 f = f (r.tallyOf label) := by
    unfold tallyOf
    cases Keyed.find? label r.shards with
    | none => exact hempty.symm
    | some t => rfl
  rw [shards_record, hx, ← hold]
  exact Keyed.sum_update f label _ h.shards

/-- What a tally counts of a sample once is counted once for the run and once over all shards,
if every sample has a shard. -/
theorem sum_recordAll {f : ShardTally → Nat} {w : Sample → Nat} (hempty : f .empty = 0)
    (hrecord : ∀ r : Recorder, r.Ordered → ∀ x,
      f (r.record x).asTally = f r.asTally + w x)
    (interval : Nat) {samples : List Sample} (h : ∀ x ∈ samples, x.shard.isSome = true) :
    Keyed.sum f ((new interval).recordAll samples).shards =
      f ((new interval).recordAll samples).asTally := by
  induction samples using List.reverseRecOn with
  | nil => exact hempty.symm
  | append_singleton samples x ih =>
    have ih := ih fun y hy => h y (List.mem_append_left _ hy)
    obtain ⟨label, hlabel⟩ := Option.isSome_iff_exists.mp
      (h x (List.mem_append_right _ List.mem_cons_self))
    have hordered (samples : List Sample) := ordered_recordAll (ordered_new interval) samples
    have hsum := sum_record hempty (hordered samples) hlabel
    -- the tally of the shard is itself what a recorder counts
    have hown := hrecord _ (hordered (samplesOf label samples)) x
    rw [asTally_record, ← tallyOf_recordAll, interval_recordAll] at hown
    rw [interval_recordAll, hown] at hsum
    rw [recordAll_concat, hrecord _ (hordered samples)]
    omega

/-- What the rows of a snapshot sum up to. -/
theorem sum_rows {g : ShardRow → Nat} {f : ShardTally → Nat} {w : Sample → Nat}
    (hrow : ∀ name t, g (ShardTally.row name t) = f t) (hempty : f .empty = 0)
    (hrecord : ∀ r : Recorder, r.Ordered → ∀ x,
      f (r.record x).asTally = f r.asTally + w x)
    (interval : Nat) {samples : List Sample} (h : ∀ x ∈ samples, x.shard.isSome = true) :
    (((new interval).recordAll samples).snapshot.shards.map g).sum =
      f ((new interval).recordAll samples).asTally := by
  rw [← sum_recordAll hempty hrecord interval h, Keyed.sum, shards_snapshot, List.map_map]
  exact congrArg List.sum (List.map_congr_left fun kv _ => hrow kv.1 kv.2)

/-- **The rows of a snapshot are projections of what was recorded.**  The row of a shard that
occurs shows what the snapshot of its samples alone would show of all of them; a shard that
does not occur has no row.  If every sample has a shard, the rows sum up to the run. -/
theorem rows_project (interval : Nat) (samples : List Sample) :
    let s := ((new interval).recordAll samples).snapshot
    let own := fun label => ((new interval).recordAll (samplesOf label samples)).snapshot
    (∀ label, (∃ x ∈ samples, x.shard = some label) →
      s.shards.filter (fun row => row.name = label) = [(own label).asRow label]) ∧
    (∀ row ∈ s.shards, ∃ x ∈ samples, x.shard = some row.name) ∧
    ((∀ x ∈ samples, x.shard.isSome = true) →
      (s.shards.map ShardRow.total).sum = s.total ∧
      (s.shards.map ShardRow.passed).sum = s.passed ∧
      (s.shards.map ShardRow.failed).sum = s.failed ∧
      ∀ key, (s.shards.map fun row => row.categories.count key).sum = s.categories.count key) := by
  intro s own
  refine ⟨?_, ?_, fun hall => ⟨?_, ?_, ?_, ?_⟩⟩
  · rintro label ⟨x, hx, hlabel⟩
    have hany : samples.any (fun x => x.shard = some label) = true :=
      List.any_eq_true.mpr ⟨x, hx, decide_eq_true hlabel⟩
    rw [filter_rows_recordAll, if_pos hany]
  · intro row hrow
    have hmem : row ∈ s.shards.filter fun r => r.name = row.name :=
      List.mem_filter.mpr ⟨hrow, decide_eq_true rfl⟩
    rw [filter_rows_recordAll] at hmem
    split at hmem
    · rename_i hany
      obtain ⟨x, hx, hlabel⟩ := List.any_eq_true.mp hany
      exact ⟨x, hx, of_decide_eq_true hlabel⟩
    · exact absurd hmem List.not_mem_nil
  · refine sum_rows (f := ShardTally.total) (w := fun _ => 1) (fun _ _ => rfl) rfl ?_
      interval hall
    intro r _ x
    rw [asTally_record, ShardTally.total_record]
  · exact sum_rows (f := ShardTally.passed) (fun _ _ => rfl) rfl
      (fun r _ x => (verdicts_record r x).1) interval hall
  · exact sum_rows (f := ShardTally.failed) (fun _ _ => rfl) rfl
      (fun r _ x => (verdicts_record r x).2) interval hall
  · intro key
    refine sum_rows (f := fun t => t.categories.count key)
      (w := fun x => if (x.outcome.kind?.map FailureKind.category).map Category.name = some key
        then 1 else 0) (fun _ _ => rfl) rfl ?_ interval hall
    intro r hr x
    show (r.record x).categories.count key = _
    rw [categories_record]
    exact Counts.count_meet hr.categories _ key

/-- Two shards, of which one only ever fails, and a pass that was held up. -/
theorem rows_project_two :
    let samples : List Sample := [⟨.transaction, .ofMillis 350, .pass, some "a:1"⟩,
      ⟨.rootRead, .ofMillis 3, .fail .timeout, some "a:2"⟩,
      ⟨.rootRead, .ofMillis 40, .fail (.verification .aborted), some "a:1"⟩]
    let s := ((new 100).recordAll samples).snapshot
    let own := ((new 100).recordAll (samplesOf "a:1" samples)).snapshot
    (∀ x ∈ samples, x.shard.isSome = true) ∧
      s.shards.filter (fun row => row.name = "a:1") = [own.asRow "a:1"] ∧
      (s.shards.map ShardRow.total).sum = 3 ∧
      (s.shards.map fun row => row.categories.count "timeout").sum = 1 := by
  intro samples s own
  have hall : ∀ x ∈ samples, x.shard.isSome = true := by decide
  obtain ⟨hrow, -, hsum⟩ := rows_project 100 samples
  obtain ⟨htotal, -, -, hcategory⟩ := hsum hall
  exact ⟨hall, hrow "a:1" ⟨_, List.mem_cons_self, rfl⟩, htotal, (hcategory "timeout").trans rfl⟩

end Recorder
end ShardLoad
