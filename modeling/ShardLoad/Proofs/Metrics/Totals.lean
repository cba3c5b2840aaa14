import ShardLoad.Proofs.Metrics.Shards

/-!
# What the counts of a recorder sum up to

A recorder counts the same samples in several ways: by verdict, by operation, by category of
failure, by status code, by shard.  Each way counts a sample once, or once if it failed, so the
counts of one way sum up to a plain count: all samples, or those that failed.  Rejections are the
failures of one category.

There are four categories, and no failure is counted under another name, so nothing is lost
if only those four are asked for.

* `total_operations_recordAll`, `total_operationErrors_recordAll`: by operation.
* `total_categories_recordAll`, `sum_categories_recordAll`: by category.
* `total_rejections_recordAll`: by status code.
* `total_row`: by shard.
-/

namespace ShardLoad

/-- A tally counts how often a key was met. -/
theorem Counts.count_tally (keys : List String) (key : String) :
    (tally keys).count key = keys.count key := by
  rw [count, find?_tally]
  split
  · rename_i hzero
    rw [hzero, Option.getD_none]
  · rfl

/-- Every failure is in one of the four categories. -/
theorem Category.sum_count (ks : List Category) :
    (all.map fun k => ks.count k).sum = ks.length := by
  induction ks with
  | nil => rfl
  | cons k ks ih =>
    simp only [all, List.map_cons, List.map_nil, List.sum_cons, List.sum_nil, List.count_cons,
      List.length_cons] at ih ⊢
    cases k <;> simp <;> omega

/-- A failure was rejected exactly if it has a code. -/
theorem FailureKind.isSome_code? (kind : FailureKind) :
    kind.code?.isSome = (kind.category == .verification) := by
  cases kind <;> rfl

namespace Recorder

variable (interval : Nat) (samples : List Sample)

theorem total_operations_recordAll :
    ((new interval).recordAll samples).operations.total =
      ((new interval).recordAll samples).total := by
  rw [operations_recordAll, Counts.total_tally, total_recordAll, total_new, Nat.zero_add,
    List.length_map, List.filterMap_eq_map', List.length_map]

/-- A sample failed exactly if something is to blame. -/
theorem length_kinds :
    (samples.filterMap fun x => x.outcome.kind?).length =
      ((new interval).recordAll samples).failed := by
  rw [(passed_failed_recordAll interval samples).2, List.length_filterMap_eq_countP]
  refine List.countP_congr fun x _ => ?_
  cases x.outcome <;> simp [Outcome.kind?, Outcome.isPass]

theorem total_operationErrors_recordAll :
    ((new interval).recordAll samples).operationErrors.total =
      ((new interval).recordAll samples).failed := by
  rw [operationErrors_recordAll, Counts.total_tally, ← length_kinds, List.length_map,
    List.length_filterMap_eq_countP, List.length_filterMap_eq_countP]
  exact List.countP_congr fun x _ => by rw [Option.isSome_map]

/-- The categories of the failures, in order. -/
def failedCategories : List Category :=
  samples.filterMap fun x => x.outcome.kind?.map FailureKind.category

theorem length_failedCategories :
    (failedCategories samples).length = ((new interval).recordAll samples).failed := by
  rw [failedCategories, ← length_kinds, List.length_filterMap_eq_countP,
    List.length_filterMap_eq_countP]
  exact List.countP_congr fun x _ => by rw [Option.isSome_map]

theorem total_categories_recordAll :
    ((new interval).recordAll samples).categories.total =
      ((new interval).recordAll samples).failed := by
  rw [categories_recordAll, Counts.total_tally, List.length_map]
  exact length_failedCategories interval samples

/-- A category counts the failures that are in it. -/
theorem count_categories_recordAll (k : Category) :
    ((new interval).recordAll samples).categories.count k.name =
      (failedCategories samples).count k := by
  rw [categories_recordAll, Counts.count_tally,
    List.count_map_of_injective _ _ fun _ _ => Category.name_injective]
  rfl

/-- **The four categories sum up to the failures.** -/
theorem sum_categories_recordAll :
    (Category.all.map fun k => ((new interval).recordAll samples).categories.count k.name).sum =
      ((new interval).recordAll samples).failed := by
  simp only [count_categories_recordAll, Category.sum_count]
  exact length_failedCategories interval samples

/-- No failure is counted under another name. -/
theorem named_categories_recordAll {kv : String × Nat}
    (h : kv ∈ ((new interval).recordAll samples).categories) : ∃ k : Category, kv.1 = k.name := by
  rw [categories_recordAll] at h
  obtain ⟨k, -, hk⟩ := List.mem_map.mp (Counts.mem_of_mem_tally h)
  exact ⟨k, hk.symm⟩

/-- **The rejections sum up to one category.** -/
theorem total_rejections_recordAll :
    ((new interval).recordAll samples).rejections.total =
      ((new interval).recordAll samples).categories.count Category.verification.name := by
  rw [rejections_recordAll, Counts.total_tally, count_categories_recordAll, List.length_map,
    List.length_filterMap_eq_countP, failedCategories, List.count_filterMap]
  refine List.countP_congr fun x _ => ?_
  cases hx : x.outcome.kind? with
  | none => simp
  | some kind => simp [FailureKind.isSome_code?]

/-- **What is counted of a shard adds up as it does for the run.** -/
theorem total_row {row : ShardRow} (h : row ∈ ((new interval).recordAll samples).snapshot.shards) :
    row.categories.total = row.failed ∧ row.passed + row.failed = row.total := by
  have hrow := eq_of_mem_rows (ordered_recordAll (ordered_new interval) samples) h
  rw [tallyOf_recordAll, row_asTally] at hrow
  rw [hrow]
  exact ⟨total_categories_recordAll interval (samplesOf row.name samples), rfl⟩

end Recorder
end ShardLoad
