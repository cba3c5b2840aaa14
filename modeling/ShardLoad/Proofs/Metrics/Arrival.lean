import ShardLoad.Proofs.Keyed
import ShardLoad.Proofs.Metrics.Outcomes

/-!
# The order in which samples arrive

Users hand over their samples side by side, so the same samples may come in many orders.  A
recorder does not tell them apart: two samples that come one after the other may be exchanged,
whatever their operations, verdicts and shards, and so may all samples of a list.

Each place of a recorder is looked at on its own.  Entries of a keyed list are kept in the
order of their keys, and so two updates may be exchanged unless they are of one key; those of
one key count or record, one after the other.  A histogram is as long as its last bin needs it
to be, and its bins say only how many values they have.

* `Histogram.add_comm`, `Histogram.record_comm`: two latencies, with those that they held up.
* `Recorder.record_comm`, `Recorder.recordAll_perm`: two samples, and all samples of a list.
* `Recorder.pairwise_name_snapshot`: the rows of a snapshot are in the order of their names.
-/

namespace ShardLoad

namespace Counts

/-- Two keys may be met in either order. -/
theorem bump_comm (key other : String) (c : Counts) :
    bump key (bump other c) = bump other (bump key c) :=
  Keyed.update_comm (fun _ _ => rfl) c

theorem meet_comm (key? other? : Option String) (c : Counts) :
    (c.meet key?).meet other? = (c.meet other?).meet key? := by
  cases key? with
  | none => rfl
  | some key =>
    cases other? with
    | none => rfl
    | some other => exact bump_comm other key c

end Counts

/-! ## Histograms -/

namespace Histogram

/-- A histogram is known from its length and from what its bins count. -/
theorem eq_of_count {h h' : Histogram} (hsize : h.counts.size = h'.counts.size)
    (hcount : ∀ i, h.count i = h'.count i) : h = h' := by
  obtain ⟨counts⟩ := h
  obtain ⟨counts'⟩ := h'
  have hsize : counts.size = counts'.size := hsize
  congr 1
  ext i hi hi'
  · exact hsize
  · have hi := hcount i
    simp only [count] at hi
    simpa [*] using hi

/-- A histogram grows up to the bin that it needs. -/
theorem size_add (h : Histogram) (v : Nat) :
    (h.add v).counts.size = max h.counts.size (bin v + 1) := by
  simp only [add, bump]
  split
  · rw [Array.size_modify]
    omega
  · rw [Array.size_push, Array.size_append, Array.size_replicate]
    omega

/-- Two values may be counted in either order. -/
theorem add_comm (h : Histogram) (v w : Nat) : (h.add v).add w = (h.add w).add v := by
  apply eq_of_count
  · simp only [size_add]
    omega
  · intro i
    simp only [count_add]
    omega

/-- Values may be counted in any order. -/
theorem foldl_add_perm {values values' : List Nat} (hp : values.Perm values') (h : Histogram) :
    values.foldl add h = values'.foldl add h :=
  hp.foldl_eq' (fun v _ w _ h => add_comm h v w) h

/-- Two latencies may be recorded in either order, each with those that it held up. -/
theorem record_comm (interval : Nat) (h : Histogram) (v w : Nat) :
    (h.record interval v).record interval w = (h.record interval w).record interval v := by
  simp only [record]
  rw [← List.foldl_append, ← List.foldl_append]
  exact foldl_add_perm List.perm_append_comm h

end Histogram

/-- Two samples of a shard may be recorded in either order. -/
theorem ShardTally.record_comm (interval : Nat) (t : ShardTally) (x y : Sample) :
    (t.record interval x).record interval y = (t.record interval y).record interval x := by
  unfold record
  cases x.outcome with
  | pass =>
    cases y.outcome with
    | pass => simp only [Histogram.record_comm interval t.latencies x.millis]
    | fail kind => rfl
  | fail kind =>
    cases y.outcome with
    | pass => rfl
    | fail kind' => simp only [Counts.bump_comm kind.category.name]

/-! ## Recorders -/

attribute [ext] Recorder

namespace Recorder

variable {xs ys : List Sample}

/-- Two samples may be exchanged at one place of a recorder, if what they change there may. -/
theorem exchange {β : Type} {place : Recorder → β} (change : Nat → Sample → β → β)
    (hrecord : ∀ r x, place (r.record x) = change r.interval x (place r))
    (hcomm : ∀ interval x y b,
      change interval y (change interval x b) = change interval x (change interval y b))
    (r : Recorder) (x y : Sample) :
    place ((r.record x).record y) = place ((r.record y).record x) := by
  rw [hrecord, hrecord, hrecord, hrecord, interval_record, interval_record, hcomm]

/-- Two samples may be exchanged in a histogram that takes in those that meet a condition. -/
theorem exchange_histogram {hist : Recorder → Histogram} {p : Sample → Bool}
    (hrecord : ∀ r x, hist (r.record x) =
      if p x then (hist r).record r.interval x.millis else hist r)
    (r : Recorder) (x y : Sample) :
    hist ((r.record x).record y) = hist ((r.record y).record x) := by
  refine exchange (fun interval x h => if p x then h.record interval x.millis else h)
    hrecord ?_ r x y
  intro interval x y h
  split_ifs
  · exact Histogram.record_comm interval h x.millis y.millis
  all_goals rfl

/-- Two samples may be exchanged in counts of what they meet. -/
theorem exchange_counts {field : Recorder → Counts} (key? : Sample → Option String)
    (hrecord : ∀ r x, field (r.record x) = (field r).meet (key? x)) (r : Recorder)
    (x y : Sample) : field ((r.record x).record y) = field ((r.record y).record x) :=
  exchange (fun _ x c => c.meet (key? x)) hrecord
    (fun _ x y c => Counts.meet_comm (key? x) (key? y) c) r x y

/-- Two samples may be exchanged in the tallies of shards. -/
theorem exchange_shards (r : Recorder) (x y : Sample) :
    ((r.record x).record y).shards = ((r.record y).record x).shards := by
  refine exchange (fun interval x shards => x.shard.elim shards fun name =>
    Keyed.update name (fun t => (t.getD .empty).record interval x) shards) ?_ ?_ r x y
  · intro r x
    rw [shards_record]
    cases x.shard <;> rfl
  · intro interval x y shards
    cases x.shard with
    | none => rfl
    | some name =>
      cases y.shard with
      | none => rfl
      | some name' =>
        refine Keyed.update_comm (fun _ t => ?_) shards
        exact ShardTally.record_comm interval (t.getD .empty) x y

/-- **Two samples may arrive in either order.** -/
theorem record_comm (r : Recorder) (x y : Sample) :
    (r.record x).record y = (r.record y).record x := by
  apply Recorder.ext
  case interval => simp only [interval_record]
  case passes => exact exchange_histogram passHistogram_record r x y
  case failures => exact exchange_histogram failHistogram_record r x y
  case operations =>
    exact exchange_counts (fun x => some x.operation.name) operations_record r x y
  case operationErrors => exact exchange_counts _ operationErrors_record r x y
  case categories => exact exchange_counts _ categories_record r x y
  case rejections => exact exchange_counts _ rejections_record r x y
  case passed =>
    simp only [(verdicts_record _ _).1]
    omega
  case failed =>
    simp only [(verdicts_record _ _).2]
    omega
  case least =>
    simp only [(range_record _ _).1]
    cases r.least <;> simp [Nat.min_comm, Nat.min_left_comm, Nat.min_assoc]
  case greatest =>
    simp only [(range_record _ _).2]
    omega
  case shards => exact exchange_shards r x y

/-- Samples may be recorded in any order. -/
theorem recordAll_perm (h : xs.Perm ys) (r : Recorder) : r.recordAll xs = r.recordAll ys :=
  h.foldl_eq' (fun x _ y _ r => record_comm r x y) r

/-- The rows of a snapshot are in the order of their names, and no two of them have one name. -/
theorem pairwise_name_snapshot {r : Recorder} (h : r.Ordered) :
    r.snapshot.shards.Pairwise fun a b => a.name < b.name :=
  List.pairwise_map.mpr h.shards

end Recorder
end ShardLoad
