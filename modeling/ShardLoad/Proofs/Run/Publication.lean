import ShardLoad.Proofs.Metrics.Outcomes
import ShardLoad.Run.Channel

/-!
# What a collector publishes

The collector is looked at here on its own, with anybody at the other end of the queue.  Those
who hand over samples do so at any moment at which there is room, and stop when they like.  The
collector takes samples one by one, also while it empties the queue in order to publish, and
meanwhile more of them may come.  When it finds the queue empty and nobody left who could hand
over more, it publishes once more and stops.

Samples leave the queue in the order in which they came.  So whatever the collector has
recorded at some moment are the first ones of all samples that were handed over.  Each snapshot
is of such first samples, a later one of at least as many, and the last one is of all.

* `Collector`, `Collector.Course`: a collector, and what may happen.
* `Prefixes`: snapshots of more and more of a sequence of samples.
* `Collector.Books`, `books_of_course`: what was recorded and published.
* `prefixes_of_course`, `Course.exists_stopped`: what is published, and that it comes to an end.
-/

namespace ShardLoad

/-- What a fresh recorder shows after some samples. -/
def Recorder.snapshotAfter (interval : Nat) (samples : List Sample) : Snapshot :=
  ((new interval).recordAll samples).snapshot

/-- Snapshots of the first samples of a sequence, of more and more of them. -/
def Prefixes (interval : Nat) (samples : List Sample) (snapshots : List Snapshot) : Prop :=
  ∃ ns : List Nat, ns.Pairwise (· ≤ ·) ∧ (∀ n ∈ ns, n ≤ samples.length) ∧
    snapshots = ns.map fun n => Recorder.snapshotAfter interval (samples.take n)

namespace Prefixes

variable {interval : Nat} {samples : List Sample} {snapshots : List Snapshot}

theorem nil (interval : Nat) (samples : List Sample) : Prefixes interval samples [] :=
  ⟨[], .nil, fun _ h => absurd h List.not_mem_nil, rfl⟩

/-- First samples stay first when more samples come. -/
theorem append (h : Prefixes interval samples snapshots) (more : List Sample) :
    Prefixes interval (samples ++ more) snapshots := by
  obtain ⟨ns, hsorted, hle, rfl⟩ := h
  refine ⟨ns, hsorted, ?_, ?_⟩
  · intro n hn
    rw [List.length_append]
    exact Nat.le_add_right_of_le (hle n hn)
  · refine List.map_congr_left fun n hn => ?_
    rw [List.take_append_of_le_length (hle n hn)]

/-- A snapshot of all samples may follow any others. -/
theorem concat (h : Prefixes interval samples snapshots) :
    Prefixes interval samples (snapshots ++ [Recorder.snapshotAfter interval samples]) := by
  obtain ⟨ns, hsorted, hle, rfl⟩ := h
  refine ⟨ns ++ [samples.length], ?_, ?_, ?_⟩
  · refine List.pairwise_append.mpr ⟨hsorted, List.pairwise_singleton _ _, ?_⟩
    intro n hn m hm
    rw [List.mem_singleton.mp hm]
    exact hle n hn
  · intro n hn
    rcases List.mem_append.mp hn with hn | hn
    · exact hle n hn
    · exact Nat.le_of_eq (List.mem_singleton.mp hn)
  · rw [List.map_append, List.map_singleton, List.take_length]

end Prefixes

/-! ## The collector on its own -/

/-- What a collector is about. -/
inductive Collector.Stage where
  /-- It waits for a sample, or for the time to publish. -/
  | waiting
  /-- It takes samples until it finds none, in order to publish. -/
  | emptying
  /-- It has found none. -/
  | publishing
  | stopped
  deriving Repr, DecidableEq

/-- A collector with the queue that it takes samples from. -/
structure Collector where
  /-- How many may still hand over samples. -/
  senders : Nat
  channel : Channel
  recorder : Recorder
  stage : Collector.Stage

namespace Collector

/-- A collector to which nothing was handed over. -/
def start (interval capacity senders : Nat) : Collector :=
  ⟨senders, .new capacity, .new interval, .waiting⟩

/-- What may happen, with the samples that were handed over and the snapshots that were
published. -/
inductive Course (k₀ : Collector) : (sent : List Sample) → List Snapshot → Collector → Prop
  | start : Course k₀ [] [] k₀
  /-- Somebody hands over a sample. -/
  | send {sent : List Sample} {ps : List Snapshot} {k : Collector} (x : Sample) :
      Course k₀ sent ps k → 0 < k.senders → k.channel.isFull = false →
      Course k₀ (sent ++ [x]) ps { k with channel := k.channel.push x }
  /-- Somebody hands over no more samples. -/
  | drop {sent : List Sample} {ps : List Snapshot} {k : Collector} : Course k₀ sent ps k →
      0 < k.senders → Course k₀ sent ps { k with senders := k.senders - 1 }
  /-- The collector takes a sample. -/
  | take {sent : List Sample} {ps : List Snapshot} {k : Collector} (x : Sample)
      (channel : Channel) : Course k₀ sent ps k → k.stage = .waiting ∨ k.stage = .emptying →
      k.channel.pop? = some (x, channel) →
      Course k₀ sent ps { k with channel := channel, recorder := k.recorder.record x }
  /-- It is time to publish. -/
  | tick {sent : List Sample} {ps : List Snapshot} {k : Collector} : Course k₀ sent ps k →
      k.stage = .waiting → Course k₀ sent ps { k with stage := .emptying }
  /-- The collector finds nothing more in the queue. -/
  | emptied {sent : List Sample} {ps : List Snapshot} {k : Collector} : Course k₀ sent ps k →
      k.stage = .emptying → k.channel.queue = [] →
      Course k₀ sent ps { k with stage := .publishing }
  /-- The collector publishes, whatever came to the queue meanwhile. -/
  | publish {sent : List Sample} {ps : List Snapshot} {k : Collector} : Course k₀ sent ps k →
      k.stage = .publishing →
      Course k₀ sent (ps ++ [k.recorder.snapshot]) { k with stage := .waiting }
  /-- Nothing more is to come: the collector publishes and stops. -/
  | finish {sent : List Sample} {ps : List Snapshot} {k : Collector} : Course k₀ sent ps k →
      k.stage = .waiting → k.channel.queue = [] → k.senders = 0 →
      Course k₀ sent (ps ++ [k.recorder.snapshot]) { k with stage := .stopped }

/-- What was recorded are the first samples, the rest waits in the queue, and what was published
is of the first samples.  A collector that has stopped has left nothing. -/
structure Books (interval : Nat) (sent : List Sample) (ps : List Snapshot) (k : Collector) :
    Prop where
  booked : ∃ taken, sent = taken ++ k.channel.queue ∧
    k.recorder = (Recorder.new interval).recordAll taken ∧ Prefixes interval taken ps
  ended : k.stage = .stopped → k.senders = 0 ∧ k.channel.queue = [] ∧
    ps.getLast? = some k.recorder.snapshot

variable {interval capacity senders : Nat} {sent : List Sample} {ps : List Snapshot}
  {k k₀ : Collector}

/-- A sample that is taken is the first one of the queue. -/
theorem queue_of_pop? {channel channel' : Channel} {x : Sample}
    (h : channel.pop? = some (x, channel')) : channel.queue = x :: channel'.queue := by
  unfold Channel.pop? at h
  split at h
  · rename_i y rest hq
    obtain ⟨rfl, rfl⟩ := Prod.mk.injEq .. ▸ Option.some.inj h
    exact hq
  · exact absurd h (by simp)

/-- The books of a collector are right whatever happens. -/
theorem books_of_course (h : Course (start interval capacity senders) sent ps k) :
    Books interval sent ps k := by
  induction h with
  | start => exact ⟨⟨[], rfl, rfl, .nil _ _⟩, nofun⟩
  | send x _ hsenders _ ih =>
    obtain ⟨⟨taken, hsent, hrec, hps⟩, hended⟩ := ih
    refine ⟨⟨taken, ?_, hrec, hps⟩, ?_⟩
    · rw [hsent, List.append_assoc]
      rfl
    · intro hstopped
      exact absurd (hended hstopped).1 (Nat.ne_of_gt hsenders)
  | drop _ hsenders ih =>
    obtain ⟨hbooked, hended⟩ := ih
    refine ⟨hbooked, fun hstopped => ?_⟩
    exact absurd (hended hstopped).1 (Nat.ne_of_gt hsenders)
  | @take sent ps k x channel _ hstage hpop ih =>
    obtain ⟨⟨taken, hsent, hrec, hps⟩, -⟩ := ih
    refine ⟨⟨taken ++ [x], ?_, ?_, hps.append [x]⟩, ?_⟩
    · rw [hsent, queue_of_pop? hpop, List.append_assoc]
      rfl
    · rw [Recorder.recordAll_concat, ← hrec]
    · intro (hstopped : k.stage = .stopped)
      rw [hstopped] at hstage
      exact absurd hstage (by decide)
  | tick _ _ ih => exact ⟨ih.booked, nofun⟩
  | emptied _ _ _ ih => exact ⟨ih.booked, nofun⟩
  | publish _ _ ih =>
    obtain ⟨⟨taken, hsent, hrec, hps⟩, -⟩ := ih
    exact ⟨⟨taken, hsent, hrec, hrec ▸ hps.concat⟩, nofun⟩
  | finish _ _ hqueue hsenders ih =>
    obtain ⟨⟨taken, hsent, hrec, hps⟩, -⟩ := ih
    refine ⟨⟨taken, hsent, hrec, hrec ▸ hps.concat⟩, fun _ => ?_⟩
    exact ⟨hsenders, hqueue, List.getLast?_concat⟩

/-- What is published is of the first samples that were handed over, of more and more of them;
a collector stops only when nobody is left to hand over samples, and has published all of them
then. -/
theorem prefixes_of_course (h : Course (start interval capacity senders) sent ps k) :
    Prefixes interval sent ps ∧
      (k.stage = .stopped → k.senders = 0 ∧
        ps.getLast? = some (Recorder.snapshotAfter interval sent)) := by
  obtain ⟨⟨taken, hsent, hrec, hps⟩, hended⟩ := books_of_course h
  refine ⟨hsent ▸ hps.append _, fun hstopped => ?_⟩
  obtain ⟨hsenders, hqueue, hlast⟩ := hended hstopped
  rw [hqueue, List.append_nil] at hsent
  refine ⟨hsenders, ?_⟩
  rw [hlast, hrec, hsent]
  rfl

/-- A collector that empties the queue may take all samples that are in it. -/
theorem Course.takeAll (h : Course k₀ sent ps k) (hstage : k.stage = .emptying) :
    Course k₀ sent ps { k with
      channel := { k.channel with queue := [] }
      recorder := k.recorder.recordAll k.channel.queue } := by
  obtain ⟨senders, ⟨queue, capacity, closed⟩, recorder, stage⟩ := k
  induction queue generalizing recorder with
  | nil => exact h
  | cons x rest ih => exact ih _ (h.take x ⟨rest, capacity, closed⟩ (.inr hstage) rfl) hstage

/-- A collector that waits may take all samples that are in the queue, and publish. -/
theorem Course.publishAll (h : Course k₀ sent ps k) (hstage : k.stage = .waiting) :
    Course k₀ sent (ps ++ [(k.recorder.recordAll k.channel.queue).snapshot]) { k with
      channel := { k.channel with queue := [] }
      recorder := k.recorder.recordAll k.channel.queue
      stage := .waiting } :=
  (((h.tick hstage).takeAll rfl).emptied rfl rfl).publish rfl

/-- A collector that waits while nobody hands over more samples may come to its end. -/
theorem Course.exists_stopped_of_waiting {ps' : List Snapshot}
    (h : Course k₀ sent (ps ++ ps') k) (hsenders : k.senders = 0) (hstage : k.stage = .waiting) :
    ∃ ps' k', Course k₀ sent (ps ++ ps') k' ∧ k'.stage = .stopped := by
  have hstop := (h.publishAll hstage).finish rfl rfl hsenders
  rw [List.append_assoc, List.append_assoc] at hstop
  exact ⟨_, _, hstop, rfl⟩

/-- A collector to which nobody hands over more samples may come to its end. -/
theorem Course.exists_stopped (h : Course k₀ sent ps k) (hsenders : k.senders = 0) :
    ∃ ps' k', Course k₀ sent (ps ++ ps') k' ∧ k'.stage = .stopped := by
  rw [← List.append_nil ps] at h
  cases hstage : k.stage with
  | waiting => exact h.exists_stopped_of_waiting hsenders hstage
  | emptying =>
    have hemptied := (h.takeAll hstage).emptied hstage rfl
    rw [List.append_nil] at hemptied
    exact (hemptied.publish rfl).exists_stopped_of_waiting hsenders rfl
  | publishing =>
    rw [List.append_nil] at h
    exact (h.publish hstage).exists_stopped_of_waiting hsenders rfl
  | stopped => exact ⟨[], k, h, hstage⟩

end Collector

end ShardLoad
