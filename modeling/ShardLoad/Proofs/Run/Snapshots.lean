import ShardLoad.Proofs.Metrics.Arrival
import ShardLoad.Proofs.Run.Ending
import ShardLoad.Proofs.Run.History
import ShardLoad.Proofs.Run.Publication

/-!
# The snapshots of a run

The collector of a run is one to whom its users hand over samples.  To take all samples and
publish is to empty the queue.  So the snapshots that are published in a run are of the first
samples that were handed over, and the one that it returns is of all of them.  These are what
the replies made, in some order; and a recorder does not care about the order.

* `System.collector`, `course_of_history`: the collector of a run.
* `Engine.snapshot_of_isOver`, `Engine.snapshot_of_answered`: the snapshot of a run that is over.
* `Engine.snapshots_published`: what is published, also in a run.
* `Engine.snapshot_of_samples`: what is measured does not depend on the order of samples.
-/

namespace ShardLoad

/-- What is shown after some samples does not depend on their order. -/
theorem Recorder.snapshotAfter_perm (interval : Nat) {xs ys : List Sample} (h : xs.Perm ys) :
    snapshotAfter interval xs = snapshotAfter interval ys := by
  unfold snapshotAfter
  rw [recordAll_perm h]

/-- One for a user that has not stopped. -/
def User.present (u : User) : Nat := if u.isGone then 0 else 1

namespace System

open Trace

variable {t : Terms} {s s₀ : System} {b : Bool} {trace : Trace}

/-- The collector of a run, to whom its users hand over samples. -/
def collector (s : System) : Collector :=
  ⟨s.sum User.present, s.shared.channel, s.recorder,
    if s.collecting then .waiting else .stopped⟩

/-- The collector of a run that is at work waits. -/
theorem waiting_of_collecting (h : s.collecting = true) : s.collector.stage = .waiting :=
  if_pos h

/-- A user that can do something is there. -/
theorem present_of_move {u u' : User} {sh sh' : Shared} (h : u.Move t sh u' sh') :
    u.present = 1 := by
  unfold User.present
  rw [if_neg]
  intro hgone
  obtain ⟨exit, hp⟩ := User.exists_gone hgone
  exact User.not_move_of_gone hp h

/-- What a step of a user is to the collector: a sample is handed over, or a user is there no
more, or nothing. -/
theorem handover_of_move {u u' : User} {sh sh' : Shared} (hopen : sh.channel.closed = false)
    (h : u.Move t sh u' sh') :
    (∃ x, u.handover? sh = some x ∧ sh.channel.isFull = false ∧
      sh'.channel = sh.channel.push x ∧ u'.present = 1) ∨
    (u.handover? sh = none ∧ sh'.channel = sh.channel ∧ (u'.present = 1 ∨ u'.present = 0)) := by
  cases h with
  | deliver x hp hc hf =>
    left
    refine ⟨x, ?_, hf, rfl, rfl⟩
    simp only [User.handover?, hp, hc, Bool.false_eq_true, if_false]
  | hangUp x hp hc => exact absurd (hopen.symm.trans hc) (by simp)
  | leave exit log hp =>
    right
    exact ⟨by simp only [User.handover?, hp], rfl, Or.inr rfl⟩
  | enter hp | cancel hp | expire hp | begin hp | proceed hp | claim _ hp | overrun _ hp
    | send _ _ _ hp | receive _ _ _ _ _ _ hp | resume _ hp | giveUp _ hp =>
    right
    exact ⟨by simp only [User.handover?, hp], rfl, Or.inl rfl⟩

/-- The users of a system that has them all gone are not there. -/
theorem sum_present_of_allGone (h : s.allGone = true) : s.sum User.present = 0 := by
  apply sum_eq_zero
  intro u hu
  unfold User.present
  rw [if_pos (Array.all_eq_true_iff_forall_mem.mp h u hu)]

/-- A step of a user that is there changes who is there and the queue. -/
theorem collector_setUser {i : Nat} {u : User} (hi : s.users[i]? = some u)
    (hpresent : u.present = 1) (u' : User) (sh : Shared) :
    0 < s.sum User.present ∧ (s.setUser i u' sh).collector = { s.collector with
      senders := s.sum User.present - 1 + u'.present
      channel := sh.channel } := by
  have hsum := sum_setUser hi User.present u' sh
  have hle := le_sum (mem_of_getElem? hi) User.present
  have hnext : (s.setUser i u' sh).sum User.present = s.sum User.present - 1 + u'.present := by
    omega
  refine ⟨by omega, ?_⟩
  unfold collector
  rw [hnext]
  rfl

/-- Nothing is left out of an empty queue. -/
theorem collector_publish_of_empty (h : s.shared.channel.queue = []) :
    s.publish.published = s.recorder ∧
      { s.publish with collecting := false }.collector = { s.collector with stage := .stopped } := by
  have hrecorder : s.publish.recorder = s.recorder := by
    show s.recorder.recordAll s.shared.channel.queue = _
    rw [h]
    rfl
  have hchannel : s.publish.shared.channel = s.shared.channel := by
    show { s.shared.channel with queue := [] } = _
    rw [← h]
  refine ⟨hrecorder, ?_⟩
  unfold collector
  rw [hrecorder, hchannel]
  rfl

/-- What happens in a run happens at a collector that is on its own. -/
theorem course_of_history (h : History t s₀ b trace s) (h₀ : s₀.Fresh) :
    Collector.Course s₀.collector trace.handed trace.published s.collector := by
  induction h with
  | start => exact .start
  | @step b trace s s' a hr ha ih =>
    rw [handed_concat, published_concat]
    cases move_of_step? ha with
    | user i u u' sh hi hmove =>
      obtain ⟨hpos, hnext⟩ := collector_setUser hi (present_of_move hmove) u' sh
      have hnone : (s.publication? (.user i)).toList = [] := rfl
      rw [handover?_user hi, hnone, List.append_nil, hnext]
      rcases handover_of_move (opened_of_mayReach hr.mayReach h₀) hmove with
        ⟨x, hx, hf, hchannel, hp⟩ | ⟨hx, hchannel, hp | hp⟩
      · rw [hx, hchannel, hp, Nat.sub_add_cancel hpos]
        exact ih.send x hpos hf
      · rw [hx, hchannel, hp, Nat.sub_add_cancel hpos, Option.toList_none, List.append_nil]
        exact ih
      · rw [hx, hchannel, hp, Nat.add_zero, Option.toList_none, List.append_nil]
        exact ih.drop hpos
    | take x rest hc hq =>
      have hpop : s.collector.channel.pop? = some (x, (s.takeFront x rest).shared.channel) := by
        unfold Channel.pop?
        rw [show s.collector.channel.queue = _ from hq]
        rfl
      show Collector.Course _ (trace.handed ++ []) (trace.published ++ []) _
      rw [List.append_nil, List.append_nil]
      exact ih.take x _ (.inl (waiting_of_collecting hc)) hpop
    | tick hc =>
      have hcollecting : s.collecting = true := (Bool.and_eq_true_iff.mp hc).1
      have hnext : s.publish.collector = { s.collector with
          channel := { s.shared.channel with queue := [] }
          recorder := s.recorder.recordAll s.shared.channel.queue
          stage := .waiting } := by
        rw [← waiting_of_collecting hcollecting]
        rfl
      show Collector.Course _ (trace.handed ++ []) _ _
      rw [hnext, List.append_nil]
      exact ih.publishAll (waiting_of_collecting hcollecting)
    | finish hc =>
      unfold canFinish at hc
      rw [Bool.and_eq_true_iff, Bool.and_eq_true_iff, List.isEmpty_iff] at hc
      obtain ⟨⟨hcollecting, hqueue⟩, hgone⟩ := hc
      obtain ⟨hpublished, hnext⟩ := collector_publish_of_empty hqueue
      show Collector.Course _ (trace.handed ++ [])
        (trace.published ++ [s.publish.published.snapshot]) _
      rw [hpublished, hnext, List.append_nil]
      exact ih.finish (waiting_of_collecting hcollecting) hqueue (sum_present_of_allGone hgone)
    | deadline | wait =>
      show Collector.Course _ (trace.handed ++ []) (trace.published ++ []) _
      rw [List.append_nil, List.append_nil]
      exact ih
  | interrupt _ ih => exact ih

/-- What can be seen of a run is what was published last. -/
theorem published_of_history (h : History t s₀ b trace s) :
    s.published.snapshot = trace.published.getLast?.getD s₀.published.snapshot := by
  induction h with
  | start => rfl
  | @step b trace s s' a _ ha ih =>
    rw [published_concat]
    cases move_of_step? ha with
    | tick | finish =>
      rw [show s.publication? _ = some s.publish.published.snapshot from rfl, Option.toList_some,
        List.getLast?_concat]
      rfl
    | user | take | deadline | wait =>
      rw [show s.publication? _ = none from rfl, Option.toList_none, List.append_nil]
      exact ih
  | interrupt _ ih => exact ih

end System

namespace Engine

open ShardLoad.System

variable {c : Config} {o : RunOptions} {around : Surroundings} {t : Terms} {s₀ s : System}
  {b : Bool} {trace : Trace}

/-- The collector of a configuration, to whom as many users as configured hand over samples. -/
def collector (c : Config) : Collector :=
  .start c.settings.effectiveInterval.toNat (c.settings.virtualUsers.toNat * queueLength)
    c.settings.virtualUsers.toNat

/-- A run starts with the collector of its configuration. -/
theorem collector_of_prepare (h : prepare c o around = .ok (t, s₀)) :
    s₀.collector = collector c := by
  have hfresh := fresh_of_prepare h
  obtain ⟨-, plan, pool, -, -, rfl⟩ := exists_of_prepare h
  have hone : ∀ u ∈ (start c o around pool).users, u.present = 1 := by
    intro u hu
    simp only [User.present, User.isGone, (hfresh.idle u hu).1, Bool.false_eq_true, if_false]
  have hsum : (start c o around pool).sum User.present = c.settings.virtualUsers.toNat := by
    rw [sum_congr hone, sum_const, size_start, Nat.mul_one]
  unfold System.collector
  rw [hsum]
  rfl

/-- The run of the built-in configuration has a history up to its end. -/
theorem exists_history_default (o : RunOptions) (around : Surroundings)
    (hclock : fitsClock Config.default around = true) :
    ∃ t s₀ b trace s, prepare Config.default o around = .ok (t, s₀) ∧
      History t s₀ b trace s ∧ s.isOver = true ∧
      run Config.default o around = .ok (finish s) := by
  obtain ⟨t, s₀, s, hprep, hs, hrun⟩ := exists_run_default o around hclock
  obtain ⟨hr, hover⟩ := isOver_of_run? hs
  obtain ⟨b, trace, hc⟩ := exists_history hr.mayReach
  exact ⟨t, s₀, b, trace, s, hprep, hc, hover, hrun⟩

/-- The snapshot of a run that is over is of all samples that were handed over. -/
theorem snapshot_of_isOver (h : prepare c o around = .ok (t, s₀)) (hc : History t s₀ b trace s)
    (hover : s.isOver = true) : (finish s).result.snapshot =
      Recorder.snapshotAfter c.settings.effectiveInterval.toNat trace.handed := by
  have hcourse := collector_of_prepare h ▸ course_of_history hc (fresh_of_prepare h)
  have hstopped : s.collector.stage = .stopped := by
    show (if s.collecting then Collector.Stage.waiting else .stopped) = _
    rw [(isOver_iff.mp hover).1]
    rfl
  obtain ⟨-, hlast⟩ := (Collector.prefixes_of_course hcourse).2 hstopped
  show s.published.snapshot = _
  rw [published_of_history hc, hlast]
  rfl

/-- The snapshot of a run that is over is of the samples that its replies made. -/
theorem snapshot_of_answered (h : prepare c o around = .ok (t, s₀)) (hc : History t s₀ b trace s)
    (hover : s.isOver = true) : (finish s).result.snapshot = Recorder.snapshotAfter
      c.settings.effectiveInterval.toNat ((trace.answered t).map Answered.sample) := by
  rw [snapshot_of_isOver h hc hover]
  exact Recorder.snapshotAfter_perm _ (handed_perm hc (fresh_of_prepare h) (isOver_iff.mp hover).2.2)

/-- **What is published**, whoever hands over samples and in whatever order things happen.  Each
snapshot is of the first samples that were handed over, and a later one of at least as many.  A
collector stops only when nobody is left who hands over samples, which it may always do, and
then the last snapshot is of all of them.

In a run it is the same.  When the run is over, its snapshot is of the samples of all calls
that were made, also of those that ended after its time. -/
theorem snapshots_published :
    (∀ {interval capacity senders : Nat} {sent : List Sample} {ps : List Snapshot} {k : Collector},
      Collector.Course (.start interval capacity senders) sent ps k →
      Prefixes interval sent ps ∧
      (k.stage = .stopped →
        k.senders = 0 ∧ ps.getLast? = some (Recorder.snapshotAfter interval sent)) ∧
      (k.senders = 0 → ∃ ps' k',
        Collector.Course (.start interval capacity senders) sent (ps ++ ps') k' ∧
          k'.stage = .stopped)) ∧
    (∀ {c : Config} {o : RunOptions} {around : Surroundings} {t : Terms} {s₀ s : System} {b : Bool}
        {trace : Trace},
      prepare c o around = .ok (t, s₀) → History t s₀ b trace s →
      Collector.Course (collector c) trace.handed trace.published s.collector ∧
      s.published.snapshot = trace.published.getLast?.getD
        (Recorder.snapshotAfter c.settings.effectiveInterval.toNat []) ∧
      (s.isOver = true →
        (finish s).result.snapshot =
          Recorder.snapshotAfter c.settings.effectiveInterval.toNat trace.handed ∧
        trace.handed.Perm ((trace.answered t).map Answered.sample) ∧
        trace.handed.length = (finish s).result.iterations.sum ∧
        ∀ script, around.transport = .scripted script →
          trace.handed.length = (finish s).ledger.calls)) := by
  constructor
  · intro interval capacity senders sent ps k h
    obtain ⟨hprefixes, hstopped⟩ := Collector.prefixes_of_course h
    exact ⟨hprefixes, hstopped, h.exists_stopped⟩
  · intro c o around t s₀ s b trace h hc
    have hfresh := fresh_of_prepare h
    refine ⟨collector_of_prepare h ▸ course_of_history hc hfresh, ?_, fun hover => ?_⟩
    · rw [published_of_history hc]
      obtain ⟨-, plan, pool, -, -, rfl⟩ := exists_of_prepare h
      rfl
    · obtain ⟨-, -, hgone⟩ := isOver_iff.mp hover
      have hperm := handed_perm hc hfresh hgone
      have hlength : trace.handed.length = (trace.answered t).length := by
        rw [hperm.length_eq, List.length_map]
      refine ⟨snapshot_of_isOver h hc hover, hperm, ?_, fun script hs => ?_⟩
      · rw [hlength]
        exact length_answered hc hfresh
      · rw [hlength]
        exact length_answered_of_allGone hc hfresh ((transport_of_prepare h).trans hs) hgone

/-- Two samples, of which the second one comes while the first one is published; and the run of
the built-in configuration. -/
theorem snapshots_published_late :
    let x : Sample := ⟨.transaction, .ofMillis 350, .pass, some "a:1"⟩
    let y : Sample := ⟨.rootRead, .ofMillis 3, .fail .timeout, some "a:2"⟩
    (∃ k, Collector.Course (.start 100 200 2) [x, y]
        [Recorder.snapshotAfter 100 [x], Recorder.snapshotAfter 100 [x, y]] k ∧
      k.stage = .stopped ∧ Prefixes 100 [x, y]
        [Recorder.snapshotAfter 100 [x], Recorder.snapshotAfter 100 [x, y]]) ∧
    ∃ f samples, run Config.default ⟨none, some 1, false⟩
        ⟨.scripted ⟨.answer, .ofMillis 20⟩, 3, fun _ => .seeded 0, 0⟩ = .ok f ∧
      f.result.snapshot = Recorder.snapshotAfter Config.default.settings.effectiveInterval.toNat
        samples ∧
      samples.length = f.ledger.calls := by
  intro x y
  constructor
  · have hfirst : Collector.Course (.start 100 200 2) [x, y] [Recorder.snapshotAfter 100 [x]] _ :=
      ((((((Collector.Course.start.send x (by decide) rfl).tick rfl).take x _ (.inr rfl) rfl).emptied
        rfl rfl).send y (by decide) rfl).publish rfl)
    have hlast : Collector.Course (.start 100 200 2) [x, y]
        [Recorder.snapshotAfter 100 [x], Recorder.snapshotAfter 100 [x, y]] _ :=
      (((hfirst.drop (by decide)).drop (by decide)).take y _ (.inl rfl) rfl).finish rfl rfl rfl
    exact ⟨_, hlast, rfl, (snapshots_published.1 hlast).1⟩
  · obtain ⟨t, s₀, b, trace, s, hprep, hc, hover, hrun⟩ := exists_history_default
      ⟨none, some 1, false⟩ ⟨.scripted ⟨.answer, .ofMillis 20⟩, 3, fun _ => .seeded 0, 0⟩
      (by decide)
    obtain ⟨hsnapshot, -, -, hcalls⟩ := (snapshots_published.2 hprep hc).2.2 hover
    exact ⟨finish s, trace.handed, hrun, hsnapshot, hcalls _ rfl⟩

/-- **What is measured does not depend on the order** in which samples come.  Two recorders that
were fed the same samples show the same, with the rows of shards in the order of their names.
So what a run returns is told by the samples that its users made, whatever their way through the
queue was. -/
theorem snapshot_of_samples :
    (∀ (interval : Nat) {xs ys : List Sample}, xs.Perm ys →
      Recorder.snapshotAfter interval xs = Recorder.snapshotAfter interval ys) ∧
    (∀ (interval : Nat) (xs : List Sample),
      (Recorder.snapshotAfter interval xs).shards.Pairwise fun row row' => row.name < row'.name) ∧
    (∀ {c : Config} {o : RunOptions} {around : Surroundings} {t : Terms} {s₀ s : System} {b : Bool}
        {trace : Trace} {xs : List Sample},
      prepare c o around = .ok (t, s₀) → History t s₀ b trace s → s.isOver = true →
      xs.Perm ((trace.answered t).map Answered.sample) →
      (finish s).result.snapshot =
        Recorder.snapshotAfter c.settings.effectiveInterval.toNat xs) := by
  refine ⟨Recorder.snapshotAfter_perm, fun interval xs => ?_, fun h hc hover hperm => ?_⟩
  · exact Recorder.pairwise_name_snapshot (Recorder.ordered_recordAll (Recorder.ordered_new _) _)
  · rw [snapshot_of_answered h hc hover]
    exact Recorder.snapshotAfter_perm _ hperm.symm

/-- Two samples come the other way round; and the run of the built-in configuration. -/
theorem snapshot_of_samples_two :
    let x : Sample := ⟨.transaction, .ofMillis 350, .pass, some "a:1"⟩
    let y : Sample := ⟨.rootRead, .ofMillis 3, .fail .timeout, some "a:2"⟩
    Recorder.snapshotAfter 100 [x, y] = Recorder.snapshotAfter 100 [y, x] ∧
    ∃ t s₀ b trace s, prepare Config.default ⟨none, some 1, false⟩
        ⟨.scripted ⟨.answer, .ofMillis 20⟩, 3, fun _ => .seeded 0, 0⟩ = .ok (t, s₀) ∧
      History t s₀ b trace s ∧ s.isOver = true ∧
      (finish s).result.snapshot = Recorder.snapshotAfter
        Config.default.settings.effectiveInterval.toNat
          ((trace.answered t).map Answered.sample).reverse := by
  intro x y
  refine ⟨snapshot_of_samples.1 100 (.swap y x []), ?_⟩
  obtain ⟨t, s₀, b, trace, s, hprep, hc, hover, -⟩ := exists_history_default
    ⟨none, some 1, false⟩ ⟨.scripted ⟨.answer, .ofMillis 20⟩, 3, fun _ => .seeded 0, 0⟩
    (by decide)
  exact ⟨t, s₀, b, trace, s, hprep, hc, hover,
    snapshot_of_samples.2.2 hprep hc hover (List.reverse_perm _)⟩

end Engine
end ShardLoad
