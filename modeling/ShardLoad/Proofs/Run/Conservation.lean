import ShardLoad.Proofs.Run.Ending
import ShardLoad.Proofs.Run.Gauge

/-!
# What a finished run has counted

A run is over when the collector has stopped.  It stops only after the last user has,
and it publishes once more then.  So nothing is in anybody's hands any more, the queue
is empty, and what was published is what was booked: every reading of the snapshot is
the reading of the service.

* `calls_eq_sum_issued`: the calls that were made, user by user.
* `System.Booked`, `booked_of_mayReach`: the samples of the calls that have ended.
* `System.Staffed`, `staffed_of_mayReach`: the counter of active users.
* `Engine.snapshot_eq_ledger`: what a run returns agrees with what the service counted.
-/

namespace ShardLoad

/-- One for a user that has started and not stopped. -/
def User.atWork (u : User) : Nat :=
  match u.phase with
  | .idle => 0
  | .gone _ => 0
  | _ => 1

/-- One for a user that hands over a sample. -/
def User.delivering (u : User) : Nat :=
  match u.phase with
  | .delivering _ => 1
  | _ => 0

namespace System

variable {host : String} {t : Terms} {script : Script} {s s₀ s' : System}

/-! ## Calls -/

/-- A service that counts the calls of users counts each one when it is made. -/
theorem issued_of_move {u u' : User} {sh sh' : Shared} (ht : t.transport = .scripted script)
    (h : u.Move t sh u' sh') :
    sh'.ledger.calls + u.issued = sh.ledger.calls + u'.issued := by
  cases h with
  | send a agenda log hp hnext hlog =>
    have hcalls : (t.transport.send a.call.operation a.endpoint sh.ledger).calls =
        sh.ledger.calls + 1 := by
      rw [ht]
      show (sh.ledger.count a.call.operation a.endpoint.port).calls = sh.ledger.calls + 1
      cases a.call.operation <;> rfl
    simp only [User.issued, hp, hcalls]
    omega
  | receive since due a result ledger log hp hdue hr =>
    have hcalls := t.transport.calls_reply t.timeout (u.outgoing a) sh.ledger
    rw [hr] at hcalls
    simp only [User.issued, hp]
    rw [hcalls]
  | enter hp | cancel hp | expire hp | begin hp | proceed hp | claim _ hp | overrun _ hp
    | hangUp _ hp | deliver _ hp | resume _ hp | giveUp _ hp | leave _ _ hp =>
    simp only [User.issued, hp, User.leave]

/-- The service has counted all calls that users have made, and no others. -/
theorem calls_eq_sum_issued (h : MayReach t s₀ s) (ht : t.transport = .scripted script)
    (h₀ : s₀.Fresh) : s.shared.ledger.calls = s.sum User.issued := by
  refine MayReach.invariant (P := fun s => s.shared.ledger.calls = s.sum User.issued) h ?_ ?_
    fun _ hs => hs
  · obtain ⟨n, hn⟩ := h₀.ledger
    have hzero : s₀.sum User.issued = 0 := by
      apply sum_eq_zero
      intro u hu
      obtain ⟨hp, hi⟩ := h₀.idle u hu
      simp only [User.issued, hp, hi]
    rw [hn, hzero]
    rfl
  · intro s s' a _ hs hm
    cases hm with
    | user i u u' sh hi hmove =>
      have hcalls := issued_of_move ht hmove
      have hsum := sum_setUser hi User.issued u' sh
      show sh.ledger.calls = (s.setUser i u' sh).sum User.issued
      omega
    | _ => exact hs

/-! ## Samples -/

/-- A call that has ended is booked, waits in the queue, or is being handed over. -/
def Booked (s : System) : Prop :=
  s.recorder.total + s.shared.channel.queue.length + s.sum User.delivering =
    s.sum User.iterations

/-- Ending a call puts its sample into the hands of the user, and from there it goes into
the queue. -/
theorem delivering_of_move {u u' : User} {sh sh' : Shared} (hopen : sh.channel.closed = false)
    (h : u.Move t sh u' sh') :
    sh'.channel.queue.length + u'.delivering + u.iterations =
      sh.channel.queue.length + u.delivering + u'.iterations := by
  cases h with
  | receive since due a result ledger log hp hdue hr =>
    simp only [User.delivering, hp]
    omega
  | hangUp x hp hc => exact absurd (hopen.symm.trans hc) (by simp)
  | deliver x hp hc hf =>
    simp only [User.delivering, hp, Channel.push, List.length_append, List.length_singleton]
  | enter hp | cancel hp | expire hp | begin hp | proceed hp | claim _ hp | overrun _ hp
    | send _ _ _ hp | resume _ hp | giveUp _ hp | leave _ _ hp =>
    simp only [User.delivering, hp, User.leave]

/-- No sample is lost or booked twice. -/
theorem booked_of_mayReach (h : MayReach t s₀ s) (h₀ : s₀.Fresh) : s.Booked := by
  refine MayReach.invariant h ?_ ?_ fun _ hs => hs
  · obtain ⟨interval, hi⟩ := h₀.recorder
    have hd : s₀.sum User.delivering = 0 := by
      apply sum_eq_zero
      intro u hu
      simp only [User.delivering, (h₀.idle u hu).1]
    have hn : s₀.sum User.iterations = 0 := sum_eq_zero fun u hu => (h₀.idle u hu).2
    show s₀.recorder.total + s₀.shared.channel.queue.length + s₀.sum User.delivering = _
    rw [hi, h₀.queue, hd, hn]
    rfl
  · intro s s' a hr hs hm
    have hs : s.recorder.total + s.shared.channel.queue.length + s.sum User.delivering =
      s.sum User.iterations := hs
    have hall := Recorder.total_recordAll s.recorder s.shared.channel.queue
    cases hm with
    | user i u u' sh hi hmove =>
      have hstep := delivering_of_move (opened_of_mayReach hr h₀) hmove
      have hd := sum_setUser hi User.delivering u' sh
      have hn := sum_setUser hi User.iterations u' sh
      show s.recorder.total + sh.channel.queue.length + (s.setUser i u' sh).sum User.delivering =
        (s.setUser i u' sh).sum User.iterations
      omega
    | take x rest hc hq =>
      have hrec := s.recorder.total_record x
      rw [hq, List.length_cons] at hs
      show (s.recorder.record x).total + rest.length + s.sum User.delivering =
        s.sum User.iterations
      omega
    | tick hc =>
      show (s.recorder.recordAll s.shared.channel.queue).total + 0 + s.sum User.delivering =
        s.sum User.iterations
      omega
    | finish hc =>
      show (s.recorder.recordAll s.shared.channel.queue).total + 0 + s.sum User.delivering =
        s.sum User.iterations
      omega
    | deadline hc => exact hs
    | wait moment hi hw => exact hs

/-! ## The counter of active users -/

/-- The counter shows how many users have started and not stopped. -/
def Staffed (s : System) : Prop := s.shared.active.count = UInt32.ofNat (s.sum User.atWork)

/-- A user moves the counter when it starts and when it stops. -/
theorem atWork_of_move {u u' : User} {sh sh' : Shared} (h : u.Move t sh u' sh') :
    (u'.atWork = u.atWork + 1 ∧ sh'.active = sh.active.enter) ∨
      (u.atWork = u'.atWork + 1 ∧ sh'.active = sh.active.leave) ∨
        (u'.atWork = u.atWork ∧ sh'.active = sh.active) := by
  cases h with
  | enter hp => exact Or.inl (by simp only [User.atWork, hp, and_self])
  | leave exit log hp => exact Or.inr (Or.inl (by simp only [User.atWork, hp, and_self]))
  | cancel hp | expire hp | begin hp | proceed hp | claim _ hp | overrun _ hp
    | send _ _ _ hp | receive _ _ _ _ _ _ hp | hangUp _ hp | deliver _ hp | resume _ hp
    | giveUp _ hp => exact Or.inr (Or.inr (by simp only [User.atWork, hp, User.leave, and_self]))

/-- The counter is right at every moment. -/
theorem staffed_of_mayReach (h : MayReach t s₀ s) (h₀ : s₀.Fresh) : s.Staffed := by
  refine MayReach.invariant h ?_ ?_ fun _ hs => hs
  · have hzero : s₀.sum User.atWork = 0 := by
      apply sum_eq_zero
      intro u hu
      simp only [User.atWork, (h₀.idle u hu).1]
    show s₀.shared.active.count = UInt32.ofNat (s₀.sum User.atWork)
    rw [h₀.active, hzero]
    rfl
  · intro s s' a _ hs hm
    cases hm with
    | user i u u' sh hi hmove =>
      have hsum := sum_setUser hi User.atWork u' sh
      have hs : s.shared.active.count = UInt32.ofNat (s.sum User.atWork) := hs
      show sh.active.count = UInt32.ofNat ((s.setUser i u' sh).sum User.atWork)
      rcases atWork_of_move hmove with ⟨hw, ha⟩ | ⟨hw, ha⟩ | ⟨hw, ha⟩
      · have he : (s.setUser i u' sh).sum User.atWork = s.sum User.atWork + 1 := by omega
        rw [ha, he, UInt32.ofNat_add, ← hs]
        rfl
      · have he : s.sum User.atWork = (s.setUser i u' sh).sum User.atWork + 1 := by omega
        rw [ha]
        show s.shared.active.count - 1 = _
        rw [hs, he, UInt32.ofNat_add]
        exact UInt32.add_sub_cancel _ _
      · have he : (s.setUser i u' sh).sum User.atWork = s.sum User.atWork := by omega
        rw [ha, he, hs]
    | _ => exact hs

/-! ## The end -/

/-- When a run is over, the calls that have ended were booked and published. -/
theorem total_published (h : MayReach t s₀ s) (h₀ : s₀.Fresh) (hover : s.isOver = true) :
    s.published.total = s.sum User.iterations := by
  obtain ⟨hpub, hqueue, hgone⟩ := settled_of_mayReach h h₀ (isOver_iff.mp hover).1
  have hd : s.sum User.delivering = 0 := by
    apply sum_eq_zero
    intro u hu
    obtain ⟨exit, hp⟩ := exists_of_allGone hgone hu
    simp only [User.delivering, hp]
  have hbooked : s.recorder.total + s.shared.channel.queue.length + s.sum User.delivering =
    s.sum User.iterations := booked_of_mayReach h h₀
  rw [hqueue, hd] at hbooked
  rw [hpub]
  exact hbooked

/-- When all users have stopped nobody has anything in hand. -/
theorem sum_inHand_of_allGone (g : Gauge host) (h : s.allGone = true) :
    s.sum g.inHand = 0 := by
  apply sum_eq_zero
  intro u hu
  obtain ⟨exit, hp⟩ := exists_of_allGone h hu
  simp only [Gauge.inHand, hp]

/-- When all users have stopped, the calls that each of them made have ended. -/
theorem issued_of_allGone (h : s.allGone = true) {u : User} (hu : u ∈ s.users) :
    u.issued = u.iterations := by
  obtain ⟨exit, hp⟩ := exists_of_allGone h hu
  simp only [User.issued, hp]

/-- When all users have stopped, the calls that were made have ended. -/
theorem sum_issued_of_allGone (h : s.allGone = true) :
    s.sum User.issued = s.sum User.iterations :=
  sum_congr fun _ hu => issued_of_allGone h hu

/-- When all users have stopped the counter shows nobody. -/
theorem active_of_allGone (hs : s.Staffed) (h : s.allGone = true) : s.shared.active.count = 0 := by
  have hzero : s.sum User.atWork = 0 := by
    apply sum_eq_zero
    intro u hu
    obtain ⟨exit, hp⟩ := exists_of_allGone h hu
    simp only [User.atWork, hp]
  have hs : s.shared.active.count = UInt32.ofNat (s.sum User.atWork) := hs
  rw [hs, hzero]
  rfl

end System

namespace Engine

open ShardLoad.System

variable {c : Config} {o : RunOptions} {around : Surroundings} {script : Script} {f : Finished}

/-- The users of a prepared run call the configured host. -/
theorem tidy_of_prepare {t : Terms} {s : System} (h : prepare c o around = .ok (t, s)) :
    s.Tidy c.target.host := by
  have hfresh := fresh_of_prepare h
  obtain ⟨-, plan, pool, hpool, -, rfl⟩ := exists_of_prepare h
  refine ⟨?_, ?_, rfl, .nil, Recorder.ordered_new _, Recorder.fed_new _ _⟩
  · intro u hu
    obtain ⟨hp, -, hsel⟩ := mem_users (List.mem_toArray.mp hu)
    refine ⟨by rw [hsel, host_of_ofTarget? hpool], ?_⟩
    rw [hp]
    trivial
  · intro x hx
    rw [hfresh.queue] at hx
    exact absurd hx List.not_mem_nil

/-- Every gauge reads the same at the service and in the snapshot of a run that is over. -/
theorem booked_eq_sent (hs : around.transport = .scripted script) {t : Terms} {s₀ s : System}
    (h : prepare c o around = .ok (t, s₀)) (hr : System.MayReach t s₀ s)
    (hover : s.isOver = true) (g : Gauge c.target.host) :
    g.booked s.published = g.sent s.shared.ledger := by
  have hfresh := fresh_of_prepare h
  have htidy := tidy_of_prepare h
  have ht : t.transport = .scripted script := (transport_of_prepare h).trans hs
  have hr₀ : Reads g s₀ := by
    obtain ⟨n, hn⟩ := hfresh.ledger
    obtain ⟨interval, hi⟩ := hfresh.recorder
    have hzero : s₀.sum g.inHand = 0 := by
      apply sum_eq_zero
      intro u hu
      simp only [Gauge.inHand, (hfresh.idle u hu).1]
    show g.sent s₀.shared.ledger = _
    rw [hn, hi, hfresh.queue, hzero, g.sent_new, g.booked_new]
    rfl
  have hreads : g.sent s.shared.ledger = g.booked s.recorder +
    g.inQueue s.shared.channel.queue + s.sum g.inHand := reads_of_mayReach g hr ht htidy hr₀
  obtain ⟨hpub, hqueue, hgone⟩ := settled_of_mayReach hr hfresh (isOver_iff.mp hover).1
  rw [hpub, hreads, hqueue, sum_inHand_of_allGone g hgone]
  rfl

/-- **What a run returns agrees with what the service counted**, whatever the order in which
users, samples, publications and interruptions came: every call was booked once, under its
operation and under its shard, and nobody is left at work. -/
theorem snapshot_eq_ledger (hs : around.transport = .scripted script)
    (h : Returns c o around f) :
    f.result.snapshot.total = f.result.iterations.sum ∧
    f.result.iterations.sum = f.ledger.calls ∧
    f.result.snapshot.operations.count Operation.transaction.name = f.ledger.transactions ∧
    f.result.snapshot.operations.count Operation.rootRead.name = f.ledger.rootReads ∧
    (∀ port : UInt16,
      (f.result.snapshot.shards.filter fun row =>
        row.name = (Endpoint.mk c.target.host port).label).map ShardRow.total =
          if f.ledger.ports.count (portKey port) = 0 then []
          else [f.ledger.ports.count (portKey port)]) ∧
    (∀ row ∈ f.result.snapshot.shards, ∃ port,
      row.name = (Endpoint.mk c.target.host port).label) ∧
    f.result.activeUsers = 0 := by
  obtain ⟨t, s₀, s, hprep, hr, hover, rfl⟩ := h
  have hbooked := fun g => booked_eq_sent hs hprep hr hover g
  have hfresh := fresh_of_prepare hprep
  have htidy := tidy_of_prepare hprep
  have ht : t.transport = .scripted script := (transport_of_prepare hprep).trans hs
  have htidy := tidy_of_mayReach hr ht htidy
  obtain ⟨hpub, -, hgone⟩ := settled_of_mayReach hr hfresh (isOver_iff.mp hover).1
  have hcalls : s.sum User.iterations = s.shared.ledger.calls := by
    rw [calls_eq_sum_issued hr ht hfresh, sum_issued_of_allGone hgone]
  refine ⟨total_published hr hfresh hover, hcalls, hbooked (Gauge.operation _ .transaction),
    hbooked (Gauge.operation _ .rootRead), ?_, ?_, ?_⟩
  · intro port
    have hport : s.published.shardTotal (Endpoint.mk c.target.host port).label =
        s.shared.ledger.ports.count (portKey port) := hbooked (Gauge.port _ port)
    have hrows := Recorder.rows_eq (hpub ▸ htidy.ordered) (hpub ▸ htidy.fed)
      (Endpoint.mk c.target.host port).label
    rw [hport] at hrows
    exact hrows
  · intro row hrow
    obtain ⟨kv, hkv, rfl⟩ := List.mem_map.mp hrow
    exact ((hpub ▸ htidy.fed : s.published.Fed _) kv hkv).1
  · show s.shared.active.count.toNat = 0
    rw [active_of_allGone (staffed_of_mayReach hr hfresh) hgone]
    rfl

/-- It does so for the built-in configuration and a service that fails three calls. -/
theorem snapshot_eq_ledger_default :
    ∃ f, run Config.default ⟨none, some 1, false⟩
        ⟨.scripted ⟨.answer, .ofMillis 20⟩, 3, fun _ => .seeded 0, 0⟩ = .ok f ∧
      f.result.snapshot.total = f.result.iterations.sum ∧
      f.result.iterations.sum = f.ledger.calls ∧ f.result.activeUsers = 0 := by
  obtain ⟨t, s₀, s, -, -, hrun⟩ := exists_run_default ⟨none, some 1, false⟩
    ⟨.scripted ⟨.answer, .ofMillis 20⟩, 3, fun _ => .seeded 0, 0⟩ (by decide)
  obtain ⟨htotal, hcalls, -, -, -, -, hactive⟩ := snapshot_eq_ledger rfl (returns_of_run hrun)
  exact ⟨finish s, hrun, htotal, hcalls, hactive⟩

end Engine
end ShardLoad
