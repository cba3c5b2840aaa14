import ShardLoad.Proofs.Run.Moves
import ShardLoad.Proofs.Config.Validity

/-!
# How a run starts

Before anything happens all users are idle, nothing was counted, and the clock shows
zero.  What holds of a run is proved from these facts, and not from how the run of a
configuration is put together.

* `System.Fresh`: a system in which nothing has happened.
* `Engine.exists_of_prepare`: what the preparation of a run has checked and built, and
  `Engine.exists_prepare_of_plan`: when there is one.
* `Engine.fresh_of_prepare`: the run of a configuration starts fresh.
* `Engine.times_of_prepare`, `Engine.cap_of_prepare`, `Engine.transport_of_prepare`: its terms.
* `Engine.pos_of_validate`, `Engine.capacity_pos_of_prepare`: what is not zero.
-/

namespace ShardLoad

/-- A system in which nothing has happened. -/
structure System.Fresh (s : System) : Prop where
  idle : ∀ u ∈ s.users, u.phase = .idle ∧ u.iterations = 0
  now : s.shared.now = 0
  running : s.shared.cancelled = false
  slots : s.shared.slots = 0
  ledger : ∃ n, s.shared.ledger = .new n
  queue : s.shared.channel.queue = []
  opened : s.shared.channel.closed = false
  active : s.shared.active = .none
  recorder : ∃ interval, s.recorder = .new interval
  tick : s.nextTick = 0
  collecting : s.collecting = true

namespace Engine

variable {c : Config} {o : RunOptions} {around : Surroundings} {t : Terms} {s : System}

/-- What comes out of one computation after another has a first part that came out. -/
theorem exists_of_bind {ε α β : Type} {x : Except ε α} {f : α → Except ε β} {b : β}
    (h : x >>= f = .ok b) : ∃ a, x = .ok a ∧ f a = .ok b := by
  cases x with
  | error e => exact absurd h (by simp [bind, Except.bind])
  | ok a => exact ⟨a, rfl, h⟩

/-- What is planned was checked first, and is made of the mix, the target and the payload. -/
theorem parts_of_plan {plan : Plan} {pool : Pool} (h : Engine.plan c = .ok (plan, pool)) :
    c.validate = .ok () ∧ Pool.ofTarget? c.target = .ok pool ∧
      plan.operations = c.scenario.map Step.operation ∧
      Entropy.Weights.ofList? c.weights = .ok plan.weights ∧
      Builder.ofPayload? c.payload = .ok plan.builder := by
  unfold Engine.plan at h
  obtain ⟨⟨⟩, hvalid, h⟩ := exists_of_bind h
  rcases hp : Pool.ofTarget? c.target with e | pool'
  · rw [hp] at h
    cases h
  rcases hw : Entropy.Weights.ofList? c.weights with e | weights
  · rw [hp, hw] at h
    cases h
  rcases hb : Builder.ofPayload? c.payload with e | builder
  · rw [hp, hw, hb] at h
    cases h
  rw [hp, hw, hb] at h
  obtain ⟨rfl, rfl⟩ := Prod.mk.injEq .. ▸ Except.ok.inj h
  exact ⟨hvalid, rfl, rfl, rfl, rfl⟩

/-- What is planned was checked first, and calls the pool of the target. -/
theorem validate_of_plan {plan : Plan} {pool : Pool} (h : Engine.plan c = .ok (plan, pool)) :
    c.validate = .ok () ∧ Pool.ofTarget? c.target = .ok pool := by
  obtain ⟨hvalid, hpool, -⟩ := parts_of_plan h
  exact ⟨hvalid, hpool⟩

/-- What the preparation of a run has checked and built. -/
theorem exists_of_prepare (h : prepare c o around = .ok (t, s)) :
    c.validate = .ok () ∧ ∃ plan pool, Pool.ofTarget? c.target = .ok pool ∧
      t = terms c o around plan ∧ s = start c o around pool := by
  obtain ⟨⟨plan, pool⟩, hplan, h⟩ := exists_of_bind h
  obtain ⟨rfl, rfl⟩ := Prod.mk.injEq .. ▸ Except.ok.inj h
  obtain ⟨hvalid, hpool⟩ := validate_of_plan hplan
  exact ⟨hvalid, plan, pool, hpool, rfl, rfl⟩

/-- A run that can be set up can be prepared. -/
theorem exists_prepare_of_plan {planned : Plan × Pool} (h : plan c = .ok planned)
    (o : RunOptions) (around : Surroundings) : ∃ t s, prepare c o around = .ok (t, s) := by
  unfold prepare
  rw [h]
  exact ⟨_, _, rfl⟩

/-- A pool is on the host that was configured. -/
theorem host_of_ofTarget? {target : Target} {pool : Pool} (h : Pool.ofTarget? target = .ok pool) :
    pool.host = target.host :=
  (Pool.parts_of_make? h).1

/-- A user of a configured run is idle, has made no calls, and picks from the pool. -/
theorem mem_users {pool : Pool} {u : User} (h : u ∈ users c o around pool) :
    u.phase = .idle ∧ u.iterations = 0 ∧ u.agenda.selector.pool = pool := by
  obtain ⟨i, -, rfl⟩ := List.mem_map.mp h
  exact ⟨rfl, rfl, rfl⟩

/-- There are as many users as configured. -/
theorem size_start (pool : Pool) :
    (start c o around pool).users.size = c.settings.virtualUsers.toNat := by
  show (users c o around pool).toArray.size = _
  rw [List.size_toArray, users, List.length_map, List.length_range]

/-- The run of a configuration starts fresh. -/
theorem fresh_start (pool : Pool) : (start c o around pool).Fresh where
  idle u hu := by
    have h := mem_users (List.mem_toArray.mp hu)
    exact ⟨h.1, h.2.1⟩
  now := rfl
  running := rfl
  slots := rfl
  ledger := ⟨_, rfl⟩
  queue := rfl
  opened := rfl
  active := rfl
  recorder := ⟨_, rfl⟩
  tick := rfl
  collecting := rfl

/-- A configuration that was checked has users, takes some time, and lets calls take some. -/
theorem pos_of_validate (h : c.validate = .ok ()) :
    0 < c.settings.virtualUsers.toNat ∧ 0 < c.settings.durationSecs.toNat ∧
      0 < c.settings.timeout.toNat := by
  have hsettings := (c.validate_eq_ok_iff.mp h).settings
  refine ⟨Nat.pos_of_ne_zero ?_, Nat.pos_of_ne_zero ?_, Nat.pos_of_ne_zero ?_⟩
  · intro he
    exact hsettings.users (UInt32.toNat_inj.mp he)
  · intro he
    exact hsettings.duration (UInt64.toNat_inj.mp he)
  · intro he
    exact hsettings.timeout (UInt64.toNat_inj.mp he)

/-- The cap of a run is that of its options. -/
theorem cap_of_prepare (h : prepare c o around = .ok (t, s)) : t.cap = o.cap := by
  obtain ⟨-, plan, pool, -, rfl, -⟩ := exists_of_prepare h
  rfl

/-- The calls of a run go over the transport that it was given. -/
theorem transport_of_prepare (h : prepare c o around = .ok (t, s)) :
    t.transport = around.transport := by
  obtain ⟨-, plan, pool, -, rfl, -⟩ := exists_of_prepare h
  rfl

/-- The times of a run are those of its configuration, in milliseconds. -/
theorem times_of_prepare (h : prepare c o around = .ok (t, s)) :
    t.pacing = c.settings.pacing.toNat ∧ t.deadline = 1000 * c.settings.durationSecs.toNat ∧
      t.timeout = .ofMillis c.settings.timeout.toNat := by
  obtain ⟨-, plan, pool, -, rfl, -⟩ := exists_of_prepare h
  exact ⟨rfl, rfl, rfl⟩

/-- There is room for samples in the queue of a run that was prepared. -/
theorem capacity_pos_of_prepare (h : prepare c o around = .ok (t, s)) :
    0 < s.shared.channel.capacity := by
  obtain ⟨hv, plan, pool, -, -, rfl⟩ := exists_of_prepare h
  exact Nat.mul_pos (pos_of_validate hv).1 (by decide)

/-- A run that was prepared starts fresh. -/
theorem fresh_of_prepare (h : prepare c o around = .ok (t, s)) : s.Fresh := by
  obtain ⟨-, plan, pool, -, -, rfl⟩ := exists_of_prepare h
  exact fresh_start pool

end Engine
end ShardLoad
