import ShardLoad.Config.Validate
import ShardLoad.Result.Basic
import ShardLoad.Run.System

/-!
# Running a configuration

A configuration is checked and made into a run: the pool of shards, the weights of
the steps, the builder of requests, and one user for each that is configured, with
a generator of its own.  The run then goes on until its time is over or all its
iterations are taken, and until the calls that were already made have ended.

The moment at which the run is to end must be one that a clock can show, that is,
less than `2 ^ 63` seconds.

* `Engine.prepare`: the run of a configuration, before anything happens.
* `Engine.run`: the run with its result.
* `Engine.Returns`: what the run may return.
-/

namespace ShardLoad

/-- What is asked of a run besides its configuration. -/
structure RunOptions where
  /-- How many calls are made at most. -/
  cap : Option UInt64
  /-- What the users' generators are seeded with. -/
  seed : Option UInt64
  /-- Whether each request is logged. -/
  logsRequests : Bool
  deriving Repr, DecidableEq

/-- What a run starts from that it does not choose itself. -/
structure Surroundings where
  transport : Transport
  /-- How many failures a scripted service starts with. -/
  failures : Nat
  /-- The generators of users that are not seeded. -/
  spare : Nat → Entropy.Source
  /-- The seconds that the clock shows at the start. -/
  clock : Nat

/-- Why there is no result. -/
inductive RunError where
  | invalid (e : Invalid)
  /-- The end of the run is a moment that no clock can show. -/
  | beyondClock
  /-- The run does not end. -/
  | endless
  deriving Repr, DecidableEq

/-- A run that is over. -/
structure Finished where
  result : RunResult
  ledger : Ledger
  log : Array Event
  deriving Repr

namespace Engine

/-- What all users share about their calls, with the pool that they call. -/
def plan (c : Config) : Except Invalid (Plan × Pool) := do
  c.validate
  let pool ← match Pool.ofTarget? c.target with
    | .ok pool => pure pool
    | .error e => throw (.pool e)
  let weights ← match Entropy.Weights.ofList? c.weights with
    | .ok weights => pure weights
    | .error e => throw (.weights e)
  let builder ← match Builder.ofPayload? c.payload with
    | .ok builder => pure builder
    | .error e => throw (.token e)
  return (⟨c.scenario.map Step.operation, weights, builder⟩, pool)

/-- The generator of a user. -/
def source (o : RunOptions) (around : Surroundings) (user : Nat) : Entropy.Source :=
  match o.seed with
  | some seed => .forUser seed user.toUInt32
  | none => around.spare user

/-- How many samples wait in the queue at most, for each user. -/
def queueLength : Nat := 100

/-- What is fixed for the run of a configuration. -/
def terms (c : Config) (o : RunOptions) (around : Surroundings) (plan : Plan) : Terms where
  plan := plan
  transport := around.transport
  timeout := .ofMillis c.settings.timeout.toNat
  pacing := c.settings.pacing.toNat
  deadline := 1000 * c.settings.durationSecs.toNat
  cap := o.cap
  logsRequests := o.logsRequests

/-- The users of the run of a configuration. -/
def users (c : Config) (o : RunOptions) (around : Surroundings) (pool : Pool) : List User :=
  (List.range c.settings.virtualUsers.toNat).map fun i =>
    User.new i ⟨source o around i, Selector.make pool c.target.selection i⟩

/-- The run of a configuration, before anything happens. -/
def start (c : Config) (o : RunOptions) (around : Surroundings) (pool : Pool) : System :=
  let recorder := Recorder.new c.settings.effectiveInterval.toNat
  let capacity := c.settings.virtualUsers.toNat * queueLength
  { users := (users c o around pool).toArray
    shared := (Shared.start around.failures capacity).note
      (.started c.settings.virtualUsers.toNat c.settings.durationSecs.toNat
        c.settings.pacing.toNat pool.size pool.basePort.toNat)
    recorder := recorder
    published := recorder
    nextTick := 0
    collecting := true }

/-- The run of a configuration with what is fixed for it. -/
def prepare (c : Config) (o : RunOptions) (around : Surroundings) :
    Except Invalid (Terms × System) := do
  let (plan, pool) ← plan c
  return (terms c o around plan, start c o around pool)

/-- What is left of a run that is over. -/
def finish (s : System) : Finished :=
  let snapshot := s.published.snapshot
  let iterations := s.users.toList.map User.iterations
  { result := ⟨snapshot, .ofMillis s.shared.now, s.shared.active.count.toNat, iterations⟩
    ledger := s.shared.ledger
    log := s.shared.log.push (.ended snapshot.total snapshot.passed snapshot.failed s.shared.now) }

/-- Whether a clock can show the end of a run. -/
def fitsClock (c : Config) (around : Surroundings) : Bool :=
  around.clock + c.settings.durationSecs.toNat < 2 ^ 63

/-- The run of a configuration with its result. -/
def run (c : Config) (o : RunOptions) (around : Surroundings) : Except RunError Finished :=
  match prepare c o around with
  | .error e => .error (.invalid e)
  | .ok (t, s) =>
    if fitsClock c around then
      match s.run? t with
      | some s => .ok (finish s)
      | none => .error .endless
    else .error .beyondClock

/-- What a run may return: what is left of it when it is over, in whatever order
things happened and whether or not it was interrupted. -/
def Returns (c : Config) (o : RunOptions) (around : Surroundings) (f : Finished) : Prop :=
  ∃ t s s', prepare c o around = .ok (t, s) ∧ System.MayReach t s s' ∧ s'.isOver = true ∧
    finish s' = f

/-- A run returns what it may return. -/
theorem returns_of_run {c : Config} {o : RunOptions} {around : Surroundings} {f : Finished}
    (h : run c o around = .ok f) : Returns c o around f := by
  unfold run at h
  split at h
  · exact absurd h (by simp)
  · rename_i t s hp
    split at h
    · split at h
      · rename_i s' hs
        obtain ⟨hr, hover⟩ := System.isOver_of_run? hs
        exact ⟨t, s, s', hp, hr.mayReach, hover, Except.ok.inj h⟩
      · exact absurd h (by simp)
    · exact absurd h (by simp)

end Engine
end ShardLoad
