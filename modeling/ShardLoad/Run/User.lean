import ShardLoad.Json.Printer
import ShardLoad.Run.Active
import ShardLoad.Run.Agenda
import ShardLoad.Run.Channel
import ShardLoad.Run.Event
import ShardLoad.Run.Transport

/-!
# Virtual users

A user makes one call after another.  Before each call it looks whether the run
was cancelled or its time is over, and takes one of the run's iterations if their
number is limited; the user that finds none left cancels the run.  After each
call it hands over a sample and waits.

What a user does is cut into steps, between which other users may act.  A step is
possible only when what it waits for has come: the reply to a call, room in the
queue, the end of a pause.  Time passes only between steps.

* `Terms`: what is fixed for a run.
* `Shared`: what users share and change.
* `User.step?`: the next step of a user, if it is possible.
* `isSome_step?`: when it is.
-/

namespace ShardLoad

/-- What is fixed for a run.  Times are milliseconds from its start. -/
structure Terms where
  plan : Plan
  transport : Transport
  /-- How long a call may take. -/
  timeout : Duration
  /-- How long a user waits after a call. -/
  pacing : Nat
  /-- From here on no call is made. -/
  deadline : Nat
  /-- How many calls are made at most. -/
  cap : Option UInt64
  /-- Whether each request is logged. -/
  logsRequests : Bool

namespace Terms

/-- How long a call takes at least. -/
def callTime (t : Terms) : Nat := t.transport.leastMillis t.timeout

/-- How long it is at least from a call of a user to its next one. -/
def round (t : Terms) : Nat := t.pacing + t.callTime

/-- How many rounds start at most before the time of the run is over: the length of the run by
that of a round, rounded up. -/
def rounds (t : Terms) : Nat := (t.deadline + t.round - 1) / t.round

/-- How many calls a user makes at most, if it ever stops.  Rounds that take no time come to
an end only with the iterations of the run. -/
def maxCalls (t : Terms) : Nat :=
  if t.round = 0 then (t.cap.map UInt64.toNat).getD 0 else t.rounds

end Terms

/-- What users share and change. -/
structure Shared where
  /-- Milliseconds since the start. -/
  now : Nat
  cancelled : Bool
  /-- How many iterations were taken, with those beyond the limit. -/
  slots : UInt64
  ledger : Ledger
  channel : Channel
  active : Active
  log : Array Event
  deriving Repr

namespace Shared

/-- The start of a run. -/
def start (failures capacity : Nat) : Shared :=
  ⟨0, false, 0, .new failures, .new capacity, .none, #[]⟩

/-- One more entry in the log. -/
def note (s : Shared) (e : Event) : Shared := { s with log := s.log.push e }

end Shared

/-- Where a user stands. -/
inductive Phase where
  /-- Not yet at work. -/
  | idle
  /-- Before an iteration. -/
  | ready
  /-- About to take an iteration. -/
  | claiming
  /-- About to make a call. -/
  | admitted
  /-- Waiting for the reply to a call, sent at `since` and due at `due`. -/
  | calling (since due : Nat) (assignment : Assignment)
  /-- About to hand over a sample. -/
  | delivering (sample : Sample)
  /-- Waiting for the next iteration. -/
  | pausing (wake : Nat)
  /-- About to stop. -/
  | leaving (exit : Exit)
  | gone (exit : Exit)
  deriving Repr, DecidableEq

/-- A virtual user. -/
structure User where
  id : Nat
  agenda : Agenda
  phase : Phase
  /-- Calls whose reply has come. -/
  iterations : Nat
  /-- Whether a call has failed. -/
  warned : Bool
  deriving Repr

namespace User

/-- A user that is not yet at work. -/
def new (id : Nat) (agenda : Agenda) : User := ⟨id, agenda, .idle, 0, false⟩

/-- Whether a user has stopped. -/
def isGone (u : User) : Bool :=
  match u.phase with
  | .gone _ => true
  | _ => false

/-- Logs something about a user. -/
def note (u : User) (s : Shared) (e : UserEvent) : Shared := s.note (.user u.id e)

/-- A user that is about to stop. -/
def leave (u : User) (exit : Exit) : User := { u with phase := .leaving exit }

/-- The start of an iteration, if there is to be one. -/
def check (t : Terms) (u : User) (s : Shared) : User :=
  if s.cancelled then u.leave .cancelled
  else if t.deadline ≤ s.now then u.leave .deadline
  else { u with phase := .claiming }

/-- Takes one of the run's iterations.  If none is left the run is cancelled. -/
def claim (t : Terms) (u : User) (s : Shared) : User × Shared :=
  match t.cap with
  | none => ({ u with phase := .admitted }, s)
  | some max =>
    if max ≤ s.slots then
      (u.leave .iterationCap, { s with slots := s.slots + 1, cancelled := true })
    else ({ u with phase := .admitted }, { s with slots := s.slots + 1 })

/-- The log with a request that is about to be sent. -/
def noteRequest (t : Terms) (u : User) (a : Assignment) (s : Shared) : Shared :=
  if t.logsRequests then
    u.note s (.request a.endpoint.label (u.agenda.selector.pool.indexOf? a.endpoint)
      a.call.operation (Json.compact a.call.toJson))
  else s

/-- A call of a user as it goes out. -/
def outgoing (u : User) (a : Assignment) : Outgoing := ⟨u.id, u.iterations, a.endpoint, a.call⟩

/-- Makes the next call. -/
def send (t : Terms) (u : User) (s : Shared) : User × Shared :=
  let (a, agenda) := u.agenda.next t.plan
  let s := u.noteRequest t a s
  let due := s.now + t.transport.millis t.timeout (u.outgoing a)
  ({ u with agenda := agenda, phase := .calling s.now due a },
    { s with ledger := t.transport.send a.call.operation a.endpoint s.ledger })

/-- What is logged about a call that has ended. -/
def verdictEvent (u : User) (a : Assignment) (latency : Duration) (r : CallResult) : UserEvent :=
  match judge r with
  | .pass => .passed a.endpoint.label latency
  | .fail kind => .failed (!u.warned) a.endpoint.label kind r.detail

/-- Takes the reply to a call that was sent at a given time. -/
def receive (t : Terms) (u : User) (since : Nat) (a : Assignment) (s : Shared) :
    User × Shared :=
  let (result, ledger) := t.transport.reply t.timeout (u.outgoing a) s.ledger
  let latency := Duration.ofMillis (s.now - since)
  let sample : Sample := ⟨a.call.operation, latency, judge result, some a.endpoint.label⟩
  ({ u with
      phase := .delivering sample
      iterations := u.iterations + 1
      warned := u.warned || !(judge result).isPass },
    u.note { s with ledger := ledger } (u.verdictEvent a latency result))

/-- Hands over a sample, if there is room for it. -/
def deliver? (t : Terms) (u : User) (sample : Sample) (s : Shared) : Option (User × Shared) :=
  if s.channel.closed then some (u.leave .channelClosed, s)
  else if s.channel.isFull then none
  else some ({ u with phase := .pausing (min (s.now + t.pacing) t.deadline) },
    { s with channel := s.channel.push sample })

/-- Goes on after a pause, if it is over.  A user that does not pause at all lets
the others act and goes on. -/
def resume? (t : Terms) (u : User) (wake : Nat) (s : Shared) : Option User :=
  if t.pacing = 0 then some { u with phase := .ready }
  else if s.cancelled then some (u.leave .cancelled)
  else if wake ≤ s.now then some { u with phase := .ready }
  else none

/-- The next step of a user, if it is possible. -/
def step? (t : Terms) (u : User) (s : Shared) : Option (User × Shared) :=
  match u.phase with
  | .idle => some ({ u with phase := .ready }, { s with active := s.active.enter })
  | .ready => some (u.check t s, s)
  | .claiming => some (u.claim t s)
  | .admitted => some (u.send t s)
  | .calling since due a => if due ≤ s.now then some (u.receive t since a s) else none
  | .delivering sample => u.deliver? t sample s
  | .pausing wake => (u.resume? t wake s).map fun u => (u, s)
  | .leaving exit =>
    some ({ u with phase := .gone exit },
      { u.note s (.finished u.iterations exit) with active := s.active.leave })
  | .gone _ => none

/-- Whether a step of a user is possible. -/
def canStep (t : Terms) (u : User) (s : Shared) : Bool :=
  match u.phase with
  | .calling _ due _ => due ≤ s.now
  | .delivering _ => s.channel.closed || !s.channel.isFull
  | .pausing wake => t.pacing == 0 || s.cancelled || wake ≤ s.now
  | .gone _ => false
  | _ => true

/-- Whether a user lets others act before its next step although it could take it:
before it starts to work, and instead of a pause that takes no time. -/
def yields (t : Terms) (u : User) : Bool :=
  match u.phase with
  | .idle => true
  | .pausing _ => t.pacing == 0
  | _ => false

/-- The time that a user is waiting for. -/
def timer? (t : Terms) (u : User) : Option Nat :=
  match u.phase with
  | .calling _ due _ => some due
  | .pausing wake => if t.pacing = 0 then none else some wake
  | _ => none

/-- A step is possible exactly when there is one. -/
theorem isSome_step? (t : Terms) (u : User) (s : Shared) :
    (u.step? t s).isSome = u.canStep t s := by
  unfold step? canStep
  cases u.phase with
  | idle | ready | claiming | admitted | leaving | gone => rfl
  | calling since due a => by_cases h : due ≤ s.now <;> simp [h]
  | delivering sample =>
    simp only [deliver?]
    cases s.channel.closed <;> cases s.channel.isFull <;> rfl
  | pausing wake =>
    simp only [resume?]
    by_cases h0 : t.pacing = 0
    · simp [h0]
    · cases s.cancelled
      · by_cases hw : wake ≤ s.now <;> simp [h0, hw]
      · simp [h0]

end User
end ShardLoad
