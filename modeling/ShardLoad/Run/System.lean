import ShardLoad.Run.User

/-!
# A run with all its users

Users act side by side.  A collector takes their samples from the queue, records
them, and publishes what it has recorded every two seconds and once more when the
last user has stopped and the queue is empty.  A controller cancels the run when
its time is over.

What may happen at any moment is a set of actions; they may come in any order.
Time goes on only when nothing else can happen, and then to the first moment at
which something can.

Somebody may interrupt a run at any moment.  That cancels it like the end of its
time does: no new iterations start, and the calls that were made end.

* `System.step?`: what comes of an action.
* `System.Reaches`: what may come of any course of events.
* `System.MayReach`: the same, with interruptions.
* `System.run?`: one course of events, in which users take turns and samples are
  taken as soon as they are there.
-/

namespace ShardLoad

/-- A run with all its users. -/
structure System where
  users : Array User
  shared : Shared
  /-- What the collector has recorded. -/
  recorder : Recorder
  /-- What it had recorded when it last published. -/
  published : Recorder
  /-- When it publishes next. -/
  nextTick : Nat
  /-- Whether the collector is at work. -/
  collecting : Bool

namespace System

/-- How often the collector publishes, in milliseconds. -/
def tickPeriod : Nat := 2000

/-- What may happen. -/
inductive Action where
  /-- A user takes a step. -/
  | user (i : Nat)
  /-- The collector takes a sample. -/
  | take
  /-- The collector takes all samples and publishes. -/
  | tick
  /-- The collector publishes and stops, after the last user has. -/
  | finish
  /-- The controller cancels the run because its time is over. -/
  | deadline
  /-- Time goes on. -/
  | wait
  deriving Repr, DecidableEq

/-- Whether all users have stopped. -/
def allGone (s : System) : Bool := s.users.all User.isGone

/-- Whether there is a sample to take. -/
def canTake (s : System) : Bool := s.collecting && !s.shared.channel.queue.isEmpty

/-- Whether it is time to publish. -/
def canTick (s : System) : Bool := s.collecting && s.nextTick ≤ s.shared.now

/-- Whether the collector has nothing more to expect. -/
def canFinish (s : System) : Bool :=
  s.collecting && s.shared.channel.queue.isEmpty && s.allGone

/-- Whether the time of the run is over. -/
def canExpire (t : Terms) (s : System) : Bool :=
  !s.shared.cancelled && t.deadline ≤ s.shared.now

/-- Whether nothing can happen before time goes on. -/
def isIdle (t : Terms) (s : System) : Bool :=
  !s.canTake && !s.canTick && !s.canExpire t && !s.canFinish &&
    !s.users.any fun u => u.canStep t s.shared

/-- The earlier of two moments, if there are any. -/
def earlier : Option Nat → Option Nat → Option Nat
  | some a, some b => some (min a b)
  | some a, none => some a
  | none, b => b

/-- The first moment that anybody is waiting for. -/
def timer? (t : Terms) (s : System) : Option Nat :=
  let tick := if s.collecting then some s.nextTick else none
  let deadline := if s.shared.cancelled then none else some t.deadline
  s.users.foldl (fun first u => earlier first (u.timer? t)) (earlier tick deadline)

/-- A step of one user. -/
def stepUser? (t : Terms) (i : Nat) (s : System) : Option System :=
  match s.users[i]? with
  | some u =>
    (u.step? t s.shared).map fun (u, shared) =>
      { s with users := s.users.setIfInBounds i u, shared := shared }
  | none => none

/-- The collector takes one sample. -/
def take? (s : System) : Option System :=
  if s.collecting then
    s.shared.channel.pop?.map fun (x, channel) =>
      { s with
        shared := { s.shared with channel := channel }
        recorder := s.recorder.record x }
  else none

/-- The collector takes all samples and publishes what it has recorded. -/
def publish (s : System) : System :=
  let recorder := s.recorder.recordAll s.shared.channel.queue
  { s with
    shared := { s.shared with channel := { s.shared.channel with queue := [] } }
    recorder := recorder
    published := recorder
    nextTick := s.shared.now + tickPeriod }

/-- What comes of an action, if it can happen. -/
def step? (t : Terms) (s : System) : Action → Option System
  | .user i => s.stepUser? t i
  | .take => s.take?
  | .tick => if s.canTick then some s.publish else none
  | .finish => if s.canFinish then some { s.publish with collecting := false } else none
  | .deadline =>
    if s.canExpire t then some { s with shared := { s.shared with cancelled := true } }
    else none
  | .wait =>
    if s.isIdle t then
      (s.timer? t).map fun moment => { s with shared := { s.shared with now := moment } }
    else none

/-- What may come of a course of events. -/
inductive Reaches (t : Terms) : System → System → Prop
  | refl (s : System) : Reaches t s s
  | step {s s' s'' : System} (a : Action) :
      Reaches t s s' → s'.step? t a = some s'' → Reaches t s s''

/-- The run is interrupted: no new iterations start. -/
def interrupt (s : System) : System := { s with shared := { s.shared with cancelled := true } }

/-- What may come of a course of events that is interrupted now and then. -/
inductive MayReach (t : Terms) : System → System → Prop
  | refl (s : System) : MayReach t s s
  | step {s s' s'' : System} (a : Action) :
      MayReach t s s' → s'.step? t a = some s'' → MayReach t s s''
  | interrupt {s s' : System} : MayReach t s s' → MayReach t s s'.interrupt

/-- Whether a run is over: it was cancelled, and everybody has stopped. -/
def isOver (s : System) : Bool := !s.collecting && s.shared.cancelled && s.allGone

/-! ## One course of events -/

/-- The first user from one on that can take a step, looking at so many. -/
def findUser? (t : Terms) (s : System) : (count i : Nat) → Option Nat
  | 0, _ => none
  | count + 1, i =>
    let i := if i < s.users.size then i else 0
    match s.users[i]? with
    | some u => if u.canStep t s.shared then some i else findUser? t s count (i + 1)
    | none => none

/-- What happens next, when it is the turn of a user. -/
def next? (t : Terms) (turn : Nat) (s : System) : Option Action :=
  if s.isOver then none
  else if s.canTake then some .take
  else if s.canExpire t then some .deadline
  else if s.canTick then some .tick
  else
    match findUser? t s s.users.size turn with
    | some i => some (.user i)
    | none => if s.canFinish then some .finish else some .wait

/-- Whose turn it is after an action.  A user's turn ends with its call. -/
def nextTurn (turn : Nat) (a : Action) (s : System) : Nat :=
  match a with
  | .user i =>
    match s.users[i]? with
    | some u =>
      match u.phase with
      | .pausing _ => i + 1
      | _ => i
    | none => i
  | _ => turn

/-- A run up to its end, from the turn of a user on, if so many actions are enough. -/
def runFor (t : Terms) : (count turn : Nat) → System → Option System
  | 0, _, _ => none
  | count + 1, turn, s =>
    match s.next? t turn with
    | none => some s
    | some a =>
      match s.step? t a with
      | some s' => runFor t count (s'.nextTurn turn a) s'
      | none => none

/-- More actions than a run has that ends.  A user takes ten steps for each call and some to
start and to stop, and the collector takes one for each sample; the clock moves only before
the last call that was made in time has ended. -/
def maxActions (t : Terms) (s : System) : Nat :=
  2 * (s.users.size * (10 * (t.maxCalls + 2))) + 2 * (t.deadline + t.timeout.ceilMillis) + 4

/-- A run up to its end.  There is no result if the run never ends. -/
def run? (t : Terms) (s : System) : Option System := runFor t (maxActions t s) 0 s

/-- Courses of events can be put together. -/
theorem Reaches.trans {t : Terms} {s s' s'' : System} (h : Reaches t s s')
    (h' : Reaches t s' s'') : Reaches t s s'' := by
  induction h' with
  | refl => exact h
  | step a _ ha ih => exact .step a ih ha

/-- A course of events without interruptions is one that may be interrupted. -/
theorem Reaches.mayReach {t : Terms} {s s' : System} (h : Reaches t s s') : MayReach t s s' := by
  induction h with
  | refl => exact .refl _
  | step a _ ha ih => exact .step a ih ha

/-- A run is a course of events, and it ends when nothing is next. -/
theorem reaches_of_runFor {t : Terms} {count turn : Nat} {s s' : System}
    (h : runFor t count turn s = some s') :
    Reaches t s s' ∧ ∃ turn', s'.next? t turn' = none := by
  induction count generalizing turn s with
  | zero => exact absurd h (by simp [runFor])
  | succ count ih =>
    unfold runFor at h
    split at h
    · rename_i hn
      obtain rfl := Option.some.inj h
      exact ⟨.refl _, turn, hn⟩
    · rename_i a _
      split at h
      · rename_i ha
        obtain ⟨hr, ht⟩ := ih h
        exact ⟨(Reaches.step a (.refl _) ha).trans hr, ht⟩
      · exact absurd h (by simp)

/-- A run that is over has nobody at work. -/
theorem isOver_of_run? {t : Terms} {s s' : System} (h : run? t s = some s') :
    Reaches t s s' ∧ s'.isOver = true := by
  obtain ⟨hr, turn, hn⟩ := reaches_of_runFor h
  refine ⟨hr, ?_⟩
  unfold next? at hn
  split at hn
  · assumption
  · split at hn
    · simp at hn
    · split at hn
      · simp at hn
      · split at hn
        · simp at hn
        · split at hn
          · simp at hn
          · split at hn <;> simp at hn

end System
end ShardLoad
