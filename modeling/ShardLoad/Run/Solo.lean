import ShardLoad.Run.User

/-!
# One user alone

A user can be watched on its own: somebody takes its samples, may stop doing so
after a while, and somebody may cancel it.  All of this may happen between any
two steps of the user.  Time passes only when nothing else can happen, and then
goes on to the next moment at which something can.

`Solo.run?` is one such course of events.  The user goes first: the others act only
when it has to wait or lets them.  Then it is cancelled if it is time to, and its
samples are taken, for as long as the taker wants them.  All is over when the user
has stopped and the taker has gone or has taken everything.

* `Solo.step?`: what may happen next.
* `Solo.run?`: one course of events, up to the end of the user.
-/

namespace ShardLoad

/-- One user with the taker of its samples. -/
structure Solo where
  user : User
  shared : Shared
  /-- The samples that were taken, in order. -/
  received : Array Sample

namespace Solo

/-- What may happen. -/
inductive Action where
  /-- The user takes a step. -/
  | user
  /-- The next sample is taken. -/
  | take
  /-- No samples are taken any more. -/
  | hangUp
  | cancel
  /-- Time goes on to a later moment. -/
  | wait (moment : Nat)
  deriving Repr, DecidableEq

/-- What comes of an action, if it can happen. -/
def step? (t : Terms) (s : Solo) : Action → Option Solo
  | .user => (s.user.step? t s.shared).map fun (u, sh) => { s with user := u, shared := sh }
  | .take => s.shared.channel.pop?.map fun (x, c) =>
      { s with shared := { s.shared with channel := c }, received := s.received.push x }
  | .hangUp =>
    if s.shared.channel.closed then none
    else some { s with shared := { s.shared with channel := s.shared.channel.close } }
  | .cancel =>
    if s.shared.cancelled then none
    else some { s with shared := { s.shared with cancelled := true } }
  | .wait moment =>
    if s.shared.now < moment then some { s with shared := { s.shared with now := moment } }
    else none

/-- When somebody interferes with a user. -/
structure Plot where
  /-- After how many samples no more are taken. -/
  limit : Option Nat
  /-- When the user is cancelled. -/
  cancelAt : Option Nat
  deriving Repr, DecidableEq

/-- Whether no more samples are to be taken. -/
def Plot.isSated (p : Plot) (s : Solo) : Bool :=
  match p.limit with
  | some n => !s.shared.channel.closed && n ≤ s.received.size
  | none => false

/-- Whether the user is to be cancelled. -/
def Plot.isCancelDue (p : Plot) (s : Solo) : Bool :=
  match p.cancelAt with
  | some moment => !s.shared.cancelled && moment ≤ s.shared.now
  | none => false

/-- The next moment at which something can happen. -/
def Plot.timer? (p : Plot) (t : Terms) (s : Solo) : Option Nat :=
  let cancelAt := if s.shared.cancelled then none else p.cancelAt
  match s.user.timer? t, cancelAt with
  | some a, some b => some (min a b)
  | some a, none => some a
  | none, b => b

/-- Whether the moment belongs to the others. -/
def rests (t : Terms) (s : Solo) : Bool := s.user.yields t || !s.user.canStep t s.shared

/-- What happens next. -/
def Plot.next? (p : Plot) (t : Terms) (s : Solo) : Option Action :=
  if s.user.isGone && s.shared.channel.closed then none
  else if !s.rests t then some .user
  else if p.isCancelDue s then some .cancel
  else if p.isSated s then some .hangUp
  else if !s.shared.channel.queue.isEmpty then some .take
  else if s.user.isGone then none
  else if s.user.canStep t s.shared then some .user
  else (p.timer? t s).map .wait

/-- The course of events up to its end, if so many actions are enough. -/
def runFor (p : Plot) (t : Terms) : (count : Nat) → Solo → Option Solo
  | 0, _ => none
  | count + 1, s =>
    match p.next? t s with
    | none => some s
    | some a =>
      match s.step? t a with
      | some s' => runFor p t count s'
      | none => none

/-- More actions than a course of events has that ends: ten steps of the user for each call and
some to start and to stop, one to take each sample, and the moments up to the last one that
somebody may wait for. -/
def maxActions (p : Plot) (t : Terms) : Nat :=
  let calls := t.maxCalls + p.limit.getD 0 + 1
  2 * (10 * (calls + 2)) + (t.deadline + t.timeout.ceilMillis + p.cancelAt.getD 0) + 4

/-- The course of events up to its end.  There is no result if it has none. -/
def run? (p : Plot) (t : Terms) (s : Solo) : Option Solo := runFor p t (maxActions p t) s

end Solo
end ShardLoad
