import ShardLoad.Call
import ShardLoad.Duration
import ShardLoad.Invocation
import ShardLoad.Keyed
import ShardLoad.Shard.Address

/-!
# What answers the calls

A call is sent, takes some time, and then its reply comes back.  Calls go over a
transport: either a scripted service, which stands in for all shards, or the
network.

A scripted service behaves in one way to every call, after a fixed latency; a
call that would take at least the time it may take ends in a timeout at that time
instead.  Nothing lets a call wait for longer than thirty years: what is due later
comes then.  A number of failures can be put into it, and then so many of the calls
that do not time out fail first.  It counts the calls that reach it.

What is at the other end of the network is not known.  A `Network` says of every
call of a run how long it would take and how it would end, in any way whatever:
the calls are told apart by the user that makes them and by how many it made
before.  A call to an endpoint that cannot even be tried fails at once, and one
that would take longer than it may ends in a timeout.

* `Network`: what is at the other end.
* `Transport.send`: the counts with a call that is being sent.
* `Transport.millis`: how long the call takes.
* `Transport.reply`: the result of the call.
-/

namespace ShardLoad

/-- What a scripted service does with a call. -/
inductive Behavior where
  | answer
  | reject (code : Status)
  | fail (e : CallError)
  deriving Repr, DecidableEq

namespace Behavior

/-- Every call is refused when it connects. -/
def refused : Behavior := fail (.connection "connection refused")

/-- The head that is returned with every answer. -/
def head : Bytes := List.replicate 32 0

/-- The result of a call. -/
def result : Behavior → CallResult
  | answer => .ok (Response.ok head)
  | reject code => .ok (Response.rejected code "mock rejection")
  | fail e => .error e

end Behavior

/-- A scripted service. -/
structure Script where
  behavior : Behavior
  latency : Duration
  deriving Repr, DecidableEq

/-- What a scripted service has counted, and the failures left in it. -/
structure Ledger where
  calls : Nat
  transactions : Nat
  rootReads : Nat
  /-- Calls by the port they went to. -/
  ports : Counts
  failuresLeft : Nat
  deriving Repr, DecidableEq

/-- The key of a port: five digits, so that keys are in the order of ports. -/
def portKey (port : UInt16) : String :=
  let digits := Nat.toDigits 10 port.toNat
  String.ofList (List.replicate (5 - digits.length) '0' ++ digits)

namespace Ledger

/-- No calls yet, and a number of failures to come. -/
def new (failures : Nat) : Ledger := ⟨0, 0, 0, [], failures⟩

/-- One more call. -/
def count (l : Ledger) (operation : Operation) (port : UInt16) : Ledger :=
  let l := { l with calls := l.calls + 1, ports := l.ports.bump (portKey port) }
  match operation with
  | .transaction => { l with transactions := l.transactions + 1 }
  | .rootRead => { l with rootReads := l.rootReads + 1 }

end Ledger

namespace Script

/-- Whether a call ends in a timeout. -/
def timesOut (s : Script) (timeout : Duration) : Bool := timeout.nanos ≤ s.latency.nanos

/-- The longest that a call waits: thirty years of 365 days, in milliseconds. -/
def longestWait : Nat := 30 * 365 * 86400 * 1000

/-- How many milliseconds a call takes; a timer rounds up. -/
def millis (s : Script) (timeout : Duration) : Nat :=
  min longestWait (if s.timesOut timeout then timeout.ceilMillis else s.latency.ceilMillis)

/-- The result of a call whose time has come.  One of the failures that were put
in is used up unless the call timed out. -/
def reply (s : Script) (timeout : Duration) (e : Endpoint) (l : Ledger) : CallResult × Ledger :=
  if s.timesOut timeout then (.error .timeout, l)
  else
    match l.failuresLeft with
    | n + 1 =>
      (.error (.connection s!"{e.label}: injected failure"), { l with failuresLeft := n })
    | 0 => (s.behavior.result, l)

/-- A call takes no longer than it may. -/
theorem millis_le (s : Script) (timeout : Duration) : s.millis timeout ≤ timeout.ceilMillis := by
  refine Nat.le_trans (Nat.min_le_right ..) ?_
  unfold timesOut
  split
  · exact Nat.le_refl _
  · rename_i h
    simp only [decide_eq_true_eq, Nat.not_le] at h
    simp only [Duration.ceilMillis]
    omega

end Script

/-- A call with the user that makes it. -/
structure Outgoing where
  user : Nat
  /-- How many calls the user made before. -/
  before : Nat
  endpoint : Endpoint
  call : Call
  deriving Repr, DecidableEq

/-- What is at the other end of the network. -/
structure Network where
  /-- How many milliseconds pass before a call has ended, if it is let. -/
  latency : Outgoing → Nat
  /-- How the call ends then. -/
  result : Outgoing → CallResult

namespace Network

/-- A network with nobody at the other end. -/
def unreachable : Network where
  latency _ := 0
  result c := .error (.connection s!"{c.endpoint.label}: transport error")

/-- The longest that a call may take, in milliseconds. -/
def longest (timeout : Duration) : Nat := min Script.longestWait timeout.ceilMillis

/-- How many milliseconds a call takes, with TLS unless it is in plain text. -/
def millis (n : Network) (plaintext : Bool) (timeout : Duration) (c : Outgoing) : Nat :=
  if (c.endpoint.refusal? plaintext).isSome then 0 else min (n.latency c) (longest timeout)

/-- The result of a call whose time has come. -/
def reply (n : Network) (plaintext : Bool) (timeout : Duration) (c : Outgoing) : CallResult :=
  match c.endpoint.refusal? plaintext with
  | some refusal => .error (.connection refusal)
  | none => if longest timeout < n.latency c then .error .timeout else n.result c

/-- A call takes no longer than it may. -/
theorem millis_le (n : Network) (plaintext : Bool) (timeout : Duration) (c : Outgoing) :
    n.millis plaintext timeout c ≤ timeout.ceilMillis := by
  unfold millis longest
  split
  · exact Nat.zero_le _
  · exact Nat.le_trans (Nat.min_le_right ..) (Nat.min_le_right ..)

end Network

/-- What the calls of a run go over. -/
inductive Transport where
  | scripted (s : Script)
  | network (plaintext : Bool) (n : Network)

namespace Transport

/-- How many milliseconds a call takes. -/
def millis (t : Transport) (timeout : Duration) (c : Outgoing) : Nat :=
  match t with
  | scripted s => s.millis timeout
  | network plaintext n => n.millis plaintext timeout c

/-- How many milliseconds any call takes at least. -/
def leastMillis (t : Transport) (timeout : Duration) : Nat :=
  match t with
  | scripted s => s.millis timeout
  | network _ _ => 0

/-- The counts with a call that is being sent. -/
def send (t : Transport) (operation : Operation) (e : Endpoint) (l : Ledger) : Ledger :=
  match t with
  | scripted _ => l.count operation e.port
  | network _ _ => l

/-- The result of a call whose time has come. -/
def reply (t : Transport) (timeout : Duration) (c : Outgoing) (l : Ledger) :
    CallResult × Ledger :=
  match t with
  | scripted s => s.reply timeout c.endpoint l
  | network plaintext n => (n.reply plaintext timeout c, l)

/-- A call takes no longer than it may. -/
theorem millis_le (t : Transport) (timeout : Duration) (c : Outgoing) :
    t.millis timeout c ≤ timeout.ceilMillis := by
  cases t with
  | scripted s => exact s.millis_le timeout
  | network plaintext n => exact n.millis_le plaintext timeout c

/-- No call takes less. -/
theorem leastMillis_le (t : Transport) (timeout : Duration) (c : Outgoing) :
    t.leastMillis timeout ≤ t.millis timeout c := by
  cases t with
  | scripted s => exact Nat.le_refl _
  | network => exact Nat.zero_le _

/-- A reply counts nothing. -/
theorem calls_reply (t : Transport) (timeout : Duration) (c : Outgoing) (l : Ledger) :
    (t.reply timeout c l).2.calls = l.calls := by
  cases t with
  | network => rfl
  | scripted s =>
    simp only [reply, Script.reply]
    split
    · rfl
    · split <;> rfl

end Transport
end ShardLoad
