import ShardLoad.Metrics.Recorder

/-!
# The way of samples

Users hand over their samples through one queue of bounded length.  Samples are
taken from it in the order in which they were put there.  Once nobody takes
samples any more the queue is closed, and what was still in it is lost.

* `Channel.push`, `Channel.pop?`, `Channel.close`: the operations.
-/

namespace ShardLoad

/-- A bounded queue of samples. -/
structure Channel where
  queue : List Sample
  capacity : Nat
  closed : Bool
  deriving Repr, DecidableEq

namespace Channel

/-- A queue with nothing in it. -/
def new (capacity : Nat) : Channel := ⟨[], capacity, false⟩

/-- Whether no more samples fit in. -/
def isFull (c : Channel) : Bool := c.capacity ≤ c.queue.length

/-- One more sample at the end. -/
def push (c : Channel) (s : Sample) : Channel := { c with queue := c.queue ++ [s] }

/-- The sample at the front, and the queue without it. -/
def pop? (c : Channel) : Option (Sample × Channel) :=
  match c.queue with
  | s :: rest => some (s, { c with queue := rest })
  | [] => none

/-- The queue without a taker. -/
def close (c : Channel) : Channel := { c with queue := [], closed := true }

end Channel
end ShardLoad
