import ShardLoad.Duration
import ShardLoad.Metrics.Snapshot

/-!
# The result of a run

What is left of a run: what was counted, how long it took, and how many
iterations each user made.

* `RunResult`: the result.
* `Snapshot.throughput`: iterations by second.
-/

namespace ShardLoad

/-- Iterations by second; zero if no time has passed. -/
def Snapshot.throughput (s : Snapshot) (elapsed : Duration) : Float :=
  if elapsed.seconds > 0 then Float.ofNat s.total / elapsed.seconds else 0

/-- What is left of a run. -/
structure RunResult where
  snapshot : Snapshot
  /-- From the start to the end of the last call. -/
  elapsed : Duration
  /-- Users still at work at the end. -/
  activeUsers : Nat
  /-- Iterations of each user, in the order of the users. -/
  iterations : List Nat
  deriving Repr

end ShardLoad
