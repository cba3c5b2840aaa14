import ShardLoad.Shard.Pool
import ShardLoad.Entropy.WordSource

/-!
# Picking shards

Each virtual user picks the shard of a call from its own view of the pool.  In
random order every pick is a bounded draw from the user's generator; in turn,
picks follow a cursor that starts at an offset of the user's own and draw
nothing.

* `Selector.pick`: one pick.
* `pickIndex_roundRobin`: in turn, the pick is the cursor and draws nothing.
-/

namespace ShardLoad

/-- A pool, a way to pick from it, and the shard whose turn it is. -/
structure Selector where
  pool : Pool
  mode : Selection
  cursor : Nat
  deriving Repr, DecidableEq

namespace Selector

/-- A selector whose first pick in turn is shard `start`, counted round. -/
def make (pool : Pool) (mode : Selection) (start : Nat) : Selector :=
  ⟨pool, mode, start % pool.size⟩

variable {σ : Type} [Entropy.WordSource σ]

/-- The index of the next shard. -/
def pickIndex (s : Selector) (source : σ) : Nat × Selector × σ :=
  match s.mode with
  | .random =>
    let (i, source) := Entropy.bounded s.pool.size.toUInt64 source
    (i.toNat, s, source)
  | .roundRobin => (s.cursor, { s with cursor := (s.cursor + 1) % s.pool.size }, source)

/-- The endpoint of the next call. -/
def pick (s : Selector) (source : σ) : Endpoint × Selector × σ :=
  let (i, s', source) := s.pickIndex source
  (s.pool.endpoint i, s', source)

/-- In turn, a pick is the shard at the cursor and leaves the generator alone. -/
theorem pickIndex_roundRobin {s : Selector} (h : s.mode = .roundRobin) (source : σ) :
    s.pickIndex source =
      (s.cursor, { s with cursor := (s.cursor + 1) % s.pool.size }, source) := by
  simp [pickIndex, h]

/-- Picking never changes the pool or the way to pick. -/
theorem pickIndex_pool (s : Selector) (source : σ) :
    (s.pickIndex source).2.1.pool = s.pool ∧ (s.pickIndex source).2.1.mode = s.mode := by
  unfold pickIndex
  cases h : s.mode <;> simp [h]

/-- The cursor of a new selector is a shard of the pool. -/
theorem cursor_make_lt (pool : Pool) (mode : Selection) (start : Nat) :
    (make pool mode start).cursor < pool.size :=
  Nat.mod_lt _ pool.pos

end Selector
end ShardLoad
