import ShardLoad.Entropy.WordSource

/-!
# Weighted choice

A scenario gives each of its steps a weight.  A step is chosen by a draw below
the sum of the weights: it is the first step whose weights up to and including
its own sum to more than the draw.  A step of weight zero is thus never chosen.

A weight list is usable when it is not empty, its sum stays below `2 ^ 32` at
every partial sum, and its sum is not zero, looked at in that order.

* `Weights.ofList?`: the usable lists.
* `locate`: the step that a draw falls to.
* `Weights.choose`: one weighted choice.
-/

namespace ShardLoad.Entropy

/-- Why a list of weights cannot be chosen from. -/
inductive WeightError where
  | empty
  | overflow
  | allZero
  deriving Repr, DecidableEq

/-- The wording of a refusal. -/
def WeightError.message : WeightError → String
  | .empty => "Weights sequence is empty/too long/unordered"
  | .overflow => "Overflow when summing weights"
  | .allZero => "Not enough weights > zero"

/-- The sum of a list of weights. -/
def sumOf : List UInt32 → Nat
  | [] => 0
  | w :: ws => w.toNat + sumOf ws

/-- A list of weights with a sum in `[1, 2 ^ 32)`. -/
structure Weights where
  /-- The weights in the order of the steps. -/
  weights : List UInt32
  /-- Some weight is positive. -/
  pos : 0 < sumOf weights
  /-- The sum is a 32-bit number. -/
  bound : sumOf weights < 2 ^ 32

namespace Weights

/-- The sum of the weights. -/
def total (w : Weights) : Nat := sumOf w.weights

/-- The list of weights as something to choose from, if it is usable. -/
def ofList? (ws : List UInt32) : Except WeightError Weights :=
  if ws = [] then .error .empty
  else if hb : sumOf ws < 2 ^ 32 then
    if hp : 0 < sumOf ws then .ok ⟨ws, hp, hb⟩
    else .error .allZero
  else .error .overflow

/-- The index of the step that a number below the sum of the weights falls to. -/
def locate : List UInt32 → Nat → Nat
  | [], _ => 0
  | w :: ws, x => if x < w.toNat then 0 else locate ws (x - w.toNat) + 1

/-- One weighted choice, as an index into the steps. -/
def choose {σ : Type} [WordSource σ] (w : Weights) (s : σ) : Nat × σ :=
  let (x, s) := below w.total s
  (locate w.weights x, s)

/-- A number below the sum falls to a step of positive weight. -/
theorem locate_spec {ws : List UInt32} {x : Nat} (h : x < sumOf ws) :
    ∃ hi : locate ws x < ws.length, 0 < (ws.get ⟨locate ws x, hi⟩).toNat := by
  induction ws generalizing x with
  | nil => simp [sumOf] at h
  | cons w ws ih =>
    by_cases hx : x < w.toNat
    · have h0 : locate (w :: ws) x = 0 := by simp [locate, hx]
      refine ⟨by simp [h0], ?_⟩
      simp only [h0, List.get_eq_getElem, List.getElem_cons_zero]
      omega
    · simp only [sumOf] at h
      obtain ⟨hi, hpos⟩ := ih (x := x - w.toNat) (by omega)
      have h1 : locate (w :: ws) x = locate ws (x - w.toNat) + 1 := by simp [locate, hx]
      refine ⟨by simp [h1, hi], ?_⟩
      simpa [h1] using hpos

end Weights
end ShardLoad.Entropy
