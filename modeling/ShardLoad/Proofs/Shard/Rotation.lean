import Mathlib.Algebra.BigOperators.Ring.Finset
import Mathlib.Algebra.Order.BigOperators.Group.Finset
import Mathlib.Data.Int.CardIntervalMod
import Mathlib.Data.Nat.Count
import ShardLoad.Shard.Selector

/-!
# Picks in turn are balanced

In turn, the picks of a selector go round the pool.  So of any picks in a row a shard gets as
many as any other, up to one, and of as many as there are shards it gets exactly one.

Where several selectors start one place after the other and pick equally often, each of whole
rounds of picks and each of whole rounds of selectors hits every shard equally often.  What
remains of both, picks of less than a round by selectors of less than a round, hits no shard
twice in a row and no shard twice with the same pick.

* `turnsOf`: how many of so many picks in a row a shard gets, with `turnsOf_eq_add`.
* `sum_turnsOf_eq`: the same of several selectors, with the remainder of both kinds of rounds.
* `Balanced`, `balanced_turnsOf`: how far the totals of shards are apart.
* `Selector.pick_make`: one pick in turn.
* `Selector.Rotates`, `Selector.rotates`: any picks in a row.
-/

namespace ShardLoad

/-! ## Counting round -/

/-- How many of `count` turns in a row, from a place on, are those of place `i` of `n`. -/
def turnsOf (n start count i : Nat) : Nat := Nat.count (fun j => (start + j) % n = i) count

/-- Whole rounds, and one more turn if it comes early enough. -/
theorem turnsOf_eq {n i : Nat} (hi : i < n) (start count : Nat) :
    turnsOf n start count i =
      count / n + if (i + (n - start % n)) % n < count % n then 1 else 0 := by
  have hn : 0 < n := Nat.zero_lt_of_lt hi
  have hround : start + (i + (n - start % n)) = i + n * (start / n + 1) := by
    have hstart := Nat.div_add_mod start n
    have hrest := Nat.mod_lt start hn
    rw [Nat.mul_succ]
    omega
  -- so the turns of place `i` are those in one residue class
  have hturn : ∀ j, (start + j) % n = i ↔ j ≡ i + (n - start % n) [MOD n] := by
    intro j
    have hcancel : start + j ≡ start + (i + (n - start % n)) [MOD n] ↔
        j ≡ i + (n - start % n) [MOD n] :=
      ⟨Nat.ModEq.add_left_cancel' start, Nat.ModEq.add_left start⟩
    rw [← hcancel, hround, Nat.ModEq, Nat.add_mul_mod_self_left, Nat.mod_eq_of_lt hi]
  rw [← Nat.count_modEq_card count hn, turnsOf]
  simp only [hturn]

/-- Whole rounds count once each. -/
theorem turnsOf_eq_add {n i : Nat} (hi : i < n) (start count : Nat) :
    turnsOf n start count i = count / n + turnsOf n start (count % n) i := by
  have hn : 0 < n := Nat.zero_lt_of_lt hi
  rw [turnsOf_eq hi, turnsOf_eq hi start (count % n), Nat.div_eq_of_lt (Nat.mod_lt count hn),
    Nat.mod_mod, Nat.zero_add]

/-- In less than a round a place has no more than one turn. -/
theorem turnsOf_le_one {n i count : Nat} (hi : i < n) (hcount : count < n) (start : Nat) :
    turnsOf n start count i ≤ 1 := by
  rw [turnsOf_eq hi, Nat.div_eq_of_lt hcount]
  split <;> omega

/-- The turns of places that start one after the other, counted by turns and by places. -/
theorem sum_turnsOf_comm (n m count i : Nat) :
    ∑ v ∈ Finset.range m, turnsOf n v count i = ∑ j ∈ Finset.range count, turnsOf n j m i := by
  simp only [turnsOf, Nat.count_eq_card_filter_range, Finset.card_filter]
  rw [Finset.sum_comm]
  simp only [Nat.add_comm]

/-- Whole rounds of turns at each place, whole rounds of places for what is left of the turns,
and what is left of both. -/
theorem sum_turnsOf_eq {n i : Nat} (hi : i < n) (m count : Nat) :
    ∑ v ∈ Finset.range m, turnsOf n v count i =
      m * (count / n) + (count % n) * (m / n) +
        ∑ v ∈ Finset.range (m % n), turnsOf n v (count % n) i := by
  have hsplit : ∀ a b, ∑ v ∈ Finset.range a, turnsOf n v b i =
      a * (b / n) + ∑ v ∈ Finset.range a, turnsOf n v (b % n) i := by
    intro a b
    simp only [turnsOf_eq_add hi _ b, Finset.sum_add_distrib, Finset.sum_const, Finset.card_range,
      Nat.nsmul_eq_mul]
  rw [hsplit m count, sum_turnsOf_comm n m, hsplit (count % n) m, sum_turnsOf_comm n (count % n),
    Nat.add_assoc]

/-- What is left of both kinds of rounds is no more than one turn at each place, and no more
than one for each turn. -/
theorem sum_turnsOf_le {n i m count : Nat} (hi : i < n) (hm : m < n) (hcount : count < n) :
    ∑ v ∈ Finset.range m, turnsOf n v count i ≤ min m count := by
  have hone : ∀ a b, b < n → ∑ v ∈ Finset.range a, turnsOf n v b i ≤ a := by
    intro a b hb
    calc ∑ v ∈ Finset.range a, turnsOf n v b i
        ≤ ∑ _v ∈ Finset.range a, 1 := Finset.sum_le_sum fun v _ => turnsOf_le_one hi hb v
      _ = a := by rw [Finset.sum_const, Finset.card_range, Nat.nsmul_eq_mul, Nat.mul_one]
  refine Nat.le_min.mpr ⟨hone m count hcount, ?_⟩
  rw [sum_turnsOf_comm]
  exact hone count m hm

/-- How even the totals of `n` places are that are hit by `m` who each take `count` turns: they
differ by no more than what is left of both kinds of rounds, and not at all if either is
nothing. -/
structure Balanced (n m count : Nat) (total : Nat → Nat) : Prop where
  near : ∀ i < n, ∀ j < n, total i ≤ total j + min (m % n) (count % n)
  even : n ∣ m ∨ n ∣ count → ∀ i < n, total i = m * count / n

/-- Totals are judged by the places that there are. -/
theorem Balanced.congr {n m count : Nat} {f g : Nat → Nat} (h : Balanced n m count f)
    (hfg : ∀ i < n, g i = f i) : Balanced n m count g where
  near i hi j hj := by
    rw [hfg i hi, hfg j hj]
    exact h.near i hi j hj
  even hwhole i hi := by
    rw [hfg i hi]
    exact h.even hwhole i hi

/-- Those who start one place after the other hit all places evenly. -/
theorem balanced_turnsOf (n m count : Nat) :
    Balanced n m count fun i => ∑ v ∈ Finset.range m, turnsOf n v count i := by
  have hbase : ∀ i < n, ∃ rest ≤ min (m % n) (count % n),
      ∑ v ∈ Finset.range m, turnsOf n v count i =
        m * (count / n) + (count % n) * (m / n) + rest := by
    intro i hi
    have hn : 0 < n := Nat.zero_lt_of_lt hi
    exact ⟨_, sum_turnsOf_le hi (Nat.mod_lt m hn) (Nat.mod_lt count hn),
      sum_turnsOf_eq hi m count⟩
  constructor
  · intro i hi j hj
    obtain ⟨rest, hrest, hi⟩ := hbase i hi
    obtain ⟨rest', -, hj⟩ := hbase j hj
    simp only [hi, hj]
    omega
  · intro hwhole i hi
    have hn : 0 < n := Nat.zero_lt_of_lt hi
    obtain ⟨rest, hrest, hi⟩ := hbase i hi
    have hzero : rest = 0 := by
      rcases hwhole with h | h
      · rw [Nat.mod_eq_zero_of_dvd h] at hrest
        omega
      · rw [Nat.mod_eq_zero_of_dvd h] at hrest
        omega
    simp only [hi, hzero]
    symm
    refine Nat.div_eq_of_eq_mul_right hn ?_
    rcases hwhole with ⟨q, rfl⟩ | ⟨q, rfl⟩
    · rw [Nat.mul_div_cancel_left q hn]
      calc n * q * count = n * q * (n * (count / n) + count % n) := by rw [Nat.div_add_mod]
        _ = n * (n * q * (count / n) + count % n * q + 0) := by ring
    · rw [Nat.mul_div_cancel_left q hn, Nat.mul_mod_right]
      ring

/-! ## Picks of one selector -/

namespace Selector

variable {σ : Type} [Entropy.WordSource σ]

/-- In turn, a selector that starts at a place picks its shard and goes on from the next place,
whatever the source is. -/
theorem pick_make (pool : Pool) (start : Nat) (source : σ) :
    (make pool .roundRobin start).pick source =
      (pool.endpoint (start % pool.size), make pool .roundRobin (start + 1), source) := by
  rw [pick, pickIndex_roundRobin rfl]
  simp only [make, Nat.mod_add_mod]

/-- A selector and a source after so many picks. -/
def after (s : Selector) (source : σ) : Nat → Selector × σ
  | 0 => (s, source)
  | n + 1 => ((s.after source n).1.pick (s.after source n).2).2

/-- The pick that comes after so many others. -/
def pickAfter (s : Selector) (source : σ) (n : Nat) : Endpoint :=
  ((s.after source n).1.pick (s.after source n).2).1

/-- How many of so many picks in a row, after some others, are of a shard. -/
def hits (s : Selector) (source : σ) (first count i : Nat) : Nat :=
  Nat.count (fun j => s.pickAfter source (first + j) = s.pool.endpoint i) count

theorem after_make (pool : Pool) (start : Nat) (source : σ) (n : Nat) :
    (make pool .roundRobin start).after source n = (make pool .roundRobin (start + n), source) := by
  induction n with
  | zero => rfl
  | succ n ih =>
    rw [after, ih, pick_make]
    rfl

theorem pickAfter_make (pool : Pool) (start : Nat) (source : σ) (n : Nat) :
    (make pool .roundRobin start).pickAfter source n =
      pool.endpoint ((start + n) % pool.size) := by
  rw [pickAfter, after_make, pick_make]

theorem hits_make (pool : Pool) (start : Nat) (source : σ) (first count : Nat) {i : Nat}
    (hi : i < pool.size) :
    (make pool .roundRobin start).hits source first count i =
      turnsOf pool.size (start + first) count i := by
  have hpick : ∀ j, ((make pool .roundRobin start).pickAfter source (first + j) =
      pool.endpoint i) ↔ (start + first + j) % pool.size = i := by
    intro j
    rw [pickAfter_make, pool.endpoint_inj (Nat.mod_lt _ pool.pos) hi, Nat.add_assoc]
  have hpool : (make pool .roundRobin start).pool = pool := rfl
  simp only [hits, turnsOf, hpool, hpick]

/-- Picks in turn go round the pool and draw nothing.  Any picks in a row hit a shard as often
as any other, up to one, and as many as there are shards hit each of them once. -/
structure Rotates (s : Selector) (start : Nat) : Prop where
  pick : ∀ {σ : Type} [Entropy.WordSource σ] (source : σ) (j : Nat),
    s.pool.endpoints[(start + j) % s.pool.size]? = some (s.pickAfter source j) ∧
      s.pool.indexOf? (s.pickAfter source j) = some ((start + j) % s.pool.size) ∧
        (s.after source j).2 = source
  near : ∀ {σ : Type} [Entropy.WordSource σ] (source : σ) (first count : Nat),
    ∀ i < s.pool.size, ∀ j < s.pool.size,
      s.hits source first count i ≤ s.hits source first count j + 1
  round : ∀ {σ : Type} [Entropy.WordSource σ] (source : σ) (first : Nat),
    ∀ i < s.pool.size, s.hits source first s.pool.size i = 1

theorem rotates (pool : Pool) (start : Nat) : (make pool .roundRobin start).Rotates start where
  pick source j := by
    have hlt : (start + j) % pool.size < pool.size := Nat.mod_lt _ pool.pos
    rw [pickAfter_make, after_make]
    exact ⟨pool.getElem?_endpoints hlt, pool.indexOf?_endpoint hlt, rfl⟩
  near source first count i hi j hj := by
    have hi : i < pool.size := hi
    have hj : j < pool.size := hj
    rw [hits_make pool start source first count hi, hits_make pool start source first count hj,
      turnsOf_eq hi, turnsOf_eq hj]
    split <;> split <;> omega
  round source first i hi := by
    have hi : i < pool.size := hi
    have hpool : (make pool .roundRobin start).pool = pool := rfl
    rw [hpool, hits_make pool start source first _ hi, turnsOf_eq hi, Nat.div_self pool.pos,
      Nat.mod_self, if_neg (Nat.not_lt_zero _)]

end Selector
end ShardLoad
