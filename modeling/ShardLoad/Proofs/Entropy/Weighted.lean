import Mathlib.Data.FinEnum
import ShardLoad.Entropy.Weights
import ShardLoad.Proofs.Entropy.Bounded
import ShardLoad.Proofs.Entropy.Stream

/-!
# Steps are chosen in proportion to their weights

A number below `t` is drawn as the whole part of `t * x`, where `x` is a binary fraction of 32
digits.  The multiples of `t` are not spread evenly over the `t` spans of length `2 ^ 32` that
the numbers stand for, so a span is cut at its lower end to a length that `t` divides: what is
left of each holds `2 ^ 32 / t` multiples, wherever it begins.  A draw whose multiple is in the
part that was cut off is refused, and the next one is looked at.

The number falls to the step whose weights, up to and including its own, are the first to sum
to more.  So a step takes as many numbers as its weight says, in a row, and one without weight
takes none, wherever it stands.

* `Kept`, `scaled`: which draws are kept, and the numbers that they stand for.
* `below_eq`: the first draw that is kept settles the number.
* `ncard_kept_scaled`: how many draws are kept for some numbers in a row.
* `locate_eq_iff`: the numbers that fall to a step.
* `Weights.drawsTo`: the draws that settle a choice at once.
* `Weights.proportional`: a choice is inside the list, and in proportion to the weights.
-/

namespace ShardLoad.Entropy

variable {σ : Type} [WordSource σ]

/-! ## Which draws are kept -/

/-- Whether a draw is kept, so that every number below `t` is drawn as often as any other. -/
def Kept (t : Nat) (d : UInt32) : Prop := threshold t ≤ d.toNat * t % range32

instance (t : Nat) (d : UInt32) : Decidable (Kept t d) := inferInstanceAs (Decidable (_ ≤ _))

/-- The number below `t` that a draw stands for. -/
def scaled (t : Nat) (d : UInt32) : Nat := d.toNat * t / range32

variable {t tries k : Nat} {s : σ}

theorem belowWithin_of_kept (h : Kept t (upcoming s 0)) :
    belowWithin t (tries + 1) s = (scaled t (upcoming s 0), skip 1 s) :=
  if_neg (Nat.not_lt.mpr h)

theorem belowWithin_of_not_kept (h : ¬Kept t (upcoming s 0)) :
    belowWithin t (tries + 1) s = belowWithin t tries (skip 1 s) :=
  if_pos (Nat.lt_of_not_le h)

/-- The first draw that is kept settles the number, if so many draws are looked at. -/
theorem belowWithin_eq (htries : k < tries) (hrefused : ∀ j < k, ¬Kept t (upcoming s j))
    (hkept : Kept t (upcoming s k)) :
    belowWithin t tries s = (scaled t (upcoming s k), skip (k + 1) s) := by
  induction k generalizing tries s with
  | zero =>
    obtain ⟨n, rfl⟩ := Nat.exists_eq_add_one.mpr htries
    exact belowWithin_of_kept hkept
  | succ k ih =>
    obtain ⟨n, rfl⟩ := Nat.exists_eq_add_one.mpr (Nat.zero_lt_of_lt htries)
    have hlater : ∀ j, upcoming (skip 1 s) j = upcoming s (j + 1) := fun _ => rfl
    rw [belowWithin_of_not_kept (hrefused 0 k.succ_pos), ih (Nat.lt_of_succ_lt_succ htries), hlater]
    · rfl
    · intro j hj
      rw [hlater]
      exact hrefused (j + 1) (Nat.succ_lt_succ hj)
    · rw [hlater]
      exact hkept

/-- The first draw that is kept settles the number. -/
theorem below_eq (htries : k < maxTries) (hrefused : ∀ j < k, ¬Kept t (upcoming s j))
    (hkept : Kept t (upcoming s k)) :
    below t s = (scaled t (upcoming s k), skip (k + 1) s) :=
  belowWithin_eq htries hrefused hkept

/-- A number is not drawn without taking a word. -/
theorem exists_skip_belowWithin (t tries : Nat) (s : σ) :
    ∃ n, 0 < n ∧ (belowWithin t tries s).2 = skip n s := by
  induction tries generalizing s with
  | zero => exact ⟨1, Nat.one_pos, rfl⟩
  | succ tries ih =>
    by_cases h : Kept t (upcoming s 0)
    · rw [belowWithin_of_kept h]
      exact ⟨1, Nat.one_pos, rfl⟩
    · rw [belowWithin_of_not_kept h]
      obtain ⟨n, -, hn⟩ := ih (skip 1 s)
      exact ⟨1 + n, Nat.add_pos_left Nat.one_pos n, by rw [hn, skip_add]⟩

/-- If a single word was taken it was kept. -/
theorem kept_of_below {c : Cursor} {v : Nat} (h : below t c = (v, skip 1 c)) :
    Kept t (upcoming c 0) := by
  refine Decidable.byContradiction fun hrefused => ?_
  obtain ⟨n, hpos, htaken⟩ := exists_skip_belowWithin t (maxTries - 1) (skip 1 c)
  rw [← belowWithin_of_not_kept hrefused, ← skip_add] at htaken
  have hsame : skip (1 + n) c = skip 1 c := htaken.symm.trans (congrArg Prod.snd h)
  have hposition := congrArg Cursor.position hsame
  simp only [Cursor.skip_eq] at hposition
  omega

/-! ## How many draws are kept -/

/-- What is cut off a span leaves a multiple of `t`. -/
theorem threshold_eq (ht : t ≤ range32) : threshold t = range32 % t :=
  (Nat.mod_eq_sub_mod ht).symm

/-- From wherever a stretch of `q` times `t` begins, it holds `q` multiples of `t`. -/
theorem mul_mem_stretch_iff {x n : Nat} (ht : 0 < t) (q : Nat) :
    (n ≤ t * x ∧ t * x < n + t * q) ↔ (n ⌈/⌉ t ≤ x ∧ x < n ⌈/⌉ t + q) := by
  have hend : (n + t * q) ⌈/⌉ t = n ⌈/⌉ t + q := by
    have hlast : n + t * q + t - 1 = n + t - 1 + t * q := by omega
    rw [Nat.ceilDiv_eq_add_pred_div, Nat.ceilDiv_eq_add_pred_div, hlast,
      Nat.add_mul_div_left _ _ ht]
  rw [← hend, ceilDiv_le_iff_le_mul ht, ← Nat.not_le, ← Nat.not_le, ceilDiv_le_iff_le_mul ht]

/-- The draws that are kept for a number are those with a multiple in what is left of its span. -/
theorem kept_and_scaled_eq_iff (ht : 0 < t) (hle : t ≤ range32) (v : Nat) (d : UInt32) :
    (Kept t d ∧ scaled t d = v) ↔
      d.toNat ∈ Finset.Ico ((v * range32 + range32 % t) ⌈/⌉ t)
        ((v * range32 + range32 % t) ⌈/⌉ t + range32 / t) := by
  have hparts : range32 % t + t * (range32 / t) = range32 := Nat.mod_add_div range32 t
  have hdraw := Nat.div_add_mod (d.toNat * t) range32
  have hpos : 0 < range32 := Nat.two_pow_pos 32
  have hmod := Nat.mod_lt (d.toNat * t) hpos
  rw [Finset.mem_Ico, ← mul_mem_stretch_iff ht, Kept, scaled, threshold_eq hle,
    Nat.mul_comm t d.toNat, Nat.add_assoc, hparts]
  generalize d.toNat * t = product at *
  constructor
  · rintro ⟨hkept, rfl⟩
    rw [Nat.mul_comm]
    omega
  · rintro ⟨hlo, hhi⟩
    have hv : product / range32 = v := by
      refine Nat.div_eq_of_lt_le ?_ ?_
      · omega
      · rw [Nat.succ_mul]
        exact hhi
    subst hv
    rw [Nat.mul_comm] at hlo
    omega

/-- As many draws are kept for one number as for any other. -/
theorem ncard_kept_scaled_eq {v : Nat} (ht : 0 < t) (hle : t ≤ range32) (hv : v < t) :
    {d : UInt32 | Kept t d ∧ scaled t d = v}.ncard = range32 / t := by
  have hcard := Nat.card_Ico ((v * range32 + range32 % t) ⌈/⌉ t)
    ((v * range32 + range32 % t) ⌈/⌉ t + range32 / t)
  rw [Nat.add_sub_cancel_left] at hcard
  rw [← hcard, ← Set.ncard_coe_finset]
  refine Set.BijOn.ncard_eq (f := UInt32.toNat) ⟨?_, ?_, ?_⟩
  · intro d h
    exact (kept_and_scaled_eq_iff ht hle v d).mp h
  · intro d _ d' _ h
    exact UInt32.toNat_inj.mp h
  · intro x hx
    have hmem : x ∈ Finset.Ico _ _ := hx
    have hlt : x < range32 := by
      rw [Finset.mem_Ico, ← mul_mem_stretch_iff ht, Nat.add_assoc, Nat.mod_add_div,
        ← Nat.succ_mul] at hmem
      refine Nat.lt_of_mul_lt_mul_left (Nat.lt_of_lt_of_le hmem.2 ?_)
      exact Nat.mul_le_mul_right range32 hv
    have hx' : (UInt32.ofNat x).toNat = x := UInt32.toNat_ofNat_of_lt' hlt
    refine ⟨UInt32.ofNat x, ?_, hx'⟩
    exact (kept_and_scaled_eq_iff ht hle v _).mpr (by rwa [hx'])

/-- So many draws are kept for so many numbers in a row. -/
theorem ncard_kept_scaled {low n : Nat} (ht : 0 < t) (hle : t ≤ range32) (hn : low + n ≤ t) :
    {d : UInt32 | Kept t d ∧ low ≤ scaled t d ∧ scaled t d < low + n}.ncard =
      n * (range32 / t) := by
  induction n with
  | zero =>
    rw [Nat.zero_mul, Set.ncard_eq_zero]
    refine Set.eq_empty_of_forall_notMem fun d h => ?_
    exact absurd h.2.1 (Nat.not_le.mpr h.2.2)
  | succ n ih =>
    have hone := ncard_kept_scaled_eq ht hle (v := low + n) (by omega)
    have hsplit : {d : UInt32 | Kept t d ∧ low ≤ scaled t d ∧ scaled t d < low + (n + 1)} =
        {d | Kept t d ∧ low ≤ scaled t d ∧ scaled t d < low + n} ∪
          {d | Kept t d ∧ scaled t d = low + n} := by
      ext d
      show (Kept t d ∧ _) ↔ (Kept t d ∧ _) ∨ (Kept t d ∧ _)
      rw [← and_or_left]
      refine and_congr_right fun _ => ?_
      omega
    rw [hsplit, Set.ncard_union_eq, ih (by omega), hone, Nat.succ_mul]
    refine Set.disjoint_left.mpr fun d h h' => ?_
    exact absurd h.2.2 (Nat.not_lt.mpr (Nat.le_of_eq h'.2.symm))

/-! ## Which numbers fall to a step -/

theorem sumOf_take_le (ws : List UInt32) (i : Nat) : sumOf (ws.take i) ≤ sumOf ws := by
  induction ws generalizing i with
  | nil => rw [List.take_nil]
  | cons w ws ih =>
    cases i with
    | zero => exact Nat.zero_le _
    | succ i => exact Nat.add_le_add_left (ih i) _

theorem sumOf_take_succ {ws : List UInt32} {i : Nat} (h : i < ws.length) :
    sumOf (ws.take (i + 1)) = sumOf (ws.take i) + ws[i].toNat := by
  induction ws generalizing i with
  | nil => exact absurd h (Nat.not_lt_zero i)
  | cons w ws ih =>
    cases i with
    | zero => exact Nat.add_comm _ _
    | succ i =>
      have hi : i < ws.length := Nat.lt_of_succ_lt_succ h
      show w.toNat + sumOf (ws.take (i + 1)) = w.toNat + sumOf (ws.take i) + ws[i].toNat
      rw [ih hi, Nat.add_assoc]

namespace Weights

/-- A step has the numbers from the weights before it on, as many as its own weight. -/
theorem locate_eq_iff {ws : List UInt32} {x i : Nat} (h : x < sumOf ws) :
    locate ws x = i ↔ sumOf (ws.take i) ≤ x ∧ x < sumOf (ws.take (i + 1)) := by
  induction ws generalizing x i with
  | nil => exact absurd h (Nat.not_lt_zero x)
  | cons w ws ih =>
    have hsum : x < w.toNat + sumOf ws := h
    by_cases hx : x < w.toNat
    · rw [locate, if_pos hx]
      cases i with
      | zero => exact iff_of_true rfl ⟨Nat.zero_le x, hx⟩
      | succ i =>
        refine iff_of_false (Nat.succ_ne_zero i).symm fun hlow => ?_
        exact absurd (Nat.le_trans (Nat.le_add_right ..) hlow.1) (Nat.not_le.mpr hx)
    · rw [locate, if_neg hx]
      cases i with
      | zero => exact iff_of_false (Nat.succ_ne_zero _) fun hhigh => hx hhigh.2
      | succ i =>
        rw [Nat.add_right_cancel_iff, ih (by omega), List.take_succ_cons, List.take_succ_cons]
        simp only [sumOf]
        omega

/-! ## Which draws lead to a step -/

variable {w : Weights} {i : Nat}

/-- The draws that settle a choice at once, whatever comes behind them, and lead to a step. -/
def drawsTo (w : Weights) (i : Nat) : Set UInt32 :=
  {d | ∀ c : Cursor, upcoming c 0 = d → w.choose c = (i, skip 1 c)}

/-- The draws that settle no choice. -/
def refused (w : Weights) : Set UInt32 := {d | ∀ i, d ∉ w.drawsTo i}

theorem total_le (w : Weights) : w.total ≤ range32 := Nat.le_of_lt w.bound

theorem scaled_lt (w : Weights) (d : UInt32) : scaled w.total d < sumOf w.weights :=
  mul_div_lt d.toNat_lt w.pos

/-- A choice is not made without taking a word. -/
theorem exists_skip_choose (w : Weights) (s : σ) : ∃ n, 0 < n ∧ (w.choose s).2 = skip n s :=
  exists_skip_belowWithin w.total maxTries s

/-- The first draw that is kept settles a choice. -/
theorem choose_eq (htries : k < maxTries) (hrefused : ∀ j < k, ¬Kept w.total (upcoming s j))
    (hkept : Kept w.total (upcoming s k)) :
    w.choose s = (locate w.weights (scaled w.total (upcoming s k)), skip (k + 1) s) := by
  rw [choose, below_eq htries hrefused hkept]

theorem mem_drawsTo_iff (d : UInt32) :
    d ∈ w.drawsTo i ↔ Kept w.total d ∧ locate w.weights (scaled w.total d) = i := by
  constructor
  · intro h
    -- a sequence that repeats the draw tells whether it was kept
    have hchoose := h ⟨fun _ => d, 0⟩ rfl
    have hbelow : below w.total (⟨fun _ => d, 0⟩ : Cursor) =
        ((below w.total (⟨fun _ => d, 0⟩ : Cursor)).1, skip 1 ⟨fun _ => d, 0⟩) :=
      Prod.ext rfl (congrArg Prod.snd hchoose :)
    have hkept : Kept w.total d := kept_of_below hbelow
    rw [choose_eq (k := 0) (Nat.two_pow_pos 64) (by simp) hkept] at hchoose
    exact ⟨hkept, congrArg Prod.fst hchoose⟩
  · rintro ⟨hkept, rfl⟩ c rfl
    exact choose_eq (Nat.two_pow_pos 64) (by simp) hkept

theorem mem_refused_iff (d : UInt32) : d ∈ w.refused ↔ ¬Kept w.total d := by
  constructor
  · intro h hkept
    exact h _ ((mem_drawsTo_iff d).mpr ⟨hkept, rfl⟩)
  · intro h i hi
    exact h ((mem_drawsTo_iff d).mp hi).1

/-- So many draws lead to a step as its weight says. -/
theorem ncard_drawsTo_step (h : i < w.weights.length) :
    (w.drawsTo i).ncard = w.weights[i].toNat * (2 ^ 32 / w.total) := by
  have hsucc := sumOf_take_succ h
  have hset : w.drawsTo i = {d | Kept w.total d ∧ sumOf (w.weights.take i) ≤ scaled w.total d ∧
      scaled w.total d < sumOf (w.weights.take i) + w.weights[i].toNat} := by
    ext d
    rw [mem_drawsTo_iff, locate_eq_iff (w.scaled_lt d), hsucc]
    rfl
  have hle : sumOf (w.weights.take i) + w.weights[i].toNat ≤ w.total := by
    rw [← hsucc]
    exact sumOf_take_le w.weights (i + 1)
  rw [hset]
  exact ncard_kept_scaled w.pos w.total_le hle

/-- As many draws are refused as are left over when all are shared out. -/
theorem ncard_refused (w : Weights) : w.refused.ncard = 2 ^ 32 % w.total := by
  have hpos : 0 < w.total := w.pos
  have hkept : {d : UInt32 | Kept w.total d}.ncard = w.total * (range32 / w.total) := by
    rw [← ncard_kept_scaled hpos w.total_le (Nat.le_of_eq (Nat.zero_add w.total))]
    congr 1
    ext d
    refine (and_iff_left ⟨Nat.zero_le _, ?_⟩).symm
    rw [Nat.zero_add]
    exact w.scaled_lt d
  have hcompl : w.refused = {d : UInt32 | Kept w.total d}ᶜ := by
    ext d
    exact mem_refused_iff d
  have hall := Set.ncard_add_ncard_compl {d : UInt32 | Kept w.total d}
  have hcard : Nat.card UInt32 = range32 :=
    Nat.card_eq_fintype_card.trans (FinEnum.card_eq_fintypeCard.symm.trans FinEnum.card_UInt32)
  have hparts : range32 % w.total + w.total * (range32 / w.total) = range32 :=
    Nat.mod_add_div range32 w.total
  rw [← hcompl, hkept, hcard] at hall
  show w.refused.ncard = range32 % w.total
  omega

/-- A choice is in proportion to the weights: it is a step that has weight, the first draw that
is not refused settles it, to each step lead as many draws as its weight says, and what is left
over is refused. -/
structure Proportional (w : Weights) : Prop where
  inside : ∀ {σ : Type} [WordSource σ] (s : σ),
    ∃ h : (w.choose s).1 < w.weights.length, 0 < w.weights[(w.choose s).1].toNat
  settled : ∀ {σ : Type} [WordSource σ] (s : σ) (k i : Nat), k < maxTries →
    (∀ j < k, upcoming s j ∈ w.refused) → upcoming s k ∈ w.drawsTo i →
      w.choose s = (i, skip (k + 1) s)
  rule : ∀ (d : UInt32) (i : Nat), d ∈ w.drawsTo i ↔
    2 ^ 32 % w.total ≤ d.toNat * w.total % 2 ^ 32 ∧
      sumOf (w.weights.take i) ≤ d.toNat * w.total / 2 ^ 32 ∧
        d.toNat * w.total / 2 ^ 32 < sumOf (w.weights.take (i + 1))
  even : ∀ (i : Nat) (h : i < w.weights.length),
    (w.drawsTo i).ncard = w.weights[i].toNat * (2 ^ 32 / w.total)
  rest : w.refused.ncard = 2 ^ 32 % w.total

theorem proportional (w : Weights) : w.Proportional where
  inside s := locate_spec (below_fst_lt w.pos s)
  settled s k i htries hrefused hkept := by
    obtain ⟨hlast, rfl⟩ := (mem_drawsTo_iff _).mp hkept
    exact choose_eq htries (fun j hj => (mem_refused_iff _).mp (hrefused j hj)) hlast
  rule d i := by
    rw [mem_drawsTo_iff, locate_eq_iff (w.scaled_lt d), Kept, threshold_eq w.total_le]
    rfl
  even i h := ncard_drawsTo_step h
  rest := w.ncard_refused

end Weights
end ShardLoad.Entropy
