import Mathlib.Algebra.Order.Floor.Div
import Mathlib.Data.Set.Card
import Mathlib.Order.Interval.Finset.Nat
import ShardLoad.Entropy.Source
import ShardLoad.Shard.Selector

/-!
# Bounded draws are in range and even

A number below `b` is drawn as the whole part of `b * x`, where `x` is a binary fraction of 128
digits.  The first 64 digits come from one draw and settle the number, unless the digits behind
them could carry into it; only then are they drawn too.  A carry cannot lead up to `b`, for
`b * x` is below `b` whatever the digits are; and where it is ruled out, the second draw would
have changed nothing.  So the number depends on all 128 digits as if they were always drawn.

As many of the `2 ^ 128` fractions lead to one number as to any other, up to one: those between
two multiples of `2 ^ 128 / b`.

* `toNat_draw64`: a draw of 64 digits takes two words.
* `scale_eq`: the product with a carry is a quotient.
* `toNat_bounded`: the number that is drawn.
* `ncard_drawsTo`: how many fractions lead to a number.
* `evenDraws`: in range, settled by 128 digits, and even.
* `Selector.drawn_evenly_inside`: the numbers that are drawn, and the shards that they name.
-/

namespace ShardLoad

namespace Entropy

variable {σ : Type} [WordSource σ]

/-! ## Draws of 64 digits -/

/-- A draw of 64 digits has the first word for its low half and the second for its high half. -/
theorem toNat_draw64 (s : σ) :
    (draw64 s).1.toNat =
      (WordSource.next (WordSource.next s).2).1.toNat * 2 ^ 32 + (WordSource.next s).1.toNat := by
  have hlo := (WordSource.next s).1.toNat_lt
  have hhi := (WordSource.next (WordSource.next s).2).1.toNat_lt
  simp only [draw64]
  generalize (WordSource.next s).1 = lo at *
  generalize (WordSource.next (WordSource.next s).2).1 = hi at *
  rw [UInt64.toNat_or, UInt64.toNat_shiftLeft, UInt32.toNat_toUInt64, UInt32.toNat_toUInt64]
  have hshift : hi.toNat <<< ((32 : UInt64).toNat % 64) % 2 ^ 64 = hi.toNat <<< 32 := by
    show hi.toNat <<< 32 % 2 ^ 64 = hi.toNat <<< 32
    rw [Nat.shiftLeft_eq]
    exact Nat.mod_eq_of_lt (by omega)
  rw [hshift, Nat.or_comm, ← Nat.shiftLeft_add_eq_or_of_lt hlo, Nat.shiftLeft_eq]

/-- A cursor from which two draws are to come, and zeros behind them. -/
def Cursor.ofDraws (d e : UInt64) : Cursor where
  word
    | 0 => d.toUInt32
    | 1 => (d >>> 32).toUInt32
    | 2 => e.toUInt32
    | 3 => (e >>> 32).toUInt32
    | _ => 0
  position := 0

theorem halves (d : UInt64) : (d >>> 32).toUInt32.toNat * 2 ^ 32 + d.toUInt32.toNat = d.toNat := by
  have hd := d.toNat_lt
  rw [UInt64.toNat_toUInt32, UInt64.toNat_toUInt32, UInt64.toNat_shiftRight]
  show d.toNat >>> 32 % 2 ^ 32 * 2 ^ 32 + d.toNat % 2 ^ 32 = d.toNat
  rw [Nat.shiftRight_eq_div_pow]
  omega

theorem draw64_ofDraws (d e : UInt64) :
    (draw64 (Cursor.ofDraws d e)).1 = d ∧
      (draw64 (draw64 (Cursor.ofDraws d e)).2).1 = e := by
  constructor
  · refine UInt64.toNat_inj.mp ?_
    rw [toNat_draw64]
    exact halves d
  · refine UInt64.toNat_inj.mp ?_
    rw [toNat_draw64]
    exact halves e

/-! ## The number that is drawn -/

theorem toNat_pos {b : UInt64} (h : b ≠ 0) : 0 < b.toNat :=
  Nat.pos_of_ne_zero fun hzero => h (UInt64.toNat_inj.mp hzero)

/-- The product with its carry is the whole part of the product with all digits. -/
theorem scale_eq {b d e : Nat} (hb : b ≤ range64) (he : e < range64) :
    scale b d e = b * (d * range64 + e) / (range64 * range64) := by
  have hpos : 0 < range64 := Nat.two_pow_pos 64
  have hproduct : b * (d * range64 + e) = e * b + d * b * range64 := by
    rw [Nat.mul_add, ← Nat.mul_assoc, Nat.mul_comm b d, Nat.mul_comm b e, Nat.add_comm]
  have hcarry : e * b / range64 < range64 := by
    rw [Nat.div_lt_iff_lt_mul hpos]
    exact Nat.mul_lt_mul_of_lt_of_le he hb hpos
  rw [← Nat.div_div_eq_div_mul, hproduct, Nat.add_mul_div_right _ _ hpos, scale]
  generalize e * b / range64 = c at *
  generalize d * b = product
  by_cases hc : product % range64 + c ≥ range64
  · rw [if_pos hc]
    unfold range64 at *
    omega
  · rw [if_neg hc]
    unfold range64 at *
    omega

/-- A number that is scaled to `b` is below `b`. -/
theorem scale_lt {b d e : Nat} (hpos : 0 < b) (hb : b ≤ range64) (hd : d < range64)
    (he : e < range64) : scale b d e < b := by
  have hdigits : d * range64 + e < range64 * range64 := by
    have hle : (d + 1) * range64 ≤ range64 * range64 := Nat.mul_le_mul_right range64 hd
    rw [Nat.succ_mul] at hle
    omega
  rw [scale_eq hb he, Nat.mul_comm]
  exact mul_div_lt hdigits hpos

/-- Without room for a carry the digits behind the first draw make no difference. -/
theorem scale_of_le {b d e : Nat} (hpos : 0 < b) (hb : b ≤ range64) (he : e < range64)
    (hroom : d * b % range64 ≤ range64 - b) : scale b d e = d * b / range64 := by
  have hcarry : e * b / range64 < b := mul_div_lt he hpos
  rw [scale, if_neg (by omega), Nat.add_zero]

/-- The number that is drawn, as if both draws were always made. -/
theorem toNat_bounded_eq_scale {b : UInt64} (hb : b ≠ 0) (s : σ) :
    (bounded b s).1.toNat =
      scale b.toNat (draw64 s).1.toNat (draw64 (draw64 s).2).1.toNat := by
  have hpos := toNat_pos hb
  have hle : b.toNat ≤ range64 := Nat.le_of_lt b.toNat_lt
  have hlt := scale_lt hpos hle (draw64 s).1.toNat_lt (draw64 (draw64 s).2).1.toNat_lt
  have hfits := UInt64.toNat_ofNat_of_lt' (Nat.lt_of_lt_of_le hlt hle)
  unfold bounded
  rw [if_neg hb]
  simp only
  split
  · exact hfits
  · rename_i hroom
    rw [← scale_of_le hpos hle (draw64 (draw64 s).2).1.toNat_lt (Nat.le_of_not_lt hroom)]
    exact hfits

/-- The second draw is made or it is not. -/
theorem bounded_snd {b : UInt64} (hb : b ≠ 0) (s : σ) :
    (bounded b s).2 = (draw64 s).2 ∨ (bounded b s).2 = (draw64 (draw64 s).2).2 := by
  unfold bounded
  rw [if_neg hb]
  simp only
  split
  · exact .inr rfl
  · exact .inl rfl

/-- The number that is drawn is the whole part of the bound times a fraction of 128 digits. -/
theorem toNat_bounded {b : UInt64} (hb : b ≠ 0) (s : σ) :
    (bounded b s).1.toNat =
      b.toNat * ((draw64 s).1.toNat * 2 ^ 64 + (draw64 (draw64 s).2).1.toNat) / 2 ^ 128 := by
  rw [toNat_bounded_eq_scale hb, scale_eq (Nat.le_of_lt b.toNat_lt) (UInt64.toNat_lt _)]
  rfl

/-- A number that is drawn below a bound is below the bound. -/
theorem bounded_lt {b : UInt64} (hb : b ≠ 0) (s : σ) : (bounded b s).1 < b := by
  rw [UInt64.lt_iff_toNat_lt, toNat_bounded_eq_scale hb]
  exact scale_lt (toNat_pos hb) (Nat.le_of_lt b.toNat_lt) (UInt64.toNat_lt _) (UInt64.toNat_lt _)

/-! ## How often a number is drawn -/

/-- The numbers whose multiple has a given quotient. -/
theorem mul_div_eq_iff {b n v x : Nat} (hb : 0 < b) (hn : 0 < n) :
    b * x / n = v ↔ v * n ⌈/⌉ b ≤ x ∧ x < (v + 1) * n ⌈/⌉ b := by
  rw [ceilDiv_le_iff_le_mul hb, ← Nat.not_le, ceilDiv_le_iff_le_mul hb, Nat.not_le,
    ← Nat.le_div_iff_mul_le hn, ← Nat.div_lt_iff_lt_mul hn]
  omega

/-- Of the multiples of `n / b`, rounded up, any two in a row are as far apart as any other two,
up to one. -/
theorem ceilDiv_sub_ceilDiv {b : Nat} (n v : Nat) (hb : 0 < b) :
    (v + 1) * n ⌈/⌉ b - v * n ⌈/⌉ b = n / b ∨ (v + 1) * n ⌈/⌉ b - v * n ⌈/⌉ b = n ⌈/⌉ b := by
  have hsum : (v + 1) * n = v * n + n := Nat.succ_mul v n
  have hlo : v * n ≤ b * (v * n ⌈/⌉ b) := (ceilDiv_le_iff_le_mul hb).mp (Nat.le_refl _)
  have hhi : (v + 1) * n ≤ b * ((v + 1) * n ⌈/⌉ b) := (ceilDiv_le_iff_le_mul hb).mp (Nat.le_refl _)
  have hup : n ≤ b * (n ⌈/⌉ b) := (ceilDiv_le_iff_le_mul hb).mp (Nat.le_refl _)
  have hdown : b * (n / b) ≤ n := Nat.mul_div_le n b
  have hatMost : (v + 1) * n ⌈/⌉ b ≤ v * n ⌈/⌉ b + n ⌈/⌉ b := by
    rw [ceilDiv_le_iff_le_mul hb, Nat.mul_add, hsum]
    exact Nat.add_le_add hlo hup
  have hatLeast : v * n ⌈/⌉ b + n / b ≤ (v + 1) * n ⌈/⌉ b := by
    have hle : v * n ⌈/⌉ b ≤ (v + 1) * n ⌈/⌉ b - n / b := by
      rw [ceilDiv_le_iff_le_mul hb, Nat.mul_sub]
      omega
    have hfew : n / b ≤ (v + 1) * n ⌈/⌉ b := by
      refine Nat.le_of_mul_le_mul_left (Nat.le_trans hdown ?_) hb
      omega
    omega
  have hnear : n ⌈/⌉ b ≤ n / b + 1 := by
    rw [ceilDiv_le_iff_le_mul hb]
    exact Nat.le_of_lt (Nat.lt_mul_div_succ n hb)
  omega

/-- The pairs of draws that lead to a number. -/
def drawsTo (b v : UInt64) : Set (UInt64 × UInt64) :=
  {draws | (bounded b (Cursor.ofDraws draws.1 draws.2)).1 = v}

/-- The 128 digits of two draws. -/
def digits (draws : UInt64 × UInt64) : Nat := draws.1.toNat * 2 ^ 64 + draws.2.toNat

theorem mem_drawsTo_iff {b v : UInt64} (hb : b ≠ 0) (draws : UInt64 × UInt64) :
    draws ∈ drawsTo b v ↔ b.toNat * digits draws / 2 ^ 128 = v.toNat := by
  obtain ⟨hd, he⟩ := draw64_ofDraws draws.1 draws.2
  rw [drawsTo, Set.mem_ofPred_eq, ← UInt64.toNat_inj, toNat_bounded hb, hd, he, digits]

theorem digits_injective {draws draws' : UInt64 × UInt64} (h : digits draws = digits draws') :
    draws = draws' := by
  have he := draws.2.toNat_lt
  have he' := draws'.2.toNat_lt
  unfold digits at h
  refine Prod.ext (UInt64.toNat_inj.mp ?_) (UInt64.toNat_inj.mp ?_)
  · omega
  · omega

theorem exists_digits {x : Nat} (h : x < 2 ^ 128) : ∃ draws, digits draws = x := by
  refine ⟨((x / 2 ^ 64).toUInt64, (x % 2 ^ 64).toUInt64), ?_⟩
  have hd : x / 2 ^ 64 < 2 ^ 64 := by omega
  have he : x % 2 ^ 64 < 2 ^ 64 := by omega
  rw [digits, Nat.toUInt64, UInt64.toNat_ofNat_of_lt' hd, UInt64.toNat_ofNat_of_lt' he]
  omega

/-- The pairs of draws that lead to a number are as many as there are whole numbers between two
multiples of `2 ^ 128 / b`. -/
theorem ncard_drawsTo {b v : UInt64} (hb : b ≠ 0) (hv : v < b) :
    (drawsTo b v).ncard = (v.toNat + 1) * 2 ^ 128 ⌈/⌉ b.toNat - v.toNat * 2 ^ 128 ⌈/⌉ b.toNat := by
  have hpos := toNat_pos hb
  have hiff : ∀ x, b.toNat * x / 2 ^ 128 = v.toNat ↔
      x ∈ Finset.Ico (v.toNat * 2 ^ 128 ⌈/⌉ b.toNat) ((v.toNat + 1) * 2 ^ 128 ⌈/⌉ b.toNat) := by
    intro x
    rw [Finset.mem_Ico, mul_div_eq_iff hpos (Nat.two_pow_pos 128)]
  rw [← Nat.card_Ico, ← Set.ncard_coe_finset]
  refine Set.BijOn.ncard_eq (f := digits) ⟨?_, ?_, ?_⟩
  · intro draws h
    exact (hiff _).mp ((mem_drawsTo_iff hb draws).mp h)
  · intro draws _ draws' _ h
    exact digits_injective h
  · intro x h
    have hquotient := (hiff x).mpr h
    have hx : x < 2 ^ 128 := by
      have hlt : b.toNat * x < (v.toNat + 1) * 2 ^ 128 := by
        rw [← Nat.div_lt_iff_lt_mul (Nat.two_pow_pos 128), hquotient]
        exact Nat.lt_succ_self _
      refine Nat.lt_of_mul_lt_mul_left (Nat.lt_of_lt_of_le hlt ?_)
      exact Nat.mul_le_mul_right _ (UInt64.lt_iff_toNat_lt.mp hv)
    obtain ⟨draws, rfl⟩ := exists_digits hx
    exact ⟨draws, (mem_drawsTo_iff hb draws).mpr hquotient, rfl⟩

/-- What is drawn below a bound is in range, settled by 128 digits, and each number as often as
any other, up to one. -/
structure EvenDraws (b : UInt64) : Prop where
  lt : ∀ {σ : Type} [WordSource σ] (s : σ), (bounded b s).1 < b
  scaled : ∀ {σ : Type} [WordSource σ] (s : σ), (bounded b s).1.toNat =
    b.toNat * ((draw64 s).1.toNat * 2 ^ 64 + (draw64 (draw64 s).2).1.toNat) / 2 ^ 128
  drawn : ∀ {σ : Type} [WordSource σ] (s : σ),
    (bounded b s).2 = (draw64 s).2 ∨ (bounded b s).2 = (draw64 (draw64 s).2).2
  even : ∀ v < b, (drawsTo b v).ncard = 2 ^ 128 / b.toNat ∨
    (drawsTo b v).ncard = 2 ^ 128 ⌈/⌉ b.toNat

theorem evenDraws {b : UInt64} (hb : b ≠ 0) : EvenDraws b where
  lt s := bounded_lt hb s
  scaled s := toNat_bounded hb s
  drawn s := bounded_snd hb s
  even v hv := by
    rw [ncard_drawsTo hb hv]
    exact ceilDiv_sub_ceilDiv (2 ^ 128) v.toNat (toNat_pos hb)

end Entropy

/-! ## Shards that are drawn -/

namespace Pool

/-- A pool has no more shards than there are ports, so its size is a bound for draws. -/
theorem toNat_size (p : Pool) : p.size.toUInt64.toNat = p.size := by
  have hfits := p.fits
  have hsize : p.size < 2 ^ 64 := by omega
  exact UInt64.toNat_ofNat_of_lt' hsize

theorem size_ne_zero (p : Pool) : p.size.toUInt64 ≠ 0 := by
  intro h
  have hsize := p.toNat_size
  rw [h] at hsize
  exact absurd hsize (Nat.ne_of_lt p.pos)

end Pool

namespace Selector

variable {σ : Type} [Entropy.WordSource σ]

/-- A shard that is drawn at random is one of the pool, and its endpoint tells which. -/
structure DrawsInside (s : Selector) (source : σ) : Prop where
  drawn : (s.pickIndex source).1 = (Entropy.bounded s.pool.size.toUInt64 source).1.toNat
  inside : (s.pickIndex source).1 < s.pool.size
  endpoint : s.pool.endpoints[(s.pickIndex source).1]? = some (s.pick source).1
  port : s.pool.basePort.toNat ≤ (s.pick source).1.port.toNat ∧
    (s.pick source).1.port.toNat < s.pool.basePort.toNat + s.pool.size
  index : s.pool.indexOf? (s.pick source).1 = some (s.pickIndex source).1

theorem drawsInside {s : Selector} (h : s.mode = .random) (source : σ) : s.DrawsInside source := by
  have hdrawn : (s.pickIndex source).1 =
      (Entropy.bounded s.pool.size.toUInt64 source).1.toNat := by
    rw [pickIndex, h]
  have hinside : (s.pickIndex source).1 < s.pool.size := by
    have hlt := UInt64.lt_iff_toNat_lt.mp (Entropy.bounded_lt s.pool.size_ne_zero source)
    rwa [s.pool.toNat_size, ← hdrawn] at hlt
  have hpick : (s.pick source).1 = s.pool.endpoint (s.pickIndex source).1 := rfl
  refine ⟨hdrawn, hinside, ?_, ?_, ?_⟩
  · rw [hpick, s.pool.getElem?_endpoints hinside]
  · rw [hpick, s.pool.port_endpoint hinside]
    omega
  · rw [hpick, s.pool.indexOf?_endpoint hinside]

/-- **Bounded draws are in range and even up to one, so a shard that is drawn at random is one of
the pool.** -/
theorem drawn_evenly_inside :
    (∀ b : UInt64, b ≠ 0 → Entropy.EvenDraws b) ∧
      ∀ (σ : Type) [Entropy.WordSource σ] (s : Selector) (source : σ), s.mode = .random →
        s.DrawsInside source :=
  ⟨fun _ hb => Entropy.evenDraws hb, fun _ _ _ source h => drawsInside h source⟩

/-- The greatest bound, and the last shard of a pool that goes up to the last port. -/
theorem drawn_evenly_inside_extremes :
    Entropy.EvenDraws 0xffffffffffffffff ∧
      (⟨⟨"localhost", 65533, 3, by decide, by decide⟩, .random, 0⟩ : Selector).DrawsInside
        (Entropy.Cursor.ofDraws 0xffffffffffffffff 0xffffffffffffffff) ∧
      ((⟨⟨"localhost", 65533, 3, by decide, by decide⟩, .random, 0⟩ : Selector).pick
        (Entropy.Cursor.ofDraws 0xffffffffffffffff 0xffffffffffffffff)).1.port = 65535 := by
  refine ⟨drawn_evenly_inside.1 _ (by decide +kernel), ?_, by decide +kernel⟩
  exact drawn_evenly_inside.2 Entropy.Cursor _ _ rfl

end Selector
end ShardLoad
