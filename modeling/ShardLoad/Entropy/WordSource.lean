import ShardLoad.Bytes

/-!
# Draws from a source of words

Every random choice of a run comes down to 32-bit words taken in order from
some source.  The draws below are written once, over any state that can hand
out its next word, so they can be read both on the buffered generator that a
virtual user owns and on a cursor over any infinite sequence of words.

* `bytes n` takes `⌈n / 4⌉` words, each little-endian, and cuts the last one off.
* `draw64` takes two words, the low half first.
* `bounded b` scales a 64-bit draw to `[0, b)`.  The product of the draw and
  the bound is 128 bits wide; its high half is the answer, and when the low
  half is so high that further digits could carry, one more draw supplies them.
  A bound of zero takes no word.
* `below t` scales a 32-bit draw to `[0, t)` and rejects the draws that would
  favour some values.

Main statements: `bounded_zero`, `length_bytes`, `below_fst_lt`.
-/

namespace ShardLoad.Entropy

/-- A state that hands out 32-bit words in order. -/
class WordSource (σ : Type) where
  /-- The next word and the state after it. -/
  next : σ → UInt32 × σ

variable {σ : Type} [WordSource σ]

/-- The next 32-bit word. -/
def draw32 (s : σ) : UInt32 × σ := WordSource.next s

/-- The next two words as one 64-bit number, the low half first. -/
def draw64 (s : σ) : UInt64 × σ :=
  let (lo, s) := WordSource.next s
  let (hi, s) := WordSource.next s
  (lo.toUInt64 ||| (hi.toUInt64 <<< 32), s)

/-- The next `n` words in front of those that are already taken, last first. -/
def wordsOnto (taken : List UInt32) : Nat → σ → List UInt32 × σ
  | 0, s => (taken, s)
  | n + 1, s =>
    let (w, s) := WordSource.next s
    wordsOnto (w :: taken) n s

/-- The next `n` words in order. -/
def words (n : Nat) (s : σ) : List UInt32 × σ :=
  let (ws, s) := wordsOnto [] n s
  (ws.reverse, s)

/-- The four octets of a word, low octet first. -/
def octets (w : UInt32) : Bytes :=
  [w.toUInt8, (w >>> 8).toUInt8, (w >>> 16).toUInt8, (w >>> 24).toUInt8]

/-- The next `n` octets; the octets of the last word past the `n`-th are
dropped. -/
def bytes (n : Nat) (s : σ) : Bytes × σ :=
  let (ws, s) := words ((n + 3) / 4) s
  ((ws.flatMap octets).take n, s)

/-! ## Scaled draws -/

/-- The number of 64-bit draws. -/
def range64 : Nat := 2 ^ 64

/-- The number of 32-bit draws. -/
def range32 : Nat := 2 ^ 32

/-- The value in `[0, b)` that a 64-bit draw scales to when `more` are the 64
binary digits after it: the high half of the product, and one more if those
digits carry into it. -/
def scale (b draw : Nat) (more : Nat) : Nat :=
  let product := draw * b
  let carry := if product % range64 + more * b / range64 ≥ range64 then 1 else 0
  product / range64 + carry

/-- A number in `[0, b)`; a bound of zero gives zero and takes no word. -/
def bounded (b : UInt64) (s : σ) : UInt64 × σ :=
  if b = 0 then (0, s)
  else
    let (d, s) := draw64 s
    let product := d.toNat * b.toNat
    if product % range64 > range64 - b.toNat then
      let (e, s) := draw64 s
      ((scale b.toNat d.toNat e.toNat).toUInt64, s)
    else ((product / range64).toUInt64, s)

/-- A draw is accepted by `below t` when the low half of its product with `t`
is at least this, so that every value keeps the same number of draws. -/
def threshold (t : Nat) : Nat := (range32 - t) % t

/-- The high half of the first accepted draw, looking at no more than the given
number of draws.  The draw that is taken unseen when none of them was accepted only
makes the recursion end: a generator at work draws until it accepts. -/
def belowWithin (t : Nat) : Nat → σ → Nat × σ
  | 0, s =>
    let (d, s) := draw32 s
    (d.toNat * t / range32, s)
  | tries + 1, s =>
    let (d, s) := draw32 s
    let product := d.toNat * t
    if product % range32 < threshold t then belowWithin t tries s
    else (product / range32, s)

/-- After so many rejections in a row the next draw is taken unseen.  That no run
gets there is an assumption, which nothing here proves: at each draw fewer than half
of all words would be rejected, but a generator may hand out any of them. -/
def maxTries : Nat := 2 ^ 64

/-- A number in `[0, t)`, for `t` below `2 ^ 32`. -/
def below (t : Nat) (s : σ) : Nat × σ := belowWithin t maxTries s

/-! ## First laws -/

theorem length_wordsOnto (taken : List UInt32) (n : Nat) (s : σ) :
    (wordsOnto taken n s).1.length = n + taken.length := by
  induction n generalizing taken s with
  | zero => simp [wordsOnto]
  | succ n ih => simp only [wordsOnto, ih, List.length_cons]; omega

@[simp] theorem length_words (n : Nat) (s : σ) : (words n s).1.length = n := by
  simp [words, length_wordsOnto]

@[simp] theorem length_octets (w : UInt32) : (octets w).length = 4 := rfl

theorem length_flatMap_octets (ws : List UInt32) :
    (ws.flatMap octets).length = 4 * ws.length := by
  induction ws with
  | nil => rfl
  | cons w ws ih => simp [ih]; omega

/-- As many octets come as were asked for. -/
@[simp] theorem length_bytes (n : Nat) (s : σ) : (bytes n s).1.length = n := by
  simp only [bytes, List.length_take, length_flatMap_octets, length_words]
  omega

@[simp] theorem bytes_zero (s : σ) : bytes 0 s = ([], s) := rfl

@[simp] theorem bounded_zero (s : σ) : bounded 0 s = (0, s) := by simp [bounded]

/-- A product of a draw with `t` has its high half below `t`. -/
theorem mul_div_lt {d n t : Nat} (hd : d < n) (ht : 0 < t) : d * t / n < t := by
  rw [Nat.div_lt_iff_lt_mul (by omega), Nat.mul_comm t n]
  exact Nat.mul_lt_mul_of_pos_right hd ht

theorem belowWithin_fst_lt {t : Nat} (ht : 0 < t) (tries : Nat) (s : σ) :
    (belowWithin t tries s).1 < t := by
  induction tries generalizing s with
  | zero => exact mul_div_lt (UInt32.toNat_lt _) ht
  | succ tries ih =>
    simp only [belowWithin]
    split
    · exact ih _
    · exact mul_div_lt (UInt32.toNat_lt _) ht

/-- A draw below `t` is below `t`. -/
theorem below_fst_lt {t : Nat} (ht : 0 < t) (s : σ) : (below t s).1 < t :=
  belowWithin_fst_lt ht _ s

end ShardLoad.Entropy
