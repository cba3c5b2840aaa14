/-!
# The key stream

Words come from the ChaCha block function with twelve rounds: four constants,
eight key words, a 64-bit block counter and a 64-bit stream number that stays
zero.  A block is sixteen words; word `n` of the stream is word `n % 16` of
block `n / 16`.

A 64-bit seed is widened to the key by eight steps of a linear congruential
generator whose state is permuted on the way out.

* `Key.ofSeed`: the key of a seed.
* `block`: one block of the stream.
* `streamWord`: one word of the stream, which no buffer enters.
-/

namespace ShardLoad.Entropy

/-- The eight key words. -/
structure Key where
  k0 : UInt32
  k1 : UInt32
  k2 : UInt32
  k3 : UInt32
  k4 : UInt32
  k5 : UInt32
  k6 : UInt32
  k7 : UInt32
  deriving Repr, DecidableEq

/-- A word turned to the right; the amount is taken modulo the width. -/
def rotateRight (x : UInt32) (n : UInt32) : UInt32 :=
  (x >>> n) ||| (x <<< (32 - n))

/-- A word turned to the left. -/
def rotateLeft (x : UInt32) (n : UInt32) : UInt32 :=
  (x <<< n) ||| (x >>> (32 - n))

namespace Key

/-- The congruential step. -/
def advance (state : UInt64) : UInt64 :=
  state * 6364136223846793005 + 11634580027462260723

/-- The word that a state yields: its high bits folded in, then turned by its
five highest bits. -/
def scramble (state : UInt64) : UInt32 :=
  rotateRight (((state >>> 18) ^^^ state) >>> 27).toUInt32 (state >>> 59).toUInt32

/-- The key that a seed stands for. -/
def ofSeed (seed : UInt64) : Key :=
  let s0 := advance seed
  let s1 := advance s0
  let s2 := advance s1
  let s3 := advance s2
  let s4 := advance s3
  let s5 := advance s4
  let s6 := advance s5
  let s7 := advance s6
  ⟨scramble s0, scramble s1, scramble s2, scramble s3, scramble s4, scramble s5,
    scramble s6, scramble s7⟩

end Key

/-- The four rows of the sixteen-word state, column by column. -/
structure Grid where
  a : UInt32 × UInt32 × UInt32 × UInt32
  b : UInt32 × UInt32 × UInt32 × UInt32
  c : UInt32 × UInt32 × UInt32 × UInt32
  d : UInt32 × UInt32 × UInt32 × UInt32
  deriving Repr, DecidableEq

/-- The quarter round on one column. -/
def quarterRound (a b c d : UInt32) : UInt32 × UInt32 × UInt32 × UInt32 :=
  let a := a + b
  let d := rotateLeft (d ^^^ a) 16
  let c := c + d
  let b := rotateLeft (b ^^^ c) 12
  let a := a + b
  let d := rotateLeft (d ^^^ a) 8
  let c := c + d
  let b := rotateLeft (b ^^^ c) 7
  (a, b, c, d)

namespace Grid

/-- A quarter round on each of the four columns. -/
def columns (g : Grid) : Grid :=
  let (a0, a1, a2, a3) := g.a
  let (b0, b1, b2, b3) := g.b
  let (c0, c1, c2, c3) := g.c
  let (d0, d1, d2, d3) := g.d
  let (a0, b0, c0, d0) := quarterRound a0 b0 c0 d0
  let (a1, b1, c1, d1) := quarterRound a1 b1 c1 d1
  let (a2, b2, c2, d2) := quarterRound a2 b2 c2 d2
  let (a3, b3, c3, d3) := quarterRound a3 b3 c3 d3
  ⟨(a0, a1, a2, a3), (b0, b1, b2, b3), (c0, c1, c2, c3), (d0, d1, d2, d3)⟩

/-- The rows shifted so that diagonals become columns. -/
def skew (g : Grid) : Grid :=
  let (b0, b1, b2, b3) := g.b
  let (c0, c1, c2, c3) := g.c
  let (d0, d1, d2, d3) := g.d
  ⟨g.a, (b1, b2, b3, b0), (c2, c3, c0, c1), (d3, d0, d1, d2)⟩

/-- The rows shifted back. -/
def unskew (g : Grid) : Grid :=
  let (b0, b1, b2, b3) := g.b
  let (c0, c1, c2, c3) := g.c
  let (d0, d1, d2, d3) := g.d
  ⟨g.a, (b3, b0, b1, b2), (c2, c3, c0, c1), (d1, d2, d3, d0)⟩

/-- A column round and a diagonal round. -/
def doubleRound (g : Grid) : Grid := g.columns.skew.columns.unskew

/-- Word by word addition. -/
def add (g h : Grid) : Grid :=
  let row := fun (x y : UInt32 × UInt32 × UInt32 × UInt32) =>
    (x.1 + y.1, x.2.1 + y.2.1, x.2.2.1 + y.2.2.1, x.2.2.2 + y.2.2.2)
  ⟨row g.a h.a, row g.b h.b, row g.c h.c, row g.d h.d⟩

/-- The sixteen words, row by row. -/
def toList (g : Grid) : List UInt32 :=
  let row := fun (x : UInt32 × UInt32 × UInt32 × UInt32) => [x.1, x.2.1, x.2.2.1, x.2.2.2]
  row g.a ++ row g.b ++ row g.c ++ row g.d

@[simp] theorem length_toList (g : Grid) : g.toList.length = 16 := rfl

/-- The state that a block starts from: constants, key, counter, stream zero. -/
def start (key : Key) (counter : UInt64) : Grid :=
  ⟨(0x61707865, 0x3320646e, 0x79622d32, 0x6b206574),
    (key.k0, key.k1, key.k2, key.k3),
    (key.k4, key.k5, key.k6, key.k7),
    (counter.toUInt32, (counter >>> 32).toUInt32, 0, 0)⟩

end Grid

/-- Block `counter` of the stream: six double rounds added to the start. -/
def block (key : Key) (counter : UInt64) : List UInt32 :=
  let g := Grid.start key counter
  (g.doubleRound.doubleRound.doubleRound.doubleRound.doubleRound.doubleRound.add g).toList

@[simp] theorem length_block (key : Key) (counter : UInt64) :
    (block key counter).length = 16 := rfl

/-- Word `n` of the stream. -/
def streamWord (key : Key) (n : Nat) : UInt32 :=
  (block key (n / 16).toUInt64).get ⟨n % 16, by rw [length_block]; omega⟩

end ShardLoad.Entropy
