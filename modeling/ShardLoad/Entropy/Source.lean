import ShardLoad.Entropy.WordSource
import ShardLoad.Entropy.ChaCha

/-!
# Sources of randomness

A virtual user owns one `Source`: a key, the number of the next block, and the
words of the current buffer that have not been handed out.  Four blocks, that
is sixty-four words, are computed at a time.  A `Cursor` is the other kind of
word source: a position in an infinite sequence of words.  What a source hands
out is what a cursor over `streamWord` would.

Virtual user `v` of a run seeded with `n` owns the source of seed `n + v`,
modulo `2 ^ 64`.
-/

namespace ShardLoad.Entropy

/-- The buffered generator. -/
structure Source where
  /-- The key of the stream. -/
  key : Key
  /-- The number of the block that the next buffer starts with. -/
  nextBlock : UInt64
  /-- The buffered words that are still to come. -/
  buffer : List UInt32
  deriving Repr, DecidableEq

namespace Source

/-- The generator of a seed, with nothing buffered yet. -/
def seeded (seed : UInt64) : Source := ⟨Key.ofSeed seed, 0, []⟩

/-- The generator of one virtual user of a seeded run. -/
def forUser (seed : UInt64) (user : UInt32) : Source := seeded (seed + user.toUInt64)

/-- The words of four blocks from a block on. -/
def fourBlocks (key : Key) (n : UInt64) : List UInt32 :=
  block key n ++ block key (n + 1) ++ block key (n + 2) ++ block key (n + 3)

/-- The next word, from the buffer or from a new one. -/
def next (s : Source) : UInt32 × Source :=
  match s.buffer with
  | w :: rest => (w, { s with buffer := rest })
  | [] =>
    match fourBlocks s.key s.nextBlock with
    | w :: rest => (w, ⟨s.key, s.nextBlock + 4, rest⟩)
    | [] => (0, s)

instance : WordSource Source := ⟨next⟩

@[simp] theorem length_fourBlocks (key : Key) (n : UInt64) :
    (fourBlocks key n).length = 64 := rfl

end Source

/-- A position in an infinite sequence of words. -/
structure Cursor where
  /-- The sequence. -/
  word : Nat → UInt32
  /-- How many words were taken. -/
  position : Nat

namespace Cursor

/-- A cursor takes the word at its position and moves on by one. -/
def next (c : Cursor) : UInt32 × Cursor :=
  (c.word c.position, { c with position := c.position + 1 })

instance : WordSource Cursor := ⟨next⟩

/-- The cursor at the start of the stream of a seed. -/
def seeded (seed : UInt64) : Cursor := ⟨streamWord (Key.ofSeed seed), 0⟩

end Cursor
end ShardLoad.Entropy
