import ShardLoad.Entropy.Source

/-!
# Draws from the buffer of a source

A source does not look for each word whether its buffer is empty.  A 64-bit draw takes both its
words from the buffer if they are there; with one word left, that word is the low half and the
first word of the next buffer the high half.  Octets are copied out of the buffer as far as it
goes, then out of the next one, and so on; a word of which not all octets are wanted is used up.

* `Source.renewed`, `Source.filled`: the next buffer, and the next one if it is needed.
* `Source.pair`: a 64-bit draw.
* `Source.fill`: so many octets.
-/

namespace ShardLoad.Entropy

/-- Two words as one 64-bit number. -/
def joined (lo hi : UInt32) : UInt64 := lo.toUInt64 ||| (hi.toUInt64 <<< 32)

namespace Source

/-- The source with its next buffer, whatever is left of this one. -/
def renewed (s : Source) : Source := ⟨s.key, s.nextBlock + 4, fourBlocks s.key s.nextBlock⟩

/-- The source with something in its buffer. -/
def filled (s : Source) : Source := if s.buffer = [] then s.renewed else s

/-- The source without the first words of its buffer. -/
def used (count : Nat) (s : Source) : Source := { s with buffer := s.buffer.drop count }

/-- A 64-bit draw, by how many words are left in the buffer. -/
def pair (s : Source) : UInt64 × Source :=
  match s.buffer with
  | lo :: hi :: rest => (joined lo hi, { s with buffer := rest })
  | [lo] => (joined lo (s.renewed.buffer.getD 0 0), s.renewed.used 1)
  | [] => (joined (s.renewed.buffer.getD 0 0) (s.renewed.buffer.getD 1 0), s.renewed.used 2)

/-- So many octets of the words in the buffer, or all if there are fewer. -/
def poured (n : Nat) (s : Source) : Bytes := (s.buffer.flatMap octets).take n

theorem filled_buffer_ne_nil (s : Source) : s.filled.buffer ≠ [] := by
  unfold filled
  split
  · rw [← List.length_pos_iff, renewed, length_fourBlocks]
    decide
  · assumption

theorem length_poured (n : Nat) (s : Source) :
    (s.poured n).length = min n (4 * s.buffer.length) := by
  rw [poured, List.length_take, length_flatMap_octets]

/-- What is poured out of a buffer that is not empty is not nothing. -/
theorem length_poured_pos {n : Nat} (hn : n ≠ 0) (s : Source) :
    0 < (s.filled.poured n).length := by
  have hbuffer := List.length_pos_iff.mpr s.filled_buffer_ne_nil
  rw [length_poured]
  omega

/-- So many octets, one buffer after the other. -/
def fill (n : Nat) (s : Source) : Bytes × Source :=
  if n = 0 then ([], s)
  else
    let now := s.filled.poured n
    let later := fill (n - now.length) (s.filled.used ((n + 3) / 4))
    (now ++ later.1, later.2)
termination_by n
decreasing_by
  have := length_poured_pos ‹n ≠ 0› s
  omega

end Source
end ShardLoad.Entropy
