import ShardLoad.Entropy.Source

/-!
# The words that are still to come

A source hands out one word after the other, and a draw takes some of the next ones.  So all
that is ever drawn from a source is told by the sequence of its words, and by how many of them
were taken before.

* `skip`, `upcoming`: what is left after so many words, and the word that comes then.
* `words_eq`, `draw64_snd`: which words a draw takes.
* `Cursor.skip_eq`, `Cursor.upcoming_eq`: a cursor over a sequence hands out the sequence.
-/

namespace ShardLoad.Entropy

variable {σ : Type} [WordSource σ]

/-- What is left of a source after so many words. -/
def skip : Nat → σ → σ
  | 0, s => s
  | n + 1, s => skip n (WordSource.next s).2

/-- The word that a source hands out after so many others. -/
def upcoming (s : σ) (i : Nat) : UInt32 := (WordSource.next (skip i s)).1

@[simp] theorem skip_zero (s : σ) : skip 0 s = s := rfl

theorem skip_add (m n : Nat) (s : σ) : skip (m + n) s = skip n (skip m s) := by
  induction m generalizing s with
  | zero => rw [Nat.zero_add, skip_zero]
  | succ m ih =>
    rw [Nat.succ_add]
    exact ih (WordSource.next s).2

theorem upcoming_skip (m i : Nat) (s : σ) : upcoming (skip m s) i = upcoming s (m + i) := by
  rw [upcoming, upcoming, skip_add]

/-- The words that are taken in a row come behind those that are already taken. -/
theorem wordsOnto_eq (taken : List UInt32) (n : Nat) (s : σ) :
    wordsOnto taken n s = (((List.range n).map (upcoming s)).reverse ++ taken, skip n s) := by
  induction n generalizing taken s with
  | zero => rfl
  | succ n ih =>
    show wordsOnto ((WordSource.next s).1 :: taken) n (WordSource.next s).2 = _
    rw [ih, List.range_succ_eq_map, List.map_cons, List.map_map, List.reverse_cons,
      List.append_assoc]
    rfl

/-- Words that are taken in a row are the next ones. -/
theorem words_eq (n : Nat) (s : σ) :
    words n s = ((List.range n).map (upcoming s), skip n s) := by
  simp only [words, wordsOnto_eq, List.append_nil, List.reverse_reverse]

/-- A draw of 64 digits takes two words. -/
theorem draw64_snd (s : σ) : (draw64 s).2 = skip 2 s := rfl

namespace Cursor

theorem skip_eq (n : Nat) (c : Cursor) : skip n c = ⟨c.word, c.position + n⟩ := by
  induction n generalizing c with
  | zero => rfl
  | succ n ih =>
    rw [skip, ih, Nat.add_comm n 1, ← Nat.add_assoc]
    rfl

theorem upcoming_eq (c : Cursor) (i : Nat) : upcoming c i = c.word (c.position + i) := by
  rw [upcoming, skip_eq]
  rfl

end Cursor
end ShardLoad.Entropy
