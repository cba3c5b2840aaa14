import ShardLoad.Entropy.Buffer
import ShardLoad.Entropy.Weights
import ShardLoad.Proofs.Entropy.Fields
import ShardLoad.Proofs.Entropy.Weighted

/-!
# A buffered source is one stream of words

A source computes its words four blocks at a time, and serves draws of different widths from what
is buffered.  None of this is seen in what is drawn: the words of one buffer follow those of the
one before it in the stream of the key, and every draw takes the next words of the stream, wherever
a buffer ends.  So a source of a seed draws what a cursor over the stream draws that has no buffer.

The argument is in three parts.  Draws look at nothing but the words that are still to come, so two
sources with the same words draw the same.  The words that are still to come of a source are those
of its stream from some position on.  And what is served from the buffer at once is what would be
drawn word by word.

* `SameWords`, `drawAll_congr`: sources with the same words draw the same.
* `Source.StandsAt`, `sameWords_seeded`: the words of a source are those of its stream.
* `Source.pair_eq`, `Source.fill_eq`: draws that are served at once.
* `bytes_add`: octets that are drawn in two parts.
* `Source.reads_one_stream`: all of it.
-/

namespace ShardLoad.Entropy

variable {σ τ : Type} [WordSource σ] [WordSource τ]

/-! ## Sequences of draws -/

/-- What may be drawn from a source. -/
inductive Draw where
  /-- So many octets. -/
  | bytes (n : Nat)
  /-- A number below a bound. -/
  | bounded (bound : UInt64)
  /-- A step by its weight. -/
  | step (weights : Weights)

/-- What was drawn. -/
inductive Drawn where
  | bytes (bs : Bytes)
  | number (n : UInt64)
  | step (index : Nat)
  deriving Repr, DecidableEq

/-- One draw. -/
def Draw.take : Draw → σ → Drawn × σ
  | bytes n, s => (Entropy.bytes n s).map .bytes id
  | bounded b, s => (Entropy.bounded b s).map .number id
  | step w, s => (w.choose s).map .step id

/-- Draws of any kinds, one after the other. -/
def drawAll : List Draw → σ → List Drawn × σ
  | [], s => ([], s)
  | d :: draws, s =>
    let (x, s) := d.take s
    let (xs, s) := drawAll draws s
    (x :: xs, s)

/-! ## Sources with the same words -/

/-- Two sources hand out the same words from now on. -/
def SameWords (s : σ) (s' : τ) : Prop := ∀ i, upcoming s i = upcoming s' i

/-- Two draws have the same outcome and leave sources with the same words. -/
def SameDraw {α : Type} (x : α × σ) (y : α × τ) : Prop := x.1 = y.1 ∧ SameWords x.2 y.2

variable {s : σ} {s' : τ}

theorem SameWords.skip (h : SameWords s s') (n : Nat) : SameWords (skip n s) (skip n s') := by
  intro i
  rw [upcoming_skip, upcoming_skip]
  exact h (n + i)

theorem bytes_eq (n : Nat) (s : σ) :
    bytes n s = (cut n (stretch s 0 (wordsFor n)), skip (wordsFor n) s) := by
  have h := bytes_skip n 0 s
  rwa [skip_zero, Nat.zero_add] at h

theorem SameWords.bytes (h : SameWords s s') (n : Nat) :
    SameDraw (bytes n s) (bytes n s') := by
  have hstretch : stretch s 0 (wordsFor n) = stretch s' 0 (wordsFor n) :=
    List.map_congr_left fun i _ => h (0 + i)
  rw [bytes_eq, bytes_eq]
  exact ⟨congrArg (cut n) hstretch, h.skip _⟩

theorem SameWords.draw64 (h : SameWords s s') : SameDraw (draw64 s) (draw64 s') := by
  refine ⟨?_, h.skip 2⟩
  show joined (upcoming s 0) (upcoming s 1) = joined (upcoming s' 0) (upcoming s' 1)
  rw [h 0, h 1]

theorem SameWords.bounded (h : SameWords s s') (b : UInt64) :
    SameDraw (bounded b s) (bounded b s') := by
  unfold Entropy.bounded
  by_cases hb : b = 0
  · simp only [hb, if_true]
    exact ⟨rfl, h⟩
  · -- whether a second draw is made follows from the first
    obtain ⟨hfirst, hrest⟩ := h.draw64
    obtain ⟨hsecond, hlast⟩ := hrest.draw64
    simp only [hb, if_false]
    rw [hfirst]
    split
    · exact ⟨by rw [hsecond], hlast⟩
    · exact ⟨rfl, hrest⟩

theorem SameWords.belowWithin (h : SameWords s s') (t tries : Nat) :
    SameDraw (belowWithin t tries s) (belowWithin t tries s') := by
  induction tries generalizing s s' with
  | zero =>
    refine ⟨?_, h.skip 1⟩
    show scaled t (upcoming s 0) = scaled t (upcoming s' 0)
    rw [h 0]
  | succ tries ih =>
    by_cases hkept : Kept t (upcoming s 0)
    · rw [belowWithin_of_kept hkept, belowWithin_of_kept (h 0 ▸ hkept), h 0]
      exact ⟨rfl, h.skip 1⟩
    · rw [belowWithin_of_not_kept hkept, belowWithin_of_not_kept (h 0 ▸ hkept)]
      exact ih (h.skip 1)

theorem SameWords.choose (h : SameWords s s') (w : Weights) :
    SameDraw (w.choose s) (w.choose s') := by
  obtain ⟨hnumber, hrest⟩ := h.belowWithin w.total maxTries
  exact ⟨congrArg (Weights.locate w.weights) hnumber, hrest⟩

theorem SameWords.take (h : SameWords s s') (d : Draw) : SameDraw (d.take s) (d.take s') := by
  cases d with
  | bytes n =>
    obtain ⟨hdrawn, hrest⟩ := h.bytes n
    exact ⟨congrArg Drawn.bytes hdrawn, hrest⟩
  | bounded b =>
    obtain ⟨hdrawn, hrest⟩ := h.bounded b
    exact ⟨congrArg Drawn.number hdrawn, hrest⟩
  | step w =>
    obtain ⟨hdrawn, hrest⟩ := h.choose w
    exact ⟨congrArg Drawn.step hdrawn, hrest⟩

/-- **Sources with the same words draw the same**, whatever is drawn and in which order. -/
theorem drawAll_congr (h : SameWords s s') (draws : List Draw) :
    SameDraw (drawAll draws s) (drawAll draws s') := by
  induction draws generalizing s s' with
  | nil => exact ⟨rfl, h⟩
  | cons d draws ih =>
    obtain ⟨hdrawn, hrest⟩ := h.take d
    obtain ⟨hmore, hlast⟩ := ih hrest
    exact ⟨congrArg₂ List.cons hdrawn hmore, hlast⟩

/-! ## Octets in two parts -/

/-- Octets may be drawn in two parts, if the first part has whole words. -/
theorem bytes_add {a : Nat} (ha : 4 ∣ a) (b : Nat) (s : σ) :
    bytes (a + b) s =
      ((bytes a s).1 ++ (bytes b (bytes a s).2).1, (bytes b (bytes a s).2).2) := by
  obtain ⟨k, rfl⟩ := ha
  have hwords : wordsFor (4 * k) = k := by
    unfold wordsFor
    omega
  have hsum : wordsFor (4 * k + b) = k + wordsFor b := by
    unfold wordsFor
    omega
  have hlength : ((stretch s 0 k).flatMap octets).length = 4 * k := by
    rw [length_flatMap_octets, length_stretch]
  have hfirst : cut (4 * k) (stretch s 0 k) = (stretch s 0 k).flatMap octets :=
    List.take_of_length_le (Nat.le_of_eq hlength)
  have hsecond : bytes b (skip k s) = (contents s k b, skip (k + wordsFor b) s) := bytes_skip b k s
  rw [bytes_eq, bytes_eq (4 * k), hsum, hwords, hsecond, hfirst, stretch_add, Nat.zero_add]
  refine Prod.ext ?_ rfl
  show ((stretch s 0 k ++ stretch s k (wordsFor b)).flatMap octets).take (4 * k + b) = _
  rw [List.flatMap_append, ← hlength, List.take_length_add_append]
  rfl

/-! ## The stream of a source -/

/-- A block of the stream, word by word. -/
theorem block_eq (key : Key) (m : Nat) :
    block key m.toUInt64 = (List.range 16).map fun i => streamWord key (16 * m + i) := by
  refine List.ext_getElem (by rw [length_block, List.length_map, List.length_range]) ?_
  intro i hi _
  rw [length_block] at hi
  have hblock : (16 * m + i) / 16 = m := by omega
  have hplace : (16 * m + i) % 16 = i := by omega
  simp only [List.getElem_map, List.getElem_range, streamWord, List.get_eq_getElem, hblock, hplace]

namespace Source

/-- A buffer that starts with a block is a stretch of the stream. -/
theorem fourBlocks_eq (key : Key) (m : Nat) :
    fourBlocks key m.toUInt64 = (List.range 64).map fun i => streamWord key (16 * m + i) := by
  have hnext (k : Nat) : m.toUInt64 + k.toUInt64 = (m + k).toUInt64 := (UInt64.ofNat_add m k).symm
  have hblock (k : Nat) : block key (m + k).toUInt64 =
      (List.range 16).map fun i => streamWord key (16 * m + (16 * k + i)) := by
    rw [block_eq]
    simp only [Nat.mul_add, Nat.add_assoc]
  have hfour : fourBlocks key m.toUInt64 = block key m.toUInt64 ++ block key (m + 1).toUInt64 ++
      block key (m + 2).toUInt64 ++ block key (m + 3).toUInt64 := by
    rw [← hnext 1, ← hnext 2, ← hnext 3]
    rfl
  rw [hfour, hblock 1, hblock 2, hblock 3, block_eq, show 64 = 16 + 16 + 16 + 16 from rfl,
    List.range_add, List.range_add, List.range_add]
  simp only [List.map_append, List.map_map, Function.comp_def]

/-- The next word of a source is the one at a position of its stream: what is buffered are the
words from there up to the end of a block, and the next buffer starts there. -/
structure StandsAt (s : Source) (position : Nat) : Prop where
  buffered : s.buffer =
    (List.range s.buffer.length).map fun i => streamWord s.key (position + i)
  block : ∃ m, position + s.buffer.length = 16 * m ∧ s.nextBlock = m.toUInt64

theorem standsAt_seeded (seed : UInt64) : (seeded seed).StandsAt 0 :=
  ⟨rfl, 0, rfl, rfl⟩

/-- What is behind the first of some words of a stream. -/
theorem map_range_succ (key : Key) (position n : Nat) :
    ((List.range (n + 1)).map fun i => streamWord key (position + i)) =
      streamWord key position :: (List.range n).map fun i => streamWord key (position + 1 + i) := by
  rw [List.range_succ_eq_map, List.map_cons, List.map_map]
  simp only [Function.comp_def, Nat.succ_eq_add_one, Nat.add_assoc, Nat.add_comm 1]
  rfl

/-- A source hands out the word at its position and goes on to the next. -/
theorem StandsAt.next {s : Source} {position : Nat} (h : s.StandsAt position) :
    s.next.1 = streamWord s.key position ∧ s.next.2.key = s.key ∧
      s.next.2.StandsAt (position + 1) := by
  obtain ⟨key, nextBlock, buffer⟩ := s
  obtain ⟨hbuffered, m, hend, rfl⟩ := h
  simp only at hbuffered hend
  cases buffer with
  | nil =>
    obtain rfl : position = 16 * m := hend
    have hfour := fourBlocks_eq key m
    rw [map_range_succ] at hfour
    have hnext : Source.next ⟨key, m.toUInt64, []⟩ = (streamWord key (16 * m),
        ⟨key, m.toUInt64 + 4, (List.range 63).map fun i => streamWord key (16 * m + 1 + i)⟩) := by
      simp only [Source.next, hfour]
    rw [hnext]
    refine ⟨rfl, rfl, ?_, m + 4, ?_, (UInt64.ofNat_add m 4).symm⟩
    · simp only [List.length_map, List.length_range]
    · simp only [List.length_map, List.length_range]
      omega
  | cons w rest =>
    rw [List.length_cons, map_range_succ] at hbuffered
    obtain ⟨rfl, hrest⟩ := List.cons.inj hbuffered
    rw [List.length_cons] at hend
    refine ⟨rfl, rfl, hrest, m, ?_, rfl⟩
    show position + 1 + rest.length = 16 * m
    omega

/-- The words of a source are those of its stream from its position on. -/
theorem StandsAt.upcoming {s : Source} {position : Nat} (h : s.StandsAt position) (i : Nat) :
    upcoming s i = streamWord s.key (position + i) := by
  induction i generalizing s position with
  | zero => exact h.next.1
  | succ i ih =>
    obtain ⟨-, hkey, hnext⟩ := h.next
    have hi := ih hnext
    rw [hkey] at hi
    rw [Nat.add_comm i 1, ← Nat.add_assoc, ← hi]
    exact (upcoming_skip 1 i s).symm

/-- A source of a seed has the words of a cursor over the stream of the seed. -/
theorem sameWords_seeded (seed : UInt64) : SameWords (seeded seed) (Cursor.seeded seed) := by
  intro i
  rw [(standsAt_seeded seed).upcoming, Cursor.upcoming_eq]
  rfl

/-! ## Draws that are served at once -/

theorem next_filled (s : Source) : s.filled.next = s.next := by
  unfold filled
  split
  · rename_i h
    obtain ⟨w, rest, hw⟩ :=
      List.exists_cons_of_length_eq_add_one (length_fourBlocks s.key s.nextBlock)
    simp only [Source.next, renewed, h, hw]
  · rfl

/-- The first words of the buffer are the next words. -/
theorem stretch_eq_take {s : Source} {n : Nat} (h : n ≤ s.buffer.length) :
    stretch s 0 n = s.buffer.take n ∧ skip n s = s.used n := by
  induction n generalizing s with
  | zero => exact ⟨rfl, rfl⟩
  | succ n ih =>
    obtain ⟨key, nextBlock, buffer⟩ := s
    cases buffer with
    | nil => exact absurd h (Nat.not_succ_le_zero n)
    | cons w rest =>
      obtain ⟨hstretch, hskip⟩ := ih (s := ⟨key, nextBlock, rest⟩) (Nat.le_of_succ_le_succ h)
      refine ⟨?_, hskip⟩
      rw [Nat.add_comm n 1, stretch_add, Nat.add_comm 1 n, List.take_succ_cons, ← hstretch]
      simp only [stretch, Nat.zero_add, ← upcoming_skip 1]
      rfl

/-- Octets come from the next buffer if there is nothing in this one. -/
theorem bytes_filled {n : Nat} (hn : n ≠ 0) (s : Source) : bytes n s.filled = bytes n s := by
  obtain ⟨k, hk⟩ : ∃ k, wordsFor n = k + 1 := ⟨(n - 1) / 4, by unfold wordsFor; omega⟩
  have hnext : WordSource.next s.filled = WordSource.next s := s.next_filled
  have hskip (j : Nat) : skip (j + 1) s.filled = skip (j + 1) s :=
    congrArg (fun x : UInt32 × Source => skip j x.2) hnext
  have hupcoming (i : Nat) : upcoming s.filled i = upcoming s i := by
    cases i with
    | zero => exact congrArg Prod.fst hnext
    | succ i => rw [upcoming, hskip]; rfl
  rw [bytes_eq, bytes_eq, hk, hskip, stretch, stretch]
  simp only [hupcoming]

/-- Octets that are all in the buffer are those of the next words. -/
theorem bytes_of_le {s : Source} {n : Nat} (h : n ≤ 4 * s.buffer.length) :
    bytes n s = (s.poured n, s.used (wordsFor n)) := by
  have hwords : wordsFor n ≤ s.buffer.length := by
    unfold wordsFor
    omega
  obtain ⟨hstretch, hskip⟩ := stretch_eq_take hwords
  have hpoured : cut n (s.buffer.take (wordsFor n)) = s.poured n := by
    have hle : n ≤ ((s.buffer.take (wordsFor n)).flatMap octets).length := by
      have hfor := le_wordsFor n
      rw [length_flatMap_octets, List.length_take, Nat.min_eq_left hwords]
      exact hfor
    rw [poured, ← List.take_append_drop (wordsFor n) s.buffer, List.flatMap_append,
      List.take_append_of_le_length hle, List.take_append_drop]
    rfl
  rw [bytes_eq, hstretch, hskip, hpoured]

/-- A buffer that has too few octets is used up. -/
theorem used_up {s : Source} {n : Nat} (h : 4 * s.buffer.length < n) :
    s.poured n = s.poured (4 * s.buffer.length) ∧
      s.used (wordsFor n) = s.used (wordsFor (4 * s.buffer.length)) := by
  have hlength := length_flatMap_octets s.buffer
  constructor
  · rw [poured, poured, List.take_of_length_le (by omega), List.take_of_length_le (by omega)]
  · unfold used wordsFor
    rw [List.drop_of_length_le (by omega), List.drop_of_length_le (by omega)]

/-- **Octets that are copied out of one buffer after the other are those of the next words.** -/
theorem fill_eq (n : Nat) (s : Source) : s.fill n = bytes n s := by
  fun_induction fill n s with
  | case1 s => rfl
  | case2 n s hn now later ih =>
    have hlength : now.length = min n (4 * s.filled.buffer.length) := length_poured n s.filled
    have hlater : later = bytes (n - now.length) (s.filled.used (wordsFor n)) := ih
    rw [hlater, ← bytes_filled hn]
    by_cases hfits : n ≤ 4 * s.filled.buffer.length
    · have hdone : n - now.length = 0 := by omega
      rw [hdone, bytes_zero, List.append_nil, bytes_of_le hfits]
    · -- the octets after those of this buffer come from later ones
      obtain ⟨hpoured, hused⟩ := used_up (Nat.lt_of_not_le hfits)
      have hnow : now = s.filled.poured (4 * s.filled.buffer.length) := hpoured
      have hparts : n = 4 * s.filled.buffer.length + (n - now.length) := by omega
      conv_rhs => rw [hparts, bytes_add (Nat.dvd_mul_right 4 _), bytes_of_le (Nat.le_refl _)]
      rw [hused, ← hnow]

/-- **A draw of two words from the buffer is a draw of the next two words.** -/
theorem pair_eq (s : Source) : s.pair = draw64 s := by
  obtain ⟨key, nextBlock, buffer⟩ := s
  obtain ⟨w, ws, hw⟩ :=
    List.exists_cons_of_length_eq_add_one (length_fourBlocks key nextBlock)
  obtain ⟨w', ws', rfl⟩ := List.exists_cons_of_length_eq_add_one (n := 62) (l := ws) (by
    have h := length_fourBlocks key nextBlock
    rw [hw, List.length_cons] at h
    omega)
  rcases buffer with _ | ⟨lo, _ | ⟨hi, rest⟩⟩
  · simp [pair, draw64, WordSource.next, Source.next, renewed, hw, joined, used]
  · simp [pair, draw64, WordSource.next, Source.next, renewed, hw, joined, used]
  · rfl

end Source

/-! ## What a cursor draws -/

/-- What a cursor draws are the words of its sequence from its position on: so many as octets need,
the last one cut off; two for 64 digits, the low half first; one for 32 digits; and none for a
number below zero. -/
structure Cursor.ReadsOn (c : Cursor) : Prop where
  bytes : ∀ n, Entropy.bytes n c =
    ((((List.range ((n + 3) / 4)).map fun i => c.word (c.position + i)).flatMap octets).take n,
      ⟨c.word, c.position + (n + 3) / 4⟩)
  draw64 : Entropy.draw64 c =
    (joined (c.word c.position) (c.word (c.position + 1)), ⟨c.word, c.position + 2⟩)
  draw32 : Entropy.draw32 c = (c.word c.position, ⟨c.word, c.position + 1⟩)
  zero : Entropy.bounded 0 c = (0, c)
  onward : ∀ d : Draw, ∃ n, (d.take c).2 = ⟨c.word, c.position + n⟩

/-- A number below a bound takes no words, two, or four. -/
theorem exists_skip_bounded (b : UInt64) (s : σ) : ∃ n, (bounded b s).2 = skip n s := by
  by_cases hb : b = 0
  · subst hb
    exact ⟨0, by rw [bounded_zero, skip_zero]⟩
  · rcases bounded_snd hb s with h | h
    · exact ⟨2, h⟩
    · exact ⟨2 + 2, by rw [h, skip_add]; rfl⟩

theorem Cursor.readsOn (c : Cursor) : c.ReadsOn where
  bytes n := by
    have hwords : stretch c 0 (wordsFor n) =
        (List.range (wordsFor n)).map fun i => c.word (c.position + i) := by
      refine List.map_congr_left fun i _ => ?_
      rw [Nat.zero_add, Cursor.upcoming_eq]
    rw [bytes_eq, hwords, Cursor.skip_eq]
    rfl
  draw64 := rfl
  draw32 := rfl
  zero := bounded_zero c
  onward d := by
    have hskip : ∃ n, (d.take c).2 = skip n c := by
      cases d with
      | bytes n => exact ⟨wordsFor n, congrArg Prod.snd (bytes_eq n c)⟩
      | bounded b => exact exists_skip_bounded b c
      | step w =>
        obtain ⟨n, -, hn⟩ := Weights.exists_skip_choose w c
        exact ⟨n, hn⟩
    obtain ⟨n, hn⟩ := hskip
    exact ⟨n, hn.trans (Cursor.skip_eq n c)⟩

/-- **A buffered source is one stream of words.**  Whatever is drawn from the source of a seed, and
in which order, it is what a cursor draws that reads on in the sequence of words of the seed.  What
is served from the buffer at once is what is drawn word by word; where the buffers end makes no
difference to what is drawn; and octets may be drawn in two parts if the first has whole words. -/
theorem Source.reads_one_stream (seed : UInt64) :
    (∀ draws, (drawAll draws (seeded seed)).1 = (drawAll draws (Cursor.seeded seed)).1) ∧
    (∀ c : Cursor, c.ReadsOn) ∧
    (∀ s : Source, s.pair = draw64 s ∧ ∀ n, s.fill n = bytes n s) ∧
    (∀ s s' : Source, SameWords s s' →
      ∀ draws, (drawAll draws s).1 = (drawAll draws s').1) ∧
    ∀ (s : Source) (a b : Nat), 4 ∣ a → bytes (a + b) s =
      ((bytes a s).1 ++ (bytes b (bytes a s).2).1, (bytes b (bytes a s).2).2) := by
  refine ⟨fun draws => ?_, Cursor.readsOn, fun s => ⟨pair_eq s, fun n => fill_eq n s⟩, ?_, ?_⟩
  · exact (drawAll_congr (sameWords_seeded seed) draws).1
  · exact fun s s' h draws => (drawAll_congr h draws).1
  · exact fun s a b ha => bytes_add ha b s

/-- A buffer of a single block is a stretch of the stream as well. -/
theorem Source.standsAt_block (key : Key) : (⟨key, 1, block key 0⟩ : Source).StandsAt 0 where
  buffered := by
    simp only [length_block]
    have hblock := block_eq key 0
    rwa [Nat.mul_zero] at hblock
  block := ⟨1, rfl, rfl⟩

/-- A source whose first buffer is one block long draws what one does whose buffers are four blocks
long, here a number whose two words are the last of the one buffer and the first of the next. -/
theorem Source.reads_one_stream_short_buffer :
    let short : Source := ⟨Key.ofSeed 42, 1, block (Key.ofSeed 42) 0⟩
    let draws := [Draw.bytes 58, .bounded 10, .bounded 0, .bytes 0]
    SameWords (seeded 42) short ∧ (drawAll draws (seeded 42)).1 = (drawAll draws short).1 ∧
      bytes (60 + 7) short =
        ((bytes 60 short).1 ++ (bytes 7 (bytes 60 short).2).1, (bytes 7 (bytes 60 short).2).2) := by
  intro short draws
  have hsame : SameWords (seeded 42) short := by
    intro i
    rw [(standsAt_seeded 42).upcoming, (standsAt_block (Key.ofSeed 42)).upcoming]
    rfl
  obtain ⟨-, -, -, hboundary, hparts⟩ := reads_one_stream 42
  exact ⟨hsame, hboundary (seeded 42) short hsame draws, hparts short 60 7 (by decide)⟩

end ShardLoad.Entropy
