import Mathlib.Data.FinEnum
import Mathlib.Data.Fintype.BigOperators
import Mathlib.Data.Set.Card
import ShardLoad.Proofs.Entropy.Stream

/-!
# Fields that are read in a row

A field takes whole words, and drops what is too much of the last one.  So fields that are read
in a row stand on words of their own, one behind the other, and what is dropped of a word is
seen by nobody.

Four octets make a word and a word makes four octets, so words can be counted by octets.  Those
that make a field of given contents leave the dropped octets free, and nothing else.  Hence all
contents are made by equally many words, and that of several fields at once.

* `contents`, `spans`, `fields_eq`: what is read, and from which words.
* `spans_apart`: fields share no words.
* `ncard_cut`: how many words make a field.
* `ncard_split`, `ncard_fields`: how many words make several fields.
-/

namespace ShardLoad.Entropy

/-- How many words are taken for so many octets. -/
def wordsFor (n : Nat) : Nat := (n + 3) / 4

/-- How many words are taken for octets of several lengths. -/
def wordsForAll (lengths : List Nat) : Nat := (lengths.map wordsFor).sum

/-- The first octets of words. -/
def cut (n : Nat) (ws : List UInt32) : Bytes := (ws.flatMap octets).take n

theorem le_wordsFor (n : Nat) : n ≤ 4 * wordsFor n := by
  unfold wordsFor
  omega

theorem wordsForAll_cons (n : Nat) (lengths : List Nat) :
    wordsForAll (n :: lengths) = wordsFor n + wordsForAll lengths := by
  rw [wordsForAll, List.map_cons, List.sum_cons]
  rfl

theorem sum_le_wordsForAll (lengths : List Nat) : lengths.sum ≤ 4 * wordsForAll lengths := by
  induction lengths with
  | nil => exact Nat.le_refl 0
  | cons n lengths ih =>
    have hn := le_wordsFor n
    rw [List.sum_cons, wordsForAll_cons]
    omega

/-! ## What is read, and from which words -/

section Reading

variable {σ : Type} [WordSource σ]

/-- So many words that are still to come, from one on. -/
def stretch (s : σ) (first count : Nat) : List UInt32 :=
  (List.range count).map fun i => upcoming s (first + i)

@[simp] theorem length_stretch (s : σ) (first count : Nat) :
    (stretch s first count).length = count := by
  rw [stretch, List.length_map, List.length_range]

/-- A stretch of words in two parts. -/
theorem stretch_add (s : σ) (first m n : Nat) :
    stretch s first (m + n) = stretch s first m ++ stretch s (first + m) n := by
  rw [stretch, List.range_add, List.map_append, List.map_map]
  simp only [stretch, Function.comp_def, Nat.add_assoc]

/-- What is read from the words from one on. -/
def contents (s : σ) (first n : Nat) : Bytes := cut n (stretch s first (wordsFor n))

/-- Octets are read from the next words. -/
theorem bytes_skip (n first : Nat) (s : σ) :
    bytes n (skip first s) = (contents s first n, skip (first + wordsFor n) s) := by
  have hupcoming : upcoming (skip first s) = fun i => upcoming s (first + i) :=
    funext fun i => upcoming_skip first i s
  rw [bytes, words_eq, skip_add, hupcoming]
  rfl

@[simp] theorem length_contents (s : σ) (first n : Nat) : (contents s first n).length = n := by
  have h := congrArg (fun x => x.1.length) (bytes_skip n first s)
  simp only [length_bytes] at h
  exact h.symm

/-- Octets of several lengths, one after the other. -/
def fields : List Nat → σ → List Bytes × σ
  | [], s => ([], s)
  | n :: lengths, s =>
    let (field, s) := bytes n s
    let (rest, s) := fields lengths s
    (field :: rest, s)

/-- Fields are read on where those before them end. -/
theorem fields_append (lengths lengths' : List Nat) (s : σ) :
    fields (lengths ++ lengths') s =
      ((fields lengths s).1 ++ (fields lengths' (fields lengths s).2).1,
        (fields lengths' (fields lengths s).2).2) := by
  induction lengths generalizing s with
  | nil => rfl
  | cons n lengths ih =>
    rw [List.cons_append, fields, fields]
    simp only [ih, List.cons_append]

/-- Where octets of several lengths stand that are read from one word on: the first word of
each, and its length. -/
def spans (first : Nat) : List Nat → List (Nat × Nat)
  | [] => []
  | n :: lengths => (first, n) :: spans (first + wordsFor n) lengths

/-- Fields are read from the words where they stand. -/
theorem fields_skip (lengths : List Nat) (first : Nat) (s : σ) :
    fields lengths (skip first s) =
      ((spans first lengths).map fun x => contents s x.1 x.2,
        skip (first + wordsForAll lengths) s) := by
  induction lengths generalizing first with
  | nil => rfl
  | cons n lengths ih =>
    rw [fields, bytes_skip]
    simp only [ih, spans, List.map_cons, wordsForAll_cons, Nat.add_assoc]

theorem fields_eq (lengths : List Nat) (s : σ) :
    fields lengths s =
      ((spans 0 lengths).map fun x => contents s x.1 x.2, skip (wordsForAll lengths) s) := by
  have h := fields_skip lengths 0 s
  rwa [skip_zero, Nat.zero_add] at h

end Reading

/-- No field stands before the word from which on fields are read. -/
theorem le_of_mem_spans {first : Nat} {lengths : List Nat} :
    ∀ x ∈ spans first lengths, first ≤ x.1 := by
  induction lengths generalizing first with
  | nil => exact fun x h => absurd h List.not_mem_nil
  | cons n lengths ih =>
    intro x h
    rcases List.mem_cons.mp h with rfl | h
    · exact Nat.le_refl _
    · exact Nat.le_trans (Nat.le_add_right ..) (ih x h)

/-- A field ends before the next one begins. -/
theorem spans_apart (first : Nat) (lengths : List Nat) :
    (spans first lengths).Pairwise fun x y => x.1 + wordsFor x.2 ≤ y.1 := by
  induction lengths generalizing first with
  | nil => exact .nil
  | cons n lengths ih => exact .cons le_of_mem_spans (ih _)

/-! ## Words and octets -/

/-- The octets of a word are its digits to the base 256, the lowest one first. -/
theorem octets_eq_iff {w : UInt32} {a b c d : UInt8} :
    octets w = [a, b, c, d] ↔
      w.toNat = a.toNat + b.toNat * 2 ^ 8 + c.toNat * 2 ^ 16 + d.toNat * 2 ^ 24 := by
  have hw := w.toNat_lt
  have ha := a.toNat_lt
  have hb := b.toNat_lt
  have hc := c.toNat_lt
  have hd := d.toNat_lt
  have h8 : (w >>> 8).toNat = w.toNat / 2 ^ 8 := Nat.shiftRight_eq_div_pow ..
  have h16 : (w >>> 16).toNat = w.toNat / 2 ^ 16 := Nat.shiftRight_eq_div_pow ..
  have h24 : (w >>> 24).toNat = w.toNat / 2 ^ 24 := Nat.shiftRight_eq_div_pow ..
  simp only [octets, List.cons.injEq, and_true, ← UInt8.toNat_inj, UInt32.toNat_toUInt8, h8, h16,
    h24]
  omega

/-- Words with the same octets are the same. -/
theorem octets_injective {w w' : UInt32} (h : octets w = octets w') : w = w' :=
  UInt32.toNat_inj.mp ((octets_eq_iff.mp rfl).trans (octets_eq_iff.mp h.symm).symm)

/-- Any four octets are those of a word. -/
theorem exists_octets (a b c d : UInt8) : ∃ w, octets w = [a, b, c, d] := by
  have ha := a.toNat_lt
  have hb := b.toNat_lt
  have hc := c.toNat_lt
  have hd := d.toNat_lt
  refine ⟨.ofNat (a.toNat + b.toNat * 2 ^ 8 + c.toNat * 2 ^ 16 + d.toNat * 2 ^ 24), ?_⟩
  exact octets_eq_iff.mpr (UInt32.toNat_ofNat_of_lt' (by show _ < 2 ^ 32; omega))

theorem flatMap_octets_injective {ws ws' : List UInt32}
    (h : ws.flatMap octets = ws'.flatMap octets) : ws = ws' := by
  induction ws generalizing ws' with
  | nil =>
    cases ws' with
    | nil => rfl
    | cons w ws' => cases h
  | cons w ws ih =>
    cases ws' with
    | nil => cases h
    | cons w' ws' =>
      obtain ⟨hw, hws⟩ := List.append_inj h rfl
      rw [octets_injective hw, ih hws]

theorem exists_flatMap_octets {m : Nat} {bs : Bytes} (h : bs.length = 4 * m) :
    ∃ ws : List UInt32, ws.length = m ∧ ws.flatMap octets = bs := by
  induction m generalizing bs with
  | zero => exact ⟨[], rfl, (List.length_eq_zero_iff.mp h).symm⟩
  | succ m ih =>
    obtain ⟨a, b, c, d, rest, rfl⟩ : ∃ a b c d rest, bs = a :: b :: c :: d :: rest := by
      match bs, h with
      | a :: b :: c :: d :: rest, _ => exact ⟨a, b, c, d, rest, rfl⟩
    have hrest : rest.length = 4 * m := by
      simp only [List.length_cons] at h
      omega
    obtain ⟨ws, hlength, hws⟩ := ih hrest
    obtain ⟨w, hw⟩ := exists_octets a b c d
    refine ⟨w :: ws, by rw [List.length_cons, hlength], ?_⟩
    rw [List.flatMap_cons, hw, hws]
    rfl

/-! ## How many words make a field -/

theorem ncard_bytes (n : Nat) : {bs : Bytes | bs.length = n}.ncard = 256 ^ n := by
  have hoctets : Fintype.card UInt8 = 256 :=
    FinEnum.card_eq_fintypeCard.symm.trans FinEnum.card_UInt8
  have hcard := card_vector (α := UInt8) n
  rw [hoctets] at hcard
  rw [← hcard, ← Nat.card_eq_fintype_card]
  rfl

/-- The words that make a field of given contents differ in what is dropped of the last one. -/
theorem ncard_cut {n : Nat} {field : Bytes} (h : field.length = n) :
    {ws : List UInt32 | ws.length = wordsFor n ∧ cut n ws = field}.ncard =
      256 ^ (4 * wordsFor n - n) := by
  have hn := le_wordsFor n
  rw [← ncard_bytes]
  -- what is kept is given, so words are told apart by what is dropped
  refine Set.BijOn.ncard_eq (f := fun ws => (ws.flatMap octets).drop n) ⟨?_, ?_, ?_⟩
  · rintro ws ⟨hlength, -⟩
    show (List.drop n _).length = _
    rw [List.length_drop, length_flatMap_octets, hlength]
  · rintro ws ⟨-, hws⟩ ws' ⟨-, hws'⟩ hdrop
    refine flatMap_octets_injective ?_
    rw [← List.take_append_drop n (ws.flatMap octets),
      ← List.take_append_drop n (ws'.flatMap octets)]
    exact congrArg₂ _ (hws.trans hws'.symm) hdrop
  · intro rest hrest
    have hrest : rest.length = 4 * wordsFor n - n := hrest
    have hwhole : (field ++ rest).length = 4 * wordsFor n := by
      rw [List.length_append, h, hrest]
      omega
    obtain ⟨ws, hlength, hws⟩ := exists_flatMap_octets hwhole
    refine ⟨ws, ⟨hlength, ?_⟩, ?_⟩
    · rw [cut, hws, List.take_left' h]
    · show List.drop n _ = _
      rw [hws, List.drop_left' h]

/-! ## How many words make several fields -/

/-- Words as fields of several lengths, one behind the other. -/
def split : List Nat → List UInt32 → List Bytes
  | [], _ => []
  | n :: lengths, ws => cut n (ws.take (wordsFor n)) :: split lengths (ws.drop (wordsFor n))

/-- All contents of fields are made by equally many words. -/
theorem ncard_split {lengths : List Nat} {parts : List Bytes}
    (h : parts.map List.length = lengths) :
    {ws : List UInt32 | ws.length = wordsForAll lengths ∧ split lengths ws = parts}.ncard =
      256 ^ (4 * wordsForAll lengths - lengths.sum) := by
  induction lengths generalizing parts with
  | nil =>
    obtain rfl := List.map_eq_nil_iff.mp h
    refine Set.ncard_eq_one.mpr ⟨[], ?_⟩
    ext ws
    show (ws.length = 0 ∧ [] = []) ↔ ws = []
    rw [and_iff_left rfl, List.length_eq_zero_iff]
  | cons n lengths ih =>
    obtain ⟨field, rest, rfl, hfield, hrest⟩ := List.map_eq_cons_iff.mp h
    have hn := le_wordsFor n
    have hsum := sum_le_wordsForAll lengths
    have hexponent : 4 * wordsForAll (n :: lengths) - (n :: lengths).sum =
        (4 * wordsFor n - n) + (4 * wordsForAll lengths - lengths.sum) := by
      rw [wordsForAll_cons, List.sum_cons]
      omega
    -- the words of the first field, and those of the others
    rw [hexponent, Nat.pow_add, ← ncard_cut hfield, ← ih hrest, ← Set.ncard_prod]
    refine Set.BijOn.ncard_eq
      (f := fun ws => (ws.take (wordsFor n), ws.drop (wordsFor n))) ⟨?_, ?_, ?_⟩
    · rintro ws ⟨hlength, hws⟩
      rw [wordsForAll_cons] at hlength
      obtain ⟨hcut, hsplit⟩ := List.cons.inj hws
      refine ⟨⟨?_, hcut⟩, ?_, hsplit⟩
      · rw [List.length_take, hlength, Nat.min_eq_left (Nat.le_add_right ..)]
      · rw [List.length_drop, hlength, Nat.add_sub_cancel_left]
    · intro ws _ ws' _ hws
      obtain ⟨htake, hdrop⟩ := Prod.mk.inj hws
      rw [← List.take_append_drop (wordsFor n) ws, htake, hdrop, List.take_append_drop]
    · rintro ⟨ws, ws'⟩ ⟨⟨hlength, hcut⟩, hlength', hsplit⟩
      have htake : (ws ++ ws').take (wordsFor n) = ws := List.take_left' hlength
      have hdrop : (ws ++ ws').drop (wordsFor n) = ws' := List.drop_left' hlength
      refine ⟨ws ++ ws', ⟨?_, ?_⟩, Prod.ext htake hdrop⟩
      · rw [List.length_append, hlength, hlength', wordsForAll_cons]
      · rw [split, htake, hdrop, hcut, hsplit]

/-- Fields are what their words split into. -/
theorem map_contents_spans {σ : Type} [WordSource σ] (s : σ) (first : Nat) (lengths : List Nat) :
    ((spans first lengths).map fun x => contents s x.1 x.2) =
      split lengths (stretch s first (wordsForAll lengths)) := by
  induction lengths generalizing first with
  | nil => rfl
  | cons n lengths ih =>
    have hlength := length_stretch s first (wordsFor n)
    rw [wordsForAll_cons, stretch_add, split, List.take_left' hlength, List.drop_left' hlength,
      ← ih]
    rfl

/-- A source that hands out given words. -/
def Cursor.ofWords (ws : List UInt32) : Cursor := ⟨fun i => ws.getD i 0, 0⟩

theorem Cursor.stretch_ofWords (ws : List UInt32) : stretch (ofWords ws) 0 ws.length = ws := by
  refine List.ext_getElem (length_stretch ..) fun i _ hi => ?_
  have hword : ws.getD (0 + (0 + i)) 0 = ws[i] := by
    rw [Nat.zero_add, Nat.zero_add, List.getD_eq_getElem?_getD, List.getElem?_eq_getElem hi,
      Option.getD_some]
  simp only [stretch, List.getElem_map, List.getElem_range, upcoming_eq]
  exact hword

/-- All contents of fields are read from equally many words. -/
theorem ncard_fields {lengths : List Nat} {parts : List Bytes}
    (h : parts.map List.length = lengths) :
    {ws : List UInt32 | ws.length = wordsForAll lengths ∧
      (fields lengths (Cursor.ofWords ws)).1 = parts}.ncard =
        256 ^ (4 * wordsForAll lengths - lengths.sum) := by
  rw [← ncard_split h]
  congr 1
  ext ws
  refine and_congr_right fun hlength => ?_
  rw [fields_eq, map_contents_spans, ← hlength, Cursor.stretch_ofWords]

end ShardLoad.Entropy
