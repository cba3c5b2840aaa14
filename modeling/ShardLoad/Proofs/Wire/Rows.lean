import Mathlib.Algebra.Order.BigOperators.Group.List
import Mathlib.Algebra.Order.Ring.Nat
import ShardLoad.Wire.Message

/-!
# Rows of fields

What is written of a message is a row of fields, and reading takes a string of octets apart
into such a row.  All that is said of messages rests on two facts about rows, which know
nothing of what the fields mean:

* `parse?_encode_append`: a row that was written is read back in front of anything;
* `sum_octets_le_of_parse?`: the fields that are read hold no more than what they are read
  from.

Not every row can be written so that it is read back.  A key has 32 bits, three of which are
the form of the value, and a number or a length has 64 bits; `Field.Writable` is what fits.
How long a row gets when it is written is bounded by what its fields hold
(`length_flatMap_encode_le`), so a message that fits into a memory has a row that can be
written.
-/

namespace ShardLoad.Wire

/-! ## Lengths -/

/-- What is split off and what follows it are the whole. -/
theorem length_add_of_split? {n : Nat} {bs taken rest : Bytes}
    (h : split? n bs = some (taken, rest)) : taken.length + rest.length = bs.length := by
  unfold split? at h
  split at h
  · obtain ⟨rfl, rfl⟩ := Prod.mk.injEq .. ▸ Option.some.inj h
    rw [← List.length_append, List.take_append_drop]
  · exact absurd h (by simp)

/-- A string is split off from what follows it. -/
theorem split?_append (bs rest : Bytes) : split? bs.length (bs ++ rest) = some (bs, rest) := by
  unfold split?
  rw [if_pos (by rw [List.length_append]; exact Nat.le_add_right ..), List.take_left,
    List.drop_left]

/-! ## What fields hold -/

/-- How many octets a value holds whose number is written with it. -/
def FieldValue.octets : FieldValue → Nat
  | .delimited bs => bs.length
  | _ => 0

/-- How many octets a field holds whose number is written with it. -/
def Field.octets (f : Field) : Nat := f.value.octets

/-- A value holds no more than what it and the rest were read from. -/
theorem octets_le_of_decodeValue? {budget number : Nat} {t : WireType} {bs rest : Bytes}
    {v : FieldValue} (h : decodeValue? budget number t bs = some (v, rest)) :
    v.octets + rest.length ≤ bs.length := by
  have hrest := length_le_of_decodeValue? h
  by_cases hv : v.octets = 0
  · omega
  · cases t with
    | delimited =>
      simp only [decodeValue?, bind, Option.bind_eq_some_iff, Option.map_eq_some_iff,
        Prod.exists, Prod.mk.injEq] at h
      obtain ⟨n, counted, hn, taken, rest, hsplit, rfl, rfl⟩ := h
      have hlt := Varint.length_lt_of_decode? hn
      have hsum := length_add_of_split? hsplit
      show taken.length + rest.length ≤ bs.length
      omega
    | varint | fixed64 | fixed32 =>
      simp only [decodeValue?, Option.map_eq_some_iff, Prod.exists, Prod.mk.injEq] at h
      obtain ⟨_, _, _, rfl, _⟩ := h
      exact absurd rfl hv
    | groupStart =>
      simp only [decodeValue?, Option.map_eq_some_iff, Prod.mk.injEq] at h
      obtain ⟨_, _, rfl, _⟩ := h
      exact absurd rfl hv
    | groupEnd => exact absurd h (by simp [decodeValue?])

/-- A field holds no more than what it and the rest were read from. -/
theorem octets_le_of_decodeField? {budget : Nat} {bs rest : Bytes} {f : Field}
    (h : decodeField? budget bs = some (f, rest)) : f.octets + rest.length ≤ bs.length := by
  simp only [decodeField?, bind, Option.bind_eq_some_iff, Prod.exists, Option.some.injEq,
    Prod.mk.injEq] at h
  obtain ⟨number, t, valued, hkey, v, rest, hvalue, rfl, rfl⟩ := h
  have hlt := length_lt_of_decodeKey? hkey
  have hle := octets_le_of_decodeValue? hvalue
  show v.octets + rest.length ≤ bs.length
  omega

/-- The fields of a string of octets hold no more than the string. -/
theorem sum_octets_le_of_parse? {budget : Nat} {bs : Bytes} {fs : List Field}
    (h : parse? budget bs = some fs) : (fs.map Field.octets).sum ≤ bs.length := by
  induction fs generalizing bs with
  | nil => exact Nat.zero_le _
  | cons f fs ih =>
    rw [parse?] at h
    split at h
    · exact absurd h (by simp)
    · split at h
      · exact absurd h (by simp)
      · rename_i g rest hfield
        obtain ⟨gs, hrest, he⟩ := Option.map_eq_some_iff.mp h
        obtain ⟨rfl, rfl⟩ := List.cons.injEq .. ▸ he
        have hle := octets_le_of_decodeField? hfield
        have hsum := ih hrest
        rw [List.map_cons, List.sum_cons]
        omega

/-! ## Fields that are read back -/

/-- The values that fit their form. -/
def FieldValue.Fits : FieldValue → Prop
  | .varint n => n < 2 ^ 64
  | .fixed64 bs => bs.length = 8
  | .delimited bs => bs.length < 2 ^ 64
  | .group => True
  | .fixed32 bs => bs.length = 4

/-- The fields that are read back when they are written. -/
structure Field.Writable (f : Field) : Prop where
  pos : 0 < f.number
  bound : f.number < 2 ^ 29
  fits : f.value.Fits

/-- The three bits of a form are three bits. -/
theorem WireType.number_lt (t : WireType) : t.number < 8 := by
  cases t <;> decide

/-- The octets that stand for a value, after a key that tells its form. -/
inductive FieldValue.Spelled : FieldValue → WireType → Bytes → Prop where
  | varint {n : Nat} {bs : Bytes} (h : Varint.Spells n bs) : Spelled (.varint n) .varint bs
  | fixed64 {bs : Bytes} (h : bs.length = 8) : Spelled (.fixed64 bs) .fixed64 bs
  | delimited {bs length : Bytes} (h : Varint.Spells bs.length length) :
      Spelled (.delimited bs) .delimited (length ++ bs)
  | fixed32 {bs : Bytes} (h : bs.length = 4) : Spelled (.fixed32 bs) .fixed32 bs

/-- The octets that stand for a field; numbers need not have their shortest form. -/
inductive Field.Spelled : Field → Bytes → Prop where
  | mk {number : Nat} {v : FieldValue} {t : WireType} {key bs : Bytes} (hpos : 0 < number)
      (hbound : number < 2 ^ 29) (hkey : Varint.Spells (8 * number + t.number) key)
      (hvalue : v.Spelled t bs) : Spelled ⟨number, v⟩ (key ++ bs)

/-- A key is read from in front of anything. -/
theorem decodeKey?_append_of_spells {n : Nat} (hpos : 0 < n) (hn : n < 2 ^ 29) {t : WireType}
    {key : Bytes} (h : Varint.Spells (8 * n + t.number) key) (rest : Bytes) :
    decodeKey? (key ++ rest) = some (n, t, rest) := by
  have ht := t.number_lt
  have hmod : (8 * n + t.number) % 8 = t.number := by omega
  have hdiv : (8 * n + t.number) / 8 = n := by omega
  unfold decodeKey?
  rw [Varint.decode?_append_of_spells h]
  simp only [bind, Option.bind_some]
  rw [if_neg (by omega), hmod, hdiv, WireType.ofNumber?_number, Option.bind_some,
    if_neg (Nat.ne_of_gt hpos)]

theorem spells_encodeKey {n : Nat} (hn : n < 2 ^ 29) (t : WireType) :
    Varint.Spells (8 * n + t.number) (encodeKey n t) := by
  have ht := t.number_lt
  exact Varint.spells_encode (by omega)

/-- A value is read from in front of anything. -/
theorem decodeValue?_append_of_spelled (budget number : Nat) {v : FieldValue} {t : WireType}
    {bs : Bytes} (h : v.Spelled t bs) (rest : Bytes) :
    decodeValue? budget number t (bs ++ rest) = some (v, rest) := by
  cases h with
  | varint h => rw [decodeValue?, Varint.decode?_append_of_spells h, Option.map_some]
  | fixed64 h =>
    have hsplit := split?_append bs rest
    rw [h] at hsplit
    rw [decodeValue?, hsplit, Option.map_some]
  | @delimited octets length h =>
    rw [List.append_assoc, decodeValue?, Varint.decode?_append_of_spells h]
    simp only [bind, Option.bind_some, split?_append, Option.map_some]
  | fixed32 h =>
    have hsplit := split?_append bs rest
    rw [h] at hsplit
    rw [decodeValue?, hsplit, Option.map_some]

/-- A field is read from in front of anything. -/
theorem decodeField?_append_of_spelled (budget : Nat) {f : Field} {bs : Bytes} (h : f.Spelled bs)
    (rest : Bytes) : decodeField? budget (bs ++ rest) = some (f, rest) := by
  obtain ⟨hpos, hbound, hkey, hvalue⟩ := h
  unfold decodeField?
  rw [List.append_assoc, decodeKey?_append_of_spells hpos hbound hkey]
  simp only [bind, Option.bind_some, decodeValue?_append_of_spelled budget _ hvalue]

/-- A group in which nothing stands ends with its mark. -/
theorem skipGroups?_encodeKey_append {budget n : Nat} (hpos : 0 < n) (hn : n < 2 ^ 29)
    (rest : Bytes) : skipGroups? budget [n] (encodeKey n .groupEnd ++ rest) = some rest := by
  have hend := decodeKey?_append_of_spells hpos hn (spells_encodeKey hn .groupEnd) rest
  rw [skipGroups?_of_decodeKey? hend, if_pos rfl, if_pos rfl, skipGroups?]

/-- A field that fits is read back in front of anything. -/
theorem decodeField?_encode_append (budget : Nat) {f : Field} (h : f.Writable) (rest : Bytes) :
    decodeField? budget (f.encode ++ rest) = some (f, rest) := by
  obtain ⟨number, value⟩ := f
  obtain ⟨hpos, hbound, hfits⟩ := h
  have hspelled : ∀ {t bs}, value.Spelled t bs →
      decodeField? budget ((encodeKey number t ++ bs) ++ rest) = some (⟨number, value⟩, rest) :=
    fun hvalue => decodeField?_append_of_spelled budget
      (.mk hpos hbound (spells_encodeKey hbound _) hvalue) rest
  cases value with
  | varint n => exact hspelled (.varint (Varint.spells_encode hfits))
  | fixed64 bs => exact hspelled (.fixed64 hfits)
  | fixed32 bs => exact hspelled (.fixed32 hfits)
  | delimited bs => exact hspelled (.delimited (Varint.spells_encode hfits))
  | group =>
    have hstart := decodeKey?_append_of_spells hpos hbound (spells_encodeKey hbound .groupStart)
    unfold decodeField? Field.encode
    simp only [List.append_assoc, hstart, bind, Option.bind_some, decodeValue?,
      skipGroups?_encodeKey_append hpos hbound, Option.map_some]

/-- A row that fits is read back in front of anything. -/
theorem parse?_encode_append (budget : Nat) {fs : List Field} (h : ∀ f ∈ fs, f.Writable)
    (rest : Bytes) :
    parse? budget (fs.flatMap Field.encode ++ rest) = (parse? budget rest).map (fs ++ ·) := by
  induction fs with
  | nil => simp
  | cons f fs ih =>
    have hfield := decodeField?_encode_append budget
      (h f List.mem_cons_self) (fs.flatMap Field.encode ++ rest)
    rw [List.flatMap_cons, List.append_assoc, parse?_of_decodeField? hfield,
      ih fun g hg => h g (List.mem_cons_of_mem _ hg), Option.map_map]
    rfl

/-- A row that fits is read back. -/
theorem parse?_encode (budget : Nat) {fs : List Field} (h : ∀ f ∈ fs, f.Writable) :
    parse? budget (fs.flatMap Field.encode) = some fs := by
  have hrow := parse?_encode_append budget h []
  rw [List.append_nil, parse?_nil] at hrow
  rw [hrow, Option.map_some, List.append_nil]

/-! ## How long a row gets -/

/-- A field that fits takes fifteen octets at most besides those that it holds. -/
theorem Field.length_encode_le {f : Field} (h : f.Writable) : f.encode.length ≤ f.octets + 15 := by
  obtain ⟨number, value⟩ := f
  obtain ⟨-, hbound, hfits⟩ := h
  have hkey : ∀ t, (encodeKey number t).length ≤ 5 := by
    intro t
    have ht := t.number_lt
    refine Varint.length_encode_le ?_
    have hbound : number < 2 ^ 29 := hbound
    omega
  have hnumber : ∀ n, n < 2 ^ 64 → (Varint.encode n).length ≤ 10 := fun n hn =>
    Varint.length_encode_le (Nat.lt_trans hn (by decide))
  cases value with
  | varint n =>
    have hk := hkey .varint
    have hn := hnumber n hfits
    simp only [Field.encode, List.length_append]
    omega
  | delimited bs =>
    have hk := hkey .delimited
    have hn := hnumber bs.length hfits
    simp only [Field.encode, List.length_append, Field.octets, FieldValue.octets]
    omega
  | fixed64 bs =>
    have hk := hkey .fixed64
    have hbs : bs.length = 8 := hfits
    simp only [Field.encode, List.length_append]
    omega
  | fixed32 bs =>
    have hk := hkey .fixed32
    have hbs : bs.length = 4 := hfits
    simp only [Field.encode, List.length_append]
    omega
  | group =>
    have hs := hkey .groupStart
    have he := hkey .groupEnd
    simp only [Field.encode, List.length_append]
    omega

/-- A row that fits takes fifteen octets a field at most besides those that its fields hold. -/
theorem length_flatMap_encode_le {fs : List Field} (h : ∀ f ∈ fs, f.Writable) :
    (fs.flatMap Field.encode).length ≤ (fs.map Field.octets).sum + 15 * fs.length := by
  induction fs with
  | nil => exact Nat.zero_le _
  | cons f fs ih =>
    have hf := Field.length_encode_le (h f List.mem_cons_self)
    have hfs := ih fun g hg => h g (List.mem_cons_of_mem _ hg)
    rw [List.flatMap_cons, List.length_append, List.map_cons, List.sum_cons, List.length_cons]
    omega

/-- What a field holds is written with it. -/
theorem Field.octets_le_length_encode (f : Field) : f.octets ≤ f.encode.length := by
  obtain ⟨number, value⟩ := f
  cases value with
  | delimited bs =>
    simp only [Field.encode, List.length_append, Field.octets, FieldValue.octets]
    omega
  | varint | fixed64 | fixed32 | group => exact Nat.zero_le _

/-- What a field of a row holds is written with the row. -/
theorem octets_le_length_of_mem {fs : List Field} {f : Field} (h : f ∈ fs) :
    f.octets ≤ (fs.flatMap Field.encode).length := by
  obtain ⟨before, after, rfl⟩ := List.append_of_mem h
  have hle := f.octets_le_length_encode
  rw [List.flatMap_append, List.flatMap_cons, List.length_append, List.length_append]
  omega

end ShardLoad.Wire
