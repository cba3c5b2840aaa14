import ShardLoad.Proofs.Wire.Rows

/-!
# Places in a row

A kind of message has a place for each number that it declares.  The value of a place is written
there, or the place is left out because the value is the default.  What is left out differs from
one kind of value to the next; what follows for the row does not, and is said of places here: how
long the row is, which numbers it has, and what stays of it when some places are cleared.

* `Slot`, `row`: places, and the fields that are written in them.
* `mem_numbers_row_iff`, `numbers_row_sublist`: the numbers of a row are those of its places that
  hold a value, in their order.
* `writable_of_mem_row`: the fields of a row can be written if its places can.
* `without_row`: a row without some numbers is the row with their places cleared.
-/

namespace ShardLoad.Wire

/-- A place in a row: its number, and the value that is written there, if one is. -/
structure Slot where
  number : Nat
  value : Option FieldValue

/-- The fields that are written in places. -/
def row (slots : List Slot) : List Field :=
  slots.filterMap fun s => s.value.map (Field.mk s.number)

/-! ## Rows of places -/

theorem row_append (slots slots' : List Slot) : row (slots ++ slots') = row slots ++ row slots' :=
  List.filterMap_append

theorem row_cons (s : Slot) (slots : List Slot) : row (s :: slots) = row [s] ++ row slots :=
  row_append [s] slots

theorem mem_row_iff {f : Field} {slots : List Slot} :
    f ∈ row slots ↔ ∃ s ∈ slots, s.number = f.number ∧ s.value = some f.value := by
  unfold row
  rw [List.mem_filterMap]
  refine exists_congr fun s => and_congr_right fun _ => ?_
  rw [Option.map_eq_some_iff]
  constructor
  · rintro ⟨v, hv, rfl⟩
    exact ⟨rfl, hv⟩
  · rintro ⟨hnumber, hvalue⟩
    exact ⟨f.value, hvalue, by rw [hnumber]⟩

/-- The numbers of a row are those of the places that hold a value. -/
theorem mem_numbers_row_iff {k : Nat} {slots : List Slot} :
    k ∈ (row slots).map Field.number ↔ ∃ s ∈ slots, k = s.number ∧ s.value ≠ none := by
  rw [List.mem_map]
  constructor
  · rintro ⟨f, hf, rfl⟩
    obtain ⟨s, hs, hnumber, hvalue⟩ := mem_row_iff.mp hf
    exact ⟨s, hs, hnumber.symm, by rw [hvalue]; exact Option.some_ne_none _⟩
  · rintro ⟨s, hs, rfl, hvalue⟩
    obtain ⟨v, hv⟩ := Option.ne_none_iff_exists'.mp hvalue
    exact ⟨⟨s.number, v⟩, mem_row_iff.mpr ⟨s, hs, rfl, hv⟩, rfl⟩

/-- The numbers of a row stand in the order of the places. -/
theorem numbers_row_sublist (slots : List Slot) :
    ((row slots).map Field.number).Sublist (slots.map Slot.number) := by
  induction slots with
  | nil => exact .slnil
  | cons s slots ih =>
    rw [row_cons, List.map_append]
    obtain ⟨number, _ | v⟩ := s
    · exact ih.cons number
    · exact ih.cons_cons number

theorem length_row_le (slots : List Slot) : (row slots).length ≤ slots.length :=
  List.length_filterMap_le ..

/-- How many octets the value of a place holds whose number is written with it. -/
def Slot.octets (s : Slot) : Nat := (s.value.map FieldValue.octets).getD 0

theorem sum_octets_row (slots : List Slot) :
    ((row slots).map Field.octets).sum = (slots.map Slot.octets).sum := by
  induction slots with
  | nil => rfl
  | cons s slots ih =>
    rw [row_cons, List.map_append, List.sum_append, ih, List.map_cons, List.sum_cons]
    obtain ⟨number, _ | v⟩ := s <;> rfl

/-! ## Places that can be written -/

/-- The places that can be written, unless their values are too long. -/
structure Slot.Writable (s : Slot) : Prop where
  pos : 0 < s.number
  bound : s.number < 2 ^ 29
  fits : ∀ v, s.value = some v → v.octets < 2 ^ 64 → v.Fits

/-- What is written in a place that can be written is read back, unless it is too long. -/
theorem writable_of_mem_row {slots : List Slot} (hslots : ∀ s ∈ slots, s.Writable) {f : Field}
    (h : f ∈ row slots) (hf : f.octets < 2 ^ 64) : f.Writable := by
  obtain ⟨s, hs, hnumber, hvalue⟩ := mem_row_iff.mp h
  obtain ⟨hpos, hbound, hfits⟩ := hslots s hs
  rw [hnumber] at hpos hbound
  exact ⟨hpos, hbound, hfits f.value hvalue hf⟩

/-! ## Places that are cleared -/

/-- The fields of a row whose numbers are not among some. -/
def without (ns : List Nat) (fs : List Field) : List Field := fs.filter fun f => f.number ∉ ns

/-- A place, cleared if its number is among some. -/
def Slot.clear (ns : List Nat) (s : Slot) : Slot where
  number := s.number
  value := if s.number ∈ ns then none else s.value

theorem without_append (ns : List Nat) (fs gs : List Field) :
    without ns (fs ++ gs) = without ns fs ++ without ns gs := List.filter_append ..

/-- A row without some numbers is the row with their places cleared. -/
theorem without_row (ns : List Nat) (slots : List Slot) :
    without ns (row slots) = row (slots.map (Slot.clear ns)) := by
  induction slots with
  | nil => rfl
  | cons s slots ih =>
    rw [row_cons, without_append, ih, List.map_cons, row_cons (s.clear ns)]
    congr 1
    obtain ⟨number, _ | v⟩ := s <;> by_cases h : number ∈ ns <;> simp [row, without, Slot.clear, h]

/-! ## The kinds of values -/

/-- The word of a signed number has 64 bits. -/
theorem signedWord_lt (n : Int32) : signedWord n < 2 ^ 64 := by
  have hlo : -2147483648 ≤ n.toInt := by simpa using n.le_toInt
  have hhi : n.toInt < 2147483648 := by simpa using n.toInt_lt
  unfold signedWord
  simp only [Nat.reducePow]
  split <;> omega

namespace Slot

/-- A string of octets, which is left out when it is empty. -/
def bytes (number : Nat) (bs : Bytes) : Slot where
  number := number
  value := if bs = [] then none else some (.delimited bs)

/-- A string of octets, which is left out when it is absent. -/
def optionalBytes (number : Nat) (o : Option Bytes) : Slot where
  number := number
  value := o.map .delimited

/-- A signed number, which is left out when it is zero. -/
def int32 (number : Nat) (n : Int32) : Slot where
  number := number
  value := if n = 0 then none else some (.varint (signedWord n))

/-- A truth value, which is left out when it is false. -/
def bool (number : Nat) (b : Bool) : Slot where
  number := number
  value := if b then some (.varint 1) else none

variable {number : Nat}

theorem row_bytes (bs : Bytes) : row [bytes number bs] = bytesField number bs := by
  by_cases h : bs = [] <;> simp [row, bytes, bytesField, h]

theorem row_optionalBytes (o : Option Bytes) :
    row [optionalBytes number o] = optionalBytesField number o := by
  cases o <;> rfl

theorem row_int32 (n : Int32) : row [int32 number n] = int32Field number n := by
  by_cases h : n = 0 <;> simp [row, int32, int32Field, h]

theorem row_bool (b : Bool) : row [bool number b] = boolField number b := by
  cases b <;> rfl

theorem octets_bytes (bs : Bytes) : (bytes number bs).octets = bs.length := by
  by_cases h : bs = [] <;> simp [octets, bytes, FieldValue.octets, h]

theorem octets_optionalBytes (o : Option Bytes) :
    (optionalBytes number o).octets = (o.map List.length).getD 0 := by
  cases o <;> rfl

theorem octets_int32 (n : Int32) : (int32 number n).octets = 0 := by
  by_cases h : n = 0 <;> simp [octets, int32, FieldValue.octets, h]

theorem octets_bool (b : Bool) : (bool number b).octets = 0 := by
  cases b <;> rfl

theorem clear_bytes (ns : List Nat) (bs : Bytes) :
    (bytes number bs).clear ns = bytes number (if number ∈ ns then [] else bs) := by
  by_cases h : number ∈ ns <;> simp [clear, bytes, h]

theorem clear_optionalBytes (ns : List Nat) (o : Option Bytes) :
    (optionalBytes number o).clear ns = optionalBytes number (if number ∈ ns then none else o) := by
  by_cases h : number ∈ ns <;> simp [clear, optionalBytes, h]

theorem clear_int32 (ns : List Nat) (n : Int32) :
    (int32 number n).clear ns = int32 number (if number ∈ ns then 0 else n) := by
  by_cases h : number ∈ ns <;> simp [clear, int32, h]

theorem clear_bool (ns : List Nat) (b : Bool) :
    (bool number b).clear ns = bool number (if number ∈ ns then false else b) := by
  by_cases h : number ∈ ns <;> simp [clear, bool, h]

theorem Writable.bytes (hpos : 0 < number) (hbound : number < 2 ^ 29) (bs : Bytes) :
    (Slot.bytes number bs).Writable := by
  refine ⟨hpos, hbound, fun v hv hlength => ?_⟩
  obtain ⟨-, rfl⟩ : bs ≠ [] ∧ .delimited bs = v := by simpa [Slot.bytes] using hv
  exact hlength

theorem Writable.optionalBytes (hpos : 0 < number) (hbound : number < 2 ^ 29) (o : Option Bytes) :
    (Slot.optionalBytes number o).Writable := by
  refine ⟨hpos, hbound, fun v hv hlength => ?_⟩
  obtain ⟨bs, -, rfl⟩ := Option.map_eq_some_iff.mp hv
  exact hlength

theorem Writable.int32 (hpos : 0 < number) (hbound : number < 2 ^ 29) (n : Int32) :
    (Slot.int32 number n).Writable := by
  refine ⟨hpos, hbound, fun v hv _ => ?_⟩
  obtain ⟨-, rfl⟩ : n ≠ 0 ∧ .varint (signedWord n) = v := by simpa [Slot.int32] using hv
  exact signedWord_lt n

theorem Writable.bool (hpos : 0 < number) (hbound : number < 2 ^ 29) (b : Bool) :
    (Slot.bool number b).Writable := by
  refine ⟨hpos, hbound, fun v hv _ => ?_⟩
  obtain ⟨-, rfl⟩ : b = true ∧ .varint 1 = v := by simpa [Slot.bool] using hv
  exact (by decide : 1 < 2 ^ 64)

end Slot
end ShardLoad.Wire
