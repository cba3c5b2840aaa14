import ShardLoad.Bytes

/-!
# Variable-length integers

A number below `2 ^ 64` is written in groups of seven bits, low group first.
Every octet but the last has its high bit set, so at most ten octets are needed,
and the tenth can only be zero or one.

The writer is canonical.  The reader also takes longer forms of a number, as
long as they fit ten octets.

* `Varint.encode`, `Varint.decode?`: the two directions.
* `decode?_append_of_spells`: every form of a number is read from in front of
  anything.
* `spells_encode`: the written form is one of them.
* `length_lt_of_decode?`: reading takes at least one octet.
-/

namespace ShardLoad.Wire.Varint

/-- The octets of a number. -/
def encode (n : Nat) : Bytes :=
  if n < 128 then [n.toUInt8]
  else (128 + n % 128).toUInt8 :: encode (n / 128)

/-- The number at the start of a string of octets, of which `taken` octets were
read before, and what follows it. -/
def decodeFrom? (taken : Nat) : Bytes → Option (Nat × Bytes)
  | [] => none
  | b :: rest =>
    if b.toNat < 128 then
      if taken = 9 ∧ 2 ≤ b.toNat then none else some (b.toNat, rest)
    else if taken = 9 then none
    else (decodeFrom? (taken + 1) rest).map fun (v, rest) => (b.toNat - 128 + 128 * v, rest)

/-- The number at the start of a string of octets and what follows it. -/
def decode? (bs : Bytes) : Option (Nat × Bytes) := decodeFrom? 0 bs

theorem encode_of_lt {n : Nat} (h : n < 128) : encode n = [n.toUInt8] := by
  rw [encode, if_pos h]

theorem encode_of_le {n : Nat} (h : 128 ≤ n) :
    encode n = (128 + n % 128).toUInt8 :: encode (n / 128) := by
  rw [encode, if_neg (by omega)]

/-! ## Forms of a number -/

/-- The octets that stand for a number: groups of seven bits, all but the last marked as having
another behind them. -/
inductive Form : Nat → Bytes → Prop where
  | last {n : Nat} (h : n < 128) : Form n [n.toUInt8]
  | more {low n : Nat} {bs : Bytes} (h : low < 128) (hbs : Form n bs) :
      Form (low + 128 * n) ((128 + low).toUInt8 :: bs)

/-- A form that fits ten octets, of a number that fits a word. -/
structure Spells (n : Nat) (bs : Bytes) : Prop where
  form : Form n bs
  length : bs.length ≤ 10
  fits : n < 2 ^ 64

theorem Form.length_pos {n : Nat} {bs : Bytes} (h : Form n bs) : 0 < bs.length := by
  cases h <;> exact Nat.succ_pos _

/-- A form that still fits in the octets left is read. -/
theorem decodeFrom?_append_of_form {n taken : Nat} {bs : Bytes} (h : Form n bs) (rest : Bytes)
    (ht : taken + bs.length ≤ 10) (hn : n < 2 ^ (64 - 7 * taken)) :
    decodeFrom? taken (bs ++ rest) = some (n, rest) := by
  induction h generalizing taken with
  | @last n hlow =>
    have h8 : n.toUInt8.toNat = n := by simp; omega
    have h9 : ¬ (taken = 9 ∧ 2 ≤ n) := by
      rintro ⟨rfl, h2⟩
      simp at hn
      omega
    simp [decodeFrom?, h8, hlow, h9]
  | @more low n bs hlow hbs ih =>
    have hpos := hbs.length_pos
    rw [List.length_cons] at ht
    have h8 : (128 + low).toUInt8.toNat = 128 + low := by simp; omega
    have hpow : 2 ^ (64 - 7 * taken) = 128 * 2 ^ (64 - 7 * (taken + 1)) := by
      rw [show 64 - 7 * taken = 7 + (64 - 7 * (taken + 1)) by omega, Nat.pow_add]
    have hrec : decodeFrom? (taken + 1) (bs ++ rest) = some (n, rest) := ih (by omega) (by omega)
    have ht9 : taken ≠ 9 := by omega
    rw [List.cons_append, decodeFrom?, h8, if_neg (by omega), if_neg ht9, hrec]
    simp

/-- Every form of a number is read from in front of anything. -/
theorem decode?_append_of_spells {n : Nat} {bs : Bytes} (h : Spells n bs) (rest : Bytes) :
    decode? (bs ++ rest) = some (n, rest) :=
  decodeFrom?_append_of_form h.form rest (by have := h.length; omega) (by simpa using h.fits)

/-- What is written of a number is a form of it. -/
theorem form_encode (n : Nat) : Form n (encode n) := by
  induction n using Nat.strongRecOn with
  | _ n ih =>
    by_cases h : n < 128
    · rw [encode_of_lt h]
      exact .last h
    · have hmore := Form.more (Nat.mod_lt n (by decide : 0 < 128)) (ih (n / 128) (by omega))
      rw [Nat.mod_add_div] at hmore
      rw [encode_of_le (Nat.le_of_not_lt h)]
      exact hmore

/-- A number of `7 * (k + 1)` bits takes `k + 1` octets at most. -/
theorem length_encode_le {k n : Nat} (h : n < 2 ^ (7 * (k + 1))) :
    (encode n).length ≤ k + 1 := by
  induction k generalizing n with
  | zero => simp [encode_of_lt h]
  | succ k ih =>
    by_cases hn : n < 128
    · simp [encode_of_lt hn]
    · rw [encode_of_le (Nat.le_of_not_lt hn), List.length_cons]
      have hpow : 2 ^ (7 * (k + 1 + 1)) = 2 ^ (7 * (k + 1)) * 128 := by
        rw [Nat.mul_succ 7 (k + 1), Nat.pow_add]
      have hdiv : n / 128 < 2 ^ (7 * (k + 1)) :=
        (Nat.div_lt_iff_lt_mul (by decide)).mpr (hpow ▸ h)
      exact Nat.succ_le_succ (ih hdiv)

theorem spells_encode {n : Nat} (h : n < 2 ^ 64) : Spells n (encode n) :=
  ⟨form_encode n, length_encode_le (k := 9) (Nat.lt_trans h (by decide)), h⟩

theorem length_lt_of_decodeFrom? {taken : Nat} {bs rest : Bytes} {v : Nat}
    (h : decodeFrom? taken bs = some (v, rest)) : rest.length < bs.length := by
  induction bs generalizing taken v with
  | nil => simp [decodeFrom?] at h
  | cons b bs ih =>
    simp only [decodeFrom?] at h
    split at h
    · split at h
      · simp at h
      · simp only [Option.some.injEq, Prod.mk.injEq] at h
        simp [h.2]
    · split at h
      · simp at h
      · simp only [Option.map_eq_some_iff, Prod.mk.injEq, Prod.exists] at h
        obtain ⟨w, r, hw, -, rfl⟩ := h
        have := ih hw
        simp only [List.length_cons]
        omega

/-- Reading takes at least one octet. -/
theorem length_lt_of_decode? {bs rest : Bytes} {v : Nat} (h : decode? bs = some (v, rest)) :
    rest.length < bs.length :=
  length_lt_of_decodeFrom? h

end ShardLoad.Wire.Varint
