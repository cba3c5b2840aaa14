import ShardLoad.Proofs.Text.Base64

/-!
# Six bits a letter

What Base64 is can be said without a table of endings.  The bits of the octets stand in a row,
the high bit of each octet first; they are taken in groups of six, with zeros to fill up the last
group; each group has its letter; and marks fill up the last four letters.  By their number alone
the bits of `n` octets are the first of `⌈8 n / 6⌉` groups, so this leaves no choice.

* `Base64.IsForm`: a text that octets have by this rule.
* `Base64.isForm_iff`: it is the text that is written of them.
-/

namespace ShardLoad.Base64

/-- The lowest bits of a number, the highest of them first. -/
def bits : Nat → Nat → List Bool
  | 0, _ => []
  | width + 1, n => n.testBit width :: bits width n

/-- The letter of a group of six bits. -/
def letter (v : Fin 64) : Char :=
  "ABCDEFGHIJKLMNOPQRSTUVWXYZabcdefghijklmnopqrstuvwxyz0123456789+/".toList.getD v '='

/-- The bits of groups of six. -/
def groupBits (groups : List (Fin 64)) : List Bool := groups.flatMap fun v => bits 6 v.val

/-- The bits of octets. -/
def octetBits (octets : Bytes) : List Bool := octets.flatMap fun b => bits 8 b.toNat

/-- Groups that have the bits of octets, the last group filled up with zeros, and the marks that fill
up the last four letters. -/
structure Grouped (octets : Bytes) (groups : List (Fin 64)) (pads : Nat) : Prop where
  sameBits : ∃ spare < 6, groupBits groups = octetBits octets ++ List.replicate spare false
  few : pads < 4
  whole : 4 ∣ groups.length + pads

/-- The text that octets have by the standard. -/
def IsForm (octets : Bytes) (text : String) : Prop :=
  ∃ groups pads, Grouped octets groups pads ∧
    text.toList = groups.map letter ++ List.replicate pads '='

/-! ## Bits of numbers -/

@[simp] theorem length_bits (width n : Nat) : (bits width n).length = width := by
  induction width with
  | zero => rfl
  | succ width ih => rw [bits, List.length_cons, ih]

theorem bits_mod (width n : Nat) : bits width (n % 2 ^ width) = bits width n := by
  suffices h : ∀ k ≤ width, bits k (n % 2 ^ width) = bits k n from h width (Nat.le_refl _)
  intro k hk
  induction k with
  | zero => rfl
  | succ k ih =>
    rw [bits, bits, Nat.testBit_mod_two_pow, decide_eq_true (Nat.lt_of_succ_le hk), Bool.true_and,
      ih (Nat.le_of_succ_le hk)]

/-- The bits of a number are its high bits and then its low bits. -/
theorem bits_add (high low n : Nat) :
    bits (high + low) n = bits high (n / 2 ^ low) ++ bits low (n % 2 ^ low) := by
  induction high with
  | zero => rw [Nat.zero_add, bits, List.nil_append, bits_mod]
  | succ high ih =>
    rw [Nat.succ_add, bits, bits, ih, List.cons_append, Nat.testBit_div_two_pow, Nat.add_comm]

theorem testBit_of_bits {width n m : Nat} (h : bits width n = bits width m) :
    ∀ i < width, n.testBit i = m.testBit i := by
  induction width with
  | zero => exact fun i hi => absurd hi (Nat.not_lt_zero i)
  | succ width ih =>
    obtain ⟨hhead, htail⟩ := List.cons.injEq .. ▸ h
    intro i hi
    obtain rfl | hlt := Nat.eq_or_lt_of_le (Nat.le_of_lt_succ hi)
    · exact hhead
    · exact ih htail i hlt

/-- A number of so many bits is known by them. -/
theorem bits_inj {width n m : Nat} (hn : n < 2 ^ width) (hm : m < 2 ^ width)
    (h : bits width n = bits width m) : n = m := by
  refine Nat.eq_of_testBit_eq fun i => ?_
  by_cases hi : i < width
  · exact testBit_of_bits h i hi
  · have hle : 2 ^ width ≤ 2 ^ i := Nat.pow_le_pow_right (by decide) (Nat.le_of_not_lt hi)
    rw [Nat.testBit_lt_two_pow (Nat.lt_of_lt_of_le hn hle),
      Nat.testBit_lt_two_pow (Nat.lt_of_lt_of_le hm hle)]

/-- The bits of a number that consists of two parts. -/
theorem bits_of_parts (high low : Nat) {n m p : Nat} (hm : m < 2 ^ low) (hp : p = n * 2 ^ low + m) :
    bits (high + low) p = bits high n ++ bits low m := by
  have hdiv : p / 2 ^ low = n := by
    rw [hp, Nat.mul_comm, Nat.mul_add_div (Nat.two_pow_pos low), Nat.div_eq_of_lt hm, Nat.add_zero]
  have hmod : p % 2 ^ low = m := by rw [hp, Nat.mul_comm, Nat.mul_add_mod, Nat.mod_eq_of_lt hm]
  rw [bits_add, hdiv, hmod]

/-- The bits of one octet are those of two groups, which have four zeros to spare. -/
theorem bits_one (a : Nat) :
    bits 6 (a / 4) ++ bits 6 (a % 4 * 16) = bits 8 a ++ List.replicate 4 false := by
  have h1 : bits 8 a = bits 6 (a / 4) ++ bits 2 (a % 4) := bits_add 6 2 a
  have h2 : bits 6 (a % 4 * 16) = bits 2 (a % 4) ++ bits 4 0 :=
    bits_of_parts 2 4 (by decide) rfl
  rw [h1, h2, List.append_assoc]
  rfl

/-- The bits of two octets are those of three groups, which have two zeros to spare. -/
theorem bits_two (a : Nat) {b : Nat} (hb : b < 256) :
    bits 6 (a / 4) ++ (bits 6 (a % 4 * 16 + b / 16) ++ bits 6 (b % 16 * 4)) =
      bits 8 a ++ (bits 8 b ++ List.replicate 2 false) := by
  have h1 : bits 8 a = bits 6 (a / 4) ++ bits 2 (a % 4) := bits_add 6 2 a
  have h2 : bits 8 b = bits 4 (b / 16) ++ bits 4 (b % 16) := bits_add 4 4 b
  have h3 : bits 6 (a % 4 * 16 + b / 16) = bits 2 (a % 4) ++ bits 4 (b / 16) :=
    bits_of_parts 2 4 (by omega) rfl
  have h4 : bits 6 (b % 16 * 4) = bits 4 (b % 16) ++ bits 2 0 :=
    bits_of_parts 4 2 (by decide) rfl
  rw [h1, h2, h3, h4]
  simp only [List.append_assoc]
  rfl

/-- The bits of three octets are those of four groups. -/
theorem bits_three (a : Nat) {b c : Nat} (hb : b < 256) (hc : c < 256) :
    bits 6 (a / 4) ++ (bits 6 (a % 4 * 16 + b / 16) ++
      (bits 6 (b % 16 * 4 + c / 64) ++ bits 6 (c % 64))) = bits 8 a ++ (bits 8 b ++ bits 8 c) := by
  have h1 : bits 8 a = bits 6 (a / 4) ++ bits 2 (a % 4) := bits_add 6 2 a
  have h2 : bits 8 b = bits 4 (b / 16) ++ bits 4 (b % 16) := bits_add 4 4 b
  have h3 : bits 8 c = bits 2 (c / 64) ++ bits 6 (c % 64) := bits_add 2 6 c
  have h4 : bits 6 (a % 4 * 16 + b / 16) = bits 2 (a % 4) ++ bits 4 (b / 16) :=
    bits_of_parts 2 4 (by omega) rfl
  have h5 : bits 6 (b % 16 * 4 + c / 64) = bits 4 (b % 16) ++ bits 2 (c / 64) :=
    bits_of_parts 4 2 (by omega) rfl
  rw [h1, h2, h3, h4, h5]
  simp only [List.append_assoc]

/-! ## The form of octets -/

theorem grouped_nil : Grouped [] [] 0 := ⟨⟨0, by decide, rfl⟩, by decide, Nat.dvd_zero 4⟩

/-- One octet at the end. -/
theorem grouped_one (a : UInt8) {v w : Fin 64} (hv : v.val = a.toNat / 4)
    (hw : w.val = a.toNat % 4 * 16) : Grouped [a] [v, w] 2 := by
  refine ⟨⟨4, by decide, ?_⟩, by decide, Nat.dvd_refl 4⟩
  simp only [groupBits, octetBits, List.flatMap_cons, List.flatMap_nil, List.append_nil, hv, hw]
  exact bits_one a.toNat

/-- Two octets at the end. -/
theorem grouped_two (a b : UInt8) {v w x : Fin 64} (hv : v.val = a.toNat / 4)
    (hw : w.val = a.toNat % 4 * 16 + b.toNat / 16) (hx : x.val = b.toNat % 16 * 4) :
    Grouped [a, b] [v, w, x] 1 := by
  refine ⟨⟨2, by decide, ?_⟩, by decide, Nat.dvd_refl 4⟩
  simp only [groupBits, octetBits, List.flatMap_cons, List.flatMap_nil, List.append_nil,
    List.append_assoc, hv, hw, hx]
  exact bits_two a.toNat b.toNat_lt

/-- Three octets in front of others. -/
theorem Grouped.three {octets : Bytes} {groups : List (Fin 64)} {pads : Nat}
    (h : Grouped octets groups pads) (a b c : UInt8) {v w x y : Fin 64}
    (hv : v.val = a.toNat / 4) (hw : w.val = a.toNat % 4 * 16 + b.toNat / 16)
    (hx : x.val = b.toNat % 16 * 4 + c.toNat / 64) (hy : y.val = c.toNat % 64) :
    Grouped (a :: b :: c :: octets) (v :: w :: x :: y :: groups) pads := by
  obtain ⟨spare, hspare, hbits⟩ := h.sameBits
  refine ⟨⟨spare, hspare, ?_⟩, h.few, ?_⟩
  · have hquad := bits_three a.toNat b.toNat_lt c.toNat_lt
    simp only [groupBits, octetBits, List.flatMap_cons, List.append_assoc, hv, hw, hx, hy]
      at hbits ⊢
    rw [hbits]
    simp only [← List.append_assoc] at hquad ⊢
    rw [hquad]
  · have hwhole := h.whole
    simp only [List.length_cons]
    omega

/-- The octets that are written are the symbols of such groups. -/
theorem exists_grouped (octets : Bytes) :
    ∃ groups pads, Grouped octets groups pads ∧
      encodeOctets octets = groups.map (fun v => symbol v.val) ++ List.replicate pads pad := by
  fun_induction encodeOctets octets with
  | case1 => exact ⟨[], 0, grouped_nil, rfl⟩
  | case2 x a =>
    have ha := x.toNat_lt
    exact ⟨[⟨a / 4, by omega⟩, ⟨a % 4 * 16, by omega⟩], 2, grouped_one x rfl rfl, rfl⟩
  | case3 x y a b =>
    have ha := x.toNat_lt
    have hb := y.toNat_lt
    exact ⟨[⟨a / 4, by omega⟩, ⟨a % 4 * 16 + b / 16, by omega⟩, ⟨b % 16 * 4, by omega⟩], 1,
      grouped_two x y rfl rfl rfl, rfl⟩
  | case4 x y z rest a b c ih =>
    have ha := x.toNat_lt
    have hb := y.toNat_lt
    have hc := z.toNat_lt
    obtain ⟨groups, pads, hgrouped, hwritten⟩ := ih
    refine ⟨⟨a / 4, by omega⟩ :: ⟨a % 4 * 16 + b / 16, by omega⟩ :: ⟨b % 16 * 4 + c / 64, by omega⟩
      :: ⟨c % 64, by omega⟩ :: groups, pads, hgrouped.three x y z rfl rfl rfl rfl, ?_⟩
    rw [hwritten]
    rfl

theorem char_symbol : ∀ v : Fin 64, Char.ofNat (symbol v.val).toNat = letter v := by
  decide +kernel

/-- What is written of octets is their form. -/
theorem isForm_encode (octets : Bytes) : IsForm octets (encode octets) := by
  obtain ⟨groups, pads, hgrouped, hwritten⟩ := exists_grouped octets
  refine ⟨groups, pads, hgrouped, ?_⟩
  have hpad : Char.ofNat pad.toNat = '=' := by decide
  rw [encode, String.toList_ofList, hwritten, List.map_append, List.map_map, List.map_replicate,
    hpad]
  congr 1
  exact List.map_congr_left fun v _ => char_symbol v

theorem length_groupBits (groups : List (Fin 64)) :
    (groupBits groups).length = 6 * groups.length := by
  simp [groupBits, List.map_const', Nat.mul_comm]

theorem length_octetBits (octets : Bytes) : (octetBits octets).length = 8 * octets.length := by
  simp [octetBits, List.map_const', Nat.mul_comm]

/-- Groups are known by their bits. -/
theorem groupBits_inj {groups groups' : List (Fin 64)}
    (h : groupBits groups = groupBits groups') : groups = groups' := by
  have hlength : groups.length = groups'.length := by
    have hbits := congrArg List.length h
    rw [length_groupBits, length_groupBits] at hbits
    omega
  induction groups generalizing groups' with
  | nil => exact (List.length_eq_zero_iff.mp hlength.symm).symm
  | cons v groups ih =>
    cases groups' with
    | nil => cases hlength
    | cons w groups' =>
      rw [groupBits, groupBits, List.flatMap_cons, List.flatMap_cons] at h
      obtain ⟨hv, hgroups⟩ := List.append_inj h (by rw [length_bits, length_bits])
      rw [Fin.ext (bits_inj v.isLt w.isLt hv), ih hgroups (Nat.succ.inj hlength)]

/-- There is one way to group octets: the bits say how many groups there are. -/
theorem Grouped.unique {octets : Bytes} {groups groups' : List (Fin 64)} {pads pads' : Nat}
    (h : Grouped octets groups pads) (h' : Grouped octets groups' pads') :
    groups = groups' ∧ pads = pads' := by
  obtain ⟨spare, hspare, hbits⟩ := h.sameBits
  obtain ⟨spare', hspare', hbits'⟩ := h'.sameBits
  have hlength := congrArg List.length hbits
  have hlength' := congrArg List.length hbits'
  rw [List.length_append, length_groupBits, length_octetBits, List.length_replicate]
    at hlength hlength'
  obtain rfl : spare = spare' := by omega
  obtain rfl : groups = groups' := groupBits_inj (hbits.trans hbits'.symm)
  have hwhole := h.whole
  have hwhole' := h'.whole
  have hfew := h.few
  have hfew' := h'.few
  exact ⟨rfl, by omega⟩

/-- **Octets have one form, and it is the one that is written.** -/
theorem isForm_iff {octets : Bytes} {text : String} : IsForm octets text ↔ text = encode octets := by
  constructor
  · rintro ⟨groups, pads, hgrouped, htext⟩
    obtain ⟨groups', pads', hgrouped', htext'⟩ := isForm_encode octets
    obtain ⟨rfl, rfl⟩ := hgrouped.unique hgrouped'
    exact String.toList_inj.mp (htext.trans htext'.symm)
  · rintro rfl
    exact isForm_encode octets

end ShardLoad.Base64
