import ShardLoad.Text.Base64

/-!
# Base64 is read back

Three octets are four symbols, and the six bits of each symbol say which octets they came
from.  At the end one or two octets are left over; the bits that their last symbol has to spare
are zero, and padding fills the quad.  So whatever the length, the written form has whole quads
only, and each is read by the rule for its own kind of ending.

The other way round, what is read has no form but the one that is written.  A symbol has one
value, four values have one string of octets, and each ending is read only if its spare bits are
zero; this is what makes a written form canonical.

* `quad_octets`: the octets of four symbols.
* `decode_encodeOctets`: what was written is read back.
* `utf8_encode`, `decode_utf8_encode`: the same for the text.
* `decode_eq_ok_iff`, `decode_utf8_eq_ok_iff`: only what was written is read.
-/

namespace ShardLoad

/-- The UTF-8 form of a text goes character by character. -/
theorem Bytes.utf8_ofList (cs : List Char) :
    Bytes.utf8 (String.ofList cs) = cs.flatMap String.utf8EncodeChar := by
  unfold Bytes.utf8 String.toUTF8
  rw [String.toByteArray_ofList, List.utf8Encode, List.data_toByteArray]

/-- A text is known by its UTF-8 form. -/
theorem Bytes.utf8_inj {s t : String} : Bytes.utf8 s = Bytes.utf8 t ↔ s = t := by
  unfold Bytes.utf8 String.toUTF8
  rw [Array.toList_inj, ← String.toByteArray_inj]
  exact ⟨ByteArray.ext, congrArg ByteArray.data⟩

namespace Base64

/-! ## Symbols -/

theorem symbol_ne_pad : ∀ v < 64, symbol v ≠ pad := by decide

theorem toNat_symbol_lt : ∀ v < 64, (symbol v).toNat < 128 := by decide

@[simp] theorem valueAt_symbol {v : Nat} (h : v < 64) (offset : Nat) :
    valueAt offset (symbol v) = .ok v := by
  rw [valueAt, value?_symbol v h]

/-! ## Quads -/

/-- The symbols of three octets stand for these octets. -/
theorem quad_octets (a b c : UInt8) :
    quad (a.toNat / 4) (a.toNat % 4 * 16 + b.toNat / 16) (b.toNat % 16 * 4 + c.toNat / 64)
      (c.toNat % 64) = [a, b, c] := by
  have ha := a.toNat_lt
  have hb := b.toNat_lt
  have hc := c.toNat_lt
  have h1 : a.toNat / 4 * 4 + (a.toNat % 4 * 16 + b.toNat / 16) / 16 = a.toNat := by omega
  have h2 : (a.toNat % 4 * 16 + b.toNat / 16) % 16 * 16 +
      (b.toNat % 16 * 4 + c.toNat / 64) / 4 = b.toNat := by omega
  have h3 : (b.toNat % 16 * 4 + c.toNat / 64) % 4 * 64 + c.toNat % 64 = c.toNat := by omega
  rw [quad, h1, h2, h3]
  simp

/-- A quad of symbols with more behind it. -/
theorem decodeFrom_symbols {v w x y : Nat} (hv : v < 64) (hw : w < 64) (hx : x < 64) (hy : y < 64)
    (offset : Nat) {rest : Bytes} (h : rest ≠ []) {bs : Bytes}
    (hrest : decodeFrom (offset + 4) rest = .ok bs) :
    decodeFrom offset (symbol v :: symbol w :: symbol x :: symbol y :: rest) =
      .ok (quad v w x y ++ bs) := by
  cases rest with
  | nil => exact absurd rfl h
  | cons e rest =>
    simp only [decodeFrom, hv, hw, hx, hy, valueAt_symbol, hrest, bind, Except.bind]

/-- A quad of symbols at the end. -/
theorem decodeLast_symbols {v w x y : Nat} (hv : v < 64) (hw : w < 64) (hx : x < 64)
    (hy : y < 64) (offset : Nat) :
    decodeLast offset [symbol v, symbol w, symbol x, symbol y] = .ok (quad v w x y) := by
  simp only [decodeLast, hv, hw, hx, hy, valueAt_symbol, symbol_ne_pad x hx, symbol_ne_pad y hy,
    if_false, bind, Except.bind]

theorem encodeOctets_ne_nil {bs : Bytes} (h : bs ≠ []) : encodeOctets bs ≠ [] := by
  fun_cases encodeOctets bs with
  | case1 => exact absurd rfl h
  | case2 | case3 | case4 => exact List.cons_ne_nil _ _

/-- The written form has whole quads only. -/
theorem four_dvd_length_encodeOctets (bs : Bytes) : 4 ∣ (encodeOctets bs).length := by
  fun_induction encodeOctets bs with
  | case1 => exact Nat.dvd_zero 4
  | case2 | case3 => exact Nat.dvd_refl 4
  | case4 a b c rest _ _ _ ih =>
    obtain ⟨n, hn⟩ := ih
    exact ⟨n + 1, by simp only [List.length_cons, hn]; omega⟩

/-- Every octet of the written form is a character of ASCII. -/
theorem toNat_lt_of_mem_encodeOctets {bs : Bytes} {b : UInt8} (h : b ∈ encodeOctets bs) :
    b.toNat < 128 := by
  have hpad : pad.toNat < 128 := by decide
  fun_induction encodeOctets bs with
  | case1 => exact absurd h List.not_mem_nil
  | case2 x a =>
    have ha := x.toNat_lt
    simp only [List.mem_cons, List.not_mem_nil, or_false] at h
    rcases h with rfl | rfl | rfl | rfl
    · exact toNat_symbol_lt _ (by omega)
    · exact toNat_symbol_lt _ (by omega)
    · exact hpad
    · exact hpad
  | case3 x y a b' =>
    have ha := x.toNat_lt
    have hb := y.toNat_lt
    simp only [List.mem_cons, List.not_mem_nil, or_false] at h
    rcases h with rfl | rfl | rfl | rfl
    · exact toNat_symbol_lt _ (by omega)
    · exact toNat_symbol_lt _ (by omega)
    · exact toNat_symbol_lt _ (by omega)
    · exact hpad
  | case4 x y z rest a b' c ih =>
    have ha := x.toNat_lt
    have hb := y.toNat_lt
    have hc := z.toNat_lt
    simp only [List.mem_cons] at h
    rcases h with rfl | rfl | rfl | rfl | h
    · exact toNat_symbol_lt _ (by omega)
    · exact toNat_symbol_lt _ (by omega)
    · exact toNat_symbol_lt _ (by omega)
    · exact toNat_symbol_lt _ (by omega)
    · exact ih h

/-! ## What was written is read back -/

theorem decodeFrom_encodeOctets (offset : Nat) (bs : Bytes) :
    decodeFrom offset (encodeOctets bs) = .ok bs := by
  fun_induction encodeOctets bs generalizing offset with
  | case1 => rfl
  | case2 x a =>
    have ha := x.toNat_lt
    have hv : a / 4 < 64 := by omega
    have hw : a % 4 * 16 < 64 := by omega
    have hspare : a % 4 * 16 % 16 = 0 := by omega
    have hx : a / 4 * 4 + a % 4 * 16 / 16 = x.toNat := by omega
    show decodeLast offset [symbol (a / 4), symbol (a % 4 * 16), pad, pad] = _
    simp only [decodeLast, hv, hw, valueAt_symbol, hspare, hx, if_true, bind, Except.bind]
    simp
  | case3 x y a b =>
    have ha := x.toNat_lt
    have hb := y.toNat_lt
    have hv : a / 4 < 64 := by omega
    have hw : a % 4 * 16 + b / 16 < 64 := by omega
    have hx : b % 16 * 4 < 64 := by omega
    have hspare : b % 16 * 4 % 4 = 0 := by omega
    have hfst : a / 4 * 4 + (a % 4 * 16 + b / 16) / 16 = x.toNat := by omega
    have hsnd : (a % 4 * 16 + b / 16) % 16 * 16 + b % 16 * 4 / 4 = y.toNat := by omega
    show decodeLast offset [symbol (a / 4), symbol (a % 4 * 16 + b / 16), symbol (b % 16 * 4),
      pad] = _
    simp only [decodeLast, hv, hw, hx, valueAt_symbol, symbol_ne_pad _ hx, hspare, hfst, hsnd,
      if_true, if_false, bind, Except.bind]
    simp
  | case4 x y z rest a b c ih =>
    have ha := x.toNat_lt
    have hb := y.toNat_lt
    have hc := z.toNat_lt
    have hv : a / 4 < 64 := by omega
    have hw : a % 4 * 16 + b / 16 < 64 := by omega
    have hx : b % 16 * 4 + c / 64 < 64 := by omega
    have hy : c % 64 < 64 := by omega
    have hquad : quad (a / 4) (a % 4 * 16 + b / 16) (b % 16 * 4 + c / 64) (c % 64) = [x, y, z] :=
      quad_octets x y z
    cases rest with
    | nil => rw [← hquad]; exact decodeLast_symbols hv hw hx hy offset
    | cons d rest =>
      rw [decodeFrom_symbols hv hw hx hy offset (encodeOctets_ne_nil (List.cons_ne_nil d rest))
        (ih (offset + 4)), hquad]
      rfl

/-- **What was written is read back.** -/
theorem decode_encodeOctets (bs : Bytes) : decode (encodeOctets bs) = .ok bs := by
  have hstray : strayLast? (encodeOctets bs) = none := by
    obtain ⟨n, hn⟩ := four_dvd_length_encodeOctets bs
    rw [strayLast?, if_neg (by omega)]
  rw [decode, hstray]
  exact decodeFrom_encodeOctets 0 bs

/-- The text consists of the written octets. -/
theorem utf8_encode (bs : Bytes) : Bytes.utf8 (encode bs) = encodeOctets bs := by
  have hchar : ∀ n < 128, String.utf8EncodeChar (Char.ofNat n) = [n.toUInt8] := by decide
  have hsame : (encodeOctets bs).map (fun b => String.utf8EncodeChar (Char.ofNat b.toNat)) =
      (encodeOctets bs).map fun b => [b] := by
    refine List.map_congr_left fun b hb => ?_
    rw [hchar _ (toNat_lt_of_mem_encodeOctets hb)]
    simp
  rw [encode, Bytes.utf8_ofList, List.flatMap_map, List.flatMap_def, hsame, ← List.flatMap_def,
    List.flatMap_singleton']

/-- The text of an octet string stands for it. -/
theorem decode_utf8_encode (bs : Bytes) : decode (Bytes.utf8 (encode bs)) = .ok bs := by
  rw [utf8_encode, decode_encodeOctets]

/-! ## Only what was written is read -/

/-- Only a symbol has a value at an offset. -/
theorem exists_of_bind_valueAt {α : Type} {offset : Nat} {b : UInt8}
    {next : Nat → Except DecodeError α} {a : α} (h : valueAt offset b >>= next = .ok a) :
    ∃ v < 64, b = symbol v ∧ next v = .ok a := by
  rcases hv : value? b with _ | v
  · rw [valueAt, hv] at h
    exact absurd h (by rintro ⟨⟩)
  · rw [valueAt, hv] at h
    obtain ⟨hlt, hsymbol⟩ := symbol_of_value? hv
    exact ⟨v, hlt, hsymbol.symm, h⟩

/-- The octets of four values are written with the symbols of the values. -/
theorem encodeOctets_quad_append {v w x y : Nat} (hv : v < 64) (hw : w < 64) (hx : x < 64)
    (hy : y < 64) (rest : Bytes) :
    encodeOctets (quad v w x y ++ rest) =
      symbol v :: symbol w :: symbol x :: symbol y :: encodeOctets rest := by
  have h1 : (v * 4 + w / 16).toUInt8.toNat = v * 4 + w / 16 := by simp; omega
  have h2 : (w % 16 * 16 + x / 4).toUInt8.toNat = w % 16 * 16 + x / 4 := by simp; omega
  have h3 : (x % 4 * 64 + y).toUInt8.toNat = x % 4 * 64 + y := by simp; omega
  have e1 : (v * 4 + w / 16) / 4 = v := by omega
  have e2 : (v * 4 + w / 16) % 4 * 16 + (w % 16 * 16 + x / 4) / 16 = w := by omega
  have e3 : (w % 16 * 16 + x / 4) % 16 * 4 + (x % 4 * 64 + y) / 64 = x := by omega
  have e4 : (x % 4 * 64 + y) % 64 = y := by omega
  simp only [quad, List.cons_append, List.nil_append, encodeOctets, h1, h2, h3, e1, e2, e3, e4]

/-- One octet at the end. -/
theorem encodeOctets_one {v w : Nat} (hv : v < 64) (hw : w < 64) (hspare : w % 16 = 0) :
    encodeOctets [(v * 4 + w / 16).toUInt8] = [symbol v, symbol w, pad, pad] := by
  have h1 : (v * 4 + w / 16).toUInt8.toNat = v * 4 + w / 16 := by simp; omega
  have e1 : (v * 4 + w / 16) / 4 = v := by omega
  have e2 : (v * 4 + w / 16) % 4 * 16 = w := by omega
  simp only [encodeOctets, h1, e1, e2]

/-- Two octets at the end. -/
theorem encodeOctets_two {v w x : Nat} (hv : v < 64) (hw : w < 64) (hx : x < 64)
    (hspare : x % 4 = 0) :
    encodeOctets [(v * 4 + w / 16).toUInt8, (w % 16 * 16 + x / 4).toUInt8] =
      [symbol v, symbol w, symbol x, pad] := by
  have h1 : (v * 4 + w / 16).toUInt8.toNat = v * 4 + w / 16 := by simp; omega
  have h2 : (w % 16 * 16 + x / 4).toUInt8.toNat = w % 16 * 16 + x / 4 := by simp; omega
  have e1 : (v * 4 + w / 16) / 4 = v := by omega
  have e2 : (v * 4 + w / 16) % 4 * 16 + (w % 16 * 16 + x / 4) / 16 = w := by omega
  have e3 : (w % 16 * 16 + x / 4) % 16 * 4 = x := by omega
  simp only [encodeOctets, h1, h2, e1, e2, e3]

/-- The last quad is read only if it is the written form of its octets. -/
theorem eq_encodeOctets_of_decodeLast {offset : Nat} {bs octets : Bytes} (hlength : bs.length ≤ 4)
    (h : decodeLast offset bs = .ok octets) : bs = encodeOctets octets := by
  match bs, hlength with
  | [], _ =>
    obtain rfl := Except.ok.inj h
    rfl
  | [a], _ =>
    obtain ⟨_, -, -, h⟩ := exists_of_bind_valueAt h
    cases h
  | [a, b], _ =>
    obtain ⟨_, -, -, h⟩ := exists_of_bind_valueAt h
    obtain ⟨_, -, -, h⟩ := exists_of_bind_valueAt h
    cases h
  | [a, b, c], _ =>
    obtain ⟨_, -, -, h⟩ := exists_of_bind_valueAt h
    obtain ⟨_, -, -, h⟩ := exists_of_bind_valueAt h
    split at h
    · cases h
    · obtain ⟨_, -, -, h⟩ := exists_of_bind_valueAt h
      cases h
  | [a, b, c, d], _ =>
    obtain ⟨v, hv, ha, h⟩ := exists_of_bind_valueAt h
    obtain ⟨w, hw, hb, h⟩ := exists_of_bind_valueAt h
    split at h
    case isTrue hc =>
      split at h
      case isTrue hd =>
        split at h
        case isTrue hspare =>
          obtain rfl := Except.ok.inj h
          rw [encodeOctets_one hv hw hspare, ha, hb, hc, hd]
        case isFalse => cases h
      case isFalse => cases h
    case isFalse =>
      obtain ⟨x, hx, hc, h⟩ := exists_of_bind_valueAt h
      split at h
      case isTrue hd =>
        split at h
        case isTrue hspare =>
          obtain rfl := Except.ok.inj h
          rw [encodeOctets_two hv hw hx hspare, ha, hb, hc, hd]
        case isFalse => cases h
      case isFalse =>
        obtain ⟨y, hy, hd, h⟩ := exists_of_bind_valueAt h
        obtain rfl := Except.ok.inj h
        have hquad := encodeOctets_quad_append hv hw hx hy []
        rw [List.append_nil] at hquad
        rw [hquad, ha, hb, hc, hd]
        rfl

theorem eq_encodeOctets_of_decodeFrom {offset : Nat} {bs octets : Bytes}
    (h : decodeFrom offset bs = .ok octets) : bs = encodeOctets octets := by
  fun_induction decodeFrom offset bs generalizing octets with
  | case1 offset a b c d e rest ih =>
    obtain ⟨v, hv, ha, h⟩ := exists_of_bind_valueAt h
    obtain ⟨w, hw, hb, h⟩ := exists_of_bind_valueAt h
    obtain ⟨x, hx, hc, h⟩ := exists_of_bind_valueAt h
    obtain ⟨y, hy, hd, h⟩ := exists_of_bind_valueAt h
    rcases hmore : decodeFrom (offset + 4) (e :: rest) with _ | more
    · rw [hmore] at h
      cases h
    · rw [hmore] at h
      obtain rfl := Except.ok.inj h
      rw [encodeOctets_quad_append hv hw hx hy, ← ih hmore, ha, hb, hc, hd]
  | case2 offset last hshort =>
    refine eq_encodeOctets_of_decodeLast ?_ h
    match last, hshort with
    | [], _ | [_], _ | [_, _], _ | [_, _, _], _ | [_, _, _, _], _ => simp
    | a :: b :: c :: d :: e :: rest, hshort => exact (hshort a b c d e rest rfl).elim

/-- **What is read is the written form of the octets that are read.** -/
theorem decode_eq_ok_iff {bs octets : Bytes} :
    decode bs = .ok octets ↔ bs = encodeOctets octets := by
  constructor
  · intro h
    unfold decode at h
    split at h
    · cases h
    · exact eq_encodeOctets_of_decodeFrom h
  · rintro rfl
    exact decode_encodeOctets octets

/-- A text is read as octets exactly when it is their text. -/
theorem decode_utf8_eq_ok_iff {text : String} {octets : Bytes} :
    decode (Bytes.utf8 text) = .ok octets ↔ text = encode octets := by
  rw [decode_eq_ok_iff, ← utf8_encode, Bytes.utf8_inj]

end Base64
end ShardLoad
