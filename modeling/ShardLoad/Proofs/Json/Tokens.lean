import Mathlib.Data.List.Basic
import ShardLoad.Json.Printer
import ShardLoad.Json.Reader
import ShardLoad.Proofs.Text.Digits

/-!
# The tokens of JSON are read back

A printed string is read character by character: what stands for a character, be it the
character itself, a short escape or four digits, is read as its number, and a character that was
printed whole is no half of another.

A printed number ends where no digit, point or exponent follows, which is so before all that
stands behind a number in a text.  An integer is read as it was.  Of a decimal the digits and
the exponent are read that were printed; for a whole one that is the digit behind its point, too.

* `string?_quote`: strings.
* `number?_intChars`, `number?_write`: integers and decimals.
* `Decimal.asRead`: a decimal by the digits that are printed.
-/

namespace ShardLoad

namespace Json

/-! ## Strings -/

theorem hexValue?_hexDigit : ∀ n < 16, Toml.hexValue? (hexDigit n) = some n := by decide

/-- The four digits of a control character are its number. -/
theorem code?_hexDigits {n : Nat} (h : n < 256) :
    code? ['0', '0', hexDigit (n / 16), hexDigit (n % 16)] = some n := by
  have hzero : Toml.hexValue? '0' = some 0 := by decide
  have hsum : 16 * (n / 16) + n % 16 = n := Nat.div_add_mod n 16
  simp [code?, hzero, hexValue?_hexDigit (n / 16) (by omega),
    hexValue?_hexDigit (n % 16) (by omega), hsum]

/-- What stands for a character in a string is read as its number. -/
theorem codes?_escapeChar (c : Char) (rest : List Char) :
    codes? (escapeChar c ++ rest) = put c.toNat (codes? rest) := by
  unfold escapeChar
  split
  · rfl
  · rfl
  · rfl
  · rfl
  · rfl
  · rfl
  · rfl
  · rename_i hquote hslash _ _ _ _ _
    split
    · rename_i hlt
      simp only [List.cons_append, List.nil_append, codes?]
      rw [code?_hexDigits (by omega)]
      rfl
    · rename_i hlt
      have hslash : c ≠ '\\' := hslash
      rw [List.singleton_append, codes?]
      · simp [hlt, hslash]
      · exact hquote
      · intro _ _ _ _ _ h
        exact absurd h hslash
      · intro _ _ h
        exact absurd h hslash

theorem codes?_flatMap_escapeChar (cs rest : List Char) :
    codes? (cs.flatMap escapeChar ++ '"' :: rest) = some (cs.map Char.toNat, rest) := by
  induction cs with
  | nil => rfl
  | cons c cs ih =>
    rw [List.flatMap_cons, List.append_assoc, codes?_escapeChar, ih]
    rfl

/-- Whole characters are no halves. -/
theorem joined?_map_toNat (cs : List Char) : joined? (cs.map Char.toNat) = some cs := by
  induction cs with
  | nil => rfl
  | cons c cs ih =>
    have hvalid : c.toNat < 0xD800 ∨ 0xE000 ≤ c.toNat := by
      rcases c.valid with h | ⟨h, -⟩
      · exact Or.inl h
      · exact Or.inr h
    rw [List.map_cons, joined?.eq_def]
    simp only
    rw [if_neg (by omega), if_neg (by omega), ih, Option.map_some, Char.ofNat_toNat]

/-- **A printed string is read back.** -/
theorem string?_quote (s : String) (rest : List Char) :
    string? (s.toList.flatMap escapeChar ++ '"' :: rest) = some (s, rest) := by
  simp only [string?, codes?_flatMap_escapeChar, joined?_map_toNat, bind, Option.bind_some,
    String.ofList_toList]

/-! ## Digits -/

/-- What holds of the first of some characters. -/
theorem forall_mem_head?_cons {p : Char → Prop} {c : Char} (h : p c) (cs : List Char) :
    ∀ d ∈ (c :: cs).head?, p d := by
  intro d hd
  obtain rfl := Option.some.inj hd
  exact h

/-- Characters of a kind are taken up to the first one that is not of it. -/
theorem takeWhile_dropWhile_append {p : Char → Bool} {cs rest : List Char}
    (hcs : ∀ c ∈ cs, p c = true) (hrest : ∀ c ∈ rest.head?, p c = false) :
    (cs ++ rest).takeWhile p = cs ∧ (cs ++ rest).dropWhile p = rest := by
  have hstop : rest.takeWhile p = [] ∧ rest.dropWhile p = rest := by
    cases rest with
    | nil => exact ⟨rfl, rfl⟩
    | cons c rest =>
      have hc := hrest c rfl
      exact ⟨List.takeWhile_cons_of_neg (by simp [hc]), List.dropWhile_cons_of_neg (by simp [hc])⟩
  rw [List.takeWhile_append_of_pos hcs, List.dropWhile_append_of_pos hcs, hstop.1, hstop.2,
    List.append_nil]
  exact ⟨rfl, rfl⟩

/-- A run of digits is read up to where it ends. -/
theorem digits?_append {ds rest : List Char} (hne : ds ≠ []) (hds : ∀ c ∈ ds, c.isDigit = true)
    (hrest : ∀ c ∈ rest.head?, c.isDigit = false) : digits? (ds ++ rest) = some (ds, rest) := by
  obtain ⟨htake, hdrop⟩ := takeWhile_dropWhile_append hds hrest
  unfold digits?
  rw [htake, hdrop]
  simp [hne]

/-- Digits without a leading zero are read as the whole part of a number. -/
theorem whole?_append {ds rest : List Char} (hne : ds ≠ []) (hds : ∀ c ∈ ds, c.isDigit = true)
    (hzero : ds.head? = some '0' → ds.length = 1) (hrest : ∀ c ∈ rest.head?, c.isDigit = false) :
    whole? (ds ++ rest) = some (ds, rest) := by
  simp only [whole?, digits?_append hne hds hrest, bind, Option.bind_some]
  rw [if_neg]
  rintro ⟨hhead, hlength⟩
  exact hlength (hzero hhead)

/-! ## Where a number ends -/

/-- What may stand behind a number: nothing that would go on with it. -/
def Ends (rest : List Char) : Prop :=
  ∀ c ∈ rest.head?, c.isDigit = false ∧ c ≠ '.' ∧ c ≠ 'e' ∧ c ≠ 'E'

theorem Ends.isDigit {rest : List Char} (h : Ends rest) : ∀ c ∈ rest.head?, c.isDigit = false :=
  fun c hc => (h c hc).1

theorem Ends.fraction? {rest : List Char} (h : Ends rest) : fraction? rest = some ([], rest) := by
  unfold Json.fraction?
  split
  · exact absurd rfl (h _ rfl).2.1
  · rfl

theorem Ends.exponent? {rest : List Char} (h : Ends rest) : exponent? rest = some (none, rest) := by
  cases rest with
  | nil => rfl
  | cons c rest =>
    obtain ⟨-, -, he, hE⟩ := h c rfl
    rw [Json.exponent?, if_neg (by simp [he, hE])]

/-- A minus sign in front of a number, or none. -/
def withMinus (negative : Bool) (cs : List Char) : List Char :=
  if negative then '-' :: cs else cs

theorem minus_withMinus (negative : Bool) {cs : List Char} (h : cs.head? ≠ some '-') :
    minus (withMinus negative cs) = (negative, cs) := by
  cases negative with
  | true => rfl
  | false =>
    unfold withMinus minus
    rw [if_neg Bool.false_ne_true]
    split
    · exact absurd rfl h
    · rfl

/-- A number is read part by part. -/
theorem number?_of_parts {whole fraction tail rest' rest : List Char} {exponent : Option Int}
    (negative : Bool) (hne : whole ≠ []) (hds : ∀ c ∈ whole, c.isDigit = true)
    (hzero : whole.head? = some '0' → whole.length = 1)
    (htail : ∀ c ∈ tail.head?, c.isDigit = false)
    (hfraction : fraction? tail = some (fraction, rest'))
    (hexponent : exponent? rest' = some (exponent, rest)) :
    number? (withMinus negative (whole ++ tail)) =
      some (ofDigits negative whole fraction exponent, rest) := by
  have hminus : (whole ++ tail).head? ≠ some '-' := by
    cases whole with
    | nil => exact absurd rfl hne
    | cons c whole =>
      rintro he
      obtain rfl := Option.some.inj he
      exact absurd (hds '-' List.mem_cons_self) (by decide)
  simp only [number?, minus_withMinus negative hminus, whole?_append hne hds hzero htail,
    hfraction, hexponent, bind, Option.bind_some]

/-! ## Integers -/

/-- A number is its size with its sign. -/
theorem withSign_natAbs {negative : Bool} {n : Int} (h : negative = decide (n < 0)) :
    Toml.withSign negative n.natAbs = n := by
  unfold Toml.withSign
  by_cases hn : n < 0
  · rw [if_pos (h.trans (decide_eq_true hn))]
    omega
  · rw [if_neg fun he => hn (of_decide_eq_true (h.symm.trans he))]
    omega

/-- **A printed integer is read back.** -/
theorem number?_intChars (n : Int) {rest : List Char} (hrest : Ends rest) :
    number? (intChars n ++ rest) = some (.int n, rest) := by
  have htext : intChars n ++ rest =
      withMinus (decide (n < 0)) (Nat.toDigits 10 n.natAbs ++ rest) := by
    unfold intChars withMinus
    by_cases hn : n < 0
    · rw [if_pos hn, if_pos (decide_eq_true hn)]
      rfl
    · rw [if_neg hn, if_neg (by simpa using hn)]
  rw [htext, number?_of_parts _ Nat.toDigits_ne_nil (fun c hc => isDigit_of_mem_toDigits hc)
    length_toDigits_of_head? hrest.isDigit hrest.fraction? hrest.exponent?, ofDigits,
    List.append_nil, Nat.ofDigitChars_ten_toDigits]
  -- what is printed is never minus zero, which would be read as a decimal
  have hzero : (decide (n < 0) && n.natAbs == 0) = false := by
    by_cases hn : n < 0
    · rw [beq_false_of_ne (by omega : n.natAbs ≠ 0), Bool.and_false]
    · rw [decide_eq_false hn, Bool.false_and]
  simp only [List.isEmpty_nil, Option.isNone_none, hzero, Bool.and_self, Bool.not_false, if_true,
    withSign_natAbs rfl]

/-! ## Decimals -/

end Json

namespace Decimal

/-- A decimal that can be printed as a number: zero comes without a power of ten, which would
stand as a row of zeros before the point. -/
def Proper (d : Decimal) : Prop := d.digits = 0 → d.exponent = 0

/-- A decimal by the digits that are printed: a whole one is printed with a zero behind its
point, unless it is printed with its power of ten. -/
def asRead (d : Decimal) : Decimal :=
  if Layout.json.positional (d.exponent + (width d.digits - 1 : Nat)) && decide (0 ≤ d.exponent)
  then { d with digits := d.digits * 10 ^ (d.exponent.toNat + 1), exponent := -1 }
  else d

end Decimal

namespace Json

open Decimal (digitChars writePositional writeScientific width)

/-- What is read of a number with a point or a power of ten. -/
theorem ofDigits_eq_decimal {whole fraction : List Char} {exponent : Option Int}
    (negative : Bool) (h : fraction ≠ [] ∨ exponent ≠ none) :
    ofDigits negative whole fraction exponent =
      .decimal ⟨negative, Nat.ofDigitChars 10 (whole ++ fraction) 0,
        exponent.getD 0 - fraction.length⟩ := by
  rw [ofDigits, if_neg]
  rcases h with h | h
  · simp [h]
  · cases exponent with
    | none => exact absurd rfl h
    | some e => simp

theorem fraction?_point {ds rest : List Char} (hne : ds ≠ []) (hds : ∀ c ∈ ds, c.isDigit = true)
    (hrest : ∀ c ∈ rest.head?, c.isDigit = false) :
    fraction? ('.' :: (ds ++ rest)) = some (ds, rest) := digits?_append hne hds hrest

/-- An exponent with its sign is read. -/
theorem exponent?_mark (e : Int) {rest : List Char} (hrest : Ends rest) :
    exponent? ('e' :: (if 0 ≤ e then '+' else '-') :: (digitChars e.natAbs ++ rest)) =
      some (some e, rest) := by
  have hdigits : digits? (digitChars e.natAbs ++ rest) = some (digitChars e.natAbs, rest) :=
    digits?_append Nat.toDigits_ne_nil (fun c hc => isDigit_of_mem_toDigits hc) hrest.isDigit
  have hvalue : Nat.ofDigitChars 10 (digitChars e.natAbs) 0 = e.natAbs :=
    Nat.ofDigitChars_ten_toDigits
  by_cases he : 0 ≤ e
  · have hsign : false = decide (e < 0) := (decide_eq_false (by omega)).symm
    simp only [exponent?, he, if_true, Toml.signed, hdigits, hvalue, bind, Option.bind_some,
      true_or, withSign_natAbs hsign]
  · have hsign : true = decide (e < 0) := (decide_eq_true (by omega)).symm
    simp only [exponent?, he, if_true, if_false, Toml.signed, hdigits, hvalue, bind,
      Option.bind_some, true_or, withSign_natAbs hsign]

/-- No digit is read where a point stands. -/
theorem isDigit_head?_point (cs : List Char) : ∀ c ∈ ('.' :: cs).head?, c.isDigit = false :=
  forall_mem_head?_cons (by decide) cs

/-- A whole number: its digits, the zeros of its power of ten, and one zero behind the point. -/
theorem number?_whole (negative : Bool) {n k : Nat} (hproper : n = 0 → k = 0) {rest : List Char}
    (hrest : Ends rest) :
    number? (withMinus negative
        (digitChars n ++ List.replicate k '0' ++ '.' :: (['0'] ++ rest))) =
      some (.decimal ⟨negative, n * 10 ^ (k + 1), -1⟩, rest) := by
  have hne : digitChars n ++ List.replicate k '0' ≠ [] :=
    List.append_ne_nil_of_left_ne_nil Nat.toDigits_ne_nil _
  have hdigits : ∀ c ∈ digitChars n ++ List.replicate k '0', c.isDigit = true := by
    intro c hc
    rcases List.mem_append.mp hc with hc | hc
    · exact isDigit_of_mem_toDigits hc
    · exact isDigit_of_mem_zeros hc
  have hzero : (digitChars n ++ List.replicate k '0').head? = some '0' →
      (digitChars n ++ List.replicate k '0').length = 1 := by
    intro hhead
    by_cases hn : n = 0
    · rw [hproper hn, hn]
      rfl
    · unfold digitChars at hhead
      rw [List.head?_append_of_ne_nil _ Nat.toDigits_ne_nil] at hhead
      exact absurd hhead (head?_toDigits_ne hn)
  have hvalue : Nat.ofDigitChars 10 (digitChars n ++ List.replicate k '0' ++ ['0']) 0 =
      n * 10 ^ (k + 1) := by
    rw [Nat.ofDigitChars_append, Nat.ofDigitChars_append, digitChars,
      Nat.ofDigitChars_ten_toDigits, Nat.ofDigitChars_replicate_zero, Nat.pow_succ,
      Nat.mul_comm n, Nat.mul_right_comm]
    exact Nat.mul_comm _ _
  rw [number?_of_parts negative hne hdigits hzero (isDigit_head?_point _)
    (fraction?_point (List.cons_ne_nil _ _) (List.forall_mem_singleton.mpr rfl) hrest.isDigit)
    hrest.exponent?,
    ofDigits_eq_decimal negative (Or.inl (List.cons_ne_nil _ _)), hvalue]
  rfl

/-- A number whose point stands between two of its digits. -/
theorem number?_within (negative : Bool) {n places : Nat} (hpos : 0 < places)
    (hlt : places < (digitChars n).length) {rest : List Char} (hrest : Ends rest) :
    number? (withMinus negative ((digitChars n).take ((digitChars n).length - places) ++
        '.' :: ((digitChars n).drop ((digitChars n).length - places) ++ rest))) =
      some (.decimal ⟨negative, n, -places⟩, rest) := by
  have hwhole : (digitChars n).take ((digitChars n).length - places) ≠ [] := by
    rw [← List.length_pos_iff_ne_nil, List.length_take]
    omega
  have hfraction : (digitChars n).drop ((digitChars n).length - places) ≠ [] := by
    rw [← List.length_pos_iff_ne_nil, List.length_drop]
    omega
  have hzero : ((digitChars n).take ((digitChars n).length - places)).head? = some '0' →
      ((digitChars n).take ((digitChars n).length - places)).length = 1 := by
    intro hhead
    rw [List.head?_take, if_neg (by omega)] at hhead
    have hone := length_toDigits_of_head? hhead
    have hone : (digitChars n).length = 1 := hone
    omega
  rw [number?_of_parts negative hwhole
    (fun c hc => isDigit_of_mem_toDigits (List.mem_of_mem_take hc)) hzero (isDigit_head?_point _)
    (fraction?_point hfraction (fun c hc => isDigit_of_mem_toDigits (List.mem_of_mem_drop hc))
      hrest.isDigit) hrest.exponent?, ofDigits_eq_decimal negative (Or.inl hfraction),
    List.take_append_drop, List.length_drop, digitChars, Nat.ofDigitChars_ten_toDigits]
  have hplaces : (Nat.toDigits 10 n).length - ((Nat.toDigits 10 n).length - places) = places := by
    unfold digitChars at hlt
    omega
  rw [hplaces, Option.getD_none, Int.zero_sub]

/-- A number all of whose digits stand behind its point. -/
theorem number?_behind (negative : Bool) {n places : Nat} (hle : (digitChars n).length ≤ places)
    {rest : List Char} (hrest : Ends rest) :
    number? (withMinus negative (['0'] ++
        '.' :: ((List.replicate (places - (digitChars n).length) '0' ++ digitChars n) ++ rest))) =
      some (.decimal ⟨negative, n, -places⟩, rest) := by
  have hfraction : List.replicate (places - (digitChars n).length) '0' ++ digitChars n ≠ [] :=
    List.append_ne_nil_of_right_ne_nil _ Nat.toDigits_ne_nil
  have hdigits : ∀ c ∈ List.replicate (places - (digitChars n).length) '0' ++ digitChars n,
      c.isDigit = true := fun c hc => isDigit_of_mem_filled hc
  -- the digit in front of the point is one more zero
  have hvalue : Nat.ofDigitChars 10
      (['0'] ++ (List.replicate (places - (digitChars n).length) '0' ++ digitChars n)) 0 = n :=
    ofDigitChars_filled (places - (digitChars n).length + 1) n
  rw [number?_of_parts negative (List.cons_ne_nil _ _) (List.forall_mem_singleton.mpr rfl)
    (fun _ => rfl) (isDigit_head?_point _) (fraction?_point hfraction hdigits hrest.isDigit)
    hrest.exponent?, ofDigits_eq_decimal negative (Or.inl hfraction), hvalue, List.length_append,
    List.length_replicate, Nat.sub_add_cancel hle, Option.getD_none, Int.zero_sub]

/-- A decimal with the point where it belongs is read back; behind the point of a whole one
there is a zero. -/
theorem number?_writePositional (negative : Bool) {n : Nat} {e : Int} (hproper : n = 0 → e = 0)
    {rest : List Char} (hrest : Ends rest) :
    number? (withMinus negative (writePositional n e ++ rest)) =
      some (.decimal (if 0 ≤ e then ⟨negative, n * 10 ^ (e.toNat + 1), -1⟩ else ⟨negative, n, e⟩),
        rest) := by
  simp only [writePositional]
  split
  · rw [List.append_assoc]
    exact number?_whole negative (fun hn => by rw [hproper hn]; rfl) hrest
  · rename_i he
    have hminus : -((-e).toNat : Int) = e := by omega
    split
    · rename_i hlt
      have h := number?_within negative (by omega) hlt hrest
      rw [hminus] at h
      rw [List.append_assoc]
      exact h
    · rename_i hge
      have h := number?_behind negative (Nat.le_of_not_lt hge) hrest
      rw [hminus] at h
      rw [List.append_assoc, List.append_assoc]
      rw [List.append_assoc] at h
      exact h

/-- A decimal with its power of ten is read back. -/
theorem number?_writeScientific (negative : Bool) (n : Nat) (e : Int) {rest : List Char}
    (hrest : Ends rest) :
    number? (withMinus negative (writeScientific n e ++ rest)) =
      some (.decimal ⟨negative, n, e⟩, rest) := by
  have hdigits : ∀ c ∈ digitChars n, c.isDigit = true := fun c hc => isDigit_of_mem_toDigits hc
  have hvalue : Nat.ofDigitChars 10 (digitChars n) 0 = n := Nat.ofDigitChars_ten_toDigits
  obtain ⟨d, more, hds⟩ := List.exists_cons_of_ne_nil (Nat.toDigits_ne_nil (b := 10) (n := n))
  have hds : digitChars n = d :: more := hds
  rw [hds, List.forall_mem_cons] at hdigits
  have hmark := exponent?_mark (e + ((digitChars n).length - 1 : Nat)) hrest
  have hmarkHead : ∀ cs : List Char, ∀ c ∈ ('e' :: cs).head?, c.isDigit = false :=
    fun cs => forall_mem_head?_cons (by decide) cs
  rw [writeScientific]
  simp only [hds] at hmark hvalue ⊢
  cases more with
  | nil =>
    have hne : [d] ≠ [] := List.cons_ne_nil _ _
    refine (number?_of_parts negative hne
      (by simpa using hdigits.1) (fun _ => rfl) (hmarkHead _) rfl hmark).trans ?_
    rw [ofDigits_eq_decimal negative (Or.inr (Option.some_ne_none _)), List.append_nil, hvalue]
    simp
  | cons d' more =>
    have htext : (d :: '.' :: d' :: more) ++ 'e' ::
        (if 0 ≤ e + ((d :: d' :: more).length - 1 : Nat) then '+' else '-') ::
          digitChars (e + ((d :: d' :: more).length - 1 : Nat)).natAbs ++ rest =
        [d] ++ '.' :: ((d' :: more) ++ 'e' ::
          (if 0 ≤ e + ((d :: d' :: more).length - 1 : Nat) then '+' else '-') ::
            (digitChars (e + ((d :: d' :: more).length - 1 : Nat)).natAbs ++ rest)) := by simp
    rw [htext, number?_of_parts negative (List.cons_ne_nil _ _) (by simpa using hdigits.1)
      (fun _ => rfl) (isDigit_head?_point _)
      (fraction?_point (List.cons_ne_nil _ _) hdigits.2 (hmarkHead _)) hmark,
      ofDigits_eq_decimal negative (Or.inr (Option.some_ne_none _)), List.singleton_append, hvalue]
    simp

/-- **A printed decimal is read back.** -/
theorem number?_write {d : Decimal} (hd : d.Proper) {rest : List Char} (hrest : Ends rest) :
    number? ((Decimal.write .json d).toList ++ rest) = some (.decimal d.asRead, rest) := by
  obtain ⟨negative, n, e⟩ := d
  have htext : (Decimal.write .json ⟨negative, n, e⟩).toList ++ rest =
      withMinus negative ((if Decimal.Layout.json.positional (e + (width n - 1 : Nat)) then
        writePositional n e else writeScientific n e) ++ rest) := by
    unfold Decimal.write withMinus
    rw [String.toList_ofList]
    cases negative <;> rfl
  rw [htext, Decimal.asRead]
  by_cases hpositional : Decimal.Layout.json.positional (e + (width n - 1 : Nat)) = true
  · rw [if_pos hpositional, number?_writePositional negative hd hrest]
    by_cases he : 0 ≤ e <;> simp [hpositional, he]
  · rw [if_neg hpositional, number?_writeScientific negative n e hrest]
    simp [hpositional]

end Json
end ShardLoad
