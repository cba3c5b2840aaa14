import Mathlib.Data.List.Basic
import ShardLoad.Toml.Printer

/-!
# Quoted texts are read back

A text may stand in any quotes that can hold it, and is read as it was from each of them.

Between double quotes the argument goes character by character: what stands for a character is
read as that character.  Where a text of several lines has quotes of its own it must not be
closed too early.  Three quotes in a row close it, and up to two more directly before them belong
to the text; since three quotes of the text never stand in a row, the first three in a row are
such that at most two quotes of the text were left.

* `basic_flatMap_escapeChar`, `literal_append`: one line.
* `basicLines_escapeLines`, `literalLines_append`: several lines.
* `quoted?_write`: all kinds of quotes.
-/

namespace ShardLoad.Toml

/-! ## Characters between double quotes -/

theorem hexValue?_hexDigit : ∀ n < 16, hexValue? (hexDigit n) = some n := by decide

/-- The four digits of a character with a small number are read as that character. -/
theorem charOfHex?_hexDigits {c : Char} (h : c.toNat < 256) :
    charOfHex? ['0', '0', hexDigit (c.toNat / 16), hexDigit (c.toNat % 16)] = some c := by
  have hzero : hexValue? '0' = some 0 := by decide
  have hsum : 16 * (c.toNat / 16) + c.toNat % 16 = c.toNat := Nat.div_add_mod _ _
  simp [charOfHex?, hzero, hexValue?_hexDigit (c.toNat / 16) (by omega),
    hexValue?_hexDigit (c.toNat % 16) (by omega), hsum, show c.toNat < 55296 by omega]

theorem toNat_lt_of_isControl {c : Char} (h : isControl c = true) : c.toNat < 256 := by
  simp only [isControl, Bool.or_eq_true, Bool.and_eq_true, decide_eq_true_eq, beq_iff_eq] at h
  omega

/-- What stands for a character in a text of one line is read as that character. -/
theorem basic_escapeChar (c : Char) (rest : List Char) :
    basic (escapeChar c ++ rest) = put c (basic rest) := by
  unfold escapeChar
  split
  · rfl
  · rfl
  · rfl
  · rfl
  · rfl
  · rfl
  · rfl
  · rename_i hquote hslash _ _ _ _ _
    have hquote : c ≠ '"' := hquote
    have hslash : c ≠ '\\' := hslash
    split
    · rename_i hcontrol
      exact congrArg (·.bind fun x => put x (basic rest))
        (charOfHex?_hexDigits (toNat_lt_of_isControl hcontrol))
    · rename_i hcontrol
      rw [List.singleton_append, basic] <;> simp [hquote, hslash, hcontrol]

/-- **A text of one line between double quotes is read back.** -/
theorem basic_flatMap_escapeChar (cs rest : List Char) :
    basic (cs.flatMap escapeChar ++ '"' :: rest) = some (cs, rest) := by
  induction cs with
  | nil => rfl
  | cons c cs ih =>
    rw [List.flatMap_cons, List.append_assoc, basic_escapeChar, ih]
    rfl

/-- What stands for a character in a text of several lines is read as that character. -/
theorem basicLines_escapeChar (c : Char) (rest : List Char) :
    basicLines .text (escapeChar c ++ rest) = put c (basicLines .text rest) := by
  unfold escapeChar
  split
  · rfl
  · rfl
  · rfl
  · rfl
  · rfl
  · rfl
  · rfl
  · rename_i hquote hslash _ _ hline _ hreturn
    have hquote : c ≠ '"' := hquote
    have hslash : c ≠ '\\' := hslash
    have hline : c ≠ '\n' := hline
    have hreturn : c ≠ '\r' := hreturn
    split
    · rename_i hcontrol
      exact congrArg (·.bind fun x => put x (basicLines .text rest))
        (charOfHex?_hexDigits (toNat_lt_of_isControl hcontrol))
    · rename_i hcontrol
      rw [List.singleton_append, basicLines] <;> simp [hquote, hslash, hline, hreturn, hcontrol]

/-- What stands for a character starts with no quote and no line end. -/
theorem head?_escapeChar (c : Char) :
    ∃ d more, escapeChar c = d :: more ∧ d ≠ '"' ∧ d ≠ '\n' ∧ d ≠ '\r' := by
  unfold escapeChar
  split
  · exact ⟨_, _, rfl, by decide⟩
  · exact ⟨_, _, rfl, by decide⟩
  · exact ⟨_, _, rfl, by decide⟩
  · exact ⟨_, _, rfl, by decide⟩
  · exact ⟨_, _, rfl, by decide⟩
  · exact ⟨_, _, rfl, by decide⟩
  · exact ⟨_, _, rfl, by decide⟩
  · rename_i hquote hslash _ _ hline _ hreturn
    split
    · exact ⟨_, _, rfl, by decide⟩
    · exact ⟨_, _, rfl, hquote, hline, hreturn⟩

/-! ## Texts of several lines -/

/-- The first line end of a text of several lines is not part of it; a text without line ends
starts with none. -/
theorem dropLineEnd_opening {cs body : List Char}
    (h : '\n' ∉ cs → body.head? ≠ some '\n' ∧ body.head? ≠ some '\r') :
    dropLineEnd (opening cs ++ body) = body := by
  unfold opening
  by_cases hmem : '\n' ∈ cs
  · rw [if_pos (by simpa using hmem)]
    rfl
  · rw [if_neg (by simpa using hmem), List.nil_append]
    obtain ⟨hline, hreturn⟩ := h hmem
    unfold dropLineEnd
    split
    · exact absurd rfl hline
    · exact absurd rfl hreturn
    · rfl

/-- Quotes that go on to three in a row in front of the closing ones are the last of the text,
and there are at most two of them. -/
theorem noTriple_closing {quote : Char} {cs rest more : List Char}
    (hcs : noTriple quote 0 cs = true)
    (h : cs ++ quote :: quote :: quote :: rest = quote :: quote :: quote :: more) :
    cs = [] ∨ cs = [quote] ∨ cs = [quote, quote] := by
  match cs with
  | [] => exact Or.inl rfl
  | [a] =>
    obtain rfl : a = quote := by simpa using congrArg List.head? h
    exact Or.inr (Or.inl rfl)
  | [a, b] =>
    simp only [List.cons_append, List.nil_append, List.cons.injEq] at h
    obtain ⟨rfl, rfl, -⟩ := h
    exact Or.inr (Or.inr rfl)
  | a :: b :: c :: cs =>
    simp only [List.cons_append, List.cons.injEq] at h
    obtain ⟨rfl, rfl, rfl, -⟩ := h
    simp [noTriple] at hcs

/-- Behind fewer quotes there are no three in a row all the more. -/
theorem noTriple_of_succ {quote : Char} {run : Nat} {cs : List Char}
    (h : noTriple quote (run + 1) cs = true) : noTriple quote run cs = true := by
  induction cs generalizing run with
  | nil => rfl
  | cons c cs ih =>
    unfold noTriple at h ⊢
    split
    · rename_i hc
      rw [if_pos hc, Bool.and_eq_true, decide_eq_true_eq] at h
      rw [Bool.and_eq_true, decide_eq_true_eq]
      exact ⟨by omega, ih h.2⟩
    · rename_i hc
      rwa [if_neg hc] at h

theorem noTriple_tail {quote c : Char} {cs : List Char} (h : noTriple quote 0 (c :: cs) = true) :
    noTriple quote 0 cs = true := by
  unfold noTriple at h
  split at h
  · exact noTriple_of_succ (Bool.and_eq_true _ _ ▸ h).2
  · exact h

/-! ### Between single quotes -/

/-- A quote that is not the first of three stands for itself. -/
theorem literalLines_quote {cs : List Char} (h : ∀ more, cs ≠ '\'' :: '\'' :: more) :
    literalLines ('\'' :: cs) = put '\'' (literalLines cs) := by
  rw [literalLines] <;> simp [h]
  exact fun hcontrol => absurd hcontrol (by decide)

/-- A character that is no control character, or a line end, stands for itself. -/
theorem literalLines_char {c : Char} (hquote : c ≠ '\'') (hc : isControl c = false ∨ c = '\n')
    (rest : List Char) : literalLines (c :: rest) = put c (literalLines rest) := by
  rcases hc with hc | rfl
  · have hreturn : c ≠ '\r' := by
      rintro rfl
      exact absurd hc (by decide)
    have hline : c ≠ '\n' := by
      rintro rfl
      exact absurd hc (by decide)
    rw [literalLines] <;> simp [hquote, hreturn, hline, hc]
  · rfl

/-- At most two quotes that stand directly before the closing ones belong to the text. -/
theorem literalLines_closing {cs rest : List Char} (hrest : ∀ more, rest ≠ '\'' :: more)
    (hcs : cs = [] ∨ cs = ['\''] ∨ cs = ['\'', '\'']) :
    literalLines (cs ++ '\'' :: '\'' :: '\'' :: rest) = some (cs, rest) := by
  rcases hcs with rfl | rfl | rfl
  · rw [List.nil_append, literalLines]
    exacts [fun _ => hrest _, hrest]
  · rw [List.singleton_append, literalLines]
    exact hrest
  · rfl

/-- **A text of several lines between single quotes is read back.** -/
theorem literalLines_append {cs rest : List Char} (hrest : ∀ more, rest ≠ '\'' :: more)
    (hchars : ∀ c ∈ cs, isControl c = false ∨ c = '\n') (hcs : noTriple '\'' 0 cs = true) :
    literalLines (cs ++ '\'' :: '\'' :: '\'' :: rest) = some (cs, rest) := by
  induction cs with
  | nil => exact literalLines_closing hrest (Or.inl rfl)
  | cons c cs ih =>
    rw [List.forall_mem_cons] at hchars
    have ih := ih hchars.2 (noTriple_tail hcs)
    by_cases hthree :
        ∃ more, c :: cs ++ '\'' :: '\'' :: '\'' :: rest = '\'' :: '\'' :: '\'' :: more
    · obtain ⟨more, hmore⟩ := hthree
      exact literalLines_closing hrest (noTriple_closing hcs hmore)
    · have hstep : literalLines (c :: cs ++ '\'' :: '\'' :: '\'' :: rest) =
          put c (literalLines (cs ++ '\'' :: '\'' :: '\'' :: rest)) := by
        by_cases hc : c = '\''
        · subst hc
          exact literalLines_quote fun more hmore => hthree ⟨more, congrArg ('\'' :: ·) hmore⟩
        · exact literalLines_char hc hchars.1 _
      rw [hstep, ih]
      rfl

/-! ### Between double quotes -/

/-- A quote that is not the first of three stands for itself. -/
theorem basicLines_quote {cs : List Char} (h : ∀ more, cs ≠ '"' :: '"' :: more) :
    basicLines .text ('"' :: cs) = put '"' (basicLines .text cs) := by
  rw [basicLines] <;> simp [h]
  exact fun hcontrol => absurd hcontrol (by decide)

/-- At most two quotes that stand directly before the closing ones belong to the text. -/
theorem basicLines_closing {cs rest : List Char} (hrest : ∀ more, rest ≠ '"' :: more)
    (hcs : cs = [] ∨ cs = ['"'] ∨ cs = ['"', '"']) :
    basicLines .text (cs ++ '"' :: '"' :: '"' :: rest) = some (cs, rest) := by
  rcases hcs with rfl | rfl | rfl
  · rw [List.nil_append, basicLines] <;> simp [hrest]
  · rw [List.singleton_append, basicLines] <;> simp [hrest]
  · rfl

/-- An escaped text starts with a quote only where the text itself does, and no third one. -/
theorem escapeLines_cons_eq {run : Nat} {c : Char} {cs tail more : List Char}
    (h : escapeLines run (c :: cs) ++ tail = '"' :: more) :
    c = '"' ∧ run ≠ 2 ∧ escapeLines (run + 1) cs ++ tail = more := by
  unfold escapeLines at h
  split at h
  · rename_i hc
    split at h
    · exact absurd (List.cons.inj h).1 (by decide)
    · rename_i hrun
      exact ⟨hc, hrun, (List.cons.inj h).2⟩
  · split at h
    · exact absurd (List.cons.inj h).1 (by decide)
    · obtain ⟨d, rest, hd, hquote, -⟩ := head?_escapeChar c
      rw [hd] at h
      exact absurd (List.cons.inj h).1 hquote

/-- Quotes of an escaped text that go on to three in a row in front of the closing ones are the
last of the text, and there are at most two of them. -/
theorem escapeLines_closing {run : Nat} (hrun : run ≤ 2) {cs rest more : List Char}
    (h : escapeLines run cs ++ '"' :: '"' :: '"' :: rest = '"' :: '"' :: '"' :: more) :
    escapeLines run cs = cs ∧ (cs = [] ∨ cs = ['"'] ∨ cs = ['"', '"']) := by
  match cs with
  | [] => exact ⟨rfl, Or.inl rfl⟩
  | [a] =>
    obtain ⟨rfl, hne, -⟩ := escapeLines_cons_eq h
    exact ⟨by simp [escapeLines, hne], Or.inr (Or.inl rfl)⟩
  | [a, b] =>
    obtain ⟨rfl, hne, h⟩ := escapeLines_cons_eq h
    obtain ⟨rfl, hne', -⟩ := escapeLines_cons_eq h
    exact ⟨by simp [escapeLines, hne, show run ≠ 1 by omega], Or.inr (Or.inr rfl)⟩
  | a :: b :: c :: cs =>
    obtain ⟨-, hne, h⟩ := escapeLines_cons_eq h
    obtain ⟨-, hne', h⟩ := escapeLines_cons_eq h
    obtain ⟨-, hne'', -⟩ := escapeLines_cons_eq h
    omega

/-- **A text of several lines between double quotes is read back.** -/
theorem basicLines_escapeLines {rest : List Char} (hrest : ∀ more, rest ≠ '"' :: more)
    {run : Nat} (hrun : run ≤ 2) (cs : List Char) :
    basicLines .text (escapeLines run cs ++ '"' :: '"' :: '"' :: rest) = some (cs, rest) := by
  induction cs generalizing run with
  | nil => exact basicLines_closing hrest (Or.inl rfl)
  | cons c cs ih =>
    by_cases hthree : ∃ more,
        escapeLines run (c :: cs) ++ '"' :: '"' :: '"' :: rest = '"' :: '"' :: '"' :: more
    · obtain ⟨more, hmore⟩ := hthree
      obtain ⟨hsame, hcs⟩ := escapeLines_closing hrun hmore
      rw [hsame]
      exact basicLines_closing hrest hcs
    · -- the first character stands for itself, and the run goes on or starts anew
      unfold escapeLines at hthree ⊢
      split
      · rename_i hc
        subst hc
        split
        · exact (congrArg (put '"') (ih (by omega))).trans rfl
        · rename_i hne
          rw [if_pos rfl, if_neg hne] at hthree
          rw [List.cons_append, basicLines_quote, ih (by omega)]
          · rfl
          · exact fun more hmore => hthree ⟨more, congrArg ('"' :: ·) hmore⟩
      · split
        · rename_i hc
          subst hc
          exact (congrArg (put '\n') (ih (by omega))).trans rfl
        · rw [List.append_assoc, basicLines_escapeChar, ih (by omega)]
          rfl

/-! ## All kinds of quotes -/

/-- Two quotes at the start of a text between double quotes are the whole of it. -/
theorem quoted?_basic {cs : List Char} (h : ∀ more, cs ≠ '"' :: '"' :: more) :
    quoted? ('"' :: cs) = (basic cs).map fun (cs, rest) => (String.ofList cs, rest) := by
  rw [quoted?]
  exact h

theorem quoted?_literal {cs : List Char} (h : ∀ more, cs ≠ '\'' :: '\'' :: more) :
    quoted? ('\'' :: cs) = (literal cs).map fun (cs, rest) => (String.ofList cs, rest) := by
  rw [quoted?]
  exact h

theorem literal_append {cs rest : List Char}
    (hcs : ∀ c ∈ cs, isControl c = false ∧ c ≠ '\'') :
    literal (cs ++ '\'' :: rest) = some (cs, rest) := by
  induction cs with
  | nil => rfl
  | cons c cs ih =>
    rw [List.forall_mem_cons] at hcs
    obtain ⟨⟨hcontrol, hquote⟩, hcs⟩ := hcs
    rw [List.cons_append, literal, hcontrol, ih hcs]
    · rfl
    · exact hquote

/-- What stands between double quotes on one line starts with no two quotes. -/
theorem flatMap_escapeChar_ne {cs rest : List Char} (hrest : ∀ more, rest ≠ '"' :: more)
    (more : List Char) : cs.flatMap escapeChar ++ '"' :: rest ≠ '"' :: '"' :: more := by
  intro h
  cases cs with
  | nil => exact hrest more (List.cons.inj h).2
  | cons c cs =>
    obtain ⟨d, tail, hd, hquote, -⟩ := head?_escapeChar c
    rw [List.flatMap_cons, hd] at h
    exact hquote (List.cons.inj h).1

/-- What stands between single quotes on one line starts with no two quotes. -/
theorem append_quote_ne {cs rest : List Char} (hcs : ∀ c ∈ cs, c ≠ '\'')
    (hrest : ∀ more, rest ≠ '\'' :: more) (more : List Char) :
    cs ++ '\'' :: rest ≠ '\'' :: '\'' :: more := by
  intro h
  cases cs with
  | nil => exact hrest more (List.cons.inj h).2
  | cons c cs => exact hcs c List.mem_cons_self (List.cons.inj h).1

theorem head?_cons_ne {c d : Char} {cs : List Char} (h : c ≠ d) : (c :: cs).head? ≠ some d :=
  fun he => h (Option.some.inj he)

/-- An escaped text starts with a line end only where the text itself does. -/
theorem head?_escapeLines {cs : List Char} (hcs : '\n' ∉ cs) (tail : List Char) :
    (escapeLines 0 cs ++ '"' :: tail).head? ≠ some '\n' ∧
      (escapeLines 0 cs ++ '"' :: tail).head? ≠ some '\r' := by
  cases cs with
  | nil => exact ⟨head?_cons_ne (by decide), head?_cons_ne (by decide)⟩
  | cons c cs =>
    rw [List.mem_cons, not_or] at hcs
    unfold escapeLines
    by_cases hc : c = '"'
    · rw [if_pos hc, if_neg (by decide)]
      exact ⟨head?_cons_ne (by decide), head?_cons_ne (by decide)⟩
    · obtain ⟨d, more, hd, -, hline, hreturn⟩ := head?_escapeChar c
      rw [if_neg hc, if_neg (Ne.symm hcs.1), hd]
      exact ⟨head?_cons_ne hline, head?_cons_ne hreturn⟩

/-- A text that stands as it is between single quotes starts with no line end if it has none. -/
theorem head?_append_quote {cs : List Char} (hchars : ∀ c ∈ cs, isControl c = false ∨ c = '\n')
    (hcs : '\n' ∉ cs) (tail : List Char) :
    (cs ++ '\'' :: tail).head? ≠ some '\n' ∧ (cs ++ '\'' :: tail).head? ≠ some '\r' := by
  cases cs with
  | nil => exact ⟨head?_cons_ne (by decide), head?_cons_ne (by decide)⟩
  | cons c cs =>
    rw [List.forall_mem_cons] at hchars
    rw [List.mem_cons, not_or] at hcs
    refine ⟨head?_cons_ne (Ne.symm hcs.1), head?_cons_ne ?_⟩
    rintro rfl
    exact absurd hchars.1 (by decide)

/-- What may stand behind a text: no quote that would go on with it. -/
def NoQuote (rest : List Char) : Prop := ∀ c ∈ rest.head?, c ≠ '"' ∧ c ≠ '\''

theorem NoQuote.ne {rest : List Char} (h : NoQuote rest) :
    (∀ more, rest ≠ '"' :: more) ∧ ∀ more, rest ≠ '\'' :: more := by
  constructor
  · rintro more rfl
    exact (h '"' rfl).1 rfl
  · rintro more rfl
    exact (h '\'' rfl).2 rfl

/-- **A text is read back from all quotes that can hold it.** -/
theorem quoted?_write {quoting : Quoting} {cs rest : List Char} (hfits : quoting.fits cs = true)
    (hrest : NoQuote rest) :
    quoted? (quoting.write cs ++ rest) = some (String.ofList cs, rest) := by
  obtain ⟨hdouble, hsingle⟩ := hrest.ne
  cases quoting with
  | basic =>
    rw [Quoting.write, List.cons_append, List.cons_append, List.append_assoc,
      List.singleton_append, quoted?_basic (flatMap_escapeChar_ne hdouble),
      basic_flatMap_escapeChar, Option.map_some]
  | literal =>
    simp only [Quoting.fits, List.all_eq_true, Bool.and_eq_true, Bool.not_eq_true',
      bne_iff_ne] at hfits
    rw [Quoting.write, List.cons_append, List.cons_append, List.append_assoc,
      List.singleton_append, quoted?_literal (append_quote_ne (fun c hc => (hfits c hc).2) hsingle),
      literal_append hfits, Option.map_some]
  | basicLines =>
    have hbody : quoted? (Quoting.basicLines.write cs ++ rest) =
        (basicLines .text (dropLineEnd (opening cs ++
          (escapeLines 0 cs ++ '"' :: '"' :: '"' :: rest)))).map
            fun (cs, rest) => (String.ofList cs, rest) := by
      simp only [Quoting.write, List.append_assoc, List.cons_append, List.nil_append, quoted?]
    rw [hbody, dropLineEnd_opening fun h => head?_escapeLines h _,
      basicLines_escapeLines hdouble (Nat.zero_le 2), Option.map_some]
  | literalLines =>
    simp only [Quoting.fits, List.all_eq_true, Bool.and_eq_true, Bool.or_eq_true,
      Bool.not_eq_true', beq_iff_eq] at hfits
    have hbody : quoted? (Quoting.literalLines.write cs ++ rest) =
        (literalLines (dropLineEnd (opening cs ++
          (cs ++ '\'' :: '\'' :: '\'' :: rest)))).map
            fun (cs, rest) => (String.ofList cs, rest) := by
      simp only [Quoting.write, List.append_assoc, List.cons_append, List.nil_append, quoted?]
    rw [hbody, dropLineEnd_opening fun h => head?_append_quote hfits.1 h _,
      literalLines_append hsingle hfits.1 hfits.2, Option.map_some]

end ShardLoad.Toml
