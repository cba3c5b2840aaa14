import Mathlib.Data.List.TakeWhile
import ShardLoad.Proofs.Json.Tokens
import ShardLoad.Proofs.Toml.Quoting
import ShardLoad.Toml.Document

/-!
# The lines of a document are read back

Each line of a written document says one thing: it opens a table, opens the next table of an
array, or gives a key its value.  A key is bare, so it ends where a blank or a bracket stands; a
number or a truth value ends with its line; a text ends with its closing quotes.  Empty lines say
nothing, so a document is read as what its other lines say, in order.

* `Bare`, `key?_bare`: keys.
* `scalar?_write`: values.
* `Says`: what lines say.
* `statements?_document`: what a document says.
-/

namespace ShardLoad.Toml

/-! ## Keys -/

/-- A name that needs no quotes as a key. -/
def Bare (name : String) : Prop := name.toList ≠ [] ∧ ∀ c ∈ name.toList, isKeyChar c = true

/-- Only the characters of the name are looked at, and not all there are. -/
instance (name : String) : Decidable (Bare name) :=
  decidable_of_iff (name.toList ≠ [] ∧ name.toList.all isKeyChar = true)
    (and_congr_right fun _ => List.all_eq_true)

theorem ne_of_isKeyChar {c d : Char} (h : isKeyChar c = true) (hd : isKeyChar d = false) :
    c ≠ d := by
  rintro rfl
  rw [h] at hd
  exact Bool.noConfusion hd

/-- A bare key starts with none of the characters that keys do not have. -/
theorem Bare.append_ne {name : String} (h : Bare name) {d : Char} (hd : isKeyChar d = false)
    (rest cs : List Char) : name.toList ++ rest ≠ d :: cs := by
  obtain ⟨hne, hchars⟩ := h
  obtain ⟨c, more, hcs⟩ := List.exists_cons_of_ne_nil hne
  intro he
  rw [hcs] at he hchars
  exact ne_of_isKeyChar (hchars c List.mem_cons_self) hd (List.cons.inj he).1

/-- A bare key ends in front of what is no part of it. -/
theorem keyPart?_bare {name : String} (h : Bare name) {rest : List Char}
    (hrest : ∀ c ∈ rest.head?, isKeyChar c = false) :
    keyPart? (name.toList ++ rest) = some (name, rest) := by
  obtain ⟨htake, hdrop⟩ := Json.takeWhile_dropWhile_append h.2 hrest
  rw [keyPart?]
  · rw [htake, hdrop, if_neg (by simpa using h.1), String.ofList_toList]
  · exact h.append_ne (by decide) rest
  · exact h.append_ne (by decide) rest

/-- A bare key is read, and white space behind it. -/
theorem key?_bare {name : String} (h : Bare name) {rest : List Char}
    (hrest : ∀ c ∈ rest.head?, isKeyChar c = false) (hdot : ∀ more, skipSpace rest ≠ '.' :: more) :
    key? (name.toList ++ rest) = some ([name], skipSpace rest) := by
  rw [key?, maxKeyParts, keyParts?, keyPart?_bare h hrest]
  simp only [bind, Option.bind_some]

/-- A bare key starts with no white space. -/
theorem skipSpace_bare {name : String} (h : Bare name) (rest : List Char) :
    skipSpace (name.toList ++ rest) = name.toList ++ rest := by
  obtain ⟨hne, hchars⟩ := h
  obtain ⟨c, cs, hcs⟩ := List.exists_cons_of_ne_nil hne
  rw [hcs] at hchars ⊢
  have hc := hchars c List.mem_cons_self
  refine List.dropWhile_cons_of_neg ?_
  simp [isSpace, ne_of_isKeyChar hc (d := ' ') (by decide),
    ne_of_isKeyChar hc (d := '\t') (by decide)]

/-! ## Values -/

theorem isDigit_eq (c : Char) : isDigit c = c.isDigit := by
  simp only [isDigit, Char.isDigit, Char.toNat, ge_iff_le, UInt32.le_iff_toNat_le]
  rfl

theorem isDigit_of_mem_toDigits {n : Nat} {c : Char} (h : c ∈ Nat.toDigits 10 n) :
    isDigit c = true := (isDigit_eq c).trans (ShardLoad.isDigit_of_mem_toDigits h)

/-- A digit is no other character. -/
theorem ne_of_isDigit {c d : Char} (h : isDigit c = true) (hd : isDigit d = false) : c ≠ d := by
  rintro rfl
  rw [h] at hd
  exact Bool.noConfusion hd

/-- The digits of a number have its value. -/
theorem valueOf_toDigits (n : Nat) : valueOf 10 (Nat.toDigits 10 n) = n := by
  have hstep : ∀ (cs : List Char), (∀ c ∈ cs, isDigit c = true) → ∀ m,
      cs.foldl (fun n c => 10 * n + digitValue c) m = Nat.ofDigitChars 10 cs m := by
    intro cs
    induction cs with
    | nil => exact fun _ _ => rfl
    | cons c cs ih =>
      intro hcs m
      rw [List.forall_mem_cons] at hcs
      have hc : digitValue c = c.toNat - 48 := by
        have := hcs.1
        simp only [isDigit, Bool.and_eq_true, decide_eq_true_eq] at this
        exact if_pos this.2
      rw [List.foldl_cons, hc, Nat.ofDigitChars_cons]
      exact ih hcs.2 _
  rw [valueOf, hstep _ (fun c hc => isDigit_of_mem_toDigits hc), Nat.ofDigitChars_ten_toDigits]

/-- Where there are no underscores they all fit. -/
theorem underscoresFit_of_forall_ne {digit : Char → Bool} {after : Bool} {cs : List Char}
    (h : ∀ c ∈ cs, c ≠ '_') : underscoresFit digit after cs = true := by
  induction cs generalizing after with
  | nil => rfl
  | cons c cs ih =>
    rw [List.forall_mem_cons] at h
    rw [underscoresFit]
    · exact ih h.2
    · exact fun hc => absurd hc h.1
    · exact fun _ _ hc => absurd hc h.1

/-- The digits of a number are read as an integer. -/
theorem integer?_toDigits (n : Nat) : integer? (Nat.toDigits 10 n) = some (.int n) := by
  have hdigits : ∀ c ∈ Nat.toDigits 10 n, isDigit c = true :=
    fun c hc => isDigit_of_mem_toDigits hc
  have hunder : ∀ c ∈ Nat.toDigits 10 n, c ≠ '_' :=
    fun c hc => ne_of_isDigit (hdigits c hc) (by decide)
  have hbase {d : Char} (hd : isDigit d = false) (cs : List Char) :
      Nat.toDigits 10 n = '0' :: d :: cs → False := by
    intro he
    rw [he] at hdigits
    exact ne_of_isDigit (hdigits d (by simp)) hd rfl
  have hsigned : signed (Nat.toDigits 10 n) = (false, Nat.toDigits 10 n) := by
    rw [signed]
    · intro cs he
      rw [he] at hdigits
      exact ne_of_isDigit (hdigits '+' List.mem_cons_self) (by decide) rfl
    · intro cs he
      rw [he] at hdigits
      exact ne_of_isDigit (hdigits '-' List.mem_cons_self) (by decide) rfl
  have hends : (Nat.toDigits 10 n).dropWhile isDigit = [] := List.dropWhile_eq_nil_iff.mpr hdigits
  have hzero : ((Nat.toDigits 10 n).head? == some '0' &&
      (Nat.toDigits 10 n).length != 1) = false := by
    rw [Bool.and_eq_false_iff]
    by_cases h : (Nat.toDigits 10 n).head? = some '0'
    · exact Or.inr (by simp [length_toDigits_of_head? h])
    · exact Or.inl (by simpa using h)
  have hfilter : withoutUnderscores (Nat.toDigits 10 n) = Nat.toDigits 10 n :=
    List.filter_eq_self.mpr fun c hc => by simpa using hunder c hc
  rw [integer?]
  · simp [decimalInteger?, hsigned, hends, endsInteger, hzero, numberUnderscoresFit,
      underscoresFit_of_forall_ne hunder, integerOf, hfilter, List.all_eq_true.mpr hdigits,
      withSign, valueOf_toDigits]
  · exact hbase (by decide)
  · exact hbase (by decide)
  · exact hbase (by decide)

theorem ofWord?_toDigits (n : Nat) : Scalar.ofWord? (Nat.toDigits 10 n) = some (.int n) := by
  have hne {d : Char} {cs : List Char} (hd : isDigit d = false) : Nat.toDigits 10 n ≠ d :: cs := by
    intro he
    exact ne_of_isDigit (isDigit_of_mem_toDigits (he ▸ List.mem_cons_self)) hd rfl
  rw [Scalar.ofWord?, if_neg (hne (by decide)), if_neg (hne (by decide)), integer?_toDigits]

/-- A bare value ends with its line. -/
theorem word_append {w : List Char} (hw : ∀ c ∈ w, isWordChar c = true) (rest : List Char) :
    word (w ++ '\n' :: rest) = (w, '\n' :: rest) := by
  have hrest : ∀ c ∈ ('\n' :: rest).head?, isWordChar c = false :=
    Json.forall_mem_head?_cons (by decide) rest
  obtain ⟨htake, hdrop⟩ := Json.takeWhile_dropWhile_append hw hrest
  simp only [word, htake, hdrop]
  rfl

/-- What starts with no quote is a bare value. -/
theorem scalar?_word {w : List Char} (hw : ∀ c ∈ w, isWordChar c = true)
    (hquote : ∀ c ∈ w.head?, c ≠ '"' ∧ c ≠ '\'') {s : Scalar} (hs : Scalar.ofWord? w = some s)
    (rest : List Char) : scalar? (w ++ '\n' :: rest) = some (s, '\n' :: rest) := by
  have hne : ∀ c ∈ (w ++ '\n' :: rest).head?, c ≠ '"' ∧ c ≠ '\'' := by
    cases w with
    | nil => exact Json.forall_mem_head?_cons (by decide) rest
    | cons c w => exact hquote
  rw [scalar?]
  · simp only [word_append hw, hs, Option.map_some]
  · exact fun more he => (hne '"' (by rw [he]; rfl)).1 rfl
  · exact fun more he => (hne '\'' (by rw [he]; rfl)).2 rfl

/-- What starts with a quote is a text. -/
theorem scalar?_of_quote {q : Char} (hq : q = '"' ∨ q = '\'') (cs : List Char) :
    scalar? (q :: cs) = (quoted? (q :: cs)).map fun (s, rest) => (.string s, rest) := by
  rcases hq with rfl | rfl <;> rfl

/-- A text in quotes starts with a quote. -/
theorem Quoting.exists_write (quoting : Quoting) (cs : List Char) :
    ∃ q more, quoting.write cs = q :: more ∧ (q = '"' ∨ q = '\'') := by
  cases quoting with
  | basic => exact ⟨_, _, rfl, Or.inl rfl⟩
  | literal => exact ⟨_, _, rfl, Or.inr rfl⟩
  | basicLines => exact ⟨_, _, rfl, Or.inl rfl⟩
  | literalLines => exact ⟨_, _, rfl, Or.inr rfl⟩

theorem isWordChar_of_isDigit {c : Char} (h : isDigit c = true) : isWordChar c = true := by
  simp only [isDigit, Bool.and_eq_true, decide_eq_true_eq] at h
  have hne : ∀ d : Char, d.toNat < 48 ∨ 57 < d.toNat → (c == d) = false := by
    intro d hd
    rw [beq_eq_false_iff_ne]
    rintro rfl
    omega
  simp [isWordChar, isSpace, hne]

/-- **A value is read back.** -/
theorem scalar?_write (style : Style) (v : Plain) (rest : List Char) :
    scalar? (v.write style ++ '\n' :: rest) = some (v.scalar, '\n' :: rest) := by
  cases v with
  | text s =>
    have hrest : NoQuote ('\n' :: rest) := Json.forall_mem_head?_cons (by decide) rest
    have hread := quoted?_write (style.fits s.toList) hrest
    obtain ⟨q, more, hwrite, hq⟩ := (style.quoting s.toList).exists_write s.toList
    rw [Plain.write]
    rw [hwrite, List.cons_append] at hread ⊢
    rw [scalar?_of_quote hq, hread, String.ofList_toList]
    rfl
  | number n =>
    refine scalar?_word (fun c hc => isWordChar_of_isDigit (isDigit_of_mem_toDigits hc)) ?_
      (ofWord?_toDigits n) rest
    intro c hc
    have hdigit := isDigit_of_mem_toDigits (List.mem_of_mem_head? hc)
    exact ⟨ne_of_isDigit hdigit (by decide), ne_of_isDigit hdigit (by decide)⟩
  | truth b =>
    cases b with
    | true =>
      exact scalar?_word (w := ['t', 'r', 'u', 'e']) (List.all_eq_true.mp rfl)
        (Json.forall_mem_head?_cons (by decide) _) rfl rest
    | false =>
      exact scalar?_word (w := ['f', 'a', 'l', 's', 'e']) (List.all_eq_true.mp rfl)
        (Json.forall_mem_head?_cons (by decide) _) rfl rest

/-- A written value starts with neither white space nor a bracket. -/
theorem Plain.exists_write (style : Style) (v : Plain) :
    ∃ c more, v.write style = c :: more ∧ isSpace c = false ∧ c ≠ '[' ∧ c ≠ '{' := by
  cases v with
  | text s =>
    obtain ⟨q, more, hwrite, hq⟩ := (style.quoting s.toList).exists_write s.toList
    refine ⟨q, more, hwrite, ?_⟩
    rcases hq with rfl | rfl <;> decide
  | number n =>
    obtain ⟨c, more, hcs⟩ := List.exists_cons_of_ne_nil (Nat.toDigits_ne_nil (b := 10) (n := n))
    have hc : isDigit c = true := isDigit_of_mem_toDigits (hcs ▸ List.mem_cons_self)
    refine ⟨c, more, hcs, ?_, ne_of_isDigit hc (by decide), ne_of_isDigit hc (by decide)⟩
    simp [isSpace, ne_of_isDigit hc (d := ' ') (by decide),
      ne_of_isDigit hc (d := '\t') (by decide)]
  | truth b =>
    cases b with
    | true => exact ⟨_, _, rfl, by decide⟩
    | false => exact ⟨_, _, rfl, by decide⟩

/-- What starts with no bracket is neither an array nor a table. -/
theorem node?_eq_scalar? (depth : Nat) {c : Char} (harray : c ≠ '[') (htable : c ≠ '{')
    (cs : List Char) :
    node? depth (c :: cs) = (scalar? (c :: cs)).map fun (s, rest) => (.scalar s, rest) := by
  cases depth with
  | zero => rfl
  | succ depth =>
    rw [node?]
    · exact fun _ he => harray (List.cons.inj he).1
    · exact fun _ he => htable (List.cons.inj he).1

/-! ## Lines -/

/-- What the line of a header says. -/
def Block.opens (b : Block) : Statement :=
  if b.isElement then .element [b.name] else .header [b.name]

/-- What the line of a key says. -/
def entryStatement (entry : String × Plain) : Statement :=
  .pair [entry.1] (.scalar entry.2.scalar)

/-- What the lines of a table say. -/
def Block.statements (b : Block) : List Statement := b.opens :: b.entries.map entryStatement

/-- A line that says one thing. -/
structure Reads (line : List Char) (s : Statement) : Prop where
  starts : ∃ c more, line = c :: more ∧ (c = '[' ∨ isKeyChar c = true)
  reads : ∀ rest, statement? (line ++ '\n' :: rest) = some (s, '\n' :: rest)

/-- A key in brackets ends where the brackets close. -/
theorem key?_bracket {name : String} (h : Bare name) (rest : List Char) :
    key? (skipSpace (name.toList ++ ']' :: rest)) = some ([name], ']' :: rest) := by
  have hrest : ∀ c ∈ (']' :: rest).head?, isKeyChar c = false :=
    Json.forall_mem_head?_cons (by decide) rest
  rw [skipSpace_bare h]
  exact key?_bare h hrest fun more he => absurd (List.cons.inj he).1 (by decide)

theorem reads_header {b : Block} (h : Bare b.name) : Reads b.header b.opens := by
  obtain ⟨isElement, name, entries⟩ := b
  have h : Bare name := h
  cases isElement with
  | true =>
    refine ⟨⟨_, _, rfl, Or.inl rfl⟩, fun rest => ?_⟩
    have htext : Block.header ⟨true, name, entries⟩ ++ '\n' :: rest =
        '[' :: '[' :: (name.toList ++ ']' :: ']' :: '\n' :: rest) := by simp [Block.header]
    rw [htext, statement?, key?_bracket h]
    rfl
  | false =>
    refine ⟨⟨_, _, rfl, Or.inl rfl⟩, fun rest => ?_⟩
    have htext : Block.header ⟨false, name, entries⟩ ++ '\n' :: rest =
        '[' :: (name.toList ++ ']' :: '\n' :: rest) := by simp [Block.header]
    rw [htext, statement?, key?_bracket h]
    · rfl
    · exact h.append_ne (by decide) _

theorem reads_entry (style : Style) {entry : String × Plain} (h : Bare entry.1) :
    Reads (entryLine style entry) (entryStatement entry) := by
  obtain ⟨name, v⟩ := entry
  have h : Bare name := h
  obtain ⟨c, more, hcs⟩ := List.exists_cons_of_ne_nil h.1
  have hc : isKeyChar c = true := h.2 c (hcs ▸ List.mem_cons_self)
  refine ⟨⟨c, more ++ [' ', '=', ' '] ++ v.write style, ?_, Or.inr hc⟩, fun rest => ?_⟩
  · rw [entryLine, hcs]
    rfl
  · obtain ⟨d, tail, hwrite, hspace, harray, htable⟩ := v.exists_write style
    have hvalue := scalar?_write style v rest
    rw [hwrite, List.cons_append] at hvalue
    have hkey : key? (name.toList ++ ' ' :: '=' :: ' ' :: d :: (tail ++ '\n' :: rest)) =
        some ([name], '=' :: ' ' :: d :: (tail ++ '\n' :: rest)) := by
      refine key?_bare h (Json.forall_mem_head?_cons (by decide) _) ?_
      exact fun more he => absurd (List.cons.inj he).1 (by decide)
    have hskip : skipSpace (' ' :: d :: (tail ++ '\n' :: rest)) = d :: (tail ++ '\n' :: rest) :=
      (List.dropWhile_cons_of_pos rfl).trans (List.dropWhile_cons_of_neg (by simp [hspace]))
    have hpair : pair? (node? maxDepth) (name.toList ++ ' ' :: '=' :: ' ' :: d ::
        (tail ++ '\n' :: rest)) = some (([name], .scalar v.scalar), '\n' :: rest) := by
      simp only [pair?, hkey, hskip, node?_eq_scalar? _ harray htable, hvalue, Option.map_some,
        bind, Option.bind_some]
    have htext : entryLine style (name, v) ++ '\n' :: rest =
        name.toList ++ ' ' :: '=' :: ' ' :: d :: (tail ++ '\n' :: rest) := by
      simp [entryLine, hwrite]
    rw [htext, statement?, hpair]
    · rfl
    · exact fun cs => h.append_ne (by decide) _ _
    · exact h.append_ne (by decide) _

/-! ## Documents -/

/-- The first character of such a line is no part of a gap. -/
theorem Reads.skipGap? {line : List Char} {s : Statement} (h : Reads line s) (rest : List Char) :
    skipGap? false (line ++ rest) = some (line ++ rest) := by
  obtain ⟨c, more, rfl, hc⟩ := h.starts
  have hne : ∀ d, isKeyChar d = false → d ≠ '[' → c ≠ d := by
    intro d hkey hbracket
    rcases hc with rfl | hc
    · exact Ne.symm hbracket
    · exact ne_of_isKeyChar hc hkey
  have hspace : isSpace c = false := by
    simp [isSpace, hne ' ' (by decide) (by decide), hne '\t' (by decide) (by decide)]
  rw [List.cons_append, Toml.skipGap?, if_neg Bool.false_ne_true, hspace,
    if_neg Bool.false_ne_true, if_neg (hne '#' (by decide) (by decide))]
  · exact fun he => absurd he (hne '\n' (by decide) (by decide))
  · exact fun _ he => absurd he (hne '\r' (by decide) (by decide))

/-- What lines say: the empty ones nothing, the others one thing each. -/
inductive Says : List (List Char) → List Statement → Prop where
  | nil : Says [] []
  | empty {lines : List (List Char)} {ss : List Statement} (h : Says lines ss) :
    Says ([] :: lines) ss
  | line {line : List Char} {lines : List (List Char)} {s : Statement} {ss : List Statement}
    (h : Reads line s) (hs : Says lines ss) : Says (line :: lines) (s :: ss)

/-- The text of lines. -/
def unlines (lines : List (List Char)) : List Char := lines.flatMap fun line => line ++ ['\n']

theorem unlines_cons (line : List Char) (lines : List (List Char)) :
    unlines (line :: lines) = line ++ '\n' :: unlines lines := by
  simp [unlines]

theorem Says.append {lines lines' : List (List Char)} {ss ss' : List Statement}
    (h : Says lines ss) (h' : Says lines' ss') : Says (lines ++ lines') (ss ++ ss') := by
  induction h with
  | nil => exact h'
  | empty _ ih => exact ih.empty
  | line hline _ ih => exact ih.line hline

/-- Lines say at most as many things as their text has characters. -/
theorem Says.length_le {lines : List (List Char)} {ss : List Statement} (h : Says lines ss) :
    ss.length ≤ (unlines lines).length := by
  induction h with
  | nil => exact Nat.le_refl 0
  | empty _ ih =>
    rw [unlines_cons]
    exact Nat.le_succ_of_le ih
  | line hline _ ih =>
    rw [unlines_cons, List.length_append, List.length_cons, List.length_cons]
    omega

/-- An empty line in front says nothing. -/
theorem statementsUpTo?_empty (count : Nat) (cs : List Char) :
    statementsUpTo? count ('\n' :: cs) = statementsUpTo? count cs := by
  cases count <;> simp only [statementsUpTo?, skipGap?]

/-- **Lines are read as what they say.** -/
theorem Says.statementsUpTo? {lines : List (List Char)} {ss : List Statement} (h : Says lines ss)
    {count : Nat} (hcount : ss.length ≤ count) :
    statementsUpTo? count (unlines lines) = some ss := by
  induction h generalizing count with
  | nil => cases count <;> rfl
  | empty _ ih =>
    rw [unlines_cons, List.nil_append, statementsUpTo?_empty]
    exact ih hcount
  | @line line lines s ss hline _ ih =>
    obtain ⟨count, rfl⟩ := Nat.exists_eq_add_of_le' (Nat.lt_of_lt_of_le (Nat.succ_pos _) hcount)
    obtain ⟨c, more, hcs, -⟩ := hline.starts
    have hgap := hline.skipGap? ('\n' :: unlines lines)
    have hread := hline.reads (unlines lines)
    rw [unlines_cons, Toml.statementsUpTo?, hgap]
    rw [hcs, List.cons_append] at hread ⊢
    simp only [bind, Option.bind_some, hread, endLine?, ih (Nat.le_of_succ_le_succ hcount),
      Option.map_some]

/-- A table all of whose names are bare. -/
def Block.IsBare (b : Block) : Prop := Bare b.name ∧ ∀ entry ∈ b.entries, Bare entry.1

theorem says_block (style : Style) {b : Block} (h : b.IsBare) :
    Says (b.lines style) b.statements := by
  refine Says.line (reads_header h.1) ?_
  have hentries : ∀ entries : List (String × Plain), (∀ entry ∈ entries, Bare entry.1) →
      Says (entries.map (entryLine style)) (entries.map entryStatement) := by
    intro entries
    induction entries with
    | nil => exact fun _ => Says.nil
    | cons entry entries ih =>
      intro hbare
      rw [List.forall_mem_cons] at hbare
      exact Says.line (reads_entry style hbare.1) (ih hbare.2)
  exact hentries b.entries h.2

theorem says_blockLines (style : Style) {bs : List Block} (h : ∀ b ∈ bs, b.IsBare) :
    Says (blockLines style bs) (bs.flatMap Block.statements) := by
  have hmore : ∀ bs : List Block, (∀ b ∈ bs, b.IsBare) →
      Says (bs.flatMap fun b => [] :: b.lines style) (bs.flatMap Block.statements) := by
    intro bs
    induction bs with
    | nil => exact fun _ => Says.nil
    | cons b bs ih =>
      intro h
      rw [List.forall_mem_cons] at h
      exact (says_block style h.1).empty.append (ih h.2)
  cases bs with
  | nil => exact Says.nil
  | cons b bs =>
    rw [List.forall_mem_cons] at h
    exact (says_block style h.1).append (hmore bs h.2)

/-- **A written document is read as what its tables say.** -/
theorem statements?_document (style : Style) {bs : List Block} (h : ∀ b ∈ bs, b.IsBare) :
    statements? (document style bs) = some (bs.flatMap Block.statements) := by
  have hsays := says_blockLines style h
  have hmark : ∀ cs, unlines (blockLines style bs) ≠ '\uFEFF' :: cs := by
    intro cs he
    cases bs with
    | nil => exact absurd he (List.cons_ne_nil _ _).symm
    | cons b bs =>
      obtain ⟨c, more, hc, hstart⟩ := (reads_header (h b List.mem_cons_self).1).starts
      have he : c = '\uFEFF' := by
        rw [blockLines, Block.lines, List.cons_append, unlines_cons, hc] at he
        exact (List.cons.inj he).1
      rcases hstart with rfl | hkey
      · exact absurd he (by decide)
      · exact ne_of_isKeyChar hkey (by decide) he
  have htext : (document style bs).toList = unlines (blockLines style bs) := String.toList_ofList
  unfold statements?
  rw [htext]
  split
  · rename_i cs he
    exact absurd he (hmark cs)
  · exact hsays.statementsUpTo? hsays.length_le

end ShardLoad.Toml
