import ShardLoad.Toml.Quoted
import ShardLoad.Toml.Value

/-!
# Written TOML

A document is written table by table: a header, then a line for each key with its
value, and an empty line before the next header.  The values that are written here
are texts, natural numbers and truth values, and all keys are bare.

A text may stand in any of the four kinds of quotes that can hold it.  Between
single quotes nothing is escaped, so they cannot hold a control character or the
quotes that end them.  Between double quotes the quote, the backslash and control
characters are escaped; a text of several lines keeps its line ends, and of its
quotes only each third one in a row is escaped.  A text with line ends starts on a
line of its own.

Which kind of quotes a text gets is a matter of style.  The preferred one is the
first that needs no escape.

* `Quoting`, `Quoting.write`: the kinds of quotes.
* `Style`: a choice of quotes for every text.
* `Block.write`, `document`: a table and a document.
-/

namespace ShardLoad.Toml

/-! ## Texts -/

/-- The kinds of quotes that a text can stand in. -/
inductive Quoting where
  /-- One line between double quotes. -/
  | basic
  /-- One line between single quotes. -/
  | literal
  /-- Several lines between three double quotes. -/
  | basicLines
  /-- Several lines between three single quotes. -/
  | literalLines
  deriving Repr, DecidableEq

/-- A hexadecimal digit, capital letters past nine. -/
def hexDigit (n : Nat) : Char := Char.ofNat (if n < 10 then 48 + n else 55 + n)

/-- A character as it stands between double quotes. -/
def escapeChar (c : Char) : List Char :=
  match c with
  | '"' => ['\\', '"']
  | '\\' => ['\\', '\\']
  | '\x08' => ['\\', 'b']
  | '\t' => ['\\', 't']
  | '\n' => ['\\', 'n']
  | '\x0c' => ['\\', 'f']
  | '\r' => ['\\', 'r']
  | c =>
    if isControl c then
      ['\\', 'u', '0', '0', hexDigit (c.toNat / 16), hexDigit (c.toNat % 16)]
    else [c]

/-- A text of several lines between double quotes, when `run` quotes stand directly
before it. -/
def escapeLines : (run : Nat) → List Char → List Char
  | _, [] => []
  | run, c :: cs =>
    if c = '"' then
      if run = 2 then '\\' :: '"' :: escapeLines 0 cs else '"' :: escapeLines (run + 1) cs
    else if c = '\n' then '\n' :: escapeLines 0 cs
    else escapeChar c ++ escapeLines 0 cs

/-- Whether no three quotes of a kind stand in a row in a text that comes directly
after `run` of them. -/
def noTriple (quote : Char) : (run : Nat) → List Char → Bool
  | _, [] => true
  | run, c :: cs =>
    if c = quote then decide (run < 2) && noTriple quote (run + 1) cs else noTriple quote 0 cs

/-- The line end that a text with line ends starts behind. -/
def opening (cs : List Char) : List Char := if cs.contains '\n' then ['\n'] else []

/-- A text in quotes of some kind. -/
def Quoting.write : Quoting → List Char → List Char
  | basic, cs => '"' :: cs.flatMap escapeChar ++ ['"']
  | literal, cs => '\'' :: cs ++ ['\'']
  | basicLines, cs => ['"', '"', '"'] ++ opening cs ++ escapeLines 0 cs ++ ['"', '"', '"']
  | literalLines, cs => ['\'', '\'', '\''] ++ opening cs ++ cs ++ ['\'', '\'', '\'']

/-- Whether a text can stand in quotes of some kind. -/
def Quoting.fits : Quoting → List Char → Bool
  | basic, _ => true
  | literal, cs => cs.all fun c => !isControl c && c != '\''
  | basicLines, _ => true
  | literalLines, cs => (cs.all fun c => !isControl c || c == '\n') && noTriple '\'' 0 cs

/-- The quotes that a text gets unless there is a reason for others: the first ones
that need no escape, and double ones if there are none. -/
def Quoting.preferred (cs : List Char) : Quoting :=
  let lines := cs.contains '\n'
  let bare := cs.all fun c => !isControl c || c == '\n'
  if bare && !lines && !cs.contains '\\' && !cs.contains '"' then basic
  else if bare && !lines && !cs.contains '\'' then literal
  else if bare && !cs.contains '\\' && noTriple '"' 0 cs then basicLines
  else if bare && noTriple '\'' 0 cs then literalLines
  else if lines then basicLines
  else basic

/-- The preferred quotes can hold their text. -/
theorem Quoting.fits_preferred (cs : List Char) : (preferred cs).fits cs = true := by
  simp only [preferred]
  split
  · rfl
  · split
    · rename_i h
      simp only [Bool.and_eq_true, Bool.not_eq_true', List.all_eq_true, List.contains_eq_mem,
        decide_eq_false_iff_not] at h
      obtain ⟨⟨hbare, hlines⟩, hquote⟩ := h
      rw [fits, List.all_eq_true]
      intro c hc
      have hn : c ≠ '\n' := fun he => hlines (he ▸ hc)
      have hq : c ≠ '\'' := fun he => hquote (he ▸ hc)
      simpa [hn, hq] using hbare c hc
    · split
      · rfl
      · split
        · assumption
        · split <;> rfl

/-- A choice of quotes for every text. -/
structure Style where
  quoting : List Char → Quoting
  fits : ∀ cs, (quoting cs).fits cs = true

/-- The style in which every text gets its preferred quotes. -/
def Style.preferred : Style := ⟨Quoting.preferred, Quoting.fits_preferred⟩

/-! ## Documents -/

/-- A value that is written on the line of its key. -/
inductive Plain where
  | text (s : String)
  | number (n : Nat)
  | truth (b : Bool)
  deriving Repr, DecidableEq

/-- The value that is meant. -/
def Plain.scalar : Plain → Scalar
  | text s => .string s
  | number n => .int n
  | truth b => .bool b

/-- A value as it is written. -/
def Plain.write (style : Style) : Plain → List Char
  | text s => (style.quoting s.toList).write s.toList
  | number n => Nat.toDigits 10 n
  | truth true => ['t', 'r', 'u', 'e']
  | truth false => ['f', 'a', 'l', 's', 'e']

/-- A table of a document, or a table of an array of tables. -/
structure Block where
  isElement : Bool
  name : String
  /-- Keys with their values, in the order of their lines. -/
  entries : List (String × Plain)
  deriving Repr, DecidableEq

/-- The line of a key. -/
def entryLine (style : Style) (entry : String × Plain) : List Char :=
  entry.1.toList ++ [' ', '=', ' '] ++ entry.2.write style

/-- The line of a header. -/
def Block.header (b : Block) : List Char :=
  if b.isElement then ['[', '['] ++ b.name.toList ++ [']', ']'] else '[' :: b.name.toList ++ [']']

/-- The lines of a table. -/
def Block.lines (style : Style) (b : Block) : List (List Char) :=
  b.header :: b.entries.map (entryLine style)

/-- The lines of tables, with an empty line before each but the first. -/
def blockLines (style : Style) : List Block → List (List Char)
  | [] => []
  | b :: bs => b.lines style ++ bs.flatMap fun b => [] :: b.lines style

/-- The document that consists of tables. -/
def document (style : Style) (bs : List Block) : String :=
  String.ofList ((blockLines style bs).flatMap fun line => line ++ ['\n'])

end ShardLoad.Toml
