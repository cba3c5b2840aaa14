/-!
# Quoted strings

Four kinds of quotes.  Between double quotes a backslash starts an escape;
between single quotes every character stands for itself.  Three quotes of either
kind enclose a text of several lines, whose first line end is dropped if it comes
right after the opening.  Up to two quotes may stand directly before the closing
ones and belong to the text.

In a text of several lines between double quotes, a backslash at the end of a
line takes away the line end and all white space up to the next character.

A control character other than the tab must be escaped.

Each reader starts after the opening quotes and returns the text with what
follows the closing quotes, or `none`.
-/

namespace ShardLoad.Toml

/-- Characters that never stand for themselves in a string or a comment. -/
def isControl (c : Char) : Bool := (c.toNat < 32 && c != '\t') || c.toNat == 127

/-- The value of a hexadecimal digit. -/
def hexValue? (c : Char) : Option Nat :=
  let n := c.toNat
  if 48 ≤ n ∧ n ≤ 57 then some (n - 48)
  else if 65 ≤ n ∧ n ≤ 70 then some (n - 55)
  else if 97 ≤ n ∧ n ≤ 102 then some (n - 87)
  else none

/-- The character of a hexadecimal code, which must be a scalar value. -/
def charOfHex? (digits : List Char) : Option Char := do
  let n ← digits.foldlM (fun n c => (hexValue? c).map (16 * n + ·)) 0
  if n < 0xD800 ∨ (0xE000 ≤ n ∧ n < 0x110000) then some (Char.ofNat n) else none

/-- The character of a one-letter escape. -/
def escape? : Char → Option Char
  | 'b' => some '\x08'
  | 't' => some '\t'
  | 'n' => some '\n'
  | 'f' => some '\x0c'
  | 'r' => some '\r'
  | 'e' => some '\x1b'
  | '"' => some '"'
  | '\\' => some '\\'
  | _ => none

/-- Puts a character in front of a text that was read. -/
def put (c : Char) : Option (List Char × List Char) → Option (List Char × List Char) :=
  Option.map fun (cs, rest) => (c :: cs, rest)

/-- The rest of a one-line string between double quotes. -/
def basic : List Char → Option (List Char × List Char)
  | [] => none
  | '"' :: rest => some ([], rest)
  | '\\' :: 'x' :: a :: b :: rest => (charOfHex? [a, b]).bind fun x => put x (basic rest)
  | '\\' :: 'u' :: a :: b :: c :: d :: rest =>
    (charOfHex? [a, b, c, d]).bind fun x => put x (basic rest)
  | '\\' :: 'U' :: a :: b :: c :: d :: e :: f :: g :: h :: rest =>
    (charOfHex? [a, b, c, d, e, f, g, h]).bind fun x => put x (basic rest)
  | '\\' :: c :: rest => (escape? c).bind fun x => put x (basic rest)
  | c :: rest => if isControl c || c == '\\' then none else put c (basic rest)

/-- The rest of a one-line string between single quotes. -/
def literal : List Char → Option (List Char × List Char)
  | [] => none
  | '\'' :: rest => some ([], rest)
  | c :: rest => if isControl c then none else put c (literal rest)

/-- Where a reader of several lines stands: in the text, after a backslash that
must be the last of its line, or in the white space after such a line. -/
inductive LineState where
  | text
  | lineEnd
  | fold
  deriving Repr, DecidableEq

/-- The rest of a string of several lines between double quotes. -/
def basicLines : LineState → List Char → Option (List Char × List Char)
  | _, [] => none
  | .lineEnd, '\n' :: rest => basicLines .fold rest
  | .lineEnd, '\r' :: '\n' :: rest => basicLines .fold rest
  | .lineEnd, c :: rest => if c == ' ' || c == '\t' then basicLines .lineEnd rest else none
  | .fold, '\n' :: rest => basicLines .fold rest
  | .fold, '\r' :: '\n' :: rest => basicLines .fold rest
  | .fold, ' ' :: rest => basicLines .fold rest
  | .fold, '\t' :: rest => basicLines .fold rest
  | _, '"' :: '"' :: '"' :: '"' :: '"' :: rest => some (['"', '"'], rest)
  | _, '"' :: '"' :: '"' :: '"' :: rest => some (['"'], rest)
  | _, '"' :: '"' :: '"' :: rest => some ([], rest)
  | _, '\r' :: '\n' :: rest => put '\r' (put '\n' (basicLines .text rest))
  | _, '\n' :: rest => put '\n' (basicLines .text rest)
  | _, '\\' :: '\n' :: rest => basicLines .fold rest
  | _, '\\' :: '\r' :: '\n' :: rest => basicLines .fold rest
  | _, '\\' :: ' ' :: rest => basicLines .lineEnd rest
  | _, '\\' :: '\t' :: rest => basicLines .lineEnd rest
  | _, '\\' :: 'x' :: a :: b :: rest =>
    (charOfHex? [a, b]).bind fun x => put x (basicLines .text rest)
  | _, '\\' :: 'u' :: a :: b :: c :: d :: rest =>
    (charOfHex? [a, b, c, d]).bind fun x => put x (basicLines .text rest)
  | _, '\\' :: 'U' :: a :: b :: c :: d :: e :: f :: g :: h :: rest =>
    (charOfHex? [a, b, c, d, e, f, g, h]).bind fun x => put x (basicLines .text rest)
  | _, '\\' :: c :: rest => (escape? c).bind fun x => put x (basicLines .text rest)
  | _, c :: rest => if isControl c || c == '\\' then none else put c (basicLines .text rest)

/-- The rest of a string of several lines between single quotes. -/
def literalLines : List Char → Option (List Char × List Char)
  | [] => none
  | '\'' :: '\'' :: '\'' :: '\'' :: '\'' :: rest => some (['\'', '\''], rest)
  | '\'' :: '\'' :: '\'' :: '\'' :: rest => some (['\''], rest)
  | '\'' :: '\'' :: '\'' :: rest => some ([], rest)
  | '\r' :: '\n' :: rest => put '\r' (put '\n' (literalLines rest))
  | '\n' :: rest => put '\n' (literalLines rest)
  | c :: rest => if isControl c then none else put c (literalLines rest)

/-- The document without a line end at its start. -/
def dropLineEnd : List Char → List Char
  | '\n' :: rest => rest
  | '\r' :: '\n' :: rest => rest
  | cs => cs

/-- A string in any of the four kinds of quotes. -/
def quoted? : List Char → Option (String × List Char)
  | '"' :: '"' :: '"' :: rest =>
    (basicLines .text (dropLineEnd rest)).map fun (cs, rest) => (String.ofList cs, rest)
  | '"' :: rest => (basic rest).map fun (cs, rest) => (String.ofList cs, rest)
  | '\'' :: '\'' :: '\'' :: rest =>
    (literalLines (dropLineEnd rest)).map fun (cs, rest) => (String.ofList cs, rest)
  | '\'' :: rest => (literal rest).map fun (cs, rest) => (String.ofList cs, rest)
  | _ => none

end ShardLoad.Toml
