import ShardLoad.Json.Value
import ShardLoad.Toml.Number
import ShardLoad.Toml.Quoted

/-!
# Reading JSON

A JSON text is one value, with white space around it and between its tokens.

A number with neither a fraction nor an exponent is an integer, of any size; every
other number is the decimal that was written, and so is `-0`, which no integer is.
A number has no leading zero, and digits on both sides of its point.

In a string a character may be written as `\u` with four hexadecimal digits.  One
past the sixteen bits of such an escape takes two of them, a high half and a low
half; a half that stands alone is refused, and so is a control character that is
not escaped.

An object keeps its members in the order of the text.  Arrays and objects are
nested at most 127 deep.

* `string?`, `number?`, `value?`: the tokens and the values.
* `parse?`: the value of a text.
-/

namespace ShardLoad.Json

open Toml (hexValue? signed withSign)

/-- White space between tokens. -/
def isGap (c : Char) : Bool := c == ' ' || c == '\n' || c == '\r' || c == '\t'

/-- What follows the white space at the start. -/
def skipGap (cs : List Char) : List Char := cs.dropWhile isGap

/-! ## Strings -/

/-- The character of a one-letter escape. -/
def escape? : Char → Option Char
  | '"' => some '"'
  | '\\' => some '\\'
  | '/' => some '/'
  | 'b' => some '\x08'
  | 'f' => some '\x0c'
  | 'n' => some '\n'
  | 'r' => some '\r'
  | 't' => some '\t'
  | _ => none

/-- The number of a hexadecimal code. -/
def code? (digits : List Char) : Option Nat :=
  digits.foldlM (fun n c => (hexValue? c).map (16 * n + ·)) 0

/-- Puts the number of a character, or of a half of one, in front of what was read. -/
def put (n : Nat) : Option (List Nat × List Char) → Option (List Nat × List Char) :=
  Option.map fun (ns, rest) => (n :: ns, rest)

/-- The numbers of the characters up to the closing quote, and what follows it.  A
character may be there as two halves. -/
def codes? : List Char → Option (List Nat × List Char)
  | [] => none
  | '"' :: rest => some ([], rest)
  | '\\' :: 'u' :: a :: b :: c :: d :: rest =>
    (code? [a, b, c, d]).bind fun n => put n (codes? rest)
  | '\\' :: c :: rest => (escape? c).bind fun x => put x.toNat (codes? rest)
  | c :: rest => if c.toNat < 32 || c == '\\' then none else put c.toNat (codes? rest)

/-- The characters of their numbers, with halves joined. -/
def joined? : List Nat → Option (List Char)
  | [] => some []
  | n :: rest =>
    if 0xD800 ≤ n ∧ n < 0xDC00 then
      match rest with
      | [] => none
      | m :: rest =>
        if 0xDC00 ≤ m ∧ m < 0xE000 then
          (joined? rest).map (Char.ofNat (0x10000 + 0x400 * (n - 0xD800) + (m - 0xDC00)) :: ·)
        else none
    else if 0xDC00 ≤ n ∧ n < 0xE000 then none
    else (joined? rest).map (Char.ofNat n :: ·)

/-- The rest of a string, up to its closing quote, and what follows it. -/
def string? (cs : List Char) : Option (String × List Char) := do
  let (codes, rest) ← codes? cs
  let cs ← joined? codes
  some (String.ofList cs, rest)

/-! ## Numbers -/

/-- The digits at the start, of which there is at least one, and what follows. -/
def digits? (cs : List Char) : Option (List Char × List Char) :=
  let ds := cs.takeWhile Char.isDigit
  if ds.isEmpty then none else some (ds, cs.dropWhile Char.isDigit)

/-- The digits before the point, which have no leading zero. -/
def whole? (cs : List Char) : Option (List Char × List Char) := do
  let (ds, rest) ← digits? cs
  if ds.head? = some '0' ∧ ds.length ≠ 1 then none else some (ds, rest)

/-- The digits behind the point, if there is one. -/
def fraction? : List Char → Option (List Char × List Char)
  | '.' :: cs => digits? cs
  | cs => some ([], cs)

/-- The exponent, if there is one. -/
def exponent? : List Char → Option (Option Int × List Char)
  | [] => some (none, [])
  | c :: cs =>
    if c = 'e' ∨ c = 'E' then do
      let (negative, cs) := signed cs
      let (ds, rest) ← digits? cs
      some (some (withSign negative (Nat.ofDigitChars 10 ds 0)), rest)
    else some (none, c :: cs)

/-- The number of a sign, digits and an exponent. -/
def ofDigits (negative : Bool) (whole fraction : List Char) (exponent : Option Int) : Json :=
  let n := Nat.ofDigitChars 10 (whole ++ fraction) 0
  if fraction.isEmpty && exponent.isNone && !(negative && n == 0) then .int (withSign negative n)
  else .decimal ⟨negative, n, exponent.getD 0 - fraction.length⟩

/-- A minus sign and what follows it. -/
def minus : List Char → Bool × List Char
  | '-' :: rest => (true, rest)
  | cs => (false, cs)

/-- A number and what follows it. -/
def number? (cs : List Char) : Option (Json × List Char) := do
  let (negative, cs) := minus cs
  let (whole, rest) ← whole? cs
  let (fraction, rest) ← fraction? rest
  let (exponent, rest) ← exponent? rest
  some (ofDigits negative whole fraction exponent, rest)

/-! ## Values -/

/-- A value that holds no other value, and what follows it. -/
def scalar? : List Char → Option (Json × List Char)
  | 'n' :: 'u' :: 'l' :: 'l' :: rest => some (.null, rest)
  | 't' :: 'r' :: 'u' :: 'e' :: rest => some (.bool true, rest)
  | 'f' :: 'a' :: 'l' :: 's' :: 'e' :: rest => some (.bool false, rest)
  | '"' :: rest => (string? rest).map fun (s, rest) => (.string s, rest)
  | cs => number? cs

/-- The items of an array that has some, and what follows its closing bracket.
`item` reads one item; `count` bounds their number. -/
def items? (item : List Char → Option (Json × List Char)) :
    (count : Nat) → List Char → Option (List Json × List Char)
  | 0, _ => none
  | count + 1, cs => do
    let (value, rest) ← item cs
    match skipGap rest with
    | ']' :: rest => some ([value], rest)
    | ',' :: rest => do
      let (values, rest) ← items? item count rest
      some (value :: values, rest)
    | _ => none

/-- A name with its value, and what follows them. -/
def member? (item : List Char → Option (Json × List Char)) (cs : List Char) :
    Option ((String × Json) × List Char) :=
  match skipGap cs with
  | '"' :: rest => do
    let (name, rest) ← string? rest
    match skipGap rest with
    | ':' :: rest => do
      let (value, rest) ← item rest
      some ((name, value), rest)
    | _ => none
  | _ => none

/-- The members of an object that has some, and what follows its closing brace. -/
def members? (item : List Char → Option (Json × List Char)) :
    (count : Nat) → List Char → Option (List (String × Json) × List Char)
  | 0, _ => none
  | count + 1, cs => do
    let (member, rest) ← member? item cs
    match skipGap rest with
    | '}' :: rest => some ([member], rest)
    | ',' :: rest => do
      let (members, rest) ← members? item count rest
      some (member :: members, rest)
    | _ => none

/-- An array, behind its opening bracket, and what follows it. -/
def array? (item : List Char → Option (Json × List Char)) (cs : List Char) :
    Option (Json × List Char) :=
  match skipGap cs with
  | ']' :: rest => some (.array [], rest)
  | _ => (items? item cs.length cs).map fun (values, rest) => (.array values, rest)

/-- An object, behind its opening brace, and what follows it. -/
def object? (item : List Char → Option (Json × List Char)) (cs : List Char) :
    Option (Json × List Char) :=
  match skipGap cs with
  | '}' :: rest => some (.object [], rest)
  | _ => (members? item cs.length cs).map fun (members, rest) => (.object members, rest)

/-- A value and what follows it.  Arrays and objects are nested at most `depth`
deep. -/
def value? : (depth : Nat) → List Char → Option (Json × List Char)
  | 0, cs => scalar? (skipGap cs)
  | depth + 1, cs =>
    match skipGap cs with
    | '[' :: rest => array? (value? depth) rest
    | '{' :: rest => object? (value? depth) rest
    | cs => scalar? cs

/-- How deep arrays and objects may be nested. -/
def maxDepth : Nat := 127

/-- The value of a text. -/
def parse? (text : String) : Option Json := do
  let (value, rest) ← value? maxDepth text.toList
  if (skipGap rest).isEmpty then some value else none

end ShardLoad.Json
