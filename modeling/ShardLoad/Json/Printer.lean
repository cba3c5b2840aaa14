import ShardLoad.Json.Value
import ShardLoad.Decimal.Layout

/-!
# Printed JSON

Two forms.  The compact form has no white space.  The pretty form puts each
item and each member on a line of its own, indented by two blanks for each level
it is nested, with a blank after the colon; an empty array or object stays
`[]` or `{}`.

In a string the quote, the backslash and the control characters are escaped,
the last by their short names where they have one and by four digits otherwise;
every other character stands for itself.

* `compact`, `pretty`: the two forms.
* `quote`: a string between its quotes.
-/

namespace ShardLoad.Json

/-- A hexadecimal digit, small letters past nine. -/
def hexDigit (n : Nat) : Char :=
  if n < 10 then Char.ofNat (48 + n) else Char.ofNat (87 + n)

/-- A character as it stands in a string. -/
def escapeChar (c : Char) : List Char :=
  match c with
  | '"' => ['\\', '"']
  | '\\' => ['\\', '\\']
  | '\x08' => ['\\', 'b']
  | '\x0c' => ['\\', 'f']
  | '\n' => ['\\', 'n']
  | '\r' => ['\\', 'r']
  | '\t' => ['\\', 't']
  | c =>
    if c.toNat < 32 then
      ['\\', 'u', '0', '0', hexDigit (c.toNat / 16), hexDigit (c.toNat % 16)]
    else [c]

/-- A string between its quotes. -/
def quote (s : String) : List Char := '"' :: s.toList.flatMap escapeChar ++ ['"']

/-- The text of an integer. -/
def intChars (n : Int) : List Char :=
  if n < 0 then '-' :: Nat.toDigits 10 n.natAbs else Nat.toDigits 10 n.natAbs

/-- The text of a value that holds no other value. -/
def scalar : Json → List Char
  | .null => ['n', 'u', 'l', 'l']
  | .bool true => ['t', 'r', 'u', 'e']
  | .bool false => ['f', 'a', 'l', 's', 'e']
  | .int n => intChars n
  | .decimal d => (Decimal.write .json d).toList
  | .string s => quote s
  | .array _ => []
  | .object _ => []

/-! ## The compact form -/

mutual
/-- A value without white space, in front of what follows it. -/
def compactOnto : Json → List Char → List Char
  | .array items, rest => '[' :: compactItems items (']' :: rest)
  | .object members, rest => '{' :: compactMembers members ('}' :: rest)
  | value, rest => scalar value ++ rest

/-- Items with commas between them, in front of what follows. -/
def compactItems : List Json → List Char → List Char
  | [], rest => rest
  | [item], rest => compactOnto item rest
  | item :: items, rest => compactOnto item (',' :: compactItems items rest)

/-- Members with commas between them, in front of what follows. -/
def compactMembers : List (String × Json) → List Char → List Char
  | [], rest => rest
  | [(name, value)], rest => quote name ++ ':' :: compactOnto value rest
  | (name, value) :: members, rest =>
    quote name ++ ':' :: compactOnto value (',' :: compactMembers members rest)
end

/-- The compact form of a value. -/
def compact (value : Json) : String := String.ofList (compactOnto value [])

/-! ## The pretty form -/

/-- The start of a line at a level. -/
def indent (level : Nat) : List Char := '\n' :: List.replicate (2 * level) ' '

mutual
/-- A value whose lines are nested at a level, in front of what follows it. -/
def prettyOnto (level : Nat) : Json → List Char → List Char
  | .array [], rest => '[' :: ']' :: rest
  | .array (item :: items), rest =>
    '[' :: indent (level + 1) ++ prettyOnto (level + 1) item
      (prettyItems (level + 1) items (indent level ++ ']' :: rest))
  | .object [], rest => '{' :: '}' :: rest
  | .object ((name, value) :: members), rest =>
    '{' :: indent (level + 1) ++ quote name ++ ':' :: ' ' :: prettyOnto (level + 1) value
      (prettyMembers (level + 1) members (indent level ++ '}' :: rest))
  | value, rest => scalar value ++ rest

/-- Further items, each after a comma and on a line of its own. -/
def prettyItems (level : Nat) : List Json → List Char → List Char
  | [], rest => rest
  | item :: items, rest =>
    ',' :: indent level ++ prettyOnto level item (prettyItems level items rest)

/-- Further members, each after a comma and on a line of its own. -/
def prettyMembers (level : Nat) : List (String × Json) → List Char → List Char
  | [], rest => rest
  | (name, value) :: members, rest =>
    ',' :: indent level ++ quote name ++ ':' :: ' ' :: prettyOnto level value
      (prettyMembers level members rest)
end

/-- The pretty form of a value. -/
def pretty (value : Json) : String := String.ofList (prettyOnto 0 value [])

end ShardLoad.Json
