import ShardLoad.Toml.Moment
import ShardLoad.Toml.Quoted
import ShardLoad.Toml.Tree

/-!
# Documents

A document is a sequence of statements, one to a line: a header `[a.b]`, a header
`[[a.b]]` of an array of tables, or a key with its value.  Blank lines, comments
and white space at the ends of a line mean nothing.  Inside an array or an inline
table the value goes on over several lines, with comments between its items and a
comma after the last item if one likes.

* `Statement`: what one line says.
* `node?`: a value, with a bound on how deep arrays and inline tables are nested.
* `statements?`: the statements of a document.
* `read?`: the table that a document describes, or `none` if it is no TOML.
-/

namespace ShardLoad.Toml

/-- White space inside a line. -/
def isSpace (c : Char) : Bool := c == ' ' || c == '\t'

/-- What follows the white space at the start. -/
def skipSpace (cs : List Char) : List Char := cs.dropWhile isSpace

/-- What follows white space, line ends and comments.  `inComment` says whether
the text starts inside a comment. -/
def skipGap? (inComment : Bool) : List Char → Option (List Char)
  | [] => some []
  | '\n' :: rest => skipGap? false rest
  | '\r' :: '\n' :: rest => skipGap? false rest
  | c :: rest =>
    if inComment then if isControl c then none else skipGap? true rest
    else if isSpace c then skipGap? false rest
    else if c = '#' then skipGap? true rest
    else some (c :: rest)

/-- What follows the end of a line, before which there may be a comment. -/
def endLine? (inComment : Bool) : List Char → Option (List Char)
  | [] => some []
  | '\n' :: rest => some rest
  | '\r' :: '\n' :: rest => some rest
  | c :: rest =>
    if inComment then if isControl c then none else endLine? true rest
    else if isSpace c then endLine? false rest
    else if c = '#' then endLine? true rest
    else none

/-- An ASCII letter or digit, `-` or `_`. -/
def isKeyChar (c : Char) : Bool := c.isAlphanum || c == '-' || c == '_'

/-- One part of a key: bare, or in quotes of one line. -/
def keyPart? : List Char → Option (String × List Char)
  | '"' :: rest => (basic rest).map fun (cs, rest) => (String.ofList cs, rest)
  | '\'' :: rest => (literal rest).map fun (cs, rest) => (String.ofList cs, rest)
  | cs =>
    let word := cs.takeWhile isKeyChar
    if word.isEmpty then none else some (String.ofList word, cs.dropWhile isKeyChar)

/-- A key of at most `parts` parts with dots between them, and what follows the
white space after it. -/
def keyParts? : (parts : Nat) → List Char → Option (List String × List Char)
  | 0, _ => none
  | parts + 1, cs => do
    let (part, rest) ← keyPart? cs
    match skipSpace rest with
    | '.' :: rest =>
      let (key, rest) ← keyParts? parts (skipSpace rest)
      some (part :: key, rest)
    | rest => some ([part], rest)

/-- How many parts a key may have. -/
def maxKeyParts : Nat := 80

/-- A key, and what follows the white space after it. -/
def key? (cs : List Char) : Option (List String × List Char) := keyParts? maxKeyParts cs

/-- Characters of a bare value: all that do not end it. -/
def isWordChar (c : Char) : Bool :=
  !(isSpace c || c == '\r' || c == '\n' || c == '#' || c == ',' || c == '=' ||
    c == '[' || c == ']' || c == '{' || c == '}')

/-- A bare value and what follows it.  A date and a time after one blank are one
value. -/
def word (cs : List Char) : List Char × List Char :=
  let first := cs.takeWhile isWordChar
  let rest := cs.dropWhile isWordChar
  match rest with
  | ' ' :: d :: more =>
    if date? first = some [] ∧ isDigit d then
      (first ++ ' ' :: (d :: more).takeWhile isWordChar, (d :: more).dropWhile isWordChar)
    else (first, rest)
  | _ => (first, rest)

/-- What a bare value means. -/
def Scalar.ofWord? (word : List Char) : Option Scalar :=
  if word = ['t', 'r', 'u', 'e'] then some (.bool true)
  else if word = ['f', 'a', 'l', 's', 'e'] then some (.bool false)
  else match integer? word, float? word with
    | some n, _ => some n
    | none, some x => some (.float x)
    | none, none => if isMoment word then some (.moment (String.ofList word)) else none

/-- A string or a bare value. -/
def scalar? (cs : List Char) : Option (Scalar × List Char) :=
  match cs with
  | '"' :: _ => (quoted? cs).map fun (s, rest) => (.string s, rest)
  | '\'' :: _ => (quoted? cs).map fun (s, rest) => (.string s, rest)
  | _ =>
    let (w, rest) := word cs
    (Scalar.ofWord? w).map fun s => (s, rest)

/-- The items of an array and what follows its closing bracket.  `item` reads one
item; `count` bounds their number. -/
def items? (item : List Char → Option (Node × List Char)) :
    (count : Nat) → List Char → Option (List Node × List Char)
  | count, cs => do
    match ← skipGap? false cs with
    | ']' :: rest => some ([], rest)
    | cs =>
      let (node, rest) ← item cs
      match count, ← skipGap? false rest with
      | _, ']' :: rest => some ([node], rest)
      | count + 1, ',' :: rest =>
        let (nodes, rest) ← items? item count rest
        some (node :: nodes, rest)
      | _, _ => none

/-- A key with its value, and what follows them. -/
def pair? (item : List Char → Option (Node × List Char)) (cs : List Char) :
    Option ((List String × Node) × List Char) := do
  let (key, rest) ← key? cs
  match rest with
  | '=' :: rest =>
    let (node, rest) ← item (skipSpace rest)
    some ((key, node), rest)
  | _ => none

/-- The pairs of an inline table, and what follows its closing brace. -/
def pairs? (item : List Char → Option (Node × List Char)) :
    (count : Nat) → List Char → Option (List (List String × Node) × List Char)
  | count, cs => do
    match ← skipGap? false cs with
    | '}' :: rest => some ([], rest)
    | cs =>
      let (pair, rest) ← pair? item cs
      match count, ← skipGap? false rest with
      | _, '}' :: rest => some ([pair], rest)
      | count + 1, ',' :: rest =>
        let (pairs, rest) ← pairs? item count rest
        some (pair :: pairs, rest)
      | _, _ => none

/-- The inline table that holds the given pairs. -/
def Node.ofPairs? (pairs : List (List String × Node)) : Option Node :=
  (pairs.foldlM (fun members (key, node) => assign? key node .declared members) []).map
    (.table .closed ·)

/-- A value and what follows it.  Arrays and inline tables are nested at most
`depth` deep. -/
def node? : (depth : Nat) → List Char → Option (Node × List Char)
  | 0, cs => (scalar? cs).map fun (s, rest) => (.scalar s, rest)
  | depth + 1, cs =>
    match cs with
    | '[' :: rest => (items? (node? depth) rest.length rest).map fun (nodes, rest) =>
        (.array nodes, rest)
    | '{' :: rest => do
      let (pairs, rest) ← pairs? (node? depth) rest.length rest
      let node ← Node.ofPairs? pairs
      some (node, rest)
    | _ => (scalar? cs).map fun (s, rest) => (.scalar s, rest)

/-- How deep arrays and inline tables may be nested. -/
def maxDepth : Nat := 80

/-- What one line of a document says. -/
inductive Statement where
  /-- `[key]` -/
  | header (key : List String)
  /-- `[[key]]` -/
  | element (key : List String)
  /-- `key = value` -/
  | pair (key : List String) (node : Node)
  deriving Repr

/-- The statement at the start of a text. -/
def statement? : List Char → Option (Statement × List Char)
  | '[' :: '[' :: cs => do
    match ← key? (skipSpace cs) with
    | (key, ']' :: ']' :: rest) => some (.element key, rest)
    | _ => none
  | '[' :: cs => do
    match ← key? (skipSpace cs) with
    | (key, ']' :: rest) => some (.header key, rest)
    | _ => none
  | cs => do
    let ((key, node), rest) ← pair? (node? maxDepth) cs
    some (.pair key node, rest)

/-- At most `count` statements, which fill the whole text. -/
def statementsUpTo? : (count : Nat) → List Char → Option (List Statement)
  | 0, cs => do
    match ← skipGap? false cs with
    | [] => some []
    | _ => none
  | count + 1, cs => do
    match ← skipGap? false cs with
    | [] => some []
    | cs =>
      let (s, rest) ← statement? cs
      let rest ← endLine? false rest
      (statementsUpTo? count rest).map (s :: ·)

/-- The statements of a document, in order.  A byte order mark at its start is
skipped. -/
def statements? (text : String) : Option (List Statement) :=
  let cs := match text.toList with
    | '\uFEFF' :: cs => cs
    | cs => cs
  statementsUpTo? cs.length cs

/-- What a statement does to the document's table, when `here` is the latest
header.  The new latest header comes with the table. -/
def Statement.apply? (here : List String) (root : Keyed Node) :
    Statement → Option (List String × Keyed Node)
  | header key => (declare? key root).map (key, ·)
  | element key => (append? key root).map (key, ·)
  | pair key node => (assignBelow? here key node root).map (here, ·)

/-- The table that a document describes. -/
def read? (text : String) : Option (Keyed Value) := do
  let statements ← statements? text
  let (_, root) ← statements.foldlM (fun (here, root) s => s.apply? here root) ([], [])
  some (Node.memberValues root)

end ShardLoad.Toml
