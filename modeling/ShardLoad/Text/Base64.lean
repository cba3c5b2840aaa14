import ShardLoad.Bytes

/-!
# Base64

The standard alphabet with padding required.  Three octets are four symbols;
one or two octets left over are two or three symbols and `=` up to four.  Each
octet string has one written form: `decode` refuses missing padding, padding in
any other place and a last symbol whose unused bits are not zero.

The causes of refusal name the first octet of the text that cannot stand where
it stands.  One octet past a whole number of quads is looked at first when it
is no symbol at all, for then a stray line end is the likely fault.

* `encode`, `decode`: the two directions.
* `DecodeError.message`: the wording of each refusal.
-/

namespace ShardLoad.Base64

/-- Why a text is not the padded Base64 form of any octets. -/
inductive DecodeError where
  /-- An octet that may not stand at this offset. -/
  | invalidSymbol (symbol : UInt8) (offset : Nat)
  /-- A last symbol with bits that no octet takes. -/
  | invalidLastSymbol (symbol : UInt8) (offset : Nat)
  /-- One symbol past the last whole quad. -/
  | invalidLength (length : Nat)
  /-- Symbols and padding that do not fill a quad. -/
  | invalidPadding
  deriving Repr, DecidableEq

/-- The wording of a refusal. -/
def DecodeError.message : DecodeError → String
  | .invalidSymbol b n => s!"Invalid symbol {b.toNat}, offset {n}."
  | .invalidLastSymbol b n => s!"Invalid last symbol {b.toNat}, offset {n}."
  | .invalidLength n => s!"Invalid input length: {n}"
  | .invalidPadding => "Invalid padding"

/-- The padding octet, `=`. -/
def pad : UInt8 := 61

/-- The symbol of a six-bit value: capitals, small letters, digits, `+`, `/`. -/
def symbol (v : Nat) : UInt8 :=
  if v < 26 then (65 + v).toUInt8
  else if v < 52 then (71 + v).toUInt8
  else if v < 62 then (v - 4).toUInt8
  else if v = 62 then 43
  else 47

/-- The six-bit value of a symbol. -/
def value? (b : UInt8) : Option Nat :=
  let n := b.toNat
  if 65 ≤ n ∧ n ≤ 90 then some (n - 65)
  else if 97 ≤ n ∧ n ≤ 122 then some (n - 71)
  else if 48 ≤ n ∧ n ≤ 57 then some (n + 4)
  else if n = 43 then some 62
  else if n = 47 then some 63
  else none

/-- Symbols are read back as the values they stand for. -/
theorem value?_symbol : ∀ v < 64, value? (symbol v) = some v := by decide

theorem symbol_value?_octet : ∀ n < 256, ∀ v ∈ value? n.toUInt8,
    v < 64 ∧ symbol v = n.toUInt8 := by decide +kernel

/-- Only a symbol has a value, and it is the symbol of that value. -/
theorem symbol_of_value? {b : UInt8} {v : Nat} (h : value? b = some v) :
    v < 64 ∧ symbol v = b := by
  have := symbol_value?_octet b.toNat b.toNat_lt v (by simpa using h)
  simpa using this

/-! ## Writing -/

/-- The symbols of an octet string, three octets at a time. -/
def encodeOctets : Bytes → Bytes
  | [] => []
  | [a] =>
    let a := a.toNat
    [symbol (a / 4), symbol (a % 4 * 16), pad, pad]
  | [a, b] =>
    let a := a.toNat
    let b := b.toNat
    [symbol (a / 4), symbol (a % 4 * 16 + b / 16), symbol (b % 16 * 4), pad]
  | a :: b :: c :: rest =>
    let a := a.toNat
    let b := b.toNat
    let c := c.toNat
    symbol (a / 4) :: symbol (a % 4 * 16 + b / 16) :: symbol (b % 16 * 4 + c / 64)
      :: symbol (c % 64) :: encodeOctets rest

/-- The padded Base64 text of an octet string. -/
def encode (bs : Bytes) : String :=
  String.ofList ((encodeOctets bs).map fun b => Char.ofNat b.toNat)

/-! ## Reading -/

/-- The value of the symbol at an offset, or the refusal that names it. -/
def valueAt (offset : Nat) (b : UInt8) : Except DecodeError Nat :=
  match value? b with
  | some v => .ok v
  | none => .error (.invalidSymbol b offset)

/-- The three octets of four six-bit values. -/
def quad (a b c d : Nat) : Bytes :=
  [(a * 4 + b / 16).toUInt8, (b % 16 * 16 + c / 4).toUInt8, (c % 4 * 64 + d).toUInt8]

/-- The last quad, `offset` octets into the text: two symbols and two pads,
three symbols and one pad, or four symbols. -/
def decodeLast (offset : Nat) : Bytes → Except DecodeError Bytes
  | [] => .ok []
  | [a] => do
    let _ ← valueAt offset a
    .error (.invalidLength (offset + 1))
  | [a, b] => do
    let _ ← valueAt offset a
    let _ ← valueAt (offset + 1) b
    .error .invalidPadding
  | [a, b, c] => do
    let _ ← valueAt offset a
    let _ ← valueAt (offset + 1) b
    if c = pad then .error .invalidPadding
    else
      let _ ← valueAt (offset + 2) c
      .error .invalidPadding
  | a :: b :: c :: d :: _ => do
    let v ← valueAt offset a
    let w ← valueAt (offset + 1) b
    if c = pad then
      if d = pad then
        if w % 16 = 0 then .ok [(v * 4 + w / 16).toUInt8]
        else .error (.invalidLastSymbol b (offset + 1))
      else .error (.invalidSymbol pad (offset + 2))
    else
      let x ← valueAt (offset + 2) c
      if d = pad then
        if x % 4 = 0 then .ok [(v * 4 + w / 16).toUInt8, (w % 16 * 16 + x / 4).toUInt8]
        else .error (.invalidLastSymbol c (offset + 2))
      else
        let y ← valueAt (offset + 3) d
        .ok (quad v w x y)

/-- The quads from an offset on; every quad but the last is four symbols. -/
def decodeFrom (offset : Nat) : Bytes → Except DecodeError Bytes
  | a :: b :: c :: d :: e :: rest => do
    let v ← valueAt offset a
    let w ← valueAt (offset + 1) b
    let x ← valueAt (offset + 2) c
    let y ← valueAt (offset + 3) d
    let more ← decodeFrom (offset + 4) (e :: rest)
    .ok (quad v w x y ++ more)
  | last => decodeLast offset last

/-- An octet past the last whole quad that is neither a symbol nor padding. -/
def strayLast? (bs : Bytes) : Option UInt8 :=
  if bs.length % 4 = 1 then
    bs.getLast?.filter fun b => b != pad && (value? b).isNone
  else none

/-- The octets that a padded Base64 text stands for. -/
def decode (bs : Bytes) : Except DecodeError Bytes :=
  match strayLast? bs with
  | some b => .error (.invalidSymbol b (bs.length - 1))
  | none => decodeFrom 0 bs

end ShardLoad.Base64
