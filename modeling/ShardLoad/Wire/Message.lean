import ShardLoad.Wire.Field

/-!
# Messages

The five messages of the service as rows of fields.  A field that holds its
default, empty octets, zero or false, is not written, except that an optional
field is written whenever it is present, empty or not.

Reading goes field by field, over a message that starts out with defaults.  A
field that is declared for the message must have its declared form.  A later
value of a number replaces the earlier one; a later embedded message is merged
into the earlier one, field by field.  A field that is not declared is passed
over.

* `Message`: what the five messages have in common.
* `Message.encode`, `Message.decode?`: the two directions.
* `merge?_append`: fields in a row merge one row after the other.
-/

namespace ShardLoad.Wire

/-- How deep groups and embedded messages may nest. -/
def maxNesting : Nat := 100

/-- A kind of message: the fields that are written for it, and what one more
field makes of it. -/
class Message (α : Type) where
  /-- The message that no field was read for. -/
  empty : α
  /-- The fields of a message in the order in which they are written. -/
  fields : α → List Field
  /-- The message with one more field merged in. -/
  mergeField? : α → Field → Option α

namespace Message

variable {α : Type} [Message α]

/-- The octets of a message. -/
def encode (m : α) : Bytes := (fields m).flatMap Field.encode

/-- The message with further fields merged in. -/
def merge? (m : α) (fs : List Field) : Option α := fs.foldlM mergeField? m

/-- The message that a string of octets encodes. -/
def decode? (bs : Bytes) : Option α := do
  let fs ← parse? maxNesting bs
  merge? empty fs

@[simp] theorem merge?_nil (m : α) : merge? m [] = some m := rfl

@[simp] theorem merge?_cons (m : α) (f : Field) (fs : List Field) :
    merge? m (f :: fs) = (mergeField? m f).bind (merge? · fs) := by
  simp [merge?, List.foldlM_cons, bind]

/-- Two rows of fields merge one after the other. -/
theorem merge?_append (m : α) (fs gs : List Field) :
    merge? m (fs ++ gs) = (merge? m fs).bind (merge? · gs) := by
  simp [merge?, List.foldlM_append, bind]

end Message

/-! ## The parts of a row -/

/-- A string of octets that is left out when it is empty. -/
def bytesField (number : Nat) (bs : Bytes) : List Field :=
  if bs = [] then [] else [⟨number, .delimited bs⟩]

/-- A string of octets that is left out when it is absent. -/
def optionalBytesField (number : Nat) : Option Bytes → List Field
  | none => []
  | some bs => [⟨number, .delimited bs⟩]

/-- The 64-bit word of a signed 32-bit number. -/
def signedWord (n : Int32) : Nat :=
  if 0 ≤ n.toInt then n.toInt.toNat else ((2 ^ 64 : Nat) + n.toInt).toNat

/-- The signed 32-bit number in the low half of a 64-bit word. -/
def ofSignedWord (n : Nat) : Int32 := Int32.ofInt (Int.bmod n (2 ^ 32))

/-- A signed number that is left out when it is zero. -/
def int32Field (number : Nat) (n : Int32) : List Field :=
  if n = 0 then [] else [⟨number, .varint (signedWord n)⟩]

/-- A truth value that is left out when it is false. -/
def boolField (number : Nat) (b : Bool) : List Field :=
  if b then [⟨number, .varint 1⟩] else []

/-- The octets that a field of the counted form holds. -/
def FieldValue.bytes? : FieldValue → Option Bytes
  | .delimited bs => some bs
  | _ => none

/-- The integer that a field of the variable-length form holds. -/
def FieldValue.varint? : FieldValue → Option Nat
  | .varint n => some n
  | _ => none

theorem bmod_signedWord (n : Int32) : Int.bmod (signedWord n : Int) (2 ^ 32) = n.toInt := by
  have hlo : -2147483648 ≤ n.toInt := by simpa using n.le_toInt
  have hhi : n.toInt < 2147483648 := by simpa using n.toInt_lt
  unfold signedWord
  generalize n.toInt = z at *
  simp only [Nat.reducePow]
  split <;> rw [Int.bmod_def] <;> omega

/-- A signed 32-bit number is read back from its word. -/
theorem ofSignedWord_signedWord (n : Int32) : ofSignedWord (signedWord n) = n := by
  unfold ofSignedWord
  rw [bmod_signedWord, Int32.ofInt_toInt]

/-! ## The messages -/

/-- No fields at all. -/
structure Empty where
  deriving Repr, DecidableEq

/-- One keyed transaction.  The kind is kept as the number that was sent. -/
structure TransactionRequest where
  key : Bytes
  value : Option Bytes
  kind : Int32
  deriving Repr, DecidableEq

/-- A transaction as a client submits it. -/
structure ClientTransactionRequest where
  transaction : Option TransactionRequest
  auxiliary : Option Bytes
  wait : Bool
  deriving Repr, DecidableEq

/-- The answer to a transaction. -/
structure TransactionResponse where
  head : Bytes
  status : Int32
  deriving Repr, DecidableEq

/-- The answer to a root read. -/
structure RootResponse where
  head : Bytes
  deriving Repr, DecidableEq

instance : Message Empty where
  empty := ⟨⟩
  fields _ := []
  mergeField? m _ := some m

instance : Message TransactionRequest where
  empty := ⟨[], none, 0⟩
  fields m := bytesField 1 m.key ++ optionalBytesField 2 m.value ++ int32Field 3 m.kind
  mergeField? m f :=
    match f.number with
    | 1 => f.value.bytes?.map fun bs => { m with key := bs }
    | 2 => f.value.bytes?.map fun bs => { m with value := some bs }
    | 3 => f.value.varint?.map fun n => { m with kind := ofSignedWord n }
    | _ => some m

instance : Message ClientTransactionRequest where
  empty := ⟨none, none, false⟩
  fields m :=
    optionalBytesField 1 (m.transaction.map Message.encode) ++
      optionalBytesField 2 m.auxiliary ++ boolField 3 m.wait
  mergeField? m f :=
    match f.number with
    | 1 => do
      let bs ← f.value.bytes?
      let fs ← parse? (maxNesting - 1) bs
      let t ← Message.merge? (m.transaction.getD Message.empty) fs
      some { m with transaction := some t }
    | 2 => f.value.bytes?.map fun bs => { m with auxiliary := some bs }
    | 3 => f.value.varint?.map fun n => { m with wait := n != 0 }
    | _ => some m

instance : Message TransactionResponse where
  empty := ⟨[], 0⟩
  fields m := bytesField 1 m.head ++ int32Field 2 m.status
  mergeField? m f :=
    match f.number with
    | 1 => f.value.bytes?.map fun bs => { m with head := bs }
    | 2 => f.value.varint?.map fun n => { m with status := ofSignedWord n }
    | _ => some m

instance : Message RootResponse where
  empty := ⟨[]⟩
  fields m := bytesField 1 m.head
  mergeField? m f :=
    match f.number with
    | 1 => f.value.bytes?.map fun bs => { m with head := bs }
    | _ => some m

namespace TransactionRequest

/-- The kind of transaction; a number that stands for none reads as an
update. -/
def kindName (t : TransactionRequest) : String :=
  if t.kind = 1 then "Delete" else "Update"

end TransactionRequest
end ShardLoad.Wire
