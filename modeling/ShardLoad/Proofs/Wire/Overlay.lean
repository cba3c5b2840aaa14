import ShardLoad.Proofs.Wire.Slots

/-!
# One message over another

A row that is read onto a message replaces what it has values for and leaves the rest alone.  So
the fields of a message, read onto another one, lay it over the other: the values that are written
win, and a value that is not written, because it is the default, does not show.  An embedded
message is laid over the embedded one that is there already.

All that is read of messages is read this way.  What is written of one message alone is laid over
the message that has nothing but defaults, and is the message itself.

* `Message.numbers`: the numbers of the fields that are written.
* `TransactionRequest.overlay`, `ClientTransactionRequest.overlay`,
  `TransactionResponse.overlay`, `RootResponse.overlay`: one message over another.
* `merge?_eq_overlay` of each: reading the fields of a message onto another one lays it over.
-/

namespace ShardLoad.Wire

/-! ## Which fields are written -/

/-- The numbers of the fields that are written of a message. -/
def Message.numbers {α : Type} [Message α] (m : α) : List Nat := (Message.fields m).map Field.number

namespace Message

variable {α : Type} [Message α] {m m' : α}

/-- A string that is left out when it is empty is set, if it was empty before. -/
theorem merge?_bytesField {number : Nat} {bs : Bytes} (hempty : bs = [] → m = m')
    (hset : bs ≠ [] → mergeField? m ⟨number, .delimited bs⟩ = some m') :
    merge? m (bytesField number bs) = some m' := by
  by_cases h : bs = []
  · simp [bytesField, h, hempty h]
  · simp [bytesField, h, hset h]

/-- A string that is left out when it is absent is set, if it was absent before. -/
theorem merge?_optionalBytesField {number : Nat} {o : Option Bytes} (habsent : o = none → m = m')
    (hset : ∀ bs, o = some bs → mergeField? m ⟨number, .delimited bs⟩ = some m') :
    merge? m (optionalBytesField number o) = some m' := by
  cases o with
  | none => simp [optionalBytesField, habsent rfl]
  | some bs => simp [optionalBytesField, hset bs rfl]

/-- A signed number is set, if it was zero before. -/
theorem merge?_int32Field {number : Nat} {n : Int32} (hzero : n = 0 → m = m')
    (hset : n ≠ 0 → mergeField? m ⟨number, .varint (signedWord n)⟩ = some m') :
    merge? m (int32Field number n) = some m' := by
  by_cases h : n = 0
  · simp [int32Field, h, hzero h]
  · simp [int32Field, h, hset h]

/-- A truth value is set, if it was false before. -/
theorem merge?_boolField {number : Nat} {b : Bool} (hfalse : b = false → m = m')
    (hset : b = true → mergeField? m ⟨number, .varint 1⟩ = some m') :
    merge? m (boolField number b) = some m' := by
  cases b with
  | false => simp [boolField, hfalse rfl]
  | true => simp [boolField, hset rfl]

end Message

/-! ## Transactions -/

namespace TransactionRequest

/-- The places of a transaction. -/
def slots (m : TransactionRequest) : List Slot :=
  [.bytes 1 m.key, .optionalBytes 2 m.value, .int32 3 m.kind]

theorem fields_eq_row (m : TransactionRequest) : Message.fields m = row m.slots := by
  show bytesField 1 m.key ++ optionalBytesField 2 m.value ++ int32Field 3 m.kind =
    row ([.bytes 1 m.key] ++ [.optionalBytes 2 m.value] ++ [.int32 3 m.kind])
  rw [row_append, row_append, Slot.row_bytes, Slot.row_optionalBytes, Slot.row_int32]

theorem writable {m : TransactionRequest} {f : Field} (h : f ∈ Message.fields m)
    (hf : f.octets < 2 ^ 64) : f.Writable := by
  rw [fields_eq_row] at h
  refine writable_of_mem_row ?_ h hf
  simp only [slots, List.forall_mem_cons]
  exact ⟨.bytes (by decide) (by decide) _, .optionalBytes (by decide) (by decide) _,
    .int32 (by decide) (by decide) _, List.forall_mem_nil _⟩

/-- A transaction over another one. -/
def overlay (m n : TransactionRequest) : TransactionRequest where
  key := if 1 ∈ Message.numbers n then n.key else m.key
  value := if 2 ∈ Message.numbers n then n.value else m.value
  kind := if 3 ∈ Message.numbers n then n.kind else m.kind

theorem mem_numbers_iff {k : Nat} {m : TransactionRequest} :
    k ∈ Message.numbers m ↔ k = 1 ∧ m.key ≠ [] ∨ k = 2 ∧ m.value ≠ none ∨ k = 3 ∧ m.kind ≠ 0 := by
  rw [Message.numbers, fields_eq_row, mem_numbers_row_iff]
  simp [slots, Slot.bytes, Slot.optionalBytes, Slot.int32]

/-- Reading the fields of a transaction onto another one lays it over. -/
theorem merge?_eq_overlay (m n : TransactionRequest) :
    Message.merge? m (Message.fields n) = some (m.overlay n) := by
  have hkey : Message.merge? m (bytesField 1 n.key) =
      some ⟨(m.overlay n).key, m.value, m.kind⟩ := by
    refine Message.merge?_bytesField (fun h => ?_) fun h => ?_
    · simp [overlay, mem_numbers_iff, h]
    · simp [overlay, mem_numbers_iff, h, Message.mergeField?, FieldValue.bytes?]
  have hvalue : Message.merge? (⟨(m.overlay n).key, m.value, m.kind⟩ : TransactionRequest)
      (optionalBytesField 2 n.value) = some ⟨(m.overlay n).key, (m.overlay n).value, m.kind⟩ := by
    refine Message.merge?_optionalBytesField (fun h => ?_) fun bs h => ?_
    · simp [overlay, mem_numbers_iff, h]
    · simp [overlay, mem_numbers_iff, h, Message.mergeField?, FieldValue.bytes?]
  have hkind : Message.merge?
      (⟨(m.overlay n).key, (m.overlay n).value, m.kind⟩ : TransactionRequest)
      (int32Field 3 n.kind) = some (m.overlay n) := by
    refine Message.merge?_int32Field (fun h => ?_) fun h => ?_
    · simp [overlay, mem_numbers_iff, h]
    · simp [overlay, mem_numbers_iff, h, Message.mergeField?, FieldValue.varint?,
        ofSignedWord_signedWord]
  show Message.merge? m (bytesField 1 n.key ++ optionalBytesField 2 n.value ++
    int32Field 3 n.kind) = some (m.overlay n)
  rw [Message.merge?_append, Message.merge?_append, hkey, Option.bind_some, hvalue,
    Option.bind_some, hkind]

/-- Over the message with nothing but defaults a transaction is the same. -/
theorem empty_overlay (m : TransactionRequest) : (Message.empty : TransactionRequest).overlay m = m := by
  obtain ⟨key, value, kind⟩ := m
  simp +contextual [overlay, mem_numbers_iff, Message.empty]

end TransactionRequest

/-! ## Submitted transactions -/

namespace ClientTransactionRequest

/-- The places of a submitted transaction. -/
def slots (m : ClientTransactionRequest) : List Slot :=
  [.optionalBytes 1 (m.transaction.map Message.encode), .optionalBytes 2 m.auxiliary,
    .bool 3 m.wait]

theorem fields_eq_row (m : ClientTransactionRequest) : Message.fields m = row m.slots := by
  show optionalBytesField 1 (m.transaction.map Message.encode) ++
    optionalBytesField 2 m.auxiliary ++ boolField 3 m.wait =
      row ([.optionalBytes 1 (m.transaction.map Message.encode)] ++
        [.optionalBytes 2 m.auxiliary] ++ [.bool 3 m.wait])
  rw [row_append, row_append, Slot.row_optionalBytes, Slot.row_optionalBytes, Slot.row_bool]

theorem writable {m : ClientTransactionRequest} {f : Field} (h : f ∈ Message.fields m)
    (hf : f.octets < 2 ^ 64) : f.Writable := by
  rw [fields_eq_row] at h
  refine writable_of_mem_row ?_ h hf
  simp only [slots, List.forall_mem_cons]
  exact ⟨.optionalBytes (by decide) (by decide) _, .optionalBytes (by decide) (by decide) _,
    .bool (by decide) (by decide) _, List.forall_mem_nil _⟩

/-- A submitted transaction over another one; if both have a transaction, one is laid over the
other. -/
def overlay (m n : ClientTransactionRequest) : ClientTransactionRequest where
  transaction := match m.transaction, n.transaction with
    | some t, some u => some (t.overlay u)
    | _, _ => if 1 ∈ Message.numbers n then n.transaction else m.transaction
  auxiliary := if 2 ∈ Message.numbers n then n.auxiliary else m.auxiliary
  wait := if 3 ∈ Message.numbers n then n.wait else m.wait

theorem mem_numbers_iff {k : Nat} {m : ClientTransactionRequest} :
    k ∈ Message.numbers m ↔
      k = 1 ∧ m.transaction ≠ none ∨ k = 2 ∧ m.auxiliary ≠ none ∨ k = 3 ∧ m.wait = true := by
  rw [Message.numbers, fields_eq_row, mem_numbers_row_iff]
  simp [slots, Slot.optionalBytes, Slot.bool]

/-- Where no transaction is written, the one that was there stays. -/
theorem transaction_overlay_of_none {m n : ClientTransactionRequest} (h : n.transaction = none) :
    (m.overlay n).transaction = m.transaction := by
  simp [overlay, h, mem_numbers_iff]

/-- Where one is written, it is laid over the one that was there, or over nothing. -/
theorem transaction_overlay_of_some {m n : ClientTransactionRequest} {u : TransactionRequest}
    (h : n.transaction = some u) :
    (m.overlay n).transaction = some ((m.transaction.getD Message.empty).overlay u) := by
  cases hm : m.transaction with
  | none => simp [overlay, hm, h, mem_numbers_iff, TransactionRequest.empty_overlay]
  | some t => simp [overlay, hm, h]

/-- A transaction that is embedded is read from its octets and laid over the one that was there. -/
theorem mergeField?_transaction (m : ClientTransactionRequest) {u : TransactionRequest}
    (hu : (Message.encode u).length < 2 ^ 64) :
    Message.mergeField? m ⟨1, .delimited (Message.encode u)⟩ =
      some { m with transaction := some ((m.transaction.getD Message.empty).overlay u) } := by
  have hparse : parse? (maxNesting - 1) (Message.encode u) = some (Message.fields u) :=
    parse?_encode (maxNesting - 1) fun f hf =>
      TransactionRequest.writable hf (Nat.lt_of_le_of_lt (octets_le_length_of_mem hf) hu)
  simp only [Message.mergeField?, FieldValue.bytes?, bind, Option.bind_some, hparse,
    TransactionRequest.merge?_eq_overlay]

/-- Reading the fields of a submitted transaction onto another one lays it over. -/
theorem merge?_eq_overlay (m : ClientTransactionRequest) {n : ClientTransactionRequest}
    (hw : ∀ f ∈ Message.fields n, f.Writable) :
    Message.merge? m (Message.fields n) = some (m.overlay n) := by
  have hw : ∀ f ∈ optionalBytesField 1 (n.transaction.map Message.encode) ++
    optionalBytesField 2 n.auxiliary ++ boolField 3 n.wait, f.Writable := hw
  have htransaction : Message.merge? m (optionalBytesField 1 (n.transaction.map Message.encode)) =
      some ⟨(m.overlay n).transaction, m.auxiliary, m.wait⟩ := by
    refine Message.merge?_optionalBytesField (fun h => ?_) fun bs h => ?_
    · rw [transaction_overlay_of_none (Option.map_eq_none_iff.mp h)]
    · obtain ⟨u, hu, rfl⟩ := Option.map_eq_some_iff.mp h
      -- the octets of the transaction are themselves a field, so they are not too many
      have hfits := (hw ⟨1, .delimited (Message.encode u)⟩ (by simp [optionalBytesField, hu])).fits
      rw [mergeField?_transaction m hfits, transaction_overlay_of_some hu]
  have hauxiliary : Message.merge?
      (⟨(m.overlay n).transaction, m.auxiliary, m.wait⟩ : ClientTransactionRequest)
      (optionalBytesField 2 n.auxiliary) =
        some ⟨(m.overlay n).transaction, (m.overlay n).auxiliary, m.wait⟩ := by
    refine Message.merge?_optionalBytesField (fun h => ?_) fun bs h => ?_
    · simp [overlay, mem_numbers_iff, h]
    · simp [overlay, mem_numbers_iff, h, Message.mergeField?, FieldValue.bytes?]
  have hwait : Message.merge? (⟨(m.overlay n).transaction, (m.overlay n).auxiliary, m.wait⟩ :
      ClientTransactionRequest) (boolField 3 n.wait) = some (m.overlay n) := by
    refine Message.merge?_boolField (fun h => ?_) fun h => ?_
    · simp [overlay, mem_numbers_iff, h]
    · simp [overlay, mem_numbers_iff, h, Message.mergeField?, FieldValue.varint?]
  show Message.merge? m (optionalBytesField 1 (n.transaction.map Message.encode) ++
    optionalBytesField 2 n.auxiliary ++ boolField 3 n.wait) = some (m.overlay n)
  rw [Message.merge?_append, Message.merge?_append, htransaction, Option.bind_some, hauxiliary,
    Option.bind_some, hwait]

theorem empty_overlay (m : ClientTransactionRequest) :
    (Message.empty : ClientTransactionRequest).overlay m = m := by
  obtain ⟨transaction, auxiliary, wait⟩ := m
  simp +contextual [overlay, mem_numbers_iff, Message.empty]

end ClientTransactionRequest

/-! ## Answers -/

namespace TransactionResponse

/-- The places of an answer. -/
def slots (m : TransactionResponse) : List Slot := [.bytes 1 m.head, .int32 2 m.status]

theorem fields_eq_row (m : TransactionResponse) : Message.fields m = row m.slots := by
  show bytesField 1 m.head ++ int32Field 2 m.status = row ([.bytes 1 m.head] ++ [.int32 2 m.status])
  rw [row_append, Slot.row_bytes, Slot.row_int32]

theorem writable {m : TransactionResponse} {f : Field} (h : f ∈ Message.fields m)
    (hf : f.octets < 2 ^ 64) : f.Writable := by
  rw [fields_eq_row] at h
  refine writable_of_mem_row ?_ h hf
  simp only [slots, List.forall_mem_cons]
  exact ⟨.bytes (by decide) (by decide) _, .int32 (by decide) (by decide) _,
    List.forall_mem_nil _⟩

/-- An answer over another one. -/
def overlay (m n : TransactionResponse) : TransactionResponse where
  head := if 1 ∈ Message.numbers n then n.head else m.head
  status := if 2 ∈ Message.numbers n then n.status else m.status

theorem mem_numbers_iff {k : Nat} {m : TransactionResponse} :
    k ∈ Message.numbers m ↔ k = 1 ∧ m.head ≠ [] ∨ k = 2 ∧ m.status ≠ 0 := by
  rw [Message.numbers, fields_eq_row, mem_numbers_row_iff]
  simp [slots, Slot.bytes, Slot.int32]

/-- Reading the fields of an answer onto another one lays it over. -/
theorem merge?_eq_overlay (m n : TransactionResponse) :
    Message.merge? m (Message.fields n) = some (m.overlay n) := by
  have hhead : Message.merge? m (bytesField 1 n.head) = some ⟨(m.overlay n).head, m.status⟩ := by
    refine Message.merge?_bytesField (fun h => ?_) fun h => ?_
    · simp [overlay, mem_numbers_iff, h]
    · simp [overlay, mem_numbers_iff, h, Message.mergeField?, FieldValue.bytes?]
  have hstatus : Message.merge? (⟨(m.overlay n).head, m.status⟩ : TransactionResponse)
      (int32Field 2 n.status) = some (m.overlay n) := by
    refine Message.merge?_int32Field (fun h => ?_) fun h => ?_
    · simp [overlay, mem_numbers_iff, h]
    · simp [overlay, mem_numbers_iff, h, Message.mergeField?, FieldValue.varint?,
        ofSignedWord_signedWord]
  show Message.merge? m (bytesField 1 n.head ++ int32Field 2 n.status) = some (m.overlay n)
  rw [Message.merge?_append, hhead, Option.bind_some, hstatus]

theorem empty_overlay (m : TransactionResponse) :
    (Message.empty : TransactionResponse).overlay m = m := by
  obtain ⟨head, status⟩ := m
  simp +contextual [overlay, mem_numbers_iff, Message.empty]

end TransactionResponse

namespace RootResponse

/-- The places of an answer. -/
def slots (m : RootResponse) : List Slot := [.bytes 1 m.head]

theorem fields_eq_row (m : RootResponse) : Message.fields m = row m.slots :=
  (Slot.row_bytes m.head).symm

theorem writable {m : RootResponse} {f : Field} (h : f ∈ Message.fields m)
    (hf : f.octets < 2 ^ 64) : f.Writable := by
  rw [fields_eq_row] at h
  refine writable_of_mem_row ?_ h hf
  simp only [slots, List.forall_mem_cons]
  exact ⟨.bytes (by decide) (by decide) _, List.forall_mem_nil _⟩

/-- An answer over another one. -/
def overlay (m n : RootResponse) : RootResponse where
  head := if 1 ∈ Message.numbers n then n.head else m.head

theorem mem_numbers_iff {k : Nat} {m : RootResponse} :
    k ∈ Message.numbers m ↔ k = 1 ∧ m.head ≠ [] := by
  rw [Message.numbers, fields_eq_row, mem_numbers_row_iff]
  simp [slots, Slot.bytes]

/-- Reading the fields of an answer onto another one lays it over. -/
theorem merge?_eq_overlay (m n : RootResponse) :
    Message.merge? m (Message.fields n) = some (m.overlay n) := by
  show Message.merge? m (bytesField 1 n.head) = some (m.overlay n)
  refine Message.merge?_bytesField (fun h => ?_) fun h => ?_
  · simp [overlay, mem_numbers_iff, h]
  · simp [overlay, mem_numbers_iff, h, Message.mergeField?, FieldValue.bytes?]

theorem empty_overlay (m : RootResponse) : (Message.empty : RootResponse).overlay m = m := by
  obtain ⟨head⟩ := m
  simp +contextual [overlay, mem_numbers_iff, Message.empty]

end RootResponse
end ShardLoad.Wire
