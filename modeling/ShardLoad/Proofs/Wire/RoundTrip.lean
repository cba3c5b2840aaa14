import ShardLoad.Proofs.Wire.Overlay

/-!
# Messages are read back

A message that is written is read back, so different messages are written differently.  A
string that is read need not be what is written of its message: numbers may be longer than
they have to be, fields may come in any order or more than once, and others may stand between
them.  But what is written of its message is read back, and so writing what was read changes
nothing any more the second time.

A length of more than 64 bits is never read, so this is said of messages that are written in
less than `2 ^ 64` octets; no memory holds half as many.  A message that was read may be
written longer than it was read: a signed number that was cut off after 32 bits is written
with ten octets.  What cannot grow are its strings, and all else takes little, so that a
message that was read can be written.

* `LawfulMessage`: what each kind of message brings along.
* `Message.decode?_encode`, `Message.encode_injective`: what was written is read back.
* `Message.length_encode_lt_of_decode?`: what was read can be written.
* `RoundTrips`, `messages_round_trip`: the round trip of all five kinds.
-/

namespace ShardLoad.Wire

/-! ## Lengths of messages -/

namespace Message

variable {α : Type} [Message α] {m : α}

/-- A message takes fifteen octets a field at most besides those that its fields hold. -/
theorem length_encode_le_sum
    (hw : ∀ {f : Field}, f ∈ fields m → f.octets < 2 ^ 64 → f.Writable)
    (h : ((fields m).map Field.octets).sum < 2 ^ 64) :
    (encode m).length ≤ ((fields m).map Field.octets).sum + 15 * (fields m).length := by
  refine length_flatMap_encode_le fun f hf => ?_
  have hle : f.octets ≤ ((fields m).map Field.octets).sum :=
    List.le_sum_of_mem (List.mem_map_of_mem hf)
  exact hw hf (Nat.lt_of_le_of_lt hle h)

end Message

/-! ## What each kind of message brings along -/

/-- A kind of message whose rows are read back. -/
class LawfulMessage (α : Type) [Message α] where
  /-- How many octets the strings in a message have. -/
  content : α → Nat
  content_empty : content (Message.empty : α) = 0
  /-- One more field brings no more than what it holds. -/
  content_mergeField? : ∀ {m m' : α} {f : Field},
    Message.mergeField? m f = some m' → content m' ≤ content m + f.octets
  /-- A field that is written is one that is read back, unless it is too long. -/
  writable : ∀ {m : α} {f : Field}, f ∈ Message.fields m → f.octets < 2 ^ 64 → f.Writable
  /-- The fields of a message make it up again. -/
  merge?_fields : ∀ {m : α}, (∀ f ∈ Message.fields m, f.Writable) →
    Message.merge? Message.empty (Message.fields m) = some m
  /-- Besides its strings a message takes little. -/
  length_encode_le : ∀ {m : α}, content m < 2 ^ 63 →
    (Message.encode m).length ≤ content m + 90

namespace Message

open LawfulMessage

variable {α : Type} [Message α] [LawfulMessage α] {m : α} {bs : Bytes}

/-- The fields of a message that is not too long are read back. -/
theorem writable_of_length_lt (h : (encode m).length < 2 ^ 64) : ∀ f ∈ fields m, f.Writable := by
  intro f hf
  exact writable hf (Nat.lt_of_le_of_lt (octets_le_length_of_mem hf) h)

/-- What was written is read back. -/
theorem decode?_encode (h : (encode m).length < 2 ^ 64) : decode? (encode m) = some m := by
  have hw := writable_of_length_lt h
  unfold decode?
  show (parse? maxNesting ((fields m).flatMap Field.encode)).bind (merge? empty) = some m
  rw [parse?_encode maxNesting hw, Option.bind_some, merge?_fields hw]

/-- Different messages are written differently. -/
theorem encode_injective {m' : α} (h : (encode m).length < 2 ^ 64) (he : encode m = encode m') :
    m = m' := by
  have hm' := decode?_encode (m := m') (he ▸ h)
  rw [← he, decode?_encode h] at hm'
  exact Option.some.inj hm'

/-- Fields bring no more than what they hold. -/
theorem content_le_of_merge? {m' : α} {fs : List Field} (h : merge? m fs = some m') :
    content m' ≤ content m + (fs.map Field.octets).sum := by
  induction fs generalizing m with
  | nil =>
    rw [Option.some.inj h]
    exact Nat.le_refl _
  | cons f fs ih =>
    rw [merge?_cons] at h
    obtain ⟨m₁, hf, hfs⟩ := Option.bind_eq_some_iff.mp h
    have hle := content_mergeField? hf
    have hih := ih hfs
    rw [List.map_cons, List.sum_cons]
    omega

/-- The strings of a message that was read have no more octets than what it was read from. -/
theorem content_le_of_decode? (h : decode? bs = some m) : content m ≤ bs.length := by
  obtain ⟨fs, hparse, hmerge⟩ := Option.bind_eq_some_iff.mp h
  have hsum := sum_octets_le_of_parse? hparse
  have hle := content_le_of_merge? hmerge
  rw [content_empty] at hle
  omega

/-- A message that was read can be written. -/
theorem length_encode_lt_of_decode? (hbs : bs.length < 2 ^ 63) (h : decode? bs = some m) :
    (encode m).length < 2 ^ 64 := by
  have hcontent := content_le_of_decode? h
  have hle := length_encode_le (m := m) (by omega)
  omega

end Message

/-! ## The five kinds -/

instance : LawfulMessage Empty where
  content _ := 0
  content_empty := rfl
  content_mergeField? _ := Nat.zero_le _
  writable hf _ := absurd hf List.not_mem_nil
  merge?_fields _ := rfl
  length_encode_le _ := Nat.zero_le _

theorem FieldValue.eq_of_bytes? {v : FieldValue} {bs : Bytes} (h : v.bytes? = some bs) :
    v = .delimited bs := by
  cases v with
  | delimited => exact congrArg _ (Option.some.inj h)
  | varint | fixed64 | fixed32 | group => exact absurd h (by simp [bytes?])

/-- A field that holds a string of octets holds as many octets. -/
theorem Field.octets_of_bytes? {f : Field} {bs : Bytes} (h : f.value.bytes? = some bs) :
    f.octets = bs.length := by
  rw [Field.octets, FieldValue.eq_of_bytes? h]
  rfl

namespace TransactionRequest

/-- How many octets key and value have. -/
def content (m : TransactionRequest) : Nat := m.key.length + (m.value.map List.length).getD 0

theorem content_mergeField? {m m' : TransactionRequest} {f : Field}
    (h : Message.mergeField? m f = some m') : m'.content ≤ m.content + f.octets := by
  simp only [Message.mergeField?] at h
  split at h
  · obtain ⟨bs, hbs, rfl⟩ := Option.map_eq_some_iff.mp h
    rw [Field.octets_of_bytes? hbs]
    simp only [content]
    omega
  · obtain ⟨bs, hbs, rfl⟩ := Option.map_eq_some_iff.mp h
    rw [Field.octets_of_bytes? hbs]
    simp only [content, Option.map_some, Option.getD_some]
    omega
  · obtain ⟨n, -, rfl⟩ := Option.map_eq_some_iff.mp h
    simp only [content]
    exact Nat.le_add_right _ _
  · obtain rfl := Option.some.inj h
    exact Nat.le_add_right _ _

theorem sum_octets_fields (m : TransactionRequest) :
    ((Message.fields m).map Field.octets).sum = m.content := by
  rw [fields_eq_row, sum_octets_row]
  simp [slots, content, Slot.octets_bytes, Slot.octets_optionalBytes, Slot.octets_int32]

theorem length_fields_le (m : TransactionRequest) : (Message.fields m).length ≤ 3 := by
  rw [fields_eq_row]
  exact length_row_le m.slots

theorem length_encode_le {m : TransactionRequest} (h : m.content < 2 ^ 64) :
    (Message.encode m).length ≤ m.content + 45 := by
  have hsum := m.sum_octets_fields
  have hlength := m.length_fields_le
  have hle := Message.length_encode_le_sum (m := m) writable (by omega)
  omega

end TransactionRequest

instance : LawfulMessage TransactionRequest where
  content := TransactionRequest.content
  content_empty := rfl
  content_mergeField? := TransactionRequest.content_mergeField?
  writable := TransactionRequest.writable
  merge?_fields _ := by
    rw [TransactionRequest.merge?_eq_overlay, TransactionRequest.empty_overlay]
  length_encode_le h := by
    have hle := TransactionRequest.length_encode_le (Nat.lt_trans h (by decide))
    omega

namespace ClientTransactionRequest

/-- How many octets the token has, and key and value of the transaction. -/
def content (m : ClientTransactionRequest) : Nat :=
  (m.transaction.map TransactionRequest.content).getD 0 + (m.auxiliary.map List.length).getD 0

theorem content_mergeField? {m m' : ClientTransactionRequest} {f : Field}
    (h : Message.mergeField? m f = some m') : m'.content ≤ m.content + f.octets := by
  simp only [Message.mergeField?] at h
  split at h
  · obtain ⟨bs, hbs, h⟩ := Option.bind_eq_some_iff.mp h
    obtain ⟨fs, hfs, h⟩ := Option.bind_eq_some_iff.mp h
    obtain ⟨t, ht, h⟩ := Option.bind_eq_some_iff.mp h
    obtain rfl := Option.some.inj h
    -- the transaction is merged into the one that was read before, if there was one
    have hsum := sum_octets_le_of_parse? hfs
    have hle : t.content ≤ (m.transaction.getD Message.empty).content +
      (fs.map Field.octets).sum := Message.content_le_of_merge? ht
    have hbefore : (m.transaction.getD Message.empty).content =
        (m.transaction.map TransactionRequest.content).getD 0 := by
      cases m.transaction <;> rfl
    rw [Field.octets_of_bytes? hbs]
    simp only [content, Option.map_some, Option.getD_some]
    omega
  · obtain ⟨bs, hbs, rfl⟩ := Option.map_eq_some_iff.mp h
    rw [Field.octets_of_bytes? hbs]
    simp only [content, Option.map_some, Option.getD_some]
    omega
  · obtain ⟨n, -, rfl⟩ := Option.map_eq_some_iff.mp h
    simp only [content]
    exact Nat.le_add_right _ _
  · obtain rfl := Option.some.inj h
    exact Nat.le_add_right _ _

theorem sum_octets_fields (m : ClientTransactionRequest) :
    ((Message.fields m).map Field.octets).sum =
      (m.transaction.map fun t => (Message.encode t).length).getD 0 +
        (m.auxiliary.map List.length).getD 0 := by
  rw [fields_eq_row, sum_octets_row]
  simp [slots, Slot.octets_optionalBytes, Slot.octets_bool, Function.comp_def]

theorem length_fields_le (m : ClientTransactionRequest) : (Message.fields m).length ≤ 3 := by
  rw [fields_eq_row]
  exact length_row_le m.slots

theorem length_encode_le {m : ClientTransactionRequest} (h : m.content < 2 ^ 63) :
    (Message.encode m).length ≤ m.content + 90 := by
  have hembedded : (m.transaction.map fun t => (Message.encode t).length).getD 0 ≤
      (m.transaction.map TransactionRequest.content).getD 0 + 45 := by
    unfold content at h
    cases ht : m.transaction with
    | none => exact Nat.zero_le _
    | some t =>
      rw [ht, Option.map_some, Option.getD_some] at h
      exact TransactionRequest.length_encode_le (by omega)
  have hsum := m.sum_octets_fields
  have hlength := m.length_fields_le
  unfold content at h ⊢
  have hle := Message.length_encode_le_sum (m := m) writable (by omega)
  omega

end ClientTransactionRequest

instance : LawfulMessage ClientTransactionRequest where
  content := ClientTransactionRequest.content
  content_empty := rfl
  content_mergeField? := ClientTransactionRequest.content_mergeField?
  writable := ClientTransactionRequest.writable
  merge?_fields hw := by
    rw [ClientTransactionRequest.merge?_eq_overlay _ hw, ClientTransactionRequest.empty_overlay]
  length_encode_le := ClientTransactionRequest.length_encode_le

namespace TransactionResponse

theorem content_mergeField? {m m' : TransactionResponse} {f : Field}
    (h : Message.mergeField? m f = some m') : m'.head.length ≤ m.head.length + f.octets := by
  simp only [Message.mergeField?] at h
  split at h
  · obtain ⟨bs, hbs, rfl⟩ := Option.map_eq_some_iff.mp h
    rw [Field.octets_of_bytes? hbs]
    exact Nat.le_add_left _ _
  · obtain ⟨n, -, rfl⟩ := Option.map_eq_some_iff.mp h
    exact Nat.le_add_right _ _
  · obtain rfl := Option.some.inj h
    exact Nat.le_add_right _ _

theorem length_encode_le {m : TransactionResponse} (h : m.head.length < 2 ^ 64) :
    (Message.encode m).length ≤ m.head.length + 30 := by
  have hsum : ((Message.fields m).map Field.octets).sum = m.head.length := by
    rw [fields_eq_row, sum_octets_row]
    simp [slots, Slot.octets_bytes, Slot.octets_int32]
  have hlength : (Message.fields m).length ≤ 2 := by
    rw [fields_eq_row]
    exact length_row_le m.slots
  have hle := Message.length_encode_le_sum (m := m) writable (by omega)
  omega

end TransactionResponse

instance : LawfulMessage TransactionResponse where
  content m := m.head.length
  content_empty := rfl
  content_mergeField? := TransactionResponse.content_mergeField?
  writable := TransactionResponse.writable
  merge?_fields _ := by
    rw [TransactionResponse.merge?_eq_overlay, TransactionResponse.empty_overlay]
  length_encode_le h := by
    have hle := TransactionResponse.length_encode_le (Nat.lt_trans h (by decide))
    omega

namespace RootResponse

theorem content_mergeField? {m m' : RootResponse} {f : Field}
    (h : Message.mergeField? m f = some m') : m'.head.length ≤ m.head.length + f.octets := by
  simp only [Message.mergeField?] at h
  split at h
  · obtain ⟨bs, hbs, rfl⟩ := Option.map_eq_some_iff.mp h
    rw [Field.octets_of_bytes? hbs]
    exact Nat.le_add_left _ _
  · obtain rfl := Option.some.inj h
    exact Nat.le_add_right _ _

theorem length_encode_le {m : RootResponse} (h : m.head.length < 2 ^ 64) :
    (Message.encode m).length ≤ m.head.length + 15 := by
  have hsum : ((Message.fields m).map Field.octets).sum = m.head.length := by
    rw [fields_eq_row, sum_octets_row]
    simp [slots, Slot.octets_bytes]
  have hlength : (Message.fields m).length ≤ 1 := by
    rw [fields_eq_row]
    exact length_row_le m.slots
  have hle := Message.length_encode_le_sum (m := m) writable (by omega)
  omega

end RootResponse

instance : LawfulMessage RootResponse where
  content m := m.head.length
  content_empty := rfl
  content_mergeField? := RootResponse.content_mergeField?
  writable := RootResponse.writable
  merge?_fields _ := by
    rw [RootResponse.merge?_eq_overlay, RootResponse.empty_overlay]
  length_encode_le h := by
    have hle := RootResponse.length_encode_le (Nat.lt_trans h (by decide))
    omega

/-! ## The round trip -/

/-- The messages of a kind survive the way into octets and back. -/
structure RoundTrips (α : Type) [Message α] : Prop where
  /-- What was written is read back. -/
  reads_back : ∀ {m : α}, (Message.encode m).length < 2 ^ 64 →
    Message.decode? (Message.encode m) = some m
  /-- Different messages are written differently. -/
  distinct : ∀ {m m' : α}, (Message.encode m).length < 2 ^ 64 → m ≠ m' →
    Message.encode m ≠ Message.encode m'
  /-- What was read is read again from what is written of it. -/
  settles : ∀ {bs : Bytes} {m : α}, bs.length < 2 ^ 63 → Message.decode? bs = some m →
    Message.decode? (Message.encode m) = some m

theorem roundTrips (α : Type) [Message α] [LawfulMessage α] : RoundTrips α where
  reads_back := Message.decode?_encode
  distinct hlength hne he := hne (Message.encode_injective hlength he)
  settles hbs h := Message.decode?_encode (Message.length_encode_lt_of_decode? hbs h)

/-- All five kinds of messages survive the way into octets and back. -/
theorem messages_round_trip :
    RoundTrips Empty ∧ RoundTrips TransactionRequest ∧ RoundTrips ClientTransactionRequest ∧
      RoundTrips TransactionResponse ∧ RoundTrips RootResponse := by
  refine ⟨?_, ?_, ?_, ?_, ?_⟩
  · exact roundTrips Empty
  · exact roundTrips TransactionRequest
  · exact roundTrips ClientTransactionRequest
  · exact roundTrips TransactionResponse
  · exact roundTrips RootResponse

/-- A removal whose value is there but empty, without a token: an embedded message, an empty
string that is written all the same, and a negative number. -/
theorem messages_round_trip_removal :
    (Message.encode (⟨some ⟨[0x6b], some [], -1⟩, none, true⟩ :
      ClientTransactionRequest)).length < 2 ^ 64 ∧
    Message.decode? (Message.encode (⟨some ⟨[0x6b], some [], -1⟩, none, true⟩ :
      ClientTransactionRequest)) =
        some (⟨some ⟨[0x6b], some [], -1⟩, none, true⟩ : ClientTransactionRequest) := by
  have hlength : (Message.encode (⟨some ⟨[0x6b], some [], -1⟩, none, true⟩ :
      ClientTransactionRequest)).length < 2 ^ 64 := by decide +kernel
  exact ⟨hlength, messages_round_trip.2.2.1.reads_back hlength⟩

end ShardLoad.Wire
