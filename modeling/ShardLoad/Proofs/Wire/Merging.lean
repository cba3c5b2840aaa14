import ShardLoad.Proofs.Wire.RoundTrip

/-!
# Messages in a row are one message

Octets of messages of one kind may be put in a row, and other fields may stand in front of their
fields, between them and behind them: a later version of the service may send more than is
declared here.  Such a string is read as the first message with the second laid over it, and the
other fields leave no trace, whatever they hold and however their numbers are written.  It is only
required that they can be skipped: each has a key with a number that is not declared, and a value
in the form that the key tells.

* `Strewn`: a row of fields with others strewn in.
* `Strewn.parse?`: the fields are read, and the others are passed over.
* `Merges`, `messages_merge`: two messages in a row, for all five kinds.
-/

namespace ShardLoad.Wire

/-! ## Other fields -/

/-- A row of fields with others strewn in, whose numbers are not declared. -/
inductive Strewn (declared : List Nat) : List Field → Bytes → Prop where
  | nil : Strewn declared [] []
  | field {f : Field} {fs : List Field} {bs : Bytes} (h : Strewn declared fs bs) :
      Strewn declared (f :: fs) (f.encode ++ bs)
  | other {f : Field} {fs : List Field} {octets bs : Bytes} (hnumber : f.number ∉ declared)
      (hspelled : f.Spelled octets) (h : Strewn declared fs bs) : Strewn declared fs (octets ++ bs)

/-- A row in which nothing was strewn. -/
theorem strewn_flatMap_encode (declared : List Nat) (fs : List Field) :
    Strewn declared fs (fs.flatMap Field.encode) := by
  induction fs with
  | nil => exact .nil
  | cons f fs ih => exact .field ih

/-- A kind of message passes over the fields that are not declared for it. -/
def PassesOver (α : Type) [Message α] (declared : List Nat) : Prop :=
  ∀ {m : α} {f : Field}, f.number ∉ declared → Message.mergeField? m f = some m

/-- What is read of a row with others strewn in makes of a message what the row makes of it. -/
theorem Strewn.parse? {α : Type} [Message α] {declared : List Nat} (hpass : PassesOver α declared)
    (budget : Nat) {fs : List Field} {bs : Bytes} (h : Strewn declared fs bs)
    (hw : ∀ f ∈ fs, f.Writable) :
    ∃ gs, Wire.parse? budget bs = some gs ∧ ∀ m : α, Message.merge? m gs = Message.merge? m fs := by
  induction h with
  | nil => exact ⟨[], parse?_nil budget, fun m => rfl⟩
  | @field f fs bs _ ih =>
    obtain ⟨gs, hparse, hmerge⟩ := ih fun g hg => hw g (List.mem_cons_of_mem f hg)
    have hfield := decodeField?_encode_append budget (hw f List.mem_cons_self) bs
    refine ⟨f :: gs, by rw [parse?_of_decodeField? hfield, hparse, Option.map_some], fun m => ?_⟩
    rw [Message.merge?_cons, Message.merge?_cons]
    exact congrArg _ (funext hmerge)
  | @other f fs octets bs hnumber hspelled _ ih =>
    obtain ⟨gs, hparse, hmerge⟩ := ih hw
    have hfield := decodeField?_append_of_spelled budget hspelled bs
    refine ⟨f :: gs, by rw [parse?_of_decodeField? hfield, hparse, Option.map_some], fun m => ?_⟩
    rw [Message.merge?_cons, hpass hnumber, Option.bind_some, hmerge]

/-! ## Two messages in a row -/

/-- Messages of a kind are read in a row as the second over the first, with or without other fields
among theirs. -/
structure Merges {α : Type} [Message α] (declared : List Nat) (overlay : α → α → α) : Prop where
  strewn : ∀ {m n : α} {bs : Bytes}, (Message.encode m).length < 2 ^ 64 →
    (Message.encode n).length < 2 ^ 64 →
    Strewn declared (Message.fields m ++ Message.fields n) bs →
    Message.decode? bs = some (overlay m n)
  plain : ∀ {m n : α}, (Message.encode m).length < 2 ^ 64 → (Message.encode n).length < 2 ^ 64 →
    Message.decode? (Message.encode m ++ Message.encode n) = some (overlay m n)

/-- Messages whose fields are laid over one another are read so in a row. -/
theorem merges_of_overlay {α : Type} [Message α] [LawfulMessage α] {declared : List Nat}
    {overlay : α → α → α} (hpass : PassesOver α declared)
    (hoverlay : ∀ m n : α, (∀ f ∈ Message.fields n, f.Writable) →
      Message.merge? m (Message.fields n) = some (overlay m n)) : Merges declared overlay := by
  have hstrewn : ∀ {m n : α} {bs : Bytes}, (Message.encode m).length < 2 ^ 64 →
      (Message.encode n).length < 2 ^ 64 →
      Strewn declared (Message.fields m ++ Message.fields n) bs →
      Message.decode? bs = some (overlay m n) := by
    intro m n bs hm hn h
    have hwm := Message.writable_of_length_lt hm
    have hwn := Message.writable_of_length_lt hn
    obtain ⟨gs, hparse, hmerge⟩ := h.parse? hpass maxNesting fun f hf =>
      (List.mem_append.mp hf).elim (hwm f) (hwn f)
    unfold Message.decode?
    show (Wire.parse? maxNesting bs).bind (Message.merge? Message.empty) = some (overlay m n)
    rw [hparse, Option.bind_some, hmerge, Message.merge?_append, LawfulMessage.merge?_fields hwm,
      Option.bind_some, hoverlay m n hwn]
  refine ⟨hstrewn, fun {m n} hm hn => hstrewn hm hn ?_⟩
  have hrow := strewn_flatMap_encode declared (Message.fields m ++ Message.fields n)
  rwa [List.flatMap_append] at hrow

theorem Empty.passesOver : PassesOver Empty [] := fun _ => rfl

theorem TransactionRequest.passesOver : PassesOver TransactionRequest [1, 2, 3] := by
  intro m f h
  simp only [Message.mergeField?]
  split <;> simp_all

theorem ClientTransactionRequest.passesOver : PassesOver ClientTransactionRequest [1, 2, 3] := by
  intro m f h
  simp only [Message.mergeField?]
  split <;> simp_all

theorem TransactionResponse.passesOver : PassesOver TransactionResponse [1, 2] := by
  intro m f h
  simp only [Message.mergeField?]
  split <;> simp_all

theorem RootResponse.passesOver : PassesOver RootResponse [1] := by
  intro m f h
  simp only [Message.mergeField?]
  split <;> simp_all

/-- **Messages in a row are the second over the first,** for all five kinds, each with the numbers
that are declared for it. -/
theorem messages_merge :
    Merges [] (fun _ m : Empty => m) ∧ Merges [1, 2, 3] TransactionRequest.overlay ∧
      Merges [1, 2, 3] ClientTransactionRequest.overlay ∧
      Merges [1, 2] TransactionResponse.overlay ∧ Merges [1] RootResponse.overlay := by
  refine ⟨?_, ?_, ?_, ?_, ?_⟩
  · exact merges_of_overlay Empty.passesOver fun _ _ _ => rfl
  · exact merges_of_overlay TransactionRequest.passesOver fun m n _ => m.merge?_eq_overlay n
  · exact merges_of_overlay ClientTransactionRequest.passesOver fun m _ hw => m.merge?_eq_overlay hw
  · exact merges_of_overlay TransactionResponse.passesOver fun m n _ => m.merge?_eq_overlay n
  · exact merges_of_overlay RootResponse.passesOver fun m n _ => m.merge?_eq_overlay n

/-- A submitted transaction and another one over it, with a zero of two octets in front of both, four
octets between them and a counted string behind them: the key stays, the value and the kind are
replaced. -/
theorem messages_merge_strewn :
    Message.decode? [0x20, 0x80, 0x00, 0x0a, 0x06, 0x0a, 0x01, 0x01, 0x12, 0x01, 0x02, 0x3d, 9, 9, 9,
      9, 0x0a, 0x04, 0x12, 0x00, 0x18, 0x01, 0x18, 0x01, 0x32, 0x01, 0x0a] =
        some (⟨some ⟨[1], some [], 1⟩, none, true⟩ : ClientTransactionRequest) := by
  let t : TransactionRequest := ⟨[1], some [2], 0⟩
  let u : TransactionRequest := ⟨[], some [], 1⟩
  let m : ClientTransactionRequest := ⟨some t, none, false⟩
  let n : ClientTransactionRequest := ⟨some u, none, true⟩
  have hone : ∀ {k : Nat}, k < 128 → Varint.Spells k [k.toUInt8] := fun h =>
    ⟨.last h, by simp, Nat.lt_trans h (by decide)⟩
  have hzero : Varint.Spells 0 [0x80, 0x00] :=
    ⟨.more (by decide : 0 < 128) (.last (by decide : 0 < 128)), by decide, by decide⟩
  have hvarint : Field.Spelled ⟨4, .varint 0⟩ ([0x20] ++ [0x80, 0x00]) :=
    .mk (by decide) (by decide) (hone (by decide : 8 * 4 + WireType.varint.number < 128))
      (.varint hzero)
  have hfixed32 : Field.Spelled ⟨7, .fixed32 [9, 9, 9, 9]⟩ ([0x3d] ++ [9, 9, 9, 9]) :=
    .mk (by decide) (by decide) (hone (by decide : 8 * 7 + WireType.fixed32.number < 128))
      (.fixed32 rfl)
  have hdelimited : Field.Spelled ⟨6, .delimited [0x0a]⟩ ([0x32] ++ ([0x01] ++ [0x0a])) :=
    .mk (by decide) (by decide) (hone (by decide : 8 * 6 + WireType.delimited.number < 128))
      (.delimited (hone (by decide : 1 < 128)))
  have hbehind : Strewn [1, 2, 3] (Message.fields n) _ :=
    .field (.field (.other (by decide : 6 ∉ [1, 2, 3]) hdelimited .nil))
  have hstrewn : Strewn [1, 2, 3] (Message.fields m ++ Message.fields n) _ :=
    .other (by decide : 4 ∉ [1, 2, 3]) hvarint
      (.field (.other (by decide : 7 ∉ [1, 2, 3]) hfixed32 hbehind))
  have hoctets : ([0x20] ++ [0x80, 0x00]) ++ (Field.encode ⟨1, .delimited (Message.encode t)⟩ ++
      (([0x3d] ++ [9, 9, 9, 9]) ++ (Field.encode ⟨1, .delimited (Message.encode u)⟩ ++
        (Field.encode ⟨3, .varint 1⟩ ++ (([0x32] ++ ([0x01] ++ [0x0a])) ++ []))))) =
      [0x20, 0x80, 0x00, 0x0a, 0x06, 0x0a, 0x01, 0x01, 0x12, 0x01, 0x02, 0x3d, 9, 9, 9, 9, 0x0a, 0x04,
        0x12, 0x00, 0x18, 0x01, 0x18, 0x01, 0x32, 0x01, 0x0a] := by decide +kernel
  rw [← hoctets, messages_merge.2.2.1.strewn (by decide +kernel) (by decide +kernel) hstrewn]
  decide +kernel

end ShardLoad.Wire
