import ShardLoad.Proofs.Wire.RoundTrip

/-!
# Messages that are cut off

What is read at the start of a string does not depend on what follows it, so what was read once is
read again when more octets follow.  A field that is cut off is therefore never read: if it were,
it would also be read from the whole field, of which nothing would then be left to cut off.  This
covers every place inside a field, be it in its key, in a number, in a string or in an embedded
message, without a look at any of them.

Between two fields a cut cannot be told from the end.  What is read there is the message without
the fields behind the cut, which have their defaults.

* `decodeField?_append_of_eq_some`: what was read is read with more behind it.
* `decodeField?_take`: a field that is cut off is not read.
* `parse?_take`: a row is read up to a cut only if the cut is between two fields.
* `DetectsCuts`, `messages_cut_off`: cuts of messages of all five kinds.
-/

namespace ShardLoad.Wire

/-! ## What follows makes no difference -/

theorem Varint.decodeFrom?_append_of_eq_some {taken v : Nat} {bs rest : Bytes}
    (h : decodeFrom? taken bs = some (v, rest)) (more : Bytes) :
    decodeFrom? taken (bs ++ more) = some (v, rest ++ more) := by
  induction bs generalizing taken v with
  | nil => exact absurd h (by simp [decodeFrom?])
  | cons b bs ih =>
    rw [List.cons_append, decodeFrom?]
    rw [decodeFrom?] at h
    split at h
    · rename_i hlast
      rw [if_pos hlast]
      split at h
      · cases h
      · rename_i hfits
        obtain ⟨rfl, rfl⟩ := Prod.mk.injEq .. ▸ Option.some.inj h
        rw [if_neg hfits]
    · rename_i hlast
      rw [if_neg hlast]
      split at h
      · cases h
      · rename_i hroom
        obtain ⟨⟨w, r⟩, hw, he⟩ := Option.map_eq_some_iff.mp h
        obtain ⟨rfl, rfl⟩ := Prod.mk.injEq .. ▸ he
        rw [if_neg hroom, ih hw, Option.map_some]

theorem Varint.decode?_append_of_eq_some {v : Nat} {bs rest : Bytes}
    (h : decode? bs = some (v, rest)) (more : Bytes) :
    decode? (bs ++ more) = some (v, rest ++ more) :=
  decodeFrom?_append_of_eq_some h more

theorem split?_append_of_eq_some {n : Nat} {bs taken rest : Bytes}
    (h : split? n bs = some (taken, rest)) (more : Bytes) :
    split? n (bs ++ more) = some (taken, rest ++ more) := by
  unfold split? at h ⊢
  split at h
  · rename_i hle
    obtain ⟨rfl, rfl⟩ := Prod.mk.injEq .. ▸ Option.some.inj h
    rw [if_pos (by rw [List.length_append]; omega), List.take_append_of_le_length hle,
      List.drop_append_of_le_length hle]
  · cases h

theorem decodeKey?_append_of_eq_some {n : Nat} {t : WireType} {bs rest : Bytes}
    (h : decodeKey? bs = some (n, t, rest)) (more : Bytes) :
    decodeKey? (bs ++ more) = some (n, t, rest ++ more) := by
  simp only [decodeKey?, bind, Option.bind_eq_some_iff, Prod.exists] at h ⊢
  obtain ⟨key, r, hkey, h⟩ := h
  refine ⟨key, r ++ more, Varint.decode?_append_of_eq_some hkey more, ?_⟩
  split at h
  · cases h
  · rename_i hfits
    rw [if_neg hfits]
    obtain ⟨u, hu, h⟩ := Option.bind_eq_some_iff.mp h
    rw [hu, Option.bind_some]
    split at h
    · cases h
    · rename_i hpos
      rw [if_neg hpos]
      obtain ⟨rfl, rfl, rfl⟩ : key / 8 = n ∧ u = t ∧ r = rest := by simpa using h
      rfl

theorem skipPlain?_append_of_eq_some {t : WireType} {bs rest : Bytes}
    (h : skipPlain? t bs = some rest) (more : Bytes) :
    skipPlain? t (bs ++ more) = some (rest ++ more) := by
  cases t with
  | varint =>
    obtain ⟨⟨n, r⟩, hn, rfl⟩ := Option.map_eq_some_iff.mp h
    rw [skipPlain?, Varint.decode?_append_of_eq_some hn, Option.map_some]
  | fixed64 | fixed32 =>
    obtain ⟨⟨v, r⟩, hv, rfl⟩ := Option.map_eq_some_iff.mp h
    rw [skipPlain?, split?_append_of_eq_some hv, Option.map_some]
  | delimited =>
    obtain ⟨⟨n, r⟩, hn, h⟩ := Option.bind_eq_some_iff.mp h
    obtain ⟨⟨v, r'⟩, hv, rfl⟩ := Option.map_eq_some_iff.mp h
    simp only [skipPlain?, Varint.decode?_append_of_eq_some hn, bind, Option.bind_some,
      split?_append_of_eq_some hv, Option.map_some]
  | groupStart | groupEnd => cases h

theorem skipGroups?_append_of_eq_some {budget : Nat} {opened : List Nat} {bs rest : Bytes}
    (h : skipGroups? budget opened bs = some rest) (more : Bytes) :
    skipGroups? budget opened (bs ++ more) = some (rest ++ more) := by
  fun_induction skipGroups? budget opened bs generalizing rest with
  | case1 bs =>
    obtain rfl := Option.some.inj h
    rw [skipGroups?]
  | case2 | case4 => cases h
  | case3 bs outer number after hkey ih =>
    have hmore := decodeKey?_append_of_eq_some hkey more
    rw [skipGroups?_of_decodeKey? hmore, if_pos rfl, if_pos rfl, ih h]
  | case5 bs innermost outer number t after hkey hend hfull =>
    rw [if_pos hfull] at h
    cases h
  | case6 bs innermost outer number after hroom hkey hend ih =>
    have hmore := decodeKey?_append_of_eq_some hkey more
    rw [if_neg hroom, if_pos rfl] at h
    rw [skipGroups?_of_decodeKey? hmore, if_neg hend, if_neg hroom, if_pos rfl, ih h]
  | case7 bs innermost outer number t after hkey hend hstart hskip hroom =>
    rw [if_neg hroom, if_neg hstart] at h
    split at h
    · cases h
    · rename_i hpassed
      rw [hskip] at hpassed
      cases hpassed
  | case8 bs innermost outer number t after hkey hend hstart after' hskip hroom ih =>
    have hmore := decodeKey?_append_of_eq_some hkey more
    have hpassed := skipPlain?_append_of_eq_some hskip more
    rw [if_neg hroom, if_neg hstart] at h
    rw [skipGroups?_of_decodeKey? hmore, if_neg hend, if_neg hroom, if_neg hstart, hpassed,
      Option.bind_some]
    split at h
    · cases h
    · rename_i hsame
      obtain rfl := Option.some.inj (hskip.symm.trans hsame)
      exact ih h

/-- A value that was read is read with more behind it. -/
theorem decodeValue?_append_of_eq_some {budget number : Nat} {t : WireType} {v : FieldValue}
    {bs rest : Bytes} (h : decodeValue? budget number t bs = some (v, rest)) (more : Bytes) :
    decodeValue? budget number t (bs ++ more) = some (v, rest ++ more) := by
  cases t with
  | varint =>
    obtain ⟨⟨n, r⟩, hn, he⟩ := Option.map_eq_some_iff.mp h
    obtain ⟨rfl, rfl⟩ := Prod.mk.injEq .. ▸ he
    rw [decodeValue?, Varint.decode?_append_of_eq_some hn, Option.map_some]
  | fixed64 | fixed32 =>
    obtain ⟨⟨taken, r⟩, htaken, he⟩ := Option.map_eq_some_iff.mp h
    obtain ⟨rfl, rfl⟩ := Prod.mk.injEq .. ▸ he
    rw [decodeValue?, split?_append_of_eq_some htaken, Option.map_some]
  | delimited =>
    obtain ⟨⟨n, r⟩, hn, h⟩ := Option.bind_eq_some_iff.mp h
    obtain ⟨⟨taken, r'⟩, htaken, he⟩ := Option.map_eq_some_iff.mp h
    obtain ⟨rfl, rfl⟩ := Prod.mk.injEq .. ▸ he
    simp only [decodeValue?, Varint.decode?_append_of_eq_some hn, bind, Option.bind_some,
      split?_append_of_eq_some htaken, Option.map_some]
  | groupStart =>
    obtain ⟨r, hr, he⟩ := Option.map_eq_some_iff.mp h
    obtain ⟨rfl, rfl⟩ := Prod.mk.injEq .. ▸ he
    rw [decodeValue?, skipGroups?_append_of_eq_some hr, Option.map_some]
  | groupEnd => cases h

/-- A field that was read is read with more behind it. -/
theorem decodeField?_append_of_eq_some {budget : Nat} {f : Field} {bs rest : Bytes}
    (h : decodeField? budget bs = some (f, rest)) (more : Bytes) :
    decodeField? budget (bs ++ more) = some (f, rest ++ more) := by
  simp only [decodeField?, bind, Option.bind_eq_some_iff, Prod.exists] at h ⊢
  obtain ⟨number, t, valued, hkey, v, r, hvalue, he⟩ := h
  obtain ⟨rfl, rfl⟩ := Prod.mk.injEq .. ▸ Option.some.inj he
  exact ⟨number, t, valued ++ more, decodeKey?_append_of_eq_some hkey more, v, r ++ more,
    decodeValue?_append_of_eq_some hvalue more, rfl⟩

/-! ## Fields and rows that are cut off -/

/-- A field that is cut off is not read. -/
theorem decodeField?_take (budget : Nat) {f : Field} (hf : f.Writable) {n : Nat}
    (hn : n < f.encode.length) : decodeField? budget (f.encode.take n) = none := by
  rcases hread : decodeField? budget (f.encode.take n) with _ | ⟨g, rest⟩
  · rfl
  · have hwhole := decodeField?_append_of_eq_some hread (f.encode.drop n)
    have hall := decodeField?_encode_append budget hf []
    rw [List.take_append_drop] at hwhole
    rw [List.append_nil, hwhole] at hall
    -- nothing follows a whole field, so nothing was cut off
    obtain ⟨-, hnothing⟩ := Prod.mk.injEq .. ▸ Option.some.inj hall
    have hdrop := List.drop_eq_nil_iff.mp (List.append_eq_nil_iff.mp hnothing).2
    omega

/-- A row that is cut off is read only if the cut is between two of its fields. -/
theorem parse?_take (budget : Nat) {fs : List Field} (hw : ∀ f ∈ fs, f.Writable) {n : Nat}
    (hn : n < (fs.flatMap Field.encode).length)
    (hcut : ∀ k, ((fs.take k).flatMap Field.encode).length ≠ n) :
    parse? budget ((fs.flatMap Field.encode).take n) = none := by
  induction fs generalizing n with
  | nil => exact absurd hn (Nat.not_lt_zero n)
  | cons f fs ih =>
    rw [List.flatMap_cons] at hn ⊢
    by_cases hlt : n < f.encode.length
    · have hne : (f.encode.take n) ≠ [] := by
        intro hnil
        have hzero : n = 0 := by
          have hlength := congrArg List.length hnil
          rw [List.length_take, List.length_nil] at hlength
          omega
        exact hcut 0 (by rw [hzero]; rfl)
      rw [List.take_append_of_le_length (Nat.le_of_lt hlt), parse?, if_neg hne]
      split
      · rfl
      · rename_i g rest hread
        rw [decodeField?_take budget (hw f List.mem_cons_self) hlt] at hread
        cases hread
    · have hle : f.encode.length ≤ n := Nat.le_of_not_lt hlt
      have hrest : ∀ k, ((fs.take k).flatMap Field.encode).length ≠ n - f.encode.length := by
        intro k hk
        refine hcut (k + 1) ?_
        rw [List.take_succ_cons, List.flatMap_cons, List.length_append, hk]
        omega
      have hfield := decodeField?_encode_append budget (hw f List.mem_cons_self)
        ((fs.flatMap Field.encode).take (n - f.encode.length))
      rw [List.length_append] at hn
      rw [List.take_append, List.take_of_length_le hle, parse?_of_decodeField? hfield,
        ih (fun g hg => hw g (List.mem_cons_of_mem f hg)) (by omega) hrest, Option.map_none]

/-! ## Messages without some of their fields -/

/-- Fields with numbers of their own are in front of a cut exactly if their numbers are not behind
it. -/
theorem without_drop {fs : List Field} (h : (fs.map Field.number).Nodup) (k : Nat) :
    without ((fs.drop k).map Field.number) fs = fs.take k := by
  have happart : ∀ f ∈ fs.take k, f.number ∉ (fs.drop k).map Field.number := by
    intro f hf hbehind
    rw [← List.take_append_drop k fs, List.map_append, List.nodup_append] at h
    exact h.2.2 _ (List.mem_map_of_mem hf) _ hbehind rfl
  have hsplit : without ((fs.drop k).map Field.number) fs =
      without ((fs.drop k).map Field.number) (fs.take k) ++
        without ((fs.drop k).map Field.number) (fs.drop k) := by
    rw [← without_append, List.take_append_drop]
  have hfront : without ((fs.drop k).map Field.number) (fs.take k) = fs.take k :=
    List.filter_eq_self.mpr fun f hf => decide_eq_true (happart f hf)
  have hbehind : without ((fs.drop k).map Field.number) (fs.drop k) = [] :=
    List.filter_eq_nil_iff.mpr fun f hf hne =>
      (of_decide_eq_true hne) (List.mem_map_of_mem hf)
  rw [hsplit, hfront, hbehind, List.append_nil]

namespace TransactionRequest

/-- A transaction with defaults for the fields of some numbers. -/
def reset (ns : List Nat) (m : TransactionRequest) : TransactionRequest where
  key := if 1 ∈ ns then [] else m.key
  value := if 2 ∈ ns then none else m.value
  kind := if 3 ∈ ns then 0 else m.kind

theorem fields_reset (ns : List Nat) (m : TransactionRequest) :
    Message.fields (m.reset ns) = without ns (Message.fields m) := by
  rw [fields_eq_row, fields_eq_row, without_row]
  simp [slots, reset, Slot.clear_bytes, Slot.clear_optionalBytes, Slot.clear_int32]

theorem nodup_numbers (m : TransactionRequest) : (Message.numbers m).Nodup := by
  rw [Message.numbers, fields_eq_row]
  exact (numbers_row_sublist m.slots).nodup (by decide : [1, 2, 3].Nodup)

end TransactionRequest

namespace ClientTransactionRequest

/-- A submitted transaction with defaults for the fields of some numbers. -/
def reset (ns : List Nat) (m : ClientTransactionRequest) : ClientTransactionRequest where
  transaction := if 1 ∈ ns then none else m.transaction
  auxiliary := if 2 ∈ ns then none else m.auxiliary
  wait := if 3 ∈ ns then false else m.wait

theorem fields_reset (ns : List Nat) (m : ClientTransactionRequest) :
    Message.fields (m.reset ns) = without ns (Message.fields m) := by
  have htransaction : (m.reset ns).transaction.map Message.encode =
      if 1 ∈ ns then none else m.transaction.map Message.encode := by
    unfold reset
    split <;> rfl
  rw [fields_eq_row, fields_eq_row, without_row]
  simp only [slots, List.map_cons, List.map_nil, htransaction, Slot.clear_optionalBytes,
    Slot.clear_bool]
  rfl

theorem nodup_numbers (m : ClientTransactionRequest) : (Message.numbers m).Nodup := by
  rw [Message.numbers, fields_eq_row]
  exact (numbers_row_sublist m.slots).nodup (by decide : [1, 2, 3].Nodup)

end ClientTransactionRequest

namespace TransactionResponse

/-- An answer with defaults for the fields of some numbers. -/
def reset (ns : List Nat) (m : TransactionResponse) : TransactionResponse where
  head := if 1 ∈ ns then [] else m.head
  status := if 2 ∈ ns then 0 else m.status

theorem fields_reset (ns : List Nat) (m : TransactionResponse) :
    Message.fields (m.reset ns) = without ns (Message.fields m) := by
  rw [fields_eq_row, fields_eq_row, without_row]
  simp [slots, reset, Slot.clear_bytes, Slot.clear_int32]

theorem nodup_numbers (m : TransactionResponse) : (Message.numbers m).Nodup := by
  rw [Message.numbers, fields_eq_row]
  exact (numbers_row_sublist m.slots).nodup (by decide : [1, 2].Nodup)

end TransactionResponse

namespace RootResponse

/-- An answer with defaults for the fields of some numbers. -/
def reset (ns : List Nat) (m : RootResponse) : RootResponse where
  head := if 1 ∈ ns then [] else m.head

theorem fields_reset (ns : List Nat) (m : RootResponse) :
    Message.fields (m.reset ns) = without ns (Message.fields m) := by
  rw [fields_eq_row, fields_eq_row, without_row]
  simp [slots, reset, Slot.clear_bytes]

theorem nodup_numbers (m : RootResponse) : (Message.numbers m).Nodup := by
  rw [Message.numbers, fields_eq_row]
  exact (numbers_row_sublist m.slots).nodup (by decide : [1].Nodup)

end RootResponse

/-! ## Messages that are cut off -/

namespace Message

variable {α : Type} [Message α]

/-- A cut after so many octets of a message is behind its first `k` fields and in front of the
others. -/
def CutsBehind (m : α) (k n : Nat) : Prop :=
  (((fields m).take k).flatMap Field.encode).length = n

/-- The numbers of the fields of a message behind its first `k`. -/
def numbersBehind (m : α) (k : Nat) : List Nat := ((fields m).drop k).map Field.number

end Message

/-- A message that is cut off is read if and only if the cut is between two of its fields or in
front of them all, and then as the message with defaults for the fields behind the cut. -/
structure DetectsCuts {α : Type} [Message α] (reset : List Nat → α → α) : Prop where
  read_iff : ∀ {m : α} {n : Nat}, (Message.encode m).length < 2 ^ 64 →
    n < (Message.encode m).length →
      ((∃ m' : α, Message.decode? ((Message.encode m).take n) = some m') ↔
        ∃ k, Message.CutsBehind m k n)
  read : ∀ {m : α} {k n : Nat}, (Message.encode m).length < 2 ^ 64 → Message.CutsBehind m k n →
    Message.decode? ((Message.encode m).take n) = some (reset (Message.numbersBehind m k) m)

/-- Messages of which fields can be left out detect where they were cut off. -/
theorem detectsCuts_of_reset {α : Type} [Message α] [LawfulMessage α] {reset : List Nat → α → α}
    (hfields : ∀ ns m, Message.fields (reset ns m) = without ns (Message.fields m))
    (hnodup : ∀ m : α, (Message.numbers m).Nodup) : DetectsCuts reset := by
  have hread : ∀ {m : α} {k n : Nat}, (Message.encode m).length < 2 ^ 64 →
      Message.CutsBehind m k n →
      Message.decode? ((Message.encode m).take n) = some (reset (Message.numbersBehind m k) m) := by
    rintro m k n hlength rfl
    have hrow : Message.encode m = ((Message.fields m).take k).flatMap Field.encode ++
        ((Message.fields m).drop k).flatMap Field.encode := by
      rw [← List.flatMap_append, List.take_append_drop]
      rfl
    have hfront : ((Message.fields m).take k).flatMap Field.encode =
        Message.encode (reset (Message.numbersBehind m k) m) := by
      show _ = (Message.fields (reset (Message.numbersBehind m k) m)).flatMap Field.encode
      rw [hfields, Message.numbersBehind, without_drop (hnodup m)]
    rw [hrow, List.take_left, hfront]
    refine Message.decode?_encode ?_
    rw [hrow, List.length_append, hfront] at hlength
    omega
  refine ⟨fun {m n} hlength hn => ⟨?_, ?_⟩, hread⟩
  · rintro ⟨m', hm'⟩
    refine Classical.byContradiction fun hnone => ?_
    have hparse := parse?_take maxNesting (Message.writable_of_length_lt hlength) hn
      fun k hk => hnone ⟨k, hk⟩
    obtain ⟨fs, hfs, -⟩ := Option.bind_eq_some_iff.mp hm'
    exact absurd (hparse.symm.trans hfs) (by simp)
  · rintro ⟨k, hk⟩
    exact ⟨_, hread hlength hk⟩

/-- **Messages that are cut off are not read, unless the cut is between two fields,** for all five
kinds. -/
theorem messages_cut_off :
    DetectsCuts (fun (_ : List Nat) (m : Empty) => m) ∧ DetectsCuts TransactionRequest.reset ∧
      DetectsCuts ClientTransactionRequest.reset ∧ DetectsCuts TransactionResponse.reset ∧
      DetectsCuts RootResponse.reset := by
  refine ⟨?_, ?_, ?_, ?_, ?_⟩
  · exact detectsCuts_of_reset (fun _ _ => rfl) fun _ => List.nodup_nil
  · exact detectsCuts_of_reset TransactionRequest.fields_reset TransactionRequest.nodup_numbers
  · exact detectsCuts_of_reset ClientTransactionRequest.fields_reset
      ClientTransactionRequest.nodup_numbers
  · exact detectsCuts_of_reset TransactionResponse.fields_reset TransactionResponse.nodup_numbers
  · exact detectsCuts_of_reset RootResponse.fields_reset RootResponse.nodup_numbers

/-- A submitted transaction of thirteen octets: behind the eighth the transaction ends, behind the
fifth only its key. -/
theorem messages_cut_off_transaction :
    Message.decode? [0x0a, 0x06, 0x0a, 0x01, 0x01, 0x12, 0x01, 0x02] =
        some (⟨some ⟨[1], some [2], 0⟩, none, false⟩ : ClientTransactionRequest) ∧
      ¬ ∃ m : ClientTransactionRequest,
        Message.decode? [0x0a, 0x06, 0x0a, 0x01, 0x01] = some m := by
  let m : ClientTransactionRequest := ⟨some ⟨[1], some [2], 0⟩, some [9], true⟩
  have hoctets : Message.encode m =
      [0x0a, 0x06, 0x0a, 0x01, 0x01, 0x12, 0x01, 0x02, 0x12, 0x01, 0x09, 0x18, 0x01] := by
    decide +kernel
  have hlength : (Message.encode m).length < 2 ^ 64 := by rw [hoctets]; decide
  have hcut : Message.CutsBehind m 1 8 := by
    unfold Message.CutsBehind
    decide +kernel
  have hread := messages_cut_off.2.2.1.read hlength hcut
  have hread_iff := messages_cut_off.2.2.1.read_iff (n := 5) hlength (by rw [hoctets]; decide)
  rw [hoctets] at hread hread_iff
  refine ⟨hread, fun h => ?_⟩
  obtain ⟨k, hk⟩ := hread_iff.mp h
  unfold Message.CutsBehind at hk
  match k with
  | 0 => exact absurd hk (by decide +kernel)
  | 1 => exact absurd hk (by decide +kernel)
  | 2 => exact absurd hk (by decide +kernel)
  | k + 3 =>
    rw [List.take_of_length_le (Nat.le_add_left 3 k)] at hk
    exact absurd hk (by decide +kernel)

end ShardLoad.Wire
