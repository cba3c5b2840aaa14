import ShardLoad.Proofs.Wire.RoundTrip
import ShardLoad.Call
import ShardLoad.Entropy.Source
import ShardLoad.Proofs.Text.Base64

/-!
# A logged request is the one that was sent

A call is written twice: as octets, which go to the service, and as JSON, which goes into the log.
The octets leave out what holds its default and mark what is present; JSON has all members, with
`null` for what is absent and Base64 for octets, so that an empty string is text and not `null`.
Both are read back as the request that was written.

The log has the name of a kind and not its number.  A number that stands for no kind is logged as
an update, so from the log it is read as one; requests that are built have no such number.

* `Call.request?`: what a logged request stands for.
* `Call.request?_toJson`: what is read off the log, for all requests.
* `Call.ReadAlike`: log and octets stand for one request.
* `Builder.knownKind_buildTransaction`: what is built is of a known kind.
* `Call.logged_eq_sent`: requests of a known kind, and those that are built.
-/

namespace ShardLoad

namespace Wire

/-- A transaction with the number of the kind that it is named by. -/
def TransactionRequest.asNamed (t : TransactionRequest) : TransactionRequest :=
  { t with kind := if t.kind = 1 then 1 else 0 }

/-- The number of the kind stands for one. -/
def TransactionRequest.KnownKind (t : TransactionRequest) : Prop := t.kind = 0 ∨ t.kind = 1

theorem TransactionRequest.KnownKind.asNamed {t : TransactionRequest} (h : t.KnownKind) :
    t.asNamed = t := by
  obtain ⟨key, value, kind⟩ := t
  obtain h | h : kind = 0 ∨ kind = 1 := h
  · rw [h]
    rfl
  · rw [h]
    rfl

/-- A request whose transaction, if there is one, is of a known kind. -/
def ClientTransactionRequest.KnownKind (r : ClientTransactionRequest) : Prop :=
  ∀ t, r.transaction = some t → t.KnownKind

end Wire

open Wire (TransactionRequest ClientTransactionRequest Message)

namespace Call

/-! ## Reading the log -/

/-- Octets in Base64. -/
def octets? : Json → Option Bytes
  | .string s => (Base64.decode (Bytes.utf8 s)).toOption
  | _ => none

/-- A value that is absent when there is `null` in its place. -/
def absentOr? {α : Type} (read : Json → Option α) : Json → Option (Option α)
  | .null => some none
  | j => (read j).map some

/-- The number of the kind of a name. -/
def kind? : Json → Option Int32
  | .string "Update" => some 0
  | .string "Delete" => some 1
  | _ => none

/-- A truth value. -/
def bool? : Json → Option Bool
  | .bool b => some b
  | _ => none

/-- A keyed transaction. -/
def keyedTransaction? (j : Json) : Option TransactionRequest := do
  let key ← (j.field? "key").bind octets?
  let value ← (j.field? "value").bind (absentOr? octets?)
  let kind ← (j.field? "transaction_type").bind kind?
  return ⟨key, value, kind⟩

/-- What a logged request stands for. -/
def request? (j : Json) : Option ClientTransactionRequest := do
  let transaction ← (j.field? "transaction").bind (absentOr? keyedTransaction?)
  let auxiliary ← (j.field? "auxiliary").bind (absentOr? octets?)
  let wait ← (j.field? "wait").bind bool?
  return ⟨transaction, auxiliary, wait⟩

/-! ## What is read off the log -/

@[simp] theorem octets?_octetsJson (bs : Bytes) : octets? (octetsJson bs) = some bs := by
  rw [octetsJson, octets?, Base64.decode_utf8_encode]
  rfl

/-- What may be absent is read back, for what is present is never written as `null`. -/
theorem absentOr?_ofOption {α β : Type} {write : α → Json} {read : Json → Option β} {view : α → β}
    (hnull : ∀ a, write a ≠ .null) (hread : ∀ a, read (write a) = some (view a)) (o : Option α) :
    absentOr? read (Json.ofOption write o) = some (o.map view) := by
  cases o with
  | none => rfl
  | some a =>
    have hsome : absentOr? read (write a) = (read (write a)).map some := by
      rw [absentOr?]
      exact hnull a
    rw [Json.ofOption, hsome, hread, Option.map_some, Option.map_some]

theorem octets?_ofOption (o : Option Bytes) :
    absentOr? octets? (Json.ofOption octetsJson o) = some o := by
  have hread : absentOr? octets? (Json.ofOption octetsJson o) = some (o.map id) :=
    absentOr?_ofOption (fun bs => by simp [octetsJson]) octets?_octetsJson o
  rwa [Option.map_id] at hread

theorem kind?_kindName (t : TransactionRequest) :
    kind? (.string t.kindName) = some t.asNamed.kind := by
  unfold TransactionRequest.kindName TransactionRequest.asNamed
  split <;> rfl

/-- A keyed transaction is read back up to a kind that has no name. -/
theorem keyedTransaction?_transactionJson (t : TransactionRequest) :
    keyedTransaction? (transactionJson t) = some t.asNamed := by
  have hkey : (transactionJson t).field? "key" = some (octetsJson t.key) := rfl
  have hvalue : (transactionJson t).field? "value" =
      some (Json.ofOption octetsJson t.value) := rfl
  have hkind : (transactionJson t).field? "transaction_type" = some (.string t.kindName) := rfl
  simp only [keyedTransaction?, hkey, hvalue, hkind, Option.bind_some, octets?_octetsJson,
    octets?_ofOption, kind?_kindName, bind, pure]
  rfl

/-- **A logged request is read back,** with its transaction as the log names its kind. -/
theorem request?_toJson (r : ClientTransactionRequest) :
    request? (transaction r).toJson =
      some ⟨r.transaction.map TransactionRequest.asNamed, r.auxiliary, r.wait⟩ := by
  have htransaction : (transaction r).toJson.field? "transaction" =
      some (Json.ofOption transactionJson r.transaction) := rfl
  have hauxiliary : (transaction r).toJson.field? "auxiliary" =
      some (Json.ofOption octetsJson r.auxiliary) := rfl
  have hwait : (transaction r).toJson.field? "wait" = some (.bool r.wait) := rfl
  have hread := absentOr?_ofOption (fun t => by simp [transactionJson])
    keyedTransaction?_transactionJson r.transaction
  simp only [request?, htransaction, hauxiliary, hwait, Option.bind_some, hread,
    octets?_ofOption, bool?, bind, pure]

/-- A request of a known kind is read off the log as it is. -/
theorem request?_of_knownKind {r : ClientTransactionRequest} (h : r.KnownKind) :
    request? (transaction r).toJson = some r := by
  have hnamed : r.transaction.map TransactionRequest.asNamed = r.transaction := by
    cases ht : r.transaction with
    | none => rfl
    | some t => rw [Option.map_some, (h t ht).asNamed]
  rw [request?_toJson, hnamed]

/-! ## The log and the octets -/

/-- What is read off the log is what is read off the octets, the request that was written. -/
structure ReadAlike (r : ClientTransactionRequest) : Prop where
  alike : request? (transaction r).toJson = Message.decode? (transaction r).wire
  sent : Message.decode? (transaction r).wire = some r

theorem readAlike_of_knownKind {r : ClientTransactionRequest} (hkind : r.KnownKind)
    (hlength : (transaction r).wire.length < 2 ^ 64) : ReadAlike r := by
  have hsent : Message.decode? (transaction r).wire = some r := Message.decode?_encode hlength
  exact ⟨(request?_of_knownKind hkind).trans hsent.symm, hsent⟩

end Call

namespace Builder

variable {σ : Type} [Entropy.WordSource σ]

/-- How many octets the strings of a request have at most. -/
def content (b : Builder) : Nat :=
  b.keyLength + b.valueLength + (b.auxiliary.map List.length).getD 0

/-- What is built: a transaction of a known kind, no longer than configured, and what all
requests share. -/
theorem exists_transaction_built (b : Builder) (source : σ) :
    ∃ t : TransactionRequest, t.KnownKind ∧ t.content ≤ b.keyLength + b.valueLength ∧
      (b.buildTransaction source).1 = ⟨some t, b.auxiliary, b.wait⟩ := by
  let key := Entropy.bytes b.keyLength source
  have hkey : key.1.length = b.keyLength := Entropy.length_bytes b.keyLength source
  unfold buildTransaction
  cases b.kind with
  | update =>
    refine ⟨⟨key.1, some (Entropy.bytes b.valueLength key.2).1, 0⟩, .inl rfl, ?_, rfl⟩
    simp [TransactionRequest.content, hkey]
  | delete =>
    refine ⟨⟨key.1, none, 1⟩, .inr rfl, ?_, rfl⟩
    simp [TransactionRequest.content, hkey]

/-- What is built is of a known kind. -/
theorem knownKind_buildTransaction (b : Builder) (source : σ) :
    (b.buildTransaction source).1.KnownKind := by
  obtain ⟨t, hkind, -, hbuilt⟩ := b.exists_transaction_built source
  rw [hbuilt]
  rintro t ⟨⟩
  exact hkind

theorem content_buildTransaction_le (b : Builder) (source : σ) :
    (b.buildTransaction source).1.content ≤ b.content := by
  obtain ⟨t, -, hcontent, hbuilt⟩ := b.exists_transaction_built source
  rw [hbuilt]
  exact Nat.add_le_add_right hcontent _

/-- What is built can be written. -/
theorem length_encode_buildTransaction_lt {b : Builder} (h : b.content < 2 ^ 63) (source : σ) :
    (Message.encode (b.buildTransaction source).1).length < 2 ^ 64 := by
  have hcontent := b.content_buildTransaction_le source
  have hle := ClientTransactionRequest.length_encode_le (Nat.lt_of_le_of_lt hcontent h)
  omega

end Builder

namespace Call

/-- **The log and the octets of a request stand for the request,** if it is of a known kind, and
so they do for all requests that are built, whatever the payload and the source of its octets.
The lengths are those that octets can be written with. -/
theorem logged_eq_sent {σ : Type} [Entropy.WordSource σ] :
    (∀ r : ClientTransactionRequest, r.KnownKind → (transaction r).wire.length < 2 ^ 64 →
      ReadAlike r) ∧
    ∀ (b : Builder) (source : σ), b.content < 2 ^ 63 →
      ∃ r, (b.build .transaction source).1 = .transaction r ∧ r.KnownKind ∧ ReadAlike r := by
  refine ⟨fun r hkind hlength => readAlike_of_knownKind hkind hlength, ?_⟩
  intro b source hcontent
  have hkind := b.knownKind_buildTransaction source
  have hlength := Builder.length_encode_buildTransaction_lt hcontent source
  exact ⟨(b.buildTransaction source).1, rfl, hkind, readAlike_of_knownKind hkind hlength⟩

/-- A removal whose value is there but empty, without a token, and what is built for the default
payload. -/
theorem logged_eq_sent_removal :
    ReadAlike ⟨some ⟨[0x6b], some [], 1⟩, none, true⟩ ∧
    ∃ b, Builder.ofPayload? .default = .ok b ∧
      ∃ r, (b.build .transaction (Entropy.Source.seeded 9)).1 = .transaction r ∧
        r.KnownKind ∧ ReadAlike r := by
  have hkind : (⟨some ⟨[0x6b], some [], 1⟩, none, true⟩ : ClientTransactionRequest).KnownKind := by
    rintro t ⟨⟩
    exact .inr rfl
  have hlength : (transaction ⟨some ⟨[0x6b], some [], 1⟩, none, true⟩).wire.length < 2 ^ 64 := by
    decide +kernel
  let b : Builder := ⟨4, 5, some [0xe8, 0xe5, 0xa3, 0xbd, 0xfc, 0xf7, 0x45, 0x19, 0x28, 0x43, 0xb3,
    0xbb, 0x45, 0xda, 0x0f, 0x9b, 0x53, 0xb9], .update, true⟩
  have hbuilder : Builder.ofPayload? .default = .ok b := by decide +kernel
  refine ⟨(logged_eq_sent (σ := Entropy.Source)).1 _ hkind hlength, b, hbuilder, ?_⟩
  exact logged_eq_sent.2 b (Entropy.Source.seeded 9) (by decide)

end Call
end ShardLoad
