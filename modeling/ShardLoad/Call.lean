import ShardLoad.Config.Basic
import ShardLoad.Entropy.WordSource
import ShardLoad.Json.Printer
import ShardLoad.Text.Base64
import ShardLoad.Text.Blank
import ShardLoad.Wire.Message

/-!
# Calls

A call is a transaction with a request of its own, or a root read, which
carries nothing.  A `Builder` holds what all requests of a run share and makes
each request from fresh draws: the key first, then, for an update, the value.

The token sent along is Base64 text in the configuration.  Blanks around it do
not count, and an empty token is not sent at all.

* `Payload.token`: the octets of the configured token.
* `Builder.build`: the call for one operation.
* `Call.toJson`: the call as JSON, octets in Base64, members sorted by name.
-/

namespace ShardLoad

/-- The octets of the token that goes along with each transaction. -/
def Payload.token (p : Payload) : Except Base64.DecodeError Bytes :=
  Base64.decode (Bytes.utf8 (Text.trim p.auxiliary))

/-- One call that is ready to be made. -/
inductive Call where
  | transaction (request : Wire.ClientTransactionRequest)
  | rootRead
  deriving Repr, DecidableEq

namespace Call

/-- The operation that a call belongs to. -/
def operation : Call → Operation
  | transaction _ => .transaction
  | rootRead => .rootRead

/-- The encoded request. -/
def wire : Call → Bytes
  | transaction request => Wire.Message.encode request
  | rootRead => Wire.Message.encode (⟨⟩ : Wire.Empty)

/-- Octets in Base64. -/
def octetsJson (bs : Bytes) : Json := .string (Base64.encode bs)

/-- A keyed transaction as JSON. -/
def transactionJson (t : Wire.TransactionRequest) : Json :=
  .object [("key", octetsJson t.key), ("transaction_type", .string t.kindName),
    ("value", Json.ofOption octetsJson t.value)]

/-- A submitted transaction as JSON. -/
def requestJson (r : Wire.ClientTransactionRequest) : Json :=
  .object [("auxiliary", Json.ofOption octetsJson r.auxiliary),
    ("transaction", Json.ofOption transactionJson r.transaction), ("wait", .bool r.wait)]

/-- The request of a call as JSON. -/
def toJson : Call → Json
  | transaction request => requestJson request
  | rootRead => .object []

end Call

/-- What all requests of a run share. -/
structure Builder where
  keyLength : Nat
  valueLength : Nat
  auxiliary : Option Bytes
  kind : TransactionKind
  wait : Bool
  deriving Repr, DecidableEq

namespace Builder

/-- The builder of a payload section; an empty token becomes an absent one. -/
def ofPayload? (p : Payload) : Except Base64.DecodeError Builder := do
  let token ← p.token
  return ⟨p.keyLength.toNat, p.valueLength.toNat, if token = [] then none else some token,
    p.transactionKind, p.wait⟩

variable {σ : Type} [Entropy.WordSource σ]

/-- A transaction with a fresh key and, for an update, a fresh value. -/
def buildTransaction (b : Builder) (source : σ) : Wire.ClientTransactionRequest × σ :=
  let (key, source) := Entropy.bytes b.keyLength source
  match b.kind with
  | .update =>
    let (value, source) := Entropy.bytes b.valueLength source
    (⟨some ⟨key, some value, 0⟩, b.auxiliary, b.wait⟩, source)
  | .delete => (⟨some ⟨key, none, 1⟩, b.auxiliary, b.wait⟩, source)

/-- The call for one operation; a root read draws nothing. -/
def build (b : Builder) (operation : Operation) (source : σ) : Call × σ :=
  match operation with
  | .transaction =>
    let (request, source) := b.buildTransaction source
    (.transaction request, source)
  | .rootRead => (.rootRead, source)

/-- A call belongs to the operation that it was built for. -/
@[simp] theorem operation_build (b : Builder) (operation : Operation) (source : σ) :
    (b.build operation source).1.operation = operation := by
  cases operation <;> rfl

end Builder
end ShardLoad
