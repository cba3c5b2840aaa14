import ShardLoad.Bytes
import ShardLoad.Status

/-!
# The result of a call

A call ends in one of two ways.  The service may answer, with a status and a
body (`Response`), or the call may break on the way (`CallError`): the endpoint
cannot be reached, nothing comes back in time, or what comes back makes no
sense.

`judge` gives each result its verdict.  Only the status OK passes; a rejection
is a failure of its own kind, named after its code, and a broken call fails in
the kind of its error.

A status may also have been made up on the calling side.  Such a `RawStatus`
carries the error it was made from, or it is the report of a body that does not
decode; `RawStatus.classify` turns it into a `CallError` and takes every other
status as an answer.
-/

namespace ShardLoad

/-- The status of an answer. -/
inductive AnswerStatus where
  | ok
  | rejected (code : Status)
  deriving Repr, DecidableEq

namespace AnswerStatus

/-- The label of an answer's status. -/
def label : AnswerStatus → String
  | ok => "ok"
  | rejected code => s!"rejected {code.name}"

end AnswerStatus

/-- What the service answered: a status and a body, which is the returned head
on success and the status text otherwise. -/
structure Response where
  status : AnswerStatus
  body : Bytes
  deriving Repr, DecidableEq

namespace Response

/-- A successful answer. -/
def ok (body : Bytes) : Response := ⟨.ok, body⟩

/-- An answer with a status that is not OK. -/
def rejected (code : Status) (text : String) : Response := ⟨.rejected code, Bytes.utf8 text⟩

end Response

/-- Why a call brought no answer. -/
inductive CallError where
  /-- The endpoint was not reached. -/
  | connection (detail : String)
  /-- Nothing came back in time. -/
  | timeout
  /-- What came back made no sense. -/
  | protocol (detail : String)
  deriving Repr, DecidableEq

/-- The four groups that failures are counted in. -/
inductive Category where
  | connection
  | timeout
  | protocol
  | verification
  deriving Repr, DecidableEq

namespace Category

/-- The name of a group. -/
def name : Category → String
  | connection => "connection"
  | timeout => "timeout"
  | protocol => "protocol"
  | verification => "verification"

/-- The groups in the order in which they are shown. -/
def all : List Category := [connection, timeout, protocol, verification]

/-- Different groups have different names. -/
theorem name_injective {a b : Category} (h : a.name = b.name) : a = b := by
  revert h; cases a <;> cases b <;> decide

end Category

namespace CallError

/-- The group that an error is counted in. -/
def category : CallError → Category
  | connection _ => .connection
  | timeout => .timeout
  | protocol _ => .protocol

/-- The wording of an error. -/
def message : CallError → String
  | connection detail => s!"Connection error: {detail}"
  | timeout => "Request timed out"
  | protocol detail => s!"Protocol error: {detail}"

end CallError

/-! ## Verdicts -/

/-- Why an iteration failed. -/
inductive FailureKind where
  | connection
  | timeout
  | protocol
  /-- Answered, with a status that is not OK. -/
  | verification (code : Status)
  deriving Repr, DecidableEq

namespace FailureKind

/-- The group that a failure is counted in. -/
def category : FailureKind → Category
  | connection => .connection
  | timeout => .timeout
  | protocol => .protocol
  | verification _ => .verification

/-- The text of a failure: its group, and the code of a rejection. -/
def text : FailureKind → String
  | verification code => s!"verification ({code.name})"
  | kind => kind.category.name

/-- The kind of failure that an error is. -/
def ofError : CallError → FailureKind
  | .connection _ => connection
  | .timeout => timeout
  | .protocol _ => protocol

end FailureKind

/-- The verdict on one iteration. -/
inductive Outcome where
  | pass
  | fail (kind : FailureKind)
  deriving Repr, DecidableEq

namespace Outcome

/-- Whether the iteration passed. -/
def isPass : Outcome → Bool
  | pass => true
  | fail _ => false

/-- The text of a verdict. -/
def text : Outcome → String
  | pass => "pass"
  | fail kind => kind.text

end Outcome

/-- The result of a call. -/
abbrev CallResult := Except CallError Response

/-- What a failed call has to say for itself: the wording of its error, or the
status text of its answer. -/
def CallResult.detail : CallResult → String
  | .error e => e.message
  | .ok r => r.body.toText?.getD ""

/-- The verdict on a call. -/
def judge : CallResult → Outcome
  | .ok ⟨.ok, _⟩ => .pass
  | .ok ⟨.rejected code, _⟩ => .fail (.verification code)
  | .error e => .fail (.ofError e)

/-! ## Statuses made up on the calling side -/

/-- A status as it comes out of a failed call. -/
structure RawStatus where
  code : Status
  text : String
  /-- Whether any response header came with it. -/
  hasMetadata : Bool
  /-- Whether it was made from an error on the calling side. -/
  hasCause : Bool
  deriving Repr, DecidableEq

namespace RawStatus

/-- How the report of a body that does not decode begins. -/
def undecodable : String := "failed to decode Protobuf message"

/-- An internal status without headers that reports an undecodable body. -/
def isDecodeFailure (s : RawStatus) : Bool :=
  s.code == .internal && !s.hasMetadata && undecodable.toList.isPrefixOf s.text.toList

/-- Whether the status was made up on the calling side. -/
def isLocal (s : RawStatus) : Bool := s.hasCause || s.isDecodeFailure

/-- The error that a status made up on the calling side stands for. -/
def localError (s : RawStatus) : CallError :=
  match s.code with
  | .unavailable => .connection s.text
  | .deadlineExceeded | .cancelled => .timeout
  | code => .protocol s!"{code.description}: {s.text}"

/-- The result of the call that a status came out of. -/
def classify (s : RawStatus) : CallResult :=
  if s.isLocal then .error s.localError else .ok (.rejected s.code s.text)

end RawStatus
end ShardLoad
