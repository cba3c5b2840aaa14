import ShardLoad.Config.Basic
import ShardLoad.Duration
import ShardLoad.Invocation

/-!
# What a run logs

A run logs its start and its end.  A user logs each call that passed or failed,
each request if asked to, and why it stopped.  Entries differ in how much they
matter, and a reader chooses from which severity on they are shown.

* `Exit`: why a user stopped.
* `Event`: one entry of the log.
* `Event.severity`: how much an entry matters.
* `Event.line`: an entry as a line of text.
-/

namespace ShardLoad

/-- Why a user stopped. -/
inductive Exit where
  /-- The time of the run was over. -/
  | deadline
  /-- All iterations of the run were taken. -/
  | iterationCap
  /-- The run was cancelled. -/
  | cancelled
  /-- Nobody was there any more to take the samples. -/
  | channelClosed
  deriving Repr, DecidableEq

/-- The name of a reason to stop. -/
def Exit.name : Exit → String
  | deadline => "Deadline"
  | iterationCap => "IterationCap"
  | cancelled => "Cancelled"
  | channelClosed => "ChannelClosed"

/-- How much an entry of a log matters. -/
inductive Severity where
  | debug
  | info
  | warn
  deriving Repr, DecidableEq

namespace Severity

/-- The name of a severity. -/
def name : Severity → String
  | debug => "DEBUG"
  | info => "INFO"
  | warn => "WARN"

/-- Severities as numbers, greater ones for what matters more. -/
def rank : Severity → Nat
  | debug => 0
  | info => 1
  | warn => 2

end Severity

/-- What a user logs. -/
inductive UserEvent where
  /-- A request that is about to be sent, as JSON. -/
  | request (shard : String) (index : Option Nat) (operation : Operation) (payload : String)
  | passed (shard : String) (latency : Duration)
  /-- The first failure of a user is told apart from later ones. -/
  | failed (first : Bool) (shard : String) (kind : FailureKind) (detail : String)
  | finished (iterations : Nat) (exit : Exit)
  deriving Repr, DecidableEq

namespace UserEvent

/-- How much an entry matters. -/
def severity : UserEvent → Severity
  | request .. => .info
  | passed .. => .debug
  | failed true .. => .warn
  | failed false .. => .debug
  | finished .. => .debug

/-- What an entry is about. -/
def message : UserEvent → String
  | request .. => "request"
  | passed .. => "ok"
  | failed true .. => "first failed iteration"
  | failed false .. => "failed"
  | finished .. => "virtual user finished"

/-- The fields of an entry, in the order in which they are written. -/
def fields : UserEvent → List (String × String)
  | request shard index operation payload =>
    [("shard", shard), ("shard_index", (index.map toString).getD "none"),
      ("operation", operation.name), ("payload", payload)]
  | passed shard latency => [("shard", shard), ("duration", latency.text)]
  | failed _ shard kind detail => [("shard", shard), ("kind", kind.text), ("detail", detail)]
  | finished iterations exit =>
    [("iterations", toString iterations), ("exit", exit.name)]

end UserEvent

/-- One entry of the log. -/
inductive Event where
  | started (users durationSecs pacing shards basePort : Nat)
  | user (id : Nat) (e : UserEvent)
  | ended (iterations passed failed millis : Nat)
  deriving Repr, DecidableEq

namespace Event

/-- How much an entry matters. -/
def severity : Event → Severity
  | started .. => .info
  | user _ e => e.severity
  | ended .. => .info

/-- What an entry is about. -/
def message : Event → String
  | started .. => "starting load test"
  | user _ e => e.message
  | ended .. => "load test finished"

/-- The fields of an entry, in the order in which they are written. -/
def fields : Event → List (String × String)
  | started users durationSecs pacing shards basePort =>
    [("vus", toString users), ("duration_secs", toString durationSecs),
      ("pacing_ms", toString pacing), ("shards", toString shards),
      ("base_port", toString basePort)]
  | user id e => ("vu", toString id) :: e.fields
  | ended iterations passed failed millis =>
    [("iterations", toString iterations), ("ok", toString passed),
      ("failed", toString failed), ("elapsed_ms", toString millis)]

/-- An entry as a line of text. -/
def line (e : Event) : String :=
  " ".intercalate (e.severity.name :: e.message ::
    e.fields.map fun (name, value) => name ++ "=" ++ value)

end Event
end ShardLoad
