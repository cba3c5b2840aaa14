/-!
# What a run is configured with

A configuration has four parts: how many virtual users run for how long and how
fast (`Settings`), which shards they call (`Target`), what a request carries
(`Payload`), and the weighted mix of operations (`Step`).  Only the number of
users and the length of the run have no default.

The words are as wide as the values they hold: ports are 16 bits, user counts
and weights 32, all times 64.

* `Config.default`: the built-in transaction workload.
* `Settings.effectiveInterval`: the interval that latencies are corrected for.
-/

namespace ShardLoad

/-- How a virtual user picks the shard of a call. -/
inductive Selection where
  /-- Any shard, each as likely as the others. -/
  | random
  /-- The shards in turn, each user from a start of its own. -/
  | roundRobin
  deriving Repr, DecidableEq

namespace Selection

/-- The spelling of a way to pick shards. -/
def name : Selection → String
  | random => "random"
  | roundRobin => "round-robin"

def all : List Selection := [random, roundRobin]

end Selection

/-- How long a connection is kept. -/
inductive Connection where
  /-- One connection for each call. -/
  | perCall
  /-- Each user keeps one connection for each shard it has called. -/
  | perUser
  deriving Repr, DecidableEq

namespace Connection

/-- The spelling of a connection policy. -/
def name : Connection → String
  | perCall => "per-call"
  | perUser => "per-vu"

def all : List Connection := [perCall, perUser]

end Connection

/-- What a transaction does with its key. -/
inductive TransactionKind where
  /-- Writes a value under it. -/
  | update
  /-- Removes it; no value is sent. -/
  | delete
  deriving Repr, DecidableEq

namespace TransactionKind

/-- The spelling of a transaction kind. -/
def name : TransactionKind → String
  | update => "update"
  | delete => "delete"

def all : List TransactionKind := [update, delete]

end TransactionKind

/-- The two operations of the service. -/
inductive Operation where
  | transaction
  | rootRead
  deriving Repr, DecidableEq

namespace Operation

/-- The name of an operation. -/
def name : Operation → String
  | transaction => "transaction"
  | rootRead => "root-read"

def all : List Operation := [transaction, rootRead]

/-- Different operations have different names. -/
theorem name_injective {a b : Operation} (h : a.name = b.name) : a = b := by
  revert h; cases a <;> cases b <;> decide

end Operation

/-- One entry of the mix of operations. -/
structure Step where
  operation : Operation
  /-- How often the step is chosen, relative to the other steps. -/
  weight : UInt32
  deriving Repr, DecidableEq

/-- Concurrency and timing of a run; the times are milliseconds but for the
length of the run. -/
structure Settings where
  virtualUsers : UInt32
  durationSecs : UInt64
  pacing : UInt64
  timeout : UInt64
  expectedInterval : Option UInt64
  deriving Repr, DecidableEq

namespace Settings

/-- The delay between iterations of one user unless configured otherwise. -/
def defaultPacing : UInt64 := 500

/-- The time a call may take unless configured otherwise. -/
def defaultTimeout : UInt64 := 5000

/-- Settings that give nothing but the number of users and the length. -/
def minimal (virtualUsers : UInt32) (durationSecs : UInt64) : Settings :=
  ⟨virtualUsers, durationSecs, defaultPacing, defaultTimeout, none⟩

/-- The interval between calls of one user that latencies are corrected for:
the expected one, else the pacing, and never zero. -/
def effectiveInterval (s : Settings) : UInt64 :=
  let interval := s.expectedInterval.getD s.pacing
  if interval = 0 then 1 else interval

end Settings

/-- The shards: `poolSize` replicas on consecutive ports of one host. -/
structure Target where
  host : String
  basePort : UInt16
  poolSize : UInt16
  plaintext : Bool
  selection : Selection
  connection : Connection
  deriving Repr, DecidableEq

namespace Target

/-- Ten plaintext shards on the local host. -/
def default : Target := ⟨"localhost", 8000, 10, true, .random, .perCall⟩

end Target

/-- What a request carries. -/
structure Payload where
  /-- Octets of a key. -/
  keyLength : UInt64
  /-- Octets of a value. -/
  valueLength : UInt64
  /-- The token sent along, in Base64. -/
  auxiliary : String
  transactionKind : TransactionKind
  /-- Whether the service is asked to answer only after the commit. -/
  wait : Bool
  deriving Repr, DecidableEq

namespace Payload

/-- The token sent along unless configured otherwise. -/
def defaultAuxiliary : String := "6OWjvfz3RRkoQ7O7RdoPm1O5"

def default : Payload := ⟨4, 5, defaultAuxiliary, .update, true⟩

/-- No key and no value is longer than this. -/
def maxFieldLength : Nat := 4096

end Payload

/-- The configuration of one run. -/
structure Config where
  settings : Settings
  target : Target
  payload : Payload
  scenario : List Step
  deriving Repr, DecidableEq

namespace Config

/-- A mix of transactions only. -/
def defaultScenario : List Step := [⟨.transaction, 100⟩]

/-- Eight users, for a minute, twice a second. -/
def default : Config := ⟨.minimal 8 60, .default, .default, defaultScenario⟩

end Config
end ShardLoad
