import ShardLoad.Config.Load
import ShardLoad.Run.Engine

/-!
# What a command leaves behind

A command ends with a code, and has written lines on two channels: its answer on
one, and what it says about its work on the other.  If it fails, the last of these
lines says why.

* `CommandError`: why a command fails, with its wording and its code.
* `Reply`: what a command leaves behind.
-/

namespace ShardLoad

/-- Why a command fails. -/
inductive CommandError where
  /-- The configuration that was asked for is not there. -/
  | configMissing (path : String)
  /-- There is a configuration already. -/
  | configPresent (path : String)
  | config (path : String) (e : ConfigError)
  | run (e : RunError)
  /-- Iterations failed, and none was to fail. -/
  | iterations (failed total : Nat)
  | file (e : FileFault)
  deriving Repr

/-- The wording of why a run has no result. -/
def RunError.message : RunError → String
  | invalid e => ConfigError.message (.invalid e)
  | beyondClock => "overflow when adding duration to instant"
  | endless => "the run does not end"

namespace CommandError

/-- The wording of a failure. -/
def message : CommandError → String
  | configMissing path => "Config file not found: " ++ path ++
      "\nUse `mverse-loadgen init` to create one."
  | configPresent path => "Config file already exists: " ++ path ++
      "\nUse `--force` to overwrite."
  | config path e => "Failed to load config '" ++ path ++ "': " ++ e.message
  | run e => "Load test failed: " ++ e.message
  | iterations failed total => s!"{failed} of {total} iterations failed"
  | file e => e.message

/-- The code that a failure ends with; a run that no clock can time is broken off. -/
def code : CommandError → Nat
  | run .beyondClock => 101
  | _ => 1

end CommandError

/-- What a command leaves behind. -/
structure Reply where
  code : Nat
  /-- The lines of the answer. -/
  output : List String
  /-- The lines about the work. -/
  notes : List String
  /-- What the run logged that was to be shown. -/
  log : List Event
  deriving Repr

namespace Reply

/-- A command that has gone well. -/
def done (output notes : List String) (log : List Event) : Reply := ⟨0, output, notes, log⟩

/-- A command that ends in a failure. -/
def failed (output notes : List String) (log : List Event) (e : CommandError) : Reply :=
  ⟨e.code, output, notes ++ ["Error: " ++ e.message], log⟩

/-- The code for a mistake in the arguments. -/
def misuseCode : Nat := 2

/-- The arguments cannot be understood. -/
def misuse (notes : List String) : Reply := ⟨misuseCode, [], notes, []⟩

end Reply
end ShardLoad
