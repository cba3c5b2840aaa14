import ShardLoad.Command.Help
import ShardLoad.Command.Run

/-!
# The program

The program does what its arguments ask for.  The configuration of a run can also
be named by the environment.

* `Request.answer`: what comes of a request.
* `Program.answer`: what comes of a command line.
-/

namespace ShardLoad

variable {m : Type → Type} [Monad m]

/-- What the version is asked with gives. -/
def versionLine : String := "mverse-loadgen 0.1.0"

/-- What comes of a request. -/
def Request.answer (h : Host m) : Request → m Reply
  | .version => return .done [versionLine] [] []
  | .help topic => return .done topic.lines [] []
  | .run r => r.answer h
  | .init r => r.answer h

namespace Program

/-- The name under which the environment has the path of a configuration. -/
def configVariable : String := "MVERSE_LOADTEST_CONFIG"

/-- What comes of a command line. -/
def answer (h : Host m) (args : List String) : m Reply :=
  match Request.read? (h.environment configVariable) args with
  | some request => request.answer h
  | none => return .misuse Topic.program.lines

end Program
end ShardLoad
