import ShardLoad.Command.Arguments
import ShardLoad.Command.Host
import ShardLoad.Command.Reply
import ShardLoad.Config.Template

/-!
# Writing a starter configuration

The starter configuration goes to `.mverse/loadtest.toml` in the directory that
the command runs in.  One that is there already is kept, unless it is to be
overwritten.

* `InitRequest.answer`: the command.
-/

namespace ShardLoad

namespace Place

/-- The directory of what belongs to load tests. -/
def home (p : Place) : Place := p.child ".mverse"

/-- Where the configuration is. -/
def configFile (p : Place) : Place := p.home.child "loadtest.toml"

/-- Where reports go. -/
def reports (p : Place) : Place := p.home.child "reports"

end Place

namespace Host

variable {m : Type → Type} [Monad m]

/-- Writes a file into a directory, which is made if nothing is there. -/
def place (h : Host m) (directory : Place) (name : String) (octets : Bytes) :
    m (Except FileFault Unit) := do
  let made ← if ← h.present directory.path then pure (.ok ())
    else h.makeDirectories directory.path
  match made with
  | .ok () => h.write (directory.child name).path octets
  | .error e => return .error e

end Host

/-- Writes a starter configuration. -/
def InitRequest.answer {m : Type → Type} [Monad m] (r : InitRequest) (h : Host m) :
    m Reply := do
  let path := h.directory.configFile.path
  if (← h.present path) && !r.force then
    return .failed [] [] [] (.configPresent path)
  else
    match ← h.place h.directory.home "loadtest.toml" (Bytes.utf8 Config.template) with
    | .ok () =>
      return .done [] ["Created " ++ path, "Edit the file to customize the workload."] []
    | .error e => return .failed [] [] [] (.file e)

end ShardLoad
