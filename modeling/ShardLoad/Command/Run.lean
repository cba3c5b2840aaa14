import ShardLoad.Command.Init
import ShardLoad.Result.Report
import ShardLoad.Result.Summary

/-!
# Running a load test

The configuration is the one that is asked for, or the nearest one in the
directory that the command runs in and those that it lies in, or the built-in
one.  A file is loaded and checked before its fields are overridden, and the run
checks what comes of that.

A run prints its summary and writes a report.  That a report cannot be written is
a warning only.

* `RunRequest.load`: the configuration of a run.
* `RunRequest.answer`: the command.
-/

namespace ShardLoad

/-! ## The configuration -/

namespace Host

variable {m : Type → Type} [Monad m]

/-- The first of some paths that leads to something. -/
def firstPresent (h : Host m) : List String → m (Option String)
  | [] => return none
  | path :: rest => do
    if ← h.present path then return some path else h.firstPresent rest

/-- The paths at which the configuration may be, the nearest first. -/
def configPaths (h : Host m) : List String :=
  h.directory.upwards.map fun p => p.configFile.path

/-- The path of the configuration, if it is in a file. -/
def findConfig (h : Host m) (asked : Option String) :
    m (Except CommandError (Option String)) := do
  match asked with
  | some path => return if ← h.present path then .ok (some path) else .error (.configMissing path)
  | none => return .ok (← h.firstPresent h.configPaths)

/-- A path with what is read there. -/
def content (h : Host m) (path : String) : m (String × Except FileFault Bytes) :=
  return (path, ← h.read path)

end Host

namespace RunRequest

/-- The line that says where the configuration comes from. -/
def origin : Option String → String
  | some path => "Loading config from: " ++ path
  | none => "No .mverse/loadtest.toml found, using the default transaction workload."

/-- The configuration of a run, given its file, if there is one. -/
def load (r : RunRequest) (file : Option (String × Except FileFault Bytes)) :
    Except CommandError Config :=
  match file with
  | none => .ok (r.overrides.apply .default)
  | some (path, content) =>
    match Config.ofFile path content with
    | .ok c => .ok (r.overrides.apply c)
    | .error e => .error (.config path e)

/-- What is asked of the run besides its configuration. -/
def options (r : RunRequest) : RunOptions := ⟨r.iterations, r.seed, r.logPayloads⟩

/-! ## What is shown -/

/-- The lines that announce the run. -/
def announcement (c : Config) : List String :=
  ["", s!"  Driving {c.settings.virtualUsers} virtual users...", ""]

/-- The least severity that is shown of the log. -/
def threshold (r : RunRequest) : Severity :=
  if r.verbose then .debug else if r.logPayloads then .info else .warn

/-- What is shown of a log. -/
def shown (r : RunRequest) (log : List Event) : List Event :=
  log.filter fun e => r.threshold.rank ≤ e.severity.rank

/-- Whether the environment wants colors on a terminal: some program may insist on
them, and otherwise they can be turned off in two ways. -/
def environmentColors (environment : String → Option String) : Bool :=
  let insists := environment "CLICOLOR_FORCE"
  if insists.isSome && insists != some "0" then true
  else if (environment "NO_COLOR").isSome then false
  else environment "CLICOLOR" != some "0"

/-- Whether the summary is printed in color. -/
def colors {m : Type → Type} (r : RunRequest) (h : Host m) : Bool :=
  !r.noColor && h.terminal && environmentColors h.environment

variable {m : Type → Type} [Monad m]

/-- Writes the report of a run, and says where it is. -/
def report (h : Host m) (c : Config) (result : RunResult) : m (List String) := do
  let (time, nanos) ← h.now
  let directory := h.directory.reports
  let text := Report.render (time.timestamp nanos) c result.snapshot result.elapsed
  match ← h.place directory time.reportName (Bytes.utf8 text) with
  | .ok () => return ["", "Report written to: " ++ (directory.child time.reportName).path]
  | .error e => return ["", "Warning: Failed to write report: " ++ e.message]

/-- Shows the result of a run. -/
def conclude (r : RunRequest) (h : Host m) (c : Config) (notes : List String) (f : Finished) :
    m Reply := do
  let snapshot := f.result.snapshot
  let output := [Summary.render (r.colors h) c snapshot f.result.elapsed]
  let notes := notes ++ announcement c ++
    (← if r.noReport then pure [] else report h c f.result)
  let log := r.shown f.log.toList
  if r.failOnError && snapshot.hasFailures then
    return .failed output notes log (.iterations snapshot.failed snapshot.total)
  else return .done output notes log

/-- Runs a load test. -/
def answer (r : RunRequest) (h : Host m) : m Reply := do
  match ← h.findConfig r.config with
  | .error e => return .failed [] [] [] e
  | .ok path =>
    let notes := [origin path]
    match r.load (← path.mapM h.content) with
    | .error e => return .failed [] notes [] e
    | .ok c =>
      match Engine.run c r.options (h.surroundings c) with
      | .error e => return .failed [] notes [] (.run e)
      | .ok f => r.conclude h c notes f

end RunRequest
end ShardLoad
