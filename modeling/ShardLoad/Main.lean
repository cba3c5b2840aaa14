import ShardLoad.Command.Program

/-!
# The command line program

The host of the program is the system: its files, its environment and its clocks.
-/

open ShardLoad

/-- The fault that an error of the system is. -/
def faultOf (e : IO.Error) : FileFault :=
  match e with
  | .noFileOrDirectory .. => .notFound
  | .inappropriateType _ code _ => if code = 20 then .notADirectory else .isADirectory
  | .alreadyExists .. => .notADirectory
  | e => .other (toString e)

/-- An action, or the fault that it ends in. -/
def attempt {α : Type} (action : IO α) : IO (Except FileFault α) := do
  try return .ok (← action) catch e => return .error (faultOf e)

/-- The number that starts a text. -/
def leadingNumber (text : String) : Nat :=
  (text.toList.takeWhile Char.isDigit).foldl (fun n c => 10 * n + (c.toNat - '0'.toNat)) 0

/-- The seconds since the start of 1970, from when the system was started and for
how long it has been up. -/
def wallClock : IO Nat := do
  try
    let lines := (← IO.FS.readFile "/proc/stat").splitOn "\n"
    let start := (lines.find? fun line => line.startsWith "btime ").map fun line =>
      leadingNumber (String.ofList (line.toList.drop 6))
    return start.getD 0 + leadingNumber (← IO.FS.readFile "/proc/uptime")
  catch _ => return 0

/-- Puts random octets together to a number. -/
def numberOf (octets : ByteArray) : Nat := octets.foldl (fun n b => 256 * n + b.toNat) 0

/-- The system as a host. -/
def systemHost : IO (Host IO) := do
  let directory ← IO.currentDir
  let place := (directory.toString.splitOn "/").filter fun name => name != ""
  let names := [Program.configVariable, "CLICOLOR_FORCE", "NO_COLOR", "CLICOLOR"]
  let settings ← names.mapM fun name => do return (name, ← IO.getEnv name)
  let seed := (numberOf (← IO.getRandomBytes 8)).toUInt64
  let clock := (← IO.monoMsNow) / 1000
  return {
    directory := place
    environment := fun name => (settings.lookup name).join
    terminal := ← (← IO.getStdout).isTty
    present := fun path => (directory / path).pathExists
    read := fun path => attempt do return (← IO.FS.readBinFile (directory / path)).toList
    write := fun path octets =>
      attempt (IO.FS.writeBinFile (directory / path) ⟨octets.toArray⟩)
    makeDirectories := fun path => attempt (IO.FS.createDirAll (directory / path))
    now := do return ((Moment.ofEpoch? (← wallClock) 0).getD .epoch, 0)
    surroundings := fun c =>
      ⟨.network c.target.plaintext .unreachable, 0, fun i => .forUser seed i.toUInt32, clock⟩ }

def main (args : List String) : IO UInt32 := do
  let reply ← Program.answer (← systemHost) args
  for event in reply.log do IO.eprintln event.line
  for line in reply.notes do IO.eprintln line
  for line in reply.output do IO.println line
  return reply.code.toUInt32
