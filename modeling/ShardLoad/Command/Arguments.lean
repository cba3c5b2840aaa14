import ShardLoad.Config.Overrides
import ShardLoad.Power

/-!
# The command line

The program takes flags, and then a command with flags and options of its own.  A
flag is a name after two hyphens, or one letter after one; an option is a name
with a value, which is the next argument or stands after an equals sign.  A value
that is an argument of its own cannot start with a hyphen, unless it is nothing
else.  Each flag and each option is given at most once, and a value that does not
fit its option is refused.

Arguments are read from left to right, and the first that is a mistake, or that
asks for help or for the version, ends the reading.

* `Level`: the flags and options of the program or of a command.
* `Level.read`: what the arguments of a level say.
* `Request.read?`: what a command line asks for.
-/

namespace ShardLoad

/-- What a run is asked for with. -/
structure RunRequest where
  /-- The file that the configuration is in. -/
  config : Option String
  overrides : Overrides
  iterations : Option UInt64
  seed : Option UInt64
  logPayloads : Bool
  failOnError : Bool
  noReport : Bool
  noColor : Bool
  verbose : Bool
  deriving Repr, DecidableEq

/-- A run that is asked for without any option. -/
def RunRequest.plain : RunRequest :=
  ⟨none, .none, none, none, false, false, false, false, false⟩

/-- What a starter configuration is asked for with. -/
structure InitRequest where
  /-- Whether a configuration that is there is overwritten. -/
  force : Bool
  verbose : Bool
  deriving Repr, DecidableEq

/-- What help is asked about. -/
inductive Topic where
  | program
  | run
  | init
  | help
  deriving Repr, DecidableEq

/-- What a command line asks for. -/
inductive Request where
  | version
  | help (topic : Topic)
  | run (r : RunRequest)
  | init (r : InitRequest)
  deriving Repr, DecidableEq

/-- Why arguments are not read to their end. -/
inductive Stop where
  /-- An argument is a mistake. -/
  | misuse
  /-- An argument asks for something that needs no others. -/
  | answered (r : Request)
  deriving Repr, DecidableEq

/-! ## Values -/

/-- The number that decimal digits, at least one, stand for. -/
def digits? (cs : List Char) : Option Nat :=
  if cs ≠ [] ∧ cs.all Char.isDigit then
    some (cs.foldl (fun n c => 10 * n + (c.toNat - '0'.toNat)) 0)
  else none

/-- A number of 64 bits, with a plus in front or not. -/
def count64? (text : String) : Option UInt64 :=
  let n? := match text.toList with
    | '+' :: ds => digits? ds
    | ds => digits? ds
  n?.bind fun n => if n < 2 ^ 64 then some n.toUInt64 else none

/-- A number below a bound, with a sign in front or not.  The only number that
may have a minus is zero. -/
def below? (bound : Nat) (text : String) : Option Nat :=
  let n? := match text.toList with
    | '+' :: ds => digits? ds
    | '-' :: ds => (digits? ds).filter (· == 0)
    | ds => digits? ds
  n?.filter (· < bound)

/-- A number of 32 bits. -/
def count32? (text : String) : Option UInt32 := (below? (2 ^ 32) text).map Nat.toUInt32

/-- A number of 16 bits. -/
def count16? (text : String) : Option UInt16 := (below? (2 ^ 16) text).map Nat.toUInt16

/-- A path, which cannot be empty. -/
def path? (text : String) : Option String := if text = "" then none else some text

/-! ## Levels -/

/-- The flags and options of the program or of one of its commands, which make up
an `α`. -/
structure Level (α : Type) where
  topic : Topic
  /-- What a flag does, if there is such a flag. -/
  flag? : String → Option (α → α)
  /-- What the value of an option does, if there is such an option; a value that
  does not fit does nothing. -/
  option? : String → Option (String → α → Option α)

/-- What has been read of a level. -/
structure Reading (α : Type) where
  value : α
  /-- The flags and options that have been given. -/
  given : List String
  deriving Repr

/-- The long name of a letter. -/
def longName : Char → String
  | 'h' => "help"
  | 'V' => "version"
  | 'v' => "verbose"
  | c => String.singleton c

/-- The request that a flag makes on its own. -/
def Topic.request? (topic : Topic) (name : String) : Option Request :=
  if name = "help" then some (.help topic)
  else if name = "version" ∧ topic = .program then some .version
  else none

/-- A name with the value that stands after an equals sign, if there is one. -/
def attached (text : List Char) : String × Option String :=
  match text.dropWhile (· != '=') with
  | [] => (String.ofList text, none)
  | _ :: value => (String.ofList (text.takeWhile (· != '=')), some (String.ofList value))

/-- Whether an argument looks like a flag or an option. -/
def isHyphened (arg : String) : Bool := arg.toList.head? == some '-' && arg != "-"

namespace Level

variable {α : Type}

/-- A change under a name that has not been given before. -/
def give (name : String) (value : α) (r : Reading α) : Except Stop (Reading α) :=
  if name ∈ r.given then .error .misuse else .ok ⟨value, name :: r.given⟩

/-- A flag. -/
def takeFlag (l : Level α) (name : String) (r : Reading α) : Except Stop (Reading α) :=
  match l.topic.request? name with
  | some request => .error (.answered request)
  | none =>
    match l.flag? name with
    | some change => give name (change r.value) r
    | none => .error .misuse

/-- An option with its value. -/
def takeOption (change : String → α → Option α) (name value : String) (r : Reading α) :
    Except Stop (Reading α) :=
  match change value r.value with
  | some v => give name v r
  | none => .error .misuse

/-- Several flags, each given by its letter. -/
def takeLetters (l : Level α) (letters : List Char) (r : Reading α) :
    Except Stop (Reading α) :=
  letters.foldlM (fun r c => l.takeFlag (longName c) r) r

/-- What the arguments of a level say, up to the first one that is neither a flag
nor an option, which is returned with those after it. -/
def read (l : Level α) (r : Reading α) :
    List String → Except Stop (Reading α × Option (String × List String))
  | [] => .ok (r, none)
  | arg :: rest =>
    match arg.toList with
    | ['-', '-'] => if rest.isEmpty then .ok (r, none) else .error .misuse
    | '-' :: '-' :: text =>
      let (name, value?) := attached text
      match l.option? name, value? with
      | some change, some value => do l.read (← takeOption change name value r) rest
      | some change, none =>
        match rest with
        | [] => .error .misuse
        | value :: rest =>
          if isHyphened value then .error .misuse
          else do l.read (← takeOption change name value r) rest
      | none, some _ => .error .misuse
      | none, none => do l.read (← l.takeFlag name r) rest
    | '-' :: c :: letters => do l.read (← l.takeLetters (c :: letters) r) rest
    | _ => .ok (r, some (arg, rest))

/-- What the arguments of a level say that consists of flags and options only. -/
def readAll (l : Level α) (value : α) (args : List String) : Except Stop (Reading α) := do
  match ← l.read ⟨value, []⟩ args with
  | (r, none) => .ok r
  | (_, some _) => .error .misuse

end Level

/-- The flags of the program: its value is whether more is to be logged. -/
def programLevel : Level Bool where
  topic := .program
  flag?
    | "verbose" => some fun _ => true
    | _ => none
  option? := fun _ => none

/-- The flags and options of a run. -/
def runLevel : Level RunRequest where
  topic := .run
  flag?
    | "verbose" => some fun r => { r with verbose := true }
    | "secure" => some fun r => { r with overrides := { r.overrides with secure := true } }
    | "log-payloads" => some fun r => { r with logPayloads := true }
    | "fail-on-error" => some fun r => { r with failOnError := true }
    | "no-report" => some fun r => { r with noReport := true }
    | "no-color" => some fun r => { r with noColor := true }
    | _ => none
  option?
    | "config" => some fun text r => (path? text).map fun p => { r with config := some p }
    | "vus" => some fun text r => (count32? text).map fun n =>
      { r with overrides := { r.overrides with virtualUsers := some n } }
    | "duration" => some fun text r => (count64? text).map fun n =>
      { r with overrides := { r.overrides with durationSecs := some n } }
    | "pacing" => some fun text r => (count64? text).map fun n =>
      { r with overrides := { r.overrides with pacing := some n } }
    | "pool-size" => some fun text r => (count16? text).map fun n =>
      { r with overrides := { r.overrides with poolSize := some n } }
    | "base-port" => some fun text r => (count16? text).map fun n =>
      { r with overrides := { r.overrides with basePort := some n } }
    | "host" => some fun text r =>
      some { r with overrides := { r.overrides with host := some text } }
    | "iterations" => some fun text r => (count64? text).map fun n =>
      { r with iterations := some n }
    | "seed" => some fun text r => (count64? text).map fun n => { r with seed := some n }
    | _ => none

/-- The flags of the command that writes a starter configuration. -/
def initLevel : Level InitRequest where
  topic := .init
  flag?
    | "verbose" => some fun r => { r with verbose := true }
    | "force" => some fun r => { r with force := true }
    | _ => none
  option? := fun _ => none

namespace Request

/-- What is asked for help about. -/
def readHelp : List String → Except Stop Request
  | [] => .ok (.help .program)
  | ["run"] => .ok (.help .run)
  | ["init"] => .ok (.help .init)
  | ["help"] => .ok (.help .help)
  | _ => .error .misuse

/-- What a run is asked for with; `fallback` names the configuration if the
arguments do not. -/
def readRun (fallback : Option String) (verbose : Bool) (args : List String) :
    Except Stop Request := do
  let r := (← runLevel.readAll .plain args).value
  let r := { r with verbose := verbose || r.verbose }
  match r.config, fallback with
  | none, some text =>
    match path? text with
    | some p => .ok (.run { r with config := some p })
    | none => .error .misuse
  | _, _ => .ok (.run r)

/-- What a starter configuration is asked for with. -/
def readInit (verbose : Bool) (args : List String) : Except Stop Request := do
  let r := (← initLevel.readAll ⟨false, false⟩ args).value
  .ok (.init { r with verbose := verbose || r.verbose })

/-- What a command is asked for with. -/
def readCommand (fallback : Option String) (verbose : Bool) (name : String)
    (args : List String) : Except Stop Request :=
  match name with
  | "run" => readRun fallback verbose args
  | "init" => readInit verbose args
  | "help" => readHelp args
  | _ => .error .misuse

/-- What a command line asks for, or none if there is a mistake in it.  The
configuration of a run is `fallback` if the command line names none. -/
def read? (fallback : Option String) (args : List String) : Option Request :=
  let result : Except Stop Request := do
    match ← programLevel.read ⟨false, []⟩ args with
    | (r, some (name, rest)) => readCommand fallback r.value name rest
    | (_, none) => .error .misuse
  match result with
  | .ok request => some request
  | .error (.answered request) => some request
  | .error .misuse => none

end Request
end ShardLoad
