import ShardLoad.Config.Basic
import ShardLoad.Toml.Printer

/-!
# A configuration as TOML

A configuration is written section by section, each field under the name that it
has in a configuration file; the expected interval is left out when it is not set.
Whoever writes it may also leave out other parts that the reader knows how to fill
in: fields and sections that have a default.

* `Part`: what may be left out.
* `Config.toToml`: the text of a configuration.
-/

namespace ShardLoad

open Toml (Plain Block)

/-- A part of a configuration that may be left out: a section, or a field of one. -/
inductive Part where
  | pacing
  | timeout
  | expectedInterval
  | target
  | host
  | basePort
  | poolSize
  | plaintext
  | selection
  | connection
  | payload
  | keyLength
  | valueLength
  | auxiliary
  | transactionKind
  | wait
  | scenario
  deriving Repr, DecidableEq

namespace Part

/-- Whether a part of a configuration is what stands for it when it is left out. -/
def IsDefault (c : Config) : Part → Prop
  | pacing => c.settings.pacing = Settings.defaultPacing
  | timeout => c.settings.timeout = Settings.defaultTimeout
  | expectedInterval => c.settings.expectedInterval = none
  | target => c.target = .default
  | host => c.target.host = Target.default.host
  | basePort => c.target.basePort = Target.default.basePort
  | poolSize => c.target.poolSize = Target.default.poolSize
  | plaintext => c.target.plaintext = Target.default.plaintext
  | selection => c.target.selection = Target.default.selection
  | connection => c.target.connection = Target.default.connection
  | payload => c.payload = .default
  | keyLength => c.payload.keyLength = Payload.default.keyLength
  | valueLength => c.payload.valueLength = Payload.default.valueLength
  | auxiliary => c.payload.auxiliary = Payload.default.auxiliary
  | transactionKind => c.payload.transactionKind = Payload.default.transactionKind
  | wait => c.payload.wait = Payload.default.wait
  | scenario => c.scenario = Config.defaultScenario

end Part

/-- A field of a section: its name, its value, and as what part it may be left out,
if it may. -/
structure Entry where
  part? : Option Part
  name : String
  value : Plain
  deriving Repr, DecidableEq

namespace Entry

/-- A field that is always there. -/
def required (name : String) (value : Plain) : Entry := ⟨none, name, value⟩

/-- A field that may be left out. -/
def optional (part : Part) (name : String) (value : Plain) : Entry := ⟨some part, name, value⟩

/-- Whether a field is written when some parts are left out. -/
def isKept (omitted : Part → Bool) (e : Entry) : Bool := !e.part?.any omitted

end Entry

/-- The fields of the settings. -/
def Settings.entries (s : Settings) : List Entry :=
  [.required "virtual_users" (.number s.virtualUsers.toNat),
    .required "duration_secs" (.number s.durationSecs.toNat),
    .optional .pacing "pacing_ms" (.number s.pacing.toNat),
    .optional .timeout "timeout_ms" (.number s.timeout.toNat)] ++
  match s.expectedInterval with
  | some i => [.optional .expectedInterval "expected_interval_ms" (.number i.toNat)]
  | none => []

/-- The fields of the target. -/
def Target.entries (t : Target) : List Entry :=
  [.optional .host "host" (.text t.host),
    .optional .basePort "base_port" (.number t.basePort.toNat),
    .optional .poolSize "pool_size" (.number t.poolSize.toNat),
    .optional .plaintext "plaintext" (.truth t.plaintext),
    .optional .selection "selection" (.text t.selection.name),
    .optional .connection "connection" (.text t.connection.name)]

/-- The fields of the payload. -/
def Payload.entries (p : Payload) : List Entry :=
  [.optional .keyLength "key_length" (.number p.keyLength.toNat),
    .optional .valueLength "value_length" (.number p.valueLength.toNat),
    .optional .auxiliary "auxiliary" (.text p.auxiliary),
    .optional .transactionKind "transaction_type" (.text p.transactionKind.name),
    .optional .wait "wait" (.truth p.wait)]

/-- The fields of a step. -/
def Step.entries (s : Step) : List Entry :=
  [.required "type" (.text s.operation.name), .required "weight" (.number s.weight.toNat)]

/-- The fields that are written, with their values. -/
def keptEntries (omitted : Part → Bool) (entries : List Entry) : List (String × Plain) :=
  (entries.filter (Entry.isKept omitted)).map fun e => (e.name, e.value)

namespace Config

/-- The tables of a configuration without the parts that are left out. -/
def blocks (omitted : Part → Bool) (c : Config) : List Block :=
  ⟨false, "settings", keptEntries omitted c.settings.entries⟩ ::
  ((if omitted .target then [] else [⟨false, "target", keptEntries omitted c.target.entries⟩]) ++
  ((if omitted .payload then []
    else [⟨false, "payload", keptEntries omitted c.payload.entries⟩]) ++
  if omitted .scenario then []
  else c.scenario.map fun s => ⟨true, "scenario", keptEntries omitted s.entries⟩))

/-- The text of a configuration without the parts that are left out. -/
def toToml (style : Toml.Style) (omitted : Part → Bool) (c : Config) : String :=
  Toml.document style (c.blocks omitted)

end Config
end ShardLoad
