import ShardLoad.Config.Basic
import ShardLoad.Decimal.Layout
import ShardLoad.Keyed
import ShardLoad.Text.Visible
import ShardLoad.Toml.Number

/-!
# From a table to a configuration

A configuration is read off the table that a document describes.  The table must
have a `settings` section; `target`, `payload` and `scenario` are optional, and
so is every field but the two settings without a default.  Fields that nobody
knows are passed over.  A section may also be an array, which gives its fields in
the order of their declaration.

Tables are read key by key in the order of the keys, so of several faults the one
at the smallest key is reported; that a field is missing comes up only after
every present one was read.

* `SchemaError`: the faults, with their wording.
* `Config.ofTable`: the configuration of a table.
-/

namespace ShardLoad

open Toml (Value Scalar FloatText)

/-! ## Faults -/

/-- What stands where something else is wanted. -/
inductive Found where
  | bool (b : Bool)
  | int (n : Int)
  | float (x : Float)
  | string (s : String)
  | sequence
  | map
  deriving Repr

/-- Whether an integer fits 64 bits, with or without a sign. -/
def fitsWord (n : Int) : Bool := -(2 ^ 63 : Nat) ≤ n && n < (2 ^ 64 : Nat)

/-- Whether an integer fits 128 bits with a sign. -/
def fitsSigned128 (n : Int) : Bool := -(2 ^ 127 : Nat) ≤ n && n < (2 ^ 127 : Nat)

/-- Whether an integer fits 128 bits, with or without a sign. -/
def fits128 (n : Int) : Bool := -(2 ^ 127 : Nat) ≤ n && n < (2 ^ 128 : Nat)

/-- The wording for what was found. -/
def Found.text : Found → String
  | bool b => s!"boolean `{b}`"
  | int n =>
    if fitsWord n then s!"integer `{n}`"
    else if fitsSigned128 n then s!"integer `{n}` as i128"
    else s!"integer `{n}` as u128"
  | float x => s!"floating point `{Decimal.writeFloat .plain x}`"
  | string s => s!"string {Text.shown s}"
  | sequence => "sequence"
  | map => "map"

/-- Why a table is no configuration. -/
inductive SchemaError where
  /-- A value of the wrong type. -/
  | wrongType (found : Found) (wanted : String)
  /-- An integer outside the range of its field. -/
  | outOfRange (n : Int) (wanted : String)
  /-- An array with too few or too many items. -/
  | wrongLength (length : Nat) (wanted : String)
  | missingField (name : String)
  | unknownVariant (name : String) (known : List String)
  /-- A variant must be a string or a table. -/
  | notAVariant
  /-- A table that stands for a variant has exactly one key. -/
  | notOneKey (isEmpty : Bool)
  /-- What a variant without fields has must be empty. -/
  | notEmpty (kind : String)
  /-- What a variant without fields has must be a table. -/
  | notATable (kind : String)
  /-- An integer beyond 128 bits, or one that names no number. -/
  | integerOverflow
  /-- A float beyond the largest double. -/
  | floatTooLarge
  deriving Repr

/-- Names between grave accents with `or` between them. -/
def alternatives (names : List String) : String :=
  " or ".intercalate (names.map fun name => s!"`{name}`")

/-- The wording of a fault. -/
def SchemaError.message : SchemaError → String
  | wrongType found wanted => s!"invalid type: {found.text}, expected {wanted}"
  | outOfRange n wanted => s!"invalid value: integer `{n}`, expected {wanted}"
  | wrongLength n wanted => s!"invalid length {n}, expected {wanted}"
  | missingField name => s!"missing field `{name}`"
  | unknownVariant name known => s!"unknown variant `{name}`, expected {alternatives known}"
  | notAVariant => "wanted string or table"
  | notOneKey true => "wanted exactly 1 element, found 0 elements"
  | notOneKey false => "wanted exactly 1 element, more than 1 element"
  | notEmpty kind => s!"expected empty {kind}"
  | notATable kind => s!"expected table, found {kind}"
  | integerOverflow => "integer number overflowed"
  | floatTooLarge => "floating-point number overflowed"

/-! ## Single values -/

/-- A value of some type, or a fault. -/
abbrev SchemaResult (α : Type) := Except SchemaError α

namespace Schema

/-- What a scalar is, unless it is a number that fits no field. -/
def found : Scalar → SchemaResult Found
  | .string s => .ok (.string s)
  | .int n => if fits128 n then .ok (.int n) else .error .integerOverflow
  | .unreadable => .error .integerOverflow
  | .float x =>
    match x.double? with
    | some x => .ok (.float x)
    | none => .error .floatTooLarge
  | .bool b => .ok (.bool b)
  | .moment _ => .ok .map

/-- The fault that a value is not what was wanted. -/
def mismatch {α : Type} (wanted : String) : Value → SchemaResult α
  | .scalar s => do throw (.wrongType (← found s) wanted)
  | .array _ => .error (.wrongType .sequence wanted)
  | .table _ => .error (.wrongType .map wanted)

/-- A natural number below `bound`. -/
def natural (wanted : String) (bound : Nat) : Value → SchemaResult Nat
  | .scalar (.int n) =>
    if 0 ≤ n ∧ n.toNat < bound then .ok n.toNat
    else if fitsWord n then .error (.outOfRange n wanted)
    else mismatch wanted (.scalar (.int n))
  | v => mismatch wanted v

/-- A 16-bit number. -/
def word16 (v : Value) : SchemaResult UInt16 := Nat.toUInt16 <$> natural "u16" (2 ^ 16) v

/-- A 32-bit number. -/
def word32 (v : Value) : SchemaResult UInt32 := Nat.toUInt32 <$> natural "u32" (2 ^ 32) v

/-- A 64-bit number. -/
def word64 (v : Value) : SchemaResult UInt64 := Nat.toUInt64 <$> natural "u64" (2 ^ 64) v

/-- The length of something in memory. -/
def size (v : Value) : SchemaResult UInt64 := Nat.toUInt64 <$> natural "usize" (2 ^ 64) v

/-- A truth value. -/
def bool : Value → SchemaResult Bool
  | .scalar (.bool b) => .ok b
  | v => mismatch "a boolean" v

/-- A text. -/
def string : Value → SchemaResult String
  | .scalar (.string s) => .ok s
  | v => mismatch "a string" v

/-- The variant of a name. -/
def variantNamed {α : Type} (all : List α) (name : α → String) (s : String) :
    SchemaResult α :=
  match all.find? fun a => name a == s with
  | some a => .ok a
  | none => .error (.unknownVariant s (all.map name))

/-- The name of the type of a scalar. -/
def kindName : Scalar → String
  | .string _ => "string"
  | .int _ => "integer"
  | .unreadable => "integer"
  | .float _ => "float"
  | .bool _ => "boolean"
  | .moment _ => "datetime"

/-- Nothing, as a variant without fields has it. -/
def nothing : Value → SchemaResult Unit
  | .table [] => .ok ()
  | .array [] => .ok ()
  | .table _ => .error (.notEmpty "table")
  | .array _ => .error (.notEmpty "array")
  | .scalar s => .error (.notATable (kindName s))

/-- One of several variants: its name, or a table with its name as the only key
and nothing under it. -/
def variant {α : Type} (all : List α) (name : α → String) : Value → SchemaResult α
  | .scalar (.string s) => variantNamed all name s
  | .table [(key, v)] => do
    let a ← variantNamed all name key
    nothing v
    return a
  | .table [] => .error (.notOneKey true)
  | .table _ => .error (.notOneKey false)
  | _ => .error .notAVariant

mutual
/-- Passes over a value that no field takes; its numbers must not be too large. -/
def pass : Value → SchemaResult Unit
  | .scalar s => do let _ ← found s
  | .array items => passItems items
  | .table members => passMembers members

def passItems : List Value → SchemaResult Unit
  | [] => .ok ()
  | v :: vs => do
    pass v
    passItems vs

def passMembers : List (String × Value) → SchemaResult Unit
  | [] => .ok ()
  | (_, v) :: ms => do
    pass v
    passMembers ms
end

mutual
/-- Holds a value back until the type of its table is known; its integers must
fit 64 bits. -/
def hold : Value → SchemaResult Unit
  | .scalar (.int n) =>
    if fitsWord n then .ok () else mismatch "any value" (.scalar (.int n))
  | .scalar s => do let _ ← found s
  | .array items => holdItems items
  | .table members => holdMembers members

def holdItems : List Value → SchemaResult Unit
  | [] => .ok ()
  | v :: vs => do
    hold v
    holdItems vs

def holdMembers : List (String × Value) → SchemaResult Unit
  | [] => .ok ()
  | (_, v) :: ms => do
    hold v
    holdMembers ms
end

/-! ## Sections -/

/-- Reads a section into a record of what was found, field by field.  `set` takes
one field; `fields` are the names in the order of an array.  A moment is a table
whose only key nobody knows. -/
def readSection {α : Type} (wanted : String) (fields : List String)
    (set : α → String × Value → SchemaResult α) (start : α) : Value → SchemaResult α
  | .table members => members.foldlM set start
  | .array items => (fields.zip items).foldlM set start
  | .scalar (.moment _) => .ok start
  | v => mismatch wanted v

/-- The settings as far as they were found. -/
structure SettingsDraft where
  virtualUsers : Option UInt32
  durationSecs : Option UInt64
  pacing : UInt64
  timeout : UInt64
  expectedInterval : Option UInt64
  deriving Repr

/-- One field of the settings. -/
def setSettings (f : SettingsDraft) : String × Value → SchemaResult SettingsDraft
  | ("virtual_users", v) => do return { f with virtualUsers := some (← word32 v) }
  | ("duration_secs", v) => do return { f with durationSecs := some (← word64 v) }
  | ("pacing_ms", v) => do return { f with pacing := ← word64 v }
  | ("timeout_ms", v) => do return { f with timeout := ← word64 v }
  | ("expected_interval_ms", v) => do return { f with expectedInterval := some (← word64 v) }
  | (_, v) => do
    pass v
    return f

def settingsFields : List String :=
  ["virtual_users", "duration_secs", "pacing_ms", "timeout_ms", "expected_interval_ms"]

/-- The fault that a field without a default is missing, as the `index`-th item of
an array or by its name. -/
def missingSetting (v : Value) (index : Nat) (name : String) : SchemaError :=
  match v with
  | .array _ => .wrongLength index "struct Settings with 5 elements"
  | _ => .missingField name

/-- The `settings` section. -/
def settings (v : Value) : SchemaResult Settings := do
  let f ← readSection "struct Settings" settingsFields setSettings
    ⟨none, none, Settings.defaultPacing, Settings.defaultTimeout, none⟩ v
  match f.virtualUsers, f.durationSecs with
  | some users, some duration =>
    return ⟨users, duration, f.pacing, f.timeout, f.expectedInterval⟩
  | none, _ => throw (missingSetting v 0 "virtual_users")
  | some _, none => throw (missingSetting v 1 "duration_secs")

/-- One field of the target. -/
def setTarget (t : Target) : String × Value → SchemaResult Target
  | ("host", v) => do return { t with host := ← string v }
  | ("base_port", v) => do return { t with basePort := ← word16 v }
  | ("pool_size", v) => do return { t with poolSize := ← word16 v }
  | ("plaintext", v) => do return { t with plaintext := ← bool v }
  | ("selection", v) => do
    return { t with selection := ← variant Selection.all Selection.name v }
  | ("connection", v) => do
    return { t with connection := ← variant Connection.all Connection.name v }
  | (_, v) => do
    pass v
    return t

def targetFields : List String :=
  ["host", "base_port", "pool_size", "plaintext", "selection", "connection"]

/-- The `target` section. -/
def target (v : Value) : SchemaResult Target :=
  readSection "struct TargetConfig" targetFields setTarget .default v

/-- One field of the payload. -/
def setPayload (p : Payload) : String × Value → SchemaResult Payload
  | ("key_length", v) => do return { p with keyLength := ← size v }
  | ("value_length", v) => do return { p with valueLength := ← size v }
  | ("auxiliary", v) => do return { p with auxiliary := ← string v }
  | ("transaction_type", v) => do
    return { p with transactionKind := ← variant TransactionKind.all TransactionKind.name v }
  | ("wait", v) => do return { p with wait := ← bool v }
  | (_, v) => do
    pass v
    return p

def payloadFields : List String :=
  ["key_length", "value_length", "auxiliary", "transaction_type", "wait"]

/-- The `payload` section. -/
def payload (v : Value) : SchemaResult Payload :=
  readSection "struct PayloadConfig" payloadFields setPayload .default v

/-! ## The scenario -/

/-- The operation that the type of a step names. -/
def operation : Value → SchemaResult Operation
  | .scalar (.string s) => variantNamed Operation.all Operation.name s
  | .scalar (.int n) =>
    if (2 ^ 63 : Nat) ≤ n ∧ n < (2 ^ 64 : Nat) then .error (.outOfRange n "variant index 0 <= i < 2")
    else mismatch "variant identifier" (.scalar (.int n))
  | v => mismatch "variant identifier" v

/-- The type of a step as far as it was found; the other fields are held back. -/
def setOperation (o : Option Operation) : String × Value → SchemaResult (Option Operation)
  | ("type", v) => some <$> operation v
  | (_, v) => do
    hold v
    return o

/-- How a step of an operation is called where an array has too few items. -/
def stepName : Operation → String
  | .transaction => "struct variant ScenarioStep::Transaction with 1 element"
  | .rootRead => "struct variant ScenarioStep::RootRead with 1 element"

/-- The weight among the items after the type. -/
def weightOfItems (o : Operation) : List Value → SchemaResult UInt32
  | [] => .error (.wrongLength 0 (stepName o))
  | v :: more => do
    let w ← word32 v
    if more.isEmpty then return w
    else throw (.wrongLength (more.length + 1) "1 element in sequence")

/-- One step of the mix. -/
def step : Value → SchemaResult Step
  | .table members => do
    match ← members.foldlM setOperation none with
    | none => throw (.missingField "type")
    | some o =>
      match Keyed.find? "weight" members with
      | some v => return ⟨o, ← word32 v⟩
      | none => throw (.missingField "weight")
  | .array [] => .error (.missingField "type")
  | .array (v :: rest) => do
    let o ← operation v
    holdItems rest
    return ⟨o, ← weightOfItems o rest⟩
  | .scalar (.moment _) => .error (.missingField "type")
  | v => mismatch "internally tagged enum ScenarioStep" v

/-- The `scenario` section. -/
def scenario : Value → SchemaResult (List Step)
  | .array items => items.mapM step
  | v => mismatch "a sequence" v

/-! ## The whole -/

/-- The sections as far as they were found. -/
structure ConfigDraft where
  settings : Option Settings
  target : Target
  payload : Payload
  scenario : List Step
  deriving Repr

/-- One section. -/
def setConfig (f : ConfigDraft) : String × Value → SchemaResult ConfigDraft
  | ("settings", v) => do return { f with settings := some (← settings v) }
  | ("target", v) => do return { f with target := ← target v }
  | ("payload", v) => do return { f with payload := ← payload v }
  | ("scenario", v) => do return { f with scenario := ← scenario v }
  | (_, v) => do
    pass v
    return f

end Schema

/-- The configuration of a table. -/
def Config.ofTable (members : Keyed Value) : SchemaResult Config := do
  let f ← members.foldlM Schema.setConfig ⟨none, .default, .default, Config.defaultScenario⟩
  match f.settings with
  | some s => return ⟨s, f.target, f.payload, f.scenario⟩
  | none => throw (.missingField "settings")

end ShardLoad
