import ShardLoad.Config.Basic
import ShardLoad.Json.Value

/-!
# A configuration as JSON

Every field of every section appears, in the order of declaration and under the
name that it has in a configuration file; only the expected interval is left out
when it is not set.  So whoever reads a report can run the same thing again.

* `Config.toJson`: the whole configuration.
-/

namespace ShardLoad

/-- The settings as JSON. -/
def Settings.toJson (s : Settings) : Json :=
  .object ([("virtual_users", .nat s.virtualUsers.toNat),
    ("duration_secs", .nat s.durationSecs.toNat), ("pacing_ms", .nat s.pacing.toNat),
    ("timeout_ms", .nat s.timeout.toNat)] ++
    match s.expectedInterval with
    | some i => [("expected_interval_ms", .nat i.toNat)]
    | none => [])

/-- The target as JSON. -/
def Target.toJson (t : Target) : Json :=
  .object [("host", .string t.host), ("base_port", .nat t.basePort.toNat),
    ("pool_size", .nat t.poolSize.toNat), ("plaintext", .bool t.plaintext),
    ("selection", .string t.selection.name), ("connection", .string t.connection.name)]

/-- The payload as JSON. -/
def Payload.toJson (p : Payload) : Json :=
  .object [("key_length", .nat p.keyLength.toNat), ("value_length", .nat p.valueLength.toNat),
    ("auxiliary", .string p.auxiliary), ("transaction_type", .string p.transactionKind.name),
    ("wait", .bool p.wait)]

/-- A step of the mix as JSON. -/
def Step.toJson (s : Step) : Json :=
  .object [("type", .string s.operation.name), ("weight", .nat s.weight.toNat)]

/-- A configuration as JSON. -/
def Config.toJson (c : Config) : Json :=
  .object [("settings", c.settings.toJson), ("target", c.target.toJson),
    ("payload", c.payload.toJson), ("scenario", .array (c.scenario.map Step.toJson))]

end ShardLoad
