import ShardLoad.Call
import ShardLoad.Entropy.Weights
import ShardLoad.Shard.Pool

/-!
# Which configurations can be run

A configuration is checked before anything is called: first the settings, then
the target, the payload, and the mix, and the first fault found is reported.

* `Invalid`: the faults, with their wording.
* `Config.validate`: the check.
-/

namespace ShardLoad

/-- Why a configuration cannot be run. -/
inductive Invalid where
  | noUsers
  | noDuration
  | noTimeout
  | noShards
  | blankHost
  /-- The ports from the first to the last one, which is past 65535. -/
  | portRange (first last : Nat)
  | fieldLength (field : String) (length : Nat)
  | token (e : Base64.DecodeError)
  | noSteps
  | noWeight
  /-- The shards make no pool. -/
  | pool (e : PoolError)
  /-- The steps cannot be chosen from. -/
  | weights (e : Entropy.WeightError)
  deriving Repr, DecidableEq

/-- The wording of a fault. -/
def Invalid.message : Invalid → String
  | noUsers => "settings.virtual_users must be at least 1"
  | noDuration => "settings.duration_secs must be greater than 0"
  | noTimeout => "settings.timeout_ms must be greater than 0"
  | noShards => "target.pool_size must be at least 1 (empty shard pool)"
  | blankHost => "target.host must not be empty"
  | portRange first last => s!"target port range {first}..{last + 1} exceeds 65535"
  | fieldLength field length =>
    s!"payload.{field}={length} must be between 1 and {Payload.maxFieldLength}"
  | token e => s!"payload.auxiliary is not valid base64: {e.message}"
  | noSteps => "Config must contain at least one [[scenario]] step"
  | noWeight => "Total scenario weights must be greater than 0"
  | pool e => e.message
  | weights e => s!"invalid scenario weights: {e.message}"

/-- A condition, or the fault that it does not hold. -/
def require (condition : Bool) (fault : Invalid) : Except Invalid Unit :=
  if condition then .ok () else .error fault

namespace Settings

/-- Somebody calls, for some time, and a call may take some time. -/
def validate (s : Settings) : Except Invalid Unit := do
  require (s.virtualUsers != 0) .noUsers
  require (s.durationSecs != 0) .noDuration
  require (s.timeout != 0) .noTimeout

end Settings

namespace Target

/-- The port of the last of at least one shard. -/
def lastPort (t : Target) : Nat := t.basePort.toNat + t.poolSize.toNat - 1

/-- There is a shard, a host, and a port for each shard. -/
def validate (t : Target) : Except Invalid Unit := do
  require (t.poolSize != 0) .noShards
  require (!Text.isBlankText t.host) .blankHost
  require (decide (t.lastPort ≤ 65535)) (.portRange t.basePort.toNat t.lastPort)

end Target

namespace Payload

/-- Whether keys or values may have so many octets. -/
def isFieldLength (n : UInt64) : Bool := 1 ≤ n.toNat && n.toNat ≤ maxFieldLength

/-- Keys and values have a length in range, and the token is Base64. -/
def validate (p : Payload) : Except Invalid Unit := do
  require (isFieldLength p.keyLength) (.fieldLength "key_length" p.keyLength.toNat)
  require (isFieldLength p.valueLength) (.fieldLength "value_length" p.valueLength.toNat)
  match p.token with
  | .ok _ => return
  | .error e => throw (.token e)

end Payload

namespace Config

/-- The weights of the steps. -/
def weights (c : Config) : List UInt32 := c.scenario.map Step.weight

/-- The sum of the weights. -/
def totalWeight (c : Config) : Nat := Entropy.sumOf c.weights

/-- Whether a configuration can be run, or the first fault. -/
def validate (c : Config) : Except Invalid Unit := do
  c.settings.validate
  c.target.validate
  c.payload.validate
  require (!c.scenario.isEmpty) .noSteps
  require (c.totalWeight != 0) .noWeight

end Config
end ShardLoad
