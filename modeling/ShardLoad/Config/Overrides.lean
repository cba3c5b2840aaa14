import ShardLoad.Config.Basic

/-!
# Overridden configurations

Whoever starts a run may replace some fields of its configuration.  A field that
is not replaced stays as it is; the transport can only be switched to TLS.

* `Overrides`: the fields that are replaced.
* `Overrides.apply`: the configuration with them replaced.
-/

namespace ShardLoad

/-- The fields of a configuration that are replaced. -/
structure Overrides where
  virtualUsers : Option UInt32
  durationSecs : Option UInt64
  pacing : Option UInt64
  poolSize : Option UInt16
  basePort : Option UInt16
  host : Option String
  /-- Whether the shards are called over TLS. -/
  secure : Bool
  deriving Repr, DecidableEq

namespace Overrides

/-- Nothing is replaced. -/
def none : Overrides := ⟨.none, .none, .none, .none, .none, .none, false⟩

/-- Settings with the overridden ones replaced. -/
def settings (o : Overrides) (s : Settings) : Settings :=
  { s with
    virtualUsers := o.virtualUsers.getD s.virtualUsers
    durationSecs := o.durationSecs.getD s.durationSecs
    pacing := o.pacing.getD s.pacing }

/-- A target with the overridden fields replaced. -/
def target (o : Overrides) (t : Target) : Target :=
  { t with
    host := o.host.getD t.host
    basePort := o.basePort.getD t.basePort
    poolSize := o.poolSize.getD t.poolSize
    plaintext := t.plaintext && !o.secure }

/-- A configuration with the overridden fields replaced. -/
def apply (o : Overrides) (c : Config) : Config :=
  { c with settings := o.settings c.settings, target := o.target c.target }

end Overrides
end ShardLoad
