import ShardLoad.Config.Validate

/-!
# What the check of a configuration accepts

The check reports the first fault that it finds.  Whether there is one does not depend on the
order in which it looks: a configuration is accepted exactly when each of its sections is, and
a section is accepted exactly when all that is required of it holds.

* `Settings.Valid`, `Target.Valid`, `Payload.Valid`, `Config.Valid`: what is required.
* `Builder.exists_ofPayload?`: what is accepted has a builder.
* `Config.validate_eq_ok_iff`: the check accepts what is valid, and nothing else.
-/

namespace ShardLoad

/-! ## Requirements in a row -/

/-- A condition that is required is no fault exactly when it holds. -/
theorem require_eq_ok_iff {condition : Bool} {e : Invalid} :
    require condition e = .ok () ↔ condition = true := by
  cases condition with
  | false => exact iff_of_false (by rintro ⟨⟩) (by rintro ⟨⟩)
  | true => exact iff_of_true rfl rfl

/-- Two checks in a row find no fault exactly when neither does. -/
theorem andThen_eq_ok_iff {ε α : Type} {check : Except ε Unit} {next : Except ε α} {a : α} :
    (check >>= fun _ => next) = .ok a ↔ check = .ok () ∧ next = .ok a := by
  cases check with
  | error e => exact iff_of_false (by rintro ⟨⟩) (by rintro ⟨⟨⟩, -⟩)
  | ok => exact (and_iff_right rfl).symm

/-! ## What is required of each section -/

/-- Somebody calls, for some time, and a call may take some time. -/
structure Settings.Valid (s : Settings) : Prop where
  users : s.virtualUsers ≠ 0
  duration : s.durationSecs ≠ 0
  timeout : s.timeout ≠ 0

/-- There is a shard, a host, and a port for each shard. -/
structure Target.Valid (t : Target) : Prop where
  shards : t.poolSize ≠ 0
  host : Text.isBlankText t.host = false
  ports : t.basePort.toNat + t.poolSize.toNat ≤ 65536

/-- Keys and values have a length in range, and the token is Base64. -/
structure Payload.Valid (p : Payload) : Prop where
  key : 1 ≤ p.keyLength.toNat ∧ p.keyLength.toNat ≤ maxFieldLength
  value : 1 ≤ p.valueLength.toNat ∧ p.valueLength.toNat ≤ maxFieldLength
  token : ∃ octets, p.token = .ok octets

/-- All sections are as required, and some step of the mix can be chosen. -/
structure Config.Valid (c : Config) : Prop where
  settings : c.settings.Valid
  target : c.target.Valid
  payload : c.payload.Valid
  steps : c.scenario ≠ []
  weight : 0 < c.totalWeight

theorem Settings.validate_eq_ok_iff (s : Settings) : s.validate = .ok () ↔ s.Valid := by
  unfold Settings.validate
  rw [andThen_eq_ok_iff, andThen_eq_ok_iff, require_eq_ok_iff, require_eq_ok_iff,
    require_eq_ok_iff, bne_iff_ne, bne_iff_ne, bne_iff_ne]
  constructor
  · rintro ⟨husers, hduration, htimeout⟩
    exact ⟨husers, hduration, htimeout⟩
  · rintro ⟨husers, hduration, htimeout⟩
    exact ⟨husers, hduration, htimeout⟩

/-- The last port is in range exactly when all ports are. -/
theorem Target.lastPort_le_iff {t : Target} :
    t.lastPort ≤ 65535 ↔ t.basePort.toNat + t.poolSize.toNat ≤ 65536 := by
  unfold lastPort
  omega

theorem Target.validate_eq_ok_iff (t : Target) : t.validate = .ok () ↔ t.Valid := by
  unfold Target.validate
  rw [andThen_eq_ok_iff, andThen_eq_ok_iff, require_eq_ok_iff, require_eq_ok_iff,
    require_eq_ok_iff, bne_iff_ne, Bool.not_eq_true', decide_eq_true_iff, lastPort_le_iff]
  constructor
  · rintro ⟨hshards, hhost, hports⟩
    exact ⟨hshards, hhost, hports⟩
  · rintro ⟨hshards, hhost, hports⟩
    exact ⟨hshards, hhost, hports⟩

theorem Payload.validate_eq_ok_iff (p : Payload) : p.validate = .ok () ↔ p.Valid := by
  unfold Payload.validate
  rw [andThen_eq_ok_iff, andThen_eq_ok_iff, require_eq_ok_iff, require_eq_ok_iff]
  unfold isFieldLength
  rw [Bool.and_eq_true, Bool.and_eq_true, decide_eq_true_iff, decide_eq_true_iff,
    decide_eq_true_iff, decide_eq_true_iff]
  cases htoken : p.token with
  | error e =>
    refine iff_of_false ?_ ?_
    · rintro ⟨-, -, h⟩
      cases h
    · rintro ⟨-, -, octets, h⟩
      rw [htoken] at h
      cases h
  | ok octets =>
    constructor
    · rintro ⟨hkey, hvalue, -⟩
      exact ⟨hkey, hvalue, octets, htoken⟩
    · rintro ⟨hkey, hvalue, -⟩
      exact ⟨hkey, hvalue, rfl⟩

/-- Requests can be built for a payload that is accepted. -/
theorem Builder.exists_ofPayload? {p : Payload} (h : p.validate = .ok ()) :
    ∃ b, ofPayload? p = .ok b := by
  obtain ⟨octets, htoken⟩ := (p.validate_eq_ok_iff.mp h).token
  exact ⟨_, by rw [ofPayload?, htoken]; rfl⟩

/-- **The check of a configuration** accepts what is valid, and nothing else. -/
theorem Config.validate_eq_ok_iff (c : Config) : c.validate = .ok () ↔ c.Valid := by
  unfold Config.validate
  rw [andThen_eq_ok_iff, andThen_eq_ok_iff, andThen_eq_ok_iff, andThen_eq_ok_iff,
    require_eq_ok_iff, require_eq_ok_iff, Settings.validate_eq_ok_iff, Target.validate_eq_ok_iff,
    Payload.validate_eq_ok_iff, Bool.not_eq_true', bne_iff_ne, List.isEmpty_eq_false_iff,
    ← Nat.pos_iff_ne_zero]
  constructor
  · rintro ⟨hsettings, htarget, hpayload, hsteps, hweight⟩
    exact ⟨hsettings, htarget, hpayload, hsteps, hweight⟩
  · rintro ⟨hsettings, htarget, hpayload, hsteps, hweight⟩
    exact ⟨hsettings, htarget, hpayload, hsteps, hweight⟩

end ShardLoad
