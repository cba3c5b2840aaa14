import ShardLoad.Proofs.Run.Slots
import ShardLoad.Proofs.Shard.Ports

/-!
# Which runs are refused

A run is refused before it starts, by the check of its configuration or by what its users are
set up with: the pool of shards, the weights of the steps, the builder of requests.  The check
and the set-up look at the same things, and whatever makes a pool or a builder fail was found
by the check.  They differ over weights, which the check sums up without a bound and the
set-up in 32 bits: steps whose weights come to `2 ^ 32` or more pass the check and are refused
by the set-up all the same.

Nobody is at work in a run that is refused, so no call is issued in it.

* `Engine.exists_plan`, `Engine.plan_of_le_totalWeight`: what is set up after the check.
* `Engine.Progress`: what a run may have done at some moment.
* `Engine.refused_iff`: which runs are refused, and that nothing happens in them.
-/

namespace ShardLoad

namespace Entropy.Weights

/-- Weights can be chosen from exactly when their sum is a positive number of 32 bits. -/
theorem ofList?_isOk_iff (ws : List UInt32) :
    (∃ weights, ofList? ws = .ok weights) ↔ 0 < sumOf ws ∧ sumOf ws < 2 ^ 32 := by
  constructor
  · rintro ⟨weights, h⟩
    unfold ofList? at h
    split at h
    · cases h
    · split at h
      · rename_i hbound
        split at h
        · rename_i hpos
          exact ⟨hpos, hbound⟩
        · cases h
      · cases h
  · rintro ⟨hpos, hbound⟩
    have hne : ws ≠ [] := by
      rintro rfl
      exact absurd hpos (Nat.lt_irrefl 0)
    refine ⟨⟨ws, hpos, hbound⟩, ?_⟩
    rw [ofList?, if_neg hne, dif_pos hbound, dif_pos hpos]

/-- Weights that are too large together are refused for that. -/
theorem ofList?_of_le {ws : List UInt32} (h : 2 ^ 32 ≤ sumOf ws) :
    ofList? ws = .error .overflow := by
  have hne : ws ≠ [] := by
    rintro rfl
    exact absurd h (by decide)
  rw [ofList?, if_neg hne, dif_neg (Nat.not_lt.mpr h)]

end Entropy.Weights

namespace Config.Valid

variable {c : Config}

/-- The shards of a valid configuration make a pool. -/
theorem exists_pool (h : c.Valid) : ∃ pool, Pool.ofTarget? c.target = .ok pool :=
  (c.target.validate_iff_pool h.target.host).mp (c.target.validate_eq_ok_iff.mpr h.target)

/-- Requests can be built for a valid configuration. -/
theorem exists_builder (h : c.Valid) : ∃ builder, Builder.ofPayload? c.payload = .ok builder :=
  Builder.exists_ofPayload? (c.payload.validate_eq_ok_iff.mpr h.payload)

end Config.Valid

namespace Engine

variable {c : Config} {o : RunOptions} {around : Surroundings} {e : Invalid}

/-- What the check refuses is not set up. -/
theorem plan_of_validate (h : c.validate = .error e) : plan c = .error e := by
  unfold plan
  rw [h]
  rfl

/-- What is valid can be set up as long as its weights are not too large together. -/
theorem exists_plan (h : c.Valid) (hweight : c.totalWeight < 2 ^ 32) :
    ∃ plan pool, Engine.plan c = .ok (plan, pool) := by
  obtain ⟨pool, hpool⟩ := h.exists_pool
  obtain ⟨weights, hweights⟩ := (Entropy.Weights.ofList?_isOk_iff c.weights).mpr
    ⟨h.weight, hweight⟩
  obtain ⟨builder, hbuilder⟩ := h.exists_builder
  unfold Engine.plan
  rw [c.validate_eq_ok_iff.mpr h, hpool, hweights, hbuilder]
  exact ⟨_, pool, rfl⟩

/-- What is valid is refused if its weights are too large together. -/
theorem plan_of_le_totalWeight (h : c.Valid) (hweight : 2 ^ 32 ≤ c.totalWeight) :
    plan c = .error (.weights .overflow) := by
  obtain ⟨pool, hpool⟩ := h.exists_pool
  unfold plan
  rw [c.validate_eq_ok_iff.mpr h, hpool, Entropy.Weights.ofList?_of_le hweight]
  rfl

/-- A set-up fails by the check, or over weights that are too large together. -/
theorem plan_eq_error_iff : plan c = .error e ↔
    c.validate = .error e ∨
      c.validate = .ok () ∧ 2 ^ 32 ≤ c.totalWeight ∧ e = .weights .overflow := by
  cases hcheck : c.validate with
  | error e' =>
    rw [plan_of_validate hcheck]
    constructor
    · rintro ⟨⟩
      exact Or.inl rfl
    · rintro (⟨⟨⟩⟩ | ⟨⟨⟩, -⟩)
      rfl
  | ok =>
    have hvalid := c.validate_eq_ok_iff.mp hcheck
    by_cases hweight : c.totalWeight < 2 ^ 32
    · obtain ⟨plan, pool, hplan⟩ := exists_plan hvalid hweight
      rw [hplan]
      refine iff_of_false (by rintro ⟨⟩) ?_
      rintro (⟨⟨⟩⟩ | ⟨-, hle, -⟩)
      exact absurd hweight (Nat.not_lt.mpr hle)
    · have hle := Nat.not_lt.mp hweight
      rw [plan_of_le_totalWeight hvalid hle]
      constructor
      · rintro ⟨⟩
        exact Or.inr ⟨rfl, hle, rfl⟩
      · rintro (⟨⟨⟩⟩ | ⟨-, -, rfl⟩)
        rfl

/-- What can be set up is what is valid with weights that are not too large together. -/
theorem plan_isOk_iff :
    (∃ planned, plan c = .ok planned) ↔ c.validate = .ok () ∧ c.totalWeight < 2 ^ 32 := by
  constructor
  · rintro ⟨⟨plan, pool⟩, hplan⟩
    have hcheck := (validate_of_plan hplan).1
    refine ⟨hcheck, Nat.lt_of_not_le fun hle => ?_⟩
    rw [plan_of_le_totalWeight (c.validate_eq_ok_iff.mp hcheck) hle] at hplan
    cases hplan
  · rintro ⟨hcheck, hweight⟩
    obtain ⟨plan, pool, hplan⟩ := exists_plan (c.validate_eq_ok_iff.mp hcheck) hweight
    exact ⟨(plan, pool), hplan⟩

/-- A run that cannot be set up cannot be prepared. -/
theorem prepare_of_plan_eq_error (h : plan c = .error e) : prepare c o around = .error e := by
  unfold prepare
  rw [h]
  rfl

/-- A run is refused exactly when it cannot be set up. -/
theorem run_eq_invalid_iff : run c o around = .error (.invalid e) ↔ plan c = .error e := by
  unfold run
  cases hplan : plan c with
  | error e' =>
    rw [prepare_of_plan_eq_error hplan]
    constructor
    · rintro ⟨⟩
      rfl
    · rintro ⟨⟩
      rfl
  | ok planned =>
    obtain ⟨t, s, hprep⟩ := exists_prepare_of_plan hplan o around
    rw [hprep]
    refine iff_of_false ?_ (by rintro ⟨⟩)
    simp only
    split
    · split <;> rintro ⟨⟩
    · rintro ⟨⟩

/-! ## What happens in a run -/

/-- What a scripted service may have counted at some moment of a run, and how many calls were
issued by then over whatever transport: nothing as long as nobody is at work, and then what
comes of any course of events. -/
inductive Progress (c : Config) (o : RunOptions) (around : Surroundings) : Ledger → Nat → Prop
  | before : Progress c o around (.new around.failures) 0
  | during {t : Terms} {s₀ s : System} : prepare c o around = .ok (t, s₀) →
      fitsClock c around = true → System.MayReach t s₀ s →
      Progress c o around s.shared.ledger (s.sum User.issued)

/-- Nothing happens in a run that is refused. -/
theorem progress_of_plan {ledger : Ledger} {calls : Nat} (h : plan c = .error e)
    (hprogress : Progress c o around ledger calls) :
    ledger = .new around.failures ∧ calls = 0 := by
  cases hprogress with
  | before => exact ⟨rfl, rfl⟩
  | during hprep =>
    obtain ⟨planned, hplan, -⟩ := exists_of_bind hprep
    rw [h] at hplan
    cases hplan

/-- **Which runs are refused.**  A run is refused for the fault that the check finds, or over
weights that come to `2 ^ 32` or more.  After the check there always is a pool and a builder,
and only the weights may still fail.  And when a run is refused no call is issued, at no moment
and over no transport. -/
theorem refused_iff (c : Config) (o : RunOptions) (around : Surroundings) :
    (∀ e, run c o around = .error (.invalid e) ↔
      c.validate = .error e ∨
        c.validate = .ok () ∧ 2 ^ 32 ≤ c.totalWeight ∧ e = .weights .overflow) ∧
    (c.validate = .ok () →
      (∃ pool, Pool.ofTarget? c.target = .ok pool) ∧
      (∃ builder, Builder.ofPayload? c.payload = .ok builder) ∧
      ((∃ weights, Entropy.Weights.ofList? c.weights = .ok weights) ↔
        c.totalWeight < 2 ^ 32)) ∧
    (∀ e, run c o around = .error (.invalid e) → ∀ ledger calls,
      Progress c o around ledger calls → ledger = .new around.failures ∧ calls = 0) := by
  refine ⟨?_, ?_, ?_⟩
  · intro e
    exact run_eq_invalid_iff.trans plan_eq_error_iff
  · intro hcheck
    have hvalid := c.validate_eq_ok_iff.mp hcheck
    refine ⟨hvalid.exists_pool, hvalid.exists_builder, ?_⟩
    exact (Entropy.Weights.ofList?_isOk_iff c.weights).trans (and_iff_right hvalid.weight)
  · intro e hrefused ledger calls hprogress
    exact progress_of_plan (run_eq_invalid_iff.mp hrefused) hprogress

/-- Two steps whose weights come to `2 ^ 32` pass the check, and their run is refused. -/
theorem refused_after_check :
    ({ Config.default with
        scenario := [⟨.transaction, 4294967295⟩, ⟨.rootRead, 1⟩] } : Config).validate = .ok () ∧
    run { Config.default with scenario := [⟨.transaction, 4294967295⟩, ⟨.rootRead, 1⟩] }
      ⟨some 0, some 1, false⟩ ⟨.scripted ⟨.answer, .ofMillis 20⟩, 0, fun _ => .seeded 0, 0⟩ =
        .error (.invalid (.weights .overflow)) := by
  have hcheck : ({ Config.default with
      scenario := [⟨.transaction, 4294967295⟩, ⟨.rootRead, 1⟩] } : Config).validate = .ok () := by
    decide +kernel
  refine ⟨hcheck, ?_⟩
  rw [run_eq_invalid_iff, plan_eq_error_iff]
  exact Or.inr ⟨hcheck, by decide, rfl⟩

end Engine
end ShardLoad
