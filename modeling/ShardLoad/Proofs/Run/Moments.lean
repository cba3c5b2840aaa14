import ShardLoad.Proofs.Run.Gate
import ShardLoad.Proofs.Run.Pacing

/-!
# Moments that a clock can show

A run works out moments in advance: its end, from its start and its length, and for every call
the end of the pause after it, from the moment at which its sample is handed over.  A clock
shows less than `2 ^ 63` seconds, and the length of a run and its pauses are only bounded by
the 64 bits that they are given in.

The check asks of the length of a run that it is not zero, and nothing else.  So a run may pass
it and break off at once, because no clock can show its end.  If its end can be shown, with a
call and a pause to spare, then so can all that it works out: users hand over no sample later
than a call may take after the end of the run.

* `Surroundings.Shows`: a moment that the clock can show.
* `Engine.Computes`: the moments that a run works out.
* `Engine.run_eq_beyondClock_iff`: which runs break off.
* `Engine.moments_shown`: both kinds of moments together.
-/

namespace ShardLoad

/-- Whether the clock can show a moment so many milliseconds after the start, wherever between
two seconds that was. -/
def Surroundings.Shows (around : Surroundings) (millis : Nat) : Prop :=
  around.clock + (millis + 999) / 1000 < 2 ^ 63

/-- An earlier moment is shown if a later one is. -/
theorem Surroundings.Shows.mono {around : Surroundings} {m n : Nat} (h : around.Shows n)
    (hle : m ≤ n) : around.Shows m := by
  unfold Surroundings.Shows at h ⊢
  omega

namespace Engine

variable {c : Config} {o : RunOptions} {around : Surroundings} {t : Terms} {s₀ s : System}

/-- The moments that a run works out, in milliseconds from its start: its end, and the ends of
the pauses of users that have a sample to hand over. -/
inductive Computes (c : Config) (o : RunOptions) (around : Surroundings) : Nat → Prop
  | ending {t : Terms} {s₀ : System} : prepare c o around = .ok (t, s₀) →
      Computes c o around t.deadline
  | pause {t : Terms} {s₀ s : System} {u : User} {x : Sample} :
      prepare c o around = .ok (t, s₀) → fitsClock c around = true → System.MayReach t s₀ s →
      u ∈ s.users → u.phase = .delivering x → Computes c o around (s.shared.now + t.pacing)

/-- **Which runs break off**: those that could be set up and whose end no clock can show. -/
theorem run_eq_beyondClock_iff : run c o around = .error .beyondClock ↔
    c.validate = .ok () ∧ c.totalWeight < 2 ^ 32 ∧
      2 ^ 63 ≤ around.clock + c.settings.durationSecs.toNat := by
  unfold run
  cases hplan : plan c with
  | error e =>
    rw [prepare_of_plan_eq_error hplan]
    refine iff_of_false (by rintro ⟨⟩) ?_
    rintro ⟨hcheck, hweight, -⟩
    obtain ⟨planned, hok⟩ := plan_isOk_iff.mpr ⟨hcheck, hweight⟩
    rw [hplan] at hok
    cases hok
  | ok planned =>
    obtain ⟨hcheck, hweight⟩ := plan_isOk_iff.mp ⟨planned, hplan⟩
    obtain ⟨t, s, hprep⟩ := exists_prepare_of_plan hplan o around
    rw [and_iff_right hcheck, and_iff_right hweight, hprep]
    simp only
    by_cases hclock : fitsClock c around = true
    · have hlt : around.clock + c.settings.durationSecs.toNat < 2 ^ 63 :=
        of_decide_eq_true hclock
      rw [if_pos hclock]
      refine iff_of_false ?_ (Nat.not_le.mpr hlt)
      split <;> rintro ⟨⟩
    · have hle : 2 ^ 63 ≤ around.clock + c.settings.durationSecs.toNat :=
        Nat.not_lt.mp fun hlt => hclock (decide_eq_true hlt)
      rw [if_neg hclock]
      exact iff_of_true rfl hle

/-- The clock never gets past the time of a run by as much as a call may take, whether or not
the run is interrupted. -/
theorem now_lt_of_mayReach (h : prepare c o around = .ok (t, s₀)) (hr : System.MayReach t s₀ s) :
    s.shared.now < 1000 * c.settings.durationSecs.toNat + c.settings.timeout.toNat := by
  obtain ⟨b, spans, hc⟩ := hr.exists_course
  have hpos := (pos_of_validate (exists_of_prepare h).1).2.2
  rw [← ceilMillis_of_prepare h] at hpos ⊢
  have hlt := System.now_lt_of_course hc (fresh_of_prepare h) (capacity_pos_of_prepare h) hpos
  rw [(times_of_prepare h).2.1] at hlt
  exact hlt

/-- **The moments of a run.**  A run breaks off because its end is beyond the clock exactly when
it was set up and that is so, whatever the check has accepted.  If there are a call and a pause
to spare, then every moment that the run works out can be shown, in whatever order things
happen and whether or not it is interrupted. -/
theorem moments_shown (c : Config) (o : RunOptions) (around : Surroundings) :
    (run c o around = .error .beyondClock ↔
      c.validate = .ok () ∧ c.totalWeight < 2 ^ 32 ∧
        2 ^ 63 ≤ around.clock + c.settings.durationSecs.toNat) ∧
    (around.clock + c.settings.durationSecs.toNat +
        (c.settings.timeout.toNat + c.settings.pacing.toNat + 999) / 1000 < 2 ^ 63 →
      ∀ millis, Computes c o around millis → around.Shows millis) := by
  refine ⟨run_eq_beyondClock_iff, ?_⟩
  intro hspare millis hcomputes
  -- no sample is handed over later than a call may take after the end
  have hlast : around.Shows (1000 * c.settings.durationSecs.toNat +
      (c.settings.timeout.toNat + c.settings.pacing.toNat)) := by
    unfold Surroundings.Shows
    omega
  cases hcomputes with
  | ending hprep =>
    rw [(times_of_prepare hprep).2.1]
    exact hlast.mono (Nat.le_add_right _ _)
  | pause hprep hclock hr =>
    have hlt := now_lt_of_mayReach hprep hr
    rw [(times_of_prepare hprep).1]
    exact hlast.mono (by omega)

/-- A run that is as long as can be configured passes the check, and breaks off. -/
theorem longest_run_breaks_off :
    ({ Config.default with settings := .minimal 8 18446744073709551615 } : Config).validate =
      .ok () ∧
    run { Config.default with settings := .minimal 8 18446744073709551615 }
      ⟨some 0, some 1, false⟩ ⟨.scripted ⟨.answer, .ofMillis 20⟩, 0, fun _ => .seeded 0, 0⟩ =
        .error .beyondClock := by
  have hcheck : ({ Config.default with
      settings := .minimal 8 18446744073709551615 } : Config).validate = .ok () := by
    decide +kernel
  refine ⟨hcheck, run_eq_beyondClock_iff.mpr ⟨hcheck, by decide, by decide⟩⟩

/-- The end of the built-in run can be shown, by a clock that has gone for a million years. -/
theorem moments_shown_default :
    Computes Config.default ⟨none, some 1, false⟩
        ⟨.scripted ⟨.answer, .ofMillis 20⟩, 0, fun _ => .seeded 0, 31536000000000⟩ 60000 ∧
      Surroundings.Shows
        ⟨.scripted ⟨.answer, .ofMillis 20⟩, 0, fun _ => .seeded 0, 31536000000000⟩ 60000 := by
  obtain ⟨t, s₀, s, hprep, -⟩ := exists_run_default ⟨none, some 1, false⟩
    ⟨.scripted ⟨.answer, .ofMillis 20⟩, 0, fun _ => .seeded 0, 31536000000000⟩ (by decide)
  have hending := Computes.ending hprep
  rw [(times_of_prepare hprep).2.1] at hending
  exact ⟨hending, (moments_shown _ _ _).2 (by decide) _ hending⟩

end Engine
end ShardLoad
