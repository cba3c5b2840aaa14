import ShardLoad.Proofs.Entropy.Weighted
import ShardLoad.Proofs.Run.Gate
import ShardLoad.Proofs.Run.Requests

/-!
# The steps that calls are made for

Before each call a user chooses a step of the configured mix.  Whatever its generator has come
to, the choice is in proportion to the configured weights; so every call of a run is made for a
step that has weight, and for the operation of that step.

* `Engine.isForStep_issue`: the next call of a user is for a step that has weight.
* `Engine.steps_in_proportion`: the choices of a list of weights, and the steps of a run.
-/

namespace ShardLoad

namespace Entropy.Weights

/-- What can be chosen from are the weights that were given. -/
theorem weights_of_ofList? {ws : List UInt32} {w : Weights} (h : ofList? ws = .ok w) :
    w.weights = ws := by
  unfold ofList? at h
  split at h
  · cases h
  · split at h
    · split at h
      · cases h
        rfl
      · cases h
    · cases h

end Entropy.Weights

namespace Engine

open ShardLoad.System

variable {c : Config} {o : RunOptions} {around : Surroundings} {t : Terms} {s₀ s : System}

/-- Whether a call is for a step of the mix that has weight. -/
def IsForStep (c : Config) (x : Issue) : Prop :=
  ∃ step, c.scenario[x.step]? = some step ∧ 0 < step.weight.toNat ∧
    x.call.operation = step.operation

/-- The next call of a user is for a step that has weight, whatever its generator has come to. -/
theorem isForStep_issue {p : Plan} {pool : Pool} (h : plan c = .ok (p, pool)) (a : Agenda) :
    IsForStep c (a.issue p) := by
  obtain ⟨-, -, hoperations, hweights, -⟩ := parts_of_plan h
  have hlist := Entropy.Weights.weights_of_ofList? hweights
  obtain ⟨hlt, hpos⟩ := p.weights.proportional.inside a.source
  have hstep : (a.issue p).step < c.scenario.length := by
    have hlength := congrArg List.length hlist
    rw [Config.weights, List.length_map] at hlength
    rw [← hlength]
    exact hlt
  refine ⟨c.scenario[(a.issue p).step], List.getElem?_eq_getElem hstep, ?_, ?_⟩
  · have hweight : p.weights.weights.get ⟨(a.issue p).step, hlt⟩ =
        c.scenario[(a.issue p).step].weight := by
      simp only [hlist, Config.weights, List.get_eq_getElem, List.getElem_map]
    rw [← hweight]
    exact hpos
  · rw [a.operation_issue, hoperations, List.getD_eq_getElem?_getD, List.getElem?_map,
      List.getElem?_eq_getElem hstep]
    rfl

/-- **Steps are chosen in proportion to their weights.**  Any list of weights with a sum that is
a positive number of 32 bits can be chosen from, and each choice is inside the list, of a step
that has weight, and in proportion to the weights.  The next call of a user is for a step of the
configured mix that is chosen so, and hence are all calls that are issued in a run, whatever
happens in it. -/
theorem steps_in_proportion :
    (∀ ws : List UInt32, 0 < Entropy.sumOf ws → Entropy.sumOf ws < 2 ^ 32 →
      ∃ w, Entropy.Weights.ofList? ws = .ok w ∧ w.weights = ws ∧
        w.total = Entropy.sumOf ws ∧ w.Proportional) ∧
    (∀ {c : Config} {p : Plan} {pool : Pool}, plan c = .ok (p, pool) →
      Entropy.Weights.ofList? c.weights = .ok p.weights ∧
      ∀ a : Agenda, (a.issue p).step = (p.weights.choose a.source).1 ∧
        IsForStep c (a.issue p)) ∧
    (∀ {c : Config} {o : RunOptions} {around : Surroundings} {t : Terms} {s₀ s : System}
        {issues : List (Nat × Issue)}, prepare c o around = .ok (t, s₀) →
      Issuing t s₀ issues s → ∀ x ∈ issues, IsForStep c x.2) := by
  refine ⟨fun ws hpos hbound => ?_, fun h => ?_, fun h hc => ?_⟩
  · obtain ⟨w, hw⟩ := (Entropy.Weights.ofList?_isOk_iff ws).mpr ⟨hpos, hbound⟩
    have hlist := Entropy.Weights.weights_of_ofList? hw
    exact ⟨w, hw, hlist, congrArg Entropy.sumOf hlist, w.proportional⟩
  · obtain ⟨-, -, -, hweights, -⟩ := parts_of_plan h
    exact ⟨hweights, fun a => ⟨rfl, isForStep_issue h a⟩⟩
  · obtain ⟨pool, hplan, -⟩ := exists_plan_of_prepare h
    exact forall_issuing (isForStep_issue hplan) hc

/-- Two steps of weight three and four between steps without weight; and the run of a mix with a
transaction between two root reads without weight, in which all calls are transactions. -/
theorem steps_in_proportion_between :
    (∃ w, Entropy.Weights.ofList? [0, 3, 0, 4, 0] = .ok w ∧
      (w.drawsTo 1).ncard = 1840700268 ∧ (w.drawsTo 2).ncard = 0 ∧
      (w.drawsTo 3).ncard = 2454267024 ∧ w.refused.ncard = 4) ∧
    ∃ t s₀ s issues,
      prepare { Config.default with scenario := [⟨.rootRead, 0⟩, ⟨.transaction, 3⟩, ⟨.rootRead, 0⟩] }
        ⟨none, some 7, false⟩ ⟨.scripted ⟨.answer, .ofMillis 20⟩, 3, fun _ => .seeded 0, 0⟩ =
          .ok (t, s₀) ∧
      Issuing t s₀ issues s ∧ s.isOver = true ∧ (issuesOf issues 2).length = 116 ∧
      ∀ x ∈ issues, x.2.step = 1 ∧ x.2.call.operation = .transaction := by
  constructor
  · obtain ⟨w, hw, hlist, htotal, heven⟩ :=
      steps_in_proportion.1 [0, 3, 0, 4, 0] (by decide) (by decide)
    have hseven : w.total = 7 := htotal
    obtain ⟨ws, hpos, hbound⟩ := w
    obtain rfl : ws = [0, 3, 0, 4, 0] := hlist
    refine ⟨_, hw, (heven.even 1 (by show 1 < 5; decide)).trans ?_,
      (heven.even 2 (by show 2 < 5; decide)).trans ?_,
      (heven.even 3 (by show 3 < 5; decide)).trans ?_, heven.rest.trans ?_⟩
    · rw [hseven]
      show 3 * (2 ^ 32 / 7) = 1840700268
      decide
    · rw [hseven]
      show 0 * (2 ^ 32 / 7) = 0
      decide
    · rw [hseven]
      show 4 * (2 ^ 32 / 7) = 2454267024
      decide
    · rw [hseven]
      decide
  · obtain ⟨t, s₀, h⟩ := exists_prepare (c := { Config.default with
        scenario := [⟨.rootRead, 0⟩, ⟨.transaction, 3⟩, ⟨.rootRead, 0⟩] }) (by decide +kernel)
      ⟨none, some 7, false⟩ ⟨.scripted ⟨.answer, .ofMillis 20⟩, 3, fun _ => .seeded 0, 0⟩
    obtain ⟨hround, hrounds⟩ := rounds_of_default rfl h rfl
    obtain ⟨s, issues, u, hc, hover, hu, hn⟩ :=
      exists_issuing_run h (steady_of_prepare rfl h) (by omega) (by decide) rfl (i := 2) (by decide)
    obtain ⟨u₀, -, hfollows⟩ := follows_of_issuing hc (fresh_of_prepare h) hu
    refine ⟨t, s₀, s, issues, h, hc, hover, ?_, fun x hx => ?_⟩
    · rw [hfollows.issues, Agenda.length_issues, hn, hrounds]
    · obtain ⟨step, hstep, hpos, hoperation⟩ := steps_in_proportion.2.2 h hc x hx
      rcases hk : x.2.step with _ | _ | _ | k <;> rw [hk] at hstep <;> cases hstep
      · exact absurd hpos (by decide)
      · exact ⟨rfl, hoperation⟩
      · exact absurd hpos (by decide)

end Engine
end ShardLoad
