import ShardLoad.Proofs.Run.Conservation

/-!
# The cap on the calls of a run

A call is made only with an iteration that was taken, and no more iterations are taken than
the cap allows.  So the calls of a run never exceed it, at no moment and in no order of
events.  Between taking an iteration and making the call with it a user does nothing else,
and nothing stops it there: each iteration that was taken is used.  Once somebody has asked
in vain, all iterations were taken, and when the run is over all of them were used.

* `issued_le_taken`, `issued_eq_taken`: iterations and the calls that are made with them.
* `Engine.issued_eq_cap`: the cap is exact and never overshot.
-/

namespace ShardLoad

/-- A user makes a call with each iteration that it has taken, but for one that it is about
to use. -/
theorem User.issued_le_taken (u : User) : u.issued ≤ u.taken := by
  unfold issued taken
  cases u.phase with
  | admitted => exact Nat.le_succ _
  | idle | ready | claiming | calling | delivering | pausing | leaving | gone => exact Nat.le_refl _

/-- A user that is not about to use an iteration has used all that it took. -/
theorem User.issued_eq_taken {u : User} (h : u.phase ≠ .admitted) : u.issued = u.taken := by
  unfold issued taken
  cases hp : u.phase with
  | admitted => exact absurd hp h
  | idle | ready | claiming | calling | delivering | pausing | leaving | gone => rfl

namespace System

variable {t : Terms} {s s₀ : System} {cap : UInt64}

/-- When all users have stopped, the calls that have ended are the iterations that were taken. -/
theorem sum_taken_of_allGone (h : s.allGone = true) :
    s.sum User.taken = s.sum User.iterations := by
  apply sum_congr
  intro u hu
  obtain ⟨exit, hp⟩ := exists_of_allGone h hu
  simp only [User.taken, hp]

/-- A run that nobody interrupts and that is over before its time was cut short by its cap. -/
theorem sum_overran_pos_of_early (hr : Reaches t s₀ s) (h₀ : s₀.Fresh) (hover : s.isOver = true)
    (hearly : s.shared.now < t.deadline) : 0 < s.sum User.overran :=
  (excused_of_reaches hr h₀ (isOver_iff.mp hover).2.1).resolve_left (Nat.not_le.mpr hearly)

/-- When a run is over in which somebody asked in vain, as many calls have ended as its cap
allows. -/
theorem sum_iterations_eq_cap (hr : MayReach t s₀ s) (h₀ : s₀.Fresh) (hcap : t.cap = some cap)
    (hclaims : s.claims ≤ 2 ^ 64) (hgone : s.allGone = true) (hover : 0 < s.sum User.overran) :
    s.sum User.iterations = cap.toNat := by
  rw [← sum_taken_of_allGone hgone]
  exact taken_eq_cap hr h₀ hcap hclaims hover

end System

namespace Engine

open ShardLoad.System

variable {c : Config} {o : RunOptions} {around : Surroundings} {t : Terms} {s₀ s : System}
  {cap : UInt64}

/-- **The cap of a run is exact and never overshot**, in whatever order users ask for
iterations, make calls, pause and are cancelled, as long as they do not ask so often that the
counter wraps.  At no moment are there more calls than the cap allows; once every iteration
that was taken is used there are as many as were asked for, up to the cap.  When a run is over
in which some user stopped because of the cap, or which nobody interrupted and which ended
before its time, the calls that were made, that have ended and that were published are all as
many as the cap. -/
theorem issued_eq_cap (h : prepare c o around = .ok (t, s₀)) (hcap : o.cap = some cap)
    (hr : System.MayReach t s₀ s) (hclaims : s.claims < 2 ^ 64) :
    s.shared.slots.toNat = s.claims ∧
    (∀ script, around.transport = .scripted script →
      s.shared.ledger.calls = s.sum User.issued) ∧
    s.sum User.issued ≤ cap.toNat ∧
    ((∀ u ∈ s.users, u.phase ≠ .admitted) →
      s.sum User.issued = min s.shared.slots.toNat cap.toNat) ∧
    (s.isOver = true →
      (∃ u ∈ s.users, u.phase = .gone .iterationCap) ∨
        System.Reaches t s₀ s ∧ s.shared.now < t.deadline →
      (finish s).result.iterations.sum = cap.toNat ∧ s.sum User.issued = cap.toNat ∧
        (finish s).result.snapshot.total = cap.toNat) := by
  have hfresh := fresh_of_prepare h
  have hcap : t.cap = some cap := (cap_of_prepare h).trans hcap
  have htaken := taken_eq_min hr hfresh hcap (Nat.le_of_lt hclaims)
  have hslots := slots_eq_claims hr hfresh hcap hclaims
  refine ⟨hslots, ?_, ?_, ?_, ?_⟩
  · intro script hs
    exact calls_eq_sum_issued hr ((transport_of_prepare h).trans hs) hfresh
  · calc s.sum User.issued ≤ s.sum User.taken := sum_le_sum fun u _ => u.issued_le_taken
      _ = min s.claims cap.toNat := htaken
      _ ≤ cap.toNat := Nat.min_le_right _ _
  · intro hused
    rw [hslots, ← htaken]
    exact sum_congr fun u hu => User.issued_eq_taken (hused u hu)
  · intro hover hcut
    have hgone := (isOver_iff.mp hover).2.2
    have hpos : 0 < s.sum User.overran := by
      rcases hcut with ⟨u, hu, hp⟩ | ⟨hreach, hearly⟩
      · exact sum_overran_pos hu hp
      · exact sum_overran_pos_of_early hreach hfresh hover hearly
    have hiter := sum_iterations_eq_cap hr hfresh hcap (Nat.le_of_lt hclaims) hgone hpos
    refine ⟨hiter, ?_, ?_⟩
    · rw [sum_issued_of_allGone hgone, hiter]
    · exact (total_published hr hfresh hover).trans hiter

/-- A hundred calls are not exceeded by the built-in configuration. -/
theorem issued_eq_cap_hundred :
    ∃ t s₀ s, prepare Config.default ⟨some 100, some 1, false⟩
        ⟨.scripted ⟨.answer, .ofMillis 20⟩, 0, fun _ => .seeded 0, 0⟩ = .ok (t, s₀) ∧
      s₀.run? t = some s ∧ s.shared.ledger.calls ≤ 100 := by
  obtain ⟨t, s₀, s, hprep, hrun, -⟩ := exists_run_default ⟨some 100, some 1, false⟩
    ⟨.scripted ⟨.answer, .ofMillis 20⟩, 0, fun _ => .seeded 0, 0⟩ (by decide)
  have hr := (isOver_of_run? hrun).1.mayReach
  have hsize : s₀.users.size = 8 := by
    obtain ⟨-, plan, pool, -, -, rfl⟩ := exists_of_prepare hprep
    exact size_start pool
  have hclaims := claims_le hr (fresh_of_prepare hprep) (cap_of_prepare hprep)
    (by rw [hsize]; decide)
  obtain ⟨-, hcalls, hle, -, -⟩ := issued_eq_cap hprep rfl hr
    (Nat.lt_of_le_of_lt hclaims (by rw [hsize]; decide))
  exact ⟨t, s₀, s, hprep, hrun, (hcalls _ rfl).le.trans hle⟩

end Engine
end ShardLoad
