import ShardLoad.Proofs.Run.Slots

/-!
# Rounds

Where all calls of a run take the same time, as those to a scripted service do, and so do all
pauses but those that the end of the run cuts short, users that start together never wait for
each other.  The `k`-th call of every user starts `k` rounds after the start of the run, and a
round starts for everybody unless its moment is past the end.  In whatever order users act, what
a user is doing is told by the clock and the number of calls that it has behind it.

A user that stops early stops for one reason only: that somebody asked in vain for one more
iteration.

* `lt_rounds`, `rounds_le`: which rounds are rounds of the run.
* `Terms.Steady`: all calls take the same time.
* `User.InStep`: what a user does at a moment.
* `inStep_of_reaches`: users keep in step.
-/

namespace ShardLoad

namespace Terms

variable {t : Terms}

/-- A round is one of the run exactly when it starts before the end. -/
theorem lt_rounds (hround : 0 < t.round) {k : Nat} : k < t.rounds ↔ k * t.round < t.deadline := by
  unfold rounds
  rw [Nat.lt_iff_add_one_le, Nat.le_div_iff_mul_le hround, Nat.add_mul, Nat.one_mul]
  omega

/-- All rounds are over once the end lies before the next one. -/
theorem rounds_le (hround : 0 < t.round) {now k : Nat} (hnow : now ≤ k * t.round)
    (hd : t.deadline ≤ now) : t.rounds ≤ k := by
  rw [← Nat.not_lt, lt_rounds hround]
  omega

/-- The next round starts when a call and a pause are over. -/
theorem succ_mul_round (k : Nat) : (k + 1) * t.round = k * t.round + t.callTime + t.pacing := by
  rw [Nat.succ_mul, round]
  omega

/-- All calls take the same time. -/
def Steady (t : Terms) : Prop := ∀ c, t.transport.millis t.timeout c = t.callTime

/-- The calls to a scripted service take the same time. -/
theorem steady_of_scripted {script : Script} (h : t.transport = .scripted script) : t.Steady := by
  intro c
  unfold callTime
  rw [h]
  rfl

end Terms

/-- What a user does at a moment.  Its time is told by the calls that it has behind it: the
call before an iteration starts at a multiple of a round, and whatever follows lies between
that and the next multiple.  Before it stops, either all rounds are over or the run was cut
short. -/
def User.InStep (t : Terms) (now : Nat) (short : Prop) (u : User) : Prop :=
  match u.phase with
  | .idle => u.iterations = 0 ∧ now = 0
  | .ready => u.iterations ≤ t.rounds ∧ now ≤ u.iterations * t.round ∧
      u.iterations * t.round ≤ now + t.round ∧
      (now = u.iterations * t.round ∨ t.deadline ≤ now)
  | .claiming => now = u.iterations * t.round ∧ now < t.deadline
  | .admitted => now = u.iterations * t.round ∧ now < t.deadline
  | .calling since due _ => since = u.iterations * t.round ∧ since < t.deadline ∧
      due = since + t.callTime ∧ since ≤ now ∧ now ≤ due
  | .delivering _ => ∃ k, u.iterations = k + 1 ∧ k * t.round < t.deadline ∧
      now = k * t.round + t.callTime
  | .pausing wake => ∃ k, u.iterations = k + 1 ∧ k * t.round < t.deadline ∧
      wake = min ((k + 1) * t.round) t.deadline ∧ k * t.round + t.callTime ≤ now ∧
      (now ≤ wake ∨ now = k * t.round + t.callTime) ∧
      (t.pacing = 0 → now = k * t.round + t.callTime)
  | .leaving _ => u.iterations ≤ t.rounds ∧
      (short ∨ u.iterations = t.rounds ∧ t.deadline ≤ now)
  | .gone _ => u.iterations ≤ t.rounds ∧
      (short ∨ u.iterations = t.rounds ∧ t.deadline ≤ now)

namespace User

variable {t : Terms} {u u' : User} {sh sh' : Shared} {now : Nat} {short short' : Prop}

/-- That a run was cut short is not taken back. -/
theorem InStep.mono (h : u.InStep t now short) (hshort : short → short') :
    u.InStep t now short' := by
  unfold InStep at h ⊢
  cases hp : u.phase with
  | leaving exit =>
    rw [hp] at h
    exact ⟨h.1, h.2.imp_left hshort⟩
  | gone exit =>
    rw [hp] at h
    exact ⟨h.1, h.2.imp_left hshort⟩
  | idle | ready | claiming | admitted | calling | delivering | pausing =>
    rw [hp] at h
    exact h

/-- Users keep in step when one of them acts. -/
theorem inStep_of_move (hsteady : t.Steady) (hround : 0 < t.round) (h : u.Move t sh u' sh')
    (hu : u.InStep t sh.now short) (hopen : sh.channel.closed = false)
    (hcancel : sh.cancelled = true → short ∨ t.deadline ≤ sh.now) (hshort : short → short')
    (hover : 0 < u'.overran → short') : u'.InStep t sh'.now short' := by
  unfold InStep at hu
  cases h with
  | enter hp =>
    rw [hp] at hu
    obtain ⟨hn, hnow⟩ := hu
    show u.iterations ≤ t.rounds ∧ sh.now ≤ u.iterations * t.round ∧
      u.iterations * t.round ≤ sh.now + t.round ∧ _
    rw [hn, hnow, Nat.zero_mul]
    exact ⟨Nat.zero_le _, Nat.le_refl _, Nat.zero_le _, Or.inl rfl⟩
  | cancel hp hc =>
    rw [hp] at hu
    obtain ⟨hle, hnow, -, -⟩ := hu
    exact ⟨hle, (hcancel hc).imp hshort fun hd =>
      ⟨Nat.le_antisymm hle (Terms.rounds_le hround hnow hd), hd⟩⟩
  | expire hp _ hd =>
    rw [hp] at hu
    obtain ⟨hle, hnow, -, -⟩ := hu
    exact ⟨hle, Or.inr ⟨Nat.le_antisymm hle (Terms.rounds_le hround hnow hd), hd⟩⟩
  | begin hp _ hd =>
    rw [hp] at hu
    obtain ⟨-, -, -, he | hlate⟩ := hu
    · exact ⟨he, hd⟩
    · exact absurd hd (Nat.not_lt.mpr hlate)
  | proceed hp _ =>
    rw [hp] at hu
    exact hu
  | claim max hp _ _ =>
    rw [hp] at hu
    exact hu
  | overrun max hp _ _ =>
    rw [hp] at hu
    obtain ⟨hnow, hd⟩ := hu
    refine ⟨Nat.le_of_lt ?_, Or.inl (hover Nat.one_pos)⟩
    exact (Terms.lt_rounds hround).mpr (hnow ▸ hd)
  | send a agenda log hp _ _ =>
    rw [hp] at hu
    obtain ⟨hnow, hd⟩ := hu
    exact ⟨hnow, hd, congrArg (sh.now + ·) (hsteady _), Nat.le_refl _, Nat.le_add_right _ _⟩
  | receive since due a result ledger log hp hdue _ =>
    rw [hp] at hu
    obtain ⟨hsince, hd, hcall, -, hnow⟩ := hu
    exact ⟨u.iterations, rfl, hsince ▸ hd,
      show sh.now = u.iterations * t.round + t.callTime by omega⟩
  | hangUp x _ hc => exact absurd (hopen.symm.trans hc) (by simp)
  | deliver x hp _ _ =>
    rw [hp] at hu
    obtain ⟨k, hk, hd, hnow⟩ := hu
    have hnext : sh.now + t.pacing = (k + 1) * t.round := by rw [Terms.succ_mul_round, hnow]
    exact ⟨k, hk, hd, by rw [hnext], Nat.le_of_eq hnow.symm, Or.inr hnow, fun _ => hnow⟩
  | resume wake hp hwake =>
    rw [hp] at hu
    obtain ⟨k, hk, hd, hw, hnow, hlate, hzero⟩ := hu
    have hle : u.iterations ≤ t.rounds := hk ▸ (Terms.lt_rounds hround).mpr hd
    have hnext : u.iterations * t.round = k * t.round + t.callTime + t.pacing :=
      hk ▸ Terms.succ_mul_round k
    rw [Terms.succ_mul_round, ← hnext] at hw
    refine ⟨hle, show sh.now ≤ u.iterations * t.round by omega, ?_, ?_⟩
    · show u.iterations * t.round ≤ sh.now + (t.pacing + t.callTime)
      omega
    · show sh.now = u.iterations * t.round ∨ t.deadline ≤ sh.now
      rcases hwake with h0 | ⟨-, hover⟩
      · have hnow := hzero h0
        omega
      · omega
  | giveUp wake hp h0 hc =>
    rw [hp] at hu
    obtain ⟨k, hk, hd, hw, hnow, hlate, hzero⟩ := hu
    have hle : u.iterations ≤ t.rounds := hk ▸ (Terms.lt_rounds hround).mpr hd
    have hnext : u.iterations * t.round = k * t.round + t.callTime + t.pacing :=
      hk ▸ Terms.succ_mul_round k
    rw [Terms.succ_mul_round, ← hnext] at hw
    have hbound : sh.now ≤ u.iterations * t.round := by omega
    exact ⟨hle, (hcancel hc).imp hshort fun hover =>
      ⟨Nat.le_antisymm hle (Terms.rounds_le hround hbound hover), hover⟩⟩
  | leave exit log hp =>
    rw [hp] at hu
    exact ⟨hu.1, hu.2.imp_left hshort⟩

/-- Users keep in step when the clock moves. -/
theorem inStep_of_waits {next : Nat} (h : System.Waits t now next u) (hu : u.InStep t now short)
    (hnext : now ≤ next) : u.InStep t next short := by
  unfold InStep at hu ⊢
  cases h with
  | calling since due a hp hnow hle =>
    rw [hp] at hu ⊢
    obtain ⟨hsince, hd, hcall, hfrom, -⟩ := hu
    exact ⟨hsince, hd, hcall, Nat.le_trans hfrom hnext, hle⟩
  | pausing wake hp h0 hnow hle =>
    rw [hp] at hu ⊢
    obtain ⟨k, hk, hd, hw, hfrom, -, -⟩ := hu
    exact ⟨k, hk, hd, hw, Nat.le_trans hfrom hnext, Or.inl hle, fun h => absurd h h0⟩
  | gone exit hp =>
    rw [hp] at hu ⊢
    exact ⟨hu.1, hu.2.imp_right fun h => ⟨h.1, Nat.le_trans h.2 hnext⟩⟩

end User

namespace System

variable {t : Terms} {s s₀ s' : System}

/-- All users are in step. -/
def InStep (t : Terms) (s : System) : Prop :=
  ∀ u ∈ s.users, u.InStep t s.shared.now (0 < s.sum User.overran)

/-- Users keep in step as long as nobody interrupts the run. -/
theorem inStep_of_reaches (hsteady : t.Steady) (hround : 0 < t.round) (h : Reaches t s₀ s)
    (h₀ : s₀.Fresh) (hroom : 0 < s₀.shared.channel.capacity) : s.InStep t := by
  refine Reaches.invariant h ?_ ?_
  · intro u hu
    obtain ⟨hp, hn⟩ := h₀.idle u hu
    unfold User.InStep
    rw [hp]
    exact ⟨hn, h₀.now⟩
  · intro s s' a hr hs hm
    cases hm with
    | user i u u' sh hi hmove =>
      -- once somebody has asked in vain the others may stop at any time, and that stays so
      have ho := sum_setUser hi User.overran u' sh
      have hle : u.overran ≤ u'.overran := by
        cases User.claim_of_move hmove <;> omega
      have hmem := le_sum (mem_of_getElem? (s := s.setUser i u' sh) (i := i) (u := u')
        (by rw [getElem?_setUser hi, if_pos rfl])) User.overran
      have hcancel : s.shared.cancelled = true →
          0 < s.sum User.overran ∨ t.deadline ≤ s.shared.now :=
        fun hc => (excused_of_reaches hr h₀ hc).symm
      refine forall_setUser i sh (fun v hv => ?_)
        (User.inStep_of_move hsteady hround hmove (hs u (mem_of_getElem? hi))
          (opened_of_mayReach hr.mayReach h₀) hcancel (fun _ => by omega) fun _ => by omega)
      have hnow : sh.now = s.shared.now := now_of_userMove hmove
      show v.InStep t sh.now _
      rw [hnow]
      exact (hs v hv).mono fun _ => by omega
    | wait m hi hm =>
      exact fun u hu => User.inStep_of_waits (waits_of_wait hr.mayReach h₀ hroom hi hm hu)
        (hs u hu) (Nat.le_of_lt (now_lt_of_timer? hi hm))
    | _ => exact hs

end System
end ShardLoad
