import ShardLoad.Proofs.Run.Ending

/-!
# Users in turn

When users take turns, nobody else acts between the moment at which a user looks whether the
run goes on and the moment at which it takes an iteration.  So no user asks for one after
another has asked in vain, and the counter of iterations never goes further than one past
the cap: it cannot wrap, however large the cap.

* `runFor_induction`: what every action of a run with turns keeps.
* `System.Orderly`, `orderly_of_next?`: at most one user is about to ask.
* `claims_le_of_run?`: how far the counter goes.
-/

namespace ShardLoad

/-- A user that is about to take an iteration has just seen that the run goes on. -/
theorem User.running_of_claiming {t : Terms} {u u' : User} {sh sh' : Shared}
    (h : u.Move t sh u' sh') (hp : u'.phase = .claiming) :
    sh'.cancelled = false ∧ sh'.now < t.deadline := by
  cases h with
  | begin _ hc hd => exact ⟨hc, hd⟩
  | _ => exact absurd hp (by simp [User.leave])

namespace System

variable {t : Terms} {s s₀ s' : System} {turn : Nat}

/-- What every action of a run with turns keeps holds at its end. -/
theorem runFor_induction {P : Nat → System → Prop}
    (hstep : ∀ {turn s a s'}, P turn s → s.next? t turn = some a → s.step? t a = some s' →
      P (s'.nextTurn turn a) s')
    {count : Nat} (h : runFor t count turn s = some s') (hP : P turn s) :
    ∃ turn', P turn' s' := by
  induction count generalizing turn s with
  | zero => exact absurd h (by simp [runFor])
  | succ count ih =>
    unfold runFor at h
    split at h
    · rw [← Option.some.inj h]
      exact ⟨turn, hP⟩
    · rename_i a hnext
      split at h
      · rename_i ha
        exact ih h (hstep hP hnext ha)
      · exact absurd h (by simp)

/-- The user whose turn it is is found if it can take a step. -/
theorem findUser?_of_canStep {u : User} (hu : s.users[turn]? = some u)
    (hc : u.canStep t s.shared = true) : findUser? t s s.users.size turn = some turn := by
  obtain ⟨hlt, -⟩ := Array.getElem?_eq_some_iff.mp hu
  obtain ⟨n, hn⟩ := Nat.exists_eq_add_one.mpr (Nat.zero_lt_of_lt hlt)
  rw [hn, findUser?]
  simp only [hlt, if_true, hu, hc]

/-- At most the user whose turn it is is about to ask for an iteration, and only while nobody
has asked in vain. -/
structure Orderly (t : Terms) (s₀ : System) (turn : Nat) (s : System) : Prop where
  reached : Reaches t s₀ s
  claiming : ∀ {i u}, s.users[i]? = some u → u.phase = .claiming →
    i = turn ∧ s.shared.cancelled = false ∧ s.shared.now < t.deadline
  cancelled : 0 < s.sum User.overran → s.shared.cancelled = true
  bound : ∀ {cap}, t.cap = some cap → s.claims ≤ cap.toNat + 1

/-- One who asks while nobody has asked in vain does not find more taken than the cap. -/
theorem Orderly.claims_le (h : Orderly t s₀ turn s) (h₀ : s₀.Fresh) {cap : UInt64}
    (hcap : t.cap = some cap) (hc : s.shared.cancelled = false) : s.claims ≤ cap.toNat := by
  have hbound := h.bound hcap
  have hmax := cap.toNat_lt
  have htaken := taken_eq_min h.reached.mayReach h₀ hcap (by omega)
  have hover : ¬0 < s.sum User.overran := fun hpos =>
    absurd ((h.cancelled hpos).symm.trans hc) (by simp)
  unfold claims at htaken ⊢
  omega

/-- A run with turns stays orderly. -/
theorem orderly_of_next? {a : Action} (h : Orderly t s₀ turn s) (h₀ : s₀.Fresh)
    (hnext : s.next? t turn = some a) (ha : s.step? t a = some s') :
    Orderly t s₀ (s'.nextTurn turn a) s' := by
  have hreached := Reaches.step a h.reached ha
  cases move_of_step? ha with
  | user i u u' sh hi hmove =>
    -- a user that is about to ask can take a step, so when it is its turn nobody else does
    have hothers : ∀ {j v}, s.users[j]? = some v → v.phase = .claiming → i = j := by
      intro j v hj hp
      obtain ⟨rfl, -, -⟩ := h.claiming hj hp
      have hcan : v.canStep t s.shared = true := by
        unfold User.canStep
        rw [hp]
      cases next_of_next? hnext with
      | user _ hfind => exact Option.some.inj (hfind.symm.trans (findUser?_of_canStep hj hcan))
    have hsame : (s.setUser i u' sh).users[i]? = some u' := by
      rw [getElem?_setUser hi, if_pos rfl]
    have ho := sum_setUser hi User.overran u' sh
    have ht := sum_setUser hi User.taken u' sh
    refine ⟨hreached, ?_, ?_, ?_⟩
    · intro j v hj hp
      rw [getElem?_setUser hi] at hj
      by_cases he : i = j
      · rw [if_pos he] at hj
        obtain rfl := Option.some.inj hj
        refine ⟨?_, User.running_of_claiming hmove hp⟩
        simp only [nextTurn, hsame, hp]
        exact he.symm
      · rw [if_neg he] at hj
        exact absurd (hothers hj hp) he
    · intro hpos
      show sh.cancelled = true
      cases User.claim_of_move hmove with
      | neither _ hc _ hov | unlimited _ hc _ hov | granted _ _ _ _ hc _ hov =>
        rw [hc]
        exact h.cancelled (by omega)
      | denied _ _ _ _ hc => exact hc
    · intro cap hcap
      have hbound := h.bound hcap
      unfold claims at hbound ⊢
      cases User.claim_of_move hmove with
      | neither _ _ htk hov => omega
      | unlimited hnone => exact absurd (hnone.symm.trans hcap) (by simp)
      | granted _ _ _ _ _ htk hov hp | denied _ _ _ _ _ htk hov hp =>
        have hle := h.claims_le h₀ hcap (h.claiming hi hp).2.1
        unfold claims at hle
        omega
  | wait m hidle hm =>
    refine ⟨hreached, ?_, h.cancelled, h.bound⟩
    intro j v hj hp
    have hstill := (idle_of_isIdle hidle).users v (mem_of_getElem? (s := s) hj)
    unfold User.canStep at hstill
    rw [hp] at hstill
    exact absurd hstill (by simp)
  | deadline hc =>
    refine ⟨hreached, ?_, fun _ => rfl, h.bound⟩
    intro j v hj hp
    have hlate : t.deadline ≤ s.shared.now := of_decide_eq_true (Bool.and_eq_true_iff.mp hc).2
    exact absurd (h.claiming (s := s) hj hp).2.2 (Nat.not_lt.mpr hlate)
  | take | tick | finish => exact ⟨hreached, h.claiming, h.cancelled, h.bound⟩

/-- A run with turns asks at most once more than its cap allows. -/
theorem claims_le_of_run? (h₀ : s₀.Fresh) (h : s₀.run? t = some s) {cap : UInt64}
    (hcap : t.cap = some cap) : s.claims ≤ cap.toNat + 1 := by
  have hstart : Orderly t s₀ 0 s₀ := by
    obtain ⟨ht, ho⟩ := taken_overran_of_fresh h₀
    refine ⟨.refl _, ?_, ?_, ?_⟩
    · intro i u hi hp
      exact absurd (hp.symm.trans (h₀.idle u (mem_of_getElem? hi)).1) (by simp)
    · intro hpos
      exact absurd hpos (by rw [ho]; exact Nat.lt_irrefl 0)
    · intro _ _
      rw [claims, ht, ho]
      exact Nat.zero_le _
  obtain ⟨turn', hs⟩ := runFor_induction (P := Orderly t s₀)
    (fun hP hnext ha => orderly_of_next? hP h₀ hnext ha) h hstart
  exact hs.bound hcap

end System
end ShardLoad
