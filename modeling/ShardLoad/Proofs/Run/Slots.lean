import ShardLoad.Proofs.Run.Clock

/-!
# The iterations of a run

Before each call a user asks for one of the run's iterations.  The number of those who
asked goes up by one each time, also when none is left: it does not show how many calls
there are.  What it shows is read off the users.  Each of them has taken some iterations,
namely those of its calls and one that it may still have to use, and some of them asked
once in vain, which ended their run.

Asking in vain is what cancels a run before its time.

* `User.issued`, `User.taken`, `User.overran`: what a user called, what it got, and whether
  it asked in vain.
* `System.claims`: how often users asked, and `slots_eq_claims`: the counter shows it.
* `taken_eq_min`: the iterations that were taken are those that were asked for, up to the
  cap.
* `claims_le`: nobody asks in vain twice.
* `excused_of_reaches`: what cancels a run.
-/

namespace ShardLoad

/-- The calls that a user has made: those whose reply has come and the one it waits for. -/
def User.issued (u : User) : Nat :=
  match u.phase with
  | .calling _ _ _ => u.iterations + 1
  | _ => u.iterations

/-- The iterations that a user has taken: those of its calls, and one that it is about to
use. -/
def User.taken (u : User) : Nat :=
  match u.phase with
  | .admitted => u.iterations + 1
  | .calling _ _ _ => u.iterations + 1
  | _ => u.iterations

/-- One for a user that asked for an iteration when none was left. -/
def User.overran (u : User) : Nat :=
  match u.phase with
  | .leaving .iterationCap => 1
  | .gone .iterationCap => 1
  | _ => 0

/-- Nobody asks in vain twice. -/
theorem User.overran_le_one (u : User) : u.overran ≤ 1 := by
  unfold overran
  split <;> decide

/-- What a step of a user does to the iterations of a run. -/
inductive User.Claim (t : Terms) (u : User) (s : Shared) (u' : User) (s' : Shared) : Prop
  /-- It does nothing to them. -/
  | neither : s'.slots = s.slots → s'.cancelled = s.cancelled → u'.taken = u.taken →
      u'.overran = u.overran → Claim t u s u' s'
  /-- It takes one without limit. -/
  | unlimited : t.cap = none → s'.cancelled = s.cancelled → u'.taken = u.taken + 1 →
      u'.overran = u.overran → Claim t u s u' s'
  /-- It takes one of those that are left. -/
  | granted (max : UInt64) : t.cap = some max → s.slots < max → s'.slots = s.slots + 1 →
      s'.cancelled = s.cancelled → u'.taken = u.taken + 1 → u'.overran = u.overran →
      u.phase = .claiming → Claim t u s u' s'
  /-- It finds none left. -/
  | denied (max : UInt64) : t.cap = some max → max ≤ s.slots → s'.slots = s.slots + 1 →
      s'.cancelled = true → u'.taken = u.taken → u'.overran = u.overran + 1 →
      u.phase = .claiming → Claim t u s u' s'

/-- Every step of a user is of one of these kinds. -/
theorem User.claim_of_move {t : Terms} {u u' : User} {s s' : Shared} (h : u.Move t s u' s') :
    u.Claim t s u' s' := by
  cases h with
  | proceed hp hcap =>
    exact .unlimited hcap rfl (by simp only [taken, hp]) (by simp only [overran, hp])
  | claim max hp hcap hlt =>
    exact .granted max hcap hlt rfl rfl (by simp only [taken, hp]) (by simp only [overran, hp]) hp
  | overrun max hp hcap hle =>
    exact .denied max hcap hle rfl rfl (by simp only [taken, hp, User.leave])
      (by simp only [overran, hp, User.leave]) hp
  | leave exit log hp =>
    refine .neither rfl rfl (by simp only [taken, hp]) ?_
    cases exit <;> simp only [overran, hp]
  | enter hp | cancel hp | expire hp | begin hp | send _ _ _ hp | receive _ _ _ _ _ _ hp
    | hangUp _ hp | deliver _ hp | resume _ hp | giveUp _ hp =>
    exact .neither rfl rfl (by simp only [taken, hp, User.leave])
      (by simp only [overran, hp, User.leave])

namespace System

variable {t : Terms} {s s₀ s' : System} {cap : UInt64}

/-- How often users have asked for an iteration. -/
def claims (s : System) : Nat := s.sum User.taken + s.sum User.overran

/-- Nobody has taken or asked for anything at the start. -/
theorem taken_overran_of_fresh (h₀ : s₀.Fresh) :
    s₀.sum User.taken = 0 ∧ s₀.sum User.overran = 0 := by
  constructor
  · apply sum_eq_zero
    intro u hu
    obtain ⟨hp, hn⟩ := h₀.idle u hu
    simp only [User.taken, hp, hn]
  · apply sum_eq_zero
    intro u hu
    simp only [User.overran, (h₀.idle u hu).1]

/-! ## The counter -/

/-- The counter shows how often users have asked.  As long as it has not wrapped, all that
they asked for was taken, up to the cap. -/
def Counted (cap : UInt64) (s : System) : Prop :=
  s.shared.slots = UInt64.ofNat s.claims ∧
    (s.claims ≤ 2 ^ 64 → s.sum User.taken = min s.claims cap.toNat)

/-- One who asks makes the counter go on. -/
theorem slots_succ {n : Nat} {slots : UInt64} (h : slots = UInt64.ofNat n) :
    slots + 1 = UInt64.ofNat (n + 1) := by
  rw [h, UInt64.ofNat_add]
  rfl

/-- A counter that has not wrapped is what it shows. -/
theorem toNat_slots {n : Nat} {slots : UInt64} (h : slots = UInt64.ofNat n) (hn : n < 2 ^ 64) :
    slots.toNat = n := by
  rw [h, UInt64.toNat_ofNat_of_lt' hn]

/-- The counter is right at every moment. -/
theorem counted_of_mayReach (h : MayReach t s₀ s) (h₀ : s₀.Fresh) (hcap : t.cap = some cap) :
    s.Counted cap := by
  refine MayReach.invariant h ?_ ?_ fun _ hs => hs
  · obtain ⟨ht, ho⟩ := taken_overran_of_fresh h₀
    constructor
    · rw [h₀.slots, claims, ht, ho]
      rfl
    · intro _
      rw [claims, ht, ho]
      exact (Nat.zero_min _).symm
  · intro s s' a _ hs hm
    obtain ⟨hslots, htaken⟩ := hs
    cases hm with
    | user i u u' sh hi hmove =>
      have ht := sum_setUser hi User.taken u' sh
      have ho := sum_setUser hi User.overran u' sh
      show sh.slots = UInt64.ofNat (s.setUser i u' sh).claims ∧ _
      unfold claims at hslots htaken ⊢
      cases User.claim_of_move hmove with
      | neither hsl _ htk hov =>
        have htk' : (s.setUser i u' sh).sum User.taken = s.sum User.taken := by omega
        have hov' : (s.setUser i u' sh).sum User.overran = s.sum User.overran := by omega
        rw [hsl, htk', hov']
        exact ⟨hslots, htaken⟩
      | unlimited hnone _ _ _ => exact absurd (hnone.symm.trans hcap) (by simp)
      | granted max hmax hlt hsl _ htk hov =>
        obtain rfl : max = cap := Option.some.inj (hmax.symm.trans hcap)
        have hsum : (s.setUser i u' sh).sum User.taken + (s.setUser i u' sh).sum User.overran =
          s.sum User.taken + s.sum User.overran + 1 := by omega
        constructor
        · rw [hsl, hsum]
          exact slots_succ hslots
        · intro hle
          rw [hsum] at hle ⊢
          have hnat := toNat_slots hslots (by omega)
          have hlt := UInt64.lt_iff_toNat_lt.mp hlt
          have hmin := htaken (by omega)
          omega
      | denied max hmax hle hsl _ htk hov =>
        obtain rfl : max = cap := Option.some.inj (hmax.symm.trans hcap)
        have hsum : (s.setUser i u' sh).sum User.taken + (s.setUser i u' sh).sum User.overran =
          s.sum User.taken + s.sum User.overran + 1 := by omega
        constructor
        · rw [hsl, hsum]
          exact slots_succ hslots
        · intro hbound
          rw [hsum] at hbound ⊢
          have hnat := toNat_slots hslots (by omega)
          have hle := UInt64.le_iff_toNat_le.mp hle
          have hmin := htaken (by omega)
          omega
    | _ => exact ⟨hslots, htaken⟩

/-- The counter shows how often users have asked. -/
theorem slots_eq_claims (h : MayReach t s₀ s) (h₀ : s₀.Fresh) (hcap : t.cap = some cap)
    (hclaims : s.claims < 2 ^ 64) : s.shared.slots.toNat = s.claims :=
  toNat_slots (counted_of_mayReach h h₀ hcap).1 hclaims

/-- All that users asked for was taken, up to the cap. -/
theorem taken_eq_min (h : MayReach t s₀ s) (h₀ : s₀.Fresh) (hcap : t.cap = some cap)
    (hclaims : s.claims ≤ 2 ^ 64) : s.sum User.taken = min s.claims cap.toNat :=
  (counted_of_mayReach h h₀ hcap).2 hclaims

/-- Once somebody asked in vain, all iterations were taken. -/
theorem taken_eq_cap (h : MayReach t s₀ s) (h₀ : s₀.Fresh) (hcap : t.cap = some cap)
    (hclaims : s.claims ≤ 2 ^ 64) (hover : 0 < s.sum User.overran) :
    s.sum User.taken = cap.toNat := by
  have hmin := taken_eq_min h h₀ hcap hclaims
  unfold claims at hmin
  omega

/-- Users that ask in vain do so once each. -/
theorem sum_overran_le (s : System) : s.sum User.overran ≤ s.users.size := by
  have hle := sum_le_sum (s := s) fun u _ => User.overran_le_one u
  rw [sum_const, Nat.mul_one] at hle
  exact hle

/-- A user that stopped because of the cap asked in vain. -/
theorem sum_overran_pos {u : User} (hu : u ∈ s.users) (hp : u.phase = .gone .iterationCap) :
    0 < s.sum User.overran := by
  have hle := le_sum hu User.overran
  have hone : u.overran = 1 := by simp only [User.overran, hp]
  omega

/-- The number of users never changes. -/
theorem size_of_mayReach (h : MayReach t s₀ s) : s.users.size = s₀.users.size := by
  refine MayReach.invariant (P := fun s => s.users.size = s₀.users.size) h rfl ?_ fun _ hs => hs
  intro s s' a _ hs hm
  cases hm with
  | user i u u' sh hi hmove => rw [size_setUser]; exact hs
  | _ => exact hs

/-- An action is at most one more user that asks. -/
theorem claims_of_move {a : Action} (h : s.Move t a s') :
    s'.claims = s.claims ∨ s'.claims = s.claims + 1 := by
  cases h with
  | user i u u' sh hi hmove =>
    have ht := sum_setUser hi User.taken u' sh
    have ho := sum_setUser hi User.overran u' sh
    unfold claims
    cases User.claim_of_move hmove with
    | neither _ _ htk hov => exact Or.inl (by omega)
    | unlimited _ _ htk hov => exact Or.inr (by omega)
    | granted _ _ _ _ _ htk hov => exact Or.inr (by omega)
    | denied _ _ _ _ _ htk hov => exact Or.inr (by omega)
  | _ => exact Or.inl rfl

/-- Users ask at most once in vain each, so the counter of a run does not wrap unless its cap
is among the greatest numbers that a cap can be. -/
theorem claims_le (h : MayReach t s₀ s) (h₀ : s₀.Fresh) (hcap : t.cap = some cap)
    (hroom : cap.toNat + s₀.users.size < 2 ^ 64) : s.claims ≤ cap.toNat + s₀.users.size := by
  -- that the counter can be read after an action follows from the bound before it, so the
  -- induction is on the course of events and not through an invariant of its states
  induction h with
  | refl =>
    obtain ⟨ht, ho⟩ := taken_overran_of_fresh h₀
    rw [claims, ht, ho]
    exact Nat.zero_le _
  | @step s s' a hr ha ih =>
    have hr' := MayReach.step a hr ha
    have hstep := claims_of_move (move_of_step? ha)
    have hmin := taken_eq_min hr' h₀ hcap (by omega)
    have hover := sum_overran_le s'
    rw [size_of_mayReach hr'] at hover
    unfold claims at hmin ⊢
    omega
  | interrupt hr ih => exact ih

/-! ## Without a cap -/

/-- Without a cap nobody asks in vain. -/
theorem sum_overran_of_cap_eq_none (h : MayReach t s₀ s) (h₀ : s₀.Fresh) (hcap : t.cap = none) :
    s.sum User.overran = 0 := by
  refine MayReach.invariant (P := fun s => s.sum User.overran = 0) h
    (taken_overran_of_fresh h₀).2 ?_ fun _ hs => hs
  intro s s' a _ hs hm
  cases hm with
  | user i u u' sh hi hmove =>
    have ho := sum_setUser hi User.overran u' sh
    cases User.claim_of_move hmove with
    | neither _ _ _ hov => omega
    | unlimited _ _ _ hov => omega
    | granted max hmax => exact absurd (hcap.symm.trans hmax) (by simp)
    | denied max hmax => exact absurd (hcap.symm.trans hmax) (by simp)
  | _ => exact hs

/-! ## What cancels a run -/

/-- A run that nobody interrupts is cancelled because its time is over or because somebody
asked in vain. -/
def Excused (t : Terms) (s : System) : Prop :=
  s.shared.cancelled = true → t.deadline ≤ s.shared.now ∨ 0 < s.sum User.overran

/-- Nothing else cancels a run. -/
theorem excused_of_reaches (h : Reaches t s₀ s) (h₀ : s₀.Fresh) : s.Excused t := by
  refine Reaches.invariant h (fun hc => absurd (h₀.running.symm.trans hc) (by simp)) ?_
  intro s s' a _ hs hm
  cases hm with
  | user i u u' sh hi hmove =>
    intro hc
    have hc : sh.cancelled = true := hc
    have ho := sum_setUser hi User.overran u' sh
    show t.deadline ≤ sh.now ∨ _
    rw [now_of_userMove hmove]
    cases User.claim_of_move hmove with
    | neither _ hcan _ hov => exact (hs (hcan ▸ hc)).imp_right fun h => by omega
    | unlimited _ hcan _ hov => exact (hs (hcan ▸ hc)).imp_right fun h => by omega
    | granted _ _ _ _ hcan _ hov => exact (hs (hcan ▸ hc)).imp_right fun h => by omega
    | denied _ _ _ _ _ _ hov => exact Or.inr (by omega)
  | take x rest hc hq => exact hs
  | tick hc => exact hs
  | finish hc => exact hs
  | deadline hc => exact fun _ => Or.inl (of_decide_eq_true (Bool.and_eq_true_iff.mp hc).2)
  | wait m hi hm =>
    exact fun hc => (hs hc).imp_left fun hd =>
      Nat.le_trans hd (Nat.le_of_lt (now_lt_of_timer? hi hm))

end System
end ShardLoad
