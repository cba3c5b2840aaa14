import ShardLoad.Proofs.Run.Cap
import ShardLoad.Proofs.Run.Spans
import ShardLoad.Proofs.Run.Turns

/-!
# How many calls a run makes

Users keep in step, so a run that nobody interrupts makes as many calls as there are rounds
for each user, and the `k`-th call of each starts `k` rounds after the start.

With a cap the run may be cut short.  At the moment at which somebody asks in vain every
user is in the same round or stands between that round and the next one: no user has taken
more than one iteration more than another.  From then on nobody takes any, so this is how it
is left, and all that the cap allows was taken.

* `starts_of_course`: when the calls of a user start.
* `System.Level`, `level_of_reaches`: what a run that is cut short leaves.
* `IsExact`, `isExact_of_isOver`: how many calls there are.
* `Engine.iterations_exact`: the same in the words of a configuration.
-/

namespace ShardLoad

/-- What the users of a run of so many rounds have called when it is over. -/
def IsExact (users rounds : Nat) (cap : Option UInt64) (iterations : List Nat) : Prop :=
  match cap with
  | none => iterations = List.replicate users rounds
  | some cap => iterations.length = users ∧ iterations.sum = min cap.toNat (users * rounds) ∧
      ∀ m ∈ iterations, ∀ n ∈ iterations, m ≤ n + 1

/-- A user that is at work has taken the iterations whose rounds have started, but perhaps the
one that starts now. -/
theorem User.taken_of_inStep {t : Terms} {u : User} {now : Nat} {short : Prop}
    (hu : u.InStep t now short) :
    (now ≤ u.taken * t.round ∧ u.taken * t.round ≤ now + t.round) ∨ short ∨ t.deadline ≤ now := by
  unfold InStep at hu
  unfold taken
  cases hp : u.phase with
  | idle =>
    rw [hp] at hu
    obtain ⟨hn, hnow⟩ := hu
    simp only [hn, hnow, Nat.zero_mul]
    omega
  | ready =>
    rw [hp] at hu
    exact Or.inl ⟨hu.2.1, hu.2.2.1⟩
  | claiming =>
    rw [hp] at hu
    exact Or.inl ⟨Nat.le_of_eq hu.1, by simp only; omega⟩
  | admitted =>
    rw [hp] at hu
    simp only [Nat.succ_mul]
    omega
  | calling since due a =>
    rw [hp] at hu
    obtain ⟨hsince, -, hdue, hfrom, hto⟩ := hu
    have hround : t.round = t.pacing + t.callTime := rfl
    simp only [Nat.succ_mul]
    omega
  | delivering x =>
    rw [hp] at hu
    obtain ⟨k, hk, -, hnow⟩ := hu
    have hround : t.round = t.pacing + t.callTime := rfl
    simp only [hk, Nat.succ_mul]
    omega
  | pausing wake =>
    rw [hp] at hu
    obtain ⟨k, hk, -, hwake, hfrom, hto, -⟩ := hu
    have hround : t.round = t.pacing + t.callTime := rfl
    rw [Nat.succ_mul] at hwake
    simp only [hk, Nat.succ_mul]
    omega
  | leaving exit =>
    rw [hp] at hu
    exact Or.inr (hu.2.imp_right And.right)
  | gone exit =>
    rw [hp] at hu
    exact Or.inr (hu.2.imp_right And.right)

namespace System

variable {t : Terms} {s s₀ : System} {b : Bool} {spans : List Span} {cap : UInt64}

/-! ## When calls start -/

/-- The calls of a user that have ended started one round after the other. -/
theorem since_spansOf (hsteady : t.Steady) (hround : 0 < t.round)
    (h : Course t s₀ b spans s) (hb : b = false) (h₀ : s₀.Fresh)
    (hroom : 0 < s₀.shared.channel.capacity) {i : Nat} {u : User}
    (hi : s.users[i]? = some u) :
    (spansOf spans i).map Span.since = (List.range u.iterations).map (· * t.round) := by
  refine h.forall_users (P := fun b _ l u => b = false →
    l.map Span.since = (List.range u.iterations).map (· * t.round)) h₀ hroom ?_ ?_
    (fun _ _ hl => hl) (fun _ hb => absurd hb (by simp)) hi hb
  · intro u _ hn _
    rw [hn]
    rfl
  · intro b spans s i u u' sh hc hi hmove hl hb
    have hl := hl hb
    cases hmove with
    | receive since due a result ledger log hp =>
      have hu := inStep_of_reaches hsteady hround (hc.reaches hb) h₀ hroom u (mem_of_getElem? hi)
      unfold User.InStep at hu
      rw [hp] at hu
      simp only [User.underWay?, hp, Option.toList_some, List.map_append, hl, List.range_succ,
        List.map_singleton]
      rw [hu.1]
    | enter hp | cancel hp | expire hp | begin hp | proceed hp | claim _ hp | overrun _ hp
      | send _ _ _ hp | hangUp _ hp | deliver _ hp | resume _ hp | giveUp _ hp | leave _ _ hp =>
      simp only [User.underWay?, hp, Option.toList_none, List.append_nil]
      exact hl

/-- The `k`-th call of a user starts `k` rounds after the start of the run. -/
theorem starts_of_course (hsteady : t.Steady) (hround : 0 < t.round)
    (h : Course t s₀ false spans s) (h₀ : s₀.Fresh)
    (hroom : 0 < s₀.shared.channel.capacity) {i : Nat} {u : User}
    (hi : s.users[i]? = some u) :
    (s.callsOf spans i).map Span.since = (List.range u.issued).map (· * t.round) := by
  have hended := since_spansOf hsteady hround h rfl h₀ hroom hi
  have hu := inStep_of_reaches hsteady hround (h.reaches rfl) h₀ hroom u (mem_of_getElem? hi)
  unfold User.InStep at hu
  unfold callsOf
  rw [List.map_append, hended, hi]
  show _ ++ (u.underWay? i s.shared.now).toList.map Span.since = _
  unfold User.underWay? User.issued
  cases hp : u.phase with
  | calling since due a =>
    rw [hp] at hu
    simp only [Option.toList_some, List.map_singleton, List.range_succ, List.map_append]
    rw [hu.1]
  | idle | ready | claiming | admitted | delivering | pausing | leaving | gone =>
    exact List.append_nil _

/-! ## Runs that are cut short -/

/-- No user has taken more than one iteration more than another, once somebody asked in vain. -/
def Level (s : System) : Prop :=
  0 < s.sum User.overran → ∃ r, ∀ u ∈ s.users, r ≤ u.taken ∧ u.taken ≤ r + 1

/-- While nobody has asked in vain and the time of the run is not over, users are at most one
iteration apart. -/
theorem taken_of_inStep (hround : 0 < t.round) (h : s.InStep t) (hshort : s.sum User.overran = 0)
    (hd : s.shared.now < t.deadline) :
    ∀ u ∈ s.users, s.shared.now / t.round ≤ u.taken ∧ u.taken ≤ s.shared.now / t.round + 1 := by
  intro u hu
  rcases User.taken_of_inStep (h u hu) with ⟨hle, hge⟩ | hover | hlate
  · refine ⟨Nat.div_le_of_le_mul (by rw [Nat.mul_comm]; exact hle), ?_⟩
    rw [← Nat.add_div_right _ hround, Nat.le_div_iff_mul_le hround]
    exact hge
  · omega
  · exact absurd hd (Nat.not_lt.mpr hlate)

/-- Nobody takes an iteration once somebody has asked in vain. -/
theorem not_lt_of_overran (hr : MayReach t s₀ s) (h₀ : s₀.Fresh) (hcap : t.cap = some cap)
    (hclaims : s.claims < 2 ^ 64) (hover : 0 < s.sum User.overran) : ¬s.shared.slots < cap := by
  intro hlt
  have hlt := UInt64.lt_iff_toNat_lt.mp hlt
  have hslots := slots_eq_claims hr h₀ hcap hclaims
  have htaken := taken_eq_cap hr h₀ hcap (Nat.le_of_lt hclaims) hover
  unfold claims at hslots
  omega

/-- A run that is cut short leaves its users level. -/
theorem level_of_reaches (hsteady : t.Steady) (hround : 0 < t.round) (h : Reaches t s₀ s)
    (h₀ : s₀.Fresh) (hroom : 0 < s₀.shared.channel.capacity) (hclaims : s.claims ≤ 2 ^ 64) :
    s.Level := by
  induction h with
  | refl =>
    intro hover
    exact absurd hover (by rw [(taken_overran_of_fresh h₀).2]; exact Nat.lt_irrefl 0)
  | @step s s' a hr ha ih =>
    have hmove := move_of_step? ha
    have hstep := claims_of_move hmove
    have ih := ih (by omega)
    cases hmove with
    | user i u u' sh hi hmove =>
      intro hover
      have ho := sum_setUser hi User.overran u' sh
      have ht := sum_setUser hi User.taken u' sh
      have hkeep : u'.taken = u.taken →
          (∃ r, ∀ u ∈ s.users, r ≤ u.taken ∧ u.taken ≤ r + 1) →
          ∃ r, ∀ u ∈ (s.setUser i u' sh).users, r ≤ u.taken ∧ u.taken ≤ r + 1 := by
        rintro htk ⟨r, hr⟩
        exact ⟨r, forall_setUser i sh hr (by rw [htk]; exact hr u (mem_of_getElem? hi))⟩
      cases User.claim_of_move hmove with
      | neither _ _ htk hov => exact hkeep htk (ih (by omega))
      | unlimited hnone _ _ hov =>
        have hzero := sum_overran_of_cap_eq_none hr.mayReach h₀ hnone
        omega
      | granted max hcap hlt _ _ htk hov =>
        have hbound : s.claims < 2 ^ 64 := by
          unfold claims at hclaims ⊢
          omega
        exact absurd hlt (not_lt_of_overran hr.mayReach h₀ hcap hbound (by omega))
      | denied max _ _ _ _ htk _ hp =>
        refine hkeep htk ?_
        -- the first one that asks in vain finds everybody in step; it is later ones that
        -- need the induction
        rcases Nat.eq_zero_or_pos (s.sum User.overran) with hzero | hpos
        · have hin := inStep_of_reaches hsteady hround hr h₀ hroom
          have hu := hin u (mem_of_getElem? hi)
          unfold User.InStep at hu
          rw [hp] at hu
          exact ⟨_, taken_of_inStep hround hin hzero hu.2⟩
        · exact ih hpos
    | take | tick | finish | deadline | wait => exact ih

/-! ## How many calls there are -/

/-- A user that has stopped has made no more calls than there are rounds, and as many if the
run was not cut short. -/
theorem iterations_of_inStep (h : s.InStep t) (hgone : s.allGone = true) {u : User}
    (hu : u ∈ s.users) : u.iterations ≤ t.rounds ∧
      (0 < s.sum User.overran ∨ u.iterations = t.rounds) := by
  have hin := h u hu
  obtain ⟨exit, hp⟩ := exists_of_allGone hgone hu
  unfold User.InStep at hin
  rw [hp] at hin
  exact hin.imp_right fun hcause => hcause.imp_right And.left

/-- A run that is over and was not cut short has made all calls of all rounds. -/
theorem iterations_eq_replicate (h : s.InStep t) (hgone : s.allGone = true)
    (hshort : s.sum User.overran = 0) :
    s.users.toList.map User.iterations = List.replicate s.users.size t.rounds := by
  apply List.eq_replicate_iff.mpr
  constructor
  · rw [List.length_map, Array.length_toList]
  · intro n hn
    obtain ⟨u, hu, rfl⟩ := List.mem_map.mp hn
    exact (iterations_of_inStep h hgone (Array.mem_toList_iff.mp hu)).2.resolve_left
      (by rw [hshort]; exact Nat.lt_irrefl 0)

/-- A run that is over and was cut short has made the calls that its cap allows, and these are
no more than there are rounds for. -/
theorem sum_iterations_eq_min (h : s.InStep t) (hgone : s.allGone = true)
    (hsum : s.sum User.iterations = cap.toNat) :
    s.sum User.iterations = min cap.toNat (s.users.size * t.rounds) := by
  have hle : s.sum User.iterations ≤ s.users.size * t.rounds := by
    rw [← sum_const]
    exact sum_le_sum fun u hu => (iterations_of_inStep h hgone hu).1
  omega

/-- **A run that is over has made exactly its calls**, in whatever order things happened. -/
theorem isExact_of_isOver (hsteady : t.Steady) (hround : 0 < t.round)
    (hr : Reaches t s₀ s) (h₀ : s₀.Fresh) (hroom : 0 < s₀.shared.channel.capacity)
    (hover : s.isOver = true)
    (hclaims : t.cap ≠ none → s.claims ≤ 2 ^ 64) :
    IsExact s.users.size t.rounds t.cap (s.users.toList.map User.iterations) := by
  have hin := inStep_of_reaches hsteady hround hr h₀ hroom
  have hgone := (isOver_iff.mp hover).2.2
  cases hcap : t.cap with
  | none =>
    exact iterations_eq_replicate hin hgone (sum_overran_of_cap_eq_none hr.mayReach h₀ hcap)
  | some cap =>
    have hclaims := hclaims (by rw [hcap]; simp)
    refine ⟨by rw [List.length_map, Array.length_toList], ?_⟩
    show s.sum User.iterations = _ ∧ _
    rcases Nat.eq_zero_or_pos (s.sum User.overran) with hzero | hpos
    · have hall := iterations_eq_replicate hin hgone hzero
      have hsum : s.sum User.iterations = s.users.size * t.rounds := by
        unfold sum
        rw [hall, List.sum_replicate_nat]
      have hmin := taken_eq_min hr.mayReach h₀ hcap hclaims
      rw [sum_taken_of_allGone hgone] at hmin
      refine ⟨by omega, ?_⟩
      rw [hall]
      intro m hm n hn
      rw [List.eq_of_mem_replicate hm, List.eq_of_mem_replicate hn]
      exact Nat.le_succ _
    · have hsum := sum_iterations_eq_cap hr.mayReach h₀ hcap hclaims hgone hpos
      refine ⟨sum_iterations_eq_min hin hgone hsum, ?_⟩
      obtain ⟨r, hlevel⟩ := level_of_reaches hsteady hround hr h₀ hroom hclaims hpos
      have hbetween : ∀ m ∈ s.users.toList.map User.iterations, r ≤ m ∧ m ≤ r + 1 := by
        intro m hm
        obtain ⟨u, hu, rfl⟩ := List.mem_map.mp hm
        have hu := Array.mem_toList_iff.mp hu
        obtain ⟨exit, hp⟩ := exists_of_allGone hgone hu
        have htaken : u.taken = u.iterations := by simp only [User.taken, hp]
        rw [← htaken]
        exact hlevel u hu
      intro m hm n hn
      have hm := hbetween m hm
      have hn := hbetween n hn
      omega

end System

namespace Engine

open ShardLoad.System

variable {c : Config} {o : RunOptions} {around : Surroundings} {script : Script} {t : Terms}
  {s₀ s : System}

/-- There are as many users as configured at every moment. -/
theorem size_of_prepare (h : prepare c o around = .ok (t, s₀)) (hr : System.MayReach t s₀ s) :
    s.users.size = c.settings.virtualUsers.toNat := by
  obtain ⟨-, plan, pool, -, -, rfl⟩ := exists_of_prepare h
  rw [size_of_mayReach hr]
  exact size_start pool

/-- All calls to a scripted service take the same time. -/
theorem steady_of_prepare (hs : around.transport = .scripted script)
    (h : prepare c o around = .ok (t, s₀)) : t.Steady :=
  Terms.steady_of_scripted ((transport_of_prepare h).trans hs)

/-- How long a call to a scripted service takes. -/
theorem callTime_of_prepare (hs : around.transport = .scripted script)
    (h : prepare c o around = .ok (t, s₀)) : t.callTime = min Script.longestWait
      (if c.settings.timeout.toNat * 1000000 ≤ script.latency.nanos then c.settings.timeout.toNat
        else script.latency.ceilMillis) := by
  unfold Terms.callTime
  rw [transport_of_prepare h, hs, (times_of_prepare h).2.2]
  show script.millis _ = _
  unfold Script.millis Script.timesOut
  rw [Duration.ceilMillis_ofMillis]
  simp only [decide_eq_true_eq]
  rfl

/-- With the settings of the built-in configuration, and calls of 20 milliseconds, 116 rounds of
520 milliseconds start in a minute. -/
theorem rounds_of_default (hs : around.transport = .scripted ⟨.answer, .ofMillis 20⟩)
    (h : prepare c o around = .ok (t, s₀)) (hc : c.settings = Config.default.settings) :
    t.round = 520 ∧ t.rounds = 116 := by
  have hround : t.round = 520 := by
    rw [Terms.round, (times_of_prepare h).1, callTime_of_prepare hs h, hc]
    decide
  refine ⟨hround, ?_⟩
  rw [Terms.rounds, hround, (times_of_prepare h).2.1, hc]
  decide

/-- The run of a configuration whose rounds take time returns and has made exactly its calls. -/
theorem isExact_run (h : prepare c o around = .ok (t, s₀)) (hsteady : t.Steady)
    (hround : 0 < t.round) (hclock : fitsClock c around = true) : ∃ f, run c o around = .ok f ∧
      IsExact c.settings.virtualUsers.toNat t.rounds o.cap f.result.iterations := by
  obtain ⟨s, hs, hrun⟩ := exists_run h hround hclock
  obtain ⟨hr, hover⟩ := isOver_of_run? hs
  have hfresh := fresh_of_prepare h
  refine ⟨finish s, hrun, ?_⟩
  rw [← size_of_prepare h hr.mayReach, ← cap_of_prepare h]
  apply isExact_of_isOver hsteady hround hr hfresh (capacity_pos_of_prepare h) hover
  intro hcap
  obtain ⟨cap, hcap⟩ := Option.ne_none_iff_exists'.mp hcap
  have hle := claims_le_of_run? hfresh hs hcap
  have hmax := cap.toNat_lt
  omega

/-- **Exact iteration count of a run against a scripted service.**  A call takes as long as the
service does, in whole milliseconds, but no longer than it may, nor than anything waits.  A
round is a call and a pause; if it takes time, the run returns.  Without a cap every user has
then made one call for each round that starts before the end of the run.  With a cap there are
as many calls as it allows, if there are rounds for so many, and no user has made more than one
call more than another.  The same holds of all other orders of events, as long as the counter
of iterations does not wrap; and in all of them, at every moment, the `k`-th call of each user
is the one that started `k` rounds after the start. -/
theorem iterations_exact (hs : around.transport = .scripted script)
    (h : prepare c o around = .ok (t, s₀)) {call rounds : Nat}
    (hcall : call = min Script.longestWait
      (if c.settings.timeout.toNat * 1000000 ≤ script.latency.nanos then c.settings.timeout.toNat
        else script.latency.ceilMillis))
    (hround : 0 < c.settings.pacing.toNat + call)
    (hrounds : rounds = (1000 * c.settings.durationSecs.toNat +
      (c.settings.pacing.toNat + call) - 1) / (c.settings.pacing.toNat + call)) :
    (fitsClock c around = true → ∃ f, run c o around = .ok f ∧
      IsExact c.settings.virtualUsers.toNat rounds o.cap f.result.iterations) ∧
    ∀ spans s, Course t s₀ false spans s →
      (∀ i u, s.users[i]? = some u → (s.callsOf spans i).map Span.since =
        (List.range u.issued).map (· * (c.settings.pacing.toNat + call))) ∧
      (s.isOver = true → (o.cap ≠ none → s.claims < 2 ^ 64) →
        IsExact c.settings.virtualUsers.toNat rounds o.cap (finish s).result.iterations) := by
  have hfresh := fresh_of_prepare h
  have hroom := capacity_pos_of_prepare h
  have hcall : t.callTime = call := (callTime_of_prepare hs h).trans hcall.symm
  have hsteady := steady_of_prepare hs h
  obtain ⟨hpacing, hdeadline, -⟩ := times_of_prepare h
  have hlength : t.round = c.settings.pacing.toNat + call := by rw [Terms.round, hpacing, hcall]
  have hnumber : t.rounds = rounds := by rw [hrounds, Terms.rounds, hlength, hdeadline]
  rw [← hlength] at hround
  constructor
  · intro hclock
    rw [← hnumber]
    exact isExact_run h hsteady hround hclock
  · intro spans s hc
    constructor
    · intro i u hu
      rw [← hlength]
      exact starts_of_course hsteady hround hc hfresh hroom hu
    · intro hover hclaims
      have hr := hc.reaches rfl
      rw [← hnumber, ← size_of_prepare h hr.mayReach, ← cap_of_prepare h]
      apply isExact_of_isOver hsteady hround hr hfresh hroom hover
      intro hcap
      exact Nat.le_of_lt (hclaims (by rw [← cap_of_prepare h]; exact hcap))

/-- In its minute each user of the built-in configuration makes 116 calls of 20 milliseconds,
with pauses of half a second. -/
theorem iterations_exact_default :
    ∃ f, run Config.default ⟨none, some 1, false⟩
        ⟨.scripted ⟨.answer, .ofMillis 20⟩, 3, fun _ => .seeded 0, 0⟩ = .ok f ∧
      f.result.iterations = List.replicate 8 116 := by
  obtain ⟨t, s₀, h⟩ := exists_prepare (c := Config.default) (by decide +kernel)
    ⟨none, some 1, false⟩ ⟨.scripted ⟨.answer, .ofMillis 20⟩, 3, fun _ => .seeded 0, 0⟩
  exact (@iterations_exact _ _ _ _ _ _ rfl h 20 116 (by decide) (by decide) (by decide)).1
    (by decide)

/-- A call of sixty years, in a run of as many, is over after thirty: where a latency below the
timeout, in whole milliseconds, would leave time for one call, there are two. -/
theorem iterations_of_sixty_years :
    ∃ f, run ⟨⟨1, 1892160000, 10, 2838240000000, none⟩, .default, .default, [⟨.transaction, 1⟩]⟩
        ⟨none, some 3, false⟩
        ⟨.scripted ⟨.answer, .ofMillis 1892160000000⟩, 0, fun _ => .seeded 0, 0⟩ = .ok f ∧
      f.result.iterations = [2] ∧
      ∀ call, call = (if 2838240000000 * 1000000 ≤ (Duration.ofMillis 1892160000000).nanos
          then 2838240000000 else (Duration.ofMillis 1892160000000).ceilMillis) →
        (1000 * 1892160000 + (10 + call) - 1) / (10 + call) = 1 := by
  obtain ⟨t, s₀, h⟩ := exists_prepare
    (c := ⟨⟨1, 1892160000, 10, 2838240000000, none⟩, .default, .default, [⟨.transaction, 1⟩]⟩)
    (by decide +kernel) ⟨none, some 3, false⟩
    ⟨.scripted ⟨.answer, .ofMillis 1892160000000⟩, 0, fun _ => .seeded 0, 0⟩
  have hcall : t.callTime = 946080000000 := (callTime_of_prepare rfl h).trans (by decide)
  obtain ⟨hpacing, hdeadline, -⟩ := times_of_prepare h
  have hlength : t.round = 946080000010 := by
    rw [Terms.round, hpacing, hcall]
    decide
  have hrounds : t.rounds = 2 := by
    rw [Terms.rounds, hlength, hdeadline]
    decide
  obtain ⟨f, hrun, hexact⟩ := isExact_run h (steady_of_prepare rfl h) (by rw [hlength]; decide)
    (by decide)
  rw [hrounds] at hexact
  refine ⟨f, hrun, hexact, fun call hcall => ?_⟩
  rw [hcall]
  decide

end Engine
end ShardLoad
