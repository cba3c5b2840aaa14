import ShardLoad.Proofs.Run.Rounds

/-!
# Runs end

A run whose rounds take time ends, whatever the order in which things happen.  Each action
takes something off what is still to be done: a user has so many rounds ahead of it and so
many steps in each, a sample that it hands over is taken from the queue once, and the clock
goes forward only as long as somebody waits for a moment of the run or for a call that was
made in it.  And a run that is not over is never stuck: the action that is next can happen.

All of this holds over any network, since it needs only what calls take at least and may take at
most.  Rounds that may take no time are another matter: nothing then lets the clock move.

* `User.OnTime`, `onTime_of_mayReach`: no user is ahead of its rounds.
* `System.effort`, `effort_lt_of_move`: what is still to be done.
* `System.Next`, `next_of_next?`, `isSome_step?_of_next?`: what is next, and that it can
  happen.
* `effort_lt_maxActions`, `exists_run?`: a run ends within its number of actions.
* `Engine.exists_run`: the run of a configuration returns, and `exists_run_default`: the
  built-in one does.
-/

namespace ShardLoad

/-! ## Rounds take their time -/

/-- What a user may be doing at a moment, by the calls that it has behind it.  Each of them took a
round at least; the next one is made in time, and takes no longer than it may. -/
def User.OnTime (t : Terms) (now : Nat) (u : User) : Prop :=
  match u.phase with
  | .idle => u.iterations = 0
  | .ready => u.iterations * t.round ≤ now ∨ t.deadline ≤ now
  | .claiming => u.iterations * t.round ≤ now ∧ now < t.deadline
  | .admitted => u.iterations * t.round ≤ now ∧ now < t.deadline
  | .calling since due _ => u.iterations * t.round ≤ since ∧ since < t.deadline ∧
      since + t.callTime ≤ due ∧ due ≤ since + t.timeout.ceilMillis
  | .delivering _ => ∃ k, u.iterations = k + 1 ∧ k * t.round + t.callTime ≤ now
  | .pausing wake => wake ≤ t.deadline ∧ ∃ k, u.iterations = k + 1 ∧
      k * t.round + t.callTime ≤ now ∧ min ((k + 1) * t.round) t.deadline ≤ wake
  | .leaving _ => True
  | .gone _ => True

namespace User

variable {t : Terms} {u u' : User} {sh sh' : Shared} {now : Nat}

/-- Users stay on time when one of them acts. -/
theorem OnTime.move (hu : u.OnTime t sh.now) (h : u.Move t sh u' sh') : u'.OnTime t sh.now := by
  unfold OnTime at hu
  cases h with
  | enter hp =>
    rw [hp] at hu
    left
    show u.iterations * t.round ≤ sh.now
    rw [hu, Nat.zero_mul]
    exact Nat.zero_le _
  | begin hp _ hd =>
    rw [hp] at hu
    exact ⟨hu.resolve_right (Nat.not_le.mpr hd), hd⟩
  | proceed hp | claim _ hp =>
    rw [hp] at hu
    exact hu
  | send a agenda log hp =>
    rw [hp] at hu
    exact ⟨hu.1, hu.2, Nat.add_le_add_left (t.transport.leastMillis_le _ _) _,
      Nat.add_le_add_left (t.transport.millis_le _ _) _⟩
  | receive since due a result ledger log hp hdue =>
    rw [hp] at hu
    obtain ⟨hsince, -, hcall, -⟩ := hu
    refine ⟨u.iterations, rfl, ?_⟩
    show u.iterations * t.round + t.callTime ≤ sh.now
    omega
  | deliver x hp =>
    rw [hp] at hu
    obtain ⟨k, hk, hnow⟩ := hu
    refine ⟨Nat.min_le_right _ _, k, hk, hnow, ?_⟩
    show min ((k + 1) * t.round) t.deadline ≤ min (sh.now + t.pacing) t.deadline
    rw [Terms.succ_mul_round]
    omega
  | resume wake hp hwake =>
    rw [hp] at hu
    obtain ⟨-, k, hk, hnow, hmin⟩ := hu
    show u.iterations * t.round ≤ sh.now ∨ t.deadline ≤ sh.now
    rw [hk]
    rw [Terms.succ_mul_round] at hmin ⊢
    omega
  | cancel | expire | overrun | hangUp | giveUp | leave => trivial

/-- Users stay on time when the clock moves. -/
theorem OnTime.mono {next : Nat} (hu : u.OnTime t now) (hw : System.Waits t now next u)
    (hnext : now ≤ next) : u.OnTime t next := by
  unfold OnTime at hu ⊢
  cases hw with
  | calling since due a hp =>
    rw [hp] at hu ⊢
    exact hu
  | pausing wake hp =>
    rw [hp] at hu ⊢
    obtain ⟨hwake, k, hk, hnow, hmin⟩ := hu
    exact ⟨hwake, k, hk, Nat.le_trans hnow hnext, hmin⟩
  | gone exit hp =>
    rw [hp]
    trivial

end User

/-- Users are on time, in whatever order things happen. -/
theorem System.onTime_of_mayReach {t : Terms} {s s₀ : System} (h : MayReach t s₀ s)
    (h₀ : s₀.Fresh) (hroom : 0 < s₀.shared.channel.capacity) :
    ∀ u ∈ s.users, u.OnTime t s.shared.now := by
  refine MayReach.invariant (P := fun s => ∀ u ∈ s.users, u.OnTime t s.shared.now) h ?_ ?_
    fun _ hs => hs
  · intro u hu
    obtain ⟨hp, hn⟩ := h₀.idle u hu
    unfold User.OnTime
    rw [hp]
    exact hn
  · intro s s' a hr hs hm
    cases hm with
    | user i u u' sh hi hmove =>
      have hnow : sh.now = s.shared.now := now_of_userMove hmove
      show ∀ v ∈ (s.setUser i u' sh).users, v.OnTime t sh.now
      rw [hnow]
      exact forall_setUser i sh hs ((hs u (mem_of_getElem? hi)).move hmove)
    | wait m hi hm =>
      exact fun u hu => (hs u hu).mono (waits_of_wait hr h₀ hroom hi hm hu)
        (Nat.le_of_lt (now_lt_of_timer? hi hm))
    | take | tick | finish | deadline => exact hs

/-! ## What is still to be done -/

/-- The steps that a user may still take before its next call ends. -/
def Phase.steps : Phase → Nat
  | .idle => 9
  | .ready => 8
  | .claiming => 7
  | .admitted => 6
  | .calling _ _ _ => 5
  | .delivering _ => 11
  | .pausing _ => 10
  | .leaving _ => 1
  | .gone _ => 0

/-- The steps that a user may still take in the rounds that are left. -/
def User.effort (t : Terms) (u : User) : Nat := 10 * (t.rounds + 1 - u.iterations) + u.phase.steps

namespace User

variable {t : Terms} {u u' : User} {sh sh' : Shared} {now : Nat}

/-- A user that waits for a call has this round ahead of it. -/
theorem iterations_lt_of_calling {since due : Nat} {a : Assignment} (hround : 0 < t.round)
    (hu : u.OnTime t now) (hp : u.phase = .calling since due a) : u.iterations < t.rounds := by
  unfold OnTime at hu
  rw [hp] at hu
  obtain ⟨hsince, hd, -⟩ := hu
  exact (Terms.lt_rounds hround).mpr (Nat.lt_of_le_of_lt hsince hd)

/-- Each step of a user is one less to take. -/
theorem effort_lt_of_move (hround : 0 < t.round) (hu : u.OnTime t sh.now)
    (h : u.Move t sh u' sh') : u'.effort t < u.effort t := by
  unfold effort
  cases h with
  | receive since due a result ledger log hp _ _ =>
    have hlt := iterations_lt_of_calling hround hu hp
    rw [hp]
    show 10 * (t.rounds + 1 - (u.iterations + 1)) + 11 < 10 * (t.rounds + 1 - u.iterations) + 5
    omega
  | enter hp | cancel hp | expire hp | begin hp | proceed hp | claim _ hp | overrun _ hp
    | send _ _ _ hp | hangUp _ hp | deliver _ hp | resume _ hp | giveUp _ hp | leave _ _ hp =>
    rw [hp]
    simp only [Phase.steps, User.leave]
    omega

/-- A step of a user puts at most one sample into the queue. -/
theorem length_queue_of_move (h : u.Move t sh u' sh') :
    sh'.channel.queue.length ≤ sh.channel.queue.length + 1 := by
  cases h with
  | deliver x => exact Nat.le_of_eq List.length_append
  | _ => exact Nat.le_succ _

/-- A user that waits for something waits for a moment before all calls of the run have ended. -/
theorem now_lt_of_waits {next : Nat} (hw : System.Waits t now next u) (hu : u.OnTime t now)
    (hgone : u.isGone = false) : now < t.deadline + t.timeout.ceilMillis := by
  unfold OnTime at hu
  cases hw with
  | calling since due a hp hnow _ =>
    rw [hp] at hu
    obtain ⟨-, hd, -, hdue⟩ := hu
    omega
  | pausing wake hp _ hnow _ =>
    rw [hp] at hu
    obtain ⟨hwake, -⟩ := hu
    omega
  | gone exit hp =>
    unfold isGone at hgone
    rw [hp] at hgone
    exact absurd hgone (by simp)

end User

namespace System

variable {t : Terms} {s s₀ s' : System}

/-- What is still to be done in a run. -/
def effort (t : Terms) (s : System) : Nat :=
  -- a step of a user may put a sample into the queue and a move of the clock may make a
  -- publication due: both count twice, to pay for that
  2 * s.sum (User.effort t) + s.shared.channel.queue.length +
    2 * (t.deadline + t.timeout.ceilMillis - s.shared.now) + s.canTick.toNat + s.collecting.toNat +
    (!s.shared.cancelled).toNat

/-- The clock moves only before all calls of the run have ended. -/
theorem now_lt_of_wait (hr : MayReach t s₀ s) (h₀ : s₀.Fresh)
    (hroom : 0 < s₀.shared.channel.capacity) {m : Nat} (hi : s.isIdle t = true)
    (hm : s.timer? t = some m) : s.shared.now < t.deadline + t.timeout.ceilMillis := by
  rcases deadline_or_exists_of_timer? hi hm with ⟨hc, -⟩ | ⟨u, hu, hgone⟩
  · exact Nat.lt_add_right _ ((idle_of_isIdle hi).deadline hc)
  · have htime := onTime_of_mayReach hr h₀ hroom u hu
    exact User.now_lt_of_waits (waits_of_wait hr h₀ hroom hi hm hu) htime hgone

/-- Each action is one less to do. -/
theorem effort_lt_of_move (hround : 0 < t.round) (hr : MayReach t s₀ s) (h₀ : s₀.Fresh)
    (hroom : 0 < s₀.shared.channel.capacity) {a : Action} (h : s.Move t a s') :
    s'.effort t < s.effort t := by
  unfold effort
  cases h with
  | user i u u' sh hi hmove =>
    have hlt := User.effort_lt_of_move hround
      (onTime_of_mayReach hr h₀ hroom u (mem_of_getElem? hi)) hmove
    have hsum := sum_setUser hi (User.effort t) u' sh
    have hqueue := User.length_queue_of_move hmove
    have hnow : sh.now = s.shared.now := now_of_userMove hmove
    have htick : (s.setUser i u' sh).canTick = s.canTick := by
      show (s.collecting && decide (s.nextTick ≤ sh.now)) = _
      rw [hnow]
      rfl
    have hcan : (!sh.cancelled).toNat ≤ (!s.shared.cancelled).toNat := by
      cases User.claim_of_move hmove with
      | neither _ hc | unlimited _ hc | granted _ _ _ _ hc => rw [hc]
      | denied _ _ _ _ hc =>
        rw [hc]
        exact Nat.zero_le _
    rw [htick]
    show 2 * (s.setUser i u' sh).sum (User.effort t) + sh.channel.queue.length +
      2 * (t.deadline + t.timeout.ceilMillis - sh.now) + s.canTick.toNat + s.collecting.toNat +
      (!sh.cancelled).toNat < _
    rw [hnow]
    omega
  | take x rest hc hq =>
    rw [hq, List.length_cons]
    show 2 * s.sum (User.effort t) + rest.length +
      2 * (t.deadline + t.timeout.ceilMillis - s.shared.now) + s.canTick.toNat +
      s.collecting.toNat + (!s.shared.cancelled).toNat < _
    omega
  | tick hc =>
    have hlate : s.publish.canTick = false := by
      show (s.collecting && decide (s.shared.now + tickPeriod ≤ s.shared.now)) = false
      rw [decide_eq_false (by unfold tickPeriod; omega), Bool.and_false]
    rw [hc, hlate]
    show 2 * s.sum (User.effort t) + 0 + 2 * (t.deadline + t.timeout.ceilMillis - s.shared.now) +
      0 + s.collecting.toNat + (!s.shared.cancelled).toNat < _ + 1 + _ + _
    omega
  | finish hc =>
    have hcol : s.collecting = true := by
      unfold canFinish at hc
      rw [Bool.and_eq_true, Bool.and_eq_true] at hc
      exact hc.1.1
    rw [hcol]
    show 2 * s.sum (User.effort t) + 0 + 2 * (t.deadline + t.timeout.ceilMillis - s.shared.now) +
      0 + 0 + (!s.shared.cancelled).toNat < _ + 1 + _
    omega
  | deadline hc =>
    have hcan : s.shared.cancelled = false := by
      unfold canExpire at hc
      rw [Bool.and_eq_true, Bool.not_eq_true'] at hc
      exact hc.1
    rw [hcan]
    exact Nat.lt_succ_self _
  | wait m hi hm =>
    have hlt := now_lt_of_timer? hi hm
    have hbound := now_lt_of_wait hr h₀ hroom hi hm
    have hone : (s.moveTo m).canTick.toNat ≤ 1 := Bool.toNat_le _
    show 2 * s.sum (User.effort t) + s.shared.channel.queue.length +
      2 * (t.deadline + t.timeout.ceilMillis - m) + (s.moveTo m).canTick.toNat +
      s.collecting.toNat + (!s.shared.cancelled).toNat < _
    omega

/-! ## What is next can happen -/

/-- The user whose turn it is can take a step. -/
theorem exists_of_findUser? {count i j : Nat} (h : findUser? t s count i = some j) :
    ∃ u, s.users[j]? = some u ∧ u.canStep t s.shared = true := by
  induction count generalizing i with
  | zero => exact absurd h (by simp [findUser?])
  | succ count ih =>
    simp only [findUser?] at h
    split at h
    · rename_i u hu
      split at h
      · rename_i hc
        rw [← Option.some.inj h]
        exact ⟨u, hu, hc⟩
      · exact ih h
    · exact absurd h (by simp)

/-- Among the users that were looked at, none can take a step if none was found. -/
theorem canStep_of_findUser?_eq_none {count i first p : Nat} {u : User}
    (h : findUser? t s count i = none) (hfirst : first = if i < s.users.size then i else 0)
    (hp : s.users[p]? = some u)
    (hcover : first ≤ p ∧ p < first + count ∨ p + s.users.size < first + count) :
    u.canStep t s.shared = false := by
  obtain ⟨hlt, -⟩ := Array.getElem?_eq_some_iff.mp hp
  -- `count` places are looked at in a row, going round at the end; `hcover` says that `p` is
  -- one of them
  induction count generalizing i first with
  | zero =>
    split at hfirst <;> omega
  | succ count ih =>
    simp only [findUser?] at h
    rw [← hfirst] at h
    have hin : first < s.users.size := by split at hfirst <;> omega
    split at h
    · rename_i v hv
      split at h
      · exact absurd h (by simp)
      · rename_i hc
        by_cases he : p = first
        · rw [he] at hp
          rw [← Option.some.inj (hv.symm.trans hp)]
          exact Bool.eq_false_iff.mpr hc
        · exact ih h rfl (by split <;> omega)
    · rename_i hv
      exact absurd (Array.getElem?_eq_none_iff.mp hv) (by omega)

/-- If no user was found, none can take a step. -/
theorem any_canStep_of_findUser?_eq_none {turn : Nat}
    (h : findUser? t s s.users.size turn = none) :
    (s.users.any fun u => u.canStep t s.shared) = false := by
  apply Array.any_eq_false'.mpr
  intro u hu hc
  obtain ⟨p, hlt, hp⟩ := Array.getElem_of_mem hu
  have hstill := canStep_of_findUser?_eq_none h rfl (Array.getElem?_eq_some_iff.mpr ⟨hlt, hp⟩)
    (by split <;> omega)
  exact absurd (hstill.symm.trans hc) (by simp)

/-- What is next, with the reason. -/
inductive Next (t : Terms) (turn : Nat) (s : System) : Action → Prop
  | take : s.canTake = true → Next t turn s .take
  | deadline : s.canExpire t = true → Next t turn s .deadline
  | tick : s.canTick = true → Next t turn s .tick
  | user (i : Nat) : findUser? t s s.users.size turn = some i → Next t turn s (.user i)
  | finish : s.canFinish = true → Next t turn s .finish
  | wait : s.isIdle t = true → s.isOver = false → Next t turn s .wait

/-- What is next has its reason. -/
theorem next_of_next? {turn : Nat} {a : Action} (h : s.next? t turn = some a) :
    s.Next t turn a := by
  unfold next? at h
  split at h
  · exact absurd h (by simp)
  rename_i hover
  split at h
  · rename_i htake
    rw [← Option.some.inj h]
    exact .take htake
  rename_i htake
  split at h
  · rename_i hexpire
    rw [← Option.some.inj h]
    exact .deadline hexpire
  rename_i hexpire
  split at h
  · rename_i htick
    rw [← Option.some.inj h]
    exact .tick htick
  rename_i htick
  split at h
  · rename_i i hfind
    rw [← Option.some.inj h]
    exact .user i hfind
  rename_i hfind
  split at h
  · rename_i hfinish
    rw [← Option.some.inj h]
    exact .finish hfinish
  rename_i hfinish
  rw [← Option.some.inj h]
  refine .wait ?_ (Bool.eq_false_iff.mpr hover)
  unfold isIdle
  rw [Bool.eq_false_iff.mpr htake, Bool.eq_false_iff.mpr htick, Bool.eq_false_iff.mpr hexpire,
    Bool.eq_false_iff.mpr hfinish, any_canStep_of_findUser?_eq_none hfind]
  rfl

/-- There is a moment to wait for as long as a run is not over. -/
theorem isSome_timer?_of_not_isOver (hr : MayReach t s₀ s) (h₀ : s₀.Fresh)
    (hover : s.isOver = false) : (s.timer? t).isSome = true := by
  cases hcol : s.collecting with
  | true => exact isSome_timer? (.tick hcol)
  | false =>
    refine isSome_timer? (.deadline (Bool.eq_false_iff.mpr ?_))
    intro hcan
    have hgone := (settled_of_mayReach hr h₀ hcol).2.2
    exact absurd (isOver_iff.mpr ⟨hcol, hcan, hgone⟩) (by rw [hover]; simp)

/-- What is next can happen. -/
theorem isSome_step?_of_next? (hr : MayReach t s₀ s) (h₀ : s₀.Fresh) {turn : Nat} {a : Action}
    (h : s.next? t turn = some a) : (s.step? t a).isSome = true := by
  cases next_of_next? h with
  | take htake =>
    unfold canTake at htake
    rw [Bool.and_eq_true, Bool.not_eq_true'] at htake
    show s.take?.isSome = true
    unfold take? Channel.pop?
    rw [if_pos htake.1]
    split
    · rfl
    · rename_i hq
      rw [hq] at htake
      exact absurd htake.2 (by simp)
  | deadline hexpire =>
    show (if s.canExpire t then _ else none : Option System).isSome = true
    rw [if_pos hexpire]
    rfl
  | tick htick =>
    show (if s.canTick then _ else none : Option System).isSome = true
    rw [if_pos htick]
    rfl
  | user i hfind =>
    obtain ⟨u, hu, hc⟩ := exists_of_findUser? hfind
    show (s.stepUser? t i).isSome = true
    unfold stepUser?
    rw [hu]
    show ((u.step? t s.shared).map _).isSome = true
    rw [Option.isSome_map, User.isSome_step?, hc]
  | finish hfinish =>
    show (if s.canFinish then _ else none : Option System).isSome = true
    rw [if_pos hfinish]
    rfl
  | wait hidle hover =>
    show (if s.isIdle t then (s.timer? t).map _ else none : Option System).isSome = true
    rw [if_pos hidle, Option.isSome_map, isSome_timer?_of_not_isOver hr h₀ hover]

/-- A run whose rounds take time ends, in no more actions than there is something to do. -/
theorem exists_runFor (hround : 0 < t.round) (hr : Reaches t s₀ s) (h₀ : s₀.Fresh)
    (hroom : 0 < s₀.shared.channel.capacity) {count : Nat} (turn : Nat)
    (hcount : s.effort t < count) : ∃ s', runFor t count turn s = some s' := by
  induction count generalizing s turn with
  | zero => exact absurd hcount (Nat.not_lt_zero _)
  | succ count ih =>
    unfold runFor
    cases hnext : s.next? t turn with
    | none => exact ⟨s, rfl⟩
    | some a =>
      obtain ⟨s', hs'⟩ := Option.isSome_iff_exists.mp (isSome_step?_of_next? hr.mayReach h₀ hnext)
      have hlt := effort_lt_of_move hround hr.mayReach h₀ hroom (move_of_step? hs')
      simp only [hs']
      exact ih (.step a hr hs') _ (by omega)

/-- At the start there is less to do than a run has actions at most. -/
theorem effort_lt_maxActions (hround : 0 < t.round) (h₀ : s₀.Fresh) :
    s₀.effort t < s₀.maxActions t := by
  have hsum : s₀.sum (User.effort t) ≤ s₀.users.size * (10 * (t.maxCalls + 2)) := by
    rw [← sum_const]
    apply sum_le_sum
    intro u hu
    obtain ⟨hp, hn⟩ := h₀.idle u hu
    unfold User.effort Terms.maxCalls
    rw [hp, hn, if_neg (Nat.ne_of_gt hround)]
    show 10 * (t.rounds + 1 - 0) + 9 ≤ _
    omega
  have htick := Bool.toNat_le s₀.canTick
  have hcol := Bool.toNat_le s₀.collecting
  have hcan := Bool.toNat_le (!s₀.shared.cancelled)
  unfold effort maxActions
  rw [h₀.queue, h₀.now, List.length_nil]
  omega

/-- A run whose rounds take time ends. -/
theorem exists_run? (hround : 0 < t.round) (h₀ : s₀.Fresh)
    (hroom : 0 < s₀.shared.channel.capacity) : ∃ s, s₀.run? t = some s :=
  exists_runFor hround (.refl s₀) h₀ hroom 0 (effort_lt_maxActions hround h₀)

end System

namespace Engine

variable {c : Config} {o : RunOptions} {around : Surroundings} {t : Terms} {s₀ : System}

/-- The run of a configuration returns if its rounds take time and a clock can show its end. -/
theorem exists_run (h : prepare c o around = .ok (t, s₀)) (hround : 0 < t.round)
    (hclock : fitsClock c around = true) :
    ∃ s, s₀.run? t = some s ∧ run c o around = .ok (finish s) := by
  obtain ⟨s, hs⟩ := System.exists_run? hround (fresh_of_prepare h) (capacity_pos_of_prepare h)
  refine ⟨s, hs, ?_⟩
  unfold run
  rw [h]
  simp only [hclock, if_true, hs]

/-- A configuration that can be planned can be prepared. -/
theorem exists_prepare (hplan : (plan c).toOption.isSome = true) (o : RunOptions)
    (around : Surroundings) : ∃ t s, prepare c o around = .ok (t, s) := by
  cases hp : plan c with
  | error e =>
    rw [hp] at hplan
    exact absurd hplan (by simp [Except.toOption])
  | ok planned => exact exists_prepare_of_plan hp o around

/-- The run of a configuration that can be planned returns if it has pauses. -/
theorem exists_run_of_plan (hplan : (plan c).toOption.isSome = true)
    (hpacing : 0 < c.settings.pacing.toNat) (o : RunOptions) (around : Surroundings)
    (hclock : fitsClock c around = true) :
    ∃ t s₀ s, prepare c o around = .ok (t, s₀) ∧ s₀.run? t = some s ∧
      run c o around = .ok (finish s) := by
  obtain ⟨t, s₀, h⟩ := exists_prepare hplan o around
  have hround : 0 < t.round := by
    unfold Terms.round
    rw [(times_of_prepare h).1]
    exact Nat.lt_of_lt_of_le hpacing (Nat.le_add_right _ _)
  obtain ⟨s, hs, hrun⟩ := exists_run h hround hclock
  exact ⟨t, s₀, s, h, hs, hrun⟩

/-- The run of the built-in configuration returns. -/
theorem exists_run_default (o : RunOptions) (around : Surroundings)
    (hclock : fitsClock Config.default around = true) :
    ∃ t s₀ s, prepare Config.default o around = .ok (t, s₀) ∧ s₀.run? t = some s ∧
      run Config.default o around = .ok (finish s) :=
  exists_run_of_plan (by decide +kernel) (by decide) o around hclock

end Engine
end ShardLoad
