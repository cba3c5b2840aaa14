import ShardLoad.Proofs.Run.Slots

/-!
# The calls of a run in time

A course of events is followed here together with the calls that end in it: who made them,
when, and when their replies were taken.  The calls of a user are those that have ended and
the one that it may be waiting for, which lasts up to now.

What holds of the calls of every user is proved by looking at one user at a time: at its own
steps and at the clock.  What others do changes nothing about it.

* `Span`: a call in time.
* `Course`: a course of events with the calls that ended in it.
* `callsOf`: the calls of a user.
* `Course.forall_users`: what every step of a user and of the clock keeps.
-/

namespace ShardLoad

/-- A call in time: who made it, when, and when its reply was taken. -/
structure Span where
  user : Nat
  since : Nat
  till : Nat
  deriving Repr, DecidableEq

/-- The call that a user waits for, up to now. -/
def User.underWay? (i now : Nat) (u : User) : Option Span :=
  match u.phase with
  | .calling since _ _ => some ⟨i, since, now⟩
  | _ => none

namespace System

/-- The call that an action ends. -/
def ending? (s : System) : Action → Option Span
  | .user i => s.users[i]?.bind (User.underWay? i s.shared.now)
  | _ => none

/-- The calls of a list that a user made. -/
def spansOf (spans : List Span) (i : Nat) : List Span := spans.filter fun x => x.user = i

/-- The calls of a user, those that have ended and the one that it waits for. -/
def callsOf (s : System) (spans : List Span) (i : Nat) : List Span :=
  spansOf spans i ++ (s.users[i]?.bind (User.underWay? i s.shared.now)).toList

/-- A course of events, whether it was interrupted, and the calls that ended in it. -/
inductive Course (t : Terms) (s₀ : System) : (interrupted : Bool) → List Span → System → Prop
  | start : Course t s₀ false [] s₀
  | step {b : Bool} {spans : List Span} {s s' : System} (a : Action) : Course t s₀ b spans s →
      s.step? t a = some s' → Course t s₀ b (spans ++ (s.ending? a).toList) s'
  | interrupt {b : Bool} {spans : List Span} {s : System} : Course t s₀ b spans s →
      Course t s₀ true spans s.interrupt

variable {t : Terms} {s s₀ : System} {b : Bool} {spans : List Span}

/-! ## Courses and what they reach -/

/-- A course of events leads to what may be reached. -/
theorem Course.mayReach (h : Course t s₀ b spans s) : MayReach t s₀ s := by
  induction h with
  | start => exact .refl _
  | step a _ ha ih => exact .step a ih ha
  | interrupt _ ih => exact .interrupt ih

/-- A course of events that was not interrupted leads to what is reached. -/
theorem Course.reaches (h : Course t s₀ b spans s) (hb : b = false) : Reaches t s₀ s := by
  induction h with
  | start => exact .refl _
  | step a _ ha ih => exact .step a (ih hb) ha
  | interrupt _ _ => exact absurd hb (by simp)

/-- Everything that is reached is reached in a course of events. -/
theorem exists_course (h : Reaches t s₀ s) : ∃ spans, Course t s₀ false spans s := by
  induction h with
  | refl => exact ⟨[], .start⟩
  | step a _ ha ih =>
    obtain ⟨spans, hc⟩ := ih
    exact ⟨_, .step a hc ha⟩

/-- What may be reached is reached by a course of events that may be interrupted. -/
theorem MayReach.exists_course (h : MayReach t s₀ s) : ∃ b spans, Course t s₀ b spans s := by
  induction h with
  | refl => exact ⟨false, [], .start⟩
  | step a _ ha ih =>
    obtain ⟨b, spans, hc⟩ := ih
    exact ⟨b, _, .step a hc ha⟩
  | interrupt _ ih =>
    obtain ⟨b, spans, hc⟩ := ih
    exact ⟨true, spans, .interrupt hc⟩

/-! ## One user at a time -/

/-- A call is ended by the user that made it. -/
theorem user_of_ending? {a : Action} {x : Span} (h : s.ending? a = some x) :
    a = .user x.user ∧ x.user < s.users.size := by
  cases a with
  | user i =>
    obtain ⟨u, hu, hx⟩ := Option.bind_eq_some_iff.mp h
    unfold User.underWay? at hx
    split at hx
    · rw [← Option.some.inj hx]
      exact ⟨rfl, (Array.getElem?_eq_some_iff.mp hu).1⟩
    · exact absurd hx (by simp)
  | take | tick | finish | deadline | wait => exact absurd h (by simp [ending?])

/-- An action of somebody else ends no call of a user. -/
theorem spansOf_append_ending?_of_ne {a : Action} {i : Nat} (h : a ≠ .user i) :
    spansOf (spans ++ (s.ending? a).toList) i = spansOf spans i := by
  unfold spansOf
  rw [List.filter_append]
  cases hx : s.ending? a with
  | none => exact List.append_nil _
  | some x =>
    have hne : ¬x.user = i := fun he => h (he ▸ (user_of_ending? hx).1)
    rw [Option.toList_some, List.filter_singleton, decide_eq_false hne]
    exact List.append_nil _

/-- A step of a user ends the call that it waits for, if any. -/
theorem spansOf_append_ending? {i : Nat} {u : User} (h : s.users[i]? = some u) :
    spansOf (spans ++ (s.ending? (.user i)).toList) i =
      spansOf spans i ++ (u.underWay? i s.shared.now).toList := by
  have hend : s.ending? (.user i) = u.underWay? i s.shared.now := by
    show s.users[i]?.bind _ = _
    rw [h]
    rfl
  unfold spansOf
  rw [List.filter_append, hend]
  cases hx : u.underWay? i s.shared.now with
  | none => rfl
  | some x =>
    have he : Action.user i = .user x.user := (user_of_ending? (hend.trans hx)).1
    have hi : x.user = i := (Action.user.inj he).symm
    rw [Option.toList_some, List.filter_singleton, decide_eq_true hi]
    rfl

/-- Calls are made by users of the run. -/
theorem Course.user_lt (h : Course t s₀ b spans s) : ∀ x ∈ spans, x.user < s.users.size := by
  have hsize : ∀ {s s' : System} {a : Action}, s.step? t a = some s' →
      s'.users.size = s.users.size := by
    intro _ _ _ ha
    cases move_of_step? ha with
    | user i u u' sh hi hmove => exact size_setUser ..
    | _ => rfl
  induction h with
  | start => exact fun x hx => absurd hx List.not_mem_nil
  | step a _ ha ih =>
    intro x hx
    rw [hsize ha]
    rcases List.mem_append.mp hx with hx | hx
    · exact ih x hx
    · exact (user_of_ending? (Option.mem_toList.mp hx)).2
  | interrupt _ ih => exact ih

/-- What holds of a user and its calls at the start, and is kept by every step that it takes
and by the clock, holds of all users and their calls. -/
theorem Course.forall_users {P : Bool → Nat → List Span → User → Prop}
    (h : Course t s₀ b spans s) (h₀ : s₀.Fresh) (hroom : 0 < s₀.shared.channel.capacity)
    (hstart : ∀ {u : User}, u.phase = .idle → u.iterations = 0 → P false 0 [] u)
    (hmove : ∀ {b : Bool} {spans : List Span} {s : System} {i : Nat} {u u' : User} {sh : Shared},
      Course t s₀ b spans s → s.users[i]? = some u → u.Move t s.shared u' sh →
      P b s.shared.now (spansOf spans i) u →
      P b s.shared.now (spansOf spans i ++ (u.underWay? i s.shared.now).toList) u')
    (hwait : ∀ {b : Bool} {now next : Nat} {l : List Span} {u : User}, Waits t now next u →
      now ≤ next → P b now l u → P b next l u)
    (hint : ∀ {b : Bool} {now : Nat} {l : List Span} {u : User}, P b now l u → P true now l u) :
    ∀ {i : Nat} {u : User}, s.users[i]? = some u → P b s.shared.now (spansOf spans i) u := by
  induction h with
  | start =>
    intro i u hi
    obtain ⟨hp, hn⟩ := h₀.idle u (mem_of_getElem? hi)
    rw [h₀.now]
    exact hstart hp hn
  | @step b spans s s' a hc ha ih =>
    intro i u hi
    cases move_of_step? ha with
    | user j v v' sh hj hstep =>
      have hnow : sh.now = s.shared.now := now_of_userMove hstep
      show P b sh.now _ u
      rw [hnow]
      rw [getElem?_setUser hj] at hi
      -- the user whose step it is, and any other, which it leaves as it was
      by_cases he : j = i
      · rw [if_pos he] at hi
        rw [← he, ← Option.some.inj hi, spansOf_append_ending? hj]
        exact hmove hc hj hstep (ih hj)
      · rw [if_neg he] at hi
        rw [spansOf_append_ending?_of_ne fun h => he (Action.user.inj h)]
        exact ih hi
    | wait m hidle hm =>
      rw [spansOf_append_ending?_of_ne (by simp)]
      have hu : s.users[i]? = some u := hi
      exact hwait (waits_of_wait hc.mayReach h₀ hroom hidle hm (mem_of_getElem? hu))
        (Nat.le_of_lt (now_lt_of_timer? hidle hm)) (ih hu)
    | take | tick | finish | deadline =>
      rw [spansOf_append_ending?_of_ne (by simp)]
      exact ih hi
  | interrupt _ ih =>
    intro i u hi
    exact hint (ih hi)

/-- The calls of a user are all those that it made. -/
theorem length_callsOf (h : Course t s₀ b spans s) (h₀ : s₀.Fresh)
    (hroom : 0 < s₀.shared.channel.capacity) {i : Nat} {u : User} (hi : s.users[i]? = some u) :
    (s.callsOf spans i).length = u.issued := by
  have hended : (spansOf spans i).length = u.iterations := by
    refine h.forall_users (P := fun _ _ l u => l.length = u.iterations) h₀ hroom
      (fun _ hn => hn.symm) ?_ (fun _ _ hl => hl) (fun hl => hl) hi
    intro b spans s i u u' sh _ _ hmove hl
    rw [List.length_append, hl]
    cases hmove with
    | receive since due a result ledger log hp => simp only [User.underWay?, hp]; rfl
    | enter hp | cancel hp | expire hp | begin hp | proceed hp | claim _ hp | overrun _ hp
      | send _ _ _ hp | hangUp _ hp | deliver _ hp | resume _ hp | giveUp _ hp | leave _ _ hp =>
      simp only [User.underWay?, hp]
      rfl
  unfold callsOf
  rw [List.length_append, hended, hi]
  show u.iterations + (u.underWay? i s.shared.now).toList.length = u.issued
  unfold User.underWay? User.issued
  cases u.phase <;> rfl

end System
end ShardLoad
