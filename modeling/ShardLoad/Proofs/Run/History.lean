import Mathlib.Data.List.Perm.Basic
import ShardLoad.Proofs.Metrics.Outcomes
import ShardLoad.Proofs.Run.Conservation

/-!
# What happened in a run

A history of a run tells, one after the other, what happened and in which state.  All that
somebody may have seen of the run can be read off it: the replies that users took, the samples
that they handed over, in the order in which the queue has them, and the snapshots that the
collector published.

A user makes one sample of each reply and hands it over next.  So what was handed over is what
the replies make, in another order, but for the samples that users have in their hands; and
when a run is over nobody has one.

* `History`: a course of events, whether it was interrupted, and what happened.
* `Answered`: a reply that was taken, with `Answered.sample`.
* `Trace.answered`, `Trace.handed`, `Trace.published`: what is seen of a history.
* `count_answered`: samples that were made are handed over or in somebody's hands.
* `handed_perm`, `length_answered`: what was handed over when a run is over.
-/

namespace ShardLoad

/-- A call whose reply was taken. -/
structure Answered where
  /-- The place of the user that made it. -/
  user : Nat
  assignment : Assignment
  latency : Duration
  result : CallResult

namespace Answered

/-- The iteration that ends with the reply. -/
def iteration (x : Answered) : Iteration :=
  ⟨x.assignment.call.operation, x.latency, x.result, some x.assignment.endpoint.label⟩

/-- The sample that is made of the reply. -/
def sample (x : Answered) : Sample := x.iteration.sample

end Answered

namespace User

/-- The reply that a user takes in its next step, if it waits for one. -/
def answer? (t : Terms) (i : Nat) (s : Shared) (u : User) : Option Answered :=
  match u.phase with
  | .calling since _ a => some ⟨i, a, .ofMillis (s.now - since),
      (t.transport.reply t.timeout (u.outgoing a) s.ledger).1⟩
  | _ => none

/-- The sample that a user hands over in its next step, if it has one and somebody takes it. -/
def handover? (s : Shared) (u : User) : Option Sample :=
  match u.phase with
  | .delivering x => if s.channel.closed then none else some x
  | _ => none

/-- One for a user that has a sample in its hands. -/
def holding (x : Sample) (u : User) : Nat :=
  match u.phase with
  | .delivering y => if y = x then 1 else 0
  | _ => 0

end User

namespace System

/-- The reply that is taken in an action. -/
def answer? (t : Terms) (s : System) : Action → Option Answered
  | .user i => s.users[i]?.bind (User.answer? t i s.shared)
  | _ => none

/-- The sample that is handed over in an action. -/
def handover? (s : System) : Action → Option Sample
  | .user i => s.users[i]?.bind (User.handover? s.shared)
  | _ => none

/-- The snapshot that is published in an action. -/
def publication? (s : System) : Action → Option Snapshot
  | .tick | .finish => some s.publish.published.snapshot
  | _ => none

/-- What happened, one after the other, and in which state. -/
abbrev Trace := List (System × Action)

/-- A course of events, whether it was interrupted, and what happened. -/
inductive History (t : Terms) (s₀ : System) : (interrupted : Bool) → Trace → System → Prop
  | start : History t s₀ false [] s₀
  | step {b : Bool} {trace : Trace} {s s' : System} (a : Action) : History t s₀ b trace s →
      s.step? t a = some s' → History t s₀ b (trace ++ [(s, a)]) s'
  | interrupt {b : Bool} {trace : Trace} {s : System} : History t s₀ b trace s →
      History t s₀ true trace s.interrupt

namespace Trace

/-- The replies that were taken, in order. -/
def answered (t : Terms) (trace : Trace) : List Answered := trace.filterMap fun x => x.1.answer? t x.2

/-- The samples that were handed over, in order. -/
def handed (trace : Trace) : List Sample := trace.filterMap fun x => x.1.handover? x.2

/-- The snapshots that were published, in order. -/
def published (trace : Trace) : List Snapshot := trace.filterMap fun x => x.1.publication? x.2

/-- What is seen of one more entry comes last. -/
theorem filterMap_concat {α β : Type} (see? : α → Option β) (l : List α) (x : α) :
    (l ++ [x]).filterMap see? = l.filterMap see? ++ (see? x).toList := by
  rw [List.filterMap_append]
  cases h : see? x <;> simp [h]

theorem answered_concat (t : Terms) (trace : Trace) (s : System) (a : Action) :
    answered t (trace ++ [(s, a)]) = answered t trace ++ (s.answer? t a).toList :=
  filterMap_concat ..

theorem handed_concat (trace : Trace) (s : System) (a : Action) :
    handed (trace ++ [(s, a)]) = handed trace ++ (s.handover? a).toList :=
  filterMap_concat ..

theorem published_concat (trace : Trace) (s : System) (a : Action) :
    published (trace ++ [(s, a)]) = published trace ++ (s.publication? a).toList :=
  filterMap_concat ..

end Trace

open Trace

variable {t : Terms} {s s₀ : System} {b : Bool} {trace : Trace}

/-- A step of a user that is there takes its reply. -/
theorem answer?_user {i : Nat} {u : User} (h : s.users[i]? = some u) :
    s.answer? t (.user i) = u.answer? t i s.shared := by
  show s.users[i]?.bind _ = _
  rw [h]
  rfl

/-- A step of a user that is there hands over its sample. -/
theorem handover?_user {i : Nat} {u : User} (h : s.users[i]? = some u) :
    s.handover? (.user i) = u.handover? s.shared := by
  show s.users[i]?.bind _ = _
  rw [h]
  rfl

/-! ## Histories and what they reach -/

/-- A history leads to what may be reached. -/
theorem History.mayReach (h : History t s₀ b trace s) : MayReach t s₀ s := by
  induction h with
  | start => exact .refl _
  | step a _ ha ih => exact .step a ih ha
  | interrupt _ ih => exact .interrupt ih

/-- A history without interruptions leads to what is reached. -/
theorem History.reaches (h : History t s₀ b trace s) (hb : b = false) : Reaches t s₀ s := by
  induction h with
  | start => exact .refl _
  | step a _ ha ih => exact .step a (ih hb) ha
  | interrupt _ _ => exact absurd hb (by simp)

/-- What may be reached has a history. -/
theorem exists_history (h : MayReach t s₀ s) : ∃ b trace, History t s₀ b trace s := by
  induction h with
  | refl => exact ⟨false, [], .start⟩
  | step a _ ha ih =>
    obtain ⟨b, trace, hc⟩ := ih
    exact ⟨b, _, .step a hc ha⟩
  | interrupt _ ih =>
    obtain ⟨b, trace, hc⟩ := ih
    exact ⟨true, trace, .interrupt hc⟩

/-! ## Samples that were made -/

/-- In a step a user makes a sample, hands one over, or does nothing about it. -/
theorem count_answer?_of_move {u u' : User} {sh sh' : Shared} (hopen : sh.channel.closed = false)
    (i : Nat) (x : Sample) (h : u.Move t sh u' sh') :
    ((u.answer? t i sh).toList.map Answered.sample).count x + u.holding x =
      (u.handover? sh).toList.count x + u'.holding x := by
  cases h with
  | receive since due a result ledger log hp hdue hr =>
    simp only [User.answer?, User.handover?, User.holding, hp, hr, Option.toList_some,
      Option.toList_none, List.map_singleton, List.count_singleton, List.count_nil, beq_iff_eq]
    rw [Nat.add_zero, Nat.zero_add]
    rfl
  | hangUp y hp hc => exact absurd (hopen.symm.trans hc) (by simp)
  | deliver y hp hc hf =>
    simp only [User.answer?, User.handover?, User.holding, hp, hc, Bool.false_eq_true, if_false,
      Option.toList_some, Option.toList_none, List.map_nil, List.count_singleton, List.count_nil,
      beq_iff_eq]
    rw [Nat.add_zero, Nat.zero_add]
  | enter hp | cancel hp | expire hp | begin hp | proceed hp | claim _ hp | overrun _ hp
    | send _ _ _ hp | resume _ hp | giveUp _ hp | leave _ _ hp =>
    simp only [User.answer?, User.handover?, User.holding, hp, User.leave]
    rfl

/-- Every sample that was made was handed over or is in somebody's hands. -/
theorem count_answered (h : History t s₀ b trace s) (h₀ : s₀.Fresh) (x : Sample) :
    ((trace.answered t).map Answered.sample).count x =
      trace.handed.count x + s.sum (User.holding x) := by
  induction h with
  | start =>
    have hzero : s₀.sum (User.holding x) = 0 := by
      apply sum_eq_zero
      intro u hu
      simp only [User.holding, (h₀.idle u hu).1]
    rw [hzero]
    rfl
  | @step b trace s s' a hr ha ih =>
    rw [answered_concat, handed_concat, List.map_append, List.count_append, List.count_append, ih]
    cases move_of_step? ha with
    | user i u u' sh hi hmove =>
      have hstep := count_answer?_of_move (opened_of_mayReach hr.mayReach h₀) i x hmove
      have hsum := sum_setUser hi (User.holding x) u' sh
      rw [answer?_user hi, handover?_user hi]
      omega
    | take | tick | finish | deadline | wait => rfl
  | interrupt _ ih => exact ih

/-- When all users have stopped, what was handed over is what the replies made. -/
theorem handed_perm (h : History t s₀ b trace s) (h₀ : s₀.Fresh) (hgone : s.allGone = true) :
    trace.handed.Perm ((trace.answered t).map Answered.sample) := by
  refine List.perm_iff_count.mpr fun x => ?_
  have hzero : s.sum (User.holding x) = 0 := by
    apply sum_eq_zero
    intro u hu
    obtain ⟨exit, hp⟩ := exists_of_allGone hgone hu
    simp only [User.holding, hp]
  rw [count_answered h h₀ x, hzero]
  rfl

/-- The iterations of users are the replies that were taken. -/
theorem length_answered (h : History t s₀ b trace s) (h₀ : s₀.Fresh) :
    (trace.answered t).length = s.sum User.iterations := by
  induction h with
  | start => exact (sum_eq_zero fun u hu => (h₀.idle u hu).2).symm
  | @step b trace s s' a hr ha ih =>
    rw [answered_concat, List.length_append, ih]
    cases move_of_step? ha with
    | user i u u' sh hi hmove =>
      have hstep : (u.answer? t i s.shared).toList.length + u.iterations = u'.iterations := by
        cases hmove with
        | receive since due a result ledger log hp =>
          simp only [User.answer?, hp, Option.toList_some, List.length_singleton]
          omega
        | enter hp | cancel hp | expire hp | begin hp | proceed hp | claim _ hp | overrun _ hp
          | send _ _ _ hp | hangUp _ hp | deliver _ hp | resume _ hp | giveUp _ hp
          | leave _ _ hp =>
          simp only [User.answer?, hp, Option.toList_none, List.length_nil, User.leave]
          omega
      have hsum := sum_setUser hi User.iterations u' sh
      rw [answer?_user hi]
      omega
    | take | tick | finish | deadline | wait => rfl
  | interrupt _ ih => exact ih

/-- When a run is over, a scripted service has counted the replies that were taken. -/
theorem length_answered_of_allGone {script : Script} (h : History t s₀ b trace s) (h₀ : s₀.Fresh)
    (ht : t.transport = .scripted script) (hgone : s.allGone = true) :
    (trace.answered t).length = s.shared.ledger.calls := by
  rw [length_answered h h₀, calls_eq_sum_issued h.mayReach ht h₀, sum_issued_of_allGone hgone]

end System
end ShardLoad
