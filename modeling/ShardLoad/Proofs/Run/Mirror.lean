import ShardLoad.Proofs.Run.History
import ShardLoad.Run.Solo

/-!
# The samples of a user mirror its calls

One user is followed here from before its start to its end.  Somebody takes its samples or stops
doing so, somebody may cancel it, and the other users of a run may take iterations, call the same
service and put samples into the same queue.  All of this may happen between any two steps of the
user.

A user makes one sample of each reply, and hands it over before it does anything else.  So what it
has handed over mirrors what it has called: call by call, in order, and complete but for one sample
that it is about to hand over.  Of the ways to stop only one leaves that sample behind, when nobody
takes samples any more; and then no call comes after it.

What others do changes nothing about this, since it says nothing of what users share.  The counter
of active users is shared as well, and there others only must not touch it.

* `Solo.Course`: what happened around one user, by itself or among others.
* `Trace.calls`, `Trace.answered`, `Trace.handed`, `Trace.shifts`: what is seen of the user.
* `Solo.Mirrored`, `mirrored_of_course`: what holds at every moment.
* `counted_of_course`, `received_of_course`: what the service and the taker see of a user alone.
* `course_of_run?`: the course of events that `Solo.run?` takes.
* `Solo.samples_mirror_calls`: what holds when the user has stopped.
-/

namespace ShardLoad

namespace Active

/-- Two readings of the counter, one after the other, if they differ. -/
def shift? (before after : Active) : Option (Active × Active) :=
  if after = before then Option.none else some (before, after)

theorem enter_ne (a : Active) : a.enter ≠ a := by
  intro h
  have hcount : a.count + 1 = a.count := congrArg Active.count h
  exact absurd (UInt32.add_eq_left.mp hcount) (by decide)

end Active

namespace User

/-- The call that a user makes in its next step, if it makes one. -/
def call? (t : Terms) (u : User) : Option Assignment :=
  match u.phase with
  | .admitted => some (u.agenda.next t.plan).1
  | _ => none

/-- The call whose reply a user waits for. -/
def awaited? (u : User) : Option Assignment :=
  match u.phase with
  | .calling _ _ a => some a
  | _ => none

/-- What the counter of active users shows while a user is where it stands, if it showed `a`
before. -/
def showing (a : Active) (u : User) : Active :=
  match u.phase with
  | .idle | .gone _ => a
  | _ => a.enter

/-- How a user has moved the counter by the time that it is where it stands. -/
def shifts (a : Active) (u : User) : List (Active × Active) :=
  match u.phase with
  | .idle => []
  | .gone _ => [(a, a.enter), (a.enter, a)]
  | _ => [(a, a.enter)]

/-- How the samples that a user has made compare with those that it has handed over: there is one
more while it has it in its hands, and if it stops because nobody takes it. -/
def Owes (made handed : List Sample) (u : User) : Prop :=
  match u.phase with
  | .delivering x => made = handed ++ [x]
  | .leaving .channelClosed | .gone .channelClosed => ∃ x, made = handed ++ [x]
  | _ => made = handed

/-! ## What one step does -/

variable {t : Terms} {u u' : User} {sh sh' : Shared}

/-- A call is waited for once it was made, until its reply is taken. -/
theorem awaited?_of_move (h : u.Move t sh u' sh') (i : Nat) :
    u.awaited?.toList ++ (u.call? t).toList =
      (u.answer? t i sh).toList.map Answered.assignment ++ u'.awaited?.toList := by
  cases h with
  | send a agenda log hp hnext =>
    have hcall : (u.agenda.next t.plan).1 = a := by rw [hnext]
    simp only [awaited?, call?, answer?, hp, hcall]
    rfl
  | receive since due a result ledger log hp =>
    simp only [awaited?, call?, answer?, hp]
    rfl
  | enter hp | cancel hp | expire hp | begin hp | proceed hp | claim _ hp | overrun _ hp
    | hangUp _ hp | deliver _ hp | resume _ hp | giveUp _ hp | leave _ _ hp =>
    simp only [awaited?, call?, answer?, hp, User.leave]
    rfl

/-- Calls whose reply was taken are counted. -/
theorem iterations_of_move (h : u.Move t sh u' sh') (i : Nat) :
    u'.iterations = u.iterations + (u.answer? t i sh).toList.length := by
  cases h with
  | receive since due a result ledger log hp =>
    simp only [answer?, hp, Option.toList_some, List.length_singleton]
  | enter hp | cancel hp | expire hp | begin hp | proceed hp | claim _ hp | overrun _ hp
    | send _ _ _ hp | hangUp _ hp | deliver _ hp | resume _ hp | giveUp _ hp | leave _ _ hp =>
    simp only [answer?, hp, Option.toList_none, List.length_nil, Nat.add_zero, User.leave]

/-- A sample is handed over right after it was made, or never. -/
theorem Owes.move {made handed : List Sample} (hu : u.Owes made handed) (h : u.Move t sh u' sh')
    (i : Nat) : u'.Owes (made ++ (u.answer? t i sh).toList.map Answered.sample)
      (handed ++ (u.handover? sh).toList) := by
  cases h with
  | receive since due a result ledger log hp hdue hreply =>
    simp only [Owes, hp] at hu
    simp only [Owes, answer?, handover?, hp, hreply, hu, Option.toList_none, List.append_nil]
    rfl
  | hangUp x hp hclosed =>
    simp only [Owes, hp] at hu
    simp only [Owes, answer?, handover?, hp, hclosed, User.leave, if_true, Option.toList_none,
      List.map_nil, List.append_nil]
    exact ⟨x, hu⟩
  | deliver x hp hopen =>
    simp only [Owes, hp] at hu
    simp only [Owes, answer?, handover?, hp, hopen, hu, Bool.false_eq_true, if_false,
      Option.toList_none, Option.toList_some, List.map_nil, List.append_nil]
  | leave exit log hp =>
    simp only [Owes, hp] at hu
    simp only [Owes, answer?, handover?, hp, Option.toList_none, List.map_nil, List.append_nil]
    -- what is owed depends on the exit
    cases exit <;> exact hu
  | enter hp | cancel hp | expire hp | begin hp | proceed hp | claim _ hp | overrun _ hp
    | send _ _ _ hp | resume _ hp | giveUp _ hp =>
    simp only [Owes, hp] at hu
    simp only [Owes, answer?, handover?, hp, Option.toList_none, List.map_nil, List.append_nil,
      User.leave]
    exact hu

/-- The counter of active users is moved when a user starts and when it stops. -/
theorem shifts_of_move {a : Active} (ha : sh.active = u.showing a) (h : u.Move t sh u' sh') :
    sh'.active = u'.showing a ∧
      u'.shifts a = u.shifts a ++ (sh.active.shift? sh'.active).toList := by
  cases h with
  | enter hp =>
    simp only [showing, shifts, hp] at ha ⊢
    rw [ha, Active.shift?, if_neg a.enter_ne]
    exact ⟨rfl, rfl⟩
  | leave exit log hp =>
    simp only [showing, shifts, hp] at ha ⊢
    rw [ha, Active.leave_enter, Active.shift?, if_neg (Ne.symm a.enter_ne)]
    exact ⟨rfl, rfl⟩
  | cancel hp | expire hp | begin hp | proceed hp | claim _ hp | overrun _ hp | send _ _ _ hp
    | receive _ _ _ _ _ _ hp | hangUp _ hp | deliver _ hp | resume _ hp | giveUp _ hp =>
    simp only [showing, shifts, hp, User.leave] at ha ⊢
    rw [ha, Active.shift?, if_pos rfl]
    exact ⟨rfl, rfl⟩

end User

namespace Solo

/-- What happened, one after the other, and in which state. -/
abbrev Trace := List (Solo × Action)

/-- A course of events around one user, whether it was alone, and what happened.  What others do
may change all that is shared but the counter of active users. -/
inductive Course (t : Terms) (s₀ : Solo) : (alone : Bool) → Trace → Solo → Prop
  | start : Course t s₀ true [] s₀
  | step {b : Bool} {trace : Trace} {s s' : Solo} (a : Action) : Course t s₀ b trace s →
      s.step? t a = some s' → Course t s₀ b (trace ++ [(s, a)]) s'
  | others {b : Bool} {trace : Trace} {s : Solo} (shared : Shared) : Course t s₀ b trace s →
      shared.active = s.shared.active → Course t s₀ false trace { s with shared := shared }

/-- Nothing has happened yet: the user has not started, and no samples are on their way. -/
structure Fresh (s : Solo) : Prop where
  idle : s.user.phase = .idle
  iterations : s.user.iterations = 0
  queue : s.shared.channel.queue = []
  received : s.received = #[]

/-- The call that is made in an action. -/
def call? (t : Terms) (s : Solo) : Action → Option Assignment
  | .user => s.user.call? t
  | _ => none

/-- The reply that is taken in an action. -/
def answer? (t : Terms) (s : Solo) : Action → Option Answered
  | .user => s.user.answer? t s.user.id s.shared
  | _ => none

/-- The sample that the queue accepts in an action. -/
def handover? (s : Solo) : Action → Option Sample
  | .user => s.user.handover? s.shared
  | _ => none

/-- How an action moves the counter of active users, if it does. -/
def shift? (t : Terms) (s : Solo) (a : Action) : Option (Active × Active) :=
  (s.step? t a).bind fun s' => s.shared.active.shift? s'.shared.active

namespace Trace

/-- The calls that were made, in order. -/
def calls (t : Terms) (trace : Trace) : List Assignment :=
  trace.filterMap fun x => x.1.call? t x.2

/-- The replies that were taken, in order. -/
def answered (t : Terms) (trace : Trace) : List Answered :=
  trace.filterMap fun x => x.1.answer? t x.2

/-- The samples that the queue accepted, in order. -/
def handed (trace : Trace) : List Sample := trace.filterMap fun x => x.1.handover? x.2

/-- How the counter of active users was moved, in order. -/
def shifts (t : Terms) (trace : Trace) : List (Active × Active) :=
  trace.filterMap fun x => x.1.shift? t x.2

end Trace

/-- What holds of a user at every moment. -/
structure Mirrored (t : Terms) (a : Active) (trace : Trace) (s : Solo) : Prop where
  iterations : s.user.iterations = (trace.answered t).length
  calls : trace.calls t =
    (trace.answered t).map Answered.assignment ++ s.user.awaited?.toList
  samples : s.user.Owes ((trace.answered t).map Answered.sample) trace.handed
  active : s.shared.active = s.user.showing a
  shifts : trace.shifts t = s.user.shifts a

/-- What comes of the actions, each under its condition. -/
inductive Move (t : Terms) : Solo → Action → Solo → Prop
  | user {s : Solo} (u : User) (shared : Shared) : s.user.Move t s.shared u shared →
      Move t s .user { s with user := u, shared := shared }
  | take {s : Solo} (x : Sample) (rest : List Sample) : s.shared.channel.queue = x :: rest →
      Move t s .take { s with
        shared := { s.shared with channel := { s.shared.channel with queue := rest } }
        received := s.received.push x }
  | hangUp {s : Solo} : Move t s .hangUp
      { s with shared := { s.shared with channel := s.shared.channel.close } }
  | cancel {s : Solo} : Move t s .cancel { s with shared := { s.shared with cancelled := true } }
  | wait {s : Solo} (moment : Nat) : Move t s (.wait moment)
      { s with shared := { s.shared with now := moment } }

variable {t : Terms} {s s' s₀ : Solo} {b : Bool} {trace : Trace} {a : Active} {act : Action}

/-- An action that is possible is one of the list. -/
theorem move_of_step? (h : s.step? t act = some s') : s.Move t act s' := by
  cases act with
  | user =>
    obtain ⟨⟨u, shared⟩, hstep, rfl⟩ := Option.map_eq_some_iff.mp h
    exact .user u shared (User.move_of_step? hstep)
  | take =>
    obtain ⟨⟨x, channel⟩, hpop, rfl⟩ := Option.map_eq_some_iff.mp h
    unfold Channel.pop? at hpop
    split at hpop
    · rename_i y rest hq
      obtain ⟨rfl, rfl⟩ := Prod.mk.injEq .. ▸ Option.some.inj hpop
      exact .take y rest hq
    · exact absurd hpop (by simp)
  | hangUp =>
    obtain ⟨-, he⟩ := Option.ite_none_left_eq_some.mp h
    rw [← Option.some.inj he]
    exact .hangUp
  | cancel =>
    obtain ⟨-, he⟩ := Option.ite_none_left_eq_some.mp h
    rw [← Option.some.inj he]
    exact .cancel
  | wait moment =>
    obtain ⟨-, he⟩ := Option.ite_none_right_eq_some.mp h
    rw [← Option.some.inj he]
    exact .wait moment

/-! ## What holds at every moment -/

/-- What is seen of one more action comes last. -/
theorem seen_concat (trace : Trace) (h : s.step? t act = some s') :
    Trace.calls t (trace ++ [(s, act)]) = trace.calls t ++ (s.call? t act).toList ∧
    Trace.answered t (trace ++ [(s, act)]) = trace.answered t ++ (s.answer? t act).toList ∧
    Trace.handed (trace ++ [(s, act)]) = trace.handed ++ (s.handover? act).toList ∧
    Trace.shifts t (trace ++ [(s, act)]) =
      trace.shifts t ++ (s.shared.active.shift? s'.shared.active).toList := by
  have hshift : s.shift? t act = s.shared.active.shift? s'.shared.active := by
    rw [shift?, h, Option.bind_some]
  refine ⟨System.Trace.filterMap_concat .., System.Trace.filterMap_concat ..,
    System.Trace.filterMap_concat .., ?_⟩
  rw [← hshift]
  exact System.Trace.filterMap_concat ..

/-- Every action keeps what holds of the user. -/
theorem Mirrored.step (h : Mirrored t a trace s) (hstep : s.step? t act = some s') :
    Mirrored t a (trace ++ [(s, act)]) s' := by
  obtain ⟨hcalls, hanswered, hhanded, hshifts⟩ := seen_concat trace hstep
  cases move_of_step? hstep with
  | user u shared hmove =>
    have hcall := User.awaited?_of_move hmove s.user.id
    have hiterations := User.iterations_of_move hmove s.user.id
    have howes := h.samples.move hmove s.user.id
    obtain ⟨hactive, hshift⟩ := User.shifts_of_move h.active hmove
    constructor
    · rw [hanswered, List.length_append, ← h.iterations]
      exact hiterations
    · rw [hcalls, hanswered, h.calls, List.map_append, List.append_assoc, List.append_assoc]
      exact congrArg _ hcall
    · rw [hanswered, hhanded, List.map_append]
      exact howes
    · exact hactive
    · rw [hshifts, h.shifts]
      exact hshift.symm
  | take | hangUp | cancel | wait =>
    -- nobody but the user makes calls, and nobody but the user moves the counter
    have hsame : (s.shared.active.shift? s.shared.active).toList = [] := by
      rw [Active.shift?, if_pos rfl, Option.toList_none]
    constructor
    · rw [hanswered]
      exact h.iterations.trans (congrArg _ (List.append_nil _).symm)
    · rw [hcalls, hanswered]
      simp only [call?, answer?, Option.toList_none, List.append_nil]
      exact h.calls
    · rw [hanswered, hhanded]
      simp only [answer?, handover?, Option.toList_none, List.append_nil]
      exact h.samples
    · exact h.active
    · rw [hshifts, hsame, List.append_nil]
      exact h.shifts

/-- At every moment the samples of a user mirror its calls, whatever others do. -/
theorem mirrored_of_course (h : Course t s₀ b trace s) (h₀ : s₀.Fresh) :
    Mirrored t s₀.shared.active trace s := by
  induction h with
  | start =>
    refine ⟨h₀.iterations, ?_, ?_, ?_, ?_⟩
    · simp only [User.awaited?, h₀.idle]
      rfl
    · simp only [User.Owes, h₀.idle]
      rfl
    · simp only [User.showing, h₀.idle]
    · simp only [User.shifts, h₀.idle]
      rfl
  | step act _ hstep ih => exact ih.step hstep
  | others shared _ hactive ih =>
    exact ⟨ih.iterations, ih.calls, ih.samples, hactive.trans ih.active, ih.shifts⟩

/-! ## A user alone -/

/-- A service that only this user calls counts what it calls. -/
theorem counted_of_course {script : Script} (ht : t.transport = .scripted script)
    (h : Course t s₀ true trace s) (h₀ : s₀.Fresh) :
    s.shared.ledger.calls = s₀.shared.ledger.calls + (trace.calls t).length := by
  have hissued : s.shared.ledger.calls = s₀.shared.ledger.calls + s.user.issued := by
    generalize hb : true = alone at h
    induction h with
    | start =>
      simp only [User.issued, h₀.idle, h₀.iterations, Nat.add_zero]
    | step act _ hstep ih =>
      have ih := ih hb
      cases move_of_step? hstep with
      | user u shared hmove =>
        have hmoved := System.issued_of_move ht hmove
        show shared.ledger.calls = s₀.shared.ledger.calls + u.issued
        omega
      | take | hangUp | cancel | wait => exact ih
    | others => exact absurd hb (by simp)
  have hm := mirrored_of_course h h₀
  rw [hissued, hm.calls, List.length_append, List.length_map, ← hm.iterations]
  unfold User.issued User.awaited?
  cases s.user.phase <;> rfl

/-- What a user hands over goes to the end of the queue, and the user never closes it. -/
theorem channel_of_move {u u' : User} {sh sh' : Shared} (h : u.Move t sh u' sh') :
    sh'.channel.queue = sh.channel.queue ++ (u.handover? sh).toList ∧
      sh'.channel.closed = sh.channel.closed := by
  cases h with
  | deliver x hp hopen =>
    refine ⟨?_, rfl⟩
    simp only [User.handover?, hp, hopen, Bool.false_eq_true, if_false, Option.toList_some,
      Channel.push]
  | hangUp x hp hclosed =>
    refine ⟨?_, rfl⟩
    simp only [User.handover?, hp, hclosed, if_true, Option.toList_none, List.append_nil]
  | enter hp | cancel hp | expire hp | begin hp | proceed hp | claim _ hp | overrun _ hp
    | send _ _ _ hp | receive _ _ _ _ _ _ hp | resume _ hp | giveUp _ hp | leave _ _ hp =>
    refine ⟨?_, rfl⟩
    simp only [User.handover?, hp, Option.toList_none, List.append_nil]

/-- Where the samples are that a user has handed over: taken, in the queue, or lost in it when
the taker stopped. -/
def Delivered (handed : List Sample) (s : Solo) : Prop :=
  ∃ lost, handed = s.received.toList ++ s.shared.channel.queue ++ lost ∧
    (s.shared.channel.closed = false → lost = []) ∧
    (s.shared.channel.closed = true → s.shared.channel.queue = [])

/-- Nobody but this user puts samples into the queue, so the taker has its first samples. -/
theorem received_of_course (h : Course t s₀ true trace s) (h₀ : s₀.Fresh) :
    Delivered trace.handed s := by
  generalize hb : true = alone at h
  induction h with
  | start =>
    refine ⟨[], ?_, fun _ => rfl, fun _ => h₀.queue⟩
    rw [h₀.received, h₀.queue]
    rfl
  | @step _ trace s s' act _ hstep ih =>
    obtain ⟨lost, hhanded, hopen, hclosed⟩ := ih hb
    obtain ⟨-, -, hseen, -⟩ := seen_concat trace hstep
    rw [Delivered, hseen, hhanded]
    cases move_of_step? hstep with
    | user u shared hmove =>
      obtain ⟨hqueue, hsame⟩ := channel_of_move hmove
      cases hc : s.shared.channel.closed with
      | false =>
        refine ⟨[], ?_, fun _ => rfl, fun h => absurd (hsame ▸ h) (by simp [hc])⟩
        rw [hopen hc, hqueue, List.append_nil, List.append_nil, List.append_assoc]
        rfl
      | true =>
        -- into a closed queue nothing is put
        have hnone : s.user.handover? s.shared = none := by
          unfold User.handover?
          rw [hc]
          cases s.user.phase <;> rfl
        rw [hnone, Option.toList_none, List.append_nil] at hqueue
        refine ⟨lost, ?_, fun h => absurd (hsame ▸ h) (by simp [hc]), fun _ => ?_⟩
        · show _ ++ (s.user.handover? s.shared).toList = _ ++ shared.channel.queue ++ lost
          rw [hnone, hqueue, Option.toList_none, List.append_nil]
        · exact hqueue.trans (hclosed hc)
    | take x rest hq =>
      refine ⟨lost, ?_, hopen, fun hc => absurd (hq.symm.trans (hclosed hc)) (by simp)⟩
      rw [hq, Array.toList_push]
      simp only [handover?, Option.toList_none, List.append_nil, List.append_assoc,
        List.cons_append, List.nil_append]
    | hangUp =>
      refine ⟨s.shared.channel.queue ++ lost, ?_, fun h => absurd h (by simp [Channel.close]),
        fun _ => rfl⟩
      simp only [handover?, Channel.close, Option.toList_none, List.append_nil,
        List.append_assoc]
    | cancel | wait =>
      refine ⟨lost, ?_, hopen, hclosed⟩
      simp only [handover?, Option.toList_none, List.append_nil]
  | others => exact absurd hb (by simp)

/-! ## The course of events of a plot -/

/-- The course of events that a plot takes goes on from where it starts. -/
theorem course_of_runFor {p : Plot} {count : Nat} (h : Course t s₀ b trace s)
    (hrun : runFor p t count s = some s') : ∃ trace', Course t s₀ b trace' s' := by
  induction count generalizing trace s with
  | zero => exact absurd hrun (by simp [runFor])
  | succ count ih =>
    simp only [runFor] at hrun
    split at hrun
    · exact ⟨trace, Option.some.inj hrun ▸ h⟩
    · rename_i act _
      split at hrun
      · rename_i s₁ hstep
        exact ih (h.step act hstep) hrun
      · exact absurd hrun (by simp)

/-- What a plot comes to has a course of events of the user alone. -/
theorem course_of_run? {p : Plot} (h : run? p t s₀ = some s) :
    ∃ trace, Course t s₀ true trace s :=
  course_of_runFor .start h

/-! ## When the user has stopped -/

/-- The samples of a user that has stopped mirror its calls.  Its count of iterations is the
number of its calls, and each call was replied to.  All samples of these replies were handed
over, in order, unless nobody took them any more: then all but that of the last call were, and
nothing was called after it.  The counter of active users was raised once and lowered once, and
shows what it did before.  If nobody else was there, the service has counted these calls, and
the taker has the first of these samples, with the others in the queue until he stopped. -/
theorem samples_mirror_calls {exit : Exit} (h : Course t s₀ b trace s) (h₀ : s₀.Fresh)
    (hgone : s.user.phase = .gone exit) :
    s.user.iterations = (trace.calls t).length ∧
    trace.calls t = (trace.answered t).map Answered.assignment ∧
    (exit ≠ .channelClosed → trace.handed = (trace.answered t).map Answered.sample) ∧
    (exit = .channelClosed → ∃ earlier last, trace.answered t = earlier ++ [last] ∧
      trace.handed = earlier.map Answered.sample) ∧
    trace.shifts t = [(s₀.shared.active, s₀.shared.active.enter),
      (s₀.shared.active.enter, s₀.shared.active)] ∧
    s.shared.active = s₀.shared.active ∧
    (b = true →
      (∀ script, t.transport = .scripted script →
        s.shared.ledger.calls = s₀.shared.ledger.calls + s.user.iterations) ∧
      Delivered trace.handed s) := by
  have hm := mirrored_of_course h h₀
  have hcalls : trace.calls t = (trace.answered t).map Answered.assignment := by
    have hall := hm.calls
    simp only [User.awaited?, hgone, Option.toList_none, List.append_nil] at hall
    exact hall
  have hcount : s.user.iterations = (trace.calls t).length := by
    rw [hm.iterations, hcalls, List.length_map]
  have howes := hm.samples
  have hactive := hm.active
  have hshifts := hm.shifts
  simp only [User.showing, User.shifts, hgone] at hactive hshifts
  refine ⟨hcount, hcalls, ?_, ?_, hshifts, hactive, ?_⟩
  · intro hexit
    cases exit with
    | channelClosed => exact absurd rfl hexit
    | deadline | cancelled | iterationCap =>
      simp only [User.Owes, hgone] at howes
      exact howes.symm
  · rintro rfl
    simp only [User.Owes, hgone] at howes
    obtain ⟨x, hx⟩ := howes
    obtain ⟨earlier, rest, hsplit, hearlier, hrest⟩ := List.map_eq_append_iff.mp hx
    obtain ⟨last, rfl, -⟩ := List.map_eq_singleton_iff.mp hrest
    exact ⟨earlier, last, hsplit, hearlier.symm⟩
  · rintro rfl
    refine ⟨fun script ht => ?_, received_of_course h h₀⟩
    rw [counted_of_course ht h h₀, hcount]

/-- A user whose taker stops after one sample makes a second call, whose sample is missing, and no
third one. -/
theorem samples_mirror_calls_hung_up :
    ∃ t s₀ s trace, run? ⟨some 1, none⟩ t s₀ = some s ∧ Course t s₀ true trace s ∧ s₀.Fresh ∧
      s.user.phase = .gone .channelClosed ∧ (Trace.calls t trace).length = 2 ∧
      trace.handed.length = 1 ∧ s.shared.active = s₀.shared.active := by
  let t : Terms := ⟨⟨[.rootRead], ⟨[1], by decide, by decide⟩, ⟨8, 8, none, .update, true⟩⟩,
    .scripted ⟨.answer, .ofMillis 20⟩, .ofMillis 100, 5, 1000, none, false⟩
  let s₀ : Solo := ⟨.new 0 ⟨.seeded 7,
    .make ⟨"localhost", 4000, 2, by decide, by decide⟩ .roundRobin 0⟩, .start 0 1, #[]⟩
  have hfresh : s₀.Fresh := ⟨rfl, rfl, rfl, rfl⟩
  have hend : (run? ⟨some 1, none⟩ t s₀).map (fun s => (s.user.phase, s.user.iterations)) =
      some (.gone .channelClosed, 2) := by
    decide +kernel
  obtain ⟨s, hrun, hs⟩ := Option.map_eq_some_iff.mp hend
  obtain ⟨hgone, hcount⟩ := Prod.mk.injEq .. ▸ hs
  obtain ⟨trace, hcourse⟩ := course_of_run? hrun
  obtain ⟨hcalls, hanswered, -, hclosed, -, hactive, -⟩ :=
    samples_mirror_calls hcourse hfresh hgone
  obtain ⟨earlier, last, hsplit, hhanded⟩ := hclosed rfl
  have htwo : (Trace.calls t trace).length = 2 := hcalls.symm.trans hcount
  refine ⟨t, s₀, s, trace, hrun, hcourse, hfresh, hgone, htwo, ?_, hactive⟩
  rw [hanswered, hsplit, List.length_map, List.length_append, List.length_singleton] at htwo
  rw [hhanded, List.length_map]
  omega

end Solo
end ShardLoad
