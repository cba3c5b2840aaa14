import ShardLoad.Proofs.Run.IterationCount

/-!
# What users call

A course of events is followed here together with the calls that are issued in it: who
issued them, for which step of the mix, to which endpoint, and with which request.

All that a call is made up from is the plan of the run and the agenda of its user, and
nothing but the making of a call changes an agenda.  So the calls of a user are always the
first ones of one sequence, which the seed and the configured mix, target and payload fix:
how many of them there are is all that can differ between two runs.

* `Issue`: a call as it is issued, and `Agenda.issues`: the sequence.
* `Issuing`: a course of events with the calls that were issued in it.
* `follows_of_issuing`: the calls of a user are the first ones of its agenda.
* `Engine.issues_prefix`: the calls of a user in two runs.
-/

namespace ShardLoad

/-- A call as it is issued. -/
structure Issue where
  /-- The step of the mix that it is made for. -/
  step : Nat
  endpoint : Endpoint
  call : Call
  deriving Repr, DecidableEq

namespace Agenda

/-- The next call as it is issued. -/
def issue (plan : Plan) (a : Agenda) : Issue :=
  ⟨(plan.weights.choose a.source).1, (a.next plan).1.endpoint, (a.next plan).1.call⟩

/-- What follows after so many calls. -/
def after (plan : Plan) (a : Agenda) : Nat → Agenda
  | 0 => a
  | n + 1 => ((a.after plan n).next plan).2

/-- The next `n` calls as they are issued. -/
def issues (plan : Plan) (a : Agenda) (n : Nat) : List Issue :=
  (List.range n).map fun k => (a.after plan k).issue plan

/-- A call has its step chosen, then its shard, and then its request made up. -/
theorem next_eq (plan : Plan) (a : Agenda) :
    a.next plan =
      let chosen := plan.weights.choose a.source
      let picked := a.selector.pick chosen.2
      let built := plan.builder.build (plan.operations.getD chosen.1 .transaction) picked.2.2
      (⟨picked.1, built.1⟩, ⟨built.2, picked.2.1⟩) := by
  unfold next
  rcases plan.weights.choose a.source with ⟨step, source⟩
  dsimp only

/-- A call picks its shard once its step is chosen. -/
theorem pick_next (plan : Plan) (a : Agenda) :
    (a.next plan).1.endpoint = (a.selector.pick (plan.weights.choose a.source).2).1 ∧
      (a.next plan).2.selector = (a.selector.pick (plan.weights.choose a.source).2).2.1 := by
  rw [next_eq]
  exact ⟨rfl, rfl⟩

/-- A call is made for the operation of its step. -/
theorem operation_issue (plan : Plan) (a : Agenda) :
    (a.issue plan).call.operation = plan.operations.getD (a.issue plan).step .transaction :=
  Builder.operation_build ..

theorem issues_succ (plan : Plan) (a : Agenda) (n : Nat) :
    a.issues plan (n + 1) = a.issues plan n ++ [(a.after plan n).issue plan] := by
  unfold issues
  rw [List.range_succ, List.map_append]
  rfl

@[simp] theorem length_issues (plan : Plan) (a : Agenda) (n : Nat) :
    (a.issues plan n).length = n := by
  unfold issues
  rw [List.length_map, List.length_range]

/-- Fewer calls are the first ones of more calls. -/
theorem issues_prefix_issues (plan : Plan) (a : Agenda) {m n : Nat} (h : m ≤ n) :
    a.issues plan m <+: a.issues plan n := by
  induction n, h using Nat.le_induction with
  | base => exact List.prefix_refl _
  | succ n _ ih =>
    rw [issues_succ]
    exact ih.trans (List.prefix_append _ _)

end Agenda

/-- The call that a user issues in its next step, if it is about to make one. -/
def User.issue? (t : Terms) (u : User) : Option Issue :=
  match u.phase with
  | .admitted => some (u.agenda.issue t.plan)
  | _ => none

namespace System

/-- The call that is issued by an action, with its user. -/
def issue? (t : Terms) (s : System) : Action → Option (Nat × Issue)
  | .user i => (s.users[i]?.bind (User.issue? t)).map fun x => (i, x)
  | _ => none

/-- A course of events, which may be interrupted now and then, with the calls that were
issued in it. -/
inductive Issuing (t : Terms) (s₀ : System) : List (Nat × Issue) → System → Prop
  | start : Issuing t s₀ [] s₀
  | step {issues : List (Nat × Issue)} {s s' : System} (a : Action) : Issuing t s₀ issues s →
      s.step? t a = some s' → Issuing t s₀ (issues ++ (s.issue? t a).toList) s'
  | interrupt {issues : List (Nat × Issue)} {s : System} : Issuing t s₀ issues s →
      Issuing t s₀ issues s.interrupt

/-- The calls of a list that a user issued. -/
def issuesOf (issues : List (Nat × Issue)) (i : Nat) : List Issue :=
  (issues.filter fun x => x.1 = i).map Prod.snd

variable {t : Terms} {s s₀ : System} {issues : List (Nat × Issue)}

/-- Everything that may be reached is reached in a course of events. -/
theorem exists_issuing (h : MayReach t s₀ s) : ∃ issues, Issuing t s₀ issues s := by
  induction h with
  | refl => exact ⟨[], .start⟩
  | step a _ ha ih =>
    obtain ⟨issues, hc⟩ := ih
    exact ⟨_, .step a hc ha⟩
  | interrupt _ ih =>
    obtain ⟨issues, hc⟩ := ih
    exact ⟨issues, .interrupt hc⟩

/-- What is issued in a course of events leads to what may be reached. -/
theorem Issuing.mayReach (h : Issuing t s₀ issues s) : MayReach t s₀ s := by
  induction h with
  | start => exact .refl _
  | step a _ ha ih => exact .step a ih ha
  | interrupt _ ih => exact .interrupt ih

/-- A call is issued by a user that is about to make it. -/
theorem exists_of_mem_issue? {a : Action} {x : Nat × Issue} (h : x ∈ (s.issue? t a).toList) :
    ∃ u, a = .user x.1 ∧ s.users[x.1]? = some u ∧ u.issue? t = some x.2 := by
  cases a with
  | user i =>
    obtain ⟨y, hy, rfl⟩ := Option.map_eq_some_iff.mp (Option.mem_toList.mp h)
    obtain ⟨u, hu, hissue⟩ := Option.bind_eq_some_iff.mp hy
    exact ⟨u, rfl, hu, hissue⟩
  | take | tick | finish | deadline | wait => exact absurd h List.not_mem_nil

/-- A step of a user that is there issues its call. -/
theorem issue?_user {i : Nat} {u : User} (h : s.users[i]? = some u) :
    s.issue? t (.user i) = (u.issue? t).map fun x => (i, x) := by
  show (s.users[i]?.bind _).map _ = _
  rw [h]
  rfl

/-- Calls are issued by users of the run. -/
theorem user_lt_of_issuing (h : Issuing t s₀ issues s) : ∀ x ∈ issues, x.1 < s.users.size := by
  rw [size_of_mayReach h.mayReach]
  induction h with
  | start => exact fun _ hx => absurd hx List.not_mem_nil
  | @step issues s s' a hc _ ih =>
    intro x hx
    rcases List.mem_append.mp hx with hx | hx
    · exact ih x hx
    · obtain ⟨u, -, hu, -⟩ := exists_of_mem_issue? hx
      rw [← size_of_mayReach hc.mayReach]
      exact (Array.getElem?_eq_some_iff.mp hu).1
  | interrupt _ ih => exact ih

/-- What holds of the next call of every agenda holds of all calls that are issued. -/
theorem forall_issuing {P : Issue → Prop} (hnext : ∀ a : Agenda, P (a.issue t.plan))
    (h : Issuing t s₀ issues s) : ∀ x ∈ issues, P x.2 := by
  induction h with
  | start => exact fun _ h => absurd h List.not_mem_nil
  | @step issues s s' a _ _ ih =>
    intro x hx
    rcases List.mem_append.mp hx with hx | hx
    · exact ih x hx
    · obtain ⟨u, -, -, hu⟩ := exists_of_mem_issue? hx
      unfold User.issue? at hu
      split at hu
      · rw [← Option.some.inj hu]
        exact hnext u.agenda
      · cases hu
  | interrupt _ ih => exact ih

/-! ## The calls of one user -/

theorem issuesOf_append (xs ys : List (Nat × Issue)) (i : Nat) :
    issuesOf (xs ++ ys) i = issuesOf xs i ++ issuesOf ys i := by
  unfold issuesOf
  rw [List.filter_append, List.map_append]

/-- A call is one of those that its user issued. -/
theorem mem_issuesOf {x : Nat × Issue} (h : x ∈ issues) :
    x.2 ∈ issuesOf issues x.1 :=
  List.mem_map_of_mem (List.mem_filter.mpr ⟨h, decide_eq_true rfl⟩)

/-- An action of somebody else issues no call of a user. -/
theorem issuesOf_issue?_of_ne {a : Action} {i : Nat} (h : a ≠ .user i) :
    issuesOf (s.issue? t a).toList i = [] := by
  unfold issuesOf
  refine List.map_eq_nil_iff.mpr (List.filter_eq_nil_iff.mpr fun x hx hxi => h ?_)
  obtain ⟨u, ha, -⟩ := exists_of_mem_issue? hx
  rw [ha, of_decide_eq_true hxi]

/-- A step of a user issues the call that it is about to make, if any. -/
theorem issuesOf_issue? {i : Nat} {u : User} (h : s.users[i]? = some u) :
    issuesOf (s.issue? t (.user i)).toList i = (u.issue? t).toList := by
  rw [issue?_user h]
  cases u.issue? t with
  | none => rfl
  | some x =>
    show ([(i, x)].filter fun y => y.1 = i).map Prod.snd = [x]
    rw [List.filter_singleton, decide_eq_true rfl]
    rfl

/-- The calls of a user are the first ones of an agenda, and what it is going to call is
what follows.  A call that it waits for is the last one. -/
structure Follows (plan : Plan) (a : Agenda) (issues : List Issue) (u : User) : Prop where
  issues : issues = a.issues plan u.issued
  agenda : u.agenda = a.after plan u.issued
  waiting : ∀ since due x, u.phase = .calling since due x →
    x = ((a.after plan u.iterations).next plan).1

/-- A step of a user goes on with its agenda. -/
theorem Follows.move {a : Agenda} {l : List Issue} {u u' : User} {sh sh' : Shared}
    (h : Follows t.plan a l u) (hmove : u.Move t sh u' sh') :
    Follows t.plan a (l ++ (u.issue? t).toList) u' := by
  obtain ⟨hl, ha, hw⟩ := h
  cases hmove with
  | send x agenda log hp hnext =>
    simp only [User.issued, hp] at hl ha
    simp only [User.issue?, hp, Option.toList_some]
    have hagenda : (u.agenda.next t.plan).2 = agenda := by rw [hnext]
    have hx : (u.agenda.next t.plan).1 = x := by rw [hnext]
    refine ⟨?_, ?_, ?_⟩
    · show l ++ [u.agenda.issue t.plan] = a.issues t.plan (u.iterations + 1)
      rw [Agenda.issues_succ, hl, ha]
    · show agenda = ((a.after t.plan u.iterations).next t.plan).2
      rw [← ha, hagenda]
    · intro since due y hy
      obtain ⟨-, -, rfl⟩ := by simpa only [Phase.calling.injEq] using hy
      rw [← ha, hx]
  | receive since due x result ledger log hp =>
    simp only [User.issued, hp] at hl ha
    simp only [User.issue?, hp, Option.toList_none, List.append_nil]
    exact ⟨hl, ha, fun _ _ _ hy => by cases hy⟩
  | enter hp | cancel hp | expire hp | begin hp | proceed hp | claim _ hp | overrun _ hp
    | hangUp _ hp | deliver _ hp | resume _ hp | giveUp _ hp | leave _ _ hp =>
    simp only [User.issued, hp] at hl ha
    simp only [User.issue?, hp, Option.toList_none, List.append_nil]
    exact ⟨hl, ha, fun _ _ _ hy => by cases hy⟩

/-- The calls of every user are the first ones of the agenda that it started with, in
whatever order things happen. -/
theorem follows_of_issuing (h : Issuing t s₀ issues s) (h₀ : s₀.Fresh) {i : Nat} {u : User}
    (hi : s.users[i]? = some u) : ∃ u₀, s₀.users[i]? = some u₀ ∧
      Follows t.plan u₀.agenda (issuesOf issues i) u := by
  induction h generalizing u with
  | start =>
    obtain ⟨hp, hn⟩ := h₀.idle u (mem_of_getElem? hi)
    refine ⟨u, hi, ?_, ?_, fun _ _ _ hc => ?_⟩
    · simp only [User.issued, hp, hn]
      rfl
    · simp only [User.issued, hp, hn]
      rfl
    · rw [hp] at hc
      cases hc
  | @step issues s s' a hc ha ih =>
    rw [issuesOf_append]
    cases move_of_step? ha with
    | user j v v' sh hj hmove =>
      rw [getElem?_setUser hj] at hi
      -- the user whose step it is, and any other, which it leaves as it was
      by_cases he : j = i
      · subst he
        rw [if_pos rfl] at hi
        obtain rfl := Option.some.inj hi
        obtain ⟨u₀, hu₀, hf⟩ := ih hj
        rw [issuesOf_issue? hj]
        exact ⟨u₀, hu₀, hf.move hmove⟩
      · rw [if_neg he] at hi
        rw [issuesOf_issue?_of_ne fun h => he (Action.user.inj h), List.append_nil]
        exact ih hi
    | take | tick | finish | deadline | wait =>
      rw [issuesOf_issue?_of_ne (by simp), List.append_nil]
      exact ih hi
  | interrupt _ ih => exact ih hi

end System

namespace Engine

open ShardLoad.System

variable {c c' : Config} {o o' : RunOptions} {around around' : Surroundings} {t t' : Terms}
  {s s' s₀ s₀' : System}

/-- The plan of a run and its pool follow from the mix, the target and the payload alone. -/
theorem plan_congr {p p' : Plan × Pool} (htarget : c.target = c'.target)
    (hpayload : c.payload = c'.payload) (hscenario : c.scenario = c'.scenario)
    (h : plan c = .ok p) (h' : plan c' = .ok p') : p = p' := by
  obtain ⟨⟨⟩, -, h⟩ := exists_of_bind h
  obtain ⟨⟨⟩, -, h'⟩ := exists_of_bind h'
  unfold Config.weights at h h'
  rw [htarget, hpayload, hscenario] at h
  exact Except.ok.inj (h.symm.trans h')

/-- A run that was prepared was planned, and its users start with agendas of their own. -/
theorem exists_plan_of_prepare (h : prepare c o around = .ok (t, s₀)) :
    ∃ pool, plan c = .ok (t.plan, pool) ∧ ∀ {i : Nat} {u : User}, s₀.users[i]? = some u →
      u.agenda = ⟨source o around i, Selector.make pool c.target.selection i⟩ := by
  obtain ⟨⟨p, pool⟩, hplan, h⟩ := exists_of_bind h
  obtain ⟨rfl, rfl⟩ := Prod.mk.injEq .. ▸ Except.ok.inj h
  refine ⟨pool, hplan, fun {i u} hi => ?_⟩
  have hi : (users c o around pool)[i]? = some u := by
    rw [← List.getElem?_toArray]
    exact hi
  obtain ⟨j, hj, rfl⟩ := Option.map_eq_some_iff.mp (List.getElem?_map .. ▸ hi)
  obtain ⟨hlt, rfl⟩ := List.getElem?_eq_some_iff.mp hj
  rw [List.getElem_range]
  rfl

/-- A user starts with the same agenda, and follows the same plan, in all runs with one seed
and one mix, target and payload. -/
theorem agenda_congr {seed : UInt64} (h : prepare c o around = .ok (t, s₀))
    (h' : prepare c' o' around' = .ok (t', s₀')) (hseed : o.seed = some seed)
    (hseed' : o'.seed = some seed) (htarget : c.target = c'.target)
    (hpayload : c.payload = c'.payload) (hscenario : c.scenario = c'.scenario) {i : Nat}
    {u u' : User} (hi : s₀.users[i]? = some u) (hi' : s₀'.users[i]? = some u') :
    t.plan = t'.plan ∧ u.agenda = u'.agenda := by
  obtain ⟨pool, hplan, hagenda⟩ := exists_plan_of_prepare h
  obtain ⟨pool', hplan', hagenda'⟩ := exists_plan_of_prepare h'
  obtain ⟨hp, rfl⟩ := Prod.mk.injEq .. ▸ plan_congr htarget hpayload hscenario hplan hplan'
  refine ⟨hp, ?_⟩
  rw [hagenda hi, hagenda' hi', htarget]
  unfold source
  rw [hseed, hseed']

/-- A run without a cap whose rounds all take the same time comes to an end, and by then a user has
issued a call in every round. -/
theorem exists_issuing_run (h : prepare c o around = .ok (t, s₀)) (hsteady : t.Steady)
    (hround : 0 < t.round) (hclock : fitsClock c around = true) (hcap : o.cap = none) {i : Nat}
    (hi : i < c.settings.virtualUsers.toNat) : ∃ s issues u, Issuing t s₀ issues s ∧
      s.isOver = true ∧ s.users[i]? = some u ∧ u.issued = t.rounds := by
  obtain ⟨s, hs, -⟩ := exists_run h hround hclock
  obtain ⟨hr, hover⟩ := isOver_of_run? hs
  obtain ⟨issues, hc⟩ := exists_issuing hr.mayReach
  have hfresh := fresh_of_prepare h
  rw [← size_of_prepare h hr.mayReach] at hi
  have hu : s.users[i]? = some s.users[i] := Array.getElem?_eq_getElem hi
  refine ⟨s, issues, s.users[i], hc, hover, hu, ?_⟩
  have hgone := (isOver_iff.mp hover).2.2
  obtain ⟨exit, hp⟩ := exists_of_allGone hgone (mem_of_getElem? hu)
  have hin := inStep_of_reaches hsteady hround hr hfresh (capacity_pos_of_prepare h)
  have hshort := sum_overran_of_cap_eq_none hr.mayReach hfresh ((cap_of_prepare h).trans hcap)
  have hrounds := (iterations_of_inStep hin hgone (mem_of_getElem? hu)).2
  rw [hshort] at hrounds
  simp only [User.issued, hp]
  exact hrounds.resolve_left (Nat.lt_irrefl 0)

/-- **The calls of a user follow from the seed and the configured mix, target and payload.**
Two runs may differ in everything else: in how many users there are, how long they run, pause
and wait for replies, in how many calls may be made, in what answers them, when and how, and in
the order in which things happen and are interrupted.  Of the calls that a user has issued in
the one and in the other run, with their steps, endpoints and requests, the ones are the first
of the others. -/
theorem issues_prefix {seed : UInt64} (h : prepare c o around = .ok (t, s₀))
    (h' : prepare c' o' around' = .ok (t', s₀')) (hseed : o.seed = some seed)
    (hseed' : o'.seed = some seed) (htarget : c.target = c'.target)
    (hpayload : c.payload = c'.payload) (hscenario : c.scenario = c'.scenario)
    {issues issues' : List (Nat × Issue)} (hc : Issuing t s₀ issues s)
    (hc' : Issuing t' s₀' issues' s') {i : Nat} {u u' : User} (hi : s.users[i]? = some u)
    (hi' : s'.users[i]? = some u') :
    (issuesOf issues i).length = u.issued ∧ (issuesOf issues' i).length = u'.issued ∧
      (issuesOf issues i <+: issuesOf issues' i ∨ issuesOf issues' i <+: issuesOf issues i) := by
  obtain ⟨u₀, hu₀, hf⟩ := follows_of_issuing hc (fresh_of_prepare h) hi
  obtain ⟨u₀', hu₀', hf'⟩ := follows_of_issuing hc' (fresh_of_prepare h') hi'
  obtain ⟨hplan, hagenda⟩ :=
    agenda_congr h h' hseed hseed' htarget hpayload hscenario hu₀ hu₀'
  rw [hf.issues, hf'.issues, hplan, hagenda]
  refine ⟨Agenda.length_issues .., Agenda.length_issues .., ?_⟩
  exact (Nat.le_total u.issued u'.issued).imp (Agenda.issues_prefix_issues _ _)
    (Agenda.issues_prefix_issues _ _)

/-- The fifty calls that the third user of a hurried run issues, all of which time out, are the
first ones of the hundred and sixteen that it issues in a run of the built-in configuration. -/
theorem issues_prefix_hurried :
    ∃ t s₀ s issues t' s₀' s' issues',
      prepare Config.default ⟨none, some 7, false⟩
        ⟨.scripted ⟨.answer, .ofMillis 20⟩, 3, fun _ => .seeded 0, 0⟩ = .ok (t, s₀) ∧
      prepare { Config.default with settings := ⟨3, 5, 0, 100, none⟩ } ⟨none, some 7, true⟩
        ⟨.scripted ⟨.refused, .ofMillis 7000⟩, 0, fun _ => .seeded 0, 0⟩ = .ok (t', s₀') ∧
      Issuing t s₀ issues s ∧ s.isOver = true ∧ Issuing t' s₀' issues' s' ∧ s'.isOver = true ∧
      (issuesOf issues 2).length = 116 ∧ (issuesOf issues' 2).length = 50 ∧
      issuesOf issues' 2 <+: issuesOf issues 2 := by
  obtain ⟨t, s₀, h⟩ := exists_prepare (c := Config.default) (by decide +kernel)
    ⟨none, some 7, false⟩ ⟨.scripted ⟨.answer, .ofMillis 20⟩, 3, fun _ => .seeded 0, 0⟩
  obtain ⟨t', s₀', h'⟩ := exists_prepare
    (c := { Config.default with settings := ⟨3, 5, 0, 100, none⟩ }) (by decide +kernel)
    ⟨none, some 7, true⟩ ⟨.scripted ⟨.refused, .ofMillis 7000⟩, 0, fun _ => .seeded 0, 0⟩
  have hround : t.round = 520 := by
    rw [Terms.round, (times_of_prepare h).1, callTime_of_prepare rfl h]
    decide
  have hround' : t'.round = 100 := by
    rw [Terms.round, (times_of_prepare h').1, callTime_of_prepare rfl h']
    decide
  have hrounds : t.rounds = 116 := by
    rw [Terms.rounds, hround, (times_of_prepare h).2.1]
    decide
  have hrounds' : t'.rounds = 50 := by
    rw [Terms.rounds, hround', (times_of_prepare h').2.1]
    decide
  obtain ⟨s, issues, u, hc, hover, hu, hn⟩ :=
    exists_issuing_run h (steady_of_prepare rfl h) (by omega) (by decide) rfl (i := 2) (by decide)
  obtain ⟨s', issues', u', hc', hover', hu', hn'⟩ :=
    exists_issuing_run h' (steady_of_prepare rfl h') (by omega) (by decide) rfl (i := 2) (by decide)
  obtain ⟨hlength, hlength', hpre⟩ := issues_prefix h h' rfl rfl rfl rfl rfl hc hc' hu hu'
  rw [hn, hrounds] at hlength
  rw [hn', hrounds'] at hlength'
  refine ⟨t, s₀, s, issues, t', s₀', s', issues', h, h', hc, hover, hc', hover', hlength,
    hlength', hpre.resolve_left fun hle => ?_⟩
  have hle := hle.length_le
  omega

end Engine
end ShardLoad
