import ShardLoad.Proofs.Run.Requests

/-!
# Every call that is issued is booked

What a scripted service counts can be compared with what is booked.  Over any other transport
nobody counts the calls, but they are issued all the same: from then on a call is in the hands
of its user, as a call and later as a sample, then in the queue, and at last in the recorder.
So any quantity that a gauge reads off the recorder can be read off the calls that were issued,
whatever they went over.

* `Gauge.issued`: the reading at the calls that were issued.
* `System.accounts_of_issuing`: what was issued is booked, waits in the queue, or is in the hands
  of a user.
* `Engine.booked_eq_issued`: when a run is over, what was issued is booked and published.
* `System.bears_of_issuing`: every label that is booked, waits, or is in hand was issued.
-/

namespace ShardLoad

/-- What the calls of a list count. -/
def Gauge.issued {host : String} (g : Gauge host) (issues : List (Nat × Issue)) : Nat :=
  (issues.map fun x => g.weight x.2.call.operation (some x.2.endpoint.label)).sum

theorem Gauge.issued_append {host : String} (g : Gauge host) (xs ys : List (Nat × Issue)) :
    g.issued (xs ++ ys) = g.issued xs + g.issued ys := by
  rw [issued, List.map_append, List.sum_append]
  rfl

/-- A gauge of a port counts the calls to its endpoint. -/
theorem Gauge.issued_port {host : String} {issues : List (Nat × Issue)}
    (h : ∀ x ∈ issues, x.2.endpoint.host = host) (p : UInt16) :
    (Gauge.port host p).issued issues = issues.countP fun x => x.2.endpoint = ⟨host, p⟩ := by
  induction issues with
  | nil => rfl
  | cons x issues ih =>
    obtain ⟨hx, h⟩ := List.forall_mem_cons.mp h
    have hsame : some x.2.endpoint.label = some (Endpoint.mk host p).label ↔
        x.2.endpoint = ⟨host, p⟩ := by
      rw [Option.some.injEq, Endpoint.eq_of_host hx, Endpoint.label_inj, Endpoint.mk.injEq,
        and_iff_right rfl]
    have ih : (issues.map _).sum = _ := ih h
    rw [List.countP_cons, ← ih, issued, List.map_cons, List.sum_cons, Nat.add_comm]
    simp only [Gauge.port, hsame, decide_eq_true_iff]

/-- Whether the label of a sample, if it has one, is of a kind. -/
def Sample.Bears (P : String → Prop) (x : Sample) : Prop := ∀ label, x.shard = some label → P label

/-- Whether the label that a user has in hand, if any, is of a kind. -/
def User.Bears (P : String → Prop) (u : User) : Prop :=
  match u.phase with
  | .calling _ _ a => P a.endpoint.label
  | .delivering x => x.Bears P
  | _ => True

namespace System

variable {host : String} {t : Terms} {s s₀ : System} {issues : List (Nat × Issue)}

/-- The keyed lists of the recorder are always in order. -/
theorem ordered_of_mayReach (h : MayReach t s₀ s) (h₀ : s₀.Fresh) : s.recorder.Ordered := by
  refine MayReach.invariant (P := fun s => s.recorder.Ordered) h ?_ ?_ fun _ hs => hs
  · obtain ⟨interval, hi⟩ := h₀.recorder
    rw [hi]
    exact Recorder.ordered_new interval
  · intro s s' a _ hs hm
    cases hm with
    | take x rest => exact Recorder.ordered_record hs x
    | tick | finish => exact Recorder.ordered_recordAll hs _
    | user | deadline | wait => exact hs

/-- A step of a user moves a call on, and only issuing makes a new one. -/
theorem issued_of_userMove (g : Gauge host) {u u' : User} {sh sh' : Shared} (i : Nat)
    (hopen : sh.channel.closed = false) (h : u.Move t sh u' sh') :
    g.issued ((u.issue? t).map fun x => (i, x)).toList + g.inQueue sh.channel.queue +
        g.inHand u =
      g.inQueue sh'.channel.queue + g.inHand u' := by
  cases h with
  | send a agenda log hp hnext =>
    have ha : (u.agenda.next t.plan).1 = a := by rw [hnext]
    simp only [User.issue?, hp, Gauge.inHand, Gauge.issued, Option.map_some, Option.toList_some,
      List.map_singleton, List.sum_singleton, Agenda.issue, ha]
    omega
  | receive since due a result ledger log hp =>
    simp only [User.issue?, hp, Gauge.inHand, Gauge.issued, Option.map_none, Option.toList_none,
      List.map_nil, List.sum_nil, Nat.zero_add]
  | hangUp x hp hc => exact absurd (hopen.symm.trans hc) (by simp)
  | deliver x hp hc hf =>
    simp only [User.issue?, hp, Gauge.inHand, Gauge.inQueue, Gauge.issued, Channel.push,
      List.map_append, List.sum_append, List.map_singleton, List.sum_singleton, Option.map_none,
      Option.toList_none, List.map_nil, List.sum_nil]
    omega
  | enter hp | cancel hp | expire hp | begin hp | proceed hp | claim _ hp | overrun _ hp
    | resume _ hp | giveUp _ hp | leave _ _ hp =>
    simp only [User.issue?, hp, Gauge.inHand, User.leave, Gauge.issued, Option.map_none,
      Option.toList_none, List.map_nil, List.sum_nil, Nat.zero_add]

/-- What was issued is booked, waits in the queue, or is in the hands of a user. -/
def Accounts (g : Gauge host) (issues : List (Nat × Issue)) (s : System) : Prop :=
  g.issued issues = g.booked s.recorder + g.inQueue s.shared.channel.queue + s.sum g.inHand

/-- Whatever happens, what was issued is booked, waits in the queue, or is in the hands of a
user. -/
theorem accounts_of_issuing (g : Gauge host) (h : Issuing t s₀ issues s) (h₀ : s₀.Fresh) :
    Accounts g issues s := by
  induction h with
  | start =>
    obtain ⟨interval, hi⟩ := h₀.recorder
    have hzero : s₀.sum g.inHand = 0 := by
      apply sum_eq_zero
      intro u hu
      simp only [Gauge.inHand, (h₀.idle u hu).1]
    rw [Accounts, hi, h₀.queue, hzero, g.booked_new]
    rfl
  | @step issues s s' a hc ha ih =>
    have ih : g.issued issues = g.booked s.recorder + g.inQueue s.shared.channel.queue +
      s.sum g.inHand := ih
    have hordered := ordered_of_mayReach hc.mayReach h₀
    have hall := g.booked_recordAll hordered s.shared.channel.queue
    show g.issued (issues ++ _) = _
    rw [g.issued_append, ih]
    -- users make calls and hand them on, the collector books them, and time moves none
    cases move_of_step? ha with
    | user i u u' sh hi hmove =>
      have hstep := issued_of_userMove g i (opened_of_mayReach hc.mayReach h₀) hmove
      have hsum := sum_setUser hi g.inHand u' sh
      rw [issue?_user hi]
      show _ = g.booked s.recorder + g.inQueue sh.channel.queue + (s.setUser i u' sh).sum g.inHand
      omega
    | take x rest hcol hq =>
      have hbook := g.booked_record s.recorder x hordered
      have hqueue : g.inQueue s.shared.channel.queue =
          g.weight x.operation x.shard + g.inQueue rest := by
        rw [hq]
        simp only [Gauge.inQueue, List.map_cons, List.sum_cons]
      show _ + 0 = g.booked (s.recorder.record x) + g.inQueue rest + s.sum g.inHand
      omega
    | tick | finish =>
      show _ + 0 = g.booked (s.recorder.recordAll s.shared.channel.queue) + 0 + s.sum g.inHand
      omega
    | deadline | wait => rfl
  | interrupt _ ih => exact ih

/-! ## Nothing else is booked -/

/-- Whether all labels that are booked, wait in the queue, or are in the hands of a user are of
a kind. -/
structure Bears (P : String → Prop) (s : System) : Prop where
  users : ∀ u ∈ s.users, u.Bears P
  queue : ∀ x ∈ s.shared.channel.queue, x.Bears P
  fed : s.recorder.Fed P

/-- A step of a user hands on the label that it has in hand, and only issuing makes a new one. -/
theorem bears_of_userMove {P : String → Prop} {u u' : User} {sh sh' : Shared}
    (hissue : ∀ x, u.issue? t = some x → P x.endpoint.label) (h : u.Move t sh u' sh')
    (hu : u.Bears P) (hqueue : ∀ x ∈ sh.channel.queue, x.Bears P) :
    u'.Bears P ∧ ∀ x ∈ sh'.channel.queue, x.Bears P := by
  cases h with
  | send a agenda log hp hnext =>
    refine ⟨?_, hqueue⟩
    have ha : (u.agenda.next t.plan).1 = a := by rw [hnext]
    have hlabel := hissue (u.agenda.issue t.plan) (by simp only [User.issue?, hp])
    rw [← ha]
    exact hlabel
  | receive since due a result ledger log hp =>
    simp only [User.Bears, hp] at hu
    refine ⟨fun label hlabel => ?_, hqueue⟩
    rw [← Option.some.inj hlabel]
    exact hu
  | deliver x hp =>
    simp only [User.Bears, hp] at hu
    refine ⟨trivial, fun y hy => ?_⟩
    rcases List.mem_append.mp hy with hy | hy
    · exact hqueue y hy
    · rw [List.mem_singleton.mp hy]
      exact hu
  | enter | cancel | expire | begin | proceed | claim | overrun | hangUp | resume | giveUp
    | leave =>
    exact ⟨trivial, hqueue⟩

/-- Whatever happens, all labels are of a kind if those of the calls that were issued are. -/
theorem bears_of_issuing {P : String → Prop} (h : Issuing t s₀ issues s) (h₀ : s₀.Fresh)
    (hissues : ∀ x ∈ issues, P x.2.endpoint.label) : Bears P s := by
  induction h with
  | start =>
    obtain ⟨interval, hi⟩ := h₀.recorder
    refine ⟨fun u hu => ?_, fun x hx => ?_, hi ▸ Recorder.fed_new P interval⟩
    · simp only [User.Bears, (h₀.idle u hu).1]
    · rw [h₀.queue] at hx
      exact absurd hx List.not_mem_nil
  | @step issues s s' a hc ha ih =>
    have ih := ih fun x hx => hissues x (List.mem_append_left _ hx)
    cases move_of_step? ha with
    | user i u u' sh hi hmove =>
      have hissue : ∀ x, u.issue? t = some x → P x.endpoint.label := by
        intro x hx
        refine hissues (i, x) (List.mem_append_right _ (Option.mem_toList.mpr ?_))
        rw [issue?_user hi, hx]
        rfl
      have hu := ih.users u (mem_of_getElem? hi)
      obtain ⟨hu', hqueue⟩ := bears_of_userMove hissue hmove hu ih.queue
      exact ⟨forall_setUser i sh ih.users hu', hqueue, ih.fed⟩
    | take x rest hcol hq =>
      have hall : ∀ y ∈ x :: rest, y.Bears P := hq ▸ ih.queue
      exact ⟨ih.users, fun y hy => hall y (List.mem_cons_of_mem _ hy),
        Recorder.fed_record ih.fed (hall x List.mem_cons_self)⟩
    | tick | finish =>
      exact ⟨ih.users, fun x hx => absurd hx List.not_mem_nil,
        Recorder.fed_recordAll ih.fed ih.queue⟩
    | deadline | wait => exact ⟨ih.users, ih.queue, ih.fed⟩
  | interrupt _ ih =>
    have ih := ih hissues
    exact ⟨ih.users, ih.queue, ih.fed⟩

end System

namespace Engine

open ShardLoad.System

variable {c : Config} {o : RunOptions} {around : Surroundings} {t : Terms} {s₀ s : System}

/-- When a run is over, what was issued is booked and published. -/
theorem booked_eq_issued {host : String} (g : Gauge host) {issues : List (Nat × Issue)}
    (h : prepare c o around = .ok (t, s₀)) (hc : Issuing t s₀ issues s)
    (hover : s.isOver = true) : g.booked s.published = g.issued issues := by
  have hfresh := fresh_of_prepare h
  have haccounts : g.issued issues = g.booked s.recorder + g.inQueue s.shared.channel.queue +
    s.sum g.inHand := accounts_of_issuing g hc hfresh
  obtain ⟨hpub, hqueue, hgone⟩ := settled_of_mayReach hc.mayReach hfresh (isOver_iff.mp hover).1
  rw [haccounts, hpub, hqueue, sum_inHand_of_allGone g hgone]
  rfl

end Engine
end ShardLoad
