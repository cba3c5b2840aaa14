import Mathlib.Data.List.Chain
import ShardLoad.Proofs.Run.Ending
import ShardLoad.Proofs.Run.Spans

/-!
# Deadline, pacing and drain

A user makes no call once the time of the run is over, and none before its pause after the
last one is over.  It may find its pause cut short by the end of the run, but then it makes
no more calls; and a pause that is interrupted because the run was cancelled is followed by
none either.  A call that was made in time is waited for, which takes no longer than a call
may take, and so the run is over at most that long after its time.

All this is carried by one relation between what a user is doing, the clock, and the calls
that it has behind it.  It needs no fixed length of a round.

* `User.Spaced`, `System.Paced`: the relation.
* `paced_of_course`, `now_lt_of_course`: it holds, and the clock stays in bounds.
* `Engine.calls_spaced`: the calls of a run in time.
-/

namespace ShardLoad

/-- What a user may be doing at a moment after the calls that it has behind it. -/
def User.Spaced (t : Terms) (now : Nat) (ended : List Span) (u : User) : Prop :=
  match u.phase with
  | .idle => ended = []
  | .ready => (∀ x ∈ ended.getLast?, x.till + t.pacing ≤ now) ∨ t.deadline ≤ now
  | .claiming => now < t.deadline ∧ ∀ x ∈ ended.getLast?, x.till + t.pacing ≤ now
  | .admitted => now < t.deadline ∧ ∀ x ∈ ended.getLast?, x.till + t.pacing ≤ now
  | .calling since due _ => since < t.deadline ∧ due ≤ since + t.timeout.ceilMillis ∧
      since ≤ now ∧ now ≤ due ∧ ∀ x ∈ ended.getLast?, x.till + t.pacing ≤ since
  | .delivering _ => ∀ x ∈ ended.getLast?, x.till ≤ now
  | .pausing wake => wake ≤ t.deadline ∧
      ∀ x ∈ ended.getLast?, x.till ≤ now ∧ min (x.till + t.pacing) t.deadline ≤ wake
  | .leaving _ => True
  | .gone _ => True

namespace System

variable {t : Terms} {s s₀ : System} {b : Bool} {spans : List Span} {now : Nat} {u : User}

/-- Whether a call was made in time and took no longer than it may. -/
def Within (t : Terms) (x : Span) : Prop :=
  x.since < t.deadline ∧ x.since ≤ x.till ∧ x.till ≤ x.since + t.timeout.ceilMillis

/-- Whether there is a pause between two calls. -/
def Apart (t : Terms) (x y : Span) : Prop := x.till + t.pacing ≤ y.since

/-- The calls of a user are in time and apart. -/
structure Paced (t : Terms) (now : Nat) (ended : List Span) (u : User) : Prop where
  within : ∀ x ∈ ended, Within t x
  apart : ended.IsChain (Apart t)
  spaced : u.Spaced t now ended

/-- A call that a user waits for is in time and apart from the ones before. -/
theorem Paced.append_underWay? {i : Nat} (h : Paced t now spans u) :
    (∀ x ∈ spans ++ (u.underWay? i now).toList, Within t x) ∧
      (spans ++ (u.underWay? i now).toList).IsChain (Apart t) := by
  cases hx : u.underWay? i now with
  | none =>
    rw [Option.toList_none, List.append_nil]
    exact ⟨h.within, h.apart⟩
  | some x =>
    have hs := h.spaced
    unfold User.Spaced at hs
    unfold User.underWay? at hx
    split at hx
    · rename_i since due a hp
      rw [hp] at hs
      obtain ⟨hd, hdue, hfrom, hto, hlast⟩ := hs
      rw [← Option.some.inj hx, Option.toList_some]
      refine ⟨?_, List.isChain_append.mpr ⟨h.apart, .singleton _, ?_⟩⟩
      · intro y hy
        rcases List.mem_append.mp hy with hy | hy
        · exact h.within y hy
        · rw [List.mem_singleton.mp hy]
          exact ⟨hd, hfrom, Nat.le_trans hto hdue⟩
      · intro y hy z hz
        obtain rfl : (⟨i, since, now⟩ : Span) = z := by simpa using hz
        exact hlast y hy
    · exact absurd hx (by simp)

/-- A step of a user keeps its calls in time and apart. -/
theorem Paced.move {i : Nat} {u' : User} {sh sh' : Shared} (hmove : u.Move t sh u' sh')
    (h : Paced t sh.now spans u) :
    Paced t sh.now (spans ++ (u.underWay? i sh.now).toList) u' := by
  obtain ⟨hwithin, hapart⟩ := h.append_underWay? (i := i)
  refine ⟨hwithin, hapart, ?_⟩
  have hs := h.spaced
  unfold User.Spaced at hs
  cases hmove with
  | receive since due a result ledger log hp =>
    simp only [User.underWay?, hp, Option.toList_some]
    intro x hx
    rw [List.getLast?_concat] at hx
    rw [← Option.some.inj hx]
  | enter hp =>
    simp only [User.underWay?, hp, Option.toList_none, List.append_nil] at hs ⊢
    exact Or.inl (by rw [hs]; simp)
  | begin hp hc hd =>
    simp only [User.underWay?, hp, Option.toList_none, List.append_nil] at hs ⊢
    exact ⟨hd, hs.resolve_right (Nat.not_le.mpr hd)⟩
  | proceed hp | claim _ hp =>
    simp only [User.underWay?, hp, Option.toList_none, List.append_nil] at hs ⊢
    exact hs
  | send a agenda log hp =>
    simp only [User.underWay?, hp, Option.toList_none, List.append_nil] at hs ⊢
    exact ⟨hs.1, Nat.add_le_add_left (t.transport.millis_le _ _) _, Nat.le_refl _,
      Nat.le_add_right _ _, hs.2⟩
  | deliver x hp =>
    simp only [User.underWay?, hp, Option.toList_none, List.append_nil] at hs ⊢
    refine ⟨Nat.min_le_right _ _, fun y hy => ⟨hs y hy, ?_⟩⟩
    have hle := hs y hy
    show min (y.till + t.pacing) t.deadline ≤ min (sh.now + t.pacing) t.deadline
    omega
  | resume wake hp hw =>
    simp only [User.underWay?, hp, Option.toList_none, List.append_nil] at hs ⊢
    show (∀ x ∈ spans.getLast?, x.till + t.pacing ≤ sh.now) ∨ t.deadline ≤ sh.now
    -- a pause that was cut short ends with the run, and then no call follows it
    by_cases hd : t.deadline ≤ sh.now
    · exact Or.inr hd
    · left
      intro x hx
      obtain ⟨htill, hwake⟩ := hs.2 x hx
      omega
  | cancel hp | expire hp | overrun _ hp | hangUp _ hp | giveUp _ hp | leave _ _ hp => trivial

/-- The clock keeps the calls of users in time and apart. -/
theorem Paced.wait {next : Nat} (hw : Waits t now next u) (hnext : now ≤ next)
    (h : Paced t now spans u) : Paced t next spans u := by
  refine ⟨h.within, h.apart, ?_⟩
  have hs := h.spaced
  unfold User.Spaced at hs ⊢
  cases hw with
  | calling since due a hp _ hle =>
    rw [hp] at hs ⊢
    obtain ⟨hd, hdue, hfrom, -, hlast⟩ := hs
    exact ⟨hd, hdue, Nat.le_trans hfrom hnext, hle, hlast⟩
  | pausing wake hp =>
    rw [hp] at hs ⊢
    exact ⟨hs.1, fun x hx => ⟨Nat.le_trans (hs.2 x hx).1 hnext, (hs.2 x hx).2⟩⟩
  | gone exit hp =>
    rw [hp]
    trivial

/-- The calls of all users are in time and apart, in whatever order things happen. -/
theorem paced_of_course (h : Course t s₀ b spans s) (h₀ : s₀.Fresh)
    (hroom : 0 < s₀.shared.channel.capacity) {i : Nat} (hi : s.users[i]? = some u) :
    Paced t s.shared.now (spansOf spans i) u := by
  refine h.forall_users (P := fun _ => Paced t) h₀ hroom (fun hp _ => ?_)
    (fun _ _ hmove hs => hs.move hmove) (fun hw hnext hs => hs.wait hw hnext) (fun hs => hs) hi
  refine ⟨fun x hx => absurd hx List.not_mem_nil, .nil, ?_⟩
  unfold User.Spaced
  rw [hp]

/-- The calls of every user are in time and apart, with the ones that are waited for. -/
theorem calls_paced (h : Course t s₀ b spans s) (h₀ : s₀.Fresh)
    (hroom : 0 < s₀.shared.channel.capacity) (i : Nat) :
    (∀ x ∈ s.callsOf spans i, Within t x) ∧ (s.callsOf spans i).IsChain (Apart t) := by
  unfold callsOf
  cases hi : s.users[i]? with
  | some u => exact (paced_of_course h h₀ hroom hi).append_underWay?
  | none =>
    have hnil : spansOf spans i = [] := by
      refine List.filter_eq_nil_iff.mpr ?_
      intro x hx hxi
      have hlt := h.user_lt x hx
      rw [of_decide_eq_true hxi] at hlt
      exact absurd (Array.getElem?_eq_none_iff.mp hi) (Nat.not_le.mpr hlt)
    rw [hnil]
    exact ⟨fun x hx => absurd hx List.not_mem_nil, .nil⟩

/-! ## The end of a run -/

/-- A user that waits waits for a moment before the end of the calls that were made in time. -/
theorem lt_of_waits {next : Nat} (hw : Waits t now next u) (hs : u.Spaced t now spans)
    (hgone : u.isGone = false) (hpos : 0 < t.timeout.ceilMillis) :
    next < t.deadline + t.timeout.ceilMillis := by
  unfold User.Spaced at hs
  cases hw with
  | calling since due a hp _ hle =>
    rw [hp] at hs
    obtain ⟨hd, hdue, -⟩ := hs
    omega
  | pausing wake hp _ _ hle =>
    rw [hp] at hs
    obtain ⟨hwake, -⟩ := hs
    omega
  | gone exit hp =>
    unfold User.isGone at hgone
    rw [hp] at hgone
    exact absurd hgone (by simp)

/-- The clock never gets past the time of the run by as much as a call may take. -/
theorem now_lt_of_course (h : Course t s₀ b spans s) (h₀ : s₀.Fresh)
    (hroom : 0 < s₀.shared.channel.capacity) (hpos : 0 < t.timeout.ceilMillis) :
    s.shared.now < t.deadline + t.timeout.ceilMillis := by
  induction h with
  | start =>
    rw [h₀.now]
    exact Nat.lt_add_left _ hpos
  | @step b spans s s' a hc ha ih =>
    cases move_of_step? ha with
    | user i u u' sh hi hmove =>
      show sh.now < _
      rw [now_of_userMove hmove]
      exact ih
    | wait m hi hm =>
      show m < _
      rcases deadline_or_exists_of_timer? hi hm with ⟨-, rfl⟩ | ⟨u, hu, hgone⟩
      · exact Nat.lt_add_of_pos_right hpos
      · obtain ⟨i, hlt, hget⟩ := Array.getElem_of_mem hu
        have hui : s.users[i]? = some u := Array.getElem?_eq_some_iff.mpr ⟨hlt, hget⟩
        have hspaced := (paced_of_course hc h₀ hroom hui).spaced
        exact lt_of_waits (waits_of_wait hc.mayReach h₀ hroom hi hm hu) hspaced hgone hpos
    | take | tick | finish | deadline => exact ih
  | interrupt _ ih => exact ih

/-- A run that is over before its time was interrupted or cut short by its cap. -/
theorem cause_of_isOver (h : Course t s₀ b spans s) (h₀ : s₀.Fresh) (hover : s.isOver = true) :
    b = true ∨ t.deadline ≤ s.shared.now ∨ ∃ u ∈ s.users, u.phase = .gone .iterationCap := by
  cases b with
  | true => exact Or.inl rfl
  | false =>
    obtain ⟨-, hcan, hgone⟩ := isOver_iff.mp hover
    refine Or.inr ((excused_of_reaches (h.reaches rfl) h₀ hcan).imp_right ?_)
    intro hpos
    by_contra hnone
    have hzero : s.sum User.overran = 0 := by
      apply sum_eq_zero
      intro u hu
      obtain ⟨exit, hp⟩ := exists_of_allGone hgone hu
      cases exit with
      | iterationCap => exact absurd ⟨u, hu, hp⟩ hnone
      | deadline | cancelled | channelClosed => simp only [User.overran, hp]
    omega

end System

namespace Engine

open ShardLoad.System

variable {c : Config} {o : RunOptions} {around : Surroundings} {t : Terms} {s₀ s : System}
  {b : Bool} {spans : List Span}

/-- How long a call may take is configured in whole milliseconds. -/
theorem ceilMillis_of_prepare (h : prepare c o around = .ok (t, s₀)) :
    t.timeout.ceilMillis = c.settings.timeout.toNat := by
  rw [(times_of_prepare h).2.2, Duration.ceilMillis_ofMillis]

/-- **The calls of a run in time**, in whatever order things happen and whether or not the run
is interrupted.  No call of any user is made once the time of the run is over, and none takes
longer than it may; after each call of a user the pause passes before its next one.  When the
run is over, its time is exceeded by less than a call may take, and it has taken all its time
unless it was interrupted or its cap stopped it. -/
theorem calls_spaced (h : prepare c o around = .ok (t, s₀)) (hc : Course t s₀ b spans s) :
    (∀ i, (∀ u, s.users[i]? = some u → (s.callsOf spans i).length = u.issued) ∧
      (∀ x ∈ s.callsOf spans i, x.since < 1000 * c.settings.durationSecs.toNat ∧
        x.since ≤ x.till ∧ x.till ≤ x.since + c.settings.timeout.toNat) ∧
      (s.callsOf spans i).IsChain fun x y => x.till + c.settings.pacing.toNat ≤ y.since) ∧
    (s.isOver = true →
      (finish s).result.elapsed.millis <
        1000 * c.settings.durationSecs.toNat + c.settings.timeout.toNat ∧
      (b = true ∨ 1000 * c.settings.durationSecs.toNat ≤ (finish s).result.elapsed.millis ∨
        ∃ u ∈ s.users, u.phase = .gone .iterationCap)) := by
  have hfresh := fresh_of_prepare h
  have hroom := capacity_pos_of_prepare h
  have hcall := ceilMillis_of_prepare h
  have hvalid := (exists_of_prepare h).1
  obtain ⟨hpacing, hdeadline, -⟩ := times_of_prepare h
  constructor
  · intro i
    obtain ⟨hwithin, hapart⟩ := calls_paced hc hfresh hroom i
    refine ⟨fun u hu => length_callsOf hc hfresh hroom hu, ?_, ?_⟩
    · intro x hx
      obtain ⟨hd, hfrom, hto⟩ := hwithin x hx
      exact ⟨hdeadline ▸ hd, hfrom, hcall ▸ hto⟩
    · rw [← hpacing]
      exact hapart
  · intro hover
    have hlt := now_lt_of_course hc hfresh hroom (hcall ▸ (pos_of_validate hvalid).2.2)
    have hmillis : (finish s).result.elapsed.millis = s.shared.now := Duration.millis_ofMillis _
    rw [hmillis, ← hdeadline, ← hcall]
    exact ⟨hlt, cause_of_isOver hc hfresh hover⟩

/-- The run of the built-in configuration takes its minute, and no five seconds more. -/
theorem calls_spaced_default :
    ∃ f, run Config.default ⟨none, some 1, false⟩
        ⟨.scripted ⟨.answer, .ofMillis 20⟩, 3, fun _ => .seeded 0, 0⟩ = .ok f ∧
      60000 ≤ f.result.elapsed.millis ∧ f.result.elapsed.millis < 65000 := by
  obtain ⟨t, s₀, s, hprep, hs, hrun⟩ := exists_run_default ⟨none, some 1, false⟩
    ⟨.scripted ⟨.answer, .ofMillis 20⟩, 3, fun _ => .seeded 0, 0⟩ (by decide)
  obtain ⟨hr, hover⟩ := isOver_of_run? hs
  obtain ⟨spans, hc⟩ := exists_course hr
  obtain ⟨hlt, hcause⟩ := (calls_spaced hprep hc).2 hover
  refine ⟨finish s, hrun, ?_, hlt⟩
  rcases hcause with hb | hd | ⟨u, hu, hp⟩
  · exact absurd hb (by simp)
  · exact hd
  · have hnone := sum_overran_of_cap_eq_none hr.mayReach (fresh_of_prepare hprep)
      (cap_of_prepare hprep)
    exact absurd (sum_overran_pos hu hp) (by rw [hnone]; exact Nat.lt_irrefl 0)

end Engine
end ShardLoad
