import ShardLoad.Proofs.Run.Collector

/-!
# The clock

Time stands still while anything can happen.  When nothing can, the clock goes to the
first moment that anybody waits for: the end of a call or of a pause, the end of the
run, or the next publication.  That moment lies ahead, and it is nobody's second.

* `System.Awaits`: the moments that somebody waits for, with `awaits_of_timer?` and
  `le_of_awaits`: the clock goes to the first of them.
* `System.Idle`, `idle_of_isIdle`: what cannot happen when the clock moves.
* `System.Waits`, `waits_of_wait`: what users do when the clock moves.
* `deadline_or_exists_of_timer?`: whom the clock moves for.
* `now_lt_of_timer?`: the clock goes forward.
-/

namespace ShardLoad.System

variable {t : Terms} {s s₀ s' : System}

/-! ## The first moment -/

/-- The earlier of two moments is one of them. -/
theorem eq_some_of_earlier {a b : Option Nat} {m : Nat} (h : earlier a b = some m) :
    a = some m ∨ b = some m := by
  cases a with
  | none => exact Or.inr h
  | some x =>
    cases b with
    | none => exact Or.inl h
    | some y =>
      have hm : min x y = m := Option.some.inj h
      rcases Nat.le_total x y with hxy | hxy
      · exact Or.inl (by rw [← hm, Nat.min_eq_left hxy])
      · exact Or.inr (by rw [← hm, Nat.min_eq_right hxy])

/-- A moment is not after the earlier of two exactly when it is after neither. -/
theorem forall_le_earlier {a b : Option Nat} {m : Nat} :
    (∀ x ∈ earlier a b, m ≤ x) ↔ (∀ x ∈ a, m ≤ x) ∧ ∀ x ∈ b, m ≤ x := by
  cases a with
  | none => simp [earlier]
  | some x => cases b <;> simp [earlier]

theorem isSome_earlier (a b : Option Nat) : (earlier a b).isSome = (a.isSome || b.isSome) := by
  cases a <;> cases b <;> rfl

section List

variable {α : Type} (g : α → Option Nat)

/-- The first moment of a list and of one more is one of them. -/
theorem eq_some_of_foldl_earlier {l : List α} {first : Option Nat} {m : Nat}
    (h : l.foldl (fun first x => earlier first (g x)) first = some m) :
    first = some m ∨ ∃ x ∈ l, g x = some m := by
  induction l generalizing first with
  | nil => exact Or.inl h
  | cons x l ih =>
    rcases ih h with he | ⟨y, hy, hg⟩
    · rcases eq_some_of_earlier he with hf | hg
      · exact Or.inl hf
      · exact Or.inr ⟨x, List.mem_cons_self, hg⟩
    · exact Or.inr ⟨y, List.mem_cons_of_mem _ hy, hg⟩

/-- None of a list and of one more is before the first moment. -/
theorem forall_le_foldl_earlier {l : List α} {first : Option Nat} {m : Nat} :
    (∀ y ∈ l.foldl (fun first x => earlier first (g x)) first, m ≤ y) ↔
      (∀ y ∈ first, m ≤ y) ∧ ∀ x ∈ l, ∀ y ∈ g x, m ≤ y := by
  induction l generalizing first with
  | nil => simp
  | cons x l ih => rw [List.foldl_cons, ih, forall_le_earlier, List.forall_mem_cons, and_assoc]

theorem isSome_foldl_earlier (l : List α) (first : Option Nat) :
    (l.foldl (fun first x => earlier first (g x)) first).isSome =
      (first.isSome || l.any fun x => (g x).isSome) := by
  induction l generalizing first with
  | nil => simp
  | cons x l ih => rw [List.foldl_cons, ih, isSome_earlier, List.any_cons, Bool.or_assoc]

end List

/-- The moments that somebody waits for. -/
inductive Awaits (t : Terms) (s : System) : Nat → Prop
  | user {u : User} {m : Nat} : u ∈ s.users → u.timer? t = some m → Awaits t s m
  | deadline : s.shared.cancelled = false → Awaits t s t.deadline
  | tick : s.collecting = true → Awaits t s s.nextTick

/-- The clock goes to a moment that somebody waits for. -/
theorem awaits_of_timer? {m : Nat} (h : s.timer? t = some m) : s.Awaits t m := by
  unfold timer? at h
  rw [← Array.foldl_toList] at h
  rcases eq_some_of_foldl_earlier (fun u : User => u.timer? t) h with he | ⟨u, hu, hg⟩
  · rcases eq_some_of_earlier he with hm | hm
    · obtain ⟨hc, hm⟩ := Option.ite_none_right_eq_some.mp hm
      rw [← Option.some.inj hm]
      exact .tick hc
    · obtain ⟨hc, hm⟩ := Option.ite_none_left_eq_some.mp hm
      rw [← Option.some.inj hm]
      exact .deadline (Bool.eq_false_iff.mpr hc)
  · exact .user (Array.mem_toList_iff.mp hu) hg

/-- The clock goes past no moment that somebody waits for. -/
theorem le_of_awaits {m m' : Nat} (h : s.timer? t = some m) (hm : s.Awaits t m') : m ≤ m' := by
  unfold timer? at h
  rw [← Array.foldl_toList] at h
  have hall := (forall_le_foldl_earlier (fun u : User => u.timer? t)).mp
    fun y hy => Nat.le_of_eq (Option.some.inj (h.symm.trans hy))
  obtain ⟨hbase, husers⟩ := hall
  obtain ⟨htick, hdeadline⟩ := forall_le_earlier.mp hbase
  cases hm with
  | user hu hg => exact husers _ (Array.mem_toList_iff.mpr hu) _ hg
  | deadline hc => exact hdeadline _ (by rw [hc]; rfl)
  | tick hc => exact htick _ (by rw [hc]; rfl)

/-- There is a moment to go to if somebody waits for one. -/
theorem isSome_timer? {m : Nat} (h : s.Awaits t m) : (s.timer? t).isSome = true := by
  unfold timer?
  rw [← Array.foldl_toList, isSome_foldl_earlier, isSome_earlier, Bool.or_eq_true, Bool.or_eq_true]
  cases h with
  | user hu hg =>
    refine Or.inr (List.any_eq_true.mpr ⟨_, Array.mem_toList_iff.mpr hu, ?_⟩)
    rw [hg]
    rfl
  | deadline hc => exact Or.inl (Or.inr (by rw [hc]; rfl))
  | tick hc => exact Or.inl (Or.inl (by rw [hc]; rfl))

/-! ## Idle systems -/

/-- What cannot happen while the clock moves. -/
structure Idle (t : Terms) (s : System) : Prop where
  users : ∀ u ∈ s.users, u.canStep t s.shared = false
  queue : s.collecting = true → s.shared.channel.queue = []
  tick : s.collecting = true → s.shared.now < s.nextTick
  deadline : s.shared.cancelled = false → s.shared.now < t.deadline
  finish : s.collecting = true → s.allGone = false

/-- When nothing can happen, each kind of action is impossible. -/
theorem idle_of_isIdle (h : s.isIdle t = true) : s.Idle t := by
  unfold isIdle at h
  simp only [Bool.and_eq_true, Bool.not_eq_true'] at h
  obtain ⟨⟨⟨⟨htake, htick⟩, hexpire⟩, hfinish⟩, husers⟩ := h
  have hqueue : s.collecting = true → s.shared.channel.queue = [] := by
    intro hc
    unfold canTake at htake
    rw [hc, Bool.true_and, Bool.not_eq_false'] at htake
    exact List.isEmpty_iff.mp htake
  refine ⟨?_, hqueue, ?_, ?_, ?_⟩
  · intro u hu
    exact Bool.eq_false_iff.mpr fun hcan =>
      absurd (Array.any_eq_true'.mpr ⟨u, hu, hcan⟩) (by rw [husers]; simp)
  · intro hc
    unfold canTick at htick
    rw [hc, Bool.true_and, decide_eq_false_iff_not] at htick
    exact Nat.lt_of_not_le htick
  · intro hc
    unfold canExpire at hexpire
    rw [hc, Bool.not_false, Bool.true_and, decide_eq_false_iff_not] at hexpire
    exact Nat.lt_of_not_le hexpire
  · intro hc
    unfold canFinish at hfinish
    rw [hc, hqueue hc] at hfinish
    exact hfinish

/-- The moment that a user waits for lies ahead if it can take no step. -/
theorem lt_timer?_of_canStep_eq_false {u : User} {sh : Shared} {m : Nat}
    (h : u.canStep t sh = false) (hm : u.timer? t = some m) : sh.now < m := by
  unfold User.timer? at hm
  unfold User.canStep at h
  cases hp : u.phase with
  | calling since due a =>
    rw [hp] at h hm
    rw [← Option.some.inj hm]
    exact Nat.lt_of_not_le (of_decide_eq_false h)
  | pausing wake =>
    rw [hp] at h hm
    simp only [Bool.or_eq_false_iff] at h
    obtain ⟨-, hm⟩ := Option.ite_none_left_eq_some.mp hm
    rw [← Option.some.inj hm]
    exact Nat.lt_of_not_le (of_decide_eq_false h.2)
  | idle | ready | claiming | admitted | delivering | leaving | gone =>
    rw [hp] at hm
    exact absurd hm (by simp)

/-- A user that waits for a moment has not stopped. -/
theorem isGone_eq_false_of_timer? {u : User} {m : Nat} (h : u.timer? t = some m) :
    u.isGone = false := by
  cases hgone : u.isGone with
  | false => rfl
  | true =>
    obtain ⟨exit, hp⟩ := User.exists_gone hgone
    unfold User.timer? at h
    rw [hp] at h
    exact absurd h (by simp)

/-- The clock goes forward. -/
theorem now_lt_of_timer? {m : Nat} (h : s.isIdle t = true) (hm : s.timer? t = some m) :
    s.shared.now < m := by
  have hidle := idle_of_isIdle h
  cases awaits_of_timer? hm with
  | user hu hg => exact lt_timer?_of_canStep_eq_false (hidle.users _ hu) hg
  | deadline hc => exact hidle.deadline hc
  | tick hc => exact hidle.tick hc

/-- What a user may be doing when the clock goes from one moment to another: it waits for the
end of a call or of a pause that is still to come, or it has stopped. -/
inductive Waits (t : Terms) (now next : Nat) (u : User) : Prop
  | calling (since due : Nat) (a : Assignment) : u.phase = .calling since due a → now < due →
      next ≤ due → Waits t now next u
  | pausing (wake : Nat) : u.phase = .pausing wake → t.pacing ≠ 0 → now < wake → next ≤ wake →
      Waits t now next u
  | gone (exit : Exit) : u.phase = .gone exit → Waits t now next u

/-- While the collector is at work, an idle system has a user that has not stopped. -/
theorem exists_of_idle (hidle : s.Idle t) (hc : s.collecting = true) :
    ∃ u ∈ s.users, u.isGone = false := by
  have hgone := hidle.finish hc
  unfold allGone at hgone
  obtain ⟨i, hi, hu⟩ := Array.all_eq_false.mp hgone
  exact ⟨s.users[i], Array.getElem_mem hi, Bool.eq_false_iff.mpr hu⟩

/-- The clock goes to the end of the run, or there is a user that has not stopped: the
collector alone keeps no time. -/
theorem deadline_or_exists_of_timer? {m : Nat} (h : s.isIdle t = true)
    (hm : s.timer? t = some m) :
    (s.shared.cancelled = false ∧ m = t.deadline) ∨ ∃ u ∈ s.users, u.isGone = false := by
  cases awaits_of_timer? hm with
  | @user u _ hu hg => exact Or.inr ⟨u, hu, isGone_eq_false_of_timer? hg⟩
  | deadline hc => exact Or.inl ⟨hc, rfl⟩
  | tick hcol => exact Or.inr (exists_of_idle (idle_of_isIdle h) hcol)

/-- Nobody stands before a full queue when the clock moves: as long as the collector is at
work it would take from the queue first, and afterwards there is nobody left. -/
theorem isFull_eq_false_of_idle (hr : MayReach t s₀ s) (h₀ : s₀.Fresh)
    (hroom : 0 < s₀.shared.channel.capacity) (hidle : s.Idle t) :
    s.shared.channel.isFull = false := by
  have hqueue : s.shared.channel.queue = [] := by
    cases hc : s.collecting with
    | true => exact hidle.queue hc
    | false => exact (settled_of_mayReach hr h₀ hc).2.1
  have hcap := capacity_of_mayReach hr
  unfold Channel.isFull
  rw [hqueue, hcap, List.length_nil]
  exact decide_eq_false (Nat.not_le.mpr hroom)

/-- When the clock moves, every user waits for no earlier moment or has stopped. -/
theorem waits_of_wait {m : Nat} {u : User} (hr : MayReach t s₀ s) (h₀ : s₀.Fresh)
    (hroom : 0 < s₀.shared.channel.capacity) (hi : s.isIdle t = true)
    (hm : s.timer? t = some m) (hu : u ∈ s.users) : Waits t s.shared.now m u := by
  have hidle := idle_of_isIdle hi
  have hstill := hidle.users u hu
  have hahead : ∀ {x : Nat}, u.timer? t = some x → s.shared.now < x ∧ m ≤ x := fun hx =>
    ⟨lt_timer?_of_canStep_eq_false hstill hx, le_of_awaits hm (.user hu hx)⟩
  unfold User.timer? at hahead
  unfold User.canStep at hstill
  cases hp : u.phase with
  | calling since due a =>
    rw [hp] at hahead
    obtain ⟨hnow, hle⟩ := hahead rfl
    exact .calling since due a hp hnow hle
  | pausing wake =>
    rw [hp] at hahead hstill
    simp only [Bool.or_eq_false_iff, beq_eq_false_iff_ne] at hstill
    obtain ⟨hnow, hle⟩ := hahead (if_neg hstill.1.1)
    exact .pausing wake hp hstill.1.1 hnow hle
  | gone exit => exact .gone exit hp
  | delivering x =>
    rw [hp, isFull_eq_false_of_idle hr h₀ hroom hidle, Bool.not_false, Bool.or_true] at hstill
    exact absurd hstill (by simp)
  | idle | ready | claiming | admitted | leaving =>
    rw [hp] at hstill
    exact absurd hstill (by simp)

/-- A step of a user takes no time. -/
theorem now_of_userMove {u u' : User} {sh sh' : Shared} (h : u.Move t sh u' sh') :
    sh'.now = sh.now := by
  cases h <;> rfl

end ShardLoad.System
