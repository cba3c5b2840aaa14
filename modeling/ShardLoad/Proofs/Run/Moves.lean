import Mathlib.Algebra.Order.BigOperators.Group.List
import Mathlib.Algebra.Order.Ring.Nat
import ShardLoad.Run.Engine

/-!
# What can happen next

Everything that is proved about runs goes by cases on what can happen next.  The
cases are listed here once, with their conditions, so that no later proof opens
the step functions.

* `User.Move`, `User.move_of_step?`: the steps of a user.
* `System.Move`, `System.move_of_step?`: what comes of an action.
* `System.sum`: a measure of users, summed up, with `sum_setUser`: how a step of one
  user changes it.
* `MayReach.invariant`, `Reaches.invariant`: what holds at the start and survives
  every move holds in every state that is reached.
-/

namespace ShardLoad

/-! ## Steps of a user -/

/-- The steps of a user, each under its condition. -/
inductive User.Move (t : Terms) : User → Shared → User → Shared → Prop
  | enter {u : User} {s : Shared} : u.phase = .idle →
      Move t u s { u with phase := .ready } { s with active := s.active.enter }
  | cancel {u : User} {s : Shared} : u.phase = .ready → s.cancelled = true →
      Move t u s (u.leave .cancelled) s
  | expire {u : User} {s : Shared} : u.phase = .ready → s.cancelled = false →
      t.deadline ≤ s.now → Move t u s (u.leave .deadline) s
  | begin {u : User} {s : Shared} : u.phase = .ready → s.cancelled = false →
      s.now < t.deadline → Move t u s { u with phase := .claiming } s
  | proceed {u : User} {s : Shared} : u.phase = .claiming → t.cap = none →
      Move t u s { u with phase := .admitted } s
  | claim {u : User} {s : Shared} (max : UInt64) : u.phase = .claiming → t.cap = some max →
      s.slots < max →
      Move t u s { u with phase := .admitted } { s with slots := s.slots + 1 }
  | overrun {u : User} {s : Shared} (max : UInt64) : u.phase = .claiming → t.cap = some max →
      max ≤ s.slots →
      Move t u s (u.leave .iterationCap) { s with slots := s.slots + 1, cancelled := true }
  | send {u : User} {s : Shared} (a : Assignment) (agenda : Agenda) (log : Array Event) :
      u.phase = .admitted → u.agenda.next t.plan = (a, agenda) →
      u.noteRequest t a s = { s with log := log } →
      Move t u s
        { u with
          agenda := agenda
          phase := .calling s.now (s.now + t.transport.millis t.timeout (u.outgoing a)) a }
        { s with log := log, ledger := t.transport.send a.call.operation a.endpoint s.ledger }
  | receive {u : User} {s : Shared} (since due : Nat) (a : Assignment) (result : CallResult)
      (ledger : Ledger) (log : Array Event) :
      u.phase = .calling since due a → due ≤ s.now →
      t.transport.reply t.timeout (u.outgoing a) s.ledger = (result, ledger) →
      Move t u s
        { u with
          phase := .delivering
            ⟨a.call.operation, .ofMillis (s.now - since), judge result, some a.endpoint.label⟩
          iterations := u.iterations + 1
          warned := u.warned || !(judge result).isPass }
        { s with ledger := ledger, log := log }
  | hangUp {u : User} {s : Shared} (x : Sample) : u.phase = .delivering x →
      s.channel.closed = true → Move t u s (u.leave .channelClosed) s
  | deliver {u : User} {s : Shared} (x : Sample) : u.phase = .delivering x →
      s.channel.closed = false → s.channel.isFull = false →
      Move t u s { u with phase := .pausing (min (s.now + t.pacing) t.deadline) }
        { s with channel := s.channel.push x }
  | resume {u : User} {s : Shared} (wake : Nat) : u.phase = .pausing wake →
      (t.pacing = 0 ∨ s.cancelled = false ∧ wake ≤ s.now) →
      Move t u s { u with phase := .ready } s
  | giveUp {u : User} {s : Shared} (wake : Nat) : u.phase = .pausing wake → t.pacing ≠ 0 →
      s.cancelled = true → Move t u s (u.leave .cancelled) s
  | leave {u : User} {s : Shared} (exit : Exit) (log : Array Event) : u.phase = .leaving exit →
      Move t u s { u with phase := .gone exit } { s with active := s.active.leave, log := log }

namespace User

/-- A request that is noted changes nothing but the log. -/
theorem exists_log_noteRequest (t : Terms) (u : User) (a : Assignment) (s : Shared) :
    ∃ log, u.noteRequest t a s = { s with log := log } := by
  unfold noteRequest
  split
  · exact ⟨_, rfl⟩
  · exact ⟨s.log, rfl⟩

/-- A step that is taken is one of the list. -/
theorem move_of_step? {t : Terms} {u u' : User} {s s' : Shared}
    (h : u.step? t s = some (u', s')) : u.Move t s u' s' := by
  unfold step? at h
  cases hp : u.phase with
  | idle =>
    rw [hp] at h
    obtain ⟨rfl, rfl⟩ := Prod.mk.injEq .. ▸ Option.some.inj h
    exact .enter hp
  | ready =>
    rw [hp] at h
    obtain ⟨rfl, rfl⟩ := Prod.mk.injEq .. ▸ Option.some.inj h
    unfold check
    split
    · rename_i hc
      exact .cancel hp hc
    · rename_i hc
      split
      · rename_i hd
        exact .expire hp (Bool.eq_false_iff.mpr hc) hd
      · rename_i hd
        exact .begin hp (Bool.eq_false_iff.mpr hc) (Nat.lt_of_not_le hd)
  | claiming =>
    rw [hp] at h
    have h := Option.some.inj h
    unfold claim at h
    split at h
    · rename_i hcap
      obtain ⟨rfl, rfl⟩ := Prod.mk.injEq .. ▸ h
      exact .proceed hp hcap
    · rename_i max hcap
      split at h
      · rename_i hmax
        obtain ⟨rfl, rfl⟩ := Prod.mk.injEq .. ▸ h
        exact .overrun max hp hcap hmax
      · rename_i hmax
        obtain ⟨rfl, rfl⟩ := Prod.mk.injEq .. ▸ h
        exact .claim max hp hcap (UInt64.not_le.mp hmax)
  | admitted =>
    rw [hp] at h
    have h : u.send t s = (u', s') := Option.some.inj h
    unfold send at h
    rcases hn : u.agenda.next t.plan with ⟨a, agenda⟩
    obtain ⟨log, hlog⟩ := exists_log_noteRequest t u a s
    rw [hn] at h
    simp only [hlog] at h
    obtain ⟨rfl, rfl⟩ := Prod.mk.injEq .. ▸ h
    exact .send a agenda log hp hn hlog
  | calling since due a =>
    rw [hp] at h
    simp only at h
    split at h
    · rename_i hdue
      have h : u.receive t since a s = (u', s') := Option.some.inj h
      unfold receive at h
      rcases hr : t.transport.reply t.timeout (u.outgoing a) s.ledger with ⟨result, ledger⟩
      rw [hr] at h
      obtain ⟨rfl, rfl⟩ := Prod.mk.injEq .. ▸ h
      exact .receive since due a result ledger _ hp hdue hr
    · exact absurd h (by simp)
  | delivering x =>
    rw [hp] at h
    simp only [deliver?] at h
    split at h
    · rename_i hc
      obtain ⟨rfl, rfl⟩ := Prod.mk.injEq .. ▸ Option.some.inj h
      exact .hangUp x hp hc
    · rename_i hc
      split at h
      · exact absurd h (by simp)
      · rename_i hf
        obtain ⟨rfl, rfl⟩ := Prod.mk.injEq .. ▸ Option.some.inj h
        exact .deliver x hp (Bool.eq_false_iff.mpr hc) (Bool.eq_false_iff.mpr hf)
  | pausing wake =>
    rw [hp] at h
    obtain ⟨v, hv, he⟩ := Option.map_eq_some_iff.mp h
    obtain ⟨rfl, rfl⟩ := Prod.mk.injEq .. ▸ he
    unfold resume? at hv
    split at hv
    · rename_i h0
      obtain rfl := Option.some.inj hv
      exact .resume wake hp (Or.inl h0)
    · rename_i h0
      split at hv
      · rename_i hc
        obtain rfl := Option.some.inj hv
        exact .giveUp wake hp h0 hc
      · rename_i hc
        split at hv
        · rename_i hw
          obtain rfl := Option.some.inj hv
          exact .resume wake hp (Or.inr ⟨Bool.eq_false_iff.mpr hc, hw⟩)
        · exact absurd hv (by simp)
  | leaving exit =>
    rw [hp] at h
    obtain ⟨rfl, rfl⟩ := Prod.mk.injEq .. ▸ Option.some.inj h
    exact .leave exit _ hp
  | gone exit =>
    rw [hp] at h
    exact absurd h (by simp)

/-- A user that has stopped is in its last phase. -/
theorem exists_gone {u : User} (h : u.isGone = true) : ∃ exit, u.phase = .gone exit := by
  unfold isGone at h
  split at h
  · rename_i exit hp
    exact ⟨exit, hp⟩
  · exact absurd h (by simp)

/-- A user that has stopped takes no more steps. -/
theorem not_move_of_gone {t : Terms} {u u' : User} {s s' : Shared} {exit : Exit}
    (hp : u.phase = .gone exit) : ¬u.Move t s u' s' := by
  intro h
  cases h <;> simp_all

end User

/-! ## What comes of an action -/

namespace System

/-- A system in which one user and what users share have changed. -/
def setUser (s : System) (i : Nat) (u : User) (shared : Shared) : System :=
  { s with users := s.users.setIfInBounds i u, shared := shared }

/-- A system in which the collector has taken the sample at the front of the queue. -/
def takeFront (s : System) (x : Sample) (rest : List Sample) : System :=
  { s with
    shared := { s.shared with channel := { s.shared.channel with queue := rest } }
    recorder := s.recorder.record x }

/-- A system at a later moment. -/
def moveTo (s : System) (moment : Nat) : System :=
  { s with shared := { s.shared with now := moment } }

/-- What comes of the actions, each under its condition. -/
inductive Move (t : Terms) : System → Action → System → Prop
  | user {s : System} (i : Nat) (u u' : User) (shared : Shared) : s.users[i]? = some u →
      u.Move t s.shared u' shared → Move t s (.user i) (s.setUser i u' shared)
  | take {s : System} (x : Sample) (rest : List Sample) : s.collecting = true →
      s.shared.channel.queue = x :: rest → Move t s .take (s.takeFront x rest)
  | tick {s : System} : s.canTick = true → Move t s .tick s.publish
  | finish {s : System} : s.canFinish = true →
      Move t s .finish { s.publish with collecting := false }
  | deadline {s : System} : s.canExpire t = true → Move t s .deadline s.interrupt
  | wait {s : System} (moment : Nat) : s.isIdle t = true → s.timer? t = some moment →
      Move t s .wait (s.moveTo moment)

/-- An action that is possible is one of the list. -/
theorem move_of_step? {t : Terms} {s s' : System} {a : Action} (h : s.step? t a = some s') :
    s.Move t a s' := by
  cases a with
  | user i =>
    have h : s.stepUser? t i = some s' := h
    unfold stepUser? at h
    split at h
    · rename_i u hu
      obtain ⟨⟨u', shared⟩, hstep, he⟩ := Option.map_eq_some_iff.mp h
      rw [← he]
      exact .user i u u' shared hu (User.move_of_step? hstep)
    · exact absurd h (by simp)
  | take =>
    have h : s.take? = some s' := h
    unfold take? at h
    split at h
    · rename_i hc
      obtain ⟨⟨x, channel⟩, hpop, he⟩ := Option.map_eq_some_iff.mp h
      unfold Channel.pop? at hpop
      split at hpop
      · rename_i y rest hq
        obtain ⟨rfl, rfl⟩ := Prod.mk.injEq .. ▸ Option.some.inj hpop
        rw [← he]
        exact .take y rest hc hq
      · exact absurd hpop (by simp)
    · exact absurd h (by simp)
  | tick =>
    obtain ⟨hc, he⟩ := Option.ite_none_right_eq_some.mp h
    rw [← Option.some.inj he]
    exact .tick hc
  | finish =>
    obtain ⟨hc, he⟩ := Option.ite_none_right_eq_some.mp h
    rw [← Option.some.inj he]
    exact .finish hc
  | deadline =>
    obtain ⟨hc, he⟩ := Option.ite_none_right_eq_some.mp h
    rw [← Option.some.inj he]
    exact .deadline hc
  | wait =>
    obtain ⟨hc, he⟩ := Option.ite_none_right_eq_some.mp h
    obtain ⟨moment, ht, he⟩ := Option.map_eq_some_iff.mp he
    rw [← he]
    exact .wait moment hc ht

/-! ## One user changes -/

/-- After a step of a user every user is as it was or is the changed one. -/
theorem mem_setUser {s : System} {i : Nat} {u v : User} {shared : Shared}
    (h : v ∈ (s.setUser i u shared).users) : v = u ∨ v ∈ s.users := by
  have hv : v ∈ (s.users.setIfInBounds i u).toList := Array.mem_toList_iff.mpr h
  rw [Array.toList_setIfInBounds] at hv
  rcases List.mem_or_eq_of_mem_set hv with hm | he
  · exact Or.inr (Array.mem_toList_iff.mp hm)
  · exact Or.inl he

/-- What holds of all users holds of them after a step if it holds of the changed one. -/
theorem forall_setUser {P : User → Prop} {s : System} (i : Nat) {u : User} (shared : Shared)
    (h : ∀ v ∈ s.users, P v) (hu : P u) : ∀ v ∈ (s.setUser i u shared).users, P v := by
  intro v hv
  rcases mem_setUser hv with rfl | hm
  · exact hu
  · exact h v hm

/-- The user at each place after a step of one that is there. -/
theorem getElem?_setUser {s : System} {i : Nat} {u : User} (h : s.users[i]? = some u) (u' : User)
    (shared : Shared) (j : Nat) :
    (s.setUser i u' shared).users[j]? = if i = j then some u' else s.users[j]? := by
  obtain ⟨hi, -⟩ := Array.getElem?_eq_some_iff.mp h
  show (s.users.setIfInBounds i u')[j]? = _
  rw [Array.getElem?_setIfInBounds]
  simp only [hi, if_true]

/-- A step of a user changes none of the others' number. -/
@[simp] theorem size_setUser (s : System) (i : Nat) (u : User) (shared : Shared) :
    (s.setUser i u shared).users.size = s.users.size := Array.size_setIfInBounds

/-- The user at a place is one of the users. -/
theorem mem_of_getElem? {s : System} {i : Nat} {u : User} (h : s.users[i]? = some u) :
    u ∈ s.users := Array.mem_of_getElem? h

/-- A measure of users, summed up. -/
def sum (s : System) (f : User → Nat) : Nat := (s.users.toList.map f).sum

/-- A sum over a list with one entry replaced. -/
theorem sum_map_set {α : Type} (f : α → Nat) {l : List α} {i : Nat} {x : α}
    (h : l[i]? = some x) (y : α) : ((l.set i y).map f).sum + f x = (l.map f).sum + f y := by
  induction l generalizing i with
  | nil => simp at h
  | cons z l ih =>
    cases i with
    | zero =>
      obtain rfl : z = x := by simpa using h
      simp only [List.set_cons_zero, List.map_cons, List.sum_cons]
      omega
    | succ i =>
      have hi := ih (by simpa using h)
      simp only [List.set_cons_succ, List.map_cons, List.sum_cons]
      omega

/-- A step of one user changes a sum by what it changes for that user. -/
theorem sum_setUser {s : System} {i : Nat} {u : User} (h : s.users[i]? = some u) (f : User → Nat)
    (u' : User) (shared : Shared) : (s.setUser i u' shared).sum f + f u = s.sum f + f u' := by
  have hl : s.users.toList[i]? = some u := by rw [Array.getElem?_toList]; exact h
  have hs := sum_map_set f hl u'
  rw [← Array.toList_setIfInBounds] at hs
  exact hs

/-- No user measures more than all of them together. -/
theorem le_sum {s : System} {u : User} (h : u ∈ s.users) (f : User → Nat) : f u ≤ s.sum f :=
  List.le_sum_of_mem (List.mem_map_of_mem (Array.mem_toList_iff.mpr h))

/-- Measures that agree on the users of a system have the same sum. -/
theorem sum_congr {s : System} {f g : User → Nat} (h : ∀ u ∈ s.users, f u = g u) :
    s.sum f = s.sum g := by
  unfold sum
  rw [List.map_congr_left fun u hu => h u (Array.mem_toList_iff.mp hu)]

/-- A measure that is no greater than another on the users of a system has no greater sum. -/
theorem sum_le_sum {s : System} {f g : User → Nat} (h : ∀ u ∈ s.users, f u ≤ g u) :
    s.sum f ≤ s.sum g :=
  List.sum_le_sum fun u hu => h u (Array.mem_toList_iff.mp hu)

/-- A measure that is the same for all users. -/
theorem sum_const (s : System) (n : Nat) : s.sum (fun _ => n) = s.users.size * n := by
  unfold sum
  rw [List.map_const', List.sum_replicate_nat, Array.length_toList]

/-- A measure that no user has anything of comes to nothing. -/
theorem sum_eq_zero {s : System} {f : User → Nat} (h : ∀ u ∈ s.users, f u = 0) : s.sum f = 0 := by
  rw [sum_congr h]
  exact List.sum_map_zero

/-! ## What every move keeps -/

variable {t : Terms} {s₀ s : System} {P : System → Prop}

/-- What holds at the start and survives every move and every interruption holds in every
state that may be reached. -/
theorem MayReach.invariant (h : MayReach t s₀ s) (h₀ : P s₀)
    (hmove : ∀ {s s' : System} {a : Action}, MayReach t s₀ s → P s → s.Move t a s' → P s')
    (hint : ∀ {s : System}, MayReach t s₀ s → P s → P s.interrupt) : P s := by
  induction h with
  | refl => exact h₀
  | step a hr ha ih => exact hmove hr ih (move_of_step? ha)
  | interrupt hr ih => exact hint hr ih

/-- What holds at the start and survives every move holds in every state that is reached
without interruptions. -/
theorem Reaches.invariant (h : Reaches t s₀ s) (h₀ : P s₀)
    (hmove : ∀ {s s' : System} {a : Action}, Reaches t s₀ s → P s → s.Move t a s' → P s') :
    P s := by
  induction h with
  | refl => exact h₀
  | step a hr ha ih => exact hmove hr ih (move_of_step? ha)

end System
end ShardLoad
