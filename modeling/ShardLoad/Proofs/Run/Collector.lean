import ShardLoad.Proofs.Run.Start

/-!
# The collector

The collector is at work as long as anything may still come to it: it stops only when
the queue is empty and the last user has stopped, and then it has published all that it
recorded.  Until then the queue stays open and keeps its length.

* `System.exists_of_allGone`, `System.isOver_iff`: what it means that a run is over.
* `opened_of_mayReach`, `capacity_of_mayReach`: the queue.
* `System.Settled`, `settled_of_mayReach`: once the collector has stopped.
-/

namespace ShardLoad.System

variable {t : Terms} {s s₀ : System}

/-- When all users have stopped, each of them is in its last phase. -/
theorem exists_of_allGone {u : User} (h : s.allGone = true) (hu : u ∈ s.users) :
    ∃ exit, u.phase = .gone exit :=
  User.exists_gone (Array.all_eq_true_iff_forall_mem.mp h u hu)

/-- A run that is over has no collector, was cancelled, and has no user left. -/
theorem isOver_iff : s.isOver = true ↔
    s.collecting = false ∧ s.shared.cancelled = true ∧ s.allGone = true := by
  unfold isOver
  rw [Bool.and_eq_true, Bool.and_eq_true, Bool.not_eq_true', and_assoc]

/-! ## The queue -/

/-- The queue of a run is never closed. -/
theorem opened_of_mayReach (h : MayReach t s₀ s) (h₀ : s₀.Fresh) :
    s.shared.channel.closed = false := by
  refine MayReach.invariant (P := fun s => s.shared.channel.closed = false) h h₀.opened ?_
    fun _ hs => hs
  intro s s' a _ hs hm
  cases hm with
  | user i u u' sh hi hmove => cases hmove <;> exact hs
  | _ => exact hs

/-- The queue keeps its capacity. -/
theorem capacity_of_mayReach (h : MayReach t s₀ s) :
    s.shared.channel.capacity = s₀.shared.channel.capacity := by
  refine MayReach.invariant
    (P := fun s => s.shared.channel.capacity = s₀.shared.channel.capacity) h rfl ?_
    fun _ hs => hs
  intro s s' a _ hs hm
  cases hm with
  | user i u u' sh hi hmove => cases hmove <;> exact hs
  | _ => exact hs

/-! ## The end of the collector -/

/-- Once the collector has stopped, everything was published and every user has stopped. -/
def Settled (s : System) : Prop :=
  s.collecting = false →
    s.published = s.recorder ∧ s.shared.channel.queue = [] ∧ s.allGone = true

/-- The collector stops only when nothing more is to come, and nothing comes afterwards. -/
theorem settled_of_mayReach (h : MayReach t s₀ s) (h₀ : s₀.Fresh) : s.Settled := by
  refine MayReach.invariant h ?_ ?_ fun _ hs => hs
  · intro hc
    exact absurd (h₀.collecting.symm.trans hc) (by simp)
  · intro s s' a _ hs hm hc
    cases hm with
    | user i u u' sh hi hmove =>
      obtain ⟨-, -, hgone⟩ := hs hc
      obtain ⟨exit, hp⟩ := exists_of_allGone hgone (mem_of_getElem? hi)
      exact absurd hmove (User.not_move_of_gone hp)
    | take x rest hcol hq => exact absurd (hcol.symm.trans hc) (by simp)
    | tick htick =>
      have hcol : s.collecting = true := (Bool.and_eq_true_iff.mp htick).1
      exact absurd (hcol.symm.trans hc) (by simp)
    | finish hfinish =>
      have hgone : s.allGone = true := (Bool.and_eq_true_iff.mp hfinish).2
      exact ⟨rfl, rfl, hgone⟩
    | deadline _ => exact hs hc
    | wait _ _ _ => exact hs hc

end ShardLoad.System
