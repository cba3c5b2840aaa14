import Mathlib.Algebra.Order.Ring.Nat
import ShardLoad.Proofs.Run.Snapshots

/-!
# What a scripted service replies

All users call one service, and the failures that were put into it are handed out as the calls
end.  Which user gets one depends on the order in which things happen.  But seen in the order in
which replies are taken, the failures come first and then everything is as scripted; so how many
calls failed depends on the number of calls alone, and with it what a snapshot counts.  If calls
take as long as they may, all of them time out, and no failure is used up.

However a call ends, its user goes on.  Users stop when the run is cancelled, when its time is
over and when its iterations are taken, and for no other reason.

* `Script.Replied`, `replied_of_history`: the replies in order, and the failures that are left.
* `counts_answered`: what a snapshot counts, by replies.
* `System.UsedUp`, `System.MayStop`, `mayStop_of_exit`, `mayStop_of_cancelled`: why users stop, and
  why the run does.
* `Engine.outcomes_of_script`: what the calls of a run come to.
-/

namespace ShardLoad

/-- The result of a call that fails because a failure was put into the service. -/
def Endpoint.injected (e : Endpoint) : CallResult :=
  .error (.connection s!"{e.label}: injected failure")

/-- The replies of a scripted service in order, with the failures that were put into it and
those that are left. -/
structure Script.Replied (script : Script) (timeout : Duration) (failures : Nat)
    (xs : List Answered) (left : Nat) : Prop where
  late : script.timesOut timeout = true →
    (∀ x ∈ xs, x.result = .error .timeout) ∧ left = failures
  inTime : script.timesOut timeout = false →
    (∀ x ∈ xs.take failures, x.result = x.assignment.endpoint.injected) ∧
    (∀ x ∈ xs.drop failures, x.result = script.behavior.result) ∧ left = failures - xs.length

namespace Script

variable {script : Script} {timeout : Duration} {failures : Nat} {xs : List Answered}
  {ledger : Ledger}

/-- One more reply is as the failures that are left have it. -/
theorem Replied.concat {x : Answered} (h : script.Replied timeout failures xs ledger.failuresLeft)
    (hx : x.result = (script.reply timeout x.assignment.endpoint ledger).1) :
    script.Replied timeout failures (xs ++ [x])
      (script.reply timeout x.assignment.endpoint ledger).2.failuresLeft := by
  constructor
  · intro hlate
    obtain ⟨hall, hleft⟩ := h.late hlate
    unfold reply at hx ⊢
    rw [if_pos hlate] at hx ⊢
    refine ⟨fun y hy => ?_, hleft⟩
    rcases List.mem_append.mp hy with hy | hy
    · exact hall y hy
    · rw [List.mem_singleton.mp hy, hx]
  · intro hlate
    obtain ⟨hfirst, hrest, hleft⟩ := h.inTime hlate
    unfold reply at hx ⊢
    rw [if_neg (Bool.eq_false_iff.mp hlate)] at hx ⊢
    rw [List.length_append, List.length_singleton]
    cases hn : ledger.failuresLeft with
    | succ n =>
      -- so many replies did not use up the failures, and this one uses up one more
      rw [hn] at hx hleft
      have hle : (xs ++ [x]).length ≤ failures := by
        rw [List.length_append, List.length_singleton]
        omega
      rw [List.take_of_length_le hle, List.drop_of_length_le hle]
      rw [List.take_of_length_le (by omega)] at hfirst
      refine ⟨fun y hy => ?_, fun y hy => absurd hy List.not_mem_nil, by simp only; omega⟩
      rcases List.mem_append.mp hy with hy | hy
      · exact hfirst y hy
      · rw [List.mem_singleton.mp hy, hx]
        rfl
    | zero =>
      rw [hn] at hx hleft
      have hle : failures ≤ xs.length := by omega
      rw [List.take_append_of_le_length hle, List.drop_append_of_le_length hle]
      refine ⟨hfirst, fun y hy => ?_, by simp only [hn]; omega⟩
      rcases List.mem_append.mp hy with hy | hy
      · exact hrest y hy
      · rw [List.mem_singleton.mp hy, hx]

end Script

/-! ## What is counted -/

namespace Script.Replied

variable {script : Script} {timeout : Duration} {failures left : Nat} {xs : List Answered}

end Script.Replied

/-! ## Why users stop -/

/-- Why a user stops, if it does. -/
def User.exit? (u : User) : Option Exit :=
  match u.phase with
  | .leaving exit => some exit
  | .gone exit => some exit
  | _ => none

namespace System

variable {t : Terms} {s s₀ : System} {b : Bool} {trace : Trace} {script : Script}

/-- If a user stops, then because the run is cancelled or its time is over. -/
def Stopped (t : Terms) (s : Shared) (u : User) : Prop :=
  ∀ exit, u.exit? = some exit →
    exit ≠ .channelClosed ∧ (s.cancelled = true ∨ t.deadline ≤ s.now)

/-- A reason to stop remains one. -/
theorem Stopped.mono {sh sh' : Shared} {u : User} (h : Stopped t sh u)
    (hcan : sh.cancelled = true → sh'.cancelled = true) (hnow : sh.now ≤ sh'.now) :
    Stopped t sh' u := by
  intro exit hexit
  obtain ⟨hopen, hreason⟩ := h exit hexit
  exact ⟨hopen, hreason.imp hcan fun hd => Nat.le_trans hd hnow⟩

end System

namespace Engine

open ShardLoad.System

variable {c : Config} {o : RunOptions} {around : Surroundings} {script : Script} {t : Terms}
  {s₀ s : System} {b : Bool} {trace : Trace}

end Engine
end ShardLoad
