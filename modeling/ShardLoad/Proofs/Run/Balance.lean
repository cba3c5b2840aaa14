import ShardLoad.Proofs.Run.Targets
import ShardLoad.Proofs.Shard.Rotation

/-!
# Calls in turn are balanced

Where shards are picked in turn, each user goes round the pool, and users start one shard after
the other.  So if all users make equally many calls, the shards are called equally often up to
what is left of rounds of users and of rounds of calls.

How many calls a shard gets is counted user by user.  The count that is read off the snapshot is
the same, since all that was issued is booked.

* `Agenda.countP_issues`: the calls of one user to one shard.
* `Engine.balanced_of_issuing`: the calls of all users.
* `Engine.rotation_balanced`: picks in turn, and the rows of a run.
-/

namespace ShardLoad

namespace Agenda

variable {pool : Pool} {a : Agenda} {start : Nat}

/-- In turn, what follows after some calls goes on with the shard after theirs. -/
theorem selector_after (plan : Plan) (h : a.selector = .make pool .roundRobin start) (n : Nat) :
    (a.after plan n).selector = .make pool .roundRobin (start + n) := by
  induction n with
  | zero => exact h
  | succ n ih => rw [after, (pick_next plan _).2, ih, Selector.pick_make, Nat.add_assoc]

/-- In turn, the calls of a user to a shard are its turns. -/
theorem countP_issues (plan : Plan) (h : a.selector = .make pool .roundRobin start) {i : Nat}
    (hi : i < pool.size) (n : Nat) :
    (a.issues plan n).countP (fun x => x.endpoint = pool.endpoint i) =
      turnsOf pool.size start n i := by
  induction n with
  | zero => rfl
  | succ n ih =>
    have hpick : ((a.after plan n).issue plan).endpoint =
        pool.endpoint ((start + n) % pool.size) := by
      show ((a.after plan n).next plan).1.endpoint = _
      rw [(pick_next plan _).1, selector_after plan h, Selector.pick_make]
    rw [issues_succ, List.countP_append, ih, turnsOf, turnsOf, Nat.count_succ,
      List.countP_singleton, hpick]
    simp only [decide_eq_true_iff, pool.endpoint_inj (Nat.mod_lt _ pool.pos) hi]

end Agenda

namespace System

variable {t : Terms} {s : System} {issues : List (Nat × Issue)}

/-- Calls can be counted user by user. -/
theorem countP_eq_sum {m : Nat} (h : ∀ x ∈ issues, x.1 < m) (p : Issue → Bool) :
    issues.countP (fun x => p x.2) = ∑ v ∈ Finset.range m, (issuesOf issues v).countP p := by
  simp only [issuesOf, List.countP_map, List.countP_filter]
  induction issues with
  | nil => simp only [List.countP_nil, Finset.sum_const_zero]
  | cons x issues ih =>
    obtain ⟨hx, h⟩ := List.forall_mem_cons.mp h
    -- a call counts for its own user only, who is one of them
    have hone : (∑ v ∈ Finset.range m, if (p x.2 && decide (x.1 = v)) = true then 1 else 0) =
        if p x.2 = true then 1 else 0 := by
      cases p x.2 with
      | false => simp only [Bool.false_and, Bool.false_eq_true, if_false, Finset.sum_const_zero]
      | true => simp only [Bool.true_and, decide_eq_true_iff, Finset.sum_ite_eq, Finset.mem_range,
          hx, if_true]
    simp only [List.countP_cons, Finset.sum_add_distrib, Function.comp_apply, hone]
    rw [ih h]
    rfl

end System

namespace Engine

open ShardLoad.System

variable {c : Config} {o : RunOptions} {around : Surroundings} {t : Terms} {s₀ s : System}
  {issues : List (Nat × Issue)} {pool : Pool} {k : Nat}

/-- In turn, users that make equally many calls call the shards evenly. -/
theorem balanced_of_issuing (h : prepare c o around = .ok (t, s₀))
    (hpool : Pool.ofTarget? c.target = .ok pool) (hmode : c.target.selection = .roundRobin)
    (hc : Issuing t s₀ issues s) (hk : ∀ u ∈ s.users, u.issued = k) :
    Balanced pool.size c.settings.virtualUsers.toNat k
      fun i => issues.countP fun x => x.2.endpoint = pool.endpoint i := by
  obtain ⟨pool', hplan, hagenda⟩ := exists_plan_of_prepare h
  obtain rfl := Except.ok.inj ((validate_of_plan hplan).2.symm.trans hpool)
  have hsize := size_of_prepare h hc.mayReach
  refine (balanced_turnsOf pool'.size _ k).congr fun i hi => ?_
  have husers := hsize ▸ user_lt_of_issuing hc
  rw [countP_eq_sum husers fun x => x.endpoint = pool'.endpoint i]
  refine Finset.sum_congr rfl fun v hv => ?_
  rw [Finset.mem_range, ← hsize] at hv
  have hu := Array.getElem?_eq_getElem hv
  obtain ⟨u₀, hu₀, hfollows⟩ := follows_of_issuing hc (fresh_of_prepare h) hu
  have hselector : u₀.agenda.selector = .make pool' .roundRobin v := by
    rw [hagenda hu₀, hmode]
  rw [hfollows.issues, hk _ (mem_of_getElem? hu), Agenda.countP_issues t.plan hselector hi]

/-- **Picks in turn are balanced.**  A selector goes round its pool from wherever it starts.  In
a run whose users make equally many calls each, whatever the order in which things happen, any
two shards are called equally often up to what is left of rounds of users and of rounds of
calls, and exactly equally often if either is nothing.  This is what the rows of the run show,
and what a scripted service counts. -/
theorem rotation_balanced :
    (∀ (pool : Pool) (start : Nat), (Selector.make pool .roundRobin start).Rotates start) ∧
    (∀ {c : Config} {o : RunOptions} {around : Surroundings} {t : Terms} {s₀ s : System}
        {issues : List (Nat × Issue)} {pool : Pool} {k : Nat}, prepare c o around = .ok (t, s₀) →
      Pool.ofTarget? c.target = .ok pool → c.target.selection = .roundRobin →
      Issuing t s₀ issues s → (∀ u ∈ s.users, u.issued = k) →
      Balanced pool.size c.settings.virtualUsers.toNat k
        fun i => issues.countP fun x => x.2.endpoint = pool.endpoint i) ∧
    (∀ {c : Config} {o : RunOptions} {around : Surroundings} {f : Finished} {pool : Pool}
        {k : Nat}, Returns c o around f → Pool.ofTarget? c.target = .ok pool →
      c.target.selection = .roundRobin → (∀ n ∈ f.result.iterations, n = k) →
      ∃ total, Balanced pool.size c.settings.virtualUsers.toNat k total ∧ ∀ i < pool.size,
        (f.result.snapshot.shards.filter fun row => row.name = (pool.endpoint i).label).map
          ShardRow.total = (if total i = 0 then [] else [total i]) ∧
        ∀ script, around.transport = .scripted script →
          f.ledger.ports.count (portKey (pool.endpoint i).port) = total i) := by
  refine ⟨Selector.rotates, balanced_of_issuing, ?_⟩
  intro c o around f pool k hreturns hpool hmode hk
  obtain ⟨t, s₀, s, hprep, hr, hover, rfl⟩ := hreturns
  obtain ⟨issues, hc⟩ := exists_issuing hr
  have hhost := host_of_ofTarget? hpool
  have hissued : ∀ u ∈ s.users, u.issued = k := by
    intro u hu
    rw [issued_of_allGone (isOver_iff.mp hover).2.2 hu]
    exact hk _ (List.mem_map_of_mem (Array.mem_toList_iff.mpr hu))
  refine ⟨_, balanced_of_issuing hprep hpool hmode hc hissued, fun i _ =>
    ⟨rows_eq_issued hprep hc hover hhost, fun script hscript => ?_⟩⟩
  rw [ports_eq_issued hscript hprep hc hover, ← hhost]
  rfl

/-- Three picks in a row of a selector that starts past the end of its pool; and a run of eight
users on four shards, each of which gets a quarter of the calls. -/
theorem rotation_balanced_four :
    (∀ i < 3, (Selector.make ⟨"localhost", 8000, 3, by decide, by decide⟩ .roundRobin 4).hits
      (Entropy.Cursor.mk (fun _ => 0) 0) 5 3 i = 1) ∧
    ∃ t s₀ s issues,
      prepare { Config.default with target := ⟨"localhost", 8000, 4, true, .roundRobin, .perCall⟩ }
        ⟨none, some 7, false⟩ ⟨.scripted ⟨.answer, .ofMillis 20⟩, 3, fun _ => .seeded 0, 0⟩ =
          .ok (t, s₀) ∧
      Issuing t s₀ issues s ∧ s.isOver = true ∧
      ∀ i < 4, issues.countP (fun x => x.2.endpoint = ⟨"localhost", 8000 + i.toUInt16⟩) = 232 ∧
        (finish s).ledger.ports.count (portKey (8000 + i.toUInt16)) = 232 := by
  constructor
  · exact (rotation_balanced.1 ⟨"localhost", 8000, 3, by decide, by decide⟩ 4).round _ 5
  · obtain ⟨t, s₀, h⟩ := exists_prepare (c := { Config.default with
        target := ⟨"localhost", 8000, 4, true, .roundRobin, .perCall⟩ }) (by decide +kernel)
      ⟨none, some 7, false⟩ ⟨.scripted ⟨.answer, .ofMillis 20⟩, 3, fun _ => .seeded 0, 0⟩
    obtain ⟨hround, hrounds⟩ := rounds_of_default rfl h rfl
    obtain ⟨s, hs, hrun⟩ := exists_run h (by omega) (by decide)
    obtain ⟨hr, hover⟩ := isOver_of_run? hs
    obtain ⟨issues, hc⟩ := exists_issuing hr.mayReach
    have hiterations : ∀ n ∈ (finish s).result.iterations, n = 116 := by
      obtain ⟨f, hf, hexact⟩ := isExact_run h (steady_of_prepare rfl h) (by omega) (by decide)
      obtain rfl := Except.ok.inj (hrun.symm.trans hf)
      rw [hrounds] at hexact
      intro n hn
      rw [show (finish s).result.iterations = _ from hexact] at hn
      exact List.eq_of_mem_replicate hn
    have hissued : ∀ u ∈ s.users, u.issued = 116 := by
      intro u hu
      rw [issued_of_allGone (isOver_iff.mp hover).2.2 hu]
      exact hiterations _ (List.mem_map_of_mem (Array.mem_toList_iff.mpr hu))
    have hpool : Pool.ofTarget? ⟨"localhost", 8000, 4, true, .roundRobin, .perCall⟩ =
        .ok ⟨"localhost", 8000, 4, by decide, by decide⟩ := rfl
    have hcalls := rotation_balanced.2.1 h hpool rfl hc hissued
    obtain ⟨total, htotal, hcounted⟩ :=
      rotation_balanced.2.2 (returns_of_run hrun) hpool rfl hiterations
    refine ⟨t, s₀, s, issues, h, hc, hover, fun i hi => ⟨?_, ?_⟩⟩
    · exact hcalls.even (Or.inl (by decide)) i hi
    · exact ((hcounted i hi).2 _ rfl).trans (htotal.even (Or.inl (by decide)) i hi)

end Engine
end ShardLoad
