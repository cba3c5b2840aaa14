import ShardLoad.Proofs.Entropy.Bounded
import ShardLoad.Proofs.Run.Booking
import ShardLoad.Proofs.Shard.Ports

/-!
# The shards that are called

A user picks the shards of its calls from the pool of the configured target, whether at random
or in turn.  So all calls of a run go to shards of the pool, and its snapshot has rows for such
shards only: each of them is one that the report of the run lists.

* `Selector.pick_inside`, `Agenda.inside_issues`: picks stay inside the pool.
* `Engine.rows_eq_issued`, `Engine.ports_eq_issued`: the rows of a run, and a scripted service,
  count the calls that were issued.
* `Engine.targets_agree`: the ports of a target, and the shards of a run.
-/

namespace ShardLoad

/-! ## Picks stay inside the pool -/

namespace Selector

/-- Whether a selector picks from a pool, of which the next shard in turn is one. -/
def Inside (pool : Pool) (s : Selector) : Prop := s.pool = pool ∧ s.cursor < pool.size

theorem inside_make (pool : Pool) (mode : Selection) (start : Nat) :
    Inside pool (make pool mode start) :=
  ⟨rfl, cursor_make_lt pool mode start⟩

variable {σ : Type} [Entropy.WordSource σ]

/-- A selector picks a shard of its pool, and goes on doing so. -/
theorem pick_inside {pool : Pool} {s : Selector} (h : Inside pool s) (source : σ) :
    (s.pick source).1 ∈ pool.endpoints ∧ Inside pool (s.pick source).2.1 := by
  obtain ⟨rfl, hcursor⟩ := h
  cases hmode : s.mode with
  | random =>
    -- a pick at random does not move the cursor
    have hkept : (s.pick source).2.1 = s := by
      rw [pick, pickIndex, hmode]
    rw [hkept]
    exact ⟨List.mem_of_getElem? (drawsInside hmode source).endpoint, rfl, hcursor⟩
  | roundRobin =>
    rw [pick, pickIndex_roundRobin hmode]
    exact ⟨(s.pool.mem_endpoints_iff _).mpr ⟨_, hcursor, rfl⟩, rfl, Nat.mod_lt _ s.pool.pos⟩

end Selector

namespace Agenda

variable {pool : Pool} {a : Agenda}

/-- What follows after some calls still picks from the pool. -/
theorem inside_after (plan : Plan) (h : a.selector.Inside pool) (n : Nat) :
    (a.after plan n).selector.Inside pool := by
  induction n with
  | zero => exact h
  | succ n ih =>
    rw [after, (pick_next plan _).2]
    exact (Selector.pick_inside ih _).2

/-- All calls go to shards of the pool. -/
theorem inside_issues (plan : Plan) (h : a.selector.Inside pool) (n : Nat) :
    ∀ x ∈ a.issues plan n, x.endpoint ∈ pool.endpoints := by
  intro x hx
  obtain ⟨k, -, rfl⟩ := List.mem_map.mp hx
  show ((a.after plan k).next plan).1.endpoint ∈ _
  rw [(pick_next plan _).1]
  exact (Selector.pick_inside (inside_after plan h k) _).1

end Agenda

namespace Engine

open ShardLoad.System

variable {c : Config} {o : RunOptions} {around : Surroundings} {t : Terms} {s₀ s : System}
  {issues : List (Nat × Issue)}

/-- All calls of a run go to shards of the pool. -/
theorem mem_endpoints_of_issuing {pool : Pool} (h : prepare c o around = .ok (t, s₀))
    (hpool : Pool.ofTarget? c.target = .ok pool) (hc : Issuing t s₀ issues s) :
    ∀ x ∈ issues, x.2.endpoint ∈ pool.endpoints := by
  intro x hx
  obtain ⟨pool', hplan, hagenda⟩ := exists_plan_of_prepare h
  obtain rfl := Except.ok.inj ((validate_of_plan hplan).2.symm.trans hpool)
  have hu := Array.getElem?_eq_getElem (user_lt_of_issuing hc x hx)
  obtain ⟨u₀, hu₀, hfollows⟩ := follows_of_issuing hc (fresh_of_prepare h) hu
  have hinside : u₀.agenda.selector.Inside pool' := by
    rw [hagenda hu₀]
    exact Selector.inside_make pool' _ _
  have hmem := mem_issuesOf hx
  rw [hfollows.issues] at hmem
  exact Agenda.inside_issues t.plan hinside _ x.2 hmem

/-- All calls of a run go to the configured host. -/
theorem host_of_issuing (h : prepare c o around = .ok (t, s₀)) (hc : Issuing t s₀ issues s) :
    ∀ x ∈ issues, x.2.endpoint.host = c.target.host := by
  intro x hx
  obtain ⟨pool, hplan, -⟩ := exists_plan_of_prepare h
  have hpool := (validate_of_plan hplan).2
  obtain ⟨i, -, hi⟩ := (pool.mem_endpoints_iff _).mp (mem_endpoints_of_issuing h hpool hc x hx)
  rw [← hi, ← host_of_ofTarget? hpool]
  rfl

/-- The snapshot of a run that is over has rows for shards that were called, and no others. -/
theorem name_of_row (h : prepare c o around = .ok (t, s₀)) (hc : Issuing t s₀ issues s)
    (hover : s.isOver = true) : ∀ row ∈ (finish s).result.snapshot.shards,
      ∃ x ∈ issues, row.name = x.2.endpoint.label := by
  have hfresh := fresh_of_prepare h
  have hfed := (bears_of_issuing (P := fun label => ∃ x ∈ issues, label = x.2.endpoint.label) hc
    hfresh fun x hx => ⟨x, hx, rfl⟩).fed
  rw [← (settled_of_mayReach hc.mayReach hfresh (isOver_iff.mp hover).1).1] at hfed
  intro row hrow
  obtain ⟨kv, hkv, rfl⟩ := List.mem_map.mp hrow
  exact (hfed kv hkv).1

/-- When a run is over, there is one row for a shard that was called, which counts the calls
that were issued to it. -/
theorem rows_eq_issued (h : prepare c o around = .ok (t, s₀)) (hc : Issuing t s₀ issues s)
    (hover : s.isOver = true) {e : Endpoint} (he : e.host = c.target.host) :
    ((finish s).result.snapshot.shards.filter fun row => row.name = e.label).map ShardRow.total =
      if issues.countP (fun x => x.2.endpoint = e) = 0 then []
      else [issues.countP fun x => x.2.endpoint = e] := by
  have hfresh := fresh_of_prepare h
  have hpub := (settled_of_mayReach hc.mayReach hfresh (isOver_iff.mp hover).1).1
  have hordered : s.published.Ordered := by
    rw [hpub]
    exact ordered_of_mayReach hc.mayReach hfresh
  have hfed : s.published.Fed fun _ => True := by
    rw [hpub]
    exact (bears_of_issuing hc hfresh fun _ _ => trivial).fed
  obtain ⟨host, port⟩ := e
  obtain rfl : host = c.target.host := he
  have hbooked : s.published.shardTotal (Endpoint.mk c.target.host port).label = _ :=
    booked_eq_issued (Gauge.port c.target.host port) h hc hover
  rw [Gauge.issued_port (host_of_issuing h hc)] at hbooked
  rw [← hbooked]
  exact Recorder.rows_eq hordered hfed _

/-- When a run is over, a scripted service has counted the calls that were issued to a port. -/
theorem ports_eq_issued {script : Script} (hs : around.transport = .scripted script)
    (h : prepare c o around = .ok (t, s₀)) (hc : Issuing t s₀ issues s) (hover : s.isOver = true)
    (port : UInt16) : (finish s).ledger.ports.count (portKey port) =
      issues.countP fun x => x.2.endpoint = ⟨c.target.host, port⟩ := by
  rw [← Gauge.issued_port (host_of_issuing h hc), ← booked_eq_issued _ h hc hover,
    booked_eq_sent hs h hc.mayReach hover]
  rfl

/-- The shards that a run has rows for are those that a report of its target lists. -/
theorem name_mem_targets {f : Finished} (h : Returns c o around f) :
    ∀ row ∈ f.result.snapshot.shards, row.name ∈ Report.targets c.target := by
  obtain ⟨t, s₀, s, hprep, hr, hover, rfl⟩ := h
  obtain ⟨issues, hc⟩ := exists_issuing hr
  obtain ⟨pool, hplan, -⟩ := exists_plan_of_prepare hprep
  have hpool := (validate_of_plan hplan).2
  intro row hrow
  obtain ⟨x, hx, hname⟩ := name_of_row hprep hc hover row hrow
  rw [(Target.describes hpool).targets, hname]
  exact List.mem_map_of_mem (mem_endpoints_of_issuing hprep hpool hc x hx)

/-- **All that is said about the ports of a target agrees.**  With a host that is not blank, the
check accepts a target exactly if there is a pool for it, that is, if there are shards and each
of them has a port.  If there is, it has a shard for each port from the first one on and for no
other, its labels tell its shards apart, and they are what a report lists and up to which a
summary counts.  Whatever happens in a run, and whatever it calls, its snapshot has rows for
such shards only. -/
theorem targets_agree :
    (∀ t : Target, Text.isBlankText t.host = false →
      (t.validate = .ok () ↔ ∃ p, Pool.ofTarget? t = .ok p) ∧
      ((∃ p, Pool.ofTarget? t = .ok p) ↔ t.poolSize ≠ 0 ∧
        ∀ i < t.poolSize.toNat, (portAfter? t.basePort i).isSome = true)) ∧
    (∀ (t : Target) (p : Pool), Pool.ofTarget? t = .ok p → t.Describes p) ∧
    (∀ (c : Config) (o : RunOptions) (around : Surroundings) (f : Finished),
      Returns c o around f → ∀ row ∈ f.result.snapshot.shards,
        row.name ∈ Report.targets c.target) :=
  ⟨fun t hhost => ⟨t.validate_iff_pool hhost,
      Pool.make?_isOk_iff_ports t.host t.basePort t.poolSize⟩,
    fun _ _ h => Target.describes h,
    fun _ _ _ _ h => name_mem_targets h⟩

/-- Three shards that end with the last port there is, which four shards do not fit in front of. -/
theorem targets_agree_last_ports :
    (∃ p, Pool.ofTarget? ⟨"localhost", 65533, 3, true, .random, .perCall⟩ = .ok p ∧
      p.endpoints.length = 3 ∧
      p.indexOf? ⟨"localhost", 65532⟩ = none ∧ p.indexOf? ⟨"localhost", 65535⟩ = some 2) ∧
    Target.validate ⟨"localhost", 65533, 4, true, .random, .perCall⟩ ≠ .ok () ∧
    ∃ f, run { Config.default with target := ⟨"localhost", 65533, 3, true, .random, .perCall⟩ }
        ⟨none, some 1, false⟩ ⟨.scripted ⟨.answer, .ofMillis 20⟩, 3, fun _ => .seeded 0, 0⟩ =
          .ok f ∧
      ∀ row ∈ f.result.snapshot.shards,
        row.name ∈ ["localhost:65533", "localhost:65534", "localhost:65535"] := by
  refine ⟨?_, ?_, ?_⟩
  · obtain ⟨p, hp⟩ := (targets_agree.1 ⟨"localhost", 65533, 3, true, .random, .perCall⟩
      (by decide)).1.mp (by decide)
    obtain ⟨hlength, hshard, -, houtside, -⟩ := targets_agree.2.1 _ p hp
    obtain ⟨⟨host, port⟩, -, rfl, hport, hindex⟩ := hshard 2 (by decide)
    obtain rfl : port = 65535 := UInt16.toNat_inj.mp hport
    exact ⟨p, hp, hlength, houtside _ (by decide), hindex⟩
  · rw [Ne, (targets_agree.1 _ (by decide)).1]
    rintro ⟨p, hp⟩
    cases hp
  · obtain ⟨t, s₀, s, -, -, hrun⟩ := exists_run_of_plan
      (c := { Config.default with target := ⟨"localhost", 65533, 3, true, .random, .perCall⟩ })
      (by decide +kernel) (by decide) ⟨none, some 1, false⟩
      ⟨.scripted ⟨.answer, .ofMillis 20⟩, 3, fun _ => .seeded 0, 0⟩ (by decide)
    have htargets : Report.targets ⟨"localhost", 65533, 3, true, .random, .perCall⟩ =
        ["localhost:65533", "localhost:65534", "localhost:65535"] := by decide +kernel
    refine ⟨finish s, hrun, ?_⟩
    rw [← htargets]
    exact targets_agree.2.2 _ _ _ _ (returns_of_run hrun)

end Engine
end ShardLoad
