import Mathlib.Data.List.Nodup
import ShardLoad.Proofs.Config.Validity
import ShardLoad.Proofs.Shard.Labels
import ShardLoad.Result.Report
import ShardLoad.Result.Summary

/-!
# The ports of a target

How many shards there are and where the first one listens is said once, by the target.  Where
the last one listens, and hence whether all of them can, is reckoned in several places: by the
check of a configuration, by the pool, by the report, which leaves out shards that cannot
listen, and by the summary.  They agree, because each of them asks for the ports behind the
first one, one by one, and these are there exactly if the last one is.

* `portAfter?`: the ports behind a port.
* `Pool.make?_isOk_iff_ports`, `Target.validate_iff_pool`: when there is a pool.
* `Report.targets_eq`: what a report lists.
* `Target.Describes`, `Target.describes`: all that is said about the ports of a target.
-/

namespace ShardLoad

/-- The port so many places behind another one, if there is one. -/
def portAfter? (base : UInt16) (i : Nat) : Option UInt16 :=
  if base.toNat + i ≤ 65535 then some (base + i.toUInt16) else none

theorem portAfter?_isSome_iff (base : UInt16) (i : Nat) :
    (portAfter? base i).isSome = true ↔ base.toNat + i ≤ 65535 := by
  unfold portAfter?
  split
  · exact iff_of_true rfl ‹_›
  · exact iff_of_false Bool.false_ne_true ‹_›

/-! ## When there is a pool -/

namespace Pool

theorem toNat_pos_iff {size : UInt16} : 0 < size.toNat ↔ size ≠ 0 := by
  rw [Nat.pos_iff_ne_zero]
  exact not_congr (UInt16.toNat_inj (b := 0))

/-- There is a pool exactly if there are shards and each of them has a port. -/
theorem make?_isOk_iff_ports (host : String) (base size : UInt16) :
    (∃ p, make? host base size = .ok p) ↔
      size ≠ 0 ∧ ∀ i < size.toNat, (portAfter? base i).isSome = true := by
  simp only [make?_isOk_iff, portAfter?_isSome_iff, toNat_pos_iff]
  constructor
  · rintro ⟨hpos, hfits⟩
    exact ⟨hpos, fun i hi => by omega⟩
  · rintro ⟨hpos, hports⟩
    have hsize := toNat_pos_iff.mpr hpos
    have hlast := hports (size.toNat - 1) (by omega)
    exact ⟨hpos, by omega⟩

/-- The shards of a pool listen behind its first port. -/
theorem portAfter?_basePort (p : Pool) {i : Nat} (hi : i < p.size) :
    portAfter? p.basePort i = some (p.endpoint i).port := by
  have hfits := p.fits
  exact if_pos (by omega)

/-- No two shards have the same label. -/
theorem nodup_labels (p : Pool) : (p.endpoints.map Endpoint.label).Nodup := by
  rw [endpoints, List.map_map]
  refine List.nodup_range.map_on fun i hi j hj h => ?_
  rw [← p.endpoint_inj (List.mem_range.mp hi) (List.mem_range.mp hj)]
  exact congrArg (Endpoint.mk p.host) (Endpoint.label_inj.mp h)

/-- Who listens behind no shard of a pool does not belong to it. -/
theorem indexOf?_eq_none {p : Pool} {e : Endpoint}
    (h : ∀ i < p.size, e.port.toNat ≠ p.basePort.toNat + i) : p.indexOf? e = none := by
  refine if_neg fun ⟨hle, hlt⟩ => h _ hlt ?_
  have hle := UInt16.le_iff_toNat_le.mp hle
  omega

/-- The last shard of a pool. -/
theorem getLast?_endpoints (p : Pool) :
    p.endpoints.getLast? = some (p.endpoint (p.size - 1)) := by
  have hpos := p.pos
  rw [List.getLast?_eq_getElem?, length_endpoints, p.getElem?_endpoints (by omega)]

end Pool

/-- With a host that is not blank, the check of a target accepts it exactly if there is a pool. -/
theorem Target.validate_iff_pool (t : Target) (hhost : Text.isBlankText t.host = false) :
    t.validate = .ok () ↔ ∃ p, Pool.ofTarget? t = .ok p := by
  show _ ↔ ∃ p, Pool.make? t.host t.basePort t.poolSize = .ok p
  rw [t.validate_eq_ok_iff, Pool.make?_isOk_iff, Pool.toNat_pos_iff]
  constructor
  · rintro ⟨hshards, -, hports⟩
    exact ⟨hshards, hports⟩
  · rintro ⟨hshards, hports⟩
    exact ⟨hshards, hhost, hports⟩

/-! ## What is said about the shards -/

/-- A report lists those shards that have a port. -/
theorem Report.targets_eq (t : Target) : targets t = (List.range t.poolSize.toNat).filterMap
    fun i => (portAfter? t.basePort i).map fun port => (Endpoint.mk t.host port).label := by
  rw [targets, List.filterMap_map]
  refine List.filterMap_congr fun i _ => ?_
  simp only [Function.comp_apply, portAfter?]
  split
  · rw [Nat.toUInt16, UInt16.ofNat_add, UInt16.ofNat_toNat]
    rfl
  · rfl

/-- The line of a summary that says what was called, up to a last port. -/
def Summary.targetLine (t : Target) (last : Nat) : Line :=
  let transport := if t.plaintext then "plaintext" else "tls"
  .text s!"  target:    {t.host}:{t.basePort}-{last} ({t.poolSize} shards, {transport})"

/-- A pool is what a target describes if its shards listen where the target says, and all that
is said about the target names its shards. -/
structure Target.Describes (t : Target) (p : Pool) : Prop where
  length : p.endpoints.length = t.poolSize.toNat
  shard : ∀ i < t.poolSize.toNat, ∃ e, p.endpoints[i]? = some e ∧ e.host = t.host ∧
    e.port.toNat = t.basePort.toNat + i ∧ p.indexOf? e = some i
  labels : (p.endpoints.map Endpoint.label).Nodup
  outside : ∀ e : Endpoint, (∀ i < t.poolSize.toNat, e.port.toNat ≠ t.basePort.toNat + i) →
    p.indexOf? e = none
  targets : Report.targets t = p.endpoints.map Endpoint.label
  report : ∀ (timestamp : String) (c : Config) (s : Snapshot) (elapsed : Duration), c.target = t →
    (Report.toJson timestamp c s elapsed).field? "targets" =
      some (.array ((p.endpoints.map Endpoint.label).map .string))
  summary : ∃ last, p.endpoints.getLast? = some last ∧ ∀ c : Config, c.target = t →
    (Summary.header c)[3]? = some (Summary.targetLine t last.port.toNat)

/-- The pool that is made for a target is what it describes. -/
theorem Target.describes {t : Target} {p : Pool} (h : Pool.ofTarget? t = .ok p) :
    t.Describes p := by
  obtain ⟨hhost, hbase, hsize⟩ := Pool.parts_of_make? h
  have htargets : Report.targets t = p.endpoints.map Endpoint.label := by
    rw [Report.targets_eq, Pool.endpoints, List.map_map, ← hsize, ← hhost, ← hbase,
      ← List.filterMap_eq_map]
    refine List.filterMap_congr fun i hi => ?_
    rw [p.portAfter?_basePort (List.mem_range.mp hi)]
    rfl
  refine ⟨p.length_endpoints.trans hsize, ?_, p.nodup_labels, ?_, htargets, ?_, ?_⟩
  · intro i hi
    rw [← hsize] at hi
    refine ⟨p.endpoint i, p.getElem?_endpoints hi, hhost, ?_, p.indexOf?_endpoint hi⟩
    rw [p.port_endpoint hi, hbase]
  · intro e he
    rw [← hsize, ← hbase] at he
    exact Pool.indexOf?_eq_none he
  · rintro timestamp c s elapsed rfl
    rw [← htargets]
    rfl
  · have hpos := p.pos
    refine ⟨_, p.getLast?_endpoints, ?_⟩
    rintro c rfl
    have hlast : c.target.basePort.toNat + max c.target.poolSize.toNat 1 - 1 =
        (p.endpoint (p.size - 1)).port.toNat := by
      rw [p.port_endpoint (by omega), hbase, ← hsize]
      omega
    rw [← hlast]
    rfl

end ShardLoad
