import ShardLoad.Config.Basic

/-!
# The shard pool

The pool is a host and a run of consecutive ports.  Shard `i` listens on the
base port plus `i`; a pool has at least one shard and its last port is at most
65535, which the type records, so every shard index names an endpoint.

An endpoint belongs to the pool by its port alone.

* `Pool.ofTarget?`: the pool of a target section.
* `Pool.endpoint`, `Pool.indexOf?`: between shard indices and endpoints.
* `indexOf?_endpoint`: the index of the endpoint of shard `i` is `i`.
-/

namespace ShardLoad

/-- One instance of the service. -/
structure Endpoint where
  host : String
  port : UInt16
  deriving Repr, DecidableEq

namespace Endpoint

/-- How an endpoint is named in counts, logs and reports. -/
def label (e : Endpoint) : String := s!"{e.host}:{e.port.toNat}"

/-- Where an endpoint is reached. -/
def uri (e : Endpoint) (plaintext : Bool) : String :=
  if plaintext then s!"http://{e.label}" else s!"https://{e.label}"

end Endpoint

/-- Why a host, a base port and a size make no pool. -/
inductive PoolError where
  | empty
  | portRange (basePort size : UInt16)
  deriving Repr, DecidableEq

/-- The wording of a refusal. -/
def PoolError.message : PoolError → String
  | .empty => "target.pool_size must be at least 1 (empty shard pool)"
  | .portRange base size =>
    s!"target port range starting at {base.toNat} with {size.toNat} shards exceeds 65535"

/-- At least one shard, on consecutive ports up to 65535. -/
structure Pool where
  host : String
  basePort : UInt16
  size : Nat
  pos : 0 < size
  fits : basePort.toNat + size ≤ 65536
  deriving Repr, DecidableEq

namespace Pool

/-- The pool of a host, a base port and a size. -/
def make? (host : String) (basePort size : UInt16) : Except PoolError Pool :=
  if hp : 0 < size.toNat then
    if hf : basePort.toNat + size.toNat ≤ 65536 then .ok ⟨host, basePort, size.toNat, hp, hf⟩
    else .error (.portRange basePort size)
  else .error .empty

/-- The pool of a target section. -/
def ofTarget? (t : Target) : Except PoolError Pool := make? t.host t.basePort t.poolSize

/-- The endpoint of a shard. -/
def endpoint (p : Pool) (i : Nat) : Endpoint := ⟨p.host, p.basePort + i.toUInt16⟩

/-- The shard that an endpoint belongs to. -/
def indexOf? (p : Pool) (e : Endpoint) : Option Nat :=
  if p.basePort ≤ e.port ∧ e.port.toNat - p.basePort.toNat < p.size then
    some (e.port.toNat - p.basePort.toNat)
  else none

/-- The endpoints in the order of the shards. -/
def endpoints (p : Pool) : List Endpoint := (List.range p.size).map p.endpoint

@[simp] theorem length_endpoints (p : Pool) : p.endpoints.length = p.size := by
  simp [endpoints]

/-- Shard `i` listens on the base port plus `i`. -/
theorem port_endpoint (p : Pool) {i : Nat} (hi : i < p.size) :
    (p.endpoint i).port.toNat = p.basePort.toNat + i := by
  have := p.fits
  simp only [endpoint, UInt16.toNat_add, Nat.toUInt16, UInt16.toNat_ofNat']
  omega

/-- Different shards have different endpoints. -/
theorem endpoint_inj (p : Pool) {i j : Nat} (hi : i < p.size) (hj : j < p.size) :
    p.endpoint i = p.endpoint j ↔ i = j := by
  constructor
  · intro h
    have hport := congrArg (fun e => e.port.toNat) h
    simp only [port_endpoint p hi, port_endpoint p hj] at hport
    omega
  · rintro rfl
    rfl

/-- The endpoint of a shard stands at its index. -/
theorem getElem?_endpoints (p : Pool) {i : Nat} (hi : i < p.size) :
    p.endpoints[i]? = some (p.endpoint i) := by
  rw [endpoints, List.getElem?_map, List.getElem?_range hi, Option.map_some]

/-- The endpoints of a pool are those of its shards. -/
theorem mem_endpoints_iff (p : Pool) (e : Endpoint) :
    e ∈ p.endpoints ↔ ∃ i < p.size, p.endpoint i = e := by
  simp only [endpoints, List.mem_map, List.mem_range]

/-- The endpoint of a shard belongs to that shard. -/
theorem indexOf?_endpoint (p : Pool) {i : Nat} (hi : i < p.size) :
    p.indexOf? (p.endpoint i) = some i := by
  have h := port_endpoint p hi
  simp only [indexOf?, UInt16.le_iff_toNat_le, h]
  rw [if_pos (by omega)]
  simp

/-- A pool is made of what it is asked for. -/
theorem parts_of_make? {host : String} {basePort size : UInt16} {p : Pool}
    (h : make? host basePort size = .ok p) :
    p.host = host ∧ p.basePort = basePort ∧ p.size = size.toNat := by
  unfold make? at h
  split at h
  · split at h
    · obtain rfl := Except.ok.inj h
      exact ⟨rfl, rfl, rfl⟩
    · cases h
  · cases h

/-- A host, a base port and a size make a pool exactly when there is a shard and
no port is past the last one. -/
theorem make?_isOk_iff (host : String) (basePort size : UInt16) :
    (∃ p, make? host basePort size = .ok p) ↔
      0 < size.toNat ∧ basePort.toNat + size.toNat ≤ 65536 := by
  by_cases hp : 0 < size.toNat
  · by_cases hf : basePort.toNat + size.toNat ≤ 65536 <;> simp [make?, hp, hf]
  · simp [make?, hp]

end Pool
end ShardLoad
