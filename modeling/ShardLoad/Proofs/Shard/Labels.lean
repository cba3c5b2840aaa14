import ShardLoad.Proofs.Text.Digits
import ShardLoad.Run.Transport
import Std.Data.String.ToNat

/-!
# Names tell shards apart

A shard is counted under two names: the label of its endpoint, and the five digits
of its port.  On one host neither is shared by two ports.

* `Endpoint.label_inj`: endpoints of one host with one label have one port.
* `portKey_inj`: ports with one key are the same.
-/

namespace ShardLoad

/-- On one host, a label belongs to one port. -/
theorem Endpoint.label_inj {host : String} {p q : UInt16} :
    (Endpoint.mk host p).label = (Endpoint.mk host q).label ↔ p = q := by
  constructor
  · intro h
    have h : toString host ++ ":" ++ toString p.toNat = toString host ++ ":" ++ toString q.toNat := h
    have hd : toString p.toNat = toString q.toNat := by
      have hl := congrArg String.toList h
      rw [String.toList_append, String.toList_append, String.toList_append,
        String.toList_append] at hl
      exact String.toList_inj.mp (List.append_cancel_left hl)
    exact UInt16.toNat_inj.mp (Nat.repr_injective hd)
  · rintro rfl
    rfl

/-- The digits of a port key are a number with zeros in front. -/
theorem ofDigitChars_portKey (p : UInt16) :
    Nat.ofDigitChars 10 (portKey p).toList 0 = p.toNat := by
  unfold portKey
  rw [String.toList_ofList, ofDigitChars_filled]

/-- A port key belongs to one port. -/
theorem portKey_inj {p q : UInt16} : portKey p = portKey q ↔ p = q := by
  constructor
  · intro h
    have hd := ofDigitChars_portKey p
    rw [h, ofDigitChars_portKey q] at hd
    exact UInt16.toNat_inj.mp hd.symm
  · rintro rfl
    rfl

end ShardLoad
