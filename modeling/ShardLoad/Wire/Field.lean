import ShardLoad.Wire.Varint

/-!
# Fields of an encoded message

An encoded message is a row of fields.  A field starts with a key, a
variable-length integer below `2 ^ 32` that holds the field's number, which is
not zero, and the form of its value: a variable-length integer, eight octets, a
counted string of octets, a group up to its own end mark, or four octets.

`parse?` takes a string of octets apart into its fields and knows nothing of
what they mean.  A group is only skipped, so nothing of it is kept.  Groups nest;
a budget bounds how deep.

* `Field.encode`: one field.
* `parse?`: all fields of a message, `none` if the octets do not end with one.
* `parse?_of_decodeField?`: a string that starts with a field.
-/

namespace ShardLoad.Wire

/-- The forms of a field's value. -/
inductive WireType where
  | varint
  | fixed64
  | delimited
  | groupStart
  | groupEnd
  | fixed32
  deriving Repr, DecidableEq

namespace WireType

/-- The three bits of a key that stand for a form. -/
def number : WireType → Nat
  | varint => 0
  | fixed64 => 1
  | delimited => 2
  | groupStart => 3
  | groupEnd => 4
  | fixed32 => 5

/-- The form that three bits stand for; two patterns stand for none. -/
def ofNumber? : Nat → Option WireType
  | 0 => some varint
  | 1 => some fixed64
  | 2 => some delimited
  | 3 => some groupStart
  | 4 => some groupEnd
  | 5 => some fixed32
  | _ => none

@[simp] theorem ofNumber?_number (t : WireType) : ofNumber? t.number = some t := by
  cases t <;> rfl

end WireType

/-- What a field holds. -/
inductive FieldValue where
  | varint (n : Nat)
  | fixed64 (octets : Bytes)
  | delimited (octets : Bytes)
  | group
  | fixed32 (octets : Bytes)
  deriving Repr, DecidableEq

/-- A numbered value. -/
structure Field where
  number : Nat
  value : FieldValue
  deriving Repr, DecidableEq

/-- A field number and a form as one integer. -/
def encodeKey (number : Nat) (t : WireType) : Bytes := Varint.encode (8 * number + t.number)

/-- The octets of a field; of a group only its two marks are known. -/
def Field.encode (f : Field) : Bytes :=
  match f.value with
  | .varint n => encodeKey f.number .varint ++ Varint.encode n
  | .fixed64 bs => encodeKey f.number .fixed64 ++ bs
  | .delimited bs => encodeKey f.number .delimited ++ (Varint.encode bs.length ++ bs)
  | .group => encodeKey f.number .groupStart ++ encodeKey f.number .groupEnd
  | .fixed32 bs => encodeKey f.number .fixed32 ++ bs

/-- The field number and the form at the start of a string of octets. -/
def decodeKey? (bs : Bytes) : Option (Nat × WireType × Bytes) := do
  let (key, rest) ← Varint.decode? bs
  if 2 ^ 32 ≤ key then none
  else
    let t ← WireType.ofNumber? (key % 8)
    if key / 8 = 0 then none else some (key / 8, t, rest)

/-- The first `n` octets and the rest. -/
def split? (n : Nat) (bs : Bytes) : Option (Bytes × Bytes) :=
  if n ≤ bs.length then some (bs.take n, bs.drop n) else none

theorem length_lt_of_decodeKey? {bs rest : Bytes} {n : Nat} {t : WireType}
    (h : decodeKey? bs = some (n, t, rest)) : rest.length < bs.length := by
  simp only [decodeKey?, bind, Option.bind_eq_some_iff, Prod.exists] at h
  obtain ⟨key, r, hr, h⟩ := h
  split at h
  · simp at h
  · obtain ⟨u, -, h⟩ := Option.bind_eq_some_iff.1 h
    split at h
    · simp at h
    · simp only [Option.some.injEq, Prod.mk.injEq] at h
      obtain ⟨-, -, rfl⟩ := h
      exact Varint.length_lt_of_decode? hr

theorem length_le_of_split? {n : Nat} {bs taken rest : Bytes}
    (h : split? n bs = some (taken, rest)) : rest.length ≤ bs.length := by
  simp only [split?] at h
  split at h
  · simp only [Option.some.injEq, Prod.mk.injEq] at h
    simp [← h.2]
  · simp at h

/-! ## Values -/

/-- What follows a value that is neither the start nor the end of a group. -/
def skipPlain? (t : WireType) (bs : Bytes) : Option Bytes :=
  match t with
  | .varint => (Varint.decode? bs).map (·.2)
  | .fixed64 => (split? 8 bs).map (·.2)
  | .fixed32 => (split? 4 bs).map (·.2)
  | .delimited => do
    let (n, rest) ← Varint.decode? bs
    (split? n rest).map (·.2)
  | .groupStart | .groupEnd => none

theorem length_le_of_skipPlain? {t : WireType} {bs rest : Bytes}
    (h : skipPlain? t bs = some rest) : rest.length ≤ bs.length := by
  cases t <;> simp only [skipPlain?, Option.map_eq_some_iff, Prod.exists, bind,
    Option.bind_eq_some_iff, reduceCtorEq] at h
  · obtain ⟨v, r, hr, rfl⟩ := h
    exact Nat.le_of_lt (Varint.length_lt_of_decode? hr)
  · obtain ⟨v, r, hr, rfl⟩ := h
    exact length_le_of_split? hr
  · obtain ⟨n, r, hr, v, r', hr', rfl⟩ := h
    exact Nat.le_trans (length_le_of_split? hr') (Nat.le_of_lt (Varint.length_lt_of_decode? hr))
  · obtain ⟨v, r, hr, rfl⟩ := h
    exact length_le_of_split? hr

/-- What follows the end of the outermost of the open groups, whose numbers are
given innermost first.  Nothing but an end mark may stand inside so many groups
as the budget allows. -/
def skipGroups? (budget : Nat) (opened : List Nat) (bs : Bytes) : Option Bytes :=
  match opened with
  | [] => some bs
  | innermost :: outer =>
    match _hk : decodeKey? bs with
    | none => none
    | some (number, t, rest) =>
      if t = .groupEnd then
        if number = innermost then skipGroups? budget outer rest else none
      else if budget ≤ opened.length then none
      else if t = .groupStart then skipGroups? budget (number :: opened) rest
      else
        match _hs : skipPlain? t rest with
        | none => none
        | some rest' => skipGroups? budget opened rest'
termination_by bs.length
decreasing_by
  · exact length_lt_of_decodeKey? _hk
  · exact length_lt_of_decodeKey? _hk
  · exact Nat.lt_of_le_of_lt (length_le_of_skipPlain? _hs) (length_lt_of_decodeKey? _hk)

theorem length_le_of_skipGroups? {budget : Nat} {opened : List Nat} {bs rest : Bytes}
    (h : skipGroups? budget opened bs = some rest) : rest.length ≤ bs.length := by
  fun_induction skipGroups? budget opened bs generalizing rest <;>
    grind [→ length_lt_of_decodeKey?, → length_le_of_skipPlain?]

/-- What a key does inside open groups: the mark of the innermost ends it, the start
of a group opens one, and any other value is passed over. -/
theorem skipGroups?_of_decodeKey? {budget innermost number : Nat} {outer : List Nat}
    {t : WireType} {bs rest : Bytes} (h : decodeKey? bs = some (number, t, rest)) :
    skipGroups? budget (innermost :: outer) bs =
      if t = .groupEnd then if number = innermost then skipGroups? budget outer rest else none
      else if budget ≤ (innermost :: outer).length then none
      else if t = .groupStart then skipGroups? budget (number :: innermost :: outer) rest
      else (skipPlain? t rest).bind (skipGroups? budget (innermost :: outer)) := by
  rw [skipGroups?]
  split
  · simp_all
  · rename_i number' t' rest' hkey
    obtain ⟨rfl, rfl, rfl⟩ : number = number' ∧ t = t' ∧ rest = rest' := by simpa [h] using hkey
    congr 3
    split <;> rename_i hskip <;> rw [hskip] <;> rfl

/-- The value of a form at the start of a string of octets and what follows. -/
def decodeValue? (budget number : Nat) (t : WireType) (bs : Bytes) :
    Option (FieldValue × Bytes) :=
  match t with
  | .varint => (Varint.decode? bs).map fun (n, rest) => (.varint n, rest)
  | .fixed64 => (split? 8 bs).map fun (v, rest) => (.fixed64 v, rest)
  | .fixed32 => (split? 4 bs).map fun (v, rest) => (.fixed32 v, rest)
  | .delimited => do
    let (n, rest) ← Varint.decode? bs
    (split? n rest).map fun (v, rest) => (.delimited v, rest)
  | .groupStart => (skipGroups? budget [number] bs).map fun rest => (.group, rest)
  | .groupEnd => none

theorem length_le_of_decodeValue? {budget number : Nat} {t : WireType} {bs rest : Bytes}
    {v : FieldValue} (h : decodeValue? budget number t bs = some (v, rest)) :
    rest.length ≤ bs.length := by
  cases t <;> simp only [decodeValue?, Option.map_eq_some_iff, Prod.exists, Prod.mk.injEq, bind,
    Option.bind_eq_some_iff, reduceCtorEq] at h
  · obtain ⟨n, r, hr, -, rfl⟩ := h
    exact Nat.le_of_lt (Varint.length_lt_of_decode? hr)
  · obtain ⟨n, r, hr, -, rfl⟩ := h
    exact length_le_of_split? hr
  · obtain ⟨n, r, hr, w, r', hr', -, rfl⟩ := h
    exact Nat.le_trans (length_le_of_split? hr') (Nat.le_of_lt (Varint.length_lt_of_decode? hr))
  · obtain ⟨r, hr, -, rfl⟩ := h
    exact length_le_of_skipGroups? hr
  · obtain ⟨n, r, hr, -, rfl⟩ := h
    exact length_le_of_split? hr

/-- The first field of a string of octets and what follows. -/
def decodeField? (budget : Nat) (bs : Bytes) : Option (Field × Bytes) := do
  let (number, t, rest) ← decodeKey? bs
  let (v, rest) ← decodeValue? budget number t rest
  some (⟨number, v⟩, rest)

theorem length_lt_of_decodeField? {budget : Nat} {bs rest : Bytes} {f : Field}
    (h : decodeField? budget bs = some (f, rest)) : rest.length < bs.length := by
  simp only [decodeField?, bind, Option.bind_eq_some_iff, Prod.exists, Option.some.injEq,
    Prod.mk.injEq] at h
  obtain ⟨n, t, r, hr, v, r', hv, -, rfl⟩ := h
  exact Nat.lt_of_le_of_lt (length_le_of_decodeValue? hv) (length_lt_of_decodeKey? hr)

/-- The fields of a string of octets. -/
def parse? (budget : Nat) (bs : Bytes) : Option (List Field) :=
  if bs = [] then some []
  else
    match _h : decodeField? budget bs with
    | none => none
    | some (f, rest) => (parse? budget rest).map (f :: ·)
termination_by bs.length
decreasing_by exact length_lt_of_decodeField? _h

@[simp] theorem parse?_nil (budget : Nat) : parse? budget [] = some [] := by
  rw [parse?, if_pos rfl]

theorem parse?_of_decodeField? {budget : Nat} {bs rest : Bytes} {f : Field}
    (h : decodeField? budget bs = some (f, rest)) :
    parse? budget bs = (parse? budget rest).map (f :: ·) := by
  have hne : bs ≠ [] := by
    rintro rfl
    simpa using length_lt_of_decodeField? h
  rw [parse?, if_neg hne]
  split <;> simp_all

end ShardLoad.Wire
