/-!
# Keyed lists

A keyed list gives values to texts.  Its pairs come in increasing order of their
keys, so two lists that say the same are equal, and whoever goes through one
meets the keys in order.

`Counts` are keyed lists of numbers: how often each key was met.  A key that was
never met does not appear.

* `Keyed.find?`, `Keyed.insert`, `Keyed.update`: a list by its keys.
* `find?_update_self`, `find?_update_of_ne`: what an update changes.
* `Counts.bump`, `Counts.count`: counting.
-/

namespace ShardLoad

/-- Keys with what they stand for, in increasing order of the keys. -/
abbrev Keyed (α : Type) := List (String × α)

namespace Keyed

variable {α : Type}

/-- What a key stands for. -/
def find? (key : String) : Keyed α → Option α
  | [] => none
  | (k, v) :: rest => if k = key then some v else find? key rest

/-- The list with what stands at a key changed, or put there. -/
def update (key : String) (change : Option α → α) : Keyed α → Keyed α
  | [] => [(key, change none)]
  | (k, v) :: rest =>
    if key < k then (key, change none) :: (k, v) :: rest
    else if key = k then (key, change (some v)) :: rest
    else (k, v) :: update key change rest

/-- The list with a key added, or with a new meaning for a key. -/
def insert (key : String) (value : α) (l : Keyed α) : Keyed α := update key (fun _ => value) l

/-- The keyed list of pairs in any order; of several pairs with one key the last
counts. -/
def ofPairs (pairs : List (String × α)) : Keyed α :=
  pairs.foldl (fun l kv => insert kv.1 kv.2 l) []

/-- Whether the keys come in increasing order. -/
def Ordered (l : Keyed α) : Prop := l.Pairwise fun a b => a.1 < b.1

/-- No key in front of the first one of an ordered list is found. -/
theorem find?_eq_none_of_lt {key : String} {l : Keyed α} (h : ∀ kv ∈ l, key < kv.1) :
    find? key l = none := by
  induction l with
  | nil => rfl
  | cons kv rest ih =>
    obtain ⟨k, v⟩ := kv
    have hk : key < k := h (k, v) (by simp)
    have hne : k ≠ key := fun e => String.lt_irrefl key (e ▸ hk)
    simp only [find?, hne, if_false]
    exact ih fun kv hkv => h kv (by simp [hkv])

theorem find?_update_of_ne {key other : String} (h : other ≠ key) (change : Option α → α)
    (l : Keyed α) : find? other (update key change l) = find? other l := by
  induction l with
  | nil => simp [update, find?, Ne.symm h]
  | cons kv rest ih =>
    obtain ⟨k, v⟩ := kv
    simp only [update]
    split
    · simp [find?, Ne.symm h]
    · split
      · rename_i hk
        subst hk
        simp [find?, Ne.symm h]
      · simp [find?, ih]

/-- A key stands for what the change made of it. -/
theorem find?_update_self (key : String) (change : Option α → α) {l : Keyed α}
    (h : Ordered l) : find? key (update key change l) = some (change (find? key l)) := by
  induction l with
  | nil => simp [update, find?]
  | cons kv rest ih =>
    obtain ⟨k, v⟩ := kv
    have hr : Ordered rest := (List.pairwise_cons.1 h).2
    simp only [update]
    split
    · rename_i hlt
      have hn : find? key ((k, v) :: rest) = none := by
        refine find?_eq_none_of_lt fun kv hkv => ?_
        rcases List.mem_cons.1 hkv with rfl | hm
        · exact hlt
        · exact String.lt_trans hlt ((List.pairwise_cons.1 h).1 kv hm)
      rw [hn]
      simp [find?]
    · split
      · rename_i hk
        subst hk
        simp [find?]
      · rename_i hk
        simp [find?, Ne.symm hk, ih hr]

/-- The keys after an update are those before it and the updated one. -/
theorem mem_update {key : String} {change : Option α → α} {l : Keyed α} {kv : String × α}
    (h : kv ∈ update key change l) : kv.1 = key ∨ kv ∈ l := by
  induction l with
  | nil => simp_all [update]
  | cons p rest ih =>
    obtain ⟨k, v⟩ := p
    simp only [update] at h
    split at h
    · rcases List.mem_cons.1 h with rfl | hm
      · exact .inl rfl
      · exact .inr hm
    · split at h
      · rcases List.mem_cons.1 h with rfl | hm
        · exact .inl rfl
        · exact .inr (by simp [hm])
      · rcases List.mem_cons.1 h with rfl | hm
        · exact .inr (by simp)
        · exact (ih hm).imp id fun hm => by simp [hm]

/-- An update keeps the order. -/
theorem ordered_update (key : String) (change : Option α → α) {l : Keyed α} (h : Ordered l) :
    Ordered (update key change l) := by
  induction l with
  | nil => simp [update, Ordered]
  | cons kv rest ih =>
    obtain ⟨k, v⟩ := kv
    have hr : Ordered rest := (List.pairwise_cons.1 h).2
    have hk := (List.pairwise_cons.1 h).1
    simp only [update]
    split
    · rename_i hlt
      refine List.pairwise_cons.2 ⟨fun kv hkv => ?_, h⟩
      rcases List.mem_cons.1 hkv with rfl | hm
      · exact hlt
      · exact String.lt_trans hlt (hk kv hm)
    · split
      · rename_i he
        subst he
        exact List.pairwise_cons.2 ⟨hk, hr⟩
      · rename_i hnlt hne
        refine List.pairwise_cons.2 ⟨fun kv hkv => ?_, ih hr⟩
        rcases mem_update hkv with he | hm
        · rw [he]
          rcases Std.lt_trichotomy key k with hlt | he | hgt
          · exact absurd hlt hnlt
          · exact absurd he hne
          · exact hgt
        · exact hk kv hm

end Keyed

/-- How often each key was met. -/
abbrev Counts := Keyed Nat

namespace Counts

/-- How often a key was met. -/
def count (key : String) (c : Counts) : Nat := (Keyed.find? key c).getD 0

/-- The counts after a key was met once more. -/
def bump (key : String) (c : Counts) : Counts := Keyed.update key (fun n => n.getD 0 + 1) c

/-- How often any key was met. -/
def total (c : Counts) : Nat := c.foldr (fun entry n => entry.2 + n) 0

/-- The key that is met counts one more. -/
theorem count_bump_self (key : String) {c : Counts} (h : Keyed.Ordered c) :
    count key (bump key c) = count key c + 1 := by
  simp [count, bump, Keyed.find?_update_self key _ h]

/-- Every other key counts the same. -/
theorem count_bump_of_ne {key other : String} (h : other ≠ key) (c : Counts) :
    count other (bump key c) = count other c := by
  simp [count, bump, Keyed.find?_update_of_ne h]

end Counts
end ShardLoad
