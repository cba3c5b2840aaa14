import ShardLoad.Keyed

/-!
# Laws of keyed lists

A keyed list is built up by updates, one key after the other.  Where the keys are different the
order of the updates does not matter; of two updates of one key the second sees what the first
made.  Keys that come in order leave the list as it stands.  Values may be changed before a list is
built or afterwards.  The same holds of entries that are left out, as long as no key comes twice.

* `update_update_self`, `update_comm`: two updates.
* `forall_key_ofPairs`, `ofPairs_of_ordered`: what a list has that is built from pairs, and pairs that
  are in order.
* `map_insert`, `ofPairs_map`: changed values.
* `filter_insert`, `ofPairs_filter`: entries that are left out.
-/

namespace ShardLoad.Keyed

variable {α β : Type} {key other : String} {change change' : Option α → α} {l : Keyed α}

/-! ## Two updates -/

/-- What stands at a key is changed twice. -/
theorem update_update_self (key : String) (change change' : Option α → α) (l : Keyed α) :
    update key change' (update key change l) =
      update key (fun v => change' (some (change v))) l := by
  induction l with
  | nil => simp [update]
  | cons kv rest ih =>
    obtain ⟨k, v⟩ := kv
    by_cases hlt : key < k
    · simp [update, hlt]
    · by_cases heq : key = k
      · simp [update, heq]
      · simp [update, hlt, heq, ih]

/-- Of two keys the update of the smaller one does not see that of the greater one. -/
theorem update_update_of_lt (h : key < other) (change change' : Option α → α) (l : Keyed α) :
    update key change (update other change' l) = update other change' (update key change l) := by
  have hne : key ≠ other := fun he => String.lt_irrefl other (he ▸ h)
  have hge : ¬other < key := fun hgt => String.lt_irrefl key (String.lt_trans h hgt)
  induction l with
  | nil => simp [update, h, hge, Ne.symm hne]
  | cons kv rest ih =>
    obtain ⟨k, v⟩ := kv
    by_cases hko : other < k
    · have hkk : key < k := String.lt_trans h hko
      simp [update, hko, hkk, h, hge, Ne.symm hne]
    · by_cases heo : other = k
      · subst heo
        simp [update, h, hge, Ne.symm hne]
      · by_cases hkk : key < k
        · simp [update, hko, heo, hkk, hge, Ne.symm hne]
        · by_cases hek : key = k
          · simp [update, hko, heo, hek]
          · simp [update, hko, heo, hkk, hek, ih]

/-- Two updates may be exchanged, if the changes may where they are of one key. -/
theorem update_comm (h : key = other → ∀ v, change (some (change' v)) = change' (some (change v)))
    (l : Keyed α) :
    update key change (update other change' l) = update other change' (update key change l) := by
  rcases Std.lt_trichotomy key other with hlt | rfl | hgt
  · exact update_update_of_lt hlt change change' l
  · rw [update_update_self, update_update_self]
    exact congrArg (update key · l) (funext (h rfl))
  · exact (update_update_of_lt hgt change' change l).symm

/-! ## Insertions -/

/-- Of two values for one key the second counts. -/
theorem insert_insert_self (key : String) (v w : α) (l : Keyed α) :
    insert key w (insert key v l) = insert key w l := update_update_self key _ _ l

theorem ordered_insert (key : String) (v : α) (h : Ordered l) : Ordered (insert key v l) :=
  ordered_update key _ h

theorem find?_insert_self (key : String) (v : α) (h : Ordered l) :
    find? key (insert key v l) = some v := find?_update_self key _ h

theorem find?_insert_of_ne (h : other ≠ key) (v : α) (l : Keyed α) :
    find? other (insert key v l) = find? other l := find?_update_of_ne h _ l

/-- A key in front of all others comes first. -/
theorem insert_of_lt (h : ∀ kv ∈ l, key < kv.1) (v : α) : insert key v l = (key, v) :: l := by
  cases l with
  | nil => rfl
  | cons kv rest => simp only [insert, update, h kv List.mem_cons_self, if_true]

/-- A key behind all others comes last. -/
theorem insert_of_gt (h : ∀ kv ∈ l, kv.1 < key) (v : α) : insert key v l = l ++ [(key, v)] := by
  induction l with
  | nil => rfl
  | cons kv rest ih =>
    obtain ⟨k, w⟩ := kv
    rw [List.forall_mem_cons] at h
    have hlt : k < key := h.1
    have hge : ¬key < k := fun hgt => String.lt_irrefl key (String.lt_trans hgt hlt)
    have hne : key ≠ k := fun he => String.lt_irrefl k (he ▸ hlt)
    rw [List.cons_append, ← ih h.2]
    simp only [insert, update, hge, hne, if_false]

/-- A list that is built from pairs is in order. -/
theorem ordered_ofPairs (pairs : List (String × α)) : Ordered (ofPairs pairs) := by
  have hfrom : ∀ l : Keyed α, Ordered l →
      Ordered (pairs.foldl (fun l kv => insert kv.1 kv.2 l) l) := by
    induction pairs with
    | nil => exact fun _ hl => hl
    | cons kv pairs ih => exact fun l hl => ih (insert kv.1 kv.2 l) (ordered_insert kv.1 kv.2 hl)
  exact hfrom [] List.Pairwise.nil

/-- Pairs in the order of their keys are a keyed list as they stand. -/
theorem ofPairs_of_ordered (h : Ordered l) : ofPairs l = l := by
  have hfrom : ∀ (m before : Keyed α), Ordered (before ++ m) →
      m.foldl (fun l kv => insert kv.1 kv.2 l) before = before ++ m := by
    intro m
    induction m with
    | nil => exact fun before _ => (List.append_nil before).symm
    | cons kv m ih =>
      intro before hordered
      have hlast : insert kv.1 kv.2 before = before ++ [kv] :=
        insert_of_gt (fun other ho => (List.pairwise_append.mp hordered).2.2 other ho kv
          List.mem_cons_self) kv.2
      rw [List.foldl_cons, hlast, ih (before ++ [kv]) (by simpa using hordered),
        List.append_assoc]
      rfl
  exact hfrom l [] h

/-- A key that is not found is none of the keys. -/
theorem ne_of_find?_eq_none (h : find? key l = none) : ∀ kv ∈ l, kv.1 ≠ key := by
  induction l with
  | nil => simp
  | cons kv rest ih =>
    obtain ⟨k, v⟩ := kv
    rw [find?] at h
    by_cases hk : k = key
    · rw [if_pos hk] at h
      exact absurd h (Option.some_ne_none v)
    · rw [if_neg hk] at h
      rw [List.forall_mem_cons]
      exact ⟨hk, ih h⟩

/-- An entry of an ordered list is the one that is found under its key. -/
theorem find?_of_mem (h : Ordered l) {kv : String × α} (hkv : kv ∈ l) :
    find? kv.1 l = some kv.2 := by
  induction l with
  | nil => exact absurd hkv List.not_mem_nil
  | cons entry rest ih =>
    obtain ⟨k, v⟩ := entry
    obtain ⟨hk, hr⟩ := List.pairwise_cons.mp h
    rcases List.mem_cons.mp hkv with rfl | hm
    · exact if_pos rfl
    · have hne : k ≠ kv.1 := fun he => String.lt_irrefl k (he ▸ hk kv hm)
      rw [find?, if_neg hne]
      exact ih hr hm

/-! ## Changed values -/

/-- A value may be changed before it is inserted or afterwards. -/
theorem map_insert (f : α → β) (key : String) (v : α) (l : Keyed α) :
    (insert key v l).map (fun kv => (kv.1, f kv.2)) =
      insert key (f v) (l.map fun kv => (kv.1, f kv.2)) := by
  induction l with
  | nil => rfl
  | cons kv rest ih =>
    obtain ⟨k, w⟩ := kv
    simp only [insert, List.map_cons, update] at ih ⊢
    split
    · rfl
    · split
      · rfl
      · rw [List.map_cons, ih]

/-- Values may be changed before a list is built or afterwards. -/
theorem ofPairs_map (f : α → β) (pairs : List (String × α)) :
    ofPairs (pairs.map fun kv => (kv.1, f kv.2)) =
      (ofPairs pairs).map fun kv => (kv.1, f kv.2) := by
  have hfrom : ∀ l : Keyed α,
      (pairs.map fun kv => (kv.1, f kv.2)).foldl (fun l kv => insert kv.1 kv.2 l)
          (l.map fun kv => (kv.1, f kv.2)) =
        (pairs.foldl (fun l kv => insert kv.1 kv.2 l) l).map fun kv => (kv.1, f kv.2) := by
    induction pairs with
    | nil => exact fun _ => rfl
    | cons kv pairs ih =>
      intro l
      rw [List.map_cons, List.foldl_cons, List.foldl_cons, ← ih (insert kv.1 kv.2 l), map_insert]
  exact hfrom []

/-! ## Entries that are left out -/

/-- A new entry may be left out before it is inserted or afterwards. -/
theorem filter_insert (p : String × α → Bool) (hl : Ordered l) (hkey : find? key l = none)
    (v : α) :
    (insert key v l).filter p = if p (key, v) then insert key v (l.filter p) else l.filter p := by
  have hne := ne_of_find?_eq_none hkey
  clear hkey
  induction l with
  | nil => by_cases hp : p (key, v) = true <;> simp [insert, update, hp]
  | cons kv rest ih =>
    obtain ⟨k, w⟩ := kv
    obtain ⟨hk, hr⟩ := List.pairwise_cons.mp hl
    rw [List.forall_mem_cons] at hne
    by_cases hlt : key < k
    · have hfront : ∀ kv ∈ ((k, w) :: rest).filter p, key < kv.1 := by
        intro kv hkv
        rcases List.mem_cons.mp ((List.mem_filter.mp hkv).1) with rfl | hm
        · exact hlt
        · exact String.lt_trans hlt (hk kv hm)
      have hall : ∀ kv ∈ (k, w) :: rest, key < kv.1 := by
        rw [List.forall_mem_cons]
        exact ⟨hlt, fun kv hm => String.lt_trans hlt (hk kv hm)⟩
      rw [insert_of_lt hfront, insert_of_lt hall, List.filter_cons]
    · have hstep (m : Keyed α) : insert key v ((k, w) :: m) = (k, w) :: insert key v m := by
        simp only [insert, update, hlt, Ne.symm hne.1, if_false]
      rw [hstep, List.filter_cons, List.filter_cons, ih hr hne.2]
      by_cases hp : p (key, v) = true <;> by_cases hpw : p (k, w) = true <;>
        simp [hp, hpw, hstep]

/-- Entries may be left out before a list is built or afterwards, if no key comes twice. -/
theorem ofPairs_filter (p : String × α → Bool) {pairs : List (String × α)}
    (h : (pairs.map Prod.fst).Nodup) : ofPairs (pairs.filter p) = (ofPairs pairs).filter p := by
  have hfrom : ∀ l : Keyed α, Ordered l → (∀ kv ∈ pairs, find? kv.1 l = none) →
      (pairs.filter p).foldl (fun l kv => insert kv.1 kv.2 l) (l.filter p) =
        (pairs.foldl (fun l kv => insert kv.1 kv.2 l) l).filter p := by
    induction pairs with
    | nil => exact fun _ _ _ => rfl
    | cons kv pairs ih =>
      intro l hl hnew
      rw [List.map_cons, List.nodup_cons] at h
      rw [List.forall_mem_cons] at hnew
      have hinsert := filter_insert p hl hnew.1 kv.2
      have hrest := ih h.2 (insert kv.1 kv.2 l) (ordered_insert kv.1 kv.2 hl) fun other ho => by
        rw [find?_insert_of_ne, hnew.2 other ho]
        exact fun he => h.1 (he ▸ List.mem_map_of_mem ho)
      rw [List.foldl_cons, ← hrest, hinsert, List.filter_cons]
      split <;> rfl
  exact hfrom [] List.Pairwise.nil fun _ _ => rfl

end ShardLoad.Keyed
