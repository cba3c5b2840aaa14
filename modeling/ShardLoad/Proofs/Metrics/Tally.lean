import Mathlib.Data.List.Count
import Mathlib.Data.List.Induction
import ShardLoad.Proofs.Metrics.Bookkeeping

/-!
# Tallies

The counts of a recorder are kept up to date one key at a time.  What comes of that is the
tally of the keys that were met: it has an entry for each of them and for nothing else, and
the entry says how often the key was met.

Where keys are names of things, a tally is read as one of things.

* `Counts.meet`: counts by what is met, if anything is.
* `Counts.tally`, `find?_tally`, `total_tally`: the tally of a list of keys.
* `Counts.Shows`, `shows_tally`: a tally as one of things that have names.
-/

namespace ShardLoad.Counts

/-- The counts after a key was met once more, if one was. -/
def meet : Option String → Counts → Counts
  | some key, c => bump key c
  | none, c => c

/-- The keys of a list, each with how often it was met. -/
def tally (keys : List String) : Counts := keys.foldl (fun c key => bump key c) []

/-- One more key is met once more. -/
theorem tally_concat (keys : List String) (key : String) :
    tally (keys ++ [key]) = bump key (tally keys) := List.foldl_append

theorem ordered_tally (keys : List String) : Keyed.Ordered (tally keys) := by
  induction keys using List.reverseRecOn with
  | nil => exact .nil
  | append_singleton keys key ih =>
    rw [tally_concat]
    exact Keyed.ordered_update _ _ ih

/-- A key that was met stands for how often it was, and no other key is there. -/
theorem find?_tally (keys : List String) (key : String) :
    Keyed.find? key (tally keys) =
      if keys.count key = 0 then none else some (keys.count key) := by
  induction keys using List.reverseRecOn with
  | nil => rfl
  | append_singleton keys k ih =>
    rw [tally_concat, List.count_append, List.count_singleton, bump]
    by_cases hk : k = key
    · subst hk
      rw [Keyed.find?_update_self _ _ (ordered_tally keys), ih, beq_self_eq_true, if_pos rfl,
        if_neg (Nat.succ_ne_zero _)]
      split
      · rename_i hzero
        rw [hzero]
        rfl
      · rfl
    · rw [Keyed.find?_update_of_ne (Ne.symm hk), ih, beq_false_of_ne hk, if_neg Bool.false_ne_true,
        Nat.add_zero]

/-- The keys of a tally were met. -/
theorem mem_of_mem_tally {keys : List String} {kv : String × Nat} (h : kv ∈ tally keys) :
    kv.1 ∈ keys := by
  induction keys using List.reverseRecOn with
  | nil => exact absurd h List.not_mem_nil
  | append_singleton keys k ih =>
    rw [tally_concat] at h
    rw [List.mem_append, List.mem_singleton]
    exact (Keyed.mem_update h).symm.imp_left ih

/-- One more key counts one more in all. -/
theorem total_bump (key : String) (c : Counts) : total (bump key c) = total c + 1 := by
  induction c with
  | nil => rfl
  | cons entry rest ih =>
    obtain ⟨k, n⟩ := entry
    simp only [bump, Keyed.update] at ih ⊢
    split
    · simp only [total, List.foldr_cons, Option.getD_none]
      omega
    · split
      · simp only [total, List.foldr_cons, Option.getD_some]
        omega
      · simp only [total, List.foldr_cons] at ih ⊢
        omega

/-- All keys of a list are in its tally. -/
theorem total_tally (keys : List String) : total (tally keys) = keys.length := by
  induction keys using List.reverseRecOn with
  | nil => rfl
  | append_singleton keys k ih =>
    rw [tally_concat, total_bump, ih, List.length_append, List.length_singleton]

/-! ## Things with names -/

variable {β : Type}

/-- Counts show how often each of the things that have names was met: it is found under its
name if it was met at all, and nothing else is there. -/
structure Shows (name : β → String) (times : β → Nat) (c : Counts) : Prop where
  ordered : Keyed.Ordered c
  found : ∀ b, Keyed.find? (name b) c = if times b = 0 then none else some (times b)
  named : ∀ kv ∈ c, ∃ b, kv.1 = name b

/-- Counts show how often something was met however that is worked out. -/
theorem Shows.congr {name : β → String} {times times' : β → Nat} {c : Counts}
    (h : Shows name times c) (heq : ∀ b, times b = times' b) : Shows name times' c :=
  funext heq ▸ h

/-- If different things have different names, the tally of their names shows them. -/
theorem shows_tally [DecidableEq β] {name : β → String} (hname : name.Injective) (bs : List β) :
    Shows name (fun b => bs.count b) (tally (bs.map name)) where
  ordered := ordered_tally _
  found b := by rw [find?_tally, List.count_map_of_injective _ _ hname]
  named kv hkv := by
    obtain ⟨b, -, hb⟩ := List.mem_map.mp (mem_of_mem_tally hkv)
    exact ⟨b, hb.symm⟩

end ShardLoad.Counts
