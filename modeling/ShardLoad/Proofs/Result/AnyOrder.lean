import Mathlib.Data.List.Nodup
import ShardLoad.Proofs.Keyed
import ShardLoad.Proofs.Metrics.Bookkeeping
import ShardLoad.Result.Report
import ShardLoad.Result.StatusLine
import ShardLoad.Result.Summary

/-!
# The order of entries does not show

A snapshot counts by names: operations, categories, status codes.  Nothing is said about the order
in which the entries of such a map are met, and two enumerations of one map may be in different
orders.  Whatever is written of a snapshot is the same for all of them.

Each text brings the entries into an order of its own.  Objects of a report and operations of a
summary are built up as keyed lists, where insertions of different keys may be exchanged.
Rejections are sorted, by an order that leaves no two entries tied; and a category leads the status
line when it comes before all others in that order.  So there is one result that both enumerations
lead to.

* `Keyed.SameMap`: two enumerations of one map, with `SameMap.find?_eq` and `SameMap.ofPairs_eq`.
* `Summary.ranked_eq_of_perm`, `StatusLine.dominant?_eq_of_perm`: what is sorted and what leads.
* `Snapshot.Alike`: two snapshots whose maps are enumerated in different orders.
* `Summary.render_eq_of_alike`, `StatusLine.render_eq_of_alike`, `Report.toJson_eq_of_alike`: they
  are written alike.
-/

namespace ShardLoad

/-! ## Enumerations of a map -/

namespace Keyed

variable {α : Type} {l l' : Keyed α}

/-- Two enumerations of one map, which has each key once. -/
structure SameMap (l l' : Keyed α) : Prop where
  perm : l.Perm l'
  distinct : (l.map Prod.fst).Nodup

/-- What is found under a key is its entry, wherever that stands. -/
theorem find?_eq_some_iff (h : (l.map Prod.fst).Nodup) {key : String} {v : α} :
    find? key l = some v ↔ (key, v) ∈ l := by
  refine ⟨mem_of_find?, fun hmem => ?_⟩
  cases hfind : find? key l with
  | none => exact absurd rfl (ne_of_find?_eq_none hfind (key, v) hmem)
  | some w =>
    have hentry : (key, w) = (key, v) :=
      List.inj_on_of_nodup_map h (mem_of_find? hfind) hmem rfl
    rw [(Prod.mk.inj hentry).2]

/-- Keys in increasing order are different. -/
theorem Ordered.distinct (h : Ordered l) : (l.map Prod.fst).Nodup := by
  refine List.pairwise_map.mpr (h.imp ?_)
  intro a b hlt he
  exact String.lt_irrefl b.1 (he ▸ hlt)

namespace SameMap

theorem distinct' (h : SameMap l l') : (l'.map Prod.fst).Nodup :=
  (h.perm.map Prod.fst).nodup_iff.mp h.distinct

/-- What is found does not depend on the order. -/
theorem find?_eq (h : SameMap l l') (key : String) : find? key l = find? key l' := by
  ext v
  rw [find?_eq_some_iff h.distinct, find?_eq_some_iff h.distinct', h.perm.mem_iff]

/-- The keyed list that is built does not depend on the order. -/
theorem ofPairs_eq (h : SameMap l l') : ofPairs l = ofPairs l' := by
  refine h.perm.foldl_eq' (fun x hx y hy m => ?_) []
  refine update_comm (fun hkey _ => ?_) m
  -- two entries with one key are one entry
  have hentry : y = x := List.inj_on_of_nodup_map h.distinct hy hx hkey
  rw [hentry]

end SameMap

/-- The keys are different in any order. -/
theorem pairwise_key_ne (hp : l'.Perm l) (h : (l.map Prod.fst).Nodup) :
    l'.Pairwise fun a b => a.1 ≠ b.1 :=
  List.pairwise_map.mp ((hp.map Prod.fst).nodup_iff.mpr h)

/-- Entries with different keys that are sorted by their keys are in order. -/
theorem ordered_mergeSort (h : (l.map Prod.fst).Nodup) :
    Ordered (l.mergeSort fun a b => a.1 ≤ b.1) := by
  have hsorted : (l.mergeSort fun a b => a.1 ≤ b.1).Pairwise fun a b => a.1 ≤ b.1 := by
    refine (List.pairwise_mergeSort ?_ ?_ l).imp of_decide_eq_true
    · intro a b c hab hbc
      exact decide_eq_true (String.le_trans (of_decide_eq_true hab) (of_decide_eq_true hbc))
    · intro a b
      rw [Bool.or_eq_true, decide_eq_true_eq, decide_eq_true_eq]
      exact String.le_total a.1 b.1
  have hdistinct := pairwise_key_ne (List.mergeSort_perm l fun a b => a.1 ≤ b.1) h
  refine (hsorted.and hdistinct).imp fun ⟨hle, hne⟩ => ?_
  exact Std.lt_of_le_of_ne hle hne

/-- A keyed list that is built from entries with different keys has these entries. -/
theorem ofPairs_perm (h : (l.map Prod.fst).Nodup) : (ofPairs l).Perm l := by
  have hsame : SameMap l (l.mergeSort fun a b => a.1 ≤ b.1) :=
    ⟨(List.mergeSort_perm l _).symm, h⟩
  rw [hsame.ofPairs_eq, ofPairs_of_ordered (ordered_mergeSort h)]
  exact hsame.perm.symm

end Keyed

open Keyed

theorem Counts.count_eq_of_sameMap {c c' : Counts} (h : SameMap c c') (key : String) :
    c.count key = c'.count key := by
  rw [count, count, h.find?_eq]

/-! ## Counts by their frequency -/

namespace Summary

variable {a b c : String × Nat} {l l' : Counts}

theorem ranksBefore_iff : ranksBefore a b = true ↔ b.2 < a.2 ∨ a.2 = b.2 ∧ a.1 ≤ b.1 := by
  rw [ranksBefore, Bool.or_eq_true, decide_eq_true_eq, Bool.and_eq_true, beq_iff_eq,
    decide_eq_true_eq]

theorem ranksBefore_trans (hab : ranksBefore a b = true) (hbc : ranksBefore b c = true) :
    ranksBefore a c = true := by
  rw [ranksBefore_iff] at hab hbc ⊢
  rcases hab with hab | ⟨hab, hle⟩
  · left
    omega
  · rcases hbc with hbc | ⟨hbc, hle'⟩
    · left
      omega
    · exact Or.inr ⟨hab.trans hbc, String.le_trans hle hle'⟩

theorem ranksBefore_total (a b : String × Nat) :
    (ranksBefore a b || ranksBefore b a) = true := by
  rw [Bool.or_eq_true, ranksBefore_iff, ranksBefore_iff]
  rcases Nat.lt_trichotomy a.2 b.2 with hlt | heq | hgt
  · exact Or.inr (Or.inl hlt)
  · rcases String.le_total a.1 b.1 with hle | hle
    · exact Or.inl (Or.inr ⟨heq, hle⟩)
    · exact Or.inr (Or.inr ⟨heq.symm, hle⟩)
  · exact Or.inl (Or.inl hgt)

/-- No two counts are tied. -/
theorem ranksBefore_antisymm (hab : ranksBefore a b = true) (hba : ranksBefore b a = true) :
    a = b := by
  rw [ranksBefore_iff] at hab hba
  have hcount : a.2 = b.2 := by omega
  have hname : a.1 = b.1 := String.le_antisymm (by simpa [hcount] using hab)
    (by simpa [hcount] using hba)
  exact Prod.ext hname hcount

theorem pairwise_ranked (l : Counts) :
    (ranked l).Pairwise fun a b => ranksBefore a b = true :=
  List.pairwise_mergeSort (fun a b c => @ranksBefore_trans a b c) ranksBefore_total l

/-- The ranking of counts does not depend on the order in which they are met. -/
theorem ranked_eq_of_perm (h : l.Perm l') : ranked l = ranked l' := by
  have hperm : (ranked l).Perm (ranked l') :=
    (List.mergeSort_perm l _).trans (h.trans (List.mergeSort_perm l' _).symm)
  exact hperm.eq_of_pairwise (fun a b _ _ => ranksBefore_antisymm) (pairwise_ranked l)
    (pairwise_ranked l')

/-- Counts of different names are ranked by decreasing count, and then by increasing name. -/
theorem pairwise_ranked_of_distinct (h : (l.map Prod.fst).Nodup) :
    (ranked l).Pairwise fun a b => b.2 < a.2 ∨ a.2 = b.2 ∧ a.1 < b.1 := by
  have hdistinct := pairwise_key_ne (List.mergeSort_perm l ranksBefore) h
  refine ((pairwise_ranked l).and hdistinct).imp fun ⟨hrank, hne⟩ => ?_
  exact (ranksBefore_iff.mp hrank).imp id fun ⟨heq, hle⟩ => ⟨heq, Std.lt_of_le_of_ne hle hne⟩

end Summary

namespace StatusLine

open Summary (ranksBefore ranksBefore_iff ranksBefore_trans ranksBefore_total
  ranksBefore_antisymm)

variable {c c' : Counts}

/-- Of two counts the one leads that is ranked before the other. -/
theorem leading_eq (a b : String × Nat) : leading a b = if ranksBefore a b then a else b := by
  have hiff : (a.2 < b.2 ∨ a.2 = b.2 ∧ b.1 < a.1) ↔ ¬ranksBefore a b = true := by
    rw [ranksBefore_iff]
    constructor
    · rintro (hlt | ⟨heq, hlt⟩) (hgt | ⟨heq', hle⟩)
      · omega
      · omega
      · omega
      · exact absurd hle (String.not_le.mpr hlt)
    · intro hnot
      by_cases heq : a.2 = b.2
      · exact Or.inr ⟨heq, String.not_le.mp fun hle => hnot (Or.inr ⟨heq, hle⟩)⟩
      · left
        omega
  have hcond : (a.2 < b.2 || (a.2 == b.2 && b.1 < a.1)) = true ↔ ¬ranksBefore a b = true := by
    rw [← hiff, Bool.or_eq_true, decide_eq_true_eq, Bool.and_eq_true, beq_iff_eq,
      decide_eq_true_eq]
  unfold leading
  by_cases hrank : ranksBefore a b = true
  · rw [if_pos hrank, if_neg fun h => hcond.mp h hrank]
  · rw [if_neg hrank, if_pos (hcond.mpr hrank)]

/-- The one that leads is one of the counts, and ranked before all others. -/
theorem foldl_leading (a : String × Nat) (rest : Counts) :
    rest.foldl leading a ∈ a :: rest ∧
      ∀ b ∈ a :: rest, ranksBefore (rest.foldl leading a) b = true := by
  induction rest generalizing a with
  | nil =>
    refine ⟨List.mem_cons_self, fun b hb => ?_⟩
    rw [List.mem_singleton.mp hb]
    exact ranksBefore_iff.mpr (Or.inr ⟨rfl, String.le_refl _⟩)
  | cons x rest ih =>
    obtain ⟨hmem, hfirst⟩ := ih (leading a x)
    have hlead := hfirst _ List.mem_cons_self
    rw [List.foldl_cons]
    generalize hlast : rest.foldl leading (leading a x) = last at hmem hfirst hlead
    -- the one that leads of the first two is ranked before both
    have hpair : leading a x ∈ [a, x] ∧ ranksBefore (leading a x) a = true ∧
        ranksBefore (leading a x) x = true := by
      have hself (b : String × Nat) : ranksBefore b b = true :=
        ranksBefore_iff.mpr (Or.inr ⟨rfl, String.le_refl _⟩)
      rw [leading_eq]
      split
      · rename_i hax
        exact ⟨by simp, hself a, hax⟩
      · rename_i hax
        have hxa := ranksBefore_total a x
        rw [Bool.not_eq_true] at hax
        rw [hax, Bool.false_or] at hxa
        exact ⟨by simp, hxa, hself x⟩
    obtain ⟨hone, ha, hx⟩ := hpair
    constructor
    · rcases List.mem_cons.mp hmem with rfl | hrest
      · have := List.mem_append_left rest hone
        simpa using this
      · exact List.mem_cons_of_mem _ (List.mem_cons_of_mem _ hrest)
    · rw [List.forall_mem_cons, List.forall_mem_cons]
      exact ⟨ranksBefore_trans hlead ha, ranksBefore_trans hlead hx,
        fun b hb => hfirst b (List.mem_cons_of_mem _ hb)⟩

/-- The most frequent category is the one that is ranked before all others. -/
theorem dominant?_eq_some_iff {x : String × Nat} :
    dominant? c = some x ↔ x ∈ c ∧ ∀ b ∈ c, ranksBefore x b = true := by
  cases c with
  | nil => simp [dominant?]
  | cons a rest =>
    obtain ⟨hmem, hfirst⟩ := foldl_leading a rest
    rw [dominant?, Option.some.injEq]
    constructor
    · rintro rfl
      exact ⟨hmem, hfirst⟩
    · rintro ⟨hx, hall⟩
      exact ranksBefore_antisymm (hfirst x hx) (hall _ hmem)

/-- Some category is the most frequent one, if there are any. -/
theorem exists_dominant? (h : c ≠ []) : ∃ name n, dominant? c = some (name, n) := by
  obtain ⟨a, rest, rfl⟩ := List.exists_cons_of_ne_nil h
  exact ⟨_, _, rfl⟩

/-- The most frequent category does not depend on the order in which they are met. -/
theorem dominant?_eq_of_perm (h : c.Perm c') : dominant? c = dominant? c' := by
  ext x
  rw [dominant?_eq_some_iff, dominant?_eq_some_iff]
  simp only [h.mem_iff]

end StatusLine

/-! ## Snapshots -/

/-- Two rows of a shard that differ at most in the order of their categories. -/
structure ShardRow.Alike (r r' : ShardRow) : Prop where
  categories : SameMap r.categories r'.categories
  rest : { r with categories := [] } = { r' with categories := [] }

namespace Snapshot

/-- A snapshot without its maps and its shards. -/
def bare (s : Snapshot) : Snapshot :=
  { s with operations := [], operationErrors := [], categories := [], rejections := [],
           shards := [] }

/-- Two snapshots that differ at most in the order of the entries of their maps. -/
structure Alike (s s' : Snapshot) : Prop where
  operations : SameMap s.operations s'.operations
  operationErrors : SameMap s.operationErrors s'.operationErrors
  categories : SameMap s.categories s'.categories
  rejections : SameMap s.rejections s'.rejections
  shards : List.Forall₂ ShardRow.Alike s.shards s'.shards
  rest : s.bare = s'.bare

/-- What is seen without looking into the maps is the same of snapshots that are alike. -/
theorem Alike.same {β : Type} {s s' : Snapshot} (h : s.Alike s') (see : Snapshot → β)
    (hsee : ∀ s : Snapshot, see s.bare = see s) : see s = see s' := by
  rw [← hsee s, h.rest, hsee s']

end Snapshot

/-- What is the same of rows that are alike is the same of the lists of rows. -/
theorem map_eq_of_alike {β : Type} {see : ShardRow → β} {rows rows' : List ShardRow}
    (h : List.Forall₂ ShardRow.Alike rows rows')
    (hsee : ∀ r r' : ShardRow, r.Alike r' → see r = see r') : rows.map see = rows'.map see := by
  induction h with
  | nil => rfl
  | cons hrow _ ih => rw [List.map_cons, List.map_cons, hsee _ _ hrow, ih]

variable {s s' : Snapshot}

/-! ## The summary -/

namespace Summary

theorem outcomes_eq_of_alike (h : s.Alike s') : outcomes s = outcomes s' := by
  have hpassed : s.passed = s'.passed := h.same Snapshot.passed fun _ => rfl
  unfold outcomes
  simp only [hpassed, Counts.count_eq_of_sameMap h.categories]

theorem rejections_eq_of_alike (h : s.Alike s') : rejections s = rejections s' := by
  unfold rejections
  rw [h.rejections.perm.isEmpty_eq, ranked_eq_of_perm h.rejections.perm]

theorem operations_eq_of_alike (h : s.Alike s') : operations s = operations s' := by
  unfold operations
  simp only [h.operations.perm.length_eq, h.operations.ofPairs_eq,
    Counts.count_eq_of_sameMap h.operationErrors]

/-- The table of shards does not show their categories. -/
theorem render_shards_eq_of_alike (h : s.Alike s') (color : Bool) :
    (shards s).map (Line.render color) = (shards s').map (Line.render color) := by
  have hrows : s.shards.map (Line.render color ∘ Line.shard) =
      s'.shards.map (Line.render color ∘ Line.shard) := by
    refine map_eq_of_alike h.shards fun r r' hrow => ?_
    show (Line.shard { r with categories := [] }).render color =
      (Line.shard { r' with categories := [] }).render color
    rw [hrow.rest]
  have hempty : s.shards.isEmpty = s'.shards.isEmpty := by
    rw [Bool.eq_iff_iff, List.isEmpty_iff_length_eq_zero, List.isEmpty_iff_length_eq_zero,
      h.shards.length_eq]
  unfold shards
  rw [hempty]
  split
  · rfl
  · simp only [List.map_cons, List.map_map, hrows]

/-- The text of a summary does not depend on the order of entries. -/
theorem render_eq_of_alike (h : s.Alike s') (color : Bool) (c : Config) (elapsed : Duration) :
    render color c s elapsed = render color c s' elapsed := by
  have htotals : totals s elapsed = totals s' elapsed := h.same (totals · elapsed) fun _ => rfl
  simp only [render, lines, List.map_append, htotals, outcomes_eq_of_alike h,
    rejections_eq_of_alike h, operations_eq_of_alike h, render_shards_eq_of_alike h]

end Summary

/-! ## The status line -/

/-- The status line does not depend on the order of entries. -/
theorem StatusLine.render_eq_of_alike (h : s.Alike s') (color : Bool) (elapsed : Duration)
    (active users : UInt32) :
    render color s elapsed active users = render color s' elapsed active users := by
  have hfailed : s.failed = s'.failed := h.same Snapshot.failed fun _ => rfl
  have hrate : s.errorRate = s'.errorRate := h.same Snapshot.errorRate fun _ => rfl
  have htotal : s.total = s'.total := h.same Snapshot.total fun _ => rfl
  have hp95 : s.p95 = s'.p95 := h.same Snapshot.p95 fun _ => rfl
  simp only [render, failures, Snapshot.throughput, hfailed, hrate, htotal, hp95,
    dominant?_eq_of_perm h.categories.perm]

/-! ## The report -/

namespace Report

theorem countsJson_eq_of_sameMap {c c' : Counts} (h : SameMap c c') :
    countsJson c = countsJson c' := by
  rw [countsJson, countsJson, h.ofPairs_eq]

theorem metricsJson_eq_of_alike (h : s.Alike s') (elapsed : Duration) :
    metricsJson s elapsed = metricsJson s' elapsed := by
  have hlatency : latencyJson s = latencyJson s' := h.same latencyJson fun _ => rfl
  have hpassed : s.passed = s'.passed := h.same Snapshot.passed fun _ => rfl
  have hfailed : s.failed = s'.failed := h.same Snapshot.failed fun _ => rfl
  have hrate : s.errorRate = s'.errorRate := h.same Snapshot.errorRate fun _ => rfl
  have htotal : s.total = s'.total := h.same Snapshot.total fun _ => rfl
  simp only [metricsJson, Snapshot.throughput, hlatency, hpassed, hfailed, hrate, htotal,
    countsJson_eq_of_sameMap h.operations, countsJson_eq_of_sameMap h.operationErrors]

theorem outcomes_eq_of_alike (h : s.Alike s') : outcomes s = outcomes s' := by
  have hpassed : s.passed = s'.passed := h.same Snapshot.passed fun _ => rfl
  unfold outcomes
  simp only [hpassed, Counts.count_eq_of_sameMap h.categories]

theorem shardsJson_eq_of_alike (h : s.Alike s') : shardsJson s.shards = shardsJson s'.shards := by
  have hrows : s.shards.map (fun r => (r.name, shardJson r)) =
      s'.shards.map fun r => (r.name, shardJson r) := by
    refine map_eq_of_alike h.shards fun r r' hrow => ?_
    obtain ⟨hcategories, hrest⟩ := hrow
    obtain ⟨hname, hp50, hp99, htotal, hpassed, hfailed, -⟩ := ShardRow.mk.inj hrest
    simp only [shardJson, countsJson_eq_of_sameMap hcategories, hname, hp50, hp99, htotal,
      hpassed, hfailed]
  rw [shardsJson, shardsJson, hrows]

/-- A report does not depend on the order of entries. -/
theorem toJson_eq_of_alike (h : s.Alike s') (timestamp : String) (c : Config)
    (elapsed : Duration) : toJson timestamp c s elapsed = toJson timestamp c s' elapsed := by
  simp only [toJson, metricsJson_eq_of_alike h, outcomes_eq_of_alike h,
    countsJson_eq_of_sameMap h.rejections, shardsJson_eq_of_alike h]

end Report

end ShardLoad
