import ShardLoad.Proofs.Result.Calendar
import ShardLoad.Proofs.Text.Digits

/-!
# Reports sorted by name

The name of a report shows the moment at which it was made, so that a listing of reports by name
is one by time.  Names are compared character by character.  In the years 0 to 9999 each part of a
moment has a width of its own and is filled up with zeros, so names are compared part by part, from
the year to the second, and parts of one width as the numbers they show.  That is the order of
moments; and by the calendar it is the order of the seconds that a clock counts.

A leap second is a second of its own, with the number 60.  The clock counts it with the second
before it, and tells the two apart by the nanoseconds.

* `Moment.reportName_lt_iff`, `reportName_inj`: names are in the order of their moments.
* `Moment.ofTime_lt_iff`: moments are in the order of their seconds.
* `Moment.reportNames_sort_by_time`: all of it.
-/

namespace ShardLoad.Moment

/-! ## Moments in order -/

/-- The date and the time of day, in the order in which moments are compared. -/
def key (m : Moment) : Date ×ₗ ℕ ×ₗ ℕ ×ₗ ℕ :=
  toLex (m.date, toLex (m.hour, toLex (m.minute, m.second)))

theorem key_injective : Function.Injective key := by
  rintro ⟨date, hour, minute, second⟩ ⟨date', hour', minute', second'⟩ h
  simpa [key] using h

instance : LinearOrder Moment := LinearOrder.lift' key key_injective

variable {a b : Moment} {m n : ℕ}

theorem lt_iff :
    a < b ↔ a.date < b.date ∨ a.date = b.date ∧ (a.hour < b.hour ∨ a.hour = b.hour ∧
      (a.minute < b.minute ∨ a.minute = b.minute ∧ a.second < b.second)) := by
  change key a < key b ↔ _
  simp only [key, Prod.Lex.toLex_lt_toLex]

/-! ## The name of a report -/

/-- A moment whose name has four digits for the year and two for all else. -/
structure InWidth (m : Moment) : Prop where
  year_nonneg : 0 ≤ m.date.year
  year_le : m.date.year ≤ 9999
  month_lt : m.date.month < 10 ^ 2
  day_lt : m.date.day < 10 ^ 2
  hour_lt : m.hour < 10 ^ 2
  minute_lt : m.minute < 10 ^ 2
  second_lt : m.second < 10 ^ 2

theorem InWidth.yearText_eq (h : InWidth a) :
    yearText a.date.year = padded 4 a.date.year.natAbs ∧ a.date.year.natAbs < 10 ^ 4 := by
  have hnonneg := h.year_nonneg
  have hle := h.year_le
  refine ⟨?_, by omega⟩
  rw [yearText, if_neg (by omega), if_neg (by omega)]

theorem toList_reportName (h : InWidth a) :
    a.reportName.toList = "loadtest-".toList ++ (padded 4 a.date.year.natAbs ++
      '-' :: (padded 2 a.date.month ++ '-' :: (padded 2 a.date.day ++
        'T' :: (padded 2 a.hour ++ '-' :: (padded 2 a.minute ++
          '-' :: (padded 2 a.second ++ ".json".toList)))))) := by
  refine String.toList_ofList.trans ?_
  simp only [h.yearText_eq.1, List.append_assoc, List.cons_append]

/-- **Names are in the order of their moments.** -/
theorem reportName_lt_iff (ha : InWidth a) (hb : InWidth b) :
    a.reportName < b.reportName ↔ a < b := by
  have hnonneg := ha.year_nonneg
  have hnonneg' := hb.year_nonneg
  have hyear : a.date.year < b.date.year ↔ a.date.year.natAbs < b.date.year.natAbs := by omega
  have hyear' : a.date.year = b.date.year ↔ a.date.year.natAbs = b.date.year.natAbs := by omega
  have hnames : a.reportName < b.reportName ↔ a.reportName.toList < b.reportName.toList :=
    String.lt_iff_toList_lt
  rw [toList_reportName ha, toList_reportName hb, append_lt_append_iff rfl,
    padded_append_lt_iff (by decide) ha.yearText_eq.2 hb.yearText_eq.2, List.cons_lt_cons_iff,
    padded_append_lt_iff (by decide) ha.month_lt hb.month_lt, List.cons_lt_cons_iff,
    padded_append_lt_iff (by decide) ha.day_lt hb.day_lt, List.cons_lt_cons_iff,
    padded_append_lt_iff (by decide) ha.hour_lt hb.hour_lt, List.cons_lt_cons_iff,
    padded_append_lt_iff (by decide) ha.minute_lt hb.minute_lt, List.cons_lt_cons_iff,
    padded_append_lt_iff (by decide) ha.second_lt hb.second_lt] at hnames
  simp only [List.lt_irrefl, Char.lt_irrefl, false_or, true_and, and_false, or_false] at hnames
  rw [hnames, lt_iff, Date.lt_iff, Date.eq_iff, hyear, hyear']
  simp only [and_or_left, or_assoc, and_assoc]

theorem reportName_inj (ha : InWidth a) (hb : InWidth b) :
    a.reportName = b.reportName ↔ a = b := by
  refine ⟨fun h => ?_, fun h => h ▸ rfl⟩
  have hlt := reportName_lt_iff ha hb
  have hgt := reportName_lt_iff hb ha
  rw [h] at hlt hgt
  exact le_antisymm (not_lt.mp (mt hgt.mpr (lt_irrefl _))) (not_lt.mp (mt hlt.mpr (lt_irrefl _)))

theorem length_reportName (h : InWidth a) : a.reportName.length = 33 := by
  have hwidth {n : ℕ} (hn : n < 10 ^ 2) : (padded 2 n).length = 2 := length_padded (by decide) hn
  rw [← String.length_toList, toList_reportName h]
  simp only [List.length_append, List.length_cons, length_padded (by decide) h.yearText_eq.2,
    hwidth h.month_lt, hwidth h.day_lt, hwidth h.hour_lt, hwidth h.minute_lt, hwidth h.second_lt]
  decide

theorem colon_not_mem_reportName (h : InWidth a) : ':' ∉ a.reportName.toList := by
  have hpadded (digits n : ℕ) : ':' ∉ padded digits n := not_mem_filled (by decide) _ n
  rw [toList_reportName h]
  simp [hpadded]

/-! ## The names of times -/

/-- A time in the years 0 to 9999, in seconds from the start of 1970 and nanoseconds.  A leap
second has the seconds of the second before it, and a thousand million nanoseconds more. -/
structure FourDigitTime (secs : ℤ) (nanos : ℕ) : Prop where
  allowed : allowsNanos secs nanos = true
  year_nonneg : 0 ≤ (Date.ofDay (secs.fdiv 86400)).year
  year_le : (Date.ofDay (secs.fdiv 86400)).year ≤ 9999

/-- The moment of a time. -/
def ofTime (secs : ℤ) (nanos : ℕ) : Moment :=
  let second := (secs.fmod 86400).toNat
  ⟨Date.ofDay (secs.fdiv 86400), second / 3600, second / 60 % 60,
    second % 60 + nanos / 1000000000⟩

variable {s t : ℤ}

/-- Only the last second of a minute has a leap second after it. -/
theorem leap_of_allowed (h : allowsNanos s m = true) :
    m / 1000000000 = 0 ∨ m / 1000000000 = 1 ∧ s % 60 = 59 := by
  rw [allowsNanos, Int.fmod_eq_emod_of_nonneg _ (by decide)] at h
  simp only [Bool.or_eq_true, Bool.and_eq_true, decide_eq_true_eq, beq_iff_eq] at h
  omega

theorem ofEpoch?_eq (h : FourDigitTime s m) : ofEpoch? s m = some (ofTime s m) := by
  have hnonneg := Date.year_ofDay_nonneg_iff.mp h.year_nonneg
  have hle := Date.year_ofDay_le_iff.mp h.year_le
  rw [Int.fdiv_eq_ediv_of_nonneg _ (by decide)] at hnonneg hle
  refine if_pos ⟨?_, ?_, h.allowed⟩
  · unfold earliest
    omega
  · unfold latest
    omega

theorem inWidth_ofTime (h : FourDigitTime s m) : InWidth (ofTime s m) := by
  have hdate := Date.isProper_ofDay (s.fdiv 86400)
  have hmonth := hdate.month_le
  have hday := hdate.day_le.trans (Date.monthLength_le _ _)
  have hleap := leap_of_allowed h.allowed
  have hsecond : (s.fmod 86400).toNat < 86400 := by
    rw [Int.fmod_eq_emod_of_nonneg _ (by decide)]
    omega
  refine ⟨h.year_nonneg, h.year_le, ?_, ?_, ?_, ?_, ?_⟩
  all_goals
    dsimp only [ofTime]
    omega

/-- **Moments are in the order of their seconds**, of which a leap second is one of its own. -/
theorem ofTime_lt_iff (hs : allowsNanos s m = true) (ht : allowsNanos t n = true) :
    ofTime s m < ofTime t n ↔ s < t ∨ s = t ∧ m / 1000000000 < n / 1000000000 := by
  have hm := leap_of_allowed hs
  have hn := leap_of_allowed ht
  rw [lt_iff]
  simp only [ofTime, Date.ofDay_lt_ofDay_iff, Date.ofDay_inj,
    Int.fdiv_eq_ediv_of_nonneg _ (show (0 : ℤ) ≤ 86400 by decide),
    Int.fmod_eq_emod_of_nonneg _ (show (0 : ℤ) ≤ 86400 by decide)]
  omega

/-- **Reports that are sorted by name are in the order of their times.**  Any two times in the years
0 to 9999 have moments, and the name of the earlier one comes no later than that of the other.  The
names are the same exactly if the times are in the same whole second.  All names have one length,
and in none of them is a colon. -/
theorem reportNames_sort_by_time (hs : FourDigitTime s m) (ht : FourDigitTime t n) :
    ∃ a b, ofEpoch? s m = some a ∧ ofEpoch? t n = some b ∧
      (s < t ∨ s = t ∧ m ≤ n → a.reportName ≤ b.reportName) ∧
      (a.reportName = b.reportName ↔ s = t ∧ m / 1000000000 = n / 1000000000) ∧
      a.reportName.length = 33 ∧ ':' ∉ a.reportName.toList := by
  have ha := inWidth_ofTime hs
  have hb := inWidth_ofTime ht
  have hlt := ofTime_lt_iff hs.allowed ht.allowed
  have hgt := ofTime_lt_iff ht.allowed hs.allowed
  refine ⟨ofTime s m, ofTime t n, ofEpoch?_eq hs, ofEpoch?_eq ht, fun horder => ?_, ?_,
    length_reportName ha, colon_not_mem_reportName ha⟩
  · rw [← not_lt, reportName_lt_iff hb ha, hgt]
    have hseconds : m ≤ n → m / 1000000000 ≤ n / 1000000000 := Nat.div_le_div_right
    omega
  · rw [reportName_inj ha hb, eq_iff_le_not_lt, ← not_lt, hlt, hgt]
    omega

/-- The leap second before a leap day, and the leap day. -/
theorem reportNames_sort_by_time_leap :
    FourDigitTime 951782399 1500000000 ∧ FourDigitTime 951782400 0 ∧
      ∃ a b, ofEpoch? 951782399 1500000000 = some a ∧ ofEpoch? 951782400 0 = some b ∧
        a.reportName ≤ b.reportName ∧ a.reportName ≠ b.reportName ∧
        a.reportName.length = 33 ∧ ':' ∉ a.reportName.toList := by
  have hs : FourDigitTime 951782399 1500000000 := ⟨by decide, by decide, by decide⟩
  have ht : FourDigitTime 951782400 0 := ⟨by decide, by decide, by decide⟩
  obtain ⟨a, b, ha, hb, hle, heq, hlength, hcolon⟩ := reportNames_sort_by_time hs ht
  exact ⟨hs, ht, a, b, ha, hb, hle (by decide), fun h => absurd (heq.mp h) (by decide), hlength,
    hcolon⟩

example : (ofEpoch? 951782399 1500000000).map reportName =
    some "loadtest-2000-02-28T23-59-60.json" := by decide

end ShardLoad.Moment
