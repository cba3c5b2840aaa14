import Mathlib.Data.Prod.Lex
import Mathlib.Order.Monotone.Basic
import Mathlib.Tactic.IntervalCases
import ShardLoad.Result.Calendar
import ShardLoad.Toml.Moment

/-!
# The days of the calendar, one after the other

The date of a day is computed from its place in an era of four hundred years.  That is the
Gregorian calendar only if each day has the date that comes after the date of the day before it,
where months have their lengths and every fourth year a leap day, but for the centuries that are
not divisible by four hundred.

Eras are left behind at once.  A year is taken from its first of March, so that a leap day is its
last day, and a day is known by its year and by the days between.  Every day has such a place, and
the date is read off it; a step to the next day stays in the month, goes to the next month, or
starts the next year.

* `Date.next`: the date after a date, and `lt_next`.
* `Date.afterMarch`: the date of a place, with `next_afterMarch` and `next_afterMarch_last`.
* `Date.exists_place`, `ofDay_of_place`: every day has a place, and its date is the date of it.
* `Date.ofDay_add_one`: the next day has the next date.
* `Date.isProper_ofDay`, `ofDay_lt_ofDay_iff`: what follows for all days.
* `Date.year_ofDay_nonneg_iff`, `year_ofDay_le_iff`: the days of the years 0 to 9999.
-/

namespace ShardLoad.Date

/-! ## Dates in order -/

/-- The year, the month and the day, in the order in which dates are compared. -/
def key (d : Date) : ℤ ×ₗ ℕ ×ₗ ℕ := toLex (d.year, toLex (d.month, d.day))

theorem key_injective : Function.Injective key := by
  rintro ⟨year, month, day⟩ ⟨year', month', day'⟩ h
  simpa [key] using h

instance : LinearOrder Date := LinearOrder.lift' key key_injective

theorem lt_iff {a b : Date} :
    a < b ↔ a.year < b.year ∨ a.year = b.year ∧
      (a.month < b.month ∨ a.month = b.month ∧ a.day < b.day) := by
  change key a < key b ↔ _
  rw [key, key, Prod.Lex.toLex_lt_toLex, Prod.Lex.toLex_lt_toLex]

theorem eq_iff {a b : Date} : a = b ↔ a.year = b.year ∧ a.month = b.month ∧ a.day = b.day := by
  cases a
  cases b
  simp

/-- A later date is in no earlier year. -/
theorem year_le_of_le {a b : Date} (h : a ≤ b) : a.year ≤ b.year := by
  rcases h.lt_or_eq with hlt | rfl
  · rcases lt_iff.mp hlt with hyear | ⟨hyear, -⟩ <;> omega
  · exact le_rfl

/-! ## The date after a date -/

/-- Whether a year has a leap day.  The calendar repeats itself every four hundred years. -/
def hasLeapDay (year : ℤ) : Bool := Toml.isLeapYear (year % 400).toNat

/-- The days of a month. -/
def monthLength (year : ℤ) (month : ℕ) : ℕ := Toml.daysIn (year % 400).toNat month

/-- The date that comes after a date. -/
def next (d : Date) : Date :=
  if d.day < monthLength d.year d.month then ⟨d.year, d.month, d.day + 1⟩
  else if d.month < 12 then ⟨d.year, d.month + 1, 1⟩
  else ⟨d.year + 1, 1, 1⟩

/-- A date that is in the calendar. -/
structure IsProper (d : Date) : Prop where
  month_pos : 0 < d.month
  month_le : d.month ≤ 12
  day_pos : 0 < d.day
  day_le : d.day ≤ monthLength d.year d.month

theorem hasLeapDay_iff (year : ℤ) :
    hasLeapDay year = true ↔ year % 4 = 0 ∧ (year % 100 ≠ 0 ∨ year % 400 = 0) := by
  simp only [hasLeapDay, Toml.isLeapYear, Bool.or_eq_true, Bool.and_eq_true, beq_iff_eq,
    bne_iff_ne]
  omega

theorem monthLength_le (year : ℤ) (month : ℕ) : monthLength year month ≤ 31 := by
  unfold monthLength Toml.daysIn
  split
  case h_5 => split <;> decide
  all_goals decide

theorem lt_next (d : Date) : d < d.next := by
  rw [lt_iff]
  unfold next
  split
  · exact Or.inr ⟨rfl, Or.inr ⟨rfl, Nat.lt_succ_self _⟩⟩
  · split
    · exact Or.inr ⟨rfl, Or.inl (Nat.lt_succ_self _)⟩
    · exact Or.inl (Int.lt_succ _)

/-! ## Years and months from March -/

/-- The days from the first of March of the year zero to the first of March of a year. -/
def marchDays (year : ℤ) : ℤ := 365 * year + year / 4 - year / 100 + year / 400

/-- The days from the first of March of a year to the first of March of the next one. -/
def marchLength (year : ℤ) : ℕ := if hasLeapDay (year + 1) then 366 else 365

/-- The days from the first of March to the first of a month, where March has number zero. -/
def monthStart (month : ℕ) : ℕ := (153 * month + 2) / 5

/-- The date so many days after the first of a month, where March has number zero. -/
def inMonth (year : ℤ) (month days : ℕ) : Date :=
  ⟨year + (if month < 10 then 0 else 1), if month < 10 then month + 3 else month - 9, days + 1⟩

/-- The date so many days after the first of March of a year. -/
def afterMarch (year : ℤ) (days : ℕ) : Date :=
  inMonth year ((5 * days + 2) / 153) (days - monthStart ((5 * days + 2) / 153))

variable {year : ℤ} {month days : ℕ}

theorem marchDays_add_one (year : ℤ) :
    marchDays (year + 1) = marchDays year + marchLength year := by
  have hleap := hasLeapDay_iff (year + 1)
  unfold marchDays marchLength
  split
  · have := hleap.mp ‹_›
    push_cast
    omega
  · have := hleap.not.mp ‹_›
    push_cast
    omega

theorem marchLength_eq_or (year : ℤ) : marchLength year = 365 ∨ marchLength year = 366 := by
  unfold marchLength
  split
  · exact Or.inr rfl
  · exact Or.inl rfl

/-- The month of a day is the one that has started and whose next one has not. -/
theorem afterMarch_eq_inMonth (hle : monthStart month ≤ days) (hlt : days < monthStart (month + 1)) :
    afterMarch year days = inMonth year month (days - monthStart month) := by
  have hmonth : (5 * days + 2) / 153 = month := by
    unfold monthStart at hle hlt
    omega
  rw [afterMarch, hmonth]

theorem exists_month (h : days < marchLength year) :
    ∃ month < 12, monthStart month ≤ days ∧ days < monthStart (month + 1) := by
  have hlength := marchLength_eq_or year
  refine ⟨(5 * days + 2) / 153, ?_⟩
  unfold monthStart
  omega

/-- A month runs to the start of the next one, and February to the end of the year. -/
theorem monthLength_inMonth (hmonth : month < 12) :
    monthLength (inMonth year month days).year (inMonth year month days).month =
      min (monthStart (month + 1)) (marchLength year) - monthStart month := by
  rcases Nat.lt_succ_iff_lt_or_eq.mp hmonth with hlt | rfl
  · have hstart : monthStart (month + 1) ≤ marchLength year := by
      have hlength := marchLength_eq_or year
      unfold monthStart
      omega
    rw [min_eq_left hstart]
    interval_cases month <;> rfl
  · change (if hasLeapDay (year + 1) then 29 else 28) = _
    unfold marchLength
    split <;> rfl

theorem isProper_afterMarch (h : days < marchLength year) : (afterMarch year days).IsProper := by
  obtain ⟨month, hmonth, hle, hlt⟩ := exists_month h
  rw [afterMarch_eq_inMonth hle hlt]
  refine ⟨?_, ?_, Nat.succ_pos _, ?_⟩
  · dsimp only [inMonth]
    split <;> omega
  · dsimp only [inMonth]
    split <;> omega
  · rw [monthLength_inMonth hmonth]
    dsimp only [inMonth]
    omega

/-! ## The day after a day of a year from March -/

theorem next_inMonth (hmonth : month < 12)
    (h : monthStart month + days + 1 < min (monthStart (month + 1)) (marchLength year)) :
    (inMonth year month days).next = inMonth year month (days + 1) := by
  rw [next, monthLength_inMonth hmonth, if_pos (by dsimp only [inMonth]; omega)]
  rfl

/-- After the last day of a month comes the first of the next one, and February ends the year. -/
theorem next_inMonth_last (hmonth : month < 12)
    (h : min (monthStart (month + 1)) (marchLength year) ≤ monthStart month + days + 1) :
    (inMonth year month days).next =
      if month < 11 then inMonth year (month + 1) 0 else inMonth (year + 1) 0 0 := by
  rw [next, monthLength_inMonth hmonth, if_neg (by dsimp only [inMonth]; omega)]
  interval_cases month <;> simp [inMonth]

/-- The next day is in the same month or starts the next one. -/
theorem next_afterMarch (h : days + 1 < marchLength year) :
    (afterMarch year days).next = afterMarch year (days + 1) := by
  obtain ⟨month, hmonth, hle, hlt⟩ := exists_month (Nat.lt_of_succ_lt h)
  rw [afterMarch_eq_inMonth hle hlt]
  by_cases hsame : days + 1 < monthStart (month + 1)
  · rw [next_inMonth hmonth (by omega), afterMarch_eq_inMonth (by omega) hsame,
      Nat.sub_add_comm hle]
  · have hstart : monthStart (month + 1) = days + 1 := by omega
    have hnext : days + 1 < monthStart (month + 1 + 1) := by
      rw [← hstart]
      unfold monthStart
      omega
    have hmonth' : month < 11 := by
      have hlength := marchLength_eq_or year
      unfold monthStart at hstart
      omega
    rw [next_inMonth_last hmonth (by omega), if_pos hmonth', afterMarch_eq_inMonth hstart.le hnext,
      hstart, Nat.sub_self]

/-- The last day before a first of March. -/
theorem next_afterMarch_last (h : days + 1 = marchLength year) :
    (afterMarch year days).next = afterMarch (year + 1) 0 := by
  have hlength := marchLength_eq_or year
  have hstart : monthStart 11 = 337 ∧ monthStart (11 + 1) = 367 := by decide
  have hfebruary : afterMarch year days = inMonth year 11 (days - monthStart 11) :=
    afterMarch_eq_inMonth (by omega) (by omega)
  rw [hfebruary, next_inMonth_last (by decide) (by omega), if_neg (by decide)]
  rfl

/-! ## The place of a day -/

/-- Every day is so many days after the first of March of a year, and before the next one. -/
theorem exists_place (n : ℤ) :
    ∃ year days, n = marchDays year + (days : ℕ) ∧ days < marchLength year := by
  have hpos (year : ℤ) : 0 < marchLength year := by
    have hlength := marchLength_eq_or year
    omega
  -- from the first of March of the year zero, day by day into the future and the past
  induction n using Int.induction_on with
  | zero => exact ⟨0, 0, by decide, hpos 0⟩
  | succ n ih =>
    obtain ⟨year, days, hn, hdays⟩ := ih
    have hyear := marchDays_add_one year
    by_cases h : days + 1 < marchLength year
    · exact ⟨year, days + 1, by omega, h⟩
    · exact ⟨year + 1, 0, by omega, hpos _⟩
  | pred n ih =>
    obtain ⟨year, days, hn, hdays⟩ := ih
    have hyear := marchDays_add_one (year - 1)
    rw [sub_add_cancel] at hyear
    have hprev := hpos (year - 1)
    by_cases h : days = 0
    · exact ⟨year - 1, marchLength (year - 1) - 1, by omega, by omega⟩
    · exact ⟨year, days - 1, by omega, by omega⟩

/-- The year of a day in its era, away from the leap day that ends a century. -/
theorem yearOfEra_of_lt {century quad year days : ℕ} (hcentury : century < 4) (hquad : quad < 25)
    (hyear : year < 4) (hdays : days ≤ 365) (hleap : days = 365 → year = 3)
    (hlt : 1461 * quad + 365 * year + days < 36524) :
    yearOfEra (36524 * century + 1461 * quad + 365 * year + days) =
      100 * century + 4 * quad + year := by
  have hcenturies :
      (36524 * century + 1461 * quad + 365 * year + days) / 36524 = century := by omega
  have heras : (36524 * century + 1461 * quad + 365 * year + days) / 146096 = 0 := by omega
  have hquads : (36524 * century + 1461 * quad + 365 * year + days) / 1460 =
      25 * century + quad + (24 * century + quad + 365 * year + days) / 1460 := by omega
  rw [yearOfEra, hcenturies, heras, hquads]
  omega

/-- The year of a day in its era is the one that has started and whose next one has not. -/
theorem yearOfEra_eq {y day : ℕ} (hy : y < 400) (hle : daysBefore y ≤ day)
    (hlt : day < daysBefore (y + 1) + (y + 1) / 400) : yearOfEra day = y := by
  obtain ⟨century, rest, hrest, rfl⟩ : ∃ century rest, rest < 100 ∧ 100 * century + rest = y :=
    ⟨y / 100, y % 100, by omega, by omega⟩
  obtain ⟨quad, year, hyear, rfl⟩ : ∃ quad year, year < 4 ∧ 4 * quad + year = rest :=
    ⟨rest / 4, rest % 4, by omega, by omega⟩
  have hbefore : daysBefore (100 * century + (4 * quad + year)) =
      36524 * century + 1461 * quad + 365 * year := by
    unfold daysBefore
    omega
  obtain ⟨days, rfl⟩ := Nat.exists_eq_add_of_le hle
  have hdays : days ≤ 365 ∧ (days = 365 → year = 3) := by
    unfold daysBefore at hlt
    omega
  rw [hbefore] at hlt ⊢
  by_cases hlast : 1461 * quad + 365 * year + days < 36524
  · rw [yearOfEra_of_lt (by omega) (by omega) hyear hdays.1 hdays.2 hlast, Nat.add_assoc]
  · -- a century ends with a leap day only where the era ends
    have hend : century = 3 ∧ quad = 24 ∧ year = 3 ∧ days = 365 := by
      unfold daysBefore at hlt
      omega
    obtain ⟨rfl, rfl, rfl, rfl⟩ := hend
    rfl

/-- **The date of a day is the date of its place.** -/
theorem ofDay_of_place {n : ℤ} (hn : n + epochDay = marchDays year + days)
    (hdays : days < marchLength year) : ofDay n = afterMarch year days := by
  obtain ⟨era, y, hy, rfl⟩ : ∃ (era : ℤ) (y : ℕ), y < 400 ∧ 400 * era + y = year :=
    ⟨year / 400, (year % 400).toNat, by omega, by omega⟩
  -- the day in its era, as `daysBefore` counts it
  have hday : n + epochDay = eraDays * era + (daysBefore y + days : ℕ) := by
    rw [hn]
    unfold marchDays eraDays daysBefore
    omega
  have hnext : daysBefore y + days < daysBefore (y + 1) + (y + 1) / 400 := by
    have hlength := marchDays_add_one (400 * era + y)
    unfold marchDays at hlength
    unfold daysBefore
    omega
  have hbound : daysBefore y + days < eraDays := by
    unfold daysBefore eraDays at *
    omega
  have hera : (n + epochDay).fdiv eraDays = era := by
    rw [hday, Int.fdiv_eq_ediv_of_nonneg _ (by decide)]
    unfold eraDays at hbound ⊢
    omega
  have hplace : ((n + epochDay).fmod eraDays).toNat = daysBefore y + days := by
    rw [hday, Int.fmod_eq_emod_of_nonneg _ (by decide)]
    unfold eraDays at hbound ⊢
    omega
  rw [ofDay, hera, hplace, yearOfEra_eq hy (Nat.le_add_right _ _) hnext, Nat.add_sub_cancel_left]
  rfl

/-! ## The date of a day -/

/-- **The next day has the next date.** -/
theorem ofDay_add_one (n : ℤ) : ofDay (n + 1) = (ofDay n).next := by
  obtain ⟨year, days, hn, hdays⟩ := exists_place (n + epochDay)
  rw [ofDay_of_place hn hdays]
  by_cases h : days + 1 < marchLength year
  · rw [next_afterMarch h]
    exact ofDay_of_place (by omega) h
  · have hlast : days + 1 = marchLength year := by omega
    rw [next_afterMarch_last hlast]
    refine ofDay_of_place ?_ ?_
    · rw [marchDays_add_one]
      omega
    · have hlength := marchLength_eq_or (year + 1)
      omega

example : ofDay 0 = ⟨1970, 1, 1⟩ := by decide

theorem isProper_ofDay (n : ℤ) : (ofDay n).IsProper := by
  obtain ⟨year, days, hn, hdays⟩ := exists_place (n + epochDay)
  rw [ofDay_of_place hn hdays]
  exact isProper_afterMarch hdays

variable {m n : ℤ}

/-- **Later days have later dates.** -/
theorem ofDay_lt_ofDay_iff : ofDay m < ofDay n ↔ m < n := by
  have hmono : StrictMono ofDay := by
    refine strictMono_int_of_lt_succ fun n => ?_
    rw [ofDay_add_one]
    exact lt_next _
  exact hmono.lt_iff_lt

theorem ofDay_le_ofDay_iff : ofDay m ≤ ofDay n ↔ m ≤ n := by
  rw [← not_lt, ofDay_lt_ofDay_iff, not_lt]

theorem ofDay_inj : ofDay m = ofDay n ↔ m = n := by
  rw [le_antisymm_iff, ofDay_le_ofDay_iff, ofDay_le_ofDay_iff, ← le_antisymm_iff]

theorem year_ofDay_nonneg_iff : 0 ≤ (ofDay n).year ↔ -719528 ≤ n := by
  constructor
  · intro h
    by_contra hlt
    have hyear := year_le_of_le (ofDay_le_ofDay_iff.mpr (show n ≤ -719529 by omega))
    exact absurd (h.trans hyear) (by decide)
  · intro h
    exact year_le_of_le (ofDay_le_ofDay_iff.mpr h)

theorem year_ofDay_le_iff : (ofDay n).year ≤ 9999 ↔ n ≤ 2932896 := by
  constructor
  · intro h
    by_contra hlt
    have hyear := year_le_of_le (ofDay_le_ofDay_iff.mpr (show 2932897 ≤ n by omega))
    exact absurd (hyear.trans h) (by decide)
  · intro h
    exact year_le_of_le (ofDay_le_ofDay_iff.mpr h)

end ShardLoad.Date
