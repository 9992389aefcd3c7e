/-
**The calendar is in the order of days.**

Years that begin in March have their leap day at the end, so that the days before a year and the days
before a month are simple sums.  A count of days is cut into cycles of four hundred years, centuries,
groups of four years and years; the date found so is one that the calendar has, and later days have later
dates.

Main definitions:

* `daysBefore`, `daysBeforeMonth` — the days of the years and the months before one, if years begin
  in March;
* `MarchDate` — a date counted from March, with the days before it and its place in the calendar;
* `CivilDate.Exists`, `CivilDate.Before` — the dates that the calendar has, and their order.

Main results:

* `daysBefore_succ`, `daysBeforeMonth_succ` — the lengths of years and months;
* `MarchDate.Exists.later` — **more days make a later date**;
* `yearOfCycle_eq`, `monthOfYear_eq` — the year and the month that are found;
* `exists_marchDate` — every count of days is cut into a date counted from March;
* `CivilDate.exists_ofDays`, `CivilDate.before_ofDays` — **dates exist, and later days have later dates**.
-/
import DesignRegistry.Time.Calendar
import Mathlib.Tactic.IntervalCases

set_option relaxedAutoImplicit false
set_option autoImplicit false

namespace DesignRegistry

/-! ### Lengths of years and months -/

theorem isLeapYear_iff (year : ℕ) :
    isLeapYear year = true ↔ 4 ∣ year ∧ (¬100 ∣ year ∨ 400 ∣ year) := by
  rw [isLeapYear, Bool.or_eq_true, Bool.and_eq_true, beq_iff_eq, bne_iff_ne, beq_iff_eq]
  omega

/-- The days of the years before one, if years begin in March. -/
def daysBefore (year : ℕ) : ℕ := 365 * year + year / 4 + year / 400 - year / 100

/-- A year that begins in March ends with the February of the next one. -/
theorem daysBefore_succ (year : ℕ) :
    daysBefore (year + 1) = daysBefore year + 337 + daysInMonth (year + 1) 2 := by
  have hcycle : 400 ∣ year + 1 → 100 ∣ year + 1 := Nat.dvd_trans (by decide)
  have hcentury : 100 ∣ year + 1 → 4 ∣ year + 1 := Nat.dvd_trans (by decide)
  have hmost : year / 100 ≤ year := Nat.div_le_self _ _
  rw [daysInMonth, if_pos rfl, daysBefore, daysBefore, Nat.succ_div, Nat.succ_div, Nat.succ_div]
  generalize year / 4 = fours, year / 100 = centuries, year / 400 = cycles at hmost ⊢
  by_cases hleap : isLeapYear (year + 1) = true
  · rw [if_pos hleap]
    obtain ⟨hyear, hordinary | hfourth⟩ := (isLeapYear_iff _).1 hleap
    · rw [if_pos hyear, if_neg (mt hcycle hordinary), if_neg hordinary]
      omega
    · rw [if_pos hyear, if_pos hfourth, if_pos (hcycle hfourth)]
      omega
  · rw [if_neg hleap]
    rw [isLeapYear_iff, not_and, not_or, not_not] at hleap
    by_cases hyear : 4 ∣ year + 1
    · obtain ⟨hcent, hfourth⟩ := hleap hyear
      rw [if_pos hyear, if_neg hfourth, if_pos hcent]
      omega
    · rw [if_neg hyear, if_neg (mt (hcentury ∘ hcycle) hyear), if_neg (mt hcentury hyear)]
      omega

theorem daysBefore_mono : Monotone daysBefore := monotone_nat_of_le_succ fun year => by
  rw [daysBefore_succ]
  omega

/-- The days of the months before one. -/
def daysBeforeMonth (month : ℕ) : ℕ := (153 * month + 2) / 5

/-- The month of the calendar, from the months since March. -/
def calendarMonth (month : ℕ) : ℕ := if month < 10 then month + 3 else month - 9

/-- All months but February have the length that the calendar gives them. -/
theorem daysBeforeMonth_succ (year : ℕ) {month : ℕ} (h : month ≤ 10) :
    daysBeforeMonth (month + 1) = daysBeforeMonth month + daysInMonth year (calendarMonth month) := by
  interval_cases month <;> simp [daysBeforeMonth, daysInMonth, calendarMonth]

theorem daysBeforeMonth_mono : Monotone daysBeforeMonth := fun month month' h => by
  rw [daysBeforeMonth, daysBeforeMonth]
  omega

/-! ### Dates counted from March -/

/-- A date: the year that began in March, the months since then, and the days of the month before it. -/
structure MarchDate where
  year : ℕ
  month : ℕ
  day : ℕ

namespace MarchDate

/-- The days since the first of March of the year 0. -/
def days (d : MarchDate) : ℕ := daysBefore d.year + daysBeforeMonth d.month + d.day

/-- The year of the calendar. -/
def civilYear (d : MarchDate) : ℕ := d.year + (if d.month < 10 then 0 else 1)

/-- The date of the calendar. -/
def civil (d : MarchDate) : CivilDate := ⟨d.civilYear, calendarMonth d.month, d.day + 1⟩

/-- The month is one of the year, and the day one of the month. -/
structure Exists (d : MarchDate) : Prop where
  month : d.month ≤ 11
  day : d.day < daysInMonth d.civilYear (calendarMonth d.month)

variable {d e : MarchDate}

/-- Days of a month come before the next month. -/
theorem Exists.lt_month (h : d.Exists) :
    daysBeforeMonth d.month + d.day < daysBeforeMonth (d.month + 1) := by
  obtain ⟨hmonth, hday⟩ := h
  rcases Nat.lt_or_eq_of_le hmonth with hless | hlast
  · rw [daysBeforeMonth_succ d.civilYear (Nat.le_of_lt_succ hless)]
    omega
  · have hfebruary : daysInMonth d.civilYear 2 ≤ 29 := by
      rw [daysInMonth, if_pos rfl]
      split <;> decide
    rw [hlast] at hday ⊢
    have hlength : d.day < daysInMonth d.civilYear 2 := hday
    have hstart : daysBeforeMonth 11 = 337 := rfl
    have hend : daysBeforeMonth (11 + 1) = 367 := rfl
    omega

/-- Days of a year come before the next year. -/
theorem Exists.lt_year (h : d.Exists) : d.days < daysBefore (d.year + 1) := by
  have hbehind := h.lt_month
  have hstart : daysBeforeMonth 11 = 337 := rfl
  rw [daysBefore_succ, days]
  rcases Nat.lt_or_eq_of_le h.month with hless | hlast
  · have hlate := daysBeforeMonth_mono (show d.month + 1 ≤ 11 from hless)
    omega
  · have hday := h.day
    rw [civilYear, hlast, if_neg (by decide)] at hday
    have hlength : d.day < daysInMonth (d.year + 1) 2 := hday
    rw [hlast]
    omega

/-- **More days make a later date.** -/
theorem Exists.later (he : e.Exists) (h : d.days < e.days) :
    d.year < e.year ∨ d.year = e.year ∧ (d.month < e.month ∨ d.month = e.month ∧ d.day < e.day) := by
  rcases lt_trichotomy d.year e.year with hlt | heq | hgt
  · exact .inl hlt
  · rw [days, days, heq] at h
    rcases lt_trichotomy d.month e.month with hlt | hsame | hgt
    · exact .inr ⟨heq, .inl hlt⟩
    · rw [hsame] at h
      exact .inr ⟨heq, .inr ⟨hsame, by omega⟩⟩
    · have hmonth := he.lt_month
      have hlate := daysBeforeMonth_mono (show e.month + 1 ≤ d.month from hgt)
      omega
  · have hyear := he.lt_year
    have hlate := daysBefore_mono (show e.year + 1 ≤ d.year from hgt)
    rw [days] at h
    omega

end MarchDate

/-! ### Years of a cycle and months of a year -/

/-- A day of a cycle lies in a century, a group of four years, and a year of it.  Only the last year of a
group has a day more, and that of the last group only in the last century. -/
theorem exists_yearOfCycle {day : ℕ} (h : day < 146097) :
    ∃ century ≤ 3, ∃ group ≤ 24, ∃ year ≤ 3, ∃ rest ≤ 365,
      day = 36524 * century + 1461 * group + 365 * year + rest ∧
        (rest = 365 → year = 3 ∧ (group = 24 → century = 3)) := by
  obtain ⟨century, inCentury, rfl, hcentury, hin, hlast⟩ : ∃ century inCentury,
      day = 36524 * century + inCentury ∧ century ≤ 3 ∧ inCentury ≤ 36524 ∧
        (inCentury = 36524 → century = 3) :=
    ⟨min (day / 36524) 3, day - 36524 * min (day / 36524) 3, by omega, by omega, by omega, by omega⟩
  obtain ⟨year, rest, hgroup, hyear, hrest, hleap⟩ : ∃ year rest,
      inCentury % 1461 = 365 * year + rest ∧ year ≤ 3 ∧ rest ≤ 365 ∧ (rest = 365 → year = 3) :=
    ⟨min (inCentury % 1461 / 365) 3, inCentury % 1461 - 365 * min (inCentury % 1461 / 365) 3,
      by omega, by omega, by omega, by omega⟩
  exact ⟨century, hcentury, inCentury / 1461, by omega, year, hyear, rest, hrest, by omega, by omega⟩

/-- The year of a cycle that is found: without the leap days before it, all years have one length. -/
theorem yearOfCycle_eq {day century group year rest : ℕ} (hcentury : century ≤ 3) (hgroup : group ≤ 24)
    (hyear : year ≤ 3) (hrest : rest ≤ 365)
    (hday : day = 36524 * century + 1461 * group + 365 * year + rest)
    (hleap : rest = 365 → year = 3 ∧ (group = 24 → century = 3)) :
    (day - day / 1460 + day / 36524 - day / 146096) / 365 = 100 * century + 4 * group + year := by
  by_cases hlast : day = 146096
  · omega
  · have hgroups : day / 1460 =
        25 * century + group + (24 * century + group + 365 * year + rest) / 1460 := by omega
    have hcenturies : day / 36524 = century := by omega
    have hcycle : day / 146096 = 0 := by omega
    have hbeyond : (24 * century + group + 365 * year + rest) / 1460 ≤ rest := by omega
    rw [hcenturies, hcycle]
    omega

/-- The days before a year of a cycle. -/
theorem daysOfCycle_eq {century group year : ℕ} (hgroup : group ≤ 24) (hyear : year ≤ 3) :
    365 * (100 * century + 4 * group + year) + (100 * century + 4 * group + year) / 4 -
      (100 * century + 4 * group + year) / 100 = 36524 * century + 1461 * group + 365 * year := by
  have hgroups : (100 * century + 4 * group + year) / 4 = 25 * century + group := by omega
  have hcenturies : (100 * century + 4 * group + year) / 100 = century := by omega
  rw [hgroups, hcenturies]
  omega

/-- All cycles have one length. -/
theorem daysBefore_cycle (cycle : ℕ) {year : ℕ} (hyear : year ≤ 399) :
    daysBefore (400 * cycle + year) = 146097 * cycle + (365 * year + year / 4 - year / 100) := by
  have hgroups : (400 * cycle + year) / 4 = 100 * cycle + year / 4 := by omega
  have hcenturies : (400 * cycle + year) / 100 = 4 * cycle + year / 100 := by omega
  have hcycles : (400 * cycle + year) / 400 = cycle := by omega
  rw [daysBefore, hgroups, hcenturies, hcycles]
  omega

/-- The last year of a group ends with a leap day, in the last group only if it ends the cycle. -/
theorem isLeapYear_cycle (cycle : ℕ) {century group : ℕ} (hgroup : group ≤ 24)
    (hlast : group = 24 → century = 3) :
    isLeapYear (400 * cycle + (100 * century + 4 * group + 3) + 1) = true := by
  rw [isLeapYear_iff]
  omega

/-- The month of a year that begins in March. -/
theorem monthOfYear_eq {day : ℕ} (h : day ≤ 365) :
    (5 * day + 2) / 153 ≤ 11 ∧ daysBeforeMonth ((5 * day + 2) / 153) ≤ day ∧
      day < daysBeforeMonth ((5 * day + 2) / 153 + 1) := by
  rw [daysBeforeMonth, daysBeforeMonth]
  omega

/-! ### Dates of the calendar -/

namespace CivilDate

/-- The calendar has the date. -/
structure Exists (d : CivilDate) : Prop where
  month : 1 ≤ d.month ∧ d.month ≤ 12
  day : 1 ≤ d.day ∧ d.day ≤ daysInMonth d.year.toNat d.month

/-- A date comes before another one. -/
def Before (d e : CivilDate) : Prop :=
  d.year < e.year ∨ d.year = e.year ∧ (d.month < e.month ∨ d.month = e.month ∧ d.day < e.day)

end CivilDate

/-- The days of a year are cut into months. -/
theorem exists_month (year : ℕ) {rest : ℕ} (hrest : rest ≤ 365)
    (hleap : rest = 365 → isLeapYear (year + 1) = true) :
    ∃ d : MarchDate, d.Exists ∧ d = ⟨year, (5 * rest + 2) / 153,
      rest - daysBeforeMonth ((5 * rest + 2) / 153)⟩ ∧ d.days = daysBefore year + rest := by
  obtain ⟨hmonth, hstart, hend⟩ := monthOfYear_eq hrest
  refine ⟨_, ⟨hmonth, ?_⟩, rfl, ?_⟩
  · generalize (5 * rest + 2) / 153 = month at hmonth hstart hend
    change rest - daysBeforeMonth month < _
    rcases Nat.lt_or_eq_of_le hmonth with hless | rfl
    · rw [daysBeforeMonth_succ _ (Nat.le_of_lt_succ hless)] at hend
      exact Nat.sub_lt_left_of_lt_add hstart hend
    · change rest - 337 < daysInMonth (year + 1) 2
      rw [daysInMonth, if_pos rfl]
      by_cases hlast : rest = 365
      · rw [if_pos (hleap hlast)]
        omega
      · split <;> omega
  · change daysBefore year + daysBeforeMonth ((5 * rest + 2) / 153) +
      (rest - daysBeforeMonth ((5 * rest + 2) / 153)) = daysBefore year + rest
    rw [Nat.add_assoc, Nat.add_sub_cancel' hstart]

/-- The date of a day of a cycle, by the year and the day of the year that are found. -/
theorem ofDays_eq {n cycle day year rest : ℕ} (hn : n + 719468 = 146097 * cycle + day)
    (hday : day < 146097) (hlast : rest ≤ 365)
    (hyear : (day - day / 1460 + day / 36524 - day / 146096) / 365 = year)
    (hrest : day - (365 * year + year / 4 - year / 100) = rest) :
    CivilDate.ofDays n = (MarchDate.mk (400 * cycle + year) ((5 * rest + 2) / 153)
      (rest - daysBeforeMonth ((5 * rest + 2) / 153))).civil := by
  have hshift : (n : ℤ) + 719468 = 146097 * cycle + day := by omega
  have hcycle : Int.fdiv (146097 * cycle + day) 146097 = (cycle : ℤ) := by
    rw [Int.fdiv_eq_ediv_of_nonneg _ (by decide)]
    omega
  have hmod : (Int.fmod (146097 * cycle + day) 146097).toNat = day := by
    rw [Int.fmod_eq_emod_of_nonneg _ (by decide)]
    omega
  simp only [CivilDate.ofDays, hshift, hcycle, hmod, hyear, hrest]
  have hmonth := (monthOfYear_eq hlast).1
  simp only [MarchDate.civil, MarchDate.civilYear, calendarMonth, daysBeforeMonth]
  generalize (5 * rest + 2) / 153 = month at hmonth
  rw [CivilDate.mk.injEq]
  refine ⟨?_, rfl, rfl⟩
  by_cases hsameYear : month < 10
  · rw [if_pos hsameYear, if_pos hsameYear, if_neg (by omega)]
    omega
  · rw [if_neg hsameYear, if_neg hsameYear, if_pos (by omega)]
    omega

/-- Every count of days is cut into a date counted from March. -/
theorem exists_marchDate (n : ℕ) :
    ∃ d : MarchDate, d.Exists ∧ d.days = n + 719468 ∧ CivilDate.ofDays n = d.civil := by
  obtain ⟨century, hcentury, group, hgroup, year, hyear, rest, hrest, hday, hleap⟩ :=
    exists_yearOfCycle (Nat.mod_lt (n + 719468) (by decide : 0 < 146097))
  have hfound := yearOfCycle_eq hcentury hgroup hyear hrest hday hleap
  obtain ⟨d, hexists, hd, hdays⟩ :=
    exists_month (400 * ((n + 719468) / 146097) + (100 * century + 4 * group + year)) hrest fun hlast => by
      obtain ⟨rfl, hend⟩ := hleap hlast
      exact isLeapYear_cycle _ hgroup hend
  refine ⟨d, hexists, ?_, ?_⟩
  · rw [hdays, daysBefore_cycle _ (by omega), daysOfCycle_eq hgroup hyear, Nat.add_assoc, ← hday,
      Nat.div_add_mod]
  · rw [hd]
    refine ofDays_eq (Nat.div_add_mod _ _).symm (Nat.mod_lt _ (by decide)) hrest hfound ?_
    rw [hday, daysOfCycle_eq hgroup hyear, Nat.add_sub_cancel_left]

/-- Months are counted in the calendar's order. -/
theorem MarchDate.Exists.month_civil {d : MarchDate} (h : d.Exists) :
    1 ≤ calendarMonth d.month ∧ calendarMonth d.month ≤ 12 ∧
      12 * d.civilYear + calendarMonth d.month = 12 * d.year + d.month + 3 := by
  have hmonth := h.month
  rw [calendarMonth, civilYear]
  split <;> omega

namespace CivilDate

theorem Before.year_le {d e : CivilDate} (h : d.Before e) : d.year ≤ e.year := by
  rcases h with h | ⟨h, -⟩
  · exact Int.le_of_lt h
  · exact Int.le_of_eq h

/-- **The dates that are found exist.** -/
theorem exists_ofDays (n : ℕ) : (ofDays n).Exists := by
  obtain ⟨d, hd, -, heq⟩ := exists_marchDate n
  obtain ⟨hleast, hmost, -⟩ := hd.month_civil
  rw [heq]
  exact ⟨⟨hleast, hmost⟩, Nat.succ_pos _, hd.day⟩

/-- **Later days have later dates.** -/
theorem before_ofDays {m n : ℕ} (h : m < n) : (ofDays m).Before (ofDays n) := by
  obtain ⟨d, hd, hdays, heq⟩ := exists_marchDate m
  obtain ⟨e, he, hdays', heq'⟩ := exists_marchDate n
  have hlater := he.later (d := d) (by omega)
  obtain ⟨hleast, hmost, hcount⟩ := hd.month_civil
  obtain ⟨hleast', hmost', hcount'⟩ := he.month_civil
  have hlast := hd.month
  rw [heq, heq', Before, MarchDate.civil, MarchDate.civil]
  simp only
  generalize calendarMonth d.month = month, calendarMonth e.month = month' at *
  rcases hlater with hyear | ⟨hyear, hmonth | ⟨hmonth, hday⟩⟩
  · omega
  · omega
  · omega

/-- The years from 1970 to 9999. -/
theorem year_ofDays {n : ℕ} (h : n < 2932897) : 1970 ≤ (ofDays n).year ∧ (ofDays n).year ≤ 9999 := by
  have hfirst : (ofDays (0 : ℕ)).year = 1970 := by decide
  have hlast : (ofDays (2932896 : ℕ)).year = 9999 := by decide
  have hstart : (ofDays (0 : ℕ)).year ≤ (ofDays n).year := by
    rcases Nat.eq_zero_or_pos n with rfl | hpos
    · exact le_rfl
    · exact (before_ofDays hpos).year_le
  have hend : (ofDays n).year ≤ (ofDays (2932896 : ℕ)).year := by
    rcases Nat.lt_or_eq_of_le (Nat.le_of_lt_succ h) with hless | rfl
    · exact (before_ofDays hless).year_le
    · exact le_rfl
  omega

end CivilDate

end DesignRegistry
