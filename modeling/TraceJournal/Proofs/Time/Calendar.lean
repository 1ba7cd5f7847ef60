import Mathlib.Tactic.IntervalCases
import TraceJournal.Time.Calendar

/-!
# Dates of day numbers

Every day number belongs to a date that exists, and is the number of that date. A day is counted
in its era of four hundred years, and there in its century, its group of four years and its year,
all of which start in March.
-/

namespace TraceJournal.Time.Date

/-- The lengths of the months from March to January follow each other as the days are shared out
among them. -/
theorem daysInMonth_of_march {year : Int} {month : Nat} (h : month < 11) :
    daysInMonth year (if month < 10 then month + 3 else month - 9) =
      (153 * (month + 1) + 2) / 5 - (153 * month + 2) / 5 := by
  interval_cases month <;> rfl

/-- A day number by the parts that are cut off from it in turn. -/
structure Parts where
  era : Int
  century : Int
  group : Int
  year : Int
  /-- The day in the year that starts in March. -/
  day : Int

/-- The parts of a day number. -/
def Parts.ofDays (days : Int) : Parts :=
  let inEra := (days + epochShift) % 146097
  let century := min 3 (inEra / 36524)
  let inCentury := inEra - century * 36524
  let inGroup := inCentury % 1461
  let year := min 3 (inGroup / 365)
  ⟨(days + epochShift) / 146097, century, inCentury / 1461, year, inGroup - year * 365⟩

namespace Parts

/-- The year of the parts, as one that starts in March. -/
def marchYear (p : Parts) : Int := 400 * p.era + 100 * p.century + 4 * p.group + p.year

/-- The month, counted from March. -/
def marchMonth (p : Parts) : Int := (5 * p.day + 2) / 153

/-- Each part is as large as it may be, and the last day of a year is there in leap years only. -/
structure Proper (p : Parts) : Prop where
  century_nonneg : 0 ≤ p.century
  century_le : p.century ≤ 3
  group_nonneg : 0 ≤ p.group
  group_le : p.group ≤ 24
  year_nonneg : 0 ≤ p.year
  year_le : p.year ≤ 3
  day_nonneg : 0 ≤ p.day
  day_le : p.day ≤ 365
  leap : p.day = 365 → p.year = 3 ∧ (p.group = 24 → p.century = 3)

theorem proper_ofDays (days : Int) : (Parts.ofDays days).Proper := by
  simp only [Parts.ofDays]
  generalize days + epochShift = shifted
  have low : 0 ≤ shifted % 146097 := Int.emod_nonneg _ (by decide)
  have high : shifted % 146097 < 146097 := Int.emod_lt_of_pos _ (by decide)
  generalize shifted % 146097 = inEra at low high
  constructor <;> simp only <;> omega

/-- The parts make up the day number. -/
theorem days_eq (days : Int) :
    days = 146097 * (Parts.ofDays days).era + 36524 * (Parts.ofDays days).century +
      1461 * (Parts.ofDays days).group + 365 * (Parts.ofDays days).year +
      (Parts.ofDays days).day - epochShift := by
  simp only [Parts.ofDays, epochShift]
  omega

/-- The date of the parts. -/
def date (p : Parts) : Date :=
  let month := if p.marchMonth < 10 then p.marchMonth + 3 else p.marchMonth - 9
  { year := if month ≤ 2 then p.marchYear + 1 else p.marchYear
    month := month.toNat
    day := (p.day - (153 * p.marchMonth + 2) / 5 + 1).toNat }

theorem date_ofDays (days : Int) : (Parts.ofDays days).date = Date.ofDays days := rfl

namespace Proper

variable {p : Parts}

theorem marchMonth_nonneg (h : p.Proper) : 0 ≤ p.marchMonth := by
  have := h.day_nonneg
  unfold marchMonth
  omega

theorem marchMonth_le (h : p.Proper) : p.marchMonth ≤ 11 := by
  have := h.day_le
  unfold marchMonth
  omega

/-- The first months of a year that starts in March end the year that starts in January. -/
theorem year_date (h : p.Proper) :
    p.date.year = if p.marchMonth < 10 then p.marchYear else p.marchYear + 1 := by
  have := h.marchMonth_nonneg
  unfold date
  simp only
  split
  · rw [if_neg (by omega)]
  · have := h.marchMonth_le
    rw [if_pos (by omega)]

theorem month_date (h : p.Proper) :
    (p.date.month : Int) = if p.marchMonth < 10 then p.marchMonth + 3 else p.marchMonth - 9 := by
  have := h.marchMonth_nonneg
  unfold date
  simp only
  split <;> omega

theorem day_date (h : p.Proper) :
    (p.date.day : Int) = p.day - (153 * p.marchMonth + 2) / 5 + 1 := by
  have := h.day_nonneg
  unfold date marchMonth
  simp only
  omega

/-- The years before the last one, with one leap day each four years, but for three centuries of
four. -/
theorem years_eq (h : p.Proper) :
    365 * p.marchYear + p.marchYear / 4 - p.marchYear / 100 + p.marchYear / 400 =
      146097 * p.era + 36524 * p.century + 1461 * p.group + 365 * p.year := by
  have := h.century_nonneg
  have := h.century_le
  have := h.group_nonneg
  have := h.group_le
  have := h.year_nonneg
  have := h.year_le
  unfold marchYear
  omega

/-- The number of the date. -/
theorem toDays_date (h : p.Proper) :
    p.date.toDays = 146097 * p.era + 36524 * p.century + 1461 * p.group + 365 * p.year + p.day -
      epochShift := by
  have year := h.year_date
  have month := h.month_date
  have day := h.day_date
  have low := h.marchMonth_nonneg
  have high := h.marchMonth_le
  have years : (if p.date.month ≤ 2 then p.date.year - 1 else p.date.year) = p.marchYear := by
    split at year <;> split at month <;> split <;> omega
  have months : ((p.date.month : Int) + 9) % 12 = p.marchMonth := by
    split at month <;> omega
  unfold toDays
  simp only [years, months, day, h.years_eq]
  omega

/-- In a leap year, and only there, the year that starts in March has a last day more. -/
theorem isLeapYear_of_last (h : p.Proper) (last : p.day = 365) :
    isLeapYear (p.marchYear + 1) = true := by
  have := h.group_nonneg
  have := h.group_le
  obtain ⟨year, century⟩ := h.leap last
  unfold isLeapYear marchYear
  simp only [Bool.and_eq_true, Bool.or_eq_true, beq_iff_eq, bne_iff_ne]
  by_cases last_group : p.group = 24
  · have := century last_group
    omega
  · omega

/-- The day is one of its month. -/
theorem day_le_daysInMonth (h : p.Proper) :
    1 ≤ p.date.day ∧ p.date.day ≤ daysInMonth p.date.year p.date.month := by
  have month := h.month_date
  have day := h.day_date
  have low := h.marchMonth_nonneg
  have high := h.marchMonth_le
  have first := h.day_nonneg
  have last := h.day_le
  have month_eq : p.marchMonth = (5 * p.day + 2) / 153 := rfl
  refine ⟨by omega, ?_⟩
  by_cases february : p.marchMonth = 11
  · have second : p.date.month = 2 := by
      rw [february] at month
      omega
    have year : p.date.year = p.marchYear + 1 := by
      rw [h.year_date, february]
      rfl
    rw [second, year, daysInMonth]
    by_cases leap_day : p.day = 365
    · rw [if_pos (h.isLeapYear_of_last leap_day)]
      omega
    · split <;> omega
  · obtain ⟨number, number_eq⟩ := Int.eq_ofNat_of_zero_le low
    rw [number_eq] at month day month_eq
    have early : number < 11 := by omega
    have other : p.date.month = if number < 10 then number + 3 else number - 9 := by
      split at month <;> split <;> omega
    rw [other, daysInMonth_of_march early]
    interval_cases number <;> omega

/-- The date exists. -/
theorem isValid_date (h : p.Proper) : p.date.isValid = true := by
  have month := h.month_date
  have low := h.marchMonth_nonneg
  have high := h.marchMonth_le
  obtain ⟨first, last⟩ := h.day_le_daysInMonth
  unfold isValid
  simp only [Bool.and_eq_true, decide_eq_true_eq]
  refine ⟨⟨⟨?_, ?_⟩, first⟩, last⟩
  · split at month <;> omega
  · split at month <;> omega

end Proper

end Parts

/-- The number of the date of a day number. -/
theorem toDays_ofDays (days : Int) : (Date.ofDays days).toDays = days := by
  rw [← Parts.date_ofDays, (Parts.proper_ofDays days).toDays_date, ← Parts.days_eq]

/-- The date of a day number exists. -/
theorem isValid_ofDays (days : Int) : (Date.ofDays days).isValid = true :=
  (Parts.proper_ofDays days).isValid_date

/-- The days of the years in which instants lie have their dates there. -/
theorem year_ofDays {days : Int} (low : -96465292 ≤ days) (high : days ≤ 95026236) :
    -262143 ≤ (Date.ofDays days).year ∧ (Date.ofDays days).year ≤ 262142 := by
  have proper := Parts.proper_ofDays days
  have total := Parts.days_eq days
  have year := proper.year_date
  have first := proper.day_nonneg
  have last := proper.day_le
  have month_eq : (Parts.ofDays days).marchMonth = (5 * (Parts.ofDays days).day + 2) / 153 := rfl
  rw [← proper.years_eq, epochShift] at total
  rw [← Parts.date_ofDays]
  generalize (Parts.ofDays days).marchYear = march at total year
  have least : -262144 ≤ march := by omega
  have most : march ≤ 262142 := by omega
  -- The first two months of the first year, and the last ones of the last, belong to no other one.
  constructor
  · by_cases early : march = -262144
    · subst early
      rw [if_neg (by omega)] at year
      omega
    · split at year <;> omega
  · by_cases late : march = 262142
    · subst late
      rw [if_pos (by omega)] at year
      omega
    · split at year <;> omega

end TraceJournal.Time.Date
