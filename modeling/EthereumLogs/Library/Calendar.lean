import Mathlib.Algebra.BigOperators.Group.List.Basic
import Mathlib.Tactic.IntervalCases
import Mathlib.Tactic.Linarith

namespace Calendar

variable {doe c q a d m y : ℤ}

section Gregorian

def leapDay (year : ℤ) : ℤ :=
  if year % 4 = 0 ∧ (year % 100 ≠ 0 ∨ year % 400 = 0) then 1 else 0

def daysInMonth (year month : ℤ) : ℤ :=
  if month = 2 then 28 + leapDay year
  else if month = 4 ∨ month = 6 ∨ month = 9 ∨ month = 11 then 30
  else 31

def daysBeforeYear (year : ℤ) : ℤ :=
  365 * (year - 1) + (year - 1) / 4 - (year - 1) / 100 + (year - 1) / 400

def daysBeforeMonth (year month : ℤ) : ℤ :=
  ((List.range (month - 1).toNat).map fun m => daysInMonth year (m + 1)).sum

-- counted from 1970-01-01
def dayNumber (year month day : ℤ) : ℤ :=
  daysBeforeYear year + daysBeforeMonth year month + day - 719163

structure Valid (year month day : ℤ) : Prop where
  inYear : 1 ≤ month ∧ month ≤ 12
  inMonth : 1 ≤ day ∧ day ≤ daysInMonth year month

instance (year month day : ℤ) : Decidable (Valid year month day) :=
  decidable_of_iff ((1 ≤ month ∧ month ≤ 12) ∧ 1 ≤ day ∧ day ≤ daysInMonth year month)
    ⟨fun h => ⟨h.1, h.2⟩, fun h => ⟨h.inYear, h.inMonth⟩⟩

theorem daysBeforeYear_succ : daysBeforeYear (y + 1) = daysBeforeYear y + 365 + leapDay y := by
  rw [daysBeforeYear, daysBeforeYear, leapDay]
  split_ifs <;> omega

theorem leapDay_bounds : 0 ≤ leapDay y ∧ leapDay y ≤ 1 := by
  rw [leapDay]
  split_ifs <;> decide

theorem daysInMonth_le (y m : ℤ) : daysInMonth y m ≤ 31 := by
  have := leapDay_bounds (y := y)
  rw [daysInMonth]
  split_ifs <;> omega

-- with months counted from March, five of them hold 153 days

theorem daysBeforeMonth_march (h : 0 ≤ m ∧ m < 10) :
    daysBeforeMonth y (m + 3) = 59 + leapDay y + (153 * m + 2) / 5 := by
  obtain ⟨hm, hm'⟩ := h
  interval_cases m <;> simp [daysBeforeMonth, daysInMonth, List.range_succ] <;> omega

theorem daysBeforeMonth_january (h : 10 ≤ m ∧ m < 12) :
    daysBeforeMonth y (m - 9) = (153 * m + 2) / 5 - 306 := by
  obtain ⟨hm, hm'⟩ := h
  interval_cases m <;> simp [daysBeforeMonth, daysInMonth, List.range_succ]

theorem daysInMonth_march (h : 0 ≤ m ∧ m < 10) :
    daysInMonth y (m + 3) = (153 * (m + 1) + 2) / 5 - (153 * m + 2) / 5 := by
  obtain ⟨hm, hm'⟩ := h
  interval_cases m <;> simp [daysInMonth]

end Gregorian

section Era

-- years run from March to February inside a 400-year era

def yearOfEra (doe : ℤ) : ℤ := (doe - doe / 1460 + doe / 36524 - doe / 146096) / 365

def dayOfYear (doe : ℤ) : ℤ :=
  doe - (365 * yearOfEra doe + yearOfEra doe / 4 - yearOfEra doe / 100)

def monthIndex (doe : ℤ) : ℤ := (5 * dayOfYear doe + 2) / 153

structure EraDay (doe c q a d : ℤ) : Prop where
  century : 0 ≤ c ∧ c ≤ 3
  cycle : 0 ≤ q ∧ q ≤ 24
  year : 0 ≤ a ∧ a ≤ 3
  day : 0 ≤ d ∧ d ≤ 365
  leap : d = 365 → a = 3 ∧ (q = 24 → c = 3)
  sum : doe = 36524 * c + 1461 * q + 365 * a + d

theorem eraDay (h0 : 0 ≤ doe) (h : doe < 146097) : ∃ c q a d, EraDay doe c q a d := by
  have hc : 0 ≤ min (doe / 36524) 3 ∧ min (doe / 36524) 3 ≤ 3 := by omega
  generalize hcdef : min (doe / 36524) 3 = c at hc
  generalize hr : doe - 36524 * c = r
  have hr' : 0 ≤ r ∧ r ≤ 36524 ∧ (c < 3 → r < 36524) := by omega
  generalize hqdef : min (r / 1461) 24 = q
  generalize hs : r - 1461 * q = s
  have hs' : 0 ≤ s ∧ s ≤ 1460 ∧ (q = 24 → c < 3 → s < 1460) := by omega
  generalize hadef : min (s / 365) 3 = a
  refine ⟨c, q, a, s - 365 * a, hc, ?_, ?_, ?_, ?_, ?_⟩
  · omega
  · omega
  · omega
  · omega
  · omega

theorem yearOfEra_eq (h : EraDay doe c q a d) : yearOfEra doe = 100 * c + 4 * q + a := by
  obtain ⟨hc, hq, ha, hd, hleap, hsum⟩ := h
  have hwithin : 1461 * q + 365 * a + d ≤ 36524 := by omega
  rcases eq_or_ne doe 146096 with hlast | hbefore
  · have hyear : c = 3 ∧ q = 24 ∧ a = 3 := by omega
    rw [hlast, hyear.1, hyear.2.1, hyear.2.2]
    decide
  · have hcentury : doe / 36524 = c := by omega
    have hera : doe / 146096 = 0 := by omega
    have hcycle : doe - 1460 * (25 * c + q) = 24 * c + q + 365 * a + d := by omega
    have hleft : doe - (25 * c + q) + c = 365 * (100 * c + 4 * q + a) + d := by omega
    rcases lt_or_ge (24 * c + q + 365 * a + d) 1460 with hshort | hlong
    · have hquotient : doe / 1460 = 25 * c + q := by omega
      rw [yearOfEra, hquotient, hcentury, hera]
      omega
    · have hquotient : doe / 1460 = 25 * c + q + 1 := by omega
      rw [yearOfEra, hquotient, hcentury, hera]
      omega

theorem daysBeforeYear_era (h : EraDay doe c q a d) (e : ℤ) :
    daysBeforeYear (yearOfEra doe + e * 400 + 1) = 146097 * e + doe - d := by
  have hyear := yearOfEra_eq h
  obtain ⟨hc, hq, ha, hd, hleap, hsum⟩ := h
  rw [daysBeforeYear, hyear]
  omega

-- the era's last day of a year of 366 days is a 29th of February
theorem leapDay_era (h : EraDay doe c q a 365) (e : ℤ) :
    leapDay (yearOfEra doe + e * 400 + 1) = 1 := by
  have hyear := yearOfEra_eq h
  obtain ⟨hc, hq, ha, hd, hleap, hsum⟩ := h
  rw [leapDay, hyear, if_pos]
  omega

theorem dayOfYear_eq (h : EraDay doe c q a d) : dayOfYear doe = d := by
  have hyear := yearOfEra_eq h
  obtain ⟨hc, hq, ha, hd, hleap, hsum⟩ := h
  rw [dayOfYear, hyear]
  omega

end Era

section Civil

variable (days : ℤ)

def eraOf : ℤ := (days + 719468) / 146097

def dayOfEra : ℤ := (days + 719468) % 146097

def civilMonth : ℤ :=
  if monthIndex (dayOfEra days) < 10 then monthIndex (dayOfEra days) + 3
  else monthIndex (dayOfEra days) - 9

def civilYear : ℤ :=
  yearOfEra (dayOfEra days) + eraOf days * 400 + (if civilMonth days ≤ 2 then 1 else 0)

def civilDay : ℤ :=
  dayOfYear (dayOfEra days) - (153 * monthIndex (dayOfEra days) + 2) / 5 + 1

theorem dayOfEra_eraDay : ∃ c q a d, EraDay (dayOfEra days) c q a d :=
  eraDay (Int.emod_nonneg _ (by decide)) (Int.emod_lt_of_pos _ (by decide))

theorem era_split : days = 146097 * eraOf days + dayOfEra days - 719468 := by
  rw [eraOf, dayOfEra]
  omega

variable {days}

theorem dayNumber_march (h : EraDay (dayOfEra days) c q a d) (hm : (5 * d + 2) / 153 < 10) :
    Valid (civilYear days) (civilMonth days) (civilDay days) ∧
      dayNumber (civilYear days) (civilMonth days) (civilDay days) = days := by
  have hsplit := era_split days
  have hindex : monthIndex (dayOfEra days) = (5 * d + 2) / 153 := by rw [monthIndex, dayOfYear_eq h]
  have hmonth : civilMonth days = (5 * d + 2) / 153 + 3 := by rw [civilMonth, hindex, if_pos hm]
  have hday : civilDay days = d - (153 * ((5 * d + 2) / 153) + 2) / 5 + 1 := by
    rw [civilDay, dayOfYear_eq h, hindex]
  have hyear : civilYear days = yearOfEra (dayOfEra days) + eraOf days * 400 := by
    rw [civilYear, if_neg (by have := h.day; omega), add_zero]
  have hlength := daysInMonth_march (y := civilYear days) (m := (5 * d + 2) / 153)
    (by have := h.day; omega)
  have hbefore := daysBeforeMonth_march (y := civilYear days) (m := (5 * d + 2) / 153)
    (by have := h.day; omega)
  have hera := daysBeforeYear_era h (eraOf days)
  rw [← hyear, daysBeforeYear_succ] at hera
  have hd := h.day
  refine ⟨⟨by omega, ?_⟩, ?_⟩
  · rw [hmonth, hlength, hday]
    omega
  · rw [dayNumber, hmonth, hbefore, hday]
    omega

theorem dayNumber_january (h : EraDay (dayOfEra days) c q a d) (hm : 10 ≤ (5 * d + 2) / 153) :
    Valid (civilYear days) (civilMonth days) (civilDay days) ∧
      dayNumber (civilYear days) (civilMonth days) (civilDay days) = days := by
  have hd := h.day
  have hsplit := era_split days
  have hindex : monthIndex (dayOfEra days) = (5 * d + 2) / 153 := by rw [monthIndex, dayOfYear_eq h]
  have hmonth : civilMonth days = (5 * d + 2) / 153 - 9 := by
    rw [civilMonth, hindex, if_neg (by omega)]
  have hday : civilDay days = d - (153 * ((5 * d + 2) / 153) + 2) / 5 + 1 := by
    rw [civilDay, dayOfYear_eq h, hindex]
  have hyear : civilYear days = yearOfEra (dayOfEra days) + eraOf days * 400 + 1 := by
    rw [civilYear, if_pos (by omega)]
  have hbefore := daysBeforeMonth_january (y := civilYear days) (m := (5 * d + 2) / 153) (by omega)
  have hera := daysBeforeYear_era h (eraOf days)
  rw [← hyear] at hera
  refine ⟨⟨by omega, by omega, ?_⟩, ?_⟩
  · rcases eq_or_ne d 365 with rfl | hne
    · have hleap := leapDay_era h (eraOf days)
      rw [← hyear] at hleap
      rw [hmonth, hday, daysInMonth, hleap]
      decide
    · have hleap := leapDay_bounds (y := civilYear days)
      rw [hmonth, hday, daysInMonth]
      split_ifs <;> omega
  · rw [dayNumber, hmonth, hbefore, hday]
    omega

theorem civil_spec (days : ℤ) : Valid (civilYear days) (civilMonth days) (civilDay days) ∧
    dayNumber (civilYear days) (civilMonth days) (civilDay days) = days := by
  obtain ⟨c, q, a, d, h⟩ := dayOfEra_eraDay days
  rcases lt_or_ge ((5 * d + 2) / 153) 10 with hm | hm
  · exact dayNumber_march h hm
  · exact dayNumber_january h hm

end Civil

end Calendar
