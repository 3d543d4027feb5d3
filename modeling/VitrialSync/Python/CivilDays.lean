import Mathlib.Tactic.IntervalCases
import VitrialSync.Python.Calendar

set_option relaxedAutoImplicit false
set_option autoImplicit false

/-!
# Civil dates and days

A civil date is the date of the day that it counts. Years are counted from March; four hundred of
them are an era of 146097 days, and the day of an era determines the year of the era, the day of
that year and with it the month.

## Main definitions

* `Python.DateTime.daysInMonth` — the number of days of a month.

## Main results

* `Python.DateTime.civilFromDays_daysFromCivil` — the date of the day of a date.
* `Python.DateTime.daysFromCivil_civilFromDays` — the day of the date of a day.
-/

namespace Python.DateTime

/-- The number of days of a month. -/
def daysInMonth (year month : ℕ) : ℕ :=
  if month = 2 then
    if year % 4 = 0 ∧ (year % 100 ≠ 0 ∨ year % 400 = 0) then 29 else 28
  else if month = 4 ∨ month = 6 ∨ month = 9 ∨ month = 11 then 30
  else 31

/-- The days of an era before a year of it. -/
def daysBeforeYear (yearOfEra : ℕ) : ℕ := 365 * yearOfEra + yearOfEra / 4 - yearOfEra / 100

/-- A day that only leap years have. -/
def LeapDay (yearOfEra dayOfYear : ℕ) : Prop :=
  dayOfYear = 365 →
    (yearOfEra + 1) % 4 = 0 ∧ ((yearOfEra + 1) % 100 ≠ 0 ∨ yearOfEra + 1 = 400)

/-- The year of an era is found from a day of it.

**Proof sketch.** The year is written in centuries `c`, groups of four years `q` and the rest `s`.
Each division of the day is `c` and `q` up to a correction, and the corrections keep the rest below
365. -/
lemma yearOfEra_eq {yearOfEra dayOfYear : ℕ} (hyear : yearOfEra < 400) (hday : dayOfYear ≤ 365)
    (hleap : LeapDay yearOfEra dayOfYear) :
    (daysBeforeYear yearOfEra + dayOfYear - (daysBeforeYear yearOfEra + dayOfYear) / 1460 +
        (daysBeforeYear yearOfEra + dayOfYear) / 36524 -
        (daysBeforeYear yearOfEra + dayOfYear) / 146096) / 365 = yearOfEra := by
  obtain ⟨c, q, s, hc, hq, hs, rfl⟩ :
      ∃ c q s, c ≤ 3 ∧ q ≤ 24 ∧ s ≤ 3 ∧ yearOfEra = 100 * c + 4 * q + s :=
    ⟨yearOfEra / 100, yearOfEra % 100 / 4, yearOfEra % 4, by omega, by omega, by omega, by omega⟩
  have hbefore : daysBeforeYear (100 * c + 4 * q + s) + dayOfYear =
      36524 * c + 1461 * q + 365 * s + dayOfYear := by
    unfold daysBeforeYear
    omega
  have hlast : dayOfYear = 365 → s = 3 ∧ (q = 24 → c = 3) := by
    intro h
    obtain ⟨hfour, hhundred⟩ := hleap h
    omega
  rw [hbefore]
  clear hleap hbefore hyear
  -- the three corrections: the last one but one is undone by the last
  have hfours : (36524 * c + 1461 * q + 365 * s + dayOfYear) / 1460 =
      25 * c + q + (24 * c + q + 365 * s + dayOfYear) / 1460 := by
    omega
  have hcenturies : (36524 * c + 1461 * q + 365 * s + dayOfYear) / 36524 =
      c + (1461 * q + 365 * s + dayOfYear) / 36524 := by
    omega
  have hera : (36524 * c + 1461 * q + 365 * s + dayOfYear) / 146096 =
      (1461 * q + 365 * s + dayOfYear) / 36524 := by
    clear hfours hcenturies
    interval_cases c <;> omega
  have hone : (24 * c + q + 365 * s + dayOfYear) / 1460 ≤ 1 := by omega
  have hless : (24 * c + q + 365 * s + dayOfYear) / 1460 ≤ dayOfYear := by omega
  have hmore : dayOfYear = 365 → (24 * c + q + 365 * s + dayOfYear) / 1460 = 1 := by omega
  rw [hfours, hcenturies, hera]
  clear hfours hcenturies hera hlast
  generalize (24 * c + q + 365 * s + dayOfYear) / 1460 = x at *
  generalize (1461 * q + 365 * s + dayOfYear) / 36524 = y
  have hrest : 36524 * c + 1461 * q + 365 * s + dayOfYear - (25 * c + q + x) + (c + y) - y =
      365 * (100 * c + 4 * q + s) + (dayOfYear - x) := by
    omega
  rw [hrest]
  omega

/-- The date of a day of an era. -/
lemma civilFromDays_era (era : ℕ) {yearOfEra dayOfYear : ℕ} (hyear : yearOfEra < 400)
    (hday : dayOfYear ≤ 365) (hleap : LeapDay yearOfEra dayOfYear) :
    civilFromDays (146097 * era + (daysBeforeYear yearOfEra + dayOfYear)) =
      (if (if (5 * dayOfYear + 2) / 153 < 10 then (5 * dayOfYear + 2) / 153 + 3
          else (5 * dayOfYear + 2) / 153 - 9) ≤ 2 then yearOfEra + 400 * era + 1
        else yearOfEra + 400 * era,
        if (5 * dayOfYear + 2) / 153 < 10 then (5 * dayOfYear + 2) / 153 + 3
          else (5 * dayOfYear + 2) / 153 - 9,
        dayOfYear - (153 * ((5 * dayOfYear + 2) / 153) + 2) / 5 + 1) := by
  have hlt : daysBeforeYear yearOfEra + dayOfYear < 146097 := by
    unfold daysBeforeYear
    omega
  have hera : (146097 * era + (daysBeforeYear yearOfEra + dayOfYear)) / 146097 = era := by omega
  have hdoe : (146097 * era + (daysBeforeYear yearOfEra + dayOfYear)) % 146097 =
      daysBeforeYear yearOfEra + dayOfYear := by
    omega
  have hdoy : daysBeforeYear yearOfEra + dayOfYear -
      (365 * yearOfEra + yearOfEra / 4 - yearOfEra / 100) = dayOfYear := by
    unfold daysBeforeYear
    omega
  simp only [civilFromDays, hera, hdoe, yearOfEra_eq hyear hday hleap, hdoy]

/-- The day of a date, in its era. -/
lemma daysFromCivil_era (y m d : ℕ) :
    daysFromCivil y m d =
      146097 * ((if m ≤ 2 then y - 1 else y) / 400) +
        (daysBeforeYear ((if m ≤ 2 then y - 1 else y) % 400) +
          ((153 * (if m ≤ 2 then m + 9 else m - 3) + 2) / 5 + (d - 1))) := by
  simp only [daysFromCivil, daysBeforeYear]
  generalize (153 * (if m ≤ 2 then m + 9 else m - 3) + 2) / 5 = n
  generalize (if m ≤ 2 then y - 1 else y) = y'
  omega

/-- **The date of the day of a date** is the date.

**Proof sketch.** The day of the year that starts in March determines the month, in twelve cases. -/
theorem civilFromDays_daysFromCivil {y m d : ℕ} (hy : 1 ≤ y) (hm : 1 ≤ m ∧ m ≤ 12)
    (hd : 1 ≤ d ∧ d ≤ daysInMonth y m) : civilFromDays (daysFromCivil y m d) = (y, m, d) := by
  obtain ⟨hm1, hm12⟩ := hm
  obtain ⟨hd1, hdm⟩ := hd
  have hmonth : (if (if m ≤ 2 then m + 9 else m - 3) < 10 then (if m ≤ 2 then m + 9 else m - 3) + 3
      else (if m ≤ 2 then m + 9 else m - 3) - 9) = m := by
    split_ifs <;> omega
  unfold daysInMonth at hdm
  have hleap : LeapDay ((if m ≤ 2 then y - 1 else y) % 400)
      ((153 * (if m ≤ 2 then m + 9 else m - 3) + 2) / 5 + (d - 1)) := by
    intro hlast
    interval_cases m <;> simp at hdm hlast ⊢ <;> (try split at hdm) <;> omega
  have hday : (153 * (if m ≤ 2 then m + 9 else m - 3) + 2) / 5 + (d - 1) ≤ 365 := by
    interval_cases m <;> simp at hdm ⊢ <;> (try split at hdm) <;> omega
  have hfound : (5 * ((153 * (if m ≤ 2 then m + 9 else m - 3) + 2) / 5 + (d - 1)) + 2) / 153 =
      if m ≤ 2 then m + 9 else m - 3 := by
    interval_cases m <;> simp at hdm ⊢ <;> (try split at hdm) <;> omega
  rw [daysFromCivil_era, civilFromDays_era _ (Nat.mod_lt _ (by decide)) hday hleap]
  simp only [hfound, hmonth, Prod.mk.injEq, true_and]
  clear hleap hday hfound hmonth hdm
  refine ⟨?_, by omega⟩
  split_ifs <;> omega

/-- Every day of an era is a day of a year of it.

**Proof sketch.** The day is divided by the lengths of a century, of four years and of a year; the
last century, group and year may have one day more. -/
lemma exists_yearOfEra {dayOfEra : ℕ} (h : dayOfEra < 146097) :
    ∃ yearOfEra dayOfYear, yearOfEra < 400 ∧ dayOfYear ≤ 365 ∧ LeapDay yearOfEra dayOfYear ∧
      daysBeforeYear yearOfEra + dayOfYear = dayOfEra := by
  obtain ⟨c, r, hc, hr, hlast, rfl⟩ : ∃ c r, c ≤ 3 ∧ r ≤ 36524 ∧ (r = 36524 → c = 3) ∧
      dayOfEra = 36524 * c + r := by
    by_cases hend : dayOfEra = 146096
    · exact ⟨3, 36524, by omega, by omega, fun _ => rfl, by omega⟩
    · exact ⟨dayOfEra / 36524, dayOfEra % 36524, by omega, by omega, by omega, by omega⟩
  obtain ⟨q, r', hq, hr', rfl⟩ : ∃ q r', q ≤ 24 ∧ r' ≤ 1460 ∧ r = 1461 * q + r' :=
    ⟨r / 1461, r % 1461, by omega, by omega, by omega⟩
  obtain ⟨y, d, hy, hd, hleap, rfl⟩ : ∃ y d, y ≤ 3 ∧ d ≤ 365 ∧ (d = 365 → y = 3) ∧
      r' = 365 * y + d := by
    by_cases hend : r' = 1460
    · exact ⟨3, 365, by omega, by omega, fun _ => rfl, by omega⟩
    · exact ⟨r' / 365, r' % 365, by omega, by omega, by omega, by omega⟩
  refine ⟨100 * c + 4 * q + y, d, by omega, hd, fun hday => ?_, ?_⟩
  · have hthree := hleap hday
    omega
  · have hfour : (100 * c + 4 * q + y) / 4 = 25 * c + q := by omega
    have hhundred : (100 * c + 4 * q + y) / 100 = c := by omega
    rw [daysBeforeYear, hfour, hhundred]
    omega

/-- **The day of the date of a day** is the day, and the date is one of the calendar.

**Proof sketch.** The day is a day of a year of an era; the month has the days from the first of
March on, in twelve cases. -/
theorem daysFromCivil_civilFromDays (z : ℕ) : ∃ y m d, civilFromDays z = (y, m, d) ∧
    (1 ≤ m ∧ m ≤ 12) ∧ (1 ≤ d ∧ d ≤ daysInMonth y m) ∧ daysFromCivil y m d = z := by
  obtain ⟨yearOfEra, dayOfYear, hyear, hday, hleap, hdoe⟩ :=
    exists_yearOfEra (Nat.mod_lt z (show 146097 > 0 by decide))
  have hz : z = 146097 * (z / 146097) + (daysBeforeYear yearOfEra + dayOfYear) := by
    rw [hdoe]
    exact (Nat.div_add_mod z 146097).symm
  have hcivil := civilFromDays_era (z / 146097) hyear hday hleap
  rw [← hz] at hcivil
  refine ⟨_, _, _, hcivil, ?_⟩
  obtain ⟨mp, hmp⟩ : ∃ mp, mp = (5 * dayOfYear + 2) / 153 := ⟨_, rfl⟩
  have hmp11 : mp ≤ 11 := by omega
  rw [← hmp]
  have hdate : 1 ≤ dayOfYear - (153 * mp + 2) / 5 + 1 ∧
      (153 * mp + 2) / 5 ≤ dayOfYear := by omega
  refine ⟨by split_ifs <;> omega, ⟨hdate.1, ?_⟩, ?_⟩
  · unfold daysInMonth
    by_cases hlast : mp = 11
    · subst hlast
      -- February is the last month, with its 29th day in leap years only
      by_cases hfull : dayOfYear = 365
      · obtain ⟨hfour, hhundred⟩ := hleap hfull
        have hleapYear : (yearOfEra + 400 * (z / 146097) + 1) % 4 = 0 ∧
            ((yearOfEra + 400 * (z / 146097) + 1) % 100 ≠ 0 ∨
              (yearOfEra + 400 * (z / 146097) + 1) % 400 = 0) := by omega
        simp [hleapYear, hfull]
      · simp only [Nat.reduceLT, ↓reduceIte, Nat.reduceSub, le_refl]
        split_ifs <;> omega
    · have hnext : mp ≤ 10 := by omega
      clear hlast hmp11 hleap hdate
      interval_cases mp <;> simp <;> omega
  · rw [daysFromCivil_era]
    have hmonth : (if (if mp < 10 then mp + 3 else mp - 9) ≤ 2 then
        (if mp < 10 then mp + 3 else mp - 9) + 9 else (if mp < 10 then mp + 3 else mp - 9) - 3) =
        mp := by
      split_ifs <;> omega
    have hy : (if (if mp < 10 then mp + 3 else mp - 9) ≤ 2 then
        (if (if mp < 10 then mp + 3 else mp - 9) ≤ 2 then
          yearOfEra + 400 * (z / 146097) + 1 else yearOfEra + 400 * (z / 146097)) - 1
        else (if (if mp < 10 then mp + 3 else mp - 9) ≤ 2 then
          yearOfEra + 400 * (z / 146097) + 1 else yearOfEra + 400 * (z / 146097))) =
        yearOfEra + 400 * (z / 146097) := by
      split_ifs <;> omega
    have hera : (yearOfEra + 400 * (z / 146097)) / 400 = z / 146097 := by omega
    have hyoe : (yearOfEra + 400 * (z / 146097)) % 400 = yearOfEra := by omega
    rw [hmonth, hy, hera, hyoe]
    omega

end Python.DateTime
