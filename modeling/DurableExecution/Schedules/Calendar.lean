import DurableExecution.Schedules.Cron

/-
This file proves what cron expressions need of the proleptic Gregorian calendar: counts of days
and dates stand for each other, and dates with their weekdays come back after 400 years.
-/

namespace DurableExecution.Schedules

open Workflow (civilFromDays)

section Eras

/-- The day of an era, as a century, a cycle of four years, a year, and a day of the year that
starts in March. -/
structure DayOfEra (dayOfEra century cycle year day : Nat) : Prop where
  few : century ≤ 3
  fewer : cycle ≤ 24
  fewest : year ≤ 3
  short : day ≤ 365
  split : dayOfEra = 36524 * century + 1461 * cycle + 365 * year + day
  leap : day = 365 → year = 3
  last : year = 3 → day = 365 → cycle = 24 → century = 3

variable {dayOfEra century cycle year day : Nat}

theorem DayOfEra.exists (inEra : dayOfEra < 146097) : ∃ century cycle year day, DayOfEra dayOfEra century cycle year day := by
  obtain ⟨century, isCentury⟩ : ∃ century, century = min (dayOfEra / 36524) 3 := ⟨_, rfl⟩
  obtain ⟨ofCentury, isOfCentury⟩ : ∃ ofCentury, ofCentury = dayOfEra - 36524 * century := ⟨_, rfl⟩
  obtain ⟨cycle, isCycle⟩ : ∃ cycle, cycle = min (ofCentury / 1461) 24 := ⟨_, rfl⟩
  obtain ⟨ofCycle, isOfCycle⟩ : ∃ ofCycle, ofCycle = ofCentury - 1461 * cycle := ⟨_, rfl⟩
  obtain ⟨year, isYear⟩ : ∃ year, year = min (ofCycle / 365) 3 := ⟨_, rfl⟩
  have short : ofCentury ≤ 36524 ∧ (century < 3 → ofCentury < 36524) ∧ dayOfEra = 36524 * century + ofCentury := by omega
  have shorter : ofCycle ≤ 1460 ∧ ofCentury = 1461 * cycle + ofCycle := by omega
  exact ⟨century, cycle, year, ofCycle - 365 * year, by omega, by omega, by omega, by omega, by omega, by omega, by omega⟩

theorem DayOfEra.yearOfEra (splits : DayOfEra dayOfEra century cycle year day) :
    (dayOfEra - dayOfEra / 1460 + dayOfEra / 36524 - dayOfEra / 146096) / 365 = 100 * century + 4 * cycle + year := by
  obtain ⟨few, fewer, fewest, short, split, leap, last⟩ := splits
  by_cases final : dayOfEra = 146096
  · subst final
    obtain ⟨rfl, rfl, rfl⟩ : century = 3 ∧ cycle = 24 ∧ year = 3 := by omega
    rfl
  · have inside : 1461 * cycle + 365 * year + day < 36524 := by omega
    have below : dayOfEra < 146096 := by omega
    have centuries : dayOfEra / 36524 = century := Nat.div_eq_of_lt_le (by omega) (by omega)
    -- one leap day less in each full cycle, and one more when the day is late in its cycle
    obtain ⟨late, cycles, most, leapDay, firstDay⟩ : ∃ late, dayOfEra / 1460 = 25 * century + cycle + late ∧ late ≤ 1 ∧
        (day = 365 → late = 1) ∧ (day = 0 → year = 0 → late = 0) := by
      refine ⟨(24 * century + cycle + 365 * year + day) / 1460, ?_, by omega, by omega, by omega⟩
      have sum : dayOfEra = (24 * century + cycle + 365 * year + day) + (25 * century + cycle) * 1460 := by omega
      rw [sum, Nat.add_mul_div_right _ _ (by decide)]
      omega
    rw [cycles, centuries, Nat.div_eq_of_lt below]
    exact Nat.div_eq_of_lt_le (by omega) (by omega)

end Eras

section Dates

variable {days : Int}

/-- The date of a day by its era and its place in it. -/
theorem civilFromDays_split (days : Int) : ∃ (era : Int) (dayOfEra century cycle year day : Nat),
    DayOfEra dayOfEra century cycle year day ∧ days + 719468 = era * 146097 + dayOfEra ∧
    (civilFromDays days).2.1 = (if (5 * day + 2) / 153 < 10 then (5 * day + 2) / 153 + 3 else (5 * day + 2) / 153 - 9) ∧
    (civilFromDays days).2.2 = day - (153 * ((5 * day + 2) / 153) + 2) / 5 + 1 ∧
    (civilFromDays days).1 = ((100 * century + 4 * cycle + year : Nat) : Int) + era * 400 +
      if (5 * day + 2) / 153 < 10 then 0 else 1 := by
  obtain ⟨era, isEra⟩ : ∃ era, era = (days + 719468).fdiv 146097 := ⟨_, rfl⟩
  obtain ⟨dayOfEra, isDay⟩ : ∃ dayOfEra : Nat, dayOfEra = (days + 719468 - era * 146097).toNat := ⟨_, rfl⟩
  have place : days + 719468 = era * 146097 + dayOfEra ∧ dayOfEra < 146097 := by
    rw [Int.fdiv_eq_ediv_of_nonneg _ (by decide)] at isEra
    omega
  obtain ⟨century, cycle, year, day, splits⟩ := DayOfEra.exists place.2
  have years := splits.yearOfEra
  have ofYear : dayOfEra - (365 * (100 * century + 4 * cycle + year) + (100 * century + 4 * cycle + year) / 4 -
      (100 * century + 4 * cycle + year) / 100) = day := by
    obtain ⟨few, fewer, fewest, short, split, leap, last⟩ := splits
    have quarters : (100 * century + 4 * cycle + year) / 4 = 25 * century + cycle := by omega
    have hundreds : (100 * century + 4 * cycle + year) / 100 = century := by omega
    rw [quarters, hundreds]
    omega
  refine ⟨era, dayOfEra, century, cycle, year, day, splits, place.1, ?_, ?_, ?_⟩
  · simp only [civilFromDays, ← isEra, ← isDay, years, ofYear]
  · simp only [civilFromDays, ← isEra, ← isDay, years, ofYear]
  · simp only [civilFromDays, ← isEra, ← isDay, years, ofYear]
    have months : (5 * day + 2) / 153 ≤ 11 := by
      have short := splits.short
      omega
    congr 1
    split <;> split <;> omega

theorem daysFromCivil_civilFromDays (days : Int) :
    daysFromCivil (civilFromDays days).1 (civilFromDays days).2.1 (civilFromDays days).2.2 = days := by
  obtain ⟨era, dayOfEra, century, cycle, year, day, splits, place, month, ofMonth, years⟩ := civilFromDays_split days
  obtain ⟨few, fewer, fewest, short, split, leap, last⟩ := splits
  rw [month, ofMonth, years, daysFromCivil]
  obtain ⟨shifted, isShifted⟩ : ∃ shifted, shifted = (5 * day + 2) / 153 := ⟨_, rfl⟩
  rw [← isShifted]
  have months : shifted ≤ 11 := by omega
  have early : (153 * shifted + 2) / 5 ≤ day := by omega
  by_cases spring : shifted < 10
  · rw [if_pos spring, if_pos spring, if_neg (by omega), if_pos (by omega)]
    have whole : (((100 * century + 4 * cycle + year : Nat) : Int) + era * 400 + 0) / 400 = era := by omega
    rw [whole]
    have back : shifted + 3 - 3 = shifted := by omega
    rw [back]
    omega
  · rw [if_neg spring, if_neg spring, if_pos (by omega), if_neg (by omega)]
    have whole : (((100 * century + 4 * cycle + year : Nat) : Int) + era * 400 + 1 - 1) / 400 = era := by omega
    rw [whole]
    have back : shifted - 9 + 9 = shifted := by omega
    rw [back]
    omega

theorem civilFromDays_bounds (days : Int) : 1 ≤ (civilFromDays days).2.1 ∧ (civilFromDays days).2.1 ≤ 12 ∧
    1 ≤ (civilFromDays days).2.2 ∧ (civilFromDays days).2.2 ≤ 31 := by
  obtain ⟨era, dayOfEra, century, cycle, year, day, splits, -, month, ofMonth, -⟩ := civilFromDays_split days
  have short := splits.short
  rw [month, ofMonth]
  split <;> omega

/-- February has at most 29 days. -/
theorem civilFromDays_february (february : (civilFromDays days).2.1 = 2) : (civilFromDays days).2.2 ≤ 29 := by
  obtain ⟨era, dayOfEra, century, cycle, year, day, splits, -, month, ofMonth, -⟩ := civilFromDays_split days
  have short := splits.short
  rw [month] at february
  rw [ofMonth]
  have eleven : (5 * day + 2) / 153 = 11 := by
    split at february <;> omega
  rw [eleven]
  omega

/-- Years only go on. -/
theorem civilFromDays_year {later : Int} (order : days ≤ later) (hundred : 100 ≤ (civilFromDays days).1) :
    100 ≤ (civilFromDays later).1 := by
  have since (days : Int) : 100 ≤ (civilFromDays days).1 ↔ -683003 ≤ days := by
    obtain ⟨era, dayOfEra, century, cycle, year, day, splits, place, -, -, years⟩ := civilFromDays_split days
    obtain ⟨few, fewer, fewest, short, split, leap, last⟩ := splits
    rw [years]
    rcases lt_trichotomy era 0 with before | rfl | after
    · split <;> omega
    · rcases Nat.eq_zero_or_pos century with rfl | later
      · split <;> omega
      · split <;> omega
    · split <;> omega
  exact (since later).mpr (((since days).mp hundred).trans order)

/-- After 400 years the same dates fall on the same weekdays. -/
theorem civilFromDays_period (days turns : Int) : (civilFromDays (days + turns * 146097)).2 = (civilFromDays days).2 ∧
      (days + turns * 146097 + 4) % 7 = (days + 4) % 7 := by
  refine ⟨?_, by omega⟩
  have era : (days + turns * 146097 + 719468).fdiv 146097 = (days + 719468).fdiv 146097 + turns := by
    rw [Int.fdiv_eq_ediv_of_nonneg _ (by decide), Int.fdiv_eq_ediv_of_nonneg _ (by decide)]
    omega
  have place : days + turns * 146097 + 719468 - ((days + 719468).fdiv 146097 + turns) * 146097 =
      days + 719468 - (days + 719468).fdiv 146097 * 146097 := by
    rw [Int.add_mul]
    omega
  simp only [civilFromDays, era, place]

end Dates

end DurableExecution.Schedules
