import Mathlib.Data.Int.LeastGreatest
import DurableExecution.Schedules.Calendar

/-
This file shows in which zones, with clocks that may be moved at any time, `nextCronTime` finds
the first match.
-/

namespace DurableExecution.Schedules

open DurableExecution.Order
open Workflow (civilFromDays maxTimeMs)

/-- The parts of a local time, with the weekday of the calendar. -/
def calendarParts (minutes : Int) : LocalParts :=
  { localParts minutes with weekday := ((minutes / 1440 + 4) % 7).toNat }

/-- From the year 100 on, the weekday that is read is the one of the calendar. -/
theorem localParts_calendar {minutes : Int} (hundred : 100 ≤ (civilFromDays (minutes / 1440)).1) :
    localParts minutes = calendarParts minutes := by
  have weekday : utcDay (civilFromDays (minutes / 1440)).1 (civilFromDays (minutes / 1440)).2.1
      (civilFromDays (minutes / 1440)).2.2 = ((minutes / 1440 + 4) % 7).toNat := by
    rw [utcDay, if_neg (by omega), daysFromCivil_civilFromDays]
  have positive : 0 < (civilFromDays (minutes / 1440)).1 := by omega
  simp only [localParts, calendarParts, if_pos positive, weekday]

def calendarPartsAt (zone : Zone) (instant : Int) : LocalParts := calendarParts (instant / 60000 + zone instant)

/-- The instants whose local date and time match an expression. -/
def CronSchedule.MatchesLocal (schedule : CronSchedule) (zone : Zone) (instant : Int) : Prop :=
  instant % 60000 = 0 ∧ schedule.months.contains (calendarPartsAt zone instant).month = true ∧
    dayMatches schedule (calendarPartsAt zone instant) = true ∧
    schedule.hours.contains (calendarPartsAt zone instant).hour = true ∧
    schedule.minutes.contains (calendarPartsAt zone instant).minute = true

instance (schedule : CronSchedule) (zone : Zone) (instant : Int) : Decidable (schedule.MatchesLocal zone instant) :=
  inferInstanceAs (Decidable (_ ∧ _))

/-- Where the search goes on from an instant that it does not take. -/
def onward (schedule : CronSchedule) (zone : Zone) (candidate : Int) : Option Int :=
  let parts := readLocalParts zone candidate
  if !schedule.months.contains parts.month || !dayMatches schedule parts then
    some (candidate + (24 * 60 - (parts.hour * 60 + parts.minute : Int)) * 60000)
  else if !schedule.hours.contains parts.hour then some (candidate + (60 - parts.minute) * 60000)
  else if !schedule.minutes.contains parts.minute then some (candidate + 60000)
  else none

/-- The instants that a search from an instant looks at. -/
inductive LooksAt (schedule : CronSchedule) (zone : Zone) (after : Int) : Int → Prop where
  | first : LooksAt schedule zone after (after / 60000 * 60000 + 60000)
  | next {candidate further : Int} (looks : LooksAt schedule zone after candidate)
      (goes : onward schedule zone candidate = some further) : LooksAt schedule zone after further

/-- The clocks stand otherwise at an instant than at a later one, which they would count to the local day or
hour of the instant, and that day or hour does not match. -/
def Hides (schedule : CronSchedule) (zone : Zone) (instant later : Int) : Prop :=
  zone later ≠ zone instant ∧
    ((schedule.months.contains (readLocalParts zone instant).month = false ∨
          dayMatches schedule (readLocalParts zone instant) = false) ∧
        (later / 60000 + zone instant) / 1440 = (instant / 60000 + zone instant) / 1440 ∨
      schedule.hours.contains (readLocalParts zone instant).hour = false ∧
        (later / 60000 + zone instant) / 60 = (instant / 60000 + zone instant) / 60)

/-- The weekdays after an instant are read as the calendar has them, as far as they matter, and no minute
before the first match hides it. -/
structure Undeceived (schedule : CronSchedule) (zone : Zone) (after : Int) : Prop where
  weekdays : ∀ instant, after < instant →
    dayMatches schedule (readLocalParts zone instant) = dayMatches schedule (calendarPartsAt zone instant)
  shown : ∀ first, NextMatch (schedule.MatchesLocal zone) after first →
    ∀ instant, after < instant → instant < first → instant % 60000 = 0 → ¬ Hides schedule zone instant first

variable {schedule : CronSchedule} {zone : Zone} {after candidate further next other : Int} {steps : Nat}

section Steps

theorem searchCron_onward : searchCron schedule zone (steps + 1) candidate =
    if maxTimeMs < candidate then .error .invalidDate
    else match onward schedule zone candidate with
      | none => .ok candidate
      | some further => searchCron schedule zone steps further := by
  rw [searchCron, onward]
  dsimp only
  split
  · rfl
  · repeat' split
    all_goals first | rfl | simp_all

theorem onward_later (goes : onward schedule zone candidate = some further) : candidate < further := by
  have daily : ((readLocalParts zone candidate).hour : Int) * 60 + (readLocalParts zone candidate).minute = _ :=
    localParts_minutesIntoDay (candidate / 60000 + zone candidate)
  have hourly : ((readLocalParts zone candidate).minute : Int) = _ :=
    localParts_minute (candidate / 60000 + zone candidate)
  unfold onward at goes
  dsimp only at goes
  repeat' split at goes
  all_goals cases goes
  all_goals omega

/-- A step passes over no match that is read with the clocks of its beginning. -/
theorem onward_misses (goes : onward schedule zone candidate = some further) (above : candidate ≤ other)
    (below : other < further) (aligned : candidate % 60000 = 0) (matched : schedule.MatchesLocal zone other)
    (clocks : zone other = zone candidate) : dayMatches schedule (readLocalParts zone other) = false := by
  obtain ⟨whole, month, -, hour, minute⟩ := matched
  change schedule.months.contains (localParts (other / 60000 + zone other)).month = true at month
  change schedule.hours.contains (localParts (other / 60000 + zone other)).hour = true at hour
  change schedule.minutes.contains (localParts (other / 60000 + zone other)).minute = true at minute
  rw [clocks] at month hour minute
  by_contra days
  rw [Bool.not_eq_false, readLocalParts, clocks] at days
  have daily : ((readLocalParts zone candidate).hour : Int) * 60 + (readLocalParts zone candidate).minute = _ :=
    localParts_minutesIntoDay (candidate / 60000 + zone candidate)
  have hourly : ((readLocalParts zone candidate).minute : Int) = _ :=
    localParts_minute (candidate / 60000 + zone candidate)
  unfold onward at goes
  dsimp only at goes
  split at goes
  · next wrongDay =>
      cases goes
      have sameDay : (other / 60000 + zone candidate) / 1440 = (candidate / 60000 + zone candidate) / 1440 := by omega
      obtain ⟨month', day'⟩ : _ ∧ dayMatches schedule _ = _ := localParts_day sameDay
      rw [month'] at month
      rw [day'] at days
      rw [readLocalParts, month, days] at wrongDay
      exact absurd wrongDay (by decide)
  · split at goes
    · next wrongHour =>
        cases goes
        have sameHour : (other / 60000 + zone candidate) / 60 = (candidate / 60000 + zone candidate) / 60 := by omega
        rw [(localParts_hour sameHour).2] at hour
        rw [readLocalParts, hour] at wrongHour
        exact absurd wrongHour (by decide)
    · split at goes
      · next wrongMinute =>
          cases goes
          obtain rfl : other = candidate := by omega
          rw [readLocalParts, minute] at wrongMinute
          exact absurd wrongMinute (by decide)
      · cases goes

/-- A step that passes over a match at which the clocks stand otherwise begins at an instant that hides it. -/
theorem onward_hides (goes : onward schedule zone candidate = some further) (above : candidate ≤ other)
    (below : other < further) (aligned : candidate % 60000 = 0) (whole : other % 60000 = 0) (clocks : zone other ≠ zone candidate) :
    Hides schedule zone candidate other := by
  have daily : ((readLocalParts zone candidate).hour : Int) * 60 + (readLocalParts zone candidate).minute = _ :=
    localParts_minutesIntoDay (candidate / 60000 + zone candidate)
  have hourly : ((readLocalParts zone candidate).minute : Int) = _ :=
    localParts_minute (candidate / 60000 + zone candidate)
  refine ⟨clocks, ?_⟩
  unfold onward at goes
  dsimp only at goes
  split at goes
  · next wrongDay =>
      cases goes
      rw [Bool.or_eq_true, Bool.not_eq_true', Bool.not_eq_true'] at wrongDay
      exact .inl ⟨wrongDay, by omega⟩
  · split at goes
    · next wrongHour =>
        cases goes
        exact .inr ⟨(Bool.not_eq_true' _).mp wrongHour, by omega⟩
    · split at goes
      · cases goes
        exact absurd (congrArg zone (show other = candidate by omega)) clocks
      · cases goes

/-- From an instant with the same clocks as one that hides a match, a step over the one passes over the other. -/
theorem Hides.passed {instant later : Int} (hides : Hides schedule zone instant later)
    (goes : onward schedule zone candidate = some further) (above : candidate ≤ instant) (below : instant < further)
    (aligned : candidate % 60000 = 0) (whole : instant % 60000 = 0) (clocks : zone candidate = zone instant) : later < further := by
  have daily : ((readLocalParts zone candidate).hour : Int) * 60 + (readLocalParts zone candidate).minute = _ :=
    localParts_minutesIntoDay (candidate / 60000 + zone candidate)
  have hourly : ((readLocalParts zone candidate).minute : Int) = _ :=
    localParts_minute (candidate / 60000 + zone candidate)
  obtain ⟨-, hidden⟩ := hides
  have sameDay (same : (instant / 60000 + zone instant) / 1440 = (candidate / 60000 + zone candidate) / 1440) :
      (readLocalParts zone instant).month = (readLocalParts zone candidate).month ∧
        dayMatches schedule (readLocalParts zone instant) = dayMatches schedule (readLocalParts zone candidate) :=
    localParts_day same
  rw [clocks] at daily hourly
  unfold onward at goes
  dsimp only at goes
  split at goes
  · cases goes
    rcases hidden with ⟨-, day⟩ | ⟨-, hour⟩ <;> omega
  · next rightDay =>
      rw [Bool.or_eq_true, Bool.not_eq_true', Bool.not_eq_true'] at rightDay
      have known (same : (instant / 60000 + zone instant) / 1440 = (candidate / 60000 + zone candidate) / 1440)
          (wrong : schedule.months.contains (readLocalParts zone instant).month = false ∨
            dayMatches schedule (readLocalParts zone instant) = false) : False := by
        obtain ⟨month, day⟩ := sameDay same
        rw [month, day] at wrong
        exact rightDay wrong
      split at goes
      · cases goes
        rcases hidden with ⟨wrong, -⟩ | ⟨-, hour⟩
        · exact (known (by rw [clocks]; omega) wrong).elim
        · omega
      · next rightHour =>
          split at goes
          · cases goes
            obtain rfl : instant = candidate := by omega
            rcases hidden with ⟨wrong, -⟩ | ⟨wrong, -⟩
            · exact (known rfl wrong).elim
            · rw [wrong] at rightHour
              exact absurd rfl rightHour
          · cases goes

theorem onward_aligned (goes : onward schedule zone candidate = some further) (aligned : candidate % 60000 = 0) : further % 60000 = 0 := by
  unfold onward at goes
  dsimp only at goes
  repeat' split at goes
  all_goals cases goes
  all_goals omega

theorem LooksAt.later (looks : LooksAt schedule zone after candidate) : after < candidate := by
  induction looks with
  | first => omega
  | next _ goes ih => exact ih.trans (onward_later goes)

theorem LooksAt.aligned (looks : LooksAt schedule zone after candidate) : candidate % 60000 = 0 := by
  induction looks with
  | first => omega
  | next _ goes ih => exact onward_aligned goes ih

end Steps

section Searches

/-- A search that finds an instant looks at it, and each instant before it lies in a step. -/
theorem LooksAt.finds (looks : LooksAt schedule zone after candidate) (found : searchCron schedule zone steps candidate = .ok next) :
    LooksAt schedule zone after next ∧ onward schedule zone next = none ∧
      ∀ other, candidate ≤ other → other < next → ∃ start stop, LooksAt schedule zone after start ∧
        onward schedule zone start = some stop ∧ start ≤ other ∧ other < stop := by
  induction steps generalizing candidate with
  | zero => cases found
  | succ steps ih =>
    rw [searchCron_onward] at found
    split at found
    · cases found
    · cases goes : onward schedule zone candidate with
      | none =>
        rw [goes] at found
        cases found
        exact ⟨looks, goes, fun other above below => absurd above (not_le.mpr below)⟩
      | some further =>
        rw [goes] at found
        obtain ⟨last, stays, steps'⟩ := ih (looks.next goes) found
        refine ⟨last, stays, fun other above below => ?_⟩
        by_cases here : other < further
        · exact ⟨candidate, further, looks, goes, above, here⟩
        · exact steps' other (not_lt.mp here) below

/-- From every instant that a successful search looks at, the rest of it finds the same. -/
theorem LooksAt.rest (looks : LooksAt schedule zone after candidate)
    (found : searchCron schedule zone steps (after / 60000 * 60000 + 60000) = .ok next) :
    ∃ left, searchCron schedule zone left candidate = .ok next := by
  induction looks with
  | first => exact ⟨steps, found⟩
  | next _ goes ih =>
    obtain ⟨left, found⟩ := ih
    cases left with
    | zero => cases found
    | succ left =>
      rw [searchCron_onward, goes] at found
      split at found
      · cases found
      · exact ⟨left, found⟩

/-- A match has a first one before it. -/
theorem nextMatch_exists {Matches : Int → Prop} (above : after < other) (matched : Matches other) :
    ∃ first, NextMatch Matches after first := by
  obtain ⟨first, ⟨later, holds⟩, least⟩ := Int.exists_least_of_bdd (P := fun instant => after < instant ∧ Matches instant)
    ⟨after, fun instant both => both.1.le⟩ ⟨other, above, matched⟩
  exact ⟨first, later, holds, fun instant above matched => least instant ⟨above, matched⟩⟩

/-- Where no minute hides the first match, the result of `nextCronTime` is the first match by the local calendar. It
is not where a minute does up to which the clocks have not been moved. -/
theorem nextCronTime_minimal {zones : ZoneTable} (named : zones schedule.timeZone = some zone)
    (found : nextCronTime zones schedule after = .ok next) :
    (Undeceived schedule zone after → NextMatch (schedule.MatchesLocal zone) after next) ∧
      ∀ first instant, NextMatch (schedule.MatchesLocal zone) after first → after < instant → instant < first →
        instant % 60000 = 0 → (∀ earlier, after < earlier → earlier ≤ instant → zone earlier = zone instant) →
          Hides schedule zone instant first → next ≠ first := by
  have later := nextCronTime_later found
  rw [nextCronTime, named] at found
  obtain ⟨looks, stays, steps⟩ := LooksAt.finds .first found
  constructor
  · intro undeceived
    refine ⟨later, ?_, fun other above matched => ?_⟩
    · have day := undeceived.weekdays next later
      unfold onward at stays
      dsimp only at stays
      repeat' split at stays
      all_goals cases stays
      next wrongDay wrongHour wrongMinute =>
        simp only [Bool.or_eq_true, Bool.not_eq_true', not_or, Bool.not_eq_false] at wrongDay wrongHour wrongMinute
        exact ⟨looks.aligned, wrongDay.1, day ▸ wrongDay.2, wrongHour, wrongMinute⟩
    · obtain ⟨first, isFirst⟩ := nextMatch_exists above matched
      refine le_trans ?_ (isFirst.first other above matched)
      by_contra before
      -- the step that passes over the first match begins at an instant that hides it
      have whole := isFirst.holds.1
      have after' := isFirst.later
      obtain ⟨start, stop, looks', goes, above', below'⟩ := steps first (by omega) (not_le.mp before)
      have days := undeceived.weekdays first isFirst.later
      rw [isFirst.holds.2.2.1] at days
      by_cases clocks : zone first = zone start
      · rw [onward_misses goes above' below' looks'.aligned isFirst.holds clocks] at days
        cases days
      · refine undeceived.shown first isFirst start looks'.later (lt_of_le_of_ne above' ?_) looks'.aligned
          (onward_hides goes above' below' looks'.aligned whole clocks)
        rintro rfl
        exact clocks rfl
  · rintro first instant isFirst above below whole still hides rfl
    obtain ⟨start, stop, looks', goes, above', below'⟩ := steps instant (by omega) below
    obtain ⟨left, rest⟩ := (looks'.next goes).rest found
    have before : stop ≤ next := searchCron_later rest
    have passed := hides.passed goes above' below' looks'.aligned whole (still start looks'.later above')
    omega

end Searches

section Clocks

/-- Berlin in the spring of 2026: the clocks go forward on Sunday, March 29, at 01:00 UTC. -/
def berlinSpring : Zone := fun instant => if instant < 1774746000000 then 60 else 120

def berlinOnly : ZoneTable := fun name => if name = "Europe/Berlin" then some berlinSpring else none

/-- Every Monday at midnight. -/
def mondays : CronSchedule :=
  ⟨"0 0 * * 1", "Europe/Berlin", [0], [0], (List.range 31).map (· + 1), (List.range 12).map (· + 1), [1], false, true⟩

theorem mondays_found : nextCronTime berlinOnly mondays 1775426400000 = .ok 1776031200000 := by decide +kernel

/-- From the first Monday with the new clocks on, no minute hides the next Monday. -/
theorem nextCronTime_minimal_mondays : berlinOnly mondays.timeZone = some berlinSpring ∧
    nextCronTime berlinOnly mondays 1775426400000 = .ok 1776031200000 ∧
    NextMatch (mondays.MatchesLocal berlinSpring) 1775426400000 1776031200000 := by
  refine ⟨rfl, mondays_found, (nextCronTime_minimal rfl mondays_found).1 ⟨fun instant above => ?_, ?_⟩⟩
  · have hundred : 100 ≤ (civilFromDays ((instant / 60000 + berlinSpring instant) / 1440)).1 := by
      refine civilFromDays_year ?_ (by decide : 100 ≤ (civilFromDays 20500).1)
      rw [berlinSpring, if_neg (by omega)]
      omega
    rw [readLocalParts, calendarPartsAt, localParts_calendar hundred]
  · rintro first isFirst instant above below whole ⟨differs, -⟩
    refine differs ?_
    rw [berlinSpring, berlinSpring, if_neg (by omega), if_neg (by omega)]

/-- From the Sunday of 23 hours on, the search misses the Monday after it. -/
theorem nextCronTime_misses : parseCron berlinOnly "0 0 * * 1" "Europe/Berlin" = .ok mondays ∧
    nextCronTime berlinOnly mondays 1774742400000 = .ok 1775426400000 ∧ mondays.MatchesLocal berlinSpring 1774821600000 ∧
    ¬ NextMatch (mondays.MatchesLocal berlinSpring) 1774742400000 1775426400000 := by
  have missed : mondays.MatchesLocal berlinSpring 1774821600000 := by decide +kernel
  refine ⟨by decide +kernel, by decide +kernel, missed, fun isNext => ?_⟩
  exact absurd (isNext.first 1774821600000 (by decide) missed) (by decide)

end Clocks

end DurableExecution.Schedules
