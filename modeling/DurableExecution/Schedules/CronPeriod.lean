import DurableExecution.Schedules.CronSearch
import DurableExecution.Schedules.CronGrammar
import DurableExecution.Schedules.ScheduleManager

/-
This file shows that the search for the next match gives up only where nothing ever matches,
in zones of constant offset, and what `cronTimesBetween` lists there.
-/

namespace DurableExecution.Schedules

open DurableExecution.Order
open Workflow (civilFromDays maxTimeMs)

variable {schedule : CronSchedule} {zone : Zone} {offset latest minutes last : Int} {steps hour minute : Nat} (gap : Nat)

section Search

/-- The search finds a match from a local time in minutes. -/
def Reaches (schedule : CronSchedule) (zone : Zone) (offset : Int) (steps : Nat) (minutes : Int) : Prop :=
  ∃ next, searchCron schedule zone steps ((minutes - offset) * 60000) = .ok next

/-- The date of a local time is one that an expression names. -/
def DateFits (schedule : CronSchedule) (minutes : Int) : Prop :=
  schedule.months.contains (localParts minutes).month = true ∧ dayMatches schedule (localParts minutes) = true

theorem DateFits.sameDay {other : Int} (fits : DateFits schedule other) (same : minutes / 1440 = other / 1440) :
    DateFits schedule minutes := by
  obtain ⟨month, day⟩ : _ ∧ dayMatches schedule _ = _ := localParts_day same
  exact ⟨by rw [month]; exact fits.1, by rw [day]; exact fits.2⟩

/-- Every local time up to a latest one has an instant that is in range. -/
def InRange (offset latest : Int) : Prop := ∀ minutes ≤ latest, (minutes - offset) * 60000 ≤ maxTimeMs

theorem Reaches.step (constant : ∀ instant, zone instant = offset) (inRange : InRange offset latest) (upTo : minutes ≤ latest)
    (day : ¬ DateFits schedule minutes → Reaches schedule zone offset steps ((minutes / 1440 + 1) * 1440))
    (hour : DateFits schedule minutes → schedule.hours.contains (localParts minutes).hour = false →
      Reaches schedule zone offset steps ((minutes / 60 + 1) * 60))
    (minute : DateFits schedule minutes → schedule.hours.contains (localParts minutes).hour = true →
      schedule.minutes.contains (localParts minutes).minute = false → Reaches schedule zone offset steps (minutes + 1)) :
    Reaches schedule zone offset (steps + 1) minutes := by
  have parts : readLocalParts zone ((minutes - offset) * 60000) = localParts minutes := by
    have back : (minutes - offset) * 60000 / 60000 + offset = minutes := by omega
    rw [readLocalParts, constant, back]
  have daily := localParts_minutesIntoDay minutes
  have hourly := localParts_minute minutes
  unfold Reaches
  rw [searchCron, if_neg (not_lt.mpr (inRange minutes upTo))]
  simp only [parts]
  split
  · next wrong =>
      have further : (minutes - offset) * 60000 + (24 * 60 - ((localParts minutes).hour * 60 + (localParts minutes).minute)) *
          60000 = ((minutes / 1440 + 1) * 1440 - offset) * 60000 := by omega
      rw [further]
      refine day fun fits => ?_
      rw [fits.1, fits.2] at wrong
      exact absurd wrong (by decide)
  · next right =>
      simp only [Bool.or_eq_true, Bool.not_eq_true', not_or, Bool.not_eq_false] at right
      split
      · next wrong =>
          have further : (minutes - offset) * 60000 + (60 - (localParts minutes).minute) * 60000 =
              ((minutes / 60 + 1) * 60 - offset) * 60000 := by omega
          rw [further]
          exact hour right (by simpa using wrong)
      · next hours =>
          split
          · next wrong =>
              have further : (minutes - offset) * 60000 + 60000 = (minutes + 1 - offset) * 60000 := by omega
              rw [further]
              exact minute right (by simpa using hours) (by simpa using wrong)
          · exact ⟨_, rfl⟩

/-- Within an hour that fits, the search comes to a minute that is still ahead. -/
theorem reaches_minute (constant : ∀ instant, zone instant = offset) (inRange : InRange offset latest)
    (fits : DateFits schedule minutes) (hours : schedule.hours.contains (localParts minutes).hour = true)
    (listed : minute ∈ schedule.minutes) (short : minute < 60) (ahead : minutes % 60 + gap = minute)
    (upTo : (minutes / 60 + 1) * 60 ≤ latest) (enough : gap + 1 ≤ steps) : Reaches schedule zone offset steps minutes := by
  induction gap generalizing minutes steps with
  | zero =>
    obtain ⟨steps, rfl⟩ := Nat.exists_eq_add_of_le' (by omega : 1 ≤ steps)
    refine .step constant inRange (by omega) (fun wrong => absurd fits wrong) (fun _ wrong => ?_) fun _ _ wrong => ?_
    · rw [hours] at wrong
      cases wrong
    · have here : (localParts minutes).minute = minute := by
        have hourly := localParts_minute minutes
        omega
      rw [here, List.contains_iff_mem.mpr listed] at wrong
      cases wrong
  | succ gap ih =>
    obtain ⟨steps, rfl⟩ := Nat.exists_eq_add_of_le' (by omega : 1 ≤ steps)
    refine .step constant inRange (by omega) (fun wrong => absurd fits wrong) (fun _ wrong => ?_) fun _ _ _ => ?_
    · rw [hours] at wrong
      cases wrong
    · have sameHour : (minutes + 1) / 60 = minutes / 60 := by omega
      refine ih (fits.sameDay (by omega)) ?_ (by omega) (by omega) (by omega)
      rw [(localParts_hour sameHour).2]
      exact hours

/-- Within a day that fits, from a full hour on, the search comes to an hour that is still ahead. -/
theorem reaches_hour (constant : ∀ instant, zone instant = offset) (inRange : InRange offset latest)
    (fits : DateFits schedule minutes) (listed : hour ∈ schedule.hours) (shortHour : hour < 24)
    (listedMinute : minute ∈ schedule.minutes) (short : minute < 60) (full : minutes % 60 = 0)
    (ahead : minutes % 1440 / 60 + gap = hour) (upTo : (minutes / 1440 + 1) * 1440 ≤ latest) (enough : gap + 61 ≤ steps) :
    Reaches schedule zone offset steps minutes := by
  induction gap generalizing minutes steps with
  | zero =>
    have here : (localParts minutes).hour = hour := by
      simp only [localParts]
      omega
    have hours : schedule.hours.contains (localParts minutes).hour = true := by
      rw [here]
      exact List.contains_iff_mem.mpr listed
    exact reaches_minute minute constant inRange fits hours listedMinute short (by omega) (by omega) (by omega)
  | succ gap ih =>
    cases hours : schedule.hours.contains (localParts minutes).hour with
    | true =>
      exact reaches_minute minute constant inRange fits hours listedMinute short (by omega) (by omega)
        (by omega)
    | false =>
      obtain ⟨steps, rfl⟩ := Nat.exists_eq_add_of_le' (by omega : 1 ≤ steps)
      refine .step constant inRange (by omega) (fun wrong => absurd fits wrong) (fun _ _ => ?_) fun _ right => ?_
      · exact ih (fits.sameDay (by omega)) (by omega) (by omega) (by omega) (by omega)
      · rw [hours] at right
        cases right

/-- From the start of a day, the search comes to a day that fits and is not before it. -/
theorem reaches_day (constant : ∀ instant, zone instant = offset) (inRange : InRange offset latest)
    (fits : DateFits schedule (last * 1440)) (listed : hour ∈ schedule.hours) (shortHour : hour < 24)
    (listedMinute : minute ∈ schedule.minutes) (short : minute < 60) (start : minutes % 1440 = 0)
    (ahead : minutes / 1440 + gap = last) (upTo : (last + 1) * 1440 ≤ latest) (enough : gap + 85 ≤ steps) :
    Reaches schedule zone offset steps minutes := by
  induction gap generalizing minutes steps with
  | zero =>
    exact reaches_hour hour constant inRange (fits.sameDay (by omega)) listed shortHour listedMinute short
      (by omega) (by omega) (by omega) (by omega)
  | succ gap ih =>
    by_cases here : DateFits schedule minutes
    · exact reaches_hour hour constant inRange here listed shortHour listedMinute short
        (by omega) (by omega) (by omega) (by omega)
    · obtain ⟨steps, rfl⟩ := Nat.exists_eq_add_of_le' (by omega : 1 ≤ steps)
      refine .step constant inRange (by omega) (fun _ => ?_) (fun right => absurd right here) fun right =>
        absurd right here
      exact ih (by omega) (by omega) (by omega)

/-- From a full hour, the search comes to a later day that fits. -/
theorem reaches_from_hour (constant : ∀ instant, zone instant = offset) (inRange : InRange offset latest)
    (fits : DateFits schedule (last * 1440)) (listed : hour ∈ schedule.hours) (shortHour : hour < 24)
    (listedMinute : minute ∈ schedule.minutes) (short : minute < 60) (full : minutes % 60 = 0)
    (later : minutes / 1440 < last) (left : minutes % 1440 / 60 + gap = 24) (upTo : (last + 1) * 1440 ≤ latest)
    (enough : gap + (last - minutes / 1440).toNat + 150 ≤ steps) : Reaches schedule zone offset steps minutes := by
  have onDay (steps : Nat) (enough : (last - minutes / 1440).toNat + 85 ≤ steps) :
      Reaches schedule zone offset steps ((minutes / 1440 + 1) * 1440) :=
    reaches_day (last - (minutes / 1440 + 1)).toNat constant inRange fits listed shortHour listedMinute short
      (by omega) (by omega) upTo (by omega)
  induction gap generalizing minutes steps with
  | zero => omega
  | succ gap ih =>
    obtain ⟨steps, rfl⟩ := Nat.exists_eq_add_of_le' (by omega : 1 ≤ steps)
    by_cases here : DateFits schedule minutes
    · cases hours : schedule.hours.contains (localParts minutes).hour with
      | true =>
        exact reaches_minute minute constant inRange here hours listedMinute short (by omega) (by omega)
          (by omega)
      | false =>
        refine .step constant inRange (by omega) (fun wrong => absurd here wrong) (fun _ _ => ?_) fun _ right => ?_
        · cases gap with
          | zero =>
            have midnight : (minutes / 60 + 1) * 60 = (minutes / 1440 + 1) * 1440 := by omega
            rw [midnight]
            exact onDay steps (by omega)
          | succ gap =>
            have sameDay : (minutes / 60 + 1) * 60 / 1440 = minutes / 1440 := by omega
            refine ih (by omega) (by omega) (by omega) (by omega) ?_
            rw [sameDay]
            exact onDay
        · rw [hours] at right
          cases right
    · exact .step constant inRange (by omega) (fun _ => onDay steps (by omega)) (fun right => absurd right here)
        fun right => absurd right here

/-- From any local time, the search comes to a later day that fits. -/
theorem reaches_later (constant : ∀ instant, zone instant = offset) (inRange : InRange offset latest)
    (fits : DateFits schedule (last * 1440)) (listed : hour ∈ schedule.hours) (shortHour : hour < 24)
    (listedMinute : minute ∈ schedule.minutes) (short : minute < 60)
    (later : minutes / 1440 < last) (left : minutes % 60 + gap = 60) (upTo : (last + 1) * 1440 ≤ latest)
    (enough : gap + (last - minutes / 1440).toNat + 175 ≤ steps) : Reaches schedule zone offset steps minutes := by
  have onDay (steps : Nat) (enough : (last - minutes / 1440).toNat + 85 ≤ steps) :
      Reaches schedule zone offset steps ((minutes / 1440 + 1) * 1440) :=
    reaches_day (last - (minutes / 1440 + 1)).toNat constant inRange fits listed shortHour listedMinute short
      (by omega) (by omega) upTo (by omega)
  have onHour (steps : Nat) (enough : (last - minutes / 1440).toNat + 174 ≤ steps) :
      Reaches schedule zone offset steps ((minutes / 60 + 1) * 60) := by
    by_cases midnight : (minutes / 60 + 1) * 60 = (minutes / 1440 + 1) * 1440
    · rw [midnight]
      exact onDay steps (by omega)
    · have sameDay : (minutes / 60 + 1) * 60 / 1440 = minutes / 1440 := by omega
      exact reaches_from_hour (24 - (minutes / 60 + 1) * 60 % 1440 / 60).toNat constant inRange fits listed
        shortHour listedMinute short (by omega) (by omega) (by omega) upTo (by omega)
  induction gap generalizing minutes steps with
  | zero => omega
  | succ gap ih =>
    obtain ⟨steps, rfl⟩ := Nat.exists_eq_add_of_le' (by omega : 1 ≤ steps)
    refine .step constant inRange (by omega) (fun _ => onDay steps (by omega)) (fun _ _ => onHour steps (by omega))
      fun _ _ _ => ?_
    cases gap with
    | zero =>
      have full : minutes + 1 = (minutes / 60 + 1) * 60 := by omega
      rw [full]
      exact onHour steps (by omega)
    | succ gap =>
      have sameDay : (minutes + 1) / 1440 = minutes / 1440 := by omega
      have sameHour : (minutes + 1) / 60 = minutes / 60 := by omega
      refine ih (by omega) (by omega) (by omega) ?_ ?_
      · rw [sameDay]
        exact onDay
      · rw [sameDay, sameHour]
        exact onHour

end Search

section Calendar

variable {instant other : Int}

/-- The local year of an instant. -/
def localYear (zone : Zone) (instant : Int) : Int := (civilFromDays ((instant / 60000 + zone instant) / 1440)).1

theorem localYear_later (constant : ∀ instant, zone instant = offset) (order : instant ≤ other)
    (hundred : 100 ≤ localYear zone instant) : 100 ≤ localYear zone other := by
  unfold localYear at *
  rw [constant] at *
  exact civilFromDays_year (by omega) hundred

theorem matches_calendar (hundred : 100 ≤ localYear zone instant) : schedule.Matches zone instant ↔ schedule.MatchesLocal zone instant := by
  have same : readLocalParts zone instant = calendarPartsAt zone instant := localParts_calendar hundred
  rw [CronSchedule.Matches, CronSchedule.MatchesLocal, same]

/-- A date that matches comes back within 400 years. -/
theorem dateFits_again (constant : ∀ instant, zone instant = offset) (matched : schedule.MatchesLocal zone instant)
    (hundred : 100 ≤ (civilFromDays (minutes / 1440)).1) :
    ∃ last, minutes / 1440 < last ∧ last ≤ minutes / 1440 + 146097 ∧ DateFits schedule (last * 1440) := by
  obtain ⟨-, month, day, -, -⟩ := matched
  obtain ⟨date, isDate⟩ : ∃ date, date = (instant / 60000 + offset) / 1440 := ⟨_, rfl⟩
  obtain ⟨turns, isTurns⟩ : ∃ turns, turns = (minutes / 1440 - date) / 146097 + 1 := ⟨_, rfl⟩
  have later : minutes / 1440 < date + turns * 146097 := by omega
  refine ⟨date + turns * 146097, later, by omega, ?_⟩
  have whole : (date + turns * 146097) * 1440 / 1440 = date + turns * 146097 := by omega
  have parts : localParts ((date + turns * 146097) * 1440) = calendarParts ((date + turns * 146097) * 1440) :=
    localParts_calendar (by rw [whole]; exact civilFromDays_year later.le hundred)
  obtain ⟨civil, weekday⟩ := civilFromDays_period date turns
  rw [calendarPartsAt, constant] at month day
  have monthSame : (calendarParts ((date + turns * 146097) * 1440)).month =
      (calendarParts (instant / 60000 + offset)).month := by
    simp only [calendarParts, localParts, whole, civil, ← isDate]
  have daySame : dayMatches schedule (calendarParts ((date + turns * 146097) * 1440)) =
      dayMatches schedule (calendarParts (instant / 60000 + offset)) := by
    simp only [dayMatches, calendarParts, localParts, whole, civil, weekday, ← isDate]
  rw [DateFits, parts, monthSame, daySame]
  exact ⟨month, day⟩

end Calendar

section Bounds

variable {after next candidate : Int} {zones : ZoneTable}

/-- The days of 800 years, in milliseconds. -/
def eightCenturies : Int := 292194 * 86400000

/-- A search that stays in range gives up with `InvalidScheduleError` or not at all. -/
theorem searchCron_complains (inRange : candidate + steps * 86400000 ≤ maxTimeMs + 86400000) :
    Complains (searchCron schedule zone steps candidate) := by
  induction steps generalizing candidate with
  | zero => exact .error _
  | succ steps ih =>
    have daily := localParts_minutesIntoDay (candidate / 60000 + zone candidate)
    have hourly := localParts_minute (candidate / 60000 + zone candidate)
    rw [← readLocalParts] at daily hourly
    rw [searchCron, if_neg (by omega)]
    dsimp only
    repeat' split
    · exact ih (by omega)
    · exact ih (by omega)
    · exact ih (by omega)
    · exact .ok _

/-- Where an instant matches at all, the search finds one. -/
theorem nextCronTime_finds (wellFormed : schedule.WellFormed) (named : zones schedule.timeZone = some zone)
    (constant : ∀ instant, zone instant = offset) (hundred : 100 ≤ localYear zone (after + 1))
    (inside : after ≤ maxTimeMs - eightCenturies) {instant : Int} (matched : schedule.MatchesLocal zone instant) :
    ∃ next, nextCronTime zones schedule after = .ok next := by
  obtain ⟨minutes, isLocal⟩ : ∃ minutes, minutes = after / 60000 + 1 + offset := ⟨_, rfl⟩
  have start : after / 60000 * 60000 + 60000 = (minutes - offset) * 60000 := by omega
  have hundred' : 100 ≤ (civilFromDays (minutes / 1440)).1 := by
    unfold localYear at hundred
    rw [constant] at hundred
    exact civilFromDays_year (by omega) hundred
  obtain ⟨last, later, near, fits⟩ := dateFits_again constant matched hundred'
  obtain ⟨hour, hours⟩ := List.exists_mem_of_ne_nil _ wellFormed.hours.1
  obtain ⟨minute, minutes'⟩ := List.exists_mem_of_ne_nil _ wellFormed.minutes.1
  have shortHour := (wellFormed.hours.2 hour hours).2
  have short := (wellFormed.minutes.2 minute minutes').2
  have inRange : InRange offset ((last + 1) * 1440) := by
    intro other upTo
    unfold eightCenturies at inside
    omega
  rw [nextCronTime, named]
  change ∃ next, searchCron schedule zone maxSearchSteps (after / 60000 * 60000 + 60000) = .ok next
  rw [start]
  refine reaches_later (60 - minutes % 60).toNat constant inRange fits hours (by omega) minutes' (by omega) later
    (by omega) le_rfl ?_
  unfold maxSearchSteps
  omega

/-- What the search finds is the next match by the calendar. -/
theorem nextCronTime_calendar (named : zones schedule.timeZone = some zone) (constant : ∀ instant, zone instant = offset)
    (hundred : 100 ≤ localYear zone (after + 1)) (found : nextCronTime zones schedule after = .ok next) :
    NextMatch (schedule.MatchesLocal zone) after next := by
  obtain ⟨later, holds, first⟩ := nextCronTime_isNext named ⟨offset, constant⟩ found
  have calendar {instant : Int} (above : after < instant) : schedule.Matches zone instant ↔ schedule.MatchesLocal zone instant :=
    matches_calendar (localYear_later constant above hundred)
  exact ⟨later, (calendar later).mp holds, fun other above matched => first other above ((calendar above).mpr matched)⟩

/-- The search gives up exactly where no later instant matches. -/
theorem nextCronTime_throws (wellFormed : schedule.WellFormed) (named : zones schedule.timeZone = some zone)
    (constant : ∀ instant, zone instant = offset) (hundred : 100 ≤ localYear zone (after + 1))
    (inside : after ≤ maxTimeMs - eightCenturies) : (∃ message, nextCronTime zones schedule after = .error (.invalidSchedule message)) ↔
      ∀ instant, after < instant → ¬ schedule.MatchesLocal zone instant := by
  constructor
  · rintro ⟨message, thrown⟩ instant _ matched
    obtain ⟨next, found⟩ := nextCronTime_finds wellFormed named constant hundred inside matched
    cases thrown.symm.trans found
  · intro nothing
    cases outcome : nextCronTime zones schedule after with
    | ok next =>
      have isNext := nextCronTime_calendar named constant hundred outcome
      exact absurd isNext.holds (nothing next isNext.later)
    | error error =>
      have complains : Complains (nextCronTime zones schedule after) := by
        rw [nextCronTime, named]
        refine searchCron_complains ?_
        unfold eightCenturies at inside
        unfold maxSearchSteps
        omega
      obtain ⟨message, rfl⟩ := complains error outcome
      exact ⟨message, rfl⟩

end Bounds

section Ranges

variable {Matches : Int → Prop} {zones : ZoneTable} {to' cursor : Int} {limit : Nat} {times : List Int}

/-- A list has the first matches of a range, at most as many as a limit. -/
structure FirstMatches (Matches : Int → Prop) (from' to' : Int) (limit : Nat) (times : List Int) : Prop where
  few : times.length ≤ limit
  increasing : times.Pairwise (· < ·)
  listed : ∀ instant, instant ∈ times ↔ from' ≤ instant ∧ instant < to' ∧ Matches instant ∧
    (times.length < limit ∨ ∃ later ∈ times, instant ≤ later)

theorem FirstMatches.nil {from' : Int} (nothing : ∀ instant, from' ≤ instant → instant < to' → ¬ Matches instant) :
    FirstMatches Matches from' to' limit [] := by
  refine ⟨Nat.zero_le _, .nil, fun instant => ⟨fun listed => absurd listed List.not_mem_nil, ?_⟩⟩
  rintro ⟨above, below, matched, -⟩
  exact absurd matched (nothing instant above below)

/-- A range goes on from the next match. -/
theorem FirstMatches.cons {next : Int} (isNext : NextMatch Matches cursor next) (below : next < to')
    (first : FirstMatches Matches (next + 1) to' limit times) : FirstMatches Matches (cursor + 1) to' (limit + 1) (next :: times) := by
  obtain ⟨few, increasing, listed⟩ := first
  refine ⟨Nat.succ_le_succ few, List.pairwise_cons.mpr ⟨fun other member => ?_, increasing⟩, fun instant => ?_⟩
  · have above := ((listed other).mp member).1
    omega
  · rw [List.mem_cons, List.length_cons]
    constructor
    · rintro (rfl | member)
      · have later := isNext.later
        exact ⟨by omega, below, isNext.holds, .inr ⟨instant, List.mem_cons_self, le_rfl⟩⟩
      · obtain ⟨above, below', matched, cut⟩ := (listed instant).mp member
        have later := isNext.later
        refine ⟨by omega, below', matched, cut.imp Nat.succ_lt_succ ?_⟩
        rintro ⟨other, member', order⟩
        exact ⟨other, List.mem_cons_of_mem _ member', order⟩
    · rintro ⟨above, below', matched, cut⟩
      rcases eq_or_lt_of_le (isNext.first instant (by omega) matched) with rfl | after
      · exact .inl rfl
      · refine .inr ((listed instant).mpr ⟨by omega, below', matched, cut.imp Nat.lt_of_succ_lt_succ ?_⟩)
        rintro ⟨other, member, order⟩
        rcases List.mem_cons.mp member with rfl | member
        · omega
        · exact ⟨other, member, order⟩

theorem FirstMatches.none {from' : Int} : FirstMatches Matches from' to' 0 [] := by
  refine ⟨le_rfl, .nil, fun instant => ⟨fun listed => absurd listed List.not_mem_nil, ?_⟩⟩
  rintro ⟨-, -, -, below | ⟨_, listed, -⟩⟩
  · exact absurd below (Nat.lt_irrefl 0)
  · exact absurd listed List.not_mem_nil

/-- Where the search finds the next match each time, `cronTimesBetween` lists the first ones. -/
theorem cronTimesBetween_first (isNext : ∀ cursor' next, cursor ≤ cursor' → cursor' < to' ∨ cursor' = cursor →
      nextCronTime zones schedule cursor' = .ok next → NextMatch Matches cursor' next)
    (listed : cronTimesBetween zones schedule to' limit cursor = .ok times) : FirstMatches Matches (cursor + 1) to' limit times := by
  induction limit generalizing cursor times with
  | zero =>
    cases listed
    exact .none
  | succ limit ih =>
    rw [cronTimesBetween] at listed
    cases found : nextCronTime zones schedule cursor with
    | error error =>
      rw [found] at listed
      cases listed
    | ok next =>
      rw [found] at listed
      simp only [bind, Except.bind] at listed
      have here := isNext cursor next le_rfl (.inr rfl) found
      split at listed
      · next beyond =>
          cases listed
          refine .nil fun instant above below matched => ?_
          have first := here.first instant (by omega) matched
          omega
      · next below =>
          cases rest : cronTimesBetween zones schedule to' limit next with
          | error error =>
            rw [rest] at listed
            cases listed
          | ok others =>
            rw [rest] at listed
            cases listed
            have later := here.later
            refine .cons here (not_le.mp below) (ih (fun cursor' next' above before => ?_) rest)
            exact isNext cursor' next' (by omega) (.inl (by omega))

/-- A listing that finds a next match each time it looks comes to its end. -/
theorem cronTimesBetween_ends (finds : ∀ cursor', cursor ≤ cursor' → cursor' < to' ∨ cursor' = cursor →
      ∃ next, nextCronTime zones schedule cursor' = .ok next) : ∃ times, cronTimesBetween zones schedule to' limit cursor = .ok times := by
  induction limit generalizing cursor with
  | zero => exact ⟨[], rfl⟩
  | succ limit ih =>
    obtain ⟨next, found⟩ := finds cursor le_rfl (.inr rfl)
    have later := nextCronTime_later found
    rw [cronTimesBetween, found]
    simp only [bind, Except.bind]
    split
    · exact ⟨[], rfl⟩
    · next below =>
        obtain ⟨times, rest⟩ := @ih next fun cursor' above before => finds cursor' (by omega) (.inl (by omega))
        rw [rest]
        exact ⟨_, rfl⟩

end Ranges

section Results

variable {zones : ZoneTable} {expression timeZone : String}

/-- In a zone of constant offset, from the local year 100 on and at least 800 years inside the range of
dates: `nextCronTime` gives up exactly where no later instant matches, and finds the next match
everywhere else. `cronTimesBetween` lists the first matches of a range if any instant matches
the expression, and gives up like `nextCronTime` if none does. -/
theorem nextCronTime_gives_up (accepted : parseCron zones expression timeZone = .ok schedule)
    (named : zones schedule.timeZone = some zone) (constant : zone.Constant) :
    (∀ after, 100 ≤ localYear zone after → after ≤ maxTimeMs - eightCenturies →
      ((∃ message, nextCronTime zones schedule after = .error (.invalidSchedule message)) ↔
        ∀ instant, after < instant → ¬ schedule.MatchesLocal zone instant) ∧
      ∀ instant, after < instant → schedule.MatchesLocal zone instant →
        ∃ next, nextCronTime zones schedule after = .ok next ∧ NextMatch (schedule.MatchesLocal zone) after next) ∧
    ∀ from' to' limit, 100 ≤ localYear zone from' → from' ≤ maxTimeMs - eightCenturies → to' ≤ maxTimeMs - eightCenturies →
      ((∃ instant, schedule.MatchesLocal zone instant) → ∃ times,
        cronTimesBetween zones schedule to' limit (from' - 1) = .ok times ∧
          FirstMatches (schedule.MatchesLocal zone) from' to' limit times) ∧
      ((∀ instant, ¬ schedule.MatchesLocal zone instant) → 0 < limit →
        ∃ message, cronTimesBetween zones schedule to' limit (from' - 1) = .error (.invalidSchedule message)) := by
  obtain ⟨offset, constant⟩ := constant
  have wellFormed := (parseCron_denotes accepted).wellFormed
  constructor
  · intro after hundred inside
    have onward := localYear_later constant (by omega : after ≤ after + 1) hundred
    refine ⟨nextCronTime_throws wellFormed named constant onward inside, fun instant _ matched => ?_⟩
    obtain ⟨next, found⟩ := nextCronTime_finds wellFormed named constant onward inside matched
    exact ⟨next, found, nextCronTime_calendar named constant onward found⟩
  · intro from' to' limit hundred inside inside'
    have onward (cursor : Int) (above : from' - 1 ≤ cursor) : 100 ≤ localYear zone (cursor + 1) :=
      localYear_later constant (by omega) hundred
    constructor
    · rintro ⟨instant, matched⟩
      obtain ⟨times, listed⟩ := @cronTimesBetween_ends schedule zones to' (from' - 1) limit
        fun cursor above before =>
          nextCronTime_finds wellFormed named constant (onward cursor above) (by omega) matched
      refine ⟨times, listed, ?_⟩
      have first := cronTimesBetween_first (fun cursor next above _ found =>
        nextCronTime_calendar named constant (onward cursor above) found) listed
      rwa [Int.sub_add_cancel] at first
    · intro nothing positive
      obtain ⟨limit, rfl⟩ := Nat.exists_eq_add_of_le' positive
      obtain ⟨message, thrown⟩ := (nextCronTime_throws wellFormed named constant (onward _ le_rfl) (by omega)).mpr
        fun instant _ => nothing instant
      refine ⟨message, ?_⟩
      rw [cronTimesBetween, thrown]
      rfl

def leapSundays : CronSchedule := ⟨"0 0 29 2 */7", "UTC", [0], [0], [29], [2], [0, 0], true, false⟩

/-- The Sundays that fall on a leap day, by the theorem. -/
theorem nextCronTime_gives_up_leapSundays : parseCron knownZones "0 0 29 2 */7" "UTC" = .ok leapSundays ∧
    ∃ next, nextCronTime knownZones leapSundays 1767225600000 = .ok next ∧
      NextMatch (leapSundays.MatchesLocal fun _ => 0) 1767225600000 next := by
  have accepted : parseCron knownZones "0 0 29 2 */7" "UTC" = .ok leapSundays := by decide +kernel
  have results := nextCronTime_gives_up accepted rfl ⟨0, fun _ => rfl⟩
  exact ⟨accepted, (results.1 1767225600000 (by decide) (by decide)).2 1961625600000 (by decide) (by decide +kernel)⟩

def noDay : CronSchedule := ⟨"0 0 31 2 *", "UTC", [0], [0], [31], [2], [0, 1, 2, 3, 4, 5, 6, 0], true, false⟩

/-- Where nothing ever matches, `cronTimesBetween` lists nothing but throws. And the first Monday
that is found after the start of the year 50 is none: its weekday is read as if it were in 1950. -/
theorem cronTimesBetween_throws : parseCron knownZones "0 0 31 2 *" "UTC" = .ok noDay ∧
    (∃ message, cronTimesBetween knownZones noDay 1798761600000 10000 (1767225600000 - 1) =
      .error (.invalidSchedule message)) ∧
    (¬ ∃ times, cronTimesBetween knownZones noDay 1798761600000 10000 (1767225600000 - 1) = .ok times ∧
      FirstMatches (noDay.MatchesLocal fun _ => 0) 1767225600000 1798761600000 10000 times) ∧
    ∃ next, nextCronTime knownZones { mondays with timeZone := "UTC" } (-60589296000000) = .ok next ∧
      ¬ mondays.MatchesLocal (fun _ => 0) next := by
  have accepted : parseCron knownZones "0 0 31 2 *" "UTC" = .ok noDay := by decide +kernel
  have never (instant : Int) : ¬ noDay.MatchesLocal (fun _ => 0) instant := by
    rintro ⟨-, month, day, -⟩
    have february : (civilFromDays ((instant / 60000 + 0) / 1440)).2.1 = 2 := by
      simpa [noDay, calendarPartsAt, calendarParts, localParts] using month
    have short := civilFromDays_february february
    have last : (civilFromDays ((instant / 60000 + 0) / 1440)).2.2 = 31 := by
      simp only [noDay, dayMatches, calendarPartsAt, calendarParts, localParts, Bool.and_false, Bool.false_eq_true,
        if_false, Bool.and_eq_true, List.contains_iff_mem, List.mem_singleton] at day
      simpa using day.1
    omega
  have thrown : ∃ message, cronTimesBetween knownZones noDay 1798761600000 10000 (1767225600000 - 1) =
      .error (.invalidSchedule message) := by
    have wellFormed := (parseCron_denotes accepted).wellFormed
    have named : knownZones noDay.timeZone = some fun _ => 0 := rfl
    have hundred : 100 ≤ localYear (fun _ => 0) (1767225600000 - 1 + 1) := by decide
    obtain ⟨message, thrown⟩ := (nextCronTime_throws wellFormed named (fun _ => rfl) hundred (by decide)).mpr
      fun instant _ => never instant
    refine ⟨message, ?_⟩
    rw [cronTimesBetween, thrown]
    rfl
  refine ⟨accepted, thrown, ?_, ?_⟩
  · rintro ⟨times, listed, -⟩
    obtain ⟨message, thrown⟩ := thrown
    cases thrown.symm.trans listed
  · exact ⟨-60589209600000, by decide +kernel, by decide +kernel⟩

end Results

end DurableExecution.Schedules
