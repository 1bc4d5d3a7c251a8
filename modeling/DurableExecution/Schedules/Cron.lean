import Mathlib.Data.List.DropRight
import DurableExecution.Order.NextMatch
import DurableExecution.Workflow.Values

/-
This file models cron expressions: how they are parsed, and how the next instant that matches
one is found.
-/

namespace DurableExecution.Schedules

open DurableExecution.Order
open Workflow (civilFromDays maxTimeMs)

/-- `InvalidScheduleError`, the error of a date that is out of range, and the error of calling
`split` on a value that is no string. -/
inductive CronError where
  | invalidSchedule (message : String)
  | invalidDate
  | typeError
  deriving DecidableEq

/-- A parsed expression. The sets of its fields are lists. -/
structure CronSchedule where
  expression : String
  timeZone : String
  minutes : List Nat
  hours : List Nat
  daysOfMonth : List Nat
  months : List Nat
  daysOfWeek : List Nat
  restrictsDayOfMonth : Bool
  restrictsDayOfWeek : Bool
  deriving DecidableEq

structure FieldSpec where
  name : String
  min : Nat
  max : Nat
  names : List String
  nameOffset : Nat

/-- How many whole minutes a zone is ahead of UTC at an instant in milliseconds. -/
abbrev Zone := Int → Int

/-- The time zones that `Intl.DateTimeFormat` knows, by name. -/
abbrev ZoneTable := String → Option Zone

section Parsing

def monthNames : List String :=
  ["jan", "feb", "mar", "apr", "may", "jun", "jul", "aug", "sep", "oct", "nov", "dec"]

def weekdayNames : List String := ["sun", "mon", "tue", "wed", "thu", "fri", "sat"]

def minuteSpec : FieldSpec := ⟨"minute", 0, 59, [], 0⟩

def hourSpec : FieldSpec := ⟨"hour", 0, 23, [], 0⟩

def dayOfMonthSpec : FieldSpec := ⟨"day of month", 1, 31, [], 0⟩

def monthSpec : FieldSpec := ⟨"month", 1, 12, monthNames, 1⟩

def dayOfWeekSpec : FieldSpec := ⟨"day of week", 0, 7, weekdayNames, 0⟩

/-- `MACROS[name]`. -/
def macroFor : List Char → Option String := fun name =>
  [("@yearly", "0 0 1 1 *"), ("@annually", "0 0 1 1 *"), ("@monthly", "0 0 1 * *"), ("@weekly", "0 0 * * 0"),
    ("@daily", "0 0 * * *"), ("@midnight", "0 0 * * *"), ("@hourly", "0 * * * *")].lookup (String.ofList name)

/-- The names in lower case of what every object inherits. `MACROS[name]` finds these too. -/
def inheritedNames : List String := ["constructor", "__proto__"]

/-- `toLowerCase` as far as it makes ASCII letters: the Kelvin sign becomes a k. -/
def lowerCase (text : List Char) : List Char :=
  text.map fun character => if character.toNat = 0x212A then 'k' else character.toLower

/-- What `trim` and the class of white space in a pattern drop. -/
def isSpace (character : Char) : Bool :=
  let code := character.toNat
  (9 ≤ code && code ≤ 13) || code = 32 || code = 0xA0 || code = 0x1680 || (0x2000 ≤ code && code ≤ 0x200A) ||
    code = 0x2028 || code = 0x2029 || code = 0x202F || code = 0x205F || code = 0x3000 || code = 0xFEFF

def trim (text : List Char) : List Char :=
  ((text.dropWhile isSpace).reverse.dropWhile isSpace).reverse

/-- The fields between runs of white space, of a trimmed text. -/
def splitFields (text : List Char) : List (List Char) :=
  match (text.splitOnP isSpace).filter fun field => !field.isEmpty with
  | [] => [[]]
  | fields => fields

def isDigits (text : List Char) : Bool := !text.isEmpty && text.all fun character => '0' ≤ character && character ≤ '9'

def numberOf (text : List Char) : Nat := text.foldl (fun number digit => number * 10 + (digit.toNat - 48)) 0

def parseValue (text : List Char) (spec : FieldSpec) : Except CronError Nat :=
  match spec.names.findIdx? fun name => name = String.ofList (lowerCase text) with
  | some namedIndex => .ok (namedIndex + spec.nameOffset)
  | none =>
    if !isDigits text then
      .error (.invalidSchedule ("invalid " ++ spec.name ++ " value \"" ++ String.ofList text ++ "\""))
    else if numberOf text < spec.min || spec.max < numberOf text then
      .error (.invalidSchedule (spec.name ++ " value " ++ toString (numberOf text) ++ " is outside " ++
        toString spec.min ++ "-" ++ toString spec.max))
    else .ok (numberOf text)

/-- The bounds that the text before a step names. -/
def parseRange (rangeText : List Char) (stepText : Option (List Char)) (spec : FieldSpec) :
    Except CronError (Nat × Nat) :=
  if rangeText = ['*'] then .ok (spec.min, spec.max)
  else if rangeText.contains '-' then
    match rangeText.splitOn '-' with
    | [startText, endText] => do
      let first ← parseValue startText spec
      let last ← parseValue endText spec
      if last < first then
        .error (.invalidSchedule (spec.name ++ " range \"" ++ String.ofList rangeText ++ "\" runs backwards"))
      else .ok (first, last)
    | _ => .error (.invalidSchedule ("invalid " ++ spec.name ++ " range \"" ++ String.ofList rangeText ++ "\""))
  else do
    let first ← parseValue rangeText spec
    .ok (first, if stepText.isNone then first else spec.max)

def parsePart (field part : List Char) (spec : FieldSpec) : Except CronError (List Nat) :=
  let invalidField := .error (.invalidSchedule ("invalid " ++ spec.name ++ " field \"" ++ String.ofList field ++ "\""))
  let values (rangeText : List Char) (stepText : Option (List Char)) := do
    if rangeText = [] then invalidField
    else if stepText.any fun text => !isDigits text || numberOf text = 0 then
      .error (.invalidSchedule ("invalid " ++ spec.name ++ " step \"" ++ String.ofList (stepText.getD []) ++ "\""))
    else
      let (first, last) ← parseRange rangeText stepText spec
      let step := (stepText.map numberOf).getD 1
      .ok ((List.range ((last - first) / step + 1)).map fun count => first + count * step)
  match part.splitOn '/' with
  | [rangeText] => values rangeText none
  | [rangeText, stepText] => values rangeText (some stepText)
  | _ => invalidField

def parseField (field : List Char) (spec : FieldSpec) : Except CronError (List Nat) := do
  let parts ← (field.splitOn ',').mapM fun part => parsePart field part spec
  pure parts.flatten

def parseCron (zones : ZoneTable) (expression timeZone : String) : Except CronError CronSchedule :=
  if (zones timeZone).isNone then .error (.invalidSchedule ("unknown time zone \"" ++ timeZone ++ "\""))
  else
    let trimmed := trim expression.toList
    if inheritedNames.contains (String.ofList (lowerCase trimmed)) then .error .typeError
    else
      let resolved := ((macroFor (lowerCase trimmed)).map String.toList).getD trimmed
      match splitFields resolved with
      | [minute, hour, dayOfMonth, month, dayOfWeek] => do
        let daysOfWeek ← parseField dayOfWeek dayOfWeekSpec
        let minutes ← parseField minute minuteSpec
        let hours ← parseField hour hourSpec
        let daysOfMonth ← parseField dayOfMonth dayOfMonthSpec
        let months ← parseField month monthSpec
        pure {
          expression := String.ofList resolved
          timeZone := timeZone
          minutes := minutes
          hours := hours
          daysOfMonth := daysOfMonth
          months := months
          daysOfWeek := daysOfWeek.map fun day => if day = 7 then 0 else day
          restrictsDayOfMonth := dayOfMonth.head? ≠ some '*'
          restrictsDayOfWeek := dayOfWeek.head? ≠ some '*' }
      | fields => .error (.invalidSchedule ("a cron expression needs 5 fields, got " ++ toString fields.length ++
          " in \"" ++ expression ++ "\""))

end Parsing

section Calendar

/-- The days since the epoch of a proleptic Gregorian date. -/
def daysFromCivil (year : Int) (month day : Nat) : Int :=
  let shifted := if month ≤ 2 then year - 1 else year
  let era := shifted / 400
  let yearOfEra := shifted - era * 400
  let dayOfYear := (153 * (if 2 < month then month - 3 else month + 9) + 2) / 5 + day - 1
  era * 146097 + (yearOfEra * 365 + yearOfEra / 4 - yearOfEra / 100 + dayOfYear) - 719468

/-- `new Date(Date.UTC(year, month - 1, day)).getUTCDay()`, where two digits are a year of the
twentieth century. -/
def utcDay (year : Int) (month day : Nat) : Nat :=
  let full := if 0 ≤ year ∧ year ≤ 99 then 1900 + year else year
  ((daysFromCivil full month day + 4) % 7).toNat

structure LocalParts where
  month : Nat
  day : Nat
  weekday : Nat
  hour : Nat
  minute : Nat

/-- The parts of a local time in minutes since the epoch. The formatter writes the year of its
era, before and after year 1. -/
def localParts (minutes : Int) : LocalParts :=
  let date := civilFromDays (minutes / 1440)
  let year := if 0 < date.1 then date.1 else 1 - date.1
  { month := date.2.1
    day := date.2.2
    weekday := utcDay year date.2.1 date.2.2
    hour := (minutes % 1440 / 60).toNat
    minute := (minutes % 60).toNat }

def readLocalParts (zone : Zone) (instant : Int) : LocalParts := localParts (instant / 60000 + zone instant)

end Calendar

section Search

def dayMatches (schedule : CronSchedule) (parts : LocalParts) : Bool :=
  let dayOfMonthMatches := schedule.daysOfMonth.contains parts.day
  let dayOfWeekMatches := schedule.daysOfWeek.contains parts.weekday
  if schedule.restrictsDayOfMonth && schedule.restrictsDayOfWeek then dayOfMonthMatches || dayOfWeekMatches
  else dayOfMonthMatches && dayOfWeekMatches

/-- The loop of `nextCronTime`, with the steps that are left. -/
def searchCron (schedule : CronSchedule) (zone : Zone) : Nat → Int → Except CronError Int
  | 0, _ => .error (.invalidSchedule ("\"" ++ schedule.expression ++ "\" never matches"))
  | steps + 1, candidate =>
    if maxTimeMs < candidate then .error .invalidDate
    else
      let parts := readLocalParts zone candidate
      let minutesIntoDay : Int := parts.hour * 60 + parts.minute
      if !schedule.months.contains parts.month || !dayMatches schedule parts then
        searchCron schedule zone steps (candidate + (24 * 60 - minutesIntoDay) * 60000)
      else if !schedule.hours.contains parts.hour then
        searchCron schedule zone steps (candidate + (60 - parts.minute) * 60000)
      else if !schedule.minutes.contains parts.minute then searchCron schedule zone steps (candidate + 60000)
      else .ok candidate

def maxSearchSteps : Nat := 200000

def nextCronTime (zones : ZoneTable) (schedule : CronSchedule) (after : Int) : Except CronError Int :=
  match zones schedule.timeZone with
  | none => .error (.invalidSchedule ("unknown time zone \"" ++ schedule.timeZone ++ "\""))
  | some zone => searchCron schedule zone maxSearchSteps (after / 60000 * 60000 + 60000)

/-- The instants that match an expression. -/
def CronSchedule.Matches (schedule : CronSchedule) (zone : Zone) (instant : Int) : Prop :=
  instant % 60000 = 0 ∧ schedule.months.contains (readLocalParts zone instant).month = true ∧
    dayMatches schedule (readLocalParts zone instant) = true ∧
    schedule.hours.contains (readLocalParts zone instant).hour = true ∧
    schedule.minutes.contains (readLocalParts zone instant).minute = true

instance (schedule : CronSchedule) (zone : Zone) (instant : Int) : Decidable (schedule.Matches zone instant) :=
  inferInstanceAs (Decidable (_ ∧ _))

end Search

section Reparsing

theorem trim_trim (text : List Char) : trim (trim text) = trim text := by
  have starts : ∀ rest : List Char, rest <+: text.dropWhile isSpace → rest.dropWhile isSpace = rest := by
    intro rest part
    cases rest with
    | nil => rfl
    | cons first rest =>
      obtain ⟨more, same⟩ := part
      rw [List.dropWhile_cons_of_neg]
      intro space
      have dropped := List.dropWhile_idempotent (p := isSpace) text
      rw [← same, List.cons_append, List.dropWhile_cons_of_pos space] at dropped
      have shorter := (List.dropWhile_suffix isSpace (l := rest ++ more)).length_le
      rw [dropped, List.length_cons] at shorter
      omega
  have kept : (trim text).dropWhile isSpace = trim text := starts _ (List.rdropWhile_prefix isSpace _)
  change ((((trim text).dropWhile isSpace).reverse).dropWhile isSpace).reverse = _
  rw [kept]
  exact List.rdropWhile_idempotent isSpace (text.dropWhile isSpace)

/-- No macro stands for a macro. -/
theorem macroFor_text {name : List Char} {text : String} (found : macroFor name = some text) :
    trim text.toList = text.toList ∧ macroFor (lowerCase text.toList) = none ∧
      inheritedNames.contains (String.ofList (lowerCase text.toList)) = false := by
  simp only [macroFor, List.lookup_cons, List.lookup_nil] at found
  repeat' split at found
  all_goals cases found
  all_goals exact ⟨by decide, by decide, by decide⟩

/-- A schedule stores the text that its expression stands for, which reads as the same schedule. -/
theorem parseCron_stored {zones : ZoneTable} {expression timeZone : String} {parsed : CronSchedule}
    (accepted : parseCron zones expression timeZone = .ok parsed) :
    parsed.timeZone = timeZone ∧ parseCron zones parsed.expression timeZone = .ok parsed := by
  unfold parseCron at accepted
  split at accepted
  · cases accepted
  · next known =>
      dsimp only at accepted
      rw [ite_eq_iff] at accepted
      obtain ⟨-, impossible⟩ | ⟨notInherited, accepted⟩ := accepted
      · cases impossible
      generalize text : ((macroFor (lowerCase (trim expression.toList))).map String.toList).getD
        (trim expression.toList) = resolved at accepted
      have again : ((macroFor (lowerCase (trim resolved))).map String.toList).getD (trim resolved) = resolved ∧
          ¬ inheritedNames.contains (String.ofList (lowerCase (trim resolved))) = true := by
        rw [← text]
        cases found : macroFor (lowerCase (trim expression.toList)) with
        | none =>
          rw [Option.map_none, Option.getD_none, trim_trim, found]
          exact ⟨rfl, notInherited⟩
        | some macro' =>
          obtain ⟨trimmed, none', plain⟩ := macroFor_text found
          rw [Option.map_some, Option.getD_some, trimmed, none', plain]
          exact ⟨rfl, by decide⟩
      have named : parsed.expression = String.ofList resolved ∧ parsed.timeZone = timeZone := by
        split at accepted
        · simp only [bind, Except.bind] at accepted
          repeat' split at accepted
          all_goals cases accepted
          exact ⟨rfl, rfl⟩
        · cases accepted
      refine ⟨named.2, ?_⟩
      unfold parseCron
      rw [if_neg known, named.1]
      dsimp only
      rw [String.toList_ofList, if_neg again.2, again.1]
      split at accepted
      · exact accepted
      · cases accepted

end Reparsing

section Facts

variable {schedule : CronSchedule} {zone : Zone} {offset instant candidate next after : Int} {steps : Nat}

/-- A zone whose clocks are never moved. -/
def Zone.Constant (zone : Zone) : Prop := ∃ offset, ∀ instant, zone instant = offset

/-- An instant of which a field does not match. -/
def CronSchedule.Misses (schedule : CronSchedule) (parts : LocalParts) : Prop :=
  (schedule.months.contains parts.month = true → dayMatches schedule parts = true →
    schedule.hours.contains parts.hour = true → schedule.minutes.contains parts.minute = false)

theorem CronSchedule.Misses.unmatched (misses : schedule.Misses (readLocalParts zone instant)) : ¬ schedule.Matches zone instant := by
  rintro ⟨-, months, days, hours, minutes⟩
  rw [misses months days hours] at minutes
  cases minutes

/-- Two local times of one day have one date. -/
theorem localParts_day {one two : Int} (same : one / 1440 = two / 1440) :
    (localParts one).month = (localParts two).month ∧ dayMatches schedule (localParts one) = dayMatches schedule (localParts two) := by
  simp [localParts, dayMatches, same]

/-- Two local times of one hour have one date and one hour. -/
theorem localParts_hour {one two : Int} (same : one / 60 = two / 60) :
    one / 1440 = two / 1440 ∧ (localParts one).hour = (localParts two).hour := by
  have day : one / 1440 = two / 1440 := by omega
  refine ⟨day, ?_⟩
  have hour : one % 1440 / 60 = two % 1440 / 60 := by omega
  simp only [localParts, hour]

theorem localParts_minutesIntoDay (minutes : Int) :
    ((localParts minutes).hour : Int) * 60 + (localParts minutes).minute = minutes % 1440 := by
  simp only [localParts]
  omega

theorem localParts_minute (minutes : Int) : ((localParts minutes).minute : Int) = minutes % 60 := by
  simp only [localParts]
  omega

/-- The search finds the first match that is not before its candidate: what it skips has the
date, the hour or the minute that does not match. -/
theorem searchCron_least (constant : ∀ instant, zone instant = offset) (whole : candidate % 60000 = 0)
    (found : searchCron schedule zone steps candidate = .ok next) : candidate ≤ next ∧ schedule.Matches zone next ∧ next ≤ maxTimeMs ∧
      ∀ other, candidate ≤ other → other < next → ¬ schedule.Matches zone other := by
  induction steps generalizing candidate with
  | zero => cases found
  | succ steps ih =>
    have parts (instant : Int) : readLocalParts zone instant = localParts (instant / 60000 + offset) := by
      rw [readLocalParts, constant]
    simp only [searchCron] at found
    split at found
    · cases found
    · next inRange =>
        -- one skip: it ends at a whole minute, and nothing on the way matches
        have onward (skip : Int) (forward : 0 < skip) (aligned : (candidate + skip) % 60000 = 0)
            (missed : ∀ other, candidate ≤ other → other < candidate + skip → other % 60000 = 0 →
              schedule.Misses (readLocalParts zone other))
            (rest : searchCron schedule zone steps (candidate + skip) = .ok next) :
            candidate ≤ next ∧ schedule.Matches zone next ∧ next ≤ maxTimeMs ∧
              ∀ other, candidate ≤ other → other < next → ¬ schedule.Matches zone other := by
          obtain ⟨later, holds, bounded, nothing⟩ := ih aligned rest
          refine ⟨by omega, holds, bounded, fun other above below => ?_⟩
          by_cases skipped : other < candidate + skip
          · intro matched
            exact (missed other above skipped matched.1).unmatched matched
          · exact nothing other (by omega) below
        have daily := localParts_minutesIntoDay (candidate / 60000 + offset)
        have hourly := localParts_minute (candidate / 60000 + offset)
        rw [← parts] at daily hourly
        split at found
        · next wrongDay =>
            refine onward _ (by omega) (by omega) (fun other above below aligned => ?_) found
            have sameDay : (other / 60000 + offset) / 1440 = (candidate / 60000 + offset) / 1440 := by omega
            obtain ⟨month, day⟩ : _ ∧ dayMatches schedule _ = _ := localParts_day sameDay
            rw [← parts, ← parts] at month day
            intro months days
            rw [month] at months
            rw [day] at days
            rw [months, days] at wrongDay
            exact absurd wrongDay (by decide)
        · split at found
          · next wrongHour =>
              refine onward _ (by omega) (by omega) (fun other above below aligned => ?_) found
              have sameHour : (other / 60000 + offset) / 60 = (candidate / 60000 + offset) / 60 := by omega
              have hour := (localParts_hour sameHour).2
              rw [← parts, ← parts] at hour
              intro _ _ hours
              rw [hour] at hours
              rw [hours] at wrongHour
              exact absurd wrongHour (by decide)
          · split at found
            · next wrongMinute =>
                refine onward _ (by omega) (by omega) (fun other above below aligned => ?_) found
                have same : other = candidate := by omega
                subst same
                intro _ _ _
                simpa using wrongMinute
            · next month hour minute =>
                cases found
                simp only [Bool.or_eq_true, Bool.not_eq_true', not_or, Bool.not_eq_false] at month hour minute
                exact ⟨le_rfl, ⟨whole, month.1, month.2, hour, minute⟩, not_lt.mp inRange,
                  fun other above below => absurd above (not_le.mpr below)⟩

/-- In a zone of constant offset, `nextCronTime` is the first match after an instant. -/
theorem nextCronTime_isNext {zones : ZoneTable} (named : zones schedule.timeZone = some zone)
    (constant : zone.Constant) (found : nextCronTime zones schedule after = .ok next) : NextMatch (schedule.Matches zone) after next := by
  obtain ⟨offset, constant⟩ := constant
  rw [nextCronTime, named] at found
  obtain ⟨later, holds, -, nothing⟩ := searchCron_least constant (by omega) found
  refine ⟨by omega, holds, fun other above matched => ?_⟩
  by_contra before
  have aligned := matched.1
  exact nothing other (by omega) (by omega) matched

/-- The search never goes back, in any zone. -/
theorem searchCron_later (found : searchCron schedule zone steps candidate = .ok next) : candidate ≤ next := by
  induction steps generalizing candidate with
  | zero => cases found
  | succ steps ih =>
    have daily : ((readLocalParts zone candidate).hour : Int) * 60 + (readLocalParts zone candidate).minute = _ :=
      localParts_minutesIntoDay (candidate / 60000 + zone candidate)
    have hourly : ((readLocalParts zone candidate).minute : Int) = _ :=
      localParts_minute (candidate / 60000 + zone candidate)
    simp only [searchCron] at found
    split at found
    · cases found
    · split at found
      · have later := ih found
        omega
      · split at found
        · have later := ih found
          omega
        · split at found
          · have later := ih found
            omega
          · cases found
            exact le_rfl

theorem nextCronTime_later {zones : ZoneTable} (found : nextCronTime zones schedule after = .ok next) : after < next := by
  unfold nextCronTime at found
  split at found
  · cases found
  · have later := searchCron_later found
    omega

end Facts

end DurableExecution.Schedules
