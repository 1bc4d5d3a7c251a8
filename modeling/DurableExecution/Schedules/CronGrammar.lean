import DurableExecution.Schedules.Cron

/-
This file states the grammar of cron expressions with the sets that they denote, and shows
which texts `parseCron` reads as the grammar does.
-/

namespace DurableExecution.Schedules

variable {spec : FieldSpec} {text rest field : List Char} {value first last : Nat}

section Grammar

/-- A text names a value of a field by its name, in any case, or by its number. -/
inductive NamesValue (spec : FieldSpec) (text : List Char) : Nat → Prop where
  | name (index : Nat) (named : spec.names[index]? = some (String.ofList (lowerCase text))) :
      NamesValue spec text (index + spec.nameOffset)
  | number (digits : isDigits text = true) (above : spec.min ≤ numberOf text) (below : numberOf text ≤ spec.max) :
      NamesValue spec text (numberOf text)

/-- A text denotes the values between two bounds. A single value with a step goes on to the
greatest value of the field. -/
inductive DenotesRange (spec : FieldSpec) (stepped : Bool) : List Char → Nat → Nat → Prop where
  | all : DenotesRange spec stepped ['*'] spec.min spec.max
  | range {firstText lastText : List Char} {first last : Nat} (from' : NamesValue spec firstText first)
      (to' : NamesValue spec lastText last) (forward : first ≤ last) :
      DenotesRange spec stepped (firstText ++ '-' :: lastText) first last
  | single {text : List Char} {value : Nat} (names : NamesValue spec text value) :
      DenotesRange spec stepped text value (if stepped then spec.max else value)

/-- A range with an optional positive step. -/
inductive DenotesPart (spec : FieldSpec) : List Char → (Nat → Prop) → Prop where
  | plain {text : List Char} {first last : Nat} (range : DenotesRange spec false text first last) :
      DenotesPart spec text fun value => first ≤ value ∧ value ≤ last
  | stepped {text stepText : List Char} {first last : Nat} (range : DenotesRange spec true text first last)
      (digits : isDigits stepText = true) (positive : 0 < numberOf stepText) :
      DenotesPart spec (text ++ '/' :: stepText) fun value =>
        value ≤ last ∧ ∃ count, value = first + count * numberOf stepText

/-- A list of parts denotes what its parts denote. -/
inductive DenotesField (spec : FieldSpec) : List Char → (Nat → Prop) → Prop where
  | part {text : List Char} {values : Nat → Prop} (denotes : DenotesPart spec text values) : DenotesField spec text values
  | list {text rest : List Char} {values more : Nat → Prop} (denotes : DenotesPart spec text values)
      (others : DenotesField spec rest more) : DenotesField spec (text ++ ',' :: rest) fun value => values value ∨ more value

/-- The five fields of a text, or of the text that its macro stands for. -/
def fieldsOf (expression : String) : List (List Char) :=
  let trimmed := trim expression.toList
  splitFields (((macroFor (lowerCase trimmed)).map String.toList).getD trimmed)

/-- An expression denotes a schedule. The weekday 7 is Sunday. -/
structure DenotesCron (expression timeZone : String) (schedule : CronSchedule) : Prop where
  fields : ∃ minute hour dayOfMonth month dayOfWeek weekdays,
    fieldsOf expression = [minute, hour, dayOfMonth, month, dayOfWeek] ∧
    DenotesField minuteSpec minute (· ∈ schedule.minutes) ∧ DenotesField hourSpec hour (· ∈ schedule.hours) ∧
    DenotesField dayOfMonthSpec dayOfMonth (· ∈ schedule.daysOfMonth) ∧
    DenotesField monthSpec month (· ∈ schedule.months) ∧ DenotesField dayOfWeekSpec dayOfWeek weekdays ∧
    (∀ day, day ∈ schedule.daysOfWeek ↔ ∃ weekday, weekdays weekday ∧ day = if weekday = 7 then 0 else weekday) ∧
    schedule.restrictsDayOfMonth = decide (dayOfMonth.head? ≠ some '*') ∧
    schedule.restrictsDayOfWeek = decide (dayOfWeek.head? ≠ some '*')
  zone : schedule.timeZone = timeZone

/-- The values of a field are within its limits, and there are some. -/
def WithinLimits (min max : Nat) (values : List Nat) : Prop := values ≠ [] ∧ ∀ value ∈ values, min ≤ value ∧ value ≤ max

structure CronSchedule.WellFormed (schedule : CronSchedule) : Prop where
  minutes : WithinLimits 0 59 schedule.minutes
  hours : WithinLimits 0 23 schedule.hours
  daysOfMonth : WithinLimits 1 31 schedule.daysOfMonth
  months : WithinLimits 1 12 schedule.months
  daysOfWeek : WithinLimits 0 6 schedule.daysOfWeek

end Grammar

section Fields

/-- The names of a field are words of letters, each listed once. -/
structure FieldSpec.WellNamed (spec : FieldSpec) : Prop where
  bounds : spec.min ≤ spec.max
  distinct : spec.names.Nodup
  letters : ∀ name ∈ spec.names, name.toList ≠ [] ∧ ∀ character ∈ name.toList, 'a' ≤ character ∧ character ≤ 'z'
  limits : ∀ index < spec.names.length, spec.min ≤ index + spec.nameOffset ∧ index + spec.nameOffset ≤ spec.max

/-- The characters that hold a field together. -/
def separators : List Char := ['-', '/', ',', '*']

theorem NamesValue.plain (names : NamesValue spec text value) (named : spec.WellNamed) :
    text ≠ [] ∧ ∀ character ∈ text, character ∉ separators := by
  cases names with
  | name index found =>
    obtain ⟨some', letters⟩ := named.letters _ (List.mem_of_getElem? found)
    rw [String.toList_ofList] at some' letters
    refine ⟨fun empty => some' (by rw [empty]; rfl), fun character member separates => ?_⟩
    have lower := letters _ (List.mem_map_of_mem member)
    simp only [separators, List.mem_cons, List.not_mem_nil, or_false] at separates
    rcases separates with rfl | rfl | rfl | rfl
    all_goals exact absurd lower (by decide)
  | number digits _ _ =>
    simp only [isDigits, Bool.and_eq_true, Bool.not_eq_true', List.isEmpty_eq_false_iff, List.all_eq_true,
      decide_eq_true_eq] at digits
    refine ⟨digits.1, fun character member separates => ?_⟩
    have digit := digits.2 character member
    simp only [separators, List.mem_cons, List.not_mem_nil, or_false] at separates
    rcases separates with rfl | rfl | rfl | rfl
    all_goals exact absurd digit (by decide)

theorem NamesValue.within (names : NamesValue spec text value) (named : spec.WellNamed) : spec.min ≤ value ∧ value ≤ spec.max := by
  cases names with
  | name index found => exact named.limits index (List.getElem?_eq_some_iff.mp found).1
  | number _ above below => exact ⟨above, below⟩

/-- A text of digits is no name. -/
theorem digits_unnamed (named : spec.WellNamed) (digits : isDigits text = true) : String.ofList (lowerCase text) ∉ spec.names := by
  intro member
  obtain ⟨-, letters⟩ := named.letters _ member
  rw [String.toList_ofList] at letters
  simp only [isDigits, Bool.and_eq_true, Bool.not_eq_true', List.isEmpty_eq_false_iff, List.all_eq_true,
    decide_eq_true_eq] at digits
  obtain ⟨character, listed⟩ := List.exists_mem_of_ne_nil text digits.1
  have digit := digits.2 character listed
  have lower := letters _ (List.mem_map_of_mem listed)
  have unchanged : (if character.toNat = 0x212A then 'k' else character.toLower) = character := by
    have low : character.toNat ≤ 57 := digit.2
    rw [if_neg (by omega)]
    refine dif_neg fun upper => ?_
    have above : 65 ≤ character.toNat := upper.1
    omega
  rw [unchanged] at lower
  have low : character.toNat ≤ 57 := digit.2
  have high : 97 ≤ character.toNat := lower.1
  omega

theorem parseValue_names (named : spec.WellNamed) : parseValue text spec = .ok value ↔ NamesValue spec text value := by
  unfold parseValue
  constructor
  · intro parsed
    split at parsed
    · next index found =>
        cases parsed
        obtain ⟨inRange, same, -⟩ := List.findIdx?_eq_some_iff_getElem.mp found
        refine .name index ?_
        rw [List.getElem?_eq_getElem inRange]
        exact congrArg some (of_decide_eq_true same)
    · split at parsed
      · cases parsed
      · next digits =>
          split at parsed
          · cases parsed
          · next inRange =>
              cases parsed
              simp only [Bool.not_eq_true', Bool.not_eq_false] at digits
              simp only [Bool.or_eq_true, decide_eq_true_eq, not_or, not_lt] at inRange
              exact .number digits inRange.1 inRange.2
  · intro names
    cases names with
    | name index found =>
      have inRange := (List.getElem?_eq_some_iff.mp found).1
      have here := (List.getElem?_eq_some_iff.mp found).2
      have position : spec.names.findIdx? (fun name => name = String.ofList (lowerCase text)) = some index := by
        rw [List.findIdx?_eq_some_iff_getElem]
        refine ⟨inRange, decide_eq_true here, fun other before same => ?_⟩
        have equal := (of_decide_eq_true same).trans here.symm
        have index' := (List.Nodup.getElem_inj_iff named.distinct).mp equal
        omega
      rw [position]
    | number digits above below =>
      have position : spec.names.findIdx? (fun name => name = String.ofList (lowerCase text)) = none := by
        rw [List.findIdx?_eq_none_iff]
        intro name listed
        rw [decide_eq_false_iff_not]
        rintro rfl
        exact digits_unnamed named digits listed
      rw [position]
      dsimp only
      rw [digits, if_neg (by decide), if_neg]
      simp only [Bool.or_eq_true, decide_eq_true_eq, not_or, not_lt]
      exact ⟨above, below⟩

/-- A text is split at the first separator, if there is one. -/
theorem splitOn_cases (separator : Char) (text : List Char) : separator ∉ text ∧ text.splitOn separator = [text] ∨
      ∃ first rest, separator ∉ first ∧ text = first ++ separator :: rest ∧ text.splitOn separator = first :: rest.splitOn separator := by
  by_cases listed : separator ∈ text
  · obtain ⟨first, rest, rfl, apart⟩ := List.eq_append_cons_of_mem listed
    refine .inr ⟨first, rest, apart, rfl, ?_⟩
    refine List.splitOnP_append_cons_of_forall_mem (fun character member => ?_) separator (by simp) rest
    rw [beq_eq_false_iff_ne]
    rintro rfl
    exact apart member
  · refine .inl ⟨listed, List.splitOnP_eq_singleton fun character member => ?_⟩
    rw [beq_eq_false_iff_ne]
    rintro rfl
    exact listed member

theorem splitOn_one {separator : Char} (one : text.splitOn separator = [field]) : text = field ∧ separator ∉ text := by
  rcases splitOn_cases separator text with ⟨apart, whole⟩ | ⟨first, rest, -, -, pieces⟩
  · cases whole.symm.trans one
    exact ⟨rfl, apart⟩
  · have none' := (List.cons.inj (pieces.symm.trans one)).2
    exact absurd none' (List.splitOnP_ne_nil _ rest)

theorem splitOn_two {separator : Char} (two : text.splitOn separator = [field, rest]) :
    text = field ++ separator :: rest ∧ separator ∉ field ∧ separator ∉ rest := by
  rcases splitOn_cases separator text with ⟨-, whole⟩ | ⟨first, more, apart, rfl, pieces⟩
  · cases whole.symm.trans two
  · obtain ⟨rfl, one⟩ := List.cons.inj (pieces.symm.trans two)
    obtain ⟨rfl, apart'⟩ := splitOn_one one
    exact ⟨rfl, apart, apart'⟩

theorem splitOn_absent {separator : Char} (absent : separator ∉ text) : text.splitOn separator = [text] := by
  rcases splitOn_cases separator text with ⟨-, whole⟩ | ⟨first, rest, -, rfl, -⟩
  · exact whole
  · exact absurd (List.mem_append_right first List.mem_cons_self) absent

theorem splitOn_joined {separator : Char} (absent : separator ∉ text) :
    (text ++ separator :: rest).splitOn separator = text :: rest.splitOn separator := by
  refine List.splitOnP_append_cons_of_forall_mem (fun character member => ?_) separator (by simp) rest
  rw [beq_eq_false_iff_ne]
  rintro rfl
  exact absent member

theorem DenotesRange.within {stepped : Bool} (denotes : DenotesRange spec stepped text first last)
    (named : spec.WellNamed) : spec.min ≤ first ∧ first ≤ last ∧ last ≤ spec.max := by
  cases denotes with
  | all => exact ⟨le_rfl, named.bounds, le_rfl⟩
  | range from' to' forward => exact ⟨(from'.within named).1, forward, (to'.within named).2⟩
  | single names =>
    obtain ⟨above, below⟩ := names.within named
    cases stepped with
    | true => exact ⟨above, below, le_rfl⟩
    | false => exact ⟨above, le_rfl, below⟩

/-- A range has no other separators than a dash or a star. -/
theorem DenotesRange.plain {stepped : Bool} (denotes : DenotesRange spec stepped text first last)
    (named : spec.WellNamed) : text ≠ [] ∧ '/' ∉ text ∧ ',' ∉ text := by
  cases denotes with
  | all => decide
  | range from' to' _ =>
    obtain ⟨-, one⟩ := from'.plain named
    obtain ⟨-, two⟩ := to'.plain named
    refine ⟨by simp, fun listed => ?_, fun listed => ?_⟩
    all_goals
      rcases List.mem_append.mp listed with before | after
      · exact one _ before (by decide)
      · rcases List.mem_cons.mp after with dash | after
        · exact absurd dash (by decide)
        · exact two _ after (by decide)
  | single names =>
    obtain ⟨some', one⟩ := names.plain named
    exact ⟨some', fun listed => one _ listed (by decide), fun listed => one _ listed (by decide)⟩

theorem parseRange_denotes (named : spec.WellNamed) {stepText : Option (List Char)} :
    parseRange text stepText spec = .ok (first, last) ↔ DenotesRange spec stepText.isSome text first last := by
  unfold parseRange
  constructor
  · intro parsed
    split at parsed
    · next star =>
        cases parsed
        rw [star]
        exact .all
    · split at parsed
      · split at parsed
        · next startText endText pieces =>
            obtain ⟨rfl, -, -⟩ := splitOn_two pieces
            simp only [bind, Except.bind] at parsed
            split at parsed
            · cases parsed
            · next one =>
                split at parsed
                · cases parsed
                · next two =>
                    split at parsed
                    · cases parsed
                    · next forward =>
                        cases parsed
                        exact .range ((parseValue_names named).mp one) ((parseValue_names named).mp two)
                          (not_lt.mp forward)
        · cases parsed
      · simp only [bind, Except.bind] at parsed
        split at parsed
        · cases parsed
        · next one =>
            cases parsed
            have single := @DenotesRange.single _ stepText.isSome _ _ ((parseValue_names named).mp one)
            cases stepText with
            | none => exact single
            | some _ => exact single
  · intro denotes
    cases denotes with
    | all => rfl
    | @range firstText lastText _ _ from' to' forward =>
      obtain ⟨-, one⟩ := from'.plain named
      obtain ⟨-, two⟩ := to'.plain named
      have pieces : (firstText ++ '-' :: lastText).splitOn '-' = [firstText, lastText] := by
        rw [splitOn_joined fun listed => one _ listed (by decide),
          splitOn_absent fun listed => two _ listed (by decide)]
      rw [if_neg, if_pos (by simp), pieces]
      · simp only [(parseValue_names named).mpr from', (parseValue_names named).mpr to', bind, Except.bind]
        rw [if_neg (not_lt.mpr forward)]
      · intro star
        have dash : '-' ∈ ['*'] := star ▸ List.mem_append_right firstText List.mem_cons_self
        exact absurd dash (by decide)
    | single names =>
      obtain ⟨-, one⟩ := names.plain named
      rw [if_neg, if_neg]
      · simp only [(parseValue_names named).mpr names, bind, Except.bind]
        cases stepText <;> rfl
      · intro dash
        exact one '-' (List.contains_iff_mem.mp dash) (by decide)
      · rintro rfl
        exact one '*' (by decide) (by decide)

theorem mem_stepped {step : Nat} (forward : first ≤ last) (positive : 0 < step) :
    value ∈ ((List.range ((last - first) / step + 1)).map fun count => first + count * step) ↔
      value ≤ last ∧ ∃ count, value = first + count * step := by
  rw [List.mem_map]
  constructor
  · rintro ⟨count, counted, rfl⟩
    have few : count ≤ (last - first) / step := Nat.lt_succ_iff.mp (List.mem_range.mp counted)
    have reach := (Nat.le_div_iff_mul_le positive).mp few
    exact ⟨by omega, count, rfl⟩
  · rintro ⟨below, count, rfl⟩
    refine ⟨count, List.mem_range.mpr (Nat.lt_succ_iff.mpr ?_), rfl⟩
    rw [Nat.le_div_iff_mul_le positive]
    omega

/-- What a part denotes, given its bounds and its step. -/
theorem DenotesPart.exists_iff {values : Nat → Prop} (named : spec.WellNamed) :
    DenotesPart spec text values ↔ ∃ rangeText stepText first last, text.splitOn '/' = rangeText :: Option.toList stepText ∧
      rangeText ≠ [] ∧ (∀ digits ∈ stepText, isDigits digits = true ∧ 0 < numberOf digits) ∧
      DenotesRange spec stepText.isSome rangeText first last ∧ values = fun value =>
        value ∈ ((List.range ((last - first) / (stepText.map numberOf).getD 1 + 1)).map fun count =>
          first + count * (stepText.map numberOf).getD 1) := by
  constructor
  · intro denotes
    cases denotes with
    | @plain _ first last range =>
      obtain ⟨some', slash, -⟩ := range.plain named
      refine ⟨text, none, first, last, splitOn_absent slash, some', by simp, range, ?_⟩
      funext value
      rw [Option.map_none, Option.getD_none, mem_stepped (range.within named).2.1 Nat.one_pos, eq_iff_iff]
      constructor
      · rintro ⟨above, below⟩
        exact ⟨below, value - first, by omega⟩
      · rintro ⟨below, count, rfl⟩
        exact ⟨by omega, below⟩
    | @stepped rangeText stepText first last range digits positive =>
      obtain ⟨some', slash, -⟩ := range.plain named
      have plain : '/' ∉ stepText := by
        intro listed
        simp only [isDigits, Bool.and_eq_true, List.all_eq_true, decide_eq_true_eq] at digits
        exact absurd (digits.2 _ listed) (by decide)
      refine ⟨rangeText, some stepText, first, last, ?_, some', ?_, range, ?_⟩
      · rw [splitOn_joined slash, splitOn_absent plain]
        rfl
      · rintro _ ⟨⟩
        exact ⟨digits, positive⟩
      · funext value
        rw [Option.map_some, Option.getD_some, mem_stepped (range.within named).2.1 positive]
  · rintro ⟨rangeText, stepText, first, last, pieces, -, steps, range, rfl⟩
    cases stepText with
    | none =>
      obtain ⟨rfl, -⟩ := splitOn_one pieces
      have same : (fun value => value ∈ ((List.range ((last - first) / 1 + 1)).map fun count => first + count * 1)) =
          fun value => first ≤ value ∧ value ≤ last := by
        funext value
        rw [mem_stepped (range.within named).2.1 Nat.one_pos, eq_iff_iff]
        constructor
        · rintro ⟨below, count, rfl⟩
          exact ⟨by omega, below⟩
        · rintro ⟨above, below⟩
          exact ⟨below, value - first, by omega⟩
      rw [Option.map_none, Option.getD_none, same]
      exact .plain range
    | some stepText =>
      obtain ⟨rfl, -, -⟩ := splitOn_two pieces
      obtain ⟨digits, positive⟩ := steps stepText rfl
      have same : (fun value => value ∈ ((List.range ((last - first) / numberOf stepText + 1)).map fun count =>
          first + count * numberOf stepText)) = fun value => value ≤ last ∧ ∃ count, value = first + count * numberOf stepText := by
        funext value
        rw [mem_stepped (range.within named).2.1 positive]
      rw [Option.map_some, Option.getD_some, same]
      exact .stepped range digits positive

theorem parsePart_denotes (named : spec.WellNamed) {values : Nat → Prop} :
    (∃ listed, parsePart field text spec = .ok listed ∧ values = (· ∈ listed)) ↔ DenotesPart spec text values := by
  rw [DenotesPart.exists_iff named]
  unfold parsePart
  dsimp only
  constructor
  · rintro ⟨listed, parsed, rfl⟩
    split at parsed
    · next rangeText pieces =>
        split at parsed
        · cases parsed
        · next some' =>
            rw [if_neg (by simp)] at parsed
            simp only [bind, Except.bind] at parsed
            split at parsed
            · cases parsed
            · next bounds range =>
                cases parsed
                exact ⟨rangeText, none, bounds.1, bounds.2, pieces, some', by simp, (parseRange_denotes named).mp range, rfl⟩
    · next rangeText stepText pieces =>
        split at parsed
        · cases parsed
        · next some' =>
            split at parsed
            · cases parsed
            · next steps =>
                simp only [bind, Except.bind] at parsed
                split at parsed
                · cases parsed
                · next bounds range =>
                    cases parsed
                    refine ⟨rangeText, some stepText, bounds.1, bounds.2, pieces, some', ?_,
                      (parseRange_denotes named).mp range, rfl⟩
                    rintro _ ⟨⟩
                    simp only [Option.any_some, Bool.or_eq_true, Bool.not_eq_true', decide_eq_true_eq, not_or,
                      Bool.not_eq_false] at steps
                    exact ⟨steps.1, Nat.pos_of_ne_zero steps.2⟩
    · cases parsed
  · rintro ⟨rangeText, stepText, first, last, pieces, some', steps, range, rfl⟩
    refine ⟨_, ?_, rfl⟩
    have parsed := (parseRange_denotes named).mpr range
    cases stepText with
    | none =>
      rw [Option.toList_none] at pieces
      rw [pieces]
      dsimp only
      rw [if_neg some', if_neg (by simp), parsed]
      rfl
    | some stepText =>
      rw [Option.toList_some] at pieces
      obtain ⟨digits, positive⟩ := steps stepText rfl
      rw [pieces]
      dsimp only
      rw [if_neg some', if_neg, parsed]
      · rfl
      · simp only [Option.any_some, digits, Bool.not_true, Bool.false_or, decide_eq_true_eq]
        omega

theorem parseField_denotes (named : spec.WellNamed) {values : Nat → Prop} :
    (∃ listed, parseField field spec = .ok listed ∧ values = (· ∈ listed)) ↔ DenotesField spec field values := by
  constructor
  · rintro ⟨listed, parsed, rfl⟩
    unfold parseField at parsed
    simp only [bind, Except.bind, pure, Except.pure] at parsed
    split at parsed
    · cases parsed
    · next parts all =>
        cases parsed
        -- the list of parts, after any number of them
        have onward : ∀ (pieces : List (List Char)) (parts : List (List Nat)) (text : List Char),
            text.splitOn ',' = pieces → pieces.mapM (fun part => parsePart field part spec) = .ok parts →
            DenotesField spec text (· ∈ parts.flatten) := by
          intro pieces
          induction pieces with
          | nil => exact fun _ _ none' _ => absurd none' (List.splitOnP_ne_nil _ _)
          | cons piece pieces ih =>
            intro parts text split all
            rw [List.mapM_cons] at all
            simp only [bind, Except.bind, pure, Except.pure] at all
            split at all
            · cases all
            · next values one =>
                split at all
                · cases all
                · next more others =>
                    cases all
                    have denotes := (parsePart_denotes named).mp ⟨values, one, rfl⟩
                    rcases splitOn_cases ',' text with ⟨-, whole⟩ | ⟨first, rest, -, rfl, joined⟩
                    · obtain ⟨rfl, rfl⟩ := List.cons.inj (whole.symm.trans split)
                      obtain rfl : [] = more := Except.ok.inj others
                      rw [List.flatten_cons, List.flatten_nil, List.append_nil]
                      exact .part denotes
                    · obtain ⟨rfl, tail⟩ := List.cons.inj (joined.symm.trans split)
                      have same : (· ∈ (values :: more).flatten) = fun value => value ∈ values ∨ value ∈ more.flatten := by
                        funext value
                        rw [List.flatten_cons, List.mem_append]
                      rw [same]
                      exact .list denotes (ih more rest tail others)
        exact onward _ _ field rfl all
  · intro denotes
    suffices parses : ∀ whole, ∃ parts, (field.splitOn ',').mapM (fun part => parsePart whole part spec) = .ok parts ∧
        values = (· ∈ parts.flatten) by
      obtain ⟨parts, all, rfl⟩ := parses field
      refine ⟨parts.flatten, ?_, rfl⟩
      rw [parseField, all]
      rfl
    intro whole
    have apart {text : List Char} {values : Nat → Prop} (part : DenotesPart spec text values) : ',' ∉ text := by
      intro listed
      cases part with
      | plain range => exact (range.plain named).2.2 listed
      | stepped range digits _ =>
        rcases List.mem_append.mp listed with before | after
        · exact (range.plain named).2.2 before
        · rcases List.mem_cons.mp after with slash | after
          · exact absurd slash (by decide)
          · simp only [isDigits, Bool.and_eq_true, List.all_eq_true, decide_eq_true_eq] at digits
            exact absurd (digits.2 _ after) (by decide)
    induction denotes with
    | part denotes =>
      obtain ⟨listed, parsed, rfl⟩ := (parsePart_denotes named).mpr denotes
      refine ⟨[listed], ?_, by rw [List.flatten_cons, List.flatten_nil, List.append_nil]⟩
      rw [splitOn_absent (apart denotes), List.mapM_cons, parsed]
      rfl
    | list denotes others ih =>
      obtain ⟨listed, parsed, rfl⟩ := (parsePart_denotes named).mpr denotes
      obtain ⟨parts, all, rfl⟩ := ih
      refine ⟨listed :: parts, ?_, ?_⟩
      · rw [splitOn_joined (apart denotes), List.mapM_cons, parsed, all]
        rfl
      · funext value
        rw [List.flatten_cons, List.mem_append]

/-- The values that a field denotes are within its limits, and there are some. -/
theorem DenotesField.within {values : Nat → Prop} (denotes : DenotesField spec field values) (named : spec.WellNamed) :
    (∃ value, values value) ∧ ∀ value, values value → spec.min ≤ value ∧ value ≤ spec.max := by
  have part {text : List Char} {values : Nat → Prop} (denotes : DenotesPart spec text values) :
      (∃ value, values value) ∧ ∀ value, values value → spec.min ≤ value ∧ value ≤ spec.max := by
    cases denotes with
    | @plain _ first last range =>
      obtain ⟨above, forward, below⟩ := range.within named
      exact ⟨⟨first, le_rfl, forward⟩, fun value between => ⟨above.trans between.1, between.2.trans below⟩⟩
    | @stepped _ stepText first last range _ _ =>
      obtain ⟨above, forward, below⟩ := range.within named
      refine ⟨⟨first, forward, 0, by omega⟩, ?_⟩
      rintro value ⟨upTo, count, rfl⟩
      exact ⟨above.trans (Nat.le_add_right _ _), upTo.trans below⟩
  induction denotes with
  | part denotes => exact part denotes
  | list denotes others ih =>
    obtain ⟨⟨value, here⟩, one⟩ := part denotes
    exact ⟨⟨value, .inl here⟩, fun value either => either.elim (one value) (ih.2 value)⟩

end Fields

section Errors

/-- A computation fails with `InvalidScheduleError` only. -/
def Complains {A : Type} (outcome : Except CronError A) : Prop :=
  ∀ error, outcome = .error error → ∃ message, error = .invalidSchedule message

theorem Complains.ok {A : Type} (answer : A) : Complains (.ok answer) := by
  rintro error ⟨⟩

theorem Complains.error {A : Type} (message : String) : Complains (A := A) (.error (.invalidSchedule message)) := by
  rintro error ⟨⟩
  exact ⟨message, rfl⟩

theorem Complains.bind {A B : Type} {outcome : Except CronError A} {next : A → Except CronError B}
    (first : Complains outcome) (second : ∀ answer, Complains (next answer)) : Complains (outcome >>= next) := by
  cases outcome with
  | error error =>
    rintro _ ⟨⟩
    exact first error rfl
  | ok answer => exact second answer

theorem parseValue_complains : Complains (parseValue text spec) := by
  unfold parseValue
  repeat' split
  all_goals first | exact .ok _ | exact .error _

theorem parseRange_complains {stepText : Option (List Char)} : Complains (parseRange text stepText spec) := by
  unfold parseRange
  repeat' split
  · exact .ok _
  · refine .bind parseValue_complains fun first => .bind parseValue_complains fun last => ?_
    split
    · exact .error _
    · exact .ok _
  · exact .error _
  all_goals exact .bind parseValue_complains fun first => .ok _

theorem parsePart_complains : Complains (parsePart field text spec) := by
  unfold parsePart
  dsimp only
  repeat' split
  all_goals first | exact .error _ | exact .bind parseRange_complains fun bounds => .ok _

theorem parseField_complains : Complains (parseField field spec) := by
  refine .bind ?_ fun parts => .ok _
  generalize field.splitOn ',' = pieces
  induction pieces with
  | nil => exact .ok _
  | cons piece pieces ih =>
    rw [List.mapM_cons]
    exact .bind parsePart_complains fun values => .bind ih fun more => .ok _

end Errors

section Expressions

variable {zones : ZoneTable} {expression timeZone : String} {schedule parsed : CronSchedule}

theorem lowerLetters {names : List String} (lower : (names.all fun name => !name.toList.isEmpty && name.toList.all Char.isLower) = true) :
    ∀ name ∈ names, name.toList ≠ [] ∧ ∀ character ∈ name.toList, 'a' ≤ character ∧ character ≤ 'z' := by
  intro name listed
  have letters := List.all_eq_true.mp lower name listed
  rw [Bool.and_eq_true, Bool.not_eq_true', List.isEmpty_eq_false_iff, List.all_eq_true] at letters
  refine ⟨letters.1, fun character member => ?_⟩
  have within := letters.2 character member
  obtain ⟨above, below⟩ := Bool.and_eq_true_iff.mp within
  exact ⟨of_decide_eq_true above, of_decide_eq_true below⟩

theorem minuteSpec_named : minuteSpec.WellNamed := ⟨by decide, by decide, by decide, by decide⟩

theorem hourSpec_named : hourSpec.WellNamed := ⟨by decide, by decide, by decide, by decide⟩

theorem dayOfMonthSpec_named : dayOfMonthSpec.WellNamed := ⟨by decide, by decide, by decide, by decide⟩

theorem monthSpec_named : monthSpec.WellNamed := ⟨by decide, by decide, lowerLetters (by decide), by decide⟩

theorem dayOfWeekSpec_named : dayOfWeekSpec.WellNamed := ⟨by decide, by decide, lowerLetters (by decide), by decide⟩

/-- A lookup of the text in `MACROS` finds something that is no macro. -/
def Inherited (expression : String) : Prop :=
  inheritedNames.contains (String.ofList (lowerCase (trim expression.toList))) = true

instance (expression : String) : Decidable (Inherited expression) := inferInstanceAs (Decidable (_ = true))

theorem WithinLimits.of_field {values : List Nat} (denotes : DenotesField spec field (· ∈ values)) (named : spec.WellNamed) :
    WithinLimits spec.min spec.max values := by
  obtain ⟨⟨value, here⟩, limits⟩ := denotes.within named
  exact ⟨List.ne_nil_of_mem here, limits⟩

theorem DenotesCron.wellFormed (denotes : DenotesCron expression timeZone schedule) : schedule.WellFormed := by
  obtain ⟨minute, hour, dayOfMonth, month, dayOfWeek, weekdays, -, minutes, hours, daysOfMonth, months, days, week, -, -⟩ :=
    denotes.fields
  refine ⟨.of_field minutes minuteSpec_named, .of_field hours hourSpec_named, .of_field daysOfMonth dayOfMonthSpec_named,
    .of_field months monthSpec_named, ?_, fun day listed => ?_⟩
  · obtain ⟨⟨weekday, here⟩, -⟩ := days.within dayOfWeekSpec_named
    exact List.ne_nil_of_mem ((week _).mpr ⟨weekday, here, rfl⟩)
  · obtain ⟨weekday, here, rfl⟩ := (week day).mp listed
    obtain ⟨-, limits⟩ := days.within dayOfWeekSpec_named
    have below : weekday ≤ 7 := (limits weekday here).2
    split <;> omega

theorem parseCron_denotes (accepted : parseCron zones expression timeZone = .ok parsed) : DenotesCron expression timeZone parsed := by
  unfold parseCron at accepted
  dsimp only at accepted
  split at accepted
  · cases accepted
  · split at accepted
    · cases accepted
    · split at accepted
      · next minute hour dayOfMonth month dayOfWeek fields =>
          simp only [bind, Except.bind, pure, Except.pure] at accepted
          split at accepted
          · cases accepted
          next weekdays week =>
          split at accepted
          · cases accepted
          next minutes' one =>
          split at accepted
          · cases accepted
          next hours' two =>
          split at accepted
          · cases accepted
          next days' three =>
          split at accepted
          · cases accepted
          next months' four =>
          cases accepted
          refine ⟨⟨minute, hour, dayOfMonth, month, dayOfWeek, (· ∈ weekdays), fields,
            (parseField_denotes minuteSpec_named).mp ⟨_, one, rfl⟩, (parseField_denotes hourSpec_named).mp ⟨_, two, rfl⟩,
            (parseField_denotes dayOfMonthSpec_named).mp ⟨_, three, rfl⟩,
            (parseField_denotes monthSpec_named).mp ⟨_, four, rfl⟩,
            (parseField_denotes dayOfWeekSpec_named).mp ⟨_, week, rfl⟩, fun day => ?_, rfl, rfl⟩, rfl⟩
          rw [List.mem_map]
          exact ⟨fun ⟨weekday, here, same⟩ => ⟨weekday, here, same.symm⟩, fun ⟨weekday, here, same⟩ => ⟨weekday, here, same.symm⟩⟩
      · cases accepted

/-- What the grammar denotes is accepted. -/
theorem DenotesCron.parses (denotes : DenotesCron expression timeZone schedule) (known : (zones timeZone).isSome)
    (own : ¬ Inherited expression) : ∃ parsed, parseCron zones expression timeZone = .ok parsed := by
  obtain ⟨minute, hour, dayOfMonth, month, dayOfWeek, weekdays, fields, minutes, hours, daysOfMonth, months, days, -⟩ :=
    denotes.fields
  obtain ⟨weekdays', one, -⟩ := (parseField_denotes dayOfWeekSpec_named).mpr days
  obtain ⟨minutes', two, -⟩ := (parseField_denotes minuteSpec_named).mpr minutes
  obtain ⟨hours', three, -⟩ := (parseField_denotes hourSpec_named).mpr hours
  obtain ⟨days', four, -⟩ := (parseField_denotes dayOfMonthSpec_named).mpr daysOfMonth
  obtain ⟨months', five, -⟩ := (parseField_denotes monthSpec_named).mpr months
  unfold fieldsOf at fields
  unfold Inherited at own
  unfold parseCron
  dsimp only at fields ⊢
  rw [if_neg (by rw [Option.isNone_iff_eq_none, ← Option.not_isSome_iff_eq_none, known]; decide), if_neg own, fields]
  dsimp only
  rw [one, two, three, four, five]
  exact ⟨_, rfl⟩

theorem parseCron_complains (own : ¬ Inherited expression) : Complains (parseCron zones expression timeZone) := by
  unfold Inherited at own
  unfold parseCron
  dsimp only
  split
  · exact .error _
  · split
    · exact .bind parseField_complains fun _ => .bind parseField_complains fun _ => .bind parseField_complains fun _ =>
        .bind parseField_complains fun _ => .bind parseField_complains fun _ => .ok _
    · exact .error _

/-- An expression is read as the grammar reads it: either both give it a meaning, with sets that
are not empty and within the limits of their fields, or it is refused with `InvalidScheduleError`
and has no meaning. -/
def ReadExactly (zones : ZoneTable) (expression timeZone : String) : Prop :=
  (∃ parsed, parseCron zones expression timeZone = .ok parsed ∧ DenotesCron expression timeZone parsed ∧
    parsed.WellFormed) ∨
  (∃ message, parseCron zones expression timeZone = .error (.invalidSchedule message)) ∧
    ∀ schedule, ¬ DenotesCron expression timeZone schedule

/-- `parseCron` reads exactly the expressions that are not names of inherited properties as
the grammar does. -/
theorem parseCron_exact (known : (zones timeZone).isSome = true) : ReadExactly zones expression timeZone ↔ ¬ Inherited expression := by
  constructor
  · intro exact' inherited
    have fails : parseCron zones expression timeZone = .error .typeError := by
      unfold parseCron
      dsimp only
      rw [if_neg (by rw [Option.isNone_iff_eq_none, ← Option.not_isSome_iff_eq_none, known]; decide)]
      exact if_pos inherited
    rcases exact' with ⟨parsed, accepted, -⟩ | ⟨⟨message, refused⟩, -⟩
    · cases fails.symm.trans accepted
    · cases fails.symm.trans refused
  · intro own
    cases outcome : parseCron zones expression timeZone with
    | ok parsed =>
      have denotes := parseCron_denotes outcome
      exact .inl ⟨parsed, outcome, denotes, denotes.wellFormed⟩
    | error error =>
      obtain ⟨message, rfl⟩ := parseCron_complains own error outcome
      refine .inr ⟨⟨message, outcome⟩, fun schedule denotes => ?_⟩
      obtain ⟨parsed, accepted⟩ := denotes.parses known own
      cases outcome.symm.trans accepted

end Expressions

section Readings

def knownZones : ZoneTable := fun name => if name = "UTC" then some fun _ => 0 else none

theorem parseCron_exact_ranges : (knownZones "UTC").isSome = true ∧
    (ReadExactly knownZones "*/15 9-17 * jan-mar mon,7" "UTC" ↔ ¬ Inherited "*/15 9-17 * jan-mar mon,7") :=
  ⟨by decide, parseCron_exact (by decide)⟩

/-- The word `Constructor` is answered with an error of another kind. -/
theorem parseCron_inherits : (knownZones "UTC").isSome = true ∧
    parseCron knownZones " Constructor" "UTC" = .error .typeError ∧ ¬ ReadExactly knownZones " Constructor" "UTC" := by
  have fails : parseCron knownZones " Constructor" "UTC" = .error .typeError := by decide
  refine ⟨by decide, fails, ?_⟩
  rintro (⟨parsed, accepted, -⟩ | ⟨⟨message, refused⟩, -⟩)
  · cases fails.symm.trans accepted
  · cases fails.symm.trans refused

end Readings

end DurableExecution.Schedules
