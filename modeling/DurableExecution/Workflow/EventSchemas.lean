import DurableExecution.Workflow.Canonical

/-
This file models the schemas that every event passes when it is appended and when it is read. It proves
that the copy of an accepted event in the log is accepted too, whatever the order of its keys.
-/

namespace DurableExecution.Workflow

section Schemas

/-- `object[key]`. -/
def fieldOf (fields : List (String × JsValue)) (key : String) : JsValue := (fields.lookup key).getD .undefined

/-- The checks that the fields of the events go through. -/
inductive FieldSchema where
  | unknown
  | string
  | nonEmptyString
  | oneOf (texts : List String)
  | boolean
  | number
  | positiveNumber
  | positiveInteger
  | nonNegativeInteger
  | isoDatetime
  | recordedError
  | nullable (inner : FieldSchema)
  | optional (inner : FieldSchema)

/-- The schema of one type of event: the fields beside its `type`. -/
structure EventSchema where
  type : String
  fields : List (String × FieldSchema)

def runStartedEventSchema : EventSchema := ⟨"run_started", [("workflowType", .nonEmptyString), ("input", .unknown)]⟩

def runCompletedEventSchema : EventSchema := ⟨"run_completed", [("result", .unknown)]⟩

def runFailedEventSchema : EventSchema := ⟨"run_failed", [("error", .recordedError)]⟩

def runTimedOutEventSchema : EventSchema := ⟨"run_timed_out", [("kind", .optional (.oneOf ["run", "execution"]))]⟩

def runCancelledEventSchema : EventSchema := ⟨"run_cancelled", [("reason", .optional .string)]⟩

def cancelRequestedEventSchema : EventSchema := ⟨"cancel_requested", [("reason", .optional .string)]⟩

def runTerminatedEventSchema : EventSchema := ⟨"run_terminated", [("reason", .optional .string)]⟩

def runContinuedAsNewEventSchema : EventSchema := ⟨"run_continued_as_new", [("input", .unknown)]⟩

def stepScheduledEventSchema : EventSchema :=
  ⟨"step_scheduled", [("stepId", .nonEmptyString), ("stepType", .nonEmptyString), ("input", .unknown)]⟩

def compensationFailedEventSchema : EventSchema :=
  ⟨"compensation_failed", [("index", .nonNegativeInteger), ("error", .recordedError)]⟩

def stepCompletedEventSchema : EventSchema := ⟨"step_completed", [("stepId", .nonEmptyString), ("result", .unknown)]⟩

def stepFailedEventSchema : EventSchema :=
  ⟨"step_failed", [("stepId", .nonEmptyString), ("error", .recordedError), ("exhausted", .optional .boolean)]⟩

def stepAttemptFailedEventSchema : EventSchema :=
  ⟨"step_attempt_failed", [("stepId", .nonEmptyString), ("attempt", .positiveInteger), ("error", .recordedError),
    ("retryAt", .nullable .nonEmptyString)]⟩

def timerStartedEventSchema : EventSchema :=
  ⟨"timer_started", [("timerId", .nonEmptyString), ("fireAt", .nonEmptyString), ("durationMs", .optional .number)]⟩

def timerFiredEventSchema : EventSchema := ⟨"timer_fired", [("timerId", .nonEmptyString)]⟩

def signalReceivedEventSchema : EventSchema := ⟨"signal_received", [("signalName", .nonEmptyString), ("payload", .unknown)]⟩

def parentClosePolicySchema : FieldSchema := .oneOf ["cancel", "terminate", "abandon"]

def childStartedEventSchema : EventSchema :=
  ⟨"child_started", [("childId", .nonEmptyString), ("workflowType", .nonEmptyString), ("input", .unknown),
    ("parentClosePolicy", parentClosePolicySchema), ("runTimeoutMs", .optional .positiveNumber),
    ("executionTimeoutMs", .optional .positiveNumber)]⟩

def childCompletedEventSchema : EventSchema := ⟨"child_completed", [("childId", .nonEmptyString), ("result", .unknown)]⟩

def childFailedEventSchema : EventSchema := ⟨"child_failed", [("childId", .nonEmptyString), ("error", .recordedError)]⟩

def patchRecordedEventSchema : EventSchema :=
  ⟨"patch_recorded", [("patchId", .nonEmptyString), ("buildId", .optional .nonEmptyString)]⟩

def timeRecordedEventSchema : EventSchema := ⟨"time_recorded", [("time", .isoDatetime)]⟩

/-- Every kind of event that a log can hold. -/
def eventSchemas : List EventSchema :=
  [runStartedEventSchema, runCompletedEventSchema, runFailedEventSchema, runTimedOutEventSchema, runCancelledEventSchema,
    runTerminatedEventSchema, cancelRequestedEventSchema, runContinuedAsNewEventSchema, stepScheduledEventSchema,
    stepCompletedEventSchema, stepFailedEventSchema, stepAttemptFailedEventSchema, timerStartedEventSchema, timerFiredEventSchema,
    signalReceivedEventSchema, childStartedEventSchema, childCompletedEventSchema, childFailedEventSchema, patchRecordedEventSchema,
    timeRecordedEventSchema, compensationFailedEventSchema]

theorem eventSchemas_distinct : (eventSchemas.map EventSchema.type).Nodup := by decide

def errorKeys : List String := ["name", "message", "details", "cause"]

mutual

/-- A recorded error is rebuilt with the keys of its schema only. -/
def strippedError : JsValue → JsValue
  | .object fields => .object (strippedErrorFields fields)
  | .error _ name message own details cause =>
    .object [("name", .string name), ("message", .string message), ("details", (own.lookup "details").getD details),
      ("cause", strippedError cause)]
  | value => value

def strippedErrorFields : List (String × JsValue) → List (String × JsValue)
  | [] => []
  | (key, value) :: rest =>
    if key = "cause" then (key, strippedError value) :: strippedErrorFields rest
    else if key ∈ errorKeys then (key, value) :: strippedErrorFields rest
    else strippedErrorFields rest

end

def JsValue.isString : JsValue → Bool
  | .string _ => true
  | _ => false

def JsValue.isUndefined : JsValue → Bool
  | .undefined => true
  | _ => false

def JsValue.isNull : JsValue → Bool
  | .null => true
  | _ => false

mutual

/-- `recordedErrorSchema` on an error that holds only its keys. -/
def validError : JsValue → Bool
  | .object fields => (fields.all fun field => errorKeys.contains field.1) && (fieldOf fields "name").isString &&
      (fieldOf fields "message").isString && validCauses fields
  | _ => false

def validCauses : List (String × JsValue) → Bool
  | [] => true
  | (key, value) :: rest => (key != "cause" || value.isUndefined || validError value) && validCauses rest

end

def FieldSchema.strip : FieldSchema → JsValue → JsValue
  | .recordedError, value => strippedError value
  | .nullable inner, value => inner.strip value
  | .optional inner, value => inner.strip value
  | _, value => value

/-- The largest integer that `z.int()` accepts. -/
def maxSafeInteger : Rat := 9007199254740991

def FieldSchema.accepts (isDatetime : String → Bool) : FieldSchema → JsValue → Bool
  | .unknown, _ => true
  | .string, value => value.isString
  | .nonEmptyString, .string text => text != ""
  | .oneOf texts, .string text => texts.contains text
  | .boolean, .bool _ => true
  | .number, .number (.finite _) => true
  | .number, .number .negZero => true
  | .positiveNumber, .number (.finite value) => decide (0 < value)
  | .positiveInteger, .number (.finite value) => decide (value.den = 1 ∧ 0 < value ∧ value ≤ maxSafeInteger)
  | .nonNegativeInteger, .number (.finite value) => decide (value.den = 1 ∧ 0 ≤ value ∧ value ≤ maxSafeInteger)
  | .nonNegativeInteger, .number .negZero => true
  | .isoDatetime, .string text => isDatetime text
  | .recordedError, value => validError value
  | .nullable inner, value => value.isNull || inner.accepts isDatetime value
  | .optional inner, value => value.isUndefined || inner.accepts isDatetime value
  | _, _ => false

def EventSchema.strip (schema : EventSchema) (fields : List (String × JsValue)) : List (String × JsValue) :=
  fields.filterMap fun field =>
    if field.1 = "type" then some field
    else (schema.fields.lookup field.1).map fun check => (field.1, check.strip field.2)

/-- The check of an event that holds only the keys of its schema. -/
def EventSchema.accepts (isDatetime : String → Bool) (schema : EventSchema) (fields : List (String × JsValue)) : Bool :=
  (match fieldOf fields "type" with
    | .string type => type == schema.type
    | _ => false) &&
  (fields.all fun field => field.1 == "type" || (schema.fields.map Prod.fst).contains field.1) &&
  schema.fields.all fun check => check.2.accepts isDatetime (fieldOf fields check.1)

/-- `workflowEventSchema.parse(value)`; nothing where it throws. -/
def workflowEventSchema (isDatetime : String → Bool) : JsValue → Option JsValue
  | .object fields =>
    match fieldOf fields "type" with
    | .string type =>
      match eventSchemas.find? fun schema => schema.type == type with
      | some schema =>
        if schema.accepts isDatetime (schema.strip fields) then some (.object (schema.strip fields)) else none
      | none => none
    | _ => none
  | _ => none

/-- An event as the schemas return it. -/
def ValidEvent (isDatetime : String → Bool) (event : JsValue) : Prop :=
  ∃ schema ∈ eventSchemas, ∃ fields, event = .object fields ∧ schema.accepts isDatetime fields = true

end Schemas

section Lookups

variable {fields others : List (String × JsValue)} {key : String}

theorem lookup_mem {Value : Type} {fields : List (String × Value)} {value : Value} (found : fields.lookup key = some value) :
    (key, value) ∈ fields := by
  induction fields with
  | nil => cases found
  | cons field rest ih =>
    rw [List.lookup_cons] at found
    split at found
    · next same =>
        cases found
        rw [beq_iff_eq] at same
        subst same
        exact List.mem_cons_self
    · exact List.mem_cons_of_mem _ (ih found)

theorem lookup_of_mem {Value : Type} {fields : List (String × Value)} {value : Value} (distinct : (fields.map Prod.fst).Nodup)
    (listed : (key, value) ∈ fields) : fields.lookup key = some value := by
  induction fields with
  | nil => cases listed
  | cons field rest ih =>
    obtain ⟨new, later⟩ := List.nodup_cons.mp distinct
    rw [List.lookup_cons]
    rcases List.mem_cons.mp listed with rfl | listed
    · rw [beq_self_eq_true]
    · have other : (key == field.1) = false := by
        rw [beq_eq_false_iff_ne]
        rintro rfl
        exact new (List.mem_map.mpr ⟨_, listed, rfl⟩)
      rw [other]
      exact ih later listed

theorem lookup_none {Value : Type} {fields : List (String × Value)} : fields.lookup key = none ↔ key ∉ fields.map Prod.fst := by
  induction fields with
  | nil => exact iff_of_true rfl List.not_mem_nil
  | cons field rest ih =>
    rw [List.lookup_cons, List.map_cons, List.mem_cons, not_or]
    by_cases same : key = field.1
    · rw [beq_iff_eq.mpr same]
      exact iff_of_false (by simp) fun both => both.1 same
    · rw [beq_eq_false_iff_ne.mpr same]
      exact ⟨fun none' => ⟨same, ih.mp none'⟩, fun both => ih.mpr both.2⟩

/-- A field of the copy is the copy of the field. -/
theorem fieldOf_jsonFields (distinct : (fields.map Prod.fst).Nodup) : fieldOf (jsonFields fields) key = (fieldOf fields key).stored := by
  induction fields with
  | nil => rfl
  | cons field rest ih =>
    obtain ⟨name, value⟩ := field
    obtain ⟨new, later⟩ := List.nodup_cons.mp distinct
    rw [jsonFields]
    by_cases same : key = name
    · subst same
      have absent : (jsonFields rest).lookup key = none :=
        lookup_none.mpr fun listed => new ((jsonFields_keys rest).subset listed)
      have first : fieldOf ((key, value) :: rest) key = value := by
        rw [fieldOf, List.lookup_cons, beq_self_eq_true, Option.getD_some]
      rw [first, JsValue.stored]
      cases value.jsonCopy with
      | none =>
        rw [fieldOf, absent]
      | some copy =>
        rw [fieldOf, List.lookup_cons, beq_self_eq_true]
    · have skip : ∀ (value : JsValue) (more : List (String × JsValue)), fieldOf ((name, value) :: more) key = fieldOf more key := by
        intro value more
        rw [fieldOf, fieldOf, List.lookup_cons, beq_eq_false_iff_ne.mpr same]
      rw [skip]
      cases value.jsonCopy with
      | none => exact ih later
      | some copy =>
        rw [skip]
        exact ih later

/-- Equal objects have the same keys. -/
theorem sameFields_keys (first : (fields.map Prod.fst).Nodup) (many : fields.length = others.length)
    (same : sameFields fields others) : (fields.map Prod.fst).Perm (others.map Prod.fst) := by
  have within : ∀ (fields : List (String × JsValue)), sameFields fields others → fields.map Prod.fst ⊆ others.map Prod.fst := by
    intro fields
    induction fields with
    | nil => exact fun _ => List.nil_subset _
    | cons field rest ih =>
      intro same
      obtain ⟨key, value⟩ := field
      rw [sameFields] at same
      obtain ⟨⟨other, listed, -⟩, later⟩ := same
      exact List.cons_subset.mpr ⟨List.mem_map.mpr ⟨_, listed, rfl⟩, ih later⟩
  apply (List.subperm_of_subset first (within fields same)).perm_of_length_le
  rw [List.length_map, List.length_map, many]

/-- The fields of equal objects are equal. -/
theorem fieldOf_same (key : String) (first : (fields.map Prod.fst).Nodup) (second : (others.map Prod.fst).Nodup)
    (many : fields.length = others.length) (same : sameFields fields others) :
    (key ∉ fields.map Prod.fst ∧ fieldOf fields key = .undefined ∧ fieldOf others key = .undefined) ∨
      ((key, fieldOf fields key) ∈ fields ∧ (key, fieldOf others key) ∈ others ∧ sameJson (fieldOf fields key) (fieldOf others key)) := by
  have keys := sameFields_keys first many same
  have each : ∀ (fields : List (String × JsValue)), sameFields fields others → ∀ value, (key, value) ∈ fields →
      ∃ other, (key, other) ∈ others ∧ sameJson value other := by
    intro fields
    induction fields with
    | nil => exact fun _ _ listed => absurd listed List.not_mem_nil
    | cons field rest ih =>
      intro same value listed
      obtain ⟨name, value'⟩ := field
      rw [sameFields] at same
      rcases List.mem_cons.mp listed with head | later
      · cases head
        exact same.1
      · exact ih same.2 value later
  by_cases there : key ∈ fields.map Prod.fst
  · obtain ⟨field, listed, rfl⟩ := List.mem_map.mp there
    have found : fields.lookup field.1 = some field.2 := lookup_of_mem first listed
    obtain ⟨other, listed', same'⟩ := each fields same field.2 listed
    have found' := lookup_of_mem second listed'
    right
    simp only [fieldOf, found, found', Option.getD_some]
    exact ⟨listed, listed', same'⟩
  · have absent : key ∉ others.map Prod.fst := fun listed => there (keys.mem_iff.mpr listed)
    left
    rw [fieldOf, fieldOf, lookup_none.mpr there, lookup_none.mpr absent]
    exact ⟨there, rfl, rfl⟩

end Lookups

section Copies

theorem isUndefined_eq {value : JsValue} (undefined : value.isUndefined = true) : value = .undefined := by
  cases value with
  | undefined => rfl
  | _ => cases undefined

theorem isNull_eq {value : JsValue} (null : value.isNull = true) : value = .null := by
  cases value with
  | null => rfl
  | _ => cases null

/-- What `validError` asks of an object. -/
theorem validError_iff (fields : List (String × JsValue)) : validError (.object fields) = true ↔
    (∀ field ∈ fields, field.1 ∈ errorKeys) ∧ (fieldOf fields "name").isString = true ∧ (fieldOf fields "message").isString = true ∧
      validCauses fields = true := by
  simp only [validError, Bool.and_eq_true, List.all_eq_true, List.contains_iff_mem, and_assoc]

theorem isString_stored {value : JsValue} (text : value.isString = true) : value.stored.isString = true := by
  cases value with
  | string text => rfl
  | _ => cases text

mutual

/-- The copy of a recorded error in the log is a recorded error. -/
theorem validError_stored (value : JsValue) (formed : value.WellFormed) (valid : validError value = true) :
    validError value.stored = true := by
  cases value with
  | object fields =>
    obtain ⟨known, name, message, causes⟩ := (validError_iff fields).mp valid
    have copied : (JsValue.object fields).stored = .object (jsonFields fields) := by
      rw [JsValue.stored, JsValue.jsonCopy, Option.getD_some]
    rw [copied, validError_iff]
    refine ⟨?_, ?_, ?_, validCauses_stored fields formed.2 causes⟩
    · intro field listed
      have kept := (jsonFields_keys fields).subset (List.mem_map.mpr ⟨field, listed, rfl⟩)
      obtain ⟨before, there, same⟩ := List.mem_map.mp kept
      exact same ▸ known before there
    · rw [fieldOf_jsonFields formed.1]
      exact isString_stored name
    · rw [fieldOf_jsonFields formed.1]
      exact isString_stored message
  | _ => cases valid

theorem validCauses_stored (fields : List (String × JsValue)) (formed : FieldsWellFormed fields) (valid : validCauses fields = true) :
    validCauses (jsonFields fields) = true := by
  cases fields with
  | nil => rfl
  | cons field rest =>
    obtain ⟨key, value⟩ := field
    rw [validCauses, Bool.and_eq_true] at valid
    have later := validCauses_stored rest formed.2 valid.2
    rw [jsonFields]
    cases copied : value.jsonCopy with
    | none => exact later
    | some copy =>
      rw [validCauses, later, Bool.and_true]
      by_cases cause : key = "cause"
      · have stays : value.isUndefined = true ∨ validError value = true := by
          simpa [cause] using valid.1
        rcases stays with undefined | own
        · rw [isUndefined_eq undefined] at copied
          simp [JsValue.jsonCopy] at copied
        · have same := validError_stored value formed.1 own
          rw [JsValue.stored, copied, Option.getD_some] at same
          rw [same, Bool.or_true]
      · simp [cause]

end

variable {isDatetime : String → Bool}

@[simp] theorem stored_string (text : String) : (JsValue.string text).stored = .string text := by
  simp only [JsValue.stored, JsValue.jsonCopy, Option.getD_some]

@[simp] theorem stored_bool (value : Bool) : (JsValue.bool value).stored = .bool value := by
  simp only [JsValue.stored, JsValue.jsonCopy, Option.getD_some]

@[simp] theorem stored_finite (value : Rat) : (JsValue.number (.finite value)).stored = .number (.finite value) := by
  simp only [JsValue.stored, JsValue.jsonCopy, Option.getD_some]

@[simp] theorem stored_negZero : (JsValue.number .negZero).stored = .number (.finite 0) := by
  simp only [JsValue.stored, JsValue.jsonCopy, Option.getD_some]

@[simp] theorem stored_null : JsValue.null.stored = .null := by
  simp only [JsValue.stored, JsValue.jsonCopy, Option.getD_some]

@[simp] theorem stored_undefined : JsValue.undefined.stored = .undefined := by
  simp only [JsValue.stored, JsValue.jsonCopy, Option.getD_none]

/-- A check that accepts a value accepts its copy in the log. -/
theorem accepts_stored (check : FieldSchema) (value : JsValue) (formed : value.WellFormed)
    (accepted : check.accepts isDatetime value = true) : check.accepts isDatetime value.stored = true := by
  induction check with
  | unknown => simp only [FieldSchema.accepts]
  | string => exact isString_stored accepted
  | recordedError =>
    simp only [FieldSchema.accepts] at accepted ⊢
    exact validError_stored value formed accepted
  | nullable inner ih =>
    simp only [FieldSchema.accepts, Bool.or_eq_true] at accepted ⊢
    rcases accepted with null | own
    · left
      rw [isNull_eq null, stored_null]
      rfl
    · exact .inr (ih own)
  | optional inner ih =>
    simp only [FieldSchema.accepts, Bool.or_eq_true] at accepted ⊢
    rcases accepted with missing | own
    · left
      rw [isUndefined_eq missing, stored_undefined]
      rfl
    · exact .inr (ih own)
  | nonEmptyString | oneOf | isoDatetime =>
    cases value with
    | string text => rwa [stored_string]
    | _ => simp [FieldSchema.accepts] at accepted
  | boolean =>
    cases value with
    | bool value => rwa [stored_bool]
    | _ => simp [FieldSchema.accepts] at accepted
  | number | positiveNumber | positiveInteger =>
    cases value with
    | number number =>
      cases number with
      | finite value => rwa [stored_finite]
      | negZero =>
        first | (simp [FieldSchema.accepts] at accepted; done) | simp [FieldSchema.accepts]
      | _ => simp [FieldSchema.accepts] at accepted
    | _ => simp [FieldSchema.accepts] at accepted
  | nonNegativeInteger =>
    cases value with
    | number number =>
      cases number with
      | finite value => rwa [stored_finite]
      | negZero =>
        rw [stored_negZero]
        exact decide_eq_true ⟨rfl, le_refl _, by norm_num [maxSafeInteger]⟩
      | _ => simp [FieldSchema.accepts] at accepted
    | _ => simp [FieldSchema.accepts] at accepted

/-- What the check of an event asks. -/
theorem eventAccepts_iff (schema : EventSchema) (fields : List (String × JsValue)) : schema.accepts isDatetime fields = true ↔
    fieldOf fields "type" = .string schema.type ∧ (∀ field ∈ fields, field.1 = "type" ∨ field.1 ∈ schema.fields.map Prod.fst) ∧
      ∀ check ∈ schema.fields, check.2.accepts isDatetime (fieldOf fields check.1) = true := by
  have typed : (match fieldOf fields "type" with
      | .string type => type == schema.type
      | _ => false) = true ↔ fieldOf fields "type" = .string schema.type := by
    cases fieldOf fields "type" <;> simp
  simp only [EventSchema.accepts, Bool.and_eq_true, typed, List.all_eq_true, Bool.or_eq_true, beq_iff_eq, List.contains_iff_mem, and_assoc]

theorem fieldOf_formed {fields : List (String × JsValue)} (formed : FieldsWellFormed fields) (key : String) :
    (fieldOf fields key).WellFormed := by
  induction fields with
  | nil =>
    change JsValue.undefined.WellFormed
    simp only [JsValue.WellFormed]
  | cons field rest ih =>
    obtain ⟨name, value⟩ := field
    rw [fieldOf, List.lookup_cons]
    cases key == name with
    | true => exact formed.1
    | false => exact ih formed.2

/-- The copy of an event in the log is an event. -/
theorem validEvent_copy {event copy : JsValue} (valid : ValidEvent isDatetime event) (formed : event.WellFormed)
    (copied : event.jsonCopy = some copy) : ValidEvent isDatetime copy := by
  obtain ⟨schema, listed, fields, rfl, accepted⟩ := valid
  simp only [JsValue.jsonCopy, Option.some.injEq] at copied
  refine ⟨schema, listed, jsonFields fields, copied.symm, ?_⟩
  obtain ⟨typed, known, checked⟩ := (eventAccepts_iff schema fields).mp accepted
  rw [eventAccepts_iff]
  refine ⟨?_, ?_, ?_⟩
  · rw [fieldOf_jsonFields formed.1, typed, stored_string]
  · intro field there
    have kept := (jsonFields_keys fields).subset (List.mem_map.mpr ⟨field, there, rfl⟩)
    obtain ⟨before, there', same⟩ := List.mem_map.mp kept
    exact same ▸ known before there'
  · intro check there
    rw [fieldOf_jsonFields formed.1]
    exact accepts_stored check.2 _ (fieldOf_formed formed.2 check.1) (checked check there)

end Copies

section Orders

mutual

/-- A recorded error stays one when its keys come in another order. -/
theorem validError_same (one two : JsValue) (first : one.IsJson) (second : two.IsJson) (same : sameJson one two)
    (valid : validError one = true) : validError two = true := by
  cases one with
  | object fields =>
    rw [sameJson] at same
    obtain ⟨others, rfl, many, same⟩ := same
    obtain ⟨known, name, message, causes⟩ := (validError_iff fields).mp valid
    have keys := sameFields_keys first.1 many same
    have text : ∀ key, (fieldOf fields key).isString = true → (fieldOf others key).isString = true := by
      intro key text
      rcases fieldOf_same key first.1 second.1 many same with ⟨-, missing, -⟩ | ⟨-, -, equal⟩
      · rw [missing] at text
        cases text
      · cases value : fieldOf fields key with
        | string text =>
          rw [value] at equal
          simp only [sameJson] at equal
          rw [← equal]
          rfl
        | _ =>
          rw [value] at text
          cases text
    rw [validError_iff]
    refine ⟨?_, text "name" name, text "message" message, ?_⟩
    · intro field listed
      obtain ⟨before, there, same⟩ := List.mem_map.mp (keys.mem_iff.mpr (List.mem_map.mpr ⟨field, listed, rfl⟩))
      exact same ▸ known before there
    · have valid := validCauses_same fields others first.2 second.2 same second.1 causes
      have each : ∀ (others' : List (String × JsValue)), (∀ other, ("cause", other) ∈ others' → validError other = true) →
          validCauses others' = true := by
        intro others'
        induction others' with
        | nil => exact fun _ => rfl
        | cons field rest ih =>
          intro all
          obtain ⟨key, value⟩ := field
          rw [validCauses, ih fun other listed => all other (List.mem_cons_of_mem _ listed), Bool.and_true]
          by_cases cause : key = "cause"
          · rw [all value (cause ▸ List.mem_cons_self), Bool.or_true]
          · simp [cause]
      apply each
      intro other listed
      have there : "cause" ∈ fields.map Prod.fst := keys.mem_iff.mpr (List.mem_map.mpr ⟨_, listed, rfl⟩)
      exact valid there other listed
  | _ => cases valid

theorem validCauses_same (fields others : List (String × JsValue)) (first : FieldsJson fields) (second : FieldsJson others)
    (same : sameFields fields others) (distinct : (others.map Prod.fst).Nodup) (valid : validCauses fields = true)
    (there : "cause" ∈ fields.map Prod.fst) : ∀ other, ("cause", other) ∈ others → validError other = true := by
  cases fields with
  | nil => cases there
  | cons field rest =>
    obtain ⟨key, value⟩ := field
    rw [validCauses, Bool.and_eq_true] at valid
    rw [sameFields] at same
    obtain ⟨⟨other, listed, equal⟩, later⟩ := same
    by_cases cause : key = "cause"
    · subst cause
      intro other' listed'
      have unique : other' = other := by
        have found := lookup_of_mem distinct listed
        rw [lookup_of_mem distinct listed'] at found
        exact Option.some.inj found
      rw [unique]
      apply validError_same value other first.1 (fieldsJson_iff.mp second _ listed) equal
      have stays : value.isUndefined = true ∨ validError value = true := by
        simpa using valid.1
      apply stays.resolve_left
      intro undefined
      rw [isUndefined_eq undefined] at first
      exact first.1.elim
    · rw [List.map_cons, List.mem_cons] at there
      exact validCauses_same rest others first.2 second later distinct valid.2 (there.resolve_left fun same => cause same.symm)

end

variable {isDatetime : String → Bool}

/-- A check does not depend on the order of keys. -/
theorem accepts_same (check : FieldSchema) {one two : JsValue} (first : one.IsJson) (second : two.IsJson) (same : sameJson one two)
    (accepted : check.accepts isDatetime one = true) : check.accepts isDatetime two = true := by
  induction check with
  | unknown => simp only [FieldSchema.accepts]
  | recordedError =>
    simp only [FieldSchema.accepts] at accepted ⊢
    exact validError_same one two first second same accepted
  | nullable inner ih =>
    simp only [FieldSchema.accepts, Bool.or_eq_true] at accepted ⊢
    rcases accepted with null | own
    · left
      rw [isNull_eq null] at same
      simp only [sameJson] at same
      rw [← same]
      rfl
    · exact .inr (ih own)
  | optional inner ih =>
    simp only [FieldSchema.accepts, Bool.or_eq_true] at accepted ⊢
    rcases accepted with missing | own
    · rw [isUndefined_eq missing] at first
      exact first.elim
    · exact .inr (ih own)
  | _ =>
    cases one with
    | array items => simp [FieldSchema.accepts, JsValue.isString] at accepted
    | object fields => simp [FieldSchema.accepts, JsValue.isString] at accepted
    | _ =>
      simp only [sameJson] at same
      rwa [← same]

/-- An event stays one when its keys come in another order. -/
theorem validEvent_same {one two : JsValue} (first : one.IsJson) (second : two.IsJson) (same : sameJson one two)
    (valid : ValidEvent isDatetime one) : ValidEvent isDatetime two := by
  obtain ⟨schema, listed, fields, rfl, accepted⟩ := valid
  rw [sameJson] at same
  obtain ⟨others, rfl, many, same⟩ := same
  refine ⟨schema, listed, others, rfl, ?_⟩
  obtain ⟨typed, known, checked⟩ := (eventAccepts_iff schema fields).mp accepted
  have keys := sameFields_keys first.1 many same
  rw [eventAccepts_iff]
  refine ⟨?_, ?_, ?_⟩
  · rcases fieldOf_same "type" first.1 second.1 many same with ⟨-, missing, -⟩ | ⟨-, -, equal⟩
    · rw [missing] at typed
      cases typed
    · rw [typed] at equal
      simp only [sameJson] at equal
      exact equal.symm
  · intro field there
    obtain ⟨before, there', same⟩ := List.mem_map.mp (keys.mem_iff.mpr (List.mem_map.mpr ⟨field, there, rfl⟩))
    exact same ▸ known before there'
  · intro check there
    have accepts := checked check there
    rcases fieldOf_same check.1 first.1 second.1 many same with ⟨-, missing, missing'⟩ | ⟨listed, listed', equal⟩
    · rw [missing] at accepts
      rwa [missing']
    · exact accepts_same check.2 (fieldsJson_iff.mp first.2 _ listed) (fieldsJson_iff.mp second.2 _ listed') equal accepts

end Orders

section Parses

variable {isDatetime : String → Bool}

theorem strip_undefined : strippedError .undefined = .undefined := by
  simp only [strippedError]

theorem strip_null : strippedError .null = .null := by
  simp only [strippedError]

mutual

theorem strippedError_valid (value : JsValue) (valid : validError value = true) : strippedError value = value := by
  cases value with
  | object fields =>
    obtain ⟨known, -, -, causes⟩ := (validError_iff fields).mp valid
    rw [strippedError, strippedErrorFields_valid fields known causes]
  | _ => cases valid

theorem strippedErrorFields_valid (fields : List (String × JsValue)) (known : ∀ field ∈ fields, field.1 ∈ errorKeys)
    (valid : validCauses fields = true) : strippedErrorFields fields = fields := by
  cases fields with
  | nil => rfl
  | cons field rest =>
    obtain ⟨key, value⟩ := field
    rw [validCauses, Bool.and_eq_true] at valid
    have later := strippedErrorFields_valid rest (fun field listed => known field (List.mem_cons_of_mem _ listed)) valid.2
    rw [strippedErrorFields]
    by_cases cause : key = "cause"
    · have stays : value.isUndefined = true ∨ validError value = true := by
        simpa [cause] using valid.1
      rw [if_pos cause, later]
      rcases stays with undefined | own
      · rw [isUndefined_eq undefined, strip_undefined]
      · rw [strippedError_valid value own]
    · rw [if_neg cause, if_pos (known (key, value) List.mem_cons_self), later]

end

theorem strip_plain (check : FieldSchema) {value : JsValue} (plain : strippedError value = value) : check.strip value = value := by
  induction check with
  | recordedError => exact plain
  | nullable inner ih => exact ih
  | optional inner ih => exact ih
  | _ => rfl

theorem strip_accepted (check : FieldSchema) (value : JsValue) (accepted : check.accepts isDatetime value = true) :
    check.strip value = value := by
  induction check with
  | recordedError => exact strippedError_valid value accepted
  | nullable inner ih =>
    simp only [FieldSchema.accepts, Bool.or_eq_true] at accepted
    rcases accepted with null | own
    · rw [isNull_eq null]
      exact strip_plain inner strip_null
    · exact ih own
  | optional inner ih =>
    simp only [FieldSchema.accepts, Bool.or_eq_true] at accepted
    rcases accepted with missing | own
    · rw [isUndefined_eq missing]
      exact strip_plain inner strip_undefined
    · exact ih own
  | _ => rfl

/-- An accepted event is found by its type. -/
theorem find_schema {schema : EventSchema} (listed : schema ∈ eventSchemas) :
    eventSchemas.find? (fun other => other.type == schema.type) = some schema := by
  have distinct := eventSchemas_distinct
  revert listed distinct
  generalize eventSchemas = schemas
  intro listed distinct
  induction schemas with
  | nil => cases listed
  | cons head rest ih =>
    obtain ⟨new, later⟩ := List.nodup_cons.mp distinct
    rcases List.mem_cons.mp listed with rfl | listed
    · rw [List.find?_cons, beq_self_eq_true]
    · have other : (head.type == schema.type) = false := by
        rw [beq_eq_false_iff_ne]
        intro same
        exact new (same ▸ List.mem_map.mpr ⟨schema, listed, rfl⟩)
      rw [List.find?_cons, other]
      exact ih listed later

/-- The schemas return an event of distinct keys that they accept as it is. -/
theorem workflowEventSchema_valid {event : JsValue} (formed : event.IsJson) (valid : ValidEvent isDatetime event) :
    workflowEventSchema isDatetime event = some event := by
  obtain ⟨schema, listed, fields, rfl, accepted⟩ := valid
  obtain ⟨typed, known, checked⟩ := (eventAccepts_iff schema fields).mp accepted
  have stripped : schema.strip fields = fields := by
    have each : ∀ field ∈ fields, (if field.1 = "type" then some field
        else (schema.fields.lookup field.1).map fun check => (field.1, check.strip field.2)) = some field := by
      intro field there
      by_cases type : field.1 = "type"
      · rw [if_pos type]
      · have kept := (known field there).resolve_left type
        obtain ⟨check, found⟩ : ∃ check, schema.fields.lookup field.1 = some check := by
          cases found : schema.fields.lookup field.1 with
          | some check => exact ⟨check, rfl⟩
          | none => exact absurd kept (lookup_none.mp found)
        have own : fieldOf fields field.1 = field.2 := by
          rw [fieldOf, lookup_of_mem formed.1 there, Option.getD_some]
        have accepts := checked _ (lookup_mem found)
        rw [own] at accepts
        rw [if_neg type, found, Option.map_some, strip_accepted check field.2 accepts]
    rw [EventSchema.strip, List.filterMap_congr each, List.filterMap_some]
  simp only [workflowEventSchema, typed, find_schema listed, stripped, accepted, if_true]

/-- Only the keys of the schema are left. -/
theorem strip_known (schema : EventSchema) (fields : List (String × JsValue)) :
    ∀ field ∈ schema.strip fields, field.1 = "type" ∨ field.1 ∈ schema.fields.map Prod.fst := by
  intro field listed
  obtain ⟨before, -, kept⟩ := List.mem_filterMap.mp listed
  by_cases type : before.1 = "type"
  · rw [if_pos type] at kept
    cases kept
    exact .inl type
  · rw [if_neg type] at kept
    obtain ⟨check, found, rfl⟩ := Option.map_eq_some_iff.mp kept
    exact .inr (List.mem_map.mpr ⟨_, lookup_mem found, rfl⟩)

theorem workflowEventSchema_returns {event parsed : JsValue} (returned : workflowEventSchema isDatetime event = some parsed) :
    ValidEvent isDatetime parsed := by
  unfold workflowEventSchema at returned
  split at returned
  · next fields =>
      split at returned
      · split at returned
        · next schema found =>
            split at returned
            · next accepted =>
                cases returned
                exact ⟨schema, List.mem_of_find?_eq_some found, _, rfl, accepted⟩
            · cases returned
        · cases returned
      · cases returned
  · cases returned

theorem string_formed (text : String) : (JsValue.string text).WellFormed := by
  simp only [JsValue.WellFormed]

theorem strippedErrorFields_keys (fields : List (String × JsValue)) :
    ((strippedErrorFields fields).map Prod.fst).Sublist (fields.map Prod.fst) := by
  induction fields with
  | nil => exact List.Sublist.refl _
  | cons field rest ih =>
    obtain ⟨key, value⟩ := field
    rw [strippedErrorFields]
    split
    · exact ih.cons_cons key
    · split
      · exact ih.cons_cons key
      · exact ih.cons key

mutual

theorem strippedError_formed (value : JsValue) (formed : value.WellFormed) : (strippedError value).WellFormed := by
  cases value with
  | object fields =>
    rw [strippedError]
    exact ⟨(strippedErrorFields_keys fields).nodup formed.1, strippedErrorFields_formed fields formed.2⟩
  | error kind name message own details cause =>
    obtain ⟨-, fields, details', cause'⟩ := formed
    rw [strippedError]
    have keys : ["name", "message", "details", "cause"].Nodup := by decide
    refine ⟨keys, string_formed name, string_formed message, ?_, strippedError_formed cause cause', trivial⟩
    · cases found : own.lookup "details" with
      | none => exact details'
      | some value =>
        have own' := fieldOf_formed fields "details"
        rw [fieldOf, found] at own'
        exact own'
  | _ =>
    simp only [strippedError]
    exact formed

theorem strippedErrorFields_formed (fields : List (String × JsValue)) (formed : FieldsWellFormed fields) :
    FieldsWellFormed (strippedErrorFields fields) := by
  cases fields with
  | nil => exact formed
  | cons field rest =>
    obtain ⟨key, value⟩ := field
    have later := strippedErrorFields_formed rest formed.2
    rw [strippedErrorFields]
    split
    · exact ⟨strippedError_formed value formed.1, later⟩
    · split
      · exact ⟨formed.1, later⟩
      · exact later

end

theorem strip_formed (check : FieldSchema) (value : JsValue) (formed : value.WellFormed) : (check.strip value).WellFormed := by
  induction check with
  | recordedError => exact strippedError_formed value formed
  | nullable inner ih => exact ih
  | optional inner ih => exact ih
  | _ => exact formed

/-- What the schemas return is well-formed. -/
theorem workflowEventSchema_formed {event parsed : JsValue} (formed : event.WellFormed)
    (returned : workflowEventSchema isDatetime event = some parsed) : parsed.WellFormed := by
  have keep : ∀ (schema : EventSchema) (fields : List (String × JsValue)), (fields.map Prod.fst).Nodup → FieldsWellFormed fields →
      ((schema.strip fields).map Prod.fst).Sublist (fields.map Prod.fst) ∧ FieldsWellFormed (schema.strip fields) := by
    intro schema fields
    induction fields with
    | nil => exact fun _ formed => ⟨List.Sublist.refl _, formed⟩
    | cons field rest ih =>
      intro distinct formed
      obtain ⟨keys, later⟩ := ih (List.nodup_cons.mp distinct).2 formed.2
      obtain ⟨key, value⟩ := field
      rw [EventSchema.strip] at keys later ⊢
      rw [List.filterMap_cons]
      by_cases type : key = "type"
      · rw [if_pos type]
        exact ⟨keys.cons_cons key, formed.1, later⟩
      · rw [if_neg type]
        cases schema.fields.lookup key with
        | none => exact ⟨keys.cons key, later⟩
        | some check => exact ⟨keys.cons_cons key, strip_formed check value formed.1, later⟩
  unfold workflowEventSchema at returned
  split at returned
  · next fields =>
      split at returned
      · split at returned
        · next schema found =>
            split at returned
            · cases returned
              obtain ⟨keys, later⟩ := keep schema fields formed.1 formed.2
              exact ⟨keys.nodup formed.1, later⟩
            · cases returned
        · cases returned
      · cases returned
  · cases returned

end Parses

end DurableExecution.Workflow
