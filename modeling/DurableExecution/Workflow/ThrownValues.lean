import DurableExecution.Workflow.Errors
import DurableExecution.Workflow.EventSchemas

/-
This file models everything that a handler can throw, with objects that refer to each other in any way,
and what the error serialisation makes of it. It says which thrown values become an event.
-/

namespace DurableExecution.Workflow

section Heaps

/-- A JavaScript value over a heap of so many objects. -/
inductive Thrown (objects : Nat) where
  | undefined
  | null
  | bool (value : Bool)
  | number (value : JsNumber)
  | bigint (value : Int)
  | string (value : String)
  | symbol (description : String)
  | function (text : Option String)
  | object (ref : Fin objects)

/-- The enumerable own properties of an object, in order. Reading one may throw. -/
abbrev Properties (objects : Nat) := List (String × Option (Thrown objects))

inductive ObjectShape (objects : Nat) where
  | record (fields : Properties objects)
  | array (items : List (Option (Thrown objects)))
  | error (name message stack : Option (Thrown objects)) (own : Properties objects) (cause : Option (Thrown objects))

/-- An object: its shape, what its `toJSON` method answers if it has one, and what `String(object)` answers.
Nothing stands for an exception, such as that of `String` on an object without a prototype. -/
structure HeapObject (objects : Nat) where
  shape : ObjectShape objects
  toJSON : Option (Option (Thrown objects))
  text : Option String

abbrev Heap (objects : Nat) := Fin objects → HeapObject objects

end Heaps

section Serialisation

variable {objects : Nat} (heap : Heap objects)

/-- `JSON.parse(JSON.stringify(value))`: an error where it throws, nothing where it answers `undefined`. The
stack holds the objects that the value is in; a value that a `toJSON` method answered is not asked again. -/
def jsonOf : Nat → List (Fin objects) → Bool → Thrown objects → Except Unit (Option JsValue)
  | _, _, _, .undefined | _, _, _, .symbol _ | _, _, _, .function _ => .ok none
  | _, _, _, .null => .ok (some .null)
  | _, _, _, .bool value => .ok (some (.bool value))
  | _, _, _, .number value => .ok (JsValue.number value).jsonCopy
  | _, _, _, .string value => .ok (some (.string value))
  | _, _, _, .bigint _ => .error ()
  | 0, _, _, .object _ => .error ()
  | fuel + 1, stack, asked, .object ref =>
    match if asked then none else (heap ref).toJSON with
    | some none => .error ()
    | some (some answer) => jsonOf fuel stack true answer
    | none =>
      if ref ∈ stack then .error ()
      else
        let read (property : Option (Thrown objects)) : Except Unit (Option JsValue) :=
          match property with
          | none => .error ()
          | some value => jsonOf fuel (ref :: stack) false value
        let fields (properties : Properties objects) : Except Unit (Option JsValue) := do
          let copies ← properties.mapM fun property => do
            let copy ← read property.2
            pure (copy.map fun copy => (property.1, copy))
          pure (some (.object (copies.filterMap id)))
        match (heap ref).shape with
        | .record properties => fields properties
        | .error _ _ _ own _ => fields own
        | .array items => do
          let copies ← items.mapM read
          pure (some (.array (copies.map fun copy => copy.getD .null)))

/-- Each object on the way down takes at most two units of fuel, and no object is met twice. -/
def jsonFuel (objects : Nat) : Nat := 2 * objects + 2

/-- `JSON.stringify(value)`, as the value that its text stands for. -/
def stringifyThrown (value : Thrown objects) : Except Unit (Option JsValue) := jsonOf heap (jsonFuel objects) [] false value

/-- The wire form of an error, without its stack. -/
inductive SerializedError (objects : Nat) where
  | mk (name message : Thrown objects) (details : Option JsValue) (cause : Option (SerializedError objects))

def reservedErrorKeys : List String := ["name", "message", "stack", "cause"]

/-- `toJsonValue`: a value that cannot be serialised is left out. -/
def toJsonValue (value : Thrown objects) : Option JsValue :=
  match stringifyThrown heap value with
  | .ok copy => copy
  | .error _ => none

/-- `collectDetails`. Reading a property that is not reserved may throw. -/
def detailsOf (own : Properties objects) : Except Unit (Option JsValue) := do
  let details ← (own.filter fun property => !reservedErrorKeys.contains property.1).mapM fun property =>
    match property.2 with
    | none => .error ()
    | some value => .ok ((toJsonValue heap value).map fun copy => (property.1, copy))
  match (details.filterMap id).filter fun field => field.1 != "__proto__" with
  | [] => pure none
  | details => pure (some (.object details))

/-- `toMessage` of a value that is no error. -/
def messageOfThrown : Thrown objects → Except Unit (Thrown objects)
  | .string text => .ok (.string text)
  | value => do
    match ← stringifyThrown heap value with
    | none => pure .undefined
    | some copy => pure (.string copy.jsonText)

/-- What the serialisation reads of an error. -/
structure ErrorParts (objects : Nat) where
  name : Option (Thrown objects)
  message : Option (Thrown objects)
  stack : Option (Thrown objects)
  own : Properties objects
  cause : Option (Thrown objects)

/-- The parts of an error, or nothing for another value. -/
def errorParts : Thrown objects → Option (ErrorParts objects)
  | .object ref =>
    match (heap ref).shape with
    | .error name message stack own cause => some ⟨name, message, stack, own, cause⟩
    | _ => none
  | _ => none

def readProperty (property : Option (Thrown objects)) : Except Unit (Thrown objects) :=
  match property with
  | none => .error ()
  | some value => .ok value

def recordCause (serializeCause : Thrown objects → Except Unit (Option (SerializedError objects))) :
    Thrown objects → Except Unit (Option (SerializedError objects))
  | .undefined => pure none
  | cause => serializeCause cause

/-- One level of `serializeAtDepth`, with what it does to a cause. -/
def serializeLevel (serializeCause : Thrown objects → Except Unit (Option (SerializedError objects))) (reason : Thrown objects) :
    Except Unit (SerializedError objects) :=
  match errorParts heap reason with
  | none => do
    let message ← messageOfThrown heap reason
    pure (.mk (.string "Error") message none none)
  | some parts => do
    let details ← detailsOf heap parts.own
    let cause ← readProperty parts.cause
    let recorded ← recordCause serializeCause cause
    let name ← readProperty parts.name
    let message ← readProperty parts.message
    let _ ← readProperty parts.stack
    pure (.mk name message details recorded)

/-- `serializeAtDepth`, by what the depth limit leaves. -/
def serializeAtDepth : Nat → Thrown objects → Except Unit (SerializedError objects)
  | 0 => serializeLevel heap fun _ => pure none
  | room + 1 => serializeLevel heap fun cause => do
    let inner ← serializeAtDepth room cause
    pure (some inner)

def serializeThrown (reason : Thrown objects) : Except Unit (SerializedError objects) := serializeAtDepth heap maxCauseDepth reason

/-- `String(value)`; nothing where it throws. -/
def textOfThrown : Thrown objects → Option String
  | .undefined => some "undefined"
  | .null => some "null"
  | .bool value => some (if value then "true" else "false")
  | .number value => some value.text
  | .bigint value => some (toString value)
  | .string value => some value
  | .symbol description => some ("Symbol(" ++ description ++ ")")
  | .function text => text
  | .object ref => (heap ref).text

/-- Where a value was thrown. -/
inductive FailurePath where
  | stepHandler
  | compensation
  | workflowHandler

/-- What is recorded of a thrown value. `toError` makes an error of anything a workflow handler throws; that
new error has a name and a message only. -/
def recordThrown (path : FailurePath) (reason : Thrown objects) : Except Unit (SerializedError objects) :=
  match path with
  | .stepHandler | .compensation => serializeThrown heap reason
  | .workflowHandler =>
    match errorParts heap reason with
    | some _ => serializeThrown heap reason
    | none =>
      match textOfThrown heap reason with
      | none => .error ()
      | some text => .ok (.mk (.string "Error") (.string text) none none)

end Serialisation

section Events

variable {objects : Nat}

/-- A value as the schemas see it: they only ask whether it is a string. -/
def Thrown.seen : Thrown objects → JsValue
  | .undefined => .undefined
  | .null => .null
  | .bool value => .bool value
  | .number value => .number value
  | .string value => .string value
  | .bigint _ | .symbol _ | .function _ | .object _ => .object []

def SerializedError.seen : SerializedError objects → JsValue
  | .mk name message details none =>
    .object [("name", name.seen), ("message", message.seen), ("details", details.getD .undefined), ("cause", .undefined)]
  | .mk name message details (some cause) =>
    .object [("name", name.seen), ("message", message.seen), ("details", details.getD .undefined), ("cause", cause.seen)]

/-- What the events of a failure hold beside the error. -/
structure FailureContext where
  stepId : String
  attempt : Nat
  retryAt : Option String
  exhausted : Option Bool
  index : Nat
  named : stepId ≠ ""
  counted : 0 < attempt ∧ attempt ≤ 9007199254740991
  timed : ∀ text ∈ retryAt, text ≠ ""
  indexed : index ≤ 9007199254740991

/-- What `recordFailure` keeps of an error. -/
def SerializedError.brief : SerializedError objects → JsValue
  | .mk name message _ _ => .object [("name", name.seen), ("message", message.seen)]

/-- The events that record a failure. -/
def failureEvents (context : FailureContext) (error : SerializedError objects) : List JsValue :=
  [.object [("type", .string "step_failed"), ("stepId", .string context.stepId), ("error", error.seen),
      ("exhausted", (context.exhausted.map JsValue.bool).getD .undefined)],
    .object [("type", .string "step_attempt_failed"), ("stepId", .string context.stepId),
      ("attempt", .number (.finite context.attempt)), ("error", error.brief),
      ("retryAt", (context.retryAt.map JsValue.string).getD .null)],
    .object [("type", .string "run_failed"), ("error", error.seen)],
    .object [("type", .string "compensation_failed"), ("index", .number (.finite context.index)), ("error", error.seen)]]

/-- `recordedErrorSchema` accepts a value. -/
def acceptsError (value : JsValue) : Bool := validError (strippedError value)

/-- A thrown value becomes an event: its serialisation returns, and the schemas accept the result. -/
def Recorded (isDatetime : String → Bool) (context : FailureContext) (heap : Heap objects) (path : FailurePath) (reason : Thrown objects) :
    Prop :=
  ∃ error, recordThrown heap path reason = .ok error ∧ acceptsError error.seen = true ∧
    ∀ event ∈ failureEvents context error, (workflowEventSchema isDatetime event).isSome = true

/-- A value with a text: a string, or one that `JSON.stringify` answers a text for. -/
def HasText (heap : Heap objects) (reason : Thrown objects) : Prop :=
  (∃ text, reason = .string text) ∨ ∃ copy, stringifyThrown heap reason = .ok (some copy)

/-- What the serialisation needs at one level: an error whose name and message are strings, whose stack and
own properties can be read, and whose cause is fine; or another value with a text. -/
def RecordableLevel (heap : Heap objects) (fine : Thrown objects → Prop) (reason : Thrown objects) : Prop :=
  match errorParts heap reason with
  | none => HasText heap reason
  | some parts =>
    (∃ text, parts.name = some (.string text)) ∧ (∃ text, parts.message = some (.string text)) ∧ parts.stack ≠ none ∧
      (∀ property ∈ parts.own, property.1 ∉ reservedErrorKeys → property.2 ≠ none) ∧
      ∃ cause, parts.cause = some cause ∧ (cause = .undefined ∨ fine cause)

/-- The causes that the depth limit cuts off may be anything. -/
def Recordable (heap : Heap objects) : Nat → Thrown objects → Prop
  | 0 => RecordableLevel heap fun _ => True
  | room + 1 => RecordableLevel heap (Recordable heap room)

/-- What a thrown value has to be at the place where it is thrown. -/
def RecordableAt (heap : Heap objects) (path : FailurePath) (reason : Thrown objects) : Prop :=
  match path with
  | .stepHandler | .compensation => Recordable heap maxCauseDepth reason
  | .workflowHandler =>
    match errorParts heap reason with
    | some _ => Recordable heap maxCauseDepth reason
    | none => textOfThrown heap reason ≠ none

end Events

section Acceptance

variable {objects : Nat}

theorem acceptsError_object (name message details cause : JsValue) :
    acceptsError (.object [("name", name), ("message", message), ("details", details), ("cause", cause)]) = true ↔
      name.isString = true ∧ message.isString = true ∧ ((strippedError cause).isUndefined = true ∨ acceptsError cause = true) := by
  have stripped : strippedError (.object [("name", name), ("message", message), ("details", details), ("cause", cause)]) =
      .object [("name", name), ("message", message), ("details", details), ("cause", strippedError cause)] := by
    simp [strippedError, strippedErrorFields, errorKeys]
  have first : fieldOf [("name", name), ("message", message), ("details", details), ("cause", strippedError cause)] "name" = name := rfl
  have second : fieldOf [("name", name), ("message", message), ("details", details), ("cause", strippedError cause)] "message" = message :=
    rfl
  rw [acceptsError, stripped, validError_iff, first, second]
  simp [errorKeys, validCauses, acceptsError]

theorem strippedError_seen (error : SerializedError objects) : (strippedError error.seen).isUndefined = false := by
  cases error with
  | mk name message details cause =>
    cases cause <;> rw [SerializedError.seen, strippedError] <;> rfl

theorem isString_seen {value : Thrown objects} : value.seen.isString = true ↔ ∃ text, value = .string text := by
  cases value <;> simp [Thrown.seen, JsValue.isString]

/-- The schemas accept an error whose name and message are strings and whose cause they accept. -/
theorem acceptsError_last (name message : Thrown objects) (details : Option JsValue) :
    acceptsError (SerializedError.mk name message details none).seen = true ↔
      (∃ text, name = .string text) ∧ ∃ text, message = .string text := by
  rw [SerializedError.seen, acceptsError_object, isString_seen, isString_seen, strip_undefined]
  exact and_congr_right fun _ => and_iff_left (.inl rfl)

theorem acceptsError_next (name message : Thrown objects) (details : Option JsValue) (cause : SerializedError objects) :
    acceptsError (SerializedError.mk name message details (some cause)).seen = true ↔
      (∃ text, name = .string text) ∧ (∃ text, message = .string text) ∧ acceptsError cause.seen = true := by
  rw [SerializedError.seen, acceptsError_object, isString_seen, isString_seen, strippedError_seen, or_iff_right Bool.false_ne_true]

/-- The schemas accept an error whose name and message are strings and whose cause, if any, they accept. -/
theorem acceptsError_seen (name message : Thrown objects) (details : Option JsValue) (cause : Option (SerializedError objects)) :
    acceptsError (SerializedError.mk name message details cause).seen = true ↔
      (∃ text, name = .string text) ∧ (∃ text, message = .string text) ∧ ∀ inner ∈ cause, acceptsError inner.seen = true := by
  cases cause with
  | none => rw [acceptsError_last]; simp
  | some inner => rw [acceptsError_next]; simp

/-- What `recordFailure` keeps of an accepted error is accepted. -/
theorem acceptsError_brief {error : SerializedError objects} (accepted : acceptsError error.seen = true) :
    acceptsError error.brief = true := by
  cases error with
  | mk name message details cause =>
    obtain ⟨⟨first, rfl⟩, ⟨second, rfl⟩, -⟩ := (acceptsError_seen _ _ _ _).mp accepted
    rfl

variable {isDatetime : String → Bool}

theorem schema_accepts {schema : EventSchema} (listed : schema ∈ eventSchemas) {fields : List (String × JsValue)}
    (typed : fieldOf fields "type" = .string schema.type) (accepted : schema.accepts isDatetime (schema.strip fields) = true) :
    (workflowEventSchema isDatetime (.object fields)).isSome = true := by
  simp only [workflowEventSchema, typed, find_schema listed, accepted, if_true, Option.isSome_some]

/-- An accepted error makes accepted events. -/
theorem failureEvents_accepted (context : FailureContext) {error : SerializedError objects} (accepted : acceptsError error.seen = true) :
    ∀ event ∈ failureEvents context error, (workflowEventSchema isDatetime event).isSome = true := by
  have valid : validError (strippedError error.seen) = true := accepted
  have brief : validError (strippedError error.brief) = true := acceptsError_brief accepted
  have named : (context.stepId != "") = true := bne_iff_ne.mpr context.named
  have integer : ∀ number : Nat, number ≤ 9007199254740991 → (number : Rat) ≤ maxSafeInteger := fun number small => by
    rw [maxSafeInteger]
    exact_mod_cast small
  intro event listed
  simp only [failureEvents, List.mem_cons, List.not_mem_nil, or_false] at listed
  rcases listed with rfl | rfl | rfl | rfl
  · have known : stepFailedEventSchema ∈ eventSchemas := by simp [eventSchemas]
    apply schema_accepts known rfl
    have exhausted : (FieldSchema.optional .boolean).accepts isDatetime ((context.exhausted.map JsValue.bool).getD .undefined) = true := by
      cases context.exhausted <;> rfl
    rw [eventAccepts_iff]
    refine ⟨rfl, strip_known _ _, ?_⟩
    · intro check listed
      simp only [stepFailedEventSchema, List.mem_cons, List.not_mem_nil, or_false] at listed
      rcases listed with rfl | rfl | rfl
      · exact named
      · exact valid
      · exact exhausted
  · have known : stepAttemptFailedEventSchema ∈ eventSchemas := by simp [eventSchemas]
    apply schema_accepts known rfl
    have timed : (FieldSchema.nullable .nonEmptyString).accepts isDatetime ((context.retryAt.map JsValue.string).getD .null) = true := by
      cases given : context.retryAt with
      | none => rfl
      | some text => exact bne_iff_ne.mpr (context.timed text given)
    rw [eventAccepts_iff]
    refine ⟨rfl, strip_known _ _, ?_⟩
    · intro check listed
      simp only [stepAttemptFailedEventSchema, List.mem_cons, List.not_mem_nil, or_false] at listed
      rcases listed with rfl | rfl | rfl | rfl
      · exact named
      · refine decide_eq_true ⟨Rat.den_natCast _, ?_, integer _ context.counted.2⟩
        exact_mod_cast context.counted.1
      · exact brief
      · exact timed
  · have known : runFailedEventSchema ∈ eventSchemas := by simp [eventSchemas]
    apply schema_accepts known rfl
    rw [eventAccepts_iff]
    refine ⟨rfl, strip_known _ _, ?_⟩
    · intro check listed
      simp only [runFailedEventSchema, List.mem_cons, List.not_mem_nil, or_false] at listed
      rcases listed with rfl
      exact valid
  · have known : compensationFailedEventSchema ∈ eventSchemas := by simp [eventSchemas]
    apply schema_accepts known rfl
    rw [eventAccepts_iff]
    refine ⟨rfl, strip_known _ _, ?_⟩
    · intro check listed
      simp only [compensationFailedEventSchema, List.mem_cons, List.not_mem_nil, or_false] at listed
      rcases listed with rfl | rfl
      · refine decide_eq_true ⟨Rat.den_natCast _, ?_, integer _ context.indexed⟩
        exact_mod_cast Nat.zero_le _
      · exact valid

end Acceptance

section Fuel

variable {objects : Nat} {heap : Heap objects}

/-- What is below an object that the stack does not hold yet has two units less to go. -/
theorem room_below {stack : List (Fin objects)} (fresh : stack.Nodup) {ref : Fin objects} (outside : ref ∉ stack) :
    2 * (objects - (ref :: stack).length) + 2 = 2 * (objects - stack.length) := by
  have small : (ref :: stack).length ≤ objects := by
    calc (ref :: stack).length ≤ (List.finRange objects).length :=
          (List.nodup_cons.mpr ⟨outside, fresh⟩).length_le_of_subset fun other _ => List.mem_finRange other
      _ = objects := List.length_finRange
  rw [List.length_cons] at small ⊢
  omega

/-- More fuel changes nothing, by induction on the fuel: each object goes on the stack once, after its `toJSON`
method was asked at most once. -/
theorem jsonOf_enough (fuel : Nat) {stack : List (Fin objects)} (fresh : stack.Nodup) (asked : Bool)
    (enough : 2 * (objects - stack.length) + (if asked then 1 else 2) ≤ fuel) (value : Thrown objects) :
    jsonOf heap (fuel + 1) stack asked value = jsonOf heap fuel stack asked value := by
  induction fuel generalizing stack asked value with
  | zero =>
    split at enough <;> omega
  | succ fuel ih =>
    cases value with
    | object ref =>
      have below : ref ∉ stack → jsonOf heap (fuel + 1) (ref :: stack) false = jsonOf heap fuel (ref :: stack) false := by
        intro outside
        funext value
        apply ih (List.nodup_cons.mpr ⟨outside, fresh⟩) false
        have room := room_below fresh outside
        rw [if_neg Bool.false_ne_true, room]
        split at enough <;> omega
      have answered : asked = false → jsonOf heap (fuel + 1) stack true = jsonOf heap fuel stack true := by
        intro first
        funext value
        apply ih fresh true
        rw [first, if_neg Bool.false_ne_true] at enough
        rw [if_pos rfl]
        omega
      rw [jsonOf, jsonOf]
      cases asked with
      | false =>
        rw [answered rfl]
        cases (heap ref).toJSON with
        | some answer => cases answer <;> rfl
        | none =>
          by_cases inside : ref ∈ stack
          · simp only [Bool.false_eq_true, if_false, if_pos inside]
          · simp only [Bool.false_eq_true, if_false, if_neg inside, below inside]
      | true =>
        by_cases inside : ref ∈ stack
        · simp only [if_true, if_pos inside]
        · simp only [if_true, if_neg inside, below inside]
    | _ => rfl

/-- The fuel of `stringifyThrown` never runs out. -/
theorem stringifyThrown_enough (value : Thrown objects) (more : Nat) :
    jsonOf heap (jsonFuel objects + more) [] false value = stringifyThrown heap value := by
  induction more with
  | zero => rfl
  | succ more ih =>
    rw [← ih, ← Nat.add_assoc]
    apply jsonOf_enough _ List.nodup_nil
    rw [jsonFuel, List.length_nil, if_neg Bool.false_ne_true]
    omega

end Fuel

section Records

variable {objects : Nat} {heap : Heap objects}

/-- All answers are there exactly when each is. -/
theorem mapM_ok {A B : Type} {f : A → Except Unit B} {items : List A} :
    (∃ answers, items.mapM f = .ok answers) ↔ ∀ item ∈ items, ∃ answer, f item = .ok answer := by
  induction items with
  | nil => exact iff_of_true ⟨[], rfl⟩ fun _ listed => absurd listed List.not_mem_nil
  | cons item rest ih =>
    rw [List.forall_mem_cons, ← ih, List.mapM_cons]
    constructor
    · rintro ⟨answers, whole⟩
      cases first : f item with
      | error error =>
        rw [first] at whole
        cases whole
      | ok answer =>
        cases later : rest.mapM f with
        | error error =>
          rw [first, later] at whole
          cases whole
        | ok others => exact ⟨⟨answer, rfl⟩, others, rfl⟩
    · rintro ⟨⟨answer, first⟩, others, later⟩
      rw [first, later]
      exact ⟨answer :: others, rfl⟩

/-- The details of an error are collected unless reading a property throws. -/
theorem detailsOf_ok (own : Properties objects) : (∃ details, detailsOf heap own = .ok details) ↔
    ∀ property ∈ own, property.1 ∉ reservedErrorKeys → property.2 ≠ none := by
  have each : ∀ property : String × Option (Thrown objects), (∃ answer, (match property.2 with
      | none => (.error () : Except Unit (Option (String × JsValue)))
      | some value => .ok ((toJsonValue heap value).map fun copy => (property.1, copy))) = .ok answer) ↔ property.2 ≠ none := by
    intro property
    cases property.2 with
    | none => exact iff_of_false (fun ⟨_, same⟩ => nomatch same) fun some' => some' rfl
    | some value => exact iff_of_true ⟨_, rfl⟩ (Option.some_ne_none value)
  have read : (∀ property ∈ own, property.1 ∉ reservedErrorKeys → property.2 ≠ none) ↔
      ∀ property ∈ own.filter fun property => !reservedErrorKeys.contains property.1, property.2 ≠ none := by
    simp only [List.mem_filter, Bool.not_eq_true', List.contains_eq_mem, decide_eq_false_iff_not, and_imp]
  rw [read]
  simp only [← each]
  rw [← mapM_ok]
  unfold detailsOf
  constructor
  · rintro ⟨details, whole⟩
    cases collected : (own.filter fun property => !reservedErrorKeys.contains property.1).mapM fun property =>
        match property.2 with
        | none => (.error () : Except Unit (Option (String × JsValue)))
        | some value => .ok ((toJsonValue heap value).map fun copy => (property.1, copy)) with
    | error error =>
      rw [collected] at whole
      cases whole
    | ok answers => exact ⟨answers, rfl⟩
  · rintro ⟨answers, collected⟩
    rw [collected]
    change ∃ details, (match (answers.filterMap id).filter fun field => field.1 != "__proto__" with
      | [] => pure none
      | details => pure (some (.object details)) : Except Unit (Option JsValue)) = .ok details
    split
    · exact ⟨_, rfl⟩
    · exact ⟨_, rfl⟩

/-- A value that is no error has a message exactly when it has a text. -/
theorem messageOfThrown_text (reason : Thrown objects) :
    (∃ text, messageOfThrown heap reason = .ok (.string text)) ↔ HasText heap reason := by
  by_cases string : ∃ text, reason = .string text
  · obtain ⟨text, rfl⟩ := string
    exact iff_of_true ⟨text, rfl⟩ (.inl ⟨text, rfl⟩)
  · have whole : messageOfThrown heap reason = (do
        match ← stringifyThrown heap reason with
        | none => pure .undefined
        | some copy => pure (.string copy.jsonText)) := by
      rw [messageOfThrown]
      exact fun text same => string ⟨text, same⟩
    rw [whole, HasText, or_iff_right string]
    cases stringifyThrown heap reason with
    | error error => exact iff_of_false (fun ⟨_, same⟩ => nomatch same) fun ⟨_, same⟩ => nomatch same
    | ok copy =>
      cases copy with
      | none => exact iff_of_false (fun ⟨_, same⟩ => nomatch same) fun ⟨_, same⟩ => nomatch same
      | some copy => exact iff_of_true ⟨_, rfl⟩ ⟨copy, rfl⟩

theorem readProperty_ok {property : Option (Thrown objects)} {value : Thrown objects} :
    readProperty property = .ok value ↔ property = some value := by
  cases property with
  | none => exact iff_of_false (fun same => nomatch same) fun same => nomatch same
  | some other =>
    show Except.ok other = .ok value ↔ some other = some value
    rw [Except.ok.injEq, Option.some.injEq]

/-- A computation that goes on answers when both of its parts do. -/
theorem bind_ok {A B : Type} {first : Except Unit A} {next : A → Except Unit B} {answer : B} :
    (first >>= next) = .ok answer ↔ ∃ value, first = .ok value ∧ next value = .ok answer := by
  cases first with
  | error error => exact iff_of_false (fun same => nomatch same) fun ⟨_, same, _⟩ => nomatch same
  | ok value => exact ⟨fun same => ⟨value, rfl, same⟩, fun ⟨_, same, whole⟩ => by cases same; exact whole⟩

theorem recordCause_present {cause : Thrown objects} (present : cause ≠ .undefined)
    (serializeCause : Thrown objects → Except Unit (Option (SerializedError objects))) :
    recordCause serializeCause cause = serializeCause cause := by
  cases cause with
  | undefined => exact absurd rfl present
  | _ => rfl

theorem serialize_other {reason : Thrown objects} (other : errorParts heap reason = none)
    (serializeCause : Thrown objects → Except Unit (Option (SerializedError objects))) :
    (∃ error, serializeLevel heap serializeCause reason = .ok error ∧ acceptsError error.seen = true) ↔ HasText heap reason := by
  have whole : serializeLevel heap serializeCause reason = (do
      let message ← messageOfThrown heap reason
      pure (.mk (.string "Error") message none none)) := by
    rw [serializeLevel, other]
  rw [whole, ← messageOfThrown_text]
  constructor
  · rintro ⟨error, same, accepted⟩
    obtain ⟨message, found, same⟩ := bind_ok.mp same
    cases same
    obtain ⟨-, text, rfl⟩ := (acceptsError_last _ _ _).mp accepted
    exact ⟨text, found⟩
  · rintro ⟨text, found⟩
    exact ⟨_, bind_ok.mpr ⟨_, found, rfl⟩, (acceptsError_last _ _ _).mpr ⟨⟨_, rfl⟩, text, rfl⟩⟩

/-- One level of the serialisation makes an accepted error exactly for what it needs. -/
theorem serializeLevel_iff {serializeCause : Thrown objects → Except Unit (Option (SerializedError objects))} {fine : Thrown objects → Prop}
    (causes : ∀ cause, (∃ recorded, serializeCause cause = .ok recorded ∧ ∀ inner ∈ recorded, acceptsError inner.seen = true) ↔
      fine cause) (reason : Thrown objects) :
    (∃ error, serializeLevel heap serializeCause reason = .ok error ∧ acceptsError error.seen = true) ↔
      RecordableLevel heap fine reason := by
  cases found : errorParts heap reason with
  | none =>
    rw [serialize_other found, RecordableLevel, found]
  | some parts =>
    rw [serializeLevel, RecordableLevel, found]
    show (∃ error, _ = Except.ok error ∧ _) ↔ (_ ∧ _ ∧ _ ∧ _ ∧ _)
    rw [← detailsOf_ok]
    constructor
    · rintro ⟨error, whole, accepted⟩
      obtain ⟨details, collected, whole⟩ := bind_ok.mp whole
      obtain ⟨cause, caused, whole⟩ := bind_ok.mp whole
      obtain ⟨recorded, below, whole⟩ := bind_ok.mp whole
      obtain ⟨name, named, whole⟩ := bind_ok.mp whole
      obtain ⟨message, said, whole⟩ := bind_ok.mp whole
      obtain ⟨stack, traced, whole⟩ := bind_ok.mp whole
      cases whole
      obtain ⟨⟨first, rfl⟩, ⟨second, rfl⟩, fineBelow⟩ := (acceptsError_seen _ _ _ _).mp accepted
      refine ⟨⟨first, readProperty_ok.mp named⟩, ⟨second, readProperty_ok.mp said⟩, ?_, ⟨details, collected⟩, cause,
        readProperty_ok.mp caused, ?_⟩
      · rw [readProperty_ok.mp traced]
        exact Option.some_ne_none stack
      · by_cases absent : cause = .undefined
        · exact .inl absent
        · rw [recordCause_present absent] at below
          exact .inr ((causes cause).mp ⟨recorded, below, fineBelow⟩)
    · rintro ⟨⟨first, named⟩, ⟨second, said⟩, traced, ⟨details, collected⟩, cause, caused, fineBelow⟩
      obtain ⟨stack, traced⟩ := Option.ne_none_iff_exists'.mp traced
      obtain ⟨recorded, below, accepted⟩ : ∃ recorded,
          recordCause serializeCause cause = .ok recorded ∧ ∀ inner ∈ recorded, acceptsError inner.seen = true := by
        by_cases absent : cause = .undefined
        · rw [absent]
          exact ⟨none, rfl, fun _ listed => nomatch listed⟩
        · rw [recordCause_present absent]
          exact (causes cause).mpr (fineBelow.resolve_left absent)
      refine ⟨_, bind_ok.mpr ⟨details, collected, bind_ok.mpr ⟨cause, readProperty_ok.mpr caused, bind_ok.mpr ⟨recorded, below,
        bind_ok.mpr ⟨_, readProperty_ok.mpr named, bind_ok.mpr ⟨_, readProperty_ok.mpr said,
          bind_ok.mpr ⟨stack, readProperty_ok.mpr traced, rfl⟩⟩⟩⟩⟩⟩, ?_⟩
      exact (acceptsError_seen _ _ _ _).mpr ⟨⟨first, rfl⟩, ⟨second, rfl⟩, accepted⟩

/-- The whole serialisation, by induction on what the depth limit leaves. -/
theorem serializeAtDepth_iff (room : Nat) (reason : Thrown objects) :
    (∃ error, serializeAtDepth heap room reason = .ok error ∧ acceptsError error.seen = true) ↔ Recordable heap room reason := by
  induction room generalizing reason with
  | zero =>
    apply serializeLevel_iff
    intro cause
    exact iff_of_true ⟨none, rfl, fun _ listed => nomatch listed⟩ trivial
  | succ room ih =>
    apply serializeLevel_iff
    intro cause
    rw [← ih cause]
    constructor
    · rintro ⟨recorded, whole, accepted⟩
      obtain ⟨inner, below, whole⟩ := bind_ok.mp whole
      cases whole
      exact ⟨inner, below, accepted inner rfl⟩
    · rintro ⟨inner, below, accepted⟩
      refine ⟨some inner, bind_ok.mpr ⟨inner, below, rfl⟩, ?_⟩
      intro other same
      cases same
      exact accepted

theorem recordThrown_iff (path : FailurePath) (reason : Thrown objects) :
    (∃ error, recordThrown heap path reason = .ok error ∧ acceptsError error.seen = true) ↔ RecordableAt heap path reason := by
  cases path with
  | stepHandler => exact serializeAtDepth_iff maxCauseDepth reason
  | compensation => exact serializeAtDepth_iff maxCauseDepth reason
  | workflowHandler =>
    rw [recordThrown, RecordableAt]
    cases errorParts heap reason with
    | some parts => exact serializeAtDepth_iff maxCauseDepth reason
    | none =>
      cases textOfThrown heap reason with
      | none => exact iff_of_false (fun ⟨_, same, _⟩ => nomatch same) fun some' => some' rfl
      | some text =>
        apply iff_of_true _ (Option.some_ne_none text)
        exact ⟨_, rfl, (acceptsError_seen _ _ _ _).mpr ⟨⟨_, rfl⟩, ⟨text, rfl⟩, fun _ listed => nomatch listed⟩⟩

/-- A thrown value becomes an event exactly when the serialisation can make one of it. -/
theorem thrown_recorded_iff (isDatetime : String → Bool) (context : FailureContext) (heap : Heap objects) (path : FailurePath)
    (reason : Thrown objects) : Recorded isDatetime context heap path reason ↔ RecordableAt heap path reason := by
  rw [← recordThrown_iff, Recorded]
  constructor
  · rintro ⟨error, recorded, accepted, -⟩
    exact ⟨error, recorded, accepted⟩
  · rintro ⟨error, recorded, accepted⟩
    exact ⟨error, recorded, accepted, failureEvents_accepted context accepted⟩

/-- A bigint that a step handler throws has no text, and the serialisation throws in turn. -/
theorem bigint_lost : ¬ ∀ (isDatetime : String → Bool) (context : FailureContext) (objects : Nat) (heap : Heap objects)
    (path : FailurePath) (reason : Thrown objects), Recorded isDatetime context heap path reason := by
  intro always
  obtain ⟨error, recorded, -⟩ := always (fun _ => true)
    ⟨"charge", 1, none, none, 0, by decide, by decide, (fun _ listed => nomatch listed), by decide⟩ 0 (fun ref => ref.elim0)
    .stepHandler (.bigint 10)
  cases recorded

end Records

end DurableExecution.Workflow
