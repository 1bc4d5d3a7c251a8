import DurableExecution.Workflow.EventSchemas

/-
This file models the codecs of the event store, the `jsonb` column that holds what they encode, and the
append and the read of one run's log through both.
-/

namespace DurableExecution.Engine

open Workflow

section Codecs

/-- `gzipSync` followed by base64, and the way back. Base64 text of gzip begins with the magic number,
and nothing is lost. -/
structure Gzip where
  compress : String → String
  decompress : String → Option String
  magic : ∀ text, ∃ rest, compress text = "H4sI" ++ rest
  lossless : ∀ text, decompress (compress text) = some text

/-- The codecs that can be built from the exported ones. -/
inductive Codec where
  | json
  | sizeLimited (codec : Codec) (maxBytes : Nat)
  | gzip (codec : Codec)

structure PayloadTooLargeError where
  actualBytes : Nat
  maxBytes : Nat

/-- `codec.encode(event)` of an event, whose JSON text exists because it is an object. -/
def Codec.encode (zip : Gzip) : Codec → JsValue → Except PayloadTooLargeError String
  | .json, value => .ok (value.stringify.getD "undefined")
  | .sizeLimited codec maxBytes, value =>
    match codec.encode zip value with
    | .error error => .error error
    | .ok encoded => if maxBytes < encoded.utf8ByteSize then .error ⟨encoded.utf8ByteSize, maxBytes⟩ else .ok encoded
  | .gzip codec, value =>
    match codec.encode zip value with
    | .error error => .error error
    | .ok encoded => .ok (zip.compress encoded)

/-- `codec.decode(raw)`; nothing where it throws. -/
def Codec.decode (zip : Gzip) : Codec → String → Option JsValue
  | .json, raw => parseJson raw
  | .sizeLimited codec _, raw => codec.decode zip raw
  | .gzip codec, raw => (zip.decompress raw).bind (codec.decode zip)

/-- Some layer of the codec compresses. -/
def Codec.compresses : Codec → Bool
  | .json => false
  | .sizeLimited codec _ => codec.compresses
  | .gzip _ => true

/-- An event is larger than a limit of the codec. -/
def Codec.TooLarge (zip : Gzip) (codec : Codec) (event : JsValue) : Prop := ∃ error, codec.encode zip event = .error error

end Codecs

section Columns

mutual

/-- A string of the value holds the character that `jsonb` has no form for. -/
def hasNul : JsValue → Bool
  | .string text => text.toList.contains '\x00'
  | .array items => itemsHaveNul items
  | .object fields => fieldsHaveNul fields
  | _ => false

def itemsHaveNul : List JsValue → Bool
  | [] => false
  | item :: rest => hasNul item || itemsHaveNul rest

def fieldsHaveNul : List (String × JsValue) → Bool
  | [] => false
  | (key, value) :: rest => key.toList.contains '\x00' || hasNul value || fieldsHaveNul rest

end

/-- `jsonb` keeps the keys of an object by their length, and then by their bytes. -/
def jsonbKeyBefore (one two : String × JsValue) : Bool :=
  decide (one.1.utf8ByteSize < two.1.utf8ByteSize) || one.1.utf8ByteSize == two.1.utf8ByteSize && !decide (two.1 < one.1)

mutual

def jsonbOrder : JsValue → JsValue
  | .array items => .array (jsonbItems items)
  | .object fields => .object ((jsonbFields fields).insertionSort fun one two => jsonbKeyBefore one two)
  | value => value

def jsonbItems : List JsValue → List JsValue
  | [] => []
  | item :: rest => jsonbOrder item :: jsonbItems rest

def jsonbFields : List (String × JsValue) → List (String × JsValue)
  | [] => []
  | (key, value) :: rest => (key, jsonbOrder value) :: jsonbFields rest

end

/-- `payload::jsonb`; nothing where the cast fails. -/
def toJsonb (text : String) : Option JsValue :=
  match parseJson text with
  | some value => if hasNul value then none else some (jsonbOrder value)
  | none => none

/-- `payload::text`. -/
def jsonbText (payload : JsValue) : String := payload.spacedText " "

end Columns

section Logs

/-- A row of `run_events` of one run. -/
structure PayloadRow where
  sequenceNumber : Nat
  payload : JsValue

/-- Why `append` rejects. -/
inductive AppendError where
  | invalidEvent
  | concurrency (expectedSeq actualSeq : Nat)
  | payloadTooLarge (error : PayloadTooLargeError)
  | invalidPayload

variable (isDatetime : String → Bool) (zip : Gzip) (codec : Codec)

def currentSequence (log : List PayloadRow) : Nat := (log.map PayloadRow.sequenceNumber).max?.getD 0

/-- The encoding of all events, before the insert. -/
def encodeAll : List JsValue → Except PayloadTooLargeError (List String)
  | [] => .ok []
  | event :: rest =>
    match codec.encode zip event, encodeAll rest with
    | .error error, _ => .error error
    | .ok _, .error error => .error error
    | .ok encoded, .ok others => .ok (encoded :: others)

/-- The rows that an append adds. -/
def addedRows (expectedSeq : Nat) (payloads : List JsValue) : List PayloadRow :=
  (payloads.zipIdx (expectedSeq + 1)).map fun row => ⟨row.2, row.1⟩

/-- `append`: what it returns, and the log after it. A statement that fails leaves no row. -/
def append (expectedSeq : Nat) (events : List JsValue) (log : List PayloadRow) :
    Except AppendError (List JsValue) × List PayloadRow :=
  if events.isEmpty then (.ok [], log)
  else
    match events.mapM (workflowEventSchema isDatetime) with
    | none => (.error .invalidEvent, log)
    | some validatedEvents =>
      if currentSequence log ≠ expectedSeq then (.error (.concurrency expectedSeq (currentSequence log)), log)
      else
        match encodeAll zip codec validatedEvents with
        | .error error => (.error (.payloadTooLarge error), log)
        | .ok encoded =>
          match encoded.mapM toJsonb with
          | none => (.error .invalidPayload, log)
          | some payloads =>
            (.ok validatedEvents, log ++ addedRows expectedSeq payloads)

/-- `read`: the events after a sequence number; nothing where it rejects. -/
def read (fromSeq : Nat) (log : List PayloadRow) : Option (List JsValue) :=
  ((log.filter fun row => fromSeq < row.sequenceNumber).insertionSort fun one two => one.sequenceNumber ≤ two.sequenceNumber).mapM
    fun row => (codec.decode zip (jsonbText row.payload)).bind (workflowEventSchema isDatetime)

end Logs

section Texts

variable {zip : Gzip} {codec : Codec}

/-- Without compression a codec writes the JSON text, and reads JSON text of any size. -/
theorem encode_plain (plain : codec.compresses = false) {event : JsValue} {encoded : String}
    (written : codec.encode zip event = .ok encoded) : encoded = event.stringify.getD "undefined" := by
  induction codec generalizing encoded with
  | json =>
    cases written
    rfl
  | sizeLimited codec maxBytes ih =>
    rw [Codec.encode] at written
    cases inner : codec.encode zip event with
    | error error =>
      rw [inner] at written
      cases written
    | ok text =>
      rw [inner] at written
      dsimp only at written
      split at written
      · cases written
      · cases written
        exact ih plain inner
  | gzip codec ih => cases plain

theorem decode_plain (plain : codec.compresses = false) (raw : String) : codec.decode zip raw = parseJson raw := by
  induction codec with
  | json => rfl
  | sizeLimited codec maxBytes ih => exact ih plain
  | gzip codec ih => cases plain

/-- With compression a codec writes base64 text of gzip. -/
theorem encode_magic (compresses : codec.compresses = true) {event : JsValue} {encoded : String}
    (written : codec.encode zip event = .ok encoded) : ∃ rest, encoded = "H4sI" ++ rest := by
  induction codec generalizing encoded with
  | json => cases compresses
  | sizeLimited codec maxBytes ih =>
    rw [Codec.encode] at written
    cases inner : codec.encode zip event with
    | error error =>
      rw [inner] at written
      cases written
    | ok text =>
      rw [inner] at written
      dsimp only at written
      split at written
      · cases written
      · cases written
        exact ih compresses inner
  | gzip codec ih =>
    rw [Codec.encode] at written
    cases inner : codec.encode zip event with
    | error error =>
      rw [inner] at written
      cases written
    | ok text =>
      rw [inner] at written
      cases written
      exact zip.magic text

/-- Base64 text of gzip is no JSON text. -/
theorem parseJson_magic (rest : String) : parseJson ("H4sI" ++ rest) = none := by
  have head : ("H4sI" ++ rest).toList = 'H' :: ("4sI".toList ++ rest.toList) := by
    rw [String.toList_append]
    rfl
  have whole : parseNumber ('H' :: ("4sI".toList ++ rest.toList)) = none := by
    rw [parseNumber_plain (fun after same => by cases same), parseUnsigned, List.takeWhile_cons_of_neg (by decide)]
    rfl
  rw [parseJson, head, parseValue, skipSpaces_solid (by decide)]
  simp only [Char.reduceEq, if_false, whole, Option.map_none]

end Texts

section Payloads

mutual

/-- The column holds an equal value. -/
theorem sameJson_jsonbOrder (value : JsValue) : sameJson value (jsonbOrder value) := by
  cases value with
  | array items =>
    rw [jsonbOrder, sameJson]
    exact ⟨_, rfl, sameItems_jsonbItems items⟩
  | object fields =>
    rw [jsonbOrder, sameJson]
    refine ⟨_, rfl, ?_, ?_⟩
    · rw [List.length_insertionSort, length_jsonbFields fields]
    · exact sameFields_jsonbFields fields _ fun field listed => (List.mem_insertionSort _).mpr listed
  | _ => simp only [jsonbOrder, sameJson]

theorem sameItems_jsonbItems (items : List JsValue) : sameItems items (jsonbItems items) := by
  cases items with
  | nil => rw [sameItems, jsonbItems]
  | cons item rest =>
    rw [sameItems, jsonbItems]
    exact ⟨_, _, rfl, sameJson_jsonbOrder item, sameItems_jsonbItems rest⟩

theorem length_jsonbFields (fields : List (String × JsValue)) : fields.length = (jsonbFields fields).length := by
  cases fields with
  | nil => rfl
  | cons field rest => exact congrArg (· + 1) (length_jsonbFields rest)

theorem sameFields_jsonbFields (fields others : List (String × JsValue)) (within : ∀ field ∈ jsonbFields fields, field ∈ others) :
    sameFields fields others := by
  cases fields with
  | nil =>
    rw [sameFields]
    trivial
  | cons field rest =>
    obtain ⟨key, value⟩ := field
    rw [jsonbFields] at within
    rw [sameFields]
    exact ⟨⟨jsonbOrder value, within _ List.mem_cons_self, sameJson_jsonbOrder value⟩,
      sameFields_jsonbFields rest others fun field listed => within field (List.mem_cons_of_mem _ listed)⟩

end

theorem jsonbFields_keys (fields : List (String × JsValue)) : (jsonbFields fields).map Prod.fst = fields.map Prod.fst := by
  induction fields with
  | nil => rfl
  | cons field rest ih => rw [jsonbFields, List.map_cons, List.map_cons, ih]

mutual

theorem jsonbOrder_isJson (value : JsValue) (isJson : value.IsJson) : (jsonbOrder value).IsJson := by
  cases value with
  | array items =>
    rw [jsonbOrder]
    exact jsonbItems_isJson items isJson
  | object fields =>
    rw [jsonbOrder]
    refine ⟨?_, fieldsJson_iff.mpr fun field listed => ?_⟩
    · rw [((List.perm_insertionSort _ _).map Prod.fst).nodup_iff, jsonbFields_keys]
      exact isJson.1
    · exact fieldsJson_iff.mp (jsonbFields_isJson fields isJson.2) field ((List.mem_insertionSort _).mp listed)
  | _ =>
    simp only [jsonbOrder]
    exact isJson

theorem jsonbItems_isJson (items : List JsValue) (isJson : ItemsJson items) : ItemsJson (jsonbItems items) := by
  cases items with
  | nil => exact isJson
  | cons item rest => exact ⟨jsonbOrder_isJson item isJson.1, jsonbItems_isJson rest isJson.2⟩

theorem jsonbFields_isJson (fields : List (String × JsValue)) (isJson : FieldsJson fields) : FieldsJson (jsonbFields fields) := by
  cases fields with
  | nil => exact isJson
  | cons field rest => exact ⟨jsonbOrder_isJson field.2 isJson.1, jsonbFields_isJson rest isJson.2⟩

end

theorem toJsonb_text (value : JsValue) (isJson : value.IsJson) :
    toJsonb value.jsonText = if hasNul value then none else some (jsonbOrder value) := by
  rw [toJsonb, parseJson_jsonText value isJson]

theorem parseJson_jsonb (value : JsValue) (isJson : value.IsJson) : parseJson (jsonbText (jsonbOrder value)) = some (jsonbOrder value) := by
  apply parseJson_text
  · intro character listed
    have space : " ".toList = [' '] := rfl
    rw [space, List.mem_singleton] at listed
    rw [listed]
    rfl
  · exact jsonbOrder_isJson value isJson

end Payloads

section Appends

variable {isDatetime : String → Bool} {zip : Gzip} {codec : Codec}

theorem mapM_forall₂ {A B : Type} {f : A → Option B} {items : List A} {answers : List B} :
    items.mapM f = some answers ↔ List.Forall₂ (fun item answer => f item = some answer) items answers := by
  induction items generalizing answers with
  | nil =>
    rw [List.mapM_nil, List.forall₂_nil_left_iff]
    exact ⟨fun same => (Option.some.inj same).symm, fun same => congrArg some same.symm⟩
  | cons item rest ih =>
    rw [List.mapM_cons, List.forall₂_cons_left_iff]
    constructor
    · intro whole
      obtain ⟨answer, first, later⟩ := Option.bind_eq_some_iff.mp whole
      obtain ⟨others, others', same⟩ := Option.bind_eq_some_iff.mp later
      exact ⟨answer, others, first, ih.mp others', (Option.some.inj same).symm⟩
    · rintro ⟨answer, others, first, later, rfl⟩
      rw [first, ih.mpr later]
      rfl

/-- A validated event: its copy in the log is an event of distinct keys. -/
structure Validated (isDatetime : String → Bool) (event copy : JsValue) : Prop where
  copied : event.jsonCopy = some copy
  isJson : copy.IsJson
  valid : ValidEvent isDatetime copy

theorem validated_copy {event parsed : JsValue} (formed : event.WellFormed)
    (returned : workflowEventSchema isDatetime event = some parsed) : Validated isDatetime parsed parsed.stored := by
  have valid := workflowEventSchema_returns returned
  have formed' := workflowEventSchema_formed formed returned
  obtain ⟨copy, copied⟩ : ∃ copy, parsed.jsonCopy = some copy := by
    obtain ⟨schema, -, fields, rfl, -⟩ := valid
    exact ⟨_, by rw [JsValue.jsonCopy]⟩
  rw [JsValue.stored, copied, Option.getD_some]
  exact ⟨copied, jsonCopy_isJson parsed copy formed' copied, validEvent_copy valid formed' copied⟩

theorem encodeAll_error {events : List JsValue} : (∃ error, encodeAll zip codec events = .error error) ↔
    ∃ event ∈ events, codec.TooLarge zip event := by
  induction events with
  | nil => exact iff_of_false (fun ⟨_, same⟩ => nomatch same) fun ⟨_, listed, _⟩ => List.not_mem_nil listed
  | cons event rest ih =>
    rw [List.exists_mem_cons_iff, ← ih, encodeAll, Codec.TooLarge]
    cases codec.encode zip event with
    | error error => exact iff_of_true ⟨error, rfl⟩ (.inl ⟨error, rfl⟩)
    | ok encoded =>
      cases encodeAll zip codec rest with
      | error error => exact iff_of_true ⟨error, rfl⟩ (.inr ⟨error, rfl⟩)
      | ok others =>
        apply iff_of_false
        · exact fun ⟨_, same⟩ => nomatch same
        · rintro (⟨_, same⟩ | ⟨_, same⟩) <;> cases same

theorem encodeAll_ok {events : List JsValue} {encoded : List String} (written : encodeAll zip codec events = .ok encoded) :
    List.Forall₂ (fun event text => codec.encode zip event = .ok text) events encoded := by
  induction events generalizing encoded with
  | nil =>
    cases written
    exact .nil
  | cons event rest ih =>
    rw [encodeAll] at written
    cases first : codec.encode zip event with
    | error error =>
      rw [first] at written
      cases written
    | ok text =>
      cases later : encodeAll zip codec rest with
      | error error =>
        rw [first, later] at written
        cases written
      | ok others =>
        rw [first, later] at written
        cases written
        exact .cons first (ih later)

theorem currentSequence_max {log : List PayloadRow} : ∀ row ∈ log, row.sequenceNumber ≤ currentSequence log := by
  intro row listed
  have number : row.sequenceNumber ∈ log.map PayloadRow.sequenceNumber := List.mem_map.mpr ⟨row, listed, rfl⟩
  unfold currentSequence
  cases most : (log.map PayloadRow.sequenceNumber).max? with
  | none =>
    rw [List.max?_eq_none_iff] at most
    rw [most] at number
    cases number
  | some largest => exact (List.max?_eq_some_iff.mp most).2 _ number

theorem addedRows_sorted (expectedSeq : Nat) (payloads : List JsValue) :
    (addedRows expectedSeq payloads).Pairwise (fun one two => one.sequenceNumber ≤ two.sequenceNumber) ∧
      (∀ row ∈ addedRows expectedSeq payloads, expectedSeq < row.sequenceNumber) ∧
      (addedRows expectedSeq payloads).map PayloadRow.payload = payloads := by
  induction payloads generalizing expectedSeq with
  | nil => exact ⟨List.Pairwise.nil, fun _ listed => absurd listed List.not_mem_nil, rfl⟩
  | cons payload rest ih =>
    have unfolded : addedRows expectedSeq (payload :: rest) = ⟨expectedSeq + 1, payload⟩ :: addedRows (expectedSeq + 1) rest := rfl
    obtain ⟨sorted, later, same⟩ := ih (expectedSeq + 1)
    rw [unfolded]
    refine ⟨List.pairwise_cons.mpr ⟨fun row listed => Nat.le_of_lt (later row listed), sorted⟩, ?_, ?_⟩
    · intro row listed
      rcases List.mem_cons.mp listed with rfl | listed
      · exact Nat.lt_succ_self _
      · exact Nat.lt_of_succ_lt (later row listed)
    · rw [List.map_cons, same]

/-- A read after an append sees the rows that the append added. -/
theorem read_added {log : List PayloadRow} (payloads : List JsValue) :
    read isDatetime zip codec (currentSequence log) (log ++ addedRows (currentSequence log) payloads) =
      payloads.mapM fun payload => (codec.decode zip (jsonbText payload)).bind (workflowEventSchema isDatetime) := by
  obtain ⟨sorted, later, same⟩ := addedRows_sorted (currentSequence log) payloads
  have old : (log.filter fun row => currentSequence log < row.sequenceNumber) = [] := by
    rw [List.filter_eq_nil_iff]
    intro row listed newer
    exact absurd (of_decide_eq_true newer) (Nat.not_lt.mpr (currentSequence_max row listed))
  have new : ((addedRows (currentSequence log) payloads).filter fun row => currentSequence log < row.sequenceNumber) =
      addedRows (currentSequence log) payloads := by
    rw [List.filter_eq_self]
    exact fun row listed => decide_eq_true (later row listed)
  rw [read, List.filter_append, old, new, List.nil_append, List.Pairwise.insertionSort_eq sorted]
  conv_rhs => rw [← same]
  rw [List.mapM_map]
  rfl

/-- An append either rejects because an event is too large and stores nothing, or stores events that a
later read with the same codec returns, equal to their copies. Decoding never rejects for size. -/
def Keeps (isDatetime : String → Bool) (zip : Gzip) (codec : Codec) (events : List JsValue) (log : List PayloadRow) : Prop :=
  ((∃ error, append isDatetime zip codec (currentSequence log) events log = (.error (.payloadTooLarge error), log)) ∨
    ∃ stored later back, append isDatetime zip codec (currentSequence log) events log = (.ok stored, later) ∧
      read isDatetime zip codec (currentSequence log) later = some back ∧
      List.Forall₂ (fun event returned => ∃ copy, event.jsonCopy = some copy ∧ sameJson copy returned) stored back) ∧
  ∀ maxBytes raw, (Codec.sizeLimited codec maxBytes).decode zip raw = codec.decode zip raw

/-- What an append of events that are all encoded does. -/
theorem append_encoded {events validated : List JsValue} {log : List PayloadRow} {encoded : List String} (some' : events ≠ [])
    (valid : events.mapM (workflowEventSchema isDatetime) = some validated) (written : encodeAll zip codec validated = .ok encoded) :
    append isDatetime zip codec (currentSequence log) events log =
      match encoded.mapM toJsonb with
      | none => (.error .invalidPayload, log)
      | some payloads => (.ok validated, log ++ addedRows (currentSequence log) payloads) := by
  have nonempty : events.isEmpty = false := by
    cases events with
    | nil => exact absurd rfl some'
    | cons => rfl
  rw [append, nonempty, valid]
  simp only [Bool.false_eq_true, if_false, ne_eq, not_true, written]

/-- The texts that a codec without compression writes are those of the copies. -/
theorem plain_texts (plain : codec.compresses = false) {validated : List JsValue} {encoded : List String}
    (copies : ∀ event ∈ validated, Validated isDatetime event event.stored)
    (written : List.Forall₂ (fun event text => codec.encode zip event = .ok text) validated encoded) :
    encoded = validated.map fun event => event.stored.jsonText := by
  induction written with
  | nil => rfl
  | @cons event text rest others first later ih =>
    have copied := (copies event List.mem_cons_self).copied
    rw [List.map_cons, ← ih fun event listed => copies event (List.mem_cons_of_mem _ listed), encode_plain plain first,
      JsValue.stringify, copied]
    rfl

/-- The column takes the texts exactly when they hold no U+0000. -/
theorem mapM_toJsonb {validated : List JsValue} (copies : ∀ event ∈ validated, Validated isDatetime event event.stored) :
    (validated.map fun event => event.stored.jsonText).mapM toJsonb =
      if ∀ event ∈ validated, hasNul event.stored = false then some (validated.map fun event => jsonbOrder event.stored) else none := by
  induction validated with
  | nil => rfl
  | cons event rest ih =>
    have later := ih fun event listed => copies event (List.mem_cons_of_mem _ listed)
    rw [List.map_cons, List.mapM_cons, toJsonb_text _ (copies event List.mem_cons_self).isJson, later]
    have split : (∀ other ∈ event :: rest, hasNul other.stored = false) ↔
        hasNul event.stored = false ∧ ∀ other ∈ rest, hasNul other.stored = false := List.forall_mem_cons
    by_cases nul : hasNul event.stored = true
    · have some' : ¬ ∀ other ∈ event :: rest, hasNul other.stored = false := fun all =>
        absurd ((split.mp all).1.symm.trans nul) Bool.false_ne_true
      rw [if_pos nul, if_neg some']
      rfl
    · rw [if_neg nul]
      rw [Bool.not_eq_true] at nul
      by_cases others : ∀ other ∈ rest, hasNul other.stored = false
      · rw [if_pos others, if_pos (split.mpr ⟨nul, others⟩)]
        rfl
      · rw [if_neg others, if_neg fun all => others (split.mp all).2]
        rfl

/-- What was stored is read back, with its keys in the order of the column. -/
theorem read_stored (zip : Gzip) (plain : codec.compresses = false) {validated : List JsValue}
    (copies : ∀ event ∈ validated, Validated isDatetime event event.stored) :
    (validated.map fun event => jsonbOrder event.stored).mapM (fun payload =>
      (codec.decode zip (jsonbText payload)).bind (workflowEventSchema isDatetime)) =
        some (validated.map fun event => jsonbOrder event.stored) ∧
      List.Forall₂ (fun event returned => ∃ copy, event.jsonCopy = some copy ∧ sameJson copy returned) validated
        (validated.map fun event => jsonbOrder event.stored) := by
  induction validated with
  | nil => exact ⟨rfl, .nil⟩
  | cons event rest ih =>
    obtain ⟨copied, isJson, valid⟩ := copies event List.mem_cons_self
    obtain ⟨later, equal⟩ := ih fun event listed => copies event (List.mem_cons_of_mem _ listed)
    have same := sameJson_jsonbOrder event.stored
    have isJson' := jsonbOrder_isJson event.stored isJson
    have parsed : (codec.decode zip (jsonbText (jsonbOrder event.stored))).bind (workflowEventSchema isDatetime) =
        some (jsonbOrder event.stored) := by
      rw [decode_plain plain, parseJson_jsonb event.stored isJson, Option.bind_some]
      exact workflowEventSchema_valid isJson' (validEvent_same isJson isJson' same valid)
    refine ⟨?_, .cons ⟨event.stored, copied, same⟩ equal⟩
    rw [List.map_cons, List.mapM_cons, parsed, later]
    rfl

/-- A codec that compresses writes nothing that the column takes. -/
theorem magic_refused (compresses : codec.compresses = true) {validated : List JsValue} {encoded : List String} (some' : validated ≠ [])
    (written : List.Forall₂ (fun event text => codec.encode zip event = .ok text) validated encoded) : encoded.mapM toJsonb = none := by
  cases written with
  | nil => exact absurd rfl some'
  | cons first later =>
    obtain ⟨rest, rfl⟩ := encode_magic compresses first
    rw [List.mapM_cons, toJsonb, parseJson_magic]
    rfl

theorem refused_unkept {events : List JsValue} {log : List PayloadRow}
    (refused : append isDatetime zip codec (currentSequence log) events log = (.error .invalidPayload, log)) :
    ¬ Keeps isDatetime zip codec events log := by
  rintro ⟨⟨error, large⟩ | ⟨stored, later, back, kept, -⟩, -⟩
  · rw [refused] at large
    cases large
  · rw [refused] at kept
    cases kept

/-- The event store keeps valid events exactly when there are none, when one is too large for the codec,
or when the codec does not compress and no string of theirs holds U+0000. -/
theorem append_keeps_iff (isDatetime : String → Bool) (zip : Gzip) (codec : Codec) (events validated : List JsValue)
    (log : List PayloadRow) (formed : ∀ event ∈ events, event.WellFormed)
    (valid : events.mapM (workflowEventSchema isDatetime) = some validated) : Keeps isDatetime zip codec events log ↔
      events = [] ∨ (∃ event ∈ validated, codec.TooLarge zip event) ∨
        (codec.compresses = false ∧ ∀ event ∈ validated, hasNul event.stored = false) := by
  have each := mapM_forall₂.mp valid
  have copies : ∀ event ∈ validated, Validated isDatetime event event.stored := by
    clear valid
    induction each with
    | nil => exact fun _ listed => absurd listed List.not_mem_nil
    | @cons event parsed rest others first later ih =>
      rw [List.forall_mem_cons]
      exact ⟨validated_copy (formed event List.mem_cons_self) first, ih fun event listed => formed event (List.mem_cons_of_mem _ listed)⟩
  by_cases none' : events = []
  · subst none'
    cases each
    refine iff_of_true ⟨.inr ⟨[], log, [], rfl, ?_, .nil⟩, fun _ _ => rfl⟩ (.inl rfl)
    have same : read isDatetime zip codec (currentSequence log) (log ++ addedRows (currentSequence log) []) = some [] := read_added []
    rwa [addedRows, List.zipIdx_nil, List.map_nil, List.append_nil] at same
  · have some' : validated ≠ [] := by
      rintro rfl
      cases each
      exact none' rfl
    rw [or_iff_right none', ← encodeAll_error]
    cases written : encodeAll zip codec validated with
    | error error =>
      refine iff_of_true ⟨.inl ⟨error, ?_⟩, fun _ _ => rfl⟩ (.inl ⟨error, rfl⟩)
      have nonempty : events.isEmpty = false := by
        cases events with
        | nil => exact absurd rfl none'
        | cons => rfl
      rw [append, nonempty, valid]
      simp only [Bool.false_eq_true, if_false, ne_eq, not_true, written]
    | ok encoded =>
      have texts := encodeAll_ok written
      have whole : append isDatetime zip codec (currentSequence log) events log = _ := append_encoded none' valid written
      rw [or_iff_right fun ⟨_, same⟩ => nomatch same]
      cases compresses : codec.compresses with
      | true =>
        rw [magic_refused compresses some' texts] at whole
        exact iff_of_false (refused_unkept whole) fun both => nomatch both.1
      | false =>
        rw [plain_texts compresses copies texts, mapM_toJsonb copies] at whole
        by_cases clean : ∀ event ∈ validated, hasNul event.stored = false
        · rw [if_pos clean] at whole
          refine iff_of_true ⟨.inr ⟨_, _, _, whole, ?_, (read_stored zip compresses copies).2⟩, fun _ _ => rfl⟩ ⟨rfl, clean⟩
          rw [read_added]
          exact (read_stored zip compresses copies).1
        · rw [if_neg clean] at whole
          exact iff_of_false (refused_unkept whole) fun both => clean both.2

/-- An event, its text, and what gzip makes of that text. -/
def timerFired : JsValue := .object [("type", .string "timer_fired"), ("timerId", .string "timer-0")]

def timerFiredText : String := "\x7b\"type\":\"timer_fired\",\"timerId\":\"timer-0\"\x7d"

def timerFiredGzip : String := "H4sIAAAAAAAAA6tWKqksSFWyUirJzE0tik/LLEpNUdKB8DxTYOK6Bkq1AIdpO1sqAAAA"

/-- A stand-in for gzip with the real answer on that text. -/
def sampleGzip : Gzip where
  compress text := if text = timerFiredText then timerFiredGzip else "H4sI-" ++ text
  decompress raw := if raw = timerFiredGzip then some timerFiredText else some (String.ofList (raw.toList.drop 5))
  magic text := by
    by_cases same : text = timerFiredText
    · rw [if_pos same]
      exact ⟨String.ofList (timerFiredGzip.toList.drop 4), by decide +kernel⟩
    · rw [if_neg same]
      exact ⟨"-" ++ text, by rw [← String.append_assoc]; rfl⟩
  lossless text := by
    by_cases same : text = timerFiredText
    · rw [if_pos same, if_pos rfl, same]
    · have marked : ("H4sI-" ++ text).toList = ['H', '4', 's', 'I', '-'] ++ text.toList := by
        rw [String.toList_append]
        rfl
      have other : "H4sI-" ++ text ≠ timerFiredGzip := by
        intro equal
        have fifth : ("H4sI-" ++ text).toList[4]? = timerFiredGzip.toList[4]? := by rw [equal]
        rw [marked, List.getElem?_append_left (by decide)] at fifth
        exact absurd fifth (by decide +kernel)
      rw [if_neg same, if_neg other, marked]
      exact congrArg some String.ofList_toList

theorem timerFired_formed : ∀ event ∈ [timerFired], event.WellFormed := by
  intro event listed
  rw [List.mem_singleton.mp listed, timerFired]
  exact ⟨by decide, string_formed _, string_formed _, trivial⟩

theorem timerFired_valid : [timerFired].mapM (workflowEventSchema fun _ => true) = some [timerFired] := rfl

/-- With the gzip codec the column refuses every event, and the append rejects for another reason than size. -/
theorem gzip_refused : ¬ ∀ (isDatetime : String → Bool) (zip : Gzip) (codec : Codec)
    (events validated : List JsValue) (log : List PayloadRow),
    (∀ event ∈ events, event.WellFormed) → events.mapM (workflowEventSchema isDatetime) = some validated →
      Keeps isDatetime zip codec events log := by
  intro keeps
  have kept := keeps (fun _ => true) sampleGzip (.gzip .json) [timerFired] [timerFired] [] timerFired_formed timerFired_valid
  have written : encodeAll sampleGzip (.gzip .json) [timerFired] = .ok [sampleGzip.compress (timerFired.stringify.getD "undefined")] := rfl
  apply refused_unkept _ kept
  rw [append_encoded (List.cons_ne_nil _ _) timerFired_valid written,
    magic_refused rfl (List.cons_ne_nil _ _) (encodeAll_ok written)]

/-- The size-limited codec keeps the event. -/
theorem append_keeps_iff_timer : Keeps (fun _ => true) sampleGzip (.sizeLimited .json 1024) [timerFired] [] := by
  apply (append_keeps_iff (fun _ => true) sampleGzip (.sizeLimited .json 1024) [timerFired] [timerFired] [] timerFired_formed
    timerFired_valid).mpr
  refine .inr (.inr ⟨rfl, fun event listed => ?_⟩)
  rw [List.mem_singleton.mp listed]
  decide +kernel

end Appends

end DurableExecution.Engine
