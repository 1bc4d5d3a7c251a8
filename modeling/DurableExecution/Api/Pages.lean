import Mathlib.Data.Prod.Lex
import Mathlib.Data.String.Basic
import DurableExecution.Api.CursorText
import DurableExecution.Order.Keyset

/-
This file models the three listings of the run service and proves that their pages cover everything once.
-/

namespace DurableExecution.Api

open DurableExecution.Order (Covered Fetches ordered probed)
open Workflow (JsValue)

section Rows

structure RunRow where
  id : Uuid
  namespaceId : String
  workflowType : String
  status : String
  startedAt : Timestamp
  closedAt : Option Timestamp

/-- A row of `run_events`, with the event as `workflowEventSchema` reads it. -/
structure EventRow where
  runId : Uuid
  sequenceNumber : Nat
  createdAt : Timestamp
  event : JsValue
  counted : 0 < sequenceNumber

structure DeadLetterRow where
  id : Uuid
  namespaceId : String
  runId : Uuid
  stepId : String
  attempts : Nat
  errorName : String
  errorMessage : String
  reason : String
  createdAt : Timestamp
  requeuedAt : Option Timestamp

/-- A fixed state of the tables, with their unique keys. -/
structure Tables where
  runs : List RunRow
  events : List EventRow
  deadLetters : List DeadLetterRow
  runIds : (runs.map fun row => row.id.text).Nodup
  eventKeys : (events.map fun row => (row.runId, row.sequenceNumber)).Nodup
  deadLetterIds : (deadLetters.map fun row => row.id.text).Nodup

/-- `(started_at, id)`, which the database compares like this. -/
def RunRow.position (row : RunRow) : Int ×ₗ String := toLex (row.startedAt.micros, row.id.text)

/-- `(created_at, id)`. -/
def DeadLetterRow.position (row : DeadLetterRow) : Int ×ₗ String := toLex (row.createdAt.micros, row.id.text)

structure RunSummary where
  runId : String
  workflowType : String
  status : String
  startedAt : String
  closedAt : Option String

def toSummary (row : RunRow) : RunSummary :=
  ⟨row.id.text, row.workflowType, row.status, row.startedAt.toISOString, row.closedAt.map Timestamp.toISOString⟩

structure HistoryEvent where
  sequenceNumber : Nat
  createdAt : String
  event : JsValue

def toHistoryEvent (row : EventRow) : HistoryEvent := ⟨row.sequenceNumber, row.createdAt.toISOString, row.event⟩

structure DeadLetterSummary where
  id : String
  runId : String
  stepId : String
  attempts : Nat
  errorName : String
  errorMessage : String
  reason : String
  createdAt : String

def toDeadLetterSummary (row : DeadLetterRow) : DeadLetterSummary :=
  ⟨row.id.text, row.runId.text, row.stepId, row.attempts, row.errorName, row.errorMessage, row.reason, row.createdAt.toISOString⟩

end Rows

section Requests

inductive PageError where
  | invalidCursor
  | runNotFound
  | query

def defaultPageLimit : Nat := 500

def maxPageLimit : Nat := 1000

def pageSize (limit : Option Nat) : Nat := min (max (limit.getD defaultPageLimit) 1) maxPageLimit

/-- `/^\d{1,15}$/`, or the start. -/
def parseSequenceCursor : Option String → Except PageError Nat
  | none => .ok 0
  | some cursor =>
    if 1 ≤ cursor.length ∧ cursor.length ≤ 15 ∧ cursor.toList.all Char.isDigit then
      .ok (Nat.ofDigitChars 10 cursor.toList 0)
    else .error .invalidCursor

def parseIdCursor : Option String → Except PageError (Option Uuid)
  | none => .ok none
  | some cursor =>
    match castUuid cursor with
    | none => .error .invalidCursor
    | some id => .ok (some id)

def encodeCursor (startedCursor runId : String) : String := toBase64Url (startedCursor ++ "|" ++ runId)

def decodeCursor (readers : TextReaders) (cursor : String) : Except PageError (String × String) :=
  match (fromBase64Url readers.repaired cursor).toList.splitOn '|' with
  | [startedCursor, runId] =>
    if uuidPattern (String.ofList runId) && readers.dateParses (String.ofList startedCursor) then
      .ok (String.ofList startedCursor, String.ofList runId)
    else .error .invalidCursor
  | _ => .error .invalidCursor

/-- The filters of `listRuns`. -/
structure RunFilters where
  status : Option String
  workflowType : Option String
  startedAfter : Option String
  startedBefore : Option String

/-- A cast to a timestamp in a query, which fails where the database cannot read the text. -/
def castTimestamp (readers : TextReaders) : Option String → Except PageError (Option Int)
  | none => .ok none
  | some text =>
    match readers.timestamptz text with
    | none => .error .query
    | some micros => .ok (some micros)

/-- The position that a cursor stands for. -/
def cursorPosition (readers : TextReaders) : Option String → Except PageError (Option (Int ×ₗ String))
  | none => .ok none
  | some cursor => do
    let (startedCursor, runId) ← decodeCursor readers cursor
    match readers.timestamptz startedCursor, castUuid runId with
    | some micros, some id => pure (some (toLex (micros, id.text)))
    | _, _ => .error .query

def RunFilters.select (filters : RunFilters) (namespaceId : String) (startedAfter startedBefore : Option Int) (row : RunRow) : Bool :=
  row.namespaceId == namespaceId && filters.status.all (· == row.status) && filters.workflowType.all (· == row.workflowType) &&
    startedAfter.all (fun bound => decide (bound ≤ row.startedAt.micros)) &&
    startedBefore.all (fun bound => decide (row.startedAt.micros < bound))

def listRuns (readers : TextReaders) (tables : Tables) (namespaceId : String) (filters : RunFilters) (cursor : Option String)
    (limit : Nat) : Except PageError (List RunSummary × Option String) := do
  let position ← cursorPosition readers cursor
  let startedAfter ← castTimestamp readers filters.startedAfter
  let startedBefore ← castTimestamp readers filters.startedBefore
  let selected := tables.runs.filter fun row => filters.select namespaceId startedAfter startedBefore row &&
    position.all fun position => decide (row.position < position)
  let rows := (selected.mergeSort fun one two => decide (two.position ≤ one.position)).take (limit + 1)
  pure (probed (fun row => encodeCursor row.startedAt.toChar row.id.text) toSummary limit rows)

/-- `store.read`. -/
def readEvents (tables : Tables) (runId : Uuid) (fromSeq limit : Nat) : List EventRow :=
  let selected := tables.events.filter fun row => row.runId == runId && decide (fromSeq < row.sequenceNumber)
  (selected.mergeSort fun one two => decide (one.sequenceNumber ≤ two.sequenceNumber)).take limit

def assertOwned (tables : Tables) (namespaceId runId : String) : Except PageError Uuid :=
  match castUuid runId with
  | none => .error .runNotFound
  | some id =>
    if tables.runs.any fun row => row.id == id && row.namespaceId == namespaceId then .ok id else .error .runNotFound

def getHistory (tables : Tables) (namespaceId runId : String) (cursor : Option String) (limit : Option Nat) :
    Except PageError (List HistoryEvent × Option String) := do
  let id ← assertOwned tables namespaceId runId
  let after ← parseSequenceCursor cursor
  pure (probed (fun row => toString row.sequenceNumber) toHistoryEvent (pageSize limit)
    (readEvents tables id after (pageSize limit + 1)))

/-- `deadLetters.list` of a namespace, without the requeued ones; the subquery finds the position of the id. -/
def listOpenDeadLetters (tables : Tables) (namespaceId : String) (afterId : Option Uuid) (limit : Nat) : List DeadLetterRow :=
  let after (row : DeadLetterRow) : Bool :=
    match afterId with
    | none => true
    | some id =>
      match tables.deadLetters.find? fun other => other.id == id with
      | none => false
      | some other => decide (other.position < row.position)
  let selected := tables.deadLetters.filter fun row => row.requeuedAt.isNone && row.namespaceId == namespaceId && after row
  (selected.mergeSort fun one two => decide (one.position ≤ two.position)).take limit

def listDeadLetters (tables : Tables) (namespaceId : String) (cursor : Option String) (limit : Option Nat) :
    Except PageError (List DeadLetterSummary × Option String) := do
  let afterId ← parseIdCursor cursor
  pure (probed (fun row => row.id.text) toDeadLetterSummary (pageSize limit)
    (listOpenDeadLetters tables namespaceId afterId (pageSize limit + 1)))

end Requests

section Listings

variable (readers : TextReaders) (tables : Tables)

/-- The bounds of a filter are texts that the database reads. -/
def RunFilters.Readable (filters : RunFilters) : Prop :=
  (∀ text ∈ filters.startedAfter, (readers.timestamptz text).isSome = true) ∧
    ∀ text ∈ filters.startedBefore, (readers.timestamptz text).isSome = true

/-- The runs of a namespace that a filter lets through. -/
def matchingRuns (namespaceId : String) (filters : RunFilters) : List RunRow :=
  tables.runs.filter fun row => filters.select namespaceId (filters.startedAfter.bind readers.timestamptz)
    (filters.startedBefore.bind readers.timestamptz) row

def historyOf (runId : Uuid) : List EventRow := tables.events.filter fun row => row.runId == runId

def openDeadLetters (namespaceId : String) : List DeadLetterRow :=
  tables.deadLetters.filter fun row => row.requeuedAt.isNone && row.namespaceId == namespaceId

variable {readers tables}

theorem decodeCursor_encodeCursor (timestamp : Timestamp) (id : Uuid) :
    decodeCursor readers (encodeCursor timestamp.toChar id.text) = .ok (timestamp.toChar, id.text) := by
  have bar : "|".toList = ['|'] := rfl
  have parts : (timestamp.toChar ++ "|" ++ id.text).toList.splitOn '|' = [timestamp.toChar.toList, id.text.toList] := by
    rw [String.toList_append, String.toList_append, bar, List.append_assoc, List.singleton_append, List.splitOn_eq_splitOnP,
      List.splitOnP_append_cons_of_forall_mem (fun char listed => beq_false_of_ne (timestamp.toChar_plain char listed)) '|' rfl,
      List.splitOnP_eq_singleton fun char listed => beq_false_of_ne (id.text_plain char listed)]
  have pattern : uuidPattern id.text = true := by
    rw [uuidPattern, canonicalUuid_lower id.canonical]
    exact id.canonical
  rw [decodeCursor, encodeCursor, fromBase64Url_toBase64Url, parts]
  simp only [String.ofList_toList, pattern, readers.dateParses_toChar, Bool.and_self, if_true]

theorem castTimestamp_readable {bound : Option String} (readable : ∀ text ∈ bound, (readers.timestamptz text).isSome = true) :
    castTimestamp readers bound = .ok (bound.bind readers.timestamptz) := by
  cases bound with
  | none => rfl
  | some text =>
    obtain ⟨micros, found⟩ := Option.isSome_iff_exists.mp (readable text rfl)
    rw [castTimestamp, found, Option.bind_some, found]

theorem cursorPosition_encoded (row : RunRow) :
    cursorPosition readers (some (encodeCursor row.startedAt.toChar row.id.text)) = .ok (some row.position) := by
  rw [cursorPosition, decodeCursor_encodeCursor]
  show (match readers.timestamptz row.startedAt.toChar, castUuid row.id.text with
    | some micros, some id => pure (some (toLex (micros, id.text)))
    | _, _ => .error .query : Except PageError _) = _
  rw [readers.timestamptz_toChar, castUuid_text]
  rfl

theorem positions_apart {namespaceId : String} {filters : RunFilters} :
    ((matchingRuns readers tables namespaceId filters).map fun row => OrderDual.toDual row.position).Nodup := by
  have ids : ((matchingRuns readers tables namespaceId filters).map fun row => row.id.text).Nodup :=
    tables.runIds.sublist (List.filter_sublist.map _)
  apply List.Nodup.of_map fun position => (ofLex (OrderDual.ofDual position)).2
  rw [List.map_map]
  exact ids

/-- A page of runs shows what comes after the run of its cursor. -/
theorem listRuns_fetches (namespaceId : String) {filters : RunFilters} (readable : filters.Readable readers) :
    Fetches (listRuns readers tables namespaceId filters)
      (ordered (fun row => OrderDual.toDual row.position) (matchingRuns readers tables namespaceId filters)) toSummary
      (fun row => encodeCursor row.startedAt.toChar row.id.text) (fun limit => limit) := by
  intro front rest whole limit _
  have query : ∀ position : Option (Int ×ₗ String), cursorPosition readers (front.getLast?.map fun row =>
      encodeCursor row.startedAt.toChar row.id.text) = .ok position →
      ordered (fun row => OrderDual.toDual row.position) ((matchingRuns readers tables namespaceId filters).filter fun row =>
        position.all fun position => decide (row.position < position)) = rest →
      listRuns readers tables namespaceId filters (front.getLast?.map fun row => encodeCursor row.startedAt.toChar row.id.text) limit =
        .ok ((rest.take limit).map toSummary,
          Order.cursorAfter (fun row => encodeCursor row.startedAt.toChar row.id.text) rest limit) := by
    intro position decoded found
    rw [← Order.probed_take, ← found, listRuns, decoded, castTimestamp_readable readable.1, castTimestamp_readable readable.2,
      matchingRuns, List.filter_filter]
    simp only [Bool.and_comm]
    rfl
  cases ends : front.getLast? with
  | none =>
    have empty := List.getLast?_eq_none_iff.mp ends
    rw [ends] at query
    apply query none rfl
    rw [empty, List.nil_append] at whole
    rw [← whole]
    congr 1
    exact List.filter_eq_self.mpr fun _ _ => rfl
  | some last =>
    rw [ends] at query
    apply query (some last.position) (cursorPosition_encoded last)
    exact Order.ordered_after positions_apart whole ends

theorem sequences_apart (runId : Uuid) : ((historyOf tables runId).map fun row => row.sequenceNumber).Nodup := by
  have keys : ((historyOf tables runId).map fun row => (row.runId, row.sequenceNumber)).Nodup :=
    tables.eventKeys.sublist (List.filter_sublist.map _)
  have same : (historyOf tables runId).map (fun row => (row.runId, row.sequenceNumber)) =
      ((historyOf tables runId).map fun row => row.sequenceNumber).map fun number => (runId, number) := by
    rw [List.map_map]
    apply List.map_congr_left
    intro row listed
    have own : row.runId = runId := eq_of_beq (List.mem_filter.mp listed).2
    show (row.runId, row.sequenceNumber) = (runId, row.sequenceNumber)
    rw [own]
  rw [same] at keys
  exact keys.of_map

theorem deadLetters_apart (namespaceId : String) : ((openDeadLetters tables namespaceId).map DeadLetterRow.position).Nodup := by
  have ids : ((openDeadLetters tables namespaceId).map fun row => row.id.text).Nodup :=
    tables.deadLetterIds.sublist (List.filter_sublist.map _)
  apply List.Nodup.of_map fun position => (ofLex position).2
  rw [List.map_map]
  exact ids

/-- The subquery finds the dead letter of an id. -/
theorem find_deadLetter {last : DeadLetterRow} (listed : last ∈ tables.deadLetters) :
    (tables.deadLetters.find? fun other => other.id == last.id) = some last := by
  cases found : tables.deadLetters.find? fun other => other.id == last.id with
  | none => exact absurd (beq_self_eq_true last.id) (List.find?_eq_none.mp found last listed)
  | some other =>
    have holds := List.find?_some found
    have same : other.id = last.id := eq_of_beq holds
    rw [List.inj_on_of_nodup_map tables.deadLetterIds (List.mem_of_find?_eq_some found) listed (congrArg Uuid.text same)]

/-- A sequence number of at most 15 digits is read back. -/
theorem parseSequenceCursor_text {number : Nat} (short : number < 1000000000000000) :
    parseSequenceCursor (some (toString number)) = .ok number := by
  have length : (toString number).length ≤ 15 := by
    rw [Nat.toString_eq_repr, Nat.length_repr_le_iff (by decide)]
    exact short
  have some' : 1 ≤ (toString number).length := by
    rw [Nat.toString_eq_repr]
    exact Nat.length_repr_pos
  have digits : (toString number).toList.all Char.isDigit = true := by
    rw [Nat.toString_eq_repr, Nat.toList_repr, List.all_eq_true]
    exact Workflow.toDigits_digits number
  have value : Nat.ofDigitChars 10 (toString number).toList 0 = number := by
    rw [Nat.toString_eq_repr, Nat.toList_repr]
    exact Nat.ofDigitChars_toDigits (by decide) (by decide)
  rw [parseSequenceCursor, if_pos ⟨some', length, digits⟩, value]

/-- What a request for a part of a history shows. -/
theorem getHistory_query {run : RunRow} (listed : run ∈ tables.runs) (cursor : Option String) (limit : Option Nat) {after : Nat}
    (parsed : parseSequenceCursor cursor = .ok after) : getHistory tables run.namespaceId run.id.text cursor limit =
      .ok (((ordered (fun row => row.sequenceNumber) ((historyOf tables run.id).filter fun row =>
          decide (after < row.sequenceNumber))).take (pageSize limit)).map toHistoryEvent,
        Order.cursorAfter (fun row => toString row.sequenceNumber) (ordered (fun row => row.sequenceNumber)
          ((historyOf tables run.id).filter fun row => decide (after < row.sequenceNumber))) (pageSize limit)) := by
  have owned : assertOwned tables run.namespaceId run.id.text = .ok run.id := by
    have found : (tables.runs.any fun row => row.id == run.id && row.namespaceId == run.namespaceId) = true := by
      apply List.any_eq_true.mpr
      exact ⟨run, listed, by rw [beq_self_eq_true, beq_self_eq_true, Bool.and_self]⟩
    rw [assertOwned, castUuid_text]
    exact if_pos found
  rw [← Order.probed_take, getHistory, owned, parsed, historyOf, List.filter_filter]
  simp only [Bool.and_comm]
  rfl

theorem from_start (runId : Uuid) : ((historyOf tables runId).filter fun row => decide (0 < row.sequenceNumber)) = historyOf tables runId :=
  List.filter_eq_self.mpr fun row _ => decide_eq_true row.counted

/-- A page of a history shows what comes after its sequence number, which has at most 15 digits. -/
theorem getHistory_fetches {run : RunRow} (listed : run ∈ tables.runs)
    (short : ∀ row ∈ historyOf tables run.id, row.sequenceNumber < 1000000000000000) :
    Fetches (getHistory tables run.namespaceId run.id.text) (ordered (fun row => row.sequenceNumber) (historyOf tables run.id))
      toHistoryEvent (fun row => toString row.sequenceNumber) pageSize := by
  intro front rest whole limit _
  cases ends : front.getLast? with
  | none =>
    have empty := List.getLast?_eq_none_iff.mp ends
    rw [empty, List.nil_append] at whole
    rw [Option.map_none, getHistory_query listed none limit rfl, from_start, whole]
  | some last =>
    have inside : last ∈ historyOf tables run.id := by
      have here : last ∈ ordered (fun row => row.sequenceNumber) (historyOf tables run.id) := by
        rw [whole]
        exact List.mem_append_left _ (List.mem_of_getLast? ends)
      exact Order.ordered_perm.subset here
    have after := Order.ordered_after (sequences_apart run.id) whole ends
    rw [Option.map_some, getHistory_query listed _ limit (parseSequenceCursor_text (short last inside)), after]

/-- A page of dead letters shows what comes after the dead letter that its cursor names. -/
theorem listDeadLetters_fetches (namespaceId : String) :
    Fetches (listDeadLetters tables namespaceId) (ordered DeadLetterRow.position (openDeadLetters tables namespaceId))
      toDeadLetterSummary (fun row => row.id.text) pageSize := by
  intro front rest whole limit _
  have query : ∀ (afterId : Option Uuid) (after : DeadLetterRow → Bool),
      parseIdCursor (front.getLast?.map fun row => row.id.text) = .ok afterId →
      (∀ row, (match afterId with
        | none => true
        | some id =>
          match tables.deadLetters.find? fun other => other.id == id with
          | none => false
          | some other => decide (other.position < row.position)) = after row) →
      ordered DeadLetterRow.position ((openDeadLetters tables namespaceId).filter after) = rest →
      listDeadLetters tables namespaceId (front.getLast?.map fun row => row.id.text) limit =
        .ok ((rest.take (pageSize limit)).map toDeadLetterSummary,
          Order.cursorAfter (fun row => row.id.text) rest (pageSize limit)) := by
    intro afterId after parsed same found
    rw [← Order.probed_take, ← found, listDeadLetters, parsed, openDeadLetters, List.filter_filter]
    show Except.ok _ = _
    rw [listOpenDeadLetters]
    simp only [same, Bool.and_comm]
    rfl
  cases ends : front.getLast? with
  | none =>
    have empty := List.getLast?_eq_none_iff.mp ends
    rw [ends] at query
    apply query none (fun _ => true) rfl (fun _ => rfl)
    rw [empty, List.nil_append] at whole
    rw [← whole]
    congr 1
    exact List.filter_eq_self.mpr fun _ _ => rfl
  | some last =>
    rw [ends] at query
    have inside : last ∈ openDeadLetters tables namespaceId := by
      have here : last ∈ ordered DeadLetterRow.position (openDeadLetters tables namespaceId) := by
        rw [whole]
        exact List.mem_append_left _ (List.mem_of_getLast? ends)
      exact Order.ordered_perm.subset here
    have parsed : parseIdCursor (some last.id.text) = .ok (some last.id) := by
      rw [parseIdCursor, castUuid_text]
    apply query (some last.id) (fun row => decide (last.position < row.position)) parsed
    · intro row
      dsimp only
      rw [find_deadLetter (List.mem_filter.mp inside).1]
    · exact Order.ordered_after (deadLetters_apart namespaceId) whole ends

/-- One run whose events have consecutive sequence numbers. -/
def sampleRun : RunRow where
  id := ⟨"00000000-0000-4000-8000-000000000001", by decide +kernel⟩
  namespaceId := "default"
  workflowType := "order"
  status := "RUNNING"
  startedAt := ⟨0, by decide, by decide⟩
  closedAt := none

def sampleEvent (first : Nat) (positive : 0 < first) (index : Nat) : EventRow :=
  ⟨sampleRun.id, first + index, ⟨0, by decide, by decide⟩, .null, by omega⟩

def sampleTables (first count : Nat) (positive : 0 < first) : Tables where
  runs := [sampleRun]
  events := (List.range count).map (sampleEvent first positive)
  deadLetters := []
  runIds := List.nodup_singleton _
  eventKeys := by
    rw [List.map_map]
    apply List.nodup_range.map
    intro one two same
    have numbers := congrArg Prod.snd same
    exact Nat.add_left_cancel numbers
  deadLetterIds := List.nodup_nil

theorem sample_history (first count : Nat) (positive : 0 < first) :
    ordered (fun row => row.sequenceNumber) (historyOf (sampleTables first count positive) sampleRun.id) =
      (List.range count).map (sampleEvent first positive) := by
  have all : historyOf (sampleTables first count positive) sampleRun.id = (List.range count).map (sampleEvent first positive) := by
    apply List.filter_eq_self.mpr
    intro row listed
    obtain ⟨index, -, rfl⟩ := List.mem_map.mp listed
    exact beq_self_eq_true sampleRun.id
  rw [all]
  apply List.mergeSort_of_pairwise
  rw [List.pairwise_map]
  apply List.pairwise_lt_range.imp
  intro one two earlier
  exact decide_eq_true (Nat.add_le_add_left (Nat.le_of_lt earlier) first)

theorem sample_listed (first count : Nat) (positive : 0 < first) : sampleRun ∈ (sampleTables first count positive).runs :=
  List.mem_cons_self

theorem sample_short {first count : Nat} {positive : 0 < first} (short : first + count ≤ 1000000000000000) :
    ∀ row ∈ historyOf (sampleTables first count positive) sampleRun.id, row.sequenceNumber < 1000000000000000 := by
  intro row listed
  obtain ⟨index, inside, rfl⟩ := List.mem_map.mp (List.mem_filter.mp listed).1
  have small := List.mem_range.mp inside
  show first + index < 1000000000000000
  omega

/-- The first page of the sample, where there are more events than it shows. -/
theorem sample_page (first count : Nat) (positive : 0 < first) (limit : Option Nat) (more : pageSize limit < count) :
    getHistory (sampleTables first count positive) sampleRun.namespaceId sampleRun.id.text none limit =
      .ok ((((List.range count).map (sampleEvent first positive)).take (pageSize limit)).map toHistoryEvent,
        some (toString (first + (pageSize limit - 1)))) := by
  have some' : 1 ≤ pageSize limit := by
    rw [pageSize, maxPageLimit]
    omega
  have query := getHistory_query (sample_listed first count positive) none limit rfl
  have last : (((List.range count).map (sampleEvent first positive)).take (pageSize limit)).getLast? =
      some (sampleEvent first positive (pageSize limit - 1)) := by
    rw [← List.map_take, List.getLast?_map, List.take_range, Nat.min_eq_left more.le, List.getLast?_range, if_neg (by omega)]
    rfl
  have past : pageSize limit < ((List.range count).map (sampleEvent first positive)).length := by
    rw [List.length_map, List.length_range]
    exact more
  rw [query, from_start, sample_history, Order.cursorAfter, if_pos past, last]
  rfl

theorem getHistory_refused {namespaceId runId : String} {cursor : Option String} {limit : Option Nat} {error : PageError}
    (refused : parseSequenceCursor cursor = .error error) (answer : List HistoryEvent × Option String) :
    getHistory tables namespaceId runId cursor limit ≠ .ok answer := by
  rw [getHistory, refused]
  cases assertOwned tables namespaceId runId with
  | error _ => exact fun same => nomatch same
  | ok _ => exact fun same => nomatch same

/-- A limit above the cap gives pages of the cap only. -/
theorem capped_pages {first count limit : Nat} (beyond : 1000 < limit) (more : 1000 < count) (positive : 0 < first) :
    ¬ Covered (getHistory (sampleTables first count positive) sampleRun.namespaceId sampleRun.id.text)
      (historyOf (sampleTables first count positive) sampleRun.id) (fun one two => one.sequenceNumber < two.sequenceNumber)
      toHistoryEvent fun limit => limit.getD defaultPageLimit := by
  intro covered
  obtain ⟨pagesShown, pages, listed, walk, -, -, -, full⟩ := covered (fun _ => some limit) fun _ => by
    show 1 ≤ limit
    omega
  have capped : pageSize (some limit) = 1000 := by
    rw [pageSize, maxPageLimit, Option.getD_some]
    omega
  have page := sample_page first count positive (some limit) (by omega)
  have asked : ∀ other ∈ (List.range pagesShown).map fun _ => some limit, other = some limit := by
    intro other listed
    obtain ⟨-, -, rfl⟩ := List.mem_map.mp listed
    rfl
  generalize (List.range pagesShown).map (fun _ => some limit) = limits at walk full asked
  cases walk with
  | last fetched =>
    obtain rfl := asked _ List.mem_cons_self
    rw [page] at fetched
    cases fetched
  | next fetched onward =>
    obtain rfl := asked _ List.mem_cons_self
    obtain ⟨following, others, rfl⟩ := onward.nonempty
    rw [page] at fetched
    cases fetched
    have counted := full.1
    rw [List.length_map, List.length_take, List.length_map, List.length_range, capped] at counted
    have counted : min 1000 count = limit := counted
    omega

/-- The cursor after a number of more than 15 digits leads nowhere. -/
theorem wide_refused {first : Nat} (wide : 1000000000000000 ≤ first) (positive : 0 < first) :
    ¬ Covered (getHistory (sampleTables first 2 positive) sampleRun.namespaceId sampleRun.id.text)
      (historyOf (sampleTables first 2 positive) sampleRun.id) (fun one two => one.sequenceNumber < two.sequenceNumber)
      toHistoryEvent pageSize := by
  intro covered
  obtain ⟨count, pages, listed, walk, -⟩ := covered (fun _ => some 1) fun _ => by decide
  have page := sample_page first 2 positive (some 1) (by decide)
  have asked : ∀ limit ∈ (List.range count).map fun _ => some 1, limit = some 1 := by
    intro limit listed
    obtain ⟨-, -, rfl⟩ := List.mem_map.mp listed
    rfl
  have refused : ∀ limit answer, getHistory (sampleTables first 2 positive) sampleRun.namespaceId sampleRun.id.text
      (some (toString (first + (pageSize (some 1) - 1)))) limit ≠ .ok answer := by
    intro limit answer
    apply getHistory_refused
    rw [parseSequenceCursor, if_neg]
    intro fits
    have short := fits.2.1
    rw [Nat.toString_eq_repr, Nat.length_repr_le_iff (by decide)] at short
    omega
  generalize (List.range count).map (fun _ => some 1) = limits at walk asked
  cases walk with
  | last fetched =>
    obtain rfl := asked _ List.mem_cons_self
    rw [page] at fetched
    cases fetched
  | next fetched onward =>
    obtain rfl := asked _ List.mem_cons_self
    rw [page] at fetched
    cases fetched
    cases onward with
    | last fetched => exact refused _ _ fetched
    | next fetched _ => exact refused _ _ fetched

/-- Pages cover everything exactly once. -/
theorem pages_cover (readers : TextReaders) (tables : Tables) : (∀ namespaceId filters, RunFilters.Readable readers filters →
      Covered (listRuns readers tables namespaceId filters) (matchingRuns readers tables namespaceId filters)
        (fun one two => two.position < one.position) toSummary fun limit => limit) ∧
    (∀ run ∈ tables.runs, (∀ row ∈ historyOf tables run.id, row.sequenceNumber < 1000000000000000) →
      Covered (getHistory tables run.namespaceId run.id.text) (historyOf tables run.id)
        (fun one two => one.sequenceNumber < two.sequenceNumber) toHistoryEvent pageSize) ∧
    ∀ namespaceId, Covered (listDeadLetters tables namespaceId) (openDeadLetters tables namespaceId)
      (fun one two => one.position < two.position) toDeadLetterSummary pageSize := by
  refine ⟨?_, ?_, ?_⟩
  · intro namespaceId filters readable
    exact (listRuns_fetches namespaceId readable).covered positions_apart
  · intro run listed short
    exact (getHistory_fetches listed short).covered (sequences_apart run.id)
  · intro namespaceId
    exact (listDeadLetters_fetches namespaceId).covered (deadLetters_apart namespaceId)

theorem pages_cover_one : Covered (listRuns plainReaders (sampleTables 1 3 Nat.one_pos) "default" ⟨none, none, none, none⟩)
        (matchingRuns plainReaders (sampleTables 1 3 Nat.one_pos) "default" ⟨none, none, none, none⟩)
        (fun one two => two.position < one.position) toSummary (fun limit => limit) ∧
      Covered (getHistory (sampleTables 1 3 Nat.one_pos) "default" sampleRun.id.text)
        (historyOf (sampleTables 1 3 Nat.one_pos) sampleRun.id) (fun one two => one.sequenceNumber < two.sequenceNumber)
        toHistoryEvent pageSize := by
  obtain ⟨runs, histories, -⟩ := pages_cover plainReaders (sampleTables 1 3 Nat.one_pos)
  refine ⟨runs "default" _ ⟨(fun _ listed => nomatch listed), fun _ listed => nomatch listed⟩, ?_⟩
  exact histories sampleRun List.mem_cons_self (sample_short (by decide))

/-- A limit above the cap gives pages of the cap only, and the cursor after a number of 16 digits is refused. -/
theorem pages_not_covered : (¬ ∀ (tables : Tables) (run : RunRow), run ∈ tables.runs →
      (∀ row ∈ historyOf tables run.id, row.sequenceNumber < 1000000000000000) →
      Covered (getHistory tables run.namespaceId run.id.text) (historyOf tables run.id)
        (fun one two => one.sequenceNumber < two.sequenceNumber) toHistoryEvent fun limit => limit.getD defaultPageLimit) ∧
    ¬ ∀ (tables : Tables) (run : RunRow), run ∈ tables.runs →
      Covered (getHistory tables run.namespaceId run.id.text) (historyOf tables run.id)
        (fun one two => one.sequenceNumber < two.sequenceNumber) toHistoryEvent pageSize := by
  constructor
  · intro always
    have refuted : ∀ count, 1000 < count → count < 1000000 → False := by
      intro count more few
      apply capped_pages more more Nat.one_pos
      exact always _ sampleRun (sample_listed 1 count _) (sample_short (by omega))
    exact refuted 1001 (by decide) (by decide)
  · intro always
    have wide : 1000000000000000 ≤ 10 ^ 15 := by decide
    exact wide_refused wide (Nat.pow_pos (by decide)) (always _ sampleRun (sample_listed _ 2 _))

end Listings

end DurableExecution.Api
