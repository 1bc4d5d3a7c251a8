import DurableExecution.Engine.CompactedLogs
import DurableExecution.Streams.RunStream
import DurableExecution.Streams.SseParser
import DurableExecution.Workflow.EventSchemas
import DurableExecution.Workflow.JsonRoundTrip

/-
This file models the text that the server writes to a stream and what the client makes of it, and shows that any part of the
text, in any chunks, gives the client exactly the messages that are complete.
-/

namespace DurableExecution.Streams

open Workflow (JsValue JsNumber WorkflowEvent parseJson fieldOf)

section Texts

/-- A value as the database keeps it. -/
abbrev StoredJson := { value : JsValue // value.IsJson }

/-- The UTF-16 code units of a text. -/
def unitsOf (text : String) : CodeUnits := text.toList.flatMap fun character => (Workflow.codeUnits character).map UInt16.ofNat

/-- The characters of some code units: a high surrogate and a low one are one character. -/
def charactersOf : CodeUnits → List Char
  | [] => []
  | [unit] => [Char.ofNat unit.toNat]
  | high :: low :: rest =>
    if 55296 ≤ high.toNat ∧ high.toNat < 56320 ∧ 56320 ≤ low.toNat ∧ low.toNat < 57344 then
      Char.ofNat (65536 + (high.toNat - 55296) * 1024 + (low.toNat - 56320)) :: charactersOf rest
    else Char.ofNat high.toNat :: charactersOf (low :: rest)

end Texts

section Server

variable (encode : WorkflowEvent → StoredJson)

def entryValue (stored : HistoryEvent) : JsValue :=
  .object [("sequenceNumber", .number (.finite stored.sequenceNumber)), ("createdAt", .string stored.createdAt.toISOString),
    ("event", (encode stored.event).val)]

def sliceValue (slice : HistorySlice) : JsValue :=
  .object [("events", .array (slice.events.map (entryValue encode))), ("status", .string slice.status.text),
    ("closed", .bool slice.closed)]

/-- What `response.write` is called with. -/
def StreamMessage.text : StreamMessage → String
  | .opened => ": open\n\n"
  | .ping => ": ping\n\n"
  | .slice id read => "id: " ++ toString id ++ "\nevent: slice\ndata: " ++ (sliceValue encode read).jsonText ++ "\n\n"
  | .finished => "event: end\ndata: {}\n\n"
  | .reconnect => "event: reconnect\ndata: {}\n\n"

def writtenUnits (messages : List StreamMessage) : CodeUnits := messages.flatMap fun message => unitsOf (message.text encode)

end Server

section Client

/-- What `streamRun` of the client keeps, with the slices it has handed on. -/
structure StreamProgress where
  lastSequence : JsValue
  ended : Bool
  slices : List JsValue

/-- `last.sequenceNumber`, where `null` throws. -/
def sequenceOf : JsValue → Option JsValue
  | .null => none
  | .object fields => some (fieldOf fields "sequenceNumber")
  | _ => some .undefined

/-- The callback of the parser, which throws when there is no answer. -/
def StreamProgress.receive (progress : StreamProgress) (message : SseMessage) : Option StreamProgress :=
  if message.event = codeUnits "end" then some { progress with ended := true }
  else if message.event = codeUnits "slice" then
    match parseJson (String.ofList (charactersOf message.data)) with
    | some (.object fields) =>
      match fieldOf fields "events" with
      | .array events =>
        match events.getLast? with
        | none => some { progress with slices := progress.slices ++ [.object fields] }
        | some last => (sequenceOf last).map fun sequence =>
          { progress with lastSequence := sequence, slices := progress.slices ++ [.object fields] }
      | .string text => some { progress with
          lastSequence := if text = "" then progress.lastSequence else .undefined
          slices := progress.slices ++ [.object fields] }
      | _ => none
    | _ => none
  else some progress

/-- The client reads a response to its end. -/
def streamRun (after : JsValue) (chunks : List CodeUnits) : Option StreamProgress :=
  (sseMessages chunks).foldlM StreamProgress.receive ⟨after, false, []⟩

end Client

section Expected

variable (encode : WorkflowEvent → StoredJson)

/-- What a message that has arrived adds. -/
def StreamProgress.after (progress : StreamProgress) : StreamMessage → StreamProgress
  | .slice _ slice =>
    { progress with
      lastSequence := (slice.events.getLast?.map fun stored => .number (.finite stored.sequenceNumber)).getD progress.lastSequence
      slices := progress.slices ++ [sliceValue encode slice] }
  | .finished => { progress with ended := true }
  | _ => progress

end Expected

section Units

variable {text : String} {character : Char}

theorem unitsOf_append (one two : String) : unitsOf (one ++ two) = unitsOf one ++ unitsOf two := by
  simp [unitsOf]

/-- The units of a character are read back, whatever follows. -/
theorem charactersOf_cons (character : Char) (rest : CodeUnits) :
    charactersOf ((Workflow.codeUnits character).map UInt16.ofNat ++ rest) = character :: charactersOf rest := by
  have valid : character.toNat < 55296 ∨ 57343 < character.toNat ∧ character.toNat < 1114112 := character.valid
  have back : Char.ofNat character.toNat = character := Char.ofNat_toNat character
  have small (code : Nat) (below : code < 65536) : (UInt16.ofNat code).toNat = code := UInt16.toNat_ofNat_of_lt' below
  rw [Workflow.codeUnits]
  split
  · next below =>
      rw [List.map_singleton, List.singleton_append]
      cases rest with
      | nil =>
        have alone : charactersOf [UInt16.ofNat character.toNat] = [Char.ofNat (UInt16.ofNat character.toNat).toNat] := rfl
        rw [alone, small _ below, back]
        rfl
      | cons low rest => rw [charactersOf, small _ below, if_neg (by omega), back]
  · next above =>
      have high : 55296 + (character.toNat - 65536) / 1024 < 65536 := by omega
      have low : 56320 + (character.toNat - 65536) % 1024 < 65536 := by omega
      rw [List.map_cons, List.map_singleton, List.cons_append, List.singleton_append, charactersOf, small _ high, small _ low,
        if_pos (by omega)]
      have code : 65536 + (55296 + (character.toNat - 65536) / 1024 - 55296) * 1024 +
          (56320 + (character.toNat - 65536) % 1024 - 56320) = character.toNat := by omega
      rw [code, back]

theorem charactersOf_unitsOf (text : String) : String.ofList (charactersOf (unitsOf text)) = text := by
  have chars (characters : List Char) :
      charactersOf (characters.flatMap fun character => (Workflow.codeUnits character).map UInt16.ofNat) = characters := by
    induction characters with
    | nil => rfl
    | cons character characters ih => rw [List.flatMap_cons, charactersOf_cons, ih]
  rw [unitsOf, chars, String.ofList_toList]

/-- No unit ends a line. -/
def Solid (units : CodeUnits) : Prop := ∀ unit ∈ units, unit ≠ lf ∧ unit ≠ cr

theorem unitsOf_solid (above : ∀ character ∈ text.toList, 32 ≤ character.toNat) : Solid (unitsOf text) := by
  have large (code : Nat) (above : 32 ≤ code) (below : code < 65536) : UInt16.ofNat code ≠ lf ∧ UInt16.ofNat code ≠ cr := by
    have same : (UInt16.ofNat code).toNat = code := UInt16.toNat_ofNat_of_lt' below
    refine ⟨fun ends => ?_, fun ends => ?_⟩
    · have code' : code = 10 := same.symm.trans (congrArg UInt16.toNat ends)
      omega
    · have code' : code = 13 := same.symm.trans (congrArg UInt16.toNat ends)
      omega
  intro unit listed
  obtain ⟨character, member, part⟩ := List.mem_flatMap.mp listed
  have above' := above character member
  have valid : character.toNat < 55296 ∨ 57343 < character.toNat ∧ character.toNat < 1114112 := character.valid
  rw [Workflow.codeUnits] at part
  split at part
  · next below =>
      rw [List.map_singleton, List.mem_singleton] at part
      exact part ▸ large _ above' below
  · rw [List.map_cons, List.map_singleton, List.mem_cons, List.mem_singleton] at part
    rcases part with rfl | rfl
    · exact large _ (by omega) (by omega)
    · exact large _ (by omega) (by omega)

end Units

section Printing

/-- No character of this text is a control character. -/
def printable (text : String) : Bool := text.toList.all fun character => decide (32 ≤ character.toNat)

theorem printable_append {one two : String} (first : printable one = true) (second : printable two = true) :
    printable (one ++ two) = true := by
  rw [printable, String.toList_append, List.all_append, Bool.and_eq_true]
  exact ⟨first, second⟩

theorem printable_digits (number : Nat) : printable (toString number) = true := by
  refine List.all_eq_true.mpr fun digit listed => ?_
  rw [Nat.toString_eq_repr, Nat.toList_repr] at listed
  have range : 48 ≤ digit.toNat ∧ digit.toNat ≤ 57 := Char.isDigit_iff_toNat.mp (Workflow.toDigits_digits number digit listed)
  simp only [decide_eq_true_iff]
  omega

theorem printable_number (number : JsNumber) : printable number.text = true := by
  cases number with
  | finite value =>
    have sign : printable (if value.num < 0 then "-" else "") = true := by split <;> rfl
    rw [Workflow.finite_text]
    refine printable_append sign (List.all_eq_true.mpr fun character listed => ?_)
    rcases Workflow.unsignedText_chars value character listed with digit | mark
    · rw [Char.isDigit, Bool.and_eq_true, decide_eq_true_eq, decide_eq_true_eq] at digit
      exact decide_eq_true (le_trans (by decide) digit.1)
    · exact List.all_eq_true.mp (by decide : ['.', 'e', '+', '-'].all (fun mark => decide (32 ≤ mark.toNat)) = true) character mark
  | _ => rfl

theorem printable_escaped (character : Char) : printable (Workflow.escaped character) = true := by
  unfold Workflow.escaped
  dsimp only
  split_ifs with _ _ _ _ _ _ _ control
  iterate 7 rfl
  · have digit : ∀ number, number < 16 → decide (32 ≤ (Nat.digitChar number).toNat) = true := by decide
    refine printable_append rfl ?_
    rw [printable, String.toList_ofList, List.all_cons, List.all_cons, digit _ (by omega), digit _ (by omega)]
    rfl
  · rw [printable, String.toList_ofList, List.all_cons, decide_eq_true (by omega)]
    rfl

theorem printable_quoted (text : String) : printable (Workflow.quoted text) = true := by
  have inner (characters : List Char) : printable (String.join (characters.map Workflow.escaped)) = true := by
    induction characters with
    | nil => rfl
    | cons character characters ih =>
      rw [List.map_cons, String.join_cons]
      exact printable_append (printable_escaped character) ih
  exact printable_append (printable_append rfl (inner _)) rfl

mutual

/-- A JSON text is one line. -/
theorem printable_jsonText (value : JsValue) : printable value.jsonText = true := by
  cases value with
  | bool value => cases value <;> rfl
  | number number => exact printable_number number
  | string text => exact printable_quoted text
  | array items =>
    rw [JsValue.jsonText]
    exact printable_append (printable_append rfl (printable_items items)) rfl
  | object fields =>
    rw [JsValue.jsonText]
    exact printable_append (printable_append rfl (printable_fields fields)) rfl
  | _ =>
    simp only [JsValue.jsonText]
    rfl

theorem printable_items (items : List JsValue) : printable (Workflow.itemsText items) = true := by
  cases items with
  | nil => rfl
  | cons item rest =>
    cases rest with
    | nil => exact printable_jsonText item
    | cons next rest =>
      rw [Workflow.itemsText]
      · exact printable_append (printable_append (printable_jsonText item) rfl) (printable_items (next :: rest))
      · simp

theorem printable_fields (fields : List (String × JsValue)) : printable (Workflow.fieldsText fields) = true := by
  cases fields with
  | nil => rfl
  | cons field rest =>
    obtain ⟨key, value⟩ := field
    cases rest with
    | nil => exact printable_append (printable_append (printable_quoted key) rfl) (printable_jsonText value)
    | cons next rest =>
      rw [Workflow.fieldsText]
      · exact printable_append (printable_append (printable_append (printable_append (printable_quoted key) rfl)
          (printable_jsonText value)) rfl) (printable_fields (next :: rest))
      · simp

end

end Printing

section Lines

variable {line line' text more : CodeUnits} {lines : List CodeUnits}

/-- Lines as a text ends them. -/
def endEach (lines : List CodeUnits) : CodeUnits := lines.flatMap (· ++ [lf])

theorem fedLines_solid (solid : Solid line') (line more : CodeUnits) :
    fedLines line (line' ++ lf :: more) = (line ++ line') :: fedLines [] more := by
  induction line' generalizing line with
  | nil => rw [List.nil_append, fedLines, if_pos rfl, List.append_nil]
  | cons unit rest ih =>
    rw [List.cons_append, fedLines, if_neg (solid unit List.mem_cons_self).1,
      ih (fun other listed => solid other (List.mem_cons_of_mem _ listed)), List.append_assoc, List.singleton_append]

theorem fedLines_unended (solid : Solid line') (line : CodeUnits) : fedLines line line' = [] := by
  induction line' generalizing line with
  | nil => rfl
  | cons unit rest ih =>
    rw [fedLines, if_neg (solid unit List.mem_cons_self).1,
      ih fun other listed => solid other (List.mem_cons_of_mem _ listed)]

theorem fedLines_endEach (solid : ∀ line ∈ lines, Solid line) (more : CodeUnits) :
    fedLines [] (endEach lines ++ more) = lines ++ fedLines [] more := by
  induction lines with
  | nil => rfl
  | cons first rest ih =>
    have rest' := ih fun line listed => solid line (List.mem_cons_of_mem _ listed)
    rw [endEach] at rest' ⊢
    rw [List.flatMap_cons, List.append_assoc, List.append_assoc, List.singleton_append,
      fedLines_solid (solid first List.mem_cons_self), rest', List.nil_append, List.cons_append]

/-- A part of some lines ends with one of them, or in the middle of one. -/
theorem fedLines_part (solid : ∀ line ∈ lines, Solid line ∧ line ≠ []) (part : text <+: endEach lines) :
    ∀ line ∈ fedLines [] text, line ≠ [] := by
  induction lines generalizing text with
  | nil =>
    rw [List.prefix_nil.mp part]
    simp [fedLines]
  | cons first rest ih =>
    have own := solid first List.mem_cons_self
    rw [endEach, List.flatMap_cons] at part
    rcases List.prefix_or_prefix_of_prefix part (List.prefix_append _ _) with short | ⟨after, rfl⟩
    · rcases List.prefix_concat_iff.mp short with rfl | inside
      · rw [fedLines_solid own.1]
        simp [fedLines, own.2]
      · rw [fedLines_unended fun unit listed => own.1 unit (inside.subset listed)]
        simp
    · have later := ih (fun line listed => solid line (List.mem_cons_of_mem _ listed)) ((List.prefix_append_right_inj _).mp part)
      rw [List.append_assoc, List.singleton_append, fedLines_solid own.1]
      intro line listed
      rcases List.mem_cons.mp listed with rfl | listed
      · exact own.2
      · exact later line listed

theorem completed_lines (some' : ∀ line ∈ lines, line ≠ []) (event more : List CodeUnits) :
    completed event (lines ++ [] :: more) = (event ++ lines) :: completed [] more := by
  induction lines generalizing event with
  | nil => rw [List.nil_append, completed, if_pos rfl, List.append_nil]
  | cons first rest ih =>
    rw [List.cons_append, completed, if_neg (some' first List.mem_cons_self),
      ih fun line listed => some' line (List.mem_cons_of_mem _ listed), List.append_assoc, List.singleton_append]

theorem completed_none (some' : ∀ line ∈ lines, line ≠ []) (event : List CodeUnits) : completed event lines = [] := by
  induction lines generalizing event with
  | nil => rfl
  | cons first rest ih =>
    rw [completed, if_neg (some' first List.mem_cons_self), ih fun line listed => some' line (List.mem_cons_of_mem _ listed)]

end Lines

section Messages

variable {encode : WorkflowEvent → StoredJson} {message : StreamMessage} {messages : List StreamMessage} {text : CodeUnits}

/-- The lines of a message. -/
def StreamMessage.lines (encode : WorkflowEvent → StoredJson) : StreamMessage → List CodeUnits
  | .opened => [unitsOf ": open"]
  | .ping => [unitsOf ": ping"]
  | .slice id read =>
    [unitsOf "id: " ++ unitsOf (toString id), unitsOf "event: slice", unitsOf "data: " ++ unitsOf (sliceValue encode read).jsonText]
  | .finished => [unitsOf "event: end", unitsOf "data: {}"]
  | .reconnect => [unitsOf "event: reconnect", unitsOf "data: {}"]

theorem text_units (message : StreamMessage) : unitsOf (message.text encode) = endEach (message.lines encode) ++ [lf] := by
  cases message with
  | slice id read =>
    have middle : unitsOf "\nevent: slice\ndata: " = lf :: unitsOf "event: slice" ++ lf :: unitsOf "data: " := rfl
    have last : unitsOf "\n\n" = [lf, lf] := rfl
    simp [StreamMessage.text, StreamMessage.lines, endEach, unitsOf_append, middle, last]
  | opened | ping | finished | reconnect =>
    simp only [StreamMessage.text, StreamMessage.lines]
    decide

theorem unitsOf_printable {text : String} (one : printable text = true) : Solid (unitsOf text) :=
  unitsOf_solid fun character listed => of_decide_eq_true (List.all_eq_true.mp one character listed)

theorem Solid.append {one two : CodeUnits} (first : Solid one) (second : Solid two) : Solid (one ++ two) := by
  intro unit listed
  rcases List.mem_append.mp listed with before | after
  · exact first unit before
  · exact second unit after

theorem lines_solid (message : StreamMessage) : ∀ line ∈ message.lines encode, Solid line ∧ line ≠ [] := by
  have plain {text : String} (one : printable text = true) (some' : unitsOf text ≠ []) : Solid (unitsOf text) ∧ unitsOf text ≠ [] :=
    ⟨unitsOf_printable one, some'⟩
  intro line listed
  cases message with
  | slice id read =>
    simp only [StreamMessage.lines, List.mem_cons, List.not_mem_nil, or_false] at listed
    rcases listed with rfl | rfl | rfl
    · exact ⟨(unitsOf_printable rfl).append (unitsOf_printable (printable_digits id)), List.cons_ne_nil _ _⟩
    · exact plain rfl (List.cons_ne_nil _ _)
    · exact ⟨(unitsOf_printable rfl).append (unitsOf_printable (printable_jsonText _)), List.cons_ne_nil _ _⟩
  | opened | ping =>
    simp only [StreamMessage.lines, List.mem_singleton] at listed
    exact listed ▸ plain rfl (List.cons_ne_nil _ _)
  | finished | reconnect =>
    simp only [StreamMessage.lines, List.mem_cons, List.not_mem_nil, or_false] at listed
    rcases listed with rfl | rfl
    · exact plain rfl (List.cons_ne_nil _ _)
    · exact plain rfl (List.cons_ne_nil _ _)

/-- What the parser makes of a message; a comment is none. -/
def StreamMessage.parsed (encode : WorkflowEvent → StoredJson) : StreamMessage → Option SseMessage
  | .opened | .ping => none
  | .slice id read => some ⟨codeUnits "slice", some (unitsOf (toString id)), unitsOf (sliceValue encode read).jsonText⟩
  | .finished => some ⟨codeUnits "end", none, unitsOf "{}"⟩
  | .reconnect => some ⟨codeUnits "reconnect", none, unitsOf "{}"⟩

theorem lines_parsed (message : StreamMessage) : eventMessage (message.lines encode) = message.parsed encode := by
  cases message with
  | slice id read =>
    have first (fields : Fields) (value : CodeUnits) : fields.read (unitsOf "id: " ++ value) = { fields with id := some value } := rfl
    have second (fields : Fields) : fields.read (unitsOf "event: slice") = { fields with event := codeUnits "slice" } := rfl
    have third (fields : Fields) (value : CodeUnits) :
        fields.read (unitsOf "data: " ++ value) = { fields with data := fields.data ++ [value] } := rfl
    simp only [eventMessage, StreamMessage.lines, List.foldl_cons, List.foldl_nil, first, second, third, StreamMessage.parsed]
    simp [Fields.message, noFields]
  | opened | ping | finished | reconnect =>
    simp only [StreamMessage.lines, StreamMessage.parsed]
    decide

/-- The complete messages of a part of the text, and no others, are parsed. -/
theorem written_parsed (part : text <+: writtenUnits encode messages) :
    ∃ count ≤ messages.length, writtenUnits encode (messages.take count) <+: text ∧
      (count = messages.length ∨ ¬ writtenUnits encode (messages.take (count + 1)) <+: text) ∧
      (completed [] (fedLines [] text)).filterMap eventMessage = (messages.take count).filterMap (·.parsed encode) := by
  induction messages generalizing text with
  | nil =>
    rw [List.prefix_nil.mp part]
    exact ⟨0, le_rfl, List.prefix_rfl, .inl rfl, rfl⟩
  | cons message rest ih =>
    have solid : ∀ line ∈ message.lines encode, Solid line ∧ line ≠ [] := lines_solid message
    have head : writtenUnits encode (message :: rest) = endEach (message.lines encode) ++ lf :: writtenUnits encode rest := by
      rw [writtenUnits, List.flatMap_cons, text_units, List.append_assoc, List.singleton_append, writtenUnits]
    by_cases whole : endEach (message.lines encode) ++ [lf] <+: text
    · obtain ⟨after, rfl⟩ := whole
      rw [head, List.append_assoc, List.singleton_append, List.prefix_append_right_inj, List.cons_prefix_cons] at part
      obtain ⟨count, few, taken, most, parsed⟩ := ih part.2
      have grown (count : Nat) : writtenUnits encode ((message :: rest).take (count + 1)) =
          endEach (message.lines encode) ++ [lf] ++ writtenUnits encode (rest.take count) := by
        rw [List.take_succ_cons, writtenUnits, List.flatMap_cons, text_units, writtenUnits]
      refine ⟨count + 1, Nat.succ_le_succ few, ?_, ?_, ?_⟩
      · rw [grown]
        exact (List.prefix_append_right_inj _).mpr taken
      · rcases most with all | most
        · exact .inl (congrArg (· + 1) all)
        · rw [grown, List.prefix_append_right_inj]
          exact .inr most
      · have lines : fedLines [] (lf :: after) = [] :: fedLines [] after := rfl
        rw [List.append_assoc, List.singleton_append, fedLines_endEach fun line listed => (solid line listed).1, lines,
          completed_lines fun line listed => (solid line listed).2, List.nil_append, List.filterMap_cons, lines_parsed, parsed,
          List.take_succ_cons, List.filterMap_cons]
    · have inside : text <+: endEach (message.lines encode) := by
        have one : endEach (message.lines encode) ++ [lf] <+: writtenUnits encode (message :: rest) := by
          rw [head]
          exact ⟨writtenUnits encode rest, by simp⟩
        rcases List.prefix_or_prefix_of_prefix part one with short | long
        · rcases List.prefix_concat_iff.mp short with same | inside
          · exact absurd (same ▸ List.prefix_rfl) whole
          · exact inside
        · exact absurd long whole
      refine ⟨0, Nat.zero_le _, List.nil_prefix, .inr ?_, ?_⟩
      · rw [List.take_succ_cons, List.take_zero, writtenUnits, List.flatMap_cons, text_units, List.flatMap_nil, List.append_nil]
        exact whole
      · rw [completed_none (fedLines_part solid inside)]
        rfl

theorem writtenUnits_solid : ∀ unit ∈ writtenUnits encode messages, unit ≠ cr := by
  intro unit listed
  obtain ⟨message, -, own⟩ := List.mem_flatMap.mp listed
  rw [text_units] at own
  rcases List.mem_append.mp own with inside | last
  · obtain ⟨line, listed', part⟩ := List.mem_flatMap.mp inside
    rcases List.mem_append.mp part with plain | last
    · exact ((lines_solid message line listed').1 unit plain).2
    · exact List.mem_singleton.mp last ▸ by decide
  · exact List.mem_singleton.mp last ▸ by decide

theorem normalise_plain {text : CodeUnits} (plain : ∀ unit ∈ text, unit ≠ cr) : normalise text = text := by
  induction text using normalise.induct with
  | case1 => rfl
  | case2 => rfl
  | case3 first second rest both => exact absurd both.1 (plain _ List.mem_cons_self)
  | case4 first second rest not ih =>
    rw [normalise, if_neg not, ih fun unit listed => plain unit (List.mem_cons_of_mem _ listed)]

/-- The parser finds the events of a text without carriage returns, in whatever chunks. -/
theorem sseMessages_plain {chunks : List CodeUnits} (plain : ∀ unit ∈ chunks.flatten, unit ≠ cr) :
    sseMessages chunks = (completed [] (fedLines [] chunks.flatten)).filterMap eventMessage := by
  have each : chunks.flatMap normalise = chunks.flatten := by
    rw [List.flatMap_def]
    refine congrArg List.flatten ((List.map_congr_left fun chunk listed => ?_).trans (List.map_id chunks))
    exact normalise_plain fun unit member => plain unit (List.mem_flatten_of_mem listed member)
  rw [sseMessages, feedAll_drained chunks rfl, List.nil_append, each]
  have messages := drained_messages chunks.flatten [] [] [] rfl rfl
  rw [List.nil_append] at messages
  rw [messages]
  rfl

end Messages

section Received

variable {encode : WorkflowEvent → StoredJson} {messages : List StreamMessage} {chunks : List CodeUnits}

theorem entryValue_json (stored : HistoryEvent) : (entryValue encode stored).IsJson := by
  have whole : Workflow.IsDecimal (stored.sequenceNumber : Rat) := by
    rw [Workflow.IsDecimal, Rat.den_natCast]
    exact one_dvd _
  have distinct : ["sequenceNumber", "createdAt", "event"].Nodup := by decide
  simp only [entryValue, JsValue.IsJson, Workflow.FieldsJson]
  exact ⟨distinct, whole, trivial, (encode stored.event).property, trivial⟩

theorem sliceValue_json (slice : HistorySlice) : (sliceValue encode slice).IsJson := by
  have entries (events : List HistoryEvent) : Workflow.ItemsJson (events.map (entryValue encode)) := by
    induction events with
    | nil => trivial
    | cons stored events ih => exact ⟨entryValue_json stored, ih⟩
  have distinct : ["events", "status", "closed"].Nodup := by decide
  simp only [sliceValue, JsValue.IsJson, Workflow.FieldsJson]
  exact ⟨distinct, entries slice.events, trivial, trivial, trivial⟩

/-- A slice reads back as it was written. -/
theorem sliceValue_parsed (slice : HistorySlice) :
    parseJson (String.ofList (charactersOf (unitsOf (sliceValue encode slice).jsonText))) = some (sliceValue encode slice) := by
  rw [charactersOf_unitsOf, Workflow.parseJson_jsonText _ (sliceValue_json slice)]

/-- What the callback does for each message is what the message adds. -/
theorem receive_parsed (progress : StreamProgress) (message : StreamMessage) :
    (message.parsed encode).toList.foldlM StreamProgress.receive progress = some (progress.after encode message) := by
  cases message with
  | opened | ping => rfl
  | finished | reconnect =>
    simp only [StreamMessage.parsed, Option.toList, List.foldlM_cons, List.foldlM_nil, StreamProgress.receive]
    rfl
  | slice id read =>
    have other : codeUnits "slice" ≠ codeUnits "end" := by decide
    have same : (sliceValue encode read) = .object [("events", .array (read.events.map (entryValue encode))),
        ("status", .string read.status.text), ("closed", .bool read.closed)] := rfl
    have events : fieldOf [("events", JsValue.array (read.events.map (entryValue encode))),
        ("status", .string read.status.text), ("closed", .bool read.closed)] "events" =
        .array (read.events.map (entryValue encode)) := rfl
    simp only [StreamMessage.parsed, Option.toList, List.foldlM_cons, List.foldlM_nil, StreamProgress.receive, if_neg other,
      if_true, sliceValue_parsed, StreamProgress.after]
    rw [same]
    simp only [events, List.getLast?_map]
    cases read.events.getLast? with
    | none => rfl
    | some last => rfl

theorem foldlM_parsed (progress : StreamProgress) (messages : List StreamMessage) :
    (messages.filterMap (·.parsed encode)).foldlM StreamProgress.receive progress =
      some (messages.foldl (StreamProgress.after encode) progress) := by
  induction messages generalizing progress with
  | nil => rfl
  | cons message rest ih =>
    have first : (message.parsed encode).toList.foldlM StreamProgress.receive progress = some (progress.after encode message) :=
      receive_parsed progress message
    rw [List.foldl_cons, ← ih]
    cases parsed : message.parsed encode with
    | none =>
      rw [parsed] at first
      rw [List.filterMap_cons_none parsed, ← Option.some.inj first]
    | some event =>
      rw [parsed] at first
      have done : StreamProgress.receive progress event = some (progress.after encode message) := by
        simpa using first
      rw [List.filterMap_cons_some parsed, List.foldlM_cons, done]
      rfl

/-- However much of the text has arrived when a response ends, and in whatever chunks, the client does not throw: it has handed
on exactly the slices of the complete messages in their order, each as the server had it, knows the sequence number of their
last event, and knows of the end when the message that says so is complete. When all of it has arrived, all messages are. -/
theorem streamText_received (after : JsValue) (part : chunks.flatten <+: writtenUnits encode messages) :
    ∃ count ≤ messages.length, writtenUnits encode (messages.take count) <+: chunks.flatten ∧
      (count = messages.length ∨ ¬ writtenUnits encode (messages.take (count + 1)) <+: chunks.flatten) ∧
      streamRun after chunks = some ((messages.take count).foldl (StreamProgress.after encode) ⟨after, false, []⟩) ∧
      (chunks.flatten = writtenUnits encode messages → count = messages.length) := by
  obtain ⟨count, few, taken, most, parsed⟩ := written_parsed part
  refine ⟨count, few, taken, most, ?_, fun all => most.resolve_right fun more => more ?_⟩
  · rw [streamRun, sseMessages_plain fun unit listed => writtenUnits_solid unit (part.subset listed), parsed, foldlM_parsed]
  · obtain ⟨rest, same⟩ := List.take_prefix (count + 1) messages
    refine all ▸ ⟨writtenUnits encode rest, ?_⟩
    rw [writtenUnits, writtenUnits, ← List.flatMap_append, same, writtenUnits]

end Received

theorem orderStarted_json :
    (JsValue.object [("type", .string "run_started"), ("workflowType", .string "order"), ("input", .null)]).IsJson := by
  have distinct : ["type", "workflowType", "input"].Nodup := by decide
  exact ⟨distinct, trivial, trivial, trivial, trivial⟩

/-- The event of a started run, as it is stored. -/
def storedEvent (_ : WorkflowEvent) : StoredJson := ⟨_, orderStarted_json⟩

def startedSlice : HistorySlice := ⟨[⟨1, .epoch, .runStarted "order" .null⟩], .running, false⟩

/-- The stream of a run that has just started, cut in the middle of its slice. -/
def startedChunks : List CodeUnits :=
  [(writtenUnits storedEvent [.opened, .slice 1 startedSlice, .ping]).take 40,
    (writtenUnits storedEvent [.opened, .slice 1 startedSlice, .ping]).drop 40]

theorem streamText_received_started : streamRun (.number (.finite 0)) startedChunks =
    some ⟨.number (.finite (1 : Nat)), false, [sliceValue storedEvent startedSlice]⟩ := by
  have whole : startedChunks.flatten = writtenUnits storedEvent [.opened, .slice 1 startedSlice, .ping] := by
    rw [startedChunks, List.flatten_cons, List.flatten_cons, List.flatten_nil, List.append_nil, List.take_append_drop]
  have part : startedChunks.flatten <+: writtenUnits storedEvent [.opened, .slice 1 startedSlice, .ping] :=
    ⟨[], by rw [List.append_nil, whole]⟩
  obtain ⟨count, -, -, -, received, all⟩ := streamText_received (.number (.finite 0)) part
  rw [received, all whole]
  rfl

end DurableExecution.Streams
