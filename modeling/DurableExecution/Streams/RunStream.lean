import DurableExecution.Engine.Projection

/-
This file models the stream of a run's history: the server's loop, the client that reconnects,
and a run that moves on meanwhile. It shows that the stream delivers every event once.
-/

namespace DurableExecution.Streams

open Engine (RunState)
open Workflow (Instant WorkflowEvent)

/-- A stored event as a history shows it. -/
structure HistoryEvent where
  sequenceNumber : Nat
  createdAt : Instant
  event : WorkflowEvent

/-- An answer of `readHistorySince`. -/
structure HistorySlice where
  events : List HistoryEvent
  status : RunState
  closed : Bool

/-- What the server writes to a response. -/
inductive StreamMessage where
  | opened
  | ping
  | slice (id : Nat) (slice : HistorySlice)
  | finished
  | reconnect

/-- How far the loop of `pumpStream` is: before a poll, between its two queries, with its slice, at the
check of the deadline, or ended. -/
inductive PumpStage where
  | reading
  | statusRead (status : RunState)
  | sliced (slice : HistorySlice)
  | resting
  | ended

/-- A connection, with what was written to it and not received yet. -/
structure Connection where
  cursor : Nat
  stage : PumpStage
  opened : Bool
  lastStatus : Option RunState
  idlePolls : Nat
  wire : List StreamMessage

/-- A run whose log is not compacted, how long that log was when the run closed, the connection of a
client, its first request, and what it has received. -/
structure StreamWorld where
  log : List HistoryEvent
  status : RunState
  closedLength : Nat
  connection : Option Connection
  request : Option (Option String × Option String)
  received : List HistoryEvent
  lastId : Option Nat
  ended : Bool

section Pump

/-- The parameter `after`, then the header `Last-Event-ID`, then 0; at most 15 digits. -/
def parseStreamCursor (after lastEventId : Option String) : Option Nat :=
  let value := (after.orElse fun _ => lastEventId).getD "0"
  if 1 ≤ value.length ∧ value.length ≤ 15 ∧ value.toList.all Char.isDigit then
    some (Nat.ofDigitChars 10 value.toList 0)
  else none

def connect (after lastEventId : Option String) : Option Connection :=
  (parseStreamCursor after lastEventId).map fun cursor => ⟨cursor, .reading, false, none, 0, []⟩

/-- `store.read`: the events after a sequence number. -/
def readEvents (log : List HistoryEvent) (fromSeq : Nat) : List HistoryEvent :=
  log.filter fun stored => fromSeq < stored.sequenceNumber

/-- One round of the loop, with its slice: what it writes, and whether it ends the response. -/
def handleSlice (heartbeatEvery : Nat) (slice : HistorySlice) (connection : Connection) : Connection :=
  let connection := if connection.opened then connection
    else { connection with opened := true, wire := connection.wire ++ [.opened] }
  if !slice.events.isEmpty || connection.lastStatus ≠ some slice.status then
    let cursor := (slice.events.getLast?.map HistoryEvent.sequenceNumber).getD connection.cursor
    { connection with
      cursor := cursor
      stage := .resting
      lastStatus := some slice.status
      idlePolls := 0
      wire := connection.wire ++ [.slice cursor slice] }
  else if slice.closed then { connection with stage := .ended, wire := connection.wire ++ [.finished] }
  else
    let idlePolls := connection.idlePolls + 1
    { connection with
      stage := .resting
      idlePolls := idlePolls
      wire := if idlePolls % heartbeatEvery = 0 then connection.wire ++ [.ping] else connection.wire }

/-- The next step of the server for a connection. -/
def pump (heartbeatEvery : Nat) (log : List HistoryEvent) (status : RunState) (connection : Connection) : Connection :=
  match connection.stage with
  | .reading => { connection with stage := .statusRead status }
  | .statusRead read =>
    { connection with stage := .sliced ⟨readEvents log connection.cursor, read, read ≠ .running⟩ }
  | .sliced slice => handleSlice heartbeatEvery slice connection
  | .resting => { connection with stage := .reading }
  | .ended => connection

end Pump

section Runs

/-- What happens to a run, to a connection, and at its client. A closing appends the events that
its transaction writes. -/
inductive StreamOp where
  | appends (events : List (Instant × WorkflowEvent))
  | closes (status : RunState) (events : List (Instant × WorkflowEvent))
  | connects (after lastEventId : Option String)
  | serves
  | expires
  | receives
  | disconnects
  | reconnects

def StreamWorld.append (world : StreamWorld) (events : List (Instant × WorkflowEvent)) : StreamWorld :=
  { world with log := world.log ++ (events.zipIdx (world.log.length + 1)).map fun entry =>
      ⟨entry.2, entry.1.1, entry.1.2⟩ }

/-- The client takes the next message: a slice has an id. -/
def StreamWorld.receive (world : StreamWorld) (connection : Connection) : StreamWorld :=
  match connection.wire with
  | [] => world
  | .slice id slice :: rest =>
    { world with
      connection := some { connection with wire := rest }
      received := world.received ++ slice.events
      lastId := some id }
  | .finished :: rest => { world with connection := some { connection with wire := rest }, ended := true }
  | _ :: rest => { world with connection := some { connection with wire := rest } }

/-- What one operation makes of the world. One that is not enabled leaves it alone. A client that
has no id yet repeats its first request. -/
def StreamOp.run (heartbeatEvery : Nat) (world : StreamWorld) : StreamOp → StreamWorld
  | .appends events => world.append events
  | .closes status events =>
    if world.status = .running ∧ status ≠ .running then
      { world.append events with status := status, closedLength := world.log.length + events.length }
    else world
  | .connects after lastEventId =>
    match world.request, connect after lastEventId with
    | none, some connection =>
      { world with connection := some connection, request := some (after, lastEventId) }
    | _, _ => world
  | .serves =>
    { world with connection := world.connection.map (pump heartbeatEvery world.log world.status) }
  | .expires =>
    { world with connection := world.connection.map fun connection =>
        match connection.stage with
        | .resting => { connection with stage := .ended, wire := connection.wire ++ [.reconnect] }
        | _ => connection }
  | .receives =>
    match world.connection with
    | none => world
    | some connection => world.receive connection
  | .disconnects => { world with connection := none }
  | .reconnects =>
    match world.connection, world.request, world.lastId with
    | none, some _, some id => { world with connection := connect none (some (toString id)) }
    | none, some (after, lastEventId), none => { world with connection := connect after lastEventId }
    | _, _, _ => world

/-- The worlds that any operations lead to. -/
inductive StreamRun (heartbeatEvery : Nat) (start : StreamWorld) : StreamWorld → Prop where
  | refl : StreamRun heartbeatEvery start start
  | step {world : StreamWorld} (run : StreamRun heartbeatEvery start world) (op : StreamOp) :
      StreamRun heartbeatEvery start (op.run heartbeatEvery world)

/-- The events of a log are numbered from 1 on. -/
def Numbered (log : List HistoryEvent) : Prop :=
  log.map HistoryEvent.sequenceNumber = List.range' 1 log.length

/-- No client has asked for the stream yet. -/
structure StreamWorld.Fresh (world : StreamWorld) : Prop where
  numbered : Numbered world.log
  closed : world.status ≠ .running → world.closedLength ≤ world.log.length
  connection : world.connection = none
  request : world.request = none
  received : world.received = []
  lastId : world.lastId = none
  ended : world.ended = false

/-- Steps of the server for one connection, and messages that its client takes, with nothing that cuts
it off: how many steps of the server. -/
inductive Undisturbed (heartbeatEvery : Nat) (start : StreamWorld) : Nat → StreamWorld → Prop where
  | refl : Undisturbed heartbeatEvery start 0 start
  | serves {steps : Nat} {world : StreamWorld} (before : Undisturbed heartbeatEvery start steps world) :
      Undisturbed heartbeatEvery start (steps + 1) (StreamOp.serves.run heartbeatEvery world)
  | receives {steps : Nat} {world : StreamWorld} (before : Undisturbed heartbeatEvery start steps world) :
      Undisturbed heartbeatEvery start steps (StreamOp.receives.run heartbeatEvery world)

end Runs

section Logs

variable {log more : List HistoryEvent} {cursor offset : Nat}

theorem readEvents_drop (numbered : Numbered log) : readEvents log cursor = log.drop cursor := by
  suffices shifted : ∀ (log : List HistoryEvent) (offset : Nat),
      log.map HistoryEvent.sequenceNumber = List.range' (offset + 1) log.length →
        readEvents log cursor = log.drop (cursor - offset) from shifted log 0 numbered
  intro log
  induction log with
  | nil => intro offset _; simp [readEvents]
  | cons first rest ih =>
    intro offset numbered
    rw [List.map_cons, List.length_cons, List.range'_succ] at numbered
    obtain ⟨own, others⟩ := List.cons.inj numbered
    have later := ih (offset + 1) others
    unfold readEvents at later ⊢
    rw [List.filter_cons, own]
    by_cases after : cursor < offset + 1
    · have none' : cursor - offset = 0 := by omega
      have none'' : cursor - (offset + 1) = 0 := by omega
      rw [if_pos (decide_eq_true after), later, none', none'', List.drop_zero, List.drop_zero]
    · have one : cursor - offset = cursor - (offset + 1) + 1 := by omega
      rw [if_neg (by simpa using after), later, one, List.drop_succ_cons]

/-- The number of the last event of a slice. -/
theorem Numbered.last {events : List HistoryEvent} (numbered : Numbered log) (part : events <+: log.drop cursor) :
    (events.getLast?.map HistoryEvent.sequenceNumber).getD cursor = cursor + events.length := by
  have numbers : events.map HistoryEvent.sequenceNumber <+: List.range' (1 + cursor) (log.length - cursor) := by
    have mapped := part.map HistoryEvent.sequenceNumber
    rwa [List.map_drop, numbered, List.drop_range', Nat.mul_one] at mapped
  have own : events.map HistoryEvent.sequenceNumber = List.range' (1 + cursor) events.length := by
    have short := numbers.length_le
    rw [List.length_map, List.length_range'] at short
    rw [List.prefix_iff_eq_take.mp numbers, List.length_map, List.take_range'_of_length_ge short]
  rw [← List.getLast?_map, own, List.getLast?_range']
  split
  · next none' => rw [none']; rfl
  · rw [Option.getD_some]
    omega

theorem Numbered.append (numbered : Numbered log) (events : List (Instant × WorkflowEvent)) :
    Numbered (log ++ (events.zipIdx (log.length + 1)).map fun entry => ⟨entry.2, entry.1.1, entry.1.2⟩) := by
  unfold Numbered at numbered ⊢
  rw [List.map_append, numbered, List.map_map, List.length_append, List.length_map, List.length_zipIdx]
  have numbers : (events.zipIdx (log.length + 1)).map (HistoryEvent.sequenceNumber ∘ fun entry =>
      ⟨entry.2, entry.1.1, entry.1.2⟩) = List.range' (log.length + 1) events.length := by
    rw [← List.zipIdx_map_snd]
    rfl
  rw [numbers, Nat.add_comm log.length 1, List.range'_append_1]

end Logs

section Wires

variable {log more : List HistoryEvent} {from' middle to' heartbeatEvery : Nat} {wire others : List StreamMessage}
  {connection : Connection} {slice : HistorySlice}

/-- The slices of a wire carry the log on from one position to another. -/
def Chained (log : List HistoryEvent) : Nat → List StreamMessage → Nat → Prop
  | from', [], to' => from' = to'
  | from', .slice id slice :: rest, to' =>
    slice.events <+: log.drop from' ∧ id = from' + slice.events.length ∧ Chained log id rest to'
  | from', _ :: rest, to' => Chained log from' rest to'

theorem Chained.append (first : Chained log from' wire middle) (second : Chained log middle others to') :
    Chained log from' (wire ++ others) to' := by
  induction wire generalizing from' with
  | nil =>
    obtain rfl : from' = middle := first
    exact second
  | cons message rest ih =>
    cases message with
    | slice id slice =>
      obtain ⟨part, own, onward⟩ := first
      exact ⟨part, own, ih onward⟩
    | opened | ping | finished | reconnect => exact ih first

theorem drop_grows {events : List HistoryEvent} (part : events <+: log.drop from') : events <+: (log ++ more).drop from' := by
  rw [List.drop_append]
  exact part.trans (List.prefix_append _ _)

theorem Chained.grows (chained : Chained log from' wire to') : Chained (log ++ more) from' wire to' := by
  induction wire generalizing from' with
  | nil => exact chained
  | cons message rest ih =>
    cases message with
    | slice id slice =>
      obtain ⟨part, own, onward⟩ := chained
      exact ⟨drop_grows part, own, ih onward⟩
    | opened | ping | finished | reconnect => exact ih chained

/-- What a round of the loop writes: a slice, the end, or nothing that carries events. -/
inductive Handles (slice : HistorySlice) (connection later : Connection) : Prop where
  | writes (carries : slice.events ≠ [] ∨ connection.lastStatus ≠ some slice.status)
      (cursor : later.cursor = connection.cursor + slice.events.length) (stage : later.stage = .resting)
      (lastStatus : later.lastStatus = some slice.status)
      (wire : ∃ lead, .finished ∉ lead ∧ (∀ log at', Chained log at' lead at') ∧
        later.wire = connection.wire ++ lead ++ [.slice later.cursor slice])
  | finishes (quiet : slice.events = []) (same : connection.lastStatus = some slice.status) (closed : slice.closed = true)
      (cursor : later.cursor = connection.cursor) (stage : later.stage = .ended)
      (lastStatus : later.lastStatus = connection.lastStatus)
      (wire : ∃ lead, .finished ∉ lead ∧ (∀ log at', Chained log at' lead at') ∧
        later.wire = connection.wire ++ lead ++ [.finished])
  | idles (quiet : slice.events = []) (same : connection.lastStatus = some slice.status) (opened : slice.closed = false)
      (cursor : later.cursor = connection.cursor) (stage : later.stage = .resting)
      (lastStatus : later.lastStatus = connection.lastStatus)
      (wire : ∃ lead, .finished ∉ lead ∧ (∀ log at', Chained log at' lead at') ∧ later.wire = connection.wire ++ lead)

theorem handleSlice_handles (numbered : Numbered log) (part : slice.events <+: log.drop connection.cursor) :
    Handles slice connection (handleSlice heartbeatEvery slice connection) := by
  have last := numbered.last part
  -- the first round also writes the opening comment
  obtain ⟨lead, plain, neutral, opening⟩ : ∃ lead : List StreamMessage, .finished ∉ lead ∧
      (∀ log at', Chained log at' lead at') ∧ (if connection.opened then connection else
        { connection with opened := true, wire := connection.wire ++ [.opened] }) =
        { connection with opened := true, wire := connection.wire ++ lead } := by
    cases already : connection.opened with
    | true =>
      refine ⟨[], List.not_mem_nil, fun _ _ => rfl, ?_⟩
      rw [if_pos rfl, List.append_nil, ← already]
    | false =>
      refine ⟨[.opened], ?_, fun _ _ => rfl, ?_⟩
      · rw [List.mem_singleton]
        exact fun same => nomatch same
      · rw [if_neg (by decide)]
  unfold handleSlice
  rw [opening]
  dsimp only
  split
  · next carries =>
      refine .writes ?_ last rfl rfl ⟨lead, plain, neutral, rfl⟩
      simpa using carries
  · next quiet =>
      simp only [Bool.or_eq_true, Bool.not_eq_true', List.isEmpty_eq_false_iff, decide_eq_true_eq, not_or,
        not_not] at quiet
      split
      · next closed => exact .finishes quiet.1 quiet.2 closed rfl rfl rfl ⟨lead, plain, neutral, rfl⟩
      · next opened =>
          have still : slice.closed = false := by simpa using opened
          split
          · next beat =>
              refine .idles quiet.1 quiet.2 still rfl rfl rfl ⟨lead ++ [.ping], ?_, fun log at' => ?_, ?_⟩
              · rw [List.mem_append, List.mem_singleton]
                exact fun either => either.elim plain fun same => nomatch same
              · exact (neutral log at').append rfl
              · rw [← List.append_assoc]
          · exact .idles quiet.1 quiet.2 still rfl rfl rfl ⟨lead, plain, neutral, rfl⟩

end Wires

section Invariant

variable {heartbeatEvery start steps : Nat} {world first : StreamWorld} {connection : Connection}

/-- A connection carries the log on from where its client is. What it read of a closed run is the
status of the run and all that is left of the log that it was closed with, and after the end it
writes nothing. -/
structure Pumping (world : StreamWorld) (from' : Nat) (connection : Connection) : Prop where
  chained : Chained world.log from' connection.wire connection.cursor
  read : ∀ status, connection.stage = .statusRead status → status ≠ .running → world.status = status
  sliced : ∀ slice, connection.stage = .sliced slice → slice.events <+: world.log.drop connection.cursor ∧
    slice.closed = decide (slice.status ≠ .running) ∧ (slice.status ≠ .running → world.status = slice.status ∧
      world.closedLength ≤ connection.cursor + slice.events.length)
  finishing : ∀ before rest, connection.wire = before ++ .finished :: rest → rest = [] ∧ connection.stage = .ended ∧
    world.status ≠ .running ∧ world.closedLength ≤ connection.cursor

/-- The client has received a part of the log from its first position on. -/
structure Streaming (start : Nat) (world : StreamWorld) : Prop where
  numbered : Numbered world.log
  closed : world.status ≠ .running → world.closedLength ≤ world.log.length
  received : world.received <+: world.log.drop start
  unnamed : world.lastId = none → world.received = []
  named : ∀ id, world.lastId = some id → id = start + world.received.length
  request : ∃ after lastEventId, world.request = some (after, lastEventId) ∧
    parseStreamCursor after lastEventId = some start
  pumping : ∀ connection, world.connection = some connection → Pumping world (start + world.received.length) connection
  ended : world.ended = true → world.status ≠ .running ∧ world.closedLength ≤ start + world.received.length

/-- A reconnecting client names the position that it has come to. -/
theorem parseStreamCursor_id {id cursor : Nat} (parsed : parseStreamCursor none (some (toString id)) = some cursor) : cursor = id := by
  unfold parseStreamCursor at parsed
  dsimp only [Option.orElse_none, Option.getD_some] at parsed
  split at parsed
  · obtain rfl := Option.some.inj parsed
    rw [Nat.toString_eq_repr, Nat.toList_repr]
    exact Nat.ofDigitChars_toDigits (by decide) (by decide)
  · cases parsed

/-- A new connection has written nothing. -/
theorem Pumping.connected (cursor : Nat) : Pumping world cursor ⟨cursor, .reading, false, none, 0, []⟩ := by
  refine ⟨rfl, (fun _ same => nomatch same), (fun _ same => nomatch same), fun before rest same => ?_⟩
  exact absurd same.symm (List.append_ne_nil_of_right_ne_nil before (List.cons_ne_nil _ _))

theorem finished_last {wire lead before rest : List StreamMessage} (quiet : .finished ∉ wire) (plain : .finished ∉ lead)
    (same : wire ++ lead ++ [.finished] = before ++ .finished :: rest) : rest = [] := by
  have absent : StreamMessage.finished ∉ wire ++ lead := fun listed =>
    (List.mem_append.mp listed).elim quiet plain
  rcases List.append_eq_append_iff.mp same with ⟨more, one, two⟩ | ⟨more, one, two⟩
  · cases more with
    | nil => exact (List.cons.inj two).2.symm
    | cons message more =>
      obtain ⟨-, tail⟩ := List.cons.inj two
      exact absurd tail.symm (List.append_ne_nil_of_right_ne_nil more (List.cons_ne_nil _ _))
  · cases more with
    | nil => exact (List.cons.inj two).2
    | cons message more =>
      obtain ⟨own, -⟩ := List.cons.inj two
      refine absurd ?_ absent
      rw [one, own]
      exact List.mem_append_right _ List.mem_cons_self

/-- Before it is over, a connection has not written the end. -/
theorem Pumping.unfinished {from' : Nat} (pumping : Pumping world from' connection) (onward : connection.stage ≠ .ended) :
    .finished ∉ connection.wire := by
  intro listed
  obtain ⟨before, rest, same⟩ := List.append_of_mem listed
  exact onward (pumping.finishing before rest same).2.1

/-- A step of the server keeps what its connection promises. -/
theorem Pumping.pump {from' : Nat} (pumping : Pumping world from' connection) (numbered : Numbered world.log)
    (shut : world.status ≠ .running → world.closedLength ≤ world.log.length) :
    Pumping world from' (pump heartbeatEvery world.log world.status connection) := by
  cases at' : connection.stage with
  | reading =>
    simp only [Streams.pump, at']
    refine ⟨pumping.chained, ?_, (fun _ same => nomatch same), fun before rest same => ?_⟩
    · rintro status ⟨⟩ _
      rfl
    · have past := (pumping.finishing before rest same).2.1
      rw [at'] at past
      cases past
  | statusRead status =>
    simp only [Streams.pump, at']
    refine ⟨pumping.chained, (fun _ same => nomatch same), ?_, fun before rest same => ?_⟩
    · rintro slice ⟨⟩
      dsimp only
      rw [readEvents_drop numbered]
      refine ⟨List.prefix_refl _, rfl, fun closed => ⟨pumping.read status at' closed, ?_⟩⟩
      have same := pumping.read status at' closed
      have whole := shut (same ▸ closed)
      rw [List.length_drop]
      omega
    · have past := (pumping.finishing before rest same).2.1
      rw [at'] at past
      cases past
  | sliced slice =>
    simp only [Streams.pump, at']
    obtain ⟨part, own, whole⟩ := pumping.sliced slice at'
    have quiet := pumping.unfinished (by rw [at']; exact fun same => nomatch same)
    have noEnd {lead : List StreamMessage} {message : StreamMessage} (plain : .finished ∉ lead)
        (other : message ≠ .finished) {before rest : List StreamMessage}
        (same : connection.wire ++ lead ++ [message] = before ++ .finished :: rest) : False := by
      have listed : StreamMessage.finished ∈ connection.wire ++ lead ++ [message] :=
        same ▸ List.mem_append_right before List.mem_cons_self
      rcases List.mem_append.mp listed with either | own
      · exact (List.mem_append.mp either).elim quiet plain
      · exact other (List.mem_singleton.mp own).symm
    cases handleSlice_handles numbered part with
    | writes carries cursor stage lastStatus wire =>
      obtain ⟨lead, plain, neutral, wire⟩ := wire
      refine ⟨?_, fun _ same => ?_, fun _ same => ?_, fun before rest same => ?_⟩
      · rw [wire]
        refine (pumping.chained.append (neutral _ _)).append ?_
        exact ⟨part, cursor, rfl⟩
      · rw [stage] at same
        cases same
      · rw [stage] at same
        cases same
      · rw [wire] at same
        exact (noEnd plain (fun end' : StreamMessage.slice _ slice = .finished => nomatch end') same).elim
    | finishes quiet' same closed cursor stage lastStatus wire =>
      obtain ⟨lead, plain, neutral, wire⟩ := wire
      refine ⟨?_, fun _ same => ?_, fun _ same => ?_, fun before rest same => ?_⟩
      · rw [wire, cursor]
        exact (pumping.chained.append (neutral _ _)).append rfl
      · rw [stage] at same
        cases same
      · rw [stage] at same
        cases same
      · rw [wire] at same
        rw [closed] at own
        obtain ⟨status, all⟩ := whole (of_decide_eq_true own.symm)
        rw [quiet', List.length_nil, Nat.add_zero] at all
        rw [cursor, status]
        exact ⟨finished_last quiet plain same, stage, of_decide_eq_true own.symm, all⟩
    | idles quiet' same opened cursor stage lastStatus wire =>
      obtain ⟨lead, plain, neutral, wire⟩ := wire
      refine ⟨?_, fun _ same => ?_, fun _ same => ?_, fun before rest same => ?_⟩
      · rw [wire, cursor]
        exact pumping.chained.append (neutral _ _)
      · rw [stage] at same
        cases same
      · rw [stage] at same
        cases same
      · rw [wire] at same
        have listed : StreamMessage.finished ∈ connection.wire ++ lead :=
          same ▸ List.mem_append_right before List.mem_cons_self
        exact ((List.mem_append.mp listed).elim quiet plain).elim
  | resting =>
    simp only [Streams.pump, at']
    refine ⟨pumping.chained, (fun _ same => nomatch same), (fun _ same => nomatch same), fun before rest same => ?_⟩
    have past := (pumping.finishing before rest same).2.1
    rw [at'] at past
    cases past
  | ended =>
    simp only [Streams.pump, at']
    exact pumping

theorem Pumping.append {from' : Nat} (pumping : Pumping world from' connection) (events : List (Instant × WorkflowEvent)) :
    Pumping (world.append events) from' connection where
  chained := pumping.chained.grows
  read := pumping.read
  sliced slice at' := by
    obtain ⟨part, own, whole⟩ := pumping.sliced slice at'
    exact ⟨drop_grows part, own, whole⟩
  finishing := pumping.finishing

/-- A connection of an open run has read nothing of a closed one. -/
theorem Pumping.closes {from' closedLength : Nat} {status : RunState} (pumping : Pumping world from' connection)
    (opened : world.status = .running) (events : List (Instant × WorkflowEvent)) :
    Pumping { world.append events with status := status, closedLength := closedLength } from' connection where
  chained := pumping.chained.grows
  read own at' closed := absurd ((pumping.read own at' closed).symm.trans opened) closed
  sliced slice at' := by
    obtain ⟨part, own, whole⟩ := pumping.sliced slice at'
    exact ⟨drop_grows part, own, fun closed => absurd ((whole closed).1.symm.trans opened) closed⟩
  finishing before rest same := absurd opened (pumping.finishing before rest same).2.2.1

/-- The client takes a message off the wire. -/
theorem Pumping.takes {from' middle : Nat} {message : StreamMessage} {rest : List StreamMessage}
    (pumping : Pumping world from' connection) (wire : connection.wire = message :: rest)
    (onward : Chained world.log middle rest connection.cursor) :
    Pumping world middle { connection with wire := rest } where
  chained := onward
  read := pumping.read
  sliced := pumping.sliced
  finishing before later same := pumping.finishing (message :: before) later (wire.trans (congrArg _ same))

theorem Pumping.expires {from' : Nat} (pumping : Pumping world from' connection) (at' : connection.stage = .resting) :
    Pumping world from' { connection with stage := .ended, wire := connection.wire ++ [.reconnect] } where
  chained := pumping.chained.append rfl
  read _ same := nomatch same
  sliced _ same := nomatch same
  finishing before rest same := by
    have quiet := pumping.unfinished (by rw [at']; exact fun same => nomatch same)
    have whole : connection.wire ++ [.reconnect] = before ++ .finished :: rest := same
    have listed : StreamMessage.finished ∈ connection.wire ++ [.reconnect] :=
      whole ▸ List.mem_append_right before List.mem_cons_self
    rcases List.mem_append.mp listed with own | own
    · exact absurd own quiet
    · exact nomatch List.mem_singleton.mp own

/-- A slice carries on what the client has received. -/
theorem received_append {log received events : List HistoryEvent} (before : received <+: log.drop start)
    (part : events <+: log.drop (start + received.length)) : received ++ events <+: log.drop start := by
  obtain ⟨rest, whole⟩ := before
  have left : log.drop (start + received.length) = rest := by
    rw [← List.drop_drop, ← whole, List.drop_left]
  rw [← whole]
  exact (List.prefix_append_right_inj received).mpr (left ▸ part)

theorem Streaming.append (streaming : Streaming start world) (events : List (Instant × WorkflowEvent)) :
    Streaming start (world.append events) where
  numbered := streaming.numbered.append events
  closed shut := (streaming.closed shut).trans (List.length_append ▸ Nat.le_add_right _ _)
  received := drop_grows streaming.received
  unnamed := streaming.unnamed
  named := streaming.named
  request := streaming.request
  pumping connection own := (streaming.pumping connection own).append events
  ended := streaming.ended

theorem Streaming.closes {status : RunState} (streaming : Streaming start world) (opened : world.status = .running)
    (events : List (Instant × WorkflowEvent)) :
    Streaming start { world.append events with
      status := status, closedLength := world.log.length + events.length } where
  numbered := streaming.numbered.append events
  closed _ := by
    simp [StreamWorld.append]
  received := drop_grows streaming.received
  unnamed := streaming.unnamed
  named := streaming.named
  request := streaming.request
  pumping connection own := (streaming.pumping connection own).closes opened events
  ended past := absurd opened (streaming.ended past).1

/-- A change of the connection alone. -/
theorem Streaming.rewired (streaming : Streaming start world) {changed : Option Connection}
    (pumping : ∀ connection, changed = some connection → Pumping world (start + world.received.length) connection) :
    Streaming start { world with connection := changed } where
  numbered := streaming.numbered
  closed := streaming.closed
  received := streaming.received
  unnamed := streaming.unnamed
  named := streaming.named
  request := streaming.request
  pumping connection own :=
    let kept := pumping connection own
    ⟨kept.chained, kept.read, kept.sliced, kept.finishing⟩
  ended := streaming.ended

theorem Streaming.receive (streaming : Streaming start world) (own : world.connection = some connection) :
    Streaming start (world.receive connection) := by
  have pumping := streaming.pumping connection own
  unfold StreamWorld.receive
  split
  · exact streaming
  · next id slice rest wire =>
      have chained := pumping.chained
      rw [wire] at chained
      obtain ⟨part, position, onward⟩ := chained
      have longer : start + (world.received ++ slice.events).length = id := by
        rw [List.length_append, position, Nat.add_assoc]
      refine ⟨streaming.numbered, streaming.closed, received_append streaming.received part, ?_, ?_, streaming.request, ?_, ?_⟩
      · exact fun none' => nomatch none'
      · rintro named ⟨⟩
        exact longer.symm
      · rintro connection ⟨⟩
        rw [longer]
        have kept := pumping.takes wire onward
        exact ⟨kept.chained, kept.read, kept.sliced, kept.finishing⟩
      · intro past
        obtain ⟨shut, whole⟩ := streaming.ended past
        refine ⟨shut, whole.trans ?_⟩
        rw [List.length_append]
        omega
  · next rest wire =>
      have chained := pumping.chained
      rw [wire] at chained
      obtain ⟨last, -, shut, whole⟩ := pumping.finishing [] rest wire
      have kept := pumping.takes wire chained
      refine ⟨streaming.numbered, streaming.closed, streaming.received, streaming.unnamed, streaming.named,
        streaming.request, ?_, fun _ => ⟨shut, ?_⟩⟩
      · rintro connection ⟨⟩
        exact ⟨kept.chained, kept.read, kept.sliced, kept.finishing⟩
      · subst last
        have here : start + world.received.length = connection.cursor := chained
        rw [here]
        exact whole
  · next message rest other _ wire =>
      have chained := pumping.chained
      rw [wire] at chained
      have onward : Chained world.log (start + world.received.length) rest connection.cursor := by
        cases message with
        | slice id slice => exact absurd rfl (other id slice)
        | opened | ping | finished | reconnect => exact chained
      refine streaming.rewired ?_
      rintro changed ⟨⟩
      exact pumping.takes wire onward

/-- Every operation keeps what the stream promises. -/
theorem Streaming.step (streaming : Streaming start world) (op : StreamOp) : Streaming start (op.run heartbeatEvery world) := by
  cases op with
  | appends events => exact streaming.append events
  | closes status events =>
    simp only [StreamOp.run]
    split
    · next met => exact streaming.closes met.1 events
    · exact streaming
  | connects after lastEventId =>
    obtain ⟨first, header, asked, -⟩ := streaming.request
    simp only [StreamOp.run, asked]
    exact streaming
  | serves =>
    refine streaming.rewired fun changed same => ?_
    obtain ⟨connection, own, rfl⟩ := Option.map_eq_some_iff.mp same
    exact (streaming.pumping connection own).pump streaming.numbered streaming.closed
  | expires =>
    refine streaming.rewired fun changed same => ?_
    obtain ⟨connection, own, rfl⟩ := Option.map_eq_some_iff.mp same
    have pumping := streaming.pumping connection own
    split
    · next at' => exact pumping.expires at'
    · exact pumping
  | receives =>
    simp only [StreamOp.run]
    split
    · exact streaming
    · next connection own => exact streaming.receive own
  | disconnects => exact streaming.rewired fun _ none' => nomatch none'
  | reconnects =>
    obtain ⟨after, lastEventId, asked, parsed⟩ := streaming.request
    simp only [StreamOp.run]
    split
    · next own _ named =>
        refine streaming.rewired fun changed same => ?_
        obtain ⟨cursor, read, rfl⟩ := Option.map_eq_some_iff.mp same
        rw [parseStreamCursor_id read, streaming.named _ named]
        exact Pumping.connected _
    · next first header own again unnamed =>
        refine streaming.rewired fun changed same => ?_
        obtain ⟨cursor, read, rfl⟩ := Option.map_eq_some_iff.mp same
        obtain ⟨rfl, rfl⟩ := Prod.mk.inj (Option.some.inj (asked.symm.trans again))
        obtain rfl := Option.some.inj (parsed.symm.trans read)
        rw [streaming.unnamed unnamed]
        exact Pumping.connected _
    · exact streaming

theorem StreamWorld.Fresh.rewired (fresh : world.Fresh) {changed : Option Connection} (absent : changed = none) :
    StreamWorld.Fresh { world with connection := changed } where
  numbered := fresh.numbered
  closed := fresh.closed
  connection := absent
  request := fresh.request
  received := fresh.received
  lastId := fresh.lastId
  ended := fresh.ended

/-- Until a client asks for the stream, nothing is promised to it. -/
theorem StreamWorld.Fresh.step (fresh : world.Fresh) (op : StreamOp) :
    (op.run heartbeatEvery world).Fresh ∨ ∃ start, Streaming start (op.run heartbeatEvery world) := by
  cases op with
  | appends events =>
    refine .inl ⟨fresh.numbered.append events, fun shut => ?_, fresh.connection, fresh.request, fresh.received,
      fresh.lastId, fresh.ended⟩
    exact (fresh.closed shut).trans (List.length_append ▸ Nat.le_add_right _ _)
  | closes status events =>
    simp only [StreamOp.run]
    split
    · refine .inl ⟨fresh.numbered.append events, fun _ => ?_, fresh.connection, fresh.request, fresh.received,
        fresh.lastId, fresh.ended⟩
      simp [StreamWorld.append]
    · exact .inl fresh
  | connects after lastEventId =>
    simp only [StreamOp.run, fresh.request]
    split
    · next connection same =>
        obtain ⟨cursor, parsed, rfl⟩ := Option.map_eq_some_iff.mp same
        refine .inr ⟨cursor, fresh.numbered, fresh.closed, ?_, fun _ => fresh.received, ?_,
          ⟨after, lastEventId, rfl, parsed⟩, ?_, ?_⟩
        · dsimp only
          rw [fresh.received]
          exact List.nil_prefix
        · dsimp only
          rw [fresh.lastId]
          exact fun _ none' => nomatch none'
        · rintro connection ⟨⟩
          dsimp only
          rw [fresh.received]
          exact Pumping.connected cursor
        · dsimp only
          rw [fresh.ended]
          exact fun past => nomatch past
    · exact .inl fresh
  | serves => exact .inl (fresh.rewired (congrArg (Option.map _) fresh.connection))
  | expires => exact .inl (fresh.rewired (congrArg (Option.map _) fresh.connection))
  | disconnects => exact .inl (fresh.rewired rfl)
  | receives | reconnects =>
    simp only [StreamOp.run, fresh.connection, fresh.request]
    exact .inl fresh

/-- The run lemma: in every world a client has not asked yet or its stream keeps its promises. -/
theorem StreamRun.streaming (run : StreamRun heartbeatEvery first world) (fresh : first.Fresh) :
    world.Fresh ∨ ∃ start, Streaming start world := by
  induction run with
  | refl => exact .inl fresh
  | step run op ih =>
    rcases ih with fresh | ⟨start, streaming⟩
    · exact fresh.step op
    · exact .inr ⟨start, streaming.step op⟩

end Invariant

section Ending

variable {heartbeatEvery steps : Nat} {log : List HistoryEvent} {status : RunState} {world later : StreamWorld}
  {connection : Connection}

/-- How many steps of the server a connection of a closed run is from its end, at most. -/
inductive Nears (log : List HistoryEvent) (status : RunState) (connection : Connection) : Nat → Prop where
  | slicedEnd (at' : connection.stage = .sliced ⟨[], status, true⟩) (same : connection.lastStatus = some status) :
      Nears log status connection 1
  | readEnd (at' : connection.stage = .statusRead status) (same : connection.lastStatus = some status)
      (all : log.length ≤ connection.cursor) : Nears log status connection 2
  | readingEnd (at' : connection.stage = .reading) (same : connection.lastStatus = some status)
      (all : log.length ≤ connection.cursor) : Nears log status connection 3
  | restingEnd (at' : connection.stage = .resting) (same : connection.lastStatus = some status)
      (all : log.length ≤ connection.cursor) : Nears log status connection 4
  | slicedAll (at' : connection.stage = .sliced ⟨log.drop connection.cursor, status, true⟩) :
      Nears log status connection 5
  | readClosed (at' : connection.stage = .statusRead status) : Nears log status connection 6
  | reading (at' : connection.stage = .reading) : Nears log status connection 7
  | resting (at' : connection.stage = .resting) : Nears log status connection 8
  | sliced {slice : HistorySlice} (at' : connection.stage = .sliced slice) : Nears log status connection 9
  | statusRead {read : RunState} (at' : connection.stage = .statusRead read) : Nears log status connection 10

theorem nears_start (onward : connection.stage ≠ .ended) : ∃ due, due ≤ 10 ∧ Nears log status connection due := by
  cases at' : connection.stage with
  | reading => exact ⟨7, by decide, .reading at'⟩
  | statusRead read => exact ⟨10, by decide, .statusRead at'⟩
  | sliced slice => exact ⟨9, by decide, .sliced at'⟩
  | resting => exact ⟨8, by decide, .resting at'⟩
  | ended => exact absurd at' onward

theorem Nears.onward {due : Nat} (nears : Nears log status connection due) : connection.stage ≠ .ended := by
  intro past
  cases nears with
  | slicedEnd at' | readEnd at' | readingEnd at' | restingEnd at' | slicedAll at' | readClosed at' | reading at'
  | resting at' | sliced at' | statusRead at' =>
    rw [past] at at'
    cases at'

/-- A step of the server brings a connection of a closed run nearer to its end, or ends it. -/
theorem Nears.pump {due : Nat} (nears : Nears log status connection due) (numbered : Numbered log) (closed : status ≠ .running)
    (part : ∀ slice, connection.stage = .sliced slice → slice.events <+: log.drop connection.cursor) :
    .finished ∈ (pump heartbeatEvery log status connection).wire ∨
      ∃ left, left < due ∧ Nears log status (Streams.pump heartbeatEvery log status connection) left := by
  have shut : decide (status ≠ .running) = true := decide_eq_true closed
  cases nears with
  | slicedEnd at' same =>
    left
    have handles := @handleSlice_handles _ heartbeatEvery _ _ numbered (part _ at')
    simp only [Streams.pump, at']
    cases handles with
    | writes carries => exact absurd same (carries.resolve_left fun some' => some' rfl)
    | finishes _ _ _ _ _ _ wire =>
      obtain ⟨lead, -, -, wire⟩ := wire
      rw [wire]
      exact List.mem_append_right _ (List.mem_singleton.mpr rfl)
    | idles _ _ opened => cases opened
  | readEnd at' same all =>
    right
    refine ⟨1, by decide, .slicedEnd ?_ ?_⟩
    · simp only [Streams.pump, at', readEvents_drop numbered, List.drop_eq_nil_of_le all, shut]
    · simp only [Streams.pump, at', same]
  | readingEnd at' same all =>
    right
    refine ⟨2, by decide, .readEnd ?_ ?_ ?_⟩ <;> simp only [Streams.pump, at', same, all]
  | restingEnd at' same all =>
    right
    refine ⟨3, by decide, .readingEnd ?_ ?_ ?_⟩ <;> simp only [Streams.pump, at', same, all]
  | slicedAll at' =>
    have handles := @handleSlice_handles _ heartbeatEvery _ _ numbered (part _ at')
    simp only [Streams.pump, at']
    cases handles with
    | writes _ cursor stage lastStatus _ =>
      right
      refine ⟨4, by decide, .restingEnd stage lastStatus ?_⟩
      rw [cursor, List.length_drop]
      omega
    | finishes _ _ _ _ _ _ wire =>
      left
      obtain ⟨lead, -, -, wire⟩ := wire
      rw [wire]
      exact List.mem_append_right _ (List.mem_singleton.mpr rfl)
    | idles _ _ opened => cases opened
  | readClosed at' =>
    right
    refine ⟨5, by decide, .slicedAll ?_⟩
    simp only [Streams.pump, at', readEvents_drop numbered, shut]
  | reading at' =>
    right
    refine ⟨6, by decide, .readClosed ?_⟩
    simp only [Streams.pump, at']
  | resting at' =>
    right
    refine ⟨7, by decide, .reading ?_⟩
    simp only [Streams.pump, at']
  | sliced at' =>
    have handles := @handleSlice_handles _ heartbeatEvery _ _ numbered (part _ at')
    simp only [Streams.pump, at']
    cases handles with
    | writes _ _ stage => exact .inr ⟨8, by decide, .resting stage⟩
    | finishes _ _ _ _ _ _ wire =>
      left
      obtain ⟨lead, -, -, wire⟩ := wire
      rw [wire]
      exact List.mem_append_right _ (List.mem_singleton.mpr rfl)
    | idles _ _ _ _ stage => exact .inr ⟨8, by decide, .resting stage⟩
  | @statusRead read at' =>
    right
    have next' : (Streams.pump heartbeatEvery log status connection).stage =
        .sliced ⟨readEvents log connection.cursor, read, read ≠ .running⟩ := by
      simp only [Streams.pump, at']
    exact ⟨9, by decide, .sliced next'⟩

theorem Nears.takes {due : Nat} {wire : List StreamMessage} (nears : Nears log status connection due) :
    Nears log status { connection with wire := wire } due := by
  cases nears with
  | slicedEnd at' same => exact .slicedEnd at' same
  | readEnd at' same all => exact .readEnd at' same all
  | readingEnd at' same all => exact .readingEnd at' same all
  | restingEnd at' same all => exact .restingEnd at' same all
  | slicedAll at' => exact .slicedAll at'
  | readClosed at' => exact .readClosed at'
  | reading at' => exact .reading at'
  | resting at' => exact .resting at'
  | sliced at' => exact .sliced at'
  | statusRead at' => exact .statusRead at'

/-- The end is written, or it is near. -/
def Finishing (world : StreamWorld) (steps : Nat) : Prop :=
  world.ended = true ∨ ∃ connection, world.connection = some connection ∧
    (.finished ∈ connection.wire ∨ ∃ due, due + steps ≤ 10 ∧ Nears world.log world.status connection due)

theorem Finishing.serves {start : Nat} (finishing : Finishing world steps) (streaming : Streaming start world)
    (closed : world.status ≠ .running) : Finishing (StreamOp.serves.run heartbeatEvery world) (steps + 1) := by
  rcases finishing with ended | ⟨connection, own, written | ⟨due, near, nears⟩⟩
  · exact .inl ended
  · obtain ⟨before, rest, same⟩ := List.append_of_mem written
    have past := ((streaming.pumping connection own).finishing before rest same).2.1
    refine .inr ⟨connection, ?_, .inl written⟩
    simp only [StreamOp.run, own, Option.map_some, Streams.pump, past]
  · refine .inr ⟨_, congrArg (Option.map _) own, ?_⟩
    have part := fun slice at' => ((streaming.pumping connection own).sliced slice at').1
    rcases nears.pump streaming.numbered closed part with written | ⟨left, less, nearer⟩
    · exact .inl written
    · exact .inr ⟨left, by omega, nearer⟩

theorem Finishing.receives (finishing : Finishing world steps) : Finishing (StreamOp.receives.run heartbeatEvery world) steps := by
  rcases finishing with ended | ⟨connection, own, near⟩
  · left
    simp only [StreamOp.run]
    split
    · exact ended
    · unfold StreamWorld.receive
      split <;> first | exact ended | rfl
  · simp only [StreamOp.run, own, StreamWorld.receive]
    split
    · exact .inr ⟨connection, own, near⟩
    · next id slice rest wire =>
        refine .inr ⟨_, rfl, near.imp (fun written => ?_) fun ⟨due, less, nears⟩ => ⟨due, less, nears.takes⟩⟩
        rw [wire, List.mem_cons] at written
        exact written.resolve_left fun same => nomatch same
    · exact .inl rfl
    · next message rest _ other wire =>
        refine .inr ⟨_, rfl, near.imp (fun written => ?_) fun ⟨due, less, nears⟩ => ⟨due, less, nears.takes⟩⟩
        rw [wire, List.mem_cons] at written
        exact written.resolve_left fun same => other same.symm

/-- The run lemma of an undisturbed connection. -/
theorem Undisturbed.finishing {start : Nat} (undisturbed : Undisturbed heartbeatEvery world steps later)
    (streaming : Streaming start world) (closed : world.status ≠ .running) (own : world.connection = some connection)
    (onward : connection.stage ≠ .ended) : Streaming start later ∧ later.status ≠ .running ∧ Finishing later steps := by
  induction undisturbed with
  | refl =>
    obtain ⟨due, less, nears⟩ := nears_start onward
    exact ⟨streaming, closed, .inr ⟨connection, own, .inr ⟨due, less, nears⟩⟩⟩
  | serves before ih =>
    obtain ⟨kept, shut, near⟩ := ih
    exact ⟨kept.step .serves, shut, near.serves kept shut⟩
  | @receives steps world' before ih =>
    obtain ⟨kept, shut, near⟩ := ih
    refine ⟨kept.step .receives, ?_, near.receives⟩
    have same : (StreamOp.receives.run heartbeatEvery world').status = world'.status := by
      simp only [StreamOp.run]
      split
      · rfl
      · unfold StreamWorld.receive
        split <;> rfl
    exact same ▸ shut

end Ending

section Delivery

variable {heartbeatEvery start : Nat} {log : List HistoryEvent} {first world : StreamWorld}

/-- The events of the slices of a wire. -/
def written : List StreamMessage → List HistoryEvent
  | [] => []
  | .slice _ slice :: rest => slice.events ++ written rest
  | _ :: rest => written rest

theorem Chained.written {wire : List StreamMessage} {from' to' : Nat} (chained : Chained log from' wire to') :
    written wire <+: log.drop from' ∧ to' = from' + (Streams.written wire).length := by
  induction wire generalizing from' with
  | nil => exact ⟨List.nil_prefix, chained.symm⟩
  | cons message rest ih =>
    cases message with
    | slice id slice =>
      obtain ⟨part, position, onward⟩ := chained
      obtain ⟨tail, ends⟩ := ih onward
      refine ⟨received_append part (position ▸ tail), ?_⟩
      rw [ends, position, Streams.written, List.length_append, Nat.add_assoc]
    | opened | ping | finished | reconnect => exact ih chained

theorem Numbered.take (numbered : Numbered log) (count : Nat) : Numbered (log.take count) := by
  unfold Numbered at numbered ⊢
  rw [List.map_take, numbered, List.length_take]
  rcases Nat.le_total count log.length with less | more
  · rw [List.take_range'_of_length_ge less, Nat.min_eq_left less]
  · rw [List.take_of_length_le (by rw [List.length_range']; exact more), Nat.min_eq_right more]

/-- What is long enough holds every event that the run was closed with. -/
theorem closed_prefix {events : List HistoryEvent} {closedLength : Nat} (numbered : Numbered log)
    (part : events <+: log.drop start) (long : closedLength ≤ start + events.length) :
    readEvents (log.take closedLength) start <+: events := by
  have inner : readEvents (log.take closedLength) start <+: log.drop start := by
    rw [← readEvents_drop numbered]
    exact (List.take_prefix closedLength log).filter _
  refine List.prefix_of_prefix_length_le inner part ?_
  rw [readEvents_drop (numbered.take closedLength), List.length_drop, List.length_take]
  omega

theorem StreamRun.all (heartbeatEvery : Nat) (start : StreamWorld) (ops : List StreamOp) :
    StreamRun heartbeatEvery start (ops.foldl (StreamOp.run heartbeatEvery) start) := by
  suffices onward : ∀ world, StreamRun heartbeatEvery start world →
      StreamRun heartbeatEvery start (ops.foldl (StreamOp.run heartbeatEvery) world) from onward start .refl
  induction ops with
  | nil => exact fun _ run => run
  | cons op rest ih => exact fun _ run => ih _ (run.step op)

/-- The stream of a run delivers each event after the starting position once and in order, over
any reconnects; the end is written when the run is closed and every event that it was closed with is
written; and an undisturbed connection of a closed run writes it within ten steps. -/
theorem runStream_delivers (fresh : first.Fresh) (run : StreamRun heartbeatEvery first world)
    {after lastEventId : Option String} (asked : world.request = some (after, lastEventId))
    (parsed : parseStreamCursor after lastEventId = some start) : (world.received <+: readEvents world.log start ∧
      (readEvents world.log start).map HistoryEvent.sequenceNumber = List.range' (start + 1) (world.log.length - start)) ∧
    (∀ connection, world.connection = some connection → world.received ++ written connection.wire <+: readEvents world.log start ∧
      (.finished ∈ connection.wire → world.status ≠ .running ∧
        readEvents (world.log.take world.closedLength) start <+: world.received ++ written connection.wire)) ∧
    (world.ended = true → world.status ≠ .running ∧ readEvents (world.log.take world.closedLength) start <+: world.received ∧
      (world.log.length = world.closedLength → world.received = readEvents world.log start)) ∧
    (∀ connection, world.connection = some connection → connection.stage ≠ .ended → world.status ≠ .running →
      ∀ steps later, 10 ≤ steps → Undisturbed heartbeatEvery world steps later →
        later.ended = true ∨ ∃ connection, later.connection = some connection ∧ .finished ∈ connection.wire) := by
  obtain ⟨start', streaming⟩ : ∃ start, Streaming start world := by
    refine (run.streaming fresh).resolve_left fun fresh => ?_
    rw [fresh.request] at asked
    cases asked
  obtain rfl : start' = start := by
    obtain ⟨first', header, own, cursor⟩ := streaming.request
    obtain ⟨rfl, rfl⟩ := Prod.mk.inj (Option.some.inj (own.symm.trans asked))
    exact Option.some.inj (cursor.symm.trans parsed)
  have events := @readEvents_drop _ start' streaming.numbered
  refine ⟨⟨events ▸ streaming.received, ?_⟩, fun connection own => ?_, fun ended => ?_, ?_⟩
  · have numbered := streaming.numbered
    unfold Numbered at numbered
    rw [events, List.map_drop, numbered, List.drop_range', Nat.mul_one, Nat.add_comm]
  · have pumping := streaming.pumping connection own
    obtain ⟨part, position⟩ := pumping.chained.written
    have whole := received_append streaming.received part
    refine ⟨events ▸ whole, fun listed => ?_⟩
    obtain ⟨before, rest, same⟩ := List.append_of_mem listed
    obtain ⟨-, -, shut, all⟩ := pumping.finishing before rest same
    refine ⟨shut, closed_prefix streaming.numbered whole ?_⟩
    rw [List.length_append]
    omega
  · obtain ⟨shut, all⟩ := streaming.ended ended
    refine ⟨shut, closed_prefix streaming.numbered streaming.received all, fun quiet => ?_⟩
    rw [events]
    refine streaming.received.eq_of_length_le ?_
    rw [List.length_drop]
    omega
  · intro connection own onward closed steps later enough undisturbed
    obtain ⟨-, -, finishing⟩ := undisturbed.finishing streaming closed own onward
    refine finishing.imp_right ?_
    rintro ⟨connection, own, listed | ⟨due, less, nears⟩⟩
    · exact ⟨connection, own, listed⟩
    · cases nears <;> omega

/-- A connection breaks off, and its run closes before the client asks for what follows the last event it got. -/
theorem runStream_delivers_closed :
    let world := [StreamOp.connects none none, .appends [(.epoch, .runStarted "order" .null)], .serves, .serves, .serves, .serves,
      .receives, .disconnects, .closes .completed [(.epoch, .runCompleted .null)], .reconnects, .serves, .serves, .serves, .serves,
      .serves, .serves, .serves, .serves, .serves, .serves, .receives, .receives, .receives, .receives].foldl (StreamOp.run 1)
        ⟨[], .running, 0, none, none, [], none, false⟩
    world.received = readEvents world.log 0 ∧ world.received.length = 2 := by
  have fresh : StreamWorld.Fresh ⟨[], .running, 0, none, none, [], none, false⟩ :=
    ⟨rfl, fun _ => Nat.le_refl 0, rfl, rfl, rfl, rfl, rfl⟩
  refine ⟨?_, by decide⟩
  exact ((runStream_delivers fresh (StreamRun.all 1 _ _) rfl rfl).2.2.1 (by decide)).2.2 (by decide)

end Delivery

end DurableExecution.Streams
