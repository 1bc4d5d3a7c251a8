import DurableExecution.Workflow.CaughtUp

/-
This file shows that a run agrees with itself: a replay over the log that earlier
decisions built issues their commands again, in their order, and nothing of them twice.
-/

namespace DurableExecution.Workflow

open EventLoop

section Decisions

variable {H : Type} {replay : Replay} {start : Ledger}

theorem Replay.Allows.going {cancelled : Bool} (allowed : replay.Allows cancelled)
    (open' : cancelRequested replay.history = false) : cancelled = false := by
  cases cancelled with
  | false => rfl
  | true => cases open'.symm.trans (allowed rfl)

/-- After a replay has caught up, every call keeps it going on. -/
theorem replay_goesOn (open' : cancelRequested replay.history = false) (justified : Justified replay.history)
    (caughtUp : start.CaughtUp replay) : ReplayInvariant replay fun world : ReplayWorld H => start.GoesOn world.host.ledger where
  frame before after same goesOn := same.ledger ▸ goesOn
  step cancelled stepType input world allowed goesOn := by
    obtain rfl := allowed.going open'
    have counted := step_counted replay false stepType input world _ rfl
    refine goesOn.counted caughtUp counted rfl nofun ?_
    by_contra ended
    obtain ⟨recordedType, input', held⟩ := justified.step _ _ ended
    exact caughtUp.fresh goesOn.grown _ counted.between _ held rfl
  sleep cancelled durationMs world allowed goesOn := by
    obtain rfl := allowed.going open'
    cases accepted : durationMs.sleepMs with
    | none => exact sleep_refused replay false durationMs world accepted ▸ goesOn
    | some duration =>
      obtain ⟨fireAt, counted⟩ := sleep_counted replay false durationMs world _ rfl duration accepted
      refine goesOn.counted caughtUp counted rfl nofun ?_
      by_contra fired
      obtain ⟨durationMs', held⟩ := justified.timer _ fired
      exact caughtUp.fresh goesOn.grown _ counted.between _ held rfl
  waitForSignal cancelled signalName world allowed goesOn := by
    obtain rfl := allowed.going open'
    obtain ⟨deliveries, rejected, longer, going, same⟩ := waitForSignal_ledger replay false signalName world
    rw [same, going rfl]
    exact { goesOn with
      grown := goesOn.grown.trans { Ledger.Extends.refl world.host.ledger with } }
  startChild cancelled workflowType input options world allowed goesOn := by
    obtain rfl := allowed.going open'
    by_cases beyond : replay.options.childLimit < world.host.childSequence + 1
    · rw [startChild_refused replay false workflowType input options world beyond]
      refine { goesOn with grown := goesOn.grown.trans { Ledger.Extends.refl world.host.ledger with
        issued := ⟨[], (List.append_nil _).symm, fun _ absent => nomatch absent⟩
        children := Nat.le_succ _ } }
    · exact goesOn.counted caughtUp
        (startChild_counted replay false workflowType input options world _ rfl beyond) rfl nofun rfl
  decidePatch patchId world goesOn := goesOn.asked caughtUp (decidePatch_asked replay patchId world)
  now world goesOn := by
    have timed := now_timed replay world
    generalize (now replay world).1.host.ledger = after at timed ⊢
    cases timed with
    | replayed time recorded =>
      exact { goesOn with
        grown := goesOn.grown.trans { Ledger.Extends.refl world.host.ledger with } }
    | discovered time past =>
      have pushed := goesOn.push (.recordTime time) rfl
      exact { pushed with
        grown := pushed.grown.trans { Ledger.Extends.refl _ with } }
  noteChoice running world goesOn := by
    rw [show noteChoice replay running world = world by simp [noteChoice, open']]
    exact goesOn
  compensationFailed index reason world goesOn := by
    rcases compensationFailed_ledger replay index reason world with same | pushed
    · exact same ▸ goesOn
    · rw [pushed]
      exact goesOn.push _ rfl

theorem Ledger.GoesOn.withDeliveries {ledger : Ledger} (goesOn : start.GoesOn ledger) (place : Int)
    (deliveries : List (Nat × PromiseId × Except JsValue JsValue)) :
    start.GoesOn { ledger with fedUpTo := place, deliveries := deliveries } :=
  { goesOn with grown := goesOn.grown.trans { Ledger.Extends.refl ledger with } }

theorem release_goesOn (place : Nat) (world : ReplayWorld H) (goesOn : start.GoesOn world.host.ledger) :
    start.GoesOn (release place world).host.ledger := by
  rw [(release_sameLedger place world).ledger]
  exact goesOn.withDeliveries place _

/-- The ledger of a replay that caught up with its history and went on. -/
def Ledger.Faithful (replay : Replay) (ledger : Ledger) : Prop :=
  ∃ start : Ledger, start.CaughtUp replay ∧ start.GoesOn ledger

end Decisions

section Faithful

variable {replay : Replay} {ledger : Ledger}

theorem Ledger.Faithful.recorded (faithful : ledger.Faithful replay) : ledger.matcher.recorded = recordedCommands replay.history := by
  obtain ⟨start, caughtUp, goesOn⟩ := faithful
  exact goesOn.grown.recorded.trans caughtUp.grown.recorded

/-- All recorded commands are issued again. -/
theorem Ledger.Faithful.allIssued (faithful : ledger.Faithful replay) :
    (recordedCommands replay.history).length ≤ ledger.matcher.issued.length := by
  obtain ⟨start, caughtUp, goesOn⟩ := faithful
  obtain ⟨later, issued, -⟩ := goesOn.grown.issued
  rw [issued, List.length_append, caughtUp.issued]
  exact Nat.le_add_right _ _

/-- Each command is issued again at the position it was recorded at. -/
theorem Ledger.Faithful.matched (faithful : ledger.Faithful replay) : ledger.matcher.Matched := by
  have recorded := faithful.recorded
  obtain ⟨start, caughtUp, goesOn⟩ := faithful
  obtain ⟨later, issued, -⟩ := goesOn.grown.issued
  intro position one two known again
  have inside : position < start.matcher.issued.length := by
    rw [caughtUp.issued, ← recorded]
    exact (List.getElem?_eq_some_iff.mp known).1
  rw [issued, List.getElem?_append_left inside] at again
  refine caughtUp.matched position one two ?_ again
  rwa [caughtUp.grown.recorded, show (initialLedger replay.history).matcher.recorded =
    recordedCommands replay.history from rfl, ← recorded]

/-- Each recorded patch is asked about again. -/
theorem Ledger.Faithful.consulted (faithful : ledger.Faithful replay) (patchId : String)
    (held : patchId ∈ recordedPatchIds replay.history) : patchId ∈ ledger.consultedPatches := by
  obtain ⟨start, caughtUp, goesOn⟩ := faithful
  obtain ⟨shape, member, same⟩ := caughtUp.replayed _ ((mem_recordedPatchIds _ _).mp held)
  obtain ⟨later, issued, -⟩ := goesOn.grown.issued
  cases shape with
  | patch other =>
    have equal := congrArg Prod.snd (sameCommand_key same)
    simp only [CommandShape.id] at equal
    rw [equal]
    exact goesOn.consulted other (issued ▸ List.mem_append_left _ member)
  | _ => cases same

/-- No discovered command is a recorded one. -/
theorem Ledger.Faithful.fresh (faithful : ledger.Faithful replay) (shape : CommandShape)
    (discovered : shape ∈ recordedCommands (ledger.newCommands.map commandToEvent)) (recorded : CommandShape)
    (held : recorded ∈ recordedCommands replay.history) : (recorded.kind, recorded.id) ≠ (shape.kind, shape.id) := by
  obtain ⟨start, caughtUp, goesOn⟩ := faithful
  obtain ⟨later, issued, between⟩ := goesOn.grown.issued
  have member := goesOn.commands shape discovered
  rw [issued, List.drop_left] at member
  exact caughtUp.fresh (.refl start) shape (between shape member) recorded held

/-- A history that records the discovered commands continues the replay that found them. -/
theorem Ledger.Faithful.continues {long : Replay} {rest : List WorkflowEvent}
    (faithful : ledger.Faithful replay) (representable : ledger.unrepresentableTimers = [])
    (history : long.history = replay.history ++ (ledger.newCommands.map commandToEvent ++ rest))
    (external : ∀ event ∈ rest, event.External) (random : long.options.random = replay.options.random)
    (childLimit : long.options.childLimit = replay.options.childLimit) : Continues replay long ledger rest := by
  have recorded := faithful.recorded
  have matched := faithful.matched
  obtain ⟨start, caughtUp, goesOn⟩ := faithful
  have grown := caughtUp.grown.trans goesOn.grown
  obtain ⟨issued, all, between⟩ := grown.issued
  refine ⟨history, external, random, childLimit, recorded, matched, ?_, goesOn.patches, ?_, representable,
    goesOn.choices, ?_⟩
  · rw [goesOn.discovered representable, caughtUp.issued]
  · intro shape member
    exact (between shape (by rwa [all] at member)).encodable
  · rw [goesOn.rejected]
    exact nofun

end Faithful

section Middle

variable {H : Type} {short long : Replay} {rest : List WorkflowEvent} {first middle : ReplayWorld H}

/-- Where the longer replay passes the end of the shorter one, it has caught up. -/
theorem middle_caughtUp (faithful : first.host.ledger.Faithful short) (continues : Continues short long first.host.ledger rest)
    (lockstep : Lockstep (prolonged H short long first.host.ledger) first middle) : middle.host.ledger.CaughtUp long := by
  have allIssued := faithful.allIssued
  have consulted (patchId : String) (member : CommandShape.patch patchId ∈ first.host.matcher.issued) :
      patchId ∈ first.host.consultedPatches := by
    obtain ⟨start, caughtUp, goesOn⟩ := faithful
    exact goesOn.consulted patchId member
  have rejected : first.host.rejectedWaits = [] := by
    obtain ⟨start, caughtUp, goesOn⟩ := faithful
    exact goesOn.rejected
  obtain ⟨issued, all, between⟩ : ∃ later, first.host.matcher.issued = later ∧
      ∀ shape ∈ later, shape.Between (initialLedger short.history) first.host.ledger := by
    obtain ⟨start, caughtUp, goesOn⟩ := faithful
    exact (caughtUp.grown.trans goesOn.grown).issued
  have expected (position : Nat) (recorded : CommandShape)
      (known : (recordedCommands long.history)[position]? = some recorded) (issued : CommandShape)
      (again : first.host.matcher.issued[position]? = some issued) : sameCommand recorded issued = true := by
    by_cases inside : position < (recordedCommands short.history).length
    · refine continues.matched position recorded issued ?_ again
      rw [continues.commands, List.getElem?_append_left inside] at known
      rwa [continues.recorded]
    · rw [continues.expected position (Nat.le_of_not_lt inside)] at known
      obtain rfl := Option.some.inj (known.symm.trans again)
      exact continues.encodable _ (List.mem_of_getElem? again)
  have progress := lockstep.host
  generalize middle.host = state at progress ⊢
  cases progress with
  | same matcher deliveries clockReads inFlightSteps recorded longer issued' pending fed inFlight times =>
    refine ⟨?_, ?_, ?_, ?_, ?_, rfl, rejected, continues.choices⟩
    · refine ⟨longer, ⟨issued, issued'.trans all, ?_⟩, List.prefix_rfl, List.nil_prefix, Nat.zero_le _,
        Nat.zero_le _, Nat.zero_le _, List.nil_prefix, List.nil_prefix, Nat.zero_le _⟩
      intro shape member
      have numbered := between shape member
      cases shape <;> exact numbered
    · change matcher.issued.length = _
      rw [issued', continues.commands, List.length_append, List.length_drop]
      exact (Nat.add_sub_cancel' allIssued).symm
    · intro position recorded' issued'' known again
      change matcher.recorded[position]? = some recorded' at known
      change matcher.issued[position]? = some issued'' at again
      rw [longer] at known
      rw [issued'] at again
      exact expected position recorded' known issued'' again
    · intro patchId member
      exact continues.patches patchId (issued' ▸ member)
    · intro patchId member
      exact consulted patchId (issued' ▸ member)

end Middle

section Runs

variable {H : Type} {run : RunConfiguration H}

/-- Every sleep that the replay starts ends at a time that a date represents. -/
def RunConfiguration.Representable (run : RunConfiguration H) (replay : Replay) : Prop :=
  ∀ fuel final, replayHistory fuel replay run.handler run.input = some (.ok final) →
    final.host.unrepresentableTimers = []

/-- A handler makes no integrity error of its own: it ends with one only after a call that
did not match the history. -/
structure RunConfiguration.Honest (run : RunConfiguration H) (replay : Replay) : Prop where
  starting : ∀ started thrown, startHandler replay run.handler run.input = (started, .error thrown) →
    isIntegrityError thrown = true → ¬ started.host.matcher.Matched
  settling : ∀ fuel final, replayHistory fuel replay run.handler run.input = some (.ok final) →
    integrityFailure final.host.settled ≠ none → ¬ final.host.matcher.Matched

/-- A decision that was recorded in a log, with the external events that followed it. -/
structure LastDecision (run : RunConfiguration H) (log : List WorkflowEvent) where
  base : Replay
  final : ReplayWorld H
  rest : List WorkflowEvent
  own : run.Decides base
  replayed : Replayed base run.handler run.input final
  faithful : final.host.ledger.Faithful base
  representable : final.host.unrepresentableTimers = []
  recorded : log = base.history ++ (final.host.newCommands.map commandToEvent ++ rest)
  external : ∀ event ∈ rest, event.External

/-- What the log of a run is as long as nobody asks to cancel: outcomes come after what
they end, and its commands are those of recorded decisions. -/
structure SoundLog (run : RunConfiguration H) (log : List WorkflowEvent) : Prop where
  justified : Justified log
  open' : cancelRequested log = false
  anchored : recordedCommands log = [] ∨ Nonempty (LastDecision run log)

/-- The next replay over a log continues the last decision that it records. -/
theorem LastDecision.continues {log : List WorkflowEvent} (last : LastDecision run log)
    {options : DecisionLoopOptions} (own : run.Decides ⟨log, options⟩) :
    Continues last.base ⟨log, options⟩ last.final.host.ledger last.rest :=
  last.faithful.continues last.representable last.recorded last.external
    (own.random.trans last.own.random.symm) (own.childLimit.trans last.own.childLimit.symm)

/-- A replay over the log of a run issues again what the log records, and goes on. -/
theorem SoundLog.faithful {log : List WorkflowEvent} (sound : SoundLog run log) {options : DecisionLoopOptions}
    (own : run.Decides ⟨log, options⟩) {final : ReplayWorld H} (replayed : Replayed ⟨log, options⟩ run.handler run.input final) :
    final.host.ledger.Faithful ⟨log, options⟩ := by
  rcases sound.anchored with none' | recorded
  · have caughtUp : (initialLedger log).CaughtUp ⟨log, options⟩ :=
      { grown := .refl _
        issued := (congrArg List.length none').symm
        matched := fun position recorded issued _ again => nomatch again
        patches := nofun
        consulted := nofun
        commands := rfl
        rejected := rfl
        choices := rfl }
    have invariant := replay_goesOn (H := H) sound.open' sound.justified caughtUp
    exact ⟨_, caughtUp, invariant.replayed (fun place world _ => release_goesOn place world) replayed
      (.refl caughtUp)⟩
  · obtain ⟨last⟩ := recorded
    obtain ⟨middle, lockstep, feeds⟩ :=
      replayed_follows (last.continues own) last.replayed replayed (.refl _)
    have caughtUp := middle_caughtUp last.faithful (last.continues own) lockstep
    have invariant := replay_goesOn (H := H) sound.open' sound.justified caughtUp
    exact ⟨_, caughtUp, invariant.feeds (fun place world _ => release_goesOn place world) feeds
      (.refl caughtUp)⟩

theorem SoundLog.started (run : RunConfiguration H) (workflowType : String) : SoundLog run [.runStarted workflowType run.input] where
  justified event member := by
    rw [List.mem_singleton.mp member]
    trivial
  open' := rfl
  anchored := .inl rfl

/-- External events leave the last decision as it is. -/
theorem SoundLog.arrived {log : List WorkflowEvent} (sound : SoundLog run log) (events : List WorkflowEvent)
    (external : ∀ event ∈ events, event.External) (justified : ∀ event ∈ events, event.JustifiedBy log) : SoundLog run (log ++ events) where
  justified := sound.justified.append justified
  open' := by
    rw [cancelRequested_append, sound.open', Bool.false_or]
    simp only [cancelRequested, List.any_eq_false, Bool.not_eq_true]
    exact fun event member => (external event member).cancel
  anchored := by
    rcases sound.anchored with none' | recorded
    · left
      rw [recordedCommands_append, none', external_commands external, List.append_nil]
    · obtain ⟨last⟩ := recorded
      right
      refine ⟨{ last with rest := last.rest ++ events, recorded := ?_, external := ?_ }⟩
      · exact (congrArg (· ++ events) last.recorded).trans (by simp only [List.append_assoc])
      · intro event member
        exact (List.mem_append.mp member).elim (last.external event) (external event)

/-- The commands that close a run record nothing that is replayed. -/
theorem conclude_commands (replay : Replay) (final : ReplayWorld H) (open' : cancelRequested replay.history = false) :
    (∃ input, (conclude replay final).2 = [.continueAsNew input]) ∨
      ∃ closing, (conclude replay final).2 = final.host.newCommands ++ closing ∧
        ∀ command ∈ closing, (commandToEvent command).External := by
  unfold conclude
  simp only [open', Bool.false_eq_true, ↓reduceIte]
  split
  · exact .inl ⟨_, rfl⟩
  · exact .inr ⟨[], (List.append_nil _).symm, fun _ absent => nomatch absent⟩
  · refine .inr ⟨_, rfl, ?_⟩
    intro command member
    rw [List.mem_singleton.mp member]
    exact ⟨rfl, rfl, rfl, rfl⟩
  · refine .inr ⟨_, rfl, ?_⟩
    intro command member
    rw [List.mem_singleton.mp member]
    exact ⟨rfl, rfl, rfl, rfl⟩

/-- Recording a decision keeps the log sound. -/
theorem SoundLog.decided {log : List WorkflowEvent} (sound : SoundLog run log) {options : DecisionLoopOptions}
    (own : run.Decides ⟨log, options⟩) (representable : run.Representable ⟨log, options⟩) {fuel : Nat} {decision : Decision}
    (made : runDecisionLoop fuel ⟨log, options⟩ run.handler run.input = some (.ok decision)) :
    SoundLog run (log ++ decision.commands.map commandToEvent) := by
  obtain ⟨final, stopped, decided⟩ := decision_replayed fuel _ _ _ decision made
  obtain ⟨replayed⟩ := replayHistory_replayed fuel ⟨log, options⟩ _ _ final sound.open' stopped
  rw [decideFrom_commands _ final decision decided]
  rcases conclude_commands ⟨log, options⟩ final sound.open' with ⟨input, closed⟩ | ⟨closing, commands, external⟩
  · rw [closed]
    refine sound.arrived _ ?_ ?_
    · intro event member
      rw [List.mem_singleton.mp member]
      exact ⟨rfl, rfl, rfl, rfl⟩
    · intro event member
      rw [List.mem_singleton.mp member]
      trivial
  · rw [commands, List.map_append]
    have external' : ∀ event ∈ closing.map commandToEvent, event.External := by
      intro event member
      obtain ⟨command, listed, rfl⟩ := List.mem_map.mp member
      exact external command listed
    refine ⟨?_, ?_, .inr ⟨⟨⟨log, options⟩, final, closing.map commandToEvent, own, replayed,
      sound.faithful own replayed, representable fuel final stopped, rfl, external'⟩⟩⟩
    · refine sound.justified.append ?_
      intro event member
      rw [← List.map_append] at member
      obtain ⟨command, -, rfl⟩ := List.mem_map.mp member
      exact commandToEvent_justified command log
    · rw [← List.map_append, cancelRequested_append, sound.open', Bool.false_or]
      simp only [cancelRequested, List.any_map, List.any_eq_false, Function.comp_apply, Bool.not_eq_true]
      exact fun command _ => commandToEvent_cancel command

/-- The log of a run whose recorded decisions start only representable timers is sound. -/
theorem RunLog.sound {log : List WorkflowEvent} (built : RunLog run WorkflowEvent.ArrivesAt run.Representable log) : SoundLog run log := by
  induction built with
  | started workflowType => exact .started run workflowType
  | decided log options fuel decision earlier own met made sound => exact sound.decided own met made
  | arrived log event earlier arrival sound =>
    refine sound.arrived [event] ?_ ?_
    · intro other member
      rw [List.mem_singleton.mp member]
      exact arrival_external arrival.1
    · intro other member
      rw [List.mem_singleton.mp member]
      exact arrival.2

/-- What the next replay of a log owes to the decisions that the log records. -/
structure SelfConsistent (log : List WorkflowEvent) (outcome : Except JsValue Decision) : Prop where
  trusted : ∀ error, outcome = .error error → isIntegrityError error = false
  once : ∀ decision, outcome = .ok decision → ∀ command ∈ decision.commands,
    ∀ shape, recordedCommandOf (commandToEvent command) = some shape →
      ∀ recorded ∈ recordedCommands log, (recorded.kind, recorded.id) ≠ (shape.kind, shape.id)

/-- The matcher of a handler that starts on a sound log has matched every call. -/
theorem SoundLog.startsMatched {log : List WorkflowEvent} (sound : SoundLog run log)
    {options : DecisionLoopOptions} (own : run.Decides ⟨log, options⟩) {started : ReplayWorld H}
    {thrown : JsValue} (begins : startHandler ⟨log, options⟩ run.handler run.input = (started, .error thrown)) :
    started.host.matcher.Matched := by
  rcases sound.anchored with none' | recorded
  · have grown := (replay_grows (H := H) ⟨log, options⟩ (initialLedger log)).preserves.run
      (run.handler.body run.input) (initialWorld run.handler log) (.refl _)
    rw [show EventLoop.run (replayHost H ⟨log, options⟩) (run.handler.body run.input)
      (initialWorld run.handler log) = _ from begins] at grown
    intro position known again found
    rw [show started.host.matcher.recorded = recordedCommands log from grown.recorded, none'] at found
    cases found
  · obtain ⟨last⟩ := recorded
    obtain ⟨started', begins', -⟩ := replayed_begins (last.continues own) last.replayed (.refl _)
    cases (Prod.mk.inj (begins.symm.trans begins')).2

/-- A faithful replay is refused by none of the checks on its end. -/
theorem decideFrom_faithful {replay : Replay} {final : ReplayWorld H}
    (faithful : final.host.ledger.Faithful replay) (trusted : integrityFailure final.host.settled = none) :
    ∃ decision, decideFrom replay final = .ok decision := by
  have consulted : unconsultedPatches replay final = [] := by
    have none' : ((recordedPatchIds replay.history).filter fun id => id ∉ final.host.consultedPatches) = [] := by
      rw [List.filter_eq_nil_iff]
      intro patchId held
      have asked : patchId ∈ final.host.consultedPatches := faithful.consulted patchId held
      simp [asked]
    rw [unconsultedPatches, none', List.eraseDups_nil]
  have issued : final.host.matcher.assertAllIssued = none := by
    rw [CommandMatcher.assertAllIssued_iff, show final.host.matcher.recorded = _ from faithful.recorded]
    exact faithful.allIssued
  simp [decideFrom, consulted, throwOnVersionMismatch, trusted, issued]

/-- The commands of a faithful replay are new. -/
theorem conclude_once {replay : Replay} {final : ReplayWorld H} (open' : cancelRequested replay.history = false)
    (faithful : final.host.ledger.Faithful replay) (command : WorkflowCommand)
    (member : command ∈ (conclude replay final).2) (shape : CommandShape)
    (records : recordedCommandOf (commandToEvent command) = some shape) (recorded : CommandShape)
    (held : recorded ∈ recordedCommands replay.history) : (recorded.kind, recorded.id) ≠ (shape.kind, shape.id) := by
  rcases conclude_commands replay final open' with ⟨input, closed⟩ | ⟨closing, commands, external⟩
  · rw [closed, List.mem_singleton] at member
    subst member
    cases records
  · rw [commands] at member
    rcases List.mem_append.mp member with discovered | closes
    · refine faithful.fresh shape ?_ recorded held
      exact List.mem_filterMap.mpr ⟨_, List.mem_map_of_mem discovered, records⟩
    · cases (external command closes).command.symm.trans records

/-- A run whose recorded decisions start only representable timers agrees with itself: the
next replay is not refused, and it issues nothing that the log records. -/
theorem run_selfConsistent (run : RunConfiguration H) (log : List WorkflowEvent)
    (built : RunLog run WorkflowEvent.ArrivesAt run.Representable log) (options : DecisionLoopOptions)
    (own : run.Decides ⟨log, options⟩) (honest : run.Honest ⟨log, options⟩) (fuel : Nat) (outcome : Except JsValue Decision)
    (decided : runDecisionLoop fuel ⟨log, options⟩ run.handler run.input = some outcome) : SelfConsistent log outcome := by
  have sound := built.sound
  obtain ⟨stopped, replayed, rfl⟩ := Option.map_eq_some_iff.mp decided
  cases stopped with
  | error thrown =>
    refine ⟨?_, by rintro _ ⟨⟩⟩
    rintro error ⟨⟩
    by_contra integrity
    unfold replayHistory at replayed
    split at replayed
    · next started thrown' begins =>
        cases replayed
        exact honest.starting started thrown begins (by simpa using integrity)
          (sound.startsMatched own begins)
    · next started result begins =>
        obtain ⟨quiet, -, ended⟩ := Option.bind_eq_some_iff.mp replayed
        simp [compensationsDue, sound.open'] at ended
    · cases replayed
      exact integrity rfl
  | ok final =>
    obtain ⟨parts⟩ := replayHistory_replayed fuel ⟨log, options⟩ _ _ final sound.open' replayed
    have faithful := sound.faithful own parts
    have trusted : integrityFailure final.host.settled = none := by
      by_contra failed
      exact honest.settling fuel final replayed failed faithful.matched
    obtain ⟨decision, made⟩ := decideFrom_faithful faithful trusted
    have same : Except.bind (.ok final) (decideFrom ⟨log, options⟩) = .ok decision := made
    rw [same]
    refine ⟨by rintro _ ⟨⟩, ?_⟩
    rintro _ ⟨⟩ command member shape records recorded held
    rw [decideFrom_commands _ final decision made] at member
    exact conclude_once sound.open' faithful command member shape records recorded held

end Runs

section Examples

def exampleOptions : DecisionLoopOptions where
  clock _ := .epoch
  random := ⟨fun _ => .finite 0, fun _ => ""⟩
  triggeredAt := none
  maxChildren := none
  historyWarningThreshold := none
  buildId := none

def exampleRun (handler : WorkflowHandler Unit) : RunConfiguration Unit :=
  ⟨handler, .undefined, exampleOptions.random, defaultMaxChildren⟩

/-- `async (ctx) => ctx.step("charge")`. -/
def charger : WorkflowHandler Unit where
  heap := ()
  body _ := .promise fun result =>
    let suspended : WorkflowCode Unit := .finish (.ok (.promise result))
    awaitCall ⟨.workflow, .step "charge" .undefined⟩ suspended fun charged =>
      .settle result charged suspended

/-- `async (ctx) => { try { await ctx.sleep(1e16); } catch {} return ctx.step("charge"); }`. -/
def oversleeper : WorkflowHandler Unit where
  heap := ()
  body _ := .promise fun result =>
    let suspended : WorkflowCode Unit := .finish (.ok (.promise result))
    awaitCall ⟨.workflow, .sleep (.finite 10000000000000000)⟩ suspended fun _ =>
      awaitCall ⟨.workflow, .step "charge" .undefined⟩ suspended fun charged =>
        .settle result charged suspended

def chargeStarted : List WorkflowEvent := [.runStarted "charge" .undefined]

def chargeScheduled : List WorkflowEvent :=
  chargeStarted ++ [.scheduleStep "step-1" "charge" .undefined].map commandToEvent

def chargeCompleted : List WorkflowEvent := chargeScheduled ++ [.stepCompleted "step-1" (.bool true)]

/-- The decision over a log with a completed step returns its result. -/
theorem run_selfConsistent_charged : SelfConsistent chargeCompleted (.ok ⟨.completed (.bool true), [.completeRun (.bool true)], none⟩) := by
  refine run_selfConsistent (exampleRun charger) chargeCompleted ?_ exampleOptions ⟨rfl, rfl⟩ ⟨?_, ?_⟩ 2 _ ?_
  · refine .arrived _ _ (.decided _ exampleOptions 1
      ⟨.suspended, [.scheduleStep "step-1" "charge" .undefined], none⟩ (.started "charge") ⟨rfl, rfl⟩ ?_ rfl)
      ⟨rfl, "charge", .undefined, List.mem_cons_self⟩
    exact replayHistory_ends _ _ _ _ ⟨1, _, rfl, rfl⟩
  · intro started thrown begins
    cases (Prod.mk.inj begins).2
  · exact replayHistory_ends _ _ _ _ ⟨2, _, rfl, fun failed => absurd rfl failed⟩
  · rfl

/-- A sleep that ends at no representable time throws after it was counted. The next
replay meets the step at the sleep's position, and issues the step again. -/
theorem run_selfConsistent_unless_representable : ¬ ∀ (run : RunConfiguration Unit) (log : List WorkflowEvent),
      RunLog run WorkflowEvent.ArrivesAt (fun _ => True) log → ∀ options : DecisionLoopOptions,
      run.Decides ⟨log, options⟩ → run.Honest ⟨log, options⟩ → ∀ (fuel : Nat) (outcome : Except JsValue Decision),
      runDecisionLoop fuel ⟨log, options⟩ run.handler run.input = some outcome → SelfConsistent log outcome := by
  intro consistent
  have built : RunLog (exampleRun oversleeper) WorkflowEvent.ArrivesAt (fun _ => True) chargeScheduled :=
    .decided _ exampleOptions 1 ⟨.suspended, [.scheduleStep "step-1" "charge" .undefined], none⟩
      (.started "charge") ⟨rfl, rfl⟩ trivial (by with_unfolding_all rfl)
  have honest : (exampleRun oversleeper).Honest ⟨chargeScheduled, exampleOptions⟩ := by
    constructor
    · intro started thrown begins
      have returned : (startHandler ⟨chargeScheduled, exampleOptions⟩ oversleeper .undefined).2 =
          .ok (.promise 0) := by with_unfolding_all rfl
      cases returned.symm.trans (congrArg Prod.snd begins)
    · refine replayHistory_ends _ _ _ _ ⟨1, _, by with_unfolding_all rfl, ?_⟩
      exact fun failed => absurd rfl failed
  have again := consistent _ _ built exampleOptions ⟨rfl, rfl⟩ honest 1
    (.ok ⟨.suspended, [.scheduleStep "step-1" "charge" .undefined], none⟩) (by with_unfolding_all rfl)
  exact again.once _ rfl _ List.mem_cons_self _ rfl _ List.mem_cons_self rfl

end Examples

end DurableExecution.Workflow
