import DurableExecution.Workflow.RunLog

/-
This file shows what holds once a replay has issued every command of its history: from
then on it goes on with commands that the history does not hold.
-/

namespace DurableExecution.Workflow

open EventLoop

/-- The ledger a replay starts with. -/
def initialLedger (history : List WorkflowEvent) : Ledger := (initialReplayState Unit history).ledger

/-- A replay that has just issued the last command of its history. -/
structure Ledger.CaughtUp (replay : Replay) (ledger : Ledger) : Prop where
  grown : (initialLedger replay.history).Extends ledger
  issued : ledger.matcher.issued.length = (recordedCommands replay.history).length
  matched : ledger.matcher.Matched
  patches : ∀ patchId, CommandShape.patch patchId ∈ ledger.matcher.issued →
    ledger.patchDecisions.lookup patchId = some true
  consulted : ∀ patchId, CommandShape.patch patchId ∈ ledger.matcher.issued → patchId ∈ ledger.consultedPatches
  commands : ledger.newCommands = []
  rejected : ledger.rejectedWaits = []
  choices : ledger.cancelledChoices = 0

/-- What a replay does after it has caught up. Only the timers that no date represents
are issued without being discovered. -/
structure Ledger.GoesOn (start ledger : Ledger) : Prop where
  grown : start.Extends ledger
  patches : ∀ patchId, CommandShape.patch patchId ∈ ledger.matcher.issued →
    ledger.patchDecisions.lookup patchId = some true
  consulted : ∀ patchId, CommandShape.patch patchId ∈ ledger.matcher.issued → patchId ∈ ledger.consultedPatches
  commands : ∀ shape ∈ recordedCommands (ledger.newCommands.map commandToEvent),
    shape ∈ ledger.matcher.issued.drop start.matcher.issued.length
  discovered : ledger.unrepresentableTimers = [] →
    recordedCommands (ledger.newCommands.map commandToEvent) =
      ledger.matcher.issued.drop start.matcher.issued.length
  rejected : ledger.rejectedWaits = []
  choices : ledger.cancelledChoices = 0

section Shapes

variable {first second third fourth : Ledger} {one two : CommandShape}

/-- Matching commands have one kind and one id. -/
theorem sameCommand_key (same : sameCommand one two = true) : (one.kind, one.id) = (two.kind, two.id) := by
  cases one <;> cases two <;> simp_all [sameCommand, CommandShape.kind, CommandShape.id]

/-- A command that a replay issued is recorded as itself. -/
theorem CommandShape.Between.encodable (between : one.Between first second) : sameCommand one one = true := by
  cases one with
  | timer id duration =>
    obtain ⟨_, valid, rfl, accepted⟩ := between
    simp [sameCommand, JsNumber.same_refl accepted]
  | _ => simp [sameCommand]

/-- A command that was issued later has another key, unless a patch was forgotten. -/
theorem CommandShape.Between.apart (early : one.Between first second) (late : two.Between third fourth) (order : second.Extends third)
    (taken : ∀ patchId, one = .patch patchId → second.patchDecisions.lookup patchId = some true) :
    (one.kind, one.id) ≠ (two.kind, two.id) := by
  intro same
  cases one with
  | patch patchId =>
    cases two with
    | patch patchId' =>
      obtain ⟨-, rfl⟩ := Prod.mk.inj same
      have known := lookup_of_prefix order.patches (taken patchId rfl)
      cases known.symm.trans late
    | _ => simp [CommandShape.kind] at same
  | step id =>
    cases two with
    | step id' =>
      obtain ⟨number, named, -, below⟩ := early
      obtain ⟨number', named', above, -⟩ := late
      have equal := numbered_injective _ _ _ (named.symm.trans ((Prod.mk.inj same).2.trans named'))
      have ordered := order.steps
      omega
    | _ => simp [CommandShape.kind] at same
  | timer id =>
    cases two with
    | timer id' =>
      obtain ⟨⟨number, named, -, below⟩, -⟩ := early
      obtain ⟨⟨number', named', above, -⟩, -⟩ := late
      have equal := numbered_injective _ _ _ (named.symm.trans ((Prod.mk.inj same).2.trans named'))
      have ordered := order.timers
      omega
    | _ => simp [CommandShape.kind] at same
  | child id =>
    cases two with
    | child id' =>
      obtain ⟨number, named, -, below⟩ := early
      obtain ⟨number', named', above, -⟩ := late
      have equal := numbered_injective _ _ _ (named.symm.trans ((Prod.mk.inj same).2.trans named'))
      have ordered := order.children
      omega
    | _ => simp [CommandShape.kind] at same

end Shapes

section Ahead

variable {replay : Replay} {start before after : Ledger}

/-- Every replay that follows one that has caught up has issued all that is recorded. -/
theorem Ledger.CaughtUp.expected (caughtUp : start.CaughtUp replay) (grown : start.Extends before) : before.matcher.expected = none := by
  obtain ⟨later, issued, -⟩ := grown.issued
  refine List.getElem?_eq_none ?_
  rw [grown.recorded, caughtUp.grown.recorded, issued, List.length_append, caughtUp.issued]
  exact Nat.le_add_right _ _

/-- A recorded command was issued before the replay caught up. -/
theorem Ledger.CaughtUp.replayed (caughtUp : start.CaughtUp replay) (shape : CommandShape)
    (recorded : shape ∈ recordedCommands replay.history) : ∃ issued ∈ start.matcher.issued, sameCommand shape issued = true := by
  obtain ⟨position, inside, rfl⟩ := List.getElem_of_mem recorded
  have inside' : position < start.matcher.issued.length := caughtUp.issued ▸ inside
  refine ⟨start.matcher.issued[position], List.getElem_mem inside', ?_⟩
  apply caughtUp.matched position
  · rw [caughtUp.grown.recorded]
    exact List.getElem?_eq_getElem inside
  · exact List.getElem?_eq_getElem inside'

/-- A command that is issued after the replay caught up is none of the recorded ones. -/
theorem Ledger.CaughtUp.fresh (caughtUp : start.CaughtUp replay) (grown : start.Extends before)
    (shape : CommandShape) (between : shape.Between before after) (recorded : CommandShape)
    (held : recorded ∈ recordedCommands replay.history) : (recorded.kind, recorded.id) ≠ (shape.kind, shape.id) := by
  obtain ⟨issued, member, same⟩ := caughtUp.replayed recorded held
  obtain ⟨later, all, numbered⟩ := caughtUp.grown.issued
  have early : issued.Between (initialLedger replay.history) start := numbered issued (by
    rwa [all] at member)
  rw [sameCommand_key same]
  refine early.apart between grown ?_
  rintro patchId rfl
  exact caughtUp.patches patchId member

theorem Ledger.GoesOn.refl (caughtUp : start.CaughtUp replay) : start.GoesOn start where
  grown := .refl start
  patches := caughtUp.patches
  consulted := caughtUp.consulted
  commands := by simp [caughtUp.commands, recordedCommands]
  discovered _ := by simp [caughtUp.commands, recordedCommands]
  rejected := caughtUp.rejected
  choices := caughtUp.choices

/-- A command that no outcome of the history belongs to is discovered as it is issued. -/
theorem Ledger.GoesOn.counted {shape : CommandShape} {command : WorkflowCommand}
    {outcome : Option (Nat × Except JsValue JsValue)} (goesOn : start.GoesOn before)
    (caughtUp : start.CaughtUp replay) (counted : before.Counted after shape false command outcome)
    (records : recordedCommandOf (commandToEvent command) = some shape)
    (numbered : ∀ patchId, shape ≠ .patch patchId) (unheld : outcome = none) : start.GoesOn after := by
  have matcher := counted.matcher
  rw [before.matcher.issue_new shape (caughtUp.expected goesOn.grown)] at matcher
  have issued : after.matcher.issued = before.matcher.issued ++ [shape] := by rw [matcher]
  have room : start.matcher.issued.length ≤ before.matcher.issued.length := by
    obtain ⟨later, all, -⟩ := goesOn.grown.issued
    rw [all, List.length_append]
    exact Nat.le_add_right _ _
  have dropped : after.matcher.issued.drop start.matcher.issued.length =
      before.matcher.issued.drop start.matcher.issued.length ++ [shape] := by
    rw [issued, List.drop_append_of_le_length room]
  have known (patchId : String) (member : CommandShape.patch patchId ∈ after.matcher.issued) :
      CommandShape.patch patchId ∈ before.matcher.issued := by
    rw [issued] at member
    rcases List.mem_append.mp member with old | new
    · exact old
    · exact absurd (List.mem_singleton.mp new).symm (numbered patchId)
  have discovered := counted.discovered
  rw [before.matcher.issue_new shape (caughtUp.expected goesOn.grown)] at discovered
  have earlier (none' : after.unrepresentableTimers = []) : before.unrepresentableTimers = [] :=
    List.prefix_nil.mp (none' ▸ counted.unrepresentable)
  refine ⟨goesOn.grown.trans counted.extends, ?_, ?_, ?_, ?_, ?_, ?_⟩
  · intro patchId member
    rw [counted.patches]
    exact goesOn.patches patchId (known patchId member)
  · intro patchId member
    rw [counted.consulted]
    exact goesOn.consulted patchId (known patchId member)
  · intro other member
    rw [dropped]
    rcases discovered with ⟨pushed, -⟩ | ⟨kept, -⟩
    · rw [pushed, List.map_append, recordedCommands_append] at member
      rcases List.mem_append.mp member with old | new
      · exact List.mem_append_left _ (goesOn.commands other old)
      · refine List.mem_append_right _ ?_
        simpa [recordedCommands, records] using new
    · rw [kept] at member
      exact List.mem_append_left _ (goesOn.commands other member)
  · intro none'
    rw [dropped, ← goesOn.discovered (earlier none')]
    rcases discovered with ⟨pushed, -⟩ | ⟨-, going | ended | going | overflow⟩
    · rw [pushed, List.map_append, recordedCommands_append]
      simp [recordedCommands, records]
    · exact absurd rfl going
    · exact absurd unheld ended
    · cases going
    · exact absurd none' overflow
  · rw [counted.going rfl, goesOn.rejected]
  · rw [counted.choices, goesOn.choices]

/-- Commands that record no call go on without being issued. -/
theorem Ledger.GoesOn.push (goesOn : start.GoesOn before) (command : WorkflowCommand)
    (recordless : recordedCommandOf (commandToEvent command) = none) :
    start.GoesOn { before with newCommands := before.newCommands ++ [command] } := by
  have same : recordedCommands ((before.newCommands ++ [command]).map commandToEvent) =
      recordedCommands (before.newCommands.map commandToEvent) := by
    rw [List.map_append, recordedCommands_append]
    simp [recordedCommands, recordless]
  refine { goesOn with grown := ?_, commands := ?_, discovered := ?_ }
  · exact goesOn.grown.trans { Ledger.Extends.refl before with commands := List.prefix_append _ _ }
  · exact fun shape member => goesOn.commands shape (same ▸ member)
  · exact fun none' => same.trans (goesOn.discovered none')

/-- A patch that is asked about after the replay caught up is decided at once. -/
theorem Ledger.GoesOn.asked {patchId : String} (goesOn : start.GoesOn before) (caughtUp : start.CaughtUp replay)
    (asked : before.Asked replay patchId after) : start.GoesOn after := by
  have grown := goesOn.grown.trans asked.extends
  have unrecorded := before.matcher.issue_new (.patch patchId) (caughtUp.expected goesOn.grown)
  have consulted (other : String) (member : CommandShape.patch other ∈ before.matcher.issued) :
      other ∈ before.consultedPatches ++ [patchId] := List.mem_append_left _ (goesOn.consulted other member)
  cases asked with
  | decided => exact { goesOn with grown := grown, consulted := consulted }
  | mismatch undecided error refused =>
    rw [unrecorded] at refused
    cases refused
  | recorded undecided known issued held =>
    obtain ⟨shape, member, same⟩ := caughtUp.replayed _ ((mem_recordedPatchIds _ _).mp held)
    cases shape with
    | patch other =>
      have equal := congrArg Prod.snd (sameCommand_key same)
      simp only [CommandShape.id] at equal
      have taken := lookup_of_prefix goesOn.grown.patches (caughtUp.patches other member)
      rw [← equal] at taken
      cases undecided.symm.trans taken
    | _ => cases same
  | behind undecided unheld replaying =>
    refine { goesOn with grown := grown, consulted := consulted, patches := ?_ }
    exact fun other member => lookup_of_prefix (List.prefix_append _ _) (goesOn.patches other member)
  | discovered undecided known issued unheld behind =>
    have room : start.matcher.issued.length ≤ before.matcher.issued.length := by
      obtain ⟨later, all, -⟩ := goesOn.grown.issued
      rw [all, List.length_append]
      exact Nat.le_add_right _ _
    have commands : recordedCommands ((before.newCommands ++
        [WorkflowCommand.recordPatch patchId replay.options.buildId]).map commandToEvent) =
        recordedCommands (before.newCommands.map commandToEvent) ++ [.patch patchId] := by
      rw [List.map_append, recordedCommands_append]
      rfl
    refine ⟨grown, ?_, ?_, ?_, ?_, goesOn.rejected, goesOn.choices⟩
    · intro other member
      rw [unrecorded] at member
      rcases List.mem_append.mp member with old | new
      · exact lookup_of_prefix (List.prefix_append _ _) (goesOn.patches other old)
      · obtain rfl : other = patchId := by simpa using new
        simp [List.lookup_append, undecided]
    · intro other member
      rw [unrecorded] at member
      rcases List.mem_append.mp member with old | new
      · exact consulted other old
      · obtain rfl : other = patchId := by simpa using new
        exact List.mem_append_right _ List.mem_cons_self
    · intro shape member
      rw [unrecorded, List.drop_append_of_le_length room]
      rw [commands] at member
      rcases List.mem_append.mp member with old | new
      · exact List.mem_append_left _ (goesOn.commands shape old)
      · exact List.mem_append_right _ new
    · intro none'
      rw [commands, unrecorded, List.drop_append_of_le_length room, goesOn.discovered none']

end Ahead

end DurableExecution.Workflow
