import DurableExecution.Workflow.Continuation

/-
This file proves that the waits of a replay share out the signals of its history: the nth wait
for a name gets the nth signal of that name, and no other wait gets it.
-/

namespace DurableExecution.Workflow

open EventLoop

/-- The places of the signals of one name in a history. -/
def signalPositions (signalName : String) (history : List WorkflowEvent) : List Nat :=
  (history.zipIdx.filter fun entry => (signalOutcome signalName entry.1).isSome).map Prod.snd

section Positions

variable {signalName other : String} {history longer : List WorkflowEvent} {number position : Nat}

theorem signalOutcome_isSome {event : WorkflowEvent} (isSignal : (signalOutcome signalName event).isSome) :
    ∃ payload, event = .signalReceived signalName payload ∧ signalOutcome signalName event = some (.ok payload) := by
  cases event with
  | signalReceived name payload =>
    simp only [signalOutcome] at isSignal ⊢
    split at isSignal
    · next same => exact ⟨payload, by rw [same], if_pos same⟩
    · cases isSignal
  | _ => cases isSignal

/-- The search of a wait finds the place that its number says. -/
theorem nthOutcome_position (outcomeOf : WorkflowEvent → Option (Except JsValue JsValue)) (skip index : Nat)
    (history : List WorkflowEvent) : (nthOutcome outcomeOf skip index history).map Prod.fst =
      (((history.zipIdx index).filter fun entry => (outcomeOf entry.1).isSome).map Prod.snd)[skip]? := by
  induction history generalizing skip index with
  | nil => rfl
  | cons event rest ih =>
    rw [List.zipIdx_cons]
    cases found : outcomeOf event with
    | none => simp [nthOutcome, found, ih]
    | some outcome => cases skip <;> simp [nthOutcome, found, ih]

/-- A place of a signal holds one of its name. -/
theorem signalPositions_holds (here : (signalPositions signalName history)[number]? = some position) :
    ∃ payload, history[position]? = some (.signalReceived signalName payload) := by
  obtain ⟨entry, listed, rfl⟩ := List.mem_map.mp (List.mem_of_getElem? here)
  obtain ⟨entered, isSignal⟩ := List.mem_filter.mp listed
  obtain ⟨payload, event, -⟩ := signalOutcome_isSome isSignal
  exact ⟨payload, (List.mem_zipIdx_iff_getElem?.mp entered).trans (congrArg some event)⟩

/-- The signals of one name come one after the other. -/
theorem signalPositions_ordered (signalName : String) (history : List WorkflowEvent) :
    (signalPositions signalName history).Pairwise (· < ·) := by
  have ordered : (history.zipIdx.map Prod.snd).Pairwise (· < ·) := by
    rw [List.zipIdx_map_snd]
    exact List.pairwise_lt_range'
  exact ordered.sublist (List.filter_sublist.map _)

/-- A place is that of one signal of one name. -/
theorem signalPositions_once {number' : Nat} (here : (signalPositions signalName history)[number]? = some position)
    (there : (signalPositions other history)[number']? = some position) : other = signalName ∧ number' = number := by
  obtain ⟨payload, event⟩ := signalPositions_holds here
  obtain ⟨payload', event'⟩ := signalPositions_holds there
  obtain rfl : signalName = other := by
    rw [event, Option.some.injEq] at event'
    exact (WorkflowEvent.signalReceived.inj event').1
  refine ⟨rfl, ?_⟩
  obtain ⟨inside, one⟩ := List.getElem?_eq_some_iff.mp here
  obtain ⟨inside', two⟩ := List.getElem?_eq_some_iff.mp there
  have distinct : (signalPositions signalName history).Nodup :=
    (signalPositions_ordered signalName history).imp fun less same => absurd same (Nat.ne_of_lt less)
  exact distinct.getElem_inj_iff.mp (two.trans one.symm)

/-- A longer history keeps the places of the signals that it continues. -/
theorem signalPositions_longer (continues : history <+: longer) (here : (signalPositions signalName history)[number]? = some position) :
    (signalPositions signalName longer)[number]? = some position := by
  obtain ⟨more, rfl⟩ := continues
  have grown : ∃ later, signalPositions signalName (history ++ more) = signalPositions signalName history ++ later := by
    simp only [signalPositions, List.zipIdx_append, List.filter_append, List.map_append]
    exact ⟨_, rfl⟩
  obtain ⟨later, grown⟩ := grown
  obtain ⟨inside, -⟩ := List.getElem?_eq_some_iff.mp here
  rw [grown, List.getElem?_append_left inside]
  exact here

end Positions

section Waits

variable {H : Type} {replay : Replay}

/-- What a replay does besides waiting for signals. -/
inductive OtherStep (replay : Replay) : ReplayWorld H → ReplayWorld H → Prop where
  | frame {before after : ReplayWorld H} (same : SameCalls before after) : OtherStep replay before after
  | step (cancelled : Bool) (stepType : String) (input : JsValue) (world : ReplayWorld H) :
      OtherStep replay world (step replay cancelled stepType input world).1
  | sleep (cancelled : Bool) (durationMs : JsNumber) (world : ReplayWorld H) :
      OtherStep replay world (sleep replay cancelled durationMs world).1
  | startChild (cancelled : Bool) (workflowType : String) (input : JsValue) (options : ChildOptions) (world : ReplayWorld H) :
      OtherStep replay world (startChild replay cancelled workflowType input options world).1
  | decidePatch (patchId : String) (world : ReplayWorld H) : OtherStep replay world (decidePatch replay patchId world).1
  | now (world : ReplayWorld H) : OtherStep replay world (now replay world).1
  | noteChoice (running : List (Nat × PromiseId)) (world : ReplayWorld H) : OtherStep replay world (noteChoice replay running world)
  | compensationFailed (index : Nat) (reason : JsValue) (world : ReplayWorld H) :
      OtherStep replay world (compensationFailed replay index reason world)
  | fed (next : Nat) (world : ReplayWorld H) : OtherStep replay world (release next world)

theorem OtherStep.signals {before after : ReplayWorld H} (other : OtherStep replay before after) :
    after.host.signalSequences = before.host.signalSequences := by
  cases other with
  | frame same => exact same.signals
  | step => exact (step_keepsWaits ..).signals
  | sleep => exact (sleep_keepsWaits ..).signals
  | startChild => exact (startChild_keepsWaits ..).signals
  | decidePatch => exact (decidePatch_keepsWaits ..).signals
  | now => exact (now_keepsWaits ..).signals
  | noteChoice => exact (noteChoice_keepsWaits ..).signals
  | compensationFailed => exact (compensationFailed_keepsWaits ..).signals
  | fed next => exact (release_sameCalls next _).signals

/-- One call of `waitForSignal`, with the world it is made in. -/
structure SignalWait (H : Type) where
  signalName : String
  cancelled : Bool
  world : ReplayWorld H

def SignalWait.call (wait : SignalWait H) (replay : Replay) : ReplayWorld H × Except JsValue JsValue :=
  waitForSignal replay wait.cancelled wait.signalName wait.world

/-- The world of a call, in which the call has been counted. -/
def SignalWait.counted (wait : SignalWait H) : ReplayWorld H :=
  update (fun state => { state with
    signalSequences := Function.update state.signalSequences wait.signalName
      (wait.world.host.signalSequences wait.signalName + 1) }) wait.world

/-- The call answers with a promise that the signal at a place of the history fulfils. -/
def SignalWait.Consumes (wait : SignalWait H) (replay : Replay) (position : Nat) : Prop :=
  ∃ payload, replay.history[position]? = some (.signalReceived wait.signalName payload) ∧
    wait.call replay = completedAt position (.ok payload) wait.counted

/-- The calls of `waitForSignal` on the way from one world of a replay to another, in their order. -/
inductive Waits (replay : Replay) (start : ReplayWorld H) : List (SignalWait H) → ReplayWorld H → Prop where
  | refl : Waits replay start [] start
  | other {calls : List (SignalWait H)} {world after : ReplayWorld H} (waits : Waits replay start calls world)
      (other : OtherStep replay world after) : Waits replay start calls after
  | wait {calls : List (SignalWait H)} {world : ReplayWorld H} (waits : Waits replay start calls world) (cancelled : Bool)
      (signalName : String) :
      Waits replay start (calls ++ [⟨signalName, cancelled, world⟩]) (waitForSignal replay cancelled signalName world).1

/-- How many of the calls wait for a signal of this name. -/
def waitsFor (signalName : String) (calls : List (SignalWait H)) : Nat := calls.countP fun wait => wait.signalName == signalName

/-- The signals of a history are shared out among the calls of a replay: a call for a name is given the signal of that name that
has as many before it as there are earlier calls, and no other call is given it. -/
structure SharedOut (replay : Replay) (calls : List (SignalWait H)) : Prop where
  given : ∀ (index : Nat) (wait : SignalWait H) (position : Nat), calls[index]? = some wait →
    (wait.Consumes replay position ↔
      (signalPositions wait.signalName replay.history)[waitsFor wait.signalName (calls.take index)]? = some position)
  ordered : ∀ (index index' : Nat) (wait wait' : SignalWait H) (position position' : Nat), calls[index]? = some wait →
    calls[index']? = some wait' → wait.signalName = wait'.signalName → index < index' → wait.Consumes replay position →
    wait'.Consumes replay position' → position < position'
  once : ∀ (index index' : Nat) (wait wait' : SignalWait H) (position : Nat), calls[index]? = some wait →
    calls[index']? = some wait' → wait.Consumes replay position → wait'.Consumes replay position → index = index'

/-- The promise of `completedAt` has the tag of its place. -/
theorem completedAt_tagOf (place : Nat) (outcome : Except JsValue JsValue) (world : ReplayWorld H) :
    ∃ promise, (completedAt place outcome world).2 = .ok (.promise promise) ∧
      (completedAt place outcome world).1.tagOf promise = some ⟨some place, false⟩ := by
  unfold completedAt
  dsimp only
  split
  · exact ⟨_, rfl, world.alloc_tagOf _⟩
  · exact ⟨_, rfl, world.alloc_tagOf _⟩

/-- A wait for a signal counts itself and answers with a promise that ends at the place of the
signal of its number. -/
theorem waitForSignal_answers (replay : Replay) (cancelled : Bool) (signalName : String) (world : ReplayWorld H) :
    ∃ promise, (waitForSignal replay cancelled signalName world).2 = .ok (.promise promise) ∧
      ((waitForSignal replay cancelled signalName world).1.tagOf promise).map WaitTag.completionPosition =
        some (signalPositions signalName replay.history)[world.host.signalSequences signalName]? ∧
      (waitForSignal replay cancelled signalName world).1.host.signalSequences =
        Function.update world.host.signalSequences signalName (world.host.signalSequences signalName + 1) := by
  have position := nthOutcome_position (signalOutcome signalName) (world.host.signalSequences signalName) 0 replay.history
  change _ = (signalPositions signalName replay.history)[_]? at position
  rw [← position]
  let counted : ReplayWorld H := update (fun state => { state with
    signalSequences := Function.update state.signalSequences signalName (world.host.signalSequences signalName + 1) }) world
  have begins : KeepsWaits counted counted := .same rfl rfl fun _ _ => id
  unfold waitForSignal
  dsimp only
  cases nthOutcome (signalOutcome signalName) (world.host.signalSequences signalName) 0 replay.history with
  | some found =>
    obtain ⟨place, outcome⟩ := found
    obtain ⟨promise, answer, tagged⟩ := completedAt_tagOf place outcome counted
    have same := begins.completedAt place outcome
    exact ⟨promise, answer, by rw [tagged]; rfl, same.signals⟩
  | none =>
    dsimp only
    split
    · have same := begins.returned ⟨.host, default, .settled (.error cancelledError)⟩
      exact ⟨_, rfl, congrArg (Option.map WaitTag.completionPosition) (World.alloc_tagOf _ _), same.signals⟩
    · have same := begins.returned ⟨.host, default, .pending []⟩
      exact ⟨_, rfl, congrArg (Option.map WaitTag.completionPosition) (World.alloc_tagOf _ _), same.signals⟩

/-- The waits for each name are counted, and each call has the number of the calls before it. -/
theorem Waits.counts {start world : ReplayWorld H} {calls : List (SignalWait H)} (waits : Waits replay start calls world)
    (unwaited : ∀ signalName, start.host.signalSequences signalName = 0) :
    (∀ signalName, world.host.signalSequences signalName = waitsFor signalName calls) ∧
      ∀ (index : Nat) (wait : SignalWait H), calls[index]? = some wait →
        wait.world.host.signalSequences wait.signalName = waitsFor wait.signalName (calls.take index) := by
  induction waits with
  | refl => exact ⟨unwaited, fun index wait listed => absurd (List.mem_of_getElem? listed) List.not_mem_nil⟩
  | other waits other ih => exact ⟨fun signalName => by rw [other.signals, ih.1], ih.2⟩
  | @wait calls world waits cancelled name ih =>
    obtain ⟨-, -, -, signals⟩ := waitForSignal_answers replay cancelled name world
    refine ⟨fun signalName => ?_, fun index wait listed => ?_⟩
    · rw [signals, waitsFor, List.countP_append]
      by_cases same : signalName = name
      · subst same
        rw [Function.update_self, ih.1]
        simp [waitsFor]
      · rw [Function.update_of_ne same, ih.1]
        simp [waitsFor, Ne.symm same]
    · by_cases inside : index < calls.length
      · rw [List.getElem?_append_left inside] at listed
        rw [ih.2 index wait listed, List.take_append_of_le_length (Nat.le_of_lt inside)]
      · rw [List.getElem?_append_right (Nat.le_of_not_lt inside)] at listed
        have last : index = calls.length := by
          have within := (List.getElem?_eq_some_iff.mp listed).1
          rw [List.length_singleton] at within
          omega
        rw [last, Nat.sub_self] at listed
        cases listed
        rw [last, List.take_left, ih.1]

/-- In the replay of a longer history the call of the same number is given the same signal. -/
theorem SharedOut.longer {long : Replay} {calls calls' : List (SignalWait H)} (shared : SharedOut replay calls)
    (shared' : SharedOut long calls') (continues : replay.history <+: long.history) {index index' position : Nat}
    {wait wait' : SignalWait H} (here : calls[index]? = some wait) (there : calls'[index']? = some wait')
    (same : wait.signalName = wait'.signalName)
    (number : waitsFor wait.signalName (calls.take index) = waitsFor wait'.signalName (calls'.take index'))
    (consumes : wait.Consumes replay position) : wait'.Consumes long position := by
  refine (shared'.given index' wait' position there).mpr ?_
  rw [← number, ← same]
  exact signalPositions_longer continues ((shared.given index wait position here).mp consumes)

end Waits

end DurableExecution.Workflow
