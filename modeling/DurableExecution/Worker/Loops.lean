import Mathlib.Data.List.Count
import DurableExecution.Workflow.Errors

/-
This file models the loops of an engine that run a pass at intervals, and how the engine stops them before it drains its worker.
It shows that a loop runs one pass at a time and that no pass runs or starts once the worker is being drained.
-/

namespace DurableExecution.Worker

open Workflow (JsValue JsNumber plainError)

section Loop

inductive PassState where
  | running
  | finished
  | rejected
  deriving DecidableEq

/-- The variables of a loop, the timeouts that are set, and its passes so far. `current` is the promise of a pass, or a resolved
one. -/
structure LoopState where
  handle : Option Nat
  current : Option Nat
  stopped : Bool
  armed : List Nat
  nextTimer : Nat
  passes : List PassState

def intervalError (intervalMs : JsNumber) : JsValue :=
  plainError "RangeError" ("intervalMs must be a positive integer, got " ++ intervalMs.text)

/-- `Number.isInteger(intervalMs) && intervalMs > 0`. -/
def isInterval : JsNumber → Bool
  | .finite value => decide (value.den = 1 ∧ 0 < value.num)
  | _ => false

def LoopState.runPass (loop : LoopState) : LoopState :=
  { loop with handle := none, current := some loop.passes.length, passes := loop.passes ++ [.running] }

def LoopState.schedule (loop : LoopState) : LoopState :=
  if loop.stopped then loop
  else { loop with handle := some loop.nextTimer, armed := loop.armed ++ [loop.nextTimer], nextTimer := loop.nextTimer + 1 }

def LoopState.stop (loop : LoopState) : LoopState :=
  { loop with
    stopped := true
    handle := none
    armed := match loop.handle with
      | some handle => loop.armed.erase handle
      | none => loop.armed }

/-- The callback of a timeout. -/
def LoopState.fire (loop : LoopState) (timer : Nat) : LoopState :=
  if timer ∈ loop.armed then ({ loop with armed := loop.armed.erase timer } : LoopState).runPass else loop

/-- The rest of a pass after its report or its error. An error that `onError` throws rejects the promise of the pass. -/
def LoopState.settle (loop : LoopState) (pass : Nat) (threw : Bool) : LoopState :=
  if loop.passes[pass]? = some .running then
    if threw then { loop with passes := loop.passes.set pass .rejected }
    else ({ loop with passes := loop.passes.set pass .finished } : LoopState).schedule
  else loop

/-- What all loops do with their options. Two of them run a pass at once. -/
def startLoop (atOnce : Bool) (intervalMs : JsNumber) : Except JsValue LoopState :=
  if isInterval intervalMs then
    .ok (if atOnce then (⟨none, none, false, [], 0, []⟩ : LoopState).runPass
      else (⟨none, none, false, [], 0, []⟩ : LoopState).schedule)
  else .error (intervalError intervalMs)

def startTimerLoop (intervalMs : JsNumber) : Except JsValue LoopState := startLoop true intervalMs

def startScheduleLoop (intervalMs : JsNumber) : Except JsValue LoopState := startLoop true intervalMs

def startJanitorLoop (intervalMs : JsNumber) : Except JsValue LoopState := startLoop false intervalMs

def startCompactorLoop (intervalMs : JsNumber) : Except JsValue LoopState := startLoop false intervalMs

end Loop

section Engine

/-- How far a call of the engine's `stop` is: it waits for a pass of each loop, for the worker and for its claims. -/
inductive StopCall where
  | stoppingLoops (awaited : List (Option Nat))
  | draining
  | releasing
  | resolved
  | rejected

/-- The loops of an engine, the calls of its `stop`, and whether its worker was drained and its claims released. -/
structure EngineLoops where
  loops : List LoopState
  calls : List StopCall
  routed : Bool
  drained : Bool
  released : Bool

/-- The part of `startEngine` that starts loops. -/
def startEngine (loopIntervalMs : JsNumber) (compaction : Option JsNumber) (stickyRouting : Bool) : Except JsValue EngineLoops := do
  let timerLoop ← startTimerLoop loopIntervalMs
  let scheduleLoop ← startScheduleLoop loopIntervalMs
  let janitorLoop ← startJanitorLoop loopIntervalMs
  match compaction with
  | none => pure ⟨[timerLoop, scheduleLoop, janitorLoop], [], stickyRouting, false, false⟩
  | some intervalMs =>
    let compactorLoop ← startCompactorLoop intervalMs
    pure ⟨[timerLoop, scheduleLoop, janitorLoop, compactorLoop], [], stickyRouting, false, false⟩

/-- The first part of `stop`. -/
def EngineLoops.stop (engine : EngineLoops) : EngineLoops :=
  { engine with
    loops := engine.loops.map LoopState.stop
    calls := engine.calls ++ [.stoppingLoops (engine.loops.map LoopState.current)] }

/-- A promise that `stop` of a loop waits for has this state. -/
def LoopState.awaits (loop : LoopState) (state : PassState) : Option Nat → Bool
  | none => state = .finished
  | some pass => loop.passes[pass]? = some state

/-- What `Promise.all` over the loops makes of a call. -/
def EngineLoops.resume (engine : EngineLoops) (awaited : List (Option Nat)) : StopCall :=
  if (engine.loops.zip awaited).all fun waiting => waiting.1.awaits .finished waiting.2 then .draining
  else if (engine.loops.zip awaited).any fun waiting => waiting.1.awaits .rejected waiting.2 then .rejected
  else .stoppingLoops awaited

/-- What happens next: a timeout of a loop fires, a pass settles, `stop` is called, also by `onError`, or a call of it goes on. -/
inductive LoopsOp where
  | fires (index timer : Nat)
  | settles (index pass : Nat) (stopping threw : Bool)
  | stops
  | resumes (call : Nat)

def EngineLoops.advance (engine : EngineLoops) (call : Nat) : EngineLoops :=
  match engine.calls[call]? with
  | some (.stoppingLoops awaited) => { engine with calls := engine.calls.set call (engine.resume awaited) }
  | some .draining =>
    { engine with calls := engine.calls.set call (if engine.routed then .releasing else .resolved), drained := true }
  | some .releasing => { engine with calls := engine.calls.set call .resolved, released := true }
  | _ => engine

def LoopsOp.run (engine : EngineLoops) : LoopsOp → EngineLoops
  | .fires index timer => { engine with loops := engine.loops.modify index (·.fire timer) }
  | .settles index pass stopping threw =>
    if (engine.loops[index]?).any fun loop => loop.passes[pass]? = some .running then
      let engine := if stopping then engine.stop else engine
      { engine with loops := engine.loops.modify index (·.settle pass threw) }
    else engine
  | .stops => engine.stop
  | .resumes call => engine.advance call

inductive LoopsRun (start : EngineLoops) : EngineLoops → Prop where
  | refl : LoopsRun start start
  | step {engine : EngineLoops} (run : LoopsRun start engine) (op : LoopsOp) : LoopsRun start (op.run engine)

end Engine

section Orderly

variable {loop : LoopState}

/-- A timeout is set or a pass runs, and nothing else; a loop that was not stopped and whose passes were all reported goes on. -/
structure LoopState.Orderly (loop : LoopState) : Prop where
  handled : loop.armed = loop.handle.toList
  one : ∀ pass : Nat, loop.passes[pass]? = some .running → loop.current = some pass ∧ loop.handle = none
  halted : loop.stopped = true → loop.handle = none
  alive : loop.stopped = false → .rejected ∉ loop.passes →
    loop.handle.isSome = true ∨ ∃ pass : Nat, loop.passes[pass]? = some .running

theorem LoopState.Orderly.stop (orderly : loop.Orderly) : loop.stop.Orderly := by
  refine ⟨?_, fun pass running => ⟨(orderly.one pass running).1, rfl⟩, fun _ => rfl, by simp [LoopState.stop]⟩
  rw [LoopState.stop, orderly.handled]
  cases loop.handle with
  | none => rfl
  | some handle => simp

theorem LoopState.Orderly.fire (orderly : loop.Orderly) (timer : Nat) : (loop.fire timer).Orderly := by
  rw [LoopState.fire]
  split
  · next armed =>
      rw [orderly.handled] at armed
      have handle : loop.handle = some timer := Option.mem_toList.mp armed
      have idle : ∀ pass : Nat, loop.passes[pass]? ≠ some .running := by
        intro pass running
        rw [(orderly.one pass running).2] at handle
        cases handle
      refine ⟨by simp [LoopState.runPass, orderly.handled, handle], fun pass running => ?_, fun _ => rfl, fun _ _ => .inr ?_⟩
      · have bound : pass < (loop.passes ++ [PassState.running]).length := (List.getElem?_eq_some_iff.mp running).1
        rw [List.length_append, List.length_singleton] at bound
        rcases Nat.lt_succ_iff_lt_or_eq.mp bound with before | rfl
        · refine absurd ?_ (idle pass)
          rw [← List.getElem?_append_left before]
          exact running
        · exact ⟨rfl, rfl⟩
      · exact ⟨loop.passes.length, by simp [LoopState.runPass]⟩
  · exact orderly

theorem LoopState.Orderly.settle (orderly : loop.Orderly) (pass : Nat) (threw : Bool) : (loop.settle pass threw).Orderly := by
  rw [LoopState.settle]
  split
  · next running =>
      obtain ⟨current, handle⟩ := orderly.one pass running
      have below := (List.getElem?_eq_some_iff.mp running).1
      have idle (state : PassState) (ended : state ≠ .running) (other : Nat) :
          (loop.passes.set pass state)[other]? ≠ some .running := by
        rw [List.getElem?_set]
        split
        · simp [ended]
        · next apart =>
            intro also
            rw [(orderly.one other also).1, Option.some.injEq] at current
            exact apart current.symm
      cases threw with
      | true =>
        refine ⟨orderly.handled, fun other also => absurd also (idle _ (by decide) other), orderly.halted,
          fun _ quiet => absurd ?_ quiet⟩
        exact List.mem_of_getElem? (List.getElem?_set_self below)
      | false =>
        rw [if_neg Bool.false_ne_true, LoopState.schedule]
        split
        · next stopped =>
            exact ⟨orderly.handled, fun other also => absurd also (idle _ (by decide) other), orderly.halted,
              fun going => absurd (going.symm.trans stopped) Bool.false_ne_true⟩
        · next going =>
            refine ⟨by simp [orderly.handled, handle], fun other also => absurd also (idle _ (by decide) other),
              fun stopped => absurd stopped going, fun _ _ => .inl rfl⟩
  · exact orderly

theorem startLoop_orderly {atOnce : Bool} {intervalMs : JsNumber} (started : startLoop atOnce intervalMs = .ok loop) : loop.Orderly := by
  rw [startLoop] at started
  split at started
  · cases started
    cases atOnce with
    | true =>
      refine ⟨rfl, fun pass running => ?_, fun _ => rfl, fun _ _ => .inr ⟨0, rfl⟩⟩
      cases pass with
      | zero => exact ⟨rfl, rfl⟩
      | succ pass => cases running
    | false =>
      refine ⟨rfl, fun pass running => ?_, fun stopped => ?_, fun _ _ => .inl rfl⟩
      · cases running
      · cases stopped
  · cases started

end Orderly

section Stopped

variable {loop : LoopState}

/-- A stopped loop runs no more passes than it has begun. -/
theorem LoopState.Orderly.fire_stopped (orderly : loop.Orderly) (stopped : loop.stopped = true) (timer : Nat) : loop.fire timer = loop := by
  rw [LoopState.fire, orderly.handled, orderly.halted stopped]
  exact if_neg List.not_mem_nil

theorem LoopState.settle_stopped (loop : LoopState) (pass : Nat) (threw : Bool) (stopped : loop.stopped = true) :
    (loop.settle pass threw).stopped = true ∧ (loop.settle pass threw).current = loop.current ∧
      (loop.settle pass threw).passes.length = loop.passes.length ∧ (.running ∉ loop.passes → loop.settle pass threw = loop) := by
  rw [LoopState.settle, LoopState.schedule]
  split
  · next running =>
      have member := List.mem_of_getElem? running
      cases threw with
      | true => simp [stopped, member]
      | false => simp [stopped, member]
  · exact ⟨stopped, rfl, rfl, fun _ => rfl⟩

/-- A stopped loop whose last pass is over has none that runs. -/
theorem LoopState.Orderly.idle (orderly : loop.Orderly) (ended : loop.awaits .finished loop.current = true) : .running ∉ loop.passes := by
  intro running
  obtain ⟨pass, at'⟩ := List.getElem?_of_mem running
  rw [(orderly.one pass at').1, LoopState.awaits, at'] at ended
  simp at ended

end Stopped

section EngineRuns

variable {engine start : EngineLoops}

theorem of_mem_modify {A : Type} {items : List A} {index : Nat} {change : A → A} {item : A} (listed : item ∈ items.modify index change) :
    item ∈ items ∨ ∃ old ∈ items, item = change old := by
  obtain ⟨position, at'⟩ := List.getElem?_of_mem listed
  rw [List.getElem?_modify] at at'
  obtain ⟨old, found, same⟩ := Option.map_eq_some_iff.mp at'
  have member := List.mem_of_getElem? found
  split at same
  · exact .inr ⟨old, member, same.symm⟩
  · exact .inl (same ▸ member)

theorem map_modify {A B : Type} {items : List A} (index : Nat) {change : A → A} {read : A → B}
    (keeps : ∀ item ∈ items, read (change item) = read item) : (items.modify index change).map read = items.map read := by
  refine List.ext_getElem? fun position => ?_
  rw [List.getElem?_map, List.getElem?_map, List.getElem?_modify]
  cases found : items[position]? with
  | none => rfl
  | some item =>
    simp only [Option.map_eq_map, Option.map_some, Option.some.injEq]
    split
    · exact keeps item (List.mem_of_getElem? found)
    · rfl

/-- What holds of the loops and of the calls of `stop`, over any run. -/
structure EngineLoops.Orderly (engine : EngineLoops) : Prop where
  loops : ∀ loop ∈ engine.loops, loop.Orderly
  stopping : ∀ awaited, .stoppingLoops awaited ∈ engine.calls →
    awaited = engine.loops.map LoopState.current ∧ ∀ loop ∈ engine.loops, loop.stopped = true
  stopped : ∀ call ∈ engine.calls, call = .draining ∨ call = .releasing ∨ call = .resolved →
    ∀ loop ∈ engine.loops, loop.stopped = true ∧ .running ∉ loop.passes
  releasing : .releasing ∈ engine.calls → engine.drained = true
  ordered : engine.released = true → engine.drained = true
  drained : engine.drained = true → ∀ loop ∈ engine.loops, loop.stopped = true ∧ .running ∉ loop.passes

/-- A change of one loop that keeps the stopped loops as they have to be. -/
theorem EngineLoops.Orderly.modify (orderly : engine.Orderly) (index : Nat) {change : LoopState → LoopState}
    (keeps : ∀ loop ∈ engine.loops, (change loop).Orderly)
    (stopped : ∀ loop ∈ engine.loops, loop.stopped = true → (change loop).stopped = true ∧ (change loop).current = loop.current ∧
      (.running ∉ loop.passes → change loop = loop)) :
    ({ engine with loops := engine.loops.modify index change } : EngineLoops).Orderly := by
  have idle (before : ∀ loop ∈ engine.loops, loop.stopped = true ∧ .running ∉ loop.passes) :
      ∀ loop ∈ engine.loops.modify index change, loop.stopped = true ∧ .running ∉ loop.passes := by
    intro loop listed
    rcases of_mem_modify listed with same | ⟨old, member, rfl⟩
    · exact before loop same
    · rw [(stopped old member (before old member).1).2.2 (before old member).2]
      exact before old member
  refine ⟨fun loop listed => ?_, fun awaited listed => ?_, fun call listed phase => idle (orderly.stopped call listed phase),
    orderly.releasing, orderly.ordered, fun drained => idle (orderly.drained drained)⟩
  · rcases of_mem_modify listed with same | ⟨old, member, rfl⟩
    · exact orderly.loops loop same
    · exact keeps old member
  · obtain ⟨rfl, before⟩ := orderly.stopping awaited listed
    refine ⟨(map_modify index fun loop member => (stopped loop member (before loop member)).2.1).symm, fun loop listed' => ?_⟩
    rcases of_mem_modify listed' with same | ⟨old, member, rfl⟩
    · exact before loop same
    · exact (stopped old member (before old member)).1

theorem EngineLoops.Orderly.stop (orderly : engine.Orderly) : engine.stop.Orderly := by
  have idle (before : ∀ loop ∈ engine.loops, loop.stopped = true ∧ .running ∉ loop.passes) :
      ∀ loop ∈ engine.loops.map LoopState.stop, loop.stopped = true ∧ .running ∉ loop.passes := by
    intro loop listed
    obtain ⟨old, member, rfl⟩ := List.mem_map.mp listed
    exact ⟨rfl, (before old member).2⟩
  have currents : (engine.loops.map LoopState.stop).map LoopState.current = engine.loops.map LoopState.current := by
    rw [List.map_map]
    rfl
  have halts : ∀ loop ∈ engine.loops.map LoopState.stop, loop.stopped = true := by
    intro loop listed
    obtain ⟨old, -, rfl⟩ := List.mem_map.mp listed
    rfl
  refine ⟨fun loop listed => ?_, fun awaited listed => ?_, fun call listed phase => ?_, fun listed => ?_, orderly.ordered,
    fun drained => idle (orderly.drained drained)⟩
  · obtain ⟨old, member, rfl⟩ := List.mem_map.mp listed
    exact (orderly.loops old member).stop
  · rcases List.mem_append.mp listed with before | new
    · exact ⟨(orderly.stopping awaited before).1.trans currents.symm, halts⟩
    · cases List.mem_singleton.mp new
      exact ⟨currents.symm, halts⟩
  · rcases List.mem_append.mp listed with before | new
    · exact idle (orderly.stopped call before phase)
    · rw [List.mem_singleton.mp new] at phase
      simp at phase
  · rcases List.mem_append.mp listed with before | new
    · exact orderly.releasing before
    · cases List.mem_singleton.mp new

/-- A call goes on to drain the worker once no pass runs. -/
theorem EngineLoops.Orderly.resumed (orderly : engine.Orderly) {awaited : List (Option Nat)}
    (listed : .stoppingLoops awaited ∈ engine.calls) (ended : engine.resume awaited = .draining) :
    ∀ loop ∈ engine.loops, loop.stopped = true ∧ .running ∉ loop.passes := by
  obtain ⟨rfl, halts⟩ := orderly.stopping awaited listed
  intro loop member
  refine ⟨halts loop member, (orderly.loops loop member).idle ?_⟩
  rw [EngineLoops.resume] at ended
  split at ended
  · next all =>
      have pair : (loop, loop.current) ∈ engine.loops.zip (engine.loops.map LoopState.current) := by
        rw [← List.map_prod_left_eq_zip]
        exact List.mem_map_of_mem member
      exact List.all_eq_true.mp all _ pair
  · split at ended <;> cases ended

/-- A call that waited for the loops goes on in one of three ways. -/
theorem EngineLoops.resume_cases (engine : EngineLoops) (awaited : List (Option Nat)) :
    engine.resume awaited = .draining ∨ engine.resume awaited = .rejected ∨ engine.resume awaited = .stoppingLoops awaited := by
  rw [EngineLoops.resume]
  split
  · exact .inl rfl
  · split
    · exact .inr (.inl rfl)
    · exact .inr (.inr rfl)

/-- One call goes on to a phase that the loops allow. -/
theorem EngineLoops.Orderly.phased (orderly : engine.Orderly) {call : Nat} {next : StopCall} {drained released : Bool}
    (waits : ∀ awaited, next = .stoppingLoops awaited → .stoppingLoops awaited ∈ engine.calls)
    (idle : next = .draining ∨ next = .releasing ∨ next = .resolved →
      ∀ loop ∈ engine.loops, loop.stopped = true ∧ .running ∉ loop.passes)
    (goes : next = .releasing → drained = true) (ordered : released = true → drained = true)
    (keeps : engine.drained = true → drained = true)
    (ended : drained = true → ∀ loop ∈ engine.loops, loop.stopped = true ∧ .running ∉ loop.passes) :
    ({ engine with calls := engine.calls.set call next, drained := drained, released := released } : EngineLoops).Orderly := by
  refine ⟨orderly.loops, fun awaited listed => ?_, fun other listed phase => ?_, fun listed => ?_, ordered, ended⟩
  · rcases List.mem_or_eq_of_mem_set listed with before | same
    · exact orderly.stopping awaited before
    · exact orderly.stopping awaited (waits awaited same.symm)
  · rcases List.mem_or_eq_of_mem_set listed with before | rfl
    · exact orderly.stopped other before phase
    · exact idle phase
  · rcases List.mem_or_eq_of_mem_set listed with before | same
    · exact keeps (orderly.releasing before)
    · exact goes same.symm

theorem EngineLoops.Orderly.advance (orderly : engine.Orderly) (call : Nat) : (engine.advance call).Orderly := by
  rw [EngineLoops.advance]
  split
  · next awaited at' =>
      have listed := List.mem_of_getElem? at'
      refine orderly.phased (fun other same => ?_) (fun phase => ?_) (fun same => ?_) orderly.ordered id orderly.drained
      · rcases engine.resume_cases awaited with goes | goes | goes
        · rw [goes] at same
          cases same
        · rw [goes] at same
          cases same
        · rw [goes] at same
          exact same ▸ listed
      · rcases engine.resume_cases awaited with goes | goes | goes
        · exact orderly.resumed listed goes
        · simp [goes] at phase
        · simp [goes] at phase
      · rcases engine.resume_cases awaited with goes | goes | goes
        all_goals simp [goes] at same
  · next at' =>
      have idle := orderly.stopped _ (List.mem_of_getElem? at') (.inl rfl)
      refine orderly.phased (fun other same => ?_) (fun _ => idle) (fun _ => rfl) (fun _ => rfl) (fun _ => rfl) fun _ => idle
      split at same <;> cases same
  · next at' =>
      have idle := orderly.stopped _ (List.mem_of_getElem? at') (.inr (.inl rfl))
      have drained := orderly.releasing (List.mem_of_getElem? at')
      refine orderly.phased (fun other same => ?_) (fun _ => idle) (fun _ => drained) (fun _ => drained) id orderly.drained
      cases same
  · exact orderly

theorem LoopsOp.run_orderly (op : LoopsOp) (orderly : engine.Orderly) : (op.run engine).Orderly := by
  cases op with
  | fires index timer =>
    refine orderly.modify index (fun loop listed => (orderly.loops loop listed).fire timer) fun loop listed stopped => ?_
    rw [(orderly.loops loop listed).fire_stopped stopped]
    exact ⟨stopped, rfl, fun _ => rfl⟩
  | settles index pass stopping threw =>
    have settled {engine : EngineLoops} (orderly : engine.Orderly) :
        ({ engine with loops := engine.loops.modify index (·.settle pass threw) } : EngineLoops).Orderly := by
      refine orderly.modify index (fun loop listed => (orderly.loops loop listed).settle pass threw) fun loop listed stopped => ?_
      obtain ⟨halted, current, -, idle⟩ := loop.settle_stopped pass threw stopped
      exact ⟨halted, current, idle⟩
    rw [LoopsOp.run]
    split
    · cases stopping with
      | true => exact settled orderly.stop
      | false => exact settled orderly
    · exact orderly
  | stops => exact orderly.stop
  | resumes call => exact orderly.advance call

theorem LoopsRun.orderly (run : LoopsRun start engine) (orderly : start.Orderly) : engine.Orderly := by
  induction run with
  | refl => exact orderly
  | step run op ih => exact op.run_orderly ih

/-- No pass begins or goes on once no loop may run one. -/
theorem LoopsRun.quiet {later : EngineLoops} (run : LoopsRun engine later) (orderly : engine.Orderly)
    (idle : ∀ loop ∈ engine.loops, loop.stopped = true ∧ .running ∉ loop.passes) :
    later.loops.map LoopState.passes = engine.loops.map LoopState.passes ∧
      ∀ loop ∈ later.loops, loop.stopped = true ∧ .running ∉ loop.passes := by
  induction run with
  | refl => exact ⟨rfl, idle⟩
  | @step middle run op ih =>
    obtain ⟨same, idle⟩ := ih
    have orderly := run.orderly orderly
    have halted : (middle.stop).loops.map LoopState.passes = middle.loops.map LoopState.passes ∧
        ∀ loop ∈ (middle.stop).loops, loop.stopped = true ∧ .running ∉ loop.passes := by
      refine ⟨?_, fun loop listed => ?_⟩
      · rw [EngineLoops.stop, List.map_map]
        rfl
      · obtain ⟨old, member, rfl⟩ := List.mem_map.mp listed
        exact ⟨rfl, (idle old member).2⟩
    cases op with
    | fires index timer =>
      have kept : ∀ loop ∈ middle.loops, loop.fire timer = loop := fun loop listed =>
        (orderly.loops loop listed).fire_stopped (idle loop listed).1 timer
      refine ⟨(map_modify index fun loop listed => by rw [kept loop listed]).trans same, fun loop listed => ?_⟩
      rcases of_mem_modify listed with before | ⟨old, member, rfl⟩
      · exact idle loop before
      · rw [kept old member]
        exact idle old member
    | settles index pass stopping threw =>
      rw [LoopsOp.run]
      split
      · next running =>
          obtain ⟨loop, found, runs⟩ := (Option.any_eq_true _ _).mp running
          exact absurd (List.mem_of_getElem? (of_decide_eq_true runs)) (idle loop (List.mem_of_getElem? found)).2
      · exact ⟨same, idle⟩
    | stops => exact ⟨halted.1.trans same, halted.2⟩
    | resumes call =>
      have loops : (middle.advance call).loops = middle.loops := by
        rw [EngineLoops.advance]
        split <;> rfl
      rw [LoopsOp.run, loops]
      exact ⟨same, idle⟩

theorem startEngine_orderly {loopIntervalMs : JsNumber} {compaction : Option JsNumber} {stickyRouting : Bool}
    (started : startEngine loopIntervalMs compaction stickyRouting = .ok engine) : engine.Orderly := by
  have fresh {loops : List LoopState} (tidy : ∀ loop ∈ loops, loop.Orderly) :
      (⟨loops, [], stickyRouting, false, false⟩ : EngineLoops).Orderly := ⟨tidy, by simp, by simp, by simp, by simp, by simp⟩
  rw [startEngine] at started
  cases timer : startTimerLoop loopIntervalMs with
  | error error => simp [timer, bind, Except.bind] at started
  | ok timerLoop =>
    cases schedule : startScheduleLoop loopIntervalMs with
    | error error => simp [timer, schedule, bind, Except.bind] at started
    | ok scheduleLoop =>
      cases janitor : startJanitorLoop loopIntervalMs with
      | error error => simp [timer, schedule, janitor, bind, Except.bind] at started
      | ok janitorLoop =>
        have three : ∀ loop ∈ [timerLoop, scheduleLoop, janitorLoop], loop.Orderly := by
          simp only [List.forall_mem_cons, List.not_mem_nil, IsEmpty.forall_iff, implies_true, and_true]
          exact ⟨startLoop_orderly timer, startLoop_orderly schedule, startLoop_orderly janitor⟩
        simp only [timer, schedule, janitor, bind, Except.bind] at started
        cases compaction with
        | none =>
          cases started
          exact fresh three
        | some intervalMs =>
          cases compactor : startCompactorLoop intervalMs with
          | error error => simp [compactor] at started
          | ok compactorLoop =>
            simp only [compactor] at started
            cases started
            refine fresh fun loop listed => ?_
            rcases List.mem_append.mp (show loop ∈ [timerLoop, scheduleLoop, janitorLoop] ++ [compactorLoop] from listed) with
              before | new
            · exact three loop before
            · exact List.mem_singleton.mp new ▸ startLoop_orderly compactor

/-- In every run of an engine each loop runs one pass at a time, sets a timeout only between two passes, and goes on until it is
stopped or its error handler throws. Once a call of `stop` drains the worker, and so before the claims are released, every
loop is stopped and none of its passes runs, and none begins later. -/
theorem engineLoops_stop {loopIntervalMs : JsNumber} {compaction : Option JsNumber} {stickyRouting : Bool}
    (started : startEngine loopIntervalMs compaction stickyRouting = .ok start) (run : LoopsRun start engine) :
    (∀ loop ∈ engine.loops, loop.armed.length ≤ 1 ∧ (∀ pass : Nat, loop.passes[pass]? = some .running → loop.armed = [] ∧
        ∀ other : Nat, loop.passes[other]? = some .running → other = pass) ∧
      (loop.stopped = false → .rejected ∉ loop.passes → loop.armed ≠ [] ∨ .running ∈ loop.passes)) ∧
    (engine.released = true → engine.drained = true) ∧ (.draining ∈ engine.calls ∨ engine.drained = true → ∀ later, LoopsRun engine later →
      later.loops.map LoopState.passes = engine.loops.map LoopState.passes ∧
        ∀ loop ∈ later.loops, loop.stopped = true ∧ loop.armed = [] ∧ .running ∉ loop.passes) := by
  have orderly := run.orderly (startEngine_orderly started)
  refine ⟨fun loop listed => ?_, orderly.ordered, fun drains later onward => ?_⟩
  · have tidy := orderly.loops loop listed
    refine ⟨?_, fun pass running => ⟨?_, fun other also => ?_⟩, fun going reported => ?_⟩
    · rw [tidy.handled]
      cases loop.handle <;> simp
    · rw [tidy.handled, (tidy.one pass running).2]
      rfl
    · exact Option.some.inj ((tidy.one other also).1.symm.trans (tidy.one pass running).1)
    · rcases tidy.alive going reported with handle | ⟨pass, running⟩
      · obtain ⟨timer, same⟩ := Option.isSome_iff_exists.mp handle
        exact .inl (by simp [tidy.handled, same])
      · exact .inr (List.mem_of_getElem? running)
  · have idle : ∀ loop ∈ engine.loops, loop.stopped = true ∧ .running ∉ loop.passes := by
      rcases drains with draining | drained
      · exact orderly.stopped _ draining (.inl rfl)
      · exact orderly.drained drained
    obtain ⟨same, quiet⟩ := onward.quiet orderly idle
    refine ⟨same, fun loop listed => ⟨(quiet loop listed).1, ?_, (quiet loop listed).2⟩⟩
    have tidy := (onward.orderly orderly).loops loop listed
    rw [tidy.handled, tidy.halted (quiet loop listed).1]
    rfl

end EngineRuns

/-- An engine with its three loops, of which two run their first pass. -/
def startedLoops : EngineLoops :=
  ⟨[(⟨none, none, false, [], 0, []⟩ : LoopState).runPass, (⟨none, none, false, [], 0, []⟩ : LoopState).runPass,
    (⟨none, none, false, [], 0, []⟩ : LoopState).schedule], [], true, false, false⟩

/-- It is stopped while the first passes run, and goes on to drain its worker when they are over. -/
def drainingLoops : EngineLoops :=
  [.stops, .settles 0 0 false false, .resumes 0, .settles 1 0 false false, .resumes 0].foldl LoopsOp.run startedLoops

theorem engineLoops_stop_draining : .draining ∈ drainingLoops.calls ∧
    ∀ loop ∈ drainingLoops.loops, loop.stopped = true ∧ loop.armed = [] ∧ .running ∉ loop.passes := by
  have started : startEngine (.finite 1000) none true = .ok startedLoops := rfl
  have run : LoopsRun startedLoops drainingLoops :=
    .step (.step (.step (.step (.step .refl .stops) (.settles 0 0 false false)) (.resumes 0)) (.settles 1 0 false false)) (.resumes 0)
  have draining : StopCall.draining ∈ drainingLoops.calls := List.mem_of_getElem? (i := 0) rfl
  exact ⟨draining, ((engineLoops_stop started run).2.2 (.inl draining) _ .refl).2⟩

end DurableExecution.Worker
