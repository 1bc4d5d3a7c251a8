import DurableExecution.Workflow.LiveSimulation

/-
This file proves that a replay is fed what a live session delivers: the events that a call waits for, at
the same places and in the same order.
-/

namespace DurableExecution.Workflow.Live

open EventLoop

section Pairs

variable {H : Type} {hosts hosts' : LiveState H → ReplayState H → Prop} {goal goal' : Goal}
  {first : LiveWorld H} {second : ReplayWorld H}

/-- The states of both hosts may be replaced. -/
theorem rehosted (lockstep : Lockstep (pairing H hosts goal) first second) (one : LiveState H) (two : ReplayState H)
    (related : hosts' one two) :
    Lockstep (pairing H hosts' goal') { first with host := one } { second with host := two } where
  heap := lockstep.heap
  jobs := lockstep.jobs
  size := lockstep.size
  promises index left right atLeft atRight :=
    have alike := lockstep.promises index left right atLeft atRight
    ⟨alike.owner, alike.held, alike.tag, alike.frozen, alike.moving⟩
  host := related

/-- Both settle the same promises. -/
theorem settle_all (entries : List (PromiseId × Except JsValue JsValue)) (lockstep : Lockstep (pairing H hosts goal) first second) :
    Lockstep (pairing H hosts goal) (entries.foldl (fun world entry => world.settle .host entry.1 entry.2) first)
      (entries.foldl (fun world entry => world.settle .host entry.1 entry.2) second) := by
  induction entries generalizing first second with
  | nil => exact lockstep
  | cons entry rest ih => exact ih (lockstep.settle .host entry.1 entry.2 fun _ _ _ frozen => False.elim frozen)

end Pairs

section Known

variable {H : Type} {history : List WorkflowEvent} {state : LiveState H} {delivered : Nat} {event : WorkflowEvent}

/-- The key of the calls that an event can settle. -/
def keyOf : WorkflowEvent → Option String
  | .stepCompleted stepId _ | .stepFailed stepId _ _ => some ("step:" ++ stepId)
  | .timerFired timerId => some ("timer:" ++ timerId)
  | .signalReceived signalName _ => some ("signal:" ++ signalName)
  | _ => none

/-- What a session remembers of an event that it delivers. -/
def LiveState.noting (state : LiveState H) (event : WorkflowEvent) : LiveState H :=
  match event with
  | .stepCompleted stepId _ | .stepFailed stepId _ _ =>
    { state with finishedSteps := Function.update state.finishedSteps stepId (some event) }
  | .timerFired timerId => { state with firedTimers := state.firedTimers ++ [timerId] }
  | .signalReceived signalName payload =>
    { state with signals := Function.update state.signals signalName (state.signals signalName ++ [payload]) }
  | _ => state

theorem deliver_eq (event : WorkflowEvent) (world : LiveWorld H) :
    deliver event world = match keyOf event with
      | some key => notify key (alter (fun state => state.noting event) world)
      | none => (false, world) := by
  cases event <;> rfl

theorem noting_none (unkeyed : keyOf event = none) : state.noting event = state := by
  cases event <;> first | rfl | cases unkeyed

/-- An event settles only calls of its key. -/
theorem Waiter.keyed (waiter : Waiter) (settles : waiter.outcome event ≠ none) : keyOf event = some waiter.key := by
  cases waiter <;> cases event <;> simp_all [Waiter.outcome, stepOutcome, timerOutcome, signalOutcome, keyOf, Waiter.key]

/-- The outcomes of the events up to and with the next one. -/
theorem outcomes_next (waiter : Waiter) (next : history[delivered]? = some event) :
    (history.take (delivered + 1)).filterMap waiter.outcome =
      (history.take delivered).filterMap waiter.outcome ++ (waiter.outcome event).toList := by
  rw [List.take_add_one, next, List.filterMap_append]
  cases found : waiter.outcome event <;> simp [found]

/-- A session knows the outcomes of the events it has delivered. -/
def LiveState.Knows (state : LiveState H) (events : List WorkflowEvent) : Prop :=
  ∀ waiter, state.tryResolve waiter = (events.filterMap waiter.outcome)[waiter.skip]?

theorem Knows.signals (knows : state.Knows history) (signalName : String) :
    (state.signals signalName).map Except.ok = history.filterMap (signalOutcome signalName) := by
  apply List.ext_getElem?
  intro index
  rw [List.getElem?_map]
  exact knows (.signal signalName index)

/-- A step has no second outcome. -/
theorem step_once (once : ∀ stepId stepType, (history.filterMap (stepOutcome stepId stepType)).length ≤ 1)
    (next : history[delivered]? = some event) {stepId stepType : String} (ends : stepOutcome stepId stepType event ≠ none) :
    (history.take delivered).filterMap (stepOutcome stepId stepType) = [] := by
  have whole := once stepId stepType
  obtain ⟨inside, here⟩ := List.getElem?_eq_some_iff.mp next
  rw [← List.take_append_drop delivered history, List.drop_eq_getElem_cons inside, here, List.filterMap_append,
    List.length_append] at whole
  obtain ⟨outcome, found⟩ := Option.ne_none_iff_exists'.mp ends
  rw [List.filterMap_cons, found] at whole
  apply List.eq_nil_of_length_eq_zero
  simp only [List.length_cons] at whole
  omega

/-- An event that does not settle a call leaves what the session knows of it. -/
theorem noting_others (waiter : Waiter) (others : waiter.outcome event = none) :
    (state.noting event).tryResolve waiter = state.tryResolve waiter := by
  cases event with
  | stepCompleted id | stepFailed id =>
    cases waiter with
    | step stepId stepType =>
      have apart : stepId ≠ id := by
        rintro rfl
        simp [Waiter.outcome, stepOutcome] at others
      simp [LiveState.noting, LiveState.tryResolve, Function.update_of_ne apart]
    | _ => rfl
  | timerFired id =>
    cases waiter with
    | timer timerId =>
      have apart : timerId ≠ id := by
        rintro rfl
        simp [Waiter.outcome, timerOutcome] at others
      simp [LiveState.noting, LiveState.tryResolve, apart]
    | _ => rfl
  | signalReceived name =>
    cases waiter with
    | signal signalName index =>
      have apart : signalName ≠ name := by
        rintro rfl
        simp [Waiter.outcome, signalOutcome] at others
      simp [LiveState.noting, LiveState.tryResolve, Function.update_of_ne apart]
    | _ => rfl
  | _ => rfl

/-- A session that has noted the next event knows its outcome. -/
theorem Knows.noting (once : ∀ stepId stepType, (history.filterMap (stepOutcome stepId stepType)).length ≤ 1)
    (next : history[delivered]? = some event) (knows : state.Knows (history.take delivered)) :
    (state.noting event).Knows (history.take (delivered + 1)) := by
  intro waiter
  rw [outcomes_next waiter next]
  have before := knows waiter
  by_cases settles : waiter.outcome event = none
  · rw [settles, Option.toList_none, List.append_nil, ← before]
    exact noting_others waiter settles
  · cases waiter with
    | step stepId stepType =>
      have empty : (history.take delivered).filterMap (stepOutcome stepId stepType) = [] := step_once once next settles
      change (state.noting event).tryResolve _ =
        ((history.take delivered).filterMap (stepOutcome stepId stepType) ++ (stepOutcome stepId stepType event).toList)[0]?
      rw [empty]
      have noted : (state.noting event).finishedSteps stepId = some event := by
        cases event <;> simp_all [Waiter.outcome, stepOutcome, LiveState.noting]
      rw [LiveState.tryResolve, noted, Option.bind_some]
      cases stepOutcome stepId stepType event <;> rfl
    | timer timerId =>
      have fired : event = .timerFired timerId := by
        cases event <;> simp_all [Waiter.outcome, timerOutcome]
      subst fired
      have early : state.tryResolve (.timer timerId) = ((history.take delivered).filterMap (timerOutcome timerId))[0]? := before
      change (if timerId ∈ state.firedTimers ++ [timerId] then some (Except.ok JsValue.undefined) else none) =
        ((history.take delivered).filterMap (timerOutcome timerId) ++ (timerOutcome timerId (.timerFired timerId)).toList)[0]?
      rw [if_pos (by simp)]
      cases found : (history.take delivered).filterMap (timerOutcome timerId) with
      | nil => simp [timerOutcome]
      | cons outcome others =>
        rw [found, LiveState.tryResolve] at early
        split at early
        · exact early
        · cases early
    | signal signalName index =>
      obtain ⟨payload, rfl⟩ : ∃ payload, event = .signalReceived signalName payload := by
        cases event <;> simp_all [Waiter.outcome, signalOutcome]
      change ((Function.update state.signals signalName (state.signals signalName ++ [payload]) signalName)[index]?).map .ok =
        ((history.take delivered).filterMap (signalOutcome signalName) ++
          (signalOutcome signalName (.signalReceived signalName payload)).toList)[index]?
      rw [Function.update_self, ← List.getElem?_map, List.map_append, Knows.signals knows]
      simp [signalOutcome]

end Known

section Deliveries

variable {H : Type} {long : Replay} {options : DecisionLoopOptions} {history rest : List WorkflowEvent} {goal : Goal}
  {delivered : Nat} {first : LiveWorld H} {second : ReplayWorld H} {event : WorkflowEvent}

/-- How the wait of a call stands when the events up to and with `delivered` have been noted. -/
structure Stands (long : Replay) (delivered : Nat) (waiter : Waiter) (resolved : Option (Except JsValue JsValue)) : Prop where
  later : ∀ place, waiter.placeIn long.history = some place → delivered ≤ place.1
  here : ∀ outcome, waiter.placeIn long.history = some (delivered, outcome) → resolved = some outcome
  elsewhere : (∀ outcome, waiter.placeIn long.history ≠ some (delivered, outcome)) → resolved = none

theorem Knows.stands {state : LiveState H} (knows : state.Knows (long.history.take (delivered + 1))) {waiter : Waiter}
    (unresolved : waiter.placeIn (long.history.take delivered) = none) : Stands long delivered waiter (state.tryResolve waiter) := by
  have resolves : state.tryResolve waiter = (waiter.placeIn (long.history.take (delivered + 1))).map Prod.snd := by
    rw [knows, Waiter.value]
  refine ⟨fun place found => Waiter.placeIn_later unresolved found, fun outcome found => ?_, fun absent => ?_⟩
  · rw [resolves]
    cases taken : waiter.placeIn (long.history.take (delivered + 1)) with
    | none =>
      have later := Waiter.placeIn_later taken found
      omega
    | some place =>
      have whole := (Waiter.placeIn_taken taken).1
      rw [found] at whole
      cases whole
      rfl
  · rw [resolves]
    cases taken : waiter.placeIn (long.history.take (delivered + 1)) with
    | none => rfl
    | some place =>
      obtain ⟨whole, inside⟩ := Waiter.placeIn_taken taken
      have later := Waiter.placeIn_later unresolved whole
      have exactly : place.1 = delivered := by omega
      exact absurd (exactly ▸ whole) (absent place.2)

/-- The delivery that the replay queued for a waiter. -/
def queuedFor (long : Replay) (entry : Waiter × PromiseId) : Option (Nat × PromiseId × Except JsValue JsValue) :=
  (entry.1.placeIn long.history).map fun place => (place.1, entry.2, place.2)

/-- The deliveries of a place are the waiters that are resolved there. -/
theorem deliveries_split (resolve : Waiter → Option (Except JsValue JsValue)) (waiters : List (Waiter × PromiseId))
    (stand : ∀ entry ∈ waiters, Stands long delivered entry.1 (resolve entry.1)) :
    ((waiters.filterMap (queuedFor long)).filter fun delivery => delivery.1 == delivered).map Prod.snd =
        waiters.filterMap (fun entry => (resolve entry.1).map fun outcome => (entry.2, outcome)) ∧
      ((waiters.filterMap (queuedFor long)).filter fun delivery => delivery.1 != delivered) =
        (waiters.filter fun entry => (resolve entry.1).isNone).filterMap (queuedFor long) := by
  induction waiters with
  | nil => exact ⟨rfl, rfl⟩
  | cons entry others ih =>
    obtain ⟨due, left⟩ := ih fun other listed => stand other (List.mem_cons_of_mem _ listed)
    obtain ⟨later, here, elsewhere⟩ := stand entry List.mem_cons_self
    cases found : entry.1.placeIn long.history with
    | none =>
      have unresolved := elsewhere fun outcome same => by cases found.symm.trans same
      simp [queuedFor, found, unresolved]
      exact ⟨due, left⟩
    | some place =>
      obtain ⟨place, outcome⟩ := place
      by_cases exactly : place = delivered
      · subst exactly
        have resolved := here outcome found
        simp [queuedFor, found, resolved]
        exact ⟨due, left⟩
      · have unresolved := elsewhere fun other same => by
          cases found.symm.trans same
          exact exactly rfl
        simp [queuedFor, found, unresolved, exactly]
        exact ⟨due, left⟩

/-- What a session remembers of an event changes nothing else that is compared. -/
theorem Follows.note {live : LiveState H} {replay : ReplayState H} (prolonged : Prolonged long options history goal rest)
    (follows : Follows long history goal delivered live replay) (next : long.history[delivered]? = some event) :
    (live.noting event).Knows (long.history.take (delivered + 1)) ∧
      ∀ waiters deliveries place,
        deliveries = waiters.filterMap (queuedFor long) →
        (∀ entry ∈ waiters, entry.1.placeIn (long.history.take (delivered + 1)) = none) →
        Follows long history goal (delivered + 1) { live.noting event with waiters := waiters }
          { replay with deliveries := deliveries, fedUpTo := place } := by
  have knows := Knows.noting prolonged.supported.once next follows.known
  refine ⟨knows, fun waiters deliveries place waiting unresolved => ?_⟩
  have emits : Emits long history { live.noting event with waiters := waiters }
      { replay with deliveries := deliveries, fedUpTo := place } goal := by
    have emits := follows.emits
    cases goal <;> cases event <;> exact emits
  have known : ∀ waiter, LiveState.tryResolve { live.noting event with waiters := waiters } waiter = _ := knows
  cases event <;> exact { follows with emits := emits, waiting := waiting, unresolved := unresolved, known := known }

/-- An event resolves only waiters of its key. -/
theorem Follows.keyed {live : LiveState H} {replay : ReplayState H} (follows : Follows long history goal delivered live replay)
    {entry : Waiter × PromiseId} (listed : entry ∈ live.waiters) (resolved : (live.noting event).tryResolve entry.1 ≠ none) :
    keyOf event = some entry.1.key := by
  apply Waiter.keyed
  intro others
  rw [noting_others entry.1 others, follows.resolves, follows.unresolved entry listed] at resolved
  exact resolved rfl

/-- The waiters that an event resolves, and what they are resolved with. -/
def resolvedBy (event : WorkflowEvent) (state : LiveState H) : List (PromiseId × Except JsValue JsValue) :=
  state.waiters.filterMap fun entry => ((state.noting event).tryResolve entry.1).map fun outcome => (entry.2, outcome)

def remainingAfter (event : WorkflowEvent) (state : LiveState H) : List (Waiter × PromiseId) :=
  state.waiters.filter fun entry => ((state.noting event).tryResolve entry.1).isNone

/-- A delivery settles the calls that the event resolves, in the order of their waiters. -/
theorem Follows.deliver {replay : ReplayState H} (follows : Follows long history goal delivered first.host replay) :
    deliver event first = (!(resolvedBy event first.host).isEmpty,
      (resolvedBy event first.host).foldl (fun world entry => world.settle .host entry.1 entry.2)
        (alter (fun state => { state.noting event with waiters := remainingAfter event state }) first)) := by
  have waiters : (first.host.noting event).waiters = first.host.waiters := by cases event <;> rfl
  rw [deliver_eq]
  cases keyed : keyOf event with
  | none =>
    have nobody : resolvedBy event first.host = [] := by
      refine List.filterMap_eq_nil_iff.mpr fun entry listed => ?_
      by_contra resolved
      rw [Option.map_eq_none_iff] at resolved
      cases keyed.symm.trans (follows.keyed listed resolved)
    have all : remainingAfter event first.host = first.host.waiters := by
      refine List.filter_eq_self.mpr fun entry listed => Option.isNone_iff_eq_none.mpr ?_
      by_contra resolved
      cases keyed.symm.trans (follows.keyed listed resolved)
    rw [nobody]
    dsimp only [List.isEmpty_nil, Bool.not_true, List.foldl_nil, alter]
    rw [all, noting_none keyed]
    rfl
  | some key =>
    dsimp only
    unfold notify
    have same : ((alter (fun state => state.noting event) first).host.waiters.filterMap fun entry =>
        if entry.1.key = key then ((alter (fun state => state.noting event) first).host.tryResolve entry.1).map
          fun outcome => (entry.2, outcome) else none) = resolvedBy event first.host := by
      change ((first.host.noting event).waiters.filterMap _) = _
      rw [waiters]
      refine List.filterMap_congr fun entry listed => ?_
      by_cases resolved : (first.host.noting event).tryResolve entry.1 = none
      · change (if _ then ((first.host.noting event).tryResolve entry.1).map _ else none) = _
        rw [resolved]
        simp
      · rw [if_pos (Option.some.inj ((follows.keyed listed resolved).symm.trans keyed))]
        rfl
    have left : ((alter (fun state => state.noting event) first).host.waiters.filter fun entry =>
        decide (entry.1.key ≠ key) || ((alter (fun state => state.noting event) first).host.tryResolve entry.1).isNone) =
          remainingAfter event first.host := by
      change ((first.host.noting event).waiters.filter _) = _
      rw [waiters]
      refine List.filter_congr fun entry listed => ?_
      change (decide (entry.1.key ≠ key) || ((first.host.noting event).tryResolve entry.1).isNone) = _
      by_cases resolved : (first.host.noting event).tryResolve entry.1 = none
      · rw [resolved]
        simp
      · have mine := Option.some.inj ((follows.keyed listed resolved).symm.trans keyed)
        simp [mine]
    dsimp only
    rw [same, left]
    rfl

/-- The replay is fed the events that resolve a waiter. -/
theorem deliver_follows (prolonged : Prolonged long options history goal rest) (next : long.history[delivered]? = some event)
    (lockstep : Lockstep (beside H long history goal delivered) first second) :
    ((deliver event first).1 = false → Lockstep (beside H long history goal (delivered + 1)) (deliver event first).2 second) ∧
      ((deliver event first).1 = true → nextDelivery second = some delivered ∧
        Lockstep (alongside H long history goal (delivered + 1)) (deliver event first).2 (Workflow.release delivered second)) := by
  obtain ⟨follows, fed⟩ := lockstep.host
  obtain ⟨knows, noted⟩ := follows.note prolonged next
  have stands (entry : Waiter × PromiseId) (listed : entry ∈ first.host.waiters) :
      Stands long delivered entry.1 ((first.host.noting event).tryResolve entry.1) :=
    Knows.stands knows (follows.unresolved entry listed)
  obtain ⟨due, left⟩ := deliveries_split _ _ stands
  have waiting : second.host.deliveries = first.host.waiters.filterMap (queuedFor long) := follows.waiting
  rw [← waiting] at due left
  have remain (entry : Waiter × PromiseId) (listed : entry ∈ remainingAfter event first.host) :
      entry.1.placeIn (long.history.take (delivered + 1)) = none := by
    obtain ⟨_, unresolved⟩ := List.mem_filter.mp listed
    have resolves := Waiter.value entry.1 (long.history.take (delivered + 1))
    rw [← knows, Option.isNone_iff_eq_none.mp unresolved] at resolves
    exact Option.map_eq_none_iff.mp resolves
  rw [follows.deliver]
  constructor
  · intro nobody
    have empty : resolvedBy event first.host = [] := by simpa using nobody
    rw [empty]
    have none' : (second.host.deliveries.filter fun delivery => delivery.1 == delivered) = [] :=
      List.map_eq_nil_iff.mp (due.trans empty)
    have all : (second.host.deliveries.filter fun delivery => delivery.1 != delivered) = second.host.deliveries := by
      refine List.filter_eq_self.mpr fun delivery listed => ?_
      have absent := List.filter_eq_nil_iff.mp none' delivery listed
      simpa using absent
    rw [all] at left
    refine rehosted lockstep _ _ ⟨noted (remainingAfter event first.host) second.host.deliveries second.host.fedUpTo left remain, ?_⟩
    omega
  · intro somebody
    have nonempty : resolvedBy event first.host ≠ [] := by simpa using somebody
    have earliest : nextDelivery second = some delivered := by
      refine List.min?_eq_some_iff.mpr ⟨?_, ?_⟩
      · have someone : (second.host.deliveries.filter fun delivery => delivery.1 == delivered) ≠ [] := fun none' =>
          nonempty (due.symm.trans (congrArg (List.map Prod.snd) none'))
        obtain ⟨delivery, listed⟩ := List.exists_mem_of_ne_nil _ someone
        obtain ⟨queued, here⟩ := List.mem_filter.mp listed
        exact List.mem_map.mpr ⟨delivery, queued, by simpa using here⟩
      · intro place listed
        obtain ⟨delivery, queued, rfl⟩ := List.mem_map.mp listed
        rw [waiting] at queued
        obtain ⟨entry, held, found⟩ := List.mem_filterMap.mp queued
        obtain ⟨place, settles, rfl⟩ := Option.map_eq_some_iff.mp found
        exact (stands entry held).later place settles
    refine ⟨earliest, ?_⟩
    have began : Lockstep (alongside H long history goal (delivered + 1))
        (alter (fun state => { state.noting event with waiters := remainingAfter event state }) first)
        (update (fun state => { state with
          fedUpTo := delivered
          deliveries := state.deliveries.filter fun delivery => delivery.1 != delivered }) second) :=
      rehosted lockstep _ _ ⟨noted _ _ _ left remain, rfl⟩
    have settled := settle_all (resolvedBy event first.host) began
    rw [show resolvedBy event first.host = _ from due.symm] at settled ⊢
    rw [List.foldl_map] at settled ⊢
    rw [List.foldl_map] at settled
    exact settled

end Deliveries

end DurableExecution.Workflow.Live
