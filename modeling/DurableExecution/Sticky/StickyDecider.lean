import DurableExecution.Sticky.RunCache
import DurableExecution.Workflow.LiveAdvances

/-
This file models the decisions of a worker that keeps live sessions of its runs in a cache, and shows that they are the
decisions of full replays.
-/

namespace DurableExecution.Sticky

open Workflow Workflow.Live

section Decider

inductive DecisionSource where
  | cache
  | replay

structure StickyDecision where
  decision : Decision
  source : DecisionSource

/-- What the runs of a worker run. A worker tells workflows apart by their handlers, which are objects, and its
own options name no trigger. -/
structure Runs (H W : Type) where
  workflow : String → W
  handlerOf : W → WorkflowHandler H
  input : String → JsValue
  options : String → DecisionLoopOptions
  untriggered : ∀ runId, (options runId).triggeredAt = none

def Runs.handler {H W : Type} (runs : Runs H W) (runId : String) : WorkflowHandler H := runs.handlerOf (runs.workflow runId)

/-- `uncacheable` and the counters are locals of `createStickyDecider`. -/
structure StickyDecider (H W : Type) where
  cache : RunCache (LiveWorld H)
  uncacheable : List W
  cacheHits : Nat
  cacheMisses : Nat
  fullReplays : Nat
  replayedEvents : Nat
  incrementalEvents : Nat
  invalidations : Nat

def createStickyDecider {H W : Type} (cache : RunCache (LiveWorld H)) : StickyDecider H W := ⟨cache, [], 0, 0, 0, 0, 0, 0⟩

/-- The executions of the workflow that one decision can make. -/
inductive Attempt where
  | cached
  | fresh
  | replayed

/-- One call of `decide`, with what each attempt reads off the clock and the time at which a session is stored. -/
structure DecideCall where
  runId : String
  history : List WorkflowEvent
  triggeredAt : Option Instant
  clocks : Attempt → Nat → Instant
  storedAt : Int
  fuel : Nat

variable {H W : Type}

def DecideCall.options (call : DecideCall) (runs : Runs H W) (attempt : Attempt) : DecisionLoopOptions :=
  { runs.options call.runId with clock := call.clocks attempt }

def DecideCall.advance (call : DecideCall) (runs : Runs H W) (attempt : Attempt) (session : LiveWorld H) :
    Option (LiveWorld H × Except JsValue LiveAdvance) :=
  Live.advance call.fuel (call.options runs attempt) (runs.handler call.runId) (runs.input call.runId) call.history
    call.triggeredAt session

def DecideCall.replay (call : DecideCall) (runs : Runs H W) : Option (Except JsValue Decision) :=
  let options := call.options runs .replayed
  runDecisionLoop call.fuel ⟨call.history, { options with triggeredAt := call.triggeredAt.or options.triggeredAt }⟩
    (runs.handler call.runId) (runs.input call.runId)

def isOpen (decision : Decision) : Bool :=
  match decision.outcome with
  | .suspended => true
  | _ => false

def StickyDecider.drop (decider : StickyDecider H W) (runId : String) : StickyDecider H W :=
  { decider with cache := (decider.cache.delete runId).1 }

def StickyDecider.store (decider : StickyDecider H W) (call : DecideCall) (session : LiveWorld H) : StickyDecider H W :=
  { decider with cache := decider.cache.set call.runId session call.storedAt }

/-- A run from the top of the history is counted. -/
def StickyDecider.countReplay (decider : StickyDecider H W) (call : DecideCall) : StickyDecider H W :=
  { decider with
    fullReplays := decider.fullReplays + 1
    replayedEvents := decider.replayedEvents + call.history.length }

abbrev Decided (H W : Type) := StickyDecider H W × Except JsValue StickyDecision

def replayInFull (runs : Runs H W) (call : DecideCall) (decider : StickyDecider H W) : Option (Decided H W) :=
  (call.replay runs).map fun result =>
    match result with
    | .error thrown => ((decider.countReplay call).drop call.runId, .error thrown)
    | .ok decision => (decider.countReplay call, .ok ⟨decision, .replay⟩)

/-- What a fresh session makes of the history; a workflow that it cannot resume is remembered. -/
def concludeFresh (runs : Runs H W) (call : DecideCall) (decider : StickyDecider H W) (session : LiveWorld H) :
    Except JsValue LiveAdvance → Option (Decided H W)
  | .error thrown => some (decider.drop call.runId, .error thrown)
  | .ok (.decided decision) => some (if isOpen decision then decider.store call session else decider, .ok ⟨decision, .replay⟩)
  | .ok _ => replayInFull runs call { decider with uncacheable := decider.uncacheable ++ [runs.workflow call.runId] }

def replayFromScratch [DecidableEq W] (runs : Runs H W) (call : DecideCall) (decider : StickyDecider H W) :
    Option (Decided H W) :=
  if runs.workflow call.runId ∈ decider.uncacheable then replayInFull runs call decider
  else
    (call.advance runs .fresh (createLiveSession (runs.handler call.runId))).bind fun advanced =>
      concludeFresh runs call (decider.countReplay call) advanced.1 advanced.2

/-- What a cached session that had seen `before` events makes of the history. -/
def concludeCached [DecidableEq W] (runs : Runs H W) (call : DecideCall) (before : Nat) (decider : StickyDecider H W)
    (session : LiveWorld H) : Except JsValue LiveAdvance → Option (Decided H W)
  | .error thrown => some (decider.drop call.runId, .error thrown)
  | .ok (.decided decision) =>
    let counted := { decider with
      cacheHits := decider.cacheHits + 1
      incrementalEvents := decider.incrementalEvents + (call.history.length - before) }
    some (if isOpen decision then counted.store call session else counted.drop call.runId, .ok ⟨decision, .cache⟩)
  | .ok _ => replayFromScratch runs call ({ decider with
      cacheMisses := decider.cacheMisses + 1
      invalidations := decider.invalidations + 1 }.drop call.runId)

/-- The part of `decide` behind its look into the cache. -/
def StickyDecider.decide [DecidableEq W] (decider : StickyDecider H W) (runs : Runs H W) (call : DecideCall) :
    Option (LiveWorld H) → Option (Decided H W)
  | none => replayFromScratch runs call decider
  | some session => (call.advance runs .cached session).bind fun advanced =>
    concludeCached runs call session.host.history.length decider advanced.1 advanced.2

/-- The calls of `decide` that have looked into the cache and not returned yet, each with what it found there. -/
structure DeciderState (H W : Type) where
  decider : StickyDecider H W
  deciding : List (String × Option (LiveWorld H))

inductive DeciderOp where
  | lookUp (runId : String) (time : Int)
  | finish (call : DecideCall)
  | invalidate (runId : String)
  | flush

/-- Decisions of different runs overlap; the queue hands out one workflow task of a run at a time. -/
def DeciderState.step [DecidableEq W] (runs : Runs H W) (state : DeciderState H W) :
    DeciderOp → Option (DeciderState H W × Option (Except JsValue StickyDecision))
  | .lookUp runId time =>
    if runId ∈ state.deciding.map Prod.fst then none
    else
      let found := state.decider.cache.get runId time
      some (⟨{ state.decider with
          cache := found.1
          cacheMisses := state.decider.cacheMisses + found.2.isNone.toNat }, state.deciding ++ [(runId, found.2)]⟩, none)
  | .finish call =>
    (state.deciding.lookup call.runId).bind fun found =>
      (state.decider.decide runs call found).map fun decided =>
        (⟨decided.1, state.deciding.filter fun entry => entry.1 != call.runId⟩, some decided.2)
  | .invalidate runId =>
    let deleted := state.decider.cache.delete runId
    some ({ state with decider := { state.decider with
      cache := deleted.1
      invalidations := state.decider.invalidations + deleted.2.toNat } }, none)
  | .flush => some ({ state with decider := { state.decider with cache := state.decider.cache.clear } }, none)

end Decider

section Caches

variable {V : Type} {kept : String → V → Prop} {cache : RunCache V}

/-- Every value in the cache fits its run. -/
def RunCache.Holds (kept : String → V → Prop) (cache : RunCache V) : Prop :=
  ∀ entry ∈ cache.entries.entries, kept entry.1 entry.2.value

theorem RunCache.Holds.erased (holds : cache.Holds kept) (runId : String) {hits misses evictions expirations : Nat} :
    RunCache.Holds kept ⟨cache.limits, cache.entries.erase runId, hits, misses, evictions, expirations⟩ :=
  fun entry listed => holds entry (List.mem_filter.mp listed).1

theorem RunCache.Holds.delete (holds : cache.Holds kept) (runId : String) : (cache.delete runId).1.Holds kept :=
  holds.erased runId

theorem RunCache.Holds.clear : cache.clear.Holds kept := fun _ listed => absurd listed List.not_mem_nil

theorem RunCache.Holds.evict (holds : cache.Holds kept) (rounds : Nat) : (cache.evict rounds).Holds kept := by
  induction rounds generalizing cache with
  | zero => exact holds
  | succ rounds ih =>
    rw [RunCache.evict]
    split
    · split
      · exact holds
      · exact ih (holds.erased _)
    · exact holds

theorem RunCache.Holds.set (holds : cache.Holds kept) {runId : String} {value : V} (fits : kept runId value) (now : Int) :
    (cache.set runId value now).Holds kept := by
  refine RunCache.Holds.evict (fun entry listed => ?_) _
  rcases Order.InsertionMap.mem_set.mp listed with rfl | ⟨before, _⟩
  · exact fits
  · exact holds entry (List.mem_filter.mp before).1

/-- What the cache hands out fits the run, and the rest still does. -/
theorem RunCache.Holds.get (holds : cache.Holds kept) (runId : String) (now : Int) :
    (cache.get runId now).1.Holds kept ∧ ∀ value, (cache.get runId now).2 = some value → kept runId value := by
  unfold RunCache.get
  cases found : cache.entries.get runId with
  | none => exact ⟨holds, by rintro _ ⟨⟩⟩
  | some entry =>
    have fits : kept runId entry.value := holds _ (Order.InsertionMap.get_eq_some.mp found)
    dsimp only
    split
    · exact ⟨holds.erased runId, by rintro _ ⟨⟩⟩
    · refine ⟨fun one listed => ?_, by rintro _ ⟨⟩; exact fits⟩
      rcases Order.InsertionMap.mem_set.mp listed with rfl | ⟨before, _⟩
      · exact fits
      · exact holds one (List.mem_filter.mp before).1

end Caches

section Decisions

variable {H W : Type} {runs : Runs H W} {call : DecideCall} {attempt : Attempt} {session next : LiveWorld H}
  {decider : StickyDecider H W} {state : DeciderState H W}

/-- A session as the decisions of a run leave it. -/
def Kept (runs : Runs H W) (runId : String) (session : LiveWorld H) : Prop :=
  LiveRun (runs.options runId) (runs.handler runId) (runs.input runId) session

/-- What is assumed of an advance that decides or throws: the history goes on after what the session has seen with the commands
that it emitted, the code met no mismatch and set no timer that no date represents, and it did not throw after it had met
something that a session does not support. -/
def Honest (runs : Runs H W) (call : DecideCall) (attempt : Attempt) (session : LiveWorld H) : Prop :=
  ∀ next answer, call.advance runs attempt session = some (next, answer) → answer ≠ .ok .diverged → answer ≠ .ok .unsupported →
    Continuing session.host call.history ∧ next.host.matcher.Matched ∧ next.host.unrepresentableTimers = [] ∧
      ∀ thrown, answer = .error thrown → next.host.unsupported = false

/-- Such a call of `decide`, when it has found `found` in the cache. -/
structure Sound (runs : Runs H W) (call : DecideCall) (found : Option (LiveWorld H)) : Prop where
  orderly : Orderly call.history
  cached : ∀ session, found = some session → Honest runs call .cached session
  fresh : Honest runs call .fresh (createLiveSession (runs.handler call.runId))

/-- The states that the calls of a decider reach. -/
inductive DeciderRun [DecidableEq W] (runs : Runs H W) : DeciderState H W → Prop where
  | created (options : RunCacheOptions) (cache : RunCache (LiveWorld H)) (made : createRunCache options = .ok cache) :
      DeciderRun runs ⟨createStickyDecider cache, []⟩
  | stepped (state next : DeciderState H W) (op : DeciderOp) (answer : Option (Except JsValue StickyDecision))
      (earlier : DeciderRun runs state)
      (sound : ∀ call found, op = .finish call → state.deciding.lookup call.runId = some found → Sound runs call found)
      (stepped : state.step runs op = some (next, answer)) : DeciderRun runs next

/-- The decision loop decides so at the moment of one of the attempts. -/
def Replays (runs : Runs H W) (call : DecideCall) (result : Except JsValue Decision) : Prop :=
  ∃ attempt reads enough, runDecisionLoop enough ⟨call.history, { runs.options call.runId with
    clock := fun count => call.clocks attempt (reads + count)
    triggeredAt := call.triggeredAt }⟩ (runs.handler call.runId) (runs.input call.runId) = some result

/-- What an advance of such a session says about the decision loop, and about the session that is stored. -/
theorem kept_advances (kept : Kept runs call.runId session) (orderly : Orderly call.history)
    (honest : Honest runs call attempt session) {answer : Except JsValue LiveAdvance}
    (made : call.advance runs attempt session = some (next, answer))
    (accepted : answer ≠ .ok .diverged) (served : answer ≠ .ok .unsupported) :
    (∃ result, Replays runs call result ∧ answer = result.map LiveAdvance.decided) ∧
      ∀ decision, answer = .ok (.decided decision) → isOpen decision = true → Kept runs call.runId next := by
  obtain ⟨continuing, matched, representable, thrown⟩ := honest next answer made accepted served
  have run : LiveRun (call.options runs attempt) (runs.handler call.runId) (runs.input call.runId) session :=
    kept.reclocked (call.clocks attempt)
  refine ⟨?_, ?_⟩
  · have supported : next.host.unsupported = false := by
      cases answer with
      | error reason => exact thrown reason rfl
      | ok advanced =>
        cases advanced with
        | decided decision => exact advance_supported made
        | unsupported => exact absurd rfl served
        | diverged => exact absurd rfl accepted
    obtain ⟨enough, result, decided, same⟩ := advance_agrees run continuing orderly made accepted served supported matched
    exact ⟨result, ⟨attempt, session.host.clockReads, enough, decided⟩, same⟩
  · rintro decision rfl still
    have suspended : decision.outcome = .suspended := by
      unfold isOpen at still
      split at still
      · assumption
      · cases still
    exact .advanced session next call.fuel (call.clocks attempt) call.history call.triggeredAt decision kept continuing made
      suspended matched representable

/-- Every session in the cache is one that the decisions of its run left, and the answer is that of a replay. -/
def Settles (runs : Runs H W) (call : DecideCall) (decided : Decided H W) : Prop :=
  decided.1.cache.Holds (Kept runs) ∧ Replays runs call (decided.2.map StickyDecision.decision)

theorem replayInFull_settles (holds : decider.cache.Holds (Kept runs)) {decided : Decided H W}
    (made : replayInFull runs call decider = some decided) : Settles runs call decided := by
  obtain ⟨result, replayed, rfl⟩ := Option.map_eq_some_iff.mp made
  have replays : Replays runs call result := by
    refine ⟨.replayed, 0, call.fuel, ?_⟩
    unfold DecideCall.replay at replayed
    dsimp only at replayed
    rw [show (call.options runs .replayed).triggeredAt = none from runs.untriggered call.runId, Option.or_none] at replayed
    simp only [Nat.zero_add]
    exact replayed
  cases result with
  | error thrown => exact ⟨holds.delete call.runId, replays⟩
  | ok decision => exact ⟨holds, replays⟩

theorem concludeFresh_settles (holds : decider.cache.Holds (Kept runs)) (orderly : Orderly call.history)
    (honest : Honest runs call .fresh (createLiveSession (runs.handler call.runId))) {answer : Except JsValue LiveAdvance}
    (advanced : call.advance runs .fresh (createLiveSession (runs.handler call.runId)) = some (next, answer))
    {decided : Decided H W} (made : concludeFresh runs call decider next answer = some decided) : Settles runs call decided := by
  have agrees := kept_advances .created orderly honest advanced
  have remembered : RunCache.Holds (Kept runs) (StickyDecider.cache { decider with
      uncacheable := decider.uncacheable ++ [runs.workflow call.runId] }) := holds
  cases answer with
  | error thrown =>
    obtain ⟨⟨result, replays, same⟩, _⟩ := agrees (by rintro ⟨⟩) (by rintro ⟨⟩)
    cases made
    cases result with
    | error other =>
      cases same
      exact ⟨holds.delete call.runId, replays⟩
    | ok decision => cases same
  | ok advance =>
    cases advance with
    | decided decision =>
      obtain ⟨⟨result, replays, same⟩, stored⟩ := agrees (by rintro ⟨⟩) (by rintro ⟨⟩)
      cases made
      cases result with
      | error other => cases same
      | ok other =>
        cases same
        refine ⟨?_, replays⟩
        dsimp only
        split
        · next still => exact holds.set (stored decision rfl still) _
        · exact holds
    | unsupported => exact replayInFull_settles remembered made
    | diverged => exact replayInFull_settles remembered made

theorem replayFromScratch_settles [DecidableEq W] (holds : decider.cache.Holds (Kept runs)) (orderly : Orderly call.history)
    (honest : Honest runs call .fresh (createLiveSession (runs.handler call.runId))) {decided : Decided H W}
    (made : replayFromScratch runs call decider = some decided) : Settles runs call decided := by
  unfold replayFromScratch at made
  split at made
  · exact replayInFull_settles holds made
  · obtain ⟨⟨next, answer⟩, advanced, concluded⟩ := Option.bind_eq_some_iff.mp made
    have counted : (decider.countReplay call).cache.Holds (Kept runs) := holds
    exact concludeFresh_settles counted orderly honest advanced concluded

theorem decide_settles [DecidableEq W] (holds : decider.cache.Holds (Kept runs)) {found : Option (LiveWorld H)}
    (kept : ∀ session, found = some session → Kept runs call.runId session) (sound : Sound runs call found)
    {decided : Decided H W} (made : decider.decide runs call found = some decided) : Settles runs call decided := by
  cases found with
  | none => exact replayFromScratch_settles holds sound.orderly sound.fresh made
  | some session =>
    obtain ⟨⟨next, answer⟩, advanced, concluded⟩ := Option.bind_eq_some_iff.mp made
    have agrees := kept_advances (kept session rfl) sound.orderly (sound.cached session rfl) advanced
    have dropped : (decider.drop call.runId).cache.Holds (Kept runs) := holds.delete call.runId
    have missed : (StickyDecider.drop { decider with
        cacheMisses := decider.cacheMisses + 1
        invalidations := decider.invalidations + 1 } call.runId).cache.Holds (Kept runs) := dropped
    cases answer with
    | error thrown =>
      obtain ⟨⟨result, replays, same⟩, _⟩ := agrees (by rintro ⟨⟩) (by rintro ⟨⟩)
      cases concluded
      cases result with
      | error other =>
        cases same
        exact ⟨dropped, replays⟩
      | ok decision => cases same
    | ok advance =>
      cases advance with
      | decided decision =>
        obtain ⟨⟨result, replays, same⟩, stored⟩ := agrees (by rintro ⟨⟩) (by rintro ⟨⟩)
        cases concluded
        cases result with
        | error other => cases same
        | ok other =>
          cases same
          refine ⟨?_, replays⟩
          dsimp only
          split
          · next still => exact holds.set (stored decision rfl still) _
          · exact dropped
      | unsupported => exact replayFromScratch_settles missed sound.orderly sound.fresh concluded
      | diverged => exact replayFromScratch_settles missed sound.orderly sound.fresh concluded

/-- The sessions in the cache and those that calls have taken from it are what the decisions of their runs left. -/
structure DeciderState.Keeps (runs : Runs H W) (state : DeciderState H W) : Prop where
  cache : state.decider.cache.Holds (Kept runs)
  deciding : ∀ entry ∈ state.deciding, ∀ session, entry.2 = some session → Kept runs entry.1 session

theorem DeciderState.Keeps.found (keeps : state.Keeps runs) {runId : String} {found : Option (LiveWorld H)}
    (looked : state.deciding.lookup runId = some found) (session : LiveWorld H) (held : found = some session) :
    Kept runs runId session := by
  obtain ⟨before, after, split, _⟩ := List.lookup_eq_some_iff.mp looked
  exact keeps.deciding (runId, found) (split ▸ List.mem_append_right before (.head after)) session held

/-- One operation keeps the sessions, and a decision is that of a replay. -/
theorem step_keeps [DecidableEq W] (keeps : state.Keeps runs) {next : DeciderState H W} (op : DeciderOp)
    {answer : Option (Except JsValue StickyDecision)}
    (sound : ∀ call found, op = .finish call → state.deciding.lookup call.runId = some found → Sound runs call found)
    (stepped : state.step runs op = some (next, answer)) : next.Keeps runs ∧ ∀ call, op = .finish call → ∀ decided, answer = some decided →
      Replays runs call (decided.map StickyDecision.decision) := by
  cases op with
  | lookUp runId time =>
    rw [DeciderState.step] at stepped
    split at stepped
    · cases stepped
    · obtain ⟨rest, fits⟩ := keeps.cache.get runId time
      cases stepped
      refine ⟨⟨rest, fun entry listed session held => ?_⟩, by rintro _ ⟨⟩⟩
      rcases List.mem_append.mp listed with old | new
      · exact keeps.deciding entry old session held
      · rw [List.mem_singleton.mp new] at held ⊢
        exact fits session held
  | finish call =>
    rw [DeciderState.step] at stepped
    obtain ⟨found, looked, rest⟩ := Option.bind_eq_some_iff.mp stepped
    obtain ⟨decided, made, same⟩ := Option.map_eq_some_iff.mp rest
    obtain ⟨holds, replays⟩ := decide_settles keeps.cache (keeps.found looked) (sound call found rfl looked) made
    cases same
    refine ⟨⟨holds, fun entry listed => keeps.deciding entry (List.mem_filter.mp listed).1⟩, ?_⟩
    rintro _ ⟨⟩ _ ⟨⟩
    exact replays
  | invalidate runId =>
    cases stepped
    exact ⟨⟨keeps.cache.delete runId, keeps.deciding⟩, by rintro _ ⟨⟩⟩
  | flush =>
    cases stepped
    exact ⟨⟨RunCache.Holds.clear, keeps.deciding⟩, by rintro _ ⟨⟩⟩

theorem createRunCache_empty {V : Type} {options : RunCacheOptions} {cache : RunCache V}
    (made : createRunCache options = .ok cache) : cache.entries = .empty := by
  unfold createRunCache at made
  split at made
  · cases made
  · split at made
    · cases made
    · cases made
      rfl

theorem DeciderRun.keeps [DecidableEq W] (run : DeciderRun runs state) : state.Keeps runs := by
  induction run with
  | created options cache made =>
    refine ⟨fun entry listed => ?_, fun entry listed => absurd listed List.not_mem_nil⟩
    change entry ∈ cache.entries.entries at listed
    rw [createRunCache_empty made] at listed
    exact absurd listed List.not_mem_nil
  | stepped state next op answer earlier sound stepped ih => exact (step_keeps ih op sound stepped).1

/-- Whatever a decider decided, stored, lost or dropped before, for whichever runs, a decision that it comes to is the
decision of a full replay, and what it throws is what the replay throws; before and after it, every session in the cache or
taken from it is one that the decisions of its run left. -/
theorem stickyDecider_replays [DecidableEq W] (run : DeciderRun runs state)
    (sound : ∀ found, state.deciding.lookup call.runId = some found → Sound runs call found) {next : DeciderState H W}
    {answer : Except JsValue StickyDecision} (finished : state.step runs (.finish call) = some (next, some answer)) :
    state.Keeps runs ∧ next.Keeps runs ∧ Replays runs call (answer.map StickyDecision.decision) := by
  have each (other : DecideCall) (found : Option (LiveWorld H)) (same : DeciderOp.finish call = .finish other)
      (looked : state.deciding.lookup other.runId = some found) : Sound runs other found := by
    cases same
    exact sound found looked
  obtain ⟨keeps, replays⟩ := step_keeps run.keeps (.finish call) each finished
  exact ⟨run.keeps, keeps, replays call rfl answer rfl⟩

end Decisions

section Examples

def chargeRuns : Runs Unit String where
  workflow _ := "charge"
  handlerOf _ := charging
  input _ := .undefined
  options _ := sessionOptions
  untriggered _ := rfl

def chargeCall (history : List WorkflowEvent) : DecideCall := ⟨"run-1", history, none, fun _ _ => .epoch, 0, 5⟩

theorem honest_decided {runs : Runs Unit String} {call : DecideCall} {attempt : Attempt} {session next : LiveWorld Unit}
    {decision : Decision} (made : call.advance runs attempt session = some (next, .ok (.decided decision)))
    (continuing : Continuing session.host call.history) (matched : next.host.matcher.Matched)
    (representable : next.host.unrepresentableTimers = []) : Honest runs call attempt session := by
  intro other answer made' _ _
  rw [made] at made'
  cases made'
  exact ⟨continuing, matched, representable, by rintro _ ⟨⟩⟩

theorem chargeStarted_orderly : Orderly chargeStarted where
  justified event listed := by
    rw [List.mem_singleton.mp listed]
    trivial
  once stepId stepType := Nat.zero_le 1

/-- The second decision of a run goes on from the session that the first one stored, and decides as a replay does. -/
theorem stickyDecider_replays_charge : ∃ state next : DeciderState Unit String, DeciderRun chargeRuns state ∧
    state.step chargeRuns (.finish (chargeCall chargeDone)) =
      some (next, some (.ok ⟨⟨.completed (.string "paid"), [.completeRun (.string "paid")], none⟩, .cache⟩)) ∧
    state.Keeps chargeRuns ∧ next.Keeps chargeRuns ∧
    Replays chargeRuns (chargeCall chargeDone) (.ok ⟨.completed (.string "paid"), [.completeRun (.string "paid")], none⟩) := by
  obtain ⟨cache, one, two, three, next, session, closed, afresh, created, looked, decided, again, finished, began, seen, emitted,
      unrecorded, timers, went, recorded, issued, timersThen, anew, recordedNew, issuedNew, timersNew, idle, storing⟩ :
      ∃ (cache : RunCache (LiveWorld Unit)) (one two three next : DeciderState Unit String) (session closed afresh : LiveWorld Unit),
        createRunCache ⟨.finite 1, .finite 10⟩ = .ok cache ∧
        DeciderState.step chargeRuns ⟨createStickyDecider cache, []⟩ (.lookUp "run-1" 0) = some (one, none) ∧
        one.step chargeRuns (.finish (chargeCall chargeStarted)) =
          some (two, some (.ok ⟨⟨.suspended, [.scheduleStep "step-1" "charge" .undefined], none⟩, .replay⟩)) ∧
        two.step chargeRuns (.lookUp "run-1" 0) = some (three, none) ∧
        three.step chargeRuns (.finish (chargeCall chargeDone)) =
          some (next, some (.ok ⟨⟨.completed (.string "paid"), [.completeRun (.string "paid")], none⟩, .cache⟩)) ∧
        (chargeCall chargeStarted).advance chargeRuns .fresh (createLiveSession charging) =
          some (session, .ok (.decided ⟨.suspended, [.scheduleStep "step-1" "charge" .undefined], none⟩)) ∧
        session.host.history = chargeStarted ∧ session.host.emitted = [.scheduleStep "step-1" "charge" .undefined] ∧
        session.host.matcher.recorded = [] ∧ session.host.unrepresentableTimers = [] ∧
        (chargeCall chargeDone).advance chargeRuns .cached session =
          some (closed, .ok (.decided ⟨.completed (.string "paid"), [.completeRun (.string "paid")], none⟩)) ∧
        closed.host.matcher.recorded = [.step "step-1" "charge" .undefined] ∧
        closed.host.matcher.issued = [.step "step-1" "charge" .undefined] ∧ closed.host.unrepresentableTimers = [] ∧
        (chargeCall chargeDone).advance chargeRuns .fresh (createLiveSession charging) =
          some (afresh, .ok (.decided ⟨.completed (.string "paid"), [.completeRun (.string "paid")], none⟩)) ∧
        afresh.host.matcher.recorded = [.step "step-1" "charge" .undefined] ∧
        afresh.host.matcher.issued = [.step "step-1" "charge" .undefined] ∧ afresh.host.unrepresentableTimers = [] ∧
        one.deciding = [("run-1", none)] ∧ three.deciding = [("run-1", some session)] :=
    ⟨_, _, _, _, _, _, _, _, rfl, rfl, rfl, rfl, rfl, rfl, rfl, rfl, rfl, rfl, rfl, rfl, rfl, rfl, rfl, rfl, rfl, rfl, rfl, rfl⟩
  have starts (history : List WorkflowEvent) : Continuing (createLiveSession charging).host history :=
    ⟨history, rfl, unemitted_recorded history⟩
  have first (found : Option (LiveWorld Unit)) (held : one.deciding.lookup "run-1" = some found) :
      Sound chargeRuns (chargeCall chargeStarted) found := by
    rw [idle] at held
    cases held
    exact ⟨chargeStarted_orderly, by rintro _ ⟨⟩, honest_decided began (starts _) (unrecorded_matched unrecorded) timers⟩
  have second (found : Option (LiveWorld Unit)) (held : three.deciding.lookup "run-1" = some found) :
      Sound chargeRuns (chargeCall chargeDone) found := by
    rw [storing] at held
    cases held
    refine ⟨chargeDone_orderly, ?_, honest_decided anew (starts _) (charge_matched recordedNew issuedNew) timersNew⟩
    rintro _ ⟨⟩
    refine honest_decided went ?_ (charge_matched recorded issued) timersThen
    refine ⟨chargeDone.drop 1, ?_, ?_⟩
    · rw [seen]
      rfl
    · rw [emitted]
      exact charge_recorded
  have runOne : DeciderRun chargeRuns one := .stepped _ _ _ _ (.created _ cache created) (by rintro _ _ ⟨⟩) looked
  have runTwo : DeciderRun chargeRuns two := by
    refine .stepped _ _ _ _ runOne ?_ decided
    rintro _ found ⟨⟩ held
    exact first found held
  have runThree : DeciderRun chargeRuns three := .stepped _ _ _ _ runTwo (by rintro _ _ ⟨⟩) again
  exact ⟨three, next, runThree, finished, stickyDecider_replays runThree second finished⟩

end Examples

end DurableExecution.Sticky
