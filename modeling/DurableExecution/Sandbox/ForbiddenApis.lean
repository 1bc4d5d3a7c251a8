import Mathlib.Data.List.Induction
import DurableExecution.Order.InsertionMap
import DurableExecution.Workflow.Errors

/-
This file models the guard under which a decision runs workflow code: the global functions it replaces while any decision runs, and
the record of what the code of each decision has started. It shows that code is refused exactly in a decision, and that a decision
is blamed exactly for what its own code still waits for.
-/

namespace DurableExecution.Sandbox

open DurableExecution.Order
open Workflow (JsValue)

section Globals

inductive Binding where
  | system
  | guarded
  deriving DecidableEq

/-- The globals that the guard replaces. -/
structure Globals where
  dateNow : Binding
  mathRandom : Binding
  date : Binding
  setTimeout : Binding
  setInterval : Binding
  setImmediate : Binding
  performanceNow : Binding
  randomUUID : Binding
  deriving DecidableEq

def patchGlobals : Globals := ⟨.guarded, .guarded, .guarded, .guarded, .guarded, .guarded, .guarded, .guarded⟩

def restoreGlobals : Globals := ⟨.system, .system, .system, .system, .system, .system, .system, .system⟩

/-- A use of one of the globals. `new Date(…)` may have arguments. -/
inductive ApiCall where
  | dateNow
  | mathRandom
  | newDate (arguments : Nat)
  | callDate
  | setTimeout
  | setInterval
  | setImmediate
  | performanceNow
  | randomUUID
  deriving DecidableEq

def ApiCall.binding (globals : Globals) : ApiCall → Binding
  | .dateNow => globals.dateNow
  | .mathRandom => globals.mathRandom
  | .newDate _ | .callDate => globals.date
  | .setTimeout => globals.setTimeout
  | .setInterval => globals.setInterval
  | .setImmediate => globals.setImmediate
  | .performanceNow => globals.performanceNow
  | .randomUUID => globals.randomUUID

def ApiCall.api : ApiCall → String
  | .dateNow => "Date.now()"
  | .mathRandom => "Math.random()"
  | .newDate _ => "new Date()"
  | .callDate => "Date()"
  | .setTimeout => "setTimeout()"
  | .setInterval => "setInterval()"
  | .setImmediate => "setImmediate()"
  | .performanceNow => "performance.now()"
  | .randomUUID => "crypto.randomUUID()"

/-- `new Date(…)` with arguments reads no clock. -/
def ApiCall.deterministic : ApiCall → Bool
  | .newDate arguments => decide (0 < arguments)
  | _ => false

structure ForbiddenApiError where
  api : String
  message : String
  deriving DecidableEq

def forbid (api : String) : ForbiddenApiError :=
  ⟨api, "workflow code called \"" ++ api ++ "\" directly; use the matching WorkflowContext method instead"⟩

/-- Where code runs: the decision it belongs to, if any. `runUnguarded` leaves it. -/
abbrev Context := Option Nat

/-- What a use of a global answers: the system's function runs, or the guard refuses. -/
def ApiCall.use (globals : Globals) (context : Context) (call : ApiCall) : Option ForbiddenApiError :=
  match call.binding globals with
  | .system => none
  | .guarded => if context.isSome && !call.deterministic then some (forbid call.api) else none

end Globals

section Guards

/-- An asynchronous resource: where its code was running when it was made, whether an `after` or `destroy` event was emitted for it, and
whether it is a timer that was cleared or fired. -/
structure Resource where
  type : String
  context : Context
  ended : Bool
  destroyed : Bool

def ignoredResourceTypes : List String := ["PROMISE", "Microtask", "TickObject"]

/-- How a guarded call ends. -/
inductive Outcome where
  | returned
  | stillActive (resources : List String)
  | threw (error : JsValue)

/-- A guarded call, with the resources that are pending by their ids. -/
structure DecisionScope where
  pending : InsertionMap Nat String
  outcome : Option Outcome

def DecisionScope.isActive (scope : DecisionScope) : Bool := scope.outcome.isNone

/-- The resources of the process and the state of the guard. -/
structure Process where
  resources : List Resource
  globals : Globals
  hookEnabled : Bool
  activeGuards : Nat
  scopes : List DecisionScope
  trackedResources : InsertionMap Nat Nat

def freshProcess : Process := ⟨[], restoreGlobals, false, 0, [], .empty⟩

/-- `guardAgainstForbiddenApis` up to the call of `execute`. -/
def Process.enter (process : Process) : Process :=
  { process with
    globals := if process.activeGuards = 0 then patchGlobals else process.globals
    hookEnabled := process.activeGuards = 0 || process.hookEnabled
    activeGuards := process.activeGuards + 1
    scopes := process.scopes ++ [⟨.empty, none⟩] }

/-- The hook's `init`, for the resource with this id. -/
def Process.init (process : Process) (asyncId : Nat) (type : String) (context : Context) : Process :=
  match context with
  | none => process
  | some scope =>
    if !process.hookEnabled || decide (type ∈ ignoredResourceTypes) then process
    else
      { process with
        scopes := process.scopes.modify scope fun held => { held with pending := held.pending.set asyncId type }
        trackedResources := process.trackedResources.set asyncId scope }

def Process.forget (process : Process) (asyncId : Nat) : Process :=
  match process.trackedResources.get asyncId with
  | none => process
  | some scope =>
    { process with
      scopes := process.scopes.modify scope fun held => { held with pending := held.pending.erase asyncId }
      trackedResources := process.trackedResources.erase asyncId }

def Process.isStillPending (process : Process) (entry : Nat × String) : Bool :=
  if entry.2 = "Timeout" ∨ entry.2 = "Immediate" then !(process.resources[entry.1]?).any Resource.destroyed else true

/-- `assertQuiet`: the types of what is still pending, each once. -/
def Process.assertQuiet (process : Process) (scope : DecisionScope) : Outcome :=
  let active := (scope.pending.entries.filter process.isStillPending).map Prod.snd
  if active.isEmpty then .returned else .stillActive active.eraseDups

/-- The rest of `guardAgainstForbiddenApis`, once the promise of `execute` is settled. -/
def Process.leave (process : Process) (index : Nat) (settled : Except JsValue Unit) : Process :=
  match process.scopes[index]? with
  | none => process
  | some scope =>
    if scope.isActive then
      let outcome := match settled with
        | .ok _ => process.assertQuiet scope
        | .error error => .threw error
      let left := process.activeGuards - 1
      { process with
        globals := if left = 0 then restoreGlobals else process.globals
        hookEnabled := process.hookEnabled && left != 0
        activeGuards := left
        scopes := process.scopes.set index { scope with outcome := some outcome }
        trackedResources := process.trackedResources.filter fun entry => decide (entry.1 ∉ scope.pending.keys) }
    else process

/-- What can happen in the process, as far as the guard can tell. -/
inductive ProcessOp where
  | enters
  | starts (type : String) (context : Context)
  | ends (asyncId : Nat)
  | clears (asyncId : Nat)
  | leaves (index : Nat) (settled : Except JsValue Unit)

def ProcessOp.run (process : Process) : ProcessOp → Process
  | .enters => process.enter
  | .starts type context =>
    let started : Process := { process with resources := process.resources ++ [⟨type, context, false, false⟩] }
    started.init process.resources.length type context
  | .ends asyncId =>
    let ended : Process := { process with resources := process.resources.modify asyncId fun resource => { resource with ended := true } }
    if process.hookEnabled then ended.forget asyncId else ended
  | .clears asyncId =>
    { process with resources := process.resources.modify asyncId fun resource => { resource with destroyed := true } }
  | .leaves index settled => process.leave index settled

/-- Code runs in decisions that have begun. -/
def ProcessOp.Possible (process : Process) : ProcessOp → Prop
  | .starts _ (some scope) => scope < process.scopes.length
  | _ => True

inductive ProcessRun : Process → Prop where
  | fresh : ProcessRun freshProcess
  | step {process : Process} (run : ProcessRun process) (op : ProcessOp) (possible : op.Possible process) : ProcessRun (op.run process)

end Guards

section Pending

/-- The code of this decision made the resource, which is of a kind that is waited for and has not ended. -/
def Resource.awaitedIn (scope : Nat) (resource : Resource) : Bool :=
  resource.context == some scope && decide (resource.type ∉ ignoredResourceTypes) && !resource.ended

/-- What the code of a decision waits for, by the ids. -/
def awaited (resources : List Resource) (scope : Nat) : List (Nat × String) :=
  (List.range resources.length).filterMap fun asyncId =>
    (resources[asyncId]?.filter (Resource.awaitedIn scope)).map fun resource => (asyncId, resource.type)

/-- A timer that was cleared or has fired is over. -/
def Resource.isOver (resource : Resource) : Bool :=
  (decide (resource.type = "Timeout") || decide (resource.type = "Immediate")) && resource.destroyed

/-- The types of what the code of a decision still waits for, in the order in which it was started. -/
def leftover (resources : List Resource) (scope : Nat) : List String :=
  (resources.filter fun resource => resource.awaitedIn scope && !resource.isOver).map Resource.type

variable {resources : List Resource} {scope asyncId : Nat} {resource : Resource}

theorem mem_awaited {entry : Nat × String} : entry ∈ awaited resources scope ↔
    ∃ resource, resources[entry.1]? = some resource ∧ resource.awaitedIn scope = true ∧ resource.type = entry.2 := by
  simp only [awaited, List.mem_filterMap, List.mem_range, Option.map_eq_some_iff, Option.filter_eq_some_iff]
  constructor
  · intro found
    obtain ⟨asyncId, inside, resource, ⟨there, own⟩, same⟩ := found
    subst same
    exact ⟨resource, there, own, rfl⟩
  · intro found
    obtain ⟨resource, there, own, same⟩ := found
    exact ⟨entry.1, (List.getElem?_eq_some_iff.mp there).1, resource, ⟨there, own⟩, Prod.ext rfl same⟩

theorem awaited_below {entry : Nat × String} (listed : entry ∈ awaited resources scope) : entry.1 < resources.length := by
  obtain ⟨resource, there, -⟩ := mem_awaited.mp listed
  exact (List.getElem?_eq_some_iff.mp there).1

theorem awaited_snoc : awaited (resources ++ [resource]) scope =
    awaited resources scope ++ if resource.awaitedIn scope then [(resources.length, resource.type)] else [] := by
  have before : (List.range resources.length).filterMap (fun asyncId =>
      ((resources ++ [resource])[asyncId]?.filter (Resource.awaitedIn scope)).map fun resource => (asyncId, resource.type)) =
      awaited resources scope := by
    refine List.filterMap_congr fun asyncId listed => ?_
    rw [List.getElem?_append_left (List.mem_range.mp listed)]
  rw [awaited, List.length_append, List.length_singleton, List.range_succ, List.filterMap_append, before]
  congr 1
  split <;> simp_all [Option.filter]

/-- A resource that ends is not waited for any more. -/
theorem awaited_ended : awaited (resources.modify asyncId fun resource => { resource with ended := true }) scope =
    (awaited resources scope).filter fun entry => decide (entry.1 ≠ asyncId) := by
  rw [awaited, awaited, List.length_modify, List.filter_filterMap]
  refine List.filterMap_congr fun other listed => ?_
  rw [List.getElem?_modify]
  cases resources[other]? with
  | none => simp
  | some resource =>
    by_cases same : asyncId = other
    · subst same
      have gone : Resource.awaitedIn scope { resource with ended := true } = false := by simp [Resource.awaitedIn]
      cases own : resource.awaitedIn scope <;> simp [own, gone, Option.filter]
    · have apart : other ≠ asyncId := fun equal => same equal.symm
      cases own : resource.awaitedIn scope <;> simp [own, same, apart, Option.filter]

theorem awaited_destroyed : awaited (resources.modify asyncId fun resource => { resource with destroyed := true }) scope =
    awaited resources scope := by
  rw [awaited, awaited, List.length_modify]
  refine List.filterMap_congr fun other listed => ?_
  rw [List.getElem?_modify]
  cases resources[other]? with
  | none => simp
  | some resource =>
    have same : Resource.awaitedIn scope { resource with destroyed := true } = resource.awaitedIn scope := rfl
    split <;> simp [Option.filter, same]

/-- The check at the end of a guarded call looks at what is awaited and is not over. -/
theorem leftover_eq (process : Process) (scope : Nat) :
    ((awaited process.resources scope).filter process.isStillPending).map Prod.snd = leftover process.resources scope := by
  generalize same : process.resources = resources
  have shown : ∀ entry ∈ awaited resources scope, process.isStillPending entry =
      (resources[entry.1]?).all fun resource => !resource.isOver := by
    intro entry listed
    obtain ⟨resource, there, -, type⟩ := mem_awaited.mp listed
    rw [Process.isStillPending, same, there, ← type]
    split
    · next timer =>
        simp only [Option.any_some, Option.all_some, Resource.isOver]
        rcases timer with timer | timer <;> simp [timer]
    · next other =>
        simp only [Option.all_some, Resource.isOver]
        simp_all
  rw [List.filter_congr shown]
  clear shown same
  induction resources using List.reverseRecOn with
  | nil => rfl
  | append_singleton resources resource ih =>
    have before : (awaited resources scope).filter (fun entry =>
        ((resources ++ [resource])[entry.1]?).all fun resource => !resource.isOver) =
        (awaited resources scope).filter fun entry => (resources[entry.1]?).all fun resource => !resource.isOver :=
      List.filter_congr fun entry listed => by rw [List.getElem?_append_left (awaited_below listed)]
    rw [awaited_snoc, List.filter_append, List.map_append, before, ih, leftover, leftover, List.filter_append, List.map_append]
    congr 1
    cases own : resource.awaitedIn scope <;> cases over' : resource.isOver <;> simp [own, over']

end Pending

section Steps

/-- The guard's record agrees with the process: how many guards are active, what the globals are, and what the code of each active
decision waits for. -/
structure Process.Faithful (process : Process) : Prop where
  counted : process.activeGuards = process.scopes.countP DecisionScope.isActive
  patched : process.globals = if process.activeGuards = 0 then restoreGlobals else patchGlobals
  hooked : process.hookEnabled = decide (process.activeGuards ≠ 0)
  placed : ∀ resource ∈ process.resources, ∀ scope, resource.context = some scope → scope < process.scopes.length
  listed : ∀ asyncId scope, process.trackedResources.get asyncId = some scope → scope < process.scopes.length
  pending : ∀ index scope, process.scopes[index]? = some scope → scope.isActive = true →
    scope.pending.entries = awaited process.resources index
  tracked : ∀ index scope, process.scopes[index]? = some scope → scope.isActive = true → ∀ asyncId,
    process.trackedResources.get asyncId = some index ↔ asyncId ∈ scope.pending.keys

variable {process : Process} {index asyncId : Nat} {scope : DecisionScope}

theorem freshProcess_faithful : freshProcess.Faithful := by
  refine ⟨rfl, rfl, rfl, ?_, ?_, ?_, ?_⟩ <;> simp [freshProcess, InsertionMap.get, InsertionMap.empty]

/-- The guard is active while one of its calls is. -/
theorem Process.Faithful.active (faithful : process.Faithful) (found : process.scopes[index]? = some scope)
    (active : scope.isActive = true) : process.activeGuards ≠ 0 := by
  have some' := List.countP_pos_iff.mpr ⟨scope, List.mem_of_getElem? found, active⟩
  rw [← faithful.counted] at some'
  omega

theorem awaited_unplaced {resources : List Resource} (placed : ∀ resource ∈ resources, resource.context ≠ some index) :
    awaited resources index = [] := by
  refine List.eq_nil_iff_forall_not_mem.mpr fun entry listed => ?_
  obtain ⟨resource, there, own, -⟩ := mem_awaited.mp listed
  simp only [Resource.awaitedIn, Bool.and_eq_true, beq_iff_eq] at own
  exact placed resource (List.mem_of_getElem? there) own.1.1

theorem getElem?_snoc_cases {A : Type} {items : List A} {item found : A} (there : (items ++ [item])[index]? = some found) :
    items[index]? = some found ∨ index = items.length ∧ found = item := by
  rw [List.getElem?_append] at there
  split at there
  · exact .inl there
  · have only := (List.getElem?_eq_some_iff.mp there).1
    simp only [List.length_singleton] at only
    have place : index = items.length := by omega
    subst place
    simp only [Nat.sub_self, List.getElem?_cons_zero, Option.some.injEq] at there
    exact .inr ⟨rfl, there.symm⟩

theorem Process.Faithful.enter (faithful : process.Faithful) : process.enter.Faithful where
  counted := by simp [Process.enter, DecisionScope.isActive, faithful.counted, List.countP_append]
  patched := by
    have patched := faithful.patched
    simp only [Process.enter]
    split <;> simp_all
  hooked := by simp [Process.enter, faithful.hooked]
  placed resource listed scope own := by
    have before := faithful.placed resource listed scope own
    simp only [Process.enter, List.length_append, List.length_singleton]
    omega
  listed asyncId scope tracked := by
    have before := faithful.listed asyncId scope tracked
    simp only [Process.enter, List.length_append, List.length_singleton]
    omega
  pending index scope found active := by
    obtain before | ⟨rfl, rfl⟩ := getElem?_snoc_cases found
    · exact faithful.pending index scope before active
    · refine (awaited_unplaced fun resource listed own => ?_).symm
      exact absurd (faithful.placed resource listed _ own) (by omega)
  tracked index scope found active asyncId := by
    obtain before | ⟨rfl, rfl⟩ := getElem?_snoc_cases found
    · exact faithful.tracked index scope before active asyncId
    · refine ⟨fun tracked => absurd (faithful.listed asyncId _ tracked) (by omega), fun held => ?_⟩
      simp [InsertionMap.keys, InsertionMap.empty] at held

theorem countP_modify {A : Type} {keep : A → Bool} (change : A → A) (same : ∀ item, keep (change item) = keep item) (items : List A)
    (index : Nat) : (items.modify index change).countP keep = items.countP keep := by
  induction items generalizing index with
  | nil => cases index <;> rfl
  | cons item rest ih => cases index <;> simp [List.countP_cons, same, ih]

/-- The record of one decision changes together with what is tracked for it. -/
theorem Process.Faithful.noted (faithful : process.Faithful) {resources : List Resource}
    (change : InsertionMap Nat String → InsertionMap Nat String) {trackedResources : InsertionMap Nat Nat} {target : Nat}
    (placed : ∀ resource ∈ resources, ∀ scope, resource.context = some scope → scope < process.scopes.length)
    (listed : ∀ asyncId scope, trackedResources.get asyncId = some scope → scope < process.scopes.length)
    (own : ∀ scope, process.scopes[target]? = some scope → scope.isActive = true →
      (change scope.pending).entries = awaited resources target ∧
        ∀ asyncId, trackedResources.get asyncId = some target ↔ asyncId ∈ (change scope.pending).keys)
    (others : ∀ index scope, index ≠ target → process.scopes[index]? = some scope → scope.isActive = true →
      awaited resources index = awaited process.resources index ∧
        ∀ asyncId, trackedResources.get asyncId = some index ↔ process.trackedResources.get asyncId = some index) :
    { process with
      resources := resources
      scopes := process.scopes.modify target fun held => { held with pending := change held.pending }
      trackedResources := trackedResources : Process }.Faithful := by
  have known : ∀ index scope, (process.scopes.modify target fun held => { held with pending := change held.pending })[index]? = some scope →
      scope.isActive = true → scope.pending.entries = awaited resources index ∧
        ∀ asyncId, trackedResources.get asyncId = some index ↔ asyncId ∈ scope.pending.keys := by
    intro index scope found active
    rw [List.getElem?_modify] at found
    obtain ⟨held, there, rfl⟩ := Option.map_eq_some_iff.mp found
    by_cases same : target = index
    · subst same
      rw [if_pos rfl] at active ⊢
      exact own held there active
    · rw [if_neg same] at active ⊢
      obtain ⟨sameAwaited, sameTracked⟩ := others index held (fun equal => same equal.symm) there active
      refine ⟨(faithful.pending index held there active).trans sameAwaited.symm, fun asyncId => ?_⟩
      rw [sameTracked asyncId]
      exact faithful.tracked index held there active asyncId
  refine ⟨?_, faithful.patched, faithful.hooked, ?_, ?_, fun index scope found active => (known index scope found active).1,
    fun index scope found active => (known index scope found active).2⟩
  · have same : (process.scopes.modify target fun held => { held with pending := change held.pending }).countP DecisionScope.isActive =
        process.scopes.countP DecisionScope.isActive :=
      countP_modify (fun held : DecisionScope => { held with pending := change held.pending }) (fun _ => rfl) _ _
    exact faithful.counted.trans same.symm
  · simpa only [List.length_modify] using placed
  · simpa only [List.length_modify] using listed

/-- Resources change that no active decision waits for. -/
theorem Process.Faithful.unnoted (faithful : process.Faithful) {resources : List Resource}
    (placed : ∀ resource ∈ resources, ∀ scope, resource.context = some scope → scope < process.scopes.length)
    (same : ∀ index scope, process.scopes[index]? = some scope → scope.isActive = true →
      awaited resources index = awaited process.resources index) : { process with resources := resources : Process }.Faithful :=
  { faithful with
    placed := placed
    pending := fun index scope found active => (faithful.pending index scope found active).trans (same index scope found active).symm }

theorem get_filter_iff {K V : Type} [DecidableEq K] {map : InsertionMap K V} {keep : K × V → Bool} {key : K} {value : V} :
    (map.filter keep).get key = some value ↔ map.get key = some value ∧ keep (key, value) = true := by
  rw [InsertionMap.get_eq_some, InsertionMap.get_eq_some, InsertionMap.filter, List.mem_filter]

/-- What is tracked for an active decision is not new. -/
theorem Process.Faithful.tracked_below (faithful : process.Faithful) (found : process.scopes[index]? = some scope)
    (active : scope.isActive = true) (tracked : process.trackedResources.get asyncId = some index) :
    asyncId < process.resources.length := by
  obtain ⟨type, held⟩ := InsertionMap.mem_keys.mp ((faithful.tracked index scope found active asyncId).mp tracked)
  rw [faithful.pending index scope found active] at held
  exact awaited_below held

theorem Process.Faithful.starts (faithful : process.Faithful) {type : String} {context : Context}
    (possible : (ProcessOp.starts type context).Possible process) : ((ProcessOp.starts type context).run process).Faithful := by
  have placed : ∀ resource ∈ process.resources ++ [⟨type, context, false, false⟩], ∀ scope, resource.context = some scope →
      scope < process.scopes.length := by
    intro resource listed scope own
    obtain before | rfl := (List.mem_append.mp listed).imp_right List.mem_singleton.mp
    · exact faithful.placed resource before scope own
    · simp only at own
      subst own
      exact possible
  have passed (index : Nat) (foreign : Resource.awaitedIn index ⟨type, context, false, false⟩ = false) :
      awaited (process.resources ++ [⟨type, context, false, false⟩]) index = awaited process.resources index := by
    rw [awaited_snoc, foreign]
    simp
  cases context with
  | none => exact faithful.unnoted placed fun index scope found active => passed index rfl
  | some target =>
    simp only [ProcessOp.run, Process.init]
    split
    · next unseen =>
        refine faithful.unnoted placed fun index scope found active => passed index ?_
        have hooked : process.hookEnabled = true := by rw [faithful.hooked, decide_eq_true (faithful.active found active)]
        simp only [hooked, Bool.not_true, Bool.false_or, decide_eq_true_eq] at unseen
        simp [Resource.awaitedIn, unseen]
    · next seen =>
        simp only [Bool.or_eq_true, Bool.not_eq_true', decide_eq_true_eq, not_or, Bool.not_eq_false] at seen
        refine faithful.noted (fun pending => pending.set process.resources.length type) placed ?_ ?_ ?_
        · intro asyncId scope tracked
          rw [InsertionMap.get_set] at tracked
          split at tracked
          · cases tracked
            exact possible
          · exact faithful.listed asyncId scope tracked
        · intro scope found active
          have fresh : process.resources.length ∉ scope.pending.keys := by
            intro held
            have tracked := (faithful.tracked target scope found active _).mpr held
            exact absurd (faithful.tracked_below found active tracked) (by omega)
          refine ⟨?_, fun asyncId => ?_⟩
          · rw [InsertionMap.set_absent fresh, faithful.pending target scope found active, awaited_snoc]
            simp [Resource.awaitedIn, seen.2]
          · have known := faithful.tracked target scope found active asyncId
            rw [InsertionMap.get_set, InsertionMap.keys, InsertionMap.set_absent fresh, List.map_append, List.mem_append]
            split
            · next same => simp [same]
            · next apart => simp [apart, known, InsertionMap.keys]
        · intro index scope apart found active
          refine ⟨passed index (by simp [Resource.awaitedIn, Ne.symm apart]), fun asyncId => ?_⟩
          rw [InsertionMap.get_set]
          split
          · next same =>
              refine ⟨fun tracked => ?_, fun tracked => ?_⟩
              · simp only [Option.some.injEq] at tracked
                exact absurd tracked.symm apart
              · have below := faithful.tracked_below found active tracked
                omega
          · exact Iff.rfl

theorem awaited_unended {resources : List Resource} (absent : ∀ type, (asyncId, type) ∉ awaited resources index) :
    awaited (resources.modify asyncId fun resource => { resource with ended := true }) index = awaited resources index := by
  rw [awaited_ended, List.filter_eq_self]
  intro entry listed
  refine decide_eq_true fun same => absent entry.2 ?_
  rwa [← same]

theorem placed_modify (change : Resource → Resource) (same : ∀ resource, (change resource).context = resource.context)
    (faithful : process.Faithful) (asyncId : Nat) : ∀ resource ∈ process.resources.modify asyncId change, ∀ scope,
      resource.context = some scope → scope < process.scopes.length := by
  intro resource listed scope own
  obtain ⟨place, there⟩ := List.mem_iff_getElem?.mp listed
  rw [List.getElem?_modify] at there
  obtain ⟨old, found, rfl⟩ := Option.map_eq_some_iff.mp there
  refine faithful.placed old (List.mem_of_getElem? found) scope ?_
  split at own
  · rwa [same] at own
  · exact own

theorem Process.Faithful.ends (faithful : process.Faithful) (asyncId : Nat) : ((ProcessOp.ends asyncId).run process).Faithful := by
  have placed := placed_modify (fun resource => { resource with ended := true }) (fun _ => rfl) faithful asyncId
  -- a decision whose record has no such resource is left as it is
  have passed (index : Nat) (scope : DecisionScope) (found : process.scopes[index]? = some scope) (active : scope.isActive = true)
      (untracked : process.trackedResources.get asyncId ≠ some index) :
      awaited (process.resources.modify asyncId fun resource => { resource with ended := true }) index =
        awaited process.resources index := by
    refine awaited_unended fun type listed => untracked ?_
    rw [← faithful.pending index scope found active] at listed
    exact (faithful.tracked index scope found active asyncId).mpr (InsertionMap.mem_keys.mpr ⟨type, listed⟩)
  simp only [ProcessOp.run]
  split
  · next hooked =>
      simp only [Process.forget]
      split
      · next untracked =>
          exact faithful.unnoted placed fun index scope found active => passed index scope found active (by simp [untracked])
      · next target tracked =>
          refine faithful.noted (fun pending => pending.erase asyncId) placed ?_ ?_ ?_
          · intro other scope held
            exact faithful.listed other scope (get_filter_iff.mp held).1
          · intro scope found active
            refine ⟨?_, fun other => ?_⟩
            · rw [awaited_ended, ← faithful.pending target scope found active]
              rfl
            · have kept : (process.trackedResources.erase asyncId).get other = some target ↔ _ := get_filter_iff
              rw [kept, faithful.tracked target scope found active, InsertionMap.mem_keys, InsertionMap.mem_keys, decide_eq_true_eq]
              simp only [InsertionMap.mem_erase, exists_and_right]
          · intro index scope apart found active
            refine ⟨passed index scope found active (by simp only [tracked, ne_eq, Option.some.injEq]; omega), fun other => ?_⟩
            rw [InsertionMap.erase, get_filter_iff, decide_eq_true_eq]
            refine and_iff_left_of_imp fun held same => ?_
            simp only at same
            rw [same, tracked, Option.some.injEq] at held
            exact apart held.symm
  · next unhooked =>
      refine faithful.unnoted placed fun index scope found active => ?_
      rw [faithful.hooked, decide_eq_true (faithful.active found active)] at unhooked
      exact absurd rfl unhooked

theorem Process.Faithful.clears (faithful : process.Faithful) (asyncId : Nat) : ((ProcessOp.clears asyncId).run process).Faithful :=
  faithful.unnoted (placed_modify (fun resource => { resource with destroyed := true }) (fun _ => rfl) faithful asyncId)
    fun _ _ _ _ => awaited_destroyed

theorem Process.Faithful.leaves (faithful : process.Faithful) (index : Nat) (settled : Except JsValue Unit) :
    (process.leave index settled).Faithful := by
  unfold Process.leave
  split
  · exact faithful
  · next scope found =>
      split
      · next active =>
          have inside := (List.getElem?_eq_some_iff.mp found).1
          have here : process.scopes[index] = scope := (List.getElem?_eq_some_iff.mp found).2
          have one := faithful.active found active
          have known : ∀ other scope' outcome, (process.scopes.set index { scope with outcome := some outcome })[other]? = some scope' →
              scope'.isActive = true → other ≠ index ∧ process.scopes[other]? = some scope' := by
            intro other scope' outcome there active'
            by_cases same : index = other
            · subst same
              rw [List.getElem?_set_self inside, Option.some.injEq] at there
              subst there
              simp [DecisionScope.isActive] at active'
            · exact ⟨fun equal => same equal.symm, (List.getElem?_set_ne same).symm.trans there⟩
          refine ⟨?_, ?_, ?_, ?_, ?_, ?_, ?_⟩
          · simp only [List.countP_set inside, here, active, if_true, faithful.counted]
            simp [DecisionScope.isActive]
          · simp only
            split
            · rfl
            · rw [faithful.patched, if_neg one]
          · simp only [faithful.hooked, decide_eq_true one, Bool.true_and]
            cases process.activeGuards - 1 <;> rfl
          · simpa only [List.length_set] using faithful.placed
          · intro asyncId scope' tracked
            rw [List.length_set]
            exact faithful.listed asyncId scope' (get_filter_iff.mp tracked).1
          · intro other scope' there active'
            obtain ⟨-, before⟩ := known other scope' _ there active'
            exact faithful.pending other scope' before active'
          · intro other scope' there active' asyncId
            obtain ⟨apart, before⟩ := known other scope' _ there active'
            rw [get_filter_iff, faithful.tracked other scope' before active', decide_eq_true_eq]
            refine and_iff_left_of_imp fun held held' => apart ?_
            have one := (faithful.tracked other scope' before active' asyncId).mpr held
            have two := (faithful.tracked index scope found active asyncId).mpr held'
            exact Option.some.inj (one.symm.trans two)
      · exact faithful

theorem ProcessRun.faithful (run : ProcessRun process) : process.Faithful := by
  induction run with
  | fresh => exact freshProcess_faithful
  | step run op possible ih =>
    cases op with
    | enters => exact ih.enter
    | starts type context => exact ih.starts possible
    | ends asyncId => exact ih.ends asyncId
    | clears asyncId => exact ih.clears asyncId
    | leaves index settled => exact ih.leaves index settled

end Steps

section Guarding

variable {process : Process} {index asyncId : Nat} {scope : DecisionScope}

/-- A use of a global is refused in a decision while any guarded call is active, and nowhere else. -/
theorem Process.Faithful.refuses (faithful : process.Faithful) (call : ApiCall) (context : Context) :
    call.use process.globals context = if context.isSome = true ∧ call.deterministic = false ∧
      (∃ scope ∈ process.scopes, scope.isActive = true) then some (forbid call.api) else none := by
  have active : (∃ scope ∈ process.scopes, scope.isActive = true) ↔ process.activeGuards ≠ 0 := by
    rw [faithful.counted, ← List.countP_pos_iff, Nat.pos_iff_ne_zero]
  simp only [active, faithful.patched]
  split
  · next idle =>
      have system : call.binding restoreGlobals = .system := by cases call <;> rfl
      simp [ApiCall.use, system, idle]
  · next busy =>
      have guarded : call.binding patchGlobals = .guarded := by cases call <;> rfl
      simp [ApiCall.use, guarded, busy]

/-- In every run, a use of a global is refused exactly when it is made in a decision while a guarded call is active; without one the
globals are the system's and nothing is recorded. A guarded call whose code has ended is refused exactly for what the code of its own
decision has started and still waits for, whatever other decisions do, and nothing of it is tracked any more. -/
theorem sandbox_guards (run : ProcessRun process) :
    (∀ (call : ApiCall) (context : Context), call.use process.globals context = if context.isSome = true ∧ call.deterministic = false ∧
      (∃ scope ∈ process.scopes, scope.isActive = true) then some (forbid call.api) else none) ∧
    ((∀ scope ∈ process.scopes, scope.isActive = false) → process.globals = restoreGlobals ∧ process.hookEnabled = false) ∧
    ∀ index scope, process.scopes[index]? = some scope → scope.isActive = true → ∀ settled,
      (process.leave index settled).scopes[index]? = some { scope with outcome := some (match settled with
        | .ok _ => if leftover process.resources index = [] then .returned
            else .stillActive (leftover process.resources index).eraseDups
        | .error error => .threw error) } ∧
      ∀ asyncId, (process.leave index settled).trackedResources.get asyncId ≠ some index := by
  have faithful := run.faithful
  refine ⟨faithful.refuses, fun quiet => ?_, fun index scope found active settled => ⟨?_, fun asyncId tracked => ?_⟩⟩
  · have idle : process.activeGuards = 0 := by
      rw [faithful.counted, List.countP_eq_zero]
      simpa using quiet
    rw [faithful.patched, faithful.hooked, idle]
    simp
  · have inside := (List.getElem?_eq_some_iff.mp found).1
    have left : (scope.pending.entries.filter process.isStillPending).map Prod.snd = leftover process.resources index := by
      rw [faithful.pending index scope found active, leftover_eq]
    simp only [Process.leave, found, active, if_true, List.getElem?_set_self inside]
    cases settled with
    | error error => rfl
    | ok done => simp only [Process.assertQuiet, left, List.isEmpty_iff]
  · simp only [Process.leave, found, active, if_true] at tracked
    obtain ⟨held, apart⟩ := get_filter_iff.mp tracked
    exact absurd ((faithful.tracked index scope found active asyncId).mp held) (of_decide_eq_true apart)

/-- A decision whose code waits for a timer and for a file. -/
def waitingProcess : Process :=
  (ProcessOp.starts "FSREQPROMISE" (some 0)).run ((ProcessOp.starts "Timeout" (some 0)).run (ProcessOp.enters.run freshProcess))

theorem waitingProcess_reached : ProcessRun waitingProcess := by
  have entered : ProcessRun (ProcessOp.enters.run freshProcess) := .step .fresh .enters trivial
  have inside : 0 < (ProcessOp.enters.run freshProcess).scopes.length := by decide
  have timed : ProcessRun ((ProcessOp.starts "Timeout" (some 0)).run (ProcessOp.enters.run freshProcess)) := .step entered _ inside
  have inside' : 0 < ((ProcessOp.starts "Timeout" (some 0)).run (ProcessOp.enters.run freshProcess)).scopes.length := by decide
  exact .step timed _ inside'

theorem sandbox_guards_waiting : ∃ scope : DecisionScope, (waitingProcess.leave 0 (.ok ())).scopes[0]? =
    some { scope with outcome := some (.stillActive ["Timeout", "FSREQPROMISE"]) } := by
  obtain ⟨scope, found, active⟩ : ∃ scope, waitingProcess.scopes[0]? = some scope ∧ scope.isActive = true := ⟨_, rfl, rfl⟩
  have left : leftover waitingProcess.resources 0 = ["Timeout", "FSREQPROMISE"] := by decide
  have ended := ((sandbox_guards waitingProcess_reached).2.2 0 scope found active (.ok ())).1
  simp only [left, reduceCtorEq, if_false] at ended
  exact ⟨scope, ended⟩

end Guarding

end DurableExecution.Sandbox
