import DurableExecution.Order.InsertionMap
import DurableExecution.Workflow.Errors

/-
This file models the cache of runs that a worker keeps, and shows that it is a list of the runs in the order of their last
use, from which idle runs are left out.
-/

namespace DurableExecution.Sticky

open Workflow DurableExecution.Order

section Cache

variable {V : Type}

structure RunCacheOptions where
  maxRuns : JsNumber
  stickyTimeoutMs : JsNumber

/-- The numbers of options that passed their check. -/
structure RunCacheLimits where
  maxRuns : Nat
  stickyTimeoutMs : Nat
  holdsOne : 1 ≤ maxRuns
  lasts : 1 ≤ stickyTimeoutMs

structure Entry (V : Type) where
  value : V
  lastUsedAt : Int

structure RunCache (V : Type) where
  limits : RunCacheLimits
  entries : InsertionMap String (Entry V)
  hits : Nat
  misses : Nat
  evictions : Nat
  expirations : Nat

/-- `Number.isInteger(value) && value >= 1`. -/
def positiveInteger : JsNumber → Option Nat
  | .finite value => if value.den = 1 ∧ 1 ≤ value.num then some value.num.toNat else none
  | _ => none

theorem positiveInteger_pos {number : JsNumber} {value : Nat} (whole : positiveInteger number = some value) : 1 ≤ value := by
  cases number with
  | finite exact =>
    rw [positiveInteger] at whole
    split at whole
    · next positive =>
        cases whole
        omega
    · cases whole
  | _ => cases whole

def createRunCache (options : RunCacheOptions) : Except JsValue (RunCache V) :=
  match maxRuns : positiveInteger options.maxRuns with
  | none => .error (plainError "RangeError" ("maxRuns must be a positive integer, got " ++ options.maxRuns.text))
  | some runs =>
    match timeout : positiveInteger options.stickyTimeoutMs with
    | none => .error (plainError "RangeError"
        ("stickyTimeoutMs must be a positive integer, got " ++ options.stickyTimeoutMs.text))
    | some timeoutMs =>
      .ok ⟨⟨runs, timeoutMs, positiveInteger_pos maxRuns, positiveInteger_pos timeout⟩, .empty, 0, 0, 0, 0⟩

def RunCache.size (cache : RunCache V) : Nat := cache.entries.size

def RunCache.get (cache : RunCache V) (runId : String) (now : Int) : RunCache V × Option V :=
  match cache.entries.get runId with
  | none => ({ cache with misses := cache.misses + 1 }, none)
  | some entry =>
    let entries := cache.entries.erase runId
    if cache.limits.stickyTimeoutMs < now - entry.lastUsedAt then
      ({ cache with entries, expirations := cache.expirations + 1, misses := cache.misses + 1 }, none)
    else
      ({ cache with entries := entries.set runId { entry with lastUsedAt := now }, hits := cache.hits + 1 }, some entry.value)

/-- The loop of `set`, which takes a round for an entry at most. -/
def RunCache.evict : Nat → RunCache V → RunCache V
  | 0, cache => cache
  | rounds + 1, cache =>
    if cache.limits.maxRuns < cache.entries.size then
      match cache.entries.entries.head? with
      | none => cache
      | some oldest =>
        RunCache.evict rounds { cache with entries := cache.entries.erase oldest.1, evictions := cache.evictions + 1 }
    else cache

def RunCache.set (cache : RunCache V) (runId : String) (value : V) (now : Int) : RunCache V :=
  let entries := (cache.entries.erase runId).set runId ⟨value, now⟩
  RunCache.evict entries.size { cache with entries }

def RunCache.delete (cache : RunCache V) (runId : String) : RunCache V × Bool :=
  ({ cache with entries := cache.entries.erase runId }, decide (runId ∈ cache.entries.keys))

def RunCache.clear (cache : RunCache V) : RunCache V := { cache with entries := .empty }

inductive Call (V : Type) where
  | get (runId : String)
  | set (runId : String) (value : V)
  | delete (runId : String)
  | clear

inductive Answer (V : Type) where
  | value (found : Option V)
  | deleted (present : Bool)
  | nothing

def Call.isGet : Call V → Bool
  | .get _ => true
  | _ => false

def RunCache.call (cache : RunCache V) (now : Int) : Call V → RunCache V × Answer V
  | .get runId => ((cache.get runId now).1, .value (cache.get runId now).2)
  | .set runId value => (cache.set runId value now, .nothing)
  | .delete runId => ((cache.delete runId).1, .deleted (cache.delete runId).2)
  | .clear => (cache.clear, .nothing)

/-- The calls of a cache, each with the reading of the clock. -/
def RunCache.run (cache : RunCache V) : List (Int × Call V) → RunCache V × List (Answer V)
  | [] => (cache, [])
  | (now, call) :: calls =>
    let step := cache.call now call
    let rest := step.1.run calls
    (rest.1, step.2 :: rest.2)

end Cache

section Reference

variable {V : Type} {limits : RunCacheLimits} {cache : RunCache V}

def without (runId : String) (uses : List (String × Entry V)) : List (String × Entry V) :=
  uses.filter fun use => decide (use.1 ≠ runId)

/-- What the calls do to the runs that are held. An expired run is not removed: it was not used for too long. -/
inductive Happening (V : Type) where
  | set (runId : String) (value : V) (now : Int)
  | hit (runId : String) (now : Int)
  | removed (runId : String)
  | cleared

structure ReferenceStep (V : Type) where
  uses : List (String × Entry V)
  answer : Answer V
  happened : List (Happening V)

/-- The reference: the list of the runs in the order of their last use, the latest first. -/
def referenceCall (limits : RunCacheLimits) (uses : List (String × Entry V)) (now : Int) : Call V → ReferenceStep V
  | .get runId =>
    match uses.lookup runId with
    | none => ⟨uses, .value none, []⟩
    | some entry =>
      if limits.stickyTimeoutMs < now - entry.lastUsedAt then ⟨without runId uses, .value none, []⟩
      else ⟨(runId, { entry with lastUsedAt := now }) :: without runId uses, .value (some entry.value), [.hit runId now]⟩
  | .set runId value =>
    let latest := (runId, ⟨value, now⟩) :: without runId uses
    ⟨latest.take limits.maxRuns, .nothing,
      .set runId value now :: (latest.drop limits.maxRuns).map fun use => .removed use.1⟩
  | .delete runId => ⟨without runId uses, .deleted (uses.lookup runId).isSome, [.removed runId]⟩
  | .clear => ⟨[], .nothing, [.cleared]⟩

/-- The uses, the answers and what happened after some calls. -/
def referenceRun (limits : RunCacheLimits) (uses : List (String × Entry V)) :
    List (Int × Call V) → List (String × Entry V) × List (Answer V) × List (Happening V)
  | [] => (uses, [], [])
  | (now, call) :: calls =>
    let step := referenceCall limits uses now call
    let rest := referenceRun limits step.uses calls
    (rest.1, step.answer :: rest.2.1, step.happened ++ rest.2.2)

def RunCache.uses (cache : RunCache V) : List (String × Entry V) := cache.entries.entries.reverse

theorem RunCache.lookup_uses (cache : RunCache V) (runId : String) : cache.uses.lookup runId = cache.entries.get runId :=
  cache.entries.lookup_reverse runId

theorem erase_uses (entries : InsertionMap String (Entry V)) (runId : String) :
    (entries.erase runId).entries.reverse = without runId entries.entries.reverse := List.filter_reverse.symm

theorem evict_bounded (rounds : Nat) (bounded : cache.size ≤ cache.limits.maxRuns) : cache.evict rounds = cache := by
  cases rounds with
  | zero => rfl
  | succ rounds =>
    rw [RunCache.evict, if_neg]
    exact Nat.not_lt_of_le bounded

/-- A cache that holds one run too many loses the one that was used least recently. -/
theorem evict_uses (rounds : Nat) (enough : cache.size ≤ rounds) (bounded : cache.size ≤ cache.limits.maxRuns + 1) :
    (cache.evict rounds).uses = cache.uses.take cache.limits.maxRuns ∧ (cache.evict rounds).limits = cache.limits ∧
      (cache.evict rounds).hits = cache.hits ∧ (cache.evict rounds).misses = cache.misses := by
  rcases Nat.lt_or_ge cache.limits.maxRuns cache.size with excess | fits
  · cases rounds with
    | zero => omega
    | succ rounds =>
      cases held : cache.entries.entries with
      | nil =>
        rw [RunCache.size, InsertionMap.size, held] at excess
        cases excess
      | cons oldest rest =>
        have kept := InsertionMap.erase_first held
        have size : rest.length = cache.limits.maxRuns := by
          rw [RunCache.size, InsertionMap.size, held, List.length_cons] at excess bounded
          omega
        have room : cache.limits.maxRuns < cache.entries.size := by
          rw [InsertionMap.size, held, List.length_cons]
          omega
        rw [RunCache.evict, if_pos room, held, List.head?_cons]
        dsimp only
        rw [evict_bounded rounds (by
          rw [RunCache.size, InsertionMap.size]
          dsimp only
          rw [kept, size])]
        refine ⟨?_, rfl, rfl, rfl⟩
        rw [RunCache.uses, RunCache.uses, held, List.reverse_cons]
        dsimp only
        rw [kept, ← size, ← List.length_reverse, List.take_left]
  · rw [evict_bounded rounds fits]
    refine ⟨(List.take_of_length_le ?_).symm, rfl, rfl, rfl⟩
    rw [RunCache.uses, List.length_reverse]
    exact fits

/-- A cache within its bound does what the reference does, and counts each get once. -/
theorem call_refines (bounded : cache.size ≤ cache.limits.maxRuns) (now : Int) (call : Call V) :
    (cache.call now call).1.uses = (referenceCall cache.limits cache.uses now call).uses ∧
      (cache.call now call).2 = (referenceCall cache.limits cache.uses now call).answer ∧ (cache.call now call).1.limits = cache.limits ∧
      (cache.call now call).1.hits + (cache.call now call).1.misses = cache.hits + cache.misses + call.isGet.toNat := by
  cases call with
  | get runId =>
    simp only [RunCache.call, referenceCall, RunCache.lookup_uses, RunCache.get]
    cases cache.entries.get runId with
    | none => exact ⟨rfl, rfl, rfl, rfl⟩
    | some entry =>
      by_cases idle : cache.limits.stickyTimeoutMs < now - entry.lastUsedAt
      · simp only [if_pos idle]
        exact ⟨erase_uses cache.entries runId, trivial, trivial, rfl⟩
      · simp only [if_neg idle]
        refine ⟨?_, trivial, trivial, ?_⟩
        · simp only [RunCache.uses]
          rw [InsertionMap.erase_set, List.reverse_append, erase_uses]
          rfl
        · exact Nat.succ_add cache.hits cache.misses
  | set runId value =>
    let latest : RunCache V := { cache with entries := (cache.entries.erase runId).set runId ⟨value, now⟩ }
    have held : latest.uses = (runId, ⟨value, now⟩) :: without runId cache.uses := by
      rw [RunCache.uses, InsertionMap.erase_set, List.reverse_append, erase_uses]
      rfl
    have size : latest.size ≤ latest.limits.maxRuns + 1 := by
      rw [RunCache.size, InsertionMap.size, ← List.length_reverse, ← RunCache.uses, held, List.length_cons]
      have fewer : (without runId cache.uses).length ≤ cache.uses.length := List.length_filter_le _ _
      have same : cache.uses.length = cache.size := List.length_reverse
      change _ ≤ cache.limits.maxRuns + 1
      omega
    obtain ⟨uses, limits, hits, misses⟩ := evict_uses latest.size (Nat.le_refl _) size
    have counts : (latest.evict latest.size).hits + (latest.evict latest.size).misses = cache.hits + cache.misses := by
      rw [hits, misses]
    refine ⟨?_, rfl, limits, counts⟩
    rw [referenceCall]
    dsimp only
    rw [← held]
    exact uses
  | delete runId =>
    refine ⟨erase_uses cache.entries runId, ?_, rfl, rfl⟩
    simp only [RunCache.call, RunCache.delete, referenceCall, RunCache.lookup_uses]
    cases found : cache.entries.get runId with
    | none => rw [decide_eq_false (InsertionMap.get_eq_none.mp found)]; rfl
    | some entry =>
      rw [decide_eq_true (InsertionMap.mem_keys.mpr ⟨entry, InsertionMap.get_eq_some.mp found⟩)]
      rfl
  | clear => exact ⟨rfl, rfl, rfl, rfl⟩

end Reference

section History

variable {V : Type} {limits : RunCacheLimits} {cache : RunCache V} {uses : List (String × Entry V)} {runId key : String}
  {past : List (Happening V)} {times : List Int} {now : Int}

/-- What one happening makes of the value that was last set for a run, and of the time of its last use. -/
def lastUse (runId : String) (held : Option (Entry V)) : Happening V → Option (Entry V)
  | .set other value now => if other = runId then some ⟨value, now⟩ else held
  | .hit other now => if other = runId then held.map fun entry => { entry with lastUsedAt := now } else held
  | .removed other => if other = runId then none else held
  | .cleared => none

/-- The value last set for a run and its last use, unless the run was deleted, cleared or evicted since. -/
def held (past : List (Happening V)) (runId : String) : Option (Entry V) := past.foldl (lastUse runId) none

def fresh (limits : RunCacheLimits) (now : Int) (entry : Entry V) : Bool :=
  decide (now - entry.lastUsedAt ≤ limits.stickyTimeoutMs)

theorem lookup_without (runId : String) (uses : List (String × Entry V)) : (without runId uses).lookup runId = none := by
  rw [InsertionMap.lookup_eq_none]
  intro listed
  obtain ⟨use, kept, same⟩ := List.mem_map.mp listed
  exact of_decide_eq_true (List.mem_filter.mp kept).2 same

theorem lookup_without_ne (other : key ≠ runId) (uses : List (String × Entry V)) : (without runId uses).lookup key = uses.lookup key := by
  induction uses with
  | nil => rfl
  | cons use rest ih =>
    rw [without] at ih ⊢
    by_cases same : use.1 = runId
    · rw [List.filter_cons_of_neg (by simp [same]), ih, List.lookup_cons, beq_false_of_ne fun equal => other (equal.trans same)]
    · rw [List.filter_cons_of_pos (by simp [same]), List.lookup_cons, List.lookup_cons, ih]

theorem lookup_latest (other : key ≠ runId) (entry : Entry V) : ((runId, entry) :: without runId uses).lookup key = uses.lookup key := by
  rw [List.lookup_cons, beq_false_of_ne other]
  exact lookup_without_ne other uses

theorem lookup_latest_self (runId : String) (entry : Entry V) (uses : List (String × Entry V)) :
    ((runId, entry) :: uses).lookup runId = some entry := by
  rw [List.lookup_cons, beq_self_eq_true]

/-- Runs that are removed one by one are held no more; the others are held as before. -/
theorem foldl_removed (removed : List (String × Entry V)) (before : Option (Entry V)) :
    (removed.map fun use => Happening.removed use.1).foldl (lastUse runId) before =
      if runId ∈ removed.map Prod.fst then none else before := by
  induction removed generalizing before with
  | nil => simp
  | cons use rest ih =>
    rw [List.map_cons, List.foldl_cons, ih, lastUse]
    by_cases same : use.1 = runId
    · simp [same]
    · simp only [List.map_cons, List.mem_cons, Ne.symm same, if_neg same, false_or]

/-- What the cache knows after calls at some times: each run is held as the calls left it, or has expired. -/
structure Tracks (limits : RunCacheLimits) (uses : List (String × Entry V)) (past : List (Happening V)) (times : List Int) : Prop where
  distinct : (uses.map Prod.fst).Nodup
  ordered : uses.Pairwise fun later earlier => earlier.2.lastUsedAt ≤ later.2.lastUsedAt
  used : ∀ use ∈ uses, use.2.lastUsedAt ∈ times
  holds : ∀ runId now, (∀ time ∈ times, time ≤ now) →
    (uses.lookup runId).filter (fresh limits now) = (held past runId).filter (fresh limits now)

theorem Tracks.without (tracks : Tracks limits uses past times) (runId : String) : ((Sticky.without runId uses).map Prod.fst).Nodup ∧
      (Sticky.without runId uses).Pairwise (fun later earlier => earlier.2.lastUsedAt ≤ later.2.lastUsedAt) ∧
        ∀ use ∈ Sticky.without runId uses, use.2.lastUsedAt ∈ times :=
  ⟨tracks.distinct.sublist (List.filter_sublist.map _), tracks.ordered.sublist List.filter_sublist,
    fun use kept => tracks.used use (List.mem_of_mem_filter kept)⟩

/-- The list stays in order when a run is used last of all. -/
theorem Tracks.latest (tracks : Tracks limits uses past times) (runId : String) (value : V) (later : ∀ time ∈ times, time ≤ now) :
    (((runId, ⟨value, now⟩) :: Sticky.without runId uses).map Prod.fst).Nodup ∧
      ((runId, ⟨value, now⟩) :: Sticky.without runId uses).Pairwise (fun later earlier => earlier.2.lastUsedAt ≤ later.2.lastUsedAt) ∧
        ∀ use ∈ (runId, (⟨value, now⟩ : Entry V)) :: Sticky.without runId uses, use.2.lastUsedAt ∈ times ++ [now] := by
  obtain ⟨distinct, ordered, used⟩ := tracks.without runId
  refine ⟨?_, List.pairwise_cons.mpr ⟨fun use kept => later _ (used use kept), ordered⟩, ?_⟩
  · rw [List.map_cons, List.nodup_cons]
    exact ⟨InsertionMap.lookup_eq_none.mp (lookup_without runId uses), distinct⟩
  · intro use listed
    rcases List.mem_cons.mp listed with rfl | kept
    · exact List.mem_append_right _ List.mem_cons_self
    · exact List.mem_append_left _ (used use kept)

theorem filter_eq_some {before : Option (Entry V)} {entry : Entry V} (fresh' : fresh limits now entry = true)
    (same : (some entry).filter (fresh limits now) = before.filter (fresh limits now)) : before = some entry := by
  rw [Option.filter_some, if_pos fresh'] at same
  exact (Option.filter_eq_some_iff.mp same.symm).1

/-- Each call keeps track, at a time that is not before the others. -/
theorem Tracks.call (tracks : Tracks limits uses past times) (later : ∀ time ∈ times, time ≤ now) (call : Call V) :
    Tracks limits (referenceCall limits uses now call).uses (past ++ (referenceCall limits uses now call).happened) (times ++ [now]) := by
  have earlier : ∀ {moment : Int}, (∀ time ∈ times ++ [now], time ≤ moment) → (∀ time ∈ times, time ≤ moment) ∧ now ≤ moment :=
    fun bound => ⟨fun time listed => bound time (List.mem_append_left _ listed),
      bound now (List.mem_append_right _ List.mem_cons_self)⟩
  cases call with
  | get runId =>
    rw [referenceCall]
    cases found : uses.lookup runId with
    | none =>
      dsimp only
      rw [List.append_nil]
      exact ⟨tracks.distinct, tracks.ordered, fun use listed => List.mem_append_left _ (tracks.used use listed),
        fun key moment bound => tracks.holds key moment (earlier bound).1⟩
    | some entry =>
      dsimp only
      by_cases idle : limits.stickyTimeoutMs < now - entry.lastUsedAt
      · rw [if_pos idle]
        dsimp only
        rw [List.append_nil]
        obtain ⟨distinct, ordered, used⟩ := tracks.without runId
        refine ⟨distinct, ordered, fun use listed => List.mem_append_left _ (used use listed), ?_⟩
        intro key moment bound
        rw [← tracks.holds key moment (earlier bound).1]
        by_cases same : key = runId
        · subst same
          have stale : fresh limits moment entry = false := by
            have passed := (earlier bound).2
            exact decide_eq_false (by omega)
          rw [lookup_without, found, Option.filter_some, stale, if_neg Bool.false_ne_true]
          rfl
        · rw [lookup_without_ne same]
      · rw [if_neg idle]
        obtain ⟨distinct, ordered, used⟩ := tracks.latest runId entry.value later
        refine ⟨distinct, ordered, used, ?_⟩
        intro key moment bound
        have known := tracks.holds key
        rw [held, List.foldl_append, ← held, List.foldl_cons, List.foldl_nil, lastUse]
        by_cases same : key = runId
        · subst same
          have before := filter_eq_some (decide_eq_true (by omega)) (found ▸ known now later)
          rw [lookup_latest_self, if_pos rfl, before]
          rfl
        · rw [lookup_latest same, if_neg (Ne.symm same)]
          exact known moment (earlier bound).1
  | set runId value =>
    rw [referenceCall]
    dsimp only
    obtain ⟨distinct, ordered, used⟩ := tracks.latest runId value later
    refine ⟨distinct.sublist ((List.take_sublist _ _).map _), ordered.sublist (List.take_sublist _ _),
      fun use listed => used use (List.mem_of_mem_take listed), ?_⟩
    intro key moment bound
    rw [held, List.foldl_append, ← held, List.foldl_cons, foldl_removed, lastUse]
    have all : (((runId, ⟨value, now⟩) :: Sticky.without runId uses).lookup key).filter (fresh limits moment) =
        (if runId = key then some ⟨value, now⟩ else held past key).filter (fresh limits moment) := by
      by_cases same : key = runId
      · subst same
        rw [lookup_latest_self, if_pos rfl]
      · rw [lookup_latest same, if_neg (Ne.symm same)]
        exact tracks.holds key moment (earlier bound).1
    revert all distinct
    generalize (runId, ⟨value, now⟩) :: Sticky.without runId uses = latest
    intro distinct all
    rw [← List.take_append_drop limits.maxRuns latest, List.lookup_append] at all
    rw [← List.take_append_drop limits.maxRuns latest, List.map_append, List.nodup_append] at distinct
    by_cases evicted : key ∈ (latest.drop limits.maxRuns).map Prod.fst
    · have gone : (latest.take limits.maxRuns).lookup key = none :=
        InsertionMap.lookup_eq_none.mpr fun kept => distinct.2.2 key kept key evicted rfl
      rw [gone, if_pos evicted]
    · rw [if_neg evicted, ← all, InsertionMap.lookup_eq_none.mpr evicted, Option.or_none]
  | delete runId =>
    obtain ⟨distinct, ordered, used⟩ := tracks.without runId
    refine ⟨distinct, ordered, fun use listed => List.mem_append_left _ (used use listed), ?_⟩
    intro key moment bound
    rw [referenceCall]
    dsimp only
    rw [held, List.foldl_append, ← held, List.foldl_cons, List.foldl_nil, lastUse]
    by_cases same : key = runId
    · subst same
      rw [lookup_without, if_pos rfl]
    · rw [lookup_without_ne same, if_neg (Ne.symm same)]
      exact tracks.holds key moment (earlier bound).1
  | clear =>
    refine ⟨List.nodup_nil, .nil, fun use listed => absurd listed List.not_mem_nil, ?_⟩
    intro key moment bound
    rw [referenceCall]
    dsimp only
    rw [held, List.foldl_append]
    rfl

/-- Keeping track over a run, by induction on its calls. -/
theorem Tracks.run (calls : List (Int × Call V)) (tracks : Tracks limits uses past times)
    (sorted : (times ++ calls.map Prod.fst).Pairwise (· ≤ ·)) :
    Tracks limits (referenceRun limits uses calls).1 (past ++ (referenceRun limits uses calls).2.2) (times ++ calls.map Prod.fst) := by
  induction calls generalizing uses past times with
  | nil => simpa only [referenceRun, List.append_nil, List.map_nil] using tracks
  | cons entry calls ih =>
    obtain ⟨now, call⟩ := entry
    have later : ∀ time ∈ times, time ≤ now := fun time listed =>
      (List.pairwise_append.mp sorted).2.2 time listed now List.mem_cons_self
    have onward := ih (tracks.call later call) (by simpa using sorted)
    simpa only [referenceRun, List.append_assoc, List.map_cons, List.singleton_append] using onward

theorem Tracks.empty (limits : RunCacheLimits) : Tracks limits ([] : List (String × Entry V)) [] [] :=
  ⟨List.nodup_nil, .nil, fun _ listed => absurd listed List.not_mem_nil, fun _ _ _ => rfl⟩

theorem referenceCall_bounded (uses : List (String × Entry V)) (now : Int) (call : Call V) (bounded : uses.length ≤ limits.maxRuns) :
    (referenceCall limits uses now call).uses.length ≤ limits.maxRuns := by
  have fewer (runId : String) : (Sticky.without runId uses).length ≤ uses.length := List.length_filter_le _ _
  cases call with
  | get runId =>
    rw [referenceCall]
    cases found : uses.lookup runId with
    | none => exact bounded
    | some entry =>
      dsimp only
      split
      · exact (fewer runId).trans bounded
      · have present : (runId, entry) ∈ uses := by
          obtain ⟨one, two, split, -⟩ := List.lookup_eq_some_iff.mp found
          rw [split]
          exact List.mem_append_right _ List.mem_cons_self
        have shorter : (Sticky.without runId uses).length < uses.length :=
          List.length_filter_lt_length_iff_exists.mpr ⟨_, present, by simp⟩
        exact Nat.lt_of_lt_of_le shorter bounded
  | set runId value => exact List.length_take_le _ _
  | delete runId => exact (fewer runId).trans bounded
  | clear => exact Nat.zero_le _

/-- A cache within its bound does what the reference does in every run, and each get is a hit or a miss. -/
theorem run_refines (calls : List (Int × Call V)) (bounded : cache.size ≤ cache.limits.maxRuns) :
    (cache.run calls).1.uses = (referenceRun cache.limits cache.uses calls).1 ∧
      (cache.run calls).2 = (referenceRun cache.limits cache.uses calls).2.1 ∧
      (cache.run calls).1.limits = cache.limits ∧ (cache.run calls).1.size ≤ cache.limits.maxRuns ∧
      (cache.run calls).1.hits + (cache.run calls).1.misses = cache.hits + cache.misses + calls.countP fun entry => entry.2.isGet := by
  induction calls generalizing cache with
  | nil => exact ⟨rfl, rfl, rfl, bounded, rfl⟩
  | cons entry calls ih =>
    obtain ⟨now, call⟩ := entry
    obtain ⟨uses, answer, limits, counted⟩ := call_refines bounded now call
    have size (cache : RunCache V) : cache.size = cache.uses.length := List.length_reverse.symm
    have within : (cache.call now call).1.size ≤ (cache.call now call).1.limits.maxRuns := by
      rw [limits, size, uses]
      exact referenceCall_bounded cache.uses now call (size cache ▸ bounded)
    have onward := ih within
    rw [limits, uses] at onward
    refine ⟨onward.1, ?_, onward.2.2.1, onward.2.2.2.1, ?_⟩
    · rw [RunCache.run, referenceRun, ← onward.2.1, ← answer]
    · rw [RunCache.run, onward.2.2.2.2, counted, List.countP_cons]
      cases call.isGet <;> simp [Nat.add_assoc, Nat.add_comm]

end History

section Refinement

variable {V : Type}

/-- The cache of some calls is the reference list of the runs in the order of their last use. -/
structure Refines (limits : RunCacheLimits) (calls : List (Int × Call V)) (ran : RunCache V × List (Answer V)) : Prop where
  uses : ran.1.uses = (referenceRun limits [] calls).1
  answers : ran.2 = (referenceRun limits [] calls).2.1
  ordered : ran.1.uses.Pairwise fun later earlier => earlier.2.lastUsedAt ≤ later.2.lastUsedAt
  bounded : ran.1.size ≤ limits.maxRuns
  counted : ran.1.hits + ran.1.misses = calls.countP fun entry => entry.2.isGet
  gets : ∀ runId now, (∀ time ∈ calls.map Prod.fst, time ≤ now) → (ran.1.get runId now).2 =
    ((held (referenceRun limits [] calls).2.2 runId).filter (fresh limits now)).map Entry.value
  fits : ∀ runId value now, ran.1.size < limits.maxRuns ∨ runId ∈ ran.1.entries.keys →
    (ran.1.set runId value now).uses = (runId, ⟨value, now⟩) :: without runId ran.1.uses
  evicts : ∀ runId value now, ran.1.size = limits.maxRuns → runId ∉ ran.1.entries.keys → ∃ kept oldest,
    ran.1.uses = kept ++ [oldest] ∧ (ran.1.set runId value now).uses = (runId, ⟨value, now⟩) :: kept

theorem get_value (cache : RunCache V) (runId : String) (now : Int) :
    (cache.get runId now).2 = ((cache.uses.lookup runId).filter (fresh cache.limits now)).map Entry.value := by
  rw [RunCache.get, RunCache.lookup_uses]
  cases cache.entries.get runId with
  | none => rfl
  | some entry =>
    dsimp only
    rw [Option.filter_some]
    by_cases idle : cache.limits.stickyTimeoutMs < now - entry.lastUsedAt
    · rw [if_pos idle, if_neg (by rw [fresh, decide_eq_false (by omega)]; exact Bool.false_ne_true)]
      rfl
    · rw [if_neg idle, if_pos (show fresh cache.limits now entry = true from decide_eq_true (by omega))]
      rfl

theorem set_uses (cache : RunCache V) (bounded : cache.size ≤ cache.limits.maxRuns) (runId : String) (value : V) (now : Int) :
    (cache.set runId value now).uses = ((runId, ⟨value, now⟩) :: without runId cache.uses).take cache.limits.maxRuns :=
  (call_refines bounded now (.set runId value)).1

/-- Every run of a cache that was created refines the reference list. -/
theorem runCache_refines {options : RunCacheOptions} {cache : RunCache V} (created : createRunCache options = .ok cache)
    (calls : List (Int × Call V)) (sorted : (calls.map Prod.fst).Pairwise (· ≤ ·)) : Refines cache.limits calls (cache.run calls) := by
  obtain ⟨empty, none'⟩ : cache.uses = [] ∧ cache.hits + cache.misses = 0 := by
    unfold createRunCache at created
    split at created
    · cases created
    · split at created
      · cases created
      · cases created
        exact ⟨rfl, rfl⟩
  have size (cache : RunCache V) : cache.uses.length = cache.size := List.length_reverse
  have fits : cache.size ≤ cache.limits.maxRuns := by
    rw [← size, empty]
    exact Nat.zero_le _
  have tracks := (Tracks.empty (V := V) cache.limits).run calls (by simpa using sorted)
  obtain ⟨uses, answers, limits, bounded, counted⟩ := run_refines calls fits
  rw [empty] at uses answers
  rw [none', Nat.zero_add] at counted
  rw [← uses, List.nil_append, List.nil_append] at tracks
  refine ⟨uses, answers, tracks.ordered, bounded, counted, ?_, ?_, ?_⟩
  · intro runId now later
    rw [get_value, limits, tracks.holds runId now later]
  · intro runId value now room
    rw [set_uses _ (limits ▸ bounded), limits]
    refine List.take_of_length_le ?_
    rw [List.length_cons]
    rcases room with room | present
    · have fewer : (without runId (cache.run calls).1.uses).length ≤ (cache.run calls).1.uses.length := List.length_filter_le _ _
      rw [size] at fewer
      omega
    · have fewer : (without runId (cache.run calls).1.uses).length < (cache.run calls).1.uses.length :=
        List.length_filter_lt_length_iff_exists.mpr (by
          obtain ⟨entry, listed⟩ := InsertionMap.mem_keys.mp present
          exact ⟨(runId, entry), List.mem_reverse.mpr listed, by simp⟩)
      rw [size] at fewer
      omega
  · intro runId value now full absent
    have some' : (cache.run calls).1.uses ≠ [] := by
      intro none''
      have holdsOne := cache.limits.holdsOne
      rw [← full, ← size, none''] at holdsOne
      cases holdsOne
    have same : without runId (cache.run calls).1.uses = (cache.run calls).1.uses := by
      rw [RunCache.uses, ← erase_uses, InsertionMap.erase_of_absent absent]
    refine ⟨(cache.run calls).1.uses.dropLast, (cache.run calls).1.uses.getLast some',
      (List.dropLast_append_getLast some').symm, ?_⟩
    rw [set_uses _ (limits ▸ bounded), limits, same, ← full, ← size]
    rw [List.dropLast_eq_take]
    obtain ⟨use, rest, shape⟩ := List.exists_cons_of_ne_nil some'
    rw [shape]
    rfl

/-- The second run evicts the first, and is idle for too long in the end. -/
def twoRuns : List (Int × Call Nat) := [(0, .set "one" 1), (5, .set "two" 2), (6, .get "one"), (7, .get "two"), (20, .get "two")]

theorem runCache_refines_two : ∃ cache : RunCache Nat, createRunCache ⟨.finite 1, .finite 10⟩ = .ok cache ∧
    Refines cache.limits twoRuns (cache.run twoRuns) ∧
      (cache.run twoRuns).2 = [.nothing, .nothing, .value none, .value (some 2), .value none] := by
  obtain ⟨cache, created, answers⟩ : ∃ cache : RunCache Nat, createRunCache ⟨.finite 1, .finite 10⟩ = .ok cache ∧
      (cache.run twoRuns).2 = [.nothing, .nothing, .value none, .value (some 2), .value none] := ⟨_, rfl, rfl⟩
  exact ⟨cache, created, runCache_refines created twoRuns (by decide), answers⟩

end Refinement

end DurableExecution.Sticky
