import DurableExecution.Workflow.Growth

/-
This file shows that a replay hears of the history in order. A wait is settled once the feed has
reached its place, and not before.
-/

namespace DurableExecution.Workflow

open EventLoop

section Delivery

variable {H : Type} {replay : Replay} {world after final : ReplayWorld H} {target : PromiseId} {place : Nat}

/-- Where a wait of the context is: the feed has reached its place and settled it, or the delivery waits. -/
def DeliveredWait (world : ReplayWorld H) (target : PromiseId) (promise : ReplayPromise H) (place : Nat) : Prop :=
  (∃ outcome, promise.status = .settled outcome) ∧ (place : Int) ≤ world.host.fedUpTo ∨
    (∃ reactions, promise.status = .pending reactions) ∧ world.host.fedUpTo < place ∧
      ∃ outcome, (place, target, outcome) ∈ world.host.deliveries

structure Delivered (world : ReplayWorld H) : Prop where
  waits : ∀ (target : PromiseId) (promise : ReplayPromise H), world.promises[target]? = some promise → promise.owner = .host →
    ∀ place, promise.tag.completionPosition = some place → DeliveredWait world target promise place
  ahead : ∀ delivery ∈ world.host.deliveries, world.host.fedUpTo < delivery.1

/-- One promise of the table is settled by others than the context, or gets a reaction. -/
theorem Delivered.replaced {old : ReplayPromise H} {status : Status H (Operation H) JsValue (Resumption H)} (delivered : Delivered world)
    (held : world.promises[target]? = some old) (jobs : List (ReplayJob H))
    (stays : old.owner = .host → ∃ before later, old.status = .pending before ∧ status = .pending later) :
    Delivered { world with promises := world.promises.set target (old.withStatus status), jobs := jobs } := by
  refine ⟨fun other promise found own place placed => ?_, delivered.ahead⟩
  have inside : target < world.promises.length := (List.getElem?_eq_some_iff.mp held).1
  by_cases same : target = other
  · subst same
    dsimp only at found
    rw [List.getElem?_set_self inside] at found
    cases found
    obtain ⟨before, later, was, becomes⟩ := stays own
    rcases delivered.waits target old held own place placed with ⟨⟨outcome, settled⟩, _⟩ | ⟨_, ahead, listed⟩
    · cases was.symm.trans settled
    · exact .inr ⟨⟨later, becomes⟩, ahead, listed⟩
  · dsimp only at found
    rw [List.getElem?_set_ne same] at found
    exact delivered.waits other promise found own place placed

theorem Delivered.alloc {promise : ReplayPromise H} (delivered : Delivered world) (jobs : List (ReplayJob H))
    (deliveries : List (Nat × PromiseId × Except JsValue JsValue))
    (state : ReplayState H) (fed : state.fedUpTo = world.host.fedUpTo) (own : state.deliveries = world.host.deliveries ++ deliveries)
    (ahead : ∀ delivery ∈ deliveries, world.host.fedUpTo < delivery.1) (waits : ∀ place, promise.tag.completionPosition = some place →
      DeliveredWait (⟨world.heap, world.promises ++ [promise], jobs, state⟩ : ReplayWorld H) world.promises.length promise place) :
    Delivered (⟨world.heap, world.promises ++ [promise], jobs, state⟩ : ReplayWorld H) := by
  refine ⟨fun target found held host place placed => ?_, fun delivery listed => ?_⟩
  · dsimp only at held
    by_cases old : target < world.promises.length
    · rw [List.getElem?_append_left old] at held
      rcases delivered.waits target found held host place placed with ⟨settled, reached⟩ | ⟨pending, beyond, outcome, listed⟩
      · exact .inl ⟨settled, by dsimp only; omega⟩
      · refine .inr ⟨pending, by dsimp only; omega, outcome, ?_⟩
        dsimp only
        rw [own]
        exact List.mem_append_left _ listed
    · have inside := (List.getElem?_eq_some_iff.mp held).1
      rw [List.length_append, List.length_singleton] at inside
      obtain rfl : target = world.promises.length := Nat.le_antisymm (Nat.lt_succ_iff.mp inside) (Nat.le_of_not_lt old)
      rw [List.getElem?_append_right (Nat.le_refl _), Nat.sub_self] at held
      cases held
      exact waits place placed
  · dsimp only at listed ⊢
    rw [own] at listed
    rw [fed]
    exact (List.mem_append.mp listed).elim (delivered.ahead delivery) (ahead delivery)

/-- Only a release touches the waits of the context. -/
theorem Delivered.isKept : Kept (fun _ => True) (Delivered (H := H)) where
  same {world after} delivered promises jobs fed deliveries := by
    constructor
    · intro target promise held own place placed
      rw [promises] at held
      rcases delivered.waits target promise held own place placed with ⟨settled, reached⟩ | ⟨pending, beyond, outcome, listed⟩
      · exact .inl ⟨settled, by omega⟩
      · exact .inr ⟨pending, by omega, outcome, by rwa [deliveries]⟩
    · intro delivery listed
      rw [deliveries] at listed
      rw [fed]
      exact delivered.ahead delivery listed
  unplaced {world} promise unplaced _ delivered :=
    delivered.alloc world.jobs [] world.host rfl (List.append_nil _).symm (fun _ none' => absurd none' List.not_mem_nil)
      fun place placed => nomatch unplaced.symm.trans placed
  placed {world} place outcome delivered := by
    unfold completedAt
    dsimp only
    split
    · next reached =>
        exact delivered.alloc world.jobs [] world.host rfl (List.append_nil _).symm (fun _ none' => absurd none' List.not_mem_nil)
          fun place' placed => .inl ⟨⟨outcome, rfl⟩, by cases placed; exact reached⟩
    · next beyond =>
        refine delivered.alloc world.jobs [(place, world.promises.length, outcome)] _ rfl rfl (fun delivery listed => ?_)
          fun place' placed => .inr ⟨⟨[], rfl⟩, ?_, outcome, ?_⟩
        · cases List.mem_singleton.mp listed
          exact Int.not_le.mp beyond
        · cases placed
          exact Int.not_le.mp beyond
        · cases placed
          exact List.mem_append_right _ List.mem_cons_self
  settle {world} owner target outcome other _ delivered := by
    unfold World.settle
    split
    · next promise held =>
        split
        · split
          · next own => exact delivered.replaced held _ fun host => absurd (own.symm.trans host) other
          · exact delivered
        · exact delivered
    · exact delivered
  react {world} target reaction _ delivered := by
    unfold World.react
    split
    · next promise held =>
        split
        · next reactions status => exact delivered.replaced held _ fun _ => ⟨reactions, _, status, rfl⟩
        · exact ⟨delivered.waits, delivered.ahead⟩
    · exact delivered
  enqueue job _ delivered := ⟨delivered.waits, delivered.ahead⟩
  opens _ goesOn _ := goesOn trivial

/-- The waits of a place are settled one after the other, and other waits stay as they are. -/
theorem settleAll_waits (due : List (Nat × PromiseId × Except JsValue JsValue)) {promise : ReplayPromise H}
    (held : world.promises[target]? = some promise) (own : promise.owner = .host) :
    ∃ new : ReplayPromise H, (due.foldl (fun world delivery => world.settle .host delivery.2.1 delivery.2.2) world).promises[target]? =
        some new ∧ new.owner = .host ∧ new.tag = promise.tag ∧
      (∀ outcome, promise.status = .settled outcome → new.status = .settled outcome) ∧
      ((∃ delivery ∈ due, delivery.2.1 = target) → ∃ outcome, new.status = .settled outcome) ∧
      ((∀ delivery ∈ due, delivery.2.1 ≠ target) → new = promise) := by
  induction due generalizing world promise with
  | nil => exact ⟨promise, held, own, rfl, fun _ => id, fun ⟨_, none', _⟩ => absurd none' List.not_mem_nil, fun _ => rfl⟩
  | cons delivery rest ih =>
    have step : ∃ next : ReplayPromise H, (world.settle .host delivery.2.1 delivery.2.2).promises[target]? = some next ∧
        next.owner = .host ∧ next.tag = promise.tag ∧
        (∀ outcome, promise.status = .settled outcome → next.status = .settled outcome) ∧
        (delivery.2.1 = target → ∃ outcome, next.status = .settled outcome) ∧ (delivery.2.1 ≠ target → next = promise) := by
      unfold World.settle
      by_cases same : delivery.2.1 = target
      · rw [same, held]
        have inside : target < world.promises.length := (List.getElem?_eq_some_iff.mp held).1
        dsimp only
        split
        · next reactions status =>
            rw [if_pos own]
            exact ⟨_, List.getElem?_set_self inside, own, rfl, fun _ settled => (by cases status.symm.trans settled),
              fun _ => ⟨_, rfl⟩, fun other => absurd rfl other⟩
        · next outcome status =>
            exact ⟨promise, held, own, rfl, fun _ => id, fun _ => ⟨outcome, status⟩, fun _ => rfl⟩
      · refine ⟨promise, ?_, own, rfl, fun _ => id, fun equal => absurd equal same, fun _ => rfl⟩
        split
        · split
          · split
            · rw [List.getElem?_set_ne same]
              exact held
            · exact held
          · exact held
        · exact held
    obtain ⟨next, held', own', tag, settled, hit, missed⟩ := step
    obtain ⟨new, held'', own'', tag', settled', hits, misses⟩ := ih held' own'
    rw [List.foldl_cons]
    refine ⟨new, held'', own'', tag'.trans tag, fun outcome same => settled' outcome (settled outcome same), ?_, fun others => ?_⟩
    · rintro ⟨other, listed, same⟩
      rcases List.mem_cons.mp listed with rfl | listed
      · obtain ⟨outcome, ends⟩ := hit same
        exact ⟨outcome, settled' outcome ends⟩
      · exact hits ⟨other, listed, same⟩
    · rw [misses fun other listed => others other (List.mem_cons_of_mem _ listed)]
      exact missed (others delivery List.mem_cons_self)

theorem settleAll_length (due : List (Nat × PromiseId × Except JsValue JsValue)) (world : ReplayWorld H) :
    (due.foldl (fun world delivery => world.settle .host delivery.2.1 delivery.2.2) world).promises.length = world.promises.length := by
  induction due generalizing world with
  | nil => rfl
  | cons delivery rest ih =>
    rw [List.foldl_cons, ih]
    unfold World.settle
    split
    · split
      · split
        · exact List.length_set
        · rfl
      · rfl
    · rfl

/-- The feed goes on to the earliest delivery. -/
theorem Delivered.release (delivered : Delivered world) (tagged : Tagged world) (due : nextDelivery world = some place) :
    Delivered (release place world) := by
  have ledger := (release_sameLedger place world).ledger
  have fed : (Workflow.release place world).host.fedUpTo = place := congrArg Ledger.fedUpTo ledger
  have deliveries : (Workflow.release place world).host.deliveries =
      world.host.deliveries.filter fun delivery => delivery.1 != place := congrArg Ledger.deliveries ledger
  obtain ⟨first, least⟩ := List.min?_eq_some_iff.mp due
  obtain ⟨earliest, inside, same⟩ := List.mem_map.mp first
  have later : world.host.fedUpTo < place := same ▸ delivered.ahead earliest inside
  constructor
  · intro target promise held own place' placed
    have known : target < world.promises.length := by
      have within := (List.getElem?_eq_some_iff.mp held).1
      rwa [Workflow.release, settleAll_length] at within
    have was := List.getElem?_eq_getElem known
    generalize world.promises[target] = old at was
    obtain ⟨new, held', moves⟩ := (Grows.release tagged : Grows world (Workflow.release place world)).promises target old was
    cases held.symm.trans held'
    have own' : old.owner = .host := moves.owner.symm.trans own
    have placed' : old.tag.completionPosition = some place' := by rw [← moves.tag]; exact placed
    have told : (update (fun state => { state with
      fedUpTo := place
      deliveries := state.deliveries.filter fun delivery => delivery.1 != place }) world).promises[target]? = some old := was
    obtain ⟨_, found, -, -, settled, hits, misses⟩ :=
      settleAll_waits (world.host.deliveries.filter fun delivery => delivery.1 == place) told own'
    cases held.symm.trans found
    rcases delivered.waits target old was own' place' placed' with ⟨⟨outcome, ended⟩, reached⟩ | ⟨pending, beyond, outcome, listed⟩
    · exact .inl ⟨⟨outcome, settled outcome ended⟩, by rw [fed]; omega⟩
    · by_cases now : place' = place
      · subst now
        exact .inl ⟨hits ⟨_, List.mem_filter.mpr ⟨listed, by simp⟩, rfl⟩, by rw [fed]⟩
      · have after := least place' (List.mem_map_of_mem listed)
        refine .inr ⟨?_, by rw [fed]; omega, outcome, ?_⟩
        · rw [misses fun other member equal => now ?_]
          · exact pending
          · obtain ⟨member, at'⟩ := List.mem_filter.mp member
            have tag := tagged other member
            rw [equal, World.tagOf, was] at tag
            have agree : old.tag.completionPosition = some other.1 := tag
            rw [placed'] at agree
            exact (Option.some.inj agree).trans (beq_iff_eq.mp at')
        · rw [deliveries]
          exact List.mem_filter.mpr ⟨listed, by simpa using now⟩
  · intro delivery listed
    rw [deliveries] at listed
    obtain ⟨member, other⟩ := List.mem_filter.mp listed
    have after := least delivery.1 (List.mem_map_of_mem member)
    have other' : delivery.1 ≠ place := by simpa using other
    rw [fed]
    omega

/-- Each delivery is owed to a pending promise of its own. -/
structure Owed (world : ReplayWorld H) : Prop where
  pending : ∀ delivery ∈ world.host.deliveries, ∃ promise, world.promises[delivery.2.1]? = some promise ∧ promise.owner = .host ∧
    promise.Pending
  apart : (world.host.deliveries.map fun delivery => delivery.2.1).Nodup

theorem Owed.keeps (owed : Owed world) (same : after.host.deliveries = world.host.deliveries)
    (waits : ∀ (target : PromiseId) (promise : ReplayPromise H), world.promises[target]? = some promise → promise.owner = .host →
      promise.Pending → ∃ new, after.promises[target]? = some new ∧ new.owner = .host ∧ new.Pending) : Owed after := by
  constructor
  · intro delivery listed
    rw [same] at listed
    obtain ⟨promise, found, own, pending⟩ := owed.pending delivery listed
    exact waits _ promise found own pending
  · rw [same]
    exact owed.apart

theorem Owed.alloc (owed : Owed world) (promise : ReplayPromise H) : Owed (world.alloc promise).2 := by
  refine owed.keeps rfl fun target old found own pending => ⟨old, ?_, own, pending⟩
  simp only [World.alloc]
  rwa [List.getElem?_append_left (List.getElem?_eq_some_iff.mp found).1]

theorem Owed.isKept : Kept (fun _ => True) (Owed (H := H)) where
  same {world after} owed promises _ _ deliveries := by
    refine owed.keeps deliveries fun target promise found own pending => ⟨promise, ?_, own, pending⟩
    rwa [promises]
  unplaced promise _ _ owed := owed.alloc promise
  placed {world} place outcome owed := by
    unfold completedAt
    dsimp only
    split
    · exact owed.alloc _
    · have waiting := owed.alloc ⟨.host, ⟨some place, false⟩, .pending []⟩
      constructor
      · intro delivery listed
        rcases List.mem_append.mp listed with old | new
        · exact waiting.pending delivery old
        · cases List.mem_singleton.mp new
          exact ⟨⟨.host, ⟨some place, false⟩, .pending []⟩, by simp [returned, World.alloc, update], rfl, [], rfl⟩
      · simp only [returned, update, World.alloc, List.map_append, List.map_singleton]
        refine List.nodup_append.mpr ⟨owed.apart, List.nodup_singleton _, fun target old other new => ?_⟩
        rw [List.mem_singleton.mp new]
        obtain ⟨delivery, listed, rfl⟩ := List.mem_map.mp old
        obtain ⟨promise, found, -⟩ := owed.pending delivery listed
        exact Nat.ne_of_lt (List.getElem?_eq_some_iff.mp found).1
  settle {world} owner target outcome other _ owed := by
    refine owed.keeps (by rw [World.settle_host]) fun place promise found own pending => ?_
    unfold World.settle
    split
    · next held here =>
        split
        · split
          · next owned =>
              have apart : target ≠ place := by
                rintro rfl
                cases here.symm.trans found
                exact other (owned.symm.trans own)
              exact ⟨promise, (List.getElem?_set_ne apart).trans found, own, pending⟩
          · exact ⟨promise, found, own, pending⟩
        · exact ⟨promise, found, own, pending⟩
    · exact ⟨promise, found, own, pending⟩
  react {world} target reaction _ owed := by
    refine owed.keeps (by rw [World.react_host]) fun place promise found own pending => ?_
    unfold World.react
    split
    · next held here =>
        split
        · by_cases same : target = place
          · subst same
            cases here.symm.trans found
            exact ⟨_, List.getElem?_set_self (List.getElem?_eq_some_iff.mp found).1, own, _, rfl⟩
          · exact ⟨promise, (List.getElem?_set_ne same).trans found, own, pending⟩
        · exact ⟨promise, found, own, pending⟩
    · exact ⟨promise, found, own, pending⟩
  enqueue _ _ owed := owed.keeps rfl fun _ promise found own pending => ⟨promise, found, own, pending⟩
  opens _ goesOn _ := goesOn trivial

/-- Each wait of a place is settled with the outcome that was owed to it. -/
theorem settleAll_outcome (due : List (Nat × PromiseId × Except JsValue JsValue)) (apart : (due.map fun delivery => delivery.2.1).Nodup)
    {delivery : Nat × PromiseId × Except JsValue JsValue} (listed : delivery ∈ due) {promise : ReplayPromise H}
    (held : world.promises[delivery.2.1]? = some promise) (own : promise.owner = .host) (pending : promise.Pending) :
    ∃ new, (due.foldl (fun world delivery => world.settle .host delivery.2.1 delivery.2.2) world).promises[delivery.2.1]? = some new ∧
      new.status = .settled delivery.2.2 := by
  induction due generalizing world promise with
  | nil => exact absurd listed List.not_mem_nil
  | cons first rest ih =>
    rw [List.map_cons, List.nodup_cons] at apart
    rw [List.foldl_cons]
    obtain ⟨reactions, status⟩ := pending
    by_cases here : first.2.1 = delivery.2.1
    · obtain rfl : first = delivery := by
        rcases List.mem_cons.mp listed with same | later
        · exact same.symm
        · exact absurd (List.mem_map_of_mem later) (here ▸ apart.1)
      have settled : (world.settle .host first.2.1 first.2.2).promises[first.2.1]? =
          some (promise.withStatus (.settled first.2.2)) := by
        rw [World.settle, held]
        dsimp only
        rw [status]
        dsimp only
        rw [if_pos own]
        exact List.getElem?_set_self (List.getElem?_eq_some_iff.mp held).1
      obtain ⟨new, found, -, -, stays, -⟩ := settleAll_waits rest settled own
      exact ⟨new, found, stays _ rfl⟩
    · have later : delivery ∈ rest := (List.mem_cons.mp listed).resolve_left fun same => here (by rw [same])
      refine ih apart.2 later ?_ own ⟨reactions, status⟩
      unfold World.settle
      split
      · split
        · split
          · exact (List.getElem?_set_ne here).trans held
          · exact held
        · exact held
      · exact held

theorem settleAll_host (due : List (Nat × PromiseId × Except JsValue JsValue)) (world : ReplayWorld H) :
    (due.foldl (fun world delivery => world.settle .host delivery.2.1 delivery.2.2) world).host = world.host := by
  induction due generalizing world with
  | nil => rfl
  | cons delivery rest ih => rw [List.foldl_cons, ih, World.settle_host]

/-- What is settled does not depend on what the context has noted. -/
theorem settleAll_update (due : List (Nat × PromiseId × Except JsValue JsValue)) (change : ReplayState H → ReplayState H)
    (world : ReplayWorld H) : due.foldl (fun world delivery => world.settle .host delivery.2.1 delivery.2.2) (update change world) =
      update change (due.foldl (fun world delivery => world.settle .host delivery.2.1 delivery.2.2) world) := by
  induction due generalizing world with
  | nil => rfl
  | cons delivery rest ih =>
    have one : (update change world).settle .host delivery.2.1 delivery.2.2 =
        update change (world.settle .host delivery.2.1 delivery.2.2) := by
      unfold World.settle update
      dsimp only
      split
      · split
        · split <;> rfl
        · rfl
      · rfl
    rw [List.foldl_cons, List.foldl_cons, one, ih]

theorem Owed.release (owed : Owed world) (place : Nat) : Owed (release place world) := by
  have ledger := (release_sameLedger place world).ledger
  have deliveries : (Workflow.release place world).host.deliveries =
      world.host.deliveries.filter fun delivery => delivery.1 != place := congrArg Ledger.deliveries ledger
  constructor
  · intro delivery listed
    rw [deliveries] at listed
    obtain ⟨member, other⟩ := List.mem_filter.mp listed
    obtain ⟨promise, found, own, pending⟩ := owed.pending delivery member
    obtain ⟨new, found', own', -, -, -, misses⟩ := settleAll_waits
      (world.host.deliveries.filter fun delivery => delivery.1 == place) found own
    have same := misses fun due listed' equal => ?_
    · subst same
      refine ⟨_, ?_, own', pending⟩
      rw [Workflow.release, settleAll_update]
      exact found'
    · obtain ⟨member', here⟩ := List.mem_filter.mp listed'
      rw [List.inj_on_of_nodup_map owed.apart member' member equal] at here
      simp [beq_iff_eq.mp here] at other
  · rw [deliveries]
    exact owed.apart.sublist (List.filter_sublist.map _)

end Delivery

end DurableExecution.Workflow
