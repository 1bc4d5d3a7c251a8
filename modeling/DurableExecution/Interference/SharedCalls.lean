import Mathlib.Data.List.Basic
import Mathlib.Tactic.Common

/-
This file is a library of calls that share a store. A call makes one statement at a time, and the statements of other calls come
between any two of them.
-/

namespace DurableExecution.Interference

structure Shared (S C : Type) where
  store : S
  calls : List C

/-- The next statement of a call, with what it draws from outside: it changes the store and the call. -/
abbrev Next (S C I : Type) := S → C → I → S × C

section Runs

variable {S C I : Type} (next : Next S C I) (Starts : C → Prop)

/-- Calls arrive, and any of them makes its next statement. -/
inductive SharedRun (start : Shared S C) : Shared S C → Prop where
  | refl : SharedRun start start
  | arrives {shared : Shared S C} (run : SharedRun start shared) {call : C} (new : Starts call) :
      SharedRun start ⟨shared.store, shared.calls ++ [call]⟩
  | advances {shared : Shared S C} (run : SharedRun start shared) {index : Nat} {call : C} (input : I)
      (found : shared.calls[index]? = some call) :
      SharedRun start ⟨(next shared.store call input).1, shared.calls.set index (next shared.store call input).2⟩

/-- A store is sound, the statements of all calls take it onward, and what a call knows of it lasts. -/
structure Guarantees (Sound : S → Prop) (Onward : S → S → Prop) (Knows : S → C → Prop) : Prop where
  starts : ∀ store call, Starts call → Knows store call
  sound : ∀ store call input, Sound store → Knows store call → Sound (next store call input).1
  onward : ∀ store call input, Sound store → Knows store call → Onward store (next store call input).1
  learns : ∀ store call input, Sound store → Knows store call → Knows (next store call input).1 (next store call input).2
  lasts : ∀ store store' call, Onward store store' → Knows store call → Knows store' call

end Runs

section Rules

variable {S C I F : Type} {next : Next S C I} {Starts : C → Prop} {Sound : S → Prop} {Onward : S → S → Prop}
  {Knows : S → C → Prop} {start shared : Shared S C}

theorem SharedRun.trans {other : Shared S C} (before : SharedRun next Starts start shared) (after : SharedRun next Starts shared other) :
    SharedRun next Starts start other := by
  induction after with
  | refl => exact before
  | arrives run new ih => exact .arrives ih new
  | advances run input found ih => exact .advances ih input found

/-- In every run the store stays sound, and every call goes on knowing what it has learned. -/
theorem SharedRun.knows (run : SharedRun next Starts start shared) (keeps : Guarantees next Starts Sound Onward Knows)
    (sound : Sound start.store) (knows : ∀ call ∈ start.calls, Knows start.store call) :
    Sound shared.store ∧ ∀ call ∈ shared.calls, Knows shared.store call := by
  induction run with
  | refl => exact ⟨sound, knows⟩
  | arrives run new ih =>
    refine ⟨ih.1, fun call listed => ?_⟩
    simp only [List.mem_append, List.mem_singleton] at listed
    obtain before | rfl := listed
    · exact ih.2 call before
    · exact keeps.starts _ _ new
  | @advances shared run index call input found ih =>
    have known := ih.2 call (List.mem_of_getElem? found)
    refine ⟨keeps.sound _ _ input ih.1 known, fun other listed => ?_⟩
    obtain before | rfl := List.mem_or_eq_of_mem_set listed
    · exact keeps.lasts _ _ other (keeps.onward _ _ input ih.1 known) (ih.2 other before)
    · exact keeps.learns _ _ input ih.1 known

/-- What no statement undoes stays. -/
theorem SharedRun.stays (Fact : S → Prop) (run : SharedRun next Starts start shared)
    (keeps : Guarantees next Starts Sound Onward Knows) (stable : ∀ store store', Onward store store' → Fact store → Fact store')
    (sound : Sound start.store) (knows : ∀ call ∈ start.calls, Knows start.store call) (fact : Fact start.store) : Fact shared.store := by
  induction run with
  | refl => exact fact
  | arrives run new ih => exact ih
  | @advances shared run index call input found ih =>
    have known := run.knows keeps sound knows
    exact stable _ _ (keeps.onward _ _ input known.1 (known.2 call (List.mem_of_getElem? found))) ih

/-- Every fact about the store has a call that caused it. -/
theorem SharedRun.traced (Fact : S → F → Prop) (Cause : C → F → Prop) (run : SharedRun next Starts start shared)
    (keeps : Guarantees next Starts Sound Onward Knows)
    (made : ∀ store call input fact, Sound store → Knows store call → Fact (next store call input).1 fact →
      Fact store fact ∨ Cause (next store call input).2 fact)
    (lasts : ∀ store call input fact, Cause call fact → Cause (next store call input).2 fact)
    (sound : Sound start.store) (knows : ∀ call ∈ start.calls, Knows start.store call)
    (before : ∀ fact, Fact start.store fact → ∃ call ∈ start.calls, Cause call fact) (fact : F) (holds : Fact shared.store fact) :
    ∃ call ∈ shared.calls, Cause call fact := by
  induction run with
  | refl => exact before fact holds
  | arrives run new ih =>
    obtain ⟨call, listed, cause⟩ := ih holds
    exact ⟨call, List.mem_append_left _ listed, cause⟩
  | @advances shared run index call input found ih =>
    have known := run.knows keeps sound knows
    have inside := (List.getElem?_eq_some_iff.mp found).1
    have here : (next shared.store call input).2 ∈ shared.calls.set index (next shared.store call input).2 :=
      List.mem_of_getElem? (List.getElem?_set_self inside)
    obtain old | cause := made _ call input fact known.1 (known.2 call (List.mem_of_getElem? found)) holds
    · obtain ⟨other, listed, cause⟩ := ih old
      obtain ⟨place, there⟩ := List.mem_iff_getElem?.mp listed
      by_cases same : index = place
      · subst same
        simp only [found, Option.some.injEq] at there
        subst there
        exact ⟨_, here, lasts _ _ input fact cause⟩
      · exact ⟨other, List.mem_of_getElem? ((List.getElem?_set_ne same).trans there), cause⟩
    · exact ⟨_, here, cause⟩

/-- From a store that allows it to no call, no further call comes to an outcome. -/
theorem SharedRun.barred (Bars : S → Prop) (Outcome : C → Prop) (run : SharedRun next Starts start shared)
    (keeps : Guarantees next Starts Sound Onward Knows) (stable : ∀ store store', Onward store store' → Bars store → Bars store')
    (fresh : ∀ call, Starts call → ¬ Outcome call)
    (refuses : ∀ store call input, Sound store → Knows store call → Bars store → Outcome (next store call input).2 →
      (next store call input).2 = call)
    (sound : Sound start.store) (knows : ∀ call ∈ start.calls, Knows start.store call) (bars : Bars start.store)
    (index : Nat) (call : C) (found : shared.calls[index]? = some call) (outcome : Outcome call) : start.calls[index]? = some call := by
  induction run generalizing index call with
  | refl => exact found
  | @arrives shared run other new ih =>
    by_cases inside : index < shared.calls.length
    · exact ih index call ((List.getElem?_append_left inside).symm.trans found) outcome
    · rw [List.getElem?_append_right (by omega)] at found
      have arrived : call = other := List.mem_singleton.mp (List.mem_of_getElem? found)
      exact absurd outcome (arrived ▸ fresh other new)
  | @advances shared run place other input there ih =>
    have known := run.knows keeps sound knows
    by_cases same : place = index
    · subst same
      have inside := (List.getElem?_eq_some_iff.mp there).1
      dsimp only at found
      rw [List.getElem?_set_self inside, Option.some.injEq] at found
      have unchanged := refuses _ other input known.1 (known.2 other (List.mem_of_getElem? there))
        (run.stays Bars keeps stable sound knows bars) (by rwa [found])
      exact ih place call (by rw [there, ← found, unchanged]) outcome
    · exact ih index call ((List.getElem?_set_ne same).symm.trans found) outcome

end Rules

end DurableExecution.Interference
