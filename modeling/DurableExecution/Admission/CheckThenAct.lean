import Mathlib.Tactic.Common

/-
This file is a library of limits that are checked before a unit is taken, in a separate step: what is in use may pass the limit
by the requests that were let through at the same time, and by no more.
-/

namespace DurableExecution.Admission

/-- The units in use, the requests that passed the check and have taken nothing yet, and the units that were taken without one. -/
structure Load where
  used : Nat
  admitted : Nat
  unchecked : Nat

/-- What can happen to a load with a limit. -/
inductive Load.Moves (limit : Nat) (load : Load) : Load → Prop where
  | stays : Moves limit load load
  | passes (room : load.used < limit) : Moves limit load { load with admitted := load.admitted + 1 }
  | acts {used : Nat} (let' : 0 < load.admitted) (one : used ≤ load.used + 1) :
      Moves limit load { load with used := used, admitted := load.admitted - 1 }
  | drops : Moves limit load { load with admitted := load.admitted - 1 }
  | changes (used opened : Nat) (most : used ≤ load.used + opened) :
      Moves limit load { load with used := used, unchecked := load.unchecked + opened }

/-- Moves one after the other, between which at most so many requests are let through and have not acted. -/
inductive LoadRun (limit inFlight : Nat) (start : Load) : Load → Prop where
  | refl : LoadRun limit inFlight start start
  | step {load after : Load} (run : LoadRun limit inFlight start load) (moves : load.Moves limit after)
      (few : after.admitted ≤ inFlight) : LoadRun limit inFlight start after

variable {limit inFlight bound : Nat} {start load after : Load}

/-- What is in use and what will be stays below the bound, up to what was taken without a check. -/
theorem Load.Moves.within (moves : load.Moves limit after) (few : after.admitted ≤ inFlight) (wide : limit + inFlight ≤ bound + 1)
    (within : load.used + load.admitted ≤ bound + load.unchecked) : after.used + after.admitted ≤ bound + after.unchecked := by
  cases moves with
  | stays => exact within
  | passes room => dsimp only at few ⊢; omega
  | acts let' one => dsimp only; omega
  | drops => dsimp only; omega
  | changes used opened most => dsimp only; omega

theorem LoadRun.within (run : LoadRun limit inFlight start load) (wide : limit + inFlight ≤ bound + 1)
    (within : start.used + start.admitted ≤ bound + start.unchecked) : load.used + load.admitted ≤ bound + load.unchecked := by
  induction run with
  | refl => exact within
  | step run moves few ih => exact moves.within few wide ih

/-- A limit is overshot by the requests in flight but one, and by the units taken without a check. -/
theorem LoadRun.overshoot (run : LoadRun limit inFlight start load) (idle : start.admitted = 0) (fresh : start.unchecked = 0) :
    load.used ≤ max start.used (limit + inFlight - 1) + load.unchecked := by
  have within : load.used + load.admitted ≤ max start.used (limit + inFlight - 1) + load.unchecked :=
    run.within (by omega) (by omega)
  omega

end DurableExecution.Admission
