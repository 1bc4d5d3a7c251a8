import Mathlib.Logic.Relation
import Mathlib.Order.Basic

/-
This file is about forests that are given by the parent of each node: which nodes stand at or
below another, and that the trees below siblings have no node in common.
-/

namespace DurableExecution.Forest

open Relation (ReflTransGen)

variable {A : Type}

/-- The node stands at or below `top`. -/
def Under (parent : A → Option A) (top node : A) : Prop := ReflTransGen (fun child up => parent child = some up) node top

section Paths

variable {parent : A → Option A} {top node up one two : A}

theorem Under.refl : Under parent top top := ReflTransGen.refl

theorem Under.step (hangs : parent node = some up) (under : Under parent top up) : Under parent top node :=
  ReflTransGen.head hangs under

theorem Under.above (under : Under parent top node) (apart : node ≠ top) : ∃ up, parent node = some up ∧ Under parent top up := by
  rcases ReflTransGen.cases_head under with same | ⟨up, hangs, above⟩
  · exact absurd same apart
  · exact ⟨up, hangs, above⟩

theorem Under.child (under : Under parent top node) (apart : node ≠ top) : ∃ child, parent child = some top ∧ Under parent child node := by
  rcases ReflTransGen.cases_tail under with same | ⟨child, below, hangs⟩
  · exact absurd same.symm apart
  · exact ⟨child, hangs, below⟩

theorem Under.lift (hangs : parent node = some top) (under : Under parent node one) : Under parent top one :=
  ReflTransGen.tail under hangs

/-- Two nodes above a third stand one below the other. -/
theorem Under.linear (first : Under parent one node) (second : Under parent two node) : Under parent one two ∨ Under parent two one := by
  have unique : Relator.RightUnique fun child up => parent child = some up := by
    intro child up up' hangs hangs'
    exact Option.some.inj (hangs.symm.trans hangs')
  exact (ReflTransGen.total_of_right_unique unique first second).symm

end Paths

section Ordered

variable [PartialOrder A] {parent : A → Option A} {top node one two : A}
  (ordered : ∀ child up, parent child = some up → up < child)

include ordered

theorem Under.le (under : Under parent top node) : top ≤ node := by
  induction under using ReflTransGen.head_induction_on with
  | refl => exact le_rfl
  | head hangs _ ih => exact ih.trans (ordered _ _ hangs).le

/-- A node does not stand below its child. -/
theorem Under.notUp (hangs : parent node = some top) : ¬ Under parent node top :=
  fun under => lt_irrefl _ ((ordered _ _ hangs).trans_le (under.le ordered))

/-- The trees below siblings are disjoint. -/
theorem Under.siblings (first : Under parent one node) (second : Under parent two node)
    (hangs : parent one = some top) (hangs' : parent two = some top) : one = two := by
  by_contra apart
  rcases first.linear second with under | under
  · obtain ⟨up, named, higher⟩ := under.above (Ne.symm apart)
    cases named.symm.trans hangs'
    exact Under.notUp ordered hangs higher
  · obtain ⟨up, named, higher⟩ := under.above apart
    cases named.symm.trans hangs
    exact Under.notUp ordered hangs' higher

end Ordered

end DurableExecution.Forest
