import Mathlib.Order.Lattice

/-
This file describes the next element of a linear order that matches, and walks from one
match to the next.
-/

namespace DurableExecution.Order

variable {A : Type} [LinearOrder A] {Matches Handled : A → Prop} {start after next next' other : A}

/-- The first match after an element. -/
structure NextMatch (Matches : A → Prop) (after next : A) : Prop where
  later : after < next
  holds : Matches next
  first : ∀ other, after < other → Matches other → next ≤ other

theorem NextMatch.unique (one : NextMatch Matches after next) (two : NextMatch Matches after next') : next = next' :=
  le_antisymm (one.first next' two.later two.holds) (two.first next one.later one.holds)

/-- No match lies strictly between. -/
theorem NextMatch.between (isNext : NextMatch Matches after next) (above : after < other) (below : other < next) : ¬ Matches other :=
  fun holds => absurd below (not_lt_of_ge (isNext.first other above holds))

/-- A match before the next one is not after this one. -/
theorem NextMatch.le (isNext : NextMatch Matches after next) (holds : Matches other) (below : other < next) : other ≤ after :=
  le_of_not_gt fun above => isNext.between above below holds

/-- Where the walk has come to the next match, all matches before it stay handled. -/
theorem NextMatch.handled (isNext : NextMatch Matches after next)
    (earlier : ∀ other, start < other → other < after → Matches other → Handled other) (here : Handled after) :
    ∀ other, start < other → other < next → Matches other → Handled other := by
  intro other above below holds
  rcases lt_or_eq_of_le (isNext.le holds below) with before | rfl
  · exact earlier other above before holds
  · exact here

end DurableExecution.Order
