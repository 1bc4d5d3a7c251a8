import Mathlib.Data.List.Sort
import Mathlib.Order.Defs.LinearOrder
import Mathlib.Tactic.Common

/-
This file proves once that following cursors through the pages of a sorted list yields the list.
-/

namespace DurableExecution.Order

section Walks

variable {Item Shown Cursor Error Limit : Type}

/-- Pages that are fetched one after the other, each from the cursor of the one before, until one has no cursor. -/
inductive Walk (fetch : Option Cursor → Limit → Except Error (List Shown × Option Cursor)) :
    Option Cursor → List Limit → List (List Shown) → Prop where
  | last {cursor : Option Cursor} {limit : Limit} {page : List Shown} (fetched : fetch cursor limit = .ok (page, none)) :
      Walk fetch cursor [limit] [page]
  | next {cursor : Option Cursor} {limit : Limit} {page : List Shown} {following : Cursor} {limits : List Limit} {pages : List (List Shown)}
      (fetched : fetch cursor limit = .ok (page, some following)) (onward : Walk fetch (some following) limits pages) :
      Walk fetch cursor (limit :: limits) (page :: pages)

/-- The cursor of a page: that of its last item if there are more. -/
def cursorAfter (cursorOf : Item → Cursor) (rest : List Item) (size : Nat) : Option Cursor :=
  if size < rest.length then (rest.take size).getLast?.map cursorOf else none

/-- A fetch that knows where it is in a list: from the cursor of an item it shows what comes after it. -/
def Fetches (fetch : Option Cursor → Limit → Except Error (List Shown × Option Cursor)) (items : List Item) (shown : Item → Shown)
    (cursorOf : Item → Cursor) (size : Limit → Nat) : Prop :=
  ∀ front rest, items = front ++ rest → ∀ limit, 1 ≤ size limit →
    fetch (front.getLast?.map cursorOf) limit = .ok ((rest.take (size limit)).map shown, cursorAfter cursorOf rest (size limit))

variable {fetch : Option Cursor → Limit → Except Error (List Shown × Option Cursor)} {items front rest : List Item}
  {shown : Item → Shown} {cursorOf : Item → Cursor} {size : Limit → Nat}

/-- Every page but the last is full. -/
def Full (size : Limit → Nat) : List Limit → List (List Shown) → Prop
  | limit :: limits, page :: next :: pages => page.length = size limit ∧ Full size limits (next :: pages)
  | _, _ => True

theorem Walk.nonempty {cursor : Option Cursor} {limits : List Limit} {pages : List (List Shown)} (walk : Walk fetch cursor limits pages) :
    ∃ page more, pages = page :: more := by
  cases walk with
  | last => exact ⟨_, [], rfl⟩
  | next => exact ⟨_, _, rfl⟩

/-- The pages that follow a part of the list hold its rest. -/
theorem Fetches.onward (fetches : Fetches fetch items shown cursorOf size) (whole : items = front ++ rest)
    (limits : Nat → Limit) (enough : ∀ page, 1 ≤ size (limits page)) :
    ∃ count pages, Walk fetch (front.getLast?.map cursorOf) ((List.range count).map limits) pages ∧
      pages.flatten = rest.map shown ∧ Full size ((List.range count).map limits) pages := by
  induction length : rest.length using Nat.strongRecOn generalizing front rest limits with
  | _ count ih =>
    have fetched := fetches front rest whole (limits 0) (enough 0)
    have some' := enough 0
    by_cases more : size (limits 0) < rest.length
    · obtain ⟨last, ends⟩ : ∃ last, (rest.take (size (limits 0))).getLast? = some last := by
        have some'' : rest.take (size (limits 0)) ≠ [] := by
          intro none'
          have counted := congrArg List.length none'
          rw [List.length_take, List.length_nil] at counted
          omega
        exact ⟨_, List.getLast?_eq_some_getLast some''⟩
      have joined : items = (front ++ rest.take (size (limits 0))) ++ rest.drop (size (limits 0)) := by
        rw [List.append_assoc, List.take_append_drop, whole]
      have shorter : (rest.drop (size (limits 0))).length < count := by
        rw [List.length_drop]
        omega
      obtain ⟨pagesLeft, pages, walk, held, full⟩ :=
        ih _ shorter joined (fun page => limits (page + 1)) (fun page => enough (page + 1)) rfl
      rw [List.getLast?_append, ends, Option.some_or, Option.map_some] at walk
      rw [cursorAfter, if_pos more, ends, Option.map_some] at fetched
      have steps : (List.range (pagesLeft + 1)).map limits = limits 0 :: (List.range pagesLeft).map fun page => limits (page + 1) := by
        rw [List.range_succ_eq_map, List.map_cons, List.map_map]
        rfl
      refine ⟨pagesLeft + 1, ((rest.take (size (limits 0))).map shown) :: pages, ?_, ?_, ?_⟩
      · rw [steps]
        exact .next fetched walk
      · rw [List.flatten_cons, held, ← List.map_append, List.take_append_drop]
      · obtain ⟨page, others, rfl⟩ := walk.nonempty
        rw [steps]
        refine ⟨?_, full⟩
        rw [List.length_map, List.length_take]
        omega
    · rw [cursorAfter, if_neg more, List.take_of_length_le (Nat.le_of_not_lt more)] at fetched
      refine ⟨1, [rest.map shown], .last fetched, ?_, trivial⟩
      rw [List.flatten_cons, List.flatten_nil, List.append_nil]

/-- From the first page the cursors lead through the whole list. -/
theorem Fetches.covers (fetches : Fetches fetch items shown cursorOf size)
    (limits : Nat → Limit) (enough : ∀ page, 1 ≤ size (limits page)) :
    ∃ count pages, Walk fetch none ((List.range count).map limits) pages ∧ pages.flatten = items.map shown ∧
      Full size ((List.range count).map limits) pages :=
  fetches.onward (List.nil_append items).symm limits enough

end Walks

section Orders

variable {Item Key : Type} [LinearOrder Key] (key : Item → Key)

/-- Items in the order of their keys. -/
def ordered (items : List Item) : List Item := items.mergeSort fun one two => decide (key one ≤ key two)

variable {key} {items front rest : List Item}

theorem ordered_perm : (ordered key items).Perm items := List.mergeSort_perm items _

theorem ordered_pairwise (apart : (items.map key).Nodup) : (ordered key items).Pairwise fun one two => key one < key two := by
  have weak : (ordered key items).Pairwise fun one two => decide (key one ≤ key two) = true := by
    apply List.pairwise_mergeSort
    · intro one two three first second
      exact decide_eq_true ((of_decide_eq_true first).trans (of_decide_eq_true second))
    · intro one two
      rcases le_total (key one) (key two) with first | second
      · rw [decide_eq_true first, Bool.true_or]
      · rw [decide_eq_true second, Bool.or_true]
  have distinct : (ordered key items).Pairwise fun one two => key one ≠ key two :=
    List.pairwise_map.mp ((ordered_perm.map key).nodup_iff.mpr apart)
  exact weak.imp₂ (fun _ _ first second => lt_of_le_of_ne (of_decide_eq_true first) second) distinct

/-- Two lists in the same order that hold the same items are the same. -/
theorem ordered_unique {one two : List Item} (first : one.Pairwise fun a b => key a < key b)
    (second : two.Pairwise fun a b => key a < key b) (same : one.Perm two) : one = two :=
  same.eq_of_pairwise (fun a b _ _ before after => absurd after (lt_asymm before)) first second

theorem ordered_filter (apart : (items.map key).Nodup) (keep : Item → Bool) :
    ordered key (items.filter keep) = (ordered key items).filter keep := by
  have fewer : ((items.filter keep).map key).Nodup := apart.sublist (List.filter_sublist.map key)
  apply ordered_unique (ordered_pairwise fewer) ((ordered_pairwise apart).filter keep)
  exact ordered_perm.trans (ordered_perm.symm.filter keep)

/-- What comes after the last item of a part of an ordered list is the rest of it. -/
theorem after_last (sorted : (front ++ rest).Pairwise fun one two => key one < key two) {last : Item} (ends : front.getLast? = some last) :
    (front ++ rest).filter (fun item => decide (key last < key item)) = rest := by
  obtain ⟨before, rfl⟩ := List.getLast?_eq_some_iff.mp ends
  obtain ⟨first, second, between⟩ := List.pairwise_append.mp sorted
  have early : (before ++ [last]).filter (fun item => decide (key last < key item)) = [] := by
    rw [List.filter_eq_nil_iff]
    intro item listed follows
    have follows := of_decide_eq_true follows
    rcases List.mem_append.mp listed with earlier | own
    · exact lt_asymm ((List.pairwise_append.mp first).2.2 item earlier last List.mem_cons_self) follows
    · cases List.mem_singleton.mp own
      exact lt_irrefl _ follows
  have late : rest.filter (fun item => decide (key last < key item)) = rest := by
    rw [List.filter_eq_self]
    intro item listed
    exact decide_eq_true (between last (List.mem_append_right _ List.mem_cons_self) item listed)
  rw [List.filter_append, early, late, List.nil_append]

/-- A query for the items after the last one of a part finds the rest, in order. -/
theorem ordered_after (apart : (items.map key).Nodup) (whole : ordered key items = front ++ rest) {last : Item}
    (ends : front.getLast? = some last) : ordered key (items.filter fun item => decide (key last < key item)) = rest := by
  rw [ordered_filter apart, whole]
  apply after_last _ ends
  rw [← whole]
  exact ordered_pairwise apart

end Orders

section Probes

variable {Item Shown Cursor Error Limit : Type}

/-- A page from a query for one row more than the page shows: that row only says that there are more. -/
def probed (cursorOf : Item → Cursor) (shown : Item → Shown) (limit : Nat) (rows : List Item) : List Shown × Option Cursor :=
  ((rows.take limit).map shown, if limit < rows.length then (rows.take limit).getLast?.map cursorOf else none)

theorem probed_take (cursorOf : Item → Cursor) (shown : Item → Shown) (limit : Nat) (rest : List Item) :
    probed cursorOf shown limit (rest.take (limit + 1)) = ((rest.take limit).map shown, cursorAfter cursorOf rest limit) := by
  have shows : (rest.take (limit + 1)).take limit = rest.take limit := by
    rw [List.take_take, Nat.min_eq_left (Nat.le_succ limit)]
  have more : limit < (rest.take (limit + 1)).length ↔ limit < rest.length := by
    rw [List.length_take]
    omega
  rw [probed, cursorAfter, shows]
  simp only [more]

/-- Following the cursors from the first page ends, and yields every matching item once and in order. Every page
but the last is full, and only the last has no cursor. -/
def Covered (fetch : Option Cursor → Limit → Except Error (List Shown × Option Cursor)) (matching : List Item)
    (precedes : Item → Item → Prop) (shown : Item → Shown) (size : Limit → Nat) : Prop :=
  ∀ limits : Nat → Limit, (∀ page, 1 ≤ size (limits page)) →
    ∃ (count : Nat) (pages : List (List Shown)) (listed : List Item),
      Walk fetch none ((List.range count).map limits) pages ∧ pages.flatten = listed.map shown ∧
      listed.Perm matching ∧ listed.Pairwise precedes ∧ Full size ((List.range count).map limits) pages

theorem Fetches.covered {Key : Type} [LinearOrder Key] {key : Item → Key} {matching : List Item} {size : Limit → Nat}
    {fetch : Option Cursor → Limit → Except Error (List Shown × Option Cursor)} {shown : Item → Shown} {cursorOf : Item → Cursor}
    (apart : (matching.map key).Nodup) (fetches : Fetches fetch (ordered key matching) shown cursorOf size) :
    Covered fetch matching (fun one two => key one < key two) shown size := by
  intro limits enough
  obtain ⟨count, pages, walk, held, full⟩ := fetches.covers limits enough
  exact ⟨count, pages, ordered key matching, walk, held, ordered_perm, ordered_pairwise apart, full⟩

end Probes

end DurableExecution.Order
