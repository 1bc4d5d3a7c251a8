import Mathlib.Data.List.Nodup

/-
This file is a library of maps that list their entries in the order in which the keys were inserted.
-/

namespace DurableExecution.Order

/-- A map that lists its entries in the order in which their keys were inserted. -/
structure InsertionMap (K V : Type) where
  entries : List (K × V)
  distinct : (entries.map Prod.fst).Nodup

namespace InsertionMap

variable {K V : Type} {map : InsertionMap K V} {key : K} {value : V}

def empty : InsertionMap K V := ⟨[], List.nodup_nil⟩

def size (map : InsertionMap K V) : Nat := map.entries.length

def keys (map : InsertionMap K V) : List K := map.entries.map Prod.fst

def filter (keep : K × V → Bool) (map : InsertionMap K V) : InsertionMap K V :=
  ⟨map.entries.filter keep, map.distinct.sublist (List.filter_sublist.map _)⟩

theorem mem_keys : key ∈ map.keys ↔ ∃ value, (key, value) ∈ map.entries := by
  constructor
  · intro listed
    obtain ⟨⟨_, value⟩, held, rfl⟩ := List.mem_map.mp listed
    exact ⟨value, held⟩
  · rintro ⟨value, held⟩
    exact List.mem_map_of_mem held

variable [DecidableEq K]

def get (map : InsertionMap K V) (key : K) : Option V := map.entries.lookup key

def erase (map : InsertionMap K V) (key : K) : InsertionMap K V := map.filter fun entry => decide (entry.1 ≠ key)

/-- A key that is there keeps its place. -/
def replaced (key : K) (value : V) (entry : K × V) : K × V := if entry.1 = key then (entry.1, value) else entry

theorem replaced_fst (entry : K × V) : (replaced key value entry).1 = entry.1 := by
  unfold replaced
  split <;> rfl

theorem keys_replaced (entries : List (K × V)) : (entries.map (replaced key value)).map Prod.fst = entries.map Prod.fst := by
  rw [List.map_map]
  exact List.map_congr_left fun entry _ => replaced_fst entry

def set (map : InsertionMap K V) (key : K) (value : V) : InsertionMap K V :=
  if absent : key ∉ map.keys then
    ⟨map.entries ++ [(key, value)], by
      rw [List.map_append, List.map_singleton]
      refine List.nodup_append.mpr ⟨map.distinct, List.nodup_singleton key, ?_⟩
      intro one listed two last same
      have equal : one = key := same.trans (List.mem_singleton.mp last)
      exact absent (equal ▸ listed)⟩
  else ⟨map.entries.map (replaced key value), by rw [keys_replaced]; exact map.distinct⟩

theorem set_absent (absent : key ∉ map.keys) : (map.set key value).entries = map.entries ++ [(key, value)] := by
  rw [set, dif_pos absent]

theorem set_present (present : key ∈ map.keys) : (map.set key value).entries = map.entries.map (replaced key value) := by
  rw [set, dif_neg (not_not_intro present)]

theorem lookup_eq_none {entries : List (K × V)} : entries.lookup key = none ↔ key ∉ entries.map Prod.fst := by
  induction entries with
  | nil => simp
  | cons entry rest ih =>
    rw [List.lookup_cons, List.map_cons, List.mem_cons, not_or, ← ih]
    by_cases same : key = entry.1
    · simp [same]
    · rw [beq_false_of_ne same]
      simp [same]

theorem lookup_eq_some {entries : List (K × V)} (distinct : (entries.map Prod.fst).Nodup) :
    entries.lookup key = some value ↔ (key, value) ∈ entries := by
  induction entries with
  | nil => simp
  | cons entry rest ih =>
    obtain ⟨first, held⟩ := entry
    rw [List.map_cons, List.nodup_cons] at distinct
    rw [List.lookup_cons, List.mem_cons, Prod.mk.injEq, ← ih distinct.2]
    by_cases same : key = first
    · subst same
      have absent := lookup_eq_none.mpr distinct.1
      simp [absent, eq_comm]
    · rw [beq_false_of_ne same]
      simp [same]

theorem get_eq_none : map.get key = none ↔ key ∉ map.keys := lookup_eq_none

theorem get_eq_some : map.get key = some value ↔ (key, value) ∈ map.entries := lookup_eq_some map.distinct

theorem mem_set {entry : K × V} : entry ∈ (map.set key value).entries ↔ entry = (key, value) ∨ entry ∈ map.entries ∧ entry.1 ≠ key := by
  by_cases present : key ∈ map.keys
  · rw [set_present present, List.mem_map]
    constructor
    · rintro ⟨before, held, rfl⟩
      rw [replaced]
      split
      · next same => exact .inl (by rw [same])
      · next different => exact .inr ⟨held, different⟩
    · rintro (rfl | ⟨held, different⟩)
      · obtain ⟨before, held⟩ := mem_keys.mp present
        exact ⟨(key, before), held, if_pos rfl⟩
      · exact ⟨entry, held, if_neg different⟩
  · rw [set_absent present, List.mem_append, List.mem_singleton, or_comm]
    refine or_congr Iff.rfl ⟨fun held => ⟨held, fun same => present ?_⟩, And.left⟩
    exact same ▸ List.mem_map_of_mem held

theorem get_set (map : InsertionMap K V) (key : K) (value : V) (other : K) :
    (map.set key value).get other = if other = key then some value else map.get other := by
  by_cases same : other = key
  · rw [if_pos same, same]
    exact get_eq_some.mpr (mem_set.mpr (.inl rfl))
  · rw [if_neg same]
    cases found : map.get other with
    | some held => exact get_eq_some.mpr (mem_set.mpr (.inr ⟨get_eq_some.mp found, same⟩))
    | none =>
      rw [get_eq_none, mem_keys]
      rintro ⟨held, listed⟩
      rcases mem_set.mp listed with equal | ⟨before, -⟩
      · exact same (Prod.mk.inj equal).1
      · exact get_eq_none.mp found (mem_keys.mpr ⟨held, before⟩)

/-- Looking a key up from the latest entry on finds the same. -/
theorem lookup_reverse (map : InsertionMap K V) (key : K) : map.entries.reverse.lookup key = map.get key := by
  cases found : map.get key with
  | none =>
    rw [lookup_eq_none, List.map_reverse, List.mem_reverse]
    exact get_eq_none.mp found
  | some value =>
    rw [lookup_eq_some (by rw [List.map_reverse]; exact List.nodup_reverse.mpr map.distinct), List.mem_reverse]
    exact get_eq_some.mp found

theorem mem_erase {entry : K × V} : entry ∈ (map.erase key).entries ↔ entry ∈ map.entries ∧ entry.1 ≠ key := by
  rw [erase, filter, List.mem_filter, decide_eq_true_eq]

theorem erase_absent (map : InsertionMap K V) (key : K) : key ∉ (map.erase key).keys := by
  intro listed
  obtain ⟨value, held⟩ := mem_keys.mp listed
  exact (mem_erase.mp held).2 rfl

theorem erase_of_absent (absent : key ∉ map.keys) : (map.erase key).entries = map.entries := by
  refine List.filter_eq_self.mpr fun entry held => ?_
  rw [decide_eq_true_eq]
  exact fun same => absent (same ▸ List.mem_map_of_mem held)

/-- A key that is erased and set again is the latest. -/
theorem erase_set (map : InsertionMap K V) (key : K) (value : V) :
    ((map.erase key).set key value).entries = (map.erase key).entries ++ [(key, value)] :=
  set_absent (map.erase_absent key)

/-- The first entry is the one that its key erases. -/
theorem erase_first {rest : List (K × V)} (first : map.entries = (key, value) :: rest) : (map.erase key).entries = rest := by
  have distinct := map.distinct
  rw [first, List.map_cons, List.nodup_cons] at distinct
  change map.entries.filter (fun entry => decide (entry.1 ≠ key)) = rest
  rw [first, List.filter_cons_of_neg (by simp)]
  refine List.filter_eq_self.mpr fun other listed => decide_eq_true fun equal => distinct.1 ?_
  exact List.mem_map.mpr ⟨other, listed, equal⟩

end InsertionMap

end DurableExecution.Order
