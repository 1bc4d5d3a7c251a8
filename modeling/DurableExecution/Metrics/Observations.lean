import DurableExecution.Metrics.Registered

/-
This file shows what the series of a histogram count, and for which registries the rendered text is read back.
-/

namespace DurableExecution.Metrics

open DurableExecution.Order Workflow

section Series

variable {bounds observations : List JsNumber} {series : Series}

/-- A series that counts some observations. -/
structure Counts (bounds observations : List JsNumber) (series : Series) : Prop where
  counts : series.counts = bounds.map fun bound => observations.countP fun value => atMost value bound
  sum : series.sum = observations.foldl plus (.finite 0)
  count : series.count = observations.length

theorem newSeries_counts (bounds : List JsNumber) : Counts bounds [] (newSeries bounds) := ⟨rfl, rfl, rfl⟩

theorem Counts.observe (counted : Counts bounds observations series) (value : JsNumber) :
    Counts bounds (observations ++ [value]) (series.observe bounds value) := by
  refine ⟨?_, ?_, ?_⟩
  · change List.zipWith (fun bound count => if atMost value bound then count + 1 else count) bounds series.counts = _
    rw [counted.counts, List.zipWith_map_right, List.zipWith_self]
    refine List.map_congr_left fun bound _ => ?_
    rw [List.countP_append, List.countP_singleton]
    split <;> rfl
  · change plus series.sum value = _
    rw [counted.sum, List.foldl_append]
    rfl
  · change series.count + 1 = _
    rw [counted.count, List.length_append]
    rfl

end Series

section Runs

variable {registry next : Registry} {operations : List Operation} {operation : Operation} {metric : Metric} {name : Text} {key : Key}
  {bounds : List JsNumber}

/-- The value that a call observes in a series. -/
def observed (name : Text) (key : Key) : Operation → Option JsNumber
  | .observe at' labels value => if at' = name ∧ keyOf labels = some key then some value else none
  | _ => none

/-- The values that some calls observe in a series, in their order. -/
def observations (name : Text) (key : Key) (operations : List Operation) : List JsNumber := operations.filterMap (observed name key)

theorem observations_snoc (name : Text) (key : Key) (operations : List Operation) (operation : Operation) :
    observations name key (operations ++ [operation]) = observations name key operations ++ (observed name key operation).toList := by
  rw [observations, List.filterMap_append, observations]
  cases seen : observed name key operation with
  | none => rw [List.filterMap_cons_none seen, List.filterMap_nil, Option.toList_none]
  | some value => rw [List.filterMap_cons_some seen, List.filterMap_nil, Option.toList_some]

theorem observed_other (key : Key) (other : operation.name ≠ name) : observed name key operation = none := by
  cases operation with
  | observe at' labels value => exact if_neg fun both => other both.1
  | _ => rfl

/-- Only an observation changes a histogram. -/
theorem update_histogram {series : InsertionMap Key Series} (changed : metric.update operation = some (.histogram bounds series)) :
    ∃ labels value key before, operation = .observe operation.name labels value ∧ keyOf labels = some key ∧
      metric = .histogram bounds before ∧ series = before.set key (((before.get key).getD (newSeries bounds)).observe bounds value) := by
  cases operation with
  | counter | gauge | histogram => cases changed
  | inc at' labels amount =>
    cases metric with
    | counter values =>
      rw [Metric.update] at changed
      split at changed
      · cases changed
      · obtain ⟨key, -, same⟩ := Option.map_eq_some_iff.mp changed
        cases same
    | gauge | histogram => cases changed
  | set at' labels value =>
    cases metric with
    | counter values | gauge values =>
      obtain ⟨key, -, same⟩ := Option.map_eq_some_iff.mp changed
      cases same
    | histogram => cases changed
  | clear at' =>
    cases metric with
    | gauge values => cases changed
    | counter | histogram => cases changed
  | observe at' labels value =>
    cases metric with
    | histogram bounds before =>
      obtain ⟨key, given, same⟩ := Option.map_eq_some_iff.mp changed
      cases same
      exact ⟨labels, value, key, before, rfl, given, rfl, rfl⟩
    | counter | gauge => cases changed

/-- The histograms of a registry count what the calls observe. -/
structure Counted (operations : List Operation) (registry : Registry) : Prop where
  absent : ∀ name ∉ registry.keys, ∀ key, observations name key operations = []
  held : ∀ name help bounds series, (name, Family.mk help (.histogram bounds series)) ∈ registry.entries →
    ∀ key, Counts bounds (observations name key operations) ((series.get key).getD (newSeries bounds))

/-- One call keeps what the histograms count. -/
theorem Counted.perform (counted : Counted operations registry) (done : perform registry operation = some next) :
    Counted (operations ++ [operation]) next := by
  cases perform_performed done with
  | registered added family valid absent fresh empty other same =>
    have unseen (name : Text) (key : Key) : observed name key operation = none := by
      cases operation with
      | observe at' labels value => exact absurd rfl (other at' labels value)
      | _ => rfl
    have unchanged (name : Text) (key : Key) : observations name key (operations ++ [operation]) = observations name key operations := by
      rw [observations_snoc, unseen]
      exact List.append_nil _
    refine ⟨fun name outside key => ?_, fun name help bounds series listed key => ?_⟩
    · rw [unchanged]
      refine counted.absent name (fun inside => outside ?_) key
      obtain ⟨before, held⟩ := InsertionMap.mem_keys.mp inside
      rw [same]
      exact InsertionMap.mem_keys.mpr ⟨before, InsertionMap.mem_set.mpr (.inr ⟨held, fun equal => absent (equal ▸ inside)⟩)⟩
    · rw [unchanged]
      rw [same] at listed
      rcases InsertionMap.mem_set.mp listed with new | ⟨old, -⟩
      · cases new
        rw [counted.absent _ absent, empty bounds series rfl]
        exact newSeries_counts bounds
      · exact counted.held name help bounds series old key
  | updated family metric found changed same =>
    have present := InsertionMap.get_eq_some.mp found
    refine ⟨fun name outside key => ?_, fun name help bounds series listed key => ?_⟩
    · have inside : operation.name ∈ next.keys := by
        rw [same]
        exact InsertionMap.mem_keys.mpr ⟨_, InsertionMap.mem_set.mpr (.inl rfl)⟩
      have other : operation.name ≠ name := fun equal => outside (equal ▸ inside)
      rw [observations_snoc, observed_other key other]
      refine (List.append_nil _).trans (counted.absent name (fun before => outside ?_) key)
      obtain ⟨held, listed⟩ := InsertionMap.mem_keys.mp before
      rw [same]
      exact InsertionMap.mem_keys.mpr ⟨held, InsertionMap.mem_set.mpr (.inr ⟨listed, other.symm⟩)⟩
    · rw [same] at listed
      rcases InsertionMap.mem_set.mp listed with new | ⟨old, different⟩
      · obtain ⟨rfl, equal⟩ := Prod.mk.inj new
        obtain ⟨rfl, rfl⟩ := Family.mk.inj equal
        obtain ⟨labels, value, key', before, shape, given, old, rfl⟩ := update_histogram changed
        have earlier := counted.held operation.name family.help bounds before (by rw [← old]; exact present) key
        have seen : observed operation.name key operation = if key' = key then some value else none := by
          rw [shape, observed, given]
          by_cases equal : key' = key
          · rw [if_pos equal, if_pos ⟨rfl, congrArg some equal⟩]
          · rw [if_neg equal, if_neg fun both => equal (Option.some.inj both.2)]
        rw [observations_snoc, seen, InsertionMap.get_set]
        by_cases equal : key' = key
        · subst equal
          rw [if_pos rfl, if_pos rfl]
          exact earlier.observe value
        · rw [if_neg equal, if_neg (Ne.symm equal)]
          exact (List.append_nil _).symm ▸ earlier
      · rw [observations_snoc, observed_other key (Ne.symm different)]
        exact (List.append_nil _).symm ▸ counted.held name help bounds series old key

end Runs

section RoundTrips

variable {registry : Registry} {operations : List Operation}

/-- A sample that the parser reads as it was registered. -/
structure Sample.Kept (sample : Sample) : Prop where
  value : sample.value ≠ .negInf
  labels : ∀ label ∈ sample.entries, Clean label

instance (label : Text × Text) : Decidable (Clean label) :=
  decidable_of_iff (label.1 ≠ protoName ∧ ¬['\\', 'n'] <:+: label.2 ∧ label.2.any isBareEnd = false)
    ⟨fun ⟨name, value, ends⟩ => ⟨name, value, ends⟩, fun clean => ⟨clean.name, clean.value, clean.ends⟩⟩

instance (sample : Sample) : Decidable sample.Kept :=
  decidable_of_iff (sample.value ≠ .negInf ∧ ∀ label ∈ sample.entries, Clean label)
    ⟨fun ⟨value, labels⟩ => ⟨value, labels⟩, fun kept => ⟨kept.value, kept.labels⟩⟩

theorem Sample.Kept.read {sample : Sample} (kept : sample.Kept) : sample.readable = true ∧ sample.read = sample.expected := by
  constructor
  · rw [Sample.readable, Bool.and_eq_true, Bool.not_eq_true', bareEnds, List.any_eq_false]
    refine ⟨fun label listed ends => ?_, decide_eq_true kept.value⟩
    rw [(kept.labels label listed).ends] at ends
    cases ends
  · rw [Sample.read, Sample.expected, readLabels_clean sample.entries kept.labels]

end RoundTrips

end DurableExecution.Metrics
