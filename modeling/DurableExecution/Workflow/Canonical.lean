import Mathlib.Data.List.Sort
import Mathlib.Order.Lex
import Mathlib.Data.List.Lex
import DurableExecution.Workflow.JsonRoundTrip

/-
This file says which payloads have the same canonical encoding: those that are equal as JSON values up
to the order of keys, once the fields named `__proto__` are left out.
-/

namespace DurableExecution.Workflow

section Keys

theorem codeUnits_some (character : Char) : codeUnits character ≠ [] := by
  unfold codeUnits
  dsimp only
  split <;> exact List.cons_ne_nil _ _

/-- The code units of a text name its characters: a high surrogate begins a pair. -/
theorem codeUnits_injective {one two : List Char} (same : one.flatMap codeUnits = two.flatMap codeUnits) : one = two := by
  induction one generalizing two with
  | nil =>
    cases two with
    | nil => rfl
    | cons character two =>
      rw [List.flatMap_nil, List.flatMap_cons] at same
      exact absurd (List.append_eq_nil_iff.mp same.symm).1 (codeUnits_some character)
  | cons first one ih =>
    cases two with
    | nil =>
      rw [List.flatMap_nil, List.flatMap_cons] at same
      exact absurd (List.append_eq_nil_iff.mp same).1 (codeUnits_some first)
    | cons second two =>
      rw [List.flatMap_cons, List.flatMap_cons] at same
      have firstValid := first.valid
      have secondValid := second.valid
      have first' : first.toNat < 55296 ∨ 57343 < first.toNat ∧ first.toNat < 1114112 := firstValid
      have second' : second.toNat < 55296 ∨ 57343 < second.toNat ∧ second.toNat < 1114112 := secondValid
      have both : first.toNat = second.toNat ∧ one.flatMap codeUnits = two.flatMap codeUnits := by
        simp only [codeUnits] at same
        split at same <;> split at same <;>
          simp only [List.cons_append, List.nil_append, List.cons.injEq] at same
        · exact same
        · omega
        · omega
        · exact ⟨by omega, same.2.2⟩
      rw [ih both.2, Char.toNat_inj.mp both.1]

theorem arrayIndex_text {key : String} {index : Nat} (found : arrayIndex key = some index) : toString index = key := by
  simp only [arrayIndex] at found
  split at found
  · next named =>
      cases found
      exact named.1
  · cases found

theorem keyBefore_irrefl (key : String) : keyBefore key key = false := by
  unfold keyBefore
  cases arrayIndex key with
  | some index => exact decide_eq_false (Nat.lt_irrefl index)
  | none => exact decide_eq_false (List.lt_irrefl _)

theorem keyBefore_trans {one two three : String} (first : keyBefore one two = true) (second : keyBefore two three = true) :
    keyBefore one three = true := by
  revert first second
  unfold keyBefore
  cases arrayIndex one <;> cases arrayIndex two <;> cases arrayIndex three <;>
    simp only [decide_eq_true_eq, Bool.false_eq_true, false_implies, implies_true]
  · exact List.lt_trans
  · exact Nat.lt_trans

/-- One of two keys comes before the other. -/
theorem keyBefore_total {one two : String} (other : one ≠ two) : keyBefore one two = true ∨ keyBefore two one = true := by
  unfold keyBefore
  cases first : arrayIndex one with
  | some index =>
    cases second : arrayIndex two with
    | some index' =>
      have apart : index ≠ index' := by
        rintro rfl
        exact other ((arrayIndex_text first).symm.trans (arrayIndex_text second))
      simp only [decide_eq_true_eq]
      omega
    | none => exact .inl rfl
  | none =>
    cases second : arrayIndex two with
    | some index' => exact .inr rfl
    | none =>
      have apart : one.toList.flatMap codeUnits ≠ two.toList.flatMap codeUnits := fun same =>
        other (String.toList_inj.mp (codeUnits_injective same))
      simp only [decide_eq_true_eq]
      exact lt_or_gt_of_ne apart

end Keys

section Payloads

mutual

/-- Two JSON values are equal up to the order of the keys of their objects. -/
def sameJson : JsValue → JsValue → Prop
  | .array items, other => ∃ others, other = .array others ∧ sameItems items others
  | .object fields, other => ∃ others, other = .object others ∧ fields.length = others.length ∧ sameFields fields others
  | value, other => value = other

def sameItems : List JsValue → List JsValue → Prop
  | [], others => others = []
  | item :: rest, others => ∃ other more, others = other :: more ∧ sameJson item other ∧ sameItems rest more

def sameFields : List (String × JsValue) → List (String × JsValue) → Prop
  | [], _ => True
  | (key, value) :: rest, others => (∃ other, (key, other) ∈ others ∧ sameJson value other) ∧ sameFields rest others

end

mutual

/-- A JSON value without its fields named `__proto__`. -/
def withoutProto : JsValue → JsValue
  | .array items => .array (itemsWithoutProto items)
  | .object fields => .object (fieldsWithoutProto fields)
  | value => value

def itemsWithoutProto : List JsValue → List JsValue
  | [] => []
  | item :: rest => withoutProto item :: itemsWithoutProto rest

def fieldsWithoutProto : List (String × JsValue) → List (String × JsValue)
  | [] => []
  | (key, value) :: rest =>
    if key = "__proto__" then fieldsWithoutProto rest else (key, withoutProto value) :: fieldsWithoutProto rest

end

mutual

/-- A value of a program: its numbers have exact texts, and its objects distinct keys. -/
def JsValue.WellFormed : JsValue → Prop
  | .number (.finite value) => IsDecimal value
  | .array items => ItemsWellFormed items
  | .object fields => (fields.map Prod.fst).Nodup ∧ FieldsWellFormed fields
  | .error _ _ _ own details cause =>
    (own.map Prod.fst).Nodup ∧ FieldsWellFormed own ∧ details.WellFormed ∧ cause.WellFormed
  | _ => True

def ItemsWellFormed : List JsValue → Prop
  | [] => True
  | item :: rest => item.WellFormed ∧ ItemsWellFormed rest

def FieldsWellFormed : List (String × JsValue) → Prop
  | [] => True
  | (_, value) :: rest => value.WellFormed ∧ FieldsWellFormed rest

end

/-- The log would store two values as the same payload. -/
def SamePayload (one two : JsValue) : Prop :=
  match one.jsonCopy, two.jsonCopy with
  | some first, some second => sameJson first second
  | none, none => True
  | _, _ => False

/-- The log would store two values as the same payload if it left out the fields named `__proto__`. -/
def SameBeyondProto (one two : JsValue) : Prop :=
  match one.jsonCopy, two.jsonCopy with
  | some first, some second => sameJson (withoutProto first) (withoutProto second)
  | none, none => True
  | _, _ => False

end Payloads

section Sorting

mutual

/-- A JSON value with the fields of its objects in their order, none of them lost. -/
def sortAll : JsValue → JsValue
  | .array items => .array (sortAllItems items)
  | .object fields => .object (sortAllFields fields)
  | value => value

def sortAllItems : List JsValue → List JsValue
  | [] => []
  | item :: rest => sortAll item :: sortAllItems rest

def sortAllFields : List (String × JsValue) → List (String × JsValue)
  | [] => []
  | (key, value) :: rest => insertField (key, sortAll value) (sortAllFields rest)

end

mutual

/-- The canonical form leaves out the fields named `__proto__` and sorts the others. -/
theorem sortKeys_sortAll (value : JsValue) : sortKeys value = sortAll (withoutProto value) := by
  cases value with
  | array items => rw [sortKeys, withoutProto, sortAll, sortedItems_sortAll items]
  | object fields => rw [sortKeys, withoutProto, sortAll, sortedFields_sortAll fields]
  | _ => simp only [sortKeys, withoutProto, sortAll]

theorem sortedItems_sortAll (items : List JsValue) : sortedItems items = sortAllItems (itemsWithoutProto items) := by
  cases items with
  | nil => rfl
  | cons item rest => rw [sortedItems, itemsWithoutProto, sortAllItems, sortKeys_sortAll item, sortedItems_sortAll rest]

theorem sortedFields_sortAll (fields : List (String × JsValue)) : sortedFields fields = sortAllFields (fieldsWithoutProto fields) := by
  cases fields with
  | nil => rfl
  | cons field rest =>
    obtain ⟨key, value⟩ := field
    rw [sortedFields, fieldsWithoutProto]
    by_cases proto : key = "__proto__"
    · rw [if_pos proto, if_pos proto, sortedFields_sortAll rest]
    · rw [if_neg proto, if_neg proto, sortAllFields, sortKeys_sortAll value, sortedFields_sortAll rest]

end

/-- The order of fields by their keys. -/
def FieldBefore (one two : String × JsValue) : Prop := keyBefore one.1 two.1 = true

instance : Std.Irrefl FieldBefore := ⟨fun field before => by
  rw [FieldBefore, keyBefore_irrefl] at before
  cases before⟩

theorem mem_insertField {field other : String × JsValue} {fields : List (String × JsValue)} :
    other ∈ insertField field fields ↔ other = field ∨ other ∈ fields := by
  induction fields with
  | nil => rw [insertField, List.mem_singleton, or_iff_left List.not_mem_nil]
  | cons head rest ih =>
    rw [insertField]
    by_cases before : keyBefore head.1 field.1 = true
    · rw [if_pos before, List.mem_cons, ih, List.mem_cons]
      exact or_left_comm
    · rw [if_neg before, List.mem_cons]

theorem insertField_sorted {field : String × JsValue} {fields : List (String × JsValue)} (sorted : fields.Pairwise FieldBefore)
    (new : ∀ other ∈ fields, other.1 ≠ field.1) : (insertField field fields).Pairwise FieldBefore := by
  induction fields with
  | nil => exact List.pairwise_singleton _ _
  | cons head rest ih =>
    obtain ⟨first, later⟩ := List.pairwise_cons.mp sorted
    rw [insertField]
    by_cases before : keyBefore head.1 field.1 = true
    · rw [if_pos before, List.pairwise_cons]
      refine ⟨fun other listed => ?_, ih later fun other listed => new other (List.mem_cons_of_mem _ listed)⟩
      rcases mem_insertField.mp listed with rfl | listed
      · exact before
      · exact first other listed
    · rw [if_neg before, List.pairwise_cons]
      have after : FieldBefore field head :=
        (keyBefore_total (new head List.mem_cons_self)).resolve_left before
      refine ⟨fun other listed => ?_, sorted⟩
      rcases List.mem_cons.mp listed with rfl | listed
      · exact after
      · exact keyBefore_trans after (first other listed)

theorem length_insertField (field : String × JsValue) (fields : List (String × JsValue)) :
    (insertField field fields).length = fields.length + 1 := by
  induction fields with
  | nil => rfl
  | cons head rest ih =>
    rw [insertField]
    split
    · rw [List.length_cons, ih, List.length_cons]
    · rfl

theorem length_sortAllFields (fields : List (String × JsValue)) : (sortAllFields fields).length = fields.length := by
  induction fields with
  | nil => rfl
  | cons field rest ih => rw [sortAllFields, length_insertField, ih, List.length_cons]

theorem mem_sortAllFields {field : String × JsValue} {fields : List (String × JsValue)} :
    field ∈ sortAllFields fields ↔ ∃ value, (field.1, value) ∈ fields ∧ field.2 = sortAll value := by
  induction fields with
  | nil => exact ⟨fun listed => absurd listed List.not_mem_nil, fun ⟨_, listed, _⟩ => absurd listed List.not_mem_nil⟩
  | cons head rest ih =>
    obtain ⟨key, value⟩ := head
    rw [sortAllFields, mem_insertField, ih]
    constructor
    · rintro (rfl | ⟨value', listed, same⟩)
      · exact ⟨value, List.mem_cons_self, rfl⟩
      · exact ⟨value', List.mem_cons_of_mem _ listed, same⟩
    · rintro ⟨value', listed, same⟩
      rcases List.mem_cons.mp listed with head | later
      · obtain ⟨named, rfl⟩ := Prod.mk.inj head
        exact .inl (Prod.ext named same)
      · exact .inr ⟨value', later, same⟩

theorem sortAllFields_sorted (fields : List (String × JsValue)) (distinct : (fields.map Prod.fst).Nodup) :
    (sortAllFields fields).Pairwise FieldBefore := by
  induction fields with
  | nil => exact List.Pairwise.nil
  | cons field rest ih =>
    obtain ⟨new, later⟩ := List.nodup_cons.mp distinct
    rw [sortAllFields]
    apply insertField_sorted (ih later)
    intro other listed same
    obtain ⟨value, found, -⟩ := mem_sortAllFields.mp listed
    exact new (same ▸ List.mem_map.mpr ⟨_, found, rfl⟩)

/-- Sorted fields are the same if they are as many and one of them has all that the other has. -/
theorem sortAllFields_eq {one two : List (String × JsValue)} (first : (one.map Prod.fst).Nodup) (second : (two.map Prod.fst).Nodup)
    (many : one.length = two.length) (within : ∀ field ∈ sortAllFields one, field ∈ sortAllFields two) :
    sortAllFields one = sortAllFields two := by
  have sorted := sortAllFields_sorted one first
  have sorted' := sortAllFields_sorted two second
  have subperm : (sortAllFields one).Subperm (sortAllFields two) := List.subperm_of_subset sorted.nodup within
  have perm : (sortAllFields one).Perm (sortAllFields two) := by
    apply subperm.perm_of_length_le
    rw [length_sortAllFields, length_sortAllFields, many]
  apply List.Perm.eq_of_pairwise _ sorted sorted' perm
  intro field other _ _ before after
  have self := keyBefore_trans before after
  rw [keyBefore_irrefl] at self
  cases self

theorem fieldsJson_iff {fields : List (String × JsValue)} : FieldsJson fields ↔ ∀ field ∈ fields, field.2.IsJson := by
  induction fields with
  | nil => exact iff_of_true trivial fun _ listed => absurd listed List.not_mem_nil
  | cons field rest ih =>
    rw [FieldsJson, ih, List.forall_mem_cons]

mutual

/-- Two JSON values have one sorted form exactly when they are equal up to the order of keys. -/
theorem sortAll_eq_iff (one two : JsValue) (first : one.IsJson) (second : two.IsJson) : sortAll one = sortAll two ↔ sameJson one two := by
  cases one with
  | array items =>
    rw [sameJson]
    cases two with
    | array others =>
      simp only [sortAll, JsValue.array.injEq, exists_eq_left', sortAllItems_eq_iff items others first second]
    | _ => simp [sortAll]
  | object fields =>
    rw [sameJson]
    cases two with
    | object others =>
      simp only [sortAll, JsValue.object.injEq, exists_eq_left', ← sortAllFields_within_iff fields others first.2 second.2]
      constructor
      · intro same
        refine ⟨?_, fun field listed => same ▸ listed⟩
        rw [← length_sortAllFields fields, same, length_sortAllFields]
      · rintro ⟨many, within⟩
        exact sortAllFields_eq first.1 second.1 many within
    | _ => simp [sortAll]
  | _ => cases two <;> simp [sortAll, sameJson]

theorem sortAllItems_eq_iff (items others : List JsValue) (first : ItemsJson items) (second : ItemsJson others) :
    sortAllItems items = sortAllItems others ↔ sameItems items others := by
  cases items with
  | nil =>
    rw [sameItems]
    cases others <;> simp [sortAllItems]
  | cons item rest =>
    rw [sameItems]
    cases others with
    | nil => simp [sortAllItems]
    | cons other more =>
      simp only [sortAllItems, List.cons.injEq, sortAll_eq_iff item other first.1 second.1,
        sortAllItems_eq_iff rest more first.2 second.2]
      constructor
      · rintro ⟨same, others⟩
        exact ⟨other, more, ⟨rfl, rfl⟩, same, others⟩
      · rintro ⟨_, _, ⟨rfl, rfl⟩, same, others⟩
        exact ⟨same, others⟩

theorem sortAllFields_within_iff (fields others : List (String × JsValue)) (first : FieldsJson fields) (second : FieldsJson others) :
    (∀ field ∈ sortAllFields fields, field ∈ sortAllFields others) ↔ sameFields fields others := by
  cases fields with
  | nil => exact iff_of_true (fun _ listed => absurd listed List.not_mem_nil) (by rw [sameFields]; trivial)
  | cons field rest =>
    obtain ⟨key, value⟩ := field
    have found : (key, sortAll value) ∈ sortAllFields others ↔ ∃ other, (key, other) ∈ others ∧ sameJson value other := by
      rw [mem_sortAllFields]
      refine exists_congr fun other => and_congr_right fun listed => ?_
      exact sortAll_eq_iff value other first.1 (fieldsJson_iff.mp second _ listed)
    rw [sameFields, ← found, ← sortAllFields_within_iff rest others first.2 second]
    simp only [sortAllFields, mem_insertField, forall_eq_or_imp]

end

end Sorting

section Encodings

/-- The fields that are not named `__proto__`. -/
theorem mem_fieldsWithoutProto {field : String × JsValue} {fields : List (String × JsValue)} :
    field ∈ fieldsWithoutProto fields ↔ field.1 ≠ "__proto__" ∧ ∃ value, (field.1, value) ∈ fields ∧ field.2 = withoutProto value := by
  induction fields with
  | nil => exact iff_of_false List.not_mem_nil fun ⟨_, _, listed, _⟩ => List.not_mem_nil listed
  | cons head rest ih =>
    obtain ⟨key, value⟩ := head
    rw [fieldsWithoutProto]
    by_cases proto : key = "__proto__"
    · rw [if_pos proto, ih]
      refine and_congr_right fun other => exists_congr fun value' => and_congr_left fun _ => ?_
      rw [List.mem_cons, Prod.mk.injEq, proto]
      exact ⟨.inr, fun listed => listed.resolve_left fun same => other same.1⟩
    · rw [if_neg proto, List.mem_cons, ih]
      constructor
      · rintro (rfl | ⟨other, value', listed, same⟩)
        · exact ⟨proto, value, List.mem_cons_self, rfl⟩
        · exact ⟨other, value', List.mem_cons_of_mem _ listed, same⟩
      · rintro ⟨other, value', listed, same⟩
        rcases List.mem_cons.mp listed with head | later
        · obtain ⟨named, rfl⟩ := Prod.mk.inj head
          exact .inl (Prod.ext named same)
        · exact .inr ⟨other, value', later, same⟩

theorem keysWithoutProto (fields : List (String × JsValue)) :
    (fieldsWithoutProto fields).map Prod.fst = (fields.map Prod.fst).filter fun key => key ≠ "__proto__" := by
  induction fields with
  | nil => rfl
  | cons field rest ih =>
    obtain ⟨key, value⟩ := field
    rw [fieldsWithoutProto, List.map_cons]
    by_cases proto : key = "__proto__"
    · rw [if_pos proto, ih, List.filter_cons_of_neg (by simpa using proto)]
    · rw [if_neg proto, List.map_cons, ih, List.filter_cons_of_pos (by simpa using proto)]

mutual

theorem withoutProto_isJson (value : JsValue) (isJson : value.IsJson) : (withoutProto value).IsJson := by
  cases value with
  | array items =>
    rw [withoutProto, JsValue.IsJson]
    exact itemsWithoutProto_isJson items isJson
  | object fields =>
    rw [withoutProto, JsValue.IsJson, keysWithoutProto]
    exact ⟨isJson.1.filter _, fieldsWithoutProto_isJson fields isJson.2⟩
  | _ =>
    rw [withoutProto]
    · exact isJson
    all_goals exact fun _ same => nomatch same

theorem itemsWithoutProto_isJson (items : List JsValue) (isJson : ItemsJson items) : ItemsJson (itemsWithoutProto items) := by
  cases items with
  | nil => exact isJson
  | cons item rest => exact ⟨withoutProto_isJson item isJson.1, itemsWithoutProto_isJson rest isJson.2⟩

theorem fieldsWithoutProto_isJson (fields : List (String × JsValue)) (isJson : FieldsJson fields) :
    FieldsJson (fieldsWithoutProto fields) := by
  cases fields with
  | nil => exact isJson
  | cons field rest =>
    obtain ⟨key, value⟩ := field
    rw [fieldsWithoutProto]
    split
    · exact fieldsWithoutProto_isJson rest isJson.2
    · exact ⟨withoutProto_isJson value isJson.1, fieldsWithoutProto_isJson rest isJson.2⟩

end

mutual

theorem sortAll_isJson (value : JsValue) (isJson : value.IsJson) : (sortAll value).IsJson := by
  cases value with
  | array items =>
    rw [sortAll, JsValue.IsJson]
    exact sortAllItems_isJson items isJson
  | object fields =>
    rw [sortAll, JsValue.IsJson]
    have sorted := sortAllFields_sorted fields isJson.1
    refine ⟨?_, sortAllFields_isJson fields isJson.2⟩
    rw [List.Nodup, List.pairwise_map]
    apply sorted.imp
    intro field other before same
    rw [FieldBefore, same, keyBefore_irrefl] at before
    cases before
  | _ =>
    rw [sortAll]
    · exact isJson
    all_goals exact fun _ same => nomatch same

theorem sortAllItems_isJson (items : List JsValue) (isJson : ItemsJson items) : ItemsJson (sortAllItems items) := by
  cases items with
  | nil => exact isJson
  | cons item rest => exact ⟨sortAll_isJson item isJson.1, sortAllItems_isJson rest isJson.2⟩

theorem sortAllFields_isJson (fields : List (String × JsValue)) (isJson : FieldsJson fields) : FieldsJson (sortAllFields fields) := by
  cases fields with
  | nil => exact isJson
  | cons field rest =>
    obtain ⟨key, value⟩ := field
    rw [sortAllFields, fieldsJson_iff]
    intro other listed
    rcases mem_insertField.mp listed with rfl | listed
    · exact sortAll_isJson value isJson.1
    · exact fieldsJson_iff.mp (sortAllFields_isJson rest isJson.2) other listed

end

mutual

/-- Leaving out the fields named `__proto__` keeps equal values equal. -/
theorem sameJson_withoutProto (one two : JsValue) (first : one.IsJson) (second : two.IsJson) (same : sameJson one two) :
    sameJson (withoutProto one) (withoutProto two) := by
  cases one with
  | array items =>
    rw [sameJson] at same
    obtain ⟨others, rfl, same⟩ := same
    rw [withoutProto, withoutProto, sameJson]
    exact ⟨_, rfl, sameItems_withoutProto items others first second same⟩
  | object fields =>
    rw [sameJson] at same
    obtain ⟨others, rfl, many, same⟩ := same
    rw [withoutProto, withoutProto, sameJson]
    refine ⟨_, rfl, ?_, sameFields_withoutProto fields others first.2 second.2 same⟩
    -- as many fields with keys among the others' keys have those keys
    have within : ∀ field ∈ sortAllFields fields, field ∈ sortAllFields others :=
      (sortAllFields_within_iff fields others first.2 second.2).mpr same
    have subset : fields.map Prod.fst ⊆ others.map Prod.fst := by
      intro key listed
      obtain ⟨field, found, rfl⟩ := List.mem_map.mp listed
      obtain ⟨value, there, -⟩ := mem_sortAllFields.mp (within (field.1, sortAll field.2) (mem_sortAllFields.mpr ⟨field.2, found, rfl⟩))
      exact List.mem_map.mpr ⟨_, there, rfl⟩
    have perm : (fields.map Prod.fst).Perm (others.map Prod.fst) := by
      apply (List.subperm_of_subset first.1 subset).perm_of_length_le
      rw [List.length_map, List.length_map, many]
    have lengths := (perm.filter fun key => key ≠ "__proto__").length_eq
    rw [← keysWithoutProto, ← keysWithoutProto, List.length_map, List.length_map] at lengths
    exact lengths
  | _ =>
    simp only [sameJson] at same
    subst same
    simp only [withoutProto, sameJson]

theorem sameItems_withoutProto (items others : List JsValue) (first : ItemsJson items) (second : ItemsJson others)
    (same : sameItems items others) : sameItems (itemsWithoutProto items) (itemsWithoutProto others) := by
  cases items with
  | nil =>
    rw [sameItems] at same
    subst same
    rw [itemsWithoutProto, sameItems]
  | cons item rest =>
    rw [sameItems] at same
    obtain ⟨other, more, rfl, same, others⟩ := same
    rw [itemsWithoutProto, itemsWithoutProto, sameItems]
    exact ⟨_, _, rfl, sameJson_withoutProto item other first.1 second.1 same,
      sameItems_withoutProto rest more first.2 second.2 others⟩

theorem sameFields_withoutProto (fields others : List (String × JsValue)) (first : FieldsJson fields) (second : FieldsJson others)
    (same : sameFields fields others) : sameFields (fieldsWithoutProto fields) (fieldsWithoutProto others) := by
  cases fields with
  | nil =>
    rw [fieldsWithoutProto, sameFields]
    trivial
  | cons field rest =>
    obtain ⟨key, value⟩ := field
    rw [sameFields] at same
    obtain ⟨⟨other, found, same⟩, later⟩ := same
    have rest' := sameFields_withoutProto rest others first.2 second later
    rw [fieldsWithoutProto]
    by_cases proto : key = "__proto__"
    · rw [if_pos proto]
      exact rest'
    · rw [if_neg proto, sameFields]
      refine ⟨⟨withoutProto other, mem_fieldsWithoutProto.mpr ⟨proto, other, found, rfl⟩, ?_⟩, rest'⟩
      exact sameJson_withoutProto value other first.1 (fieldsJson_iff.mp second _ found) same

end

mutual

/-- The copy that the log holds of a well-formed value is a JSON value. -/
theorem jsonCopy_isJson (value copy : JsValue) (formed : value.WellFormed) (copied : value.jsonCopy = some copy) : copy.IsJson := by
  cases value with
  | undefined => simp [JsValue.jsonCopy] at copied
  | number number =>
    cases number <;> simp only [JsValue.jsonCopy, Option.some.injEq] at copied <;> subst copied
    case finite value =>
      rw [JsValue.IsJson]
      exact formed
    case negZero =>
      rw [JsValue.IsJson, IsDecimal]
      exact one_dvd _
    all_goals
      rw [JsValue.IsJson]
      trivial
  | array items =>
    simp only [JsValue.jsonCopy, Option.some.injEq] at copied
    subst copied
    rw [JsValue.IsJson]
    exact jsonItems_isJson items formed
  | object fields =>
    simp only [JsValue.jsonCopy, Option.some.injEq] at copied
    subst copied
    rw [JsValue.IsJson]
    exact ⟨(jsonFields_keys fields).nodup formed.1, jsonFields_isJson fields formed.2⟩
  | error kind name message own details cause =>
    simp only [JsValue.jsonCopy, Option.some.injEq] at copied
    subst copied
    rw [JsValue.IsJson]
    exact ⟨(jsonFields_keys own).nodup formed.1, jsonFields_isJson own formed.2.1⟩
  | promise id =>
    simp only [JsValue.jsonCopy, Option.some.injEq] at copied
    subst copied
    rw [JsValue.IsJson]
    exact ⟨List.nodup_nil, trivial⟩
  | _ =>
    simp only [JsValue.jsonCopy, Option.some.injEq] at copied
    subst copied
    rw [JsValue.IsJson]
    trivial

theorem jsonItems_isJson (items : List JsValue) (formed : ItemsWellFormed items) : ItemsJson (jsonItems items) := by
  cases items with
  | nil => trivial
  | cons item rest =>
    rw [jsonItems]
    refine ⟨?_, jsonItems_isJson rest formed.2⟩
    cases copied : item.jsonCopy with
    | none =>
      rw [Option.getD_none, JsValue.IsJson]
      trivial
    | some copy => exact jsonCopy_isJson item copy formed.1 copied

theorem jsonFields_isJson (fields : List (String × JsValue)) (formed : FieldsWellFormed fields) : FieldsJson (jsonFields fields) := by
  cases fields with
  | nil => trivial
  | cons field rest =>
    obtain ⟨key, value⟩ := field
    rw [jsonFields]
    cases copied : value.jsonCopy with
    | none => exact jsonFields_isJson rest formed.2
    | some copy => exact ⟨jsonCopy_isJson value copy formed.1 copied, jsonFields_isJson rest formed.2⟩

theorem jsonFields_keys (fields : List (String × JsValue)) : ((jsonFields fields).map Prod.fst).Sublist (fields.map Prod.fst) := by
  cases fields with
  | nil => exact List.Sublist.refl _
  | cons field rest =>
    obtain ⟨key, value⟩ := field
    rw [jsonFields]
    cases value.jsonCopy with
    | none => exact (jsonFields_keys rest).cons key
    | some copy => exact (jsonFields_keys rest).cons_cons key

end

theorem sortKeys_isJson (value : JsValue) (isJson : value.IsJson) : (sortKeys value).IsJson := by
  rw [sortKeys_sortAll]
  exact sortAll_isJson _ (withoutProto_isJson value isJson)

/-- The encoding of a value that encodes to nothing is no JSON text. -/
theorem undefined_unparsed : parseJson "undefined" = none := rfl

/-- Two values have one canonical encoding exactly when they are the same payload beyond the fields
named `__proto__`. -/
theorem canonicalEncoding_eq_iff (one two : JsValue) (first : one.WellFormed) (second : two.WellFormed) :
    canonicalEncoding one = canonicalEncoding two ↔ SameBeyondProto one two := by
  have text : ∀ value : JsValue, value.IsJson → "undefined" ≠ value.jsonText := by
    intro value isJson same
    have parsed := parseJson_jsonText value isJson
    rw [← same, undefined_unparsed] at parsed
    cases parsed
  unfold canonicalEncoding SameBeyondProto
  cases copied : one.jsonCopy with
  | none =>
    cases copied' : two.jsonCopy with
    | none => exact iff_of_true rfl trivial
    | some copy => exact iff_of_false (text _ (sortKeys_isJson copy (jsonCopy_isJson two copy second copied'))) id
  | some copy =>
    have isJson := jsonCopy_isJson one copy first copied
    cases copied' : two.jsonCopy with
    | none => exact iff_of_false (text _ (sortKeys_isJson copy isJson)).symm id
    | some copy' =>
      have isJson' := jsonCopy_isJson two copy' second copied'
      dsimp only
      rw [← sortAll_eq_iff _ _ (withoutProto_isJson copy isJson) (withoutProto_isJson copy' isJson'), ← sortKeys_sortAll,
        ← sortKeys_sortAll]
      exact ⟨jsonText_injective (sortKeys_isJson copy isJson) (sortKeys_isJson copy' isJson'), congrArg JsValue.jsonText⟩

theorem samePayload_beyond (one two : JsValue) (first : one.WellFormed) (second : two.WellFormed) (same : SamePayload one two) :
    SameBeyondProto one two := by
  unfold SamePayload at same
  unfold SameBeyondProto
  cases copied : one.jsonCopy with
  | none =>
    cases copied' : two.jsonCopy with
    | none => trivial
    | some copy =>
      rw [copied, copied'] at same
      exact same
  | some copy =>
    cases copied' : two.jsonCopy with
    | none =>
      rw [copied, copied'] at same
      exact same
    | some copy' =>
      rw [copied, copied'] at same
      exact sameJson_withoutProto copy copy' (jsonCopy_isJson one copy first copied) (jsonCopy_isJson two copy' second copied') same

/-- The canonical encoding decides payload equality for two values exactly when they do not differ in
fields named `__proto__` alone. It always agrees with itself after a trip through the log. -/
theorem encoding_decides_iff (one two : JsValue) (first : one.WellFormed) (second : two.WellFormed) :
    ((canonicalEncoding one = canonicalEncoding two ↔ SamePayload one two) ∧ sameEncoding one.stored one = true) ↔
      (SameBeyondProto one two → SamePayload one two) := by
  rw [canonicalEncoding_eq_iff one two first second]
  constructor
  · rintro ⟨decides, -⟩
    exact decides.mp
  · intro visible
    exact ⟨⟨visible, samePayload_beyond one two first second⟩, sameEncoding_stored one⟩

/-- Two payloads that differ in a field named `__proto__`. -/
theorem proto_unnoticed : ¬ ∀ one two : JsValue, one.WellFormed → two.WellFormed →
    (canonicalEncoding one = canonicalEncoding two ↔ SamePayload one two) := by
  intro decides
  have same := (decides (.object [("__proto__", .bool true)]) (.object []) ⟨by decide, trivial, trivial⟩ ⟨by decide, trivial⟩).mp rfl
  simp [SamePayload, JsValue.jsonCopy, jsonFields, sameJson] at same

/-- Two orders to buy that differ in their item, with a date and a missing field. -/
theorem encoding_decides_iff_orders : ¬ canonicalEncoding (.object [("item", .string "book"), ("10", .number .nan), ("9", .date .epoch)]) =
      canonicalEncoding (.object [("9", .date .epoch), ("10", .number .nan), ("item", .string "pen"), ("note", .undefined)]) := by
  have different : ¬ SameBeyondProto (.object [("item", .string "book"), ("10", .number .nan), ("9", .date .epoch)])
      (.object [("9", .date .epoch), ("10", .number .nan), ("item", .string "pen"), ("note", .undefined)]) := by
    simp [SameBeyondProto, JsValue.jsonCopy, jsonFields, withoutProto, fieldsWithoutProto, sameJson, sameFields]
  intro same
  have decides := (encoding_decides_iff (.object [("item", .string "book"), ("10", .number .nan), ("9", .date .epoch)])
    (.object [("9", .date .epoch), ("10", .number .nan), ("item", .string "pen"), ("note", .undefined)])
    (by simp [JsValue.WellFormed, FieldsWellFormed]) (by simp [JsValue.WellFormed, FieldsWellFormed])).mpr
      fun beyond => absurd beyond different
  exact different (samePayload_beyond _ _ (by simp [JsValue.WellFormed, FieldsWellFormed]) (by simp [JsValue.WellFormed, FieldsWellFormed])
    (decides.1.mp same))

end Encodings

end DurableExecution.Workflow
