import Mathlib.Data.List.TakeWhile
import Mathlib.Tactic.LinearCombination
import DurableExecution.Workflow.JsonText

/-
This file proves that parsing a text that was written for a JSON value yields that value.
-/

namespace DurableExecution.Workflow

section Texts

mutual

/-- The text of a JSON value with a gap after each comma and colon. -/
def JsValue.spacedText (gap : String) : JsValue → String
  | .bool value => if value then "true" else "false"
  | .number value => value.text
  | .string value => quoted value
  | .array items => "[" ++ spacedItems gap items ++ "]"
  | .object fields => "\x7b" ++ spacedFields gap fields ++ "\x7d"
  | _ => "null"

def spacedItems (gap : String) : List JsValue → String
  | [] => ""
  | [item] => item.spacedText gap
  | item :: rest => item.spacedText gap ++ "," ++ gap ++ spacedItems gap rest

def spacedFields (gap : String) : List (String × JsValue) → String
  | [] => ""
  | [(key, value)] => quoted key ++ ":" ++ gap ++ value.spacedText gap
  | (key, value) :: rest => quoted key ++ ":" ++ gap ++ value.spacedText gap ++ "," ++ gap ++ spacedFields gap rest

end

theorem spacedText_null (gap : String) : JsValue.null.spacedText gap = "null" := by
  simp only [JsValue.spacedText]

mutual

/-- `JSON.stringify` leaves no gaps. -/
theorem JsValue.spacedText_empty (value : JsValue) : value.spacedText "" = value.jsonText := by
  cases value with
  | array items => simp only [JsValue.spacedText, JsValue.jsonText, spacedItems_empty items]
  | object fields => simp only [JsValue.spacedText, JsValue.jsonText, spacedFields_empty fields]
  | _ => rfl

theorem spacedItems_empty (items : List JsValue) : spacedItems "" items = itemsText items := by
  cases items with
  | nil => rfl
  | cons item rest =>
    cases rest with
    | nil => exact item.spacedText_empty
    | cons next rest =>
      simp only [spacedItems, itemsText, item.spacedText_empty, spacedItems_empty (next :: rest), String.append_empty]

theorem spacedFields_empty (fields : List (String × JsValue)) : spacedFields "" fields = fieldsText fields := by
  cases fields with
  | nil => rfl
  | cons field rest =>
    obtain ⟨key, value⟩ := field
    cases rest with
    | nil => simp only [spacedFields, fieldsText, value.spacedText_empty, String.append_empty]
    | cons next rest =>
      simp only [spacedFields, fieldsText, value.spacedText_empty, spacedFields_empty (next :: rest), String.append_empty]

end

end Texts

section Numbers

/-- A text that does not go on with a number. -/
def Stops (text : List Char) : Prop :=
  ∀ character after, text = character :: after → character.isDigit = false ∧ character ≠ '.' ∧ character ≠ 'e' ∧ character ≠ 'E'

theorem stops_nil : Stops [] := fun _ _ same => nomatch same

theorem stops_cons {character : Char} {after : List Char}
    (other : character.isDigit = false ∧ character ≠ '.' ∧ character ≠ 'e' ∧ character ≠ 'E') : Stops (character :: after) := by
  intro character' after' same
  cases same
  exact other

def AllDigits (digits : List Char) : Prop := ∀ digit ∈ digits, digit.isDigit = true

theorem toDigits_digits (number : Nat) : AllDigits (Nat.toDigits 10 number) := fun _ listed =>
  Nat.isDigit_of_mem_toDigits (by decide) (by decide) listed

theorem takeWhile_digits {digits rest : List Char} (all : AllDigits digits) (stops : ∀ character after, rest = character :: after →
    character.isDigit = false) : (digits ++ rest).takeWhile Char.isDigit = digits ∧ (digits ++ rest).dropWhile Char.isDigit = rest := by
  have none' : rest.takeWhile Char.isDigit = [] ∧ rest.dropWhile Char.isDigit = rest := by
    cases rest with
    | nil => exact ⟨rfl, rfl⟩
    | cons character after =>
      have stop := stops character after rfl
      rw [List.takeWhile_cons_of_neg (by rw [stop]; decide), List.dropWhile_cons_of_neg (by rw [stop]; decide)]
      exact ⟨rfl, rfl⟩
  rw [List.takeWhile_append_of_pos all, List.dropWhile_append_of_pos all, none'.1, none'.2, List.append_nil]
  exact ⟨rfl, rfl⟩

/-- Digits that may stand for a whole number: there is one, and the first is no needless zero. -/
structure WholeDigits (digits : List Char) : Prop where
  all : AllDigits digits
  some' : digits ≠ []
  canonical : ¬ (digits.head? = some '0' ∧ digits.length ≠ 1)

theorem toDigits_head {number : Nat} (zero : (Nat.toDigits 10 number).head? = some '0') : number = 0 := by
  induction number using Nat.strongRecOn with
  | _ number ih =>
    by_cases small : number < 10
    · rw [Nat.toDigits_of_lt_base small, List.head?_cons, Option.some.injEq, Nat.digitChar_eq_zero] at zero
      exact zero
    · rw [Nat.toDigits_of_base_le (by decide) (Nat.le_of_not_lt small), List.head?_append_of_ne_nil _ Nat.toDigits_ne_nil] at zero
      have shorter := ih (number / 10) (by omega) zero
      omega

theorem toDigits_whole (number : Nat) : WholeDigits (Nat.toDigits 10 number) := by
  refine ⟨toDigits_digits number, Nat.toDigits_ne_nil, ?_⟩
  rintro ⟨zero, long⟩
  rw [toDigits_head zero] at long
  exact long rfl

theorem parseUnsigned_whole {whole rest : List Char} (digits : WholeDigits whole) (stops : Stops rest) :
    parseUnsigned (whole ++ rest) = some ((Nat.ofDigitChars 10 whole 0 : Rat), rest) := by
  have scanned := takeWhile_digits digits.all fun character after same => (stops character after same).1
  have fine : ¬ (whole = [] ∨ (whole.head? = some '0' ∧ whole.length ≠ 1)) := not_or.mpr ⟨digits.some', digits.canonical⟩
  unfold parseUnsigned
  simp only [scanned.1, scanned.2, if_neg fine]
  cases rest with
  | nil => simp
  | cons character after =>
    obtain ⟨-, point, small, large⟩ := stops character after rfl
    simp only [List.head?_cons, Option.some.injEq, point, false_and, if_false]
    split <;> simp_all

theorem parseUnsigned_fraction {whole fraction rest : List Char} (digits : WholeDigits whole) (all : AllDigits fraction)
    (some' : fraction ≠ []) (stops : Stops rest) : parseUnsigned (whole ++ '.' :: (fraction ++ rest)) =
      some ((Nat.ofDigitChars 10 (whole ++ fraction) 0 : Rat) / 10 ^ fraction.length, rest) := by
  have point : ∀ character after, '.' :: (fraction ++ rest) = character :: after → character.isDigit = false := by
    intro character after same
    cases same
    decide
  have scanned := takeWhile_digits digits.all point
  have further := takeWhile_digits all fun character after same => (stops character after same).1
  have fine : ¬ (whole = [] ∨ (whole.head? = some '0' ∧ whole.length ≠ 1)) := not_or.mpr ⟨digits.some', digits.canonical⟩
  unfold parseUnsigned
  simp only [scanned.1, scanned.2, if_neg fine, further.1, further.2, some', and_false, if_false]
  cases rest with
  | nil => rfl
  | cons character after =>
    obtain ⟨-, -, small, large⟩ := stops character after rfl
    simp only [small, large, or_self, if_false]

/-- A denominator that divides a power of ten divides the power that its text has room for. -/
theorem dvd_decimalPlaces (fuel denominator : Nat) (decimal : denominator ∣ 10 ^ fuel) :
    denominator ∣ 10 ^ decimalPlaces denominator fuel := by
  induction fuel generalizing denominator with
  | zero => exact decimal
  | succ fuel ih =>
    by_cases one : denominator = 1
    · rw [one]
      exact one_dvd _
    · have positive : 0 < Nat.gcd denominator 10 := Nat.gcd_pos_of_pos_right _ (by decide)
      obtain ⟨reduced, whole⟩ := Nat.gcd_dvd_left denominator 10
      obtain ⟨other, ten⟩ := Nat.gcd_dvd_right denominator 10
      have divided : denominator / Nat.gcd denominator 10 = reduced := Nat.div_eq_of_eq_mul_right positive whole
      have coprime : Nat.Coprime reduced other := by
        have parts := Nat.coprime_div_gcd_div_gcd positive
        rw [divided] at parts
        have right : 10 / Nat.gcd denominator 10 = other := Nat.div_eq_of_eq_mul_right positive ten
        rw [right] at parts
        exact parts
      have smaller : reduced ∣ 10 ^ fuel := by
        have both : Nat.gcd denominator 10 * reduced ∣ Nat.gcd denominator 10 * (other * 10 ^ fuel) := by
          rw [← whole, ← Nat.mul_assoc, ← ten, ← Nat.pow_succ']
          exact decimal
        exact coprime.dvd_of_dvd_mul_left (Nat.dvd_of_mul_dvd_mul_left positive both)
      rw [decimalPlaces, if_neg one, divided, Nat.add_comm, Nat.pow_succ']
      calc
        denominator = Nat.gcd denominator 10 * reduced := whole
        _ ∣ 10 * 10 ^ decimalPlaces reduced fuel := Nat.mul_dvd_mul (Nat.gcd_dvd_right _ _) (ih reduced smaller)

/-- A number whose text is exact: it has at most 1100 decimal places. -/
def IsDecimal (value : Rat) : Prop := value.den ∣ 10 ^ 1100

theorem padded_chars {width number : Nat} (fits : number < 10 ^ width) (positive : 0 < width) :
    (padded width number).toList.length = width ∧ AllDigits (padded width number).toList ∧
      ∀ start, Nat.ofDigitChars 10 (padded width number).toList start = 10 ^ width * start + number := by
  have chars : (padded width number).toList = List.replicate (width - (Nat.toDigits 10 number).length) '0' ++ Nat.toDigits 10 number := by
    rw [padded, String.toList_append, String.toList_ofList, Nat.toString_eq_repr, Nat.toList_repr, Nat.repr_eq_ofList_toDigits,
      String.length_ofList]
  have short : (Nat.toDigits 10 number).length ≤ width := (Nat.length_toDigits_le_iff (by decide) positive).mpr fits
  refine ⟨?_, ?_, fun start => ?_⟩
  · rw [chars, List.length_append, List.length_replicate]
    omega
  · rw [chars]
    intro digit listed
    rcases List.mem_append.mp listed with zero | own
    · rw [List.eq_of_mem_replicate zero]
      decide
    · exact toDigits_digits number digit own
  · have places : (Nat.toDigits 10 number).length + (width - (Nat.toDigits 10 number).length) = width := by omega
    rw [chars, Nat.ofDigitChars_append, Nat.ofDigitChars_replicate_zero, Nat.ofDigitChars_eq_ofDigitChars_zero,
      Nat.ofDigitChars_ten_toDigits,
      ← Nat.mul_assoc, ← Nat.pow_add, places]

theorem withoutZeros_append (digits : List Char) :
    digits = withoutZeros digits ++ List.replicate (digits.length - (withoutZeros digits).length) '0' := by
  have zeros : digits.reverse.takeWhile (· == '0') = List.replicate (digits.reverse.takeWhile (· == '0')).length '0' :=
    List.eq_replicate_of_mem fun digit listed => beq_iff_eq.mp (List.mem_takeWhile_imp (p := (· == '0')) listed)
  have split : digits = withoutZeros digits ++ List.replicate (digits.reverse.takeWhile (· == '0')).length '0' := by
    rw [withoutZeros, ← List.reverse_replicate, ← zeros, ← List.reverse_append, List.takeWhile_append_dropWhile, List.reverse_reverse]
  have length := congrArg List.length split
  rw [List.length_append, List.length_replicate] at length
  rw [length, Nat.add_sub_cancel_left]
  exact split

/-- The significant digits of a number, and the zeros that follow them. -/
theorem significant_digits {digits : Nat} (nonzero : digits ≠ 0) :
    ∃ first more zeros, withoutZeros (Nat.toDigits 10 digits) = first :: more ∧ AllDigits (first :: more) ∧
      (Nat.toDigits 10 digits).length = more.length + 1 + zeros ∧ digits = 10 ^ zeros * Nat.ofDigitChars 10 (first :: more) 0 := by
  have split := withoutZeros_append (Nat.toDigits 10 digits)
  have all := toDigits_digits digits
  have value : Nat.ofDigitChars 10 (Nat.toDigits 10 digits) 0 = digits := Nat.ofDigitChars_ten_toDigits
  generalize (Nat.toDigits 10 digits).length - (withoutZeros (Nat.toDigits 10 digits)).length = zeros at split
  cases shown : withoutZeros (Nat.toDigits 10 digits) with
  | nil =>
    rw [shown, List.nil_append] at split
    rw [split, Nat.ofDigitChars_replicate_zero, Nat.mul_zero] at value
    exact absurd value.symm nonzero
  | cons first more =>
    rw [shown] at split
    refine ⟨first, more, zeros, rfl, fun digit listed => ?_, ?_, ?_⟩
    · apply all
      rw [split]
      exact List.mem_append_left _ listed
    · rw [split, List.length_append, List.length_cons, List.length_replicate]
    · rw [split, Nat.ofDigitChars_append, Nat.ofDigitChars_replicate_zero] at value
      exact value.symm

/-- The digits of a number after the first one, behind a point. -/
def afterPoint (more : List Char) : List Char := if more = [] then [] else '.' :: more

theorem exponentText_chars {digits : Nat} {first : Char} {more : List Char}
    (shown : withoutZeros (Nat.toDigits 10 digits) = first :: more) (places : Nat) :
    (exponentText digits places).toList = first :: (afterPoint more ++ 'e' ::
      (if ((Nat.toDigits 10 digits).length : Int) - 1 - places < 0 then '-' else '+') ::
        Nat.toDigits 10 (((Nat.toDigits 10 digits).length : Int) - 1 - places).natAbs) := by
  have plain : (toString digits).toList = Nat.toDigits 10 digits := by rw [Nat.toString_eq_repr, Nat.toList_repr]
  have length : (toString digits).length = (Nat.toDigits 10 digits).length := by rw [← plain, String.length_toList]
  rw [exponentText]
  simp only [plain, length, shown]
  rw [String.toList_append, String.toList_append, String.toList_ofList, Nat.toString_eq_repr, Nat.toList_repr]
  have mark (negative : Prop) [Decidable negative] :
      (if negative then "e-" else "e+").toList = ['e', if negative then '-' else '+'] := by
    split <;> rfl
  rw [mark]
  cases more with
  | nil => rfl
  | cons second rest => simp [afterPoint]

theorem parseUnsigned_exponent {first sign : Char} {more exponent rest : List Char} (digits : AllDigits (first :: more))
    (signed : sign = '+' ∨ sign = '-') (all : AllDigits exponent) (some' : exponent ≠ []) (stops : Stops rest) :
    parseUnsigned (first :: (afterPoint more ++ 'e' :: sign :: (exponent ++ rest))) =
      some (if sign = '-' then (Nat.ofDigitChars 10 (first :: more) 0 : Rat) / 10 ^ more.length / 10 ^ Nat.ofDigitChars 10 exponent 0
        else (Nat.ofDigitChars 10 (first :: more) 0 : Rat) / 10 ^ more.length * 10 ^ Nat.ofDigitChars 10 exponent 0, rest) := by
  have single : AllDigits [first] := fun digit listed => digits digit (by rw [List.mem_singleton.mp listed]; exact List.mem_cons_self)
  have others : AllDigits more := fun digit listed => digits digit (List.mem_cons_of_mem _ listed)
  have mark : ('e' : Char).isDigit = false := by decide
  have point : ('.' : Char).isDigit = false := by decide
  have powers := takeWhile_digits all fun character after same => (stops character after same).1
  have decimals := @takeWhile_digits more ('e' :: sign :: (exponent ++ rest)) others fun character after same => by
    cases same
    exact mark
  have whole := @takeWhile_digits [first] (afterPoint more ++ 'e' :: sign :: (exponent ++ rest)) single fun character after same => by
    unfold afterPoint at same
    split at same <;> cases same
    · exact mark
    · exact point
  rw [List.singleton_append] at whole
  unfold parseUnsigned
  simp only [whole.1, whole.2]
  rw [if_neg (by simp)]
  unfold afterPoint
  by_cases alone : more = []
  · subst alone
    rcases signed with rfl | rfl <;> simp [powers.1, powers.2, some']
  · rcases signed with rfl | rfl <;> simp [alone, decimals.1, decimals.2, powers.1, powers.2, some']

theorem digitsText_parsed (digits places : Nat) {rest : List Char} (stops : Stops rest) :
    parseUnsigned ((digitsText digits places).toList ++ rest) = some ((digits : Rat) / 10 ^ places, rest) := by
  unfold digitsText
  dsimp only
  split
  · next far =>
      obtain ⟨first, more, zeros, shown, all, length, value⟩ := significant_digits far.1
      rw [exponentText_chars shown, List.cons_append, List.append_assoc, List.cons_append, List.cons_append,
        parseUnsigned_exponent all (by split <;> simp) (toDigits_digits _) Nat.toDigits_ne_nil stops, Nat.ofDigitChars_ten_toDigits]
      have quotient : (digits : Rat) = 10 ^ zeros * Nat.ofDigitChars 10 (first :: more) 0 := by exact_mod_cast value
      generalize Nat.ofDigitChars 10 (first :: more) 0 = significant at quotient ⊢
      have ten : (10 : Rat) ≠ 0 := by norm_num
      rw [quotient, length]
      by_cases negative : ((more.length + 1 + zeros : Nat) : Int) - 1 - places < 0
      · have power : places = more.length + (((more.length + 1 + zeros : Nat) : Int) - 1 - places).natAbs + zeros := by omega
        rw [if_pos negative, if_pos rfl]
        generalize (((more.length + 1 + zeros : Nat) : Int) - 1 - places).natAbs = exponent at power ⊢
        rw [power, pow_add, pow_add]
        field_simp
      · have power : more.length + zeros = places + (((more.length + 1 + zeros : Nat) : Int) - 1 - places).natAbs := by omega
        rw [if_neg negative, if_neg (by decide)]
        generalize (((more.length + 1 + zeros : Nat) : Int) - 1 - places).natAbs = exponent at power ⊢
        have powers : (10 : Rat) ^ more.length * 10 ^ zeros = 10 ^ places * 10 ^ exponent := by rw [← pow_add, power, pow_add]
        rw [Option.some.injEq, Prod.mk.injEq]
        refine ⟨?_, rfl⟩
        field_simp
        linear_combination (-(significant : Rat)) * powers
  · by_cases none' : places = 0
    · simp only [none', if_true, pow_zero, div_one]
      rw [Nat.toString_eq_repr, Nat.toList_repr, parseUnsigned_whole (toDigits_whole _) stops, Nat.ofDigitChars_ten_toDigits]
    · obtain ⟨length, all, value'⟩ := padded_chars (Nat.mod_lt digits (Nat.pow_pos (by decide))) (Nat.pos_of_ne_zero none')
      simp only [none', if_false]
      have point : ".".toList = ['.'] := rfl
      rw [String.toList_append, String.toList_append, List.append_assoc, List.append_assoc, Nat.toString_eq_repr, Nat.toList_repr, point,
        List.singleton_append, parseUnsigned_fraction (toDigits_whole _) all (List.ne_nil_of_length_pos (by rw [length]; omega)) stops,
        Nat.ofDigitChars_append, Nat.ofDigitChars_ten_toDigits, value', length, Nat.div_add_mod]

/-- The text of a number without its sign. -/
def unsignedText (value : Rat) : String :=
  let places := decimalPlaces value.den 1100
  digitsText (value.num.natAbs * 10 ^ places / value.den) places

theorem finite_text (value : Rat) : (JsNumber.finite value).text = (if value.num < 0 then "-" else "") ++ unsignedText value := rfl

theorem parseUnsigned_text {value : Rat} (decimal : IsDecimal value) {rest : List Char} (stops : Stops rest) :
    parseUnsigned ((unsignedText value).toList ++ rest) = some ((value.num.natAbs : Rat) / value.den, rest) := by
  have divides := dvd_decimalPlaces 1100 value.den decimal
  rw [unsignedText]
  generalize decimalPlaces value.den 1100 = places at divides ⊢
  have whole : value.num.natAbs * 10 ^ places / value.den * value.den = value.num.natAbs * 10 ^ places :=
    Nat.div_mul_cancel (Nat.dvd_mul_left_of_dvd divides _)
  have shown : ((value.num.natAbs * 10 ^ places / value.den : Nat) : Rat) / 10 ^ places = (value.num.natAbs : Rat) / value.den := by
    have positive : (value.den : Rat) ≠ 0 := Nat.cast_ne_zero.mpr value.den_nz
    rw [div_eq_div_iff (pow_ne_zero _ (by norm_num)) positive]
    exact_mod_cast whole
  rw [digitsText_parsed _ _ stops, shown]

/-- A character of the text of a number without its sign, and the first one. -/
theorem digitsText_chars (digits places : Nat) :
    (∃ digit after, (digitsText digits places).toList = digit :: after ∧ digit.isDigit = true) ∧
      ∀ character ∈ (digitsText digits places).toList, character.isDigit = true ∨ character ∈ ['.', 'e', '+', '-'] := by
  have head : ∀ number rest, ∃ digit after, Nat.toDigits 10 number ++ rest = digit :: after ∧ digit.isDigit = true := by
    intro number rest
    obtain ⟨digit, more, same⟩ := List.exists_cons_of_ne_nil (Nat.toDigits_ne_nil (n := number) (b := 10))
    refine ⟨digit, more ++ rest, by rw [same]; rfl, ?_⟩
    apply toDigits_digits number
    rw [same]
    exact List.mem_cons_self
  unfold digitsText
  dsimp only
  split
  · next far =>
      obtain ⟨first, more, zeros, shown, all, -, -⟩ := significant_digits far.1
      rw [exponentText_chars shown]
      refine ⟨⟨first, _, rfl, all first List.mem_cons_self⟩, fun character listed => ?_⟩
      rcases List.mem_cons.mp listed with rfl | listed
      · exact .inl (all _ List.mem_cons_self)
      · rcases List.mem_append.mp listed with fraction | exponent
        · unfold afterPoint at fraction
          split at fraction
          · cases fraction
          · rcases List.mem_cons.mp fraction with rfl | digit
            · exact .inr (by simp)
            · exact .inl (all _ (List.mem_cons_of_mem _ digit))
        · rcases List.mem_cons.mp exponent with rfl | exponent
          · exact .inr (by simp)
          · rcases List.mem_cons.mp exponent with rfl | digit
            · exact .inr (by split <;> simp)
            · exact .inl (toDigits_digits _ _ digit)
  · by_cases whole : places = 0
    · simp only [whole, if_true]
      rw [Nat.toString_eq_repr, Nat.toList_repr]
      refine ⟨?_, fun character listed => .inl (toDigits_digits _ _ listed)⟩
      have first := head digits []
      rwa [List.append_nil] at first
    · simp only [whole, if_false]
      rw [String.toList_append, String.toList_append, List.append_assoc, Nat.toString_eq_repr, Nat.toList_repr]
      refine ⟨head _ _, fun character listed => ?_⟩
      rcases List.mem_append.mp listed with front | rest
      · exact .inl (toDigits_digits _ _ front)
      · rcases List.mem_append.mp rest with point | back
        · have own : character = '.' := List.mem_singleton.mp point
          exact .inr (by simp [own])
        · obtain ⟨-, all, -⟩ := padded_chars (Nat.mod_lt digits (Nat.pow_pos (by decide))) (Nat.pos_of_ne_zero whole)
          exact .inl (all _ back)

theorem unsignedText_head (value : Rat) : ∃ digit after, (unsignedText value).toList = digit :: after ∧ digit.isDigit = true :=
  (digitsText_chars _ _).1

theorem unsignedText_chars (value : Rat) : ∀ character ∈ (unsignedText value).toList,
    character.isDigit = true ∨ character ∈ ['.', 'e', '+', '-'] :=
  (digitsText_chars _ _).2

theorem parseNumber_plain {text : List Char} (positive : ∀ after, text ≠ '-' :: after) :
    parseNumber text = (parseUnsigned text).map fun parsed => (.finite parsed.1, parsed.2) := by
  rw [parseNumber]
  exact positive

/-- `JSON.parse` reads the text of a number back. -/
theorem parseNumber_text {value : Rat} (decimal : IsDecimal value) {rest : List Char} (stops : Stops rest) :
    parseNumber ((JsNumber.finite value).text.toList ++ rest) = some (.finite value, rest) := by
  have quotient : (value.num : Rat) / value.den = value := Rat.num_div_den value
  rw [finite_text, String.toList_append]
  by_cases negative : value.num < 0
  · rw [if_pos negative]
    change parseNumber ('-' :: ((unsignedText value).toList ++ rest)) = _
    have absolute : ((value.num.natAbs : Rat)) = -(value.num : Rat) := by
      have whole : (value.num.natAbs : Int) = -value.num := by omega
      rw [← Int.cast_natCast, whole, Int.cast_neg]
    have shown : (value.num.natAbs : Rat) / value.den = -value := by
      rw [absolute, neg_div, quotient]
    have nonzero : -value ≠ 0 := by
      intro zero
      rw [neg_eq_zero] at zero
      rw [zero] at negative
      exact absurd negative (by decide)
    rw [parseNumber, parseUnsigned_text decimal stops, shown]
    simp only [Option.map_some, if_neg nonzero, neg_neg]
  · rw [if_neg negative]
    have absolute : ((value.num.natAbs : Rat)) = (value.num : Rat) := by
      have whole : (value.num.natAbs : Int) = value.num := by omega
      rw [← Int.cast_natCast, whole]
    obtain ⟨digit, after, same, isDigit⟩ := unsignedText_head value
    change parseNumber ((unsignedText value).toList ++ rest) = _
    rw [parseNumber_plain, parseUnsigned_text decimal stops, absolute, quotient]
    · rfl
    · intro after' minus
      rw [same] at minus
      cases minus
      exact absurd isDigit (by decide)

end Numbers

section Strings

theorem hexDigit_digitChar : ∀ number, number < 16 → hexDigit (Nat.digitChar number) = some number := by
  decide

/-- The character of a code. -/
theorem eq_of_code {character : Char} {code : Nat} (same : character.toNat = code) : character = Char.ofNat code := by
  rw [← same, Char.ofNat_toNat]

/-- A character after an escape. -/
theorem parseChars_mark {mark plain : Char} (named : unescape mark = some plain) (rest : List Char) :
    parseChars ('\\' :: mark :: rest) = (parseChars rest).map fun parsed => (plain :: parsed.1, parsed.2) := by
  have other : mark ≠ 'u' := by
    rintro rfl
    cases named
  rw [parseChars]
  · simp only [Char.reduceEq, if_false, if_true]
    rw [named]
    cases parseChars rest <;> rfl
  · intro one two three four after same
    exact absurd same other

theorem parseChars_escaped (character : Char) (rest : List Char) :
    parseChars ((escaped character).toList ++ rest) = (parseChars rest).map fun parsed => (character :: parsed.1, parsed.2) := by
  unfold escaped
  dsimp only
  split
  · next code =>
      cases eq_of_code code
      exact parseChars_mark rfl rest
  split
  · next code =>
      cases eq_of_code code
      exact parseChars_mark rfl rest
  split
  · next code =>
      cases eq_of_code code
      exact parseChars_mark rfl rest
  split
  · next code =>
      cases eq_of_code code
      exact parseChars_mark rfl rest
  split
  · next code =>
      cases eq_of_code code
      exact parseChars_mark rfl rest
  split
  · next code =>
      cases eq_of_code code
      exact parseChars_mark rfl rest
  split
  · next code =>
      cases eq_of_code code
      exact parseChars_mark rfl rest
  split
  · next control =>
      have high := hexDigit_digitChar (character.toNat / 16) (by omega)
      have low := hexDigit_digitChar (character.toNat % 16) (by omega)
      have zero : hexDigit '0' = some 0 := rfl
      have sum : 0 * 4096 + 0 * 256 + character.toNat / 16 * 16 + character.toNat % 16 = character.toNat := by omega
      rw [String.toList_append, String.toList_ofList, String.toList_ofList]
      simp only [List.cons_append, List.nil_append]
      rw [parseChars]
      simp only [Char.reduceEq, if_false, if_true, zero, high, low, Option.bind_eq_bind, Option.bind_some, sum, Char.ofNat_toNat]
      have valid : character.toNat.isValidChar := character.valid
      cases parseChars rest with
      | none => rfl
      | some parsed => simp only [Option.bind_some, if_pos valid, Option.map_some]
  · next quote backslash _ _ _ _ _ control =>
      have notQuote : character ≠ '"' := by
        rintro rfl
        exact quote rfl
      have notBackslash : character ≠ '\\' := by
        rintro rfl
        exact backslash rfl
      rw [String.toList_ofList]
      change parseChars (character :: rest) = _
      rw [parseChars.eq_def]
      simp only [notQuote, notBackslash, control, if_false]

theorem parseChars_quoted (characters rest : List Char) :
    parseChars ((String.join (characters.map escaped)).toList ++ '"' :: rest) = some (characters, rest) := by
  induction characters with
  | nil =>
    change parseChars ('"' :: rest) = _
    rw [parseChars.eq_def]
    rfl
  | cons character characters ih =>
    rw [List.map_cons, String.join_cons, String.toList_append, List.append_assoc, parseChars_escaped, ih]
    rfl

theorem quoted_chars (text : String) (rest : List Char) :
    (quoted text).toList ++ rest = '"' :: ((String.join (text.toList.map escaped)).toList ++ '"' :: rest) := by
  have quote : "\"".toList = ['"'] := rfl
  rw [quoted, String.toList_append, String.toList_append, quote, List.append_assoc, List.append_assoc]
  rfl

end Strings

section Values

mutual

/-- A value as `JSON.parse` returns it: its numbers have exact texts, and its objects distinct keys. -/
def JsValue.IsJson : JsValue → Prop
  | .null | .bool _ | .string _ => True
  | .number (.finite value) => IsDecimal value
  | .array items => ItemsJson items
  | .object fields => (fields.map Prod.fst).Nodup ∧ FieldsJson fields
  | _ => False

def ItemsJson : List JsValue → Prop
  | [] => True
  | item :: rest => item.IsJson ∧ ItemsJson rest

def FieldsJson : List (String × JsValue) → Prop
  | [] => True
  | (_, value) :: rest => value.IsJson ∧ FieldsJson rest

end

mutual

/-- How much fuel the parser needs for the text of a value. -/
def JsValue.weight : JsValue → Nat
  | .array items => itemsWeight items + 1
  | .object fields => fieldsWeight fields + 1
  | _ => 1

def itemsWeight : List JsValue → Nat
  | [] => 0
  | item :: rest => item.weight + itemsWeight rest + 1

def fieldsWeight : List (String × JsValue) → Nat
  | [] => 0
  | (_, value) :: rest => value.weight + fieldsWeight rest + 1

end

theorem skipSpaces_solid {character : Char} (solid : isJsonSpace character = false) (rest : List Char) :
    skipSpaces (character :: rest) = character :: rest :=
  List.dropWhile_cons_of_neg (by rw [solid]; decide)

theorem skipSpaces_gap {gap : List Char} (spaces : ∀ character ∈ gap, isJsonSpace character = true) (rest : List Char) :
    skipSpaces (gap ++ rest) = skipSpaces rest := List.dropWhile_append_of_pos spaces

theorem parseValue_gap {gap : List Char} (spaces : ∀ character ∈ gap, isJsonSpace character = true) (fuel : Nat) (rest : List Char) :
    parseValue fuel (gap ++ rest) = parseValue fuel rest := by
  cases fuel with
  | zero => rw [parseValue, parseValue]
  | succ fuel => rw [parseValue, parseValue, skipSpaces_gap spaces]

theorem parseFields_gap {gap : List Char} (spaces : ∀ character ∈ gap, isJsonSpace character = true) (fuel : Nat) (rest : List Char) :
    parseFields fuel (gap ++ rest) = parseFields fuel rest := by
  cases fuel with
  | zero => rw [parseFields, parseFields]
  | succ fuel => rw [parseFields, parseFields, skipSpaces_gap spaces]

theorem parseItems_gap {gap : List Char} (spaces : ∀ character ∈ gap, isJsonSpace character = true) (fuel : Nat) (rest : List Char) :
    parseItems fuel (gap ++ rest) = parseItems fuel rest := by
  cases fuel with
  | zero => rw [parseItems, parseItems]
  | succ fuel => rw [parseItems, parseItems, parseValue_gap spaces]

theorem parseWord_text (word : String) (value : JsValue) (rest : List Char) :
    parseWord word value (word.toList ++ rest) = some (value, rest) := by
  rw [parseWord, if_pos (List.prefix_append _ _), ← String.length_toList, List.drop_left]

/-- Fields of distinct keys are kept as they come. -/
theorem setFields_distinct (fields start : List (String × JsValue)) (distinct : ((start ++ fields).map Prod.fst).Nodup) :
    fields.foldl setField start = start ++ fields := by
  induction fields generalizing start with
  | nil => rw [List.append_nil, List.foldl_nil]
  | cons field fields ih =>
    have new : (start.any fun other => other.1 = field.1) = false := by
      rw [List.any_eq_false]
      intro other listed same
      rw [List.map_append, List.map_cons] at distinct
      have apart := (List.nodup_append.mp distinct).2.2
      exact apart other.1 (List.mem_map_of_mem listed) field.1 List.mem_cons_self (of_decide_eq_true same)
    have added : setField start field = start ++ [field] := by
      rw [setField, if_neg (by rw [new]; decide)]
    have joined : start ++ [field] ++ fields = start ++ field :: fields := by
      rw [List.append_assoc, List.singleton_append]
    rw [List.foldl_cons, added, ih (start ++ [field]) (joined ▸ distinct), joined]

/-- The first character of a number. -/
theorem number_head (value : Rat) : ∃ character after, (JsNumber.finite value).text.toList = character :: after ∧
    (character.isDigit = true ∨ character = '-') := by
  obtain ⟨digit, after, same, isDigit⟩ := unsignedText_head value
  rw [finite_text, String.toList_append, same]
  by_cases negative : value.num < 0
  · rw [if_pos negative]
    exact ⟨'-', digit :: after, rfl, .inr rfl⟩
  · rw [if_neg negative]
    exact ⟨digit, after, rfl, .inl isDigit⟩

/-- A character that begins a number begins nothing else. -/
theorem number_mark {character : Char} (begins : character.isDigit = true ∨ character = '-') :
    isJsonSpace character = false ∧ character ≠ 'n' ∧ character ≠ 't' ∧ character ≠ 'f' ∧ character ≠ '"' ∧ character ≠ '[' ∧
      character ≠ '\x7b' := by
  rcases begins with isDigit | rfl
  · refine ⟨?_, ?_, ?_, ?_, ?_, ?_, ?_⟩
    · simp only [isJsonSpace, Bool.or_eq_false_iff, decide_eq_false_iff_not]
      refine ⟨⟨⟨?_, ?_⟩, ?_⟩, ?_⟩ <;> rintro rfl <;> exact absurd isDigit (by decide)
    all_goals
      rintro rfl
      exact absurd isDigit (by decide)
  · decide

/-- The text of a JSON value begins with a character that is no space and closes no array. -/
theorem spacedText_head (gap : String) (value : JsValue) (isJson : value.IsJson) :
    ∃ character after, (value.spacedText gap).toList = character :: after ∧ isJsonSpace character = false ∧ character ≠ ']' := by
  have marked : ∀ (mark : Char) (text : String), isJsonSpace mark = false → mark ≠ ']' →
      ∃ character after, (String.ofList [mark] ++ text).toList = character :: after ∧ isJsonSpace character = false ∧ character ≠ ']' := by
    intro mark text solid other
    exact ⟨mark, text.toList, by rw [String.toList_append, String.toList_ofList]; rfl, solid, other⟩
  cases value with
  | null => exact ⟨'n', "ull".toList, by rw [spacedText_null]; rfl, by decide, by decide⟩
  | bool flag =>
    cases flag with
    | true => exact ⟨'t', "rue".toList, by rw [JsValue.spacedText]; rfl, by decide, by decide⟩
    | false => exact ⟨'f', "alse".toList, by rw [JsValue.spacedText]; rfl, by decide, by decide⟩
  | number number =>
    cases number with
    | finite value =>
      obtain ⟨character, after, same, begins⟩ := number_head value
      refine ⟨character, after, same, (number_mark begins).1, ?_⟩
      rintro rfl
      rcases begins with isDigit | minus
      · exact absurd isDigit (by decide)
      · exact absurd minus (by decide)
    | _ => exact isJson.elim
  | string text => exact ⟨'"', _, by rw [JsValue.spacedText, ← List.append_nil (quoted text).toList, quoted_chars], by decide, by decide⟩
  | array items =>
    rw [JsValue.spacedText, String.append_assoc]
    exact marked '[' _ (by decide) (by decide)
  | object fields =>
    rw [JsValue.spacedText, String.append_assoc]
    exact marked '\x7b' _ (by decide) (by decide)
  | _ => exact isJson.elim

theorem spacedItems_cons (gap : String) (item next : JsValue) (more : List JsValue) (rest : List Char) :
    (spacedItems gap (item :: next :: more)).toList ++ rest =
      (item.spacedText gap).toList ++ ',' :: (gap.toList ++ ((spacedItems gap (next :: more)).toList ++ rest)) := by
  have comma : ",".toList = [','] := rfl
  rw [spacedItems]
  · simp only [String.toList_append, List.append_assoc, comma, List.nil_append, List.cons_append]
  · exact fun same => nomatch same

theorem spacedFields_one (gap key : String) (value : JsValue) (rest : List Char) : (spacedFields gap [(key, value)]).toList ++ rest =
      (quoted key).toList ++ ':' :: (gap.toList ++ ((value.spacedText gap).toList ++ rest)) := by
  have colon : ":".toList = [':'] := rfl
  rw [spacedFields]
  simp only [String.toList_append, List.append_assoc, colon, List.nil_append, List.cons_append]

theorem spacedFields_cons (gap key : String) (value : JsValue) (next : String × JsValue) (more : List (String × JsValue))
    (rest : List Char) : (spacedFields gap ((key, value) :: next :: more)).toList ++ rest =
      (quoted key).toList ++ ':' :: (gap.toList ++ ((value.spacedText gap).toList ++
        ',' :: (gap.toList ++ ((spacedFields gap (next :: more)).toList ++ rest)))) := by
  have colon : ":".toList = [':'] := rfl
  have comma : ",".toList = [','] := rfl
  rw [spacedFields]
  · simp only [String.toList_append, List.append_assoc, colon, comma, List.nil_append, List.cons_append]
  · exact fun same => nomatch same

theorem itemsText_head (gap : String) (item : JsValue) (isJson : item.IsJson) (more : List JsValue) (rest : List Char) :
    (skipSpaces ((spacedItems gap (item :: more)).toList ++ rest)).head? ≠ some ']' := by
  obtain ⟨character, after, same, solid, other⟩ := spacedText_head gap item isJson
  have begins : ∃ later, (spacedItems gap (item :: more)).toList ++ rest = character :: later := by
    cases more with
    | nil => exact ⟨after ++ rest, by rw [spacedItems, same, List.cons_append]⟩
    | cons next more => exact ⟨_, by rw [spacedItems_cons, same, List.cons_append]⟩
  obtain ⟨later, begins⟩ := begins
  rw [begins, skipSpaces_solid solid, List.head?_cons]
  exact fun closes => other (Option.some.inj closes)

/-- A field's text begins with the quote of its key. -/
theorem fieldsText_quote (gap : String) (field : String × JsValue) (more : List (String × JsValue)) (rest : List Char) :
    ∃ later, (spacedFields gap (field :: more)).toList ++ rest = '"' :: later := by
  obtain ⟨key, value⟩ := field
  cases more with
  | nil => exact ⟨_, by rw [spacedFields_one, quoted_chars]⟩
  | cons next more => exact ⟨_, by rw [spacedFields_cons, quoted_chars]⟩

theorem fieldsText_head (gap : String) (field : String × JsValue) (more : List (String × JsValue)) (rest : List Char) :
    (skipSpaces ((spacedFields gap (field :: more)).toList ++ rest)).head? ≠ some '\x7d' := by
  obtain ⟨later, begins⟩ := fieldsText_quote gap field more rest
  rw [begins, skipSpaces_solid (by decide), List.head?_cons]
  decide

theorem stops_mark {mark : Char} (rest : List Char) (ends : mark = ',' ∨ mark = ']' ∨ mark = '\x7d') : Stops (mark :: rest) := by
  rcases ends with rfl | rfl | rfl <;> exact stops_cons (by decide)

variable {gap : String} (spaces : ∀ character ∈ gap.toList, isJsonSpace character = true)
include spaces

mutual

/-- The parser reads the text of a JSON value back, whatever follows it. -/
theorem parseValue_text (value : JsValue) (isJson : value.IsJson) (fuel : Nat) (enough : value.weight ≤ fuel) (rest : List Char)
    (stops : Stops rest) : parseValue fuel ((value.spacedText gap).toList ++ rest) = some (value, rest) := by
  obtain ⟨fuel, rfl⟩ : ∃ less, fuel = less + 1 := by
    refine ⟨fuel - 1, ?_⟩
    cases value <;> simp only [JsValue.weight] at enough <;> omega
  cases value with
  | null =>
    have word : "null".toList = 'n' :: "ull".toList := rfl
    rw [spacedText_null, word, List.cons_append, parseValue, skipSpaces_solid (by decide)]
    simp only [if_true, parseWord_text]
  | bool flag =>
    cases flag with
    | true =>
      have word : "true".toList = 't' :: "rue".toList := rfl
      rw [JsValue.spacedText, if_pos rfl, word, List.cons_append, parseValue, skipSpaces_solid (by decide)]
      simp only [Char.reduceEq, if_false, if_true, parseWord_text]
    | false =>
      have word : "false".toList = 'f' :: "alse".toList := rfl
      rw [JsValue.spacedText, if_neg Bool.false_ne_true, word, List.cons_append, parseValue, skipSpaces_solid (by decide)]
      simp only [Char.reduceEq, if_false, if_true, parseWord_text]
  | number number =>
    cases number with
    | finite value =>
      obtain ⟨character, after, same, begins⟩ := number_head value
      obtain ⟨solid, notN, notT, notF, notQuote, notBracket, notBrace⟩ := number_mark begins
      have parsed := parseNumber_text isJson stops
      rw [JsValue.spacedText]
      rw [same, List.cons_append] at parsed ⊢
      rw [parseValue, skipSpaces_solid solid]
      simp only [notN, notT, notF, notQuote, notBracket, notBrace, if_false, parsed, Option.map_some]
    | _ => exact isJson.elim
  | string text =>
    rw [JsValue.spacedText, quoted_chars, parseValue, skipSpaces_solid (by decide)]
    simp only [Char.reduceEq, if_false, if_true, parseChars_quoted, Option.map_some, String.ofList_toList]
  | array items =>
    have open' : "[".toList = ['['] := rfl
    have close : "]".toList = [']'] := rfl
    rw [JsValue.weight] at enough
    rw [JsValue.spacedText, String.toList_append, String.toList_append, open', close, List.append_assoc, List.append_assoc,
      List.singleton_append, List.singleton_append, parseValue, skipSpaces_solid (by decide)]
    simp only [Char.reduceEq, if_false, if_true]
    cases items with
    | nil => rfl
    | cons item more =>
      rw [parseItems_text (item :: more) isJson (List.cons_ne_nil _ _) fuel (by omega)]
      rw [if_neg (itemsText_head gap item isJson.1 more _)]
      rfl
  | object fields =>
    have open' : "\x7b".toList = ['\x7b'] := rfl
    have close : "\x7d".toList = ['\x7d'] := rfl
    rw [JsValue.weight] at enough
    rw [JsValue.spacedText, String.toList_append, String.toList_append, open', close, List.append_assoc, List.append_assoc,
      List.singleton_append, List.singleton_append, parseValue, skipSpaces_solid (by decide)]
    simp only [Char.reduceEq, if_false, if_true]
    cases fields with
    | nil => rfl
    | cons field more =>
      rw [parseFields_text (field :: more) isJson.2 (List.cons_ne_nil _ _) fuel (by omega)]
      rw [if_neg (fieldsText_head gap field more _)]
      simp only [Option.map_some, setFields_distinct (field :: more) [] isJson.1, List.nil_append]
  | _ => exact isJson.elim

theorem parseItems_text (items : List JsValue) (isJson : ItemsJson items) (some' : items ≠ []) (fuel : Nat)
    (enough : itemsWeight items ≤ fuel) (rest : List Char) :
    parseItems fuel ((spacedItems gap items).toList ++ ']' :: rest) = some (items, rest) := by
  cases items with
  | nil => exact absurd rfl some'
  | cons item more =>
    rw [itemsWeight] at enough
    obtain ⟨fuel, rfl⟩ : ∃ less, fuel = less + 1 := ⟨fuel - 1, by omega⟩
    cases more with
    | nil =>
      have parsed := parseValue_text item isJson.1 fuel (by omega) (']' :: rest) (stops_mark rest (.inr (.inl rfl)))
      rw [spacedItems, parseItems, parsed]
      dsimp only
      rw [skipSpaces_solid (by decide)]
      rfl
    | cons next more =>
      have parsed := parseValue_text item isJson.1 fuel (by omega)
        (',' :: (gap.toList ++ ((spacedItems gap (next :: more)).toList ++ ']' :: rest))) (stops_mark _ (.inl rfl))
      have others := parseItems_text (next :: more) isJson.2 (List.cons_ne_nil _ _) fuel (by omega) rest
      rw [spacedItems_cons, parseItems, parsed]
      dsimp only
      rw [skipSpaces_solid (by decide)]
      simp only [Char.reduceEq, if_false, if_true]
      rw [parseItems_gap spaces, others]
      rfl

theorem parseFields_text (fields : List (String × JsValue)) (isJson : FieldsJson fields) (some' : fields ≠ []) (fuel : Nat)
    (enough : fieldsWeight fields ≤ fuel) (rest : List Char) :
    parseFields fuel ((spacedFields gap fields).toList ++ '\x7d' :: rest) = some (fields, rest) := by
  cases fields with
  | nil => exact absurd rfl some'
  | cons field more =>
    obtain ⟨key, value⟩ := field
    rw [fieldsWeight] at enough
    obtain ⟨fuel, rfl⟩ : ∃ less, fuel = less + 1 := ⟨fuel - 1, by omega⟩
    cases more with
    | nil =>
      have parsed := parseValue_text value isJson.1 fuel (by omega) ('\x7d' :: rest) (stops_mark rest (.inr (.inr rfl)))
      rw [spacedFields_one, quoted_chars, parseFields, skipSpaces_solid (by decide)]
      simp only [if_true]
      rw [parseChars_quoted]
      dsimp only
      rw [skipSpaces_solid (by decide)]
      simp only [if_true]
      rw [parseValue_gap spaces, parsed]
      dsimp only
      rw [skipSpaces_solid (by decide)]
      simp only [if_true, String.ofList_toList]
    | cons next more =>
      have parsed := parseValue_text value isJson.1 fuel (by omega)
        (',' :: (gap.toList ++ ((spacedFields gap (next :: more)).toList ++ '\x7d' :: rest))) (stops_mark _ (.inl rfl))
      have others := parseFields_text (next :: more) isJson.2 (List.cons_ne_nil _ _) fuel (by omega) rest
      rw [spacedFields_cons, quoted_chars, parseFields, skipSpaces_solid (by decide)]
      simp only [if_true]
      rw [parseChars_quoted]
      dsimp only
      rw [skipSpaces_solid (by decide)]
      simp only [if_true]
      rw [parseValue_gap spaces, parsed]
      dsimp only
      rw [skipSpaces_solid (by decide)]
      simp only [Char.reduceEq, if_false, if_true]
      rw [parseFields_gap spaces, others]
      simp only [Option.map_some, String.ofList_toList]

end

omit spaces

mutual

/-- A text is at least as long as the fuel that it takes. -/
theorem weight_le_length (gap : String) (value : JsValue) (isJson : value.IsJson) : value.weight ≤ (value.spacedText gap).length := by
  cases value with
  | array items =>
    have inside := itemsWeight_le_length gap items isJson
    have open' : "[".length = 1 := rfl
    have close : "]".length = 1 := rfl
    rw [JsValue.weight, JsValue.spacedText, String.length_append, String.length_append, open', close]
    omega
  | object fields =>
    have inside := fieldsWeight_le_length gap fields isJson.2
    have open' : "\x7b".length = 1 := rfl
    have close : "\x7d".length = 1 := rfl
    rw [JsValue.weight, JsValue.spacedText, String.length_append, String.length_append, open', close]
    omega
  | null =>
    obtain ⟨character, after, same, -⟩ := spacedText_head gap .null isJson
    rw [← String.length_toList, same, List.length_cons]
    exact Nat.succ_le_succ (Nat.zero_le _)
  | bool flag =>
    obtain ⟨character, after, same, -⟩ := spacedText_head gap (.bool flag) isJson
    rw [← String.length_toList, same, List.length_cons]
    exact Nat.succ_le_succ (Nat.zero_le _)
  | number number =>
    obtain ⟨character, after, same, -⟩ := spacedText_head gap (.number number) isJson
    rw [← String.length_toList, same, List.length_cons]
    exact Nat.succ_le_succ (Nat.zero_le _)
  | string text =>
    obtain ⟨character, after, same, -⟩ := spacedText_head gap (.string text) isJson
    rw [← String.length_toList, same, List.length_cons]
    exact Nat.succ_le_succ (Nat.zero_le _)
  | _ => exact isJson.elim

theorem itemsWeight_le_length (gap : String) (items : List JsValue) (isJson : ItemsJson items) :
    itemsWeight items ≤ (spacedItems gap items).length + 1 := by
  cases items with
  | nil => exact Nat.zero_le _
  | cons item more =>
    have first := weight_le_length gap item isJson.1
    cases more with
    | nil =>
      rw [itemsWeight, itemsWeight, spacedItems]
      omega
    | cons next more =>
      have others := itemsWeight_le_length gap (next :: more) isJson.2
      have whole := congrArg List.length (spacedItems_cons gap item next more [])
      simp only [List.append_nil, List.length_append, List.length_cons, String.length_toList] at whole
      rw [itemsWeight]
      omega

theorem fieldsWeight_le_length (gap : String) (fields : List (String × JsValue)) (isJson : FieldsJson fields) :
    fieldsWeight fields ≤ (spacedFields gap fields).length + 1 := by
  cases fields with
  | nil => exact Nat.zero_le _
  | cons field more =>
    obtain ⟨key, value⟩ := field
    have first := weight_le_length gap value isJson.1
    cases more with
    | nil =>
      have whole := congrArg List.length (spacedFields_one gap key value [])
      simp only [List.append_nil, List.length_append, List.length_cons, String.length_toList] at whole
      rw [fieldsWeight, fieldsWeight]
      omega
    | cons next more =>
      have others := fieldsWeight_le_length gap (next :: more) isJson.2
      have whole := congrArg List.length (spacedFields_cons gap key value next more [])
      simp only [List.append_nil, List.length_append, List.length_cons, String.length_toList] at whole
      rw [fieldsWeight]
      omega

end

/-- Parsing the text of a JSON value yields the value. -/
theorem parseJson_text (spaces : ∀ character ∈ gap.toList, isJsonSpace character = true) (value : JsValue) (isJson : value.IsJson) :
    parseJson (value.spacedText gap) = some value := by
  have enough : value.weight ≤ (value.spacedText gap).length + 1 := Nat.le_succ_of_le (weight_le_length gap value isJson)
  have parsed := parseValue_text spaces value isJson _ enough [] stops_nil
  rw [List.append_nil] at parsed
  rw [parseJson, parsed]
  exact if_pos rfl

/-- `JSON.parse(JSON.stringify(value))` of a JSON value is the value. -/
theorem parseJson_jsonText (value : JsValue) (isJson : value.IsJson) : parseJson value.jsonText = some value := by
  rw [← value.spacedText_empty]
  apply parseJson_text
  · intro character listed
    cases listed
  · exact isJson

theorem jsonText_injective {one two : JsValue} (first : one.IsJson) (second : two.IsJson) (same : one.jsonText = two.jsonText) :
    one = two := by
  have parsed := parseJson_jsonText one first
  rw [same, parseJson_jsonText two second] at parsed
  exact (Option.some.inj parsed).symm

end Values

end DurableExecution.Workflow
