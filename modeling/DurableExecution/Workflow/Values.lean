import Mathlib.Algebra.Group.Nat.Defs
import Mathlib.Data.Rat.Defs
import Mathlib.Data.List.Sort
import DurableExecution.EventLoop.Code

/-
This file models the JavaScript values that pass between a workflow and its
context, and the canonical encoding that decides whether two payloads are equal.
-/

namespace DurableExecution.Workflow

open EventLoop

/-- A number; `finite` holds the value its shortest decimal form names. -/
inductive JsNumber where
  | nan
  | posInf
  | negInf
  | negZero
  | finite (value : Rat)
  deriving DecidableEq

/-- The largest distance of a representable date from the epoch, in milliseconds. -/
def maxTimeMs : Int := 8640000000000000

/-- A valid date, as its milliseconds since the epoch. -/
structure Instant where
  ms : Int
  lower : -maxTimeMs ≤ ms
  upper : ms ≤ maxTimeMs
  deriving DecidableEq

def Instant.epoch : Instant := ⟨0, by decide, by decide⟩

theorem oneSecond_lower : -maxTimeMs ≤ 1000 := by decide

theorem oneSecond_upper : 1000 ≤ maxTimeMs := by decide

theorem twoSeconds_lower : -maxTimeMs ≤ 2000 := by decide

theorem twoSeconds_upper : 2000 ≤ maxTimeMs := by decide

/-- `new Date(ms)`: the time clip drops the fraction and refuses what is out of range. -/
def timeClip (ms : Rat) : Option Instant :=
  if ((-maxTimeMs : Int) : Rat) ≤ ms ∧ ms ≤ ((maxTimeMs : Int) : Rat) then
    let whole := if 0 ≤ ms then ms.floor else ms.ceil
    if bounds : -maxTimeMs ≤ whole ∧ whole ≤ maxTimeMs then
      some ⟨whole, bounds.1, bounds.2⟩
    else none
  else none

/-- The instant a duration after this one, or nothing when no date represents it. -/
def Instant.after (start : Instant) (duration : Rat) : Option Instant :=
  timeClip ((start.ms : Rat) + duration)

section DateText

def padded (width number : Nat) : String :=
  let digits := toString number
  String.ofList (List.replicate (width - digits.length) (Char.ofNat 48)) ++ digits

/-- The proleptic Gregorian year, month and day of a count of days since the epoch. -/
def civilFromDays (days : Int) : Int × Nat × Nat :=
  let shifted := days + 719468
  let era := shifted.fdiv 146097
  let dayOfEra := (shifted - era * 146097).toNat
  let yearOfEra := (dayOfEra - dayOfEra / 1460 + dayOfEra / 36524 - dayOfEra / 146096) / 365
  let dayOfYear := dayOfEra - (365 * yearOfEra + yearOfEra / 4 - yearOfEra / 100)
  let shiftedMonth := (5 * dayOfYear + 2) / 153
  let day := dayOfYear - (153 * shiftedMonth + 2) / 5 + 1
  let month := if shiftedMonth < 10 then shiftedMonth + 3 else shiftedMonth - 9
  let year := (yearOfEra : Int) + era * 400 + (if month ≤ 2 then 1 else 0)
  (year, month, day)

def yearText (year : Int) : String :=
  if 0 ≤ year ∧ year ≤ 9999 then padded 4 year.toNat
  else (if year < 0 then "-" else "+") ++ padded 6 year.natAbs

def Instant.toISOString (instant : Instant) : String :=
  let days := instant.ms.fdiv 86400000
  let msOfDay := (instant.ms - days * 86400000).toNat
  let civil := civilFromDays days
  yearText civil.1 ++ "-" ++ padded 2 civil.2.1 ++ "-" ++ padded 2 civil.2.2 ++ "T" ++
    padded 2 (msOfDay / 3600000) ++ ":" ++ padded 2 (msOfDay / 60000 % 60) ++ ":" ++
    padded 2 (msOfDay / 1000 % 60) ++ "." ++ padded 3 (msOfDay % 1000) ++ "Z"

example : (⟨1767225600000, by decide, by decide⟩ : Instant).toISOString = "2026-01-01T00:00:00.000Z" := by
  decide

end DateText

section NumberText

/-- The number of decimal places a fraction with this denominator needs. -/
def decimalPlaces (denominator : Nat) : Nat → Nat
  | 0 => 0
  | fuel + 1 =>
    if denominator = 1 then 0
    else 1 + decimalPlaces (denominator / Nat.gcd denominator 10) fuel

/-- The digits without the zeros at their end. -/
def withoutZeros (digits : List Char) : List Char := (digits.reverse.dropWhile (· == '0')).reverse

/-- `String(number)` with an exponent: the significant digits, with a point after the first one. -/
def exponentText (digits places : Nat) : String :=
  let shown := withoutZeros (toString digits).toList
  let exponent : Int := (toString digits).length - 1 - places
  String.ofList (shown.take 1 ++ if shown.length ≤ 1 then [] else '.' :: shown.drop 1) ++
    (if exponent < 0 then "e-" else "e+") ++ toString exponent.natAbs

/-- `String(number)` of the digits with this many of them after the point. From 1e21 on, and below 1e-6, it has
an exponent. -/
def digitsText (digits places : Nat) : String :=
  let point : Int := (toString digits).length - places
  if digits ≠ 0 ∧ (21 < point ∨ point < -5) then exponentText digits places
  else if places = 0 then toString digits
  else toString (digits / 10 ^ places) ++ "." ++ padded places (digits % 10 ^ places)

/-- `String(number)`. -/
def JsNumber.text : JsNumber → String
  | .nan => "NaN"
  | .posInf => "Infinity"
  | .negInf => "-Infinity"
  | .negZero => "0"
  | .finite value =>
    let places := decimalPlaces value.den 1100
    let digits := value.num.natAbs * 10 ^ places / value.den
    (if value.num < 0 then "-" else "") ++ digitsText digits places

example : [(-5 : Rat) / 4, 100000000000000000000, 1 / 1000000, 1000000000000000000000, -12 / 100000000].map
      (fun value => (JsNumber.finite value).text) = ["-1.25", "100000000000000000000", "0.000001", "1e+21", "-1.2e-7"] := by
  decide +kernel

end NumberText

/-- The error classes the engine tests with `instanceof`; `plain` is every other one. -/
inductive ErrorKind where
  | nonDeterminism
  | forbiddenApi
  | activeAfterQuiescence
  | versionMismatch
  | plain
  deriving DecidableEq

/-- A JavaScript value. An error keeps its own enumerable properties apart from
the hidden `details` that a reconstructed one carries; absent parts are `undefined`. -/
inductive JsValue where
  | undefined
  | null
  | bool (value : Bool)
  | number (value : JsNumber)
  | string (value : String)
  | date (value : Instant)
  | array (items : List JsValue)
  | object (fields : List (String × JsValue))
  | promise (id : PromiseId)
  | error (kind : ErrorKind) (name message : String) (own : List (String × JsValue))
      (details cause : JsValue)

section Json

mutual

/-- `JSON.parse(JSON.stringify(value))`; nothing when the value encodes to nothing. -/
def JsValue.jsonCopy : JsValue → Option JsValue
  | .undefined => none
  | .null => some .null
  | .bool value => some (.bool value)
  | .number (.finite value) => some (.number (.finite value))
  | .number .negZero => some (.number (.finite 0))
  | .number _ => some .null
  | .string value => some (.string value)
  | .date value => some (.string value.toISOString)
  | .array items => some (.array (jsonItems items))
  | .object fields => some (.object (jsonFields fields))
  | .promise _ => some (.object [])
  | .error _ _ _ own _ _ => some (.object (jsonFields own))

/-- An item that encodes to nothing becomes `null`. -/
def jsonItems : List JsValue → List JsValue
  | [] => []
  | item :: rest => item.jsonCopy.getD .null :: jsonItems rest

/-- A field that encodes to nothing is left out. -/
def jsonFields : List (String × JsValue) → List (String × JsValue)
  | [] => []
  | (key, value) :: rest =>
    match value.jsonCopy with
    | some copy => (key, copy) :: jsonFields rest
    | none => jsonFields rest

end

/-- One character of a string as `JSON.stringify` writes it. -/
def escaped (character : Char) : String :=
  let code := character.toNat
  if code = 34 then "\\\""
  else if code = 92 then "\\\\"
  else if code = 8 then "\\b"
  else if code = 9 then "\\t"
  else if code = 10 then "\\n"
  else if code = 12 then "\\f"
  else if code = 13 then "\\r"
  else if code < 32 then
    "\\u00" ++ String.ofList [Nat.digitChar (code / 16), Nat.digitChar (code % 16)]
  else String.ofList [character]

def quoted (text : String) : String :=
  "\"" ++ String.join (text.toList.map escaped) ++ "\""

mutual

/-- The text `JSON.stringify` writes for a value that `jsonCopy` returned. -/
def JsValue.jsonText : JsValue → String
  | .bool value => if value then "true" else "false"
  | .number value => value.text
  | .string value => quoted value
  | .array items => "[" ++ itemsText items ++ "]"
  | .object fields => "\x7b" ++ fieldsText fields ++ "\x7d"
  | _ => "null"

def itemsText : List JsValue → String
  | [] => ""
  | [item] => item.jsonText
  | item :: rest => item.jsonText ++ "," ++ itemsText rest

def fieldsText : List (String × JsValue) → String
  | [] => ""
  | [(key, value)] => quoted key ++ ":" ++ value.jsonText
  | (key, value) :: rest => quoted key ++ ":" ++ value.jsonText ++ "," ++ fieldsText rest

end

/-- `JSON.stringify(value)`, which `jsonCodec.encode` is. -/
def JsValue.stringify (value : JsValue) : Option String :=
  value.jsonCopy.map JsValue.jsonText

/-- A key that is an array index comes before the other keys of an object. -/
def arrayIndex (key : String) : Option Nat :=
  let number := Nat.ofDigitChars 10 key.toList 0
  if toString number = key ∧ number < 4294967295 then some number else none

/-- The UTF-16 code units of a character. -/
def codeUnits (character : Char) : List Nat :=
  let code := character.toNat
  if code < 65536 then [code] else [55296 + (code - 65536) / 1024, 56320 + (code - 65536) % 1024]

/-- The order in which an object enumerates keys that were added in sorted order. -/
def keyBefore (one two : String) : Bool :=
  match arrayIndex one, arrayIndex two with
  | some first, some second => decide (first < second)
  | some _, none => true
  | none, some _ => false
  | none, none => decide (one.toList.flatMap codeUnits < two.toList.flatMap codeUnits)

def insertField (field : String × JsValue) : List (String × JsValue) → List (String × JsValue)
  | [] => [field]
  | head :: rest => if keyBefore head.1 field.1 then head :: insertField field rest else field :: head :: rest

mutual

/-- Assigning the key `__proto__` sets the prototype, so that field is lost. The other fields come
in the order in which the sorted object enumerates them. -/
def sortKeys : JsValue → JsValue
  | .array items => .array (sortedItems items)
  | .object fields => .object (sortedFields fields)
  | value => value

def sortedItems : List JsValue → List JsValue
  | [] => []
  | item :: rest => sortKeys item :: sortedItems rest

def sortedFields : List (String × JsValue) → List (String × JsValue)
  | [] => []
  | (key, value) :: rest =>
    if key = "__proto__" then sortedFields rest
    else insertField (key, sortKeys value) (sortedFields rest)

end

/-- The canonical form of a value as the event log stores it. -/
def canonicalEncoding (value : JsValue) : String :=
  match value.jsonCopy with
  | none => "undefined"
  | some decoded => (sortKeys decoded).jsonText

/-- Whether a recorded and a live value have the same canonical encoding. -/
def sameEncoding (recorded live : JsValue) : Bool :=
  canonicalEncoding recorded == canonicalEncoding live

@[simp] theorem sameEncoding_refl (value : JsValue) : sameEncoding value value = true := by
  simp [sameEncoding]

mutual

/-- Decoding what was encoded and encoding it again changes nothing. -/
theorem JsValue.jsonCopy_copy (value copy : JsValue) (copied : value.jsonCopy = some copy) : copy.jsonCopy = some copy := by
  cases value with
  | undefined => simp [JsValue.jsonCopy] at copied
  | number number =>
    cases number <;> simp only [JsValue.jsonCopy, Option.some.injEq] at copied <;>
      subst copied <;> simp [JsValue.jsonCopy]
  | array items =>
    simp only [JsValue.jsonCopy, Option.some.injEq] at copied
    subst copied
    simp only [JsValue.jsonCopy, jsonItems_copy items]
  | object fields =>
    simp only [JsValue.jsonCopy, Option.some.injEq] at copied
    subst copied
    simp only [JsValue.jsonCopy, jsonFields_copy fields]
  | error kind name message own details cause =>
    simp only [JsValue.jsonCopy, Option.some.injEq] at copied
    subst copied
    simp only [JsValue.jsonCopy, jsonFields_copy own]
  | promise id =>
    simp only [JsValue.jsonCopy, Option.some.injEq] at copied
    subst copied
    simp [JsValue.jsonCopy, jsonFields]
  | _ =>
    simp only [JsValue.jsonCopy, Option.some.injEq] at copied
    subst copied
    simp only [JsValue.jsonCopy]

theorem jsonItems_copy (items : List JsValue) : jsonItems (jsonItems items) = jsonItems items := by
  cases items with
  | nil => rfl
  | cons item rest =>
    simp only [jsonItems, jsonItems_copy rest, List.cons.injEq, and_true]
    cases copied : item.jsonCopy with
    | none => simp [JsValue.jsonCopy]
    | some copy => simp [JsValue.jsonCopy_copy item copy copied]

theorem jsonFields_copy (fields : List (String × JsValue)) : jsonFields (jsonFields fields) = jsonFields fields := by
  cases fields with
  | nil => rfl
  | cons field rest =>
    obtain ⟨key, value⟩ := field
    cases copied : value.jsonCopy with
    | none => simp only [jsonFields, copied, jsonFields_copy rest]
    | some copy =>
      simp only [jsonFields, copied, JsValue.jsonCopy_copy value copy copied, jsonFields_copy rest]

end

/-- The value the log holds after an encode and decode trip. -/
def JsValue.stored (value : JsValue) : JsValue := value.jsonCopy.getD .undefined

/-- A payload read back from the log has the encoding of the live value. -/
@[simp] theorem sameEncoding_stored (value : JsValue) : sameEncoding value.stored value = true := by
  cases copied : value.jsonCopy with
  | none => simp [sameEncoding, JsValue.stored, canonicalEncoding, copied, JsValue.jsonCopy]
  | some copy =>
    simp [sameEncoding, JsValue.stored, canonicalEncoding, copied,
      JsValue.jsonCopy_copy value copy copied]

end Json

end DurableExecution.Workflow
