import DurableExecution.Schedules.Calendar
import DurableExecution.Workflow.JsonRoundTrip

/-
This file models the texts that page cursors are made of: timestamps with microseconds, UUIDs and base64url.
-/

namespace DurableExecution.Api

open Workflow (padded civilFromDays maxTimeMs AllDigits padded_chars)
open Schedules (daysFromCivil daysFromCivil_civilFromDays civilFromDays_bounds)

section Timestamps

/-- A `timestamptz`, in microseconds since the epoch, of the years 1 to 9999. -/
structure Timestamp where
  micros : Int
  date : (micros / 1000).natAbs ≤ maxTimeMs
  fourDigits : 1 ≤ (civilFromDays (micros / 86400000000)).1 ∧ (civilFromDays (micros / 86400000000)).1 ≤ 9999

def Timestamp.microOfDay (timestamp : Timestamp) : Nat := (timestamp.micros % 86400000000).toNat

/-- `to_char(… at time zone 'utc', 'YYYY-MM-DD"T"HH24:MI:SS.US"Z"')`. -/
def Timestamp.toChar (timestamp : Timestamp) : String :=
  let civil := civilFromDays (timestamp.micros / 86400000000)
  let micro := timestamp.microOfDay
  padded 4 civil.1.toNat ++ "-" ++ padded 2 civil.2.1 ++ "-" ++ padded 2 civil.2.2 ++ "T" ++ padded 2 (micro / 3600000000) ++ ":" ++
    padded 2 (micro / 60000000 % 60) ++ ":" ++ padded 2 (micro / 1000000 % 60) ++ "." ++ padded 6 (micro % 1000000) ++ "Z"

/-- The `Date` that the driver makes of it holds milliseconds only. -/
def Timestamp.toISOString (timestamp : Timestamp) : String :=
  (⟨timestamp.micros / 1000, by have := timestamp.date; omega, by have := timestamp.date; omega⟩ : Workflow.Instant).toISOString

end Timestamps

section Uuids

/-- 32 hexadecimal digits in lower case, in five groups. -/
def canonicalUuid (chars : List Char) : Bool :=
  chars.length == 36 && chars.zipIdx.all fun (char, index) =>
    if index ∈ [8, 13, 18, 23] then char == '-' else char.isDigit || ('a' ≤ char && char ≤ 'f')

/-- A `uuid`, by the text that the database writes; texts and values are in the same order. -/
structure Uuid where
  text : String
  canonical : canonicalUuid text.toList = true
  deriving DecidableEq

def uuidPattern (text : String) : Bool := canonicalUuid (text.toList.map Char.toLower)

/-- The cast `::uuid` of a text with the pattern. -/
def castUuid (text : String) : Option Uuid :=
  if pattern : uuidPattern text = true then some ⟨String.ofList (text.toList.map Char.toLower), by rwa [String.toList_ofList]⟩ else none

end Uuids

section Base64Url

def base64Alphabet : List Char := "ABCDEFGHIJKLMNOPQRSTUVWXYZabcdefghijklmnopqrstuvwxyz0123456789-_".toList

def sextetChar (sextet : Nat) : Char := base64Alphabet.getD sextet 'A'

def encodeBytes : List Nat → List Char
  | [] => []
  | [one] => [sextetChar (one / 4), sextetChar (one % 4 * 16)]
  | [one, two] => [sextetChar (one / 4), sextetChar (one % 4 * 16 + two / 16), sextetChar (two % 16 * 4)]
  | one :: two :: three :: rest =>
    sextetChar (one / 4) :: sextetChar (one % 4 * 16 + two / 16) :: sextetChar (two % 16 * 4 + three / 64) :: sextetChar (three % 64) ::
      encodeBytes rest

/-- The decoder knows both alphabets and skips what is in neither. -/
def charSextet (char : Char) : Option Nat :=
  if char = '+' then some 62 else if char = '/' then some 63 else base64Alphabet.findIdx? (· == char)

def decodeSextets : List Nat → List Nat
  | [first, second] => [first * 4 + second / 16]
  | [first, second, third] => [first * 4 + second / 16, second % 16 * 16 + third / 4]
  | first :: second :: third :: fourth :: rest =>
    (first * 4 + second / 16) :: (second % 16 * 16 + third / 4) :: (third % 4 * 64 + fourth) :: decodeSextets rest
  | _ => []

def bytesOf (text : String) : List Nat := text.toByteArray.data.toList.map UInt8.toNat

/-- `Buffer.from(text).toString("base64url")`. -/
def toBase64Url (text : String) : String := String.ofList (encodeBytes (bytesOf text))

/-- `Buffer.from(text, "base64url").toString()`; bytes that are no UTF-8 are repaired. -/
def fromBase64Url (repaired : ByteArray → String) (text : String) : String :=
  let bytes : ByteArray := ⟨((decodeSextets (text.toList.filterMap charSextet)).map UInt8.ofNat).toArray⟩
  (String.fromUTF8? bytes).getD (repaired bytes)

theorem charSextet_sextetChar {sextet : Nat} (small : sextet < 64) : charSextet (sextetChar sextet) = some sextet := by
  have all : ∀ index : Fin 64, charSextet (sextetChar index) = some index.1 := by decide +kernel
  exact all ⟨sextet, small⟩

/-- Three bytes come back from four characters, by induction on the groups. -/
theorem decode_encodeBytes (bytes : List Nat) (small : ∀ byte ∈ bytes, byte < 256) :
    decodeSextets ((encodeBytes bytes).filterMap charSextet) = bytes := by
  induction bytes using encodeBytes.induct with
  | case1 => rfl
  | case2 one =>
    have first := small one (by simp)
    simp (disch := omega) only [encodeBytes, List.filterMap_cons, List.filterMap_nil, charSextet_sextetChar, decodeSextets]
    congr 1
    omega
  | case3 one two =>
    have first := small one (by simp)
    have second := small two (by simp)
    simp (disch := omega) only [encodeBytes, List.filterMap_cons, List.filterMap_nil, charSextet_sextetChar, decodeSextets]
    congr 1
    · omega
    · congr 1
      omega
  | case4 one two three rest ih =>
    have first := small one (by simp)
    have second := small two (by simp)
    have third := small three (by simp)
    have later := ih fun byte listed => small byte (by simp [listed])
    simp (disch := omega) only [encodeBytes, List.filterMap_cons, charSextet_sextetChar, decodeSextets, later]
    congr 1
    · omega
    · congr 1
      · omega
      · congr 1
        omega

theorem fromBase64Url_toBase64Url (repaired : ByteArray → String) (text : String) : fromBase64Url repaired (toBase64Url text) = text := by
  have small : ∀ byte ∈ bytesOf text, byte < 256 := by
    intro byte listed
    obtain ⟨value, -, rfl⟩ := List.mem_map.mp listed
    exact value.toNat_lt
  have bytes : (⟨((decodeSextets ((toBase64Url text).toList.filterMap charSextet)).map UInt8.ofNat).toArray⟩ : ByteArray) =
      text.toByteArray := by
    rw [toBase64Url, String.toList_ofList, decode_encodeBytes _ small, bytesOf, List.map_map]
    have same : UInt8.ofNat ∘ UInt8.toNat = id := by
      funext value
      exact UInt8.ofNat_toNat
    rw [same, List.map_id, Array.toArray_toList]
  rw [fromBase64Url, bytes]
  rw [String.fromUTF8?, dif_pos text.isValidUTF8]
  rfl

end Base64Url

section Reading

/-- What reads the texts of a cursor: the database's cast to a timestamp, `Date.parse`, and the repair of bytes
that are no UTF-8. Both read what `to_char` writes. -/
structure TextReaders where
  timestamptz : String → Option Int
  dateParses : String → Bool
  repaired : ByteArray → String
  timestamptz_toChar : ∀ timestamp : Timestamp, timestamptz timestamp.toChar = some timestamp.micros
  dateParses_toChar : ∀ timestamp : Timestamp, dateParses timestamp.toChar = true

theorem canonicalUuid_char {chars : List Char} (canonical : canonicalUuid chars = true) {char : Char} (listed : char ∈ chars) :
    char = '-' ∨ char.isDigit = true ∨ ('a' ≤ char ∧ char ≤ 'f') := by
  rw [canonicalUuid, Bool.and_eq_true, List.all_eq_true] at canonical
  obtain ⟨index, bound, rfl⟩ := List.getElem_of_mem listed
  have here := canonical.2 (chars[index], index) (List.mk_mem_zipIdx_iff_getElem?.mpr (List.getElem?_eq_getElem bound))
  dsimp only at here
  split at here
  · exact .inl (eq_of_beq here)
  · rw [Bool.or_eq_true, Bool.and_eq_true, decide_eq_true_iff, decide_eq_true_iff] at here
    exact .inr here

theorem canonicalUuid_lower {chars : List Char} (canonical : canonicalUuid chars = true) : chars.map Char.toLower = chars := by
  have each : ∀ char ∈ chars, char.toLower = id char := by
    intro char listed
    have outside : ¬ (char.val ≥ 'A'.val ∧ char.val ≤ 'Z'.val) := by
      rcases canonicalUuid_char canonical listed with rfl | digit | letter
      · decide
      · rw [Char.isDigit, Bool.and_eq_true, decide_eq_true_iff, decide_eq_true_iff] at digit
        have below := UInt32.le_iff_toNat_le.mp digit.2
        intro upper
        have above := UInt32.le_iff_toNat_le.mp upper.1
        exact absurd (above.trans below) (by decide)
      · have above := UInt32.le_iff_toNat_le.mp letter.1
        intro upper
        have below := UInt32.le_iff_toNat_le.mp upper.2
        exact absurd (above.trans below) (by decide)
    exact dif_neg outside
  rw [List.map_congr_left each, List.map_id]

theorem castUuid_text (id : Uuid) : castUuid id.text = some id := by
  have same := canonicalUuid_lower id.canonical
  have pattern : uuidPattern id.text = true := by
    rw [uuidPattern, same]
    exact id.canonical
  rw [castUuid, dif_pos pattern]
  simp only [same, String.ofList_toList]

/-- The number at the start of a text, and what comes after the character that ends it. -/
def takeNumber (count : Nat) (chars : List Char) : Nat × List Char :=
  (Nat.ofDigitChars 10 (chars.take count) 0, chars.drop (count + 1))

def readMicros (text : String) : Int :=
  let year := takeNumber 4 text.toList
  let month := takeNumber 2 year.2
  let day := takeNumber 2 month.2
  let hour := takeNumber 2 day.2
  let minute := takeNumber 2 hour.2
  let second := takeNumber 2 minute.2
  let micro := takeNumber 6 second.2
  daysFromCivil year.1 month.1 day.1 * 86400000000 +
    (hour.1 * 3600000000 + minute.1 * 60000000 + second.1 * 1000000 + micro.1 : Nat)

theorem takeNumber_padded {count number : Nat} (fits : number < 10 ^ count) (positive : 0 < count) (separator : Char) (rest : List Char) :
    takeNumber count ((padded count number).toList ++ separator :: rest) = (number, rest) := by
  obtain ⟨length, -, value⟩ := padded_chars fits positive
  have value := value 0
  rw [Nat.mul_zero, Nat.zero_add] at value
  rw [takeNumber, List.take_left' length, value, ← List.drop_drop, List.drop_left' length, List.drop_one, List.tail_cons]

theorem Timestamp.toChar_toList (timestamp : Timestamp) : timestamp.toChar.toList =
    (padded 4 (civilFromDays (timestamp.micros / 86400000000)).1.toNat).toList ++ '-' ::
      ((padded 2 (civilFromDays (timestamp.micros / 86400000000)).2.1).toList ++ '-' ::
        ((padded 2 (civilFromDays (timestamp.micros / 86400000000)).2.2).toList ++ 'T' ::
          ((padded 2 (timestamp.microOfDay / 3600000000)).toList ++ ':' ::
            ((padded 2 (timestamp.microOfDay / 60000000 % 60)).toList ++ ':' ::
              ((padded 2 (timestamp.microOfDay / 1000000 % 60)).toList ++ '.' ::
                ((padded 6 (timestamp.microOfDay % 1000000)).toList ++ ['Z'])))))) := by
  have dash : "-".toList = ['-'] := rfl
  have tee : "T".toList = ['T'] := rfl
  have colon : ":".toList = [':'] := rfl
  have dot : ".".toList = ['.'] := rfl
  have zed : "Z".toList = ['Z'] := rfl
  simp only [Timestamp.toChar, String.toList_append, List.append_assoc, dash, tee, colon, dot, zed, List.cons_append, List.nil_append]

theorem Timestamp.bounds (timestamp : Timestamp) : timestamp.microOfDay < 86400000000 ∧
    (civilFromDays (timestamp.micros / 86400000000)).1.toNat < 10000 ∧
    (civilFromDays (timestamp.micros / 86400000000)).2.1 < 100 ∧ (civilFromDays (timestamp.micros / 86400000000)).2.2 < 100 := by
  have civil := civilFromDays_bounds (timestamp.micros / 86400000000)
  have year := timestamp.fourDigits
  rw [Timestamp.microOfDay]
  omega

theorem readMicros_toChar (timestamp : Timestamp) : readMicros timestamp.toChar = timestamp.micros := by
  obtain ⟨ofDay, year, month, day⟩ := timestamp.bounds
  have whole : ((civilFromDays (timestamp.micros / 86400000000)).1.toNat : Int) =
      (civilFromDays (timestamp.micros / 86400000000)).1 := by
    have positive := timestamp.fourDigits.1
    omega
  have clock : timestamp.microOfDay / 3600000000 * 3600000000 + timestamp.microOfDay / 60000000 % 60 * 60000000 +
      timestamp.microOfDay / 1000000 % 60 * 1000000 + timestamp.microOfDay % 1000000 = timestamp.microOfDay := by omega
  simp (disch := omega) only [readMicros, timestamp.toChar_toList, takeNumber_padded, clock]
  rw [whole, daysFromCivil_civilFromDays, Timestamp.microOfDay]
  omega

/-- Readers that read the format of `to_char` only. -/
def plainReaders : TextReaders where
  timestamptz text := some (readMicros text)
  dateParses _ := true
  repaired _ := ""
  timestamptz_toChar timestamp := congrArg some (readMicros_toChar timestamp)
  dateParses_toChar _ := rfl

/-- The text of a timestamp has no bar. -/
theorem Timestamp.toChar_plain (timestamp : Timestamp) : ∀ char ∈ timestamp.toChar.toList, char ≠ '|' := by
  obtain ⟨ofDay, year, month, day⟩ := timestamp.bounds
  have digits : ∀ {count number : Nat}, number < 10 ^ count → 0 < count → ∀ char ∈ (padded count number).toList, char ≠ '|' := by
    rintro count number fits positive char listed rfl
    exact absurd ((padded_chars fits positive).2.1 _ listed) (by decide)
  intro char listed
  simp only [timestamp.toChar_toList, List.mem_append, List.mem_cons, List.not_mem_nil, or_false] at listed
  rcases listed with own | rfl | own | rfl | own | rfl | own | rfl | own | rfl | own | rfl | own | rfl
  all_goals first
    | decide
    | exact digits (by omega) (by decide) char own

theorem Uuid.text_plain (id : Uuid) : ∀ char ∈ id.text.toList, char ≠ '|' := by
  rintro char listed rfl
  rcases canonicalUuid_char id.canonical listed with same | digit | letter
  · exact absurd same (by decide)
  · exact absurd digit (by decide)
  · exact absurd letter (by decide)

end Reading

end DurableExecution.Api
