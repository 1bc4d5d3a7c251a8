import DurableExecution.Metrics.MetricsRegistry
import DurableExecution.Workflow.JsonText

/-
This file models the parser of the Prometheus text format.
-/

namespace DurableExecution.Metrics

open DurableExecution.Order Workflow

section Matching

/-- What `\s` matches, and `trim` removes. -/
def isSpace (character : Char) : Bool :=
  [9, 10, 11, 12, 13, 32, 160, 5760, 8232, 8233, 8239, 8287, 12288, 65279].contains character.toNat ||
    (decide (8192 ≤ character.toNat) && decide (character.toNat ≤ 8202))

/-- What `.` does not match. -/
def isLineEnd (character : Char) : Bool := [10, 13, 8232, 8233].contains character.toNat

/-- An object takes no own property of this name. -/
def protoName : Text := "__proto__".toList

end Matching

section Numbers

/-- Digits with an optional point and exponent, and a digit in front of or after the point. -/
def looseDecimalOf (text : Text) : Option Rat :=
  let whole := text.takeWhile Char.isDigit
  let rest := text.dropWhile Char.isDigit
  let fraction := match rest with
    | '.' :: digits => digits.takeWhile Char.isDigit
    | _ => []
  let after := match rest with
    | '.' :: digits => digits.dropWhile Char.isDigit
    | _ => rest
  let mantissa : Rat := (Nat.ofDigitChars 10 (whole ++ fraction) 0 : Rat) / 10 ^ fraction.length
  if whole ++ fraction = [] then none
  else
    match after with
    | [] => some mantissa
    | mark :: signed =>
      let digits := match signed with
        | '+' :: digits | '-' :: digits => digits
        | digits => digits
      let exponent := Nat.ofDigitChars 10 digits 0
      if (mark = 'e' ∨ mark = 'E') ∧ digits ≠ [] ∧ digits.all Char.isDigit then
        some (if signed.head? = some '-' then mantissa / 10 ^ exponent else mantissa * 10 ^ exponent)
      else none

/-- A decimal number: one that JSON has too, or one with needless zeros or no digit at a side of its point. -/
def decimalOf (text : Text) : Option Rat :=
  match parseUnsigned text with
  | some (value, []) => some value
  | _ => looseDecimalOf text

/-- Digits of a base, as in `0x1f`. -/
def radixOf (base : Nat) (digits : Text) : Option Rat :=
  if digits ≠ [] ∧ digits.all fun digit => (hexDigit digit).any (decide <| · < base) then
    some ((digits.foldl (fun value digit => value * base + (hexDigit digit).getD 0) 0 : Nat) : Rat)
  else none

def signedOf (sign : Bool) (text : Text) : JsNumber :=
  if text = "Infinity".toList then (if sign then .negInf else .posInf)
  else
    match decimalOf text with
    | none => .nan
    | some value => if sign ∧ value = 0 then .negZero else .finite (if sign then -value else value)

/-- `Number(text)`, for a text without spaces. -/
def numberOf (text : Text) : JsNumber :=
  match text with
  | '-' :: rest => signedOf true rest
  | '+' :: rest => signedOf false rest
  | '0' :: mark :: digits =>
    if mark = 'x' ∨ mark = 'X' then (radixOf 16 digits).elim .nan .finite
    else if mark = 'o' ∨ mark = 'O' then (radixOf 8 digits).elim .nan .finite
    else if mark = 'b' ∨ mark = 'B' then (radixOf 2 digits).elim .nan .finite
    else signedOf false text
  | _ => signedOf false text

example : ["12", "-0.5", "+1e-2", ".5", "0x1F", "-Infinity", "-Inf"].map (fun text => numberOf text.toList) =
    [.finite 12, .finite (-1 / 2), .finite (1 / 100), .finite (1 / 2), .finite 31, .negInf, .nan] := by decide +kernel

end Numbers

section Parser

structure ParsedSample where
  name : Text
  labels : Labels
  value : JsNumber

end Parser

end DurableExecution.Metrics
