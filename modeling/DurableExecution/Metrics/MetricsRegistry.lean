import Mathlib.Data.List.Sort
import DurableExecution.Order.InsertionMap
import DurableExecution.Workflow.Values

/-
This file models the registry of metrics and the text that it renders.
-/

namespace DurableExecution.Metrics

open DurableExecution.Order Workflow

section Text

/-- A text as its characters. -/
abbrev Text := List Char

scoped instance text_lawful : LawfulBEq Text := inferInstance

/-- `replaceAll` of one character. -/
def replaceAll (mark : Char) (replacement text : Text) : Text :=
  text.flatMap fun character => if character = mark then replacement else [character]

def escapeLabelValue (value : Text) : Text :=
  replaceAll '"' ['\\', '"'] (replaceAll '\n' ['\\', 'n'] (replaceAll '\\' ['\\', '\\'] value))

def formatNumber : JsNumber → Text
  | .nan => "NaN".toList
  | .posInf => "+Inf".toList
  | .negInf => "-Inf".toList
  | number => number.text.toList

def isLetter (character : Char) : Bool :=
  (decide ('a' ≤ character) && decide (character ≤ 'z')) || (decide ('A' ≤ character) && decide (character ≤ 'Z')) ||
    character == '_'

/-- The characters that a label's name begins with, and goes on with. -/
def isLabelHead (character : Char) : Bool := isLetter character

def isLabelChar (character : Char) : Bool := isLetter character || character.isDigit

/-- A metric's name may have colons too. -/
def isNameHead (character : Char) : Bool := isLetter character || character == ':'

def isNameChar (character : Char) : Bool := isLabelChar character || character == ':'

def matchesName (head rest : Char → Bool) : Text → Bool
  | [] => false
  | first :: others => head first && others.all rest

def validName (name : Text) : Bool := matchesName isNameHead isNameChar name

def validLabel (name : Text) : Bool := matchesName isLabelHead isLabelChar name

end Text

section Numbers

/-- The value of a number that is not infinite. -/
def ratOf : JsNumber → Rat
  | .finite value => value
  | .negZero | .nan | .posInf | .negInf => 0

/-- The sum of two numbers. -/
def plus : JsNumber → JsNumber → JsNumber
  | .nan, _ => .nan
  | _, .nan => .nan
  | .posInf, .negInf => .nan
  | .negInf, .posInf => .nan
  | .posInf, _ => .posInf
  | _, .posInf => .posInf
  | .negInf, _ => .negInf
  | _, .negInf => .negInf
  | .negZero, .negZero => .negZero
  | one, two => .finite (ratOf one + ratOf two)

/-- `value <= bound`. -/
def atMost : JsNumber → JsNumber → Bool
  | .nan, _ => false
  | _, .nan => false
  | .negInf, _ => true
  | _, .posInf => true
  | .posInf, _ => false
  | _, .negInf => false
  | value, bound => decide (ratOf value ≤ ratOf bound)

/-- `amount < 0`. -/
def negative : JsNumber → Bool
  | .negInf => true
  | .finite value => decide (value < 0)
  | _ => false

end Numbers

section Registry

/-- The labels of a sample, with distinct names. -/
abbrev Labels := InsertionMap Text Text

/-- The entries that the JSON text of a key holds. -/
abbrev Key := List (Text × Text)

structure Series where
  counts : List Nat
  sum : JsNumber
  count : Nat

/-- The state of a metric. A histogram's bounds are sorted. -/
inductive Metric where
  | counter (values : InsertionMap Key JsNumber)
  | gauge (values : InsertionMap Key JsNumber)
  | histogram (bounds : List JsNumber) (series : InsertionMap Key Series)

structure Family where
  help : Text
  metric : Metric

/-- The families by their names. -/
abbrev Registry := InsertionMap Text Family

/-- The order of texts by their characters. -/
def inOrder : Text → Text → Bool
  | [], _ => true
  | _ :: _, [] => false
  | one :: ones, two :: twos => if one = two then inOrder ones twos else decide (one < two)

/-- The entries by name, or nothing where a name is invalid. -/
def keyOf (labels : Labels) : Option Key :=
  if labels.keys.all validLabel then some (labels.entries.insertionSort fun one two => inOrder one.1 two.1 = true) else none

/-- The calls of a registry and of the metrics that it returns. -/
inductive Operation where
  | counter (name help : Text)
  | gauge (name help : Text)
  | histogram (name help : Text) (buckets : List JsNumber)
  | inc (name : Text) (labels : Labels) (amount : JsNumber)
  | set (name : Text) (labels : Labels) (value : JsNumber)
  | clear (name : Text)
  | observe (name : Text) (labels : Labels) (value : JsNumber)

def register (registry : Registry) (name : Text) (family : Family) : Option Registry :=
  if validName name = false then none
  else if name ∈ registry.keys then none
  else some (registry.set name family)

def newSeries (bounds : List JsNumber) : Series := ⟨bounds.map fun _ => 0, .finite 0, 0⟩

/-- The loop over the bounds, each of which has a count. -/
def Series.observe (bounds : List JsNumber) (value : JsNumber) (series : Series) : Series :=
  ⟨List.zipWith (fun bound count => if atMost value bound then count + 1 else count) bounds series.counts,
    plus series.sum value, series.count + 1⟩

/-- An update of a metric, or nothing where it throws or is no method of the metric. -/
def Metric.update (metric : Metric) : Operation → Option Metric
  | .inc _ labels amount =>
    match metric with
    | .counter values =>
      if negative amount then none
      else (keyOf labels).map fun key => .counter (values.set key (plus ((values.get key).getD (.finite 0)) amount))
    | _ => none
  | .set _ labels value =>
    match metric with
    | .counter values => (keyOf labels).map fun key => .counter (values.set key value)
    | .gauge values => (keyOf labels).map fun key => .gauge (values.set key value)
    | .histogram _ _ => none
  | .clear _ =>
    match metric with
    | .gauge _ => some (.gauge .empty)
    | _ => none
  | .observe _ labels value =>
    match metric with
    | .histogram bounds series =>
      (keyOf labels).map fun key =>
        .histogram bounds (series.set key (((series.get key).getD (newSeries bounds)).observe bounds value))
    | _ => none
  | _ => none

def Operation.name : Operation → Text
  | .counter name _ | .gauge name _ | .histogram name _ _ | .inc name _ _ | .set name _ _ | .clear name | .observe name _ _ => name

def perform (registry : Registry) (operation : Operation) : Option Registry :=
  match operation with
  | .counter name help => register registry name ⟨help, .counter .empty⟩
  | .gauge name help => register registry name ⟨help, .gauge .empty⟩
  | .histogram name help buckets =>
    register registry name ⟨help, .histogram (buckets.insertionSort fun one two => atMost one two = true) .empty⟩
  | update =>
    match registry.get update.name with
    | none => none
    | some family =>
      (family.metric.update update).map fun metric => registry.set update.name { family with metric }

end Registry

section Render

def formatLabel (entry : Text × Text) : Text := entry.1 ++ "=\"".toList ++ escapeLabelValue entry.2 ++ ['"']

def formatLabels (entries : Key) : Text :=
  if entries.length = 0 then [] else ['{'] ++ [','].intercalate (entries.map formatLabel) ++ ['\x7d']

/-- A line of a sample. -/
def sampleLine (name : Text) (entries : Key) (value : Text) : Text := name ++ formatLabels entries ++ [' '] ++ value

def countText (count : Nat) : Text := (JsNumber.finite count).text.toList

def leLabel (bound : Text) : Text × Text := ("le".toList, bound)

def histogramLines (name : Text) (bounds : List JsNumber) (entry : Key × Series) : List Text :=
  (List.zip bounds entry.2.counts).map (fun row =>
    sampleLine (name ++ "_bucket".toList) (entry.1 ++ [leLabel (formatNumber row.1)]) (countText row.2)) ++
  [sampleLine (name ++ "_bucket".toList) (entry.1 ++ [leLabel "+Inf".toList]) (countText entry.2.count),
    sampleLine (name ++ "_sum".toList) entry.1 (formatNumber entry.2.sum),
    sampleLine (name ++ "_count".toList) entry.1 (countText entry.2.count)]

def Metric.lines (name : Text) : Metric → List Text
  | .counter values | .gauge values => values.entries.map fun entry => sampleLine name entry.1 (formatNumber entry.2)
  | .histogram bounds series => series.entries.flatMap (histogramLines name bounds)

def Metric.type : Metric → Text
  | .counter _ => "counter".toList
  | .gauge _ => "gauge".toList
  | .histogram _ _ => "histogram".toList

end Render

end DurableExecution.Metrics
