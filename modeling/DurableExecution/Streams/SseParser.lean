import Mathlib.Data.List.Induction
import Mathlib.Data.List.Nodup

/-
This file models the parser of server sent events, and shows that its messages are the complete events of the text, unless
a chunk ends between a carriage return and its line feed.
-/

namespace DurableExecution.Streams

section Parser

/-- A text as its UTF-16 code units, which a chunk may end after any of. -/
abbrev CodeUnits := List UInt16

def codeUnits (text : String) : CodeUnits := text.toList.map fun char => char.val.toUInt16

def cr : UInt16 := 13
def lf : UInt16 := 10
def colon : UInt16 := 58
def space : UInt16 := 32

structure SseMessage where
  event : CodeUnits
  id : Option CodeUnits
  data : CodeUnits
  deriving DecidableEq

/-- `chunk.replaceAll("\r\n", "\n")`. -/
def normalise : CodeUnits → CodeUnits
  | [] => []
  | [unit] => [unit]
  | first :: second :: rest =>
    if first = cr ∧ second = lf then lf :: normalise rest else first :: normalise (second :: rest)

/-- `block.split("\n")`, with the units of the line so far. -/
def splitLines (line : CodeUnits) : CodeUnits → List CodeUnits
  | [] => [line]
  | unit :: rest => if unit = lf then line :: splitLines [] rest else splitLines (line ++ [unit]) rest

/-- The text before and after the first `"\n\n"`. -/
def splitBoundary : CodeUnits → Option (CodeUnits × CodeUnits)
  | first :: second :: rest =>
    if first = lf ∧ second = lf then some ([], rest)
    else (splitBoundary (second :: rest)).map fun found => (first :: found.1, found.2)
  | _ => none

/-- What the loop over the lines of a block has found. -/
structure Fields where
  event : CodeUnits
  id : Option CodeUnits
  data : List CodeUnits

def noFields : Fields := ⟨codeUnits "message", none, []⟩

/-- `.replace(/^ /, "")`. -/
def withoutSpace : CodeUnits → CodeUnits
  | [] => []
  | first :: rest => if first = space then rest else first :: rest

def Fields.read (fields : Fields) (line : CodeUnits) : Fields :=
  if line.head? = some colon ∨ line.length = 0 then fields
  else
    let field := line.takeWhile fun unit => decide (unit ≠ colon)
    let value := withoutSpace (line.drop (field.length + 1))
    if field = codeUnits "event" then { fields with event := value }
    else if field = codeUnits "id" then { fields with id := some value }
    else if field = codeUnits "data" then { fields with data := fields.data ++ [value] }
    else fields

def Fields.message (fields : Fields) : Option SseMessage :=
  if 0 < fields.data.length then some ⟨fields.event, fields.id, [lf].intercalate fields.data⟩ else none

def dispatch (block : CodeUnits) : Option SseMessage := ((splitLines [] block).foldl Fields.read noFields).message

structure Fed where
  messages : List SseMessage
  buffer : CodeUnits

/-- The loop over the blocks of the buffer, each round of which takes two units at least. -/
def drain : Nat → CodeUnits → Fed
  | 0, buffer => ⟨[], buffer⟩
  | rounds + 1, buffer =>
    match splitBoundary buffer with
    | none => ⟨[], buffer⟩
    | some (block, rest) =>
      let onward := drain rounds rest
      ⟨(dispatch block).toList ++ onward.messages, onward.buffer⟩

/-- The parser's call with a chunk. -/
def feed (buffer chunk : CodeUnits) : Fed := drain (buffer ++ normalise chunk).length (buffer ++ normalise chunk)

def feedAll (buffer : CodeUnits) : List CodeUnits → Fed
  | [] => ⟨[], buffer⟩
  | chunk :: chunks =>
    let fed := feed buffer chunk
    let onward := feedAll fed.buffer chunks
    ⟨fed.messages ++ onward.messages, onward.buffer⟩

/-- The messages of a new parser that is fed some chunks. -/
def sseMessages (chunks : List CodeUnits) : List SseMessage := (feedAll [] chunks).messages

end Parser

section Events

/-- The lines of a text that have ended, at a line feed or at a carriage return and a line feed. -/
def endedLines (line : CodeUnits) : CodeUnits → List CodeUnits
  | [] => []
  | [unit] => if unit = lf then [line] else []
  | first :: second :: rest =>
    if first = lf then line :: endedLines [] (second :: rest)
    else if first = cr ∧ second = lf then line :: endedLines [] rest
    else endedLines (line ++ [first]) (second :: rest)

/-- The lines of the events that a blank line has completed, each without that line. -/
def completed (event : List CodeUnits) : List CodeUnits → List (List CodeUnits)
  | [] => []
  | line :: lines => if line = [] then event :: completed [] lines else completed (event ++ [line]) lines

/-- What the lines of an event say, when it has data. -/
def eventMessage (lines : List CodeUnits) : Option SseMessage := (lines.foldl Fields.read noFields).message

/-- The messages of the complete events of a text. -/
def completeEvents (text : CodeUnits) : List SseMessage := (completed [] (endedLines [] text)).filterMap eventMessage

end Events

section Blocks

variable {text rest block more buffer : CodeUnits} {unit : UInt16}

theorem splitBoundary_eq (found : splitBoundary text = some (block, rest)) : text = block ++ lf :: lf :: rest := by
  induction text using splitBoundary.induct generalizing block with
  | case1 first second after both =>
    rw [splitBoundary, if_pos both] at found
    cases found
    rw [both.1, both.2]
    rfl
  | case2 first second after not ih =>
    rw [splitBoundary, if_neg not] at found
    obtain ⟨⟨block', rest'⟩, inside, same⟩ := Option.map_eq_some_iff.mp found
    cases same
    rw [ih inside]
    rfl
  | case3 text short =>
    rw [splitBoundary.eq_2 _ short] at found
    cases found

/-- A boundary stays where it is when text follows. -/
theorem splitBoundary_append (found : splitBoundary text = some (block, rest)) (more : CodeUnits) :
    splitBoundary (text ++ more) = some (block, rest ++ more) := by
  induction text using splitBoundary.induct generalizing block with
  | case1 first second after both =>
    rw [splitBoundary, if_pos both] at found
    cases found
    rw [List.cons_append, List.cons_append, splitBoundary, if_pos both]
  | case2 first second after not ih =>
    rw [splitBoundary, if_neg not] at found
    obtain ⟨⟨block', rest'⟩, inside, same⟩ := Option.map_eq_some_iff.mp found
    cases same
    have onward := ih inside
    rw [List.cons_append] at onward
    rw [List.cons_append, List.cons_append, splitBoundary, if_neg not, onward]
    rfl
  | case3 text short =>
    rw [splitBoundary.eq_2 _ short] at found
    cases found

/-- A text without a boundary gets one only from a second line feed. -/
theorem splitBoundary_snoc (none' : splitBoundary text = none) (unit : UInt16) (follows : ¬(text.getLast? = some lf ∧ unit = lf)) :
    splitBoundary (text ++ [unit]) = none := by
  induction text using splitBoundary.induct with
  | case1 first second after both =>
    rw [splitBoundary, if_pos both] at none'
    cases none'
  | case2 first second after not ih =>
    rw [splitBoundary, if_neg not, Option.map_eq_none_iff] at none'
    rw [List.getLast?_cons_cons] at follows
    have onward := ih none' follows
    rw [List.cons_append] at onward
    rw [List.cons_append, List.cons_append, splitBoundary, if_neg not, onward]
    rfl
  | case3 text short =>
    match text with
    | [] => rfl
    | [only] =>
      rw [List.getLast?_singleton, Option.some.injEq] at follows
      rw [List.singleton_append, splitBoundary, if_neg follows]
      rfl
    | first :: second :: after => exact absurd rfl (short first second after)

theorem splitBoundary_second (none' : splitBoundary (text ++ [lf]) = none) (rest : CodeUnits) :
    splitBoundary (text ++ lf :: lf :: rest) = some (text, rest) := by
  induction text with
  | nil => rw [List.nil_append, splitBoundary, if_pos ⟨rfl, rfl⟩]
  | cons first text ih =>
    cases text with
    | nil =>
      rw [List.singleton_append, splitBoundary] at none'
      split at none'
      · cases none'
      · next not =>
          rw [List.singleton_append, splitBoundary, if_neg not, splitBoundary, if_pos ⟨rfl, rfl⟩]
          rfl
    | cons second text =>
      rw [List.cons_append, List.cons_append, splitBoundary] at none'
      split at none'
      · cases none'
      · next not =>
          rw [Option.map_eq_none_iff] at none'
          have onward := ih none'
          rw [List.cons_append] at onward
          rw [List.cons_append, List.cons_append, splitBoundary, if_neg not, onward]
          rfl

theorem splitBoundary_shorter (found : splitBoundary text = some (block, rest)) : rest.length + 2 ≤ text.length := by
  rw [splitBoundary_eq found, List.length_append, List.length_cons, List.length_cons]
  omega

theorem drain_none (rounds : Nat) (none' : splitBoundary buffer = none) : drain rounds buffer = ⟨[], buffer⟩ := by
  cases rounds with
  | zero => rfl
  | succ rounds => rw [drain, none']

/-- Rounds beyond the length of the buffer change nothing. -/
theorem drain_enough (rounds : Nat) (enough : buffer.length ≤ rounds) : drain rounds buffer = drain buffer.length buffer := by
  induction rounds using Nat.strongRecOn generalizing buffer with
  | ind rounds ih =>
    cases found : splitBoundary buffer with
    | none => rw [drain_none rounds found, drain_none _ found]
    | some pair =>
      obtain ⟨block, rest⟩ := pair
      have shorter := splitBoundary_shorter found
      obtain ⟨fewer, rfl⟩ : ∃ fewer, rounds = fewer + 1 := ⟨rounds - 1, by omega⟩
      obtain ⟨length, equal⟩ : ∃ length, buffer.length = length + 1 := ⟨buffer.length - 1, by omega⟩
      rw [equal, drain, drain, found]
      dsimp only
      rw [ih fewer (by omega) (by omega), ← ih length (by omega) (by omega)]

/-- The loop to its end. -/
def drained (buffer : CodeUnits) : Fed := drain buffer.length buffer

theorem drained_none (none' : splitBoundary buffer = none) : drained buffer = ⟨[], buffer⟩ := drain_none _ none'

theorem drained_some (found : splitBoundary buffer = some (block, rest)) :
    drained buffer = ⟨(dispatch block).toList ++ (drained rest).messages, (drained rest).buffer⟩ := by
  have shorter := splitBoundary_shorter found
  rw [drained, ← drain_enough (buffer.length + 1) (Nat.le_succ _), drain, found]
  dsimp only
  rw [drain_enough buffer.length (by omega), drained]

theorem drained_settled (buffer : CodeUnits) : splitBoundary (drained buffer).buffer = none := by
  induction length : buffer.length using Nat.strongRecOn generalizing buffer with
  | ind length' ih =>
    cases found : splitBoundary buffer with
    | none => rw [drained_none found, found]
    | some pair =>
      rw [drained_some found]
      have shorter := splitBoundary_shorter found
      exact ih _ (by omega) pair.2 rfl

/-- Text that follows is drained after what the buffer keeps. -/
theorem drained_append (buffer more : CodeUnits) : drained (buffer ++ more) =
    ⟨(drained buffer).messages ++ (drained ((drained buffer).buffer ++ more)).messages,
      (drained ((drained buffer).buffer ++ more)).buffer⟩ := by
  induction length : buffer.length using Nat.strongRecOn generalizing buffer with
  | ind length' ih =>
    cases found : splitBoundary buffer with
    | none =>
      rw [drained_none found]
      rfl
    | some pair =>
      have shorter := splitBoundary_shorter found
      have onward := ih _ (by omega) pair.2 rfl
      rw [drained_some found, drained_some (splitBoundary_append found more), onward]
      dsimp only
      rw [List.append_assoc]

/-- The chunks are drained as one text, each normalised for itself. -/
theorem feedAll_drained (chunks : List CodeUnits) (settled : splitBoundary buffer = none) :
    feedAll buffer chunks = drained (buffer ++ chunks.flatMap normalise) := by
  induction chunks generalizing buffer with
  | nil => rw [List.flatMap_nil, List.append_nil, drained_none settled, feedAll]
  | cons chunk chunks ih =>
    rw [feedAll, List.flatMap_cons, ← List.append_assoc, drained_append, feed, ← drained, ih (drained_settled _)]

end Blocks

section LineEnds

variable {text one two : CodeUnits} {chunks : List CodeUnits}

/-- No chunk ends between a carriage return and its line feed. -/
def Unbroken (chunks : List CodeUnits) : Prop :=
  ∀ cut, ¬((chunks.take cut).flatten.getLast? = some cr ∧ (chunks.drop cut).flatten.head? = some lf)

theorem normalise_append (whole : ¬(one.getLast? = some cr ∧ two.head? = some lf)) :
    normalise (one ++ two) = normalise one ++ normalise two := by
  induction one using normalise.induct with
  | case1 => rfl
  | case2 unit =>
    cases two with
    | nil => rfl
    | cons second rest =>
      have apart : ¬(unit = cr ∧ second = lf) := by simpa using whole
      rw [List.singleton_append, normalise.eq_3, if_neg apart]
      rfl
  | case3 first second rest both ih =>
    rw [List.cons_append, List.cons_append, normalise, if_pos both, normalise, if_pos both]
    cases rest with
    | nil => rfl
    | cons third rest =>
      rw [List.getLast?_cons_cons, List.getLast?_cons_cons] at whole
      rw [ih whole]
      rfl
  | case4 first second rest not ih =>
    rw [List.getLast?_cons_cons] at whole
    have onward := ih whole
    rw [List.cons_append] at onward
    rw [List.cons_append, List.cons_append, normalise, if_neg not, normalise, if_neg not, onward]
    rfl

theorem Unbroken.tail {chunk : CodeUnits} (unbroken : Unbroken (chunk :: chunks)) : Unbroken chunks := by
  rintro cut ⟨last, first⟩
  refine unbroken (cut + 1) ⟨?_, first⟩
  rw [List.take_succ_cons, List.flatten_cons, List.getLast?_append, last]
  rfl

/-- Unbroken chunks are normalised as the whole text is, by induction on the chunks. -/
theorem flatMap_normalise (unbroken : Unbroken chunks) : chunks.flatMap normalise = normalise chunks.flatten := by
  induction chunks with
  | nil => rfl
  | cons chunk chunks ih =>
    have whole := unbroken 1
    rw [List.take_succ_cons, List.take_zero, List.flatten_singleton, List.drop_succ_cons, List.drop_zero] at whole
    rw [List.flatMap_cons, List.flatten_cons, ih unbroken.tail, normalise_append whole]

theorem unbroken_singleton (text : CodeUnits) : Unbroken [text] := by
  rintro cut ⟨last, first⟩
  cases cut with
  | zero => cases last
  | succ cut =>
    rw [List.drop_succ_cons, List.drop_nil] at first
    cases first

/-- The lines that a line feed has ended. -/
def fedLines (line : CodeUnits) : CodeUnits → List CodeUnits
  | [] => []
  | unit :: rest => if unit = lf then line :: fedLines [] rest else fedLines (line ++ [unit]) rest

theorem endedLines_normalise (line text : CodeUnits) : endedLines line text = fedLines line (normalise text) := by
  induction line, text using endedLines.induct with
  | case1 line => rfl
  | case2 line => rw [endedLines, if_pos rfl, normalise, fedLines, if_pos rfl, fedLines]
  | case3 line unit not => rw [endedLines, if_neg not, normalise, fedLines, if_neg not, fedLines]
  | case4 line second rest ih =>
    have notCr : ¬(lf = cr ∧ second = lf) := fun both => absurd both.1 (by decide)
    rw [endedLines, if_pos rfl, normalise, if_neg notCr, fedLines, if_pos rfl, ih]
  | case5 line first second rest not both ih =>
    rw [endedLines, if_neg not, if_pos both, normalise, if_pos both, fedLines, if_pos rfl, ih]
  | case6 line first second rest not notBoth ih =>
    rw [endedLines, if_neg not, if_neg notBoth, normalise, if_neg notBoth, fedLines, if_neg not, ih]

theorem splitLines_ne_nil (line text : CodeUnits) : splitLines line text ≠ [] := by
  induction text generalizing line with
  | nil => exact List.cons_ne_nil _ _
  | cons unit rest ih =>
    rw [splitLines]
    split
    · exact List.cons_ne_nil _ _
    · exact ih _

/-- One more unit ends the last line, or is the end of it. -/
theorem splitLines_snoc {line last : CodeUnits} {lines : List CodeUnits} (split : splitLines line text = lines ++ [last])
    (unit : UInt16) :
    splitLines line (text ++ [unit]) = if unit = lf then lines ++ [last, []] else lines ++ [last ++ [unit]] := by
  induction text generalizing line lines with
  | nil =>
    obtain ⟨rfl, same⟩ := (List.append_inj' split rfl : [] = lines ∧ _)
    cases same
    rw [List.nil_append, splitLines, splitLines, splitLines]
    rfl
  | cons first text ih =>
    rw [splitLines] at split
    rw [List.cons_append, splitLines]
    by_cases ends : first = lf
    · rw [if_pos ends] at split ⊢
      cases lines with
      | nil => exact absurd (List.cons.inj split).2 (splitLines_ne_nil [] text)
      | cons head lines =>
        rw [List.cons_append, List.cons.injEq] at split
        rw [ih split.2, split.1]
        split <;> rfl
    · rw [if_neg ends] at split ⊢
      exact ih split

/-- Blank lines say nothing. -/
theorem foldl_read_filter (fields : Fields) (lines : List CodeUnits) :
    (lines.filter fun line => decide (line ≠ [])).foldl Fields.read fields = lines.foldl Fields.read fields := by
  induction lines generalizing fields with
  | nil => rfl
  | cons line lines ih =>
    by_cases blank : line = []
    · subst blank
      rw [List.filter_cons_of_neg (by simp), ih]
      rfl
    · rw [List.filter_cons_of_pos (by simpa using blank), List.foldl_cons, List.foldl_cons, ih]

/-- A text that follows one without a boundary, by induction on its units: the lines before it are the event so far. -/
theorem drained_messages (following text last : CodeUnits) (lines : List CodeUnits) (settled : splitBoundary text = none)
    (split : splitLines [] text = lines ++ [last]) : (drained (text ++ following)).messages =
      (completed (lines.filter fun line => decide (line ≠ [])) (fedLines last following)).filterMap eventMessage := by
  induction following generalizing text lines last with
  | nil =>
    rw [List.append_nil, drained_none settled]
    rfl
  | cons unit following ih =>
    have onward := splitLines_snoc split unit
    rw [fedLines]
    by_cases ends : unit = lf
    · subst ends
      rw [if_pos rfl] at onward ⊢
      rcases List.eq_nil_or_concat text with rfl | ⟨before, final, same⟩
      · -- a blank line at the start
        obtain ⟨rfl, same⟩ := (List.append_inj' split rfl : [] = lines ∧ _)
        cases same
        have onward := ih [lf] [] [[]] rfl rfl
        rw [completed, if_pos rfl, List.filterMap_cons]
        exact onward
      · rw [List.concat_eq_append] at same
        subst same
        obtain ⟨earlier, current, known⟩ : ∃ earlier current, splitLines [] before = earlier ++ [current] :=
          ⟨_, _, (List.dropLast_append_getLast (splitLines_ne_nil [] before)).symm⟩
        have grown := splitLines_snoc known final
        rw [split] at grown
        by_cases twice : final = lf
        · -- the second line feed of a boundary
          subst twice
          rw [if_pos rfl] at grown
          obtain ⟨rfl, same⟩ := List.append_inj' (grown.trans (List.append_cons earlier current [[]])) rfl
          cases same
          have boundary := splitBoundary_second settled following
          rw [List.append_assoc, List.singleton_append, drained_some boundary]
          rw [completed, if_pos rfl, List.filterMap_cons]
          have restart := ih [] [] [] rfl rfl
          rw [List.nil_append] at restart
          have message : eventMessage ((earlier ++ [current]).filter fun line => decide (line ≠ [])) = dispatch before := by
            rw [eventMessage, foldl_read_filter, ← known, dispatch]
          rw [message, restart]
          cases dispatch before <;> rfl
        · rw [if_neg twice] at grown
          obtain ⟨rfl, same⟩ := List.append_inj' grown rfl
          cases same
          have some' : current ++ [final] ≠ [] := fun none' => absurd (List.append_eq_nil_iff.mp none').2 (List.cons_ne_nil _ _)
          have next : splitBoundary (before ++ [final] ++ [lf]) = none := by
            refine splitBoundary_snoc settled lf fun both => twice ?_
            rw [List.getLast?_concat] at both
            exact Option.some.inj both.1
          have onward' := ih _ [] (lines ++ [current ++ [final]]) next (onward.trans (by simp))
          rw [completed, if_neg some', List.append_cons, onward', List.filter_append]
          rw [List.filter_cons_of_pos (by simp), List.filter_nil]
    · rw [if_neg ends] at onward ⊢
      have next : splitBoundary (text ++ [unit]) = none := splitBoundary_snoc settled unit fun both => ends both.2
      rw [List.append_cons]
      exact ih _ _ _ next onward

/-- The parser's messages are the complete events of the text, and do not depend on its chunks, unless one ends between a
carriage return and its line feed. -/
theorem sseMessages_complete (chunks : List CodeUnits) (unbroken : Unbroken chunks) :
    sseMessages chunks = sseMessages [chunks.flatten] ∧ sseMessages chunks = completeEvents chunks.flatten := by
  have complete (chunks : List CodeUnits) (unbroken : Unbroken chunks) : sseMessages chunks = completeEvents chunks.flatten := by
    rw [sseMessages, feedAll_drained chunks rfl, List.nil_append, flatMap_normalise unbroken]
    have messages := drained_messages (normalise chunks.flatten) [] [] [] rfl rfl
    rw [List.nil_append] at messages
    rw [messages, completeEvents, endedLines_normalise]
    rfl
  have whole := complete [chunks.flatten] (unbroken_singleton _)
  rw [List.flatten_singleton] at whole
  exact ⟨(complete chunks unbroken).trans whole.symm, complete chunks unbroken⟩

/-- Two events with a comment, cut in a field's name and between the line ends of the blank line. -/
def cutText : List CodeUnits := ["da", "ta: one\r\n", "\r\n: ping\nid: 7\ndata:two\n", "\n"].map codeUnits

theorem sseMessages_complete_cut : sseMessages cutText = sseMessages [cutText.flatten] ∧ sseMessages cutText =
      [⟨codeUnits "message", none, codeUnits "one"⟩, ⟨codeUnits "message", some (codeUnits "7"), codeUnits "two"⟩] := by
  have unbroken : Unbroken cutText := by
    intro cut
    match cut with
    | 0 => decide +kernel
    | 1 => decide +kernel
    | 2 => decide +kernel
    | 3 => decide +kernel
    | cut + 4 =>
      rintro ⟨-, first⟩
      rw [List.drop_eq_nil_of_le (by rw [cutText, List.length_map]; exact Nat.le_add_left 4 cut)] at first
      cases first
  obtain ⟨whole, complete⟩ := sseMessages_complete cutText unbroken
  exact ⟨whole, complete.trans (by decide +kernel)⟩

/-- A carriage return at the end of a chunk stays in the line, and so the blank line is missed. -/
theorem broken_line_end :
    ¬∀ chunks, sseMessages chunks = sseMessages [chunks.flatten] ∧ sseMessages chunks = completeEvents chunks.flatten := by
  intro equal
  have broken := (equal (["data: one\r\n\r", "\n"].map codeUnits)).1
  exact absurd broken (by decide +kernel)

/-- A carriage return that stays in a comment is harmless. -/
example : sseMessages ([":\r", "\ndata: one\n\n"].map codeUnits) = completeEvents (codeUnits ":\r\ndata: one\n\n") := by
  decide +kernel

end LineEnds

end DurableExecution.Streams
