import TaskEngine.Text.Piece
import TaskEngine.Text.Word

/-!
# Patterns

A pattern describes the places of a text where a value stands behind a head that
announces it.  Places are looked for from left to right, and the search goes on
behind a value that was found, so the places do not overlap.

## Main definitions

* `Pattern` — a head, a value, and whether the head has to start a word.
* `Pattern.matchAt?` — the head and the value at the front of a text.
* `Pattern.segments` — a text as single characters and places.
* `segmentsText` — the text of segments; `segmentsText_segmentsAfter` says that nothing is lost.
-/

namespace TaskEngine

/-- A description of places. -/
structure Pattern where
  /-- Whether the head has to stand at the start of a word. -/
  startsWord : Bool
  /-- What announces the value. -/
  head : Piece
  /-- The value. -/
  value : Piece

/-- A place of a text. -/
structure Finding (text : List Char) where
  /-- What announces the value. -/
  head : List Char
  /-- The value. -/
  value : List Char
  /-- What follows. -/
  rest : List Char
  /-- The value is not empty. -/
  value_ne_nil : value ≠ []
  /-- The three parts make up the text. -/
  joined : head ++ value ++ rest = text

theorem Finding.length_rest_lt {text : List Char} (finding : Finding text) :
    finding.rest.length < text.length := by
  have h := congrArg List.length finding.joined
  have hv : 0 < finding.value.length := List.length_pos_iff.mpr finding.value_ne_nil
  simp only [List.length_append] at h
  omega

/-- A part of a text. -/
inductive Segment
  /-- A character outside of all places. -/
  | plain (c : Char)
  /-- A place. -/
  | place (head value : List Char)
  deriving DecidableEq

/-- The text of a segment. -/
def Segment.text : Segment → List Char
  | .plain c => [c]
  | .place head value => head ++ value

/-- The text of segments. -/
def segmentsText (segments : List Segment) : List Char := segments.flatMap Segment.text

/-- Whether a word can start behind a character, or at the very start. -/
def wordCanStart : Option Char → Bool
  | none => true
  | some c => !isWordChar c

namespace Pattern

/-- The place at the front of a text, if there is one; `before` is the character in front of
the text. -/
def matchAt? (pattern : Pattern) (before : Option Char) (text : List Char) :
    Option (Finding text) :=
  if pattern.startsWord && !wordCanStart before then none
  else match hh : pattern.head.split text with
    | none => none
    | some (head, behind) => match hv : pattern.value.split behind with
      | none => none
      | some (value, rest) =>
        if h : value ≠ [] then
          some ⟨head, value, rest, h, by
            rw [List.append_assoc, pattern.value.joined hv, pattern.head.joined hh]⟩
        else none

/-- The segments of a text behind a given character. -/
def segmentsAfter (pattern : Pattern) (before : Option Char) (text : List Char) : List Segment :=
  match text with
  | [] => []
  | c :: tail => match pattern.matchAt? before (c :: tail) with
    | none => .plain c :: pattern.segmentsAfter (some c) tail
    | some finding =>
      .place finding.head finding.value ::
        pattern.segmentsAfter (finding.head ++ finding.value).getLast? finding.rest
termination_by text.length
decreasing_by
  · simp
  · exact finding.length_rest_lt

/-- The segments of a text. -/
def segments (pattern : Pattern) (text : List Char) : List Segment :=
  pattern.segmentsAfter none text

theorem segmentsText_segmentsAfter (pattern : Pattern) (before : Option Char) (text : List Char) :
    segmentsText (pattern.segmentsAfter before text) = text := by
  fun_induction pattern.segmentsAfter before text with
  | case1 => rfl
  | case2 before c tail h ih =>
    simp only [segmentsText, List.flatMap_cons, Segment.text, List.singleton_append,
      List.cons.injEq, true_and]
    exact ih
  | case3 before c tail finding h ih =>
    have ih : List.flatMap Segment.text _ = finding.rest := ih
    simp only [segmentsText, List.flatMap_cons, Segment.text, ih]
    exact finding.joined

end Pattern

end TaskEngine
