/-!
# Pieces of text

A piece takes a stretch from the front of a text, as long as it can, and never
gives any of it back.  Pieces put together describe texts whose parts end where
the next part cannot go on, so the longest choice is the only one.

## Main definitions

* `Piece` — a way to take characters from the front, with the proof that nothing is lost.
* `Piece.word`, `Piece.literal` — a fixed word, in any case of letters or exactly.
* `Piece.run` — the longest stretch of one kind of character.
* `Piece.followedBy`, `Piece.orElse` — one piece after another, or instead of another.
-/

namespace TaskEngine

/-- A way to take characters from the front of a text. -/
structure Piece where
  /-- The characters taken and those left, or nothing if the text starts otherwise. -/
  split : List Char → Option (List Char × List Char)
  /-- What is taken and what is left make up the text. -/
  joined : ∀ {text taken rest}, split text = some (taken, rest) → taken ++ rest = text

/-- Whether a character is a given small letter or its capital, with the long s for an s and
the kelvin sign for a k; a character that is no letter stands for itself alone. -/
def sameLetter (small c : Char) : Bool :=
  c == small || c == small.toUpper || (small == 's' && c == '\u017f') || (small == 'k' && c == '\u212a')

/-- The characters after a prefix that agrees with a word under a relation. -/
def dropWord (same : Char → Char → Bool) : List Char → List Char → Option (List Char × List Char)
  | [], text => some ([], text)
  | _ :: _, [] => none
  | small :: word, c :: text =>
    if same small c then (dropWord same word text).map fun (taken, rest) => (c :: taken, rest)
    else none

theorem dropWord_joined {same : Char → Char → Bool} {word text taken rest : List Char}
    (h : dropWord same word text = some (taken, rest)) : taken ++ rest = text := by
  induction word generalizing text taken with
  | nil => simp only [dropWord, Option.some.injEq, Prod.mk.injEq] at h; simp [← h.1, ← h.2]
  | cons small word ih =>
    cases text with
    | nil => simp [dropWord] at h
    | cons c text =>
      simp only [dropWord] at h
      split at h
      · obtain ⟨⟨taken', rest'⟩, h', e⟩ := Option.map_eq_some_iff.1 h
        simp only [Prod.mk.injEq] at e
        obtain ⟨rfl, rfl⟩ := e
        rw [List.cons_append, ih h']
      · simp at h

namespace Piece

/-- A word of small letters, in any case of letters. -/
def word (small : String) : Piece := ⟨dropWord sameLetter small.toList, dropWord_joined⟩

/-- A text exactly as written. -/
def literal (text : String) : Piece := ⟨dropWord (· == ·) text.toList, dropWord_joined⟩

/-- The longest stretch of a kind of character, if its length is within bounds. -/
def run (kind : Char → Bool) (atLeast : Nat) (atMost : Option Nat) : Piece where
  split text :=
    let taken := text.takeWhile kind
    if atLeast ≤ taken.length ∧ atMost.all (taken.length ≤ ·) then
      some (taken, text.dropWhile kind)
    else none
  joined h := by
    dsimp only at h
    split at h
    · simp only [Option.some.injEq, Prod.mk.injEq] at h
      rw [← h.1, ← h.2, List.takeWhile_append_dropWhile]
    · simp at h

/-- The longest stretch of a kind of character, which may be empty. -/
def many (kind : Char → Bool) : Piece := run kind 0 none

/-- The longest stretch of a kind of character, which has at least one. -/
def atLeastOne (kind : Char → Bool) : Piece := run kind 1 none

/-- One character of a kind. -/
def one (kind : Char → Bool) : Piece where
  split
    | c :: rest => if kind c then some ([c], rest) else none
    | [] => none
  joined {text taken rest} h := by
    cases text with
    | nil => simp at h
    | cons c text =>
      dsimp only at h
      split at h
      · simp only [Option.some.injEq, Prod.mk.injEq] at h
        simp [← h.1, ← h.2]
      · simp at h

/-- One character of a kind, or nothing. -/
def optional (kind : Char → Bool) : Piece where
  split
    | c :: rest => if kind c then some ([c], rest) else some ([], c :: rest)
    | [] => some ([], [])
  joined {text taken rest} h := by
    cases text with
    | nil => simp only [Option.some.injEq, Prod.mk.injEq] at h; simp [← h.1, ← h.2]
    | cons c text =>
      dsimp only at h
      split at h
      · simp only [Option.some.injEq, Prod.mk.injEq] at h
        simp [← h.1, ← h.2]
      · simp only [Option.some.injEq, Prod.mk.injEq] at h
        simp [← h.1, ← h.2]

/-- One piece and then another. -/
def followedBy (first second : Piece) : Piece where
  split text := match first.split text with
    | none => none
    | some (taken, rest) => (second.split rest).map fun (more, rest) => (taken ++ more, rest)
  joined {text taken rest} h := by
    dsimp only at h
    split at h
    · simp at h
    · rename_i taken₁ rest₁ h₁
      obtain ⟨⟨more, rest₂⟩, h₂, e⟩ := Option.map_eq_some_iff.1 h
      simp only [Prod.mk.injEq] at e
      obtain ⟨rfl, rfl⟩ := e
      rw [List.append_assoc, second.joined h₂, first.joined h₁]

/-- A piece, or another where the first does not start. -/
def orElse (first second : Piece) : Piece where
  split text := match first.split text with
    | none => second.split text
    | some taken => some taken
  joined {text taken rest} h := by
    split at h
    · exact second.joined h
    · rename_i h₁
      exact first.joined (h₁.trans h)

/-- Whether a piece starts the text. -/
def starts (piece : Piece) (text : List Char) : Bool := (piece.split text).isSome

/-- Whether a piece starts somewhere in the text. -/
def occurs (piece : Piece) : List Char → Bool
  | [] => piece.starts []
  | c :: text => piece.starts (c :: text) || piece.occurs text

end Piece

end TaskEngine
