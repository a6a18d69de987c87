import TaskEngine.Json.Number
import TaskEngine.Text.Radix

/-!
# Tokens of JSON text

The text of a value falls into brackets, separators, words, numbers and quoted
texts, with blanks between them.  A quoted text may name halves of a surrogate pair
by their numbers; a lone half is well formed as a token but names no text, which
matters only where the text is wanted.

## Main definitions

* `Token` — the tokens; `bad` stands for everything after a fault.
* `lexQuoted`, `joinUnits` — the units of a quoted text, and the text they name.
* `lexNumber` — a number as written.
* `tokens` — the tokens of a text.
-/

namespace TaskEngine.Json

open TaskEngine

/-- A token. -/
inductive Token
  | beginObject
  | endObject
  | beginArray
  | endArray
  | colon
  | comma
  | null
  | bool (flag : Bool)
  | number (lexeme : NumberLexeme)
  /-- A quoted text, or none if it holds half of a surrogate pair. -/
  | quoted (text : Option (List Char))
  /-- The text goes on with something that is no token. -/
  | bad
  deriving DecidableEq

/-- A unit of a quoted text: a character, or half of a surrogate pair by its number. -/
inductive QuotedUnit
  | char (c : Char)
  | half (n : Nat)
  deriving DecidableEq

/-- The unit of a number of sixteen bits. -/
def QuotedUnit.ofNumber (n : Nat) : QuotedUnit :=
  if 0xD800 ≤ n ∧ n < 0xE000 then .half n else .char (Char.ofNat n)

/-- The character that a backslash and a letter stand for. -/
def shortEscape? (c : Char) : Option Char :=
  if c = '\x22' then some '\x22'
  else if c = '\\' then some '\\'
  else if c = '/' then some '/'
  else if c = 'b' then some '\x08'
  else if c = 'f' then some '\x0c'
  else if c = 'n' then some '\n'
  else if c = 'r' then some '\r'
  else if c = 't' then some '\t'
  else none

/-- The units of a quoted text after its opening quote, and what follows its closing quote. -/
def lexQuoted : List Char → Option (List QuotedUnit × List Char)
  | [] => none
  | '\\' :: 'u' :: a :: b :: c :: d :: rest =>
    match radixNumber? 16 [a, b, c, d], lexQuoted rest with
    | some n, some (units, after) => some (.ofNumber n :: units, after)
    | _, _ => none
  | '\\' :: c :: rest =>
    match shortEscape? c, lexQuoted rest with
    | some c, some (units, after) => some (.char c :: units, after)
    | _, _ => none
  | c :: rest =>
    if c = '\x22' then some ([], rest)
    else if c = '\\' ∨ c.toNat < 0x20 then none
    else (lexQuoted rest).map fun (units, after) => (.char c :: units, after)

/-- The text that units name: two fitting halves in a row are one character, a lone half is
none. -/
def joinUnits : List QuotedUnit → Option (List Char)
  | [] => some []
  | .char c :: units => (joinUnits units).map (c :: ·)
  | .half high :: .half low :: units =>
    if high < 0xDC00 ∧ 0xDC00 ≤ low then
      (joinUnits units).map
        (Char.ofNat (0x10000 + (high - 0xD800) * 0x400 + (low - 0xDC00)) :: ·)
    else none
  | .half _ :: _ => none

/-- The digits at the front of a text. -/
def leadingDigits (text : List Char) : List Char × List Char :=
  (text.takeWhile isDecimalDigit, text.dropWhile isDecimalDigit)

/-- The digits after a point; a point without digits is a fault. -/
def lexFraction : List Char → Option (Option (List Char) × List Char)
  | '.' :: rest =>
    match leadingDigits rest with
    | ([], _) => none
    | (digits, rest) => some (some digits, rest)
  | rest => some (none, rest)

/-- The sign and digits of an exponent; an exponent without digits is a fault. -/
def lexExponent : List Char → Option (Option (Bool × List Char) × List Char)
  | [] => some (none, [])
  | c :: rest =>
    if c = 'e' ∨ c = 'E' then
      let (negative, unsigned) := Binary64.splitSign rest
      match leadingDigits unsigned with
      | ([], _) => none
      | (digits, rest) => some (some (negative, digits), rest)
    else some (none, c :: rest)

/-- The digits before the point: a lone zero, or digits of which the first is no zero. -/
def lexWhole : List Char → Option (List Char × List Char)
  | '0' :: rest => some (['0'], rest)
  | rest =>
    match leadingDigits rest with
    | ([], _) => none
    | digits => some digits

/-- A number without its sign. -/
def lexUnsigned (negative : Bool) (text : List Char) : Option (NumberLexeme × List Char) :=
  (lexWhole text).bind fun (whole, afterWhole) =>
  (lexFraction afterWhole).bind fun (fraction, afterFraction) =>
  (lexExponent afterFraction).map fun (exponent, rest) =>
    (⟨negative, whole, fraction, exponent⟩, rest)

/-- A number as written. -/
def lexNumber : List Char → Option (NumberLexeme × List Char)
  | '-' :: rest => lexUnsigned true rest
  | rest => lexUnsigned false rest

/-- A fixed word. -/
def lexWord (word : String) (token : Token) (text : List Char) : Option (Token × List Char) :=
  if word.toList.isPrefixOf text then some (token, text.drop word.length) else none

/-- Blanks between tokens. -/
def isBlank (c : Char) : Bool := c == ' ' || c == '\n' || c == '\t' || c == '\r'

/-- The first token of a text that starts with no blank. -/
def lexToken (c : Char) (rest : List Char) : Option (Token × List Char) :=
  if c = '\x7b' then some (.beginObject, rest)
  else if c = '\x7d' then some (.endObject, rest)
  else if c = '[' then some (.beginArray, rest)
  else if c = ']' then some (.endArray, rest)
  else if c = ':' then some (.colon, rest)
  else if c = ',' then some (.comma, rest)
  else if c = '\x22' then
    (lexQuoted rest).map fun (units, after) => (.quoted (joinUnits units), after)
  else if c = 'n' then lexWord "ull" .null rest
  else if c = 't' then lexWord "rue" (.bool true) rest
  else if c = 'f' then lexWord "alse" (.bool false) rest
  else (lexNumber (c :: rest)).map fun (lexeme, after) => (.number lexeme, after)

/-! ### Every token takes at least one character -/

theorem length_lexQuoted {text : List Char} {units : List QuotedUnit} {rest : List Char}
    (h : lexQuoted text = some (units, rest)) : rest.length < text.length := by
  fun_induction lexQuoted text generalizing units rest with
  | case1 => simp at h
  | case2 a b c d tail n units' after hq _ ih =>
    simp only [Option.some.injEq, Prod.mk.injEq] at h
    obtain ⟨-, rfl⟩ := h
    have := ih hq
    simp only [List.length_cons]
    omega
  | case3 => simp at h
  | case4 c tail _ c' units' after hq _ ih =>
    simp only [Option.some.injEq, Prod.mk.injEq] at h
    obtain ⟨-, rfl⟩ := h
    have := ih hq
    simp only [List.length_cons]
    omega
  | case5 => simp at h
  | case6 tail =>
    simp only [Option.some.injEq, Prod.mk.injEq] at h
    obtain ⟨-, rfl⟩ := h
    simp
  | case7 => simp at h
  | case8 c tail _ _ _ _ ih =>
    obtain ⟨⟨units', after⟩, hq, e⟩ := Option.map_eq_some_iff.1 h
    simp only [Prod.mk.injEq] at e
    obtain ⟨-, rfl⟩ := e
    have := ih hq
    simp only [List.length_cons]
    omega

theorem length_leadingDigits (text : List Char) :
    (leadingDigits text).1.length + (leadingDigits text).2.length = text.length := by
  rw [leadingDigits, ← List.length_append, List.takeWhile_append_dropWhile]

theorem length_lexWhole {text whole rest : List Char} (h : lexWhole text = some (whole, rest)) :
    rest.length < text.length := by
  unfold lexWhole at h
  split at h
  · simp only [Option.some.injEq, Prod.mk.injEq] at h
    simp [← h.2]
  · have hlen := length_leadingDigits text
    split at h
    · simp at h
    · rename_i digits hd
      simp only [Option.some.injEq] at h
      have hne : (leadingDigits text).1 ≠ [] := fun e =>
        hd (leadingDigits text).2 (Prod.ext e rfl)
      have hp : 0 < (leadingDigits text).1.length := List.length_pos_iff.2 hne
      simp only [h] at hlen hp
      omega

theorem length_lexFraction {text : List Char} {fraction : Option (List Char)} {rest : List Char}
    (h : lexFraction text = some (fraction, rest)) : rest.length ≤ text.length := by
  unfold lexFraction at h
  split at h
  · rename_i tail
    have hlen := length_leadingDigits tail
    split at h
    · simp at h
    · rename_i digits after _ hd
      simp only [Option.some.injEq, Prod.mk.injEq] at h
      obtain ⟨-, rfl⟩ := h
      simp only [hd] at hlen
      simp only [List.length_cons]
      omega
  · simp only [Option.some.injEq, Prod.mk.injEq] at h
    simp [← h.2]

theorem length_splitSign (text : List Char) :
    (Binary64.splitSign text).2.length ≤ text.length := by
  unfold Binary64.splitSign
  split <;> simp

theorem length_lexExponent {text : List Char} {exponent : Option (Bool × List Char)}
    {rest : List Char} (h : lexExponent text = some (exponent, rest)) :
    rest.length ≤ text.length := by
  unfold lexExponent at h
  split at h
  · simp only [Option.some.injEq, Prod.mk.injEq] at h
    simp [← h.2]
  · rename_i c tail
    split at h
    · have hs := length_splitSign tail
      have hlen := length_leadingDigits (Binary64.splitSign tail).2
      dsimp only at h
      split at h
      · simp at h
      · rename_i digits after _ hd
        simp only [Option.some.injEq, Prod.mk.injEq] at h
        obtain ⟨-, rfl⟩ := h
        simp only [hd] at hlen
        simp only [List.length_cons]
        omega
    · simp only [Option.some.injEq, Prod.mk.injEq] at h
      simp [← h.2]

theorem length_lexUnsigned {negative : Bool} {text : List Char} {lexeme : NumberLexeme}
    {rest : List Char} (h : lexUnsigned negative text = some (lexeme, rest)) :
    rest.length < text.length := by
  unfold lexUnsigned at h
  obtain ⟨⟨whole, afterWhole⟩, hw, h⟩ := Option.bind_eq_some_iff.1 h
  obtain ⟨⟨fraction, afterFraction⟩, hf, h⟩ := Option.bind_eq_some_iff.1 h
  obtain ⟨⟨exponent, after⟩, he, h⟩ := Option.map_eq_some_iff.1 h
  simp only [Prod.mk.injEq] at h
  obtain ⟨-, rfl⟩ := h
  have := length_lexWhole hw
  have := length_lexFraction hf
  have := length_lexExponent he
  omega

theorem length_lexNumber {text : List Char} {lexeme : NumberLexeme} {rest : List Char}
    (h : lexNumber text = some (lexeme, rest)) : rest.length < text.length := by
  unfold lexNumber at h
  split at h
  · have := length_lexUnsigned h
    simp only [List.length_cons]
    omega
  · exact length_lexUnsigned h

theorem length_lexWord {word : String} {token t : Token} {text rest : List Char}
    (h : lexWord word token text = some (t, rest)) : rest.length ≤ text.length := by
  unfold lexWord at h
  split at h
  · simp only [Option.some.injEq, Prod.mk.injEq] at h
    simp only [← h.2, List.length_drop]
    omega
  · simp at h

theorem length_lexToken {c : Char} {text : List Char} {token : Token} {rest : List Char}
    (h : lexToken c text = some (token, rest)) : rest.length ≤ text.length := by
  unfold lexToken at h
  repeat' split at h
  all_goals first
    | exact length_lexWord h
    | (simp only [Option.some.injEq, Prod.mk.injEq] at h; simp [← h.2])
    | skip
  · obtain ⟨⟨units, after⟩, hq, e⟩ := Option.map_eq_some_iff.1 h
    simp only [Prod.mk.injEq] at e
    obtain ⟨-, rfl⟩ := e
    exact Nat.le_of_lt (length_lexQuoted hq)
  · obtain ⟨⟨lexeme, after⟩, hn, e⟩ := Option.map_eq_some_iff.1 h
    simp only [Prod.mk.injEq] at e
    obtain ⟨-, rfl⟩ := e
    have := length_lexNumber hn
    simp only [List.length_cons] at this
    omega

/-- The tokens of a text; after a fault there is one bad token and nothing more. -/
def tokens (text : List Char) : List Token :=
  match text with
  | [] => []
  | c :: rest =>
    if isBlank c then tokens rest
    else match _h : lexToken c rest with
      | none => [.bad]
      | some (token, after) => token :: tokens after
termination_by text.length
decreasing_by
  · simp
  · have := length_lexToken _h
    simp only [List.length_cons]
    omega

end TaskEngine.Json
