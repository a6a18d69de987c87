import TaskEngine.Redaction
import Mathlib.Data.List.Forall2
import Mathlib.Data.List.TakeWhile

/-!
# What pieces take

A piece cuts a text in two.  Which cuts it makes is stated once for every way of building
a piece, so that later proofs speak of the characters taken and of those left, and never
of how they are found.

A piece need not look at the whole text.  Fixed words look at nothing behind them, the
longest stretch of a kind of character looks at the next character, and a head that ends
in white space looks only at whether the next character is white space too.

## Main definitions

* `Piece.Takes` — a piece cuts a text between two given parts.
* `Piece.Firm` — what stands behind a taken text does not matter.
* `Piece.LooksAhead` — only the next character matters.
* `Piece.EndsAtSolid` — it matters only that the next character is not white space.

## Main results

* `takes_word`, `takes_run`, `takes_followedBy`, `takes_runEndingIn`,
  `takes_upToTrailingSpace`, … — the cuts that each kind of piece makes.
* `LooksAhead.followedBy_endsAtSolid` — how heads of several parts look ahead.
-/

namespace TaskEngine

/-- What holds of all characters of a text is decided by going through the text.  There are only
finitely many characters, but going through all of them would take too long. -/
instance (priority := 2000) decidableForallMemText {p : Char → Prop} [DecidablePred p]
    (text : List Char) : Decidable (∀ c ∈ text, p c) :=
  List.decidableBAll p text

namespace Piece

/-- The piece takes the first part of a text and leaves the second. -/
def Takes (piece : Piece) (taken rest : List Char) : Prop :=
  piece.split (taken ++ rest) = some (taken, rest)

theorem split_eq_some_iff {piece : Piece} {text taken rest : List Char} :
    piece.split text = some (taken, rest) ↔ text = taken ++ rest ∧ piece.Takes taken rest := by
  constructor
  · intro h
    have hjoined := piece.joined h
    exact ⟨hjoined.symm, by rw [Takes, hjoined]; exact h⟩
  · rintro ⟨rfl, h⟩
    exact h

/-- A text is cut in at most one place. -/
theorem Takes.unique {piece : Piece} {taken rest taken' rest' : List Char}
    (h : piece.Takes taken rest) (h' : piece.Takes taken' rest')
    (heq : taken ++ rest = taken' ++ rest') : taken = taken' ∧ rest = rest' := by
  rw [Takes] at h h'
  rw [heq, h'] at h
  simp only [Option.some.injEq, Prod.mk.injEq] at h
  exact ⟨h.1.symm, h.2.symm⟩

/-! ### Words -/

theorem dropWord_eq_some_iff {same : Char → Char → Bool} {word text taken rest : List Char} :
    dropWord same word text = some (taken, rest) ↔
      text = taken ++ rest ∧ List.Forall₂ (fun small c => same small c = true) word taken := by
  induction word generalizing text taken with
  | nil =>
    simp only [dropWord, Option.some.injEq, Prod.mk.injEq, List.forall₂_nil_left_iff]
    constructor
    · rintro ⟨rfl, rfl⟩
      exact ⟨rfl, rfl⟩
    · rintro ⟨rfl, rfl⟩
      exact ⟨rfl, rfl⟩
  | cons small word ih =>
    cases text with
    | nil =>
      simp only [dropWord, reduceCtorEq, false_iff, not_and]
      intro h hword
      obtain ⟨rfl, -⟩ := List.append_eq_nil_iff.1 h.symm
      simp at hword
    | cons c text =>
      rw [List.forall₂_cons_left_iff]
      constructor
      · intro h
        simp only [dropWord] at h
        split at h
        · rename_i hc
          obtain ⟨⟨taken', rest'⟩, h', e⟩ := Option.map_eq_some_iff.1 h
          simp only [Prod.mk.injEq] at e
          obtain ⟨rfl, rfl⟩ := e
          obtain ⟨rfl, hword⟩ := ih.1 h'
          exact ⟨rfl, c, taken', hc, hword, rfl⟩
        · simp at h
      · rintro ⟨htext, d, taken', hd, hword, rfl⟩
        rw [List.cons_append] at htext
        obtain ⟨rfl, rfl⟩ := List.cons.inj htext
        simp only [dropWord, hd, if_true, ih.2 ⟨rfl, hword⟩, Option.map_some]

theorem takes_word {small : String} {taken rest : List Char} :
    (word small).Takes taken rest ↔
      List.Forall₂ (fun small c => sameLetter small c = true) small.toList taken := by
  rw [Takes, word, dropWord_eq_some_iff]
  simp

theorem takes_literal {text : String} {taken rest : List Char} :
    (literal text).Takes taken rest ↔ taken = text.toList := by
  rw [Takes, literal, dropWord_eq_some_iff]
  simp only [true_and, beq_iff_eq, List.forall₂_eq_eq_eq]
  exact eq_comm

/-! ### Stretches of one kind of character -/

theorem takeWhile_append_of_stop {kind : Char → Bool} {taken rest : List Char}
    (htaken : ∀ c ∈ taken, kind c = true) (hrest : ∀ c ∈ rest.head?, kind c = false) :
    (taken ++ rest).takeWhile kind = taken := by
  rw [List.takeWhile_append_of_pos htaken]
  cases rest with
  | nil => simp
  | cons c rest => simp [hrest c (by simp)]

theorem dropWhile_append_of_stop {kind : Char → Bool} {taken rest : List Char}
    (htaken : ∀ c ∈ taken, kind c = true) (hrest : ∀ c ∈ rest.head?, kind c = false) :
    (taken ++ rest).dropWhile kind = rest := by
  rw [List.dropWhile_append_of_pos htaken]
  cases rest with
  | nil => simp
  | cons c rest => simp [hrest c (by simp)]

/-- The longest stretch of a kind ends where the next character is of another kind. -/
theorem takeWhile_eq_iff {kind : Char → Bool} {taken rest : List Char} :
    (taken ++ rest).takeWhile kind = taken ∧ (taken ++ rest).dropWhile kind = rest ↔
      (∀ c ∈ taken, kind c = true) ∧ ∀ c ∈ rest.head?, kind c = false := by
  constructor
  · rintro ⟨htaken, hrest⟩
    refine ⟨fun c hc => ?_, fun c hc => ?_⟩
    · rw [← htaken] at hc
      exact List.mem_takeWhile_imp hc
    · rw [← hrest] at hc
      have h := List.head?_dropWhile_not kind (taken ++ rest)
      rw [Option.mem_def] at hc
      rw [hc] at h
      simpa using h
  · rintro ⟨htaken, hrest⟩
    exact ⟨takeWhile_append_of_stop htaken hrest, dropWhile_append_of_stop htaken hrest⟩

theorem takes_run {kind : Char → Bool} {atLeast : Nat} {atMost : Option Nat}
    {taken rest : List Char} :
    (run kind atLeast atMost).Takes taken rest ↔
      (∀ c ∈ taken, kind c = true) ∧ (∀ c ∈ rest.head?, kind c = false) ∧
        atLeast ≤ taken.length ∧ atMost.all (taken.length ≤ ·) := by
  rw [← and_assoc, ← takeWhile_eq_iff, Takes]
  simp only [run]
  constructor
  · intro h
    split at h
    · rename_i hlength
      simp only [Option.some.injEq, Prod.mk.injEq] at h
      rw [h.1] at hlength
      exact ⟨h, hlength⟩
    · simp at h
  · rintro ⟨⟨htaken, hrest⟩, hlength⟩
    rw [htaken, hrest, if_pos hlength]

theorem takes_one {kind : Char → Bool} {taken rest : List Char} :
    (one kind).Takes taken rest ↔ ∃ c, taken = [c] ∧ kind c = true := by
  rw [Takes]
  simp only [one]
  cases taken with
  | nil =>
    simp only [List.nil_append, List.ne_cons_self, false_and, exists_false, iff_false]
    cases rest with
    | nil => simp
    | cons c rest => by_cases hc : kind c <;> simp [hc]
  | cons c taken =>
    simp only [List.cons_append]
    by_cases hc : kind c
    · simp only [hc, if_true, Option.some.injEq, Prod.mk.injEq, List.cons.injEq, true_and]
      constructor
      · rintro ⟨rfl, -⟩
        exact ⟨c, ⟨rfl, rfl⟩, hc⟩
      · rintro ⟨d, ⟨rfl, rfl⟩, -⟩
        exact ⟨rfl, rfl⟩
    · simp only [hc, Bool.false_eq_true, if_false, reduceCtorEq, false_iff, not_exists]
      rintro d ⟨hd, hkind⟩
      obtain ⟨rfl, -⟩ := List.cons.inj hd
      exact hc hkind

/-! ### Pieces put together -/

theorem takes_followedBy {first second : Piece} {taken rest : List Char} :
    (first.followedBy second).Takes taken rest ↔
      ∃ front back, taken = front ++ back ∧ first.Takes front (back ++ rest) ∧
        second.Takes back rest := by
  rw [Takes]
  simp only [followedBy]
  constructor
  · intro h
    split at h
    · simp at h
    · rename_i front rest₁ hfirst
      obtain ⟨⟨back, rest₂⟩, hsecond, e⟩ := Option.map_eq_some_iff.1 h
      simp only [Prod.mk.injEq] at e
      obtain ⟨rfl, rfl⟩ := e
      obtain ⟨rfl, hback⟩ := split_eq_some_iff.1 hsecond
      exact ⟨front, back, rfl, (split_eq_some_iff.1 hfirst).2, hback⟩
  · rintro ⟨front, back, rfl, hfront, hback⟩
    rw [Takes] at hfront hback
    rw [List.append_assoc, hfront]
    simp only [hback, Option.map_some]

theorem takes_orElse {first second : Piece} {taken rest : List Char} :
    (first.orElse second).Takes taken rest ↔
      first.Takes taken rest ∨ first.split (taken ++ rest) = none ∧ second.Takes taken rest := by
  simp only [Takes, orElse]
  cases first.split (taken ++ rest) with
  | none => simp
  | some cut => simp

/-- The words that a stretch may end in. -/
theorem takes_runEndingIn {kind : Char → Bool} {words : List String} {taken rest : List Char} :
    (runEndingIn kind words).Takes taken rest ↔
      (∀ c ∈ taken, kind c = true) ∧ (∀ c ∈ rest.head?, kind c = false) ∧
        ∃ small ∈ words, ∃ front back, taken = front ++ back ∧
          List.Forall₂ (fun small c => sameLetter small c = true) small.toList back := by
  -- the words are looked for from the end, so both sides are turned round
  have hends : ∀ small : String,
      (dropWord sameLetter small.toList.reverse taken.reverse).isSome = true ↔
        ∃ front back, taken = front ++ back ∧
          List.Forall₂ (fun small c => sameLetter small c = true) small.toList back := by
    intro small
    rw [Option.isSome_iff_exists]
    constructor
    · rintro ⟨⟨back, front⟩, h⟩
      obtain ⟨htaken, hword⟩ := dropWord_eq_some_iff.1 h
      refine ⟨front.reverse, back.reverse, ?_, ?_⟩
      · rw [← List.reverse_append, ← htaken, List.reverse_reverse]
      · rw [← List.reverse_reverse small.toList]
        exact List.rel_reverse hword
    · rintro ⟨front, back, rfl, hword⟩
      refine ⟨(back.reverse, front.reverse), dropWord_eq_some_iff.2 ⟨?_, ?_⟩⟩
      · rw [List.reverse_append]
      · exact List.rel_reverse hword
  rw [← and_assoc, ← takeWhile_eq_iff, Takes]
  simp only [runEndingIn, List.any_eq_true]
  constructor
  · intro h
    split at h
    · rename_i hwords
      simp only [Option.some.injEq, Prod.mk.injEq] at h
      obtain ⟨small, hsmall, hword⟩ := hwords
      rw [h.1] at hword
      exact ⟨h, small, hsmall, (hends small).1 hword⟩
    · simp at h
  · rintro ⟨⟨htaken, hrest⟩, small, hsmall, hword⟩
    rw [htaken, hrest, if_pos ⟨small, hsmall, (hends small).2 hword⟩]

/-- A text up to its trailing white space: its ends are solid, and only white space is left. -/
theorem takes_upToTrailingSpace {taken rest : List Char} :
    upToTrailingSpace.Takes taken rest ↔
      (∃ c ∈ (taken ++ rest).head?, isSpace c = false) ∧
        (∀ c ∈ taken.getLast?, isSpace c = false) ∧ ∀ c ∈ rest, isSpace c = true := by
  -- read from the end, the white space is a longest stretch like any other
  have hcut : trimEnd (taken ++ rest) = taken ∧
      ((taken ++ rest).reverse.takeWhile isSpace).reverse = rest ↔
        (∀ c ∈ taken.getLast?, isSpace c = false) ∧ ∀ c ∈ rest, isSpace c = true := by
    rw [trimEnd, trimStart, List.reverse_eq_iff, List.reverse_eq_iff, List.reverse_append,
      and_comm, takeWhile_eq_iff, and_comm]
    simp
  rw [← hcut, Takes]
  simp only [upToTrailingSpace]
  constructor
  · intro h
    split at h
    · rename_i hhead
      simp only [Option.some.injEq, Prod.mk.injEq] at h
      obtain ⟨c, hc, hsolid⟩ := (Option.any_eq_true _ _).1 hhead
      exact ⟨⟨c, hc, by simpa using hsolid⟩, h⟩
    · simp at h
  · rintro ⟨⟨c, hc, hsolid⟩, htaken, hrest⟩
    rw [Option.mem_def] at hc
    rw [hc]
    simp only [Option.any_some, hsolid, Bool.not_false, if_true, htaken, hrest]

/-! ### Pieces somewhere in a text -/

theorem starts_iff {piece : Piece} {text : List Char} :
    piece.starts text = true ↔ ∃ taken rest, text = taken ++ rest ∧ piece.Takes taken rest := by
  rw [starts, Option.isSome_iff_exists]
  constructor
  · rintro ⟨⟨taken, rest⟩, h⟩
    exact ⟨taken, rest, split_eq_some_iff.1 h⟩
  · rintro ⟨taken, rest, h⟩
    exact ⟨(taken, rest), split_eq_some_iff.2 h⟩

theorem occurs_append {piece : Piece} {front back : List Char} (h : piece.starts back = true) :
    piece.occurs (front ++ back) = true := by
  induction front with
  | nil =>
    cases back with
    | nil => exact h
    | cons c back => rw [List.nil_append, occurs, h, Bool.true_or]
  | cons c front ih => rw [List.cons_append, occurs, ih, Bool.or_true]

/-! ### How far a piece looks ahead -/

/-- What stands behind a taken text does not matter. -/
def Firm (piece : Piece) : Prop :=
  ∀ ⦃taken rest rest' : List Char⦄, piece.Takes taken rest → piece.Takes taken rest'

/-- Of what stands behind a taken text, only the next character matters. -/
def LooksAhead (piece : Piece) : Prop :=
  ∀ ⦃taken rest rest' : List Char⦄, rest'.head? = rest.head? → piece.Takes taken rest →
    piece.Takes taken rest'

/-- A text that is taken in front of a character that is not white space is taken in front of
any other such character. -/
def EndsAtSolid (piece : Piece) : Prop :=
  ∀ ⦃taken : List Char⦄ ⦃c c' : Char⦄ ⦃rest rest' : List Char⦄, isSpace c = false →
    isSpace c' = false → piece.Takes taken (c :: rest) → piece.Takes taken (c' :: rest')

theorem firm_word (small : String) : (word small).Firm := by
  intro taken rest rest' h
  rw [takes_word] at h ⊢
  exact h

theorem firm_literal (text : String) : (literal text).Firm := by
  intro taken rest rest' h
  rw [takes_literal] at h ⊢
  exact h

theorem firm_one (kind : Char → Bool) : (one kind).Firm := by
  intro taken rest rest' h
  rw [takes_one] at h ⊢
  exact h

theorem looksAhead_run (kind : Char → Bool) (atLeast : Nat) (atMost : Option Nat) :
    (run kind atLeast atMost).LooksAhead := by
  intro taken rest rest' hrest h
  rw [takes_run] at h ⊢
  rw [hrest]
  exact h

theorem looksAhead_runEndingIn (kind : Char → Bool) (words : List String) :
    (runEndingIn kind words).LooksAhead := by
  intro taken rest rest' hrest h
  rw [takes_runEndingIn] at h ⊢
  rw [hrest]
  exact h

theorem endsAtSolid_run_isSpace (atLeast : Nat) (atMost : Option Nat) :
    (run isSpace atLeast atMost).EndsAtSolid := by
  intro taken c c' rest rest' _ hc' h
  rw [takes_run] at h ⊢
  refine ⟨h.1, ?_, h.2.2⟩
  simpa using hc'

theorem Firm.looksAhead {piece : Piece} (h : piece.Firm) : piece.LooksAhead :=
  fun _ _ _ _ htakes => h htakes

theorem Firm.endsAtSolid {piece : Piece} (h : piece.Firm) : piece.EndsAtSolid :=
  fun _ _ _ _ _ _ _ htakes => h htakes

theorem Firm.followedBy {first second : Piece} (hfirst : first.Firm) (hsecond : second.Firm) :
    (first.followedBy second).Firm := by
  intro taken rest rest' h
  rw [takes_followedBy] at h ⊢
  obtain ⟨front, back, rfl, hfront, hback⟩ := h
  exact ⟨front, back, rfl, hfirst hfront, hsecond hback⟩

theorem LooksAhead.followedBy {first second : Piece} (hfirst : first.LooksAhead)
    (hsecond : second.LooksAhead) : (first.followedBy second).LooksAhead := by
  intro taken rest rest' hrest h
  rw [takes_followedBy] at h ⊢
  obtain ⟨front, back, rfl, hfront, hback⟩ := h
  refine ⟨front, back, rfl, hfirst ?_ hfront, hsecond hrest hback⟩
  rw [List.head?_append, List.head?_append, hrest]

theorem Firm.followedBy_endsAtSolid {first second : Piece} (hfirst : first.Firm)
    (hsecond : second.EndsAtSolid) : (first.followedBy second).EndsAtSolid := by
  intro taken c c' rest rest' hc hc' h
  rw [takes_followedBy] at h ⊢
  obtain ⟨front, back, rfl, hfront, hback⟩ := h
  exact ⟨front, back, rfl, hfirst hfront, hsecond hc hc' hback⟩

/-- A piece that looks one character ahead sees nothing but the second piece, which never
comes out empty. -/
theorem LooksAhead.followedBy_endsAtSolid {first second : Piece} (hfirst : first.LooksAhead)
    (hsecond : second.EndsAtSolid) (hne : ∀ {rest}, ¬second.Takes [] rest) :
    (first.followedBy second).EndsAtSolid := by
  intro taken c c' rest rest' hc hc' h
  rw [takes_followedBy] at h ⊢
  obtain ⟨front, back, rfl, hfront, hback⟩ := h
  refine ⟨front, back, rfl, hfirst ?_ hfront, hsecond hc hc' hback⟩
  cases back with
  | nil => exact absurd hback hne
  | cons d back => rfl

/-- A piece stands in for another that fails on the texts it takes, whatever follows. -/
theorem Firm.orElse {first second : Piece} (hfirst : first.Firm) (hsecond : second.Firm)
    (hfails : ∀ {taken rest}, second.Takes taken rest → first.split (taken ++ rest) = none) :
    (first.orElse second).Firm := by
  intro taken rest rest' h
  rw [takes_orElse] at h ⊢
  rcases h with h | ⟨-, h⟩
  · exact Or.inl (hfirst h)
  · exact Or.inr ⟨hfails (hsecond h), hsecond h⟩

end Piece

end TaskEngine
