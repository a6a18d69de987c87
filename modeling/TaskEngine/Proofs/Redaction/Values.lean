import TaskEngine.Proofs.Redaction.Passes

/-!
# Values of rules

Most values are the longest stretch of one kind of character.  The kinds of two rules that
can take a marker for a value are comparable, which is why none of the two cuts a value of
the other in pieces.  A header's value goes on to the trailing white space, so it covers
whatever is hidden in it.

## Main definitions

* `Fit` — a kind of character whose stretches can be values.
* `Pattern.Closed` — no value starts with an opening bracket.
* `Pattern.IsRun` — values are the longest stretches of one kind of character.
* `Pattern.Covers` — a value that starts where a marker stands covers it.

## Main results

* `hideable_run`, `hideable_bearer`, `hideable_upToTrailingSpace` — values that can be hidden.
* `Closed.undisturbed`, `IsRun.undisturbed_of_le`, `IsRun.undisturbed_of_ge`,
  `undisturbed_upToTrailingSpace` — when a rule hides no part of a value of an earlier one.
-/

namespace TaskEngine

namespace Piece

/-! ### Longest stretches -/

theorem takes_takeWhile {kind : Char → Bool} {atLeast : Nat} {text : List Char}
    (h : atLeast ≤ (text.takeWhile kind).length) :
    (run kind atLeast none).Takes (text.takeWhile kind) (text.dropWhile kind) := by
  rw [Takes, List.takeWhile_append_dropWhile]
  simp [run, h]

theorem takeWhile_ne_nil {kind : Char → Bool} {text : List Char}
    (h : ∃ c ∈ text.head?, kind c = true) : text.takeWhile kind ≠ [] := by
  obtain ⟨c, hc, hkind⟩ := h
  cases text with
  | nil => simp at hc
  | cons d text =>
    have hd : d = c := by simpa using hc
    simp [hd, hkind]

/-- A stretch is not empty, and all of it is of its kind, so its first character is. -/
theorem exists_head_of_run {kind : Char → Bool} {atLeast : Nat} {atMost : Option Nat}
    {taken rest : List Char} (hpos : 1 ≤ atLeast)
    (h : (run kind atLeast atMost).Takes taken rest) : ∃ c ∈ taken.head?, kind c = true := by
  obtain ⟨hkind, -, hlength, -⟩ := takes_run.1 h
  cases taken with
  | nil =>
    rw [List.length_nil] at hlength
    omega
  | cons c taken => exact ⟨c, rfl, hkind c List.mem_cons_self⟩

/-- The kinds of character whose longest stretches can be hidden. -/
structure Fit (kind : Char → Bool) (atLeast : Nat) : Prop where
  /-- A stretch is not empty. -/
  pos : 1 ≤ atLeast
  /-- White space is of another kind. -/
  solid : ∀ c, kind c = true → isSpace c = false
  /-- Letters are of the kind. -/
  alpha : ∀ c, c.isAlpha = true → kind c = true
  /-- An opening bracket is of another kind, or one character makes a stretch. -/
  single : kind '[' = false ∨ atLeast = 1
  /-- If an opening bracket is of the kind then the whole marker is. -/
  marker : kind '[' = true → ∀ c ∈ redactionMarker, kind c = true

/-- The marker is a stretch in front of a character of another kind. -/
theorem Fit.takes_marker {kind : Char → Bool} {atLeast : Nat} (h : Fit kind atLeast)
    (hopen : kind '[' = true) {rest : List Char} (hrest : ∀ c ∈ rest.head?, kind c = false) :
    (run kind atLeast none).Takes redactionMarker rest := by
  have hone : atLeast = 1 := h.single.resolve_left (by simp [hopen])
  refine takes_run.2 ⟨h.marker hopen, hrest, ?_, rfl⟩
  rw [hone]
  decide

theorem hideable_run {kind : Char → Bool} {atLeast : Nat} (hfit : Fit kind atLeast) :
    (run kind atLeast none).Hideable where
  solid := by
    intro taken rest h
    obtain ⟨c, hc, hkind⟩ := exists_head_of_run hfit.pos h
    exact ⟨c, hc, hfit.solid c hkind⟩
  again := by
    intro taken rest text h hfirst hstart
    obtain ⟨c, hc, hkind⟩ := exists_head_of_run hfit.pos h
    have hne : text.takeWhile kind ≠ [] := takeWhile_ne_nil ⟨c, hfirst ▸ hc, hkind⟩
    refine ⟨text.takeWhile kind, text.dropWhile kind, hne,
      List.takeWhile_append_dropWhile.symm, takes_takeWhile ?_⟩
    obtain ⟨htaken, -, hlength, -⟩ := takes_run.1 h
    rcases hfit.single with hopen | hone
    · -- a longer stretch has no bracket, so it stands in the text
      have hmem : '[' ∉ taken := by
        intro hmem
        rw [htaken _ hmem] at hopen
        simp at hopen
      obtain ⟨back, rfl⟩ := hstart hmem
      rw [List.takeWhile_append_of_pos htaken, List.length_append]
      omega
    · rw [hone]
      exact List.length_pos_iff.2 hne
  stops := by
    intro taken rest h
    refine Or.inr fun c hc => ?_
    have hkind := (takes_run.1 h).2.1 c hc
    rw [Bool.eq_false_iff]
    intro halpha
    rw [hfit.alpha c halpha] at hkind
    simp at hkind
  closes := by
    intro taken rest taken' rest' h h'
    exact hfit.takes_marker ((takes_run.1 h').1 _ List.mem_cons_self) (takes_run.1 h).2.1
  looks := Or.inl (looksAhead_run kind atLeast none)

/-- What starts with a stretch starts with a character of its kind. -/
theorem kind_of_takes_cons {kind : Char → Bool} {atLeast : Nat} {atMost : Option Nat}
    {second : Piece} {c : Char} {taken rest : List Char} (hpos : 1 ≤ atLeast)
    (h : ((run kind atLeast atMost).followedBy second).Takes (c :: taken) rest) :
    kind c = true := by
  obtain ⟨front, back, heq, hfront, -⟩ := takes_followedBy.1 h
  obtain ⟨d, hd, hkind⟩ := exists_head_of_run hpos hfront
  have hfirst := congrArg List.head? heq
  rw [List.head?_append, Option.mem_def.1 hd, List.head?_cons, Option.some_or,
    Option.some.injEq] at hfirst
  rw [hfirst]
  exact hkind

/-- A stretch of one kind of character, and a stretch of equals signs behind it. -/
theorem hideable_bearer {kind : Char → Bool} (hsolid : ∀ c, kind c = true → isSpace c = false)
    (halpha : ∀ c, c.isAlpha = true → kind c = true) (hopen : kind '[' = false) :
    ((atLeastOne kind).followedBy (many (· == '='))).Hideable where
  solid := by
    intro taken rest h
    obtain ⟨front, back, rfl, hfront, -⟩ := takes_followedBy.1 h
    obtain ⟨c, hc, hkind⟩ := exists_head_of_run (Nat.le_refl 1) hfront
    exact ⟨c, by rw [List.head?_append, Option.mem_def.1 hc]; rfl, hsolid c hkind⟩
  again := by
    intro taken rest text h hfirst _
    obtain ⟨front, back, rfl, hfront, -⟩ := takes_followedBy.1 h
    obtain ⟨c, hc, hkind⟩ := exists_head_of_run (Nat.le_refl 1) hfront
    rw [List.head?_append, Option.mem_def.1 hc, Option.some_or] at hfirst
    have hne : text.takeWhile kind ≠ [] := takeWhile_ne_nil ⟨c, hfirst, hkind⟩
    -- both stretches are as long as they can be in the other text
    have hback : (many (· == '=')).Takes ((text.dropWhile kind).takeWhile (· == '='))
        ((text.dropWhile kind).dropWhile (· == '=')) := takes_takeWhile (Nat.zero_le _)
    have hfront' : (atLeastOne kind).Takes (text.takeWhile kind) (text.dropWhile kind) :=
      takes_takeWhile (List.length_pos_iff.2 hne)
    rw [← @List.takeWhile_append_dropWhile _ (· == '=') (text.dropWhile kind)] at hfront'
    refine ⟨_, _, by simp [hne], ?_, takes_followedBy.2 ⟨_, _, rfl, hfront', hback⟩⟩
    rw [List.append_assoc, List.takeWhile_append_dropWhile, List.takeWhile_append_dropWhile]
  stops := by
    intro taken rest h
    obtain ⟨front, back, rfl, hfront, hback⟩ := takes_followedBy.1 h
    by_cases hne : back = []
    · -- behind the stretch, no letter can stand
      subst hne
      refine Or.inr fun c hc => ?_
      have hkind := (takes_run.1 hfront).2.1 c hc
      rw [Bool.eq_false_iff]
      intro hletter
      rw [halpha c hletter] at hkind
      simp at hkind
    · refine Or.inl ?_
      rw [List.getLast?_append_of_ne_nil _ hne, List.getLast?_eq_some_getLast hne]
      have hlast := (takes_run.1 hback).1 _ (List.getLast_mem hne)
      rw [beq_iff_eq] at hlast
      rw [hlast]
      decide
  closes := by
    intro taken rest taken' rest' _ h'
    have hkind := kind_of_takes_cons (Nat.le_refl 1) h'
    rw [hopen] at hkind
    simp at hkind
  looks := Or.inl (LooksAhead.followedBy (looksAhead_run kind 1 none) (looksAhead_run _ 0 none))

/-- A text up to its trailing white space starts with a solid character. -/
theorem exists_head_of_upToTrailingSpace {taken rest : List Char}
    (h : upToTrailingSpace.Takes taken rest) : ∃ c ∈ taken.head?, isSpace c = false := by
  obtain ⟨⟨c, hc, hsolid⟩, -, hrest⟩ := takes_upToTrailingSpace.1 h
  cases taken with
  | nil =>
    rw [hrest c (List.mem_of_mem_head? hc)] at hsolid
    simp at hsolid
  | cons d taken => exact ⟨c, hc, hsolid⟩

/-- A text that starts with a solid character is taken up to its trailing white space. -/
theorem exists_upToTrailingSpace {text : List Char} (h : ∃ c ∈ text.head?, isSpace c = false) :
    ∃ taken rest, taken ≠ [] ∧ text = taken ++ rest ∧ upToTrailingSpace.Takes taken rest := by
  obtain ⟨c, hc, hsolid⟩ := h
  have hsplit : upToTrailingSpace.split text =
      some (trimEnd text, (text.reverse.takeWhile isSpace).reverse) := by
    rw [Option.mem_def] at hc
    simp only [upToTrailingSpace, hc, Option.any_some, hsolid, Bool.not_false, if_true]
  -- a value without characters would have no first one
  obtain ⟨htext, htakes⟩ := split_eq_some_iff.1 hsplit
  obtain ⟨d, hd, -⟩ := exists_head_of_upToTrailingSpace htakes
  refine ⟨_, _, ?_, htext, htakes⟩
  intro hnil
  rw [hnil] at hd
  simp at hd

theorem hideable_upToTrailingSpace : upToTrailingSpace.Hideable where
  solid := exists_head_of_upToTrailingSpace
  again := by
    intro taken rest text h hfirst _
    obtain ⟨c, hc, hsolid⟩ := exists_head_of_upToTrailingSpace h
    exact exists_upToTrailingSpace ⟨c, hfirst ▸ hc, hsolid⟩
  stops := by
    intro taken rest h
    refine Or.inr fun c hc => ?_
    have hspace := (takes_upToTrailingSpace.1 h).2.2 c (List.mem_of_mem_head? hc)
    rw [Bool.eq_false_iff]
    intro halpha
    rw [isSpace_eq_false_of_isAlphanum (by simp [Char.isAlphanum, halpha])] at hspace
    simp at hspace
  closes := by
    intro taken rest taken' rest' h _
    have hlast : ∀ c ∈ redactionMarker.getLast?, isSpace c = false := by
      rintro c ⟨⟩
      rfl
    exact takes_upToTrailingSpace.2 ⟨⟨'[', rfl, by decide⟩, hlast,
      (takes_upToTrailingSpace.1 h).2.2⟩
  looks := Or.inr fun h => (takes_upToTrailingSpace.1 h).2.2

end Piece

/-! ### Rules that do not disturb one another -/

namespace Pattern

variable {earlier later : Pattern}

/-- No value starts with an opening bracket. -/
def Closed (rule : Pattern) : Prop := ∀ {value rest}, ¬rule.value.Takes ('[' :: value) rest

/-- Markers are no values of the earlier rule. -/
theorem Closed.undisturbed (h : earlier.Closed) (later : Pattern) : earlier.Undisturbed later :=
  fun _ hvalue => absurd hvalue h

/-- Values are the longest stretches of one kind of character, which are never short of the
marker. -/
def IsRun (rule : Pattern) (kind : Char → Bool) (atLeast : Nat) : Prop :=
  rule.value = Piece.run kind atLeast none ∧ Piece.Fit kind atLeast

theorem IsRun.closed {rule : Pattern} {kind : Char → Bool} {atLeast : Nat}
    (h : rule.IsRun kind atLeast) (hopen : kind '[' = false) : rule.Closed := by
  intro value rest htakes
  rw [h.1] at htakes
  have hkind := (Piece.takes_run.1 htakes).1 _ List.mem_cons_self
  rw [hopen] at hkind
  simp at hkind

variable {kind kind' : Char → Bool} {atLeast atLeast' : Nat}

/-- If the later kind has all characters of the earlier one, then no earlier value goes on
behind a later one. -/
theorem IsRun.undisturbed_of_le (hearlier : earlier.IsRun kind atLeast)
    (hlater : later.IsRun kind' atLeast') (hle : ∀ c, kind c = true → kind' c = true) :
    earlier.Undisturbed later := by
  intro hidden after value' rest' hhidden hvalue'
  rw [hlater.1, Piece.takes_run] at hhidden
  rw [hearlier.1] at hvalue'
  rw [hearlier.1]
  refine Or.inl (hearlier.2.takes_marker ((Piece.takes_run.1 hvalue').1 _ List.mem_cons_self) ?_)
  intro c hc
  have hstop := hhidden.2.1 c hc
  rw [Bool.eq_false_iff]
  intro hkind
  rw [hle c hkind] at hstop
  simp at hstop

/-- A value that starts where a marker stands covers it. -/
def Covers (rule : Pattern) : Prop :=
  ∀ {value after rest}, rule.value.Takes value after → value ++ after = redactionMarker ++ rest →
    ∃ more, value = redactionMarker ++ more ∧ rest = more ++ after

theorem Closed.covers {rule : Pattern} (h : rule.Closed) (hlawful : rule.value.Hideable) :
    rule.Covers := by
  intro value after rest htakes heq
  obtain ⟨c, hc, -⟩ := hlawful.solid htakes
  obtain ⟨value, rfl⟩ : ∃ value₂, value = c :: value₂ := List.head?_eq_some_iff.1 hc
  have hopen : c = '[' := (List.cons.inj heq).1
  exact absurd (hopen ▸ htakes) h

theorem IsRun.covers {rule : Pattern} (h : rule.IsRun kind atLeast) : rule.Covers := by
  intro value after rest htakes heq
  rw [h.1] at htakes
  obtain ⟨c, hc, hkind⟩ := Piece.exists_head_of_run h.2.pos htakes
  obtain ⟨value, rfl⟩ : ∃ value₂, value = c :: value₂ := List.head?_eq_some_iff.1 hc
  have hopen : c = '[' := (List.cons.inj heq).1
  rw [hopen] at hkind
  obtain ⟨hvalue, hafter, -⟩ := Piece.takes_run.1 htakes
  have htaken := Piece.takeWhile_append_of_stop hvalue hafter
  have hrest := Piece.dropWhile_append_of_stop hvalue hafter
  rw [heq, List.takeWhile_append_of_pos (h.2.marker hkind)] at htaken
  rw [heq, List.dropWhile_append_of_pos (h.2.marker hkind)] at hrest
  refine ⟨rest.takeWhile kind, htaken.symm, ?_⟩
  rw [← hrest, List.takeWhile_append_dropWhile]

/-- If the earlier kind has all characters of the later one, then the later rule hides the
front of an earlier value. -/
theorem IsRun.undisturbed_of_ge (hearlier : earlier.IsRun kind atLeast)
    (hlater : later.IsRun kind' atLeast') (hge : ∀ c, kind' c = true → kind c = true) :
    earlier.Undisturbed later := by
  intro hidden after value' rest' hhidden hvalue'
  have hcovers : ∀ {rest}, hidden ++ after = redactionMarker ++ rest →
      ∃ more, hidden = redactionMarker ++ more ∧ rest = more ++ after :=
    fun heq => hlater.covers hhidden heq
  rw [hlater.1] at hhidden
  rw [hearlier.1] at hvalue'
  rw [hearlier.1]
  have hopen : kind '[' = true := (Piece.takes_run.1 hvalue').1 _ List.mem_cons_self
  have hone : atLeast = 1 := hearlier.2.single.resolve_left (by simp [hopen])
  obtain ⟨c, hc, hkind⟩ := Piece.exists_head_of_run hlater.2.pos hhidden
  have hne : (hidden ++ after).takeWhile kind ≠ [] := by
    refine Piece.takeWhile_ne_nil ⟨c, ?_, hge c hkind⟩
    rw [List.head?_append, Option.mem_def.1 hc]
    rfl
  have htakes : (Piece.run kind atLeast none).Takes ((hidden ++ after).takeWhile kind)
      ((hidden ++ after).dropWhile kind) := by
    refine Piece.takes_takeWhile ?_
    rw [hone]
    exact List.length_pos_iff.2 hne
  refine Or.inr ⟨_, _, hne, List.takeWhile_append_dropWhile.symm, htakes, fun hmarker => ?_⟩
  -- the hidden text covers the marker, and nothing behind it is of the earlier kind
  rw [hmarker] at htakes
  have hcut : hidden ++ after = redactionMarker ++ (hidden ++ after).dropWhile kind := by
    rw [← hmarker]
    exact List.takeWhile_append_dropWhile.symm
  obtain ⟨more, rfl, hrest⟩ := hcovers hcut
  rw [hrest] at htakes
  cases more with
  | nil => exact htakes
  | cons d more =>
    have hstop := (Piece.takes_run.1 htakes).2.1 d rfl
    rw [hge d ((Piece.takes_run.1 hhidden).1 d (by simp))] at hstop
    simp at hstop

/-- A header's value goes on behind what is hidden in it. -/
theorem undisturbed_upToTrailingSpace (hearlier : earlier.value = Piece.upToTrailingSpace)
    (hlater : later.value.Hideable) (hcovers : later.Covers) : earlier.Undisturbed later := by
  intro hidden after value' rest' hhidden _
  rw [hearlier]
  obtain ⟨c, hc, hsolid⟩ := hlater.solid hhidden
  have hfirst : ∃ c ∈ (hidden ++ after).head?, isSpace c = false := by
    refine ⟨c, ?_, hsolid⟩
    rw [List.head?_append, Option.mem_def.1 hc]
    rfl
  obtain ⟨value, rest, hne, heq, hvalue⟩ := Piece.exists_upToTrailingSpace hfirst
  refine Or.inr ⟨value, rest, hne, heq, hvalue, ?_⟩
  rintro rfl
  obtain ⟨more, -, rfl⟩ := hcovers hhidden heq
  obtain ⟨hhead, hlast, hspace⟩ := Piece.takes_upToTrailingSpace.1 hvalue
  exact Piece.takes_upToTrailingSpace.2
    ⟨⟨'[', rfl, by decide⟩, hlast, fun c hc => hspace c (List.mem_append_right _ hc)⟩

end Pattern

end TaskEngine
