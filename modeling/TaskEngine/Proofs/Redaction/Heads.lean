import TaskEngine.Proofs.Redaction.Passes

/-!
# Heads of rules

A head consists of a body, a character that occurs nowhere else in it, such as the colon of
`Authorization:`, and white space.  Or it is a fixed word whose first character occurs
nowhere else in it.  Either way no head lies inside of another one, so heads announce.

## Main definitions

* `Piece.Within`, `Piece.StartsIn` — of which characters a piece takes all, or the first.
* `Piece.EndsOnce` — a text ends in a character of a kind that occurs nowhere else, and white
  space.
* `Piece.StartsOnce` — a text starts with a character of a kind that occurs nowhere else.

## Main results

* `nested_of_endsOnce`, `nested_of_startsOnce` — no head ends inside of another one.
* `announces_thenSpaces`, `announces_spaced`, `announces_firm` — heads that announce.
-/

namespace TaskEngine

namespace Piece

/-! ### Characters of words -/

/-- The spellings of a small letter. -/
def spellings (small : Char) : List Char :=
  [small, small.toUpper] ++ (if small = 's' then ['\u017f'] else []) ++
    if small = 'k' then ['\u212a'] else []

theorem mem_spellings {small c : Char} (h : sameLetter small c = true) : c ∈ spellings small := by
  simp only [sameLetter, Bool.or_eq_true, Bool.and_eq_true, beq_iff_eq] at h
  rcases h with ((rfl | rfl) | ⟨rfl, rfl⟩) | ⟨rfl, rfl⟩
  · simp [spellings]
  · simp [spellings]
  · decide
  · decide

/-- What holds of all spellings of the letters of a word holds of its characters. -/
theorem forall_mem_of_word {small taken : List Char} {p : Char → Bool}
    (h : List.Forall₂ (fun small c => sameLetter small c = true) small taken)
    (hp : (small.all fun s => (spellings s).all p) = true) : ∀ c ∈ taken, p c = true := by
  induction h with
  | nil => simp
  | cons hc _ ih =>
    simp only [List.all_cons, Bool.and_eq_true] at hp
    intro c hmem
    rcases List.mem_cons.1 hmem with rfl | hmem
    · exact List.all_eq_true.1 hp.1 c (mem_spellings hc)
    · exact ih hp.2 c hmem

/-- What the piece takes consists of characters of a kind. -/
def Within (piece : Piece) (p : Char → Bool) : Prop :=
  ∀ ⦃taken rest⦄, piece.Takes taken rest → ∀ c ∈ taken, p c = true

theorem within_word {small : String} {p : Char → Bool}
    (hp : (small.toList.all fun s => (spellings s).all p) = true) : (word small).Within p :=
  fun _ _ h => forall_mem_of_word (takes_word.1 h) hp

theorem within_literal {text : String} {p : Char → Bool} (hp : text.toList.all p = true) :
    (literal text).Within p := by
  intro taken rest h
  rw [takes_literal.1 h]
  exact List.all_eq_true.1 hp

theorem within_one {kind p : Char → Bool} (hp : ∀ c, kind c = true → p c = true) :
    (one kind).Within p := by
  intro taken rest h
  obtain ⟨c, rfl, hc⟩ := takes_one.1 h
  simpa using hp c hc

theorem within_run {kind p : Char → Bool} {atLeast : Nat} {atMost : Option Nat}
    (hp : ∀ c, kind c = true → p c = true) : (run kind atLeast atMost).Within p :=
  fun _ _ h c hc => hp c ((takes_run.1 h).1 c hc)

theorem within_runEndingIn {kind p : Char → Bool} {words : List String}
    (hp : ∀ c, kind c = true → p c = true) : (runEndingIn kind words).Within p :=
  fun _ _ h c hc => hp c ((takes_runEndingIn.1 h).1 c hc)

theorem Within.followedBy {first second : Piece} {p : Char → Bool} (hfirst : first.Within p)
    (hsecond : second.Within p) : (first.followedBy second).Within p := by
  intro taken rest h c hc
  obtain ⟨front, back, rfl, hfront, hback⟩ := takes_followedBy.1 h
  exact (List.mem_append.1 hc).elim (hfirst hfront c) (hsecond hback c)

theorem Within.orElse {first second : Piece} {p : Char → Bool} (hfirst : first.Within p)
    (hsecond : second.Within p) : (first.orElse second).Within p := by
  intro taken rest h
  exact (takes_orElse.1 h).elim (fun h => hfirst h) fun h => hsecond h.2

theorem Within.mono {piece : Piece} {p q : Char → Bool} (h : piece.Within p)
    (hpq : ∀ c, p c = true → q c = true) : piece.Within q :=
  fun _ _ htakes c hc => hpq c (h htakes c hc)

/-- White space has no bracket. -/
theorem within_spaces (atLeast : Nat) : (run isSpace atLeast none).Within (· != '[') := by
  refine within_run fun c hc => ?_
  rw [bne_iff_ne]
  rintro rfl
  revert hc
  decide

/-- What the piece takes starts with one of the given characters. -/
def StartsIn (piece : Piece) (first : List Char) : Prop :=
  ∀ ⦃taken rest⦄, piece.Takes taken rest → ∃ c ∈ taken.head?, c ∈ first

theorem startsIn_word {small : String} {s : Char} (hs : small.toList.head? = some s) :
    (word small).StartsIn (spellings s) := by
  intro taken rest h
  rw [takes_word] at h
  obtain ⟨tail, htail⟩ := List.head?_eq_some_iff.1 hs
  rw [htail] at h
  cases h with
  | @cons _ c _ taken hc _ => exact ⟨c, rfl, mem_spellings hc⟩

theorem startsIn_literal {text : String} {c : Char} (hc : text.toList.head? = some c) :
    (literal text).StartsIn [c] := by
  intro taken rest h
  rw [takes_literal] at h
  rw [h]
  exact ⟨c, hc, List.mem_singleton.2 rfl⟩

theorem StartsIn.followedBy {first second : Piece} {chars : List Char}
    (hfirst : first.StartsIn chars) : (first.followedBy second).StartsIn chars := by
  intro taken rest h
  obtain ⟨front, back, rfl, hfront, -⟩ := takes_followedBy.1 h
  obtain ⟨c, hc, hmem⟩ := hfirst hfront
  exact ⟨c, by rw [List.head?_append, Option.mem_def.1 hc]; rfl, hmem⟩

theorem StartsIn.orElse {first second : Piece} {chars chars' : List Char}
    (hfirst : first.StartsIn chars) (hsecond : second.StartsIn chars') :
    (first.orElse second).StartsIn (chars ++ chars') := by
  intro taken rest h
  rcases takes_orElse.1 h with h | ⟨-, h⟩
  · obtain ⟨c, hc, hmem⟩ := hfirst h
    exact ⟨c, hc, List.mem_append_left _ hmem⟩
  · obtain ⟨c, hc, hmem⟩ := hsecond h
    exact ⟨c, hc, List.mem_append_right _ hmem⟩

/-- Pieces that start in different characters do not take the same texts. -/
theorem StartsIn.split_eq_none {first second : Piece} {chars chars' : List Char}
    (hfirst : first.StartsIn chars) (hsecond : second.StartsIn chars')
    (hdisjoint : (chars.all fun c => !chars'.contains c) = true) {taken rest : List Char}
    (h : second.Takes taken rest) : first.split (taken ++ rest) = none := by
  cases hcut : first.split (taken ++ rest) with
  | none => rfl
  | some cut =>
    obtain ⟨heq, htakes⟩ := split_eq_some_iff.1 hcut
    obtain ⟨c, hc, hmem⟩ := hfirst htakes
    obtain ⟨d, hd, hmem'⟩ := hsecond h
    have hfirst := congrArg List.head? heq
    rw [List.head?_append, List.head?_append, Option.mem_def.1 hc, Option.mem_def.1 hd,
      Option.some_or, Option.some_or, Option.some.injEq] at hfirst
    have hnot := List.all_eq_true.1 hdisjoint c hmem
    rw [← hfirst] at hnot
    simp [hmem'] at hnot

/-- What starts in solid characters starts with a solid one. -/
theorem StartsIn.exists_of_all {piece : Piece} {chars : List Char} {p : Char → Bool}
    (h : piece.StartsIn chars) (hp : chars.all p = true) {taken rest : List Char}
    (htakes : piece.Takes taken rest) : ∃ c ∈ taken.head?, p c = true := by
  obtain ⟨c, hc, hmem⟩ := h htakes
  exact ⟨c, hc, List.all_eq_true.1 hp c hmem⟩

/-! ### Heads -/

/-- A head is tried at all characters of a marker, whatever follows. -/
theorem split_mark_eq_none {head : Piece}
    (h : ∀ more, redactionMarker.tails.dropLast.map (fun mark => head.split (mark ++ more)) =
      List.replicate 10 none) {mark more : List Char}
    (hmark : mark ∈ redactionMarker.tails.dropLast) : head.split (mark ++ more) = none :=
  (List.map_eq_replicate_iff.1 (h more)) mark hmark

/-- A text consists of characters that are not of a kind, one that is, and white space. -/
def EndsOnce (kind : Char → Bool) (text : List Char) : Prop :=
  ∃ body c spaces, text = body ++ c :: spaces ∧ (∀ d ∈ body, kind d = false) ∧ kind c = true ∧
    ∀ d ∈ spaces, isSpace d = true

/-- Behind a character of the kind, only white space follows. -/
theorem EndsOnce.isSpace_behind {kind : Char → Bool} {front back : List Char} {c : Char}
    (h : EndsOnce kind (front ++ c :: back)) (hc : kind c = true) :
    ∀ d ∈ back, isSpace d = true := by
  obtain ⟨body, e, spaces, heq, hbody, -, hspaces⟩ := h
  rcases List.append_eq_append_iff.1 heq with ⟨mid, rfl, hmid⟩ | ⟨mid, rfl, hmid⟩
  -- the two marks are the same one, since the kind occurs once
  · cases mid with
    | nil =>
      rw [(List.cons.inj hmid).2]
      exact hspaces
    | cons f mid =>
      have hf : c = f := (List.cons.inj hmid).1
      rw [hf, hbody f (by simp)] at hc
      simp at hc
  · cases mid with
    | nil =>
      rw [← (List.cons.inj hmid).2]
      exact hspaces
    | cons f mid =>
      obtain ⟨-, hback⟩ := List.cons.inj hmid
      intro d hd
      exact hspaces d (by rw [hback]; simp [hd])

/-- In a head that ends once, no head ends in front of a solid character. -/
theorem nested_of_endsOnce {head : Piece} {kind : Char → Bool}
    (h : ∀ {taken rest}, head.Takes taken rest → EndsOnce kind taken)
    {outer taken inner rest rest' : List Char} {c : Char}
    (houter : head.Takes (outer ++ (taken ++ c :: inner)) rest)
    (hinner : head.Takes taken (c :: rest')) : isSpace c = true := by
  obtain ⟨body, d, spaces, rfl, -, hd, -⟩ := h hinner
  have houter := h houter
  simp only [List.append_assoc, List.cons_append] at houter
  rw [← List.append_assoc] at houter
  exact houter.isSpace_behind hd c (by simp)

/-- Texts that end once put together: no character of the kind in front. -/
theorem EndsOnce.append {kind : Char → Bool} {front text : List Char} (h : EndsOnce kind text)
    (hfront : ∀ c ∈ front, kind c = false) : EndsOnce kind (front ++ text) := by
  obtain ⟨body, c, spaces, rfl, hbody, hc, hspaces⟩ := h
  refine ⟨front ++ body, c, spaces, (List.append_assoc ..).symm, fun d hd => ?_, hc, hspaces⟩
  rcases List.mem_append.1 hd with hd | hd
  · exact hfront d hd
  · exact hbody d hd

/-- One character of a kind, with white space around it. -/
theorem endsOnce_of_spaced {kind : Char → Bool} (hkind : ∀ c, isSpace c = true → kind c = false)
    {taken rest : List Char}
    (h : (spaces.followedBy ((one kind).followedBy spaces)).Takes taken rest) :
    EndsOnce kind taken := by
  rw [takes_followedBy] at h
  obtain ⟨before, more, rfl, hbefore, hmore⟩ := h
  rw [takes_followedBy] at hmore
  obtain ⟨_, after, rfl, hone, hafter⟩ := hmore
  obtain ⟨c, rfl, hc⟩ := takes_one.1 hone
  exact ⟨before, c, after, rfl, fun d hd => hkind d ((takes_run.1 hbefore).1 d hd), hc,
    (takes_run.1 hafter).1⟩

theorem endsAtSolid_spaced (kind : Char → Bool) :
    (spaces.followedBy ((one kind).followedBy spaces)).EndsAtSolid := by
  have hspaces : spaces.EndsAtSolid := endsAtSolid_run_isSpace 0 none
  refine (looksAhead_run isSpace 0 none).followedBy_endsAtSolid
    ((firm_one kind).followedBy_endsAtSolid hspaces) fun {rest} h => ?_
  obtain ⟨front, back, heq, hfront, -⟩ := takes_followedBy.1 h
  obtain ⟨c, rfl, -⟩ := takes_one.1 hfront
  simp at heq

/-- In a body and one character of a kind with white space around it, the character occurs once. -/
theorem endsOnce_of_thenSpaced {body : Piece} {kind : Char → Bool}
    (hchars : body.Within fun c => !kind c && c != '[')
    (hkind : ∀ c, isSpace c = true → kind c = false) {taken rest : List Char}
    (h : (body.followedBy (spaces.followedBy ((one kind).followedBy spaces))).Takes taken rest) :
    EndsOnce kind taken := by
  obtain ⟨front, back, rfl, hfront, hback⟩ := takes_followedBy.1 h
  refine (endsOnce_of_spaced hkind hback).append fun c hc => ?_
  have hchars := hchars hfront c hc
  rw [Bool.and_eq_true, Bool.not_eq_true'] at hchars
  exact hchars.1

/-- A body, and one character of a kind with white space around it. -/
theorem announces_spaced {body : Piece} {kind : Char → Bool} (hbody : body.LooksAhead)
    (hsolid : ∀ {taken rest}, body.Takes taken rest → ∃ c ∈ taken.head?, isSpace c = false)
    (hchars : body.Within fun c => !kind c && c != '[')
    (hkind : ∀ c, isSpace c = true → kind c = false) (hopen : kind '[' = false)
    (hmarker : ∀ {mark more}, mark ∈ redactionMarker.tails.dropLast →
      (body.followedBy (spaces.followedBy ((one kind).followedBy spaces))).split (mark ++ more)
        = none) :
    (body.followedBy (spaces.followedBy ((one kind).followedBy spaces))).Announces where
  solid := by
    intro taken rest h
    obtain ⟨front, back, rfl, hfront, -⟩ := takes_followedBy.1 h
    obtain ⟨c, hc, hsolid⟩ := hsolid hfront
    exact ⟨c, by rw [List.head?_append, Option.mem_def.1 hc]; rfl, hsolid⟩
  noBracket := by
    intro taken rest h hmem
    have hone : (one kind).Within (· != '[') := by
      refine within_one fun c hc => ?_
      rw [bne_iff_ne]
      rintro rfl
      rw [hopen] at hc
      simp at hc
    have hbody : body.Within (· != '[') := by
      refine hchars.mono fun c hc => ?_
      rw [Bool.and_eq_true] at hc
      exact hc.2
    -- none of the four parts has a bracket
    have hall := hbody.followedBy ((within_spaces 0).followedBy (hone.followedBy (within_spaces 0)))
    simpa using hall h _ hmem
  endsAtSolid := by
    refine hbody.followedBy_endsAtSolid (endsAtSolid_spaced kind) fun {rest} h => ?_
    obtain ⟨front, c, back, heq, -⟩ := endsOnce_of_spaced hkind h
    simp at heq
  nested := fun houter hinner =>
    nested_of_endsOnce (endsOnce_of_thenSpaced hchars hkind) houter hinner
  marker := hmarker

/-- A word, and white space. -/
theorem announces_thenSpaces {small : String} {s : Char} (hs : small.toList.head? = some s)
    (hchars : (small.toList.all fun s => (spellings s).all fun c => !isSpace c) = true)
    (hopen : (small.toList.all fun s => (spellings s).all (· != '[')) = true)
    (hmarker : ∀ {mark more}, mark ∈ redactionMarker.tails.dropLast →
      ((word small).followedBy (atLeastOne isSpace)).split (mark ++ more) = none) :
    ((word small).followedBy (atLeastOne isSpace)).Announces := by
  have hword : ∀ {taken rest}, (word small).Takes taken rest → ∀ c ∈ taken, isSpace c = false := by
    intro taken rest h c hc
    simpa using within_word hchars h c hc
  refine ⟨fun {taken rest} h => ?_, fun {taken rest} h hmem => ?_, ?_, ?_, hmarker⟩
  · obtain ⟨front, back, rfl, hfront, -⟩ := takes_followedBy.1 h
    obtain ⟨c, hc, -⟩ := startsIn_word hs hfront
    refine ⟨c, ?_, hword hfront c (List.mem_of_mem_head? hc)⟩
    rw [List.head?_append, Option.mem_def.1 hc]
    rfl
  · simpa using (within_word hopen).followedBy (within_spaces 1) h _ hmem
  · exact (firm_word small).followedBy_endsAtSolid (endsAtSolid_run_isSpace 1 none)
  · intro outer taken c inner rest rest' houter hinner
    -- the first of the white space is what occurs only once
    have honce : ∀ {taken rest}, ((word small).followedBy (atLeastOne isSpace)).Takes taken rest →
        EndsOnce isSpace taken := by
      intro taken rest h
      obtain ⟨front, back, rfl, hfront, hback⟩ := takes_followedBy.1 h
      obtain ⟨hback, -, hlength, -⟩ := takes_run.1 hback
      cases back with
      | nil => simp at hlength
      | cons c back =>
        exact ⟨front, c, back, rfl, hword hfront, hback c List.mem_cons_self,
          fun d hd => hback d (List.mem_cons_of_mem _ hd)⟩
    exact nested_of_endsOnce honce houter hinner

/-! ### Fixed words -/

/-- A text starts with a character of a kind that occurs nowhere else in it. -/
def StartsOnce (kind : Char → Bool) (text : List Char) : Prop :=
  ∃ c tail, text = c :: tail ∧ kind c = true ∧ ∀ d ∈ tail, kind d = false

theorem StartsOnce.append {kind : Char → Bool} {text back : List Char} (h : StartsOnce kind text)
    (hback : ∀ c ∈ back, kind c = false) : StartsOnce kind (text ++ back) := by
  obtain ⟨c, tail, rfl, hc, htail⟩ := h
  refine ⟨c, tail ++ back, rfl, hc, fun d hd => ?_⟩
  exact (List.mem_append.1 hd).elim (htail d) (hback d)

/-- In a word that starts once, no other word starts. -/
theorem nested_of_startsOnce {head : Piece} {kind : Char → Bool} (hfirm : head.Firm)
    (h : ∀ {taken rest}, head.Takes taken rest → StartsOnce kind taken)
    {outer taken inner rest rest' : List Char} {c : Char}
    (houter : head.Takes (outer ++ (taken ++ c :: inner)) rest)
    (hinner : head.Takes taken (c :: rest')) : isSpace c = true := by
  obtain ⟨d, tail, rfl, hd, -⟩ := h hinner
  obtain ⟨e, tail', heq, -, htail⟩ := h houter
  cases outer with
  | nil =>
    rw [List.nil_append] at houter
    -- at the same place, a fixed word is taken whatever stands behind it
    have hinner : head.Takes (d :: tail) (c :: (inner ++ rest)) := hfirm hinner
    have hlength := (houter.unique hinner (by simp)).1
    simp at hlength
  | cons f outer =>
    obtain ⟨-, rfl⟩ := List.cons.inj heq
    rw [htail d (by simp)] at hd
    simp at hd

/-- A fixed word that starts once. -/
theorem announces_firm {head : Piece} {kind : Char → Bool} (hfirm : head.Firm)
    (h : ∀ {taken rest}, head.Takes taken rest → StartsOnce kind taken)
    (hkind : ∀ c, isSpace c = true → kind c = false)
    (hopen : head.Within (· != '['))
    (hmarker : ∀ {mark more}, mark ∈ redactionMarker.tails.dropLast →
      head.split (mark ++ more) = none) : head.Announces where
  solid := by
    intro taken rest htakes
    obtain ⟨c, tail, rfl, hc, -⟩ := h htakes
    refine ⟨c, rfl, ?_⟩
    rw [Bool.eq_false_iff]
    intro hspace
    rw [hkind c hspace] at hc
    simp at hc
  noBracket := fun htakes hmem => by simpa using hopen htakes _ hmem
  endsAtSolid := hfirm.endsAtSolid
  nested := nested_of_startsOnce hfirm h
  marker := hmarker

end Piece

end TaskEngine
