import TaskEngine.Proofs.Redaction.Hiding
import Mathlib.Data.List.Infix

/-!
# Rules applied one after another

Every rule is settled on what it has just shown.  A later rule could unsettle it again:
by hiding a value it changes what stands behind heads that are further left, where values
end, and where words start.  This module says what rules have to be like so that none of
this happens, and concludes that all rules of a list are settled on what the whole list
makes of a text.

## Main definitions

* `Piece.Announces`, `Piece.Hideable` — what heads and values look at.
* `Pattern.Lawful` — a rule with such a head and such a value.
* `Pattern.Undisturbed` — a rule hides no part of a value of an earlier rule.

## Main results

* `Shown.finds` — what a rule finds in the shown text, it finds in the text.
* `settled_redactBy_self` — a rule is settled on what it shows.
* `Settled.redactBy` — a rule stays settled when a later rule is applied.
* `settled_foldl` — **after all rules of a list, each of them is settled.**
-/

namespace TaskEngine

namespace Piece

/-- What heads look at.  They start with a solid character, never reach into a marker, and look
no further than to the solid character behind them. -/
structure Announces (head : Piece) : Prop where
  /-- A head starts with a character that is not white space. -/
  solid : ∀ {taken rest}, head.Takes taken rest → ∃ c ∈ taken.head?, isSpace c = false
  /-- A head has no opening bracket. -/
  noBracket : ∀ {taken rest}, head.Takes taken rest → '[' ∉ taken
  /-- It does not matter which solid character stands behind a head. -/
  endsAtSolid : head.EndsAtSolid
  /-- Inside of a head, another one can only end in front of white space. -/
  nested : ∀ {outer taken c inner rest rest'},
    head.Takes (outer ++ (taken ++ c :: inner)) rest → head.Takes taken (c :: rest') →
      isSpace c = true
  /-- No head starts inside of a marker. -/
  marker : ∀ {mark more}, mark ∈ redactionMarker.tails.dropLast → head.split (mark ++ more) = none

/-- What values look at.  They start with a solid character, and end at one that does not
belong to them. -/
structure Hideable (value : Piece) : Prop where
  /-- A value starts with a character that is not white space. -/
  solid : ∀ {taken rest}, value.Takes taken rest → ∃ c ∈ taken.head?, isSpace c = false
  /-- A value is told from its first character, or from its characters in front of any opening
  bracket. -/
  again : ∀ {taken rest text}, value.Takes taken rest → text.head? = taken.head? →
    ('[' ∉ taken → taken <+: text) →
      ∃ taken' rest', taken' ≠ [] ∧ text = taken' ++ rest' ∧ value.Takes taken' rest'
  /-- Behind a value, no word starts that did not start there before. -/
  stops : ∀ {taken rest}, value.Takes taken rest →
    wordCanStart taken.getLast? = true ∨ ∀ c ∈ rest.head?, c.isAlpha = false
  /-- Where a value ends, the marker ends as well. -/
  closes : ∀ {taken rest taken' rest'}, value.Takes taken rest →
    value.Takes ('[' :: taken') rest' → value.Takes redactionMarker rest
  /-- The end of a value is told from the next character, or only white space is left. -/
  looks : value.LooksAhead ∨
    ∀ {rest}, value.Takes redactionMarker rest → ∀ c ∈ rest, isSpace c = true

end Piece

namespace Pattern

/-- The head and the value of a rule are recognised from their own characters. -/
structure Lawful (rule : Pattern) : Prop where
  /-- The head announces. -/
  announces : rule.head.Announces
  /-- The value can be hidden. -/
  hideable : rule.value.Hideable
  /-- A head that has to start a word starts with a letter. -/
  startsWithLetter : rule.startsWord = true → ∀ {head rest}, rule.head.Takes head rest →
    ∃ c ∈ head.head?, c.isAlpha = true

/-- Where the later rule hides a value and the earlier rule takes the marker for a value, the
earlier rule has taken a value in its place before, and both values end at the same character
if that one is the marker. -/
def Undisturbed (earlier later : Pattern) : Prop :=
  ∀ {hidden after value' rest'}, later.value.Takes hidden after →
    earlier.value.Takes ('[' :: value') rest' →
      earlier.value.Takes redactionMarker after ∨
        ∃ value rest, value ≠ [] ∧ hidden ++ after = value ++ rest ∧
          earlier.value.Takes value rest ∧
            (value = redactionMarker → earlier.value.Takes redactionMarker after)

variable {rule earlier later : Pattern}

theorem Lawful.value_ne_nil (hrule : rule.Lawful) {value rest : List Char}
    (h : rule.value.Takes value rest) : value ≠ [] := by
  rintro rfl
  obtain ⟨c, hc, -⟩ := hrule.hideable.solid h
  simp at hc

/-- No head starts at a character of a marker. -/
theorem Lawful.head_ne_marker (hrule : rule.Lawful) {mark head rest more : List Char}
    (hne : mark ≠ []) (hmark : mark <:+ redactionMarker) (h : rule.head.Takes head rest) :
    head ++ rest ≠ mark ++ more := by
  intro heq
  have hmem : mark ∈ redactionMarker.tails.dropLast ++ [[]] := (List.mem_tails _ _).2 hmark
  rw [List.mem_append, List.mem_singleton] at hmem
  have hnone : rule.head.split (mark ++ more) = none :=
    hrule.announces.marker (hmem.resolve_right hne)
  rw [← heq, h] at hnone
  simp at hnone

/-! ### Characters that stay in place -/

/-- The first character stays in place. -/
theorem Hides.head?_eq (hrule : rule.Lawful) {before : Option Char} {text shown : List Char}
    (h : rule.Hides before text shown) : shown.head? = text.head? := by
  cases h with
  | nil => rfl
  | plain => rfl
  | place hfinds =>
    obtain ⟨c, hc, -⟩ := hrule.announces.solid hfinds.takesHead
    rw [Option.mem_def] at hc
    simp [List.head?_append, hc]

/-- Nothing is found in white space. -/
theorem Hides.eq_of_isSpace (hrule : rule.Lawful) {before : Option Char} {text shown : List Char}
    (h : rule.Hides before text shown) (hspace : ∀ c ∈ text, isSpace c = true) :
    shown = text := by
  induction h with
  | nil => rfl
  | plain _ _ ih => rw [ih fun c hc => hspace c (List.mem_cons_of_mem _ hc)]
  | place hfinds =>
    obtain ⟨c, hc, hsolid⟩ := hrule.announces.solid hfinds.takesHead
    have hmem := List.mem_of_mem_head? hc
    rw [hspace c (by simp [hmem])] at hsolid
    simp at hsolid

/-- A value that is a marker stays one when another rule is applied behind it. -/
theorem Lawful.takes_marker_of_hides (hearlier : earlier.Lawful) (hlater : later.Lawful)
    {before : Option Char} {rest shown : List Char} (h : later.Hides before rest shown)
    (hmarker : earlier.value.Takes redactionMarker rest) :
    earlier.value.Takes redactionMarker shown := by
  rcases hearlier.hideable.looks with hlooks | hspace
  · exact hlooks (h.head?_eq hlater) hmarker
  · rw [h.eq_of_isSpace hlater (hspace hmarker)]
    exact hmarker

/-- In front of a value, the position is behind a head. -/
def AtValue (rule : Pattern) (text shown : List Char) : Prop :=
  ∃ hidden after shown', text = hidden ++ after ∧ rule.value.Takes hidden after ∧
    rule.Hides hidden.getLast? after shown' ∧ shown = redactionMarker ++ shown'

/-- A character that is shown stands in the text, unless it is the first one of a marker. -/
theorem Shown.cons_or {before : Option Char} {c : Char} {text shown : List Char}
    (h : rule.Shown before text (c :: shown)) :
    (∃ tail, text = c :: tail ∧ rule.Shown (some c) tail shown) ∨
      rule.AtValue text (c :: shown) := by
  generalize hcs : c :: shown = cs at h
  cases h with
  | between h =>
    cases h with
    | nil => simp at hcs
    | plain _ htail =>
      obtain ⟨rfl, rfl⟩ := List.cons.inj hcs
      exact Or.inl ⟨_, rfl, .between htail⟩
    -- the shown text goes on with the head, and the position moves on inside of it
    | @place before head value rest shown' hfinds hrest =>
      cases head with
      | nil => exact Or.inr ⟨value, rest, shown', rfl, hfinds.takesValue, hrest, rfl⟩
      | cons d head =>
        obtain ⟨rfl, rfl⟩ := List.cons.inj hcs
        refine Or.inl ⟨head ++ value ++ rest, rfl, ?_⟩
        cases head with
        | nil => exact .atValue hfinds.takesValue hfinds.value_ne_nil hrest
        | cons e head =>
          rw [List.append_assoc]
          have hfinds' : rule.Finds _ ([c] ++ e :: head) value rest := hfinds
          exact .inHead (by simp) hfinds' hrest
  | @inHead start outer inner value rest shown' hne hfinds hrest =>
    cases inner with
    | nil => exact absurd rfl hne
    | cons d inner =>
      obtain ⟨rfl, rfl⟩ := List.cons.inj hcs
      refine Or.inl ⟨inner ++ (value ++ rest), rfl, ?_⟩
      cases inner with
      | nil =>
        rw [List.nil_append]
        exact .atValue hfinds.takesValue hfinds.value_ne_nil hrest
      | cons e inner =>
        have hfinds' : rule.Finds start (outer ++ [c] ++ e :: inner) value rest := by
          simpa using hfinds
        exact .inHead (by simp) hfinds' hrest
  | @atValue value rest shown' hvalue _ hrest =>
    exact Or.inr ⟨value, rest, shown', rfl, hvalue, hrest, rfl⟩

/-- Characters that are shown in front of any marker stand in the text. -/
theorem Shown.drop {before : Option Char} {front text shown : List Char}
    (h : rule.Shown before text (front ++ shown)) (hfront : '[' ∉ front) :
    ∃ before' back, text = front ++ back ∧ rule.Shown before' back shown := by
  induction front generalizing before text with
  | nil => exact ⟨before, text, rfl, h⟩
  | cons c front ih =>
    rw [List.mem_cons, not_or] at hfront
    rcases h.cons_or with ⟨tail, rfl, htail⟩ | ⟨_, _, _, -, -, -, hmarker⟩
    · obtain ⟨before', back, rfl, hback⟩ := ih htail hfront.2
      exact ⟨before', back, rfl, hback⟩
    · exact absurd (List.cons.inj hmarker).1.symm hfront.1

/-- A marker that stands in the text is shown as it is. -/
theorem Hides.behind_marker (hrule : rule.Lawful) {mark : List Char}
    (hmark : mark <:+ redactionMarker) {before : Option Char} {rest shown : List Char}
    (h : rule.Hides before (mark ++ rest) shown) :
    ∃ before' shown', rule.Hides before' rest shown' ∧ shown = mark ++ shown' := by
  induction mark generalizing before shown with
  | nil => exact ⟨before, shown, h, rfl⟩
  | cons c mark ih =>
    generalize htext : c :: mark ++ rest = text at h
    cases h with
    | nil => simp at htext
    | plain _ htail =>
      obtain ⟨rfl, rfl⟩ := List.cons.inj htext
      obtain ⟨before', shown', hrest, rfl⟩ := ih ((List.suffix_cons c mark).trans hmark) htail
      exact ⟨before', shown', hrest, rfl⟩
    -- no head starts inside of a marker, so nothing of it is hidden
    | place hfinds =>
      rw [List.append_assoc] at htext
      exact absurd htext.symm (hrule.head_ne_marker (by simp) hmark hfinds.takesHead)

theorem Shown.behind_marker (hrule : rule.Lawful) {before : Option Char} {rest shown : List Char}
    (h : rule.Shown before (redactionMarker ++ rest) shown) :
    (∃ before shown', rule.Hides before rest shown' ∧ shown = redactionMarker ++ shown') ∨
      rule.AtValue (redactionMarker ++ rest) shown := by
  generalize htext : redactionMarker ++ rest = text at h
  cases h with
  | between h =>
    subst htext
    exact Or.inl (h.behind_marker hrule (List.suffix_refl _))
  -- a head has no bracket, so the marker does not reach into one
  | @inHead _ outer inner value rest' shown' hne hfinds hrest =>
    cases inner with
    | nil => exact absurd rfl hne
    | cons c inner =>
      have hc : c = '[' := (List.cons.inj htext).1.symm
      exact absurd (by simp [hc]) (hrule.announces.noBracket hfinds.takesHead)
  | @atValue value rest' shown' hvalue _ hrest =>
    exact Or.inr ⟨value, rest', shown', rfl, hvalue, hrest, rfl⟩

/-! ### Findings in the shown text -/

/-- **What the earlier rule finds in the shown text, it finds in the text.**  There is one
exception: its head may stand in front of a value that the later rule has hidden. -/
theorem Shown.finds (hearlier : earlier.Lawful) (hlater : later.Lawful)
    {start before before' : Option Char} {text head value rest : List Char}
    (h : later.Shown start text (head ++ (value ++ rest)))
    (hfinds : earlier.Finds before' head value rest)
    (hword : wordCanStart before' = true → (∃ c ∈ text.head?, c.isAlpha = true) →
      wordCanStart before = true) :
    (∃ value' rest', text = head ++ (value' ++ rest') ∧ earlier.Finds before head value' rest' ∧
        (value' = redactionMarker → value = redactionMarker)) ∨
      ∃ back, text = head ++ back ∧ later.AtValue back (value ++ rest) := by
  obtain ⟨_, back, rfl, hback⟩ := h.drop (hearlier.announces.noBracket hfinds.takesHead)
  by_cases hat : later.AtValue back (value ++ rest)
  · exact Or.inr ⟨back, rfl, hat⟩
  refine Or.inl ?_
  -- the first character of the value stays in place, so the head is recognised
  obtain ⟨c, hc, hsolid⟩ := hearlier.hideable.solid hfinds.takesValue
  obtain ⟨value₂, rfl⟩ : ∃ value₂, value = c :: value₂ := List.head?_eq_some_iff.1 hc
  obtain ⟨tail, rfl, -⟩ := hback.cons_or.resolve_right hat
  have hfirst : (c :: tail).head? = (c :: value₂).head? := rfl
  have hagain : '[' ∉ c :: value₂ → c :: value₂ <+: c :: tail := by
    intro hopen
    obtain ⟨_, back, hback, -⟩ := hback.drop hopen
    exact ⟨back, hback.symm⟩
  obtain ⟨value', rest', hne, hcut, hvalue'⟩ :=
    hearlier.hideable.again hfinds.takesValue hfirst hagain
  have hhead : earlier.head.Takes head (c :: tail) :=
    hearlier.announces.endsAtSolid hsolid hsolid hfinds.takesHead
  refine ⟨value', rest', by rw [hcut], ⟨fun hstarts => ?_, hcut ▸ hhead, hvalue', hne⟩, ?_⟩
  · refine hword (hfinds.wordStarts hstarts) ?_
    obtain ⟨d, hd, halpha⟩ := hearlier.startsWithLetter hstarts hfinds.takesHead
    exact ⟨d, by rw [List.head?_append, Option.mem_def.1 hd]; rfl, halpha⟩
  · -- a marker in the text is shown as it is, and ends where it has ended
    intro hvalue
    rw [hvalue] at hcut hvalue'
    rw [hcut] at hback hat
    obtain ⟨_, shown, hrest, hshown⟩ := (hback.behind_marker hlater).resolve_right hat
    have hmarker := hearlier.takes_marker_of_hides hlater hrest hvalue'
    exact (hfinds.takesValue.unique hmarker hshown).1

/-- A value that starts at a marker is the marker if the marker ends where it stands. -/
theorem AtValue.eq_marker (hearlier : earlier.Lawful) (hlater : later.Lawful)
    {hidden after shown' value rest : List Char} (hrest : later.Hides hidden.getLast? after shown')
    (hshown : value ++ rest = redactionMarker ++ shown') (hvalue : earlier.value.Takes value rest)
    (hmarker : earlier.value.Takes redactionMarker after) : value = redactionMarker :=
  (hvalue.unique (hearlier.takes_marker_of_hides hlater hrest hmarker) hshown).1

/-- Values that start where a marker is shown start with its bracket. -/
theorem Lawful.value_open (hearlier : earlier.Lawful) {value rest shown : List Char}
    (hvalue : earlier.value.Takes value rest) (hshown : value ++ rest = redactionMarker ++ shown) :
    ∃ value', value = '[' :: value' := by
  cases value with
  | nil => exact absurd rfl (hearlier.value_ne_nil hvalue)
  | cons c value =>
    have hc : c = '[' := (List.cons.inj hshown).1
    exact ⟨value, by rw [hc]⟩

/-- No word starts in the shown text that does not start in the text. -/
theorem SameBehind.wordCanStart (hlater : later.Lawful) {before before' : Option Char}
    {text : List Char} (h : later.SameBehind before before' text)
    (hword : wordCanStart before' = true) (halpha : ∃ c ∈ text.head?, c.isAlpha = true) :
    wordCanStart before = true := by
  rcases h with rfl | ⟨value, hvalue, rfl⟩
  · exact hword
  · refine (hlater.hideable.stops hvalue).resolve_right fun hstops => ?_
    obtain ⟨c, hc, halpha⟩ := halpha
    rw [hstops c hc] at halpha
    simp at halpha

/-! ### Settled rules -/

/-- **A rule is settled on what it shows.** -/
theorem settled_redactBy_self (hrule : rule.Lawful) (text : List Char) :
    rule.Settled none (redactBy rule text) := by
  intro front' head value rest hcut hfinds
  have hne : head ++ value ++ rest ≠ [] := by simp [hfinds.value_ne_nil]
  -- the head that is found starts in a marker or at a position of the text
  rcases (hides_redactBy rule text).origin (Or.inl rfl) hcut hne with
    ⟨mark, more, hmark, hsuffix, heq⟩ | ⟨front, back, rfl, hshown, hbehind⟩
  · rw [List.append_assoc] at heq
    exact absurd heq (hrule.head_ne_marker hmark hsuffix hfinds.takesHead)
  rw [List.append_assoc] at hshown
  -- where the rule has hidden a value, its marker ends where the value has ended
  have hplace : ∀ {hidden after shown}, rule.value.Takes hidden after →
      rule.Hides hidden.getLast? after shown → value ++ rest = redactionMarker ++ shown →
        value = redactionMarker := by
    intro hidden after shown hhidden hrest heq
    obtain ⟨value', rfl⟩ := hrule.value_open hfinds.takesValue heq
    exact AtValue.eq_marker hrule hrule hrest heq hfinds.takesValue
      (hrule.hideable.closes hhidden hfinds.takesValue)
  -- in a head, no other head ends but at its end
  have hinner : ∀ {before outer inner hidden after shown},
      rule.Finds before (outer ++ inner) hidden after → rule.Hides hidden.getLast? after shown →
        head ++ (value ++ rest) = inner ++ (redactionMarker ++ shown) →
          value = redactionMarker := by
    intro before outer inner hidden after shown hfinds' hrest heq
    rcases List.append_eq_append_iff.1 heq with ⟨mid, rfl, hmid⟩ | ⟨mid, rfl, hmid⟩
    · cases mid with
      | nil => exact hplace hfinds'.takesValue hrest hmid
      | cons c mid =>
        obtain ⟨d, hd, hsolid⟩ := hrule.hideable.solid hfinds.takesValue
        obtain ⟨value, rfl⟩ : ∃ value₂, value = d :: value₂ := List.head?_eq_some_iff.1 hd
        obtain ⟨rfl, -⟩ := List.cons.inj hmid
        rw [hrule.announces.nested hfinds'.takesHead hfinds.takesHead] at hsolid
        simp at hsolid
    · cases mid with
      | nil => exact hplace hfinds'.takesValue hrest hmid.symm
      | cons c mid =>
        have hc : '[' = c := (List.cons.inj hmid).1
        exact absurd (by simp [← hc]) (hrule.announces.noBracket hfinds.takesHead)
  have hfound := hshown.finds hrule hrule hfinds fun hword halpha =>
    hbehind.wordCanStart hrule hword halpha
  generalize heq : head ++ (value ++ rest) = shown at hshown
  cases hshown with
  | between hhides =>
    cases hhides with
    | nil => simp [hfinds.value_ne_nil] at heq
    | plain hnone =>
      rcases hfound with ⟨value', rest', hback, hfinds', -⟩ | ⟨_, -, _, _, _, -, h₁, h₂, h₃⟩
      · rw [← List.append_assoc] at hback
        exact absurd hfinds' (hnone head value' rest' hback)
      · exact hplace h₁ h₂ h₃
    | place hfinds' hrest =>
      rename_i head' value' rest' shown'
      have hfinds'' : rule.Finds _ ([] ++ head') value' rest' := hfinds'
      exact hinner hfinds'' hrest heq
  | inHead _ hfinds' hrest => exact hinner hfinds' hrest heq
  | atValue hvalue hne hrest =>
    obtain ⟨c, hc, -⟩ := hrule.announces.solid hfinds.takesHead
    obtain ⟨head, rfl⟩ : ∃ head₂, head = c :: head₂ := List.head?_eq_some_iff.1 hc
    have hc : c = '[' := (List.cons.inj heq).1
    exact absurd (by simp [hc]) (hrule.announces.noBracket hfinds.takesHead)

/-- **A rule stays settled when a later rule is applied** that hides no part of its values. -/
theorem Settled.redactBy (hearlier : earlier.Lawful) (hlater : later.Lawful)
    (hkept : earlier.Undisturbed later) {text : List Char} (h : earlier.Settled none text) :
    earlier.Settled none (redactBy later text) := by
  intro front' head value rest hcut hfinds
  have hne : head ++ value ++ rest ≠ [] := by simp [hfinds.value_ne_nil]
  -- as before, the head starts in a marker or at a position of the text
  rcases (hides_redactBy later text).origin (Or.inl rfl) hcut hne with
    ⟨mark, more, hmark, hsuffix, heq⟩ | ⟨front, back, rfl, hshown, hbehind⟩
  · rw [List.append_assoc] at heq
    exact absurd heq (hearlier.head_ne_marker hmark hsuffix hfinds.takesHead)
  rw [List.append_assoc] at hshown
  have hword : wordCanStart (front'.getLast?.or none) = true →
      (∃ c ∈ back.head?, c.isAlpha = true) → wordCanStart (front.getLast?.or none) = true :=
    fun hword halpha => hbehind.wordCanStart hlater hword halpha
  rcases hshown.finds hearlier hlater hfinds hword with
    ⟨value', rest', rfl, hfinds', himp⟩ |
      ⟨back, rfl, hidden, after, shown, rfl, hhidden, hrest, heq⟩
  · rw [← List.append_assoc head] at h
    exact himp (h rfl hfinds')
  · -- the head stands in front of a value that has just been hidden
    obtain ⟨value₂, rfl⟩ := hearlier.value_open hfinds.takesValue heq
    refine AtValue.eq_marker hearlier hlater hrest heq hfinds.takesValue ?_
    rcases hkept hhidden hfinds.takesValue with
      hmarker | ⟨value', rest', hne', hcut', hvalue', himp⟩
    · exact hmarker
    · obtain ⟨c, hc, hsolid⟩ := hlater.hideable.solid hhidden
      obtain ⟨hidden, rfl⟩ : ∃ hidden₂, hidden = c :: hidden₂ := List.head?_eq_some_iff.1 hc
      have hhead : earlier.head.Takes head (value' ++ rest') := by
        rw [← hcut']
        exact hearlier.announces.endsAtSolid (by decide) hsolid hfinds.takesHead
      -- the earlier rule has found a value there, which was a marker already
      have hfinds' : earlier.Finds (front.getLast?.or none) head value' rest' := by
        refine ⟨fun hstarts => hword (hfinds.wordStarts hstarts) ?_, hhead, hvalue', hne'⟩
        obtain ⟨d, hd, halpha⟩ := hearlier.startsWithLetter hstarts hfinds.takesHead
        exact ⟨d, by rw [List.head?_append, Option.mem_def.1 hd]; rfl, halpha⟩
      rw [hcut', ← List.append_assoc head] at h
      exact himp (h rfl hfinds')

/-- **After all rules of a list, each of them is settled**, if none hides a part of a value of
an earlier one. -/
theorem settled_foldl {rules : List Pattern} (hlawful : ∀ rule ∈ rules, rule.Lawful)
    (hkept : rules.Pairwise Undisturbed) (text : List Char) :
    ∀ rule ∈ rules,
      rule.Settled none (rules.foldl (fun text rule => TaskEngine.redactBy rule text) text) := by
  -- a rule that has been applied stays settled while the later ones are
  have hstays : ∀ {rule : Pattern} {rules : List Pattern}, rule.Lawful →
      (∀ later ∈ rules, later.Lawful ∧ rule.Undisturbed later) → ∀ {text : List Char},
        rule.Settled none text →
          rule.Settled none
            (rules.foldl (fun text rule => TaskEngine.redactBy rule text) text) := by
    intro rule rules hrule hrules
    induction rules with
    | nil => exact fun h => h
    | cons later rules ih =>
      intro text h
      obtain ⟨hlater, hkept⟩ := hrules later List.mem_cons_self
      exact ih (fun later hmem => hrules later (List.mem_cons_of_mem _ hmem))
        (h.redactBy hrule hlater hkept)
  induction rules generalizing text with
  | nil => simp
  | cons first rules ih =>
    rw [List.pairwise_cons] at hkept
    have hfirst := hlawful first List.mem_cons_self
    have hrules : ∀ rule ∈ rules, rule.Lawful :=
      fun rule hmem => hlawful rule (List.mem_cons_of_mem _ hmem)
    intro rule hmem
    rcases List.mem_cons.1 hmem with rfl | hmem
    · exact hstays hfirst (fun later hmem => ⟨hrules later hmem, hkept.1 later hmem⟩)
        (settled_redactBy_self hfirst text)
    · exact ih hrules hkept.2 (TaskEngine.redactBy first text) rule hmem

end Pattern

end TaskEngine
