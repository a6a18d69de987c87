import TaskEngine.Proofs.Text.Piece

/-!
# Texts with hidden values

What a rule makes of a text is described by a relation between the text and what is shown
of it: characters outside of all places are shown as they are, and where the rule finds a
value behind a head, the head is shown and the marker stands for the value.

A rule is *settled* on a text if all it finds there are markers that already stand for
values.  Applying it again changes nothing then.

## Main definitions

* `Pattern.Finds` — the rule finds a value behind a head.
* `Pattern.Hides` — what the rule shows of a text.
* `Pattern.Settled` — the rule finds nothing but markers.
* `Pattern.Shown` — what is shown from a position on, which may lie inside of a head.

## Main results

* `hides_redactBy` — `redactBy` shows what `Hides` says.
* `Settled.redactBy_eq` — a rule leaves a text alone on which it is settled.
* `Hides.origin` — every position of the shown text lies in a marker or stands for a position
  of the text.
-/

namespace TaskEngine

/-! ### Last characters -/

theorem getLast?_append_or (front back : List Char) (before : Option Char) :
    (front ++ back).getLast?.or before = back.getLast?.or (front.getLast?.or before) := by
  rw [List.getLast?_append, Option.or_assoc]

namespace Pattern

variable {rule : Pattern}

/-! ### Findings -/

/-- Behind the character `before`, the rule finds a value behind a head. -/
structure Finds (rule : Pattern) (before : Option Char) (head value rest : List Char) : Prop where
  /-- The head stands at the start of a word if it has to. -/
  wordStarts : rule.startsWord = true → wordCanStart before = true
  /-- The head is taken. -/
  takesHead : rule.head.Takes head (value ++ rest)
  /-- The value is taken. -/
  takesValue : rule.value.Takes value rest
  /-- The value is not empty. -/
  value_ne_nil : value ≠ []

theorem finds_of_matchAt? {before : Option Char} {text : List Char} {finding : Finding text}
    (h : rule.matchAt? before text = some finding) :
    rule.Finds before finding.head finding.value finding.rest := by
  unfold matchAt? at h
  split at h
  · simp at h
  rename_i hword
  split at h
  · simp at h
  rename_i head behind hhead
  split at h
  · simp at h
  rename_i value rest hvalue
  split at h
  · rename_i hne
    simp only [Option.some.injEq] at h
    subst h
    obtain ⟨rfl, hvalue'⟩ := Piece.split_eq_some_iff.1 hvalue
    refine ⟨fun hstarts => ?_, (Piece.split_eq_some_iff.1 hhead).2, hvalue', hne⟩
    simpa [hstarts] using hword
  · simp at h

theorem Finds.matchAt?_ne_none {before : Option Char} {head value rest : List Char}
    (h : rule.Finds before head value rest) :
    rule.matchAt? before (head ++ value ++ rest) ≠ none := by
  have hhead : rule.head.split (head ++ value ++ rest) = some (head, value ++ rest) := by
    rw [List.append_assoc]
    exact h.takesHead
  have hvalue : rule.value.split (value ++ rest) = some (value, rest) := h.takesValue
  unfold matchAt?
  split
  · rename_i hword
    simp only [Bool.and_eq_true, Bool.not_eq_true'] at hword
    rw [h.wordStarts hword.1] at hword
    simp at hword
  -- what the pieces take is settled, so no other branch can be taken
  · split
    · rename_i hnone
      rw [hhead] at hnone
      simp at hnone
    · rename_i head' behind hhead'
      rw [hhead] at hhead'
      simp only [Option.some.injEq, Prod.mk.injEq] at hhead'
      obtain ⟨rfl, rfl⟩ := hhead'
      split
      · rename_i hnone
        rw [hvalue] at hnone
        simp at hnone
      · rename_i value' rest' hvalue'
        rw [hvalue] at hvalue'
        simp only [Option.some.injEq, Prod.mk.injEq] at hvalue'
        obtain ⟨rfl, rfl⟩ := hvalue'
        rw [dif_pos h.value_ne_nil]
        simp

/-- A rule finds at most one place at a position. -/
theorem Finds.unique {before : Option Char} {head value rest head' value' rest' : List Char}
    (h : rule.Finds before head value rest) (h' : rule.Finds before head' value' rest')
    (heq : head ++ value ++ rest = head' ++ value' ++ rest') :
    head = head' ∧ value = value' ∧ rest = rest' := by
  rw [List.append_assoc, List.append_assoc] at heq
  obtain ⟨hhead, hbehind⟩ := h.takesHead.unique h'.takesHead heq
  exact ⟨hhead, h.takesValue.unique h'.takesValue hbehind⟩

/-- The segments of a text with a place at its front. -/
theorem segmentsAfter_of_finds {before : Option Char} {head value rest : List Char}
    (h : rule.Finds before head value rest) :
    rule.segmentsAfter before (head ++ value ++ rest) =
      .place head value :: rule.segmentsAfter value.getLast? rest := by
  generalize htext : head ++ value ++ rest = text
  cases text with
  | nil => simp [h.value_ne_nil] at htext
  | cons c tail =>
    rw [segmentsAfter]
    split
    · rename_i hnone
      rw [← htext] at hnone
      exact absurd hnone h.matchAt?_ne_none
    · rename_i finding hfinding
      have hfinds := finds_of_matchAt? hfinding
      obtain ⟨hhead, hvalue, hrest⟩ := hfinds.unique h (finding.joined.trans htext.symm)
      rw [hhead, hvalue, hrest, List.getLast?_append_of_ne_nil _ h.value_ne_nil]

/-- The segments of a text with no place at its front. -/
theorem segmentsAfter_of_not_finds {before : Option Char} {c : Char} {tail : List Char}
    (h : ∀ head value rest, c :: tail = head ++ value ++ rest →
      ¬rule.Finds before head value rest) :
    rule.segmentsAfter before (c :: tail) = .plain c :: rule.segmentsAfter (some c) tail := by
  rw [segmentsAfter]
  split
  · rfl
  · rename_i finding hfinding
    exact absurd (finds_of_matchAt? hfinding) (h _ _ _ finding.joined.symm)

/-! ### What is shown of a text -/

/-- Behind the character `before`, the rule shows `shown` of a text. -/
inductive Hides (rule : Pattern) : Option Char → List Char → List Char → Prop
  /-- Of nothing, nothing is shown. -/
  | nil {before} : Hides rule before [] []
  /-- A character at which nothing is found is shown. -/
  | plain {before c tail shown}
      (hnone : ∀ head value rest, c :: tail = head ++ value ++ rest →
        ¬rule.Finds before head value rest)
      (htail : Hides rule (some c) tail shown) : Hides rule before (c :: tail) (c :: shown)
  /-- Of a place the head is shown, and the marker. -/
  | place {before head value rest shown} (hfinds : rule.Finds before head value rest)
      (hrest : Hides rule value.getLast? rest shown) :
      Hides rule before (head ++ value ++ rest) (head ++ (redactionMarker ++ shown))

theorem hides_segmentsAfter (rule : Pattern) (before : Option Char) (text : List Char) :
    rule.Hides before text ((rule.segmentsAfter before text).flatMap Segment.hidden) := by
  fun_induction rule.segmentsAfter before text with
  | case1 => exact .nil
  | case2 before c tail hnone ih =>
    refine .plain (fun head value rest htext hfinds => ?_) ih
    rw [htext] at hnone
    exact hfinds.matchAt?_ne_none hnone
  | case3 before c tail finding hfinding ih =>
    have hfinds := finds_of_matchAt? hfinding
    rw [List.getLast?_append_of_ne_nil _ hfinds.value_ne_nil] at ih
    have h := Hides.place hfinds ih
    rw [finding.joined] at h
    rw [List.flatMap_cons, Segment.hidden, List.append_assoc]
    rw [List.getLast?_append_of_ne_nil _ hfinds.value_ne_nil]
    exact h

/-- **Redaction by a rule shows what the relation says.** -/
theorem hides_redactBy (rule : Pattern) (text : List Char) :
    rule.Hides none text (redactBy rule text) :=
  hides_segmentsAfter rule none text

/-- Of nothing, nothing is shown. -/
theorem Hides.eq_nil {before : Option Char} {shown : List Char} (h : rule.Hides before [] shown) :
    shown = [] := by
  generalize htext : [] = text at h
  cases h with
  | nil => rfl
  | plain => simp at htext
  | place hfinds =>
    have hvalue := hfinds.value_ne_nil
    simp [hvalue] at htext

/-- Every character that is shown stands in the text or in the marker. -/
theorem Hides.mem_or {before : Option Char} {text shown : List Char}
    (h : rule.Hides before text shown) {c : Char} (hc : c ∈ shown) :
    c ∈ text ∨ c ∈ redactionMarker := by
  induction h with
  | nil => exact Or.inl hc
  | plain _ _ ih =>
    rcases List.mem_cons.1 hc with rfl | hc
    · exact Or.inl List.mem_cons_self
    · exact (ih hc).imp_left (List.mem_cons_of_mem _)
  | place _ _ ih =>
    simp only [List.mem_append] at hc ⊢
    rcases hc with hc | hc | hc
    · exact Or.inl (Or.inl (Or.inl hc))
    · exact Or.inr hc
    · exact (ih hc).imp_left Or.inr

/-! ### Settled texts -/

/-- All that the rule finds in a text that stands behind `before` are markers. -/
def Settled (rule : Pattern) (before : Option Char) (text : List Char) : Prop :=
  ∀ ⦃front head value rest⦄, text = front ++ (head ++ value ++ rest) →
    rule.Finds (front.getLast?.or before) head value rest → value = redactionMarker

theorem Settled.behind {before : Option Char} {front back : List Char}
    (h : rule.Settled before (front ++ back)) : rule.Settled (front.getLast?.or before) back := by
  intro front' head value rest hback hfinds
  rw [← getLast?_append_or] at hfinds
  exact h (by rw [hback, ← List.append_assoc front]) hfinds

theorem Hides.eq_of_settled {before : Option Char} {text shown : List Char}
    (h : rule.Hides before text shown) (hsettled : rule.Settled before text) : shown = text := by
  induction h with
  | nil => rfl
  | @plain before c tail shown _ _ ih =>
    have htail : rule.Settled ([c].getLast?.or before) tail := hsettled.behind
    rw [ih htail]
  | @place before head value rest shown hfinds _ ih =>
    have hvalue : value = redactionMarker := @hsettled [] head value rest rfl hfinds
    have hrest := hsettled.behind
    rw [List.getLast?_append_of_ne_nil _ hfinds.value_ne_nil, Option.or_of_isSome] at hrest
    · rw [ih hrest, ← hvalue, List.append_assoc]
    · simpa using hfinds.value_ne_nil

/-- A rule leaves a text alone on which it is settled. -/
theorem Settled.redactBy_eq {text : List Char} (h : rule.Settled none text) :
    redactBy rule text = text :=
  (hides_redactBy rule text).eq_of_settled h

/-! ### Positions of what is shown -/

/-- What is shown from a position on, behind the character `before`.  The position lies between
places, in the head of a place, or in front of a hidden value. -/
inductive Shown (rule : Pattern) : Option Char → List Char → List Char → Prop
  /-- Between places. -/
  | between {before text shown} (h : rule.Hides before text shown) : Shown rule before text shown
  /-- In a head. -/
  | inHead {before start outer inner value rest shown} (hne : inner ≠ [])
      (hfinds : rule.Finds start (outer ++ inner) value rest)
      (hrest : rule.Hides value.getLast? rest shown) :
      Shown rule before (inner ++ (value ++ rest)) (inner ++ (redactionMarker ++ shown))
  /-- In front of a hidden value. -/
  | atValue {before value rest shown} (hvalue : rule.value.Takes value rest) (hne : value ≠ [])
      (hrest : rule.Hides value.getLast? rest shown) :
      Shown rule before (value ++ rest) (redactionMarker ++ shown)

/-- What stands in front of a position: the same character in the text and in what is shown
of it, unless a value has just been hidden. -/
def SameBehind (rule : Pattern) (before before' : Option Char) (text : List Char) : Prop :=
  before = before' ∨ ∃ value, rule.value.Takes value text ∧ before = value.getLast?

/-- A position of what is shown stands for a position of the text, between places or in a
head. -/
def Origin (rule : Pattern) (before before' : Option Char) (text front' back' : List Char) : Prop :=
  ∃ front back, text = front ++ back ∧ rule.Shown (front.getLast?.or before) back back' ∧
    rule.SameBehind (front.getLast?.or before) (front'.getLast?.or before') back

/-- Text in front of a text is shown in front of it. -/
theorem Origin.behind {before before' : Option Char} {lead lead' text front' back' : List Char}
    (h : rule.Origin (lead.getLast?.or before) (lead'.getLast?.or before') text front' back') :
    rule.Origin before before' (lead ++ text) (lead' ++ front') back' := by
  obtain ⟨front, back, rfl, hshown, hbehind⟩ := h
  refine ⟨lead ++ front, back, (List.append_assoc ..).symm, ?_, ?_⟩
  · rw [getLast?_append_or]
    exact hshown
  · rw [getLast?_append_or, getLast?_append_or]
    exact hbehind

/-- **Where positions of the shown text come from.**  Either the position lies in a marker, or
it stands for a position of the text. -/
theorem Hides.origin {before before' : Option Char} {text shown : List Char}
    (h : rule.Hides before text shown) (hbehind : rule.SameBehind before before' text)
    {front' back' : List Char} (hcut : shown = front' ++ back') (hne : back' ≠ []) :
    (∃ mark rest, mark ≠ [] ∧ mark <:+ redactionMarker ∧ back' = mark ++ rest) ∨
      rule.Origin before before' text front' back' := by
  induction h generalizing before' front' with
  | nil =>
    obtain ⟨-, rfl⟩ := List.append_eq_nil_iff.1 hcut.symm
    exact absurd rfl hne
  | @plain before c tail shown hnone htail ih =>
    cases front' with
    | nil =>
      rw [List.nil_append] at hcut
      exact Or.inr ⟨[], c :: tail, rfl, hcut ▸ .between (.plain hnone htail), hbehind⟩
    | cons d front' =>
      rw [List.cons_append] at hcut
      obtain ⟨rfl, hshown⟩ := List.cons.inj hcut
      refine (ih (Or.inl rfl) hshown).imp_right fun h => ?_
      have hc : rule.Origin ([c].getLast?.or before) ([c].getLast?.or before') tail front' back' :=
        h
      exact hc.behind
  | @place before head value rest shown hfinds hrest ih =>
    have hvalue : (head ++ value).getLast?.or before = value.getLast? := by
      rw [List.getLast?_append_of_ne_nil _ hfinds.value_ne_nil, Option.or_of_isSome]
      simpa using hfinds.value_ne_nil
    -- behind the marker, the induction hypothesis tells
    have hafter : ∀ {mid}, shown = mid ++ back' →
        (∃ mark rest, mark ≠ [] ∧ mark <:+ redactionMarker ∧ back' = mark ++ rest) ∨
          rule.Origin before before' (head ++ value ++ rest) (head ++ redactionMarker ++ mid)
            back' := by
      intro mid hshown
      have hstop : rule.SameBehind value.getLast? (some ']') rest :=
        Or.inr ⟨value, hfinds.takesValue, rfl⟩
      refine (ih hstop hshown).imp_right fun h => Origin.behind ?_
      rw [hvalue, List.getLast?_append_of_ne_nil _ (by decide)]
      exact h
    rw [← List.append_assoc] at hcut
    rcases List.append_eq_append_iff.1 hcut with ⟨mid, rfl, hshown⟩ | ⟨mark, hfront, rfl⟩
    · exact hafter hshown
    · rcases List.append_eq_append_iff.1 hfront with ⟨mid, rfl, hmid⟩ | ⟨inner, rfl, rfl⟩
      · cases mark with
        | nil =>
          rw [List.append_nil] at hmid
          subst hmid
          simpa using @hafter [] rfl
        | cons c mark => exact Or.inl ⟨c :: mark, shown, by simp, ⟨mid, hmid.symm⟩, rfl⟩
      · cases inner with
        | nil => exact Or.inl ⟨redactionMarker, shown, by decide, List.suffix_refl _, rfl⟩
        | cons c inner =>
          -- the position lies in the head, so the same characters stand in front of it
          refine Or.inr ⟨front', c :: inner ++ (value ++ rest), by simp, ?_, ?_⟩
          · rw [List.append_assoc]
            exact .inHead (by simp) hfinds hrest
          · cases front' with
            | nil => simpa using hbehind
            | cons d front' => exact Or.inl (by simp [List.getLast?_cons])

end Pattern

end TaskEngine
