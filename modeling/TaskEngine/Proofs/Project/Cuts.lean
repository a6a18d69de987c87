import TaskEngine.Project.Reference
import TaskEngine.Proofs.Redaction.Hiding

/-!
# Texts cut at their references

A text falls into references and what stands between them, and there is only one way to cut it:
a name goes on as far as there are word characters, and wherever the head of a reference stands in
front of a word character, a reference starts.  No two references overlap, because the sign that
starts a head occurs nowhere else in a reference.

References are replaced in this cut and in no other text.  What is put in for a name stands in the
result as it is, be it a reference itself or the beginning of one that the text behind goes on with.

## Main definitions

* `NameBefore` — a name stands in front of a rest and does not go on in it.
* `RefersAtStart` — a reference starts a text.
* `ReferenceCut` — the references of a text, and what stands between them.
* `ReferenceCut.Cuts` — a text is cut at each of its references, and nowhere else.
* `ReferenceCut.filled`, `ReferenceCut.undefinedNames` — the text with its references replaced, and
  the names that are not defined.

## Main results

* `reference_induction` — a text starts with a reference or with a character where none starts.
* `ReferenceCut.existsUnique_cuts` — a text can be cut in exactly one way.
* `ReferenceCut.Cuts.segments_eq` — the search for places finds this cut.
* `exists_cut_expandReferences` — **references are replaced in the only cut of a text.**
-/

namespace TaskEngine

/-- What a reference starts with, its point included. -/
def referenceHead : List Char := "$project_config.".toList

/-- A head is a sign that no name can have, and a rest without it. -/
theorem referenceHead_eq : referenceHead = '$' :: "project_config.".toList := by decide

/-- A name stands in front of a rest, and does not go on in it. -/
structure NameBefore (name rest : List Char) : Prop where
  /-- The name is not empty. -/
  ne_nil : name ≠ []
  /-- It is a word. -/
  isWord : ∀ c ∈ name, isWordChar c = true
  /-- What follows is nothing, or no character of a word. -/
  stops : ∀ c ∈ rest.head?, isWordChar c = false

/-- A reference starts a text: the head stands there, and a character of a word behind it. -/
def RefersAtStart (text : List Char) : Prop :=
  ∃ c rest, text = referenceHead ++ c :: rest ∧ isWordChar c = true

/-! ### References at the start of a text -/

theorem takes_name {name rest : List Char} :
    (Piece.atLeastOne isWordChar).Takes name rest ↔ NameBefore name rest := by
  rw [Piece.atLeastOne, Piece.takes_run]
  constructor
  · rintro ⟨hword, hstops, hlength, -⟩
    exact ⟨List.ne_nil_of_length_pos hlength, hword, hstops⟩
  · rintro ⟨hne, hword, hstops⟩
    exact ⟨hword, hstops, List.length_pos_iff.2 hne, rfl⟩

/-- A name ends in one place only. -/
theorem NameBefore.unique {name rest name' rest' : List Char} (h : NameBefore name rest)
    (h' : NameBefore name' rest') (heq : name ++ rest = name' ++ rest') :
    name = name' ∧ rest = rest' :=
  (takes_name.2 h).unique (takes_name.2 h') heq

theorem finds_reference {before : Option Char} {head name rest : List Char} :
    referencePattern.Finds before head name rest ↔
      head = referenceHead ∧ NameBefore name rest := by
  constructor
  · intro h
    exact ⟨Piece.takes_literal.1 h.takesHead, takes_name.1 h.takesValue⟩
  · rintro ⟨rfl, hname⟩
    exact ⟨fun hstarts => absurd hstarts Bool.false_ne_true, Piece.takes_literal.2 rfl,
      takes_name.2 hname, hname.ne_nil⟩

theorem NameBefore.refersAtStart {name rest : List Char} (h : NameBefore name rest) :
    RefersAtStart (referenceHead ++ name ++ rest) := by
  obtain ⟨hne, hword, -⟩ := h
  cases name with
  | nil => exact absurd rfl hne
  | cons c name => exact ⟨c, name ++ rest, by simp, hword c List.mem_cons_self⟩

/-- Where a reference starts, its name goes on as far as it can. -/
theorem RefersAtStart.exists_name {text : List Char} (h : RefersAtStart text) :
    ∃ name rest, text = referenceHead ++ name ++ rest ∧ NameBefore name rest := by
  obtain ⟨c, rest, rfl, hc⟩ := h
  refine ⟨(c :: rest).takeWhile isWordChar, (c :: rest).dropWhile isWordChar, ?_, ?_, ?_, ?_⟩
  · rw [List.append_assoc, List.takeWhile_append_dropWhile]
  · rw [List.takeWhile_cons_of_pos hc]
    exact List.cons_ne_nil _ _
  · intro d hd
    exact List.mem_takeWhile_imp hd
  · intro d hd
    have hstop := List.head?_dropWhile_not isWordChar (c :: rest)
    rw [Option.mem_def.1 hd] at hstop
    simpa using hstop

/-- A text starts with a reference, or with a character at which none starts. -/
theorem reference_induction {motive : List Char → Prop} (nil : motive [])
    (plain : ∀ c tail, ¬RefersAtStart (c :: tail) → motive tail → motive (c :: tail))
    (reference : ∀ name rest, NameBefore name rest → motive rest →
      motive (referenceHead ++ name ++ rest)) (text : List Char) : motive text := by
  induction hlength : text.length using Nat.strong_induction_on generalizing text with
  | _ length ih =>
    subst hlength
    by_cases hrefers : RefersAtStart text
    · obtain ⟨name, rest, rfl, hname⟩ := hrefers.exists_name
      refine reference name rest hname (ih rest.length ?_ rest rfl)
      have hpos := List.length_pos_iff.2 hname.ne_nil
      simp only [List.length_append]
      omega
    · cases text with
      | nil => exact nil
      | cons c tail => exact plain c tail hrefers (ih tail.length (by simp) tail rfl)

/-- No reference starts inside of another one. -/
theorem RefersAtStart.behind_name {name rest front back : List Char}
    (hword : ∀ c ∈ name, isWordChar c = true) (hcut : referenceHead ++ name ++ rest = front ++ back)
    (h : RefersAtStart back) :
    front = [] ∨ ∃ more, front = referenceHead ++ name ++ more ∧ rest = more ++ back := by
  rcases List.append_eq_append_iff.1 hcut with ⟨more, rfl, hrest⟩ | ⟨inner, hfront, rfl⟩
  · exact .inr ⟨more, rfl, hrest⟩
  · cases front with
    | nil => exact .inl rfl
    | cons d front =>
      cases inner with
      | nil => exact .inr ⟨[], by simpa using hfront.symm, rfl⟩
      | cons c inner =>
        -- the sign that starts a reference would stand inside of the head or in the name
        obtain ⟨e, behind, hback, -⟩ := h
        rw [referenceHead_eq, List.cons_append] at hback hfront
        obtain ⟨rfl, -⟩ := List.cons.inj hback
        have hsign : '$' ∈ "project_config.".toList ++ name := by
          rw [(List.cons.inj hfront).2]
          simp
        rcases List.mem_append.1 hsign with hhead | hname
        · exact absurd hhead (by decide)
        · exact absurd (hword _ hname) (by decide)

/-! ### Cuts -/

/-- A text in parts: the references in it, and what stands between them. -/
structure ReferenceCut where
  /-- What stands in front of the first reference. -/
  lead : List Char
  /-- The name of each reference, and what stands between it and the next one. -/
  parts : List (List Char × List Char)

namespace ReferenceCut

/-- The text of references, and of what stands behind each of them. -/
def partsText (parts : List (List Char × List Char)) : List Char :=
  parts.flatMap fun part => referenceHead ++ part.1 ++ part.2

/-- The text that is cut. -/
def text (cut : ReferenceCut) : List Char := cut.lead ++ partsText cut.parts

/-- The text with the texts of attributes in place of the references. -/
def filled (lookup : Lookup) (cut : ReferenceCut) : List Char :=
  cut.lead ++ cut.parts.flatMap fun part =>
    ((lookup.get? (String.ofList part.1)).getD missingAttribute).toList ++ part.2

/-- The names that are not defined, as often as the text refers to them. -/
def undefinedNames (lookup : Lookup) (cut : ReferenceCut) : List String :=
  (cut.parts.map fun part => String.ofList part.1).filter fun name => (lookup.get? name).isNone

/-- A text is cut at each of its references, and nowhere else. -/
structure Cuts (cut : ReferenceCut) (text : List Char) : Prop where
  /-- The parts make up the text. -/
  joined : cut.text = text
  /-- Names are words, and as long as they can be. -/
  names : ∀ before name plain after, cut.parts = before ++ (name, plain) :: after →
    NameBefore name (plain ++ partsText after)
  /-- Where a reference starts in the text, one of the parts starts. -/
  complete : ∀ front back, text = front ++ back → RefersAtStart back →
    ∃ before after, cut.parts = before ++ after ∧ after ≠ [] ∧ front = cut.lead ++ partsText before

variable {cut : ReferenceCut} {c : Char} {tail name rest : List Char}

theorem partsText_cons (part : List Char × List Char) (parts : List (List Char × List Char)) :
    partsText (part :: parts) = referenceHead ++ part.1 ++ (part.2 ++ partsText parts) := by
  rw [partsText, List.flatMap_cons, List.append_assoc]
  rfl

theorem refersAtStart_partsText {part : List Char × List Char}
    {parts : List (List Char × List Char)} (h : NameBefore part.1 (part.2 ++ partsText parts)) :
    RefersAtStart (partsText (part :: parts)) := by
  rw [partsText_cons]
  exact h.refersAtStart

theorem not_refersAtStart_nil : ¬RefersAtStart [] := by
  rintro ⟨c, rest, h, -⟩
  exact absurd h.symm (by simp)

theorem cuts_nil_iff : cut.Cuts [] ↔ cut = ⟨[], []⟩ := by
  constructor
  · intro h
    obtain ⟨lead, parts⟩ := cut
    obtain ⟨rfl, hparts⟩ := List.append_eq_nil_iff.1 h.joined
    cases parts with
    | nil => rfl
    | cons part parts =>
      have hrefers := refersAtStart_partsText (h.names [] part.1 part.2 parts rfl)
      rw [show partsText (part :: parts) = [] from hparts] at hrefers
      exact absurd hrefers not_refersAtStart_nil
  · rintro rfl
    refine ⟨rfl, fun before name plain after h => ?_, fun front back h hrefers => ?_⟩
    · simp at h
    · obtain ⟨-, rfl⟩ := List.append_eq_nil_iff.1 h.symm
      exact absurd hrefers not_refersAtStart_nil

/-- A character at which no reference starts stands in front of the first reference. -/
theorem cuts_cons_iff (hrefers : ¬RefersAtStart (c :: tail)) :
    cut.Cuts (c :: tail) ↔ ∃ lead, cut.lead = c :: lead ∧ Cuts ⟨lead, cut.parts⟩ tail := by
  obtain ⟨lead, parts⟩ := cut
  constructor
  · intro h
    have hjoined : lead ++ partsText parts = c :: tail := h.joined
    cases lead with
    | nil =>
      cases parts with
      | nil => simp [partsText] at hjoined
      | cons part parts =>
        have hstart := refersAtStart_partsText (h.names [] part.1 part.2 parts rfl)
        rw [List.nil_append] at hjoined
        exact absurd (hjoined ▸ hstart) hrefers
    | cons d lead =>
      obtain ⟨rfl, htail⟩ := List.cons.inj hjoined
      refine ⟨lead, rfl, htail, h.names, fun front back hcut hback => ?_⟩
      obtain ⟨before, after, hparts, hne, hfront⟩ :=
        h.complete (d :: front) back (by rw [hcut, List.cons_append]) hback
      exact ⟨before, after, hparts, hne, (List.cons.inj hfront).2⟩
  · rintro ⟨lead, rfl, h⟩
    refine ⟨congrArg (c :: ·) h.joined, h.names, fun front back hcut hback => ?_⟩
    cases front with
    | nil => exact absurd (hcut ▸ hback) hrefers
    | cons d front =>
      obtain ⟨rfl, htail⟩ := List.cons.inj hcut
      obtain ⟨before, after, hparts, hne, rfl⟩ := h.complete front back htail hback
      exact ⟨before, after, hparts, hne, rfl⟩

/-- A reference at the start of a text is the first one of its parts. -/
theorem cuts_reference_iff (hname : NameBefore name rest) :
    cut.Cuts (referenceHead ++ name ++ rest) ↔
      ∃ plain parts, cut = ⟨[], (name, plain) :: parts⟩ ∧ Cuts ⟨plain, parts⟩ rest := by
  constructor
  · intro h
    obtain ⟨before, after, hparts, hne, hfront⟩ :=
      h.complete [] _ rfl hname.refersAtStart
    obtain ⟨lead, parts⟩ := cut
    obtain ⟨rfl, hbefore⟩ := List.append_eq_nil_iff.1 hfront.symm
    cases parts with
    | nil => exact absurd (List.append_eq_nil_iff.1 hparts.symm).2 hne
    | cons part parts =>
      have hpart := h.names [] part.1 part.2 parts rfl
      have hjoined : partsText (part :: parts) = referenceHead ++ name ++ rest := h.joined
      rw [partsText_cons, List.append_assoc, List.append_assoc] at hjoined
      obtain ⟨rfl, rfl⟩ := hpart.unique hname (List.append_cancel_left hjoined)
      refine ⟨part.2, parts, rfl, rfl, fun before name plain after heq => ?_,
        fun front back hcut hback => ?_⟩
      · exact h.names (part :: before) name plain after (congrArg (part :: ·) heq)
      · obtain ⟨before, after, hparts, hne, hfront⟩ :=
          h.complete (referenceHead ++ part.1 ++ front) back
            (by rw [hcut, List.append_assoc (referenceHead ++ part.1)]) hback
        cases before with
        | nil => simp [referenceHead_eq, partsText] at hfront
        | cons first before =>
          obtain ⟨rfl, hbehind⟩ := List.cons.inj hparts
          rw [List.nil_append, partsText_cons] at hfront
          exact ⟨before, after, hbehind, hne, List.append_cancel_left hfront⟩
  · rintro ⟨plain, parts, rfl, h⟩
    have hrest : plain ++ partsText parts = rest := h.joined
    refine ⟨?_, fun before name' plain' after heq => ?_, fun front back hcut hback => ?_⟩
    · rw [← hrest]
      exact partsText_cons (name, plain) parts
    · cases before with
      | nil =>
        obtain ⟨hpart, rfl⟩ := List.cons.inj heq
        obtain ⟨rfl, rfl⟩ := Prod.mk.inj hpart
        rw [hrest]
        exact hname
      | cons part before => exact h.names before name' plain' after (List.cons.inj heq).2
    · rcases hback.behind_name hname.isWord hcut with rfl | ⟨more, rfl, hmore⟩
      · exact ⟨[], (name, plain) :: parts, rfl, List.cons_ne_nil _ _, rfl⟩
      · obtain ⟨before, after, hparts, hne, rfl⟩ := h.complete more back hmore hback
        refine ⟨(name, plain) :: before, after, congrArg ((name, plain) :: ·) hparts, hne, ?_⟩
        rw [partsText_cons]
        rfl

/-- **A text can be cut in exactly one way.** -/
theorem existsUnique_cuts (text : List Char) : ∃! cut : ReferenceCut, cut.Cuts text := by
  induction text using reference_induction with
  | nil => exact ⟨⟨[], []⟩, cuts_nil_iff.2 rfl, fun other hother => cuts_nil_iff.1 hother⟩
  | plain c tail hrefers ih =>
    obtain ⟨⟨lead, parts⟩, hcut, hunique⟩ := ih
    refine ⟨⟨c :: lead, parts⟩, (cuts_cons_iff hrefers).2 ⟨lead, rfl, hcut⟩, ?_⟩
    rintro ⟨lead', parts'⟩ hother
    obtain ⟨lead', rfl, htail⟩ := (cuts_cons_iff hrefers).1 hother
    obtain ⟨rfl, rfl⟩ := ReferenceCut.mk.inj (hunique _ htail)
    rfl
  | reference name rest hname ih =>
    obtain ⟨⟨plain, parts⟩, hcut, hunique⟩ := ih
    refine ⟨⟨[], (name, plain) :: parts⟩, (cuts_reference_iff hname).2 ⟨plain, parts, rfl, hcut⟩, ?_⟩
    intro other hother
    obtain ⟨plain', parts', rfl, hrest⟩ := (cuts_reference_iff hname).1 hother
    obtain ⟨rfl, rfl⟩ := ReferenceCut.mk.inj (hunique _ hrest)
    rfl

/-! ### What the search for places finds -/

/-- The places of a text that is cut, and the characters between them. -/
def segments (cut : ReferenceCut) : List Segment :=
  cut.lead.map Segment.plain ++ cut.parts.flatMap fun part =>
    .place referenceHead part.1 :: part.2.map Segment.plain

/-- The search for places finds the references. -/
theorem Cuts.segments_eq {text : List Char} (h : cut.Cuts text) (before : Option Char) :
    referencePattern.segmentsAfter before text = cut.segments := by
  induction text using reference_induction generalizing cut before with
  | nil =>
    rw [cuts_nil_iff.1 h, Pattern.segmentsAfter]
    rfl
  | plain c tail hrefers ih =>
    obtain ⟨lead, hlead, htail⟩ := (cuts_cons_iff hrefers).1 h
    rw [Pattern.segmentsAfter_of_not_finds, ih htail, segments, segments, hlead, List.map_cons,
      List.cons_append]
    intro head name rest hcut hfinds
    obtain ⟨rfl, hname⟩ := finds_reference.1 hfinds
    exact hrefers (hcut ▸ hname.refersAtStart)
  | reference name rest hname ih =>
    obtain ⟨plain, parts, rfl, hrest⟩ := (cuts_reference_iff hname).1 h
    rw [Pattern.segmentsAfter_of_finds (finds_reference.2 ⟨rfl, hname⟩), ih hrest, segments,
      segments, List.flatMap_cons]
    rfl

variable (lookup : Lookup)

theorem flatMap_expanded_plain (chars : List Char) :
    (chars.map Segment.plain).flatMap (Segment.expanded lookup) = chars := by
  rw [List.flatMap_map]
  exact List.flatMap_singleton' chars

theorem filterMap_undefined_plain (chars : List Char) :
    (chars.map Segment.plain).filterMap (Segment.undefined? lookup) = [] := by
  rw [List.filterMap_map]
  exact List.filterMap_eq_nil_iff.2 fun c _ => rfl

theorem flatMap_expanded_segments (cut : ReferenceCut) :
    cut.segments.flatMap (Segment.expanded lookup) = cut.filled lookup := by
  rw [segments, List.flatMap_append, flatMap_expanded_plain, List.flatMap_assoc, filled]
  congr 2
  funext part
  rw [List.flatMap_cons, flatMap_expanded_plain]
  rfl

theorem filterMap_undefined_segments (cut : ReferenceCut) :
    cut.segments.filterMap (Segment.undefined? lookup) = cut.undefinedNames lookup := by
  rw [segments, List.filterMap_append, filterMap_undefined_plain, List.nil_append, undefinedNames]
  induction cut.parts with
  | nil => rfl
  | cons part parts ih =>
    rw [List.flatMap_cons, List.filterMap_append, List.filterMap_cons, filterMap_undefined_plain, ih,
      List.map_cons, List.filter_cons, Segment.undefined?]
    by_cases hdefined : (lookup.get? (String.ofList part.1)).isNone = true
    · rw [if_pos hdefined, if_pos hdefined]
      rfl
    · rw [if_neg hdefined, if_neg hdefined]
      rfl

/-- References are replaced in the cut of a text. -/
theorem Cuts.expandReferences_eq {text : String} (h : cut.Cuts text.toList) :
    expandReferences lookup text =
      (String.ofList (cut.filled lookup), cut.undefinedNames lookup) := by
  rw [expandReferences, Pattern.segments, h.segments_eq, flatMap_expanded_segments,
    filterMap_undefined_segments]

end ReferenceCut

/-- **References are replaced in the only cut of a text.**  The result consists of the plain parts
of the text and of what the attributes stand for, whatever that is: what is put in is not looked at
again. -/
theorem exists_cut_expandReferences (text : String) :
    ∃ cut : ReferenceCut, cut.Cuts text.toList ∧
      (∀ other : ReferenceCut, other.Cuts text.toList → other = cut) ∧
      ∀ lookup, expandReferences lookup text =
        (String.ofList (cut.filled lookup), cut.undefinedNames lookup) := by
  obtain ⟨cut, hcut, hunique⟩ := ReferenceCut.existsUnique_cuts text.toList
  exact ⟨cut, hcut, hunique, fun lookup => hcut.expandReferences_eq lookup⟩

-- what is put in for `a` makes a reference with the text behind it, which is not replaced
example : expandReferences ⟨.ofList [("a", "$project_config"), ("b", "x")]⟩
    "$project_config.a.b $project_config.$project_config.c" =
      ("$project_config.b $project_config.None", ["c"]) := by decide +kernel

end TaskEngine
