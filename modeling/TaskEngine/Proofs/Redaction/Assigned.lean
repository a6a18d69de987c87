import TaskEngine.Proofs.Redaction.Stability

/-!
# Assigned values under the first three rules

A credential that is assigned to a name at the end of a text is followed through the first
three rules.  A header in front of it hides everything.  Otherwise the name may be taken for a
bearer token, which then goes on to the equals signs behind it and leaves the rest of the value.
If it is not, the third rule hides the value.

## Main definitions

* `Pattern.endsInPlace` — the last segment of a text is a place.
* `AssignedSegments` — the segments of an assignment behind a text.
* `NamesCredential` — a name ends in a word for a credential.

## Main results

* `header_hides`, `header_keeps` — what the first rule does.
* `assignedSegments` — what the second rule does.
* `assignment_hides` — what the third rule does.
-/

namespace TaskEngine

open Piece Pattern

/-! ### Segments -/

/-- Whether the segment is a place. -/
def Segment.isPlace : Segment → Bool
  | .plain _ => false
  | .place _ _ => true

/-- Whether the last segment of a text is a place. -/
def Pattern.endsInPlace (rule : Pattern) (text : List Char) : Bool :=
  (rule.segments text).getLast?.any Segment.isPlace

theorem flatMap_hidden_plain (text : List Char) :
    (text.map Segment.plain).flatMap Segment.hidden = text := by
  induction text with
  | nil => rfl
  | cons c text ih =>
    rw [List.map_cons, List.flatMap_cons, ih, Segment.hidden, List.singleton_append]

/-- What is shown of segments stands in their text or in the marker. -/
theorem mem_or_of_mem_hidden {segments : List Segment} {c : Char}
    (hc : c ∈ segments.flatMap Segment.hidden) :
    c ∈ segmentsText segments ∨ c ∈ redactionMarker := by
  obtain ⟨segment, hsegment, hc⟩ := List.mem_flatMap.1 hc
  rw [segmentsText, List.mem_flatMap]
  cases segment with
  | plain d => exact Or.inl ⟨_, hsegment, hc⟩
  | place head value =>
    rcases List.mem_append.1 hc with hc | hc
    · exact Or.inl ⟨_, hsegment, List.mem_append_left _ hc⟩
    · exact Or.inr hc

/-! ### Heads that end in white space -/

/-- What the piece takes ends in white space. -/
def Piece.EndsInSpace (head : Piece) : Prop :=
  ∀ ⦃taken rest⦄, head.Takes taken rest → ∃ c ∈ taken.getLast?, isSpace c = true

theorem Piece.endsInSpace_thenSpaces (first : Piece) :
    (first.followedBy (atLeastOne isSpace)).EndsInSpace := by
  intro taken rest h
  obtain ⟨front, back, rfl, -, hback⟩ := takes_followedBy.1 h
  obtain ⟨hspaces, -, hlength, -⟩ := takes_run.1 hback
  have hne : back ≠ [] := List.length_pos_iff.1 hlength
  refine ⟨back.getLast hne, ?_, hspaces _ (List.getLast_mem hne)⟩
  rw [List.getLast?_append_of_ne_nil _ hne, List.getLast?_eq_some_getLast hne]
  rfl

/-- A head that ends in white space lies in front of a text without any. -/
theorem Piece.EndsInSpace.within {head : Piece} (hhead : head.EndsInSpace)
    {taken rest front back : List Char} (h : head.Takes taken rest)
    (hcut : taken ++ rest = front ++ back) (hback : ∀ c ∈ back, isSpace c = false) :
    ∃ mid, front = taken ++ mid ∧ rest = mid ++ back := by
  rcases List.append_eq_append_iff.1 hcut with ⟨mid, rfl, hrest⟩ | ⟨mid, rfl, rfl⟩
  · exact ⟨mid, rfl, hrest⟩
  · cases hmid : mid.getLast? with
    | none =>
      rw [List.getLast?_eq_none_iff.1 hmid]
      exact ⟨[], by simp, by simp⟩
    | some c =>
      obtain ⟨d, hd, hspace⟩ := hhead h
      rw [List.getLast?_append, hmid, Option.some_or, Option.mem_def, Option.some.injEq] at hd
      rw [← hd, hback c (List.mem_append_left _ (List.mem_of_getLast? hmid))] at hspace
      simp at hspace

/-- No head is found in a text without white space. -/
theorem Piece.EndsInSpace.not_takes {head : Piece} (hhead : head.EndsInSpace)
    {taken rest : List Char} (h : head.Takes taken rest) :
    ¬∀ c ∈ taken ++ rest, isSpace c = false := by
  intro hsolid
  obtain ⟨c, hc, hspace⟩ := hhead h
  rw [hsolid c (List.mem_append_left _ (List.mem_of_getLast? hc))] at hspace
  simp at hspace

namespace Pattern

variable {rule : Pattern}

theorem segmentsAfter_of_solid (hhead : rule.head.EndsInSpace) (before : Option Char)
    {text : List Char} (htext : ∀ c ∈ text, isSpace c = false) :
    rule.segmentsAfter before text = text.map Segment.plain := by
  induction text generalizing before with
  | nil => rw [segmentsAfter, List.map_nil]
  | cons c text ih =>
    rw [segmentsAfter_of_not_finds, ih _ fun d hd => htext d (List.mem_cons_of_mem _ hd),
      List.map_cons]
    intro head value rest hcut hfinds
    refine hhead.not_takes hfinds.takesHead ?_
    rw [← List.append_assoc, ← hcut]
    exact htext

end Pattern

/-! ### The rule for headers -/

/-- White space at the end of a head ends in front of any solid character. -/
theorem Piece.takes_thenSpaces {small : String} {taken rest rest' : List Char}
    (h : ((word small).followedBy (atLeastOne isSpace)).Takes taken rest)
    (hrest' : ∀ c ∈ rest'.head?, isSpace c = false) :
    ((word small).followedBy (atLeastOne isSpace)).Takes taken rest' := by
  obtain ⟨front, back, rfl, hfront, hback⟩ := takes_followedBy.1 h
  obtain ⟨hspaces, -, hlength⟩ := takes_run.1 hback
  exact takes_followedBy.2 ⟨front, back, rfl, firm_word small hfront,
    takes_run.2 ⟨hspaces, hrest', hlength⟩⟩

theorem Piece.solid_behind_thenSpaces {first : Piece} {taken rest : List Char}
    (h : (first.followedBy (atLeastOne isSpace)).Takes taken rest) :
    ∀ c ∈ rest.head?, isSpace c = false := by
  obtain ⟨front, back, rfl, -, hback⟩ := takes_followedBy.1 h
  exact (takes_run.1 hback).2.1

section Header

variable {before : Option Char} {front back shown : List Char}

/-- A header at the end of a text announces what is put behind the text. -/
theorem finds_header (hne : back ≠ []) (hback : ∀ c ∈ back, isSpace c = false)
    (hstarts : authorizationRule.head.starts front = true) :
    ∃ head value rest, front ++ back = head ++ value ++ rest ∧
      authorizationRule.Finds before head value rest := by
  obtain ⟨head, mid, rfl, hhead⟩ := starts_iff.1 hstarts
  have hsolid : ∃ c ∈ (mid ++ back).head?, isSpace c = false := by
    cases mid with
    | nil =>
      obtain ⟨c, back, rfl⟩ := List.exists_cons_of_ne_nil hne
      exact ⟨c, rfl, hback c List.mem_cons_self⟩
    | cons c mid => exact ⟨c, rfl, solid_behind_thenSpaces hhead c rfl⟩
  obtain ⟨value, rest, hvalue, hcut, htakes⟩ := exists_upToTrailingSpace hsolid
  refine ⟨head, value, rest, ?_, ⟨by simp [authorizationRule], ?_, htakes, hvalue⟩⟩
  · rw [List.append_assoc, hcut, List.append_assoc]
  · refine takes_thenSpaces hhead fun d hd => ?_
    obtain ⟨c, hc, hspace⟩ := hsolid
    rw [← hcut, Option.mem_def.1 hc, Option.mem_def, Option.some.injEq] at hd
    rw [← hd]
    exact hspace

/-- **A header hides everything behind it.** -/
theorem header_hides (h : authorizationRule.Hides before (front ++ back) shown) (hne : back ≠ [])
    (hback : ∀ c ∈ back, isSpace c = false)
    (hoccurs : authorizationRule.head.occurs front = true) :
    ∀ c ∈ shown, c ∈ front ∨ c ∈ redactionMarker := by
  generalize htext : front ++ back = text at h
  induction h generalizing front with
  | nil => exact absurd (List.append_eq_nil_iff.1 htext).2 hne
  | @plain before c tail shown hnone _ ih =>
    cases front with
    | nil =>
      have hnone : authorizationRule.head.occurs [] = false := by decide
      rw [hnone] at hoccurs
      simp at hoccurs
    | cons d front =>
      rw [occurs, Bool.or_eq_true] at hoccurs
      -- a header that starts here would have been found
      rcases hoccurs with hstarts | hoccurs
      · obtain ⟨head, value, rest, hcut, hfinds⟩ := finds_header hne hback hstarts
        exact absurd hfinds (hnone head value rest (htext.symm.trans hcut))
      · obtain ⟨rfl, htail⟩ := List.cons.inj htext
        intro c hc
        rcases List.mem_cons.1 hc with rfl | hc
        · exact Or.inl List.mem_cons_self
        · exact (ih hoccurs htail c hc).imp_left (List.mem_cons_of_mem _)
  | @place before head value rest shown hfinds hrest _ =>
    rw [List.append_assoc] at htext
    obtain ⟨mid, rfl, hbehind⟩ :=
      (endsInSpace_thenSpaces _).within hfinds.takesHead htext.symm hback
    -- the value goes on to the end, where there is no white space
    have hnil : rest = [] := by
      have hspaces := (takes_upToTrailingSpace.1 hfinds.takesValue).2.2
      by_contra hrest
      have hlast := congrArg List.getLast? hbehind
      rw [List.getLast?_append_of_ne_nil _ hrest, List.getLast?_append_of_ne_nil _ hne,
        List.getLast?_eq_some_getLast hrest, List.getLast?_eq_some_getLast hne,
        Option.some.injEq] at hlast
      have hspace := hspaces _ (List.getLast_mem hrest)
      rw [hlast, hback _ (List.getLast_mem hne)] at hspace
      simp at hspace
    subst hnil
    rw [hrest.eq_nil]
    intro c hc
    rw [List.append_nil] at hc
    exact (List.mem_append.1 hc).imp_left (List.mem_append_left _)

/-- Without a header, nothing is hidden. -/
theorem header_keeps (h : authorizationRule.Hides before (front ++ back) shown)
    (hback : ∀ c ∈ back, isSpace c = false)
    (hoccurs : authorizationRule.head.occurs front = false) : shown = front ++ back := by
  refine h.eq_of_settled fun lead head value rest hcut hfinds => ?_
  have hspace : authorizationRule.head.EndsInSpace := endsInSpace_thenSpaces _
  rw [List.append_assoc head] at hcut
  rcases List.append_eq_append_iff.1 hcut with ⟨mid, -, rfl⟩ | ⟨mid, rfl, hmid⟩
  -- a head has white space, so none lies inside of the solid part
  · refine absurd ?_ (hspace.not_takes hfinds.takesHead)
    exact fun c hc => hback c (List.mem_append_right _ hc)
  · obtain ⟨mid, rfl, hbehind⟩ := hspace.within hfinds.takesHead hmid hback
    -- a head in front of the solid part is a header of the front
    have hstarts : authorizationRule.head.starts (head ++ mid) = true := by
      refine starts_iff.2 ⟨head, mid, rfl, takes_thenSpaces hfinds.takesHead fun c hc => ?_⟩
      refine solid_behind_thenSpaces hfinds.takesHead c ?_
      rw [hbehind, List.head?_append, Option.mem_def.1 hc]
      rfl
    rw [occurs_append hstarts] at hoccurs
    simp at hoccurs

end Header

/-! ### The rule for bearer tokens -/

theorem isBearerChar_of_isNameChar {c : Char} (h : isNameChar c = true) :
    isBearerChar c = true := by
  refine isBearerChar_iff.2 ((isNameChar_iff.1 h).imp_right fun hc => ?_)
  rw [List.mem_singleton.1 hc]
  decide

theorem isSpace_eq_false_of_isNameChar {c : Char} (h : isNameChar c = true) :
    isSpace c = false := by
  have hsolid := holds_of_isAlphanum_or (fun _ => isSolid_of_isAlphanum) (by decide)
    (isNameChar_iff.1 h)
  simpa [isSolid] using hsolid

/-- An assignment has no white space. -/
theorem solid_of_assignment {key value : List Char} (hkey : ∀ c ∈ key, isNameChar c = true)
    (hvalue : ∀ c ∈ value, isSpace c = false) : ∀ c ∈ key ++ '=' :: value, isSpace c = false := by
  intro c hc
  rcases List.mem_append.1 hc with hc | hc
  · exact isSpace_eq_false_of_isNameChar (hkey c hc)
  · rcases List.mem_cons.1 hc with rfl | hc
    · decide
    · exact hvalue c hc

section Bearer

variable {key value : List Char}

/-- A token that reaches into a name that is assigned to goes on to the equals signs behind it. -/
theorem bearer_value_beyond (hkey : ∀ c ∈ key, isNameChar c = true)
    {mid first equals rest : List Char}
    (hfirst : (run isBearerChar 1 none).Takes first (equals ++ rest))
    (hequals : (run (· == '=') 0 none).Takes equals rest)
    (hcut : first ++ (equals ++ rest) = mid ++ (key ++ '=' :: value)) (hmid : mid <+: first) :
    (∀ c ∈ mid, isBearerChar c = true) ∧
      first ++ equals = mid ++ key ++ '=' :: value.takeWhile (· == '=') ∧
        rest = value.dropWhile (· == '=') := by
  obtain ⟨hchars, hstop, -⟩ := takes_run.1 hfirst
  obtain ⟨hsigns, hend, -⟩ := takes_run.1 hequals
  obtain ⟨beyond, rfl⟩ := hmid
  have hbearer : ∀ c ∈ mid ++ key, isBearerChar c = true := by
    intro c hc
    rcases List.mem_append.1 hc with hc | hc
    · exact hchars c (List.mem_append_left _ hc)
    · exact isBearerChar_of_isNameChar (hkey c hc)
  -- the characters in front of the equals signs are all of the text and the name
  have hequal : isBearerChar '=' = false := by decide
  have hstops : ∀ c ∈ ('=' :: value).head?, isBearerChar c = false := by
    intro c hc
    simp only [List.head?_cons, Option.mem_def, Option.some.injEq] at hc
    rw [← hc, hequal]
  rw [← List.append_assoc mid key] at hcut
  have htakes := takeWhile_append_of_stop hchars hstop
  have hdrops := dropWhile_append_of_stop hchars hstop
  rw [hcut, takeWhile_append_of_stop hbearer hstops] at htakes
  rw [hcut, dropWhile_append_of_stop hbearer hstops] at hdrops
  -- and the equals signs are those that stop them, and those of the value
  have htakes' := takeWhile_append_of_stop hsigns hend
  have hdrops' := dropWhile_append_of_stop hsigns hend
  rw [← hdrops] at htakes' hdrops'
  refine ⟨fun c hc => hbearer c (List.mem_append_left _ hc), ?_, ?_⟩
  · rw [← htakes, ← htakes']
    rfl
  · rw [← hdrops']
    rfl

/-- Bearer tokens either end in front of a name that is assigned to, or go on to the equals
signs behind it. -/
theorem bearer_value_cut (hkey : ∀ c ∈ key, isNameChar c = true) (hne : key ≠ [])
    {mid token rest : List Char} (h : bearerRule.value.Takes token rest)
    (hcut : token ++ rest = mid ++ (key ++ '=' :: value)) :
    (∃ mid', mid = token ++ mid' ∧ rest = mid' ++ (key ++ '=' :: value)) ∨
      (∀ c ∈ mid, isBearerChar c = true) ∧
        token = mid ++ key ++ '=' :: value.takeWhile (· == '=') ∧
          rest = value.dropWhile (· == '=') := by
  obtain ⟨first, equals, rfl, hfirst, hequals⟩ := takes_followedBy.1 h
  rcases List.append_eq_append_iff.1 hcut with ⟨mid', rfl, hrest⟩ | ⟨beyond, hbeyond, hrest⟩
  · exact Or.inl ⟨mid', rfl, hrest⟩
  cases beyond with
  | nil =>
    rw [List.append_nil] at hbeyond
    exact Or.inl ⟨[], by rw [List.append_nil, hbeyond], hrest.symm⟩
  | cons k beyond =>
    -- the token reaches into the name, whose first character is no equals sign
    have hk : isNameChar k = true := by
      obtain ⟨k', key, rfl⟩ := List.exists_cons_of_ne_nil hne
      rw [← (List.cons.inj hrest).1]
      exact hkey k' List.mem_cons_self
    have hmid : mid <+: first := by
      rcases List.append_eq_append_iff.1 hbeyond with ⟨beyond', rfl, hbeyond'⟩ | ⟨beyond', rfl, -⟩
      · have hsign := (takes_run.1 hequals).1 k (by rw [hbeyond']; simp)
        rw [beq_iff_eq] at hsign
        have hname : isNameChar '=' = false := by decide
        rw [hsign, hname] at hk
        simp at hk
      · exact ⟨beyond', rfl⟩
    rw [List.append_assoc] at hcut
    exact Or.inr (bearer_value_beyond hkey hfirst hequals hcut hmid)

/-- A bearer token is found in a text if it is found in a prefix of the text. -/
theorem finds_bearer_of_start {before : Option Char} {head token rest text : List Char}
    (h : bearerRule.Finds before head token rest) (hstart : token ++ rest <+: text) :
    ∃ token' rest', head ++ text = head ++ token' ++ rest' ∧
      bearerRule.Finds before head token' rest' := by
  obtain ⟨more, rfl⟩ := hstart
  -- a token that goes on further is still a token behind the same head
  obtain ⟨c, hc, hsolid⟩ := hideable_bearerRule.solid h.takesValue
  obtain ⟨token, rfl⟩ : ∃ token₂, token = c :: token₂ := List.head?_eq_some_iff.1 hc
  have hfirst : (c :: token ++ rest ++ more).head? = (c :: token).head? := rfl
  obtain ⟨token', rest', hne, hcut, htakes⟩ :=
    hideable_bearerRule.again h.takesValue hfirst fun _ => ⟨rest ++ more, by simp⟩
  refine ⟨token', rest', by rw [hcut, List.append_assoc], ⟨h.wordStarts, ?_, htakes, hne⟩⟩
  rw [← hcut]
  exact announces_bearerRule.endsAtSolid hsolid hsolid h.takesHead

/-- A bearer token that is found does not depend on what follows behind the next character. -/
theorem Pattern.Finds.bearer_of_head? {before : Option Char} {head token rest rest' : List Char}
    (h : bearerRule.Finds before head token rest) (hrest : rest'.head? = rest.head?) :
    bearerRule.Finds before head token rest' := by
  have hlooks : bearerRule.value.LooksAhead :=
    LooksAhead.followedBy (looksAhead_run _ _ _) (looksAhead_run _ _ _)
  refine ⟨h.wordStarts, ?_, hlooks hrest h.takesValue, h.value_ne_nil⟩
  refine takes_thenSpaces h.takesHead fun c hc => ?_
  refine solid_behind_thenSpaces h.takesHead c ?_
  rw [List.head?_append, hrest, ← List.head?_append] at hc
  exact hc

/-- A token that ends in a name. -/
theorem finds_bearer_name (hkey : ∀ c ∈ key, isNameChar c = true) (hne : key ≠ [])
    {before : Option Char} {head token rest mid : List Char}
    (h : bearerRule.Finds before head token rest) (hmid : ∀ c ∈ mid, isBearerChar c = true) :
    bearerRule.Finds before head (mid ++ key) [] := by
  have hbearer : ∀ c ∈ mid ++ key, isBearerChar c = true := by
    intro c hc
    rcases List.mem_append.1 hc with hc | hc
    · exact hmid c hc
    · exact isBearerChar_of_isNameChar (hkey c hc)
  have hne : mid ++ key ≠ [] := by simp [hne]
  refine ⟨h.wordStarts, ?_, ?_, hne⟩
  · refine takes_thenSpaces h.takesHead fun c hc => ?_
    rw [List.append_nil] at hc
    exact fit_isBearerChar.solid c (hbearer c (List.mem_of_mem_head? hc))
  · refine takes_followedBy.2 ⟨mid ++ key, [], by rw [List.append_nil], ?_, ?_⟩
    · exact takes_run.2 ⟨hbearer, by simp, List.length_pos_iff.2 hne, rfl⟩
    · exact takes_run.2 ⟨by simp, by simp, Nat.zero_le _, rfl⟩

/-- The segments of an assignment behind a text.  Nothing is a place of it, or a token ends in the
name, goes on to the equals signs, and the rest of the value is left. -/
def AssignedSegments (key value : List Char) (before : Option Char) (pre : List Char) : Prop :=
  (∃ segments,
      bearerRule.segmentsAfter before (pre ++ key) = segments ++ key.map Segment.plain ∧
        bearerRule.segmentsAfter before (pre ++ (key ++ '=' :: value)) =
          segments ++ (key ++ '=' :: value).map Segment.plain ∧
        segmentsText segments = pre) ∨
    ∃ segments head front rest,
      bearerRule.segmentsAfter before (pre ++ key) = segments ++ [.place head (front ++ key)] ∧
        bearerRule.segmentsAfter before (pre ++ (key ++ '=' :: value)) =
          segments ++ .place head (front ++ key ++ '=' :: value.takeWhile (· == '=')) ::
            (value.dropWhile (· == '=')).map Segment.plain ∧
        segmentsText segments ++ (head ++ front) = pre ∧ bearerRule.head.Takes head rest

/-- A segment in front, which is the same with and without the assigned value. -/
theorem AssignedSegments.cons {before before' : Option Char} {segment : Segment} {pre : List Char}
    (h : AssignedSegments key value before' pre)
    (hshort : bearerRule.segmentsAfter before (segment.text ++ (pre ++ key)) =
      segment :: bearerRule.segmentsAfter before' (pre ++ key))
    (hlong : bearerRule.segmentsAfter before (segment.text ++ (pre ++ (key ++ '=' :: value))) =
      segment :: bearerRule.segmentsAfter before' (pre ++ (key ++ '=' :: value))) :
    AssignedSegments key value before (segment.text ++ pre) := by
  rw [AssignedSegments, List.append_assoc, List.append_assoc, hshort, hlong]
  rcases h with ⟨segments, hshort', hlong', htext⟩ | ⟨segments, head, front, rest, hshort', hlong',
    htext, hhead⟩
  · refine Or.inl ⟨segment :: segments, ?_, ?_, ?_⟩
    · rw [hshort', List.cons_append]
    · rw [hlong', List.cons_append]
    · rw [← htext, segmentsText, List.flatMap_cons, segmentsText]
  · refine Or.inr ⟨segment :: segments, head, front, rest, ?_, ?_, ?_, hhead⟩
    · rw [hshort', List.cons_append]
    · rw [hlong', List.cons_append]
    · rw [← htext, segmentsText, List.flatMap_cons, segmentsText, List.append_assoc]

/-- A token that is found in front of the assignment ends in front of the name, so that what is
behind it decides, or in the name. -/
theorem AssignedSegments.of_finds (hkey : ∀ c ∈ key, isNameChar c = true) (hne : key ≠ [])
    (hvalue : ∀ c ∈ value, isSpace c = false) {before : Option Char}
    {head token rest mid : List Char}
    (hfinds : bearerRule.Finds before head token rest)
    (hmid : token ++ rest = mid ++ (key ++ '=' :: value))
    (hbehind : ∀ before' pre, pre.length < mid.length → AssignedSegments key value before' pre) :
    AssignedSegments key value before (head ++ mid) := by
  rcases bearer_value_cut hkey hne hfinds.takesValue hmid with
    ⟨mid, rfl, rfl⟩ | ⟨hbearer, rfl, rfl⟩
  · -- the token ends in front of the name
    have hnext : (mid ++ key).head? = (mid ++ (key ++ '=' :: value)).head? := by
      obtain ⟨k, key, rfl⟩ := List.exists_cons_of_ne_nil hne
      rw [List.head?_append, List.head?_append]
      rfl
    have hless : mid.length < (token ++ mid).length := by
      have htoken := List.length_pos_iff.2 hfinds.value_ne_nil
      rw [List.length_append]
      omega
    rw [← List.append_assoc]
    have hplace : AssignedSegments key value before ((Segment.place head token).text ++ mid) :=
      (hbehind token.getLast? mid hless).cons
        (segmentsAfter_of_finds (hfinds.bearer_of_head? hnext)) (segmentsAfter_of_finds hfinds)
    exact hplace
  · -- the token ends in the name
    refine Or.inr ⟨[], head, mid, _, ?_, ?_, rfl, hfinds.takesHead⟩
    · have h := segmentsAfter_of_finds (finds_bearer_name hkey hne hfinds hbearer)
      rw [List.append_nil, ← List.append_assoc, segmentsAfter] at h
      exact h
    · rw [List.append_assoc head, ← hmid, ← List.append_assoc head,
        segmentsAfter_of_finds hfinds, segmentsAfter_of_solid (endsInSpace_thenSpaces _)]
      · rfl
      · exact fun c hc => hvalue c ((List.dropWhile_suffix _).subset hc)

/-- Where nothing is found in front of the assignment, nothing is found in front of its name. -/
theorem AssignedSegments.of_not_finds (hkey : ∀ c ∈ key, isNameChar c = true)
    {before : Option Char} {c : Char} {pre : List Char}
    (hnone : ∀ head token rest, c :: (pre ++ (key ++ '=' :: value)) = head ++ token ++ rest →
      ¬bearerRule.Finds before head token rest)
    (hbehind : AssignedSegments key value (some c) pre) :
    AssignedSegments key value before (c :: pre) := by
  have hname : ∀ c ∈ key, isSpace c = false :=
    fun c hc => isSpace_eq_false_of_isNameChar (hkey c hc)
  have hshort : ∀ head token rest, c :: (pre ++ key) = head ++ token ++ rest →
      ¬bearerRule.Finds before head token rest := by
    intro head token rest hcut hfinds
    rw [List.append_assoc head, ← List.cons_append] at hcut
    obtain ⟨mid, hpre, hmid⟩ :=
      (endsInSpace_thenSpaces _).within hfinds.takesHead hcut.symm hname
    have hstart : token ++ rest <+: mid ++ (key ++ '=' :: value) :=
      ⟨'=' :: value, by rw [hmid, List.append_assoc]⟩
    obtain ⟨token', rest', heq, hfinds'⟩ := finds_bearer_of_start hfinds hstart
    refine hnone head token' rest' ?_ hfinds'
    rw [← heq, ← List.cons_append, hpre, List.append_assoc]
  have hplain : AssignedSegments key value before ((Segment.plain c).text ++ pre) :=
    hbehind.cons (segmentsAfter_of_not_finds hshort) (segmentsAfter_of_not_finds hnone)
  exact hplain

/-- **An assignment under the rule for bearer tokens**, behind any text. -/
theorem assignedSegments (hkey : ∀ c ∈ key, isNameChar c = true) (hne : key ≠ [])
    (hvalue : ∀ c ∈ value, isSpace c = false) (before : Option Char) (pre : List Char) :
    AssignedSegments key value before pre := by
  have hspace : bearerRule.head.EndsInSpace := endsInSpace_thenSpaces _
  have hassigned := solid_of_assignment hkey hvalue
  -- by induction on the length of the text, since a place may be long
  induction hlength : pre.length using Nat.strong_induction_on generalizing before pre with
  | _ n ih =>
    cases pre with
    | nil =>
      have hname : ∀ c ∈ key, isSpace c = false :=
        fun c hc => isSpace_eq_false_of_isNameChar (hkey c hc)
      exact Or.inl ⟨[], segmentsAfter_of_solid hspace before hname,
        segmentsAfter_of_solid hspace before hassigned, rfl⟩
    | cons c pre =>
      by_cases hfound : ∃ head token rest, c :: pre ++ (key ++ '=' :: value) =
          head ++ token ++ rest ∧ bearerRule.Finds before head token rest
      · obtain ⟨head, token, rest, hcut, hfinds⟩ := hfound
        rw [List.append_assoc head] at hcut
        obtain ⟨mid, hpre, hmid⟩ := hspace.within hfinds.takesHead hcut.symm hassigned
        rw [hpre]
        refine AssignedSegments.of_finds hkey hne hvalue hfinds hmid fun before' pre' hless => ?_
        refine ih pre'.length ?_ before' pre' rfl
        rw [← hlength, hpre, List.length_append]
        omega
      · refine AssignedSegments.of_not_finds hkey
          (fun head token rest hcut hfinds => hfound ⟨head, token, rest, hcut, hfinds⟩) ?_
        refine ih pre.length ?_ (some c) pre rfl
        rw [← hlength, List.length_cons]
        omega

end Bearer

/-! ### The rule for assignments -/

/-- A name is a name of a credential if it ends in a word for one, in any ASCII case. -/
def NamesCredential (key : List Char) : Prop :=
  ∃ small ∈ ["key", "token", "secret", "password"], small.toList <:+ key.map Char.toLower

theorem NamesCredential.ne_nil {key : List Char} (h : NamesCredential key) : key ≠ [] := by
  rintro rfl
  obtain ⟨small, hsmall, hends⟩ := h
  rw [List.map_nil, List.suffix_nil] at hends
  revert small
  decide

theorem sameLetter_toLower {c : Char} (h : c.toNat < 128) : sameLetter c.toLower c = true := by
  have hascii : ∀ n < 128, sameLetter (Char.ofNat n).toLower (Char.ofNat n) = true := by decide
  have hc := hascii c.toNat h
  rw [Char.ofNat_toNat] at hc
  exact hc

theorem toNat_lt_of_isNameChar {c : Char} (h : isNameChar c = true) : c.toNat < 128 := by
  rcases isNameChar_iff.1 h with h | h
  · have hascii := toNat_of_isAlphanum h
    omega
  · rw [List.mem_singleton.1 h]
    decide

theorem takes_credentialName {key rest : List Char} (hkey : ∀ c ∈ key, isNameChar c = true)
    (hends : NamesCredential key) : credentialName.Takes key ('=' :: rest) := by
  obtain ⟨small, hsmall, lead, hlead⟩ := hends
  -- the letters of the name differ from those of the word in their case only
  obtain ⟨front, back, rfl, -, hback⟩ := List.map_eq_append_iff.1 hlead.symm
  refine takes_runEndingIn.2 ⟨fun c hc => ?_, by simp [isFoldedNameChar, isNameChar], small, hsmall,
    front, back, rfl, ?_⟩
  · simp [isFoldedNameChar, hkey c hc]
  · rw [← hback, List.forall₂_map_left_iff, List.forall₂_same]
    intro c hc
    exact sameLetter_toLower (toNat_lt_of_isNameChar (hkey c (List.mem_append_right _ hc)))

section Assignment

variable {key value : List Char}

theorem finds_assignment (hkey : ∀ c ∈ key, isNameChar c = true) (hends : NamesCredential key)
    (hne : value ≠ []) (hvalue : ∀ c ∈ value, isSpace c = false) (before : Option Char) :
    assignmentRule.Finds before (key ++ ['=']) value [] := by
  have hstop : ∀ c ∈ (value ++ []).head?, isSpace c = false := by
    intro c hc
    rw [List.append_nil] at hc
    exact hvalue c (List.mem_of_mem_head? hc)
  have hsign : ((one (· == '=')).followedBy spaces).Takes ['='] (value ++ []) := by
    refine takes_followedBy.2 ⟨['='], [], rfl, takes_one.2 ⟨'=', rfl, rfl⟩, ?_⟩
    exact takes_run.2 ⟨by simp, hstop, Nat.zero_le _, rfl⟩
  have hspaces : spaces.Takes [] (['='] ++ (value ++ [])) :=
    takes_run.2 ⟨by simp, by simp [isSpace, spaceRanges], Nat.zero_le _, rfl⟩
  refine ⟨by simp [assignmentRule], ?_, ?_, hne⟩
  · exact takes_followedBy.2 ⟨key, ['='], rfl, takes_credentialName hkey hends,
      takes_followedBy.2 ⟨[], ['='], rfl, hspaces, hsign⟩⟩
  · refine takes_run.2 ⟨fun c hc => ?_, by simp, List.length_pos_iff.2 hne, rfl⟩
    rw [isSolid, hvalue c hc]
    rfl

/-- A value that is found inside of the assignment goes on to the end, and its head ends at the
equals sign at the latest. -/
theorem assignment_place (hkey : ∀ c ∈ key, isNameChar c = true)
    (hvalue : ∀ c ∈ value, isSpace c = false) {before : Option Char}
    {front head value' rest beyond : List Char}
    (hfinds : assignmentRule.Finds before head value' rest)
    (hbeyond : head ++ value' = front ++ beyond) (hbehind : key ++ '=' :: value = beyond ++ rest) :
    rest = [] ∧ ∀ c ∈ head, c ∈ front ++ key ++ ['='] := by
  obtain ⟨-, hstop, -⟩ := takes_run.1 hfinds.takesValue
  have hnil : rest = [] := by
    cases rest with
    | nil => rfl
    | cons c rest =>
      have hc := hstop c rfl
      rw [isSolid, solid_of_assignment hkey hvalue c (by rw [hbehind]; simp)] at hc
      simp at hc
  refine ⟨hnil, fun c hc => ?_⟩
  have hcut : head ++ value' = (front ++ key ++ ['=']) ++ value := by
    rw [hnil, List.append_nil] at hbehind
    rw [hbeyond, ← hbehind]
    simp
  rcases List.append_eq_append_iff.1 hcut with ⟨more, hmore, -⟩ | ⟨more, rfl, rfl⟩
  · rw [hmore]
    exact List.mem_append_left _ hc
  · -- behind the equals sign, the head has nothing but white space
    rcases List.mem_append.1 hc with hc | hc
    · exact hc
    · have honce : EndsOnce (· == '=') ((front ++ key) ++ '=' :: more) := by
        have h := endsOnce_of_thenSpaced within_credentialName isSpace_ne_equals
          hfinds.takesHead
        simpa using h
      have hspace := honce.isSpace_behind rfl c hc
      rw [hvalue c (List.mem_append_left _ hc)] at hspace
      simp at hspace

/-- **The third rule hides an assigned value.** -/
theorem assignment_hides (hkey : ∀ c ∈ key, isNameChar c = true) (hends : NamesCredential key)
    (hne : value ≠ []) (hvalue : ∀ c ∈ value, isSpace c = false) {before : Option Char}
    {front shown : List Char}
    (h : assignmentRule.Hides before (front ++ (key ++ '=' :: value)) shown) :
    ∀ c ∈ shown, c ∈ front ++ key ++ ['='] ∨ c ∈ redactionMarker := by
  generalize htext : front ++ (key ++ '=' :: value) = text at h
  induction h generalizing front with
  | nil => simp at htext
  | @plain before c tail shown hnone _ ih =>
    cases front with
    | nil =>
      -- the assignment itself would have been found
      refine absurd (finds_assignment hkey hends hne hvalue before) (hnone _ _ _ ?_)
      simpa using htext.symm
    | cons d front =>
      obtain ⟨rfl, htail⟩ := List.cons.inj htext
      intro c hc
      rcases List.mem_cons.1 hc with rfl | hc
      · simp
      · exact (ih htail c hc).imp_left (List.mem_cons_of_mem _)
  | @place before head value' rest shown hfinds hrest ih =>
    rcases List.append_eq_append_iff.1 htext with ⟨beyond, hbeyond, hbehind⟩ | ⟨mid, rfl, rfl⟩
    · obtain ⟨rfl, hhead⟩ := assignment_place hkey hvalue hfinds hbeyond hbehind
      rw [hrest.eq_nil, List.append_nil]
      intro c hc
      exact (List.mem_append.1 hc).imp_left (hhead c)
    · intro c hc
      rcases List.mem_append.1 hc with hc | hc
      · exact Or.inl (by simp [hc])
      · rcases List.mem_append.1 hc with hc | hc
        · exact Or.inr hc
        · refine (ih rfl c hc).imp_left fun hc => ?_
          rw [List.append_assoc (head ++ value'), List.append_assoc (head ++ value')]
          exact List.mem_append_right _ hc

end Assignment

end TaskEngine
