import TaskEngine.Proofs.Redaction.Assigned

/-!
# Which assigned values are hidden

A character behind a marker is never hidden if the white space in front of the marker belongs
to no head.  That is what the rule for bearer tokens leaves of an assignment whose name it
takes for a token.  So the value of an assignment is hidden, but for the equals sign, exactly
if a header stands in front of it, the name is not taken for a token, or nothing but equals
signs is assigned.

## Main definitions

* `Guarded` — a character stands behind such a marker.
* `Pattern.KeepsGuarded` — what a rule has to be like in order not to hide it.

## Main results

* `Hides.guarded`, `Guarded.foldl` — **a guarded character is never hidden.**
* `redactText_hides_assigned_iff` — **which assigned values are hidden.**
-/

namespace TaskEngine

open Piece Pattern

/-! ### Characters behind a marker -/

/-- What the piece takes ends in white space only behind a colon or an equals sign. -/
def Piece.SpacedBySign (head : Piece) : Prop :=
  ∀ ⦃front c back rest⦄, head.Takes (front ++ c :: back) rest → back ≠ [] →
    (∀ d ∈ back, isSpace d = true) → isSpace c = false → c = ':' ∨ c = '='

/-- A head without white space does not end in any. -/
theorem Piece.spacedBySign_of_within {head : Piece} (h : head.Within isSolid) :
    head.SpacedBySign := by
  intro front c back rest htakes hne hspaces _
  obtain ⟨d, back, rfl⟩ := List.exists_cons_of_ne_nil hne
  have hsolid := h htakes d (by simp)
  rw [isSolid, hspaces d List.mem_cons_self] at hsolid
  simp at hsolid

/-- The last solid character of a head that ends once is the one it ends in. -/
theorem Piece.spacedBySign_of_endsOnce {head : Piece} {kind : Char → Bool}
    (h : ∀ {taken rest}, head.Takes taken rest → EndsOnce kind taken)
    (hkind : ∀ c, isSpace c = true → kind c = false)
    (hsign : ∀ c, kind c = true → c = ':' ∨ c = '=') : head.SpacedBySign := by
  intro front c back rest htakes _ hspaces hsolid
  obtain ⟨body, e, spaces, heq, -, he, hspaces'⟩ := h htakes
  -- the solid character and the sign are the last ones of the head that are no white space
  rcases List.append_eq_append_iff.1 heq with ⟨mid, rfl, hmid⟩ | ⟨mid, rfl, hmid⟩
  · cases mid with
    | nil =>
      rw [(List.cons.inj hmid).1]
      exact hsign e he
    | cons f mid =>
      have hspace := hspaces e (by rw [(List.cons.inj hmid).2]; simp)
      rw [hkind e hspace] at he
      simp at he
  · cases mid with
    | nil =>
      rw [← (List.cons.inj hmid).1]
      exact hsign e he
    | cons f mid =>
      have hspace := hspaces' c (by rw [(List.cons.inj hmid).2]; simp)
      rw [hspace] at hsolid
      simp at hsolid

/-- The character stands behind a marker, and in front of the marker there is white space that
does not belong to a head. -/
def Guarded (c : Char) (text : List Char) : Prop :=
  ∃ front d spaces after, text = front ++ d :: (spaces ++ (redactionMarker ++ c :: after)) ∧
    isSpace d = false ∧ d ≠ ':' ∧ d ≠ '=' ∧ spaces ≠ [] ∧ ∀ s ∈ spaces, isSpace s = true

/-- A rule that hides solid values and does not announce them across white space alone. -/
structure Pattern.KeepsGuarded (rule : Pattern) : Prop where
  /-- The rule is lawful. -/
  lawful : rule.Lawful
  /-- Values have no white space. -/
  within : rule.value.Within isSolid
  /-- Heads end in white space only behind a sign. -/
  spacedBySign : rule.head.SpacedBySign

theorem Guarded.mem {c : Char} {text : List Char} (h : Guarded c text) : c ∈ text := by
  obtain ⟨front, d, spaces, after, rfl, -⟩ := h
  simp

/-- White space in front of a text is shown as it is. -/
theorem Pattern.Hides.behind_spaces {rule : Pattern} (hrule : rule.Lawful) {before : Option Char}
    {spaces rest shown : List Char} (hspaces : ∀ s ∈ spaces, isSpace s = true)
    (h : rule.Hides before (spaces ++ rest) shown) :
    ∃ before' shown', rule.Hides before' rest shown' ∧ shown = spaces ++ shown' := by
  induction spaces generalizing before shown with
  | nil => exact ⟨before, shown, h, rfl⟩
  | cons s spaces ih =>
    generalize htext : s :: spaces ++ rest = text at h
    cases h with
    | nil => simp at htext
    | plain _ htail =>
      obtain ⟨rfl, rfl⟩ := List.cons.inj htext
      obtain ⟨before', shown', hrest, rfl⟩ :=
        ih (fun s hs => hspaces s (List.mem_cons_of_mem _ hs)) htail
      exact ⟨before', shown', hrest, rfl⟩
    | place hfinds =>
      obtain ⟨c, hc, hsolid⟩ := hrule.announces.solid hfinds.takesHead
      obtain ⟨head, rfl⟩ : ∃ head₂, _ = c :: head₂ := List.head?_eq_some_iff.1 hc
      obtain ⟨rfl, -⟩ := List.cons.inj htext
      rw [hspaces s List.mem_cons_self] at hsolid
      simp at hsolid

/-- White space, a marker and a character behind it are shown as they are. -/
theorem Pattern.Hides.guard {rule : Pattern} (hrule : rule.Lawful) {before : Option Char}
    {c : Char} {spaces after shown : List Char} (hspaces : ∀ s ∈ spaces, isSpace s = true)
    (h : rule.Hides before (spaces ++ (redactionMarker ++ c :: after)) shown) :
    ∃ after', shown = spaces ++ (redactionMarker ++ c :: after') := by
  obtain ⟨_, shown₁, hmarker, rfl⟩ := h.behind_spaces hrule hspaces
  obtain ⟨_, shown₂, hrest, rfl⟩ := hmarker.behind_marker hrule (List.suffix_refl _)
  obtain ⟨after', rfl⟩ := List.head?_eq_some_iff.1 (hrest.head?_eq hrule)
  exact ⟨after', rfl⟩

/-- Values start with solid characters. -/
theorem Pattern.KeepsGuarded.solid_of_takes {rule : Pattern} (hrule : rule.KeepsGuarded)
    {value rest : List Char} (h : rule.value.Takes value rest) :
    ∀ c ∈ value, isSpace c = false := by
  intro c hc
  simpa [isSolid] using hrule.within h c hc

/-- No head reaches into the white space in front of the marker. -/
theorem Pattern.KeepsGuarded.not_finds {rule : Pattern} (hrule : rule.KeepsGuarded)
    {before : Option Char} {c d : Char} {front back spaces after value rest : List Char}
    (hd : isSpace d = false) (hcolon : d ≠ ':') (hequals : d ≠ '=') (hne : spaces ≠ [])
    (hspaces : ∀ s ∈ spaces, isSpace s = true)
    (hcut : spaces ++ (redactionMarker ++ c :: after) = back ++ (value ++ rest)) :
    ¬rule.Finds before (front ++ d :: back) value rest := by
  intro hfinds
  -- a head that ended with the white space would have a sign in front of it
  have hsign : back ≠ spaces := by
    rintro rfl
    rcases hrule.spacedBySign hfinds.takesHead hne hspaces hd with h | h
    · exact hcolon h
    · exact hequals h
  rcases List.append_eq_append_iff.1 hcut with ⟨more, rfl, hmore⟩ | ⟨more, rfl, hmore⟩
  · cases more with
    | nil => exact hsign (List.append_nil _)
    | cons e more =>
      have he : '[' = e := (List.cons.inj hmore).1
      exact hrule.lawful.announces.noBracket hfinds.takesHead (by simp [← he])
  · cases more with
    | nil => exact hsign (List.append_nil _).symm
    | cons e more =>
      -- the value would start with white space
      obtain ⟨f, value, rfl⟩ := List.exists_cons_of_ne_nil hfinds.value_ne_nil
      have hsolid := hrule.solid_of_takes hfinds.takesValue f List.mem_cons_self
      rw [(List.cons.inj hmore).1, hspaces e (by simp)] at hsolid
      simp at hsolid

/-- **A rule leaves guarded characters guarded.** -/
theorem Pattern.Hides.guarded {rule : Pattern} (hrule : rule.KeepsGuarded) {before : Option Char}
    {c : Char} {text shown : List Char} (h : rule.Hides before text shown)
    (hguarded : Guarded c text) : Guarded c shown := by
  obtain ⟨front, d, spaces, after, htext, hd, hcolon, hequals, hne, hspaces⟩ := hguarded
  induction h generalizing front with
  | nil => simp at htext
  | @plain before e tail shown _ htail ih =>
    cases front with
    | nil =>
      obtain ⟨rfl, rfl⟩ := List.cons.inj htext
      obtain ⟨after', rfl⟩ := htail.guard hrule.lawful hspaces
      exact ⟨[], e, spaces, after', rfl, hd, hcolon, hequals, hne, hspaces⟩
    | cons f front =>
      obtain ⟨rfl, rfl⟩ := List.cons.inj htext
      obtain ⟨front', d', spaces', after', rfl, h⟩ := ih front rfl
      exact ⟨e :: front', d', spaces', after', rfl, h⟩
  | @place before head value rest shown hfinds hrest ih =>
    -- behind the place, the induction hypothesis tells
    have hbehind : ∀ mid, rest = mid ++ d :: (spaces ++ (redactionMarker ++ c :: after)) →
        Guarded c (head ++ (redactionMarker ++ shown)) := by
      intro mid hmid
      obtain ⟨front', d', spaces', after', rfl, h⟩ := ih mid hmid
      exact ⟨head ++ redactionMarker ++ front', d', spaces', after', by simp, h⟩
    have hhead : ∃ mid, value ++ rest =
        mid ++ d :: (spaces ++ (redactionMarker ++ c :: after)) := by
      rw [List.append_assoc] at htext
      rcases List.append_eq_append_iff.1 htext with ⟨mid, -, hmid⟩ | ⟨mid, rfl, hmid⟩
      · exact ⟨mid, hmid⟩
      · cases mid with
        | nil => exact ⟨[], hmid.symm⟩
        | cons e back =>
          obtain ⟨rfl, hcut⟩ := List.cons.inj hmid
          exact absurd hfinds (hrule.not_finds hd hcolon hequals hne hspaces hcut)
    obtain ⟨mid, hmid⟩ := hhead
    rcases List.append_eq_append_iff.1 hmid with ⟨mid', -, hrest'⟩ | ⟨beyond, rfl, hbeyond⟩
    · exact hbehind mid' hrest'
    · cases beyond with
      | nil => exact hbehind [] hbeyond.symm
      | cons e beyond =>
        obtain ⟨rfl, hspaced⟩ := List.cons.inj hbeyond
        cases beyond with
        | nil =>
          -- the value ends right in front of the white space
          have hrest' : rest = spaces ++ (redactionMarker ++ c :: after) := hspaced.symm
          subst hrest'
          obtain ⟨after', rfl⟩ := hrest.guard hrule.lawful hspaces
          refine ⟨head ++ "[REDACTED".toList, ']', spaces, after', ?_, by decide, by decide,
            by decide, hne, hspaces⟩
          rw [List.append_assoc]
          rfl
        | cons f beyond =>
          -- a value that went on would have white space in it
          obtain ⟨s, spaces, rfl⟩ := List.exists_cons_of_ne_nil hne
          have hsolid := hrule.solid_of_takes hfinds.takesValue f (by simp)
          rw [← (List.cons.inj hspaced).1, hspaces s List.mem_cons_self] at hsolid
          simp at hsolid

theorem Guarded.foldl {c : Char} {rules : List Pattern} (hrules : ∀ rule ∈ rules, rule.KeepsGuarded)
    {text : List Char} (h : Guarded c text) :
    Guarded c (rules.foldl (fun text rule => redactBy rule text) text) := by
  induction rules generalizing text with
  | nil => exact h
  | cons rule rules ih =>
    refine ih (fun rule hmem => hrules rule (List.mem_cons_of_mem _ hmem)) ?_
    exact (hides_redactBy rule text).guarded (hrules rule List.mem_cons_self) h

/-! ### The later rules -/

/-- The rules that are applied behind the rule for bearer tokens. -/
def laterRules : List Pattern := redactionRules.drop 2

theorem redactChars_eq (text : List Char) :
    redactChars text = laterRules.foldl (fun text rule => redactBy rule text)
      (redactBy bearerRule (redactBy authorizationRule text)) :=
  rfl

theorem isSolid_of_isNameChar {c : Char} (h : isNameChar c = true) : isSolid c = true :=
  holds_of_isAlphanum_or (fun _ => isSolid_of_isAlphanum) (by decide) (isNameChar_iff.1 h)

theorem isSolid_of_isSessionChar {c : Char} (h : isSessionChar c = true) : isSolid c = true :=
  holds_of_isAlphanum_or (fun _ => isSolid_of_isAlphanum) (by decide) (isSessionChar_iff.1 h)

theorem keepsGuarded_laterRules : ∀ rule ∈ laterRules, rule.KeepsGuarded := by
  have hlawful : ∀ rule ∈ laterRules, rule.Lawful :=
    fun rule hrule => lawful_redactionRules rule (List.mem_of_mem_drop hrule)
  have hcodes : codeHostRule.head.Within isSolid := by
    have hletters : ("oprsu".toList.all isSolid) = true := by decide
    have hone : (one ("oprsu".toList.contains ·)).Within isSolid := within_one fun c hc =>
      List.all_eq_true.1 hletters c (List.contains_iff_mem.1 hc)
    exact (((within_literal (by decide)).followedBy hone).orElse
      (within_literal (by decide))).followedBy (within_literal (by decide))
  have hsessions : orgSessionRule.head.Within isSolid :=
    (within_literal (by decide)).followedBy
      ((within_run fun _ => isSolid_of_isAlphanum).followedBy (within_literal (by decide)))
  simp only [laterRules, redactionRules, List.drop_succ_cons, List.drop_zero, List.forall_mem_cons,
    List.not_mem_nil, false_implies, implies_true, and_true] at hlawful ⊢
  obtain ⟨hassignment, hoauth, hdatabase, hcodeHost, hsession⟩ := hlawful
  refine ⟨⟨hassignment, within_run fun _ h => h, ?_⟩,
    ⟨hoauth, within_run fun _ => isSolid_of_isFieldChar, ?_⟩,
    ⟨hdatabase, within_run fun _ h => h, ?_⟩,
    ⟨hcodeHost, within_run fun _ => isSolid_of_isNameChar, spacedBySign_of_within hcodes⟩,
    ⟨hsession, within_run fun _ => isSolid_of_isSessionChar, spacedBySign_of_within hsessions⟩⟩
  · refine spacedBySign_of_endsOnce (endsOnce_of_thenSpaced within_credentialName
      isSpace_ne_equals) isSpace_ne_equals fun c hc => Or.inr ?_
    exact beq_iff_eq.1 hc
  · refine spacedBySign_of_endsOnce (endsOnce_of_thenSpaced within_oauthNames
      isSpace_ne_signs) isSpace_ne_signs fun c hc => ?_
    simpa using hc
  · exact spacedBySign_of_within (within_word (by decide))

/-- The later rules show no character that is neither in the text nor in the marker. -/
theorem mem_or_of_mem_foldl {rules : List Pattern} {text : List Char} {c : Char}
    (hc : c ∈ rules.foldl (fun text rule => redactBy rule text) text) :
    c ∈ text ∨ c ∈ redactionMarker := by
  induction rules generalizing text with
  | nil => exact Or.inl hc
  | cons rule rules ih =>
    rcases ih hc with hc | hc
    · exact (hides_redactBy rule text).mem_or hc
    · exact Or.inr hc

/-! ### The value of an assignment -/

section Assignment

variable {pre key value : List Char}

/-- Behind a header, nothing of an assignment is shown. -/
theorem mem_or_of_header (hkey : ∀ c ∈ key, isNameChar c = true)
    (hvalue : ∀ c ∈ value, isSpace c = false)
    (hheader : authorizationRule.head.occurs pre = true) {c : Char}
    (hc : c ∈ redactChars (pre ++ (key ++ '=' :: value))) : c ∈ pre ∨ c ∈ redactionMarker := by
  rw [redactChars_eq] at hc
  have hhidden := header_hides (hides_redactBy authorizationRule (pre ++ (key ++ '=' :: value)))
    (by simp) (solid_of_assignment hkey hvalue) hheader
  rcases mem_or_of_mem_foldl hc with hc | hc
  · rcases (hides_redactBy bearerRule _).mem_or hc with hc | hc
    · exact hhidden c hc
    · exact Or.inr hc
  · exact Or.inr hc

/-- What the first two rules show of an assignment, if there is no header. -/
theorem redactBy_bearerRule_or (hkey : ∀ c ∈ key, isNameChar c = true) (hne : key ≠ [])
    (hvalue : ∀ c ∈ value, isSpace c = false)
    (hheader : authorizationRule.head.occurs pre = false) :
    (bearerRule.endsInPlace (pre ++ key) = false ∧ ∃ front,
        redactBy bearerRule (redactBy authorizationRule (pre ++ (key ++ '=' :: value))) =
            front ++ (key ++ '=' :: value) ∧
          ∀ c ∈ front, c ∈ pre ∨ c ∈ redactionMarker) ∨
      bearerRule.endsInPlace (pre ++ key) = true ∧ ∃ front head rest,
        redactBy bearerRule (redactBy authorizationRule (pre ++ (key ++ '=' :: value))) =
            front ++ (head ++ (redactionMarker ++ value.dropWhile (· == '='))) ∧
          bearerRule.head.Takes head rest := by
  rw [header_keeps (hides_redactBy authorizationRule _) (solid_of_assignment hkey hvalue) hheader]
  rcases assignedSegments hkey hne hvalue none pre with
    ⟨segments, hshort, hlong, htext⟩ | ⟨segments, head, front, rest, hshort, hlong, htext, hhead⟩
  · refine Or.inl ⟨?_, segments.flatMap Segment.hidden, ?_, fun c hc => ?_⟩
    · have hlast := List.getLast?_eq_some_getLast hne
      rw [endsInPlace, Pattern.segments, hshort,
        List.getLast?_append_of_ne_nil _ (by simpa using hne),
        List.getLast?_map, hlast]
      rfl
    · rw [redactBy, Pattern.segments, hlong, List.flatMap_append, flatMap_hidden_plain]
    · rw [← htext]
      exact mem_or_of_mem_hidden hc
  · refine Or.inr ⟨?_, segments.flatMap Segment.hidden, head, rest, ?_, hhead⟩
    · rw [endsInPlace, Pattern.segments, hshort, List.getLast?_append_of_ne_nil _ (by simp)]
      rfl
    · rw [redactBy, Pattern.segments, hlong, List.flatMap_append, List.flatMap_cons,
        flatMap_hidden_plain,
        Segment.hidden, List.append_assoc]

/-- If the name is not taken for a bearer token, then the value is hidden. -/
theorem mem_or_of_assignment (hkey : ∀ c ∈ key, isNameChar c = true) (hends : NamesCredential key)
    (hne : value ≠ []) (hvalue : ∀ c ∈ value, isSpace c = false)
    (hheader : authorizationRule.head.occurs pre = false)
    (htoken : bearerRule.endsInPlace (pre ++ key) = false) {c : Char}
    (hc : c ∈ redactChars (pre ++ (key ++ '=' :: value))) :
    c ∈ pre ++ key ++ ['='] ∨ c ∈ redactionMarker := by
  rcases redactBy_bearerRule_or hkey hends.ne_nil hvalue hheader with
    ⟨-, front, hfront, hmem⟩ | ⟨htoken', -⟩
  · rw [redactChars_eq, hfront] at hc
    -- the third rule hides the value, and later ones show no new character
    have hthird : c ∈ redactBy assignmentRule (front ++ (key ++ '=' :: value)) ∨
        c ∈ redactionMarker := @mem_or_of_mem_foldl (redactionRules.drop 3) _ c hc
    rcases hthird with hc | hc
    · rcases assignment_hides hkey hends hne hvalue (hides_redactBy assignmentRule _) c hc with
        hc | hc
      · rw [List.append_assoc, List.mem_append] at hc ⊢
        rcases hc with hc | hc
        · exact (hmem c hc).imp_left Or.inl
        · exact Or.inl (Or.inr hc)
      · exact Or.inr hc
    · exact Or.inr hc
  · rw [htoken] at htoken'
    simp at htoken'

/-- The white space behind the word `Bearer` belongs to no other head. -/
theorem guarded_of_bearer {front head rest after : List Char} {c : Char}
    (hhead : bearerRule.head.Takes head rest) :
    Guarded c (front ++ (head ++ (redactionMarker ++ c :: after))) := by
  obtain ⟨letters, spaces, rfl, hletters, hspaces⟩ := takes_followedBy.1 hhead
  obtain ⟨hspaces, -, hlength, -⟩ := takes_run.1 hspaces
  have hwithin : (word "bearer").Within fun c => !isSpace c && c != ':' && c != '=' :=
    within_word (by decide)
  have hne : letters ≠ [] := by
    rintro rfl
    simpa using takes_word.1 hletters
  -- the word ends in a letter, which is neither white space nor a sign
  have hlast := hwithin hletters _ (List.getLast_mem hne)
  simp only [Bool.and_eq_true, Bool.not_eq_true', bne_iff_ne] at hlast
  refine ⟨front ++ letters.dropLast, letters.getLast hne, spaces, after, ?_, hlast.1.1, hlast.1.2,
    hlast.2, List.length_pos_iff.1 hlength, hspaces⟩
  calc front ++ (letters ++ spaces ++ (redactionMarker ++ c :: after))
      = front ++ (letters.dropLast ++ [letters.getLast hne] ++ spaces ++
          (redactionMarker ++ c :: after)) := by rw [List.dropLast_concat_getLast]
    _ = front ++ letters.dropLast ++
          letters.getLast hne :: (spaces ++ (redactionMarker ++ c :: after)) := by simp

/-- If the name is taken for a bearer token, then the value is shown from its first character
on that is no equals sign. -/
theorem mem_of_bearer (hkey : ∀ c ∈ key, isNameChar c = true) (hne : key ≠ [])
    (hvalue : ∀ c ∈ value, isSpace c = false)
    (hheader : authorizationRule.head.occurs pre = false)
    (htoken : bearerRule.endsInPlace (pre ++ key) = true) {c : Char} {after : List Char}
    (hdrop : value.dropWhile (· == '=') = c :: after) :
    c ∈ redactChars (pre ++ (key ++ '=' :: value)) := by
  rcases redactBy_bearerRule_or hkey hne hvalue hheader with ⟨htoken', -⟩ | ⟨-, front, head, rest,
    hshown, hhead⟩
  · rw [htoken] at htoken'
    simp at htoken'
  · rw [redactChars_eq, hshown, hdrop]
    exact ((guarded_of_bearer hhead).foldl keepsGuarded_laterRules).mem

end Assignment

/-- **Which assigned values are hidden.**  Behind any text, a value is assigned to a name of a
credential, and none of its characters stands anywhere else.  But for the equals sign, no
character of it is shown exactly if a header is announced in front of it, or no bearer token ends
in the name, or nothing but equals signs is assigned. -/
theorem redactText_hides_assigned_iff (pre key value : String)
    (hkey : ∀ c ∈ key.toList, isNameChar c = true) (hends : NamesCredential key.toList)
    (hne : value ≠ "") (hvalue : ∀ c ∈ value.toList, isSpace c = false)
    (hfresh : ∀ c ∈ value.toList, c ∉ pre.toList ∧ c ∉ key.toList ∧ c ∉ redactionMarker) :
    (∀ c ∈ value.toList, c ≠ '=' → c ∉ (redactText (pre ++ key ++ "=" ++ value)).toList) ↔
      authorizationRule.head.occurs pre.toList = true ∨
        bearerRule.endsInPlace (pre ++ key).toList = false ∨ ∀ c ∈ value.toList, c = '=' := by
  have htext : (pre ++ key ++ "=" ++ value).toList =
      pre.toList ++ (key.toList ++ '=' :: value.toList) := by
    simp
  have hne' : value.toList ≠ [] := by simpa using hne
  rw [redactText, String.toList_ofList, htext, String.toList_append]
  cases hheader : authorizationRule.head.occurs pre.toList with
  | true =>
    refine iff_of_true (fun c hc _ hshown => ?_) (Or.inl rfl)
    rcases mem_or_of_header hkey hvalue hheader hshown with hpre | hmarker
    · exact (hfresh c hc).1 hpre
    · exact (hfresh c hc).2.2 hmarker
  | false =>
    cases htoken : bearerRule.endsInPlace (pre.toList ++ key.toList) with
    | false =>
      refine iff_of_true (fun c hc hsign hshown => ?_) (Or.inr (Or.inl rfl))
      rcases mem_or_of_assignment hkey hends hne' hvalue hheader htoken hshown with hpre | hmarker
      · simp only [List.mem_append, List.mem_singleton] at hpre
        rcases hpre with (hpre | hname) | hequals
        · exact (hfresh c hc).1 hpre
        · exact (hfresh c hc).2.1 hname
        · exact hsign hequals
      · exact (hfresh c hc).2.2 hmarker
    | true =>
      rw [or_iff_right (by simp), or_iff_right (by simp)]
      constructor
      · intro hhidden
        -- what is left of the value behind its leading equals signs is shown
        cases hdrop : value.toList.dropWhile (· == '=') with
        | nil => simpa using List.dropWhile_eq_nil_iff.1 hdrop
        | cons c after =>
          have hsign : (c == '=') = false := by
            have h := List.head?_dropWhile_not (· == '=') value.toList
            rw [hdrop] at h
            simpa using h
          have hmem : c ∈ value.toList :=
            (List.dropWhile_suffix _).subset (hdrop ▸ List.mem_cons_self)
          exact absurd (mem_of_bearer hkey hends.ne_nil hvalue hheader htoken hdrop)
            (hhidden c hmem (beq_eq_false_iff_ne.1 hsign))
      · intro hsigns c hc hsign
        exact absurd (hsigns c hc) hsign

/-- Behind a header, the value is hidden although its name is taken for a token. -/
theorem redactText_hides_assigned_header :
    (∀ c ∈ "TOKEN".toList, isNameChar c = true) ∧ NamesCredential "TOKEN".toList ∧
      ∀ c ∈ "q7x".toList, c ≠ '=' →
        c ∉ (redactText ("Authorization: Bearer " ++ "TOKEN" ++ "=" ++ "q7x")).toList := by
  have hkey : ∀ c ∈ "TOKEN".toList, isNameChar c = true := by decide
  have hends : NamesCredential "TOKEN".toList := ⟨"token", by simp, by decide⟩
  refine ⟨hkey, hends, ?_⟩
  exact (redactText_hides_assigned_iff "Authorization: Bearer " "TOKEN" "q7x" hkey hends
    (by decide) (by decide) (by decide)).2 (Or.inl (by decide))

/-- A value is shown if its name is taken for a bearer token. -/
theorem assigned_value_shown_behind_bearer :
    ¬∀ pre key value : String, (∀ c ∈ key.toList, isNameChar c = true) →
      NamesCredential key.toList → value ≠ "" → (∀ c ∈ value.toList, isSpace c = false) →
        (∀ c ∈ value.toList, c ∉ pre.toList ∧ c ∉ key.toList ∧ c ∉ redactionMarker) →
          ∀ c ∈ value.toList, c ∉ (redactText (pre ++ key ++ "=" ++ value)).toList := by
  intro hhidden
  -- the name is taken for a token up to its end
  have htoken : bearerRule.endsInPlace ("Bearer ".toList ++ "TOKEN".toList) = true := by
    have hfinds : bearerRule.Finds none "Bearer ".toList "TOKEN".toList [] :=
      ⟨fun _ => rfl, rfl, rfl, by decide⟩
    have hsegments := segmentsAfter_of_finds hfinds
    rw [List.append_nil, segmentsAfter] at hsegments
    rw [endsInPlace, Pattern.segments, hsegments]
    rfl
  have hshown : 'x' ∈ redactChars ("Bearer ".toList ++ ("TOKEN".toList ++ '=' :: "xyz".toList)) :=
    mem_of_bearer (by decide) (by decide) (by decide) (by decide) htoken rfl
  refine hhidden "Bearer " "TOKEN" "xyz" (by decide) ⟨"token", by simp, by decide⟩ (by decide)
    (by decide) (by decide) 'x' (by decide) ?_
  rw [redactText, String.toList_ofList]
  exact hshown

end TaskEngine
