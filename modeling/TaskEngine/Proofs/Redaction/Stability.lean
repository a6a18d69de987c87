import TaskEngine.Proofs.Redaction.Heads
import TaskEngine.Proofs.Redaction.Values

/-!
# Redacted texts are stable

The seven rules have heads that announce and values that can be hidden, and none of them
hides a part of a value of an earlier one.  So all seven are settled on a redacted text.

## Main results

* `lawful_redactionRules` — every rule is lawful.
* `pairwise_undisturbed` — no rule hides a part of a value of an earlier one.
* `redactText_fixed` — **no rule changes a redacted text.**
-/

namespace TaskEngine

open Piece

/-! ### Kinds of characters -/

theorem isAlphanum_of_isAlpha {c : Char} (h : c.isAlpha = true) : c.isAlphanum = true := by
  rw [Char.isAlphanum, h, Bool.true_or]

theorem isNameChar_iff {c : Char} : isNameChar c = true ↔ c.isAlphanum = true ∨ c ∈ ['_'] := by
  rw [isNameChar, Bool.or_eq_true, beq_iff_eq, List.mem_singleton]

theorem isFoldedNameChar_iff {c : Char} :
    isFoldedNameChar c = true ↔ c.isAlphanum = true ∨ c ∈ ['_', '\u017f', '\u212a'] := by
  simp only [isFoldedNameChar, isNameChar, Bool.or_eq_true, beq_iff_eq, List.mem_cons,
    List.not_mem_nil, or_false, or_assoc]

theorem isBearerChar_iff {c : Char} :
    isBearerChar c = true ↔ c.isAlphanum = true ∨ c ∈ "-._~+/\u017f\u212a".toList := by
  rw [isBearerChar, Bool.or_eq_true, List.contains_iff_mem]

theorem isSessionChar_iff {c : Char} :
    isSessionChar c = true ↔ c.isAlphanum = true ∨ c ∈ ['.', '_'] := by
  simp only [isSessionChar, Bool.or_eq_true, beq_iff_eq, List.mem_cons, List.not_mem_nil,
    or_false, or_assoc]

/-- What holds of letters, digits and a few other characters. -/
theorem holds_of_isAlphanum_or {p : Char → Bool} {others : List Char} {c : Char}
    (halphanum : ∀ c, c.isAlphanum = true → p c = true) (hothers : others.all p = true)
    (h : c.isAlphanum = true ∨ c ∈ others) : p c = true :=
  h.elim (halphanum c) (List.all_eq_true.1 hothers c)

theorem ne_of_isAlphanum {c d : Char} (hd : d.isAlphanum = false) (hc : c.isAlphanum = true) :
    c ≠ d := by
  rintro rfl
  rw [hc] at hd
  simp at hd

/-- White space is not of a kind that consists of solid characters. -/
theorem eq_false_of_isSpace {kind : Char → Bool} {chars : List Char}
    (hkind : ∀ c, kind c = true → c ∈ chars) (hchars : chars.all isSolid = true) :
    ∀ c, isSpace c = true → kind c = false := by
  intro c hspace
  rw [Bool.eq_false_iff]
  intro hc
  have hsolid := List.all_eq_true.1 hchars c (hkind c hc)
  rw [isSolid, hspace] at hsolid
  simp at hsolid

theorem isSolid_of_isAlphanum {c : Char} (h : c.isAlphanum = true) : isSolid c = true := by
  rw [isSolid, isSpace_eq_false_of_isAlphanum h, Bool.not_false]

theorem isSolid_of_isFieldChar {c : Char} (h : isFieldChar c = true) : isSolid c = true := by
  simp only [isFieldChar, Bool.and_eq_true] at h
  exact h.1.1

theorem isFieldChar_of_isAlphanum {c : Char} (h : c.isAlphanum = true) :
    isFieldChar c = true := by
  have hcomma : c ≠ ',' := ne_of_isAlphanum (by decide) h
  have hsemicolon : c ≠ ';' := ne_of_isAlphanum (by decide) h
  simp [isFieldChar, isSpace_eq_false_of_isAlphanum h, hcomma, hsemicolon]

/-! ### Values -/

/-- Letters, digits and a few other characters that are solid and no bracket. -/
theorem fit_of_isAlphanum_or {kind : Char → Bool} {others : List Char} {atLeast : Nat}
    (hpos : 1 ≤ atLeast) (hkind : ∀ {c}, kind c = true ↔ c.isAlphanum = true ∨ c ∈ others)
    (hothers : others.all isSolid = true) (hopen : kind '[' = false) : Fit kind atLeast where
  pos := hpos
  solid := by
    intro c hc
    have hsolid := holds_of_isAlphanum_or (fun _ => isSolid_of_isAlphanum) hothers (hkind.1 hc)
    simpa [isSolid] using hsolid
  alpha := fun c hc => hkind.2 (Or.inl (isAlphanum_of_isAlpha hc))
  single := Or.inl hopen
  marker := by simp [hopen]

theorem fit_isSolid : Fit isSolid 1 where
  pos := Nat.le_refl 1
  solid := by simp [isSolid]
  alpha := fun c hc => isSolid_of_isAlphanum (isAlphanum_of_isAlpha hc)
  single := Or.inr rfl
  marker := by decide

theorem fit_isFieldChar : Fit isFieldChar 1 where
  pos := Nat.le_refl 1
  solid := fun c hc => by simpa [isSolid] using isSolid_of_isFieldChar hc
  alpha := fun c hc => isFieldChar_of_isAlphanum (isAlphanum_of_isAlpha hc)
  single := Or.inr rfl
  marker := by decide

namespace Pattern

theorem isRun_assignmentRule : assignmentRule.IsRun isSolid 1 := ⟨rfl, fit_isSolid⟩

theorem isRun_oauthRule : oauthRule.IsRun isFieldChar 1 := ⟨rfl, fit_isFieldChar⟩

theorem isRun_databaseRule : databaseRule.IsRun isSolid 1 := ⟨rfl, fit_isSolid⟩

theorem isRun_codeHostRule : codeHostRule.IsRun isNameChar 22 :=
  ⟨rfl, fit_of_isAlphanum_or (by decide) isNameChar_iff (by decide) (by decide)⟩

theorem isRun_orgSessionRule : orgSessionRule.IsRun isSessionChar 1 :=
  ⟨rfl, fit_of_isAlphanum_or (Nat.le_refl 1) isSessionChar_iff (by decide) (by decide)⟩

theorem fit_isBearerChar : Fit isBearerChar 1 :=
  fit_of_isAlphanum_or (Nat.le_refl 1) isBearerChar_iff (by decide) (by decide)

theorem hideable_bearerRule : bearerRule.value.Hideable :=
  hideable_bearer fit_isBearerChar.solid fit_isBearerChar.alpha (by decide)

theorem closed_bearerRule : bearerRule.Closed := by
  intro value rest h
  have hkind : isBearerChar '[' = true := kind_of_takes_cons (Nat.le_refl 1) h
  revert hkind
  decide

theorem IsRun.hideable {rule : Pattern} {kind : Char → Bool} {atLeast : Nat}
    (h : rule.IsRun kind atLeast) : rule.value.Hideable := by
  rw [h.1]
  exact hideable_run h.2

/-! ### Rules that do not disturb one another -/

/-- **No rule hides a part of a value of an earlier one.** -/
theorem pairwise_undisturbed : redactionRules.Pairwise Undisturbed := by
  have hsolid : ∀ c, isSolid c = true → isSolid c = true := fun _ h => h
  have hfield : ∀ c, isFieldChar c = true → isSolid c = true := fun _ => isSolid_of_isFieldChar
  have hname : ∀ c, isNameChar c = true → isFieldChar c = true := fun _ h =>
    holds_of_isAlphanum_or (fun _ => isFieldChar_of_isAlphanum) (by decide) (isNameChar_iff.1 h)
  have hsession : ∀ c, isSessionChar c = true → isFieldChar c = true := fun _ h =>
    holds_of_isAlphanum_or (fun _ => isFieldChar_of_isAlphanum) (by decide) (isSessionChar_iff.1 h)
  have hassignment := isRun_assignmentRule
  have hoauth := isRun_oauthRule
  have hdatabase := isRun_databaseRule
  have hcodeHost := isRun_codeHostRule
  have hsessions := isRun_orgSessionRule
  simp only [redactionRules, List.pairwise_cons, List.forall_mem_cons, List.not_mem_nil,
    false_implies, implies_true, and_true, List.Pairwise.nil]
  refine ⟨⟨?_, ?_, ?_, ?_, ?_, ?_⟩, ⟨?_, ?_, ?_, ?_, ?_⟩, ?_, ?_, ⟨?_, ?_⟩, ?_⟩
  -- the value of a header
  · exact undisturbed_upToTrailingSpace rfl hideable_bearerRule
      (closed_bearerRule.covers hideable_bearerRule)
  · exact undisturbed_upToTrailingSpace rfl hassignment.hideable hassignment.covers
  · exact undisturbed_upToTrailingSpace rfl hoauth.hideable hoauth.covers
  · exact undisturbed_upToTrailingSpace rfl hdatabase.hideable hdatabase.covers
  · exact undisturbed_upToTrailingSpace rfl hcodeHost.hideable hcodeHost.covers
  · exact undisturbed_upToTrailingSpace rfl hsessions.hideable hsessions.covers
  -- a bearer token
  · exact closed_bearerRule.undisturbed _
  · exact closed_bearerRule.undisturbed _
  · exact closed_bearerRule.undisturbed _
  · exact closed_bearerRule.undisturbed _
  · exact closed_bearerRule.undisturbed _
  -- an assigned value
  · exact ⟨hassignment.undisturbed_of_ge hoauth hfield,
      hassignment.undisturbed_of_ge hdatabase hsolid,
      hassignment.undisturbed_of_ge hcodeHost fun c hc => hfield c (hname c hc),
      hassignment.undisturbed_of_ge hsessions fun c hc => hfield c (hsession c hc)⟩
  -- a field
  · exact ⟨hoauth.undisturbed_of_le hdatabase hfield, hoauth.undisturbed_of_ge hcodeHost hname,
      hoauth.undisturbed_of_ge hsessions hsession⟩
  -- an address
  · exact hdatabase.undisturbed_of_ge hcodeHost fun c hc => hfield c (hname c hc)
  · exact hdatabase.undisturbed_of_ge hsessions fun c hc => hfield c (hsession c hc)
  -- a token of a code host
  · exact Closed.undisturbed (hcodeHost.closed (by decide)) _

/-! ### Heads -/

theorem announces_authorizationRule : authorizationRule.head.Announces :=
  announces_thenSpaces rfl (by decide) (by decide) (split_mark_eq_none fun _ => rfl)

theorem announces_bearerRule : bearerRule.head.Announces :=
  announces_thenSpaces rfl (by decide) (by decide) (split_mark_eq_none fun _ => rfl)

/-- A name that ends in a word for a credential. -/
def credentialName : Piece := runEndingIn isFoldedNameChar ["key", "token", "secret", "password"]

theorem within_credentialName : credentialName.Within fun c => !(c == '=') && c != '[' := by
  refine within_runEndingIn fun c hc => ?_
  refine @holds_of_isAlphanum_or (fun d => !(d == '=') && d != '[') _ c (fun d hd => ?_)
    (by decide) (isFoldedNameChar_iff.1 hc)
  have hne : d ≠ '=' := ne_of_isAlphanum (by decide) hd
  have hopen : d ≠ '[' := ne_of_isAlphanum (by decide) hd
  simp [hne, hopen]

theorem isSpace_ne_equals : ∀ c, isSpace c = true → (c == '=') = false :=
  eq_false_of_isSpace (fun c hc => List.mem_singleton.2 (beq_iff_eq.1 hc)) (by decide)

theorem announces_assignmentRule : assignmentRule.head.Announces := by
  refine announces_spaced (looksAhead_runEndingIn _ _) ?_ within_credentialName isSpace_ne_equals
    (by decide) (split_mark_eq_none fun _ => rfl)
  -- a name has a word at its end, so it is not empty
  intro taken rest h
  obtain ⟨hchars, -, small, hsmall, front, back, rfl, hword⟩ := takes_runEndingIn.1 h
  cases htaken : front ++ back with
  | nil =>
    rw [(List.append_eq_nil_iff.1 htaken).2, List.forall₂_nil_right_iff] at hword
    revert small
    decide
  | cons c taken =>
    have hc := hchars c (by simp [htaken])
    have hsolid := holds_of_isAlphanum_or (fun _ => isSolid_of_isAlphanum) (by decide)
      (isFoldedNameChar_iff.1 hc)
    exact ⟨c, rfl, by simpa [isSolid] using hsolid⟩

/-- The names of the token and client secrets. -/
def oauthNames : Piece :=
  (word "access_token").orElse ((word "refresh_token").orElse (word "client_secret"))

theorem startsIn_oauthNames :
    oauthNames.StartsIn (spellings 'a' ++ (spellings 'r' ++ spellings 'c')) :=
  (startsIn_word rfl).orElse ((startsIn_word rfl).orElse (startsIn_word rfl))

/-- The names start with different letters, so what follows them does not matter. -/
theorem firm_oauthNames : oauthNames.Firm := by
  have hrefresh : (word "refresh_token").StartsIn (spellings 'r') := startsIn_word rfl
  have hclient : (word "client_secret").StartsIn (spellings 'c') := startsIn_word rfl
  refine (firm_word _).orElse ((firm_word _).orElse (firm_word _) fun h => ?_) fun h => ?_
  · exact hrefresh.split_eq_none hclient (by decide) h
  · exact (startsIn_word rfl).split_eq_none (hrefresh.orElse hclient) (by decide) h

theorem within_oauthNames :
    oauthNames.Within fun c => !(c == ':' || c == '=') && c != '[' :=
  (within_word (by decide)).orElse
    ((within_word (by decide)).orElse (within_word (by decide)))

theorem isSpace_ne_signs : ∀ c, isSpace c = true → (c == ':' || c == '=') = false := by
  have hsigns : ∀ c, (c == ':' || c == '=') = true → c ∈ [':', '='] := by simp
  exact eq_false_of_isSpace hsigns (by decide)

theorem announces_oauthRule : oauthRule.head.Announces := by
  refine announces_spaced firm_oauthNames.looksAhead (fun h => ?_) within_oauthNames
    isSpace_ne_signs (by decide) (split_mark_eq_none fun _ => rfl)
  obtain ⟨c, hc, hsolid⟩ :=
    @StartsIn.exists_of_all _ _ isSolid startsIn_oauthNames (by decide) _ _ h
  exact ⟨c, hc, by simpa [isSolid] using hsolid⟩

theorem announces_databaseRule : databaseRule.head.Announces := by
  have hstarts : ∀ {taken rest}, databaseRule.head.Takes taken rest →
      StartsOnce (sameLetter 'd') taken := by
    intro taken rest h
    cases takes_word.1 h with
    | cons hc htail =>
      have hnot := @forall_mem_of_word _ _ (fun c => !sameLetter 'd' c) htail (by decide)
      exact ⟨_, _, rfl, hc, by simpa using hnot⟩
  refine announces_firm (firm_word _) hstarts ?_ (within_word (by decide))
    (split_mark_eq_none fun _ => rfl)
  exact eq_false_of_isSpace (fun c hc => mem_spellings hc) (by decide)

/-- What stands in front of the underscore in a token of a code host. -/
def codeHostNames : Piece :=
  ((literal "gh").followedBy (one ("oprsu".toList.contains ·))).orElse (literal "github_pat")

theorem startsOnce_codeHostNames {taken rest : List Char} (h : codeHostNames.Takes taken rest) :
    StartsOnce (· == 'g') taken := by
  rcases takes_orElse.1 h with h | ⟨-, h⟩
  · obtain ⟨front, back, rfl, hfront, hback⟩ := takes_followedBy.1 h
    obtain ⟨c, rfl, hc⟩ := takes_one.1 hback
    rw [takes_literal.1 hfront]
    refine ⟨'g', ['h', c], rfl, rfl, ?_⟩
    have hletters : ("oprsu".toList.all fun c => !(c == 'g')) = true := by decide
    simpa using List.all_eq_true.1 hletters c (List.contains_iff_mem.1 hc)
  · rw [takes_literal.1 h]
    exact ⟨'g', "ithub_pat".toList, rfl, rfl, by decide⟩

theorem firm_codeHostNames : codeHostNames.Firm := by
  refine Firm.orElse ((firm_literal _).followedBy (firm_one _)) (firm_literal _) ?_
  intro taken rest h
  rw [takes_literal.1 h]
  rfl

theorem announces_codeHostRule : codeHostRule.head.Announces := by
  have honly : ∀ c, (c == 'g') = true → c ∈ ['g'] := by simp
  refine announces_firm (firm_codeHostNames.followedBy (firm_literal _)) (fun h => ?_)
    (eq_false_of_isSpace honly (by decide)) (Within.followedBy ?_ (within_literal (by decide)))
    (split_mark_eq_none fun _ => rfl)
  · obtain ⟨front, back, rfl, hfront, hback⟩ := takes_followedBy.1 h
    rw [takes_literal.1 hback]
    exact (startsOnce_codeHostNames hfront).append (by decide)
  · have hletters : ("oprsu".toList.all (· != '[')) = true := by decide
    exact ((within_literal (by decide)).followedBy (within_one fun c hc =>
      List.all_eq_true.1 hletters c (List.contains_iff_mem.1 hc))).orElse
        (within_literal (by decide))

theorem announces_orgSessionRule : orgSessionRule.head.Announces := by
  have hbang : (literal "!").EndsAtSolid := (firm_literal _).endsAtSolid
  refine ⟨fun h => ?_, fun h hmem => ?_, ?_, fun houter hinner => ?_,
    split_mark_eq_none fun _ => rfl⟩
  -- the head starts with a digit, has no bracket, and ends in a fixed word
  · have hstarts : orgSessionRule.head.StartsIn ['0'] := (startsIn_literal rfl).followedBy
    obtain ⟨c, hc, hmem⟩ := hstarts h
    exact ⟨c, hc, by rw [List.mem_singleton.1 hmem]; decide⟩
  · have hwithin : orgSessionRule.head.Within (· != '[') := by
      refine (within_literal (by decide)).followedBy
        ((within_run fun c hc => ?_).followedBy (within_literal (by decide)))
      rw [bne_iff_ne]
      exact ne_of_isAlphanum (by decide) hc
    simpa using hwithin h _ hmem
  · refine (firm_literal _).followedBy_endsAtSolid
      ((looksAhead_run _ _ _).followedBy_endsAtSolid hbang fun h => ?_)
    simpa using takes_literal.1 h
  · -- the exclamation mark occurs only once
    have honce : ∀ {taken rest}, orgSessionRule.head.Takes taken rest →
        EndsOnce (· == '!') taken := by
      intro taken rest h
      obtain ⟨front, more, rfl, hfront, hmore⟩ := takes_followedBy.1 h
      obtain ⟨middle, back, rfl, hmiddle, hback⟩ := takes_followedBy.1 hmore
      rw [takes_literal.1 hfront, takes_literal.1 hback]
      refine ⟨"00D".toList ++ middle, '!', [], by simp, fun c hc => ?_, rfl, by simp⟩
      rw [beq_eq_false_iff_ne]
      rcases List.mem_append.1 hc with hc | hc
      · rintro rfl
        revert hc
        decide
      · exact ne_of_isAlphanum (by decide) ((takes_run.1 hmiddle).1 c hc)
    exact nested_of_endsOnce honce houter hinner

/-! ### The seven rules -/

/-- A head that can stand anywhere need not start with a letter. -/
theorem Lawful.of_announces {rule : Pattern} (hhead : rule.head.Announces)
    (hvalue : rule.value.Hideable) (hanywhere : rule.startsWord = false) : rule.Lawful := by
  refine ⟨hhead, hvalue, fun hstarts => ?_⟩
  rw [hanywhere] at hstarts
  simp at hstarts

theorem lawful_bearerRule : bearerRule.Lawful := by
  refine ⟨announces_bearerRule, hideable_bearerRule, fun _ {head rest} h => ?_⟩
  have hword : bearerRule.head.StartsIn (spellings 'b') := (startsIn_word rfl).followedBy
  exact @StartsIn.exists_of_all _ _ Char.isAlpha hword (by decide) _ _ h

/-- **Every rule is lawful.** -/
theorem lawful_redactionRules : ∀ rule ∈ redactionRules, rule.Lawful := by
  simp only [redactionRules, List.forall_mem_cons, List.not_mem_nil, false_implies, implies_true,
    and_true]
  exact ⟨.of_announces announces_authorizationRule hideable_upToTrailingSpace rfl,
    lawful_bearerRule,
    .of_announces announces_assignmentRule isRun_assignmentRule.hideable rfl,
    .of_announces announces_oauthRule isRun_oauthRule.hideable rfl,
    .of_announces announces_databaseRule isRun_databaseRule.hideable rfl,
    .of_announces announces_codeHostRule isRun_codeHostRule.hideable rfl,
    .of_announces announces_orgSessionRule isRun_orgSessionRule.hideable rfl⟩

end Pattern

/-! ### Redacted texts -/

/-- All seven rules are settled on a redacted text, so none of them changes it. -/
theorem redactBy_redactText (text : String) {rule : Pattern} (hrule : rule ∈ redactionRules) :
    redactBy rule (redactText text).toList = (redactText text).toList := by
  have hsettled : ∀ rule ∈ redactionRules, rule.Settled none (redactText text).toList := by
    rw [redactText, String.toList_ofList]
    exact Pattern.settled_foldl Pattern.lawful_redactionRules Pattern.pairwise_undisturbed _
  exact (hsettled rule hrule).redactBy_eq

/-- **A redacted text is not changed by redaction.** -/
theorem redactText_redactText (text : String) : redactText (redactText text) = redactText text := by
  have hchars : redactChars (redactText text).toList = (redactText text).toList := by
    refine List.foldlRecOn (motive := (· = (redactText text).toList)) _ _ rfl ?_
    rintro _ rfl rule hrule
    exact redactBy_redactText text hrule
  rw [redactText, hchars, String.ofList_toList]

/-- **No rule changes a redacted text**, and redaction does not change it either. -/
theorem redactText_fixed (text : String) :
    (∀ rule ∈ redactionRules,
        redactBy rule (redactText text).toList = (redactText text).toList) ∧
      redactText (redactText text) = redactText text :=
  ⟨fun _ hrule => redactBy_redactText text hrule, redactText_redactText text⟩

/-- A token that has been hidden stays hidden. -/
theorem redactText_fixed_bearer :
    bearerRule ∈ redactionRules ∧
      redactBy bearerRule (redactText "Bearer 00aa").toList =
        (redactText "Bearer 00aa").toList := by
  have hmem : bearerRule ∈ redactionRules := by simp [redactionRules]
  exact ⟨hmem, (redactText_fixed "Bearer 00aa").1 bearerRule hmem⟩

end TaskEngine
