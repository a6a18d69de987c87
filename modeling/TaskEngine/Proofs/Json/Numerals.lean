import TaskEngine.Json.Tree
import TaskEngine.Proofs.Numbers.Decimals
import TaskEngine.Proofs.Text.Piece

/-!
# Numbers in JSON texts

Every number that a value can hold is written as the notation demands: a lone zero or digits that
start with none, digits behind the point if there is a point, digits in the exponent if there is an
exponent.  So its text is one token wherever it stands, as long as nothing follows that could belong
to it.

## Main definitions

* `NumberLexeme.Proper`, `NumberLexeme.chars` — numbers that the notation allows, and their text.
* `Json.EndsNumber` — a number cannot go on with what follows.

## Main results

* `Json.lexNumber_chars` — the text of a proper number is read as that number.
* `Number.exists_chars_eq_text` — every number of a value is written as a proper one.
* `Json.lexNumber_text` — **numbers of values are read back as they are written.**
-/

namespace TaskEngine

/-- Decimal digits, at least one. -/
def Digits (text : List Char) : Prop := text ≠ [] ∧ ∀ c ∈ text, isDecimalDigit c = true

instance (text : List Char) : Decidable (Digits text) := inferInstanceAs (Decidable (_ ∧ _))

namespace NumberLexeme

/-- A number as the notation allows it. -/
structure Proper (lexeme : NumberLexeme) : Prop where
  whole : Digits lexeme.whole
  /-- Only a zero that stands alone may come first. -/
  first : lexeme.whole.head? = some '0' → lexeme.whole = ['0']
  fraction : ∀ digits ∈ lexeme.fraction, Digits digits
  exponent : ∀ written ∈ lexeme.exponent, Digits written.2

/-- The point and the digits behind it. -/
def fractionChars : Option (List Char) → List Char
  | none => []
  | some digits => '.' :: digits

/-- The exponent with its sign, be it plus or minus. -/
def exponentChars : Option (Bool × List Char) → List Char
  | none => []
  | some (down, digits) => 'e' :: (if down then '-' else '+') :: digits

/-- The text of a number. -/
def chars (lexeme : NumberLexeme) : List Char :=
  (if lexeme.negative then ['-'] else []) ++
    (lexeme.whole ++ (fractionChars lexeme.fraction ++ exponentChars lexeme.exponent))

end NumberLexeme

/-! ### Reading numbers -/

namespace Json

/-- A number cannot go on with what follows. -/
def EndsNumber (rest : List Char) : Prop :=
  ∀ c ∈ rest.head?, isDecimalDigit c = false ∧ c ≠ '.' ∧ c ≠ 'e' ∧ c ≠ 'E'

theorem endsNumber_nil : EndsNumber [] := by
  rintro c ⟨⟩

theorem leadingDigits_append {digits rest : List Char} (hdigits : Digits digits)
    (hrest : ∀ c ∈ rest.head?, isDecimalDigit c = false) :
    leadingDigits (digits ++ rest) = (digits, rest) := by
  rw [leadingDigits, Piece.takeWhile_append_of_stop hdigits.2 hrest,
    Piece.dropWhile_append_of_stop hdigits.2 hrest]

theorem lexWhole_append {whole rest : List Char} (hwhole : Digits whole)
    (hfirst : whole.head? = some '0' → whole = ['0'])
    (hrest : ∀ c ∈ rest.head?, isDecimalDigit c = false) :
    lexWhole (whole ++ rest) = some (whole, rest) := by
  by_cases hzero : whole.head? = some '0'
  · rw [hfirst hzero]
    rfl
  · obtain ⟨c, digits, rfl⟩ := List.exists_cons_of_ne_nil hwhole.1
    have hc : c ≠ '0' := fun e => hzero (by rw [e, List.head?_cons])
    rw [lexWhole, leadingDigits_append hwhole hrest]
    · rintro rest' e
      exact hc (List.cons.inj e).1

theorem lexFraction_append {fraction : Option (List Char)} {rest : List Char}
    (hfraction : ∀ digits ∈ fraction, Digits digits)
    (hrest : ∀ c ∈ rest.head?, isDecimalDigit c = false ∧ c ≠ '.') :
    lexFraction (NumberLexeme.fractionChars fraction ++ rest) = some (fraction, rest) := by
  cases fraction with
  | none =>
    rw [NumberLexeme.fractionChars, List.nil_append, lexFraction]
    rintro rest' rfl
    exact (hrest '.' rfl).2 rfl
  | some digits =>
    have hdigits := hfraction digits rfl
    rw [NumberLexeme.fractionChars, List.cons_append, lexFraction,
      leadingDigits_append hdigits fun c hc => (hrest c hc).1]
    obtain ⟨c, digits, rfl⟩ := List.exists_cons_of_ne_nil hdigits.1
    rfl

theorem lexExponent_append {exponent : Option (Bool × List Char)} {rest : List Char}
    (hexponent : ∀ written ∈ exponent, Digits written.2) (hrest : EndsNumber rest) :
    lexExponent (NumberLexeme.exponentChars exponent ++ rest) = some (exponent, rest) := by
  cases exponent with
  | none =>
    rw [NumberLexeme.exponentChars, List.nil_append]
    cases rest with
    | nil => rfl
    | cons c rest =>
      obtain ⟨-, -, hsmall, hcapital⟩ := hrest c rfl
      rw [lexExponent, if_neg (not_or.2 ⟨hsmall, hcapital⟩)]
  | some written =>
    obtain ⟨down, digits⟩ := written
    have hdigits : Digits digits := hexponent _ rfl
    have hsign : Binary64.splitSign ((if down then '-' else '+') :: (digits ++ rest)) =
        (down, digits ++ rest) := by
      cases down <;> rfl
    rw [NumberLexeme.exponentChars, List.cons_append, List.cons_append, lexExponent,
      if_pos (Or.inl rfl), hsign]
    dsimp only
    rw [leadingDigits_append hdigits fun c hc => (hrest c hc).1]
    obtain ⟨c, digits, rfl⟩ := List.exists_cons_of_ne_nil hdigits.1
    rfl

end Json

namespace NumberLexeme

open Json

variable {lexeme : NumberLexeme} {rest : List Char}

theorem head?_exponent (hrest : EndsNumber rest) :
    ∀ c ∈ (exponentChars lexeme.exponent ++ rest).head?, isDecimalDigit c = false ∧ c ≠ '.' := by
  cases lexeme.exponent with
  | none => exact fun c hc => ⟨(hrest c hc).1, (hrest c hc).2.1⟩
  | some written =>
    rintro c ⟨⟩
    decide

theorem head?_fraction (hrest : EndsNumber rest) :
    ∀ c ∈ (fractionChars lexeme.fraction ++ (exponentChars lexeme.exponent ++ rest)).head?,
      isDecimalDigit c = false := by
  cases lexeme.fraction with
  | none => exact fun c hc => (head?_exponent hrest c hc).1
  | some digits =>
    rintro c ⟨⟩
    decide

end NumberLexeme

namespace Json

theorem lexUnsigned_append {lexeme : NumberLexeme} (h : lexeme.Proper) {rest : List Char}
    (hrest : EndsNumber rest) :
    lexUnsigned lexeme.negative (lexeme.whole ++ (NumberLexeme.fractionChars lexeme.fraction ++
      (NumberLexeme.exponentChars lexeme.exponent ++ rest))) = some (lexeme, rest) := by
  rw [lexUnsigned, lexWhole_append h.whole h.first (NumberLexeme.head?_fraction hrest),
    Option.bind_some]
  dsimp only
  rw [lexFraction_append h.fraction (NumberLexeme.head?_exponent hrest), Option.bind_some]
  dsimp only
  rw [lexExponent_append h.exponent hrest, Option.map_some]

/-- The text of a proper number is read as that number, up to its end. -/
theorem lexNumber_chars {lexeme : NumberLexeme} (h : lexeme.Proper) {rest : List Char}
    (hrest : EndsNumber rest) : lexNumber (lexeme.chars ++ rest) = some (lexeme, rest) := by
  have hunsigned := lexUnsigned_append h hrest
  rw [NumberLexeme.chars, List.append_assoc, List.append_assoc, List.append_assoc]
  cases hnegative : lexeme.negative with
  | true =>
    rw [hnegative] at hunsigned
    exact hunsigned
  | false =>
    rw [hnegative] at hunsigned
    rw [if_neg Bool.false_ne_true, List.nil_append, lexNumber]
    · exact hunsigned
    · -- the text starts with a digit
      intro rest' e
      obtain ⟨c, digits, hwhole⟩ := List.exists_cons_of_ne_nil h.whole.1
      have hc := h.whole.2 c (hwhole ▸ List.mem_cons_self)
      rw [hwhole, List.cons_append] at e
      rw [(List.cons.inj e).1] at hc
      exact absurd hc (by decide)

end Json

/-! ### Writing numbers -/

theorem isDecimalDigit_of_isDigit {c : Char} (h : c.isDigit = true) : isDecimalDigit c = true := by
  rw [isDecimalDigit, digitValue?_of_isDigit h, Option.isSome_some]

theorem digits_decimalDigits (n : Nat) : Digits (decimalDigits n) :=
  ⟨Nat.toDigits_ne_nil, fun _ hc =>
    isDecimalDigit_of_isDigit (Nat.isDigit_of_mem_toDigits (by decide) (by decide) hc)⟩

/-- A number other than zero does not start with a zero. -/
theorem head?_decimalDigits {n : Nat} (h : n ≠ 0) : (decimalDigits n).head? ≠ some '0' := by
  unfold decimalDigits
  induction n using Nat.strongRecOn with
  | _ n ih =>
    by_cases hsmall : n < 10
    · rw [Nat.toDigits_of_lt_base hsmall, List.head?_cons]
      intro hzero
      exact h (Nat.digitChar_eq_zero.1 (Option.some.inj hzero))
    · rw [Nat.toDigits_of_base_le (by decide) (by omega),
        List.head?_append_of_ne_nil _ Nat.toDigits_ne_nil]
      exact ih (n / 10) (by omega) (by omega)

theorem eq_zero_of_head?_decimalDigits {n : Nat} (h : (decimalDigits n).head? = some '0') :
    n = 0 :=
  Classical.byContradiction fun hn => head?_decimalDigits hn h

theorem digits_append {first second : List Char} (hfirst : Digits first)
    (hsecond : ∀ c ∈ second, isDecimalDigit c = true) : Digits (first ++ second) := by
  refine ⟨List.append_ne_nil_of_left_ne_nil hfirst.1 second, fun c hc => ?_⟩
  rcases List.mem_append.1 hc with hc | hc
  · exact hfirst.2 c hc
  · exact hsecond c hc

theorem isDecimalDigit_of_mem_zeros {n : Nat} {c : Char} (h : c ∈ List.replicate n '0') :
    isDecimalDigit c = true := by
  rw [List.eq_of_mem_replicate h]
  rfl

namespace Binary64

/-- A point that identifies a positive number is not zero. -/
theorem ne_zero_of_onGrid? {i : Interval} {step point : Nat} (hlow : 0 < i.low)
    (h : i.onGrid? step = some point) : point ≠ 0 := by
  have hcontains : ∀ point, i.contains (point * step) = true → point ≠ 0 := by
    rintro point hpoint rfl
    unfold Interval.contains at hpoint
    simp only [Nat.zero_mul] at hpoint
    split at hpoint
    · have hle := (Bool.and_eq_true_iff.1 hpoint).1
      rw [decide_eq_true_eq] at hle
      omega
    · have hlt := (Bool.and_eq_true_iff.1 hpoint).1
      rw [decide_eq_true_eq] at hlt
      omega
  unfold Interval.onGrid? at h
  dsimp only at h
  split at h
  · rename_i hbelow habove
    split at h
    · exact Option.some.inj h ▸ hcontains _ hbelow
    · exact Option.some.inj h ▸ hcontains _ habove
  · rename_i hbelow _
    exact Option.some.inj h ▸ hcontains _ hbelow
  · rename_i _ habove
    exact Option.some.inj h ▸ hcontains _ habove
  · exact absurd h (Option.some_ne_none _).symm

/-- Positive numbers have digits other than zero.  The other case is that of no digits at all, which
are written as a lone zero. -/
theorem digits_shortest {mantissa : Nat} (h : mantissa ≠ 0) (exponent : Nat) :
    (shortest mantissa exponent).digits ≠ 0 ∨ shortest mantissa exponent = ⟨0, 0⟩ := by
  have hlow : 0 < (interval mantissa exponent).low := by
    have htens : ∀ n, 0 < tenTo n := fun n => Nat.pow_pos (by decide)
    have hwidth : 0 < twoTo exponent * tenTo gridScale :=
      Nat.mul_pos (twoTo_pos exponent) (htens gridScale)
    unfold interval
    dsimp only
    refine Nat.mul_pos ?_ hwidth
    split <;> omega
  unfold shortest
  dsimp only
  generalize hfound : List.findSome? _ (List.range 17) = found
  cases found with
  | none => exact Or.inr rfl
  | some decimal =>
    obtain ⟨count, -, hcount⟩ := List.exists_of_findSome?_eq_some hfound
    obtain ⟨point, hpoint, hdecimal⟩ := Option.map_eq_some_iff.1 hcount
    rw [Option.getD_some, ← hdecimal]
    exact Or.inl (ne_zero_of_onGrid? hlow hpoint)

end Binary64

theorem stripZeros_ne_zero {n : Nat} (h : n ≠ 0) (fuel : Nat) : (stripZeros fuel n).1 ≠ 0 := by
  induction fuel generalizing n with
  | zero => exact h
  | succ fuel ih =>
    rw [stripZeros]
    split
    · exact ih (by omega)
    · exact h

namespace DecimalLayout

/-- Positional digits are digits around a point. -/
theorem exists_positional {text : List Char} (htext : Digits text) {leading : Int}
    (hfirst : text.head? = some '0' → text = ['0'] ∧ leading = 0) :
    ∃ whole fraction, Digits whole ∧ (whole.head? = some '0' → whole = ['0']) ∧
      Digits fraction ∧ Number.layout.positional text leading = whole ++ '.' :: fraction := by
  unfold positional
  by_cases hneg : leading < 0
  · rw [if_pos hneg]
    refine ⟨['0'], List.replicate (-leading - 1).toNat '0' ++ text, by decide, fun _ => rfl,
      ⟨List.append_ne_nil_of_right_ne_nil _ htext.1, fun c hc => ?_⟩, rfl⟩
    rcases List.mem_append.1 hc with hc | hc
    · exact isDecimalDigit_of_mem_zeros hc
    · exact htext.2 c hc
  · rw [if_neg hneg]
    dsimp only
    by_cases hlength : text.length ≤ leading.toNat + 1
    · rw [if_pos hlength]
      refine ⟨text ++ List.replicate (leading.toNat + 1 - text.length) '0', ['0'],
        digits_append htext fun c hc => isDecimalDigit_of_mem_zeros hc, fun hzero => ?_, by decide,
        rfl⟩
      rw [List.head?_append_of_ne_nil _ htext.1] at hzero
      obtain ⟨rfl, rfl⟩ := hfirst hzero
      rfl
    · rw [if_neg hlength]
      refine ⟨text.take (leading.toNat + 1), text.drop (leading.toNat + 1), ⟨?_, ?_⟩, ?_,
        ⟨?_, ?_⟩, rfl⟩
      · exact fun hnil => (List.take_eq_nil_iff.1 hnil).elim (Nat.succ_ne_zero _) htext.1
      · exact fun c hc => htext.2 c (List.mem_of_mem_take hc)
      · intro hzero
        rw [List.head?_take, if_neg (Nat.succ_ne_zero _)] at hzero
        obtain ⟨rfl, rfl⟩ := hfirst hzero
        rfl
      · exact fun hnil => hlength (List.drop_eq_nil_iff.1 hnil)
      · exact fun c hc => htext.2 c (List.mem_of_mem_drop hc)

/-- Digits with an exponent have one digit in front of the point. -/
theorem exists_scientific {text : List Char} (htext : Digits text) (leading : Int) :
    ∃ whole fraction exponent, Digits whole ∧ (whole.head? = some '0' → whole = ['0']) ∧
      (∀ digits ∈ fraction, Digits digits) ∧ Digits exponent ∧
      scientific text leading = whole ++ (NumberLexeme.fractionChars fraction ++
        NumberLexeme.exponentChars (some (decide (leading < 0), exponent))) := by
  obtain ⟨c, digits, rfl⟩ := List.exists_cons_of_ne_nil htext.1
  have hwhole : Digits [c] := ⟨List.cons_ne_nil _ _, fun d hd => htext.2 d (by
    rw [List.mem_singleton.1 hd]
    exact List.mem_cons_self)⟩
  have hfirst : [c].head? = some '0' → [c] = ['0'] := fun h => by
    rw [Option.some.inj h]
  have hsign : (if leading < 0 then '-' else '+') =
      if decide (leading < 0) = true then '-' else '+' := by
    simp only [decide_eq_true_eq]
  cases digits with
  | nil =>
    refine ⟨[c], none, _, hwhole, hfirst, by simp, digits_decimalDigits leading.natAbs, ?_⟩
    simp [scientific, NumberLexeme.fractionChars, NumberLexeme.exponentChars]
  | cons d digits =>
    refine ⟨[c], some (d :: digits), _, hwhole, hfirst, ?_,
      digits_decimalDigits leading.natAbs, ?_⟩
    · rintro _ ⟨⟩
      exact ⟨List.cons_ne_nil _ _, fun e he => htext.2 e (List.mem_cons_of_mem c he)⟩
    · simp [scientific, NumberLexeme.fractionChars, NumberLexeme.exponentChars]

/-- Digits in the layout of numbers are a proper number, with or without a sign. -/
theorem exists_chars {text : List Char} (htext : Digits text) (leading : Int)
    (hfirst : text.head? = some '0' → text = ['0'] ∧ leading = 0) (negative : Bool) :
    ∃ lexeme : NumberLexeme, lexeme.Proper ∧ lexeme.negative = negative ∧
      (if Number.layout.isPositional leading then Number.layout.positional text leading
        else scientific text leading) = lexeme.whole ++
          (NumberLexeme.fractionChars lexeme.fraction ++
            NumberLexeme.exponentChars lexeme.exponent) := by
  split
  · obtain ⟨whole, fraction, hwhole, hone, hfraction, hpositional⟩ :=
      exists_positional htext hfirst
    refine ⟨⟨negative, whole, some fraction, none⟩, ⟨hwhole, hone, ?_, by simp⟩, rfl, ?_⟩
    · rintro _ ⟨⟩
      exact hfraction
    · rw [hpositional, NumberLexeme.fractionChars, NumberLexeme.exponentChars, List.append_nil]
  · obtain ⟨whole, fraction, digits, hwhole, hone, hfraction, hexponent, hscientific⟩ :=
      exists_scientific htext leading
    refine ⟨⟨negative, whole, fraction, some (decide (leading < 0), digits)⟩,
      ⟨hwhole, hone, hfraction, ?_⟩, rfl, hscientific⟩
    rintro _ ⟨⟩
    exact hexponent

end DecimalLayout

namespace NumberLexeme

theorem chars_of_negative {lexeme : NumberLexeme} {negative : Bool} {magnitude : List Char}
    (hnegative : lexeme.negative = negative)
    (hmagnitude : magnitude = lexeme.whole ++
      (fractionChars lexeme.fraction ++ exponentChars lexeme.exponent)) :
    (if negative then '-' :: magnitude else magnitude) = lexeme.chars := by
  rw [chars, hnegative, hmagnitude]
  cases negative <;> rfl

end NumberLexeme

namespace Number

/-- How an integer is written. -/
def integerLexeme (i : Int) : NumberLexeme := ⟨decide (i < 0), decimalDigits i.natAbs, none, none⟩

theorem proper_integerLexeme (i : Int) : (integerLexeme i).Proper where
  whole := digits_decimalDigits _
  first := fun hzero => by
    show decimalDigits i.natAbs = ['0']
    rw [eq_zero_of_head?_decimalDigits hzero]
    rfl
  fraction := by simp [integerLexeme]
  exponent := by simp [integerLexeme]

theorem chars_integerLexeme (i : Int) : integerText i = (integerLexeme i).chars := by
  have hchars : (if decide (i < 0) then '-' :: decimalDigits i.natAbs
      else decimalDigits i.natAbs) = (integerLexeme i).chars :=
    NumberLexeme.chars_of_negative rfl (List.append_nil (decimalDigits i.natAbs)).symm
  rw [← hchars, integerText]
  simp only [decide_eq_true_eq]

/-- Every number of a value is written as the notation allows. -/
theorem exists_chars_eq_text (n : Number) :
    ∃ lexeme : NumberLexeme, lexeme.Proper ∧ n.text = lexeme.chars := by
  cases n with
  | integer i _ => exact ⟨integerLexeme i, proper_integerLexeme i, chars_integerLexeme i⟩
  | float x finite =>
    cases x with
    | finite negative mantissa exponent _ =>
      rw [text, Binary64.render, String.toList_ofList]
      by_cases hzero : mantissa = 0
      · let lexeme : NumberLexeme := ⟨negative, ['0'], some ['0'], none⟩
        have hdigit : Digits ['0'] := by decide
        have hproper : lexeme.Proper :=
          ⟨hdigit, fun _ => rfl, by rintro _ ⟨⟩; exact hdigit, by simp [lexeme]⟩
        rw [if_pos hzero]
        exact ⟨lexeme, hproper, NumberLexeme.chars_of_negative rfl rfl⟩
      · rw [if_neg hzero]
        dsimp only
        generalize hdecimal : Binary64.shortest mantissa exponent = decimal
        have hshortest := Binary64.digits_shortest hzero exponent
        rw [hdecimal] at hshortest
        obtain ⟨lexeme, hproper, hnegative, hmagnitude⟩ := DecimalLayout.exists_chars
          (digits_decimalDigits (stripZeros 20 decimal.digits).1)
          (decimal.exponent + (stripZeros 20 decimal.digits).2 +
            (decimalDigits (stripZeros 20 decimal.digits).1).length - 1) (by
            intro hhead
            rcases hshortest with hne | rfl
            · exact absurd hhead (head?_decimalDigits (stripZeros_ne_zero hne 20))
            · exact ⟨rfl, rfl⟩) negative
        exact ⟨lexeme, hproper, NumberLexeme.chars_of_negative hnegative hmagnitude⟩
    | infinite => exact absurd finite Bool.false_ne_true
    | nan => exact absurd finite Bool.false_ne_true

end Number

/-! ### Both together -/

namespace Json

theorem lexemeOf_eq {n : Number} {lexeme : NumberLexeme} (hproper : lexeme.Proper)
    (htext : n.text = lexeme.chars) : lexemeOf n = lexeme := by
  have hread := lexNumber_chars hproper endsNumber_nil
  rw [List.append_nil] at hread
  rw [lexemeOf, htext, hread]

/-- The lexeme of a number is how its text is read. -/
theorem exists_lexemeOf (n : Number) : (lexemeOf n).Proper ∧ n.text = (lexemeOf n).chars := by
  obtain ⟨lexeme, hproper, htext⟩ := n.exists_chars_eq_text
  rw [lexemeOf_eq hproper htext]
  exact ⟨hproper, htext⟩

/-- **Numbers of values are read back as they are written.** -/
theorem lexNumber_text (n : Number) {rest : List Char} (hrest : EndsNumber rest) :
    lexNumber (n.text ++ rest) = some (lexemeOf n, rest) := by
  obtain ⟨hproper, htext⟩ := exists_lexemeOf n
  rw [htext]
  exact lexNumber_chars hproper hrest

end Json

end TaskEngine
