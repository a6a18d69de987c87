import TaskEngine.Proofs.Numbers.Whole
import TaskEngine.Proofs.Text.Trimming

/-!
# Whole numbers as decimal texts

The decimal text of a whole number reads as the number nearest to it, however large it is.  So an
option may hold a whole number or its text, and the text of one that is representable is what
messages show.

## Main results

* `Binary64.ofText?_repr` — **the decimal text of a whole number reads as that number.**
* `Options.numberOf_repr` — an option that holds it is read unless the number is too large.
* `Value.text_ofNat` — a whole number is written as its decimal text.
-/

namespace TaskEngine

/-! ### Decimal digits -/

theorem digitValue?_of_isDigit {c : Char} (h : c.isDigit = true) :
    digitValue? c = some (c.toNat - '0'.toNat) := by
  have hrange := Char.isDigit_iff_toNat.1 h
  exact if_pos ⟨hrange.1, hrange.2⟩

theorem isDigit_of_mem_repr {n : Nat} {c : Char} (h : c ∈ n.repr.toList) : c.isDigit = true := by
  rw [Nat.toList_repr] at h
  exact Nat.isDigit_of_mem_toDigits (by decide) (by decide) h

theorem isDecimalDigit_of_mem_repr {n : Nat} {c : Char} (h : c ∈ n.repr.toList) :
    isDecimalDigit c = true := by
  rw [isDecimalDigit, digitValue?_of_isDigit (isDigit_of_mem_repr h), Option.isSome_some]

theorem digitsValue_eq {digits : List Char} (h : ∀ c ∈ digits, c.isDigit = true) :
    digitsValue digits = Nat.ofDigitChars 10 digits 0 := by
  have hfrom : ∀ value, digits.foldl (fun value c => value * 10 + (digitValue? c).getD 0) value =
      Nat.ofDigitChars 10 digits value := by
    induction digits with
    | nil => exact fun value => rfl
    | cons c digits ih =>
      intro value
      rw [List.foldl_cons, Nat.ofDigitChars_cons,
        digitValue?_of_isDigit (h c List.mem_cons_self), Option.getD_some, Nat.mul_comm value 10]
      exact ih (fun d hd => h d (List.mem_cons_of_mem c hd)) _
  exact hfrom 0

theorem digitsValue_repr (n : Nat) : digitsValue n.repr.toList = n := by
  rw [digitsValue_eq fun c hc => isDigit_of_mem_repr hc, Nat.toList_repr,
    Nat.ofDigitChars_ten_toDigits]

/-- A decimal text starts with a digit. -/
theorem exists_toList_repr (n : Nat) :
    ∃ c digits, n.repr.toList = c :: digits ∧ c.isDigit = true := by
  obtain ⟨c, digits, heq⟩ := List.exists_cons_of_ne_nil
    (l := n.repr.toList) (by rw [Nat.toList_repr]; exact Nat.toDigits_ne_nil)
  exact ⟨c, digits, heq, isDigit_of_mem_repr (heq ▸ List.mem_cons_self)⟩

theorem toLower_of_isDigit {c : Char} (h : c.isDigit = true) : c.toLower = c := by
  have hrange := (Char.isDigit_iff_toNat.1 h).2
  refine dif_neg fun hcapital => ?_
  have hlow : 65 ≤ c.toNat := hcapital.1
  have hhigh : c.toNat ≤ 57 := hrange
  omega

theorem trimSpace_repr (n : Nat) : trimSpace n.repr = n.repr := by
  refine trimSpace_of_solid fun c hc => isSpace_eq_false_of_isAlphanum ?_
  rw [Char.isAlphanum, isDigit_of_mem_repr hc, Bool.or_true]

/-! ### Reading and writing -/

namespace Binary64

theorem ofDecimal_zero (n : Nat) : ofDecimal false n 0 = ofNat n := by
  rw [ofDecimal]
  by_cases hzero : n = 0
  · rw [if_pos hzero, hzero, ofNat_zero]
  · have hlarge : ¬exponentLimit ≤ 0 := by decide
    have hsmall : ¬(0 : Int) + decimalLength n ≤ -exponentLimit := by
      rw [exponentLimit]
      omega
    rw [if_neg hzero, if_neg hlarge, if_neg hsmall, if_pos (Int.le_refl 0)]
    show ofRatio false (n * tenTo 0 * twoTo scale) 1 = ofNat n
    rw [show tenTo 0 = 1 from rfl, Nat.mul_one, ofNat]

theorem splitSign_of_isDigit {c : Char} (h : c.isDigit = true) (digits : List Char) :
    splitSign (c :: digits) = (false, c :: digits) := by
  rw [splitSign]
  · rintro rest heq
    rw [(List.cons.inj heq).1] at h
    exact absurd h (by decide)
  · rintro rest heq
    rw [(List.cons.inj heq).1] at h
    exact absurd h (by decide)

theorem unsigned?_repr (n : Nat) : unsigned? false n.repr.toList = some (ofNat n) := by
  have hdigits : ∀ c ∈ n.repr.toList, isDecimalDigit c = true :=
    fun c hc => isDecimalDigit_of_mem_repr hc
  have hwhole : n.repr.toList.takeWhile isDecimalDigit = n.repr.toList :=
    List.takeWhile_eq_self_iff.2 hdigits
  have hafter : n.repr.toList.dropWhile isDecimalDigit = [] :=
    List.dropWhile_eq_nil_iff.2 hdigits
  have hne : ¬(n.repr.toList = [] ∧ ([] : List Char) = []) := by
    obtain ⟨c, digits, heq, -⟩ := exists_toList_repr n
    rw [heq]
    exact fun h => List.cons_ne_nil c digits h.1
  rw [unsigned?, hwhole, hafter]
  dsimp only
  rw [if_neg hne, List.append_nil, digitsValue_repr, ← ofDecimal_zero]
  rfl

/-- **The decimal text of a whole number reads as that number.** -/
theorem ofText?_repr (n : Nat) : ofText? n.repr = some (ofNat n) := by
  have hunsigned := unsigned?_repr n
  obtain ⟨c, digits, heq, hdigit⟩ := exists_toList_repr n
  -- the words for what is no number start with letters
  have hword : ∀ d letters, d.isDigit = false → (c :: digits).map Char.toLower ≠ d :: letters := by
    intro d letters hd hsame
    rw [List.map_cons, toLower_of_isDigit hdigit] at hsame
    rw [← (List.cons.inj hsame).1, hdigit] at hd
    exact Bool.false_ne_true hd.symm
  rw [heq] at hunsigned
  rw [ofText?, heq, splitSign_of_isDigit hdigit]
  dsimp only
  rw [if_neg, if_neg, hunsigned]
  · exact hword 'n' ['a', 'n'] rfl
  · rw [not_or]
    exact ⟨hword 'i' ['n', 'f'] rfl, hword 'i' ['n', 'f', 'i', 'n', 'i', 't', 'y'] rfl⟩

end Binary64

theorem Options.numberOf_integer (key : String) {n : Nat} (fits : FitsWord n)
    (h : (Binary64.ofNat n).isFinite = true) :
    Options.numberOf key (.number (.integer n fits)) = .ok (some (.ofNat n)) := by
  have hvalue : (Number.integer n fits).toBinary64 = .ofNat n := rfl
  rw [Options.numberOf]
  dsimp only
  rw [hvalue, if_pos h]

/-- An option that holds a decimal text is read unless the number is too large. -/
theorem Options.numberOf_repr (key : String) (n : Nat) :
    Options.numberOf key (.string n.repr) =
      if (Binary64.ofNat n).isFinite then .ok (some (.ofNat n))
      else .error (.notNumber key (.string n.repr)) := by
  rw [Options.numberOf]
  dsimp only
  rw [trimSpace_repr, if_neg Nat.repr_ne_empty, Binary64.ofText?_repr]

theorem Value.exists_ofNat {n : Nat} (h : n ≤ Binary64.largestWhole) :
    ∃ fits, Value.ofNat n = .number (.integer n fits) := by
  have hfits : FitsWord n := by
    have hlargest : Binary64.largestWhole < 0x10000000000000000 := by decide
    rw [FitsWord]
    omega
  refine ⟨hfits, ?_⟩
  rw [Value.ofNat, Value.ofInt, Number.ofInt?, dif_pos hfits]
  rfl

theorem Value.text_ofNat {n : Nat} (h : n ≤ Binary64.largestWhole) :
    (Value.ofNat n).text = n.repr := by
  obtain ⟨fits, hvalue⟩ := Value.exists_ofNat h
  have hsign : ¬((n : Int) < 0) := Int.not_lt.2 (Int.natCast_nonneg n)
  rw [hvalue, Value.text, Value.chars, Number.text, Number.integerText, if_neg hsign,
    Int.natAbs_natCast, decimalDigits, Nat.repr_eq_ofList_toDigits]

end TaskEngine
