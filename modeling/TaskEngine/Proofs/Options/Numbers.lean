import TaskEngine.Proofs.Numbers.Whole

/-!
# Numbers in options

A number goes into an option as a value: as an integer if it is one of less than `2 ^ 63`, else as
itself, and as null if it is not finite.  It comes back when the option is read.  An integer that
comes from a number is representable, so nothing is rounded on the way back; minus zero comes back
as zero, which is the same number.

An option may also hold an integer that is not representable, or the text of a number beyond the
largest one.  What is read from it is finite in any case, or nothing is read.

## Main results

* `numberValue_cases` — **the values that numbers become.**
* `Options.isFinite_of_numberOf` — what is read from an option is finite.
* `numberValue_comes_back` — **numbers come back from options, and what comes back is finite.**
-/

namespace TaskEngine

/-! ### The values that numbers become -/

variable {x : Binary64} {z : Int}

/-- A whole number of less than `2 ^ 63` becomes that integer. -/
theorem exists_numberValue_of_isWhole (h : x.IsWhole z) (hz : z.natAbs < 0x8000000000000000) :
    ∃ fits, numberValue x = .number (.integer z fits) := by
  have hfits : FitsWord z := by
    unfold FitsWord
    omega
  refine ⟨hfits, ?_⟩
  rw [numberValue_of_isWhole h hz, Value.ofInt, Number.ofInt?, dif_pos hfits, Option.map_some,
    Option.getD_some]

/-- Any other number becomes itself, if it is finite. -/
theorem numberValue_of_not_isWhole (h : ∀ z, x.IsWhole z → ¬z.natAbs < 0x8000000000000000) :
    numberValue x = .ofBinary64 x := by
  unfold numberValue
  rw [if_neg]
  intro hsmall
  rw [Bool.and_eq_true, decide_eq_true_eq] at hsmall
  exact h _ (Binary64.isWhole_truncate hsmall.1) hsmall.2

/-- **The values that numbers become**: an integer, a float, or null. -/
theorem numberValue_cases (x : Binary64) :
    (∃ z fits, x.IsWhole z ∧ z.natAbs < 0x8000000000000000 ∧
      numberValue x = .number (.integer z fits)) ∨
    (∃ finite, (∀ z, x.IsWhole z → ¬z.natAbs < 0x8000000000000000) ∧
      numberValue x = .number (.float x finite)) ∨
    (x.isFinite = false ∧ numberValue x = .null) := by
  by_cases hwhole : ∃ z, x.IsWhole z ∧ z.natAbs < 0x8000000000000000
  · obtain ⟨z, h, hz⟩ := hwhole
    obtain ⟨fits, hvalue⟩ := exists_numberValue_of_isWhole h hz
    exact .inl ⟨z, fits, h, hz, hvalue⟩
  · have hnot : ∀ z, x.IsWhole z → ¬z.natAbs < 0x8000000000000000 :=
      fun z h hz => hwhole ⟨z, h, hz⟩
    have hvalue := numberValue_of_not_isWhole hnot
    refine .inr ?_
    rw [hvalue]
    unfold Value.ofBinary64 Number.ofBinary64?
    by_cases hfinite : x.isFinite = true
    · refine .inl ⟨hfinite, hnot, ?_⟩
      rw [dif_pos hfinite, Option.map_some, Option.getD_some]
    · refine .inr ⟨Bool.eq_false_iff.2 hfinite, ?_⟩
      rw [dif_neg hfinite, Option.map_none, Option.getD_none]

/-! ### Reading them back -/

theorem Binary64.sameValue_self (h : x.isFinite = true) : x.sameValue x = true := by
  cases x with
  | infinite | nan => exact absurd h Bool.false_ne_true
  | finite => rw [sameValue, beq_self_eq_true]

namespace Options

theorem number?_of_number {options : Options} {key : String} {n : Number}
    (h : options.get? key = some (.number n)) (hfinite : n.toBinary64.isFinite = true) :
    options.number? key = .ok (some n.toBinary64) := by
  simp [number?, h, numberOf, hfinite]

/-- **What is read from an option is finite.** -/
theorem isFinite_of_numberOf {key : String} {value : Value} {y : Binary64}
    (h : numberOf key value = .ok (some y)) : y.isFinite = true := by
  unfold numberOf at h
  dsimp only at h
  cases value with
  | null | array | object => simp at h
  | bool flag =>
    simp only [Except.ok.injEq, Option.some.injEq] at h
    subst h
    have hone : Binary64.one.isFinite = true := Binary64.isFinite_ofNat (by decide)
    cases flag with
    | true => simpa using hone
    | false => rfl
  | number n =>
    dsimp only at h
    split at h
    · rename_i hfinite
      rwa [← Option.some.inj (Except.ok.inj h)]
    · simp at h
  | string text =>
    dsimp only at h
    split at h
    · simp at h
    · split at h
      · split at h
        · rename_i hfinite
          rwa [← Option.some.inj (Except.ok.inj h)]
        · simp at h
      · simp at h

end Options

/-- **Numbers come back from options, and what comes back is finite.**  A number becomes an integer
exactly if it is that integer and less than `2 ^ 63`, and null exactly if it is not finite.  Every
finite number is found again in the option that holds its value, but for the sign of zero.  And
whatever an option holds, no infinity is read from it. -/
theorem numberValue_comes_back (x : Binary64) (options : Options) (key : String) :
    (x.isFinite = true → options.get? key = some (numberValue x) →
      ∃ y, options.number? key = .ok (some y) ∧ y.isFinite = true ∧ y.sameValue x = true) ∧
    (∀ z, (∃ fits, numberValue x = .number (.integer z fits)) ↔
      x.IsWhole z ∧ z.natAbs < 0x8000000000000000) ∧
    (numberValue x = .null ↔ x.isFinite = false) ∧
    ∀ y, options.number? key = .ok (some y) → y.isFinite = true := by
  refine ⟨fun hfinite hget => ?_, fun z => ⟨?_, fun h => exists_numberValue_of_isWhole h.1 h.2⟩, ?_,
    fun y h => ?_⟩
  · rcases numberValue_cases x with ⟨z, fits, h, -, hvalue⟩ | ⟨_, -, hvalue⟩ | ⟨hnot, -⟩
    · rw [hvalue] at hget
      have hback : (Number.integer z fits).toBinary64.IsWhole z := h.ofInt
      exact ⟨_, Options.number?_of_number hget hback.finite, hback.finite, hback.sameValue h⟩
    · rw [hvalue] at hget
      exact ⟨x, Options.number?_of_number hget hfinite, hfinite, Binary64.sameValue_self hfinite⟩
    · rw [hnot] at hfinite
      exact absurd hfinite Bool.false_ne_true
  · rintro ⟨fits, hinteger⟩
    rcases numberValue_cases x with ⟨z', fits', h, hz, hvalue⟩ | ⟨_, -, hvalue⟩ | ⟨-, hvalue⟩
    · rw [hinteger, Value.number.injEq, Number.integer.injEq] at hvalue
      exact ⟨hvalue ▸ h, hvalue ▸ hz⟩
    · simp [hvalue] at hinteger
    · simp [hvalue] at hinteger
  · rcases numberValue_cases x with ⟨z, fits, h, -, hvalue⟩ | ⟨hfinite, -, hvalue⟩ | ⟨hnot, hvalue⟩
    · simp [hvalue, h.finite]
    · simp [hvalue, hfinite]
    · simp [hvalue, hnot]
  · unfold Options.number? at h
    split at h
    · simp at h
    · exact Options.isFinite_of_numberOf h

/-- The smallest integer of 64 bits is beyond the bound, and is kept as a float. -/
theorem numberValue_comes_back_limit :
    let x := Binary64.finite true (twoTo 52) (Binary64.scale + 11) (by decide)
    let options : Options := OrderedMap.empty.insert "wait" (numberValue x)
    x.isFinite = true ∧ x.IsWhole (-0x8000000000000000) ∧
    options.get? "wait" = some (numberValue x) ∧
    (∃ y, options.number? "wait" = .ok (some y) ∧ y.isFinite = true ∧ y.sameValue x = true) ∧
    ¬∃ fits, numberValue x = .number (.integer (-0x8000000000000000) fits) := by
  intro x options
  have hfinite : x.isFinite = true := rfl
  have hwhole : x.IsWhole (-0x8000000000000000) := ⟨hfinite, by decide +kernel⟩
  have hget : options.get? "wait" = some (numberValue x) := rfl
  have hback := numberValue_comes_back x options "wait"
  refine ⟨hfinite, hwhole, hget, hback.1 hfinite hget, ?_⟩
  rw [hback.2.1]
  simp

end TaskEngine
