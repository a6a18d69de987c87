import TaskEngine.Duration
import TaskEngine.Options

/-!
# Whole numbers in binary floating point

A number that is representable is its own rounding.  The whole numbers up to `2 ^ 53` are
representable, so sums and differences among them are exact, and they go into values, durations
and texts and come back unchanged.

## Main definitions

* `Binary64.largestWhole` — the bound.
* `Binary64.IsWhole` — a number is a whole number.

## Main results

* `Binary64.ofRatio_of_canonical` — a representable magnitude is its own rounding.
* `Binary64.exists_ofNat` — whole numbers up to the bound are representable.
* `Binary64.add_ofNat`, `Binary64.sub_one_ofNat` — arithmetic among them is exact.
* `Binary64.IsWhole.eq_ofNat` — a whole number has one representation, zero apart.
* `Binary64.isWhole_iff` — a number without a fraction is its integral part.
* `Binary64.IsWhole.ofInt` — an integer that is representable is converted exactly.
* `numberValue_of_isWhole`, `numberValue_ofNat`, `Duration.ofBinary64?_ofNat` — what they become.
-/

namespace TaskEngine

theorem twoTo_pos (exponent : Nat) : 0 < twoTo exponent := Nat.pow_pos (by decide)

@[simp] theorem twoTo_zero : twoTo 0 = 1 := rfl

theorem twoTo_add (a b : Nat) : twoTo (a + b) = twoTo a * twoTo b := Nat.pow_add 2 a b

namespace Binary64

/-- All whole numbers up to this one are representable. -/
def largestWhole : Nat := twoTo 53

/-! ### Representable magnitudes -/

variable {mantissa exponent : Nat}

theorem spacing_of_canonical (h : Canonical mantissa exponent) :
    spacing (mantissa * twoTo exponent) = exponent := by
  obtain ⟨hmantissa, -, hnormal⟩ := h
  rw [spacing]
  by_cases hexponent : exponent = 0
  · rw [hexponent, twoTo_zero, Nat.mul_one, if_pos hmantissa]
  · -- the mantissa has all its 53 bits, so the exponent can be read off the logarithm
    have hnormal := hnormal.resolve_left hexponent
    have hlow : twoTo (52 + exponent) ≤ mantissa * twoTo exponent := by
      rw [twoTo_add]
      exact Nat.mul_le_mul_right _ hnormal
    have hhigh : mantissa * twoTo exponent < twoTo (52 + exponent + 1) := by
      rw [show 52 + exponent + 1 = 53 + exponent by omega, twoTo_add]
      exact Nat.mul_lt_mul_of_pos_right hmantissa (twoTo_pos exponent)
    have hlarge : twoTo 53 ≤ mantissa * twoTo exponent :=
      Nat.le_trans (Nat.pow_le_pow_right (by decide) (by omega)) hlow
    have hne : mantissa * twoTo exponent ≠ 0 := by
      have := twoTo_pos 53
      omega
    have hlog : (mantissa * twoTo exponent).log2 = 52 + exponent :=
      (Nat.log2_eq_iff hne).2 ⟨hlow, hhigh⟩
    rw [if_neg (Nat.not_lt.2 hlarge), hlog]
    omega

/-- **A representable magnitude is its own rounding.** -/
theorem ofRatio_of_canonical (h : Canonical mantissa exponent) (negative : Bool) :
    ofRatio negative (mantissa * twoTo exponent) 1 = .finite negative mantissa exponent h := by
  have hround : roundHalfEven (mantissa * twoTo exponent) (1 * twoTo exponent) = mantissa := by
    rw [Nat.one_mul, roundHalfEven_of_dvd (Nat.mul_mod_left _ _) (twoTo_pos exponent),
      Nat.mul_div_cancel _ (twoTo_pos exponent)]
  rw [ofRatio, Nat.div_one, spacing_of_canonical h, hround, normalize, dif_pos h]

/-- **Whole numbers up to the bound are representable.** -/
theorem exists_ofNat {n : Nat} (h : n ≤ largestWhole) :
    ∃ mantissa exponent canonical, ofNat n = .finite false mantissa exponent canonical ∧
      mantissa * twoTo exponent = n * twoTo scale := by
  have hcanonical : ∃ mantissa exponent, Canonical mantissa exponent ∧
      mantissa * twoTo exponent = n * twoTo scale := by
    by_cases hzero : n = 0
    · exact ⟨0, 0, canonical_zero, by rw [hzero, Nat.zero_mul, Nat.zero_mul]⟩
    by_cases hlargest : n = largestWhole
    · refine ⟨twoTo 52, scale + 1, by decide, ?_⟩
      rw [hlargest, largestWhole, ← twoTo_add, ← twoTo_add]
      rfl
    -- shifted to the left until it has 53 bits
    have hlt : n < twoTo 53 := Nat.lt_of_le_of_ne h hlargest
    have hlow := Nat.log2_self_le hzero
    have hhigh := Nat.lt_log2_self (n := n)
    have hlog : n.log2 < 53 := (Nat.log2_lt hzero).2 hlt
    obtain ⟨shift, hshift⟩ := Nat.exists_eq_add_of_le (Nat.le_of_lt_succ hlog)
    refine ⟨n * twoTo shift, scale - shift, ⟨?_, ?_, Or.inr ?_⟩, ?_⟩
    · have := Nat.mul_lt_mul_of_pos_right hhigh (twoTo_pos shift)
      rwa [show (2 : Nat) ^ (n.log2 + 1) = twoTo (n.log2 + 1) from rfl, ← twoTo_add,
        show n.log2 + 1 + shift = 53 by omega] at this
    · rw [scale, maxExponent]
      omega
    · have := Nat.mul_le_mul_right (twoTo shift) hlow
      rwa [show (2 : Nat) ^ n.log2 = twoTo n.log2 from rfl, ← twoTo_add, ← hshift] at this
    · rw [Nat.mul_assoc, ← twoTo_add, Nat.add_sub_cancel' (by rw [scale]; omega)]
  obtain ⟨mantissa, exponent, hcanonical, hunits⟩ := hcanonical
  refine ⟨mantissa, exponent, hcanonical, ?_, hunits⟩
  rw [ofNat, ← hunits, ofRatio_of_canonical hcanonical]

theorem ofNat_zero : ofNat 0 = zero false := by
  rw [ofNat, Nat.zero_mul]
  exact ofRatio_of_canonical canonical_zero false

section Whole

variable {n : Nat} (h : n ≤ largestWhole)

include h

theorem isFinite_ofNat : (ofNat n).isFinite = true := by
  obtain ⟨_, _, _, heq, -⟩ := exists_ofNat h
  rw [heq, isFinite]

theorem units_ofNat : (ofNat n).units = n * twoTo scale := by
  obtain ⟨_, _, _, heq, hunits⟩ := exists_ofNat h
  rw [heq, units, hunits]

theorem isNegative_ofNat : (ofNat n).isNegative = false := by
  obtain ⟨_, _, _, heq, -⟩ := exists_ofNat h
  rw [heq, isNegative]

theorem isPositive_ofNat : (ofNat n).isPositive = decide (0 < n) := by
  have hunits := units_ofNat h
  obtain ⟨_, _, _, heq, -⟩ := exists_ofNat h
  rw [heq] at hunits ⊢
  rw [isPositive, hunits, Bool.not_false, Bool.true_and, Bool.eq_iff_iff, bne_iff_ne,
    decide_eq_true_eq, Nat.pos_iff_ne_zero, Ne, Nat.mul_eq_zero, not_or]
  exact ⟨And.left, fun hn => ⟨hn, Nat.ne_of_gt (twoTo_pos scale)⟩⟩

end Whole

/-- A sum that is a whole number, one summand of which is not negative. -/
theorem add_eq_ofNat {x y : Binary64} {n : Nat} (hx : x.isFinite = true) (hy : y.isFinite = true)
    (hnegative : x.isNegative = false)
    (hsum : x.signedUnits + y.signedUnits = (n * twoTo scale : Nat)) : x.add y = ofNat n := by
  cases x with
  | infinite | nan => exact absurd hx Bool.false_ne_true
  | finite xnegative =>
    cases y with
    | infinite | nan => exact absurd hy Bool.false_ne_true
    | finite =>
      rw [isNegative] at hnegative
      subst hnegative
      rw [add, hsum, ofNat]
      cases n * twoTo scale with
      | zero => exact (ofRatio_of_canonical canonical_zero false).symm
      | succ units => rfl

theorem signedUnits_ofNat {n : Nat} (h : n ≤ largestWhole) :
    (ofNat n).signedUnits = (n * twoTo scale : Nat) := by
  rw [signedUnits, isNegative_ofNat h, if_neg Bool.false_ne_true, units_ofNat h]

/-- Sums of whole numbers are rounded once, from their exact value. -/
theorem add_ofNat {a b : Nat} (ha : a ≤ largestWhole) (hb : b ≤ largestWhole) :
    (ofNat a).add (ofNat b) = ofNat (a + b) := by
  refine add_eq_ofNat (isFinite_ofNat ha) (isFinite_ofNat hb) (isNegative_ofNat ha) ?_
  rw [signedUnits_ofNat ha, signedUnits_ofNat hb, Nat.add_mul]
  rfl

theorem sub_one_ofNat {n : Nat} (h : n + 1 ≤ largestWhole) : (ofNat (n + 1)).sub one = ofNat n := by
  have hone : 1 ≤ largestWhole := by decide
  have hneg : one.neg.isFinite = true ∧ one.neg.signedUnits = -(1 * twoTo scale : Nat) := by
    have hunits := units_ofNat hone
    obtain ⟨_, _, _, heq, -⟩ := exists_ofNat hone
    rw [heq] at hunits
    rw [one, heq, ← hunits]
    exact ⟨rfl, rfl⟩
  refine add_eq_ofNat (isFinite_ofNat h) hneg.1 (isNegative_ofNat h) ?_
  rw [signedUnits_ofNat h, hneg.2, Nat.add_mul]
  omega

/-! ### Numbers that are whole -/

/-- The number is a whole number, be it representable in one way or, like zero, in two. -/
structure IsWhole (x : Binary64) (z : Int) : Prop where
  /-- It is a number. -/
  finite : x.isFinite = true
  /-- It is that number. -/
  value : x.signedUnits = z * twoTo scale

theorem isWhole_ofNat {n : Nat} (h : n ≤ largestWhole) : (ofNat n).IsWhole n :=
  ⟨isFinite_ofNat h, by rw [signedUnits_ofNat h, Int.natCast_mul]⟩

variable {x : Binary64} {z : Int}

theorem IsWhole.unique {z' : Int} (h : x.IsWhole z) (h' : x.IsWhole z') : z = z' := by
  have hscale : (twoTo scale : Int) ≠ 0 := Int.natCast_ne_zero.2 (Nat.ne_of_gt (twoTo_pos scale))
  exact Int.eq_of_mul_eq_mul_right hscale (h.value.symm.trans h'.value)

theorem IsWhole.pos_of_isPositive (h : x.IsWhole z) (hpositive : x.isPositive = true) : 0 < z := by
  have hvalue := h.value
  cases x with
  | infinite | nan => exact absurd h.finite Bool.false_ne_true
  | finite negative mantissa exponent canonical =>
    rw [isPositive, Bool.and_eq_true, Bool.not_eq_true', bne_iff_ne] at hpositive
    obtain ⟨rfl, hunits⟩ := hpositive
    rw [signedUnits, isNegative, if_neg Bool.false_ne_true] at hvalue
    have hscale := twoTo_pos scale
    refine Int.not_le.1 fun hz => ?_
    have hle : z * (twoTo scale : Int) ≤ 0 := Int.mul_nonpos_of_nonpos_of_nonneg hz (by omega)
    omega

/-- Whole numbers above zero have one representation. -/
theorem IsWhole.eq_ofNat {n : Nat} (h : x.IsWhole n) (hpos : 0 < n) : x = ofNat n := by
  have hvalue := h.value
  rw [← Int.natCast_mul] at hvalue
  have hunits : 0 < n * twoTo scale := Nat.mul_pos hpos (twoTo_pos scale)
  cases x with
  | infinite | nan => exact absurd h.finite Bool.false_ne_true
  | finite negative mantissa exponent canonical =>
    cases negative with
    | true =>
      rw [signedUnits, isNegative, if_pos rfl] at hvalue
      omega
    | false =>
      rw [signedUnits, isNegative, if_neg Bool.false_ne_true, units] at hvalue
      rw [ofNat, ← Int.ofNat_inj.1 hvalue, ofRatio_of_canonical canonical]

/-- A number without a fraction is its integral part. -/
theorem isWhole_truncate (h : x.isIntegral = true) : x.IsWhole x.truncate := by
  cases x with
  | infinite | nan => exact absurd h Bool.false_ne_true
  | finite negative mantissa exponent canonical =>
    generalize hx : finite negative mantissa exponent canonical = x at h ⊢
    have hunits : x.units / twoTo scale * twoTo scale = x.units := by
      rw [← hx, isIntegral, beq_iff_eq, hx] at h
      exact Nat.div_mul_cancel (Nat.dvd_of_mod_eq_zero h)
    refine ⟨hx ▸ rfl, ?_⟩
    unfold signedUnits truncate
    dsimp only
    split
    · rw [Int.neg_mul, ← Int.natCast_ediv, ← Int.natCast_mul, hunits]
    · rw [← Int.natCast_ediv, ← Int.natCast_mul, hunits]

/-- The magnitude of a whole number. -/
theorem IsWhole.units_eq (h : x.IsWhole z) : x.units = z.natAbs * twoTo scale := by
  have hmagnitude : x.signedUnits.natAbs = x.units := by
    unfold signedUnits
    split
    · simp
    · simp
  rw [← hmagnitude, h.value, Int.natAbs_mul, Int.natAbs_natCast]

/-- **A number is whole exactly if it has no fraction, and then it is its integral part.** -/
theorem isWhole_iff : x.IsWhole z ↔ x.isIntegral = true ∧ x.truncate = z := by
  constructor
  · intro h
    have hintegral : x.isIntegral = true := by
      have hunits := h.units_eq
      cases x with
      | infinite | nan => exact absurd h.finite Bool.false_ne_true
      | finite => rw [isIntegral, hunits, Nat.mul_mod_left, beq_self_eq_true]
    exact ⟨hintegral, (isWhole_truncate hintegral).unique h⟩
  · rintro ⟨hintegral, rfl⟩
    exact isWhole_truncate hintegral

theorem ofInt_eq (z : Int) : ofInt z = ofRatio (decide (z < 0)) (z.natAbs * twoTo scale) 1 := by
  cases z with
  | ofNat n =>
    have hsign : ¬(Int.ofNat n < 0) := Int.not_lt.2 (Int.natCast_nonneg n)
    rw [decide_eq_false hsign, Binary64.ofInt, ofNat]
    rfl
  | negSucc n => rw [decide_eq_true (Int.negSucc_lt_zero n), Binary64.ofInt, Int.natAbs_negSucc]

/-- **An integer that is representable is converted exactly.** -/
theorem IsWhole.ofInt (h : x.IsWhole z) : (ofInt z).IsWhole z := by
  have hunits := h.units_eq
  cases x with
  | infinite | nan => exact absurd h.finite Bool.false_ne_true
  | finite negative mantissa exponent canonical =>
    rw [units] at hunits
    -- the number itself but for its sign, which zero may have either way
    have hconverted : Binary64.ofInt z = .finite (decide (z < 0)) mantissa exponent canonical := by
      rw [ofInt_eq, ← hunits, ofRatio_of_canonical canonical]
    refine ⟨by rw [hconverted, isFinite], ?_⟩
    rw [hconverted]
    unfold signedUnits isNegative units
    dsimp only
    rw [hunits, Int.natCast_mul]
    by_cases hz : z < 0
    · rw [if_pos (decide_eq_true hz), ← Int.neg_mul, Int.ofNat_natAbs_of_nonpos (by omega),
        Int.neg_neg]
    · rw [if_neg (by simpa using hz), Int.natAbs_of_nonneg (by omega)]

/-- Representations of one whole number are numerically equal. -/
theorem IsWhole.sameValue {y : Binary64} (hx : x.IsWhole z) (hy : y.IsWhole z) :
    x.sameValue y = true := by
  have hvalue : x.signedUnits = y.signedUnits := hx.value.trans hy.value.symm
  cases x with
  | infinite | nan => exact absurd hx.finite Bool.false_ne_true
  | finite =>
    cases y with
    | infinite | nan => exact absurd hy.finite Bool.false_ne_true
    | finite => rw [Binary64.sameValue, hvalue, beq_self_eq_true]

end Binary64

/-! ### What whole numbers become -/

/-- A whole number of less than `2 ^ 63` becomes the value of that integer. -/
theorem numberValue_of_isWhole {x : Binary64} {z : Int} (h : x.IsWhole z)
    (hz : z.natAbs < 0x8000000000000000) : numberValue x = .ofInt z := by
  obtain ⟨hintegral, htruncate⟩ := Binary64.isWhole_iff.1 h
  rw [numberValue, hintegral, htruncate, Bool.true_and, if_pos (decide_eq_true hz)]

theorem numberValue_ofNat {n : Nat} (h : n ≤ Binary64.largestWhole) :
    numberValue (.ofNat n) = .ofNat n := by
  have hlargest : Binary64.largestWhole < 0x8000000000000000 := by decide
  apply numberValue_of_isWhole (Binary64.isWhole_ofNat h)
  rw [Int.natAbs_natCast]
  omega

theorem Duration.ofBinary64?_ofNat {n : Nat} (h : n ≤ Binary64.largestWhole) :
    Duration.ofBinary64? (.ofNat n) = some (.ofSeconds n) := by
  have hexact : n * twoTo Binary64.scale * nanosPerSecond =
      n * nanosPerSecond * twoTo Binary64.scale := Nat.mul_right_comm _ _ _
  have hround : roundHalfEven (n * twoTo Binary64.scale * nanosPerSecond)
      (twoTo Binary64.scale) = n * nanosPerSecond := by
    rw [hexact, roundHalfEven_of_dvd (Nat.mul_mod_left _ _) (twoTo_pos _),
      Nat.mul_div_cancel _ (twoTo_pos _)]
  have hwhole : ofNanos (n * nanosPerSecond) = ofSeconds n := by
    rw [ofNanos, Nat.mul_div_cancel _ (by decide), Nat.mul_mod_left, ofSeconds]
  have hbound : (ofSeconds n).seconds < 0x10000000000000000 := by
    have hlargest : Binary64.largestWhole < 0x10000000000000000 := by decide
    exact Nat.lt_of_le_of_lt h hlargest
  rw [ofBinary64?, Binary64.isFinite_ofNat h, Binary64.isNegative_ofNat h,
    Binary64.units_ofNat h, hround, hwhole]
  exact if_pos hbound

end TaskEngine
