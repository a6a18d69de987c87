import TaskEngine.Proofs.Log.Recorded
import TaskEngine.Proofs.Numbers.Decimals
import TaskEngine.Proofs.Options.Merging
import TaskEngine.Retry

/-!
# Budgets of whole numbers

A budget for retrying is kept in options: it is read after every failure and written back before
the next attempt, through floating point numbers both times.  As long as its numbers are whole
and representable, nothing is lost on the way, and what happens between two attempts can be said
in natural numbers.

## Main definitions

* `CountsAs` — what an option may hold to count as a natural number.
* `Budget` — how often to try again, how long to wait, by how much the wait grows.
* `Budget.HeldAfter` — options hold what is left of a budget.
* `Running.paused` — what happens between a failed attempt and the next.

## Main results

* `Budget.HeldAfter.ofOptions` — the budget is read from the options as it was written.
* `afterFailure_paused`, `afterFailure_ended` — **another attempt follows a transient failure
  until the budget is used up.**
* `Budget.HeldAfter.paused` — the options then hold what is left.
-/

namespace TaskEngine

/-- What an option may hold to count as a natural number: nothing for zero, the number itself, or
its decimal text. -/
inductive CountsAs : Option Value → Nat → Prop
  /-- The option is absent. -/
  | absent : CountsAs none 0
  /-- The option holds the number. -/
  | integer (n : Nat) (fits : FitsWord n) : CountsAs (some (.number (.integer n fits))) n
  /-- The option holds the decimal text of the number. -/
  | decimal (n : Nat) : CountsAs (some (.string n.repr)) n

theorem CountsAs.number? {options : Options} {key : String} {n : Nat}
    (h : CountsAs (options.get? key) n) (hfinite : (Binary64.ofNat n).isFinite = true) :
    ∃ read, options.number? key = .ok read ∧ read.getD (.zero false) = Binary64.ofNat n := by
  rw [Options.number?]
  generalize options.get? key = value at h
  cases h with
  | absent => exact ⟨none, rfl, Binary64.ofNat_zero.symm⟩
  | integer n fits =>
    refine ⟨some (.ofNat n), ?_, Option.getD_some⟩
    exact Options.numberOf_integer key fits hfinite
  | decimal n =>
    refine ⟨some (.ofNat n), ?_, Option.getD_some⟩
    exact (Options.numberOf_repr key n).trans (if_pos hfinite)

theorem countsAs_ofNat {n : Nat} (h : n ≤ Binary64.largestWhole) :
    CountsAs (some (Value.ofNat n)) n := by
  obtain ⟨fits, hvalue⟩ := Value.exists_ofNat h
  rw [hvalue]
  exact .integer n fits

/-- A budget for retrying in whole numbers. -/
structure Budget where
  /-- How many more attempts may be made. -/
  retries : Nat
  /-- The wait before the next attempt, in seconds. -/
  interval : Nat
  /-- By how much the wait grows. -/
  growth : Nat

namespace Budget

/-- The wait behind the `j`-th failure, if there is one. -/
def wait (budget : Budget) (j : Nat) : Nat := budget.interval + j * budget.growth

/-- Options hold a budget. -/
structure HeldBy (budget : Budget) (options : Options) : Prop where
  /-- The number of attempts. -/
  retries : CountsAs (options.get? retriesKey) budget.retries
  /-- The first wait. -/
  interval : CountsAs (options.get? retryIntervalKey) budget.interval
  /-- The growth. -/
  growth : CountsAs (options.get? retryIntervalAddKey) budget.growth

/-- The numbers that the budget can come to are representable. -/
structure Representable (budget : Budget) : Prop where
  /-- The number of attempts. -/
  retries : budget.retries ≤ Binary64.largestWhole
  /-- The longest wait, behind all attempts. -/
  wait : budget.wait budget.retries ≤ Binary64.largestWhole
  /-- The growth, which may exceed the bound if no attempt follows. -/
  growth : (Binary64.ofNat budget.growth).isFinite = true

/-- Options hold what is left of a budget when the `j`-th attempt is made. -/
structure HeldAfter (budget : Budget) (j : Nat) (options : Options) : Prop where
  /-- The attempts that are left. -/
  retries : CountsAs (options.get? retriesKey) (budget.retries - j)
  /-- The next wait; there is none if there was none at first. -/
  interval : CountsAs (options.get? retryIntervalKey)
    (if 0 < budget.interval then budget.wait j else 0)
  /-- The growth. -/
  growth : CountsAs (options.get? retryIntervalAddKey) budget.growth

/-- The lines that a failure leaves behind if another attempt follows. -/
def lines (budget : Budget) (j : Nat) (failure : Failure) : List (LogLevel × String) :=
  (.warning, failure.detailed) ::
    (if 0 < budget.interval then
      [(.warning, "Sleeping for " ++ (budget.wait j).repr ++ " seconds before retry...")] else []) ++
    [(.warning, "Retrying (" ++ (budget.retries - (j + 1)).repr ++ " attempts remaining)")]

/-- The waits that a failure leaves behind if another attempt follows. -/
def waits (budget : Budget) (j : Nat) : List Duration :=
  if 0 < budget.interval then [.ofSeconds (budget.wait j)] else []

/-- The options with what is left of the budget behind the `j`-th failure. -/
def written (budget : Budget) (j : Nat) (options : Options) : Options :=
  (if 0 < budget.interval ∧ 0 < budget.growth then
    options.insert retryIntervalKey (.ofNat (budget.wait (j + 1))) else options).insert
      retriesKey (.ofNat (budget.retries - (j + 1)))

variable {budget : Budget} {j : Nat} {options : Options}

theorem Representable.wait_le (h : budget.Representable) (hj : j ≤ budget.retries) :
    budget.wait j ≤ Binary64.largestWhole := by
  have hgrown : j * budget.growth ≤ budget.retries * budget.growth := Nat.mul_le_mul_right _ hj
  have hlast := h.wait
  rw [Budget.wait] at hlast ⊢
  omega

theorem Representable.left_le (h : budget.Representable) (j : Nat) :
    budget.retries - j ≤ Binary64.largestWhole :=
  Nat.le_trans (Nat.sub_le _ _) h.retries

/-- The next wait as it is kept, zero for none. -/
theorem Representable.interval_le (h : budget.Representable) (hj : j ≤ budget.retries) :
    (if 0 < budget.interval then budget.wait j else 0) ≤ Binary64.largestWhole := by
  split
  · exact h.wait_le hj
  · exact Nat.zero_le _

theorem HeldBy.heldAfter (h : budget.HeldBy options) : budget.HeldAfter 0 options := by
  have hinterval : (if 0 < budget.interval then budget.wait 0 else 0) = budget.interval := by
    rw [wait, Nat.zero_mul, Nat.add_zero]
    split
    · rfl
    · omega
  refine ⟨h.retries, ?_, h.growth⟩
  rw [hinterval]
  exact h.interval

/-- **The budget is read as it was written.** -/
theorem HeldAfter.ofOptions (h : budget.HeldAfter j options) (hfits : budget.Representable)
    (hj : j ≤ budget.retries) :
    RetrySettings.ofOptions options =
      .ok ⟨.ofNat (budget.retries - j), .ofNat (if 0 < budget.interval then budget.wait j else 0),
        .ofNat budget.growth⟩ := by
  obtain ⟨retries, hretries, hretries'⟩ :=
    h.retries.number? (Binary64.isFinite_ofNat (hfits.left_le j))
  obtain ⟨interval, hinterval, hinterval'⟩ :=
    h.interval.number? (Binary64.isFinite_ofNat (hfits.interval_le hj))
  obtain ⟨growth, hgrowth, hgrowth'⟩ := h.growth.number? hfits.growth
  rw [RetrySettings.ofOptions, hretries, hinterval, hgrowth, ← hretries', ← hinterval', ← hgrowth']
  rfl

theorem get?_written_retries (budget : Budget) (j : Nat) (options : Options) :
    (budget.written j options).get? retriesKey =
      some (.ofNat (budget.retries - (j + 1))) :=
  OrderedMap.get?_insert_self _ _ _

theorem get?_written_of_ne {key : String} (budget : Budget) (j : Nat) (options : Options)
    (hretries : key ≠ retriesKey) (hinterval : key ≠ retryIntervalKey) :
    (budget.written j options).get? key = options.get? key := by
  rw [written, OrderedMap.get?_insert_of_ne _ hretries]
  split
  · rw [OrderedMap.get?_insert_of_ne _ hinterval]
  · rfl

theorem get?_written_interval (budget : Budget) (j : Nat) (options : Options) :
    (budget.written j options).get? retryIntervalKey =
      if 0 < budget.interval ∧ 0 < budget.growth then some (.ofNat (budget.wait (j + 1)))
      else options.get? retryIntervalKey := by
  have hne : retryIntervalKey ≠ retriesKey := by decide
  rw [written, OrderedMap.get?_insert_of_ne _ hne]
  split
  · rw [OrderedMap.get?_insert_self]
  · rfl

/-- The options then hold what is left. -/
theorem HeldAfter.written (h : budget.HeldAfter j options) (hfits : budget.Representable)
    (hj : j < budget.retries) : budget.HeldAfter (j + 1) (budget.written j options) := by
  constructor
  · rw [get?_written_retries]
    exact countsAs_ofNat (hfits.left_le (j + 1))
  · rw [get?_written_interval]
    have hinterval := h.interval
    by_cases hwait : 0 < budget.interval
    · by_cases hgrowth : 0 < budget.growth
      · rw [if_pos ⟨hwait, hgrowth⟩, if_pos hwait]
        exact countsAs_ofNat (hfits.wait_le hj)
      · -- without growth the next wait is the one that is there
        have hsame : budget.wait (j + 1) = budget.wait j := by
          have hzero : budget.growth = 0 := by omega
          rw [wait, wait, hzero, Nat.mul_zero, Nat.mul_zero]
        rw [if_neg fun hboth => hgrowth hboth.2, if_pos hwait, hsame]
        rwa [if_pos hwait] at hinterval
    · rw [if_neg fun hboth => hwait hboth.1, if_neg hwait]
      rwa [if_neg hwait] at hinterval
  · rw [get?_written_of_ne _ _ _ (by decide) (by decide)]
    exact h.growth

end Budget

/-! ### Between two attempts -/

theorem sleepingNotice_ofNat {n : Nat} (h : n ≤ Binary64.largestWhole) :
    sleepingNotice (.ofNat n) = "Sleeping for " ++ n.repr ++ " seconds before retry..." := by
  rw [sleepingNotice, numberValue_ofNat h, Value.text_ofNat h]

theorem retryingNotice_ofNat {n : Nat} (h : n ≤ Binary64.largestWhole) :
    retryingNotice (.ofNat n) = "Retrying (" ++ n.repr ++ " attempts remaining)" := by
  rw [retryingNotice, numberValue_ofNat h, Value.text_ofNat h]

variable {σ : Type}

/-- What is worked on when the `j`-th attempt has failed and another one follows. -/
def Running.paused (r : Running σ) (budget : Budget) (j : Nat) (failure : Failure) : Running σ :=
  { r with
    world := { r.world with
      book := r.world.book.recordAll r.task.logger (budget.lines j failure)
      waits := r.world.waits ++ (budget.waits j).map (⟨r.task.sleeper, ·⟩) }
    task := { r.task with options := budget.written j r.task.options } }

variable {r : Running σ} {budget : Budget} {j : Nat}

/-- Without an interval there is no wait. -/
theorem waitForRetry_zero (retries growth : Binary64) :
    waitForRetry ⟨retries, .ofNat 0, growth⟩ r = (.done (), r) := by
  have hpositive : (Binary64.ofNat 0).isPositive = false :=
    Binary64.isPositive_ofNat (Nat.zero_le _)
  rw [waitForRetry]
  dsimp only
  rw [hpositive, if_neg Bool.false_ne_true]

theorem waitForRetry_eq (retries : Binary64) {x y z : Binary64} {wait : Duration}
    (hpositive : x.isPositive = true) (hwait : Duration.ofBinary64? x = some wait)
    (hsum : x.add y = z) (hfinite : z.isFinite = true) :
    waitForRetry ⟨retries, x, y⟩ r =
      (.done (),
        let slept := (r.log .warning (sleepingNotice x)).sleep wait
        if y.isPositive then slept.onTask (·.setOption retryIntervalKey (numberValue z))
        else slept) := by
  rw [waitForRetry]
  dsimp only
  rw [if_pos hpositive, hwait]
  dsimp only
  rw [hsum, if_pos hfinite]
  split
  · rfl
  · rfl

theorem waitForRetry_pos (retries : Binary64) {interval growth : Nat} (hinterval : 0 < interval)
    (hfits : interval + growth ≤ Binary64.largestWhole) :
    waitForRetry ⟨retries, .ofNat interval, .ofNat growth⟩ r =
      (.done (),
        let slept := (r.log .warning
          ("Sleeping for " ++ interval.repr ++ " seconds before retry...")).sleep
            (.ofSeconds interval)
        if 0 < growth then
          slept.onTask (·.setOption retryIntervalKey (.ofNat (interval + growth)))
        else slept) := by
  have hle : interval ≤ Binary64.largestWhole := Nat.le_trans (Nat.le_add_right _ _) hfits
  have hle' : growth ≤ Binary64.largestWhole := Nat.le_trans (Nat.le_add_left _ _) hfits
  have hpositive : (Binary64.ofNat interval).isPositive = true :=
    (Binary64.isPositive_ofNat hle).trans (decide_eq_true hinterval)
  have hgrows : (Binary64.ofNat growth).isPositive = true ↔ 0 < growth := by
    rw [Binary64.isPositive_ofNat hle', decide_eq_true_eq]
  rw [waitForRetry_eq retries hpositive (Duration.ofBinary64?_ofNat hle)
    (Binary64.add_ofNat hle hle') (Binary64.isFinite_ofNat hfits), sleepingNotice_ofNat hle,
    numberValue_ofNat hfits]
  simp only [hgrows]

/-- **Another attempt follows** a transient failure as long as the budget has one left. -/
theorem afterFailure_paused {step : StepFailure} (h : budget.HeldAfter j r.task.options)
    (hfits : budget.Representable) (hj : j < budget.retries) (hstep : step.transient = true) :
    afterFailure step r = (.done (), r.paused budget j step.failure) := by
  have hread : RetrySettings.ofOptions (r.log .warning step.message).task.options = _ :=
    h.ofOptions hfits (Nat.le_of_lt hj)
  have hleft : budget.retries - j = budget.retries - (j + 1) + 1 := by omega
  have hfits' : budget.retries - (j + 1) + 1 ≤ Binary64.largestWhole := hleft ▸ hfits.left_le j
  have hpositive : ((Binary64.ofNat (budget.retries - j)).isPositive && step.transient) = true := by
    rw [Binary64.isPositive_ofNat (hfits.left_le j), hstep, Bool.and_true, decide_eq_true_eq]
    omega
  rw [afterFailure]
  dsimp only
  rw [hread]
  dsimp only
  rw [if_pos hpositive, hleft, Binary64.sub_one_ofNat hfits',
    retryingNotice_ofNat (hfits.left_le (j + 1)), numberValue_ofNat (hfits.left_le (j + 1))]
  by_cases hwait : 0 < budget.interval
  · have hnext : budget.wait j + budget.growth = budget.wait (j + 1) := by
      rw [Budget.wait, Budget.wait, Nat.succ_mul, Nat.add_assoc]
    have hinterval : 0 < budget.wait j := Nat.lt_of_lt_of_le hwait (Nat.le_add_right _ _)
    have hlargest := hfits.wait_le (j := j + 1) hj
    rw [if_pos hwait, waitForRetry_pos _ hinterval (hnext ▸ hlargest), hnext]
    dsimp only
    by_cases hgrowth : 0 < budget.growth
    · rw [if_pos hgrowth, Running.paused, Budget.lines, Budget.waits, Budget.written, if_pos hwait,
        if_pos hwait, if_pos ⟨hwait, hgrowth⟩]
      rfl
    · rw [if_neg hgrowth, Running.paused, Budget.lines, Budget.waits, Budget.written, if_pos hwait,
        if_pos hwait, if_neg fun hboth => hgrowth hboth.2]
      rfl
  · rw [if_neg hwait, waitForRetry_zero]
    dsimp only
    rw [Running.paused, Budget.lines, Budget.waits, Budget.written, if_neg hwait, if_neg hwait,
      if_neg fun hboth => hwait hboth.1, List.map_nil, List.append_nil]
    rfl

/-- **No attempt follows** a permanent failure, or one that finds the budget used up. -/
theorem afterFailure_ended {step : StepFailure} (h : budget.HeldAfter j r.task.options)
    (hfits : budget.Representable) (hj : j ≤ budget.retries)
    (hstep : step.transient = true → j = budget.retries) :
    afterFailure step r = (.failed step.failure, r.log .warning step.failure.detailed) := by
  have hread : RetrySettings.ofOptions (r.log .warning step.message).task.options = _ :=
    h.ofOptions hfits hj
  rw [afterFailure]
  dsimp only
  rw [hread]
  dsimp only
  rw [Binary64.isPositive_ofNat (hfits.left_le j), if_neg]
  · rfl
  · rw [Bool.and_eq_true, decide_eq_true_eq]
    rintro ⟨hleft, htransient⟩
    have := hstep htransient
    omega

end TaskEngine
