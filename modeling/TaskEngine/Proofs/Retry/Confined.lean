import TaskEngine.Proofs.Retry.Bounded

/-!
# What retrying does to options

The budget for retrying is kept among the options of a task, and what is left of it is written back
between two attempts.  Whatever the options hold, well-formed or not, that is all that retrying does
to them: before anything is written back, everything that can fail has succeeded, and a number that
is not zero can only have been read from an option that was there.

## Main definitions

* `Options.SameButBudget` — options differ at most in what is left of a budget.

## Main results

* `RetrySettings.sameButBudget_written` — writing back replaces values of options that are there.
* `retryWith_confined` — **retrying leaves options as the last attempt has left them, and between
  two attempts changes at most the budget in them.**
-/

namespace TaskEngine

variable {σ α : Type}

/-- Options differ at most in the number of attempts and in the wait that a budget consists of. -/
structure Options.SameButBudget (before after : Options) : Prop where
  /-- The same options are set, in the same order. -/
  keys : after.keys = before.keys
  /-- No others have changed. -/
  others : ∀ key, key ≠ retriesKey → key ≠ retryIntervalKey → after.get? key = before.get? key
  /-- The number of attempts was set before. -/
  retries : retriesKey ∈ before.keys
  /-- So was the wait, if it has changed. -/
  interval : after.get? retryIntervalKey ≠ before.get? retryIntervalKey →
    retryIntervalKey ∈ before.keys

theorem OrderedMap.keys_insert_of_mem {m : OrderedMap α} {key : String} (h : key ∈ m.keys)
    (value : α) : (m.insert key value).keys = m.keys := by
  rw [OrderedMap.keys_insert, if_pos h]

/-- An option that is read as a number beyond zero is set. -/
theorem Options.mem_keys_of_isPositive {options : Options} {key : String} {read : Option Binary64}
    (h : options.number? key = .ok read) (hpositive : (read.getD (.zero false)).isPositive = true) :
    key ∈ options.keys := by
  rw [← OrderedMap.contains_iff, OrderedMap.contains]
  rw [Options.number?] at h
  cases hvalue : options.get? key with
  | some value => rfl
  | none =>
    rw [hvalue] at h
    cases h
    exact absurd hpositive Bool.false_ne_true

namespace RetrySettings

variable {options : Options} {settings : RetrySettings}

theorem retries_mem_keys (h : ofOptions options = .ok settings)
    (hpositive : settings.retries.isPositive = true) : retriesKey ∈ options.keys := by
  obtain ⟨retries, interval, growth, hretries, -, -, rfl⟩ := numbers_of_ofOptions h
  exact Options.mem_keys_of_isPositive hretries hpositive

theorem interval_mem_keys (h : ofOptions options = .ok settings)
    (hpositive : settings.interval.isPositive = true) : retryIntervalKey ∈ options.keys := by
  obtain ⟨retries, interval, growth, -, hinterval, -, rfl⟩ := numbers_of_ofOptions h
  exact Options.mem_keys_of_isPositive hinterval hpositive

theorem keys_grown (h : ofOptions options = .ok settings) :
    (settings.grown options).keys = options.keys := by
  rw [grown]
  split
  · rename_i hgrows
    exact OrderedMap.keys_insert_of_mem (interval_mem_keys h hgrows.1) _
  · rfl

theorem get?_grown_of_ne {key : String} (hkey : key ≠ retryIntervalKey) :
    (settings.grown options).get? key = options.get? key := by
  rw [grown]
  split
  · exact OrderedMap.get?_insert_of_ne _ hkey _
  · rfl

theorem get?_written_of_ne {key : String} (hkey : key ≠ retriesKey) :
    (settings.written options).get? key = (settings.grown options).get? key :=
  OrderedMap.get?_insert_of_ne _ hkey _

/-- **What is written back replaces values of options that are set.** -/
theorem sameButBudget_written (h : ofOptions options = .ok settings)
    (hpositive : settings.retries.isPositive = true) :
    options.SameButBudget (settings.written options) where
  keys := by
    have hmem : retriesKey ∈ (settings.grown options).keys := by
      rw [keys_grown h]
      exact retries_mem_keys h hpositive
    rw [written, OrderedMap.keys_insert_of_mem hmem, keys_grown h]
  others key hretries hinterval := by rw [get?_written_of_ne hretries, get?_grown_of_ne hinterval]
  retries := retries_mem_keys h hpositive
  interval hchanged := by
    rw [get?_written_of_ne (by decide), grown] at hchanged
    split at hchanged
    · rename_i hgrows
      exact interval_mem_keys h hgrows.1
    · exact absurd rfl hchanged

end RetrySettings

section Attempts

variable {attempt : Nat → Act σ StepFailure α} {start r : Running σ} {j limit : Nat}

/-- An attempt that does not fail is the last one. -/
theorem Attempted.last_of_not_failed (hmade : Attempted attempt start j r)
    (hended : ∀ step, (attempt j r).1 ≠ .failed step) :
    ∀ next, ¬Attempted attempt start (j + 1) next := by
  intro next hnext
  cases hnext with
  | next before failed pause =>
    obtain rfl := hmade.unique before
    exact hended _ (congrArg Prod.fst failed)

/-- So is one whose failure is not followed by a pause. -/
theorem Attempted.last_of_failed {step : StepFailure} {after : Running σ}
    (hmade : Attempted attempt start j r) (hattempt : attempt j r = (.failed step, after))
    (hended : (afterFailure step after).1 ≠ .done ()) :
    ∀ next, ¬Attempted attempt start (j + 1) next := by
  intro next hnext
  cases hnext with
  | next before failed pause =>
    obtain rfl := hmade.unique before
    rw [hattempt] at failed
    cases failed
    exact hended (congrArg Prod.fst pause)

/-- From any attempt on, retrying ends with some attempt and the options that it leaves, unless it
does not end within its bound.  By induction on the bound. -/
theorem Attempted.exists_last (hmade : Attempted attempt start j r)
    (hends : (retryFrom attempt limit j r).1 ≠ .unfinished) :
    ∃ k last, k < j + limit ∧ Attempted attempt start k last ∧
      (∀ next, ¬Attempted attempt start (k + 1) next) ∧
      (retryFrom attempt limit j r).2.task.options = (attempt k last).2.task.options := by
  induction limit generalizing j r with
  | zero => exact absurd rfl hends
  | succ limit ih =>
    cases hattempt : attempt j r with
    | mk outcome after =>
      rw [retryFrom, hattempt] at hends ⊢
      cases outcome with
      | done value | panicked message =>
        have hended : ∀ step, (attempt j r).1 ≠ .failed step := by
          intro step hfailed
          rw [hattempt] at hfailed
          cases hfailed
        exact ⟨j, r, by omega, hmade, hmade.last_of_not_failed hended, by rw [hattempt]⟩
      | unfinished => exact absurd rfl hends
      | failed step =>
        have hcases := (afterFailure_cases step after).2
        cases hpause : afterFailure step after with
        | mk ended paused =>
          dsimp only at hends ⊢
          rw [hpause] at hcases hends ⊢
          dsimp only at hcases hends ⊢
          rcases hcases with ⟨⟨failure, rfl⟩, hsame⟩ | ⟨rfl, -⟩
          · have hended : (afterFailure step after).1 ≠ .done () := by
              intro hdone
              rw [hpause] at hdone
              cases hdone
            exact ⟨j, r, by omega, hmade, hmade.last_of_failed hattempt hended,
              hsame.trans (by rw [hattempt])⟩
          · obtain ⟨k, last, hk, hlast⟩ := ih (hmade.next hattempt hpause) hends
            exact ⟨k, last, by omega, hlast⟩

/-- Between two attempts, options change at most in the budget. -/
theorem Attempted.sameButBudget {next : Running σ} (h : Attempted attempt start (j + 1) next) :
    ∃ r step after, Attempted attempt start j r ∧ attempt j r = (.failed step, after) ∧
      after.task.options.SameButBudget next.task.options := by
  cases h with
  | @next _ r after _ step before failed pause =>
    refine ⟨r, step, after, before, failed, ?_⟩
    obtain ⟨-, ⟨⟨failure, hfailed⟩, -⟩ | ⟨-, -, settings, hread, hpositive, hwritten⟩⟩ :=
      afterFailure_cases step after
    · rw [pause] at hfailed
      cases hfailed
    · rw [pause] at hwritten
      rw [hwritten]
      exact RetrySettings.sameButBudget_written hread hpositive

end Attempts

/-- **What retrying does to options is confined to the budget.**  When retrying ends, in whatever way
and from whatever options, one of the attempts was the last, and the options are as it has left them.
And from what a failed attempt has left to what the next one works on, no option is added, taken out
or moved, and at most the number of attempts and the wait have other values, where they were set. -/
theorem retryWith_confined (attempt : Nat → Act σ StepFailure α) (start : Running σ) :
    (∀ limit, (retryWith limit attempt start).1 ≠ .unfinished →
      ∃ k last, k < limit ∧ Attempted attempt start k last ∧
        (∀ next, ¬Attempted attempt start (k + 1) next) ∧
        (retryWith limit attempt start).2.task.options = (attempt k last).2.task.options) ∧
    ∀ j next, Attempted attempt start (j + 1) next →
      ∃ r step after, Attempted attempt start j r ∧ attempt j r = (.failed step, after) ∧
        after.task.options.SameButBudget next.task.options := by
  refine ⟨fun limit hends => ?_, fun j next hnext => hnext.sameButBudget⟩
  obtain ⟨k, last, hk, hlast⟩ := Attempted.exists_last .first hends
  exact ⟨k, last, by omega, hlast⟩

/-! ### Attempts that make the budget unreadable -/

instance {ε : Type} (outcome : Outcome ε α) : Decidable (outcome = .unfinished) :=
  match outcome with
  | .unfinished => isTrue rfl
  | .done _ | .failed _ | .panicked _ => isFalse nofun

/-- An attempt that finds a service busy; all but the first also leave a growth of the wait that is
no number. -/
def muddling (n : Nat) : Act Nat StepFailure Value := fun r =>
  (.failed Trial.busy,
    if n = 0 then r else r.onTask (·.setOption retryIntervalAddKey (.string "soon")))

/-- The first such attempt, with the budget set among other options. -/
def scattered : Running Nat :=
  Trial.counting (.ofList [(retryIntervalKey, .ofNat 2), ("path", .string "src"),
    (retriesKey, .ofNat 3), (retryIntervalAddKey, .ofNat 1)])

/-- Retrying ends when the growth cannot be read, and the options are in their places. -/
theorem retryWith_confined_muddling :
    (retryWith 3 muddling scattered).1 ≠ .unfinished ∧
      (∃ k last, k < 3 ∧ Attempted muddling scattered k last ∧
        (∀ next, ¬Attempted muddling scattered (k + 1) next) ∧
        (retryWith 3 muddling scattered).2.task.options = (muddling k last).2.task.options) ∧
      (retryWith 3 muddling scattered).2.task.options.keys =
        [retryIntervalKey, "path", retriesKey, retryIntervalAddKey] := by
  have hends : (retryWith 3 muddling scattered).1 ≠ .unfinished := by decide +kernel
  exact ⟨hends, (retryWith_confined muddling scattered).1 3 hends, by decide +kernel⟩

end TaskEngine
