import TaskEngine.Proofs.Calls.Restored
import TaskEngine.Proofs.Retry.Budget

/-!
# What retrying comes to

Attempts are made until one is not to be tried again or the budget is used up.  Which attempt is
the last can be read off the outcomes of the attempts, each made in the state that the ones before
have left; everything else follows from its number.

## Main definitions

* `Trial` — a kind of task that makes attempts, the budget, and what is worked on at first.
* `Trial.before` — what the `j`-th attempt works on.
* `Trial.Retried` — whether the `j`-th attempt is one that may be tried again.
* `Trial.Concludes` — the `k`-th attempt is the last one, and all that follows from that.

## Main results

* `Trial.Stands.paused`, `Trial.stands_before` — what holds of the state before an attempt holds
  before the next, and so before each.
* `Trial.retryFrom_before` — retrying reaches each attempt up to the last.
* `Trial.exists_concludes` — **retrying goes by the budget.**
-/

namespace TaskEngine

variable {σ : Type}

/-- A kind of task that makes attempts, with a budget and what is worked on at first. -/
structure Trial (σ : Type) where
  /-- What the kind of task says about itself. -/
  profile : Profile σ
  /-- An attempt. -/
  tryStep : Act σ StepFailure Value
  /-- The budget. -/
  budget : Budget
  /-- What the first attempt works on. -/
  start : Running σ

namespace Trial

variable (trial : Trial σ)

/-- What the `j`-th attempt works on: what the attempt before it has left, with the failure logged,
the wait over and the budget reduced. -/
def before (trial : Trial σ) : Nat → Running σ
  | 0 => trial.start
  | j + 1 => match trial.tryStep (trial.before j) with
    | (.failed step, after) => after.paused trial.budget j step.failure
    | (_, after) => after

/-- How the `j`-th attempt ends. -/
def outcome (j : Nat) : Outcome StepFailure Value := (trial.tryStep (trial.before j)).1

/-- What the `j`-th attempt leaves. -/
def after (j : Nat) : Running σ := (trial.tryStep (trial.before j)).2

/-- The failure of the `j`-th attempt, if it fails. -/
def failure? (j : Nat) : Option Failure := match trial.outcome j with
  | .failed step => some step.failure
  | _ => none

/-- The `j`-th attempt fails in a way that allows for another one. -/
def Retried (j : Nat) : Prop :=
  ∃ step, trial.outcome j = .failed step ∧ step.transient = true ∧
    trial.profile.retryValid (trial.after j).own step.failure = true

/-- What is left in the end, if the `k`-th attempt is the last: its failure is logged too. -/
def final (k : Nat) : Running σ := match trial.failure? k with
  | some failure => (trial.after k).log .warning failure.detailed
  | none => trial.after k

/-- Attempts neither log nor wait, and keep the logger and the way of waiting. -/
structure Quiet : Prop where
  /-- What is logged. -/
  book : ∀ r, (trial.tryStep r).2.world.book = r.world.book
  /-- The waits. -/
  waits : ∀ r, (trial.tryStep r).2.world.waits = r.world.waits
  /-- Who logs. -/
  logger : ∀ r, (trial.tryStep r).2.task.logger = r.task.logger
  /-- How the task waits. -/
  sleeper : ∀ r, (trial.tryStep r).2.task.sleeper = r.task.sleeper

/-- The `k`-th attempt is the last. -/
structure Concludes (k : Nat) : Prop where
  /-- Each one before is tried again. -/
  retried : ∀ j < k, trial.Retried j
  /-- It is not, or no attempt is left. -/
  last : k ≤ trial.budget.retries ∧ (k = trial.budget.retries ∨ ¬trial.Retried k)
  /-- Retrying ends as it ends, with its own failure if it fails. -/
  result : ∀ limit, k < limit →
    retryWith limit (fun _ => attemptStep trial.profile trial.tryStep) trial.start =
      ((trial.outcome k).mapFailure StepFailure.failure, trial.final k)
  /-- Whatever counts attempts counts `k + 1` of them. -/
  attempts : ∀ count : σ → Nat, (∀ r, count (trial.tryStep r).2.own = count r.own + 1) →
    count (trial.final k).own = count trial.start.own + (k + 1)
  /-- The attempts left are written back once there was a second attempt. -/
  retries : (trial.final k).task.options.get? retriesKey =
    if 0 < k then some (.ofNat (trial.budget.retries - k))
    else trial.start.task.options.get? retriesKey
  /-- So is a wait that has grown. -/
  interval : (trial.final k).task.options.get? retryIntervalKey =
    if 0 < k ∧ 0 < trial.budget.interval ∧ 0 < trial.budget.growth then
      some (.ofNat (trial.budget.interval + k * trial.budget.growth))
    else trial.start.task.options.get? retryIntervalKey
  /-- The growth stays. -/
  growth : (trial.final k).task.options.get? retryIntervalAddKey =
    trial.start.task.options.get? retryIntervalAddKey
  /-- Whatever attempts log and wait themselves, between two of them comes what the budget says. -/
  between : ∀ j < k, ∃ failure, trial.failure? j = some failure ∧
    (trial.before (j + 1)).world.waits = (trial.after j).world.waits ++
      (trial.budget.waits j).map (⟨(trial.after j).task.sleeper, ·⟩) ∧
    (trial.before (j + 1)).world.book =
      (trial.after j).world.book.recordAll (trial.after j).task.logger
        (trial.budget.lines j failure)
  /-- Behind the last, only its failure is logged. -/
  behind : (trial.final k).world.waits = (trial.after k).world.waits ∧
    (trial.final k).world.book = (trial.after k).world.book.recordAll (trial.after k).task.logger
      (((trial.failure? k).map fun failure => [(.warning, failure.detailed)]).getD [])
  /-- If attempts do neither themselves, the waits are those of the budget. -/
  waits : trial.Quiet → (trial.final k).world.waits = trial.start.world.waits ++
    if 0 < trial.budget.interval then
      (List.range k).map fun j => ⟨trial.start.task.sleeper,
        .ofSeconds (trial.budget.interval + j * trial.budget.growth)⟩
    else []
  /-- And the lines are those of the failures and of what follows from them. -/
  log : trial.Quiet → (trial.final k).world.book =
    trial.start.world.book.recordAll trial.start.task.logger
      (((List.range k).flatMap fun j => ((trial.failure? j).map (trial.budget.lines j)).getD []) ++
        ((trial.failure? k).map fun failure => [(.warning, failure.detailed)]).getD [])

/-! ### One attempt -/

variable {trial} {j k : Nat}

theorem attemptStep_of_failed {step : StepFailure} (h : trial.outcome j = .failed step) :
    attemptStep trial.profile trial.tryStep (trial.before j) =
      (.failed ⟨step.transient && trial.profile.retryValid (trial.after j).own step.failure,
        step.failure⟩, trial.after j) := by
  have hstep : trial.tryStep (trial.before j) = (.failed step, trial.after j) := Prod.ext h rfl
  obtain ⟨transient, failure⟩ := step
  rw [attemptStep, hstep]
  dsimp only
  cases transient with
  | false => rfl
  | true =>
    cases trial.profile.retryValid (trial.after j).own failure with
    | false => rfl
    | true => rfl

theorem attemptStep_of_not_failed (h : ∀ step, trial.outcome j ≠ .failed step) :
    attemptStep trial.profile trial.tryStep (trial.before j) = (trial.outcome j, trial.after j) := by
  have hstep : trial.tryStep (trial.before j) = (trial.outcome j, trial.after j) := rfl
  rw [attemptStep, hstep]
  split
  · rename_i step r heq
    exact absurd (congrArg Prod.fst heq) (h step)
  · rfl

theorem failure?_of_failed {step : StepFailure} (h : trial.outcome j = .failed step) :
    trial.failure? j = some step.failure := by
  rw [failure?, h]

theorem failure?_of_not_failed (h : ∀ step, trial.outcome j ≠ .failed step) :
    trial.failure? j = none := by
  rw [failure?]
  split
  · rename_i step heq
    exact absurd heq (h step)
  · rfl

theorem before_succ {step : StepFailure} (h : trial.outcome j = .failed step) :
    trial.before (j + 1) = (trial.after j).paused trial.budget j step.failure := by
  have hstep : trial.tryStep (trial.before j) = (.failed step, trial.after j) := Prod.ext h rfl
  rw [before, hstep]

theorem between_of_retried (h : trial.Retried j) : ∃ failure, trial.failure? j = some failure ∧
    (trial.before (j + 1)).world.waits = (trial.after j).world.waits ++
      (trial.budget.waits j).map (⟨(trial.after j).task.sleeper, ·⟩) ∧
    (trial.before (j + 1)).world.book =
      (trial.after j).world.book.recordAll (trial.after j).task.logger
        (trial.budget.lines j failure) := by
  obtain ⟨step, houtcome, -, -⟩ := h
  refine ⟨step.failure, failure?_of_failed houtcome, ?_⟩
  rw [before_succ houtcome]
  exact ⟨rfl, rfl⟩

theorem final_of_failed {step : StepFailure} (h : trial.outcome k = .failed step) :
    trial.final k = (trial.after k).log .warning step.failure.detailed := by
  rw [final, failure?_of_failed h]

theorem final_of_not_failed (h : ∀ step, trial.outcome k ≠ .failed step) :
    trial.final k = trial.after k := by
  rw [final, failure?_of_not_failed h]

/-- The last attempt may have failed or not; in the options that makes no difference. -/
theorem options_final (trial : Trial σ) (k : Nat) :
    (trial.final k).task.options = (trial.after k).task.options := by
  rw [final]
  split <;> rfl

theorem own_final (trial : Trial σ) (k : Nat) : (trial.final k).own = (trial.after k).own := by
  rw [final]
  split <;> rfl

theorem waits_final (trial : Trial σ) (k : Nat) :
    (trial.final k).world.waits = (trial.after k).world.waits := by
  rw [final]
  split <;> rfl

theorem book_final (trial : Trial σ) (k : Nat) :
    (trial.final k).world.book = (trial.after k).world.book.recordAll (trial.after k).task.logger
      (((trial.failure? k).map fun failure => [(.warning, failure.detailed)]).getD []) := by
  rw [final]
  cases trial.failure? k with
  | none => rfl
  | some failure => rfl

/-! ### One attempt after another -/

/-- Attempts do not touch the budget. -/
def SparesBudget (trial : Trial σ) : Prop :=
  ∀ key ∈ [retriesKey, retryIntervalKey, retryIntervalAddKey], ∀ r,
    (trial.tryStep r).2.task.options.get? key = r.task.options.get? key

theorem SparesBudget.heldAfter (h : trial.SparesBudget)
    (hheld : trial.budget.HeldAfter j (trial.before j).task.options) :
    trial.budget.HeldAfter j (trial.after j).task.options := by
  have hspared : ∀ key ∈ [retriesKey, retryIntervalKey, retryIntervalAddKey],
      (trial.after j).task.options.get? key = (trial.before j).task.options.get? key :=
    fun key hkey => h key hkey (trial.before j)
  constructor
  · rw [hspared retriesKey (by decide)]
    exact hheld.retries
  · rw [hspared retryIntervalKey (by decide)]
    exact hheld.interval
  · rw [hspared retryIntervalAddKey (by decide)]
    exact hheld.growth

/-- What has become of the state before the `j`-th attempt. -/
structure Stands (trial : Trial σ) (j : Nat) (r : Running σ) : Prop where
  /-- The options hold what is left of the budget. -/
  budget : trial.budget.HeldAfter j r.task.options
  /-- As many attempts were made. -/
  attempts : ∀ count : σ → Nat, (∀ r, count (trial.tryStep r).2.own = count r.own + 1) →
    count r.own = count trial.start.own + j
  /-- The attempts left were written back. -/
  retries : r.task.options.get? retriesKey =
    if 0 < j then some (.ofNat (trial.budget.retries - j))
    else trial.start.task.options.get? retriesKey
  /-- So was a wait that has grown. -/
  interval : r.task.options.get? retryIntervalKey =
    if 0 < j ∧ 0 < trial.budget.interval ∧ 0 < trial.budget.growth then
      some (.ofNat (trial.budget.wait j))
    else trial.start.task.options.get? retryIntervalKey
  /-- The growth stays. -/
  growth : r.task.options.get? retryIntervalAddKey =
    trial.start.task.options.get? retryIntervalAddKey
  /-- The task waits in the same way. -/
  sleeper : trial.Quiet → r.task.sleeper = trial.start.task.sleeper
  /-- The same logger records. -/
  logger : trial.Quiet → r.task.logger = trial.start.task.logger
  /-- The waits are those of the budget. -/
  waits : trial.Quiet → r.world.waits = trial.start.world.waits ++
    if 0 < trial.budget.interval then
      (List.range j).map fun i => ⟨trial.start.task.sleeper, .ofSeconds (trial.budget.wait i)⟩
    else []
  /-- The lines are those of the failures. -/
  book : trial.Quiet → r.world.book =
    trial.start.world.book.recordAll trial.start.task.logger
      ((List.range j).flatMap fun i => ((trial.failure? i).map (trial.budget.lines i)).getD [])

theorem stands_start (hheld : trial.budget.HeldBy trial.start.task.options) :
    trial.Stands 0 trial.start where
  budget := hheld.heldAfter
  attempts _ _ := rfl
  retries := rfl
  interval := by rw [if_neg fun h => Nat.lt_irrefl 0 h.1]
  growth := rfl
  sleeper _ := rfl
  logger _ := rfl
  waits _ := by rw [List.range_zero, List.map_nil, ite_self, List.append_nil]
  book _ := rfl

/-- From one attempt to the next. -/
theorem Stands.paused (h : trial.Stands j (trial.before j)) (hfits : trial.budget.Representable)
    (hspares : trial.SparesBudget) (hj : j < trial.budget.retries) {step : StepFailure}
    (houtcome : trial.outcome j = .failed step) :
    trial.Stands (j + 1) ((trial.after j).paused trial.budget j step.failure) where
  budget := (hspares.heldAfter h.budget).written hfits hj
  attempts count hcount := by
    show count (trial.after j).own = _
    rw [after, hcount, h.attempts count hcount, Nat.add_assoc]
  retries := by
    rw [if_pos (Nat.succ_pos j)]
    exact Budget.get?_written_retries _ _ _
  interval := by
    have hspared : (trial.after j).task.options.get? retryIntervalKey = _ :=
      hspares retryIntervalKey (by decide) (trial.before j)
    show (trial.budget.written j (trial.after j).task.options).get? retryIntervalKey = _
    rw [Budget.get?_written_interval]
    by_cases hgrows : 0 < trial.budget.interval ∧ 0 < trial.budget.growth
    · rw [if_pos hgrows, if_pos ⟨Nat.succ_pos j, hgrows⟩]
    · rw [if_neg hgrows, if_neg fun h => hgrows h.2, hspared, h.interval,
        if_neg fun h => hgrows h.2]
  growth := by
    have hspared : (trial.after j).task.options.get? retryIntervalAddKey = _ :=
      hspares retryIntervalAddKey (by decide) (trial.before j)
    show (trial.budget.written j (trial.after j).task.options).get? retryIntervalAddKey = _
    rw [Budget.get?_written_of_ne _ _ _ (by decide) (by decide), hspared, h.growth]
  sleeper hquiet := (hquiet.sleeper (trial.before j)).trans (h.sleeper hquiet)
  logger hquiet := (hquiet.logger (trial.before j)).trans (h.logger hquiet)
  waits hquiet := by
    have hwaits : (trial.after j).world.waits = _ :=
      (hquiet.waits (trial.before j)).trans (h.waits hquiet)
    have hsleeper : (trial.after j).task.sleeper = _ :=
      (hquiet.sleeper (trial.before j)).trans (h.sleeper hquiet)
    show (trial.after j).world.waits ++
      (trial.budget.waits j).map (⟨(trial.after j).task.sleeper, ·⟩) = _
    rw [hwaits, hsleeper, Budget.waits, List.append_assoc]
    congr 1
    by_cases hwait : 0 < trial.budget.interval
    · rw [if_pos hwait, if_pos hwait, if_pos hwait, List.range_succ, List.map_append]
      rfl
    · rw [if_neg hwait, if_neg hwait, if_neg hwait]
      rfl
  book hquiet := by
    have hbook : (trial.after j).world.book = _ :=
      (hquiet.book (trial.before j)).trans (h.book hquiet)
    have hlogger : (trial.after j).task.logger = _ :=
      (hquiet.logger (trial.before j)).trans (h.logger hquiet)
    show (trial.after j).world.book.recordAll (trial.after j).task.logger
      (trial.budget.lines j step.failure) = _
    rw [hbook, hlogger, ← LogBook.recordAll_append, List.range_succ, List.flatMap_append,
      List.flatMap_singleton, failure?_of_failed houtcome]
    rfl

section Run

variable (hheld : trial.budget.HeldBy trial.start.task.options)
  (hfits : trial.budget.Representable) (hspares : trial.SparesBudget)
  (hretried : ∀ j < k, trial.Retried j) (hlast : k ≤ trial.budget.retries)

include hheld hfits hspares hretried hlast

/-- **Before each attempt up to the last, the state stands as it should.** -/
theorem stands_before (hj : j ≤ k) : trial.Stands j (trial.before j) := by
  induction j with
  | zero => exact stands_start hheld
  | succ j ih =>
    obtain ⟨step, houtcome, -, -⟩ := hretried j hj
    rw [before_succ houtcome]
    exact (ih (Nat.le_of_succ_le hj)).paused hfits hspares (Nat.lt_of_lt_of_le hj hlast) houtcome

/-- Retrying reaches each attempt up to the last. -/
theorem retryFrom_before (hj : j ≤ k) (rest : Nat) :
    retryFrom (fun _ => attemptStep trial.profile trial.tryStep) (j + rest) 0 trial.start =
      retryFrom (fun _ => attemptStep trial.profile trial.tryStep) rest j (trial.before j) := by
  induction j generalizing rest with
  | zero => rw [Nat.zero_add, before]
  | succ j ih =>
    obtain ⟨step, houtcome, htransient, hvalid⟩ := hretried j hj
    -- what is left of the budget is read between the two attempts, so it has to be there
    have hpaused : afterFailure
        ⟨step.transient && trial.profile.retryValid (trial.after j).own step.failure, step.failure⟩
          (trial.after j) = (.done (), (trial.after j).paused trial.budget j step.failure) := by
      have hbefore := stands_before hheld hfits hspares hretried hlast (Nat.le_of_succ_le hj)
      refine afterFailure_paused (hspares.heldAfter hbefore.budget) hfits
        (Nat.lt_of_lt_of_le hj hlast) ?_
      rw [htransient, hvalid]
      rfl
    rw [show j + 1 + rest = j + (rest + 1) by omega, ih (Nat.le_of_succ_le hj), retryFrom,
      attemptStep_of_failed houtcome]
    dsimp only
    rw [hpaused, ← before_succ houtcome]

theorem retryFrom_last (hended : k = trial.budget.retries ∨ ¬trial.Retried k) (rest : Nat) :
    retryFrom (fun _ => attemptStep trial.profile trial.tryStep) (rest + 1) k (trial.before k) =
      ((trial.outcome k).mapFailure StepFailure.failure, trial.final k) := by
  have hbefore := stands_before hheld hfits hspares hretried hlast (Nat.le_refl k)
  by_cases hfailed : ∃ step, trial.outcome k = .failed step
  · obtain ⟨step, houtcome⟩ := hfailed
    have hfinal : afterFailure
        ⟨step.transient && trial.profile.retryValid (trial.after k).own step.failure, step.failure⟩
          (trial.after k) = (.failed step.failure, trial.final k) := by
      rw [final_of_failed houtcome]
      refine afterFailure_ended (hspares.heldAfter hbefore.budget) hfits hlast fun hretry => ?_
      rw [Bool.and_eq_true] at hretry
      exact hended.resolve_right fun hnot => hnot ⟨step, houtcome, hretry⟩
    rw [retryFrom, attemptStep_of_failed houtcome]
    dsimp only
    rw [hfinal, houtcome, Outcome.mapFailure]
  · have hnot : ∀ step, trial.outcome k ≠ .failed step := fun step h => hfailed ⟨step, h⟩
    rw [retryFrom, attemptStep_of_not_failed hnot, final_of_not_failed hnot]
    cases houtcome : trial.outcome k with
    | failed step => exact absurd houtcome (hnot step)
    | done value => rfl
    | panicked message => rfl
    | unfinished => rfl

end Run

/-! ### The last attempt -/

theorem exists_last (trial : Trial σ) (n : Nat) :
    ∃ k ≤ n, (∀ j < k, trial.Retried j) ∧ (k = n ∨ ¬trial.Retried k) := by
  -- by induction on the bound: one more attempt matters only if all before it are tried again
  induction n with
  | zero => exact ⟨0, Nat.le_refl 0, fun j hj => absurd hj (Nat.not_lt_zero j), Or.inl rfl⟩
  | succ n ih =>
    obtain ⟨k, hk, hretried, hended⟩ := ih
    by_cases hagain : trial.Retried k
    · have hkn : k = n := hended.resolve_right fun hnot => hnot hagain
      refine ⟨n + 1, Nat.le_refl _, fun j hj => ?_, Or.inl rfl⟩
      rcases Nat.lt_succ_iff_lt_or_eq.1 hj with hlt | rfl
      · exact hretried j (hkn ▸ hlt)
      · exact hkn ▸ hagain
    · exact ⟨k, Nat.le_succ_of_le hk, hretried, Or.inr hagain⟩

/-- **Retrying goes by the budget.**  One of the attempts is the last, at the latest the one that
finds the budget used up, and how retrying ends, what is waited, written back and logged follows
from its number. -/
theorem exists_concludes (trial : Trial σ)
    (hheld : trial.budget.HeldBy trial.start.task.options)
    (hfits : trial.budget.Representable) (hspares : trial.SparesBudget) :
    ∃ k, trial.Concludes k := by
  obtain ⟨k, hlast, hretried, hended⟩ := trial.exists_last trial.budget.retries
  have hstands := stands_before hheld hfits hspares hretried hlast (Nat.le_refl k)
  have hspared : ∀ key ∈ [retriesKey, retryIntervalKey, retryIntervalAddKey],
      (trial.final k).task.options.get? key = (trial.before k).task.options.get? key :=
    fun key hkey => (congrArg (OrderedMap.get? · key) (trial.options_final k)).trans
      (hspares key hkey (trial.before k))
  refine ⟨k, ⟨hretried, ⟨hlast, hended⟩, fun limit hlimit => ?_, fun count hcount => ?_, ?_, ?_, ?_,
    fun j hj => between_of_retried (hretried j hj), ⟨trial.waits_final k, trial.book_final k⟩,
    fun hquiet => ?_, fun hquiet => ?_⟩⟩
  · obtain ⟨rest, rfl⟩ := Nat.exists_eq_add_of_le hlimit
    rw [retryWith, show k.succ + rest = k + (rest + 1) by omega,
      retryFrom_before hheld hfits hspares hretried hlast (Nat.le_refl k),
      retryFrom_last hheld hfits hspares hretried hlast hended]
  · rw [own_final, after, hcount, hstands.attempts count hcount, Nat.add_assoc]
  · rw [hspared retriesKey (by decide), hstands.retries]
  · rw [hspared retryIntervalKey (by decide), hstands.interval, Budget.wait]
  · rw [hspared retryIntervalAddKey (by decide), hstands.growth]
  · rw [waits_final, after, hquiet.waits, hstands.waits hquiet]
    rfl
  · rw [book_final, after, hquiet.book, hquiet.logger, hstands.book hquiet, hstands.logger hquiet,
      LogBook.recordAll_append]

/-! #### A busy service -/

/-- A task that was given options, the first one of a process; its attempts are counted. -/
def counting (options : Options) : Running Nat :=
  ⟨(Running.atHome "Fetch").world, { (Running.atHome "Fetch").task with options }, 0⟩

/-- What a busy service answers. -/
def busy : StepFailure := .ofFailure (.ofMessage "busy")

/-- Attempts that find a service busy twice, and up to three more attempts three, four and five
seconds apart. -/
def twiceBusy : Trial Nat where
  profile := ⟨"Fetch", "", .empty, false, fun _ _ => true⟩
  tryStep r := (if r.own < 2 then .failed busy else .done .null, r.onOwn (· + 1))
  budget := ⟨3, 3, 1⟩
  start := counting (.ofList [(retriesKey, .string "3"), (retryIntervalKey, .ofNat 3),
    (retryIntervalAddKey, .ofNat 1)])

theorem twiceBusy_concludes :
    twiceBusy.budget.HeldBy twiceBusy.start.task.options ∧ twiceBusy.budget.Representable ∧
      twiceBusy.SparesBudget ∧ twiceBusy.Concludes 2 := by
  have hheld : twiceBusy.budget.HeldBy twiceBusy.start.task.options :=
    ⟨.decimal 3, .integer 3 (by decide), .integer 1 (by decide)⟩
  have hfits : twiceBusy.budget.Representable :=
    ⟨by decide, by decide, Binary64.isFinite_ofNat (by decide)⟩
  have hspares : twiceBusy.SparesBudget := fun key _ r => rfl
  obtain ⟨k, hk⟩ := exists_concludes twiceBusy hheld hfits hspares
  have hfirst : twiceBusy.Retried 0 ∧ twiceBusy.Retried 1 :=
    ⟨⟨busy, rfl, rfl, rfl⟩, ⟨busy, rfl, rfl, rfl⟩⟩
  have hthird : ¬twiceBusy.Retried 2 := by
    rintro ⟨step, houtcome, -⟩
    have hdone : twiceBusy.outcome 2 = .done .null := rfl
    rw [hdone] at houtcome
    cases houtcome
  have hk2 : k = 2 := by
    rcases Nat.lt_trichotomy k 2 with hlt | rfl | hgt
    · have hretried : twiceBusy.Retried k := by
        rcases Nat.le_one_iff_eq_zero_or_eq_one.1 (Nat.le_of_lt_succ hlt) with rfl | rfl
        · exact hfirst.1
        · exact hfirst.2
      have hthree : k = 3 := hk.last.2.resolve_right fun hnot => hnot hretried
      omega
    · rfl
    · exact absurd (hk.retried 2 hgt) hthird
  exact ⟨hheld, hfits, hspares, hk2 ▸ hk⟩

/-- Attempts that find a service busy, with no further ones, no wait, and a growth. -/
def alwaysBusy (growth : Nat) : Trial Nat where
  profile := ⟨"Fetch", "", .empty, false, fun _ _ => true⟩
  tryStep r := (.failed busy, r.onOwn (· + 1))
  budget := ⟨0, 0, growth⟩
  start := counting (.ofList [(retryIntervalAddKey, .string growth.repr)])

theorem heldBy_alwaysBusy (growth : Nat) :
    (alwaysBusy growth).budget.HeldBy (alwaysBusy growth).start.task.options :=
  ⟨.absent, .absent, .decimal growth⟩

/-- A growth that no number comes near to is not read, although it would not matter: in place of its
own failure, the attempt ends with that of reading the growth. -/
theorem not_concludes_alwaysBusy {growth : Nat}
    (h : (Binary64.ofNat growth).isFinite = false) (k : Nat) : ¬(alwaysBusy growth).Concludes k := by
  intro hk
  have hgrowth : (alwaysBusy growth).start.task.options.number? retryIntervalAddKey =
      .error (.notNumber retryIntervalAddKey (.string growth.repr)) := by
    show Options.numberOf retryIntervalAddKey (.string growth.repr) = _
    rw [Options.numberOf_repr, h]
    rfl
  have hread : RetrySettings.ofOptions
      (((alwaysBusy growth).after 0).log .warning busy.message).task.options =
        .error (.notNumber retryIntervalAddKey (.string growth.repr)) := by
    have hsame : (((alwaysBusy growth).after 0).log .warning busy.message).task.options =
      (alwaysBusy growth).start.task.options := rfl
    have hretries : (alwaysBusy growth).start.task.options.number? retriesKey = .ok none := rfl
    have hinterval : (alwaysBusy growth).start.task.options.number? retryIntervalKey = .ok none :=
      rfl
    rw [hsame, RetrySettings.ofOptions, hretries, hinterval, hgrowth]
    rfl
  have hattempt : attemptStep (alwaysBusy growth).profile (alwaysBusy growth).tryStep
      (alwaysBusy growth).start = (.failed busy, (alwaysBusy growth).after 0) := rfl
  have hk0 : k = 0 := Nat.le_zero.1 hk.last.1
  have hresult := congrArg Prod.fst (hk.result 1 (by omega))
  have hown : ((alwaysBusy growth).outcome 0).mapFailure StepFailure.failure =
    .failed busy.failure := rfl
  rw [hk0, retryWith, retryFrom, hattempt] at hresult
  dsimp only at hresult
  rw [afterFailure] at hresult
  dsimp only at hresult
  rw [hread, hown] at hresult
  -- the two failures have different messages
  have hmessage := congrArg (fun failure => failure.message.toList.head?)
    (Outcome.failed.inj hresult)
  simp [OptionError.failure, OptionError.message, Failure.ofMessage, busy, StepFailure.ofFailure,
    toString] at hmessage

theorem beyondNumbers_not_concludes :
    (alwaysBusy (tenTo 309)).budget.HeldBy (alwaysBusy (tenTo 309)).start.task.options ∧
      (alwaysBusy (tenTo 309)).budget.retries ≤ Binary64.largestWhole ∧
      (alwaysBusy (tenTo 309)).budget.wait (alwaysBusy (tenTo 309)).budget.retries ≤
        Binary64.largestWhole ∧
      (alwaysBusy (tenTo 309)).SparesBudget ∧ ∀ k, ¬(alwaysBusy (tenTo 309)).Concludes k := by
  have hwait : (alwaysBusy (tenTo 309)).budget.wait 0 ≤ Binary64.largestWhole := by
    rw [Budget.wait, Nat.zero_mul]
    exact Nat.zero_le _
  exact ⟨heldBy_alwaysBusy _, Nat.zero_le _, hwait, fun key _ r => rfl,
    not_concludes_alwaysBusy (by decide +kernel)⟩

end Trial

end TaskEngine
