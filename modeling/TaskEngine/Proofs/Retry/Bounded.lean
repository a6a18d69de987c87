import TaskEngine.Proofs.Retry.Reference

/-!
# Retrying comes to an end

An attempt may do as it likes with the state of its task, and so with the options that hold the
budget for retrying.  They are read again after every failure and written back before the next
attempt.  As long as no attempt that fails for the time being allows for more attempts than were
allowed for before it, the number that is read goes down with each attempt, whatever the other
options hold and in whatever form the number is written.

## Main definitions

* `RetrySettings.written` — what is written back before another attempt.
* `AllowsFor` — how many more attempts options allow for, as they are read.
* `NeverExtends` — attempts do not allow for more attempts than were allowed for.
* `Attempted` — retrying makes a certain attempt.
* `LastAttempt` — retrying ends with a certain attempt.

## Main results

* `afterFailure_cases` — what can happen between a failed attempt and the next.
* `Attempted.allowsFor` — the number of attempts allowed for goes down with each attempt.
* `exists_lastAttempt` — **retrying comes to an end within its budget.**
-/

namespace TaskEngine

variable {σ α : Type}

/-! ### Between two attempts -/

/-- Options with the wait before the next attempt written back, if there was a wait and it grows. -/
def RetrySettings.grown (settings : RetrySettings) (options : Options) : Options :=
  if settings.interval.isPositive ∧ settings.intervalAdd.isPositive then
    options.insert retryIntervalKey (numberValue (settings.interval.add settings.intervalAdd))
  else options

/-- Options with all that is written back before another attempt. -/
def RetrySettings.written (settings : RetrySettings) (options : Options) : Options :=
  (settings.grown options).insert retriesKey (numberValue (settings.retries.sub .one))

/-- Waiting does not touch the data of the task itself.  It may fail, and then it has written
nothing back. -/
theorem waitForRetry_cases (settings : RetrySettings) (r : Running σ) :
    (waitForRetry settings r).2.own = r.own ∧
      (((waitForRetry settings r).1 = .done () ∧
          (waitForRetry settings r).2.task.options = settings.grown r.task.options) ∨
        ((∃ failure, (waitForRetry settings r).1 = .failed failure) ∧
          (waitForRetry settings r).2.task.options = r.task.options)) := by
  unfold waitForRetry RetrySettings.grown
  split
  · rename_i hinterval
    cases Duration.ofBinary64? settings.interval with
    | none => exact ⟨rfl, .inr ⟨⟨_, rfl⟩, rfl⟩⟩
    | some wait =>
      dsimp only
      split
      · rename_i hgrowth
        have hgrows : settings.interval.isPositive = true ∧ settings.intervalAdd.isPositive = true :=
          ⟨hinterval, hgrowth⟩
        rw [if_pos hgrows]
        split
        · exact ⟨rfl, .inl ⟨rfl, rfl⟩⟩
        · exact ⟨rfl, .inr ⟨⟨_, rfl⟩, rfl⟩⟩
      · rename_i hgrowth
        rw [if_neg fun h => hgrowth h.2]
        exact ⟨rfl, .inl ⟨rfl, rfl⟩⟩
  · rename_i hinterval
    rw [if_neg fun h => hinterval h.1]
    exact ⟨rfl, .inl ⟨rfl, rfl⟩⟩

/-- **What can happen between a failed attempt and the next**: retrying ends with a failure and
leaves the options alone, or the failure was one for the time being, the options allowed for another
attempt, and they are left with one less. -/
theorem afterFailure_cases (step : StepFailure) (r : Running σ) :
    (afterFailure step r).2.own = r.own ∧
      (((∃ failure, (afterFailure step r).1 = .failed failure) ∧
          (afterFailure step r).2.task.options = r.task.options) ∨
        ((afterFailure step r).1 = .done () ∧ step.transient = true ∧
          ∃ settings, RetrySettings.ofOptions r.task.options = .ok settings ∧
            settings.retries.isPositive = true ∧
            (afterFailure step r).2.task.options = settings.written r.task.options)) := by
  have hlogged : (r.log .warning step.message).task.options = r.task.options := rfl
  unfold afterFailure
  dsimp only
  rw [hlogged]
  cases RetrySettings.ofOptions r.task.options with
  | error error => exact ⟨rfl, .inl ⟨⟨_, rfl⟩, rfl⟩⟩
  | ok settings =>
    dsimp only
    split
    · rename_i hagain
      rw [Bool.and_eq_true] at hagain
      obtain ⟨hown, hwait⟩ := waitForRetry_cases settings (r.log .warning step.message)
      rw [hlogged] at hwait
      generalize waitForRetry settings (r.log .warning step.message) = waited at hown hwait
      obtain ⟨outcome, after⟩ := waited
      dsimp only at hown hwait
      rcases hwait with ⟨rfl, hgrown⟩ | ⟨⟨failure, rfl⟩, hsame⟩
      · refine ⟨hown, .inr ⟨rfl, hagain.2, settings, rfl, hagain.1, ?_⟩⟩
        rw [RetrySettings.written, ← hgrown]
        rfl
      · exact ⟨hown, .inl ⟨⟨failure, rfl⟩, hsame⟩⟩
    · exact ⟨rfl, .inl ⟨⟨_, rfl⟩, rfl⟩⟩

/-- Only a failure for the time being is followed by another attempt. -/
theorem transient_of_pause {step : StepFailure} {after paused : Running σ}
    (h : afterFailure step after = (.done (), paused)) : step.transient = true := by
  obtain ⟨-, ⟨⟨failure, hfailed⟩, -⟩ | ⟨-, htransient, -⟩⟩ := afterFailure_cases step after
  · rw [h] at hfailed
    cases hfailed
  · exact htransient

/-! ### What options allow for -/

/-- How many more attempts options allow for, as they are read: a whole number, and none if they do
not say. -/
def AllowsFor (options : Options) (count : Int) : Prop :=
  ∃ read, options.number? retriesKey = .ok read ∧ (read.getD (.zero false)).IsWhole count

theorem AllowsFor.unique {options : Options} {a b : Int} (ha : AllowsFor options a)
    (hb : AllowsFor options b) : a = b := by
  obtain ⟨read, hread, ha⟩ := ha
  obtain ⟨read', hread', hb⟩ := hb
  rw [hread] at hread'
  cases hread'
  exact ha.unique hb

/-- A budget is made of three options that can be read. -/
theorem numbers_of_ofOptions {options : Options} {settings : RetrySettings}
    (h : RetrySettings.ofOptions options = .ok settings) :
    ∃ retries interval growth, options.number? retriesKey = .ok retries ∧
      options.number? retryIntervalKey = .ok interval ∧
      options.number? retryIntervalAddKey = .ok growth ∧
      settings = ⟨retries.getD (.zero false), interval.getD (.zero false),
        growth.getD (.zero false)⟩ := by
  unfold RetrySettings.ofOptions at h
  cases hretries : options.number? retriesKey with
  | error error =>
    rw [hretries] at h
    cases h
  | ok read =>
    rw [hretries] at h
    cases hinterval : options.number? retryIntervalKey with
    | error error =>
      rw [hinterval] at h
      cases h
    | ok interval =>
      rw [hinterval] at h
      cases hgrowth : options.number? retryIntervalAddKey with
      | error error =>
        rw [hgrowth] at h
        cases h
      | ok growth =>
        rw [hgrowth] at h
        cases h
        exact ⟨read, interval, growth, rfl, rfl, rfl, rfl⟩

theorem CountsAs.allowsFor {options : Options} {n : Nat} (h : CountsAs (options.get? retriesKey) n)
    (hn : n ≤ Binary64.largestWhole) : AllowsFor options n := by
  obtain ⟨read, hread, hvalue⟩ := h.number? (Binary64.isFinite_ofNat hn)
  exact ⟨read, hread, hvalue ▸ Binary64.isWhole_ofNat hn⟩

/-- A failed attempt leaves options that allow for no more attempts than before, or do not say how
many, or cannot be read. -/
def LeavesAtMost (count : Int) (options : Options) : Prop :=
  (∃ left ≤ count, AllowsFor options left) ∨ options.number? retriesKey = .ok none ∨
    ∃ error, options.number? retriesKey = .error error

/-- Attempts that fail for the time being do not allow for more attempts than were allowed for. -/
def NeverExtends (attempt : Nat → Act σ StepFailure α) : Prop :=
  ∀ j r step after, attempt j r = (.failed step, after) → step.transient = true →
    ∀ count, AllowsFor r.task.options count → LeavesAtMost count after.task.options

/-- **From one attempt to the next**, the number of attempts allowed for goes down at least by
one. -/
theorem allowsFor_afterFailure {step : StepFailure} {after paused : Running σ}
    (h : afterFailure step after = (.done (), paused)) {n : Nat} (hn : n ≤ Binary64.largestWhole)
    (hleaves : LeavesAtMost n after.task.options) :
    ∃ left < n, AllowsFor after.task.options ((left + 1 : Nat) : Int) ∧
      AllowsFor paused.task.options left := by
  obtain ⟨-, ⟨⟨failure, hfailed⟩, -⟩ | ⟨-, -, settings, hsettings, hpositive, hwritten⟩⟩ :=
    afterFailure_cases step after
  · rw [h] at hfailed
    cases hfailed
  · obtain ⟨read, interval, growth, hread, -, -, rfl⟩ := numbers_of_ofOptions hsettings
    have hwritten : paused.task.options.get? retriesKey =
        some (numberValue ((read.getD (.zero false)).sub .one)) := by
      rw [h] at hwritten
      rw [hwritten]
      exact OrderedMap.get?_insert_self _ _ _
    rcases hleaves with ⟨count, hcount, read', hread', hwhole⟩ | hnone | ⟨error, herror⟩
    · rw [hread] at hread'
      cases hread'
      have hpos := hwhole.pos_of_isPositive hpositive
      obtain ⟨left, rfl⟩ : ∃ left : Nat, count = (left + 1 : Nat) :=
        ⟨(count - 1).toNat, by omega⟩
      have hleft : left + 1 ≤ Binary64.largestWhole := by omega
      have hle : left ≤ Binary64.largestWhole := by omega
      have hnumber : read.getD (.zero false) = Binary64.ofNat (left + 1) :=
        hwhole.eq_ofNat (Nat.succ_pos left)
      rw [hnumber, Binary64.sub_one_ofNat hleft, numberValue_ofNat hle] at hwritten
      have hcounts : CountsAs (paused.task.options.get? retriesKey) left :=
        hwritten ▸ countsAs_ofNat hle
      exact ⟨left, by omega, ⟨read, hread, hwhole⟩, hcounts.allowsFor hle⟩
    · rw [hread] at hnone
      cases hnone
      exact absurd hpositive Bool.false_ne_true
    · rw [hread] at herror
      cases herror

/-! ### The attempts that are made -/

/-- Retrying makes a `j`-th attempt, counted from zero, and this is what it works on. -/
inductive Attempted (attempt : Nat → Act σ StepFailure α) (start : Running σ) :
    Nat → Running σ → Prop
  /-- There is a first attempt. -/
  | first : Attempted attempt start 0 start
  /-- Another one follows a failure if what comes after the failure succeeds. -/
  | next {j : Nat} {r after paused : Running σ} {step : StepFailure}
      (before : Attempted attempt start j r) (failed : attempt j r = (.failed step, after))
      (pause : afterFailure step after = (.done (), paused)) :
      Attempted attempt start (j + 1) paused

section Attempts

variable {attempt : Nat → Act σ StepFailure α} {start r r' : Running σ} {j k n : Nat}

theorem Attempted.exists_of_le (h : Attempted attempt start k r) (hle : j ≤ k) :
    ∃ r, Attempted attempt start j r := by
  induction h with
  | first =>
    obtain rfl := Nat.le_zero.1 hle
    exact ⟨start, .first⟩
  | @next k r after paused step before failed pause ih =>
    rcases Nat.lt_or_eq_of_le hle with hlt | rfl
    · exact ih (Nat.le_of_lt_succ hlt)
    · exact ⟨paused, before.next failed pause⟩

theorem Attempted.unique (h : Attempted attempt start j r) (h' : Attempted attempt start j r') :
    r = r' := by
  induction h generalizing r' with
  | first =>
    cases h'
    rfl
  | next _ failed pause ih =>
    cases h' with
    | next before' failed' pause' =>
      obtain rfl := ih before'
      rw [failed] at failed'
      cases failed'
      rw [pause] at pause'
      cases pause'
      rfl

/-- Retrying gets to each attempt that it makes, whatever the bound. -/
theorem Attempted.retryFrom_eq (h : Attempted attempt start j r) (limit : Nat) :
    retryFrom attempt (j + limit) 0 start = retryFrom attempt limit j r := by
  induction h generalizing limit with
  | first => rw [Nat.zero_add]
  | @next j r after paused step _ failed pause ih =>
    rw [show j + 1 + limit = j + (limit + 1) by omega, ih, retryFrom, failed]
    dsimp only
    rw [pause]

/-- Whatever counts attempts has counted those before. -/
theorem Attempted.count_eq (h : Attempted attempt start j r) {count : σ → Nat}
    (hcount : ∀ j r, count (attempt j r).2.own = count r.own + 1) :
    count r.own = count start.own + j := by
  induction h with
  | first => rfl
  | @next j r after paused step _ failed pause ih =>
    have hown := (afterFailure_cases step after).1
    have hmade := hcount j r
    rw [pause] at hown
    rw [failed] at hmade
    dsimp only at hown hmade
    rw [hown, hmade, ih]
    omega

variable (hextends : NeverExtends attempt)

include hextends

/-- **The number of attempts allowed for goes down with each attempt.**  By induction on the later
attempt, from the earlier one on. -/
theorem Attempted.allowsFor (hearlier : Attempted attempt start j r)
    (hn : n ≤ Binary64.largestWhole) (hreads : AllowsFor r.task.options n)
    (hle : j ≤ k) (hlater : Attempted attempt start k r') :
    ∃ left : Nat, AllowsFor r'.task.options left ∧ left + k ≤ n + j := by
  induction k, hle using Nat.le_induction generalizing r' with
  | base =>
    obtain rfl := hearlier.unique hlater
    exact ⟨n, hreads, Nat.le_refl _⟩
  | succ k hle ih =>
    cases hlater with
    | next before failed pause =>
      obtain ⟨allowed, hallowed, hsum⟩ := ih before
      have hleaves := hextends _ _ _ _ failed (transient_of_pause pause) _ hallowed
      obtain ⟨left, hlt, -, hleft⟩ := allowsFor_afterFailure pause (by omega) hleaves
      exact ⟨left, hleft, by omega⟩

end Attempts

/-- Retrying ends with its `k`-th attempt. -/
structure LastAttempt (attempt : Nat → Act σ StepFailure α) (start : Running σ) (k : Nat) :
    Prop where
  /-- The attempt is made. -/
  made : ∃ r, Attempted attempt start k r
  /-- No further attempt is made. -/
  last : ∀ r, ¬Attempted attempt start (k + 1) r
  /-- No larger bound makes a difference. -/
  result : ∀ limit, k < limit → retryWith limit attempt start = retryWith (k + 1) attempt start
  /-- Retrying is over, unless it is the attempt that does not come to an end. -/
  finished : (∀ j r, (attempt j r).1 ≠ .unfinished) →
    (retryWith (k + 1) attempt start).1 ≠ .unfinished
  /-- Whatever counts attempts has counted `k + 1` of them in the end. -/
  attempts : ∀ count : σ → Nat, (∀ j r, count (attempt j r).2.own = count r.own + 1) →
    count (retryWith (k + 1) attempt start).2.own = count start.own + (k + 1)

section Last

variable {attempt : Nat → Act σ StepFailure α} {start r : Running σ} {k n : Nat}

/-- With its last attempt retrying is over: by the cases of how that attempt can end. -/
theorem retryFrom_last (hmade : Attempted attempt start k r)
    (hlast : ∀ r, ¬Attempted attempt start (k + 1) r) (limit : Nat) :
    retryFrom attempt (limit + 1) k r = retryFrom attempt 1 k r ∧
      (retryFrom attempt 1 k r).2.own = (attempt k r).2.own ∧
      ((attempt k r).1 ≠ .unfinished → (retryFrom attempt 1 k r).1 ≠ .unfinished) := by
  cases hattempt : attempt k r with
  | mk outcome after =>
    cases outcome with
    | done value | panicked message =>
      simp only [retryFrom, hattempt]
      exact ⟨trivial, trivial, by rintro - ⟨⟩⟩
    | unfinished =>
      simp only [retryFrom, hattempt]
      exact ⟨trivial, trivial, fun h => absurd rfl h⟩
    | failed step =>
      obtain ⟨hown, hcases⟩ := afterFailure_cases step after
      cases hpause : afterFailure step after with
      | mk ended paused =>
        rw [hpause] at hown hcases
        dsimp only at hown hcases
        rcases hcases with ⟨⟨failure, rfl⟩, -⟩ | ⟨rfl, -⟩
        · simp only [retryFrom, hattempt, hpause]
          exact ⟨trivial, hown, by rintro - ⟨⟩⟩
        · exact absurd (hmade.next hattempt hpause) (hlast paused)

theorem lastAttempt_of_made (hmade : Attempted attempt start k r)
    (hlast : ∀ r, ¬Attempted attempt start (k + 1) r) : LastAttempt attempt start k := by
  have hreach : ∀ limit, retryWith (k + limit) attempt start = retryFrom attempt limit k r :=
    hmade.retryFrom_eq
  refine ⟨⟨r, hmade⟩, hlast, fun limit hlimit => ?_, fun hends => ?_, fun count hcount => ?_⟩
  · obtain ⟨rest, rfl⟩ := Nat.exists_eq_add_of_le hlimit
    rw [show k.succ + rest = k + (rest + 1) by omega, hreach, hreach]
    exact (retryFrom_last hmade hlast rest).1
  · rw [hreach]
    exact (retryFrom_last hmade hlast 0).2.2 (hends k r)
  · rw [hreach, (retryFrom_last hmade hlast 0).2.1, hcount, hmade.count_eq hcount]
    omega

/-- Where the attempts that are made have bounded numbers, one of them is the last. -/
theorem exists_lastAttempt_of_le (hbound : ∀ j r, Attempted attempt start j r → j ≤ n) :
    ∃ k ≤ n, LastAttempt attempt start k := by
  by_contra hnone
  -- without a last one, there is one beyond the bound
  have hall : ∀ j ≤ n + 1, ∃ r, Attempted attempt start j r := by
    intro j
    induction j with
    | zero => exact fun _ => ⟨start, .first⟩
    | succ j ih =>
      intro hj
      obtain ⟨r, hmade⟩ := ih (by omega)
      by_contra hlast
      exact hnone ⟨j, by omega, lastAttempt_of_made hmade fun r hr => hlast ⟨r, hr⟩⟩
  obtain ⟨r, hmade⟩ := hall (n + 1) (Nat.le_refl _)
  have := hbound _ _ hmade
  omega

/-- **Retrying comes to an end within its budget.**  If the options allow for `n` more attempts, and
no attempt that fails for the time being allows for more than were allowed for before it, one of the
first `n + 1` attempts is the last.  And behind each attempt that fails for the time being and
leaves options that allow for `m` more, at most `m` more are made. -/
theorem exists_lastAttempt (hextends : NeverExtends attempt) (hn : n ≤ Binary64.largestWhole)
    (hstart : AllowsFor start.task.options n) :
    ∃ k ≤ n, LastAttempt attempt start k ∧
      ∀ j ≤ k, ∀ r step after, Attempted attempt start j r →
        attempt j r = (.failed step, after) → step.transient = true →
        ∀ m : Nat, 0 < m → AllowsFor after.task.options m → k ≤ j + m := by
  have hbound : ∀ j r, Attempted attempt start j r → j ≤ n := by
    intro j r hmade
    obtain ⟨left, -, hle⟩ := Attempted.allowsFor hextends .first hn hstart (Nat.zero_le j) hmade
    omega
  obtain ⟨k, hk, hlast⟩ := exists_lastAttempt_of_le hbound
  refine ⟨k, hk, hlast, fun j hj r step after hmade hfailed htransient m hm hallows => ?_⟩
  obtain ⟨allowed, hallowed, hsum⟩ :=
    Attempted.allowsFor hextends .first hn hstart (Nat.zero_le j) hmade
  rcases Nat.lt_or_ge k (j + 1) with hlt | hge
  · omega
  · obtain ⟨last, hmadeLast⟩ := hlast.made
    obtain ⟨paused, hmadeNext⟩ := hmadeLast.exists_of_le hge
    cases hmadeNext with
    | @next _ r' _ _ _ before failed pause =>
      obtain rfl := hmade.unique before
      rw [hfailed] at failed
      cases failed
      -- what the failed attempt leaves is what the next one starts from, less one
      have hleaves := hextends _ _ _ _ hfailed htransient _ hallowed
      obtain ⟨left, hlt, hread, hleft⟩ := allowsFor_afterFailure pause (by omega) hleaves
      have hm := hallows.unique hread
      obtain ⟨rest, -, hrest⟩ :=
        Attempted.allowsFor hextends (before.next hfailed pause) (by omega) hleft hge hmadeLast
      omega

end Last

/-! ### Attempts that give up early -/

/-- An attempt that finds a service busy, and allows for one more attempt only if it was one of the
first. -/
def givingUp (_ : Nat) : Act Nat StepFailure Value := fun r =>
  (.failed Trial.busy, (match r.task.options.get? retriesKey with
    | some (.string "3") => r.onTask (·.setOption retriesKey (.string "1"))
    | _ => r).onOwn (· + 1))

/-- The first such attempt, with three more allowed for. -/
def threeMore : Running Nat := Trial.counting (.ofList [(retriesKey, .string "3")])

theorem neverExtends_givingUp : NeverExtends givingUp := by
  rintro j r step after hattempt - count hcount
  cases hattempt
  left
  split
  · rename_i hthree
    have hcounts : CountsAs (r.task.options.get? retriesKey) 3 := hthree ▸ .decimal 3
    obtain rfl := hcount.unique (hcounts.allowsFor (by decide))
    refine ⟨1, by decide, CountsAs.allowsFor (n := 1) ?_ (by decide)⟩
    show CountsAs ((r.task.options.insert retriesKey _).get? retriesKey) 1
    rw [OrderedMap.get?_insert_self]
    exact .decimal 1
  · exact ⟨count, Int.le_refl _, hcount⟩

/-- Three more attempts are allowed for at first, but one of them is made. -/
theorem exists_lastAttempt_givingUp :
    NeverExtends givingUp ∧ 3 ≤ Binary64.largestWhole ∧ AllowsFor threeMore.task.options 3 ∧
      LastAttempt givingUp threeMore 1 := by
  have hthree : AllowsFor threeMore.task.options (3 : Nat) :=
    CountsAs.allowsFor (.decimal 3) (by decide)
  obtain ⟨k, -, hlast, hmore⟩ := exists_lastAttempt neverExtends_givingUp (by decide) hthree
  have hone : AllowsFor (givingUp 0 threeMore).2.task.options (1 : Nat) :=
    CountsAs.allowsFor (.decimal 1) (by decide)
  have hle := hmore 0 (Nat.zero_le k) _ _ _ .first rfl rfl 1 Nat.one_pos hone
  have hleft : Budget.HeldBy ⟨1, 0, 0⟩ (givingUp 0 threeMore).2.task.options :=
    ⟨.decimal 1, .absent, .absent⟩
  have hfits : Budget.Representable ⟨1, 0, 0⟩ :=
    ⟨by decide, by decide, Binary64.isFinite_ofNat (Nat.zero_le _)⟩
  have hsecond : Attempted givingUp threeMore 1 _ :=
    Attempted.first.next rfl (afterFailure_paused hleft.heldAfter hfits Nat.one_pos rfl)
  obtain rfl : k = 1 := by
    rcases Nat.le_one_iff_eq_zero_or_eq_one.1 hle with rfl | rfl
    · exact absurd hsecond (hlast.last _)
    · rfl
  exact ⟨neverExtends_givingUp, by decide, hthree, hlast⟩

end TaskEngine
