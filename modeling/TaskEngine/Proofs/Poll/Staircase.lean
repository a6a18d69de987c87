import TaskEngine.Proofs.Calls.Moments
import TaskEngine.Proofs.Log.Recorded

/-!
# The staircase of polling

Three numbers are kept while a task polls: how often it has looked, how often the wait has grown,
and the wait itself.  They are changed at different points of a round, but as long as the looks leave
them alone they are in step: the wait behind a look, and all that is logged about it, follows from
the number of the look.

Looks are counted from zero, so the one of number `k` is the last of `k + 1`.

## Main definitions

* `PollState.during` — the numbers during a look.
* `Running.waited` — what a look leaves to the next one, with the wait between them.
* `Watch` — looks, and what is worked on at first.
* `Watch.EndsAt` — a look is the first that fails or finds what is awaited.
* `Watch.Climbs` — all that follows from the number of that look.

## Main results

* `ticked_waitForPoll` — from one look to the next.
* `Watch.poll_before` — the numbers are in step during each look.
* `Watch.climbs_again` — **polling climbs the staircase up to the look with which it ends.**
-/

namespace TaskEngine

variable {σ : Type}

/-! ### From one look to the next -/

namespace PollState

/-- The state of waiting during the look of number `n`. -/
def during (n : Nat) : PollState := ⟨false, n + 1, n / 3, n / 3 + 1⟩

/-- The wait grows behind every third look. -/
theorem grow?_during (n : Nat) :
    (during n).grow? =
      if (n + 1) % 3 = 0 then some ⟨false, n + 1, n / 3 + 1, n / 3 + 2⟩ else none := by
  simp only [grow?, during, gt_iff_lt]
  by_cases h : (n + 1) % 3 = 0
  · rw [if_pos h, if_pos (by omega)]
  · rw [if_neg h, if_neg (by omega)]

/-- One more look makes of a state of waiting that of the next look, if the wait has grown when it
was time. -/
theorem tick_grown (n : Nat) (h : (n + 1) % 3 = 0) :
    tick ⟨false, n + 1, n / 3 + 1, n / 3 + 2⟩ = during (n + 1) := by
  have hlevel : n / 3 + 1 = (n + 1) / 3 := by omega
  rw [tick, during, ← hlevel]

theorem tick_during (n : Nat) (h : (n + 1) % 3 ≠ 0) : tick (during n) = during (n + 1) := by
  have hlevel : n / 3 = (n + 1) / 3 := by omega
  rw [tick, during, during, ← hlevel]

end PollState

/-- The lines that are logged behind the wait after the look of number `n`. -/
def risingLines (n : Nat) : List (LogLevel × String) :=
  if (n + 1) % 3 = 0 then
    [(.info, "Increased polling interval to " ++ ((n + 1) / 3 + 1).repr ++ " seconds")]
  else []

/-- What the next look works on when the one of number `n` has not found what is awaited. -/
def Running.waited (r : Running σ) (n : Nat) : Running σ :=
  { r with
    world := { r.world with
      book := r.world.book.recordAll r.task.logger (risingLines n)
      waits := r.world.waits ++ [⟨r.task.sleeper, .ofSeconds (1 + n / 3)⟩] }
    task := { r.task with poll := .during (n + 1) } }

/-- Polling begun anew. -/
def Running.pollingReset (r : Running σ) : Running σ :=
  r.onTask fun task => { task with poll := .initial }

/-- **From one look to the next**, if the numbers are in step. -/
theorem ticked_waitForPoll {r : Running σ} {n : Nat} (h : r.task.poll = .during n) :
    (waitForPoll r).ticked = r.waited n := by
  have hslept : (r.sleep (Duration.ofSeconds r.task.poll.interval)).task.poll = .during n := h
  have hwait : r.task.poll.interval = 1 + n / 3 := by
    rw [h, PollState.during]
    exact Nat.add_comm _ _
  rw [waitForPoll, hslept, PollState.grow?_during, hwait]
  by_cases htime : (n + 1) % 3 = 0
  · have hlevel : n / 3 + 2 = (n + 1) / 3 + 1 := by omega
    rw [if_pos htime]
    dsimp only
    rw [Running.waited, risingLines, if_pos htime, ← PollState.tick_grown n htime, ← hlevel]
    rfl
  · rw [if_neg htime]
    dsimp only
    rw [Running.waited, risingLines, if_neg htime, ← PollState.tick_during n htime, ← h]
    rfl

section Round

variable {look : Nat → Act σ StepFailure Value} {r after : Running σ} {n : Nat} {value : Value}

/-- A look that does not find what is awaited is followed by the next round. -/
theorem pollFrom_of_open (hlook : look n r.ticked = (.done value, after))
    (hopen : after.task.poll.complete = false) (limit : Nat) :
    pollFrom look (limit + 1) n r = pollFrom look limit (n + 1) (waitForPoll after) := by
  have hlook : look n (r.onTask fun task => { task with poll := task.poll.tick }) = _ := hlook
  rw [pollFrom, hlook]
  dsimp only
  rw [hopen, if_neg Bool.false_ne_true]

/-- A look that finds it ends the polling. -/
theorem pollFrom_of_found (hlook : look n r.ticked = (.done value, after))
    (hfound : after.task.poll.complete = true) (limit : Nat) :
    pollFrom look (limit + 1) n r = (.done (), after) := by
  have hlook : look n (r.onTask fun task => { task with poll := task.poll.tick }) = _ := hlook
  rw [pollFrom, hlook]
  dsimp only
  rw [if_pos hfound]

/-- So does a look that fails; its failure is logged. -/
theorem pollFrom_of_failed {step : StepFailure} (hlook : look n r.ticked = (.failed step, after))
    (limit : Nat) :
    pollFrom look (limit + 1) n r =
      (.failed step.failure,
        after.log .warning ("Poll action failed: " ++ step.failure.detailed)) := by
  have hlook : look n (r.onTask fun task => { task with poll := task.poll.tick }) = _ := hlook
  rw [pollFrom, hlook]
  rfl

end Round

/-! ### The looks of a run -/

/-- Looks, and what is worked on at first. -/
structure Watch (σ : Type) where
  /-- The look of each number. -/
  look : Nat → Act σ StepFailure Value
  /-- What is worked on at first. -/
  start : Running σ

namespace Watch

variable (watch : Watch σ)

/-- What is worked on when the round of number `j` begins: what the look before has left behind, and
the wait. -/
def round (watch : Watch σ) : Nat → Running σ
  | 0 => watch.start
  | j + 1 => waitForPoll (watch.look j (watch.round j).ticked).2

/-- What the look of number `j` works on; it has been counted. -/
def before (j : Nat) : Running σ := (watch.round j).ticked

/-- How the look of number `j` ends. -/
def outcome (j : Nat) : Outcome StepFailure Value := (watch.look j (watch.before j)).1

/-- What the look of number `j` leaves. -/
def after (j : Nat) : Running σ := (watch.look j (watch.before j)).2

/-- The failure of the look of number `j`, if it fails. -/
def failure? (j : Nat) : Option Failure := match watch.outcome j with
  | .failed step => some step.failure
  | _ => none

/-- The look of number `k` is the first that fails or finds that the awaited thing has happened. -/
structure EndsAt (k : Nat) : Prop where
  /-- No look before fails or finds that. -/
  goesOn : ∀ j < k, (∃ value, watch.outcome j = .done value) ∧
    (watch.after j).task.poll.complete = false
  /-- This one does. -/
  ends : (∃ step, watch.outcome k = .failed step) ∨
    (∃ value, watch.outcome k = .done value) ∧ (watch.after k).task.poll.complete = true

/-- Looks touch the state of waiting only to mark that the awaited thing has happened. -/
def OnlyMarks : Prop :=
  ∀ j r, (watch.look j r).2.task.poll = r.task.poll ∨
    (watch.look j r).2.task.poll = r.task.poll.markComplete

/-- Looks neither log nor wait, and keep the logger and the way of waiting. -/
structure Quiet : Prop where
  /-- What is logged. -/
  book : ∀ j r, (watch.look j r).2.world.book = r.world.book
  /-- The waits. -/
  waits : ∀ j r, (watch.look j r).2.world.waits = r.world.waits
  /-- Who logs. -/
  logger : ∀ j r, (watch.look j r).2.task.logger = r.task.logger
  /-- How the task waits. -/
  sleeper : ∀ j r, (watch.look j r).2.task.sleeper = r.task.sleeper

/-- The lines that are logged behind the look of number `k` if polling ends with it: one warning
with all messages of its failure, if it has failed. -/
def failureLines (k : Nat) : List (LogLevel × String) := match watch.failure? k with
  | some failure => [(.warning, "Poll action failed: " ++ failure.detailed)]
  | none => []

/-- What is left in the end, if the look of number `k` is the last. -/
def final (k : Nat) : Running σ :=
  (watch.after k).onWorld fun world =>
    { world with book := world.book.recordAll (watch.after k).task.logger (watch.failureLines k) }

/-- Polling ends with the look of number `k`, and has climbed so far. -/
structure Climbs (k : Nat) : Prop where
  /-- It ends as that look does, with its own failure if it fails. -/
  result : ∀ limit, k < limit → pollWith limit watch.look watch.start =
    (((watch.outcome k).map fun _ => ()).mapFailure StepFailure.failure, watch.final k)
  /-- Whatever counts looks counts `k + 1` of them. -/
  looks : ∀ count : σ → Nat, (∀ j r, count (watch.look j r).2.own = count r.own + 1) →
    count (watch.final k).own = count watch.start.own + (k + 1)
  /-- So does the state of waiting. -/
  count : (watch.final k).task.poll.count = k + 1
  /-- The wait has grown so often. -/
  level : (watch.final k).task.poll.intervalLevel = k / 3
  /-- And this is what it has grown to. -/
  interval : (watch.final k).task.poll.interval = k / 3 + 1
  /-- At no look did the count leave its word of 32 bits. -/
  fits : ∀ j ≤ k, (watch.before j).task.poll.count < UInt32.size
  /-- Between two looks there is nothing but one wait, whose length and lines follow from the number
  of the look before. -/
  between : ∀ j < k, watch.before (j + 1) = (watch.after j).waited j
  /-- If looks do not wait themselves, these are all waits. -/
  waits : watch.Quiet → (watch.final k).world.waits = watch.start.world.waits ++
    (List.range k).map fun j => ⟨watch.start.task.sleeper, .ofSeconds (1 + j / 3)⟩
  /-- If looks do not log themselves, these are all lines. -/
  log : watch.Quiet → (watch.final k).world.book = watch.start.world.book.recordAll
    watch.start.task.logger ((List.range k).flatMap risingLines ++ watch.failureLines k)

variable {watch} {j k : Nat}

/-- A look that does not find what is awaited has not touched the state of waiting. -/
theorem poll_after (hmarks : watch.OnlyMarks)
    (hopen : (watch.after j).task.poll.complete = false) :
    (watch.after j).task.poll = (watch.before j).task.poll := by
  rcases hmarks j (watch.before j) with hsame | hmarked
  · exact hsame
  · rw [after, hmarked] at hopen
    cases hopen

/-- A look does not touch the numbers in any case. -/
theorem numbers_after (hmarks : watch.OnlyMarks) :
    (watch.after j).task.poll.count = (watch.before j).task.poll.count ∧
      (watch.after j).task.poll.intervalLevel = (watch.before j).task.poll.intervalLevel ∧
      (watch.after j).task.poll.interval = (watch.before j).task.poll.interval := by
  rw [after]
  rcases hmarks j (watch.before j) with hpoll | hpoll
  · rw [hpoll]
    exact ⟨rfl, rfl, rfl⟩
  · rw [hpoll]
    exact ⟨rfl, rfl, rfl⟩

section Run

variable (hstart : watch.start.task.poll = .initial) (hmarks : watch.OnlyMarks)
  (hopen : ∀ j < k, (watch.after j).task.poll.complete = false)

include hstart hmarks hopen

/-- **The numbers are in step during each look.**  By induction on the look: what is in step during
one is so behind the wait that follows it. -/
theorem poll_before (hj : j ≤ k) : (watch.before j).task.poll = .during j := by
  induction j with
  | zero =>
    show watch.start.task.poll.tick = .during 0
    rw [hstart]
    rfl
  | succ j ih =>
    have hafter : (watch.after j).task.poll = .during j :=
      (poll_after hmarks (hopen j hj)).trans (ih (Nat.le_of_succ_le hj))
    show (waitForPoll (watch.after j)).ticked.task.poll = _
    rw [ticked_waitForPoll hafter]
    rfl

theorem before_succ (hj : j < k) : watch.before (j + 1) = (watch.after j).waited j := by
  have hafter : (watch.after j).task.poll = .during j :=
    (poll_after hmarks (hopen j hj)).trans
      (poll_before hstart hmarks hopen (Nat.le_of_lt hj))
  exact ticked_waitForPoll hafter

end Run

/-- Polling comes to each round up to the one of the last look. -/
theorem pollFrom_round (hends : watch.EndsAt k) (hj : j ≤ k) (rest : Nat) :
    pollFrom watch.look (j + rest) 0 watch.start =
      pollFrom watch.look rest j (watch.round j) := by
  induction j generalizing rest with
  | zero => rw [Nat.zero_add, round]
  | succ j ih =>
    obtain ⟨⟨value, houtcome⟩, hopen⟩ := hends.goesOn j hj
    have hlook : watch.look j (watch.round j).ticked = (.done value, watch.after j) :=
      Prod.ext houtcome rfl
    rw [show j + 1 + rest = j + (rest + 1) by omega, ih (Nat.le_of_succ_le hj),
      pollFrom_of_open hlook hopen]
    rfl

/-- In its last round polling ends as the look does. -/
theorem pollFrom_last (hends : watch.EndsAt k) (rest : Nat) :
    pollFrom watch.look (rest + 1) k (watch.round k) =
      (((watch.outcome k).map fun _ => ()).mapFailure StepFailure.failure, watch.final k) := by
  rcases hends.ends with ⟨step, houtcome⟩ | ⟨⟨value, houtcome⟩, hfound⟩
  · have hlook : watch.look k (watch.round k).ticked = (.failed step, watch.after k) :=
      Prod.ext houtcome rfl
    have hlines : watch.failureLines k =
        [(.warning, "Poll action failed: " ++ step.failure.detailed)] := by
      rw [failureLines, failure?, houtcome]
    rw [pollFrom_of_failed hlook, final, hlines, houtcome]
    rfl
  · have hlook : watch.look k (watch.round k).ticked = (.done value, watch.after k) :=
      Prod.ext houtcome rfl
    have hlines : watch.failureLines k = [] := by rw [failureLines, failure?, houtcome]
    rw [pollFrom_of_found hlook hfound, final, hlines, houtcome]
    rfl

/-- What has become of the state before the look of number `j`. -/
structure Stands (watch : Watch σ) (j : Nat) : Prop where
  /-- As many looks were made. -/
  looks : ∀ count : σ → Nat, (∀ j r, count (watch.look j r).2.own = count r.own + 1) →
    count (watch.before j).own = count watch.start.own + j
  /-- The task waits in the same way. -/
  sleeper : watch.Quiet → (watch.before j).task.sleeper = watch.start.task.sleeper
  /-- The same logger records. -/
  logger : watch.Quiet → (watch.before j).task.logger = watch.start.task.logger
  /-- Each look was followed by its wait. -/
  waits : watch.Quiet → (watch.before j).world.waits = watch.start.world.waits ++
    (List.range j).map fun i => ⟨watch.start.task.sleeper, .ofSeconds (1 + i / 3)⟩
  /-- And by its lines. -/
  book : watch.Quiet → (watch.before j).world.book =
    watch.start.world.book.recordAll watch.start.task.logger ((List.range j).flatMap risingLines)

theorem stands_start (watch : Watch σ) : watch.Stands 0 where
  looks _ _ := rfl
  sleeper _ := rfl
  logger _ := rfl
  waits _ := by
    rw [List.range_zero, List.map_nil, List.append_nil]
    rfl
  book _ := rfl

/-- From one look to the next. -/
theorem Stands.next (h : watch.Stands j) (hnext : watch.before (j + 1) = (watch.after j).waited j) :
    watch.Stands (j + 1) := by
  refine ⟨fun count hcount => ?_, fun hquiet => ?_, fun hquiet => ?_, fun hquiet => ?_,
    fun hquiet => ?_⟩
  · rw [hnext]
    show count (watch.after j).own = _
    rw [after, hcount, h.looks count hcount, Nat.add_assoc]
  · rw [hnext]
    exact (hquiet.sleeper j _).trans (h.sleeper hquiet)
  · rw [hnext]
    exact (hquiet.logger j _).trans (h.logger hquiet)
  · have hwaits : (watch.after j).world.waits = _ := (hquiet.waits j _).trans (h.waits hquiet)
    have hsleeper : (watch.after j).task.sleeper = _ :=
      (hquiet.sleeper j _).trans (h.sleeper hquiet)
    rw [hnext, Running.waited, hwaits, hsleeper, List.append_assoc, List.range_succ,
      List.map_append]
    rfl
  · have hbook : (watch.after j).world.book = _ := (hquiet.book j _).trans (h.book hquiet)
    have hlogger : (watch.after j).task.logger = _ := (hquiet.logger j _).trans (h.logger hquiet)
    rw [hnext, Running.waited, hbook, hlogger, ← LogBook.recordAll_append, List.range_succ,
      List.flatMap_append, List.flatMap_singleton]

/-- Before each look up to the last, the state stands as it should. -/
theorem stands_before (hnext : ∀ j < k, watch.before (j + 1) = (watch.after j).waited j)
    (hj : j ≤ k) : watch.Stands j := by
  induction j with
  | zero => exact stands_start watch
  | succ j ih => exact (ih (Nat.le_of_succ_le hj)).next (hnext j hj)

/-- Polling that starts anew climbs up to the look with which it ends. -/
theorem EndsAt.climbs (hends : watch.EndsAt k) (hstart : watch.start.task.poll = .initial)
    (hmarks : watch.OnlyMarks) (hfits : k + 1 < UInt32.size) : watch.Climbs k := by
  have hopen : ∀ j < k, (watch.after j).task.poll.complete = false :=
    fun j hj => (hends.goesOn j hj).2
  have hpoll : ∀ j ≤ k, (watch.before j).task.poll = .during j :=
    fun j hj => poll_before hstart hmarks hopen hj
  have hnext : ∀ j < k, watch.before (j + 1) = (watch.after j).waited j :=
    fun j hj => before_succ hstart hmarks hopen hj
  have hstands := stands_before hnext (Nat.le_refl k)
  obtain ⟨hcount, hlevel, hinterval⟩ := numbers_after (j := k) hmarks
  rw [hpoll k (Nat.le_refl k)] at hcount hlevel hinterval
  refine ⟨fun limit hlimit => ?_, fun count hcount => ?_, hcount, hlevel, hinterval,
    fun j hj => ?_, hnext, fun hquiet => ?_, fun hquiet => ?_⟩
  · obtain ⟨rest, rfl⟩ := Nat.exists_eq_add_of_le hlimit
    rw [pollWith, show k.succ + rest = k + (rest + 1) by omega,
      pollFrom_round hends (Nat.le_refl k), pollFrom_last hends]
  · show count (watch.after k).own = _
    rw [after, hcount, hstands.looks count hcount, Nat.add_assoc]
  · rw [hpoll j hj, PollState.during]
    show j + 1 < UInt32.size
    omega
  · exact (hquiet.waits k _).trans (hstands.waits hquiet)
  · have hbook : (watch.after k).world.book = _ := (hquiet.book k _).trans (hstands.book hquiet)
    have hlogger : (watch.after k).task.logger = _ :=
      (hquiet.logger k _).trans (hstands.logger hquiet)
    rw [LogBook.recordAll_append, ← hbook, ← hlogger]
    rfl

/-- A task that is about to wait for a deployment; its looks are counted. -/
def deploying : Running Nat :=
  ⟨(Running.atHome "Deploy").world, (Running.atHome "Deploy").task, 0⟩

/-- A look that finds the deployment under way. -/
def underway : Act Nat StepFailure Value := fun r => (.done .null, r.onOwn (· + 1))

/-- A look that finds it done. -/
def deployed : Act Nat StepFailure Value := fun r =>
  (.done .null,
    (r.onTask fun task => { task with poll := task.poll.markComplete }).onOwn (· + 1))

/-- A look that finds it gone. -/
def gone : Act Nat StepFailure Value := fun r =>
  (.failed (.ofFailure (.ofMessage "gone")), r.onOwn (· + 1))

/-- Looks of which the eighth finds the deployment done. -/
def succeeding : Watch Nat := ⟨fun j => if j = 7 then deployed else underway, deploying⟩

/-- Looks at the next deployment, of which the fourth fails. -/
def failing : Watch Nat :=
  ⟨fun j => if j = 3 then gone else underway, (succeeding.final 7).pollingReset⟩

theorem onlyMarks_succeeding : succeeding.OnlyMarks := by
  intro j r
  have hlook : succeeding.look j = if j = 7 then deployed else underway := rfl
  rw [hlook]
  split
  · exact .inr rfl
  · exact .inl rfl

theorem onlyMarks_failing : failing.OnlyMarks := by
  intro j r
  have hlook : failing.look j = if j = 3 then gone else underway := rfl
  rw [hlook]
  split
  · exact .inl rfl
  · exact .inl rfl

theorem endsAt_succeeding : succeeding.EndsAt 7 := by
  have hlook : ∀ j < 7, succeeding.look j = underway := fun j hj => if_neg (Nat.ne_of_lt hj)
  refine ⟨fun j hj => ⟨⟨.null, ?_⟩, ?_⟩, .inr ⟨⟨.null, rfl⟩, rfl⟩⟩
  · rw [outcome, hlook j hj]
    rfl
  · exact (by decide : ∀ j < 7, (succeeding.after j).task.poll.complete = false) j hj

theorem endsAt_failing : failing.EndsAt 3 := by
  have hlook : ∀ j < 3, failing.look j = underway := fun j hj => if_neg (Nat.ne_of_lt hj)
  refine ⟨fun j hj => ⟨⟨.null, ?_⟩, ?_⟩, .inl ⟨_, rfl⟩⟩
  · rw [outcome, hlook j hj]
    rfl
  · exact (by decide : ∀ j < 3, (failing.after j).task.poll.complete = false) j hj

end Watch

end TaskEngine
