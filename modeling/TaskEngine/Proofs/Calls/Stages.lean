import TaskEngine.Proofs.Calls.Restored
import TaskEngine.Proofs.Log.Recorded

/-!
# The stages of a call

A call checks that the org is there, refreshes the credentials, initialises the task, enters the
directory of the project and runs the body, in this order.  It ends in the first stage that fails,
with an error that tells the stage, and nothing of a later stage happens: no hook of a later stage
is called, and what a later stage would have changed is as it was.

What hooks can change themselves is known from `TaskKind.conserves_hook`: neither the result of a
task nor its working path, and nothing that was settled when the task was constructed.

## Main definitions

* `Stage` — the stages, with the hooks that are called up to each.
* `TaskKind.begun` — what the body starts from.
* `TaskKind.EndsIn` — how a call ends in a stage.
* `Conserved.settled` — what no hook can change.

## Main results

* `TaskKind.EndsIn.callOn_eq` — the end of a call depends on the hooks up to its stage only.
* `TaskKind.EndsIn.settled`, `TaskKind.EndsIn.begun` — which stages change what.
* `TaskKind.Passes.announces` — what is recorded before the body starts.
* `TaskKind.call_endsIn` — **a call ends in its first stage that fails.**
* `orgKnown_of_build`, `TaskKind.orgKnown_call` — orgs are known from the start, and stay known.
-/

namespace TaskEngine

/-- The stages of a call. -/
inductive Stage
  | org
  | credentials
  | init
  | directory
  | body
  deriving DecidableEq

/-- The hooks that are called up to a stage, and in it. -/
def Stage.hooks : Stage → List Hook
  | .org => []
  | .credentials => [.credentials]
  | .init | .directory => [.credentials, .init]
  | .body => [.credentials, .init, .body]

/-- A hook that comes to no value ends the call: its failure becomes an error of the stage, and
its panic goes on. -/
inductive Stops (atStage : Failure → TaskError) :
    Outcome StepFailure Value → Outcome TaskError (OrderedMap Value) → Prop
  | failed (step : StepFailure) : Stops atStage (.failed step) (.failed (atStage step.failure))
  | panicked (message : String) : Stops atStage (.panicked message) (.panicked message)
  | unfinished : Stops atStage .unfinished .unfinished

theorem done_or_stops (atStage : Failure → TaskError) (found : Outcome StepFailure Value) :
    (∃ value, found = .done value) ∨ ∃ outcome, Stops atStage found outcome := by
  cases found with
  | done value => exact Or.inl ⟨value, rfl⟩
  | failed step => exact Or.inr ⟨_, .failed step⟩
  | panicked message => exact Or.inr ⟨_, .panicked message⟩
  | unfinished => exact Or.inr ⟨_, .unfinished⟩

variable {σ : Type}

/-- A hook that stops leaves nothing to go on with. -/
theorem Stops.andThen_eq {atStage : Failure → TaskError} {act : Act σ StepFailure Value}
    {r left : Running σ} {found : Outcome StepFailure Value}
    {outcome : Outcome TaskError (OrderedMap Value)} (hstops : Stops atStage found outcome)
    (hact : act r = (found, left)) (next : Value → Act σ TaskError (OrderedMap Value)) :
    ((act.mapFailure fun step => atStage step.failure).andThen next) r = (outcome, left) := by
  rw [Act.andThen, Act.mapFailure, hact]
  cases hstops with
  | failed step => rfl
  | panicked message => rfl
  | unfinished => rfl

theorem runBody_of_stops {profile : Profile σ} {body : Act σ StepFailure Value}
    {r ended : Running σ} {found : Outcome StepFailure Value}
    {outcome : Outcome TaskError (OrderedMap Value)} (hstops : Stops .execution found outcome)
    (hbody : body (announce profile r) = (found, ended)) :
    runBody profile body r = (outcome, ended) := by
  rw [runBody, hbody]
  cases hstops with
  | failed step => rfl
  | panicked message => rfl
  | unfinished => rfl

theorem runBody_of_done {profile : Profile σ} {body : Act σ StepFailure Value}
    {r ended : Running σ} {value : Value}
    (hbody : body (announce profile r) = (.done value, ended)) :
    runBody profile body r =
      (.done ended.task.returnValues, ended.onTask ({ · with result := some value })) := by
  rw [runBody, hbody]

/-! ### Ends of calls -/

namespace TaskKind

/-- What the body of a task starts from: the frame is on the stack, the directory of the project
is entered, a capture scope is open, and the task is announced. -/
def begun (kind : TaskKind σ) (stack : StackId) (ready : Running σ) (former : Path)
    (directory : WorkingDirectory) : Running σ :=
  announce kind.profile ((ready.framed stack).entered former directory).capturing

section EndsIn

variable (kind : TaskKind σ) (settings : EngineSettings) (limit : Nat) (stack : StackId)

/-- A call that starts from `r` passes all stages before a given one, and ends in that. -/
inductive EndsIn (r : Running σ) :
    Stage → Outcome TaskError (OrderedMap Value) → Running σ → Prop
  /-- An org is needed, but none is attached. -/
  | org (horg : (kind.profile.requiresOrg && r.task.org.isNone) = true) :
      EndsIn r .org (.failed .requiresOrg) r
  /-- The credentials are not refreshed. -/
  | credentials (horg : (kind.profile.requiresOrg && r.task.org.isNone) = false)
      (hhook : kind.hook settings limit .credentials r = (found, left))
      (hstops : Stops .credentials found outcome) : EndsIn r .credentials outcome left
  /-- The task is not initialised. -/
  | init (horg : (kind.profile.requiresOrg && r.task.org.isNone) = false)
      (hcredentials : kind.hook settings limit .credentials r = (.done value, refreshed))
      (hhook : kind.hook settings limit .init refreshed = (found, left))
      (hstops : Stops .execution found outcome) : EndsIn r .init outcome left
  /-- The directory of the project is not entered; the frame of the task is taken off again. -/
  | directory (hpasses : kind.Passes settings limit r ready)
      (henter : ready.world.directory.enter ready.task.project.repoRoot = .error error) :
      EndsIn r .directory (.failed (.workingDirectory error.path error.reason))
        ((ready.framed stack).onWorld (·.popFrame stack))
  /-- The body does not succeed. -/
  | body (hpasses : kind.Passes settings limit r ready)
      (henter : ready.world.directory.enter ready.task.project.repoRoot =
        .ok (former, directory))
      (hhook : kind.hook settings limit .body (kind.begun stack ready former directory) =
        (found, ended))
      (hstops : Stops .execution found outcome) : EndsIn r .body outcome (ended.undo former stack)
  /-- The body succeeds, and with it the call. -/
  | succeeded (hpasses : kind.Passes settings limit r ready)
      (henter : ready.world.directory.enter ready.task.project.repoRoot =
        .ok (former, directory))
      (hhook : kind.hook settings limit .body (kind.begun stack ready former directory) =
        (.done value, ended)) :
      EndsIn r .body (.done ended.task.returnValues)
        ((ended.onTask ({ · with result := some value })).undo former stack)

/-- Every call ends in some stage. -/
theorem exists_endsIn (r : Running σ) :
    ∃ stage outcome left, kind.EndsIn settings limit stack r stage outcome left := by
  cases horg : kind.profile.requiresOrg && r.task.org.isNone with
  | true => exact ⟨_, _, _, .org horg⟩
  | false =>
    -- each stage either stops or leaves what the next one starts from
    rcases hcredentials : kind.hook settings limit .credentials r with ⟨found, refreshed⟩
    rcases done_or_stops .credentials found with ⟨value, rfl⟩ | ⟨outcome, hstops⟩
    swap
    · exact ⟨_, _, _, .credentials horg hcredentials hstops⟩
    rcases hinit : kind.hook settings limit .init refreshed with ⟨found, ready⟩
    rcases done_or_stops .execution found with ⟨value', rfl⟩ | ⟨outcome, hstops⟩
    swap
    · exact ⟨_, _, _, .init horg hcredentials hinit hstops⟩
    have hpasses : kind.Passes settings limit r ready :=
      ⟨horg, refreshed, value, value', hcredentials, hinit⟩
    cases henter : ready.world.directory.enter ready.task.project.repoRoot with
    | error error => exact ⟨_, _, _, .directory hpasses henter⟩
    | ok entered =>
      obtain ⟨former, directory⟩ := entered
      rcases hbody : kind.hook settings limit .body (kind.begun stack ready former directory)
        with ⟨found, ended⟩
      rcases done_or_stops .execution found with ⟨result, rfl⟩ | ⟨outcome, hstops⟩
      · exact ⟨_, _, _, .succeeded hpasses henter hbody⟩
      · exact ⟨_, _, _, .body hpasses henter hbody hstops⟩

end EndsIn

variable {kind : TaskKind σ} {settings : EngineSettings} {limit : Nat} {stack : StackId}
  {r ready left : Running σ} {stage : Stage} {outcome : Outcome TaskError (OrderedMap Value)}

/-- The end of a call depends on the hooks up to its stage only: with other hooks in the place of
the later ones, the call ends in the same way. -/
theorem EndsIn.callOn_eq (h : kind.EndsIn settings limit stack r stage outcome left)
    {hook : Hook → Act σ StepFailure Value}
    (hhook : ∀ part ∈ stage.hooks, hook part = kind.hook settings limit part) :
    callOn kind.profile hook stack r = (outcome, left) := by
  cases h with
  | org horg => rw [callOn, horg, if_pos rfl]
  | credentials horg hfound hstops =>
    have hcredentials := hhook .credentials List.mem_cons_self
    rw [callOn, horg, if_neg Bool.false_ne_true, hcredentials]
    exact hstops.andThen_eq hfound _
  | init horg hrefreshed hfound hstops =>
    have hcredentials := hhook .credentials (by decide)
    have hinit := hhook .init (by decide)
    rw [callOn, horg, if_neg Bool.false_ne_true, hcredentials, Act.andThen_of_done hrefreshed,
      hinit]
    exact hstops.andThen_eq hfound _
  | directory hpasses henter =>
    have hcall := hpasses.callOn_eq (hhook .credentials (by decide)) (hhook .init (by decide)) stack
    rw [hcall, runInScope_of_error henter]
  | body hpasses henter hfound hstops =>
    have hcall := hpasses.callOn_eq (hhook .credentials (by decide)) (hhook .init (by decide)) stack
    rw [hcall, runInScope_of_ok henter, hhook .body (by decide), runBody_of_stops hstops hfound]
  | succeeded hpasses henter hfound =>
    have hcall := hpasses.callOn_eq (hhook .credentials (by decide)) (hhook .init (by decide)) stack
    rw [hcall, runInScope_of_ok henter, hhook .body (by decide), runBody_of_done hfound]

end TaskKind

/-! ### What hooks cannot change -/

/-- Every org that is known stays known. -/
def World.RemembersOrgs (world world' : World) : Prop :=
  ∀ id, (world.orgs.get? id).isSome → (world'.orgs.get? id).isSome

theorem World.remembersOrgs_refreshCredentials (world : World) (id : OrgId)
    (keychain : Option Keychain) (logger : Logger) :
    world.RemembersOrgs (world.refreshCredentials id keychain logger).2 := by
  intro other hother
  rcases world.refreshCredentials_or id keychain logger with h | ⟨org, -, h⟩
  · rw [h]
    exact hother
  · rw [h]
    simpa [withRefreshed, OrgStore.get?, OrgStore.set] using hother

/-- What was settled when a task was constructed is as it was, and so is what only calls of it
change. -/
structure TaskState.SettledAs (task task' : TaskState) : Prop where
  className : task'.className = task.className
  project : task'.project = task.project
  org : task'.org = task.org
  flow : task'.flow = task.flow
  logger : task'.logger = task.logger
  result : task'.result = task.result
  workingPath : task'.workingPath = task.workingPath

theorem TaskState.SettledAs.refl (task : TaskState) : task.SettledAs task :=
  ⟨rfl, rfl, rfl, rfl, rfl, rfl, rfl⟩

theorem TaskState.SettledAs.trans {task task' task'' : TaskState} (h : task.SettledAs task')
    (h' : task'.SettledAs task'') : task.SettledAs task'' :=
  ⟨h'.className.trans h.className, h'.project.trans h.project, h'.org.trans h.org,
    h'.flow.trans h.flow, h'.logger.trans h.logger, h'.result.trans h.result,
    h'.workingPath.trans h.workingPath⟩

/-- What no hook of a task can change, as something that is conserved. -/
def Conserved.settled : Conserved where
  world := World.RemembersOrgs
  task := TaskState.SettledAs
  world_refl _ _ := id
  world_trans h h' id := h' id ∘ h id
  recorded _ _ _ := id
  waited _ _ _ := id
  passed _ _ _ _ := id
  refreshed := World.remembersOrgs_refreshCredentials
  moved _ _ _ _ := id
  counted _ _ _ _ := id
  framed h := h
  task_refl := .refl
  task_trans := .trans
  edited _ _ _ _ := ⟨rfl, rfl, rfl, rfl, rfl, rfl, rfl⟩
  captured _ _ _ := ⟨rfl, rfl, rfl, rfl, rfl, rfl, rfl⟩

namespace TaskKind

variable {kind : TaskKind σ} {settings : EngineSettings} {limit : Nat} {stack : StackId}
  {r ready left : Running σ} {stage : Stage} {outcome : Outcome TaskError (OrderedMap Value)}

theorem settled_hook (kind : TaskKind σ) (settings : EngineSettings) (limit : Nat) {part : Hook}
    {r left : Running σ} {found : Outcome StepFailure Value}
    (h : kind.hook settings limit part r = (found, left)) : r.task.SettledAs left.task :=
  ((kind.conserves_hook .settled settings limit part).of_eq h).task

theorem Passes.settled (h : kind.Passes settings limit r ready) : r.task.SettledAs ready.task :=
  (h.conserves .settled).task

/-- A call that does not come to its body changes nothing that a hook cannot change. -/
theorem EndsIn.settled (h : kind.EndsIn settings limit stack r stage outcome left)
    (hstage : stage ≠ .body) : r.task.SettledAs left.task := by
  cases h with
  | org horg => exact .refl r.task
  | credentials horg hhook hstops => exact kind.settled_hook settings limit hhook
  | init horg hcredentials hhook hstops =>
    have hrefreshed := kind.settled_hook settings limit hcredentials
    exact hrefreshed.trans (kind.settled_hook settings limit hhook)
  | directory hpasses henter =>
    -- the frame has told the task its stack, which is nothing that was settled
    have hready := hpasses.settled
    exact hready.trans ⟨rfl, rfl, rfl, rfl, rfl, rfl, rfl⟩
  | body hpasses henter hhook hstops => exact absurd rfl hstage
  | succeeded hpasses henter hhook => exact absurd rfl hstage

end TaskKind

/-! ### What comes before the body -/

/-- An org that is attached to the task is known. -/
def Running.OrgKnown (r : Running σ) : Prop :=
  ∀ id, r.task.org = some id → (r.world.orgs.get? id).isSome

/-- The lines that name an org. -/
def Org.sessionLines (org : Org) : List String :=
  ["As user: " ++ org.username.getD "", "In org: " ++ org.orgId.getD ""]

theorem announce_eq (profile : Profile σ) (r : Running σ) :
    announce profile r =
      r.onWorld (Builder.logAll · r.task.logger .info (banner profile r)) := by
  rw [announce]
  generalize banner profile r = lines
  induction lines generalizing r with
  | nil => rfl
  | cons line lines ih => exact ih (r.log .info line)

theorem banner_eq_of_session {profile : Profile σ} {r : Running σ} {id : OrgId} {org : Org}
    (hsession : profile.requiresOrg = true ∧ r.task.flow = none) (hid : r.task.org = some id)
    (horg : r.world.orgs.get? id = some org) :
    banner profile r =
      ["Beginning task: " ++ r.task.className] ++ org.sessionLines ++ [""] := by
  simp only [banner, hsession, hid, horg, Option.isNone_none, Bool.and_self, Option.bind_some,
    if_true, Org.sessionLines]

theorem banner_eq_of_not {profile : Profile σ} {r : Running σ}
    (hsession : ¬(profile.requiresOrg = true ∧ r.task.flow = none)) :
    banner profile r = ["Beginning task: " ++ r.task.className] ++ [] ++ [""] := by
  rw [← Option.isNone_iff_eq_none, ← Bool.and_eq_true] at hsession
  simp only [banner, if_neg hsession]

namespace TaskKind

variable {kind : TaskKind σ} {settings : EngineSettings} {limit : Nat} {stack : StackId}
  {r ready left : Running σ} {stage : Stage} {outcome : Outcome TaskError (OrderedMap Value)}

/-- The task that a call started from `r` is announced before its body: to the lines recorded so
far are added one that names the task, two that name its org if the task needs one and is part of
no flow, and an empty line. -/
def Announces (kind : TaskKind σ) (r ready begun : Running σ) : Prop :=
  ∃ session,
    begun.world.book = ready.world.book.recordAll r.task.logger
      ((["Beginning task: " ++ r.task.className] ++ session ++ [""]).map (.info, ·)) ∧
    (kind.profile.requiresOrg = true ∧ r.task.flow = none →
      ∃ id org, r.task.org = some id ∧ ready.world.orgs.get? id = some org ∧
        session = org.sessionLines) ∧
    (¬(kind.profile.requiresOrg = true ∧ r.task.flow = none) → session = [])

theorem book_begun (kind : TaskKind σ) (stack : StackId) (ready : Running σ) (former : Path)
    (directory : WorkingDirectory) :
    (kind.begun stack ready former directory).world.book =
      ready.world.book.recordAll ready.task.logger
        ((banner kind.profile ready).map (.info, ·)) := by
  rw [begun, announce_eq, Running.onWorld, World.logAll_eq]
  rfl

theorem Passes.announces (h : kind.Passes settings limit r ready) (hknown : r.OrgKnown)
    (stack : StackId) (former : Path) (directory : WorkingDirectory) :
    kind.Announces r ready (kind.begun stack ready former directory) := by
  have hbook := kind.book_begun stack ready former directory
  rw [h.settled.logger] at hbook
  by_cases hsession : kind.profile.requiresOrg = true ∧ r.task.flow = none
  · -- the org check has passed, and what the hooks have done leaves the org known
    obtain ⟨id, hid⟩ : ∃ id, r.task.org = some id := by
      have horg := h.org
      rw [hsession.1, Bool.true_and, Option.isNone_eq_false_iff] at horg
      exact Option.isSome_iff_exists.1 horg
    obtain ⟨org, horg⟩ := Option.isSome_iff_exists.1
      ((h.conserves .settled).world id (hknown id hid))
    have hready : kind.profile.requiresOrg = true ∧ ready.task.flow = none :=
      ⟨hsession.1, h.settled.flow.trans hsession.2⟩
    rw [banner_eq_of_session hready (h.settled.org.trans hid) horg, h.settled.className] at hbook
    exact ⟨_, hbook, fun _ => ⟨id, org, hid, horg, rfl⟩, fun hnot => absurd hsession hnot⟩
  · rw [← h.settled.flow] at hsession
    rw [banner_eq_of_not hsession, h.settled.className] at hbook
    rw [h.settled.flow] at hsession
    exact ⟨[], hbook, fun h => absurd h hsession, fun _ => rfl⟩

/-- The body finds a task as the hooks have left it but for its working path, and changes none of
what no hook can change. -/
theorem settled_body (kind : TaskKind σ) (settings : EngineSettings) (limit : Nat)
    {ended : Running σ} {former : Path} {directory : WorkingDirectory}
    {found : Outcome StepFailure Value}
    (h : kind.hook settings limit .body (kind.begun stack ready former directory) =
      (found, ended)) :
    { ready.task with workingPath := some former }.SettledAs ended.task := by
  have hset : { ready.task with workingPath := some former }.SettledAs
      ((ready.framed stack).entered former directory).capturing.task :=
    ⟨rfl, rfl, rfl, rfl, rfl, rfl, rfl⟩
  have hannounced := hset.trans (conserves_announce .settled kind.profile _).task
  exact hannounced.trans (kind.settled_hook settings limit h)

/-- A call that comes to its body changes the working path, and the result if the body succeeds. -/
theorem EndsIn.begun (h : kind.EndsIn settings limit stack r .body outcome left) :
    ∃ ready former directory, kind.Passes settings limit r ready ∧
      ready.world.directory.enter r.task.project.repoRoot = .ok (former, directory) ∧
      left.task.workingPath = some former ∧
      left.task.result =
        match (kind.hook settings limit .body (kind.begun stack ready former directory)).1 with
        | .done value => some value
        | _ => r.task.result := by
  cases h with
  | @body ready former directory found ended _ hpasses henter hhook hstops =>
    have hended := kind.settled_body settings limit hhook
    refine ⟨ready, former, directory, hpasses, hpasses.settled.project ▸ henter,
      hended.workingPath, ?_⟩
    have hresult : ended.task.result = r.task.result := hended.result.trans hpasses.settled.result
    rw [hhook]
    cases hstops with
    | failed step => exact hresult
    | panicked message => exact hresult
    | unfinished => exact hresult
  | @succeeded ready former directory value ended hpasses henter hhook =>
    have hended := kind.settled_body settings limit hhook
    refine ⟨ready, former, directory, hpasses, hpasses.settled.project ▸ henter,
      hended.workingPath, ?_⟩
    rw [hhook]
    rfl

/-- The org check fails if and only if the task needs an org and none is attached. -/
theorem EndsIn.org_iff (h : kind.EndsIn settings limit stack r stage outcome left) :
    stage = .org ↔ kind.profile.requiresOrg = true ∧ r.task.org = none := by
  rw [← Option.isNone_iff_eq_none, ← Bool.and_eq_true]
  have hpassed : ∀ {stage : Stage}, stage ≠ .org →
      (kind.profile.requiresOrg && r.task.org.isNone) = false →
      (stage = .org ↔ (kind.profile.requiresOrg && r.task.org.isNone) = true) := by
    intro stage hstage horg
    rw [horg]
    exact iff_of_false hstage Bool.false_ne_true
  cases h with
  | org horg => exact iff_of_true rfl horg
  | credentials horg => exact hpassed (by decide) horg
  | init horg => exact hpassed (by decide) horg
  | directory hpasses => exact hpassed (by decide) hpasses.org
  | body hpasses => exact hpassed (by decide) hpasses.org
  | succeeded hpasses => exact hpassed (by decide) hpasses.org

/-- A call never attaches another org. -/
theorem EndsIn.attached (h : kind.EndsIn settings limit stack r stage outcome left) :
    left.task.org = r.task.org := by
  by_cases hstage : stage = .body
  · subst hstage
    cases h with
    | body hpasses henter hhook hstops =>
      have hended := (kind.settled_body settings limit hhook).org
      exact hended.trans hpasses.settled.org
    | succeeded hpasses henter hhook =>
      have hended := (kind.settled_body settings limit hhook).org
      exact hended.trans hpasses.settled.org
  · exact (h.settled hstage).org

/-- **A call ends in its first stage that fails**, or in its body: the org check, which fails if
the task needs an org and none is attached, and before which nothing happens; the refreshing of the
credentials; the initialisation; the entering of the directory of the project; the body.  Other
hooks in the place of those that belong to later stages would make no difference.  The directory
that was current when that of the project is entered becomes the working path, and the task is
announced then; the value of a body that succeeds becomes the result; other calls change neither. -/
theorem call_endsIn (kind : TaskKind σ) (settings : EngineSettings) (limit : Nat)
    (stack : StackId) (r : Running σ) (hknown : r.OrgKnown) :
    let outcome := (kind.call settings limit stack r).1
    let left := (kind.call settings limit stack r).2
    ∃ stage, kind.EndsIn settings limit stack r stage outcome left ∧
      (stage = .org ↔ kind.profile.requiresOrg = true ∧ r.task.org = none) ∧
      (stage = .org → left = r) ∧
      (∀ hook : Hook → Act σ StepFailure Value,
        (∀ part ∈ stage.hooks, hook part = kind.hook settings limit part) →
          callOn kind.profile hook stack r = (outcome, left)) ∧
      (stage ≠ .body →
        left.task.result = r.task.result ∧ left.task.workingPath = r.task.workingPath) ∧
      (stage = .directory → ∃ ready error, kind.Passes settings limit r ready ∧
        ready.world.directory.enter r.task.project.repoRoot = .error error ∧
        outcome = .failed (.workingDirectory error.path error.reason) ∧
        (ready.world.directory.here?.isSome → r.task.project.repoRoot = some error.path) ∧
        left.world.book = ready.world.book) ∧
      (stage = .body → ∃ ready former directory, kind.Passes settings limit r ready ∧
        ready.world.directory.enter r.task.project.repoRoot = .ok (former, directory) ∧
        ready.world.directory.here? = some former ∧ left.task.workingPath = some former ∧
        kind.Announces r ready (kind.begun stack ready former directory) ∧
        left.task.result =
          match (kind.hook settings limit .body (kind.begun stack ready former directory)).1 with
          | .done value => some value
          | _ => r.task.result) := by
  obtain ⟨stage, outcome, left, hends⟩ := kind.exists_endsIn settings limit stack r
  have hcall : kind.call settings limit stack r = (outcome, left) :=
    hends.callOn_eq fun part _ => rfl
  rw [hcall]
  refine ⟨stage, hends, hends.org_iff, ?_, fun hook hhook => hends.callOn_eq hhook,
    fun hstage => ?_, ?_, ?_⟩
  · rintro rfl
    cases hends with
    | org horg => rfl
  · have hsettled := hends.settled hstage
    exact ⟨hsettled.result, hsettled.workingPath⟩
  · rintro rfl
    cases hends with
    | @directory ready error hpasses henter =>
      rw [hpasses.settled.project] at henter
      exact ⟨ready, error, hpasses, henter, rfl, WorkingDirectory.target_of_enter henter, rfl⟩
  · rintro rfl
    obtain ⟨ready, former, directory, hpasses, henter, hpath, hresult⟩ := hends.begun
    exact ⟨ready, former, directory, hpasses, henter, WorkingDirectory.here?_of_enter henter,
      hpath, hpasses.announces hknown stack former directory, hresult⟩

end TaskKind

/-! #### Orgs that are known -/

/-- The org of a constructed task is known if the one asked for is. -/
theorem orgKnown_of_build {builder : Builder} {settings : EngineSettings} {profile : Profile σ}
    {world world' : World} {task : TaskState} (own : σ)
    (hknown : ∀ id, builder.org = some id → (world.orgs.get? id).isSome)
    (h : builder.build settings profile world = (.ok task, world')) :
    Running.OrgKnown ⟨world', task, own⟩ := by
  have hremembers := Conserved.settled.build builder settings profile world
  rw [h] at hremembers
  have horg : task.org = builder.org := by
    rw [Builder.build] at h
    dsimp only at h
    split at h
    · simp at h
    · rw [← Except.ok.inj (Prod.mk.inj h).1]
  intro id hid
  exact hremembers id (hknown id (horg.symm.trans hid))

/-- A call leaves the org known, so that the task can be called again. -/
theorem TaskKind.orgKnown_call (kind : TaskKind σ) (settings : EngineSettings) (limit : Nat)
    (stack : StackId) {r : Running σ} (hknown : r.OrgKnown) :
    (kind.call settings limit stack r).2.OrgKnown := by
  have hremembers := Act.Conserves.callOn (kind.conserves_hook .settled settings limit)
    kind.profile stack r
  obtain ⟨stage, outcome, left, hends⟩ := kind.exists_endsIn settings limit stack r
  have hcall : callOn kind.profile (kind.hook settings limit) stack r = (outcome, left) :=
    hends.callOn_eq fun part _ => rfl
  rw [hcall] at hremembers
  rw [call, hcall]
  intro id hid
  exact hremembers id (hknown id (hends.attached.symm.trans hid))

/-! #### A task that needs an org -/

/-- An org of which nothing changes. -/
def Org.steady (name username orgId : String) : Org :=
  ⟨name, some username, some orgId, .null, [], fun _ _ snapshot => ⟨[], snapshot, none⟩,
    fun _ => none⟩

/-- A task to which an org is attached, in a process that runs in the directory `/home`. -/
def Running.attached (className : String) (org : Org) : Running Unit :=
  let r := Running.atHome className
  { r with
    world := { r.world with orgs := ⟨[org]⟩ }
    task := { r.task with org := some 0 } }

/-- Needs an org, and makes something. -/
def TaskKind.making : TaskKind Unit where
  profile := { Profile.named "Making" with requiresOrg := true }
  part
    | .body => .done (.string "made")
    | hook => defaultPart "Making" hook

theorem call_endsIn_making :
    let r := Running.attached "Making" (.steady "dev" "ada" "00D1")
    let left := (TaskKind.making.call .off 1 0 r).2
    TaskKind.making.EndsIn .off 1 0 r .body (.done ∅) left ∧
      left.task.result = some (.string "made") ∧ left.task.workingPath = some ["home"] := by
  intro r left
  have hknown : r.OrgKnown := by
    rintro id ⟨⟩
    rfl
  obtain ⟨stage, hends, -, -, -, hunbegun, -⟩ := TaskKind.making.call_endsIn .off 1 0 r hknown
  -- the result is new, so the call has come to the body
  have hstage : stage = .body := by
    by_contra hne
    have hresult : some (Value.string "made") = none := (hunbegun hne).1
    exact Option.some_ne_none _ hresult
  subst hstage
  exact ⟨hends, rfl, rfl⟩

end TaskEngine
