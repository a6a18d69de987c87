import TaskEngine.Proofs.Calls.Stages
import TaskEngine.Proofs.Options.Resolution

/-!
# Calls refresh credentials

Unless a kind of task has a way of its own, a call refreshes the credentials of the org once if the
task needs an org, and not at all if it needs none.  What this does to the org is known from
`World.refreshCredentials_eq`; the call adds that nothing else happens before it, and nothing after
it if it fails.

What bodies do with orgs comes to the same: they refresh credentials, or call tasks that do.  So in
any run, however many tasks it calls, each org goes through refreshes and is saved as often as one
of them has changed it.

## Main definitions

* `World.Accounts` — orgs go through refreshes, and through nothing else.
* `TaskKind.behindCredentials` — the part of a call that follows the refreshing of credentials.
* `TaskKind.RefreshesOnce` — how a call refreshes the credentials of its org.

## Main results

* `TaskCall.accounts` — a call takes orgs through refreshes only.
* `TaskKind.call_refreshes` — **a call refreshes credentials once, and saves what has changed.**
-/

namespace TaskEngine

/-! ### What becomes of orgs -/

/-- The environment is the same, and every org that was known has gone through refreshes. -/
structure World.Accounts (world world' : World) : Prop where
  environment : world'.environment = world.environment
  orgs : ∀ id org, world.orgs.get? id = some org → ∃ refreshes org',
    world'.orgs.get? id = some org' ∧ org.GoesThrough world.environment refreshes org'

namespace World

variable {world world' world'' : World}

theorem Accounts.of_eq (henvironment : world'.environment = world.environment)
    (horgs : world'.orgs = world.orgs) : world.Accounts world' := by
  refine ⟨henvironment, fun id org h => ⟨[], org, ?_, .refl org⟩⟩
  rw [horgs]
  exact h

theorem Accounts.trans (h : world.Accounts world') (h' : world'.Accounts world'') :
    world.Accounts world'' := by
  refine ⟨h'.environment.trans h.environment, fun id org horg => ?_⟩
  obtain ⟨refreshes, org', horg', hfirst⟩ := h.orgs id org horg
  obtain ⟨later, org'', horg'', hthen⟩ := h'.orgs id org' horg'
  rw [h.environment] at hthen
  exact ⟨refreshes ++ later, org'', horg'', hfirst.append hthen⟩

/-- Refreshing takes one org through one refresh. -/
theorem accounts_refreshCredentials (world : World) (id : OrgId) (keychain : Option Keychain)
    (logger : Logger) : world.Accounts (world.refreshCredentials id keychain logger).2 := by
  rcases world.refreshCredentials_or id keychain logger with h | ⟨org, horg, h⟩
  · rw [h]
    exact .of_eq rfl rfl
  · rw [h]
    refine ⟨rfl, fun id' org' horg' => ?_⟩
    by_cases hid : id' = id
    · subst hid
      obtain rfl : org = org' := Option.some.inj (horg.symm.trans horg')
      exact ⟨_, _, get?_set horg _, .refresh keychain (.refl _)⟩
    · exact ⟨[], org', (get?_set_of_ne hid _ _).trans horg', .refl org'⟩

end World

/-- Accounts of orgs, as something that is conserved. -/
def Conserved.accounts : Conserved where
  world := World.Accounts
  task _ _ := True
  world_refl _ := .of_eq rfl rfl
  world_trans := .trans
  recorded _ _ := .of_eq rfl rfl
  waited _ _ := .of_eq rfl rfl
  passed _ _ _ := .of_eq rfl rfl
  refreshed := World.accounts_refreshCredentials
  moved _ _ _ := .of_eq rfl rfl
  counted _ _ _ := .of_eq rfl rfl
  framed h := ⟨h.environment, h.orgs⟩
  task_refl _ := trivial
  task_trans _ _ := trivial
  edited _ _ _ _ := trivial
  captured _ _ _ := trivial

/-- **A call takes orgs through refreshes only**, and so do the calls within it. -/
theorem TaskCall.accounts (call : TaskCall) (world : World) : world.Accounts (call.after world) :=
  Act.Conserves.callOn (call.kind.conserves_hook .accounts call.settings call.limit)
    call.kind.profile call.stack ⟨world, call.task, call.own⟩

theorem accounts_calls (calls : List TaskCall) (world : World) :
    world.Accounts (calls.foldl (fun world call => call.after world) world) := by
  induction calls generalizing world with
  | nil => exact .of_eq rfl rfl
  | cons call calls ih => exact (call.accounts world).trans (ih _)

/-! ### The refreshing of credentials -/

variable {σ : Type}

namespace Running

/-- How the org of a task looks up services. -/
def serve (r : Running σ) : ServiceLookup := r.world.serviceLookup r.task.project.keychain

/-- The org has been refreshed; there may be a line about it, and all else is as before. -/
def refreshed (r : Running σ) (id : OrgId) (org : Org) : Running σ :=
  { r with world := r.world.withRefreshed id org r.serve r.task.logger }

end Running

variable {profile : Profile σ} {r : Running σ} {id : OrgId} {org : Org}

theorem refreshOwnCredentials_of_org (hrequires : profile.requiresOrg = true)
    (hid : r.task.org = some id) (horg : r.world.orgs.get? id = some org) :
    refreshOwnCredentials profile r =
      (match org.refreshFailure r.serve with
        | some failure => .failed failure
        | none => .done (),
        r.refreshed id org) := by
  unfold refreshOwnCredentials
  rw [if_pos hrequires, hid]
  dsimp only
  rw [World.refreshCredentials_eq horg]
  show (Outcome.ofExcept (match org.refreshFailure r.serve with
    | some failure => .error failure
    | none => .ok ()), r.refreshed id org) = _
  cases org.refreshFailure r.serve with
  | some failure => rfl
  | none => rfl

theorem refreshOwnCredentials_of_not (hrequires : profile.requiresOrg = false) :
    refreshOwnCredentials profile r = (.done (), r) := by
  unfold refreshOwnCredentials
  rw [hrequires]
  rfl

/-! ### What follows it in a call -/

theorem orgs_undo (r : Running σ) (former : Path) (stack : StackId) :
    (r.undo former stack).world.orgs = r.world.orgs := by
  show (r.world.logCaptured r.task.logger r.task.capture.leave.2).orgs = _
  rw [World.logCaptured_eq]

theorem orgs_announce (profile : Profile σ) (r : Running σ) :
    (announce profile r).world.orgs = r.world.orgs := by
  rw [announce_eq, Running.onWorld, World.logAll_eq]

/-- The last two stages of a call leave the orgs alone if the body does. -/
theorem orgs_runInScope {body : Act σ StepFailure Value}
    (hbody : ∀ r, (body r).2.world.orgs = r.world.orgs) (profile : Profile σ) (stack : StackId)
    (ready : Running σ) :
    (runInScope profile stack body ready).2.world.orgs = ready.world.orgs := by
  cases henter : ready.world.directory.enter ready.task.project.repoRoot with
  | error error =>
    rw [runInScope_of_error henter]
    rfl
  | ok entered =>
    obtain ⟨former, directory⟩ := entered
    rw [runInScope_of_ok henter, orgs_undo]
    have hrun := hbody (announce profile ((ready.framed stack).entered former directory).capturing)
    rw [orgs_announce] at hrun
    unfold runBody
    split
    all_goals
      rename_i hended
      rw [hended] at hrun
      exact hrun

namespace TaskKind

/-- The part of a call that follows the refreshing of credentials. -/
def behindCredentials (kind : TaskKind σ) (settings : EngineSettings) (limit : Nat)
    (stack : StackId) : Act σ TaskError (OrderedMap Value) :=
  ((kind.hook settings limit .init).mapFailure fun step => TaskError.execution step.failure).andThen
    fun _ => runInScope kind.profile stack (kind.hook settings limit .body)

/-- Neither the initialisation nor the body does anything with orgs. -/
def LeavesOrgs (kind : TaskKind σ) (settings : EngineSettings) (limit : Nat) : Prop :=
  ∀ part ∈ [Hook.init, .body], ∀ r, (kind.hook settings limit part r).2.world.orgs = r.world.orgs

/-- How a call refreshes the credentials of its org. -/
structure RefreshesOnce (kind : TaskKind σ) (settings : EngineSettings) (limit : Nat)
    (stack : StackId) (r : Running σ) (id : OrgId) (org : Org) : Prop where
  /-- The org is asked once, and it is saved once if this succeeds and changes it. -/
  events : ∃ events, (org.refreshed r.serve).events = org.events ++ events ∧
    events.count .refresh = 1 ∧
    events.count .save = if (org.nextRefresh r.serve).changes = true then 1 else 0
  /-- These are the steps of it; a line tells that the org will be saved before it is. -/
  steps : (r.refreshed id org).world = ((org.nextRefresh r.serve).steps r.serve).foldl
    (World.takeStep id r.task.logger) r.world
  /-- If asking or saving fails, the call ends with the failure, whatever the other parts of the
  task are, and nothing has happened but these steps. -/
  stops : ∀ failure, org.refreshFailure r.serve = some failure →
    ∀ hook : Hook → Act σ StepFailure Value,
      hook .credentials = kind.hook settings limit .credentials →
        callOn kind.profile hook stack r = (.failed (.credentials failure), r.refreshed id org)
  /-- If not, the call goes on from there. -/
  goesOn : org.refreshFailure r.serve = none →
    kind.call settings limit stack r =
      kind.behindCredentials settings limit stack (r.refreshed id org)
  /-- Nothing else is done with the org, unless other parts of the task do it. -/
  once : kind.LeavesOrgs settings limit →
    (kind.call settings limit stack r).2.world.orgs.get? id = some (org.refreshed r.serve)

section Calls

variable (kind : TaskKind σ) (settings : EngineSettings) {limit : Nat} (stack : StackId)

/-- A kind of task that has no way of its own refreshes credentials as every kind of task can. -/
theorem hook_credentials (hdefault : kind.part .credentials = .refreshCredentials)
    (hlimit : 0 < limit) :
    kind.hook settings limit .credentials = (refreshOwnCredentials kind.profile).voidly := by
  cases limit with
  | zero => omega
  | succ limit =>
    show (kind.part .credentials).run _ = _
    rw [hdefault, Body.run]

theorem call_of_credentials {refreshed : Running σ} {value : Value}
    (horg : (kind.profile.requiresOrg && r.task.org.isNone) = false)
    (h : kind.hook settings limit .credentials r = (.done value, refreshed)) :
    kind.call settings limit stack r = kind.behindCredentials settings limit stack refreshed := by
  rw [call, callOn, horg, if_neg Bool.false_ne_true, Act.andThen_of_done h]
  rfl

theorem orgs_behindCredentials (h : kind.LeavesOrgs settings limit) (r : Running σ) :
    (kind.behindCredentials settings limit stack r).2.world.orgs = r.world.orgs := by
  have hinit := h .init (by decide) r
  have hrun := orgs_runInScope (h .body (by decide)) kind.profile stack
  unfold behindCredentials Act.andThen Act.mapFailure
  rcases hfound : kind.hook settings limit .init r with ⟨found, ready⟩
  rw [hfound] at hinit
  cases found with
  | done value => exact (hrun ready).trans hinit
  | failed step => exact hinit
  | panicked message => exact hinit
  | unfinished => exact hinit

theorem hook_credentials_of_org (hdefault : kind.part .credentials = .refreshCredentials)
    (hlimit : 0 < limit) (hrequires : kind.profile.requiresOrg = true)
    (hid : r.task.org = some id) (horg : r.world.orgs.get? id = some org) :
    kind.hook settings limit .credentials r =
      (match org.refreshFailure r.serve with
        | some failure => .failed (.ofFailure failure)
        | none => .done .null,
        r.refreshed id org) := by
  rw [kind.hook_credentials settings hdefault hlimit, Act.voidly,
    refreshOwnCredentials_of_org hrequires hid horg]
  cases org.refreshFailure r.serve with
  | some failure => rfl
  | none => rfl

theorem refreshesOnce (hdefault : kind.part .credentials = .refreshCredentials)
    (hlimit : 0 < limit) (hrequires : kind.profile.requiresOrg = true)
    (hid : r.task.org = some id) (horg : r.world.orgs.get? id = some org) :
    kind.RefreshesOnce settings limit stack r id org := by
  have hhook := kind.hook_credentials_of_org settings hdefault hlimit hrequires hid horg
  have hattached : (kind.profile.requiresOrg && r.task.org.isNone) = false := by
    simp [hid]
  have hstops : ∀ failure, org.refreshFailure r.serve = some failure →
      ∀ hook : Hook → Act σ StepFailure Value,
        hook .credentials = kind.hook settings limit .credentials →
          callOn kind.profile hook stack r =
            (.failed (.credentials failure), r.refreshed id org) := by
    intro failure hfailure hook hcredentials
    rw [hfailure, ← hcredentials] at hhook
    rw [callOn, hattached, if_neg Bool.false_ne_true]
    exact (Stops.failed (StepFailure.ofFailure failure)).andThen_eq hhook _
  have hgoesOn : org.refreshFailure r.serve = none →
      kind.call settings limit stack r =
        kind.behindCredentials settings limit stack (r.refreshed id org) := by
    intro hfailure
    rw [hfailure] at hhook
    exact kind.call_of_credentials settings stack hattached hhook
  have hafter : (r.refreshed id org).world.orgs.get? id = some (org.refreshed r.serve) :=
    World.get?_set horg _
  refine ⟨⟨_, rfl, OrgRefresh.count_refresh_events _, OrgRefresh.count_save_events _⟩,
    World.withRefreshed_eq_steps horg r.serve r.task.logger, hstops, hgoesOn, fun hleaves => ?_⟩
  cases hfailure : org.refreshFailure r.serve with
  | some failure =>
    rw [call, hstops failure hfailure _ rfl]
    exact hafter
  | none =>
    rw [hgoesOn hfailure, kind.orgs_behindCredentials settings stack hleaves]
    exact hafter

end Calls

end TaskKind

/-- An org that changes whenever it is refreshed, and cannot be saved. -/
def Org.readOnly : Org where
  name := "dev"
  username := none
  orgId := none
  snapshot := .array []
  events := []
  onRefresh _ _ snapshot := ⟨[], .array [snapshot], none⟩
  onSave _ := some (.ofMessage "read only")

end TaskEngine
