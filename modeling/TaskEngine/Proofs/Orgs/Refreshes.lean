import TaskEngine.World
import Mathlib.Data.List.Count

/-!
# What refreshing does to an org

An org may do anything when its token is refreshed: its state may change or not, and the refresh may
fail either way.  What follows is settled by the two states and the failure alone.  The org is saved
if the refresh has succeeded and the state is another one now, and a line tells so before; in all
other cases nothing more happens.

Nothing but refreshing is ever done with an org, so the history of an org is that of its refreshes.

## Main definitions

* `OrgRefresh` — a refresh of an org, with the states around it.
* `Org.refreshed`, `Org.refreshFailure` — what a refresh leaves, and how it fails.
* `OrgRefresh.steps` — what is done in a refresh, in order.
* `Org.GoesThrough` — an org goes through refreshes.

## Main results

* `World.refreshCredentials_eq` — **what refreshing credentials leaves of the world.**
* `World.withRefreshed_eq_steps` — in which order it is done.
* `Org.GoesThrough.counts` — **the saves of an org are its refreshes that changed it.**
-/

namespace TaskEngine

/-! ### Refreshes -/

/-- A refresh of an org: the state it starts from, and what it comes to. -/
structure OrgRefresh where
  /-- The state before. -/
  before : Value
  /-- What it comes to. -/
  outcome : RefreshOutcome

namespace OrgRefresh

/-- The refresh succeeds, and the state is another one then. -/
def changes (refresh : OrgRefresh) : Bool :=
  refresh.outcome.failure.isNone && !refresh.outcome.snapshot.same refresh.before

/-- What the org does: it is asked, notices something, and is saved if it has changed. -/
def events (refresh : OrgRefresh) : List OrgEvent :=
  .refresh :: refresh.outcome.notes.map .note ++ if refresh.changes then [.save] else []

variable (refresh : OrgRefresh)

theorem count_refresh_events : refresh.events.count .refresh = 1 := by
  have hnotes : (refresh.outcome.notes.map OrgEvent.note).count .refresh = 0 := by
    simp [List.count_eq_zero]
  unfold events
  split
  · simp [hnotes]
  · simp [hnotes]

theorem count_save_events :
    refresh.events.count .save = if refresh.changes = true then 1 else 0 := by
  have hnotes : (refresh.outcome.notes.map OrgEvent.note).count .save = 0 := by
    simp [List.count_eq_zero]
  unfold events
  split
  · simp [hnotes]
  · simp [hnotes]

end OrgRefresh

namespace Org

section Refreshed

variable (org : Org) (serve : ServiceLookup)

/-- The refresh that the org makes when it is asked. -/
def nextRefresh : OrgRefresh :=
  ⟨org.snapshot, org.onRefresh (org.events.count .refresh) serve org.snapshot⟩

/-- The org when it has been refreshed, and saved if it has changed. -/
def refreshed : Org :=
  { org with
    snapshot := (org.nextRefresh serve).outcome.snapshot
    events := org.events ++ (org.nextRefresh serve).events }

/-- Why refreshing fails: the refresh fails, or the saving that follows it. -/
def refreshFailure : Option Failure :=
  match (org.nextRefresh serve).outcome.failure with
  | some failure => some failure
  | none =>
    if (org.nextRefresh serve).changes then org.onSave (org.events.count .save) else none

/-- An org that is not saved is refreshed by being asked. -/
theorem refreshed_of_not_changes (h : (org.nextRefresh serve).changes = false) :
    org.refreshed serve = (org.refresh serve).2 := by
  unfold refreshed OrgRefresh.events
  rw [h]
  simp [refresh, nextRefresh]

/-- An org that has changed is saved after it was asked. -/
theorem refreshed_of_changes (h : (org.nextRefresh serve).changes = true) :
    org.refreshed serve = (org.refresh serve).2.save.2 := by
  unfold refreshed OrgRefresh.events
  rw [h]
  simp [refresh, save, nextRefresh]

/-- Being asked does not count as being saved. -/
theorem count_save_refresh :
    (org.refresh serve).2.events.count .save = org.events.count .save := by
  simp [refresh, List.count_eq_zero]

end Refreshed

/-! ### Histories -/

variable {environment : Environment} {org org' org'' : Org} {refreshes later : List OrgRefresh}

/-- An org goes through refreshes, one after another, each with the services of some keychain. -/
inductive GoesThrough (environment : Environment) : Org → List OrgRefresh → Org → Prop
  | refl (org : Org) : GoesThrough environment org [] org
  | refresh {org org' : Org} (keychain : Option Keychain) {refreshes : List OrgRefresh}
    (h : GoesThrough environment
      (org.refreshed (keychain.map fun keychain => keychain.service environment)) refreshes org') :
    GoesThrough environment org
      (org.nextRefresh (keychain.map fun keychain => keychain.service environment) :: refreshes)
      org'

theorem GoesThrough.append (h : org.GoesThrough environment refreshes org')
    (h' : org'.GoesThrough environment later org'') :
    org.GoesThrough environment (refreshes ++ later) org'' := by
  induction h with
  | refl org => exact h'
  | refresh keychain _ ih => exact .refresh keychain (ih h')

/-- What an org has done is what its refreshes made it do. -/
theorem GoesThrough.events_eq (h : org.GoesThrough environment refreshes org') :
    org'.events = org.events ++ refreshes.flatMap OrgRefresh.events := by
  induction h with
  | refl org => simp
  | refresh keychain _ ih => rw [ih, refreshed, List.flatMap_cons, List.append_assoc]

/-- **An org was asked as often as it was refreshed**, and saved as often as that has changed it. -/
theorem GoesThrough.counts (h : org.GoesThrough environment refreshes org') :
    org'.events.count .refresh = org.events.count .refresh + refreshes.length ∧
      org'.events.count .save =
        org.events.count .save + refreshes.countP OrgRefresh.changes := by
  rw [h.events_eq, List.count_append, List.count_append, Nat.add_left_cancel_iff,
    Nat.add_left_cancel_iff]
  clear h
  induction refreshes with
  | nil => exact ⟨rfl, rfl⟩
  | cons refresh refreshes ih =>
    rw [List.flatMap_cons, List.count_append, List.count_append, ih.1, ih.2,
      refresh.count_refresh_events, refresh.count_save_events, List.length_cons,
      List.countP_cons]
    exact ⟨Nat.add_comm _ _, Nat.add_comm _ _⟩

end Org

/-! ### Refreshing credentials -/

/-- A step of refreshing. -/
inductive RefreshStep
  /-- The org is asked to refresh its token. -/
  | asking (serve : ServiceLookup)
  /-- A line tells that the org will be saved. -/
  | noticing
  /-- The org is asked to save its state. -/
  | saving

/-- The steps of a refresh, in order. -/
def OrgRefresh.steps (refresh : OrgRefresh) (serve : ServiceLookup) : List RefreshStep :=
  if refresh.changes then [.asking serve, .noticing, .saving] else [.asking serve]

namespace World

/-- Changes an org, if it is known. -/
def alterOrg (world : World) (id : OrgId) (change : Org → Org) : World :=
  match world.orgs.get? id with
  | some org => { world with orgs := world.orgs.set id (change org) }
  | none => world

/-- Takes a step of refreshing an org. -/
def takeStep (id : OrgId) (logger : Logger) (world : World) : RefreshStep → World
  | .asking serve => world.alterOrg id fun org => (org.refresh serve).2
  | .noticing => world.log logger .info savingNotice
  | .saving => world.alterOrg id fun org => org.save.2

/-- The world when an org has been refreshed: another state of the org, and a line if it had to be
saved. -/
def withRefreshed (world : World) (id : OrgId) (org : Org) (serve : ServiceLookup)
    (logger : Logger) : World :=
  { world with
    orgs := world.orgs.set id (org.refreshed serve)
    book := if (org.nextRefresh serve).changes then world.book.record logger .info savingNotice
      else world.book }

variable {world : World} {id : OrgId} {org : Org}

theorem alterOrg_eq (h : world.orgs.get? id = some org) (change : Org → Org) :
    world.alterOrg id change = { world with orgs := world.orgs.set id (change org) } := by
  simp only [alterOrg, h]

theorem get?_set (h : world.orgs.get? id = some org) (org' : Org) :
    (world.orgs.set id org').get? id = some org' := by
  have hlt : id < world.orgs.orgs.length := (List.getElem?_eq_some_iff.1 h).1
  simp [OrgStore.get?, OrgStore.set, hlt]

theorem get?_set_of_ne {id' : OrgId} (h : id' ≠ id) (store : OrgStore) (org' : Org) :
    (store.set id org').get? id' = store.get? id' := by
  simp [OrgStore.get?, OrgStore.set, Ne.symm h]

/-- **What refreshing credentials leaves of the world**, and how it fails. -/
theorem refreshCredentials_eq (h : world.orgs.get? id = some org) (keychain : Option Keychain)
    (logger : Logger) :
    world.refreshCredentials id keychain logger =
      (match org.refreshFailure (world.serviceLookup keychain) with
        | some failure => .error failure
        | none => .ok (),
        world.withRefreshed id org (world.serviceLookup keychain) logger) := by
  generalize hserve : world.serviceLookup keychain = serve
  have hasked : (org.refresh serve).2.snapshot = (org.nextRefresh serve).outcome.snapshot := rfl
  have hanswer : (org.refresh serve).1 = (org.nextRefresh serve).outcome.failure := rfl
  have hchanges : (org.nextRefresh serve).changes =
      ((org.nextRefresh serve).outcome.failure.isNone &&
        !(org.nextRefresh serve).outcome.snapshot.same org.snapshot) := rfl
  unfold refreshCredentials saveIfChanged withRefreshed Org.refreshFailure
  simp only [h, hserve, hasked, hanswer]
  cases hfailure : (org.nextRefresh serve).outcome.failure with
  | some failure =>
    rw [hfailure, Option.isNone_some, Bool.false_and] at hchanges
    simp [hchanges, org.refreshed_of_not_changes serve hchanges]
  | none =>
    rw [hfailure, Option.isNone_none, Bool.true_and] at hchanges
    cases hsame : (org.nextRefresh serve).outcome.snapshot.same org.snapshot with
    | true =>
      rw [hsame, Bool.not_true] at hchanges
      simp [hchanges, org.refreshed_of_not_changes serve hchanges]
    | false =>
      rw [hsame, Bool.not_false] at hchanges
      have hsaved : (org.refresh serve).2.save.1 = org.onSave (org.events.count .save) := by
        rw [← org.count_save_refresh serve]
        rfl
      -- the org is put in place twice, and the second time counts
      simp only [hchanges, org.refreshed_of_changes serve hchanges, hsaved, if_true,
        Bool.false_eq_true, if_false, log, OrgStore.set, List.set_set]
      cases org.onSave (org.events.count .save) with
      | some failure => rfl
      | none => rfl

/-- **What is done when an org is refreshed, in order**: a line tells that it will be saved before
it is. -/
theorem withRefreshed_eq_steps (h : world.orgs.get? id = some org) (serve : ServiceLookup)
    (logger : Logger) :
    world.withRefreshed id org serve logger =
      ((org.nextRefresh serve).steps serve).foldl (takeStep id logger) world := by
  have hasked := alterOrg_eq h fun org => (org.refresh serve).2
  unfold withRefreshed OrgRefresh.steps
  cases hchanges : (org.nextRefresh serve).changes with
  | false =>
    rw [org.refreshed_of_not_changes serve hchanges]
    exact hasked.symm
  | true =>
    rw [org.refreshed_of_changes serve hchanges]
    simp only [if_true, List.foldl_cons, List.foldl_nil, takeStep, hasked]
    rw [alterOrg_eq (get?_set h _)]
    simp [log, OrgStore.set]

/-- Refreshing leaves other orgs and most of the world alone. -/
theorem refreshCredentials_or (world : World) (id : OrgId) (keychain : Option Keychain)
    (logger : Logger) :
    (world.refreshCredentials id keychain logger).2 = world ∨
      ∃ org, world.orgs.get? id = some org ∧
        (world.refreshCredentials id keychain logger).2 =
          world.withRefreshed id org (world.serviceLookup keychain) logger := by
  cases h : world.orgs.get? id with
  | none =>
    left
    simp only [refreshCredentials, h]
  | some org =>
    right
    exact ⟨org, rfl, by rw [refreshCredentials_eq h]⟩

end World

end TaskEngine
