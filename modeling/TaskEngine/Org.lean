import TaskEngine.Failure
import TaskEngine.Json.Value
import TaskEngine.Service

/-!
# Orgs

An org is a session with a remote platform.  Its state may change when its token is
refreshed; a snapshot before and one after tell whether it has to be saved.

## Main definitions

* `Org` — an org as far as tasks see it, and what it does when it is asked.
* `Org.refresh`, `Org.save` — the two requests.
-/

namespace TaskEngine

/-- How an org looks up a service while it refreshes its token, if there is a keychain. -/
abbrev ServiceLookup := Option (String → Except ServiceError ServiceConfig)

/-- Something that an org does or notices. -/
inductive OrgEvent
  /-- The token is to be refreshed. -/
  | refresh
  /-- Something noticed while refreshing. -/
  | note (text : String)
  /-- The state is to be saved. -/
  | save
  deriving DecidableEq

/-- What a refresh comes to. -/
structure RefreshOutcome where
  /-- What was noticed. -/
  notes : List String
  /-- The state afterwards. -/
  snapshot : Value
  /-- Why the refresh failed, if it did. -/
  failure : Option Failure

/-- An org. -/
structure Org where
  /-- The name of the org. -/
  name : String
  /-- The user of the session. -/
  username : Option String
  /-- The identifier of the org. -/
  orgId : Option String
  /-- The state that is saved. -/
  snapshot : Value
  /-- What was done so far, the latest last. -/
  events : List OrgEvent
  /-- What a refresh comes to after so many refreshes, in the given state. -/
  onRefresh : Nat → ServiceLookup → Value → RefreshOutcome
  /-- Why saving fails after so many saves, if it does. -/
  onSave : Nat → Option Failure

namespace Org

/-- Asks the org to refresh its token. -/
def refresh (org : Org) (serve : ServiceLookup) : Option Failure × Org :=
  let outcome := org.onRefresh (org.events.count .refresh) serve org.snapshot
  (outcome.failure, { org with
    snapshot := outcome.snapshot
    events := org.events ++ .refresh :: outcome.notes.map .note })

/-- Asks the org to save its state. -/
def save (org : Org) : Option Failure × Org :=
  (org.onSave (org.events.count .save), { org with events := org.events ++ [.save] })

end Org

/-- The number of an org. -/
abbrev OrgId := Nat

/-- The orgs by number. -/
structure OrgStore where
  /-- The orgs. -/
  orgs : List Org

namespace OrgStore

/-- No orgs. -/
def empty : OrgStore := ⟨[]⟩

/-- The org of a number. -/
def get? (store : OrgStore) (id : OrgId) : Option Org := store.orgs[id]?

/-- Puts an org in the place of a number. -/
def set (store : OrgStore) (id : OrgId) (org : Org) : OrgStore := ⟨store.orgs.set id org⟩

/-- Adds an org. -/
def add (store : OrgStore) (org : Org) : OrgId × OrgStore :=
  (store.orgs.length, ⟨store.orgs ++ [org]⟩)

end OrgStore

end TaskEngine
