import TaskEngine.Environment
import TaskEngine.Json.Reader

/-!
# Services and keychains

A service is a named set of attributes, such as the credentials of a connected app.
Keychains serve them by name.

## Main definitions

* `ServiceConfig` — the attributes of a service.
* `ServiceError` — why a service cannot be served.
* `Keychain` — where services are kept.
* `Keychain.service` — the service of a name.
* `SecretsBackend` — the choice between keychains that a variable makes.
-/

namespace TaskEngine

/-- The attributes of a service. -/
structure ServiceConfig where
  /-- The attributes, in order. -/
  attributes : OrderedMap Value

namespace ServiceConfig

/-- An attribute. -/
def get? (service : ServiceConfig) (key : String) : Option Value := service.attributes.get? key

/-- An attribute that is a text. -/
def text? (service : ServiceConfig) (key : String) : Option String :=
  (service.get? key).bind Value.text?

/-- The identifier of the client of a connected app. -/
def clientId? (service : ServiceConfig) : Option String := service.text? "client_id"

/-- The fields of a service. -/
def toDocument (service : ServiceConfig) : Value := .object service.attributes.entries

/-- Reads a service. -/
def read {D : Type} [DocumentNode D] (node : D) : Except Fault ServiceConfig :=
  (readMap DocumentNode.value node).map mk

end ServiceConfig

/-- Why a service cannot be served. -/
inductive ServiceError
  /-- Nothing is kept under the name. -/
  | notConfigured (name : String)
  /-- What is kept under the name is no service. -/
  | notValid (name reason : String)
  deriving DecidableEq

/-- The message of an error. -/
def ServiceError.message : ServiceError → String
  | .notConfigured name => s!"Service '{name}' is not configured"
  | .notValid name reason => s!"Service '{name}' is not valid: {reason}"

/-- Where services are kept. -/
inductive Keychain
  /-- In variables of the environment. -/
  | environment
  /-- In the keychain of the operating system.  It is not in sight here, so none of its
  services is configured. -/
  | system
  /-- In a table: attributes, or the reason why there are none. -/
  | table (services : OrderedMap (ServiceConfig ⊕ String))

namespace Keychain

/-- The start of the names of variables that hold services. -/
def variableStart : String := "STAGEHAND_SERVICE_"

/-- The variable that holds a service: its name in capitals, with underscores for everything
but ASCII letters and digits. -/
def variableName (name : String) : String :=
  variableStart ++
    String.ofList (name.toList.map fun c => if c.isAlphanum then c.toUpper else '_')

/-- The reason given for a text that is no service. -/
def unreadable (fault : Fault) : String := fault.message?.getD "the text cannot be read"

/-- The service of a name. -/
def service (environment : Environment) (keychain : Keychain) (name : String) :
    Except ServiceError ServiceConfig :=
  match keychain with
  | .system => .error (.notConfigured name)
  | .environment => match environment.get? (variableName name) with
    | none => .error (.notConfigured name)
    | some text => match Json.read ServiceConfig.read text with
      | .ok service => .ok service
      | .error fault => .error (.notValid name (unreadable fault))
  | .table services => match services.get? name with
    | none => .error (.notConfigured name)
    | some (.inl service) => .ok service
    | some (.inr reason) => .error (.notValid name reason)

/-- The name of a kind of keychain. -/
def kindName : Keychain → String
  | .environment => "EnvironmentKeychain"
  | .system => "KeyringKeychain"
  | .table _ => "TableKeychain"

/-- The service of the connected app. -/
def connectedApp : String := "connectedapp"

/-- The name of a client without a connected app. -/
def defaultClientName : String := "Stagehand/0.1.0"

/-- The name of the client: the identifier of the connected app, if there is one. -/
def clientName (environment : Environment) (keychain : Option Keychain) : String :=
  (do
    let keychain ← keychain
    let service ← (keychain.service environment connectedApp).toOption
    service.clientId?).getD defaultClientName

end Keychain

/-- Which keychain the engine uses. -/
inductive SecretsBackend
  /-- The keychain of the operating system. -/
  | system
  /-- The environment. -/
  | environment
  deriving DecidableEq

namespace SecretsBackend

/-- The variable that chooses. -/
def variableName : String := "STAGEHAND_SECRETS_BACKEND"

/-- The choice that an environment makes. -/
def ofEnvironment (environment : Environment) : SecretsBackend :=
  match environment.get? variableName with
  | some text => if asciiLower (trimSpace text) = "env" then .environment else .system
  | none => .system

/-- The name of a choice. -/
def name : SecretsBackend → String
  | .system => "Keychain"
  | .environment => "Environment"

/-- The keychain chosen. -/
def keychain : SecretsBackend → Keychain
  | .system => .system
  | .environment => .environment

end SecretsBackend

end TaskEngine
