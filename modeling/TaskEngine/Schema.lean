import TaskEngine.Document
import TaskEngine.Options

/-!
# Option schemas

A schema declares the options of a kind of task, in order: which ones are required,
and which ones have a value of their own if none is given.

## Main definitions

* `OptionSpec`, `Schema` — the declarations.
* `Schema.declareRequired`, `Schema.declareOptional`, `Schema.declareDefault` — to declare.
* `Schema.fillDefaults` — options with the defaults of those that are absent.
* `Schema.missing` — the required options that are absent.
-/

namespace TaskEngine

/-- The declaration of one option. -/
structure OptionSpec where
  /-- What the option is for. -/
  description : Option String
  /-- Whether the option has to be given. -/
  required : Bool
  /-- The value if none is given. -/
  default : Option Value

namespace OptionSpec

/-- The fields of a declaration; a default is written only where there is one. -/
def toDocument (spec : OptionSpec) : Value :=
  .object ([("description", .ofText? spec.description), ("required", .bool spec.required)] ++
    (match spec.default with
      | some value => [("default", value)]
      | none => []))

/-- Reads a declaration. -/
def reader {D : Type} [DocumentNode D] : RecordReader D OptionSpec :=
  OptionSpec.mk <$> .optional "description" DocumentNode.text <*>
    .withDefault "required" DocumentNode.flag false <*> .optional "default" DocumentNode.value

end OptionSpec

/-- The options of a kind of task, in the order in which they are declared. -/
structure Schema where
  /-- The declarations. -/
  specs : OrderedMap OptionSpec

namespace Schema

/-- The schema without options. -/
def empty : Schema := ⟨∅⟩

instance : Inhabited Schema := ⟨empty⟩

/-- Declares an option; a name that is declared again keeps its place. -/
def declare (schema : Schema) (name : String) (spec : OptionSpec) : Schema :=
  ⟨schema.specs.insert name spec⟩

/-- Declares an option that has to be given. -/
def declareRequired (schema : Schema) (name description : String) : Schema :=
  schema.declare name ⟨some description, true, none⟩

/-- Declares an option that may be left out. -/
def declareOptional (schema : Schema) (name description : String) : Schema :=
  schema.declare name ⟨some description, false, none⟩

/-- Declares an option with a value for the case that none is given. -/
def declareDefault (schema : Schema) (name description : String) (value : Value) : Schema :=
  schema.declare name ⟨some description, false, some value⟩

/-- The options with the defaults of those that are absent behind them. -/
def fillDefaults (schema : Schema) (options : Options) : Options :=
  schema.specs.entries.foldl (fun options (name, spec) => match spec.default with
    | some value => options.insertNew name value
    | none => options) options

/-- The names of required options that are absent, in the order of the schema. -/
def missing (schema : Schema) (options : Options) : List String :=
  (schema.specs.entries.filter fun (name, spec) => spec.required && !options.contains name).map
    Prod.fst

/-- The fields of a schema. -/
def toDocument (schema : Schema) : Value :=
  .object (schema.specs.entries.map fun (name, spec) => (name, spec.toDocument))

/-- Reads a schema. -/
def read {D : Type} [DocumentNode D] (node : D) : Except Fault Schema :=
  (readMap OptionSpec.reader.read node).map Schema.mk

end Schema

end TaskEngine
