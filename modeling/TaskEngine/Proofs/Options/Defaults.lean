import TaskEngine.Proofs.Options.Merging

/-!
# Defaults and required options

A default is put in for every option that is absent, required or not.  If a required option had a
default, it would never be found missing.  Schemas that are built by declaring options have none
such: each declaration says of its option that it is required or that it has a default, never both,
and what is declared of a name once more takes the place of what was declared before.

## Main definitions

* `Declaration`, `Schema.ofDeclarations` — the declarations of options, and the schema they make.
* `Schema.Lists` — a schema has each name in the place of its first declaration, as the last one
  declares it.
* `gaps` — the options that are absent and have a default.
* `Schema.FillsGaps` — what the defaults of a schema do to options.

## Main results

* `Schema.lists_ofDeclarations` — declarations make the schema that lists them.
* `Schema.missing_fillDefaults_iff` — defaults hide nothing that is missing if and only if no
  required option has one.
* `Schema.fillDefaults_fillDefaults` — defaults are put in once.
* `Schema.ofDeclarations_fillsGaps` — **the defaults of a schema built from declarations fill gaps
  and nothing else, and hide no required option.**
-/

namespace TaskEngine

/-- The declaration of an option. -/
inductive Declaration
  /-- An option that has to be given. -/
  | required (name description : String)
  /-- An option that may be left out. -/
  | optional (name description : String)
  /-- An option with a value for the case that none is given. -/
  | withDefault (name description : String) (value : Value)

namespace Declaration

/-- The name that is declared. -/
def name : Declaration → String
  | .required name _ => name
  | .optional name _ => name
  | .withDefault name _ _ => name

/-- What is declared of it. -/
def spec : Declaration → OptionSpec
  | .required _ description => ⟨some description, true, none⟩
  | .optional _ description => ⟨some description, false, none⟩
  | .withDefault _ description value => ⟨some description, false, some value⟩

/-- The name, and what is declared of it. -/
def entry (declaration : Declaration) : String × OptionSpec := (declaration.name, declaration.spec)

/-- No declaration says both that an option has to be given and what it is otherwise. -/
theorem default_eq_none {declaration : Declaration} (h : declaration.spec.required = true) :
    declaration.spec.default = none := by
  cases declaration with
  | required => rfl
  | optional => rfl
  | withDefault => cases h

end Declaration

/-- The options that are absent and have a default as their last declarations say, in the order of
their first declarations. -/
def gaps (declarations : List Declaration) (options : Options) : List (String × Value) :=
  ((declarations.map Declaration.name).eraseDups.filter (· ∉ options.keys)).filterMap fun name =>
    ((lastValue? (declarations.map Declaration.entry) name).bind OptionSpec.default).map (name, ·)

namespace Schema

/-- Declares an option. -/
def declaring (schema : Schema) : Declaration → Schema
  | .required name description => schema.declareRequired name description
  | .optional name description => schema.declareOptional name description
  | .withDefault name description value => schema.declareDefault name description value

/-- The schema that declarations make, one after another. -/
def ofDeclarations (declarations : List Declaration) : Schema :=
  declarations.foldl declaring empty

/-- A schema has the names of declarations, and of each name what is declared last. -/
structure Lists (schema : Schema) (declarations : List Declaration) : Prop where
  /-- Each name has the place of its first declaration. -/
  names : schema.specs.keys = (declarations.map Declaration.name).eraseDups
  /-- Of each name the last declaration counts. -/
  last : ∀ name, schema.specs.get? name = lastValue? (declarations.map Declaration.entry) name
  /-- No name is both required and has a default. -/
  apart : ∀ name spec, schema.specs.get? name = some spec →
    ¬(spec.required = true ∧ spec.default.isSome = true)

/-- What the defaults of a schema with given declarations do to options. -/
structure FillsGaps (schema : Schema) (declarations : List Declaration) (options : Options) :
    Prop where
  /-- The same required options are missing before and after. -/
  missing : schema.missing (schema.fillDefaults options) = schema.missing options
  /-- Values that are given stay. -/
  given : ∀ name value, options.get? name = some value →
    (schema.fillDefaults options).get? name = some value
  /-- What is given stays in its order, and the gaps are put behind. -/
  entries : (schema.fillDefaults options).entries = options.entries ++ gaps declarations options
  /-- Once filled, there are no gaps. -/
  again : schema.fillDefaults (schema.fillDefaults options) = schema.fillDefaults options

/-! ### Schemas built from declarations -/

theorem specs_declaring (schema : Schema) (declaration : Declaration) :
    (schema.declaring declaration).specs =
      schema.specs.insert declaration.name declaration.spec := by
  cases declaration with
  | required => rfl
  | optional => rfl
  | withDefault => rfl

theorem specs_ofDeclarations (declarations : List Declaration) :
    (ofDeclarations declarations).specs =
      OrderedMap.ofList (declarations.map Declaration.entry) := by
  have hfold : ∀ schema : Schema, (declarations.foldl declaring schema).specs =
      schema.specs.insertAll (declarations.map Declaration.entry) := by
    induction declarations with
    | nil => exact fun schema => rfl
    | cons declaration declarations ih =>
      intro schema
      rw [List.foldl_cons, ih, specs_declaring]
      rfl
  exact hfold empty

theorem lists_ofDeclarations (declarations : List Declaration) :
    (ofDeclarations declarations).Lists declarations := by
  have hnames : (declarations.map Declaration.entry).map Prod.fst =
      declarations.map Declaration.name := List.map_map
  have hlast : ∀ name, (ofDeclarations declarations).specs.get? name =
      lastValue? (declarations.map Declaration.entry) name := by
    intro name
    rw [specs_ofDeclarations, OrderedMap.ofList, OrderedMap.get?_insertAll]
    exact Option.or_none
  refine ⟨?_, hlast, ?_⟩
  · rw [specs_ofDeclarations, OrderedMap.ofList, OrderedMap.keys_insertAll, hnames]
    simp [newNames, OrderedMap.keys]
  · rintro name spec hspec ⟨hrequired, hdefault⟩
    rw [hlast] at hspec
    obtain ⟨declaration, -, hentry⟩ := List.mem_map.1 (List.mem_reverse.1 (mem_of_lookup hspec))
    obtain ⟨rfl, rfl⟩ := Prod.mk.inj hentry
    rw [Declaration.default_eq_none hrequired] at hdefault
    cases hdefault

/-! ### What defaults do -/

variable (schema : Schema) (options : Options)

/-- A name is missing if it is declared as required and has no value. -/
theorem mem_missing {name : String} :
    name ∈ schema.missing options ↔
      ∃ spec, (name, spec) ∈ schema.specs.entries ∧ spec.required = true ∧
        options.get? name = none := by
  simp [missing, OrderedMap.contains]

/-- Defaults hide no missing option if and only if no required option has one. -/
theorem missing_fillDefaults_iff :
    (∀ options, schema.missing (schema.fillDefaults options) = schema.missing options) ↔
      ∀ name spec, schema.specs.get? name = some spec → spec.required = true →
        spec.default = none := by
  constructor
  · intro hsame name spec hspec hrequired
    have hmissing : name ∈ schema.missing ∅ :=
      (schema.mem_missing ∅).2 ⟨spec, mem_of_lookup hspec, hrequired, rfl⟩
    rw [← hsame, mem_missing] at hmissing
    obtain ⟨-, -, -, habsent⟩ := hmissing
    rw [get?_fillDefaults, default?, hspec, Option.or_eq_none_iff] at habsent
    exact habsent.2
  · intro happart options
    refine congrArg (List.map Prod.fst) (List.filter_congr fun declared hdeclared => ?_)
    obtain ⟨name, spec⟩ := declared
    have hspec : schema.specs.get? name = some spec := schema.specs.get?_of_mem hdeclared
    dsimp only
    cases hrequired : spec.required with
    | false => rw [Bool.false_and, Bool.false_and]
    | true =>
      have hdefault : schema.default? name = none := by
        rw [default?, hspec, Option.bind_some, happart name spec hspec hrequired]
      simp only [OrderedMap.contains, get?_fillDefaults, hdefault, Option.or_none]

/-- Defaults that have been put in are not put in again. -/
theorem fillDefaults_fillDefaults :
    schema.fillDefaults (schema.fillDefaults options) = schema.fillDefaults options := by
  have hnone : schema.defaultNames.filter (· ∉ (schema.fillDefaults options).keys) = [] := by
    rw [List.filter_eq_nil_iff]
    intro name hname
    by_cases hgiven : name ∈ options.keys <;> simp [keys_fillDefaults, hname, hgiven]
  refine OrderedMap.ext_get? ?_ fun name _ => ?_
  · rw [keys_fillDefaults schema (schema.fillDefaults options), hnone, List.append_nil]
  · rw [get?_fillDefaults, get?_fillDefaults, Option.or_assoc, Option.or_self]

/-- The defaults that are put behind, name by name. -/
theorem entries_fillDefaults_names :
    (schema.fillDefaults options).entries = options.entries ++
      (schema.specs.keys.filter (· ∉ options.keys)).filterMap fun name =>
        (schema.default? name).map (name, ·) := by
  rw [entries_fillDefaults, schema.specs.entries_eq, List.filterMap_filterMap,
    List.filter_filterMap, List.filterMap_filter]
  congr 1
  refine List.filterMap_congr fun name _ => ?_
  rw [default?]
  cases schema.specs.get? name with
  | none => simp
  | some spec =>
    rw [Option.map_some, Option.bind_some, Option.bind_some]
    cases spec.default with
    | none => simp
    | some value => simp [← options.contains_iff, Option.filter]

/-- **The defaults of a schema that is built from declarations fill gaps and nothing else.**  Each
name has the place of its first declaration and counts as its last one says, which never both
requires it and has a default; so the defaults hide no required option. -/
theorem ofDeclarations_fillsGaps (declarations : List Declaration) (options : Options) :
    (ofDeclarations declarations).Lists declarations ∧
      (ofDeclarations declarations).FillsGaps declarations options := by
  have hlists := lists_ofDeclarations declarations
  refine ⟨hlists, ?_, ?_, ?_, ?_⟩
  · refine (missing_fillDefaults_iff _).2 (fun name spec hspec hrequired => ?_) options
    exact Option.not_isSome_iff_eq_none.1 fun hdefault =>
      hlists.apart name spec hspec ⟨hrequired, hdefault⟩
  · intro name value hvalue
    rw [get?_fillDefaults, hvalue, Option.some_or]
  · rw [entries_fillDefaults_names, gaps, ← hlists.names]
    simp only [default?, hlists.last]
  · exact fillDefaults_fillDefaults _ options

-- what is required last has lost its default, though it keeps its place
example : (ofDeclarations [.withDefault "tag" "" .null, .withDefault "draft" "" .null,
    .required "tag" ""]).missing ∅ = ["tag"] := by decide +kernel

end Schema

end TaskEngine
