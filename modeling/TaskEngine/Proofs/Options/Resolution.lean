import TaskEngine.Proofs.Calls.Frames
import TaskEngine.Proofs.Log.Recorded
import TaskEngine.Proofs.Options.References

/-!
# How the options of a task are resolved

The options of a task come from three places: its configuration, what its caller asked for, and
the defaults of its schema.  `OptionSources` names these places and says, without following how
the options are put together, which names the task has options of, in which order, and where
each value comes from.  A task is constructed unless a required name has no source at all.

## Main definitions

* `OptionRequest`, `Builder.asking` — what a caller asks for, one request after another.
* `OptionSources.names`, `OptionSources.value?` — the names in order, and their values.
* `OptionSources.lacking` — the required names without a source.
* `Builder.FollowsSources` — a construction goes by the sources.
* `Construction`, `builtIds` — constructions in a row, and the numbers of their tasks.

## Main results

* `Options.merge_collected` — **what is asked for can be collected first and merged later.**
* `OptionSources.keys_filled`, `OptionSources.get?_filled` — merging and filling yields the
  reference, and `OptionSources.missing_of_keys` — what is missing then had no source.
* `Builder.build_resolves` — **constructions go by the sources, and number tasks upwards.**
-/

namespace TaskEngine

/-- What a caller asks for in one step. -/
inductive OptionRequest
  /-- A value of one option. -/
  | one (key : String) (value : Value)
  /-- Values of several options. -/
  | several (overrides : Options)

/-- The values that are asked for, in order. -/
def OptionRequest.pairs : OptionRequest → List (String × Value)
  | .one key value => [(key, value)]
  | .several overrides => overrides.entries

/-- Makes a request. -/
def Builder.ask (builder : Builder) : OptionRequest → Builder
  | .one key value => builder.option key value
  | .several overrides => builder.options overrides

/-- Makes requests, one after another. -/
def Builder.asking (builder : Builder) (requests : List OptionRequest) : Builder :=
  requests.foldl Builder.ask builder

theorem Builder.asking_eq (builder : Builder) (requests : List OptionRequest) :
    builder.asking requests =
      { builder with
        overrides := builder.overrides.insertAll (requests.flatMap OptionRequest.pairs) } := by
  induction requests generalizing builder with
  | nil => rfl
  | cons request requests ih =>
    have hask : builder.ask request =
        { builder with overrides := builder.overrides.insertAll request.pairs } := by
      cases request with
      | one key value => rfl
      | several overrides => rfl
    show (builder.ask request).asking requests = _
    rw [ih, hask, List.flatMap_cons, OrderedMap.insertAll_append]

/-- What is asked for is put into the options that it is merged with, pair by pair. -/
theorem Builder.merge_asking (builder : Builder) (requests : List OptionRequest)
    (configured : Option Options) :
    Options.merge configured (builder.asking requests).overrides =
      (Options.merge configured builder.overrides).insertAll
        (requests.flatMap OptionRequest.pairs) := by
  rw [asking_eq, Options.merge, OrderedMap.extend_insertAll, OrderedMap.insertAll_append]
  rfl

/-- **Requests can be collected first and merged later.**  The options come out as if each value
asked for were put into the configured ones at once, in the order of the requests; and of three maps
it does not matter which two are merged first. -/
theorem Options.merge_collected :
    (∀ (configured : Option Options) (project : Project) (config : TaskConfig)
      (requests : List OptionRequest),
      Options.merge configured ((Builder.start project config).asking requests).overrides =
        (configured.getD ∅).insertAll (requests.flatMap OptionRequest.pairs)) ∧
    ∀ configured overrides later : Options,
      Options.merge (some (Options.merge (some configured) overrides)) later =
        Options.merge (some configured) (Options.merge (some overrides) later) := by
  constructor
  · intro configured project config requests
    exact (Builder.start project config).merge_asking requests configured
  · intro configured overrides later
    exact configured.extend_assoc overrides later

/-- Where the options of a task come from. -/
structure OptionSources where
  /-- The options of the configuration. -/
  configured : Options
  /-- The values asked for, in the order of the requests. -/
  asked : List (String × Value)
  /-- The options that the task understands. -/
  schema : Schema

namespace OptionSources

variable (sources : OptionSources)

/-- The names that are configured or asked for; with which value does not matter. -/
def given : List String := sources.configured.keys ++ sources.asked.map Prod.fst

/-- The names of the options: the configured ones, then those only asked for, in the order in
which they were asked for, then those that only have a default, as the schema declares them. -/
def names : List String :=
  sources.configured.keys ++ newNames sources.configured.keys (sources.asked.map Prod.fst) ++
    sources.schema.defaultNames.filter (· ∉ sources.given)

/-- The value of an option: the last one asked for, or the configured one, or the default. -/
def value? (name : String) : Option Value :=
  (lastValue? sources.asked name).or
    ((sources.configured.get? name).or (sources.schema.default? name))

/-- The required names without a source, as the schema declares them. -/
def lacking : List String :=
  (sources.schema.specs.entries.filter fun (name, spec) =>
    spec.required && spec.default.isNone && decide (name ∉ sources.given)).map Prod.fst

/-- The attributes that the options refer to but that are not defined, in the order of the
options and of their texts. -/
def undefinedNames (lookup : Lookup) : List String :=
  sources.names.flatMap fun name =>
    ((sources.value? name).map (Value.undefinedNames lookup)).getD []

/-! ### Merging and filling -/

/-- The options from all sources, before references are replaced. -/
def filled : Options := sources.schema.fillDefaults (sources.configured.insertAll sources.asked)

theorem mem_keys_insertAll {name : String} :
    name ∈ (sources.configured.insertAll sources.asked).keys ↔ name ∈ sources.given := by
  rw [OrderedMap.keys_insertAll, given, List.mem_append, List.mem_append, mem_newNames]
  by_cases hname : name ∈ sources.configured.keys <;> simp [hname]

theorem keys_filled : sources.filled.keys = sources.names := by
  rw [filled, Schema.keys_fillDefaults, names, ← OrderedMap.keys_insertAll]
  congr 1
  refine List.filter_congr fun name _ => ?_
  simp only [sources.mem_keys_insertAll]

theorem get?_filled (name : String) : sources.filled.get? name = sources.value? name := by
  rw [filled, Schema.get?_fillDefaults, OrderedMap.get?_insertAll, value?, Option.or_assoc]

/-- A declared name has a default exactly if its declaration has one. -/
theorem mem_defaultNames {schema : Schema} {name : String} {spec : OptionSpec}
    (h : (name, spec) ∈ schema.specs.entries) :
    name ∈ schema.defaultNames ↔ spec.default.isSome = true := by
  rw [Schema.defaultNames, List.mem_map]
  constructor
  · rintro ⟨⟨name, spec'⟩, hmem, rfl⟩
    rw [List.mem_filter] at hmem
    have hspec : some spec' = some spec :=
      (schema.specs.get?_of_mem hmem.1).symm.trans (schema.specs.get?_of_mem h)
    rw [← Option.some.inj hspec]
    exact hmem.2
  · intro hdefault
    exact ⟨(name, spec), List.mem_filter.2 ⟨h, hdefault⟩, rfl⟩

theorem mem_names {name : String} {spec : OptionSpec}
    (h : (name, spec) ∈ sources.schema.specs.entries) :
    name ∈ sources.names ↔ name ∈ sources.given ∨ spec.default.isSome = true := by
  rw [names, ← OrderedMap.keys_insertAll, List.mem_append, sources.mem_keys_insertAll,
    List.mem_filter, mem_defaultNames h]
  by_cases hname : name ∈ sources.given <;> simp [hname]

/-- What is missing among options of these names has no source. -/
theorem missing_of_keys {options : Options} (h : options.keys = sources.names) :
    sources.schema.missing options = sources.lacking := by
  rw [Schema.missing, lacking]
  congr 1
  refine List.filter_congr fun declared hdeclared => ?_
  obtain ⟨name, spec⟩ := declared
  -- a required name is there exactly if it has a source; its value does not matter
  have hcontains : options.contains name = true ↔
      name ∈ sources.given ∨ spec.default.isSome = true := by
    rw [options.contains_iff, h, sources.mem_names hdeclared]
  rw [Bool.eq_iff_iff]
  simp only [Bool.and_eq_true, Bool.not_eq_true', ← Bool.not_eq_true, hcontains, not_or,
    Option.not_isSome_iff_eq_none, Option.isNone_iff_eq_none, decide_eq_true_eq]
  rw [and_assoc, and_comm (a := spec.default = none)]

end OptionSources

namespace Builder

variable {σ : Type} (builder : Builder) (requests : List OptionRequest)

/-- Where the options of a task come from, after requests. -/
def sources (schema : Schema) : OptionSources where
  configured := builder.config.options.getD ∅
  asked := builder.overrides.entries ++ requests.flatMap OptionRequest.pairs
  schema := schema

/-- The lines that tell of the attributes that are not defined. -/
def undefinedLines (schema : Schema) : List (LogLevel × String) :=
  ((builder.sources requests schema).undefinedNames (Lookup.ofProject builder.project)).map
    fun name => (.warning, undefinedNotice name)

/-- The lines that show options where that is wanted. -/
def optionLines (settings : EngineSettings) (options : Options) : List (LogLevel × String) :=
  if builder.debug.getD settings.debugMode then (optionNotices options).map (.debug, ·) else []

/-- The world in which a task is constructed, with lines of its logger and a number for the next
task. -/
def worldWith (profile : Profile σ) (world : World) (lines : List (LogLevel × String))
    (nextTaskId : Nat) : World :=
  { (builder.taskLogger profile.className world).2 with
    book := (builder.taskLogger profile.className world).2.book.recordAll
      (builder.taskLogger profile.className world).1 lines
    nextTaskId }

/-- The construction of a task goes by the sources of its options.  In the world it leaves the
lines behind that it recorded, and the number for the next task. -/
structure FollowsSources (settings : EngineSettings) (profile : Profile σ) (world : World) :
    Prop where
  /-- A required name has no source: nothing is constructed, and no number given. -/
  refused : (builder.sources requests profile.schema).lacking ≠ [] →
    (builder.asking requests).build settings profile world =
      (.error (.options profile.className (builder.sources requests profile.schema).lacking),
        builder.worldWith profile world (builder.undefinedLines requests profile.schema)
          world.nextTaskId)
  /-- Otherwise a task with the next number is constructed, and its options come from the
  sources. -/
  built : (builder.sources requests profile.schema).lacking = [] → ∃ task,
    (builder.asking requests).build settings profile world =
      (.ok task,
        builder.worldWith profile world (builder.undefinedLines requests profile.schema ++
          builder.optionLines settings task.options) (world.nextTaskId + 1)) ∧
    task.id = world.nextTaskId ∧
    task.options.keys = (builder.sources requests profile.schema).names ∧
    ∀ name, task.options.get? name =
      ((builder.sources requests profile.schema).value? name).map
        (Value.expanded (Lookup.ofProject builder.project))

theorem resolveOptions_asking (schema : Schema) :
    (builder.asking requests).resolveOptions schema =
      (builder.sources requests schema).filled.resolveReferences
        (Lookup.ofProject builder.project) := by
  rw [asking_eq, resolveOptions, Options.merge, OrderedMap.extend_insertAll]
  rfl

theorem taskLogger_asking (className : String) (world : World) :
    (builder.asking requests).taskLogger className world =
      builder.taskLogger className world := by
  rw [asking_eq]
  rfl

theorem worldWith_asking (profile : Profile σ) (world : World) :
    (builder.asking requests).worldWith profile world = builder.worldWith profile world := by
  funext lines next
  rw [worldWith, taskLogger_asking]
  rfl

theorem optionLines_asking (settings : EngineSettings) :
    (builder.asking requests).optionLines settings = builder.optionLines settings := by
  rw [asking_eq]
  rfl

theorem undefinedLines_eq (schema : Schema) :
    builder.undefinedLines requests schema =
      ((builder.asking requests).resolveOptions schema).2.map
        fun name => (.warning, undefinedNotice name) := by
  rw [resolveOptions_asking, Options.undefined_resolveReferences, OptionSources.keys_filled]
  simp only [OptionSources.get?_filled]
  rfl

section Build

variable (settings : EngineSettings) (profile : Profile σ) (world : World)

theorem logAll_undefined (undefined : List String) :
    logAll (builder.taskLogger profile.className world).2
        (builder.taskLogger profile.className world).1 .warning (undefined.map undefinedNotice) =
      builder.worldWith profile world (undefined.map fun name => (.warning, undefinedNotice name))
        world.nextTaskId := by
  rw [World.logAll_eq, List.map_map, worldWith,
    ← nextTaskId_taskLogger builder profile.className world]
  rfl

theorem logAll_options (options : Options) (lines : List (LogLevel × String)) (next : Nat) :
    (if builder.debug.getD settings.debugMode then
        logAll (builder.worldWith profile world lines next)
          (builder.taskLogger profile.className world).1 .debug (optionNotices options)
      else builder.worldWith profile world lines next) =
      builder.worldWith profile world (lines ++ builder.optionLines settings options) next := by
  rw [optionLines]
  by_cases hdebug : builder.debug.getD settings.debugMode = true
  · rw [if_pos hdebug, if_pos hdebug, World.logAll_eq, worldWith, worldWith,
      LogBook.recordAll_append]
  · rw [if_neg hdebug, if_neg hdebug, List.append_nil]

theorem build_of_missing
    (h : profile.schema.missing (builder.resolveOptions profile.schema).1 ≠ []) :
    builder.build settings profile world =
      (.error (.options profile.className
        (profile.schema.missing (builder.resolveOptions profile.schema).1)),
        builder.worldWith profile world ((builder.resolveOptions profile.schema).2.map
          fun name => (.warning, undefinedNotice name)) world.nextTaskId) := by
  rw [build]
  dsimp only
  rw [if_pos h, logAll_undefined]

theorem build_of_complete
    (h : profile.schema.missing (builder.resolveOptions profile.schema).1 = []) :
    ∃ task, builder.build settings profile world =
      (.ok task, builder.worldWith profile world
        (((builder.resolveOptions profile.schema).2.map
          fun name => (.warning, undefinedNotice name)) ++
            builder.optionLines settings task.options) (world.nextTaskId + 1)) ∧
      task.id = world.nextTaskId ∧ task.options = (builder.resolveOptions profile.schema).1 := by
  rw [build]
  dsimp only
  rw [if_neg (not_not_intro h), logAll_undefined, logAll_options]
  exact ⟨_, rfl, rfl, rfl⟩

end Build

theorem followsSources (settings : EngineSettings) (profile : Profile σ) (world : World) :
    builder.FollowsSources requests settings profile world := by
  have hkeys := (Options.keys_resolveReferences (Lookup.ofProject builder.project) _).trans
    (builder.sources requests profile.schema).keys_filled
  have hmissing : profile.schema.missing
      ((builder.asking requests).resolveOptions profile.schema).1 =
        (builder.sources requests profile.schema).lacking := by
    rw [resolveOptions_asking]
    exact (builder.sources requests profile.schema).missing_of_keys hkeys
  have hworld := builder.worldWith_asking requests profile world
  constructor
  · intro hlacking
    rw [build_of_missing _ _ _ _ (hmissing ▸ hlacking), hmissing, hworld, ← undefinedLines_eq]
  · intro hlacking
    obtain ⟨task, hbuild, hid, hoptions⟩ :=
      (builder.asking requests).build_of_complete settings profile world (hmissing.trans hlacking)
    rw [hworld, ← undefinedLines_eq, optionLines_asking] at hbuild
    rw [resolveOptions_asking] at hoptions
    refine ⟨task, hbuild, hid, hoptions ▸ hkeys, fun name => ?_⟩
    rw [hoptions, Options.get?_resolveReferences, OptionSources.get?_filled]

end Builder

/-! ### Constructions in a row -/

/-- A call of a task of any kind; what its parts do may include constructing and calling further
tasks. -/
structure TaskCall where
  /-- The type of the data that the task keeps for itself. -/
  σ : Type
  /-- The kind of task. -/
  kind : TaskKind σ
  /-- The settings of the engine. -/
  settings : EngineSettings
  /-- The bound on the rounds of loops. -/
  limit : Nat
  /-- The stack that it is called on. -/
  stack : StackId
  /-- The task. -/
  task : TaskState
  /-- The data of the task. -/
  own : σ

/-- The world after a call. -/
def TaskCall.after (call : TaskCall) (world : World) : World :=
  (call.kind.call call.settings call.limit call.stack ⟨world, call.task, call.own⟩).2.world

theorem TaskCall.keeps (call : TaskCall) (world : World) : world.Keeps (call.after world) :=
  keptWorld_callOn call.kind.profile (call.kind.kept_hook call.settings call.limit) call.stack
    ⟨world, call.task, call.own⟩

/-- The construction of a task, and the calls of tasks before it. -/
structure Construction where
  /-- The type of the data that the task keeps for itself. -/
  σ : Type
  /-- The kind of task. -/
  profile : Profile σ
  /-- The settings of the engine. -/
  settings : EngineSettings
  /-- What the caller asks for. -/
  builder : Builder
  /-- The tasks that are called before. -/
  calls : List TaskCall

namespace Construction

variable (construction : Construction) (world : World)

/-- The world in which the construction starts. -/
def before : World := construction.calls.foldl (fun world call => call.after world) world

/-- The construction, behind the calls. -/
def build : Except TaskError TaskState × World :=
  construction.builder.build construction.settings construction.profile (construction.before world)

theorem keeps_before : world.Keeps (construction.before world) := by
  rw [before]
  induction construction.calls generalizing world with
  | nil => exact .refl world
  | cons call calls ih => exact (call.keeps world).trans (ih _)

end Construction

/-- The numbers of the tasks that are constructed in a row. -/
def builtIds : World → List Construction → List Nat
  | _, [] => []
  | world, construction :: later => match construction.build world with
    | (.ok task, world) => task.id :: builtIds world later
    | (.error _, world) => builtIds world later

/-- No task gets a number that was given before. -/
theorem le_of_mem_builtIds {constructions : List Construction} {world : World} {id : Nat}
    (h : id ∈ builtIds world constructions) : world.nextTaskId ≤ id := by
  induction constructions generalizing world with
  | nil => exact absurd h List.not_mem_nil
  | cons construction later ih =>
    have hbefore := (construction.keeps_before world).nextTaskId
    have hbuild := (World.keeps_build construction.builder construction.settings
      construction.profile (construction.before world)).nextTaskId
    rw [builtIds, Construction.build] at h
    split at h
    · -- numbers grow in the calls before, in the construction, and in what comes later
      rename_i task world' hbuilt
      rw [hbuilt] at hbuild
      rcases List.mem_cons.1 h with rfl | hlater
      · rw [(id_of_build hbuilt).1]
        exact hbefore
      · exact hbefore.trans (hbuild.trans (ih hlater))
    · rename_i error world' hbuilt
      rw [hbuilt] at hbuild
      exact hbefore.trans (hbuild.trans (ih h))

theorem pairwise_builtIds (world : World) (constructions : List Construction) :
    (builtIds world constructions).Pairwise (· < ·) := by
  induction constructions generalizing world with
  | nil => exact List.Pairwise.nil
  | cons construction later ih =>
    rw [builtIds, Construction.build]
    split
    · rename_i task world' hbuilt
      refine List.pairwise_cons.2 ⟨fun id hid => ?_, ih world'⟩
      obtain ⟨htask, hnext⟩ := id_of_build hbuilt
      have hle := le_of_mem_builtIds hid
      omega
    · exact ih _

namespace Builder

/-- **Constructions go by the sources of the options**: the names, their order and their values,
the lines recorded, and whether there is a task at all, are those of the sources.  Tasks that are
constructed later have greater numbers. -/
theorem build_resolves :
    (∀ {σ : Type} (builder : Builder) (requests : List OptionRequest) (settings : EngineSettings)
      (profile : Profile σ) (world : World),
      builder.FollowsSources requests settings profile world) ∧
    ∀ (world : World) (constructions : List Construction),
      (builtIds world constructions).Pairwise (· < ·) :=
  ⟨followsSources, pairwise_builtIds⟩

end Builder

end TaskEngine
