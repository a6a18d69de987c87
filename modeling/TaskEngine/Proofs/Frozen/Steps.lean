import TaskEngine.Proofs.Calls.Restored
import TaskEngine.Proofs.Documents.Configs
import TaskEngine.Task.Freeze

/-!
# Frozen steps can be replayed

A frozen step shows what its task asks to be shown, next to fields of its own.  What is shown in
addition never takes the name of such a field, so the step is written without repeating a name, and
whoever reads it back finds the same step.

## Main definitions

* `Value.fieldNames` — the names of the fields of an object, as they are written.
* `UiStep.declaredNames` — the fields that every step has.
* `UiStep.Readable` — all that a step holds reads back, and nothing shown in addition has a
  declared name.
* `UiStep.Freezes` — a step is the record of a task at its place in a flow.

## Main results

* `UiStep.readOpen_nodeOf` — a readable step is read back.
* `UiStep.extra_overrideAll`, `UiStep.taskPart_overrideAll` — what is shown in addition, and what
  does not depend on it.
* `freezeTask_replayable` — **a task is frozen into one step, which reads back as it is.**
-/

namespace TaskEngine

/-- The names of the fields of an object, as they are written. -/
def Value.fieldNames : Value → List String
  | .object fields => fields.map Prod.fst
  | _ => []

open Json DocumentNode

/-! ### Fields of a step -/

namespace UiStep

/-- The fields that every step has: some before and some behind what is shown in addition. -/
def declaredNames : List String := ["name", "kind", "is_required"] ++ frozenKeys

/-- Nothing shown in addition has the name of a declared field. -/
def Apart (step : UiStep) : Prop := ∀ entry ∈ step.extra.entries, entry.1 ∉ declaredNames

/-- All that a step holds reads back where it stands in the step. -/
structure Readable (step : UiStep) : Prop where
  apart : step.Apart
  extra : ∀ entry ∈ step.extra.entries, ReadsBack 1 entry.2
  options : ∀ entry ∈ step.taskConfig.options.entries, ReadsBack 3 entry.2
  checks : ∀ check ∈ step.taskConfig.checks, ReadsBack 3 check
  source : ReadsBack 1 step.source

theorem fieldNames_toDocument (step : UiStep) :
    step.toDocument.fieldNames =
      ["name", "kind", "is_required"] ++ step.extra.keys ++ frozenKeys := by
  rw [toDocument, Value.fieldNames, List.map_append, List.map_append]
  rfl

variable {step : UiStep}

theorem Apart.nodup (h : step.Apart) : step.toDocument.fieldNames.Nodup := by
  have hextra : ∀ name ∈ step.extra.keys, name ∉ declaredNames := by
    intro name hname
    obtain ⟨entry, hentry, rfl⟩ := List.mem_map.1 hname
    exact h entry hentry
  have hfront : (["name", "kind", "is_required"] ++ step.extra.keys).Nodup :=
    List.nodup_append.2 ⟨by decide, step.extra.nodup, fun a ha b hb e =>
      hextra b hb (e ▸ List.mem_append_left _ ha)⟩
  rw [fieldNames_toDocument]
  refine List.nodup_append.2 ⟨hfront, by decide, fun a ha b hb e => ?_⟩
  rcases List.mem_append.1 ha with ha | ha
  · have hapart : ∀ a ∈ ["name", "kind", "is_required"], a ∉ frozenKeys := by decide
    exact hapart a ha (e ▸ hb)
  · exact hextra a ha (e ▸ List.mem_append_right _ hb)

theorem nodup_known : ((UiStep.reader (D := Node)).known.map Prod.fst).Nodup := by decide

theorem Readable.taskConfig (h : step.Readable) :
    FrozenConfig.reader.read (nodeOf (maxLevels - 1) step.taskConfig.toDocument) =
      .ok step.taskConfig := by
  have hreadable : step.taskConfig.Readable (maxLevels - 1) :=
    ⟨fun entry hentry => (h.options entry hentry).valueOf,
      fun check hcheck => (h.checks check hcheck).valueOf⟩
  exact hreadable.read_nodeOf (by decide)

/-- A step is made again of its declared fields. -/
theorem Readable.recovers (h : step.Readable) :
    UiStep.reader.Recovers (nodeOf (maxLevels - 1)) (fun extra => { step with extra })
      [("name", some (.ofText? step.name)), ("kind", some (.string step.kind)),
        ("is_required", some (.bool step.isRequired)), ("path", some (.string step.path)),
        ("step_num", some (.string step.stepNum)), ("task_class", some (.ofText? step.taskClass)),
        ("task_config", some step.taskConfig.toDocument), ("source", some step.source)] := by
  have hsource : DocumentNode.value (nodeOf (maxLevels - 1) step.source) = .ok step.source :=
    h.source.valueOf
  exact ((((((((recovers_text? (maxLevels - 1) "name" step.name).map _).seq
    (recovers_text _ "kind" step.kind)).seq
    (RecordReader.recovers_required (flag_nodeOf _ step.isRequired) "is_required")).seq
    (recovers_text _ "path" step.path)).seq (recovers_text _ "step_num" step.stepNum)).seq
    (recovers_text? _ "task_class" step.taskClass)).seq
    (RecordReader.recovers_required h.taskConfig "task_config")).seq
    (RecordReader.recovers_required hsource "source")

/-- **A readable step is read back.** -/
theorem readOpen_nodeOf (h : step.Readable) :
    UiStep.reader.readOpen (nodeOf maxLevels step.toDocument) = .ok step :=
  Json.readOpen_nodeOf (by decide) h.recovers nodup_known rfl h.apart fun entry hentry =>
    (h.extra entry hentry).valueOf

theorem read_toDocument (h : step.Readable) :
    Json.read UiStep.reader.readOpen step.toDocument.text = .ok step := by
  rw [Json.read_text]
  exact readOpen_nodeOf h

/-! ### What is shown in addition -/

/-- What a step says of its task and of the place in the flow. -/
def taskPart (step : UiStep) : String × String × Option String × FrozenConfig × Value :=
  (step.path, step.stepNum, step.taskClass, step.taskConfig, step.source)

theorem taskPart_override (step : UiStep) (key : String) (value : Value) :
    (step.override key value).taskPart = step.taskPart := by
  unfold override
  repeat' split
  all_goals rfl

theorem extra_override (step : UiStep) (key : String) (value : Value) :
    (step.override key value).extra =
      if key ∈ declaredNames then step.extra else step.extra.insert key value := by
  have hdeclared : key ∈ declaredNames ↔
      key = "name" ∨ key = "kind" ∨ key = "is_required" ∨ key ∈ frozenKeys := by
    simp [declaredNames]
  unfold override
  by_cases hname : key = "name"
  · rw [if_pos hname, if_pos (hdeclared.2 (Or.inl hname))]
  · rw [if_neg hname]
    by_cases hkind : key = "kind"
    · rw [if_pos hkind, if_pos (hdeclared.2 (Or.inr (Or.inl hkind)))]
    · rw [if_neg hkind]
      by_cases hrequired : key = "is_required"
      · rw [if_pos hrequired, if_pos (hdeclared.2 (Or.inr (Or.inr (Or.inl hrequired))))]
      · rw [if_neg hrequired]
        by_cases hfrozen : key ∈ frozenKeys
        · rw [if_pos hfrozen, if_pos (hdeclared.2 (Or.inr (Or.inr (Or.inr hfrozen))))]
        · rw [if_neg hfrozen, if_neg fun h => by
            rcases hdeclared.1 h with h | h | h | h
            · exact hname h
            · exact hkind h
            · exact hrequired h
            · exact hfrozen h]

/-- Shows something else in a step, one option after another. -/
def overrideAll (step : UiStep) (options : List (String × Value)) : UiStep :=
  options.foldl (fun shown (key, value) => shown.override key value) step

theorem taskPart_overrideAll (step : UiStep) (options : List (String × Value)) :
    (step.overrideAll options).taskPart = step.taskPart := by
  induction options generalizing step with
  | nil => rfl
  | cons option options ih =>
    show ((step.override option.1 option.2).overrideAll options).taskPart = _
    rw [ih, taskPart_override]

/-- What has no declared name is shown in addition. -/
theorem extra_overrideAll (step : UiStep) (options : List (String × Value)) :
    (step.overrideAll options).extra =
      step.extra.insertAll (options.filter fun option => option.1 ∉ declaredNames) := by
  induction options generalizing step with
  | nil => rfl
  | cons option options ih =>
    show ((step.override option.1 option.2).overrideAll options).extra = _
    rw [ih, extra_override, List.filter_cons]
    by_cases hdeclared : option.1 ∈ declaredNames
    · rw [if_pos hdeclared, if_neg (by simpa using hdeclared)]
    · rw [if_neg hdeclared, if_pos (by simpa using hdeclared)]
      rfl

end UiStep

/-! ### Freezing a task -/

/-- A step is the record of a task at its place in a flow.  What the task asks to be shown makes no
difference but to what is shown. -/
structure UiStep.Freezes (frozen : UiStep) (task : TaskState) (step : StepDescriptor) : Prop where
  path : frozen.path = step.path
  stepNum : frozen.stepNum = step.stepNum
  taskClass : frozen.taskClass = task.config.classPath
  taskConfig : frozen.taskConfig = ⟨task.options, task.config.checks⟩
  source : frozen.source = step.source.frozen
  extra : frozen.extra.entries =
    task.config.uiOptions.entries.filter fun option => option.1 ∉ UiStep.declaredNames

/-- All values that a task holds read back where they stand in a step. -/
structure TaskState.ReadsBack (task : TaskState) : Prop where
  shown : ∀ option ∈ task.config.uiOptions.entries, Json.ReadsBack 1 option.2
  options : ∀ option ∈ task.options.entries, Json.ReadsBack 3 option.2
  checks : ∀ check ∈ task.config.checks, Json.ReadsBack 3 check

/-- A frozen source is an object of texts, with its keys in ascending order. -/
theorem ProjectSource.readsBack_frozen (source : ProjectSource) :
    Json.ReadsBack 1 source.frozen := by
  rw [Json.ReadsBack, Json.readValue, Json.read_text]
  show Json.valueOf Json.maxLevels (.ofValue (.array [source.frozen])) =
    .ok (.array [source.frozen])
  cases source with
  | directory path =>
    have hfield : ∀ path, Value.objectOf [("path", path)] = .object [("path", path)] :=
      fun _ => rfl
    cases path <;>
      simp [frozen, Value.ofText?, Tree.ofValue, Tree.ofItems, Tree.ofFields, valueOf, itemValues,
        fieldValues, enter, maxLevels, textOf, hfield, Except.map]
  | hosted url commit description =>
    have hfields : ∀ commit description github,
        Value.objectOf [("commit", commit), ("description", description), ("github", github)] =
          .object [("commit", commit), ("description", description), ("github", github)] :=
      fun _ _ _ => rfl
    simp [frozen, Tree.ofValue, Tree.ofItems, Tree.ofFields, valueOf, itemValues, fieldValues,
      enter, maxLevels, textOf, hfields, Except.map]

namespace UiStep

variable {frozen : UiStep} {task : TaskState} {step : StepDescriptor}

theorem Freezes.apart (h : frozen.Freezes task step) : frozen.Apart := by
  intro entry hentry
  rw [h.extra, List.mem_filter] at hentry
  simpa using hentry.2

theorem Freezes.readable (h : frozen.Freezes task step) (hreads : task.ReadsBack) :
    frozen.Readable where
  apart := h.apart
  extra := by
    intro entry hentry
    rw [h.extra, List.mem_filter] at hentry
    exact hreads.shown entry hentry.1
  options := by
    rw [h.taskConfig]
    exact hreads.options
  checks := by
    rw [h.taskConfig]
    exact hreads.checks
  source := by
    rw [h.source]
    exact step.source.readsBack_frozen

end UiStep

/-- **A task is frozen into one step, which reads back as it is.**  The step is the record of the
task, and its fields are the declared ones, with what is shown in addition between them; no name
occurs twice.  If the values that the task holds read back, then so does the step. -/
theorem freezeTask_replayable (task : TaskState) (step : StepDescriptor) :
    ∃ frozen, freezeTask task step = [frozen] ∧ frozen.Freezes task step ∧
      frozen.toDocument.fieldNames = ["name", "kind", "is_required"] ++
        task.config.uiOptions.keys.filter (· ∉ UiStep.declaredNames) ++ frozenKeys ∧
      frozen.toDocument.fieldNames.Nodup ∧
      (task.ReadsBack → Json.read UiStep.reader.readOpen frozen.toDocument.text = .ok frozen) := by
  let frozen := (plainStep task step).overrideAll task.config.uiOptions.entries
  have hpart : frozen.taskPart = (plainStep task step).taskPart :=
    UiStep.taskPart_overrideAll _ _
  have hextra : frozen.extra.entries =
      task.config.uiOptions.entries.filter fun option => option.1 ∉ UiStep.declaredNames := by
    have hkeys := task.config.uiOptions.nodup.sublist
      ((List.filter_sublist (p := fun option => option.1 ∉ UiStep.declaredNames)).map Prod.fst)
    rw [UiStep.extra_overrideAll]
    exact OrderedMap.entries_insertAll ∅ hkeys
  simp only [UiStep.taskPart, Prod.mk.injEq] at hpart
  obtain ⟨hpath, hnum, hclass, hconfig, hsource⟩ := hpart
  have hfreezes : frozen.Freezes task step := ⟨hpath, hnum, hclass, hconfig, hsource, hextra⟩
  refine ⟨frozen, rfl, hfreezes, ?_, hfreezes.apart.nodup, fun hreads => ?_⟩
  · rw [UiStep.fieldNames_toDocument, OrderedMap.keys, hextra, OrderedMap.keys, List.filter_map]
    rfl
  · exact UiStep.read_toDocument (hfreezes.readable hreads)

/-- A task that asks for another kind of step, for another path, which it does not get, and for
something in addition. -/
def TaskState.reviewing : TaskState :=
  { TaskState.captured "Review" ⟨"tasks", 0⟩ with
    config := { TaskConfig.ofClass "Review" with
      checks := [.array [.bool true]]
      uiOptions := OrderedMap.ofList [("kind", .string "manual"), ("path", .null),
        ("color", .object [("border", .string "a\"b")])] }
    options := OrderedMap.ofList [("note", .string "two\nlines")] }

theorem TaskState.readsBack_reviewing : TaskState.reviewing.ReadsBack := by
  constructor
  · intro option hoption
    have hentries : option ∈ [("kind", Value.string "manual"), ("path", .null),
        ("color", .object [("border", .string "a\"b")])] := hoption
    simp only [List.mem_cons, List.not_mem_nil, or_false] at hentries
    rcases hentries with rfl | rfl | rfl <;>
      rw [Json.ReadsBack, Json.readValue, Json.read_text] <;> rfl
  · intro option hoption
    have hentries : option ∈ [("note", Value.string "two\nlines")] := hoption
    rw [List.mem_singleton.1 hentries, Json.ReadsBack, Json.readValue, Json.read_text]
    rfl
  · intro check hcheck
    have hchecks : check ∈ [Value.array [.bool true]] := hcheck
    rw [List.mem_singleton.1 hchecks, Json.ReadsBack, Json.readValue, Json.read_text]
    rfl

theorem freezeTask_replayable_reviewing :
    TaskState.reviewing.ReadsBack ∧ ∃ frozen,
      freezeTask .reviewing ⟨"flow.review", "1", .directory none⟩ = [frozen] ∧
        Json.read UiStep.reader.readOpen frozen.toDocument.text = .ok frozen := by
  obtain ⟨frozen, hfrozen, -, -, -, hread⟩ :=
    freezeTask_replayable .reviewing ⟨"flow.review", "1", .directory none⟩
  exact ⟨TaskState.readsBack_reviewing, frozen, hfrozen, hread TaskState.readsBack_reviewing⟩

end TaskEngine
