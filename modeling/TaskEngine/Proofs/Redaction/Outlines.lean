import TaskEngine.Proofs.Json.Values
import TaskEngine.Proofs.Options.Merging
import TaskEngine.Proofs.Redaction.Stability

/-!
# What is left of redacted values

A value is seen through its places: a place is reached by going down through items of lists and
fields of objects.  Redaction leaves all of a value standing, place by place, but for its texts and
for what is kept under sensitive names.  Behind the first sensitive name on the way there is nothing
any more; the marker takes the place of whatever was there.

Nothing more can be redacted then: the texts are stable, and the marker takes its own place.

## Main definitions

* `Value.Step` — a step into a value.
* `Value.reach?` — what stands at a place of a value.
* `Value.outline` — what can be said of a value without going into it.
* `Value.Open` — a place that is reached without sensitive names.

## Main results

* `Value.reach?_redactValue`, `Value.reach?_redactValue_behind` — what stands at the places of a
  redacted value.
* `canonical_redactValue` — redaction does not depend on the order of fields.
* `redactValue_redactValue` — a redacted value is not changed by redaction.
* `redactOptions_outlines` — **options that are shown differ in texts and credentials only.**
-/

namespace TaskEngine

/-! ### Places in values -/

namespace Value

/-- A step into a value. -/
inductive Step
  /-- To an item of a list. -/
  | item (index : Nat)
  /-- To the value under a key of an object. -/
  | field (key : String)

/-- Whether a step leads to what is kept under a sensitive name. -/
def Step.isSensitive : Step → Bool
  | .item _ => false
  | .field key => isSensitiveKey key

/-- Where a step leads. -/
def part? : Step → Value → Option Value
  | .item index, .array items => items[index]?
  | .field key, .object fields => fields.lookup key
  | _, _ => none

/-- What stands at a place, which is reached step by step. -/
def reach? (value : Value) : List Step → Option Value
  | [] => some value
  | step :: place => (value.part? step).bind fun part => part.reach? place

/-- No step on the way to a place leads to what is kept under a sensitive name. -/
def Open (place : List Step) : Prop := ∀ step ∈ place, step.isSensitive = false

instance (place : List Step) : Decidable (Open place) := List.decidableBAll _ place

/-- What can be said of a value without going into it. -/
inductive Outline
  | null
  | bool (flag : Bool)
  | number (n : Number)
  | string (text : String)
  | array (length : Nat)
  | object (keys : List String)

/-- The outline of a value. -/
def outline : Value → Outline
  | .null => .null
  | .bool flag => .bool flag
  | .number n => .number n
  | .string text => .string text
  | .array items => .array items.length
  | .object fields => .object (fields.map Prod.fst)

/-- The outline with another text, if it is that of a text. -/
def Outline.mapText (f : String → String) : Outline → Outline
  | .string text => .string (f text)
  | outline => outline

theorem open_cons {step : Step} {place : List Step} :
    Open (step :: place) ↔ step.isSensitive = false ∧ Open place := List.forall_mem_cons

theorem reach?_append (value : Value) (place beyond : List Step) :
    value.reach? (place ++ beyond) = (value.reach? place).bind fun part => part.reach? beyond := by
  induction place generalizing value with
  | nil => rfl
  | cons step place ih =>
    simp only [List.cons_append, reach?, Option.bind_assoc]
    exact congrArg _ (funext ih)

theorem reach?_singleton (value : Value) (step : Step) :
    value.reach? [step] = value.part? step := by
  simp [reach?]

end Value

/-! ### Redacted values, step by step -/

/-- What is shown of the value under a key. -/
def redactUnder (key : String) (value : Value) : Value :=
  if isSensitiveKey key then redactedValue else redactValue value

theorem redactItems_eq (items : List Value) : redactItems items = items.map redactValue := by
  induction items with
  | nil => rfl
  | cons item items ih => rw [redactItems, ih, List.map_cons]

theorem redactFields_eq (fields : List (String × Value)) :
    redactFields fields = fields.map fun field => (field.1, redactUnder field.1 field.2) := by
  induction fields with
  | nil => rfl
  | cons field fields ih =>
    obtain ⟨key, value⟩ := field
    rw [redactFields, ih]
    rfl

theorem lookup_redactFields (fields : List (String × Value)) (key : String) :
    (redactFields fields).lookup key = (fields.lookup key).map (redactUnder key) := by
  rw [redactFields_eq]
  exact lookup_map_value redactUnder fields key

namespace Value

/-- **Redaction keeps the outline** of a value, but for its text. -/
theorem outline_redactValue (value : Value) :
    (redactValue value).outline = value.outline.mapText redactText := by
  cases value with
  | array items => simp [redactValue, outline, Outline.mapText, redactItems_eq]
  | object fields =>
    simp [redactValue, outline, Outline.mapText, redactFields_eq, Function.comp_def]
  | _ => rfl

theorem part?_redactValue {step : Step} (h : step.isSensitive = false) (value : Value) :
    (redactValue value).part? step = (value.part? step).map redactValue := by
  cases step with
  | item index =>
    cases value with
    | array items => simp [redactValue, part?, redactItems_eq]
    | _ => rfl
  | field key =>
    have hkey : redactUnder key = redactValue := by
      funext value
      unfold redactUnder
      rw [show isSensitiveKey key = false from h]
      rfl
    cases value with
    | object fields => rw [redactValue, part?, lookup_redactFields, hkey, part?]
    | _ => rfl

/-- Under a sensitive name there is the marker, whatever was there. -/
theorem part?_redactValue_sensitive {step : Step} (h : step.isSensitive = true) (value : Value) :
    (redactValue value).part? step = (value.part? step).map fun _ => redactedValue := by
  cases step with
  | item index => simp [Step.isSensitive] at h
  | field key =>
    have hkey : redactUnder key = fun _ => redactedValue := by
      funext value
      exact if_pos h
    cases value with
    | object fields => rw [redactValue, part?, lookup_redactFields, hkey, part?]
    | _ => rfl

/-- **At open places there stands what was there, redacted.** -/
theorem reach?_redactValue {place : List Step} (h : Open place) (value : Value) :
    (redactValue value).reach? place = (value.reach? place).map redactValue := by
  induction place generalizing value with
  | nil => rfl
  | cons step place ih =>
    obtain ⟨hstep, hplace⟩ := open_cons.1 h
    rw [reach?, reach?, part?_redactValue hstep, Option.bind_map, Option.map_bind]
    congr 1
    funext part
    exact ih hplace part

theorem redactedValue_eq : redactedValue = .string "[REDACTED]" := by
  unfold redactedValue redactionMarker
  rw [String.ofList_toList]

/-- One cannot go into the marker. -/
theorem reach?_redactedValue {place : List Step} (h : place ≠ []) :
    redactedValue.reach? place = none := by
  cases place with
  | nil => exact absurd rfl h
  | cons step place => cases step <;> rfl

/-- **At the first sensitive name there is the marker**, and nothing behind it. -/
theorem reach?_redactValue_behind {place : List Step} (h : Open place) {step : Step}
    (hstep : step.isSensitive = true) (beyond : List Step) (value : Value) :
    (redactValue value).reach? (place ++ step :: beyond) =
      (value.reach? (place ++ [step])).bind fun _ => redactedValue.reach? beyond := by
  rw [reach?_append, reach?_append, reach?_redactValue h]
  cases value.reach? place with
  | none => rfl
  | some part =>
    rw [Option.map_some, Option.bind_some, Option.bind_some, reach?_singleton, reach?,
      part?_redactValue_sensitive hstep, Option.bind_map]
    rfl

end Value

/-! ### Fields that are put in order -/

theorem redactFields_insertField (key : String) (value : Value) (fields : List (String × Value)) :
    redactFields (Value.insertField key value fields) =
      Value.insertField key (redactUnder key value) (redactFields fields) := by
  induction fields with
  | nil => rfl
  | cons field fields ih =>
    obtain ⟨k, v⟩ := field
    rw [Value.insertField, redactFields, Value.insertField]
    split
    · rfl
    · split
      · rfl
      · rw [redactFields, ih]

theorem redactFields_insertFields (done fields : List (String × Value)) :
    redactFields (Value.insertFields done fields) =
      Value.insertFields (redactFields done) (redactFields fields) := by
  induction fields generalizing done with
  | nil => rfl
  | cons field fields ih =>
    show redactFields (Value.insertFields (Value.insertField field.1 field.2 done) fields) = _
    rw [ih, redactFields_insertField]
    rfl

theorem redactValue_objectOf (fields : List (String × Value)) :
    redactValue (Value.objectOf fields) = Value.objectOf (redactFields fields) := by
  rw [Value.objectOf_eq, redactValue, redactFields_insertFields, Value.objectOf_eq]
  rfl

mutual

/-- **Redaction does not depend on the order of fields**, so no field is lost when an object is
built from redacted ones. -/
theorem canonical_redactValue (value : Value) :
    (redactValue value).canonical = redactValue value.canonical := by
  cases value with
  | array items => rw [redactValue, Value.canonical, canonicalItems_redactItems, Value.canonical,
      redactValue]
  | object fields => rw [redactValue, Value.canonical, canonicalFields_redactFields,
      Value.canonical, redactValue_objectOf]
  | _ => rfl

theorem canonicalItems_redactItems (items : List Value) :
    Value.canonicalItems (redactItems items) = redactItems (Value.canonicalItems items) := by
  cases items with
  | nil => rfl
  | cons item items => rw [redactItems, Value.canonicalItems, canonical_redactValue item,
      canonicalItems_redactItems items, Value.canonicalItems, redactItems]

theorem canonicalFields_redactFields (fields : List (String × Value)) :
    Value.canonicalFields (redactFields fields) = redactFields (Value.canonicalFields fields) := by
  cases fields with
  | nil => rfl
  | cons field fields =>
    obtain ⟨key, value⟩ := field
    rw [redactFields, Value.canonicalFields, canonicalFields_redactFields fields,
      Value.canonicalFields, redactFields]
    split
    · rfl
    · rw [canonical_redactValue value]

end

/-! ### Redacting once more -/

mutual

/-- **A redacted value is not changed by redaction.** -/
theorem redactValue_redactValue (value : Value) :
    redactValue (redactValue value) = redactValue value := by
  cases value with
  | string text => rw [redactValue, redactValue, redactText_redactText]
  | array items => rw [redactValue, redactValue, redactItems_redactItems items]
  | object fields => rw [redactValue, redactValue, redactFields_redactFields fields]
  | _ => rfl

theorem redactItems_redactItems (items : List Value) :
    redactItems (redactItems items) = redactItems items := by
  cases items with
  | nil => rfl
  | cons item items =>
    rw [redactItems, redactItems, redactValue_redactValue item, redactItems_redactItems items]

theorem redactFields_redactFields (fields : List (String × Value)) :
    redactFields (redactFields fields) = redactFields fields := by
  cases fields with
  | nil => rfl
  | cons field fields =>
    obtain ⟨key, value⟩ := field
    rw [redactFields, redactFields, redactFields_redactFields fields]
    by_cases hkey : isSensitiveKey key = true
    · rw [if_pos hkey, if_pos hkey]
    · rw [if_neg hkey, if_neg hkey, redactValue_redactValue value]

end

/-! ### Options -/

/-- What stands at a place of options; the first step leads to an option. -/
def OrderedMap.reach? (options : OrderedMap Value) (place : List Value.Step) : Option Value :=
  (Value.object options.entries).reach? place

theorem entries_redactOptions (options : OrderedMap Value) :
    (redactOptions options).entries = redactFields options.entries := by
  rw [redactFields_eq]
  rfl

theorem reach?_redactOptions (options : OrderedMap Value) (place : List Value.Step) :
    (redactOptions options).reach? place =
      (redactValue (.object options.entries)).reach? place := by
  rw [OrderedMap.reach?, entries_redactOptions, redactValue]

/-- **Options that are shown differ in texts and credentials only.**  They have the same keys in the
same order.  As far as no sensitive name is on the way, everything stands where it was, with the
same keys, lengths, numbers and flags, and every text is redacted.  Whatever is kept under a
sensitive name, be it an option or a field, is replaced by the marker as a whole.  To show them once
more changes nothing. -/
theorem redactOptions_outlines (options : OrderedMap Value) :
    (redactOptions options).keys = options.keys ∧
    (∀ place, Value.Open place → ((redactOptions options).reach? place).map Value.outline =
      (options.reach? place).map fun value => value.outline.mapText redactText) ∧
    (∀ place step, Value.Open place → step.isSensitive = true →
      (redactOptions options).reach? (place ++ [step]) =
          (options.reach? (place ++ [step])).map (fun _ => .string "[REDACTED]") ∧
        ∀ beyond, beyond ≠ [] →
          (redactOptions options).reach? (place ++ step :: beyond) = none) ∧
    redactOptions (redactOptions options) = redactOptions options := by
  refine ⟨OrderedMap.keys_mapValues _ _, fun place hplace => ?_,
    fun place step hplace hstep => ?_, ?_⟩
  · rw [reach?_redactOptions, Value.reach?_redactValue hplace, Option.map_map]
    congr 1
    funext value
    exact value.outline_redactValue
  · constructor
    · rw [reach?_redactOptions, Value.reach?_redactValue_behind hplace hstep, OrderedMap.reach?]
      cases (Value.object options.entries).reach? (place ++ [step]) with
      | none => rfl
      | some value => exact congrArg some Value.redactedValue_eq
    · intro beyond hbeyond
      rw [reach?_redactOptions, Value.reach?_redactValue_behind hplace hstep,
        Value.reach?_redactedValue hbeyond]
      simp
  · refine OrderedMap.ext_entries ?_
    rw [entries_redactOptions, entries_redactOptions, redactFields_redactFields]

/-- An option whose name tells nothing, with a field that does. -/
theorem redactOptions_outlines_login :
    let options : OrderedMap Value := OrderedMap.empty.insert "login"
      (.object [("token", .array [.string "00aa"]), ("user", .string "TOKEN=00aa")])
    let place : List Value.Step := [.field "login"]
    Value.Open place ∧ (Value.Step.field "token").isSensitive = true ∧
      (redactOptions options).reach? [.field "login", .field "token"] =
        some (.string "[REDACTED]") := by
  intro options place
  have hplace : Value.Open place := by decide
  have hstep : (Value.Step.field "token").isSensitive = true := by decide
  exact ⟨hplace, hstep, ((redactOptions_outlines options).2.2.1 place _ hplace hstep).1⟩

end TaskEngine
