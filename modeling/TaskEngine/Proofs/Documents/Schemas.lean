import TaskEngine.Proofs.Documents.Configs
import TaskEngine.Schema

/-!
# Schemas are read back but for null defaults

A schema is written with the defaults that it declares, and a default of null is written as null.
But null also stands for no default when a schema is read.  So a schema that declares such a default
is read back as another one, which leaves the option out where the first fills it in; all other
schemas are read back, if their defaults are.

## Main definitions

* `Schema.defaults` — the defaults that a schema declares.
* `Schema.withoutNulls` — a schema without those that are null.
* `OptionSpec.Readable` — a default is read back, and is not null.

## Main results

* `OptionSpec.read_nodeOf`, `Schema.read_nodeOf` — what is written is read back but for null
  defaults.
* `Schema.readable_of_read` — only a schema whose defaults are readable is read back.
* `Schema.read_written_iff` — **a schema is read back if and only if its defaults are, and none of
  them is null.**
-/

namespace TaskEngine

/-- Whether a value is null. -/
def Value.isNull : Value → Bool
  | .null => true
  | _ => false

open Json DocumentNode

variable {levels : Nat}

/-! ### Declarations -/

namespace OptionSpec

/-- The declaration without a default that is null. -/
def withoutNull (spec : OptionSpec) : OptionSpec :=
  { spec with default := spec.default.filter fun value => !value.isNull }

/-- The default is read back where it stands, and is not null. -/
def Readable (levels : Nat) (spec : OptionSpec) : Prop :=
  ∀ value, spec.default = some value → value.isNull = false ∧ ReadsAt (levels - 1) value

variable {spec : OptionSpec}

theorem isAbsent_nodeOf (levels : Nat) (value : Value) :
    isAbsent (nodeOf levels value) = .ok value.isNull := by
  cases value <;> rfl

/-- A value that may be absent is read unless it is null. -/
theorem readOptional_value_nodeOf (levels : Nat) (value : Value) :
    readOptional DocumentNode.value (nodeOf levels value) =
      if value.isNull then .ok none else (valueOf levels (.ofValue value)).map some := by
  rw [readOptional, isAbsent_nodeOf, ok_bind]
  split
  · rfl
  · show (do return some (← valueOf levels (.ofValue value))) = _
    cases valueOf levels (.ofValue value) with
    | error fault => rfl
    | ok found => rfl

/-- A declaration is read as its default is read. -/
theorem recovers (description : Option String) (required : Bool) {value : Value}
    {default : Option Value}
    (h : readOptional DocumentNode.value (nodeOf levels value) = .ok default) :
    OptionSpec.reader.Recovers (nodeOf levels) ⟨description, required, default⟩
      [("description", some (.ofText? description)), ("required", some (.bool required)),
        ("default", some value)] :=
  (((recovers_text? levels "description" description).map OptionSpec.mk).seq
    (RecordReader.recovers_withDefault (flag_nodeOf levels required) "required" false)).seq
      (RecordReader.recovers_withDefault h "default" none)

theorem nodup_known : ((OptionSpec.reader (D := Node)).known.map Prod.fst).Nodup := by decide

/-- If its default is read back, a declaration is, but for a default that is null. -/
theorem read_nodeOf (hlevels : 1 < levels)
    (h : ∀ value, spec.default = some value → ReadsAt (levels - 1) value) :
    OptionSpec.reader.read (nodeOf levels spec.toDocument) = .ok spec.withoutNull := by
  obtain ⟨description, required, default⟩ := spec
  cases default with
  | none =>
    have hfields := (((recovers_text? (levels - 1) "description" description).map
      OptionSpec.mk).seq (RecordReader.recovers_withDefault (flag_nodeOf (levels - 1) required)
        "required" false)).seq (RecordReader.recovers_leftOut
          (readOptional DocumentNode.value) "default" none)
    exact Json.read_nodeOf hlevels hfields nodup_known
  | some value =>
    have hdefault : readOptional DocumentNode.value (nodeOf (levels - 1) value) =
        .ok ((some value).filter fun value => !value.isNull) := by
      have hvalue : valueOf (levels - 1) (.ofValue value) = .ok value := h value rfl
      rw [readOptional_value_nodeOf, hvalue, Option.filter_some]
      cases value.isNull with
      | true => rfl
      | false => rfl
    exact Json.read_nodeOf hlevels (recovers description required hdefault) nodup_known

/-- Only a default that is not null, and is read back, comes back. -/
theorem readable_of_read (hlevels : 1 < levels)
    (h : OptionSpec.reader.read (nodeOf levels spec.toDocument) = .ok spec) :
    spec.Readable levels := by
  obtain ⟨description, required, default⟩ := spec
  rintro value hdefault
  obtain rfl : default = some value := hdefault
  have hwritten : ("default", value) ∈ [("description", Value.ofText? description),
    ("required", .bool required), ("default", value)] := by simp
  have hchecked := check_of_read hlevels h hwritten rfl
  obtain ⟨default, hdefault, -⟩ := map_eq_ok.1 hchecked
  have hread := Json.read_nodeOf hlevels (recovers description required hdefault) nodup_known
  have hsame := Except.ok.inj (hread.symm.trans h)
  obtain rfl : default = some value := congrArg OptionSpec.default hsame
  rw [readOptional_value_nodeOf] at hdefault
  split at hdefault
  · cases hdefault
  · rename_i hnull
    obtain ⟨found, hfound, hsome⟩ := map_eq_ok.1 hdefault
    cases hsome
    exact ⟨Bool.eq_false_iff.2 hnull, hfound⟩

/-- Nothing but null is read as null. -/
theorem tree_eq_null {tree : Tree} (h : valueOf levels tree = .ok .null) : tree = .null := by
  cases tree with
  | null => rfl
  | bool => cases h
  | number lexeme =>
    rw [valueOf] at h
    split at h <;> cases h
  | quoted text =>
    obtain ⟨text, -, heq⟩ := map_eq_ok.1 h
    cases heq
  | array =>
    obtain ⟨-, values, -, heq⟩ := valueOf_array_eq_ok h
    cases heq
  | object =>
    obtain ⟨-, values, -, heq⟩ := valueOf_object_eq_ok h
    cases heq
  | broken => cases h

/-- A value that is read where it may be absent is not null. -/
theorem ensures_optionalValue (levels : Nat) :
    Ensures (Node.HoldsWords levels) (readOptional DocumentNode.value) fun default =>
      ∀ value, default = some value → value.isNull = false ∧ ReadsAt levels value := by
  rintro node hnode default hread value rfl
  have hvalue := ensures_readOptional (ensures_value levels) node hnode _ hread value rfl
  obtain ⟨absent, habsent, hread⟩ := bind_eq_ok.1 hread
  cases absent with
  | true => cases hread
  | false =>
    obtain ⟨found, hfound, hsome⟩ := bind_eq_ok.1 hread
    cases hsome
    cases value with
    | null =>
      have hnull : isAbsent (⟨node.levels, .null⟩ : Node) = .ok false := by
        rw [← tree_eq_null hfound]
        exact habsent
      cases hnull
    | bool | number | string | array | object => exact ⟨rfl, hvalue⟩

theorem ensures_read (levels : Nat) :
    Ensures (Node.HoldsWords levels) OptionSpec.reader.read (Readable levels) := by
  refine RecordReader.Makes.read (descends_holdsWords levels) (.seq (.seq (.map
    (RecordReader.makes_optional (ensures_true _ _) _) ?_)
    (RecordReader.makes_withDefault (ensures_true _ _) _ trivial))
    (RecordReader.makes_withDefault (ensures_optionalValue _) _ fun _ hnone => nomatch hnone))
  intro description _ required _ default hdefault
  exact hdefault

theorem Readable.unrepeating (h : spec.Readable levels) : spec.toDocument.Unrepeating := by
  obtain ⟨description, required, default⟩ := spec
  cases default with
  | none =>
    have hnames : (["description", "required"] : List String).Nodup := by decide
    refine .object hnames ?_
    simp only [List.append_nil, List.forall_mem_cons]
    exact ⟨unrepeating_ofText? _, .bool _, List.forall_mem_nil _⟩
  | some value =>
    have hnames : (["description", "required", "default"] : List String).Nodup := by decide
    refine .object hnames ?_
    simp only [List.cons_append, List.nil_append, List.forall_mem_cons]
    exact ⟨unrepeating_ofText? _, .bool _, (h value rfl).2.unrepeating, List.forall_mem_nil _⟩

end OptionSpec

/-! ### Schemas -/

namespace Schema

/-- The defaults that a schema declares, in the order of their options. -/
def defaults (schema : Schema) : List Value :=
  schema.specs.entries.filterMap fun entry => entry.2.default

/-- The schema without defaults that are null. -/
def withoutNulls (schema : Schema) : Schema :=
  ⟨schema.specs.mapValues fun _ spec => spec.withoutNull⟩

variable {schema : Schema}

theorem mem_defaults {value : Value} :
    value ∈ schema.defaults ↔ ∃ entry ∈ schema.specs.entries, entry.2.default = some value :=
  List.mem_filterMap

/-- Without null defaults nothing is left out. -/
theorem withoutNulls_of_forall (h : ∀ value ∈ schema.defaults, value.isNull = false) :
    schema.withoutNulls = schema := by
  have hspecs : ∀ entry ∈ schema.specs.entries, (entry.1, entry.2.withoutNull) = entry := by
    rintro ⟨name, description, required, default⟩ hentry
    cases default with
    | none => rfl
    | some value =>
      have hnull := h value (mem_defaults.2 ⟨_, hentry, rfl⟩)
      simp [OptionSpec.withoutNull, hnull]
  obtain ⟨specs⟩ := schema
  refine congrArg Schema.mk (OrderedMap.ext_entries ?_)
  exact (List.map_congr_left hspecs).trans (List.map_id _)

/-- If its defaults are read back, a schema is, but for those that are null. -/
theorem read_nodeOf (hlevels : 2 < levels)
    (h : ∀ value ∈ schema.defaults, ReadsAt (levels - 2) value) :
    Schema.read (nodeOf levels schema.toDocument) = .ok schema.withoutNulls := by
  have hspecs : ∀ entry ∈ schema.specs.entries,
      OptionSpec.reader.read (nodeOf (levels - 1) entry.2.toDocument) =
        .ok entry.2.withoutNull := by
    intro entry hentry
    refine OptionSpec.read_nodeOf (by omega) fun value hdefault => ?_
    rw [Nat.sub_sub]
    exact h value (mem_defaults.2 ⟨entry, hentry, hdefault⟩)
  have hentered : 1 < levels := by omega
  have hmap := readMap_entries hentered hspecs
  rw [Schema.read, toDocument, hmap]
  show Except.ok (Schema.mk (OrderedMap.ofList schema.withoutNulls.specs.entries)) = _
  rw [OrderedMap.ofList_entries]

/-- Only a schema whose defaults are not null, and are read back, is read back. -/
theorem readable_of_read (hlevels : 2 < levels)
    (h : Schema.read (nodeOf levels schema.toDocument) = .ok schema) :
    ∀ value ∈ schema.defaults, value.isNull = false ∧ ReadsAt (levels - 2) value := by
  intro value hvalue
  obtain ⟨entry, hentry, hdefault⟩ := mem_defaults.1 hvalue
  obtain ⟨specs, hspecs, rfl⟩ := map_eq_ok.1 h
  have hspec := of_readMap_nodeOf (by omega) hspecs hentry
  have hreadable := OptionSpec.readable_of_read (by omega) hspec value hdefault
  rwa [Nat.sub_sub] at hreadable

theorem ensures_read (levels : Nat) :
    Ensures (Node.HoldsWords levels) Schema.read fun schema =>
      ∀ entry ∈ schema.specs.entries, entry.2.Readable (levels - 1) := by
  intro node hnode schema hread
  obtain ⟨specs, hspecs, rfl⟩ := map_eq_ok.1 hread
  exact ensures_readMap (descends_holdsWords levels) (OptionSpec.ensures_read _) node hnode specs
    hspecs

/-! ### What defaults come to -/

/-- Without the nulls, just these are not filled in. -/
theorem entries_fillDefaults_withoutNulls (schema : Schema) (options : Options) :
    (schema.withoutNulls.fillDefaults options).entries =
      (schema.fillDefaults options).entries.filter fun entry =>
        options.contains entry.1 || !entry.2.isNull := by
  have hgiven : ∀ entry ∈ options.entries,
      (options.contains entry.1 || !entry.2.isNull) = true := by
    intro entry hentry
    rw [options.contains_iff.2 (List.mem_map_of_mem hentry), Bool.true_or]
  have hfilled : (schema.withoutNulls.specs.entries.filterMap fun declared =>
      declared.2.default.map (declared.1, ·)) =
        (schema.specs.entries.filterMap fun declared =>
          declared.2.default.map (declared.1, ·)).filter fun entry => !entry.2.isNull := by
    rw [List.filter_filterMap]
    show (schema.specs.entries.map fun entry => (entry.1, entry.2.withoutNull)).filterMap _ = _
    rw [List.filterMap_map]
    refine List.filterMap_congr fun declared _ => ?_
    show (declared.2.default.filter fun value => !value.isNull).map (declared.1, ·) =
      (declared.2.default.map (declared.1, ·)).filter fun entry => !entry.2.isNull
    cases declared.2.default with
    | none => rfl
    | some value =>
      rw [Option.map_some, Option.filter_some, Option.filter_some]
      cases value.isNull with
      | true => rfl
      | false => rfl
  rw [entries_fillDefaults, entries_fillDefaults, hfilled, List.filter_append,
    List.filter_eq_self.2 hgiven, List.filter_filter, List.filter_filter]
  congr 1
  refine List.filter_congr fun entry _ => ?_
  cases options.contains entry.1 <;> cases entry.2.isNull <;> rfl

theorem missing_withoutNulls (schema : Schema) (options : Options) :
    schema.withoutNulls.missing options = schema.missing options := by
  show (((schema.specs.entries.map fun entry => (entry.1, entry.2.withoutNull)).filter
    fun declared => declared.2.required && !options.contains declared.1).map Prod.fst) = _
  rw [List.filter_map, List.map_map]
  rfl

/-- **A schema is read back if and only if its defaults are, and none of them is null.**  If there
are null defaults, it is read back without them: no other option is missing then, but those are left
out that were filled in with null. -/
theorem read_written_iff (schema : Schema) :
    (Json.read Schema.read schema.toDocument.text = .ok schema ↔
      ∀ value ∈ schema.defaults, value.isNull = false ∧ ReadsBack 2 value) ∧
    ((∀ value ∈ schema.defaults, ReadsBack 2 value) →
      Json.read Schema.read schema.toDocument.text = .ok schema.withoutNulls) ∧
    ∀ options, schema.withoutNulls.missing options = schema.missing options ∧
      (schema.withoutNulls.fillDefaults options).entries =
        (schema.fillDefaults options).entries.filter fun entry =>
          options.contains entry.1 || !entry.2.isNull := by
  have hlevels : 2 < maxLevels := by decide
  have hreads : (∀ value ∈ schema.defaults, ReadsBack 2 value) →
      Schema.read (nodeOf maxLevels schema.toDocument) = .ok schema.withoutNulls :=
    fun h => read_nodeOf hlevels fun value hvalue => (readsBack_iff hlevels).1 (h value hvalue)
  rw [read_text]
  refine ⟨⟨fun h value hvalue => ?_, fun h => ?_⟩, hreads, fun options =>
    ⟨schema.missing_withoutNulls options, schema.entries_fillDefaults_withoutNulls options⟩⟩
  · obtain ⟨hnull, hvalue⟩ := readable_of_read hlevels h value hvalue
    exact ⟨hnull, (readsBack_iff hlevels).2 hvalue⟩
  · have hsame := withoutNulls_of_forall fun value hvalue => (h value hvalue).1
    have hread := hreads fun value hvalue => (h value hvalue).2
    rw [hsame] at hread
    exact hread

/-- A required option, one whose default is null, and one with a default that is not. -/
def listing : Schema :=
  ((empty.declareRequired "path" "where to look").declareDefault "filter" "what to leave out"
    .null).declareDefault "depths" "how far to go" (.array [.ofNat 2])

theorem read_written_listing :
    (∀ value ∈ listing.defaults, ReadsBack 2 value) ∧
      Json.read Schema.read listing.toDocument.text = .ok listing.withoutNulls := by
  have hdefaults : ∀ value ∈ listing.defaults, ReadsBack 2 value := by
    intro value hvalue
    have hlisted : value ∈ [Value.null, .array [.ofNat 2]] := hvalue
    rw [readsBack_iff (by decide)]
    simp only [List.mem_cons, List.not_mem_nil, or_false] at hlisted
    rcases hlisted with rfl | rfl
    · rfl
    · rfl
  exact ⟨hdefaults, (read_written_iff listing).2.1 hdefaults⟩

/-- A default of null is lost: the schema is read back as one that declares the option without
default, and leaves it out where it was filled in with null. -/
theorem null_default_lost :
    ReadsBack 0 .null ∧
      Json.read Schema.read (empty.declareDefault "x" "d" .null).toDocument.text =
        .ok (empty.declareOptional "x" "d") ∧
      (empty.declareDefault "x" "d" .null) ≠ empty.declareOptional "x" "d" ∧
      ((empty.declareDefault "x" "d" .null).fillDefaults ∅).get? "x" = some .null ∧
      ((empty.declareOptional "x" "d").fillDefaults ∅).get? "x" = none := by
  refine ⟨?_, ?_, fun h => ?_, rfl, rfl⟩
  · rw [readsBack_iff (by decide)]
    rfl
  · rw [read_text]
    rfl
  · have hentries := congrArg (fun schema => schema.specs.entries.map fun entry =>
      entry.2.default.isSome) h
    exact absurd hentries (by decide)

end Schema

end TaskEngine
