import TaskEngine.Proofs.Documents.Fields
import TaskEngine.Proofs.Json.Values
import TaskEngine.Project.Config
import TaskEngine.Task.Step

/-!
# Configurations are read back

Coordinates, sources and places in a flow hold nothing but texts: they are read back from where they
are written, whatever they hold.  The configuration of a task holds values too, and so does what is
left of it in a frozen step: they are read back if these are.  Whatever is read from a document
whose numbers are integers of words holds such values.

## Main definitions

* `Json.Node.HoldsWords` — all numbers at a node of a document were written as integers of words.
* `TaskConfig.Readable`, `FrozenConfig.Readable` — the values that a configuration holds are read
  back where they stand in it.

## Main results

* `Json.read_nodeOf`, `Json.readOpen_nodeOf` — a record is read back from the object of its fields.
* `RepoInfo.read_nodeOf`, `ProjectSource.read_nodeOf`, `StepDescriptor.read_nodeOf`,
  `TaskConfig.Readable.read_nodeOf`, `FrozenConfig.Readable.read_nodeOf` — **what was written is
  read back.**
* `TaskConfig.ensures_read`, `FrozenConfig.ensures_read` — what is read can be read back.
-/

namespace TaskEngine

namespace Json

open DocumentNode

variable {α : Type} {levels : Nat}

/-! ### Nodes with numbers in words -/

/-- All numbers at a node of a document were written as integers of words, and there are so many
levels left. -/
structure Node.HoldsWords (levels : Nat) (node : Node) : Prop where
  /-- The levels that are left. -/
  levels : node.levels = levels
  /-- The numbers. -/
  words : ∀ lexeme ∈ node.tree.numbers, lexeme.IsWord

theorem holdsWords_listing {node : Node} (h : node.HoldsWords levels) {listing : Listing Node}
    (hlisting : node.listing = .ok listing) :
    ∀ child ∈ listing.entries, child.HoldsWords (levels - 1) := by
  obtain ⟨rfl, hwords⟩ := h
  rw [Node.listing] at hlisting
  split at hlisting
  · rename_i items closed htree
    obtain ⟨inner, henter, hlisting⟩ := bind_eq_ok.1 hlisting
    obtain ⟨-, rfl⟩ := enter_eq_ok henter
    cases hlisting
    intro child hchild
    obtain ⟨item, hitem, rfl⟩ := List.mem_map.1 hchild
    rw [htree, Tree.numbers, numbersOfItems_eq_flatMap] at hwords
    exact ⟨rfl, fun lexeme hlexeme => hwords lexeme (List.mem_flatMap.2 ⟨item, hitem, hlexeme⟩)⟩
  · cases hlisting

theorem holdsWords_entries {κ : Type} {key : String → κ} {node : Node}
    (h : node.HoldsWords levels) {listing : Listing (Except Fault κ × Node)}
    (hlisting : node.entries key = .ok listing) :
    ∀ entry ∈ listing.entries, entry.2.HoldsWords (levels - 1) := by
  obtain ⟨rfl, hwords⟩ := h
  rw [Node.entries] at hlisting
  split at hlisting
  · rename_i fields closed htree
    obtain ⟨inner, henter, hlisting⟩ := bind_eq_ok.1 hlisting
    obtain ⟨-, rfl⟩ := enter_eq_ok henter
    cases hlisting
    intro entry hentry
    obtain ⟨field, hfield, rfl⟩ := List.mem_map.1 hentry
    rw [htree, Tree.numbers, numbersOfFields_eq_flatMap] at hwords
    exact ⟨rfl, fun lexeme hlexeme => hwords lexeme (List.mem_flatMap.2 ⟨field, hfield, hlexeme⟩)⟩
  · cases hlisting

theorem descends_holdsWords (levels : Nat) :
    Descends (Node.HoldsWords levels) (Node.HoldsWords (levels - 1)) where
  items _ hnode _ hlisting := holdsWords_listing hnode hlisting
  fields _ hnode _ hlisting := holdsWords_entries hnode hlisting
  places node hnode listing hplaces := by
    obtain ⟨left, tree⟩ := node
    cases tree with
    | array items closed => exact holdsWords_listing hnode (Option.some.inj hplaces)
    | null | bool | number | quoted | object | broken => cases hplaces

/-- A value that is read is read back. -/
theorem ensures_value (levels : Nat) :
    Ensures (Node.HoldsWords levels) DocumentNode.value (ReadsAt levels) := by
  rintro node ⟨rfl, hwords⟩ value hread
  exact readsAt_of_valueOf hwords hread

theorem ensures_values (levels : Nat) :
    Ensures (Node.HoldsWords levels) (readList DocumentNode.value) fun items =>
      ∀ item ∈ items, ReadsAt (levels - 1) item :=
  ensures_readList (descends_holdsWords levels) (ensures_value _)

theorem ensures_valueMap (levels : Nat) :
    Ensures (Node.HoldsWords levels) (readMap DocumentNode.value) fun map =>
      ∀ entry ∈ map.entries, ReadsAt (levels - 1) entry.2 :=
  ensures_readMap (descends_holdsWords levels) (ensures_value _)

/-! ### Records that were written -/

theorem readsAt_ofText? (levels : Nat) (text : Option String) :
    ReadsAt levels (.ofText? text) := by
  cases text with
  | none => rfl
  | some text => exact congrArg (Except.map Value.string) (textOf_toList text)

theorem readsAt_string (levels : Nat) (text : String) : ReadsAt levels (.string text) :=
  readsAt_ofText? levels (some text)

theorem readList_array (hlevels : 1 < levels) {items : List Value}
    (h : ∀ item ∈ items, ReadsAt (levels - 1) item) :
    readList DocumentNode.value (nodeOf levels (.array items)) = .ok items := by
  have hitems : ∀ item ∈ items, DocumentNode.value (nodeOf (levels - 1) (id item)) = .ok item := h
  have hread := readList_nodeOf hlevels hitems
  rwa [List.map_id] at hread

theorem readMap_toObject (hlevels : 1 < levels) {map : OrderedMap Value}
    (h : ∀ entry ∈ map.entries, ReadsAt (levels - 1) entry.2) :
    readMap DocumentNode.value (nodeOf levels map.toObject) = .ok map := by
  have hentries : map.entries.map (fun entry => (entry.1, id entry.2)) = map.entries :=
    List.map_id _
  have hvalues : ∀ entry ∈ map.entries,
      DocumentNode.value (nodeOf (levels - 1) (id entry.2)) = .ok entry.2 := h
  have hread := readMap_nodeOf hlevels hvalues
  rwa [hentries] at hread

/-- A map that is read back has values that are. -/
theorem of_readMap_nodeOf (hlevels : 1 < levels) {value : Node → Except Fault α}
    {document : α → Value} {map : OrderedMap α}
    (h : readMap value (nodeOf levels (.object (map.entries.map fun entry =>
      (entry.1, document entry.2)))) = .ok map)
    {entry : String × α} (hentry : entry ∈ map.entries) :
    value (nodeOf (levels - 1) (document entry.2)) = .ok entry.2 := by
  rw [readMap, fields_nodeOf hlevels, ok_bind] at h
  obtain ⟨pairs, hpairs, h⟩ := bind_eq_ok.1 h
  obtain ⟨-, -, h⟩ := bind_eq_ok.1 h
  have hmap : OrderedMap.ofList pairs = map := Except.ok.inj h
  obtain ⟨written, hwritten, hread⟩ :=
    exists_of_mem_mapM hpairs (OrderedMap.mem_ofList (hmap.symm ▸ hentry))
  rw [namedEntries, List.map_map, List.map_map] at hwritten
  obtain ⟨other, hother, rfl⟩ := List.mem_map.1 hwritten
  obtain ⟨key, hkey, hpair⟩ := bind_eq_ok.1 hread
  obtain ⟨content, hcontent, hpair⟩ := bind_eq_ok.1 hpair
  cases hkey
  cases hpair
  -- it was written for the entry with the same key
  have hsame : other = (other.1, content) := List.inj_on_of_nodup_map map.nodup hother hentry rfl
  have hvalue : other.2 = content := congrArg Prod.snd hsame
  rw [← hvalue] at hcontent
  show value (nodeOf (levels - 1) (document content)) = _
  rw [← hvalue]
  exact hcontent

/-- A text that may be absent is written as null if it is. -/
theorem recovers_text? (levels : Nat) (name : String) (text : Option String) :
    (RecordReader.optional name DocumentNode.text).Recovers (nodeOf levels) text
      [(name, some (.ofText? text))] :=
  RecordReader.recovers_withDefault (readOptional_text_nodeOf levels text) name none

theorem recovers_text (levels : Nat) (name text : String) :
    (RecordReader.required name DocumentNode.text).Recovers (nodeOf levels) text
      [(name, some (.string text))] :=
  RecordReader.recovers_required (text_nodeOf levels text) name

/-- A record is read back from the object of its fields. -/
theorem read_nodeOf {reader : RecordReader Node α} {content : α}
    {fields : List (String × Option Value)} (hlevels : 1 < levels)
    (h : reader.Recovers (nodeOf (levels - 1)) content fields)
    (hnodup : (reader.known.map Prod.fst).Nodup) :
    reader.read (nodeOf levels (.object (RecordReader.writtenFields fields))) = .ok content := by
  have hplaces : places (nodeOf levels (.object (RecordReader.writtenFields fields))) = none := rfl
  rw [RecordReader.read, hplaces]
  dsimp only
  rw [fields_nodeOf hlevels, ok_bind]
  exact h.readFields hnodup

/-- A record that keeps what it does not know is read back with it. -/
theorem readOpen_nodeOf {reader : RecordReader Node (OrderedMap Value → α)}
    {record : OrderedMap Value → α} {fields : List (String × Option Value)}
    {front back : List (String × Value)} {extra : OrderedMap Value} (hlevels : 1 < levels)
    (h : reader.Recovers (nodeOf (levels - 1)) record fields)
    (hnodup : (reader.known.map Prod.fst).Nodup)
    (hwritten : RecordReader.writtenFields fields = front ++ back)
    (hapart : ∀ entry ∈ extra.entries, entry.1 ∉ reader.known.map Prod.fst)
    (hextra : ∀ entry ∈ extra.entries, ReadsAt (levels - 1) entry.2) :
    reader.readOpen (nodeOf levels (.object (front ++ extra.entries ++ back))) =
      .ok (record extra) :=
  h.readOpen hnodup hwritten hapart (fields_nodeOf hlevels _) hextra

/-- A record that is read has no field that does not pass its check. -/
theorem check_of_read {reader : RecordReader Node α} {content : α}
    {fields : List (String × Value)} (hlevels : 1 < levels)
    (h : reader.read (nodeOf levels (.object fields)) = .ok content) {field : String × Value}
    (hfield : field ∈ fields) {check : Node → Except Fault Unit}
    (hcheck : reader.known.lookup field.1 = some check) :
    check (nodeOf (levels - 1) field.2) = .ok () := by
  have hplaces : places (nodeOf levels (.object fields)) = none := rfl
  rw [RecordReader.read, hplaces] at h
  dsimp only at h
  rw [fields_nodeOf hlevels, ok_bind, RecordReader.readFields] at h
  obtain ⟨⟨found, others⟩, hcollect, -⟩ := bind_eq_ok.1 h
  refine RecordReader.check_of_collect hcollect ?_ hcheck
  rw [namedEntries, List.map_map]
  exact List.mem_map.2 ⟨field, hfield, rfl⟩

theorem asideKey_nodeOf (hlevels : 1 < levels) (fields : List (String × Value)) :
    asideKey (nodeOf levels (.object fields)) =
      .ok ⟨fields.map fun field => (.ok (.named field.1), nodeOf (levels - 1) field.2), true⟩ := by
  show Node.entries FieldKey.named (nodeOf levels (.object fields)) = _
  rw [Node.entries, nodeOf, Tree.ofValue]
  dsimp only
  rw [enter, if_neg (by omega), ok_bind, ofFields_eq_map, List.map_map]
  congr 3
  funext field
  simp [textOf, nodeOf, Except.map, String.ofList_toList]

end Json

open Json

variable {levels : Nat}

theorem unrepeating_ofText? (text : Option String) : (Value.ofText? text).Unrepeating :=
  (readsAt_ofText? 0 text).unrepeating

/-- The keys of an ordered map differ. -/
theorem unrepeating_entries {α : Type} {map : OrderedMap α} {document : α → Value}
    (h : ∀ entry ∈ map.entries, (document entry.2).Unrepeating) :
    (Value.object (map.entries.map fun entry => (entry.1, document entry.2))).Unrepeating := by
  refine .object ?_ fun field hfield => ?_
  · rw [List.map_map]
    exact map.nodup
  · obtain ⟨entry, hentry, rfl⟩ := List.mem_map.1 hfield
    exact h entry hentry

theorem unrepeating_toObject {map : OrderedMap Value}
    (h : ∀ entry ∈ map.entries, ReadsAt levels entry.2) : map.toObject.Unrepeating :=
  .object map.nodup fun entry hentry => (h entry hentry).unrepeating

/-! ### Coordinates, sources and places in a flow -/

theorem RepoInfo.read_nodeOf (hlevels : 1 < levels) (repo : RepoInfo) :
    RepoInfo.reader.read (nodeOf levels repo.toDocument) = .ok repo := by
  have hfields := ((((recovers_text? (levels - 1) "name" repo.name).map RepoInfo.mk).seq
    (recovers_text? _ "owner" repo.owner)).seq (recovers_text? _ "url" repo.url)).seq
      (recovers_text? _ "branch" repo.branch) |>.seq (recovers_text? _ "commit" repo.commit)
  exact Json.read_nodeOf hlevels hfields (by decide)

theorem readOptional_text_ofText? (text : Option String) :
    readOptional DocumentNode.text (Value.ofText? text) = .ok text := by
  cases text with
  | none => rfl
  | some text => rfl

theorem RepoInfo.unrepeating (repo : RepoInfo) : repo.toDocument.Unrepeating := by
  have hnames : (["name", "owner", "url", "branch", "commit"] : List String).Nodup := by decide
  refine .object hnames ?_
  simp only [List.forall_mem_cons]
  exact ⟨unrepeating_ofText? _, unrepeating_ofText? _, unrepeating_ofText? _,
    unrepeating_ofText? _, unrepeating_ofText? _, List.forall_mem_nil _⟩

/-- Of each kind of source, the fields behind the kind are read back. -/
theorem ProjectSource.readFields_kinds (source : ProjectSource) :
    ∃ tag reader entries, source.toDocument = .object (("type", .string tag) :: entries) ∧
      kinds.lookup tag = some reader ∧
      (∀ entry ∈ entries, entry.1 ≠ "type" ∧ ∀ levels, ReadsAt levels entry.2) ∧
      reader.readFields ⟨namedEntries entries, true⟩ = .ok source := by
  cases source with
  | directory path =>
    refine ⟨"local", _, [("path", .ofText? path)], rfl, rfl, ?_, ?_⟩
    · simp [readsAt_ofText?]
    · have hpath : readOptional DocumentNode.text (id (Value.ofText? path)) = .ok path :=
        readOptional_text_ofText? path
      have hfields := (RecordReader.recovers_withDefault hpath "path" none).map directory
      exact hfields.readFields (by decide)
  | hosted url commit description =>
    refine ⟨"github", _, [("url", .string url), ("commit", .string commit),
      ("description", .ofText? description)], rfl, rfl, ?_, ?_⟩
    · simp [readsAt_ofText?, readsAt_string]
    · have hurl : DocumentNode.text (id (Value.string url)) = .ok url := rfl
      have hcommit : DocumentNode.text (id (Value.string commit)) = .ok commit := rfl
      have hdescription : readOptional DocumentNode.text (id (Value.ofText? description)) =
          .ok description := readOptional_text_ofText? description
      have hfields := (((RecordReader.recovers_required hurl "url").map hosted).seq
        (RecordReader.recovers_required hcommit "commit")).seq
          (RecordReader.recovers_withDefault hdescription "description" none)
      exact hfields.readFields (by decide)

/-- A source is read back, whatever it is. -/
theorem ProjectSource.read_nodeOf (hlevels : 1 < levels) (source : ProjectSource) :
    ProjectSource.read (nodeOf levels source.toDocument) = .ok source := by
  obtain ⟨tag, reader, entries, hdocument, hkind, hentries, hread⟩ := source.readFields_kinds
  rw [hdocument, ← hread]
  exact readTagged_named rfl (asideKey_nodeOf hlevels _) (text_nodeOf _ tag) hkind
    fun entry hentry => ⟨(hentries entry hentry).1, (hentries entry hentry).2 _⟩

theorem ProjectSource.unrepeating (source : ProjectSource) : source.toDocument.Unrepeating := by
  cases source with
  | directory path =>
    have hnames : (["type", "path"] : List String).Nodup := by decide
    refine .object hnames ?_
    simp only [List.forall_mem_cons]
    exact ⟨.string _, unrepeating_ofText? _, List.forall_mem_nil _⟩
  | hosted url commit description =>
    have hnames : (["type", "url", "commit", "description"] : List String).Nodup := by decide
    refine .object hnames ?_
    simp only [List.forall_mem_cons]
    exact ⟨.string _, .string _, .string _, unrepeating_ofText? _, List.forall_mem_nil _⟩

theorem StepDescriptor.read_nodeOf (hlevels : 2 < levels) (step : StepDescriptor) :
    StepDescriptor.reader.read (nodeOf levels step.toDocument) = .ok step := by
  have hfields := (((recovers_text (levels - 1) "path" step.path).map StepDescriptor.mk).seq
    (recovers_text _ "step_num" step.stepNum)).seq (RecordReader.recovers_withDefault
      (ProjectSource.read_nodeOf (by omega) step.source) "source" default)
  exact Json.read_nodeOf (by omega) hfields (by decide)

theorem StepDescriptor.unrepeating (step : StepDescriptor) : step.toDocument.Unrepeating := by
  have hnames : (["path", "step_num", "source"] : List String).Nodup := by decide
  refine .object hnames ?_
  simp only [List.forall_mem_cons]
  exact ⟨.string _, .string _, step.source.unrepeating, List.forall_mem_nil _⟩

/-! ### Configurations of tasks -/

namespace TaskConfig

/-- The values that a configuration holds are read back where they stand in it. -/
structure Readable (levels : Nat) (config : TaskConfig) : Prop where
  /-- Those of options. -/
  options : ∀ options, config.options = some options →
    ∀ entry ∈ options.entries, ReadsAt (levels - 2) entry.2
  /-- The checks. -/
  checks : ∀ check ∈ config.checks, ReadsAt (levels - 2) check
  /-- What is shown. -/
  uiOptions : ∀ entry ∈ config.uiOptions.entries, ReadsAt (levels - 2) entry.2

variable {config : TaskConfig}

/-- Options are written as an object if there are any, and read back in either case. -/
theorem Readable.exists_options (hlevels : 2 < levels) (h : config.Readable levels) :
    ∃ document, config.toDocument = .object [("name", .ofText? config.name),
        ("class_path", .ofText? config.classPath), ("description", .ofText? config.description),
        ("options", document), ("checks", .array config.checks),
        ("ui_options", config.uiOptions.toObject)] ∧
      readOptional (readMap DocumentNode.value) (nodeOf (levels - 1) document) =
        .ok config.options ∧
      document.Unrepeating := by
  rw [toDocument]
  cases hoptions : config.options with
  | none => exact ⟨.null, rfl, rfl, .null⟩
  | some options =>
    have hvalues := h.options options hoptions
    have hinner : 1 < levels - 1 := by omega
    refine ⟨options.toObject, rfl, ?_, unrepeating_toObject hvalues⟩
    show (do return some (← readMap DocumentNode.value (nodeOf (levels - 1) options.toObject))) = _
    rw [readMap_toObject hinner hvalues]
    rfl

theorem Readable.read_nodeOf (hlevels : 2 < levels) (h : config.Readable levels) :
    TaskConfig.reader.read (nodeOf levels config.toDocument) = .ok config := by
  have hinner : 1 < levels - 1 := by omega
  obtain ⟨document, hdocument, hoptions, -⟩ := h.exists_options hlevels
  have hfields := ((((((recovers_text? (levels - 1) "name" config.name).map TaskConfig.mk).seq
    (recovers_text? _ "class_path" config.classPath)).seq
    (recovers_text? _ "description" config.description)).seq
    (RecordReader.recovers_withDefault hoptions "options" none)).seq
    (RecordReader.recovers_withDefault (readList_array hinner h.checks) "checks" [])).seq
    (RecordReader.recovers_withDefault (readMap_toObject hinner h.uiOptions) "ui_options" ∅)
  rw [hdocument]
  exact Json.read_nodeOf (by omega) hfields (by decide)

/-- What is read can be read back. -/
theorem ensures_read (levels : Nat) :
    Ensures (Node.HoldsWords levels) TaskConfig.reader.read (Readable levels) := by
  refine RecordReader.Makes.read (descends_holdsWords levels) (.seq (.seq (.seq (.seq (.seq (.map
    (RecordReader.makes_optional (ensures_true _ _) _) ?_)
    (RecordReader.makes_optional (ensures_true _ _) _))
    (RecordReader.makes_optional (ensures_true _ _) _))
    (RecordReader.makes_optional (ensures_valueMap _) _))
    (RecordReader.makes_withDefault (ensures_values _) _ ?_))
    (RecordReader.makes_withDefault (ensures_valueMap _) _ ?_))
  · intro name _ classPath _ description _ options hoptions checks hchecks uiOptions huiOptions
    exact ⟨hoptions, hchecks, huiOptions⟩
  · exact fun check hcheck => absurd hcheck List.not_mem_nil
  · exact fun entry hentry => absurd hentry List.not_mem_nil

/-- A configuration is written without repeating a key. -/
theorem Readable.unrepeating (hlevels : 2 < levels) (h : config.Readable levels) :
    config.toDocument.Unrepeating := by
  have hnames : (["name", "class_path", "description", "options", "checks", "ui_options"] :
    List String).Nodup := by decide
  obtain ⟨document, hdocument, -, hoptions⟩ := h.exists_options hlevels
  rw [hdocument]
  refine .object hnames ?_
  simp only [List.forall_mem_cons]
  exact ⟨unrepeating_ofText? _, unrepeating_ofText? _, unrepeating_ofText? _, hoptions,
    .array fun check hcheck => (h.checks check hcheck).unrepeating,
    unrepeating_toObject h.uiOptions, List.forall_mem_nil _⟩

end TaskConfig

/-! ### Frozen configurations -/

namespace FrozenConfig

/-- The values that a frozen configuration holds are read back where they stand in it. -/
structure Readable (levels : Nat) (config : FrozenConfig) : Prop where
  /-- Those of options. -/
  options : ∀ entry ∈ config.options.entries, ReadsAt (levels - 2) entry.2
  /-- The checks. -/
  checks : ∀ check ∈ config.checks, ReadsAt (levels - 2) check

variable {config : FrozenConfig}

theorem Readable.read_nodeOf (hlevels : 2 < levels) (h : config.Readable levels) :
    FrozenConfig.reader.read (nodeOf levels config.toDocument) = .ok config := by
  have hinner : 1 < levels - 1 := by omega
  have hfields := ((RecordReader.recovers_required (readMap_toObject hinner h.options)
    "options").map FrozenConfig.mk).seq
      (RecordReader.recovers_required (readList_array hinner h.checks) "checks")
  exact Json.read_nodeOf (by omega) hfields (by decide)

theorem ensures_read (levels : Nat) :
    Ensures (Node.HoldsWords levels) FrozenConfig.reader.read (Readable levels) := by
  refine RecordReader.Makes.read (descends_holdsWords levels) (.seq (.map
    (RecordReader.makes_required (ensures_valueMap _) _) ?_)
    (RecordReader.makes_required (ensures_values _) _))
  intro options hoptions checks hchecks
  exact ⟨hoptions, hchecks⟩

theorem Readable.unrepeating (h : config.Readable levels) : config.toDocument.Unrepeating := by
  have hnames : (["options", "checks"] : List String).Nodup := by decide
  refine .object hnames ?_
  simp only [List.forall_mem_cons]
  exact ⟨unrepeating_toObject h.options,
    .array fun check hcheck => (h.checks check hcheck).unrepeating, List.forall_mem_nil _⟩

end FrozenConfig

end TaskEngine
