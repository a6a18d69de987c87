import TaskEngine.Proofs.Options.Resolution
import Mathlib.Data.List.Forall2

/-!
# What the log tells of credentials

Two constructions of tasks may differ in what stands under sensitive names, be it the name of an
option or a key somewhere inside a value.  Merging, defaults, references and the check for required
options keep the difference where it is, and nothing of it is left when the options are shown: both
constructions record the same lines.

## Main definitions

* `Value.Alike` — values that differ in credentials only.
* `OrderedMap.Related` — maps with the same keys, whose values are related key by key.
* `OptionAlike`, `SpecAlike` — the same for options and for their declarations.
* `Builder.ApartInCredentials` — constructions that differ in credentials only.
* `Builder.Records` — the lines that a construction adds to the history of its logger.

## Main results

* `Value.Alike.redactValue_eq` — values that differ in credentials only look the same.
* `OrderedMap.Related.insertAll`, `Schema.related_fillFrom`, `Options.related_resolveReferences` —
  what is done with options keeps them related.
* `Builder.records_eq_of_apart` — **credentials make no difference to the log.**
-/

namespace TaskEngine

/-! ### Values -/

mutual

/-- Values that differ only in what stands under sensitive keys of objects, at any depth. -/
inductive Value.Alike : Value → Value → Prop
  | same (value : Value) : Value.Alike value value
  | array {items items' : List Value} (h : Value.AlikeItems items items') :
    Value.Alike (.array items) (.array items')
  | object {fields fields' : List (String × Value)} (h : Value.AlikeFields fields fields') :
    Value.Alike (.object fields) (.object fields')

/-- The same for the items of a list, one by one. -/
inductive Value.AlikeItems : List Value → List Value → Prop
  | nil : Value.AlikeItems [] []
  | cons {item item' : Value} {items items' : List Value} (h : Value.Alike item item')
    (hs : Value.AlikeItems items items') : Value.AlikeItems (item :: items) (item' :: items')

/-- The same for the fields of an object; a field with a sensitive key may hold anything. -/
inductive Value.AlikeFields : List (String × Value) → List (String × Value) → Prop
  | nil : Value.AlikeFields [] []
  | secret {key : String} (value value' : Value) {fields fields' : List (String × Value)}
    (hkey : isSensitiveKey key = true) (hs : Value.AlikeFields fields fields') :
    Value.AlikeFields ((key, value) :: fields) ((key, value') :: fields')
  | shown (key : String) {value value' : Value} {fields fields' : List (String × Value)}
    (h : Value.Alike value value') (hs : Value.AlikeFields fields fields') :
    Value.AlikeFields ((key, value) :: fields) ((key, value') :: fields')

end

namespace Value

mutual

theorem Alike.redactValue_eq {value value' : Value} (h : value.Alike value') :
    redactValue value = redactValue value' := by
  cases h with
  | same => rfl
  | array hitems => rw [redactValue, redactValue, hitems.redactItems_eq]
  | object hfields => rw [redactValue, redactValue, hfields.redactFields_eq]

theorem AlikeItems.redactItems_eq {items items' : List Value} (h : AlikeItems items items') :
    redactItems items = redactItems items' := by
  cases h with
  | nil => rfl
  | cons hitem hitems => rw [redactItems, redactItems, hitem.redactValue_eq, hitems.redactItems_eq]

theorem AlikeFields.redactFields_eq {fields fields' : List (String × Value)}
    (h : AlikeFields fields fields') : redactFields fields = redactFields fields' := by
  cases h with
  | nil => rfl
  | secret value value' hkey hfields =>
    rw [redactFields, redactFields, if_pos hkey, if_pos hkey, hfields.redactFields_eq]
  | shown key hvalue hfields =>
    rw [redactFields, redactFields, hvalue.redactValue_eq, hfields.redactFields_eq]

end

/-- Whether a value is a text in which a reference can start. -/
def refers : Value → Bool
  | .string text => (Piece.literal referenceStart).occurs text.toList
  | _ => false

theorem resolveValue_of_not_refers (lookup : Lookup) {value : Value} (h : value.refers = false) :
    resolveValue lookup value = (value, []) := by
  cases value with
  | string text =>
    rw [refers] at h
    rw [resolveValue, if_neg (by rw [h]; exact Bool.false_ne_true)]
  | _ => rfl

/-- References stand in texts, and texts that differ are not alike. -/
theorem Alike.resolveValue {value value' : Value} (h : value.Alike value') (lookup : Lookup) :
    (resolveValue lookup value).1.Alike (resolveValue lookup value').1 ∧
      (resolveValue lookup value).2 = (resolveValue lookup value').2 := by
  cases h with
  | same => exact ⟨.same _, rfl⟩
  | array hitems => exact ⟨.array hitems, rfl⟩
  | object hfields => exact ⟨.object hfields, rfl⟩

end Value

/-! ### Maps that are related key by key -/

section Related

variable {α β γ δ : Type} {R : String → α → β → Prop}

/-- Pairs with the same keys in the same order, whose values are related. -/
def RelatedPairs (R : String → α → β → Prop) (as : List (String × α)) (bs : List (String × β)) :
    Prop :=
  List.Forall₂ (fun a b => a.1 = b.1 ∧ R a.1 a.2 b.2) as bs

namespace RelatedPairs

theorem map_fst {as : List (String × α)} {bs : List (String × β)} (h : RelatedPairs R as bs) :
    as.map Prod.fst = bs.map Prod.fst := by
  induction h with
  | nil => rfl
  | cons hab _ ih => rw [List.map_cons, List.map_cons, hab.1, ih]

theorem insertPair {as : List (String × α)} {bs : List (String × β)} (h : RelatedPairs R as bs)
    {key : String} {value : α} {value' : β} (hvalue : R key value value') :
    RelatedPairs R (insertPair key value as) (insertPair key value' bs) := by
  induction h with
  | nil => exact .cons ⟨rfl, hvalue⟩ .nil
  | @cons a b as bs hab has ih =>
    obtain ⟨k, v⟩ := a
    obtain ⟨k', v'⟩ := b
    obtain ⟨hk, hv⟩ := hab
    dsimp only at hk
    subst hk
    rw [TaskEngine.insertPair, TaskEngine.insertPair]
    by_cases hkey : k = key
    · subst hkey
      rw [if_pos rfl, if_pos rfl]
      exact .cons ⟨rfl, hvalue⟩ has
    · rw [if_neg hkey, if_neg hkey]
      exact .cons ⟨rfl, hv⟩ ih

/-- What is computed from the values alone is the same if related values yield the same. -/
theorem flatMap_eq {as : List (String × α)} {bs : List (String × β)} (h : RelatedPairs R as bs)
    {f : α → List γ} {g : β → List γ}
    (hfg : ∀ {key value value'}, R key value value' → f value = g value') :
    (as.flatMap fun pair => f pair.2) = bs.flatMap fun pair => g pair.2 := by
  induction h with
  | nil => rfl
  | cons hab _ ih => rw [List.flatMap_cons, List.flatMap_cons, hfg hab.2, ih]

end RelatedPairs

namespace OrderedMap

/-- Maps with the same keys in the same order, whose values are related. -/
def Related (R : String → α → β → Prop) (m : OrderedMap α) (n : OrderedMap β) : Prop :=
  RelatedPairs R m.entries n.entries

namespace Related

variable {m : OrderedMap α} {n : OrderedMap β}

theorem keys (h : m.Related R n) : m.keys = n.keys := h.map_fst

theorem contains (h : m.Related R n) (key : String) : m.contains key = n.contains key := by
  rw [Bool.eq_iff_iff, m.contains_iff, n.contains_iff, h.keys]

theorem insert (h : m.Related R n) {key : String} {value : α} {value' : β}
    (hvalue : R key value value') : (m.insert key value).Related R (n.insert key value') :=
  h.insertPair hvalue

theorem insertNew (h : m.Related R n) {key : String} {value : α} {value' : β}
    (hvalue : R key value value') :
    (m.insertNew key value).Related R (n.insertNew key value') := by
  unfold OrderedMap.insertNew
  rw [h.contains]
  split
  · exact h
  · exact h.insert hvalue

theorem insertAll (h : m.Related R n) {as : List (String × α)} {bs : List (String × β)}
    (hpairs : RelatedPairs R as bs) : (m.insertAll as).Related R (n.insertAll bs) := by
  induction hpairs generalizing m n with
  | nil => exact h
  | @cons a b as bs hab _ ih =>
    show ((m.insert a.1 a.2).insertAll as).Related R ((n.insert b.1 b.2).insertAll bs)
    rw [← hab.1]
    exact ih (h.insert hab.2)

theorem mapValues (h : m.Related R n) {S : String → γ → δ → Prop} {f : String → α → γ}
    {g : String → β → δ}
    (hfg : ∀ {key value value'}, R key value value' → S key (f key value) (g key value')) :
    (m.mapValues f).Related S (n.mapValues g) := by
  show List.Forall₂ _ (m.entries.map _) (n.entries.map _)
  rw [List.forall₂_map_left_iff, List.forall₂_map_right_iff]
  refine h.imp ?_
  rintro ⟨key, value⟩ ⟨key', value'⟩ ⟨hkey, hvalue⟩
  dsimp only at hkey hvalue ⊢
  subst hkey
  exact ⟨rfl, hfg hvalue⟩

end Related

/-- Maps are the same if their values are, key by key. -/
theorem eq_of_related_eq {m n : OrderedMap α} (h : m.Related (fun _ a b => a = b) n) : m = n := by
  refine ext_entries ?_
  rw [← List.forall₂_eq_eq_eq]
  exact h.imp fun _ _ hab => Prod.ext hab.1 hab.2

end OrderedMap

end Related

/-! ### Options -/

/-- Values of an option that differ in credentials only.  If the option itself is sensitive, it may
have any two values in which no reference can start. -/
inductive OptionAlike (name : String) (value value' : Value) : Prop
  | shown (h : value.Alike value')
  | secret (hname : isSensitiveKey name = true) (h : value.refers = false)
    (h' : value'.refers = false)

/-- Declarations of an option that differ in credentials only, and in what the option is for. -/
structure SpecAlike (name : String) (spec spec' : OptionSpec) : Prop where
  required : spec.required = spec'.required
  default : Option.Rel (OptionAlike name) spec.default spec'.default

namespace OptionAlike

variable {name : String} {value value' : Value}

theorem resolveValue (h : OptionAlike name value value') (lookup : Lookup) :
    OptionAlike name (resolveValue lookup value).1 (resolveValue lookup value').1 ∧
      (resolveValue lookup value).2 = (resolveValue lookup value').2 := by
  cases h with
  | shown h =>
    have hresolved := h.resolveValue lookup
    exact ⟨.shown hresolved.1, hresolved.2⟩
  | secret hname h h' =>
    rw [Value.resolveValue_of_not_refers lookup h, Value.resolveValue_of_not_refers lookup h']
    exact ⟨.secret hname h h', rfl⟩

theorem shown_eq (h : OptionAlike name value value') :
    (if isSensitiveKey name then redactedValue else redactValue value) =
      if isSensitiveKey name then redactedValue else redactValue value' := by
  cases h with
  | shown h => rw [h.redactValue_eq]
  | secret hname => rw [if_pos hname, if_pos hname]

end OptionAlike

namespace Schema

variable {schema schema' : Schema} {options options' : Options}

theorem related_fillFrom {specs specs' : List (String × OptionSpec)}
    (h : RelatedPairs SpecAlike specs specs') (hoptions : options.Related OptionAlike options') :
    (fillFrom specs options).Related OptionAlike (fillFrom specs' options') := by
  induction h generalizing options options' with
  | nil => exact hoptions
  | @cons declared declared' specs specs' hspec _ ih =>
    obtain ⟨name, description, required, default⟩ := declared
    obtain ⟨name', description', required', default'⟩ := declared'
    obtain ⟨hname, hspec⟩ := hspec
    dsimp only at hname
    subst hname
    have hdefault : Option.Rel (OptionAlike name) default default' := hspec.default
    cases hdefault with
    | none => exact ih hoptions
    | some hvalue => exact ih (hoptions.insertNew hvalue)

/-- Whether a required option is there does not depend on its value. -/
theorem missing_eq_of_related (h : schema.specs.Related SpecAlike schema'.specs)
    (hoptions : options.Related OptionAlike options') :
    schema.missing options = schema'.missing options' := by
  have hspecs : RelatedPairs SpecAlike schema.specs.entries schema'.specs.entries := h
  unfold missing
  revert hspecs
  generalize schema.specs.entries = specs
  generalize schema'.specs.entries = specs'
  intro hspecs
  induction hspecs with
  | nil => rfl
  | @cons declared declared' specs specs' hspec _ ih =>
    obtain ⟨name, spec⟩ := declared
    obtain ⟨name', spec'⟩ := declared'
    obtain ⟨hname, hspec⟩ := hspec
    dsimp only at hname hspec
    subst hname
    have hlacks : (spec.required && !options.contains name) =
        (spec'.required && !options'.contains name) := by
      rw [hspec.required, hoptions.contains]
    simp only [List.filter_cons, hlacks]
    split
    · rw [List.map_cons, List.map_cons, ih]
    · exact ih

end Schema

namespace Options

variable {options options' : Options}

theorem related_resolveReferences (h : options.Related OptionAlike options') (lookup : Lookup) :
    (options.resolveReferences lookup).1.Related OptionAlike
        (options'.resolveReferences lookup).1 ∧
      (options.resolveReferences lookup).2 = (options'.resolveReferences lookup).2 :=
  ⟨h.mapValues fun hvalue => (hvalue.resolveValue lookup).1,
    RelatedPairs.flatMap_eq h fun hvalue => (hvalue.resolveValue lookup).2⟩

theorem redactOptions_eq_of_related (h : options.Related OptionAlike options') :
    redactOptions options = redactOptions options' :=
  OrderedMap.eq_of_related_eq (h.mapValues fun hvalue => hvalue.shown_eq)

end Options

/-! ### Constructions -/

/-- Records lines of several loggers in one history, one after another. -/
def LogBook.enter (book : LogBook) (history : Nat) (lines : List LogLine) : LogBook :=
  lines.foldl (fun book line => book.record ⟨line.logger, history⟩ line.level line.message) book

theorem LogBook.recordAll_eq_enter (book : LogBook) (logger : Logger)
    (lines : List (LogLevel × String)) :
    book.recordAll logger lines =
      book.enter logger.history (lines.map fun line => ⟨line.1, logger.name, line.2⟩) := by
  rw [enter, List.foldl_map]
  rfl

namespace Builder

variable {σ τ : Type} {builder builder' : Builder} {settings settings' : EngineSettings}
  {profile : Profile σ} {profile' : Profile τ}

/-- A construction adds these lines to the history of its logger, and does not change the log
otherwise, whatever the world in which it happens. -/
def Records (builder : Builder) (settings : EngineSettings) (profile : Profile σ)
    (lines : List LogLine) : Prop :=
  ∀ world, (builder.build settings profile world).2.book =
    (builder.taskLogger profile.className world).2.book.enter
      (builder.taskLogger profile.className world).1.history lines

/-- The name of the logger of a task. -/
def loggerName (builder : Builder) (className : String) : String :=
  match builder.logger.map Logger.name, builder.flow.map (·.logger.name) with
  | some name, _ => name
  | none, some above => above ++ "." ++ className
  | none, none => defaultLoggerName

theorem name_taskLogger (builder : Builder) (className : String) (world : World) :
    (builder.taskLogger className world).1.name = builder.loggerName className := by
  unfold taskLogger loggerName
  cases builder.logger with
  | some logger => rfl
  | none => cases builder.flow with
    | some flow => rfl
    | none => rfl

/-- The lines of a construction: the options are shown if none is missing. -/
def linesOf (builder : Builder) (settings : EngineSettings) (profile : Profile σ) :
    List (LogLevel × String) :=
  (builder.resolveOptions profile.schema).2.map (fun name => (.warning, undefinedNotice name)) ++
    if profile.schema.missing (builder.resolveOptions profile.schema).1 = [] then
      builder.optionLines settings (builder.resolveOptions profile.schema).1
    else []

theorem records_linesOf (builder : Builder) (settings : EngineSettings) (profile : Profile σ) :
    builder.Records settings profile ((builder.linesOf settings profile).map fun line =>
      ⟨line.1, builder.loggerName profile.className, line.2⟩) := by
  intro world
  rw [← builder.name_taskLogger profile.className world, ← LogBook.recordAll_eq_enter, linesOf]
  by_cases hmissing : profile.schema.missing (builder.resolveOptions profile.schema).1 = []
  · obtain ⟨task, hbuild, -, hoptions⟩ :=
      builder.build_of_complete settings profile world hmissing
    rw [hbuild, hoptions, if_pos hmissing]
    rfl
  · rw [builder.build_of_missing settings profile world hmissing, if_neg hmissing, List.append_nil]
    rfl

/-- Two constructions differ in credentials only, as far as the log is concerned: what their
callers ask for and what is configured, the defaults of options, and the settings of the engine
may differ no further. -/
structure ApartInCredentials (builder builder' : Builder) (settings settings' : EngineSettings)
    (profile : Profile σ) (profile' : Profile τ) : Prop where
  className : profile.className = profile'.className
  schema : profile.schema.specs.Related SpecAlike profile'.schema.specs
  project : builder.project = builder'.project
  configured : (builder.config.options.getD ∅).Related OptionAlike
    (builder'.config.options.getD ∅)
  overrides : builder.overrides.Related OptionAlike builder'.overrides
  logger : builder.logger.map Logger.name = builder'.logger.map Logger.name
  flow : builder.flow.map (·.logger.name) = builder'.flow.map (·.logger.name)
  debug : builder.debug.getD settings.debugMode = builder'.debug.getD settings'.debugMode

namespace ApartInCredentials

variable (h : builder.ApartInCredentials builder' settings settings' profile profile')

include h

theorem resolveOptions :
    (builder.resolveOptions profile.schema).1.Related OptionAlike
        (builder'.resolveOptions profile'.schema).1 ∧
      (builder.resolveOptions profile.schema).2 = (builder'.resolveOptions profile'.schema).2 := by
  have hmerged := h.configured.insertAll h.overrides
  have hfilled := Schema.related_fillFrom h.schema hmerged
  unfold Builder.resolveOptions
  rw [← h.project]
  exact Options.related_resolveReferences hfilled _

theorem missing_eq :
    profile.schema.missing (builder.resolveOptions profile.schema).1 =
      profile'.schema.missing (builder'.resolveOptions profile'.schema).1 :=
  Schema.missing_eq_of_related h.schema h.resolveOptions.1

theorem loggerName_eq :
    builder.loggerName profile.className = builder'.loggerName profile'.className := by
  rw [loggerName, loggerName, h.logger, h.flow, h.className]

theorem linesOf_eq : builder.linesOf settings profile = builder'.linesOf settings' profile' := by
  have hshown : builder.optionLines settings (builder.resolveOptions profile.schema).1 =
      builder'.optionLines settings' (builder'.resolveOptions profile'.schema).1 := by
    rw [optionLines, optionLines, h.debug, optionNotices, optionNotices,
      Options.redactOptions_eq_of_related h.resolveOptions.1]
  unfold linesOf
  rw [h.resolveOptions.2, h.missing_eq, hshown]

end ApartInCredentials

/-- **Credentials make no difference to the log.**  Two constructions that differ in credentials
only record the same lines, with the same levels and logger names, whatever the worlds in which
they happen; and if the one is refused, then the other is, for the same reason. -/
theorem records_eq_of_apart
    (h : builder.ApartInCredentials builder' settings settings' profile profile') :
    ∃ lines, builder.Records settings profile lines ∧ builder'.Records settings' profile' lines ∧
      ∀ world world' error, (builder.build settings profile world).1 = .error error ↔
        (builder'.build settings' profile' world').1 = .error error := by
  refine ⟨_, builder.records_linesOf settings profile, ?_, ?_⟩
  · rw [h.linesOf_eq, h.loggerName_eq]
    exact builder'.records_linesOf settings' profile'
  · intro world world' error
    by_cases hmissing : profile.schema.missing (builder.resolveOptions profile.schema).1 = []
    · obtain ⟨_, hbuild, -⟩ := builder.build_of_complete settings profile world hmissing
      obtain ⟨_, hbuild', -⟩ :=
        builder'.build_of_complete settings' profile' world' (h.missing_eq ▸ hmissing)
      rw [hbuild, hbuild']
      simp only [reduceCtorEq]
    · rw [builder.build_of_missing settings profile world hmissing,
        builder'.build_of_missing settings' profile' world' (h.missing_eq ▸ hmissing),
        h.className, h.missing_eq]

/-- Asks for a list with a key inside an object, and for a password. -/
def signedIn (key password : Value) : Builder :=
  { Builder.start .empty .empty with
    overrides := OrderedMap.ofList
      [("hosts", .array [.object [("api_key", key), ("name", .string "main")], .bool true]),
        ("password", password)]
    debug := some true }

/-- A kind of task with a token by default. -/
def tokenProfile (token : String) : Profile Unit :=
  ⟨"SignIn", "", Schema.empty.declareDefault "token" "" (.string token), false, fun _ _ => false⟩

theorem records_eq_of_apart_signedIn :
    (signedIn (.ofInt 7) (.string "one")).ApartInCredentials (signedIn .null (.array []))
        ⟨true, false⟩ ⟨true, true⟩ (tokenProfile "first") (tokenProfile "second") ∧
      ∃ lines, (signedIn (.ofInt 7) (.string "one")).Records ⟨true, false⟩ (tokenProfile "first")
          lines ∧
        (signedIn .null (.array [])).Records ⟨true, true⟩ (tokenProfile "second") lines ∧
        ∀ world world' error,
          ((signedIn (.ofInt 7) (.string "one")).build ⟨true, false⟩ (tokenProfile "first")
            world).1 = .error error ↔
          ((signedIn .null (.array [])).build ⟨true, true⟩ (tokenProfile "second") world').1 =
            .error error := by
  have hhosts : OptionAlike "hosts"
      (.array [.object [("api_key", .ofInt 7), ("name", .string "main")], .bool true])
      (.array [.object [("api_key", .null), ("name", .string "main")], .bool true]) :=
    .shown (.array (.cons (.object (.secret _ _ (by decide) (.shown _ (.same _) .nil)))
      (.cons (.same _) .nil)))
  have hpassword : OptionAlike "password" (.string "one") (.array []) :=
    .secret (by decide) (by decide) (by decide)
  have htoken : OptionAlike "token" (.string "first") (.string "second") :=
    .secret (by decide) (by decide) (by decide)
  have hdefault : SpecAlike "token" ⟨some "", false, some (.string "first")⟩
      ⟨some "", false, some (.string "second")⟩ := ⟨rfl, .some htoken⟩
  have h : (signedIn (.ofInt 7) (.string "one")).ApartInCredentials (signedIn .null (.array []))
      ⟨true, false⟩ ⟨true, true⟩ (tokenProfile "first") (tokenProfile "second") := {
    className := rfl
    schema := .cons ⟨rfl, hdefault⟩ .nil
    project := rfl
    configured := .nil
    overrides := .cons ⟨rfl, hhosts⟩ (.cons ⟨rfl, hpassword⟩ .nil)
    logger := rfl
    flow := rfl
    debug := rfl }
  exact ⟨h, records_eq_of_apart h⟩

end Builder

end TaskEngine
