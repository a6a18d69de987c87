import TaskEngine.Proofs.Options.Merging
import TaskEngine.Proofs.Project.Cuts

/-!
# References in option values

References are replaced in the values that are texts, without looking at texts in which none
can start.  The shortcut makes no difference: such a text has no reference, and what is replaced
in it is nothing.

## Main definitions

* `Value.expanded` — a value with the references in its text replaced, once.
* `Value.undefinedNames` — the attributes that its text refers to but nothing defines.
* `Options.ResolvesTo` — options with the references in all their texts replaced, whether or not
  there are any.

## Main results

* `resolveValue_eq` — an option is resolved to these two, whether or not it is looked at.
* `Options.keys_resolveReferences`, `Options.get?_resolveReferences`,
  `Options.undefined_resolveReferences` — all options at once.
* `Options.resolveReferences_eq_iff` — **the options that are resolved are the same options, with
  the references in each text replaced.**
-/

namespace TaskEngine

/-- A value with the references in its text replaced, once; any other value is left alone. -/
def Value.expanded (lookup : Lookup) : Value → Value
  | .string text => .string (expandReferences lookup text).1
  | value => value

/-- The attributes that a text refers to but that are not defined, in the order of the text. -/
def Value.undefinedNames (lookup : Lookup) : Value → List String
  | .string text => (expandReferences lookup text).2
  | _ => []

/-- A text in which no reference can start is left alone. -/
theorem expandReferences_of_not_occurs (lookup : Lookup) {text : String}
    (h : (Piece.literal referenceStart).occurs text.toList = false) :
    expandReferences lookup text = (text, []) := by
  have hcut : ReferenceCut.Cuts ⟨text.toList, []⟩ text.toList := by
    refine ⟨List.append_nil _, fun before name plain after hparts => ?_,
      fun front back hcut hback => ?_⟩
    · simp at hparts
    · -- what the shortcut looks for is the head of a reference without its point
      obtain ⟨c, rest, rfl, -⟩ := hback
      have hhead : referenceHead = referenceStart.toList ++ ['.'] := by decide
      have hstarts : (Piece.literal referenceStart).starts (referenceHead ++ c :: rest) = true := by
        rw [hhead, List.append_assoc]
        exact Piece.starts_iff.2 ⟨_, _, rfl, Piece.takes_literal.2 rfl⟩
      rw [hcut, Piece.occurs_append hstarts] at h
      exact absurd h.symm Bool.false_ne_true
  rw [hcut.expandReferences_eq lookup, ReferenceCut.filled]
  simp [ReferenceCut.undefinedNames]

theorem resolveValue_eq (lookup : Lookup) (value : Value) :
    resolveValue lookup value = (value.expanded lookup, value.undefinedNames lookup) := by
  cases value with
  | string text =>
    rw [resolveValue]
    split
    · rfl
    · rename_i hoccurs
      rw [Bool.not_eq_true] at hoccurs
      rw [Value.expanded, Value.undefinedNames, expandReferences_of_not_occurs lookup hoccurs]
  | _ => rfl

namespace Options

variable (lookup : Lookup) (options : Options)

theorem keys_resolveReferences : (options.resolveReferences lookup).1.keys = options.keys :=
  OrderedMap.keys_mapValues _ options

theorem get?_resolveReferences (key : String) :
    (options.resolveReferences lookup).1.get? key =
      (options.get? key).map (Value.expanded lookup) := by
  rw [resolveReferences, OrderedMap.get?_mapValues]
  congr 1
  funext value
  rw [resolveValue_eq]

/-- The attributes that are not defined come in the order of the options and of their texts. -/
theorem snd_resolveReferences :
    (options.resolveReferences lookup).2 =
      options.entries.flatMap fun entry => entry.2.undefinedNames lookup := by
  show (options.entries.flatMap fun entry => (resolveValue lookup entry.2).2) = _
  simp only [resolveValue_eq]

theorem undefined_resolveReferences :
    (options.resolveReferences lookup).2 =
      options.keys.flatMap fun key =>
        ((options.get? key).map (Value.undefinedNames lookup)).getD [] := by
  rw [snd_resolveReferences, options.flatMap_entries]

/-- The texts among options, in their order. -/
def texts : List String :=
  options.entries.filterMap fun entry => match entry.2 with
    | .string text => some text
    | _ => none

/-- Options with the references in all their texts replaced, and the attributes that they refer to
but that are not defined. -/
structure ResolvesTo (resolved : Options) (undefined : List String) : Prop where
  /-- The names are the same, in the same order. -/
  names : resolved.keys = options.keys
  /-- In a text the references are replaced, be there any or not. -/
  texts : ∀ name text, options.get? name = some (.string text) →
    resolved.get? name = some (.string (expandReferences lookup text).1)
  /-- Any other value is left alone, and so are the texts inside of it. -/
  others : ∀ name value, options.get? name = some value → (∀ text, value ≠ .string text) →
    resolved.get? name = some value
  /-- The attributes come in the order of the options and of their texts. -/
  undefined : undefined = options.texts.flatMap fun text => (expandReferences lookup text).2

theorem flatMap_undefinedNames :
    (options.entries.flatMap fun entry => entry.2.undefinedNames lookup) =
      options.texts.flatMap fun text => (expandReferences lookup text).2 := by
  rw [texts]
  induction options.entries with
  | nil => rfl
  | cons entry entries ih =>
    obtain ⟨name, value⟩ := entry
    cases value with
    | string text => exact congrArg ((expandReferences lookup text).2 ++ ·) ih
    | _ => exact ih

theorem resolvesTo_resolveReferences :
    options.ResolvesTo lookup (options.resolveReferences lookup).1
      (options.resolveReferences lookup).2 where
  names := options.keys_resolveReferences lookup
  texts name text h := by
    rw [get?_resolveReferences, h]
    rfl
  others name value h hvalue := by
    rw [get?_resolveReferences, h, Option.map_some]
    cases value with
    | string text => exact absurd rfl (hvalue text)
    | _ => rfl
  undefined := by rw [snd_resolveReferences, flatMap_undefinedNames]

variable {lookup options} {resolved resolved' : Options} {undefined undefined' : List String}

/-- There is only one way to resolve options. -/
theorem ResolvesTo.unique (h : options.ResolvesTo lookup resolved undefined)
    (h' : options.ResolvesTo lookup resolved' undefined') :
    resolved = resolved' ∧ undefined = undefined' := by
  refine ⟨OrderedMap.ext_get? (h.names.trans h'.names.symm) fun name hname => ?_,
    h.undefined.trans h'.undefined.symm⟩
  rw [h.names, ← OrderedMap.contains_iff, OrderedMap.contains, Option.isSome_iff_exists] at hname
  obtain ⟨value, hvalue⟩ := hname
  by_cases htext : ∃ text, value = .string text
  · obtain ⟨text, rfl⟩ := htext
    rw [h.texts name text hvalue, h'.texts name text hvalue]
  · have hother : ∀ text, value ≠ .string text := fun text heq => htext ⟨text, heq⟩
    rw [h.others name value hvalue hother, h'.others name value hvalue hother]

/-- **The options that are resolved are the same options, with the references in each text
replaced.**  It makes no difference that texts are passed over in which no reference can start. -/
theorem resolveReferences_eq_iff :
    options.resolveReferences lookup = (resolved, undefined) ↔
      options.ResolvesTo lookup resolved undefined := by
  constructor
  · intro h
    have hresolves := options.resolvesTo_resolveReferences lookup
    rw [h] at hresolves
    exact hresolves
  · intro h
    obtain ⟨hresolved, hundefined⟩ := (options.resolvesTo_resolveReferences lookup).unique h
    exact Prod.ext hresolved hundefined

end Options

end TaskEngine
