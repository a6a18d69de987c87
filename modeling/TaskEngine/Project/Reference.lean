import TaskEngine.Options
import TaskEngine.Project.Lookup
import TaskEngine.Text.Pattern

/-!
# References to attributes of a project

A text refers to an attribute by `$project_config.` and the name.

## Main definitions

* `referencePattern` — the places where a text refers to an attribute.
* `expandReferences` — the text with its references replaced, and the names not defined.
* `Options.resolveReferences` — the same for the options that are texts.
-/

namespace TaskEngine

/-- How a reference starts, without its point. -/
def referenceStart : String := "$project_config"

/-- The places where a text refers to an attribute. -/
def referencePattern : Pattern where
  startsWord := false
  head := Piece.literal "$project_config."
  value := Piece.atLeastOne isWordChar

/-- The text of a segment with references replaced. -/
def Segment.expanded (lookup : Lookup) : Segment → List Char
  | .plain c => [c]
  | .place _ name => ((lookup.get? (String.ofList name)).getD missingAttribute).toList

/-- The name in a segment that refers to an attribute that is not defined. -/
def Segment.undefined? (lookup : Lookup) : Segment → Option String
  | .plain _ => none
  | .place _ name =>
    let name := String.ofList name
    if (lookup.get? name).isNone then some name else none

/-- The text with its references replaced, and the names that are not defined. -/
def expandReferences (lookup : Lookup) (text : String) : String × List String :=
  let segments := referencePattern.segments text.toList
  (String.ofList (segments.flatMap (Segment.expanded lookup)),
    segments.filterMap (Segment.undefined? lookup))

/-- An option with its references replaced, and the names that are not defined.  Texts in
which no reference can start are left alone. -/
def resolveValue (lookup : Lookup) : Value → Value × List String
  | .string text =>
    if (Piece.literal referenceStart).occurs text.toList then
      let (expanded, missing) := expandReferences lookup text
      (.string expanded, missing)
    else (.string text, [])
  | value => (value, [])

/-- The options with the references in their texts replaced, and the names that are not
defined. -/
def Options.resolveReferences (lookup : Lookup) (options : Options) : Options × List String :=
  (options.mapValues fun _ value => (resolveValue lookup value).1,
    options.entries.flatMap fun (_, value) => (resolveValue lookup value).2)

end TaskEngine
