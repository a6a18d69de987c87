import TaskEngine.Json.Value
import TaskEngine.OrderedMap

/-!
# Documents

Configuration is read from documents in more than one notation.  What the readers of
configuration ask of a node of a document is gathered in the class `DocumentNode`, so
each kind of record has one reader for all notations.

A reader meets the entries of a document in the order in which they are written, so
of two faults it reports the first.  Fields that are missing are found only at the
end of a record, in the order in which the record declares its fields.

## Main definitions

* `Fault` — why a document is refused.
* `DocumentNode` — what can be asked of a node.
* `readList`, `readMap`, `readOptional` — readers of simple shapes.
* `RecordReader` — a reader of records, put together field by field.
* `RecordReader.read` — reads a record and ignores what it does not know.
* `RecordReader.readOpen` — reads a record and keeps the unknown entries.
* `readTagged` — reads a record whose kind one of its own fields names.
-/

namespace TaskEngine

/-- Why a document is refused. -/
inductive Fault
  /-- The text breaks the rules of its notation, or a value is of the wrong kind. -/
  | malformed
  /-- A required field is not there. -/
  | missingField (name : String)
  /-- A name is none of the expected ones. -/
  | unknownVariant (name : String) (expected : List String)
  /-- A field is there twice. -/
  | duplicateField (name : String)
  deriving DecidableEq

namespace Fault

/-- The names that were expected, as a message lists them. -/
def expectation : List String → String
  | [] => "there are no variants"
  | [a] => s!"expected `{a}`"
  | [a, b] => s!"expected `{a}` or `{b}`"
  | names => "expected one of " ++ ", ".intercalate (names.map fun name => s!"`{name}`")

/-- The message of a fault that has one. -/
def message? : Fault → Option String
  | .malformed => none
  | .missingField name => some s!"missing field `{name}`"
  | .unknownVariant name expected =>
    some (s!"unknown variant `{name}`, " ++ expectation expected)
  | .duplicateField name => some s!"duplicate field `{name}`"

end Fault

/-- Entries of a document, and whether the document is in order behind them. -/
structure Listing (α : Type) where
  /-- The entries, in order. -/
  entries : List α
  /-- Whether the list of entries is complete. -/
  closed : Bool

/-- The key of an entry kept aside: a name, or the place of a field in its record. -/
inductive FieldKey
  | named (name : String)
  | placed (place : Nat)

/-- What can be asked of a node of a document in some notation. -/
class DocumentNode (D : Type) where
  /-- The text of a node that should be one. -/
  text : D → Except Fault String
  /-- The truth value of a node that should be one. -/
  flag : D → Except Fault Bool
  /-- Whether the node says that an optional value is not there. -/
  isAbsent : D → Except Fault Bool
  /-- The items of a node that should be a list. -/
  items : D → Except Fault (Listing D)
  /-- The entries of a node that should be a map; a key that is no text is a fault when its
  turn comes. -/
  fields : D → Except Fault (Listing (Except Fault String × D))
  /-- The items of a node that gives the fields of a record by their places. -/
  places : D → Option (Except Fault (Listing D))
  /-- The items of a node that gives the kind and the fields of a record by their places. -/
  taggedPlaces : D → Option (Except Fault (Listing D))
  /-- The value that the node writes. -/
  value : D → Except Fault Value
  /-- The value of an entry that its record does not know. -/
  unknown : D → Except Fault Value
  /-- Passes over a node. -/
  skip : D → Except Fault Unit
  /-- The key of an entry that is kept aside. -/
  asideKey : D → Except Fault (Listing (Except Fault FieldKey × D))
  /-- The value of an entry that is kept aside until the kind of its record is known. -/
  aside : D → Except Fault Value

open DocumentNode

variable {D α β : Type} [DocumentNode D]

/-- Fails unless a listing is closed. -/
def Listing.finish {γ : Type} (listing : Listing γ) : Except Fault Unit :=
  if listing.closed then .ok () else .error .malformed

/-- Reads a list, item by item. -/
def readList (item : D → Except Fault α) (node : D) : Except Fault (List α) := do
  let listing ← items node
  let found ← listing.entries.mapM item
  listing.finish
  return found

/-- Reads a map, entry by entry; a repeated key keeps its place and takes the last value. -/
def readMap (value : D → Except Fault α) (node : D) : Except Fault (OrderedMap α) := do
  let listing ← fields node
  let pairs ← listing.entries.mapM fun (key, node) => do
    let key ← key
    return (key, ← value node)
  listing.finish
  return OrderedMap.ofList pairs

/-- Reads a value that may be absent. -/
def readOptional (value : D → Except Fault α) (node : D) : Except Fault (Option α) := do
  if ← isAbsent node then return none else return some (← value node)

/-! ### Records -/

/-- A reader of records: the names of the fields with a reader that checks each, and how the
record is made of the fields found. -/
structure RecordReader (D α : Type) where
  /-- The fields, in the order in which they are declared. -/
  known : List (String × (D → Except Fault Unit))
  /-- The record of the nodes found. -/
  build : (String → Option D) → Except Fault α

namespace RecordReader

/-- Checks that a reader takes a node. -/
def check (value : D → Except Fault α) (node : D) : Except Fault Unit := (value node).map fun _ => ()

/-- A field that has to be there. -/
def required (name : String) (value : D → Except Fault α) : RecordReader D α where
  known := [(name, check value)]
  build found := match found name with
    | some node => value node
    | none => .error (.missingField name)

/-- A field with a value for the case that it is not there. -/
def withDefault (name : String) (value : D → Except Fault α) (default : α) :
    RecordReader D α where
  known := [(name, check value)]
  build found := match found name with
    | some node => value node
    | none => .ok default

/-- A field that may be absent, be it not there or empty. -/
def optional (name : String) (value : D → Except Fault α) : RecordReader D (Option α) :=
  withDefault name (readOptional value) none

instance : Functor (RecordReader D) where
  map f reader := ⟨reader.known, fun found => (reader.build found).map f⟩

instance : Seq (RecordReader D) where
  seq function argument :=
    let argument := argument ()
    ⟨function.known ++ argument.known, fun found => do
      let f ← function.build found
      return f (← argument.build found)⟩

/-- The known fields among entries, each at most once, in the order of the document. -/
def collect (known : List (String × (D → Except Fault Unit))) (other : String → D → Except Fault β) :
    List (Except Fault String × D) → List (String × D) → List β →
      Except Fault (List (String × D) × List β)
  | [], found, others => .ok (found, others)
  | (key, node) :: entries, found, others => do
    let name ← key
    match known.lookup name with
    | none => do
      let rest ← other name node
      collect known other entries found (others ++ [rest])
    | some check =>
      if (found.lookup name).isSome then .error (.duplicateField name)
      else do
        check node
        collect known other entries (found ++ [(name, node)]) others

/-- Reads a record whose fields are given by their places. -/
def readPlaces (reader : RecordReader D α) (listing : Listing D) : Except Fault α := do
  let placed := reader.known.zip listing.entries
  placed.forM fun ((_, check), node) => check node
  let found := placed.map fun ((name, _), node) => (name, node)
  match reader.build (found.lookup ·) with
  | .error _ => .error .malformed
  | .ok record =>
    if listing.closed ∧ listing.entries.length ≤ reader.known.length then .ok record
    else .error .malformed

/-- Reads a record from named entries; entries it does not know are passed over. -/
def readFields (reader : RecordReader D α) (listing : Listing (Except Fault String × D)) :
    Except Fault α := do
  let (found, _) ← collect reader.known (fun _ node => skip node) listing.entries [] []
  listing.finish
  reader.build (found.lookup ·)

/-- Reads a record; entries it does not know are passed over. -/
def read (reader : RecordReader D α) (node : D) : Except Fault α :=
  match places node with
  | some listing => do reader.readPlaces (← listing)
  | none => do reader.readFields (← fields node)

/-- Reads a record and keeps the entries it does not know. -/
def readOpen (reader : RecordReader D (OrderedMap Value → α)) (node : D) : Except Fault α := do
  let listing ← fields node
  let (found, others) ← collect reader.known (fun name node => do return (name, ← unknown node))
    listing.entries [] []
  listing.finish
  let record ← reader.build (found.lookup ·)
  return record (OrderedMap.ofList others)

end RecordReader

/-! ### Values as documents -/

/-- Values are documents in which every node is known already. -/
instance : DocumentNode Value where
  text
    | .string text => .ok text
    | _ => .error .malformed
  flag
    | .bool flag => .ok flag
    | _ => .error .malformed
  isAbsent
    | .null => .ok true
    | _ => .ok false
  items
    | .array items => .ok ⟨items, true⟩
    | _ => .error .malformed
  fields
    | .object fields => .ok ⟨fields.map fun (key, value) => (.ok key, value), true⟩
    | _ => .error .malformed
  places
    | .array items => some (.ok ⟨items, true⟩)
    | _ => none
  taggedPlaces
    | .array items => some (.ok ⟨items, true⟩)
    | _ => none
  value := .ok
  unknown := .ok
  skip _ := .ok ()
  asideKey
    | .object fields => .ok ⟨fields.map fun (key, value) => (.ok (.named key), value), true⟩
    | _ => .error .malformed
  aside := .ok

/-! ### Tagged records -/

/-- The reader of a kind of record. -/
def kindNamed (kinds : List (String × RecordReader Value α)) (name : String) :
    Except Fault (RecordReader Value α) :=
  match kinds.lookup name with
  | some reader => .ok reader
  | none => .error (.unknownVariant name (kinds.map Prod.fst))

/-- The kind among entries, which are otherwise kept aside in their order. -/
def collectTagged (tag : String) (kinds : List (String × RecordReader Value α)) :
    List (Except Fault FieldKey × D) → Option (RecordReader Value α) → List (FieldKey × Value) →
      Except Fault (Option (RecordReader Value α) × List (FieldKey × Value))
  | [], kind, kept => .ok (kind, kept)
  | (key, node) :: entries, kind, kept => do
    match ← key with
    | .named name =>
      if name = tag then
        if kind.isSome then .error (.duplicateField tag)
        else do
          let kind ← kindNamed kinds (← text node)
          collectTagged tag kinds entries (some kind) kept
      else do
        let value ← aside node
        collectTagged tag kinds entries kind (kept ++ [(.named name, value)])
    | .placed place => do
      let value ← aside node
      collectTagged tag kinds entries kind (kept ++ [(.placed place, value)])

/-- An entry kept aside, with its place replaced by the name of the field there. -/
def nameEntry (reader : RecordReader Value α) :
    FieldKey × Value → Option (Except Fault String × Value)
  | (.named name, value) => some (.ok name, value)
  | (.placed place, value) => (reader.known[place]?).map fun (name, _) => (.ok name, value)

/-- Reads a record that names its kind in a field, or in the first item of a list. -/
def readTagged (tag : String) (kinds : List (String × RecordReader Value α)) (node : D) :
    Except Fault α :=
  match taggedPlaces node with
  | some listing => do
    let listing ← listing
    match listing.entries with
    | [] => if listing.closed then .error (.missingField tag) else .error .malformed
    | first :: rest => do
      let reader ← kindNamed kinds (← text first)
      let rest ← rest.mapM aside
      listing.finish
      reader.readPlaces ⟨rest, true⟩
  | none => do
    let listing ← asideKey node
    let (kind, kept) ← collectTagged tag kinds listing.entries none []
    listing.finish
    match kind with
    | none => .error (.missingField tag)
    | some reader => reader.readFields ⟨kept.filterMap (nameEntry reader), true⟩

end TaskEngine
