import TaskEngine.Document
import TaskEngine.Log.History
import TaskEngine.Log.Timestamp

/-!
# Log records

A log record is a line with the moment at which it was recorded, as it is kept in
documents.

## Main definitions

* `readVariant` — reads one of several names.
* `LogRecord` — a line and its moment.
-/

namespace TaskEngine

open DocumentNode

/-- The meaning of a name. -/
def variantNamed {α : Type} (variants : List (String × α)) (name : String) : Except Fault α :=
  match variants.lookup name with
  | some found => .ok found
  | none => .error (.unknownVariant name (variants.map Prod.fst))

/-- Reads a name, written as a text or as the only key of a map with nothing under it. -/
def readVariant {D α : Type} [DocumentNode D] (variants : List (String × α)) (node : D) :
    Except Fault α :=
  match text node with
  | .ok name => variantNamed variants name
  | .error _ => do
    let listing ← fields node
    match listing.entries with
    | [] => .error .malformed
    | (key, content) :: others => do
      let found ← variantNamed variants (← key)
      if (← isAbsent content) ∧ others.isEmpty ∧ listing.closed then .ok found else .error .malformed

namespace LogLevel

/-- Reads a level. -/
def read {D : Type} [DocumentNode D] (node : D) : Except Fault LogLevel := readVariant named node

/-- The document of a level. -/
def toDocument (level : LogLevel) : Value := .string level.name

end LogLevel

/-- Reads a moment. -/
def Timestamp.read {D : Type} [DocumentNode D] (node : D) : Except Fault Timestamp := do
  match Timestamp.ofText? (← DocumentNode.text node) with
  | some time => .ok time
  | none => .error .malformed

/-- A line and the moment at which it was recorded. -/
structure LogRecord where
  /-- The moment. -/
  time : Timestamp
  /-- The line. -/
  line : LogLine

namespace LogRecord

/-- The fields of a record. -/
def toDocument (record : LogRecord) : Value :=
  .object [("timestamp", .string record.time.text), ("level", record.line.level.toDocument),
    ("logger", .string record.line.logger), ("message", .string record.line.message)]

/-- Reads a record. -/
def reader {D : Type} [DocumentNode D] : RecordReader D LogRecord :=
  (fun time level logger message => ⟨time, ⟨level, logger, message⟩⟩) <$>
    .required "timestamp" Timestamp.read <*> .required "level" LogLevel.read <*>
    .required "logger" DocumentNode.text <*> .required "message" DocumentNode.text

end LogRecord

end TaskEngine
