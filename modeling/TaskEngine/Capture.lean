import TaskEngine.Log.History
import TaskEngine.Text.Utf8

/-!
# Captured output

What a task writes goes to its log, line by line, while a capture scope is open and
capturing is enabled; otherwise it goes to the streams of the process.  The start of
a line that is not complete yet waits for the rest.  At the end of a scope what waits
is logged as it is.

## Main definitions

* `Stream` — the two streams.
* `Capture` — the state of capturing: whether it is enabled, whether a scope is open, and
  what waits, with the proof that nothing waits unless output is captured.
* `Capture.enter`, `Capture.leave`, `Capture.write` — the changes, with the lines they log.
* `Transcript` — lines to log and bytes for the streams of the process.
-/

namespace TaskEngine

/-- A stream that a task writes to. -/
inductive Stream
  | out
  | err
  deriving DecidableEq

namespace Stream

/-- The name of a stream. -/
def name : Stream → String
  | out => "Stdout"
  | err => "Stderr"

/-- The level at which captured lines of a stream are logged. -/
def level : Stream → LogLevel
  | out => .info
  | err => .error

end Stream

/-- A captured line. -/
structure CapturedLine where
  /-- The stream. -/
  stream : Stream
  /-- The text. -/
  text : String
  deriving DecidableEq

/-- The text of a line: bytes that encode nothing are replaced, and one carriage return at
the end is left out. -/
def lineText (line : Bytes) : String :=
  let text := decodeLossy line
  String.ofList (if text.getLast? = some '\r' then text.dropLast else text)

/-- The byte that ends a line. -/
def newline : UInt8 := 10

/-- Cuts bytes into the lines that are complete and the start of the next. -/
def cutLines : Bytes → List Bytes × Bytes
  | [] => ([], [])
  | b :: bytes =>
    let (lines, rest) := cutLines bytes
    if b = newline then ([] :: lines, rest)
    else match lines with
      | [] => ([], b :: rest)
      | line :: lines => ((b :: line) :: lines, rest)

/-- The state of capturing the output of a task. -/
structure Capture where
  /-- Whether output is captured at all. -/
  enabled : Bool
  /-- Whether a scope is open. -/
  active : Bool
  /-- The incomplete line of the output stream. -/
  pendingOut : Bytes
  /-- The incomplete line of the error stream. -/
  pendingErr : Bytes
  /-- Nothing waits unless output is captured. -/
  quiet : (enabled && active) = false → pendingOut = [] ∧ pendingErr = []
  deriving DecidableEq

/-- What becomes of written bytes: lines to log, and bytes for the streams of the process. -/
structure Transcript where
  /-- The lines, in order. -/
  lines : List CapturedLine
  /-- The bytes and their stream. -/
  passed : Option (Stream × Bytes)

namespace Capture

/-- Before any scope is opened. -/
def start (enabled : Bool) : Capture := ⟨enabled, false, [], [], fun _ => ⟨rfl, rfl⟩⟩

/-- Whether output is captured now. -/
def isCapturing (capture : Capture) : Bool := capture.enabled && capture.active

/-- The incomplete line of a stream. -/
def pending (capture : Capture) : Stream → Bytes
  | .out => capture.pendingOut
  | .err => capture.pendingErr

theorem not_quiet {capture : Capture} (h : capture.isCapturing = true) :
    (capture.enabled && capture.active) ≠ false := by
  rw [isCapturing] at h
  simp [h]

/-- Puts another incomplete line in its place while output is captured. -/
def withPending (capture : Capture) (capturing : capture.isCapturing = true) (stream : Stream)
    (bytes : Bytes) : Capture :=
  match stream with
  | .out => { capture with pendingOut := bytes, quiet := fun h => absurd h (not_quiet capturing) }
  | .err => { capture with pendingErr := bytes, quiet := fun h => absurd h (not_quiet capturing) }

/-- Opens a scope. -/
def enter (capture : Capture) : Capture :=
  { capture with
    active := true
    quiet := fun h => capture.quiet (by rw [Bool.and_true] at h; rw [h, Bool.false_and]) }

/-- The incomplete line of a stream as a line, unless it is empty. -/
def remainder (capture : Capture) (stream : Stream) : List CapturedLine :=
  let bytes := capture.pending stream
  if bytes.isEmpty then [] else [⟨stream, lineText bytes⟩]

/-- Closes a scope: what waits is logged, first that of the output stream. -/
def leave (capture : Capture) : Capture × List CapturedLine :=
  if h : capture.enabled then
    ({ capture with
        active := false
        pendingOut := []
        pendingErr := []
        quiet := fun _ => ⟨rfl, rfl⟩ },
      capture.remainder .out ++ capture.remainder .err)
  else ({ capture with active := false, quiet := fun _ => capture.quiet (by simp [h]) }, [])

/-- Writes bytes to a stream. -/
def write (capture : Capture) (stream : Stream) (bytes : Bytes) : Capture × Transcript :=
  if h : capture.isCapturing then
    let (lines, rest) := cutLines (capture.pending stream ++ bytes)
    (capture.withPending h stream rest, ⟨lines.map fun line => ⟨stream, lineText line⟩, none⟩)
  else (capture, ⟨[], some (stream, bytes)⟩)

end Capture

end TaskEngine
