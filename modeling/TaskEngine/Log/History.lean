/-!
# Log histories

Loggers form hierarchies.  All loggers of one hierarchy record into one history,
which keeps a limited number of lines: once it is full, every new line takes the
place of the oldest.

## Main definitions

* `LogLevel`, `LogLine` — what is recorded.
* `History`, `History.record`, `History.lines` — the lines kept, the oldest first.
* `Logger`, `Logger.child` — a name in a hierarchy.
* `LogBook` — the histories of all hierarchies.
-/

namespace TaskEngine

/-- How serious a line is. -/
inductive LogLevel
  | debug
  | info
  | warning
  | error
  deriving DecidableEq

namespace LogLevel

/-- The levels by name, in the order in which they are declared. -/
def named : List (String × LogLevel) :=
  [("debug", debug), ("info", info), ("warning", warning), ("error", error)]

/-- The name of a level. -/
def name : LogLevel → String
  | debug => "debug"
  | info => "info"
  | warning => "warning"
  | error => "error"

end LogLevel

/-- A line of a log. -/
structure LogLine where
  /-- How serious the line is. -/
  level : LogLevel
  /-- The name of the logger that recorded it. -/
  logger : String
  /-- The text of the line. -/
  message : String
  deriving DecidableEq

/-- The lines that a hierarchy of loggers keeps.  They lie in two heaps, so that lines can be
taken from one end and put to the other. -/
structure History where
  /-- How many lines are kept. -/
  limit : Nat
  /-- The older lines, the oldest first. -/
  older : List LogLine
  /-- The newer lines, the newest first. -/
  newer : List LogLine
  /-- How many lines there are. -/
  count : Nat
  /-- The lines are counted rightly. -/
  counted : count = older.length + newer.length

namespace History

/-- The history without lines. -/
def empty (limit : Nat) : History := ⟨limit, [], [], 0, rfl⟩

instance : Inhabited History := ⟨empty 0⟩

/-- The lines, the oldest first. -/
def lines (history : History) : List LogLine := history.older ++ history.newer.reverse

/-- The history without its oldest line. -/
def dropOldest (history : History) : History :=
  match history.older with
  | _ :: older => ⟨history.limit, older, history.newer, older.length + history.newer.length, rfl⟩
  | [] => ⟨history.limit, history.newer.reverse.tail, [], history.newer.reverse.tail.length, rfl⟩

/-- The history with one more line, whatever the limit. -/
def push (history : History) (line : LogLine) : History :=
  { history with
    newer := line :: history.newer
    count := history.count + 1
    counted := by simp only [history.counted, List.length_cons]; omega }

/-- Records a line: once the history is full, in place of the oldest. -/
def record (history : History) (line : LogLine) : History :=
  if history.limit = 0 then history
  else if history.count = history.limit then history.dropOldest.push line
  else history.push line

@[simp] theorem lines_empty (limit : Nat) : (empty limit).lines = [] := rfl

@[simp] theorem lines_push (history : History) (line : LogLine) :
    (history.push line).lines = history.lines ++ [line] := by
  simp [lines, push]

@[simp] theorem lines_dropOldest (history : History) :
    history.dropOldest.lines = history.lines.tail := by
  unfold dropOldest lines
  split <;> rename_i h <;> simp [h]

theorem count_eq (history : History) : history.count = history.lines.length := by
  simp [lines, history.counted]

end History

/-- A logger: a name in the hierarchy that has one history. -/
structure Logger where
  /-- The name, with the names of its ancestors in front. -/
  name : String
  /-- The number of the history in the log book. -/
  history : Nat
  deriving DecidableEq

/-- A logger below another, in the same hierarchy. -/
def Logger.child (logger : Logger) (suffix : String) : Logger :=
  ⟨logger.name ++ "." ++ suffix, logger.history⟩

/-- How many lines a hierarchy keeps unless it is told otherwise. -/
def defaultHistoryLimit : Nat := 10000

/-- The name of the logger of tasks outside of flows. -/
def defaultLoggerName : String := "stagehand.tasks"

/-- The histories of all hierarchies, by their numbers. -/
structure LogBook where
  /-- The histories. -/
  histories : Array History

namespace LogBook

/-- The book without histories. -/
def empty : LogBook := ⟨#[]⟩

/-- Opens a new hierarchy; its first logger has the given name. -/
def start (book : LogBook) (name : String) (limit : Nat) : Logger × LogBook :=
  (⟨name, book.histories.size⟩, ⟨book.histories.push (.empty limit)⟩)

/-- Records a line of a logger. -/
def record (book : LogBook) (logger : Logger) (level : LogLevel) (message : String) : LogBook :=
  ⟨book.histories.modify logger.history (·.record ⟨level, logger.name, message⟩)⟩

/-- The lines that the hierarchy of a logger keeps, the oldest first. -/
def lines (book : LogBook) (logger : Logger) : List LogLine :=
  match book.histories[logger.history]? with
  | some history => history.lines
  | none => []

end LogBook

end TaskEngine
