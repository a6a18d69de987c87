import TaskEngine.Task.Builder

/-!
# Lines recorded one after another

Constructing a task, retrying and capturing output each add some lines to the log book and
touch nothing else in it.  What they add is described by a list of levels and texts, so that
their effects can be put one behind the other.

## Main definitions

* `LogBook.recordAll` — the book with several lines of one logger added.

## Main results

* `LogBook.recordAll_append` — lists of lines are added one behind the other.
* `World.logAll_eq`, `World.logCaptured_eq` — what the loops of the model add.
-/

namespace TaskEngine

namespace LogBook

/-- Records lines of a logger, given by their levels and texts, one after another. -/
def recordAll (book : LogBook) (logger : Logger) (lines : List (LogLevel × String)) : LogBook :=
  lines.foldl (fun book line => book.record logger line.1 line.2) book

variable (book : LogBook) (logger : Logger)

@[simp] theorem recordAll_nil : book.recordAll logger [] = book := rfl

@[simp] theorem recordAll_cons (line : LogLevel × String) (lines : List (LogLevel × String)) :
    book.recordAll logger (line :: lines) =
      (book.record logger line.1 line.2).recordAll logger lines := rfl

theorem recordAll_append (first second : List (LogLevel × String)) :
    book.recordAll logger (first ++ second) =
      (book.recordAll logger first).recordAll logger second :=
  List.foldl_append

end LogBook

/-- The level at which a captured line is recorded, and its text. -/
def CapturedLine.entry (line : CapturedLine) : LogLevel × String := (line.stream.level, line.text)

namespace World

theorem logAll_eq (world : World) (logger : Logger) (level : LogLevel)
    (messages : List String) :
    Builder.logAll world logger level messages =
      { world with book := world.book.recordAll logger (messages.map (level, ·)) } := by
  induction messages generalizing world with
  | nil => rfl
  | cons message messages ih =>
    show Builder.logAll (world.log logger level message) logger level messages = _
    rw [ih]
    rfl

theorem logCaptured_eq (world : World) (logger : Logger) (lines : List CapturedLine) :
    world.logCaptured logger lines =
      { world with book := world.book.recordAll logger (lines.map CapturedLine.entry) } := by
  induction lines generalizing world with
  | nil => rfl
  | cons line lines ih => exact ih _

end World

end TaskEngine
