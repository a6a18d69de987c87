import TaskEngine.Log.History
import Mathlib.Data.List.DropRight
import Mathlib.Data.List.Forall2

/-!
# Hierarchies of loggers

Loggers are made one below another, and all that come from one root share a history that keeps a
limited number of lines.  A journal of the same uses has no limits: it only ever grows, and knows
of every line at which root it was recorded.  What a logger shows is the end of the journal of
its root, whichever loggers recorded it, and whatever happened at other roots in between.

## Main definitions

* `LoggerUse`, `Loggers.after` — what is done with loggers, and where it leads.
* `Journal`, `Journal.after` — the same uses written down without limits.
* `Mirrors` — the histories show the ends of the journal.

## Main results

* `History.lines_record` — one line more, and one line less once the history is full.
* `Mirrors.use` — every use keeps the histories and the journal together.
* `lines_eq_latest` — **every logger shows the latest lines of its hierarchy.**
-/

namespace TaskEngine

/-! ### One history -/

namespace History

variable {history : History} {all : List LogLine}

@[simp] theorem limit_dropOldest (history : History) :
    history.dropOldest.limit = history.limit := by
  unfold dropOldest
  split <;> rfl

@[simp] theorem limit_record (history : History) (line : LogLine) :
    (history.record line).limit = history.limit := by
  unfold record
  split
  · rfl
  · split
    · exact limit_dropOldest history
    · rfl

/-- A history that shows the end of a list shows that of the list with one line more after the
line is recorded. -/
theorem lines_record (h : history.lines = all.rtake history.limit) (line : LogLine) :
    (history.record line).lines = (all ++ [line]).rtake history.limit := by
  have hlength : history.lines.length = min history.limit all.length := by
    rw [h, List.rtake, List.length_drop]
    omega
  unfold record
  split
  · -- a history that keeps nothing
    rename_i hzero
    rw [h, hzero, List.rtake_zero, List.rtake_zero]
  · rename_i hpos
    obtain ⟨n, hn⟩ := Nat.exists_eq_succ_of_ne_zero hpos
    rw [hn, List.rtake_concat_succ]
    split
    · -- the oldest line goes, so one less of the former lines is shown
      rename_i hfull
      rw [count_eq, hlength, hn] at hfull
      rw [lines_push, lines_dropOldest, h, hn, List.rtake, List.rtake, List.tail_drop]
      congr 2
      omega
    · -- there is room for the line, and all former lines were shown
      rename_i hroom
      rw [count_eq, hlength, hn] at hroom
      have hshort : all.length ≤ n := by omega
      rw [lines_push, h, List.rtake, List.rtake, Nat.sub_eq_zero_of_le hshort,
        Nat.sub_eq_zero_of_le (by omega)]

end History

/-! ### Loggers in use -/

/-- What is done with loggers.  They have the numbers in which they were made. -/
inductive LoggerUse
  /-- A hierarchy is opened. -/
  | root (name : String) (limit : Nat)
  /-- A logger is made below another. -/
  | child (parent : Nat) (suffix : String)
  /-- Another handle of a logger is made. -/
  | clone (original : Nat)
  /-- A line is recorded. -/
  | record (number : Nat) (level : LogLevel) (message : String)

/-- Loggers, in the order in which they were made, and the book they record into. -/
structure Loggers where
  book : LogBook
  made : List Logger

namespace Loggers

/-- Uses loggers once; nothing happens to a logger that was not made. -/
def use (loggers : Loggers) : LoggerUse → Loggers
  | .root name limit =>
    let (logger, book) := loggers.book.start name limit
    ⟨book, loggers.made ++ [logger]⟩
  | .child parent suffix => match loggers.made[parent]? with
    | some logger => { loggers with made := loggers.made ++ [logger.child suffix] }
    | none => loggers
  | .clone original => match loggers.made[original]? with
    | some logger => { loggers with made := loggers.made ++ [logger] }
    | none => loggers
  | .record number level message => match loggers.made[number]? with
    | some logger => { loggers with book := loggers.book.record logger level message }
    | none => loggers

/-- What loggers have come to after some uses. -/
def after (loggers : Loggers) (uses : List LoggerUse) : Loggers := uses.foldl use loggers

end Loggers

/-! ### The journal -/

/-- Where a logger stands: at which root, and the parts of its name. -/
structure LoggerPlace where
  root : Nat
  parts : List String

/-- The name of a logger, with points between its parts. -/
def LoggerPlace.name (place : LoggerPlace) : String := ".".intercalate place.parts

/-- The uses of loggers, written down without limits: the limit of every root, the place of every
logger, and every line with the root at which it was recorded. -/
structure Journal where
  roots : List Nat
  places : List LoggerPlace
  lines : List (Nat × LogLine)

namespace Journal

def empty : Journal := ⟨[], [], []⟩

/-- Writes a use down. -/
def note (journal : Journal) : LoggerUse → Journal
  | .root name limit =>
    { journal with
      roots := journal.roots ++ [limit]
      places := journal.places ++ [⟨journal.roots.length, [name]⟩] }
  | .child parent suffix => match journal.places[parent]? with
    | some place =>
      { journal with places := journal.places ++ [⟨place.root, place.parts ++ [suffix]⟩] }
    | none => journal
  | .clone original => match journal.places[original]? with
    | some place => { journal with places := journal.places ++ [place] }
    | none => journal
  | .record number level message => match journal.places[number]? with
    | some place =>
      { journal with lines := journal.lines ++ [(place.root, ⟨level, place.name, message⟩)] }
    | none => journal

/-- The journal after some uses. -/
def after (journal : Journal) (uses : List LoggerUse) : Journal := uses.foldl note journal

/-- All lines that were recorded at a root, in order. -/
def linesOf (journal : Journal) (root : Nat) : List LogLine :=
  (journal.lines.filter (·.1 = root)).map Prod.snd

end Journal

/-! ### Both together -/

/-- A logger stands at its place, and its history is that of its root; `base` is the number of
histories that were there before. -/
structure Logger.StandsAt (base : Nat) (logger : Logger) (place : LoggerPlace) : Prop where
  name : logger.name = place.name
  history : logger.history = base + place.root
  parts : place.parts ≠ []

/-- Loggers stand at the places of the journal, and the history of every root shows the end of its
lines. -/
structure Mirrors (base : Nat) (loggers : Loggers) (journal : Journal) : Prop where
  size : loggers.book.histories.size = base + journal.roots.length
  made : List.Forall₂ (Logger.StandsAt base) loggers.made journal.places
  opened : ∀ place ∈ journal.places, place.root < journal.roots.length
  recorded : ∀ entry ∈ journal.lines, entry.1 < journal.roots.length
  histories : ∀ (root limit : Nat), journal.roots[root]? = some limit →
    ∃ history, loggers.book.histories[base + root]? = some history ∧ history.limit = limit ∧
      history.lines = (journal.linesOf root).rtake limit

/-- Lists that correspond to each other do so at every place. -/
theorem forall₂_getElem? {α β : Type} {R : α → β → Prop} {as : List α} {bs : List β}
    (h : List.Forall₂ R as bs) (n : Nat) :
    (as[n]? = none ∧ bs[n]? = none) ∨ ∃ a b, as[n]? = some a ∧ bs[n]? = some b ∧ R a b := by
  induction h generalizing n with
  | nil => exact Or.inl ⟨rfl, rfl⟩
  | cons hab _ ih =>
    cases n with
    | zero => exact Or.inr ⟨_, _, rfl, rfl, hab⟩
    | succ n => simpa using ih n

theorem Logger.StandsAt.child {base : Nat} {logger : Logger} {place : LoggerPlace}
    (h : logger.StandsAt base place) (suffix : String) :
    (logger.child suffix).StandsAt base ⟨place.root, place.parts ++ [suffix]⟩ := by
  refine ⟨?_, h.history, List.append_ne_nil_of_right_ne_nil _ (List.cons_ne_nil _ _)⟩
  rw [Logger.child, LoggerPlace.name, h.name, LoggerPlace.name,
    String.intercalate_append_of_ne_nil h.parts (List.cons_ne_nil _ _),
    String.intercalate_singleton]

namespace Journal

variable (journal : Journal)

theorem linesOf_concat (root : Nat) (entry : Nat × LogLine) :
    { journal with lines := journal.lines ++ [entry] }.linesOf root =
      journal.linesOf root ++ if entry.1 = root then [entry.2] else [] := by
  unfold linesOf
  rw [List.filter_append, List.map_append, List.filter_singleton]
  split <;> simp_all

/-- Nothing was recorded at a root that is yet to come. -/
theorem linesOf_new (h : ∀ entry ∈ journal.lines, entry.1 < journal.roots.length) :
    journal.linesOf journal.roots.length = [] := by
  rw [linesOf, List.filter_eq_nil_iff.2, List.map_nil]
  intro entry hentry
  have := h entry hentry
  simp only [decide_eq_true_eq]
  omega

end Journal

theorem LogBook.getElem?_record (book : LogBook) (logger : Logger) (level : LogLevel)
    (message : String) (number : Nat) :
    (book.record logger level message).histories[number]? =
      if logger.history = number then
        book.histories[number]?.map (·.record ⟨level, logger.name, message⟩)
      else book.histories[number]? :=
  Array.getElem?_modify

namespace Mirrors

variable {base : Nat} {loggers : Loggers} {journal : Journal}

/-- A new hierarchy starts with an empty history, and the others stay as they are. -/
theorem root (h : Mirrors base loggers journal) (name : String) (limit : Nat) :
    Mirrors base (loggers.use (.root name limit)) (journal.note (.root name limit)) := by
  have hsize := h.size
  have hlast : Logger.StandsAt base (loggers.book.start name limit).1
      ⟨journal.roots.length, [name]⟩ :=
    ⟨String.intercalate_singleton.symm, hsize, List.cons_ne_nil _ _⟩
  constructor
  · simp only [Loggers.use, Journal.note, LogBook.start, Array.size_push, List.length_append,
      List.length_singleton]
    omega
  · exact List.rel_append h.made (.cons hlast .nil)
  · intro place hplace
    simp only [Journal.note, List.mem_append, List.mem_singleton, List.length_append,
      List.length_singleton] at hplace ⊢
    rcases hplace with hplace | rfl
    · have := h.opened place hplace
      omega
    · exact Nat.lt_succ_self _
  · intro entry hentry
    have := h.recorded entry hentry
    simp only [Journal.note, List.length_append, List.length_singleton]
    omega
  · intro number limit' hroot
    simp only [Journal.note, Loggers.use, LogBook.start, Array.getElem?_push] at hroot ⊢
    rw [List.getElem?_append] at hroot
    split at hroot
    · rename_i hold
      obtain ⟨history, hhistory, hshows⟩ := h.histories number limit' hroot
      rw [if_neg (by omega)]
      exact ⟨history, hhistory, hshows⟩
    · obtain ⟨hnumber, hlimit⟩ := List.getElem?_eq_some_iff.1 hroot
      have hnew : number = journal.roots.length := by
        simp only [List.length_singleton] at hnumber
        omega
      subst hnew
      simp only [Nat.sub_self, List.getElem_cons_zero] at hlimit
      subst hlimit
      rw [if_pos hsize.symm]
      refine ⟨.empty limit, rfl, rfl, ?_⟩
      show ([] : List LogLine) = (journal.linesOf journal.roots.length).rtake limit
      rw [journal.linesOf_new h.recorded, List.rtake_nil]

/-- A handle that is made somewhere in a hierarchy changes no history. -/
theorem make (h : Mirrors base loggers journal) {logger : Logger} {place : LoggerPlace}
    (hstands : logger.StandsAt base place) (hroot : place.root < journal.roots.length) :
    Mirrors base { loggers with made := loggers.made ++ [logger] }
      { journal with places := journal.places ++ [place] } := by
  refine ⟨h.size, List.rel_append h.made (.cons hstands .nil), ?_, h.recorded, h.histories⟩
  intro place' hplace
  rcases List.mem_append.1 hplace with hplace | hplace
  · exact h.opened place' hplace
  · rw [List.mem_singleton.1 hplace]
    exact hroot

/-- A line goes into the history of its root, and into no other. -/
theorem record (h : Mirrors base loggers journal) {logger : Logger} {place : LoggerPlace}
    (hstands : logger.StandsAt base place) (hroot : place.root < journal.roots.length)
    (level : LogLevel) (message : String) :
    Mirrors base { loggers with book := loggers.book.record logger level message }
      { journal with lines := journal.lines ++ [(place.root, ⟨level, place.name, message⟩)] } := by
  refine ⟨?_, h.made, h.opened, ?_, ?_⟩
  · rw [← h.size]
    exact Array.size_modify
  · intro entry hentry
    rcases List.mem_append.1 hentry with hentry | hentry
    · exact h.recorded entry hentry
    · rw [List.mem_singleton.1 hentry]
      exact hroot
  · intro root limit hlimit
    obtain ⟨history, hhistory, hkept, hshows⟩ := h.histories root limit hlimit
    rw [Journal.linesOf_concat, LogBook.getElem?_record, hstands.history, hhistory]
    by_cases hsame : place.root = root
    · rw [if_pos (by rw [hsame]), if_pos hsame, hstands.name]
      subst hkept
      exact ⟨_, rfl, History.limit_record _ _, History.lines_record hshows _⟩
    · rw [if_neg (by omega), if_neg hsame, List.append_nil]
      exact ⟨history, rfl, hkept, hshows⟩

/-- Every use keeps the histories and the journal together. -/
theorem use (h : Mirrors base loggers journal) (use : LoggerUse) :
    Mirrors base (loggers.use use) (journal.note use) := by
  -- all uses but the first start from a logger and its place, or there is neither
  cases use with
  | root name limit => exact h.root name limit
  | child parent suffix =>
    rcases forall₂_getElem? h.made parent with
      ⟨hlogger, hplace⟩ | ⟨logger, place, hlogger, hplace, hstands⟩
    · simpa only [Loggers.use, Journal.note, hlogger, hplace] using h
    · have hroot := h.opened place (List.mem_of_getElem? hplace)
      simpa only [Loggers.use, Journal.note, hlogger, hplace] using
        h.make (hstands.child suffix) hroot
  | clone original =>
    rcases forall₂_getElem? h.made original with
      ⟨hlogger, hplace⟩ | ⟨logger, place, hlogger, hplace, hstands⟩
    · simpa only [Loggers.use, Journal.note, hlogger, hplace] using h
    · have hroot := h.opened place (List.mem_of_getElem? hplace)
      simpa only [Loggers.use, Journal.note, hlogger, hplace] using h.make hstands hroot
  | record number level message =>
    rcases forall₂_getElem? h.made number with
      ⟨hlogger, hplace⟩ | ⟨logger, place, hlogger, hplace, hstands⟩
    · simpa only [Loggers.use, Journal.note, hlogger, hplace] using h
    · have hroot := h.opened place (List.mem_of_getElem? hplace)
      simpa only [Loggers.use, Journal.note, hlogger, hplace] using
        h.record hstands hroot level message

theorem after (h : Mirrors base loggers journal) (uses : List LoggerUse) :
    Mirrors base (loggers.after uses) (journal.after uses) := by
  induction uses generalizing loggers journal with
  | nil => exact h
  | cons use uses ih => exact ih (h.use use)

end Mirrors

/-- **Every logger shows the latest lines of its hierarchy.**  A process whose book may have
histories already makes loggers and records lines through them, in any order.  Then every logger
has the name that its place gives it, and shows the last of all lines recorded at its root, as many
as the limit of that root allows. -/
theorem lines_eq_latest (book : LogBook) (uses : List LoggerUse) :
    let loggers := Loggers.after ⟨book, []⟩ uses
    let journal := Journal.empty.after uses
    List.Forall₂ (fun logger place =>
      logger.name = place.name ∧ ∃ limit, journal.roots[place.root]? = some limit ∧
        loggers.book.lines logger = (journal.linesOf place.root).rtake limit ∧
        (loggers.book.lines logger).length = min limit (journal.linesOf place.root).length)
      loggers.made journal.places := by
  intro loggers journal
  have hstart : Mirrors book.histories.size ⟨book, []⟩ Journal.empty :=
    ⟨rfl, .nil, by simp [Journal.empty], by simp [Journal.empty], by simp [Journal.empty]⟩
  have h : Mirrors book.histories.size loggers journal := hstart.after uses
  have hmade := (List.forall₂_and_left _ _).2 ⟨h.opened, h.made.flip⟩
  refine (hmade.imp ?_).flip
  rintro place logger ⟨hroot, hstands⟩
  obtain ⟨history, hhistory, hlimit, hshows⟩ :=
    h.histories place.root _ (List.getElem?_eq_getElem hroot)
  have hlines : loggers.book.lines logger = history.lines := by
    rw [LogBook.lines, hstands.history, hhistory]
  refine ⟨hstands.name, _, List.getElem?_eq_getElem hroot, hlines.trans hshows, ?_⟩
  rw [hlines, hshows, List.rtake, List.length_drop]
  omega

end TaskEngine
