import TaskEngine.Proofs.Log.Recorded
import TaskEngine.Proofs.Output.Lines
import TaskEngine.Proofs.Output.Scopes

/-!
# Periods of capturing

While output is captured, every stream collects its bytes, and whatever is complete up to a newline
is logged at once.  What becomes of a whole period of capturing depends only on the bytes that were
written in it and on their order, and not on the writes that brought them.

A period starts with the opening of a scope and ends when one is given up; in between nothing
switches capturing off.  The invariant of a period says, for each stream, which lines have been
logged and what waits.

## Main definitions

* `writtenBytes`, `bytesOf`, `newlineStreams` — what was written, and where lines end.
* `ScopedCapture.Period` — a longest stretch of uses in which output is captured.
* `ScopedCapture.Progress` — the invariant.
* `World.acceptAll` — the world after what became of some uses.

## Main results

* `ScopedCapture.Progress.use` — a use inside a period keeps the invariant.
* `ScopedCapture.period_logs` — **what a period logs**, and that nothing else does.
-/

namespace TaskEngine

/-! ### What is written -/

/-- The bytes that a use writes, each with its stream. -/
def CaptureUse.written : CaptureUse → List (Stream × UInt8)
  | .writing stream bytes => bytes.map (stream, ·)
  | _ => []

/-- The bytes that are written, in order, each with its stream. -/
def writtenBytes (uses : List CaptureUse) : List (Stream × UInt8) := uses.flatMap CaptureUse.written

/-- The bytes that are written to a stream. -/
def bytesOf (stream : Stream) (written : List (Stream × UInt8)) : Bytes :=
  (written.filter (·.1 = stream)).map Prod.snd

/-- The streams on which lines are completed, in the order of their newlines. -/
def newlineStreams (written : List (Stream × UInt8)) : List Stream :=
  (written.filter (·.2 = newline)).map Prod.fst

/-- Whether the last line that is written to a stream is left incomplete. -/
def endsInside (written : List (Stream × UInt8)) (stream : Stream) : Bool :=
  (bytesOf stream written).getLast?.any (· != newline)

/-- The texts of the lines of a stream. -/
def textsOf (stream : Stream) (lines : List CapturedLine) : List String :=
  (lines.filter (·.stream = stream)).map CapturedLine.text

section Written

variable (stream other : Stream) (written more : List (Stream × UInt8)) (bytes : Bytes)
  (lines later : List CapturedLine)

theorem bytesOf_append : bytesOf stream (written ++ more) =
    bytesOf stream written ++ bytesOf stream more := by
  rw [bytesOf, List.filter_append, List.map_append]
  rfl

theorem bytesOf_map : bytesOf stream (bytes.map (other, ·)) =
    if other = stream then bytes else [] := by
  by_cases h : other = stream
  · simp [bytesOf, List.filter_map, Function.comp_def, h]
  · simp [bytesOf, List.filter_map, Function.comp_def, h]

theorem newlineStreams_append : newlineStreams (written ++ more) =
    newlineStreams written ++ newlineStreams more := by
  rw [newlineStreams, List.filter_append, List.map_append]
  rfl

theorem newlineStreams_map : newlineStreams (bytes.map (stream, ·)) =
    List.replicate (bytes.count newline) stream := by
  induction bytes with
  | nil => rfl
  | cons b bytes ih =>
    rw [List.map_cons, newlineStreams, List.filter_cons, List.count_cons]
    by_cases h : b = newline
    · rw [if_pos (decide_eq_true h), h, beq_self_eq_true, if_pos rfl, List.replicate_succ,
        List.map_cons]
      exact congrArg _ ih
    · rw [if_neg (by simpa using h), if_neg (by simpa using h)]
      exact ih

theorem textsOf_append : textsOf stream (lines ++ later) =
    textsOf stream lines ++ textsOf stream later := by
  rw [textsOf, List.filter_append, List.map_append]
  rfl

theorem textsOf_map {α : Type} (text : α → String) (items : List α) :
    textsOf stream (items.map fun item => ⟨other, text item⟩) =
      if other = stream then items.map text else [] := by
  by_cases h : other = stream
  · have hall : ∀ line ∈ items.map fun item => (⟨other, text item⟩ : CapturedLine),
        decide (line.stream = stream) = true := by
      simp [h]
    rw [textsOf, List.filter_eq_self.2 hall, List.map_map, if_pos h]
    rfl
  · simp [textsOf, List.filter_map, Function.comp_def, h]

end Written

/-- What a period logs in which some bytes are written: on every stream, the messages that its
bytes stand for.  The lines come in the order of their newlines, and lines left incomplete come
last, that of the output stream first. -/
structure LogsPeriod (written : List (Stream × UInt8)) (lines : List CapturedLine) : Prop where
  /-- The messages of each stream. -/
  texts : ∀ stream, textsOf stream lines = messagesOf (bytesOf stream written)
  /-- The order of the lines. -/
  streams : lines.map CapturedLine.stream =
    newlineStreams written ++ [Stream.out, Stream.err].filter (endsInside written)

/-- Lines are determined by the order of their streams and by the texts on each of them. -/
theorem eq_of_textsOf {lines lines' : List CapturedLine}
    (hstreams : lines.map CapturedLine.stream = lines'.map CapturedLine.stream)
    (htexts : ∀ stream, textsOf stream lines = textsOf stream lines') : lines = lines' := by
  induction lines generalizing lines' with
  | nil => exact (List.map_eq_nil_iff.1 hstreams.symm).symm
  | cons line lines ih =>
    cases lines' with
    | nil => exact absurd hstreams (List.cons_ne_nil _ _)
    | cons line' lines' =>
      rw [List.map_cons, List.map_cons, List.cons.injEq] at hstreams
      have hhead := htexts line.stream
      rw [textsOf, textsOf, List.filter_cons_of_pos (by simp),
        List.filter_cons_of_pos (by simp [hstreams.1]), List.map_cons, List.map_cons,
        List.cons.injEq] at hhead
      have hline : line = line' := by
        cases line
        cases line'
        exact CapturedLine.mk.injEq .. ▸ ⟨hstreams.1, hhead.1⟩
      subst hline
      rw [ih hstreams.2 fun stream => ?_]
      have htail := htexts stream
      by_cases h : line.stream = stream
      · rw [textsOf, textsOf, List.filter_cons_of_pos (by simpa using h),
          List.filter_cons_of_pos (by simpa using h), List.map_cons, List.map_cons,
          List.cons.injEq] at htail
        exact htail.2
      · rw [textsOf, textsOf, List.filter_cons_of_neg (by simpa using h),
          List.filter_cons_of_neg (by simpa using h)] at htail
        exact htail

theorem LogsPeriod.unique {written : List (Stream × UInt8)} {lines lines' : List CapturedLine}
    (h : LogsPeriod written lines) (h' : LogsPeriod written lines') : lines = lines' :=
  eq_of_textsOf (h.streams.trans h'.streams.symm) fun stream =>
    (h.texts stream).trans (h'.texts stream).symm

/-! ### The invariant -/

namespace Capture

theorem pending_withPending {capture : Capture} (capturing : capture.isCapturing = true)
    (stream other : Stream) (bytes : Bytes) :
    (capture.withPending capturing stream bytes).pending other =
      if other = stream then bytes else capture.pending other := by
  cases stream with
  | out => cases other with
    | out => rfl
    | err => rfl
  | err => cases other with
    | out => rfl
    | err => rfl

/-- What is left of an incomplete line is one more message of its stream, unless it is empty. -/
theorem textsOf_remainder (capture : Capture) (stream other : Stream) :
    textsOf other (capture.remainder stream) =
      if stream = other then
        if (capture.pending other).isEmpty then [] else [lineText (capture.pending other)]
      else [] := by
  rw [remainder]
  by_cases hother : stream = other
  · subst hother
    rw [if_pos rfl]
    split
    · rfl
    · exact (textsOf_map stream stream lineText [capture.pending stream]).trans (if_pos rfl)
  · rw [if_neg hother]
    split
    · rfl
    · exact (textsOf_map other stream lineText [capture.pending stream]).trans (if_neg hother)

theorem map_stream_remainder (capture : Capture) (stream : Stream) :
    (capture.remainder stream).map CapturedLine.stream =
      [stream].filter fun stream => !(capture.pending stream).isEmpty := by
  rw [remainder]
  cases h : (capture.pending stream).isEmpty with
  | true => simp [h]
  | false => simp [h]

/-- Nothing waits while output is not captured. -/
theorem pending_of_not_capturing {capture : Capture} (h : capture.isCapturing = false)
    (stream : Stream) : capture.pending stream = [] := by
  cases stream with
  | out => exact (capture.quiet h).1
  | err => exact (capture.quiet h).2

end Capture

namespace ScopedCapture

variable {s : ScopedCapture} {written : List (Stream × UInt8)} {lines : List CapturedLine}

/-- How far a period has come in which some bytes were written and some lines were logged: on
every stream the complete lines have been logged and the rest waits, and the lines of both streams
have been logged in the order of their newlines. -/
structure Progress (s : ScopedCapture) (written : List (Stream × UInt8))
    (lines : List CapturedLine) : Prop where
  /-- The lines of each stream. -/
  texts : ∀ stream, textsOf stream lines = (cutLines (bytesOf stream written)).1.map lineText
  /-- The order of the lines. -/
  streams : lines.map CapturedLine.stream = newlineStreams written
  /-- What waits. -/
  pending : ∀ stream, s.capture.pending stream = (cutLines (bytesOf stream written)).2

/-- Nothing has happened yet in a period that starts. -/
theorem Progress.start (h : ∀ stream, s.capture.pending stream = []) : s.Progress [] [] :=
  ⟨fun _ => rfl, rfl, h⟩

theorem use_writing_of_capturing (h : s.capture.isCapturing = true) (stream : Stream)
    (bytes : Bytes) :
    let cut := cutLines (s.capture.pending stream ++ bytes)
    s.use (.writing stream bytes) =
      (⟨s.capture.withPending h stream cut.2, s.scopes, s.opened⟩,
        ⟨cut.1.map fun line => ⟨stream, lineText line⟩, none⟩) := by
  rw [use, Capture.write, dif_pos h]

/-- Writing to a stream completes lines of this stream, one for each newline, and leaves the other
stream alone. -/
theorem Progress.writing (hprogress : s.Progress written lines)
    (h : s.capture.isCapturing = true) (stream : Stream) (bytes : Bytes) :
    (s.use (.writing stream bytes)).1.Progress (written ++ bytes.map (stream, ·))
      (lines ++ (s.use (.writing stream bytes)).2.lines) := by
  rw [use_writing_of_capturing h]
  have hpending := hprogress.pending stream
  have hcut := cutLines_append (bytesOf stream written) bytes
  rw [← hpending] at hcut
  constructor
  · intro other
    dsimp only
    rw [textsOf_append, hprogress.texts, bytesOf_append, bytesOf_map, textsOf_map]
    by_cases hother : stream = other
    · rw [if_pos hother, if_pos hother, ← hother, hcut, List.map_append]
    · rw [if_neg hother, if_neg hother, List.append_nil, List.append_nil]
  · dsimp only
    have hrest : (s.capture.pending stream).count newline = 0 := by
      rw [hpending]
      exact List.count_eq_zero_of_not_mem (newline_not_mem_rest _)
    rw [List.map_append, hprogress.streams, newlineStreams_append, newlineStreams_map,
      List.map_map, Function.comp_def, List.map_const', length_cutLines, List.count_append, hrest,
      Nat.zero_add]
  · intro other
    dsimp only
    rw [Capture.pending_withPending, bytesOf_append, bytesOf_map]
    by_cases hother : stream = other
    · rw [if_pos hother.symm, if_pos hother, ← hother, hcut]
    · rw [if_neg (Ne.symm hother), if_neg hother, List.append_nil, hprogress.pending]

/-- **A use inside a period keeps the invariant**, and none of it reaches the process. -/
theorem Progress.use (hprogress : s.Progress written lines) {use : CaptureUse}
    (h : s.capture.isCapturing = true) (h' : (s.use use).1.capture.isCapturing = true) :
    (s.use use).1.Progress (written ++ use.written) (lines ++ (s.use use).2.lines) ∧
      (s.use use).2.passed = none := by
  cases use with
  | opening =>
    show Progress _ (written ++ []) (lines ++ []) ∧ _
    rw [List.append_nil, List.append_nil]
    refine ⟨⟨hprogress.texts, hprogress.streams, fun stream => ?_⟩, rfl⟩
    rw [← hprogress.pending]
    cases stream with
    | out => rfl
    | err => rfl
  | closing scope =>
    -- a scope that is really given up would end the period
    rw [ScopedCapture.use] at h' ⊢
    split
    · rename_i hscope
      rw [if_pos hscope, Capture.isCapturing, (enabled_leave s.capture).2, Bool.and_false] at h'
      exact absurd h' Bool.false_ne_true
    · show Progress _ (written ++ []) (lines ++ []) ∧ _
      rw [List.append_nil, List.append_nil]
      exact ⟨hprogress, rfl⟩
  | writing stream bytes =>
    refine ⟨hprogress.writing h stream bytes, ?_⟩
    rw [use_writing_of_capturing h]

/-! ### Whole periods -/

/-- A period: no output is captured at first, then a use switches capturing on, it stays on during
further uses, and a last use switches it off. -/
structure Period (s : ScopedCapture) (first : CaptureUse) (inside : List CaptureUse)
    (last : CaptureUse) : Prop where
  /-- Before the period no output is captured. -/
  before : s.capture.isCapturing = false
  /-- From the first use on, output is captured. -/
  during : ∀ pre, pre <+: inside → (s.after (first :: pre)).capture.isCapturing = true
  /-- After the last use it is no longer. -/
  ended : ((s.after (first :: inside)).use last).1.capture.isCapturing = false

/-- The lines that uses log. -/
def logged (s : ScopedCapture) (uses : List CaptureUse) : List CapturedLine :=
  (s.transcripts uses).flatMap Transcript.lines

/-- What uses write to the streams of the process. -/
def passed (s : ScopedCapture) (uses : List CaptureUse) : List (Stream × Bytes) :=
  (s.transcripts uses).filterMap Transcript.passed

theorem logged_concat (s : ScopedCapture) (uses : List CaptureUse) (use : CaptureUse) :
    s.logged (uses ++ [use]) = s.logged uses ++ ((s.after uses).use use).2.lines := by
  rw [logged, transcripts_append, List.flatMap_append]
  simp [transcripts, logged]

theorem passed_concat (s : ScopedCapture) (uses : List CaptureUse) (use : CaptureUse) :
    s.passed (uses ++ [use]) = s.passed uses ++ ((s.after uses).use use).2.passed.toList := by
  rw [passed, transcripts_append, List.filterMap_append]
  cases h : ((s.after uses).use use).2.passed with
  | none => simp [transcripts, passed, h]
  | some chunk => simp [transcripts, passed, h]

/-- Only opening a scope switches capturing on. -/
theorem eq_opening {use : CaptureUse} (h : s.capture.isCapturing = false)
    (h' : (s.use use).1.capture.isCapturing = true) : use = .opening := by
  cases use with
  | opening => rfl
  | closing scope =>
    rw [ScopedCapture.use] at h'
    split at h'
    · rw [Capture.isCapturing, (enabled_leave s.capture).2, Bool.and_false] at h'
      exact absurd h' Bool.false_ne_true
    · exact absurd (h.symm.trans h') Bool.false_ne_true
  | writing stream bytes =>
    have hwrite := enabled_write s.capture stream bytes
    rw [ScopedCapture.use, Capture.isCapturing, hwrite.1, hwrite.2] at h'
    exact absurd (h.symm.trans h') Bool.false_ne_true

/-- Only giving up a scope switches capturing off, and what waits is logged then. -/
theorem use_of_ended {use : CaptureUse} (h : s.capture.isCapturing = true)
    (h' : (s.use use).1.capture.isCapturing = false) :
    use.written = [] ∧
      (s.use use).2 = ⟨s.capture.remainder .out ++ s.capture.remainder .err, none⟩ := by
  have henabled : s.capture.enabled = true := (Bool.and_eq_true_iff.1 h).1
  cases use with
  | opening =>
    have hon : (s.use .opening).1.capture.isCapturing = true := Bool.and_eq_true_iff.2 ⟨henabled, rfl⟩
    exact absurd (h'.symm.trans hon) Bool.false_ne_true
  | closing scope =>
    rw [ScopedCapture.use] at h' ⊢
    split
    · rw [Capture.leave, dif_pos henabled]
      exact ⟨rfl, rfl⟩
    · rename_i hscope
      rw [if_neg hscope] at h'
      exact absurd (h'.symm.trans h) Bool.false_ne_true
  | writing stream bytes =>
    have hwrite := enabled_write s.capture stream bytes
    rw [ScopedCapture.use, Capture.isCapturing, hwrite.1, hwrite.2] at h'
    exact absurd (h'.symm.trans h) Bool.false_ne_true

section Period

variable {first last : CaptureUse} {inside : List CaptureUse}

/-- How far a period has come after some uses inside it: by induction on them. -/
theorem Period.progress (h : s.Period first inside last) {pre : List CaptureUse}
    (hpre : pre <+: inside) :
    (s.after (first :: pre)).Progress (writtenBytes pre) (s.logged (first :: pre)) ∧
      s.passed (first :: pre) = [] := by
  have hfirst : first = .opening := eq_opening h.before (h.during [] List.nil_prefix)
  subst hfirst
  induction pre using List.reverseRecOn with
  | nil =>
    refine ⟨Progress.start fun stream => ?_, rfl⟩
    rw [← Capture.pending_of_not_capturing h.before stream]
    cases stream with
    | out => rfl
    | err => rfl
  | append_singleton pre use ih =>
    have hshorter : pre <+: inside := (List.prefix_append pre [use]).trans hpre
    have hafter := h.during _ hpre
    rw [← List.cons_append, after_concat] at hafter
    have hstep := (ih hshorter).1.use (h.during _ hshorter) hafter
    rw [← List.cons_append, after_concat, logged_concat, passed_concat, (ih hshorter).2, hstep.2]
    refine ⟨?_, rfl⟩
    rw [writtenBytes, List.flatMap_append, List.flatMap_singleton]
    exact hstep.1

/-- The first and the last use of a period write nothing. -/
theorem Period.writtenBytes_eq (h : s.Period first inside last) :
    writtenBytes (first :: inside ++ [last]) = writtenBytes inside := by
  have hfirst : first = .opening := eq_opening h.before (h.during [] List.nil_prefix)
  have hlast := (use_of_ended (h.during inside (List.prefix_refl _)) h.ended).1
  rw [writtenBytes, List.flatMap_append, List.flatMap_singleton, hlast, List.append_nil,
    hfirst]
  rfl

/-- When a period ends, every stream has logged what all its bytes stand for. -/
theorem Period.logs (h : s.Period first inside last) :
    LogsPeriod (writtenBytes inside) (s.logged (first :: inside ++ [last])) ∧
      s.passed (first :: inside ++ [last]) = [] := by
  obtain ⟨hprogress, hpassed⟩ := h.progress (List.prefix_refl inside)
  have hlast := (use_of_ended (h.during inside (List.prefix_refl _)) h.ended).2
  rw [logged_concat, passed_concat, hlast, hpassed]
  refine ⟨⟨fun stream => ?_, ?_⟩, rfl⟩
  · rw [textsOf_append, textsOf_append, Capture.textsOf_remainder, Capture.textsOf_remainder,
      hprogress.texts, messagesOf_eq, ← hprogress.pending]
    cases stream with
    | out => exact congrArg _ (List.append_nil _)
    | err => rfl
  · have hends : endsInside (writtenBytes inside) =
        fun stream => !((s.after (first :: inside)).capture.pending stream).isEmpty := by
      funext stream
      rw [hprogress.pending, isEmpty_rest, Bool.not_not]
      rfl
    rw [List.map_append, List.map_append, hprogress.streams, Capture.map_stream_remainder,
      Capture.map_stream_remainder, ← List.filter_append, hends]
    rfl

end Period

end ScopedCapture

/-! ### The log and the process -/

/-- The bytes that are passed to a stream of the process. -/
def passedTo (stream : Stream) (passed : List (Stream × Bytes)) : Bytes :=
  (passed.filter (·.1 = stream)).flatMap Prod.snd

/-- The world after what became of some uses of capturing has been done. -/
def World.acceptAll (world : World) (logger : Logger) (transcripts : List Transcript) : World :=
  transcripts.foldl (fun world transcript => world.accept logger transcript) world

/-- Accepting a transcript records its lines and passes its bytes on to their stream. -/
theorem World.accept_eq (world : World) (logger : Logger) (transcript : Transcript) :
    (world.accept logger transcript).book =
        world.book.recordAll logger (transcript.lines.map CapturedLine.entry) ∧
      (world.accept logger transcript).processOut =
        world.processOut ++ passedTo .out transcript.passed.toList ∧
      (world.accept logger transcript).processErr =
        world.processErr ++ passedTo .err transcript.passed.toList := by
  obtain ⟨lines, passed⟩ := transcript
  simp only [accept, logCaptured_eq]
  cases passed with
  | none =>
    refine ⟨rfl, ?_, ?_⟩
    · exact (List.append_nil _).symm
    · exact (List.append_nil _).symm
  | some chunk =>
    obtain ⟨stream, bytes⟩ := chunk
    cases stream with
    | out => simp [pass, passedTo]
    | err => simp [pass, passedTo]

namespace ScopedCapture

/-- The lines that uses log are recorded one after another, and what they pass on is appended to
the streams of the process: by induction on the uses. -/
theorem acceptAll_transcripts (logger : Logger) (s : ScopedCapture) (uses : List CaptureUse)
    (world : World) :
    (world.acceptAll logger (s.transcripts uses)).book =
        world.book.recordAll logger ((s.logged uses).map CapturedLine.entry) ∧
      (world.acceptAll logger (s.transcripts uses)).processOut =
        world.processOut ++ passedTo .out (s.passed uses) ∧
      (world.acceptAll logger (s.transcripts uses)).processErr =
        world.processErr ++ passedTo .err (s.passed uses) := by
  induction uses generalizing s world with
  | nil => exact ⟨rfl, (List.append_nil _).symm, (List.append_nil _).symm⟩
  | cons use uses ih =>
    have haccept := world.accept_eq logger (s.use use).2
    have hrest := ih (s.use use).1 (world.accept logger (s.use use).2)
    have hlogged : s.logged (use :: uses) = (s.use use).2.lines ++ (s.use use).1.logged uses := rfl
    have hpassed : s.passed (use :: uses) =
        (s.use use).2.passed.toList ++ (s.use use).1.passed uses := by
      rw [passed, transcripts, List.filterMap_cons]
      cases (s.use use).2.passed with
      | none => rfl
      | some chunk => rfl
    rw [hlogged, hpassed, List.map_append, LogBook.recordAll_append, passedTo, passedTo,
      List.filter_append, List.filter_append, List.flatMap_append, List.flatMap_append,
      ← List.append_assoc, ← List.append_assoc]
    rw [haccept.1, haccept.2.1, haccept.2.2] at hrest
    exact hrest

/-- Outside of periods nothing is logged. -/
theorem lines_of_not_capturing {s : ScopedCapture} (h : s.capture.isCapturing = false)
    (use : CaptureUse) : (s.use use).2.lines = [] := by
  cases use with
  | opening => rfl
  | closing scope =>
    rw [ScopedCapture.use]
    split
    · rw [Capture.leave]
      split
      · show s.capture.remainder .out ++ s.capture.remainder .err = []
        rw [Capture.remainder, Capture.remainder, Capture.pending_of_not_capturing h,
          Capture.pending_of_not_capturing h]
        rfl
      · rfl
    · rfl
  | writing stream bytes =>
    rw [ScopedCapture.use, Capture.write, dif_neg (by simp [h])]

theorem passed_writing (s : ScopedCapture) (stream : Stream) (bytes : Bytes) :
    (s.use (.writing stream bytes)).2.passed =
      if s.capture.isCapturing then none else some (stream, bytes) := by
  cases h : s.capture.isCapturing with
  | true =>
    rw [use_writing_of_capturing h]
    rfl
  | false =>
    rw [ScopedCapture.use, Capture.write, dif_neg (by simp [h])]
    rfl

end ScopedCapture

end TaskEngine
