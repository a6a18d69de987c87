import TaskEngine.Capture
import Mathlib.Data.List.Induction

/-!
# Scopes of capturing

Those who want output to be captured open a scope and give it up later.  Scopes may overlap, so
the scopes that are open are told apart by the order in which they were opened.

The state of capturing itself keeps no count of them: opening a scope switches it on, and giving
up any scope switches it off.  Output is therefore never captured without an open scope, but it
may go uncaptured while one is open.  This happens exactly if a scope is given up among others.

## Main definitions

* `CaptureUse` — what can be done with capturing.
* `ScopedCapture` — capturing, with the scopes that are open.
* `ScopedCapture.after`, `ScopedCapture.transcripts` — where uses lead, and what becomes of them.
* `ScopedCapture.Disturbs` — a scope is given up while others are open.

## Main results

* `ScopedCapture.capturing_iff_undisturbed` — **when capturing goes by the open scopes.**
* `ScopedCapture.uncaptured_within_scope` — it does not always do so.
-/

namespace TaskEngine

/-- What is done with the capturing of output.  Scopes have the numbers in which they were
opened. -/
inductive CaptureUse
  /-- A scope is opened. -/
  | opening
  /-- A scope is given up; nothing happens if it is not open. -/
  | closing (scope : Nat)
  /-- Bytes are written. -/
  | writing (stream : Stream) (bytes : Bytes)

/-- The capturing of output, with the scopes of those who use it. -/
structure ScopedCapture where
  /-- The state of capturing. -/
  capture : Capture
  /-- The scopes that are open, in the order in which they were opened. -/
  scopes : List Nat
  /-- How many scopes have been opened. -/
  opened : Nat

namespace ScopedCapture

/-- Before any scope is opened. -/
def start (enabled : Bool) : ScopedCapture := ⟨.start enabled, [], 0⟩

/-- Uses capturing once. -/
def use (s : ScopedCapture) : CaptureUse → ScopedCapture × Transcript
  | .opening => (⟨s.capture.enter, s.scopes ++ [s.opened], s.opened + 1⟩, ⟨[], none⟩)
  | .closing scope =>
    if scope ∈ s.scopes then
      (⟨s.capture.leave.1, s.scopes.erase scope, s.opened⟩, ⟨s.capture.leave.2, none⟩)
    else (s, ⟨[], none⟩)
  | .writing stream bytes =>
    let (capture, transcript) := s.capture.write stream bytes
    ({ s with capture }, transcript)

/-- What capturing has come to after some uses. -/
def after (s : ScopedCapture) (uses : List CaptureUse) : ScopedCapture :=
  uses.foldl (fun s use => (s.use use).1) s

/-- What becomes of the uses, one by one. -/
def transcripts (s : ScopedCapture) : List CaptureUse → List Transcript
  | [] => []
  | use :: uses => (s.use use).2 :: (s.use use).1.transcripts uses

variable (s : ScopedCapture)

@[simp] theorem after_nil : s.after [] = s := rfl

@[simp] theorem after_cons (use : CaptureUse) (uses : List CaptureUse) :
    s.after (use :: uses) = (s.use use).1.after uses := rfl

theorem after_append (first second : List CaptureUse) :
    s.after (first ++ second) = (s.after first).after second :=
  List.foldl_append

theorem after_concat (uses : List CaptureUse) (use : CaptureUse) :
    s.after (uses ++ [use]) = ((s.after uses).use use).1 := by
  rw [after_append, after_cons, after_nil]

theorem transcripts_append (first second : List CaptureUse) :
    s.transcripts (first ++ second) =
      s.transcripts first ++ (s.after first).transcripts second := by
  induction first generalizing s with
  | nil => rfl
  | cons use uses ih =>
    rw [List.cons_append, transcripts, transcripts, ih, List.cons_append, after_cons]

/-! ### Whether output can be captured -/

theorem enabled_write (capture : Capture) (stream : Stream) (bytes : Bytes) :
    (capture.write stream bytes).1.enabled = capture.enabled ∧
      (capture.write stream bytes).1.active = capture.active := by
  rw [Capture.write]
  split
  · cases stream with
    | out => exact ⟨rfl, rfl⟩
    | err => exact ⟨rfl, rfl⟩
  · exact ⟨rfl, rfl⟩

theorem enabled_leave (capture : Capture) :
    capture.leave.1.enabled = capture.enabled ∧ capture.leave.1.active = false := by
  rw [Capture.leave]
  split
  · exact ⟨rfl, rfl⟩
  · exact ⟨rfl, rfl⟩

theorem enabled_use (use : CaptureUse) : (s.use use).1.capture.enabled = s.capture.enabled := by
  cases use with
  | opening => rfl
  | closing scope =>
    rw [ScopedCapture.use]
    split
    · exact (enabled_leave s.capture).1
    · rfl
  | writing stream bytes => exact (enabled_write s.capture stream bytes).1

theorem enabled_after (uses : List CaptureUse) :
    (s.after uses).capture.enabled = s.capture.enabled := by
  induction uses generalizing s with
  | nil => rfl
  | cons use uses ih => rw [after_cons, ih, enabled_use]

/-! ### What one use does -/

/-- A scope is given up while others are open. -/
def Disturbs : CaptureUse → Prop
  | .closing scope => scope ∈ s.scopes ∧ s.scopes.erase scope ≠ []
  | _ => False

/-- A scope is open wherever capturing is switched on: opening leaves one, and giving one up
switches it off. -/
theorem scopes_ne_nil_use (h : s.capture.active = true → s.scopes ≠ []) (use : CaptureUse) :
    (s.use use).1.capture.active = true → (s.use use).1.scopes ≠ [] := by
  cases use with
  | opening =>
    intro _
    show s.scopes ++ [s.opened] ≠ []
    simp
  | closing scope =>
    rw [ScopedCapture.use]
    split
    · intro hactive
      rw [show _ = false from (enabled_leave s.capture).2] at hactive
      exact absurd hactive Bool.false_ne_true
    · exact h
  | writing stream bytes =>
    intro hactive
    exact h ((enabled_write s.capture stream bytes).2 ▸ hactive)

/-- As long as no scope is given up among others, capturing is switched on wherever a scope is
open. -/
theorem active_use (h : s.scopes ≠ [] → s.capture.active = true) {use : CaptureUse}
    (hdisturbs : ¬s.Disturbs use) :
    (s.use use).1.scopes ≠ [] → (s.use use).1.capture.active = true := by
  cases use with
  | opening => exact fun _ => rfl
  | closing scope =>
    rw [ScopedCapture.use]
    split
    · rename_i hscope
      intro hscopes
      exact absurd ⟨hscope, hscopes⟩ hdisturbs
    · exact h
  | writing stream bytes =>
    intro hscopes
    rw [← h hscopes]
    exact (enabled_write s.capture stream bytes).2

/-- Giving up a scope among others leaves some open, but switches capturing off. -/
theorem Disturbs.use {s : ScopedCapture} {use : CaptureUse} (h : s.Disturbs use) :
    (s.use use).1.scopes ≠ [] ∧ (s.use use).1.capture.active = false := by
  cases use with
  | closing scope =>
    rw [ScopedCapture.use, if_pos h.1]
    exact ⟨h.2, (enabled_leave s.capture).2⟩
  | opening => exact h.elim
  | writing stream bytes => exact h.elim

/-! ### Whole runs -/

section Runs

variable (enabled : Bool) (uses : List CaptureUse)

theorem scopes_ne_nil_after :
    ((start enabled).after uses).capture.active = true →
      ((start enabled).after uses).scopes ≠ [] := by
  induction uses using List.reverseRecOn with
  | nil => exact fun h => absurd h Bool.false_ne_true
  | append_singleton uses use ih =>
    rw [after_concat]
    exact scopes_ne_nil_use _ ih use

theorem isCapturing_after :
    ((start enabled).after uses).capture.isCapturing =
      (enabled && ((start enabled).after uses).capture.active) := by
  rw [Capture.isCapturing, enabled_after]
  rfl

variable {enabled uses}

theorem active_after
    (h : ∀ pre use, pre ++ [use] <+: uses → ¬((start enabled).after pre).Disturbs use) :
    ((start enabled).after uses).scopes ≠ [] →
      ((start enabled).after uses).capture.active = true := by
  induction uses using List.reverseRecOn with
  | nil => exact fun hscopes => absurd rfl hscopes
  | append_singleton uses use ih =>
    rw [after_concat]
    refine active_use _ (ih fun pre use hpre => h pre use ?_) (h uses use (List.prefix_refl _))
    exact hpre.trans (List.prefix_append _ _)

end Runs

/-- Capturing goes by the open scopes: output is captured while one is open, and what is written
then is cut into lines for the log and kept from the streams of the process. -/
structure GoesByScopes (s : ScopedCapture) : Prop where
  /-- Output is captured exactly while a scope is open, if it can be captured at all. -/
  capturing : s.capture.isCapturing = true ↔ s.capture.enabled = true ∧ s.scopes ≠ []
  /-- What is written while a scope is open goes to the log. -/
  written : s.capture.enabled = true → s.scopes ≠ [] → ∀ stream bytes,
    (s.use (.writing stream bytes)).2 =
      ⟨(cutLines (s.capture.pending stream ++ bytes)).1.map fun line => ⟨stream, lineText line⟩,
        none⟩

variable {s} in
theorem goesByScopes_of_capturing
    (h : s.capture.isCapturing = true ↔ s.capture.enabled = true ∧ s.scopes ≠ []) :
    s.GoesByScopes := by
  refine ⟨h, fun henabled hscopes stream bytes => ?_⟩
  show (s.capture.write stream bytes).2 = _
  rw [Capture.write, dif_pos (h.2 ⟨henabled, hscopes⟩)]

/-- **When capturing goes by the open scopes.**  It is never switched on without an open scope.
It is switched on at all times while one is open exactly if output cannot be captured anyway, or
no scope is ever given up among others. -/
theorem capturing_iff_undisturbed (enabled : Bool) (uses : List CaptureUse) :
    (∀ pre, pre <+: uses → ((start enabled).after pre).capture.isCapturing = true →
      enabled = true ∧ ((start enabled).after pre).scopes ≠ []) ∧
    ((∀ pre, pre <+: uses → ((start enabled).after pre).GoesByScopes) ↔
      (enabled = true → ∀ pre use, pre ++ [use] <+: uses →
        ¬((start enabled).after pre).Disturbs use)) := by
  have hopen : ∀ pre, ((start enabled).after pre).capture.isCapturing = true →
      enabled = true ∧ ((start enabled).after pre).scopes ≠ [] := by
    intro pre hcapturing
    rw [isCapturing_after, Bool.and_eq_true] at hcapturing
    exact ⟨hcapturing.1, scopes_ne_nil_after enabled pre hcapturing.2⟩
  refine ⟨fun pre _ => hopen pre, fun hlaw henabled pre use hpre hdisturbs => ?_,
    fun hundisturbed pre hpre => ?_⟩
  · -- behind the disturbance a scope is open, but capturing is off
    have hcapturing := (hlaw _ hpre).capturing
    rw [enabled_after, isCapturing_after, after_concat, hdisturbs.use.2, Bool.and_false]
      at hcapturing
    exact Bool.false_ne_true (hcapturing.2 ⟨henabled, hdisturbs.use.1⟩)
  · apply goesByScopes_of_capturing
    rw [enabled_after]
    refine ⟨hopen pre, fun ⟨henabled, hscopes⟩ => ?_⟩
    have hactive := active_after
      (fun pre' use hpre' => hundisturbed henabled pre' use (hpre'.trans hpre)) hscopes
    rw [isCapturing_after, hactive, Bool.and_true]
    exact henabled

/-- Of two scopes that are open the newer one is given up.  The older one is still open, but
what is written now goes to the process. -/
theorem uncaptured_within_scope :
    ¬∀ enabled uses stream bytes,
      (((start enabled).after uses).capture.isCapturing = true ↔
        enabled = true ∧ ((start enabled).after uses).scopes ≠ []) ∧
      (enabled = true → ((start enabled).after uses).scopes ≠ [] →
        (((start enabled).after uses).use (.writing stream bytes)).2.passed = none) := by
  intro h
  have hwritten := (h true [.opening, .opening, .closing 1] .out [120, newline]).2 rfl (by decide)
  exact absurd hwritten (by decide)

end ScopedCapture

end TaskEngine
