import TaskEngine.Stack
import Mathlib.Data.List.Induction

/-!
# Guards of frames

Whoever puts a frame on a stack holds a guard, and giving up the guard takes a frame off again.
Stacks are shared: any number of handles may stand for one of them, and a frame may be put on a
stack through each of these.

A guard knows its stack, but not its frame: what it takes off is the innermost frame.  So the number
of frames on a stack is at all times that of the guards, whatever the order in which they are given
up.  But the frames are those of the guards only as long as no guard is given up from below a frame
that differs from its own.

## Main definitions

* `StackUse` — what can be done with stacks.
* `GuardedStacks` — stacks, with the handles for them and the guards that are held.
* `GuardedStacks.after` — where uses lead.
* `GuardedStacks.GoesByGuards` — every stack has the frames of its guards.
* `GuardedStacks.Crosses` — a guard is given up from below another frame.

## Main results

* `GuardedStacks.counts_after` — a stack has as many frames as guards.
* `GuardedStacks.goesByGuards_iff_uncrossed` — **when stacks have the frames of their guards.**
* `GuardedStacks.frame_lost_below` — they do not always have them.
-/

namespace TaskEngine

/-- What is done with stacks.  Handles and guards have the numbers in which they came up. -/
inductive StackUse
  /-- A stack is created, with a handle for it. -/
  | creating
  /-- A handle is copied: another one for the same stack. -/
  | copying (handle : Nat)
  /-- A frame is put on the stack of a handle, and a guard is handed out. -/
  | pushing (handle : Nat) (frame : Frame)
  /-- A guard is given up; nothing happens if it is not held any more. -/
  | dropping (guard : Nat)

/-- A guard that is held. -/
structure StackGuard where
  /-- Which of all guards it is. -/
  number : Nat
  /-- The stack it takes a frame off. -/
  stack : StackId
  /-- The frame that was put on the stack when the guard was handed out. -/
  frame : Frame

/-- Stacks, with the handles for them and the guards of those who use them. -/
structure GuardedStacks where
  /-- The stacks. -/
  store : StackStore
  /-- How many stacks have been created. -/
  created : Nat
  /-- The stack of every handle. -/
  handles : List StackId
  /-- The guards that are held, in the order in which their frames were pushed. -/
  guards : List StackGuard
  /-- How many guards have been handed out. -/
  pushed : Nat

namespace GuardedStacks

/-- There is a handle for the default stack, and no frame anywhere. -/
def start : GuardedStacks := ⟨.empty, 1, [StackStore.default], [], 0⟩

/-- Uses stacks once. -/
def use (s : GuardedStacks) : StackUse → GuardedStacks
  | .creating => { s with created := s.created + 1, handles := s.handles ++ [s.created] }
  | .copying handle =>
    match s.handles[handle]? with
    | some stack => { s with handles := s.handles ++ [stack] }
    | none => s
  | .pushing handle frame =>
    match s.handles[handle]? with
    | some stack =>
      { s with
        store := s.store.modify stack (·.push frame)
        guards := s.guards ++ [⟨s.pushed, stack, frame⟩]
        pushed := s.pushed + 1 }
    | none => s
  | .dropping number =>
    match s.guards.find? (·.number = number) with
    | some guard =>
      { s with
        store := s.store.modify guard.stack .pop
        guards := s.guards.eraseP (·.number = number) }
    | none => s

/-- What stacks have come to after some uses. -/
def after (s : GuardedStacks) (uses : List StackUse) : GuardedStacks := uses.foldl use s

/-- The guards of a stack that are held, in the order in which their frames were pushed. -/
def held (s : GuardedStacks) (stack : StackId) : List StackGuard :=
  s.guards.filter (·.stack = stack)

variable (s : GuardedStacks)

@[simp] theorem after_nil : s.after [] = s := rfl

theorem after_concat (uses : List StackUse) (use : StackUse) :
    s.after (uses ++ [use]) = (s.after uses).use use := by
  simp [after]

/-! ### Taking out an element, and taking off the last one -/

/-- Taking out an element leaves the same as taking off the last one exactly if all elements behind
it are equal to it. -/
theorem dropLast_eq_iff {α : Type} (front back : List α) (x : α) :
    (front ++ x :: back).dropLast = front ++ back ↔ ∀ y ∈ back, y = x := by
  rw [List.dropLast_append_of_ne_nil (List.cons_ne_nil x back), List.append_cancel_left_eq]
  induction back generalizing x with
  | nil => simp
  | cons y back ih =>
    rw [List.dropLast_cons_of_ne_nil (List.cons_ne_nil y back), List.cons.injEq, ih]
    constructor
    · rintro ⟨rfl, hback⟩
      simpa using hback
    · intro h
      have hy : y = x := h y List.mem_cons_self
      subst hy
      exact ⟨rfl, fun z hz => h z (List.mem_cons_of_mem y hz)⟩

/-! ### What one use does -/

/-- The numbers of guards go up in the order in which they were handed out. -/
structure Numbered (s : GuardedStacks) : Prop where
  /-- Guards that are held come in the order of their numbers. -/
  increasing : s.guards.Pairwise (·.number < ·.number)
  /-- The next number is a new one. -/
  fresh : ∀ guard ∈ s.guards, guard.number < s.pushed

/-- Every stack has as many frames as guards. -/
def Counts (s : GuardedStacks) : Prop :=
  ∀ stack, (s.store.get stack).depth = (s.held stack).length

/-- Every stack has the frames of its guards. -/
structure GoesByGuards (s : GuardedStacks) : Prop where
  /-- The frames are those whose guards are held, in the order in which they were pushed. -/
  frames : ∀ stack, (s.store.get stack).frames = (s.held stack).map StackGuard.frame
  /-- Their number is that of the guards. -/
  depth : ∀ stack, (s.store.get stack).depth = (s.held stack).length
  /-- The innermost one is the one pushed last. -/
  top : ∀ stack, (s.store.get stack).top? = (s.held stack).getLast?.map StackGuard.frame

/-- A guard is given up while another frame was put on its stack later and still has its guard. -/
def Crosses (s : GuardedStacks) : StackUse → Prop
  | .dropping number => ∃ guard ∈ s.guards, guard.number = number ∧
      ∃ later ∈ s.guards, guard.number < later.number ∧ later.stack = guard.stack ∧
        later.frame ≠ guard.frame
  | _ => False

variable {s}

theorem goesByGuards_of_frames
    (h : ∀ stack, (s.store.get stack).frames = (s.held stack).map StackGuard.frame) :
    s.GoesByGuards where
  frames := h
  depth stack := by rw [TaskStack.depth, h, List.length_map]
  top stack := by rw [TaskStack.top?, h, List.getLast?_map]

theorem use_pushing {handle : Nat} {stack : StackId} (h : s.handles[handle]? = some stack)
    (frame : Frame) :
    s.use (.pushing handle frame) =
      { s with
        store := s.store.modify stack (·.push frame)
        guards := s.guards ++ [⟨s.pushed, stack, frame⟩]
        pushed := s.pushed + 1 } := by
  simp only [use, h]

/-- Giving up a guard that is held takes it out from among the others, and the innermost frame off
its stack. -/
theorem use_dropping {number : Nat} {guard : StackGuard}
    (h : s.guards.find? (·.number = number) = some guard) :
    ∃ front back, s.guards = front ++ guard :: back ∧ guard.number = number ∧
      s.use (.dropping number) =
        { s with store := s.store.modify guard.stack .pop, guards := front ++ back } := by
  obtain ⟨hnumber, front, back, hguards, hfront⟩ := List.find?_eq_some_iff_append.1 h
  have herase : s.guards.eraseP (·.number = number) = front ++ back := by
    rw [hguards, List.eraseP_append_right _ fun other hother => by simpa using hfront other hother,
      List.eraseP_cons_of_pos (a := guard) (by exact hnumber)]
  refine ⟨front, back, hguards, of_decide_eq_true hnumber, ?_⟩
  simp only [use, h, herase]

/-- Uses that neither push a frame nor give up a guard that is held leave all stacks and guards as
they are. -/
theorem use_cases (s : GuardedStacks) (use : StackUse) :
    (∃ handle frame stack, use = .pushing handle frame ∧ s.handles[handle]? = some stack) ∨
    (∃ number guard, use = .dropping number ∧
      s.guards.find? (·.number = number) = some guard) ∨
    ((s.use use).store = s.store ∧ (s.use use).guards = s.guards ∧
      (s.use use).pushed = s.pushed ∧ ¬s.Crosses use) := by
  cases use with
  | creating => exact .inr (.inr ⟨rfl, rfl, rfl, id⟩)
  | copying handle =>
    right; right
    cases hstack : s.handles[handle]? with
    | some stack =>
      simp only [GuardedStacks.use, hstack]
      exact ⟨trivial, trivial, trivial, id⟩
    | none =>
      simp only [GuardedStacks.use, hstack]
      exact ⟨trivial, trivial, trivial, id⟩
  | pushing handle frame =>
    cases hstack : s.handles[handle]? with
    | some stack => exact .inl ⟨handle, frame, stack, rfl, hstack⟩
    | none =>
      right; right
      simp only [GuardedStacks.use, hstack]
      exact ⟨trivial, trivial, trivial, id⟩
  | dropping number =>
    cases hguard : s.guards.find? (·.number = number) with
    | some guard => exact .inr (.inl ⟨number, guard, rfl, hguard⟩)
    | none =>
      right; right
      simp only [GuardedStacks.use, hguard]
      refine ⟨trivial, trivial, trivial, ?_⟩
      rintro ⟨guard, hheld, hnumber, -⟩
      have hother := List.find?_eq_none.1 hguard guard hheld
      simp [hnumber] at hother

theorem get_modify (store : StackStore) (id other : StackId) (change : TaskStack → TaskStack) :
    (store.modify id change).get other =
      if other = id then change (store.get id) else store.get other :=
  StackStore.get_set store id other _

theorem Numbered.use (h : s.Numbered) (use : StackUse) : (s.use use).Numbered := by
  rcases use_cases s use with ⟨handle, frame, stack, rfl, hstack⟩ | ⟨number, guard, rfl, hguard⟩ |
    ⟨-, hguards, hpushed, -⟩
  · rw [use_pushing hstack]
    constructor
    · rw [List.pairwise_append]
      refine ⟨h.increasing, List.pairwise_singleton _ _, ?_⟩
      intro guard hguard new hnew
      rw [List.mem_singleton.1 hnew]
      exact h.fresh guard hguard
    · intro guard hguard
      rcases List.mem_append.1 hguard with hold | hnew
      · exact Nat.lt_succ_of_lt (h.fresh guard hold)
      · rw [List.mem_singleton.1 hnew]
        exact Nat.lt_succ_self _
  · obtain ⟨front, back, hguards, -, huse⟩ := use_dropping hguard
    have hsublist : List.Sublist (front ++ back) s.guards := by
      rw [hguards]
      exact (List.Sublist.refl front).append (List.sublist_cons_self guard back)
    rw [huse]
    exact ⟨h.increasing.sublist hsublist,
      fun other hother => h.fresh other (hsublist.subset hother)⟩
  · exact ⟨hguards ▸ h.increasing, fun guard hguard => hpushed ▸ h.fresh guard (hguards ▸ hguard)⟩

theorem Counts.use (h : s.Counts) (use : StackUse) : (s.use use).Counts := by
  intro other
  rcases use_cases s use with ⟨handle, frame, stack, rfl, hstack⟩ | ⟨number, guard, rfl, hguard⟩ |
    ⟨hstore, hguards, -, -⟩
  · rw [use_pushing hstack, held, get_modify, List.filter_append, List.length_append, ← held]
    by_cases hother : other = stack
    · subst hother
      rw [if_pos rfl, TaskStack.depth_push, h]
      simp
    · rw [if_neg hother, h]
      simp [Ne.symm hother]
  · obtain ⟨front, back, hguards, -, huse⟩ := use_dropping hguard
    have hbefore := h other
    rw [held, hguards, List.filter_append, List.length_append] at hbefore
    rw [huse, held, get_modify, List.filter_append, List.length_append]
    by_cases hother : other = guard.stack
    · subst hother
      rw [List.filter_cons_of_pos (by simp), List.length_cons] at hbefore
      rw [if_pos rfl, TaskStack.pop, TaskStack.depth, List.length_dropLast, ← TaskStack.depth,
        hbefore]
      omega
    · rw [List.filter_cons_of_neg (by simpa using Ne.symm hother)] at hbefore
      rw [if_neg hother, hbefore]
  · rw [held, hstore, hguards]
    exact h other

/-- A guard among others is given up from below another frame exactly if one of those behind it has
another frame on the same stack. -/
theorem crosses_iff (h : s.Numbered) {front back : List StackGuard} {guard : StackGuard}
    (hguards : s.guards = front ++ guard :: back) :
    s.Crosses (.dropping guard.number) ↔
      ∃ later ∈ back, later.stack = guard.stack ∧ later.frame ≠ guard.frame := by
  have hincreasing := h.increasing
  rw [hguards, List.pairwise_append, List.pairwise_cons] at hincreasing
  obtain ⟨-, ⟨hback, -⟩, hfront⟩ := hincreasing
  have hunique : ∀ other ∈ s.guards, other.number = guard.number → other = guard := by
    intro other hother hnumber
    rw [hguards] at hother
    rcases List.mem_append.1 hother with hin | hin
    · have := hfront other hin guard List.mem_cons_self
      omega
    · rcases List.mem_cons.1 hin with rfl | hin
      · rfl
      · have := hback other hin
        omega
  constructor
  · rintro ⟨other, hother, hnumber, later, hlater, hlt, hstack, hframe⟩
    obtain rfl := hunique other hother hnumber
    rw [hguards] at hlater
    rcases List.mem_append.1 hlater with hin | hin
    · have := hfront later hin other List.mem_cons_self
      omega
    · rcases List.mem_cons.1 hin with rfl | hin
      · omega
      · exact ⟨later, hin, hstack, hframe⟩
  · rintro ⟨later, hlater, hstack, hframe⟩
    refine ⟨guard, by simp [hguards], rfl, later, by simp [hguards, hlater], hback later hlater,
      hstack, hframe⟩

/-- **From one use to the next**, stacks go on to have the frames of their guards exactly if no
guard is given up from below another frame. -/
theorem GoesByGuards.use_iff (h : s.GoesByGuards) (hnumbered : s.Numbered) (use : StackUse) :
    (s.use use).GoesByGuards ↔ ¬s.Crosses use := by
  rcases use_cases s use with ⟨handle, frame, stack, rfl, hstack⟩ | ⟨number, guard, rfl, hguard⟩ |
    ⟨hstore, hguards, -, hcrosses⟩
  · refine iff_of_true (goesByGuards_of_frames fun other => ?_) id
    rw [use_pushing hstack, held, get_modify, List.filter_append, List.map_append, ← held]
    by_cases hother : other = stack
    · subst hother
      rw [if_pos rfl, TaskStack.push, h.frames]
      simp
    · rw [if_neg hother, h.frames]
      simp [Ne.symm hother]
  · obtain ⟨front, back, hguards, rfl, huse⟩ := use_dropping hguard
    have hframes : ∀ other, (s.store.get other).frames =
        (front.filter (·.stack = other)).map StackGuard.frame ++
          ((guard :: back).filter (·.stack = other)).map StackGuard.frame := by
      intro other
      rw [h.frames, held, hguards, List.filter_append, List.map_append]
    have hheld : ∀ other, ((s.use (.dropping guard.number)).held other).map StackGuard.frame =
        (front.filter (·.stack = other)).map StackGuard.frame ++
          (back.filter (·.stack = other)).map StackGuard.frame := by
      intro other
      rw [huse, held, List.filter_append, List.map_append]
    -- only the stack of the guard loses a frame, and that is its innermost one
    have hsame : ((s.use (.dropping guard.number)).store.get guard.stack).frames =
        ((s.use (.dropping guard.number)).held guard.stack).map StackGuard.frame ↔
          ¬s.Crosses (.dropping guard.number) := by
      rw [hheld, huse, get_modify, if_pos rfl, TaskStack.pop, hframes,
        List.filter_cons_of_pos (by simp), List.map_cons, dropLast_eq_iff,
        crosses_iff hnumbered hguards]
      simp only [List.mem_map, List.mem_filter, decide_eq_true_eq]
      constructor
      · rintro hall ⟨later, hlater, hstack, hframe⟩
        exact hframe (hall _ ⟨later, ⟨hlater, hstack⟩, rfl⟩)
      · rintro hnot frame ⟨later, ⟨hlater, hstack⟩, rfl⟩
        by_contra hframe
        exact hnot ⟨later, hlater, hstack, hframe⟩
    constructor
    · intro hgoes
      exact hsame.1 (hgoes.frames guard.stack)
    · intro hcrosses
      refine goesByGuards_of_frames fun other => ?_
      by_cases hother : other = guard.stack
      · subst hother
        exact hsame.2 hcrosses
      · rw [hheld, huse, get_modify, if_neg hother, hframes,
          List.filter_cons_of_neg (by simpa using Ne.symm hother)]
  · refine iff_of_true (goesByGuards_of_frames fun other => ?_) hcrosses
    rw [held, hstore, hguards]
    exact h.frames other

/-! ### Whole runs -/

theorem numbered_after (uses : List StackUse) : (start.after uses).Numbered := by
  induction uses using List.reverseRecOn with
  | nil => exact ⟨List.Pairwise.nil, by simp [start]⟩
  | append_singleton uses use ih =>
    rw [after_concat]
    exact ih.use use

theorem get_empty (stack : StackId) : StackStore.empty.get stack = .empty := by
  simp [StackStore.get, StackStore.empty]

theorem counts_after (uses : List StackUse) : (start.after uses).Counts := by
  induction uses using List.reverseRecOn with
  | nil =>
    intro stack
    rw [after_nil, start, get_empty]
    rfl
  | append_singleton uses use ih =>
    rw [after_concat]
    exact ih.use use

theorem goesByGuards_start : start.GoesByGuards := by
  refine goesByGuards_of_frames fun stack => ?_
  rw [start, get_empty]
  rfl

theorem goesByGuards_after {uses : List StackUse}
    (h : ∀ pre use, pre ++ [use] <+: uses → ¬(start.after pre).Crosses use) :
    (start.after uses).GoesByGuards := by
  induction uses using List.reverseRecOn with
  | nil => exact goesByGuards_start
  | append_singleton uses use ih =>
    have hbefore : (start.after uses).GoesByGuards :=
      ih fun pre use hpre => h pre use (hpre.trans (List.prefix_append _ _))
    rw [after_concat, hbefore.use_iff (numbered_after uses)]
    exact h uses use (List.prefix_refl _)

/-- **When stacks have the frames of their guards.**  Each has at all times as many frames as
guards.  They have the frames of their guards at all times exactly if no guard is ever given up from
below another frame. -/
theorem goesByGuards_iff_uncrossed (uses : List StackUse) :
    (∀ pre, pre <+: uses → (start.after pre).Counts) ∧
    ((∀ pre, pre <+: uses → (start.after pre).GoesByGuards) ↔
      ∀ pre use, pre ++ [use] <+: uses → ¬(start.after pre).Crosses use) := by
  refine ⟨fun pre _ => counts_after pre, fun hlaw pre use hpre => ?_, fun huncrossed pre hpre => ?_⟩
  · have hbefore := hlaw pre ((List.prefix_append pre [use]).trans hpre)
    have hafter := hlaw (pre ++ [use]) hpre
    rw [after_concat] at hafter
    exact (hbefore.use_iff (numbered_after pre) use).1 hafter
  · exact goesByGuards_after fun pre' use hpre' => huncrossed pre' use (hpre'.trans hpre)

/-- Of two frames the outer one loses its guard first.  It stays on the stack, and the inner one,
whose guard is still held, is gone. -/
theorem frame_lost_below : ¬∀ uses, (start.after uses).GoesByGuards := by
  intro h
  let outer : Frame := ⟨1, "Outer", none, none, "tasks"⟩
  let inner : Frame := ⟨2, "Inner", none, none, "tasks"⟩
  have hframes := (h [.pushing 0 outer, .pushing 0 inner, .dropping 0]).frames StackStore.default
  exact absurd hframes (by decide)

end GuardedStacks

end TaskEngine
