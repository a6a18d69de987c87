import TaskEngine.Text.Space
import Mathlib.Data.List.TakeWhile

/-!
# Trimming

Trimming takes away the white space at the ends of a text and nothing else.  A text is its own
trimmed form exactly if it neither starts nor ends with white space, and the trimmed form of a text
is such a text.

## Main definitions

* `IsBlank` — a text of white space alone.
* `StartsSolid`, `EndsSolid` — a text without white space at its start, or at its end.

## Main results

* `trimSpace_around` — white space around a text makes no difference when it is trimmed.
* `exists_around_trimSpace` — trimming takes away nothing else.
* `trimSpace_of_ends` — a text without white space at its ends is its own trimmed form.
* `endsSolid_trimSpace` — a trimmed text does not end in white space.
-/

namespace TaskEngine

/-! ### Texts without white space at an end -/

/-- A text that does not start with white space. -/
def StartsSolid (text : List Char) : Prop := ∀ c ∈ text.head?, isSpace c = false

/-- A text that does not end in white space. -/
def EndsSolid (text : List Char) : Prop := ∀ c ∈ text.getLast?, isSpace c = false

instance (text : List Char) : Decidable (StartsSolid text) :=
  decidable_of_iff (text.head?.all fun c => !isSpace c)
    (by simp [StartsSolid, Option.all_eq_true])

instance (text : List Char) : Decidable (EndsSolid text) :=
  decidable_of_iff (text.getLast?.all fun c => !isSpace c)
    (by simp [EndsSolid, Option.all_eq_true])

variable {text : List Char}

theorem startsSolid_reverse : StartsSolid text.reverse ↔ EndsSolid text := by
  unfold StartsSolid EndsSolid
  rw [List.head?_reverse]

/-- A text that is not empty ends as it does alone, whatever is in front of it. -/
theorem endsSolid_append {front : List Char} (hne : text ≠ []) :
    EndsSolid (front ++ text) ↔ EndsSolid text := by
  unfold EndsSolid
  rw [List.getLast?_append, List.getLast?_eq_some_getLast hne, Option.some_or]

theorem EndsSolid.of_append {front : List Char} (h : EndsSolid (front ++ text)) :
    EndsSolid text := by
  by_cases hne : text = []
  · simp [hne, EndsSolid]
  · exact (endsSolid_append hne).1 h

theorem trimStart_of_startsSolid (h : StartsSolid text) : trimStart text = text := by
  cases text with
  | nil => rfl
  | cons c text =>
    have hc : isSpace c = false := h c rfl
    simp [trimStart, hc]

theorem startsSolid_trimStart (text : List Char) : StartsSolid (trimStart text) := by
  intro c hc
  have hhead := List.head?_dropWhile_not isSpace text
  unfold trimStart at hc
  rw [Option.mem_def] at hc
  simpa [hc] using hhead

theorem trimEnd_of_endsSolid (h : EndsSolid text) : trimEnd text = text := by
  unfold trimEnd
  rw [trimStart_of_startsSolid (startsSolid_reverse.2 h), List.reverse_reverse]

theorem endsSolid_trimEnd (text : List Char) : EndsSolid (trimEnd text) := by
  rw [← startsSolid_reverse, trimEnd, List.reverse_reverse]
  exact startsSolid_trimStart text.reverse

/-- Trimming the end of a text leaves alone what is in front of a character that is kept. -/
theorem trimEnd_append_of_endsSolid {front : List Char} (hfront : EndsSolid front)
    (text : List Char) : trimEnd (front ++ text) = front ++ trimEnd text := by
  have hkept : front.reverse.dropWhile isSpace = front.reverse :=
    trimStart_of_startsSolid (startsSolid_reverse.2 hfront)
  unfold trimEnd trimStart
  rw [List.reverse_append, List.dropWhile_append]
  split
  · rename_i hblank
    rw [hkept, List.reverse_reverse, List.isEmpty_iff.1 hblank]
    simp
  · rw [List.reverse_append, List.reverse_reverse]

/-- **A text without white space at its ends is its own trimmed form.** -/
theorem trimSpace_of_ends {text : String} (hstart : StartsSolid text.toList)
    (hend : EndsSolid text.toList) : trimSpace text = text := by
  rw [trimSpace, trimStart_of_startsSolid hstart, trimEnd_of_endsSolid hend, String.ofList_toList]

/-- **A trimmed text does not end in white space.** -/
theorem endsSolid_trimSpace (text : String) : EndsSolid (trimSpace text).toList := by
  rw [trimSpace, String.toList_ofList]
  exact endsSolid_trimEnd _

theorem trimSpace_of_solid {text : String} (h : ∀ c ∈ text.toList, isSpace c = false) :
    trimSpace text = text :=
  trimSpace_of_ends (fun c hc => h c (List.mem_of_mem_head? hc))
    (fun c hc => h c (List.mem_of_mem_getLast? hc))

/-! ### White space around a text -/

/-- A text of white space alone, perhaps none. -/
def IsBlank (text : String) : Prop := ∀ c ∈ text.toList, isSpace c = true

instance (text : String) : Decidable (IsBlank text) := List.decidableBAll _ text.toList

theorem isBlank_empty : IsBlank "" := by simp [IsBlank]

theorem trimStart_eq_nil (h : ∀ c ∈ text, isSpace c = true) : trimStart text = [] := by
  simpa [trimStart] using h

theorem trimEnd_append {back : List Char} (hback : ∀ c ∈ back, isSpace c = true) :
    trimEnd (text ++ back) = trimEnd text := by
  unfold trimEnd trimStart
  rw [List.reverse_append, List.dropWhile_append_of_pos]
  intro c hc
  exact hback c (List.mem_reverse.1 hc)

/-- **White space around a text makes no difference** when it is trimmed. -/
theorem trimSpace_around {front back : String} (hfront : IsBlank front) (hback : IsBlank back)
    (text : String) : trimSpace (front ++ text ++ back) = trimSpace text := by
  have hstart : trimStart (front ++ text ++ back).toList =
      trimStart (text.toList ++ back.toList) := by
    simp only [String.toList_append, List.append_assoc, trimStart]
    exact List.dropWhile_append_of_pos hfront
  unfold trimSpace
  rw [hstart]
  by_cases hblank : trimStart text.toList = []
  · -- nothing is left of the text, so what is behind it is trimmed from the front
    have hnil : trimStart (text.toList ++ back.toList) = [] := by
      apply trimStart_eq_nil
      intro c hc
      rcases List.mem_append.1 hc with hc | hc
      · have hall : ∀ c ∈ text.toList, isSpace c = true := by simpa [trimStart] using hblank
        exact hall c hc
      · exact hback c hc
    rw [hnil, hblank]
  · have hkept : trimStart (text.toList ++ back.toList) =
        trimStart text.toList ++ back.toList := by
      unfold trimStart at hblank ⊢
      rw [List.dropWhile_append]
      simp [hblank]
    rw [hkept, trimEnd_append hback]

/-- **Trimming takes away white space at the ends only.** -/
theorem exists_around_trimSpace (text : String) :
    ∃ front back, IsBlank front ∧ IsBlank back ∧ text = front ++ trimSpace text ++ back := by
  refine ⟨String.ofList (text.toList.takeWhile isSpace),
    String.ofList ((trimStart text.toList).reverse.takeWhile isSpace).reverse, ?_, ?_, ?_⟩
  · intro c hc
    rw [String.toList_ofList] at hc
    exact List.mem_takeWhile_imp hc
  · intro c hc
    rw [String.toList_ofList, List.mem_reverse] at hc
    exact List.mem_takeWhile_imp hc
  · rw [← String.toList_inj]
    simp only [trimSpace, String.toList_append, String.toList_ofList, List.append_assoc, trimEnd,
      ← List.reverse_append]
    simp [trimStart]

@[simp] theorem trimSpace_trimSpace (text : String) :
    trimSpace (trimSpace text) = trimSpace text := by
  obtain ⟨front, back, hfront, hback, htext⟩ := exists_around_trimSpace text
  have h := trimSpace_around hfront hback (trimSpace text)
  rw [← htext] at h
  exact h.symm

theorem trimSpace_of_isBlank {text : String} (h : IsBlank text) : trimSpace text = "" := by
  unfold trimSpace
  rw [trimStart_eq_nil h]
  rfl

theorem isBlank_of_trimSpace {text : String} (h : trimSpace text = "") : IsBlank text := by
  obtain ⟨front, back, hfront, hback, htext⟩ := exists_around_trimSpace text
  intro c hc
  rw [htext, h] at hc
  simp only [String.append_empty, String.toList_append, List.mem_append] at hc
  exact hc.elim (hfront c) (hback c)

end TaskEngine
