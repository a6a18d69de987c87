import TaskEngine.Options
import TaskEngine.Proofs.Text.Trimming

/-!
# Lists that are written with commas

An option may list texts in two ways: as a list of values, or as one text with commas.  The second
way is free in two respects: there may be white space around an item, and parts that are blank count
for nothing.  So one list has many spellings.  Reading finds the list again in each of them, and
there is no text that is not a spelling of what is read from it.

## Main definitions

* `IsItem` — a text that can be an item of a list written with commas.
* `ItemParts` — parts of a text, with the items that they hold.
* `Spells` — a text is a spelling of a list.

## Main results

* `Options.list_eq_iff_spells` — what is read from a text is the list that it spells.
* `Options.list_spelled` — **lists are read from all their spellings.**
-/

namespace TaskEngine

/-! ### Parts between commas -/

theorem commaParts_eq (text : List Char) : commaParts text = text.splitOn ',' := by
  induction text with
  | nil => rfl
  | cons c text ih =>
    have hne := List.splitOn_ne_nil ',' text
    unfold List.splitOn at ih hne ⊢
    rw [commaParts, List.splitOnP_cons_eq_if_modifyHead, ih]
    by_cases hc : c = ','
    · simp [hc]
    · obtain ⟨part, parts, hparts⟩ := List.exists_cons_of_ne_nil hne
      simp [hc, hparts]

/-- The parts of a text between its commas. -/
def textParts (text : String) : List String := (commaParts text.toList).map String.ofList

theorem intercalate_textParts (text : String) : ",".intercalate (textParts text) = text := by
  rw [← String.toList_inj, String.toList_intercalate, textParts, commaParts_eq, List.map_map]
  have hid : (String.toList ∘ String.ofList) = id := by
    funext chars
    simp
  rw [hid, List.map_id]
  exact List.intercalate_splitOn ','

/-- The parts of a text have no comma. -/
theorem comma_notMem_commaParts {text part : List Char} (h : part ∈ commaParts text) :
    ',' ∉ part := by
  induction text generalizing part with
  | nil =>
    simp [commaParts] at h
    simp [h]
  | cons c text ih =>
    rw [commaParts] at h
    split at h
    · rcases List.mem_cons.1 h with rfl | h
      · simp
      · exact ih h
    · rename_i hc
      split at h
      · simp at h
        simp [h, Ne.symm hc]
      · rename_i first parts hparts
        rcases List.mem_cons.1 h with rfl | h
        · have hfirst : ',' ∉ first := ih (by simp [hparts])
          simp [hfirst, Ne.symm hc]
        · exact ih (by simp [hparts, h])

/-- Parts without commas are found again behind one another. -/
theorem textParts_intercalate {parts : List String} (hparts : ∀ part ∈ parts, ',' ∉ part.toList)
    (hne : parts ≠ []) : textParts (",".intercalate parts) = parts := by
  have hsplit : (",".intercalate parts).toList.splitOn ',' = parts.map String.toList := by
    rw [String.toList_intercalate]
    exact List.splitOn_intercalate ',' (by simpa using hparts) (by simpa using hne)
  rw [textParts, commaParts_eq, hsplit]
  simp

/-! ### Spellings of a list -/

/-- A text that can be an item of a list that is written with commas. -/
structure IsItem (text : String) : Prop where
  /-- It is not empty. -/
  nonempty : text ≠ ""
  /-- It has no comma. -/
  commaless : ',' ∉ text.toList
  /-- It has no white space at its ends. -/
  trimmed : trimSpace text = text

/-- Parts of a text, with the items that they hold: white space around an item, and parts that are
blank, make no difference. -/
inductive ItemParts : List String → List String → Prop
  | nil : ItemParts [] []
  | blank {part : String} {parts items : List String} (hblank : IsBlank part)
    (h : ItemParts parts items) : ItemParts (part :: parts) items
  | item {part front item back : String} {parts items : List String}
    (hpart : part = front ++ item ++ back) (hfront : IsBlank front) (hback : IsBlank back)
    (h : ItemParts parts items) : ItemParts (part :: parts) (item :: items)

/-- The text is one of the spellings of a list: its items with commas between them, perhaps with
white space around them, and with blank parts anywhere. -/
def Spells (text : String) (items : List String) : Prop :=
  ∃ parts, ItemParts parts items ∧ text = ",".intercalate parts

/-- What is left of parts when they are trimmed and the blank ones are left out. -/
def keptItems (parts : List String) : List String := (parts.map trimSpace).filter (· ≠ "")

theorem ItemParts.refl (items : List String) : ItemParts items items := by
  induction items with
  | nil => exact .nil
  | cons item items ih => exact .item (by simp) isBlank_empty isBlank_empty ih

/-- The items with nothing but commas between them are a spelling. -/
theorem spells_intercalate (items : List String) : Spells (",".intercalate items) items :=
  ⟨items, .refl items, rfl⟩

theorem ItemParts.commaless {parts items : List String} (h : ItemParts parts items)
    (hitems : ∀ item ∈ items, IsItem item) : ∀ part ∈ parts, ',' ∉ part.toList := by
  have hblank : ∀ {text : String}, IsBlank text → ',' ∉ text.toList := by
    intro text htext hmem
    exact absurd (htext ',' hmem) (by decide)
  induction h with
  | nil => simp
  | blank hpart _ ih =>
    intro part hmem
    rcases List.mem_cons.1 hmem with rfl | hmem
    · exact hblank hpart
    · exact ih hitems part hmem
  | item hpart hfront hback _ ih =>
    intro part hmem
    rcases List.mem_cons.1 hmem with rfl | hmem
    · have hitem := hitems _ List.mem_cons_self
      simp [hpart, hblank hfront, hitem.commaless, hblank hback]
    · exact ih (fun item h => hitems item (List.mem_cons_of_mem _ h)) part hmem

/-- Trimming finds the items in their parts. -/
theorem ItemParts.keptItems_eq {parts items : List String} (h : ItemParts parts items)
    (hitems : ∀ item ∈ items, IsItem item) : keptItems parts = items := by
  unfold keptItems
  induction h with
  | nil => rfl
  | blank hpart _ ih => simpa [trimSpace_of_isBlank hpart] using ih hitems
  | item hpart hfront hback _ ih =>
    have hitem := hitems _ List.mem_cons_self
    have hrest := ih fun item h => hitems item (List.mem_cons_of_mem _ h)
    simpa [hpart, trimSpace_around hfront hback, hitem.trimmed, hitem.nonempty] using hrest

/-- Any parts hold the items that are left of them. -/
theorem itemParts_keptItems (parts : List String) : ItemParts parts (keptItems parts) := by
  unfold keptItems
  induction parts with
  | nil => exact .nil
  | cons part parts ih =>
    by_cases hblank : trimSpace part = ""
    · simpa [hblank] using ItemParts.blank (isBlank_of_trimSpace hblank) ih
    · obtain ⟨front, back, hfront, hback, hpart⟩ := exists_around_trimSpace part
      simpa [hblank] using ItemParts.item hpart hfront hback ih

theorem isItem_of_mem_keptItems {text item : String} (h : item ∈ keptItems (textParts text)) :
    IsItem item := by
  simp only [keptItems, List.mem_filter, List.mem_map, decide_eq_true_eq] at h
  obtain ⟨⟨part, hpart, rfl⟩, hne⟩ := h
  refine ⟨hne, ?_, trimSpace_trimSpace part⟩
  obtain ⟨chars, hchars, rfl⟩ := List.mem_map.1 hpart
  obtain ⟨front, back, -, -, htext⟩ := exists_around_trimSpace (String.ofList chars)
  -- what is left of a part is within it
  intro hmem
  have hcomma : ',' ∈ (String.ofList chars).toList := by
    rw [htext]
    simp [hmem]
  rw [String.toList_ofList] at hcomma
  exact comma_notMem_commaParts hchars hcomma

/-! ### Reading a list -/

namespace Options

variable {options : Options} {key text : String}

theorem list_of_text (h : options.get? key = some (.string text)) :
    options.list key = keptItems (textParts text) := by
  unfold list
  rw [h]
  simp [keptItems, textParts, Function.comp_def]

theorem list_of_array {items : List String}
    (h : options.get? key = some (.array (items.map .string))) : options.list key = items := by
  unfold list
  rw [h]
  simp [Value.display, Function.comp_def]

/-- **What is read from a text is the list of items that it spells.** -/
theorem list_eq_iff_spells (h : options.get? key = some (.string text)) {items : List String}
    (hitems : ∀ item ∈ items, IsItem item) : options.list key = items ↔ Spells text items := by
  rw [list_of_text h]
  constructor
  · rintro rfl
    exact ⟨textParts text, itemParts_keptItems _, (intercalate_textParts text).symm⟩
  · rintro ⟨parts, hparts, rfl⟩
    by_cases hne : parts = []
    · subst hne
      cases hparts
      rfl
    · rw [textParts_intercalate (hparts.commaless hitems) hne, hparts.keptItems_eq hitems]

/-- **Lists are read from all their spellings.**  A list of items is what is read from an option
that lists them as values, from one that holds them with commas between them, and from any other
spelling; from other texts it is not read.  What is read from a text is always a list of items, so
it is read again when it is written with commas. -/
theorem list_spelled (options : Options) (key : String) :
    (∀ items : List String, (∀ item ∈ items, IsItem item) →
      (options.get? key = some (.array (items.map .string)) → options.list key = items) ∧
      (options.get? key = some (.string (",".intercalate items)) → options.list key = items) ∧
      ∀ text, options.get? key = some (.string text) →
        (options.list key = items ↔ Spells text items)) ∧
    ∀ text, options.get? key = some (.string text) →
      (∀ item ∈ options.list key, IsItem item) ∧
      ∀ (options' : Options) (key' : String),
        options'.get? key' = some (.string (",".intercalate (options.list key))) →
          options'.list key' = options.list key := by
  constructor
  · intro items hitems
    refine ⟨list_of_array, fun h => ?_, fun text h => list_eq_iff_spells h hitems⟩
    exact (list_eq_iff_spells h hitems).2 (spells_intercalate items)
  · intro text h
    have hitems : ∀ item ∈ options.list key, IsItem item := by
      intro item hitem
      rw [list_of_text h] at hitem
      exact isItem_of_mem_keptItems hitem
    refine ⟨hitems, fun options' key' h' => ?_⟩
    exact (list_eq_iff_spells h' hitems).2 (spells_intercalate _)

/-- Two paths, with a blank in front of the second one and a comma behind it. -/
theorem list_spelled_paths :
    let items := ["src", "unpackaged/pre"]
    let options : Options := OrderedMap.empty.insert "paths" (.string "src, unpackaged/pre ,")
    (∀ item ∈ items, IsItem item) ∧ options.list "paths" = items := by
  intro items options
  have hitems : ∀ item ∈ items, IsItem item := by
    intro item hitem
    simp only [items, List.mem_cons, List.not_mem_nil, or_false] at hitem
    rcases hitem with rfl | rfl
    · exact ⟨by decide, by decide, by decide⟩
    · exact ⟨by decide, by decide, by decide⟩
  have hparts : ItemParts ["src", " unpackaged/pre ", ""] items := by
    have hsrc : "src" = "" ++ "src" ++ "" := by decide
    have hpre : " unpackaged/pre " = " " ++ "unpackaged/pre" ++ " " := by decide
    refine .item hsrc isBlank_empty isBlank_empty ?_
    refine .item hpre (by decide) (by decide) ?_
    exact .blank isBlank_empty .nil
  have hspells : Spells "src, unpackaged/pre ," items := ⟨_, hparts, by decide⟩
  exact ⟨hitems, (((options.list_spelled "paths").1 items hitems).2.2 _ rfl).2 hspells⟩

end Options

end TaskEngine
