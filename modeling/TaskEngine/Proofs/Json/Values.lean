import TaskEngine.Proofs.Json.RoundTrip

/-!
# Values that are read stay as they are

A value that is read from a document has been put in order: the fields of its objects stand in the
order of their keys, and no key is left twice.  What is in order stays in order, so the value is
read back from where it is written, if the numbers in it are.  Numbers that are written as integers
of a word are; others may change once more.

## Main definitions

* `Value.Ascending` — fields in the order of their keys.
* `Value.Unrepeating` — no object within a value has a key twice.
* `NumberLexeme.IsWord` — a number as written is an integer that fits a word.
* `Json.Tree.numbers` — all numbers within a tree.
* `Json.ReadsAt` — a value is read back where there are so many levels left.

## Main results

* `Json.readsAt_array`, `Json.readsAt_object` — a value is read back if what it holds is.
* `Json.readsAt_of_valueOf` — **what is read, is read back.**
* `Json.ReadsAt.unrepeating` — what is read back repeats no key.
* `Json.readsBack_iff` — values that read back with lists around them.
-/

namespace TaskEngine

/-! ### Fields in order -/

namespace Value

/-- Fields in the order of their keys, none of which occurs twice. -/
def Ascending (fields : List (String × Value)) : Prop := (fields.map Prod.fst).Pairwise (· < ·)

/-- No object within a value has a key twice. -/
inductive Unrepeating : Value → Prop
  | null : Unrepeating .null
  | bool (flag : Bool) : Unrepeating (.bool flag)
  | number (n : Number) : Unrepeating (.number n)
  | string (text : String) : Unrepeating (.string text)
  | array {items : List Value} (each : ∀ item ∈ items, item.Unrepeating) :
    Unrepeating (.array items)
  | object {fields : List (String × Value)} (differ : (fields.map Prod.fst).Nodup)
    (each : ∀ field ∈ fields, field.2.Unrepeating) : Unrepeating (.object fields)

variable {key : String} {value : Value} {field : String × Value} {fields : List (String × Value)}

theorem Ascending.nodup (h : Ascending fields) : (fields.map Prod.fst).Nodup := by
  refine h.imp fun hlt heq => ?_
  rw [heq] at hlt
  exact String.lt_irrefl _ hlt

theorem mem_insertField (h : field ∈ insertField key value fields) :
    field = (key, value) ∨ field ∈ fields := by
  induction fields with
  | nil => exact .inl (List.mem_singleton.1 h)
  | cons first fields ih =>
    obtain ⟨k, v⟩ := first
    rw [insertField] at h
    split at h
    · exact List.mem_cons.1 h
    · split at h
      · exact (List.mem_cons.1 h).imp_right (List.mem_cons_of_mem _)
      · rcases List.mem_cons.1 h with rfl | hlater
        · exact .inr List.mem_cons_self
        · exact (ih hlater).imp_right (List.mem_cons_of_mem _)

/-- A field that is put in takes its place in the order. -/
theorem ascending_insertField (h : Ascending fields) (key : String) (value : Value) :
    Ascending (insertField key value fields) := by
  induction fields with
  | nil => exact List.pairwise_singleton _ _
  | cons first fields ih =>
    obtain ⟨k, v⟩ := first
    obtain ⟨hfirst, hrest⟩ := List.pairwise_cons.1 h
    rw [insertField]
    split
    · rename_i hlt
      refine List.pairwise_cons.2 ⟨fun other hother => ?_, h⟩
      rcases List.mem_cons.1 hother with rfl | hlater
      · exact hlt
      · exact String.lt_trans hlt (hfirst other hlater)
    · rename_i hnot
      split
      · rename_i heq
        subst heq
        exact h
      · rename_i hne
        have hgt : k < key :=
          String.not_le.1 fun hle => hne (String.le_antisymm hle (String.not_lt.1 hnot))
        refine List.pairwise_cons.2 ⟨fun other hother => ?_, ih hrest⟩
        obtain ⟨field, hfield, rfl⟩ := List.mem_map.1 hother
        rcases mem_insertField hfield with rfl | hold
        · exact hgt
        · exact hfirst _ (List.mem_map_of_mem hold)

/-- A field with a key beyond all others comes last. -/
theorem insertField_last (h : ∀ field ∈ fields, field.1 < key) (value : Value) :
    insertField key value fields = fields ++ [(key, value)] := by
  induction fields with
  | nil => rfl
  | cons first fields ih =>
    obtain ⟨k, v⟩ := first
    have hlt : k < key := h (k, v) List.mem_cons_self
    have hnot : ¬key < k := fun hgt => String.lt_irrefl _ (String.lt_trans hlt hgt)
    have hne : key ≠ k := by
      rintro rfl
      exact String.lt_irrefl _ hlt
    rw [insertField, if_neg hnot, if_neg hne,
      ih fun field hfield => h field (List.mem_cons_of_mem _ hfield), List.cons_append]

/-- Puts fields one after another into a list of fields with ascending keys. -/
def insertFields (done fields : List (String × Value)) : List (String × Value) :=
  fields.foldl (fun done field => insertField field.1 field.2 done) done

theorem objectOf_eq (fields : List (String × Value)) :
    objectOf fields = .object (insertFields [] fields) := rfl

/-- An object is made of some of the given fields, in order. -/
theorem exists_objectOf (fields : List (String × Value)) :
    ∃ kept, objectOf fields = .object kept ∧ Ascending kept ∧ ∀ field ∈ kept, field ∈ fields := by
  have hfold : ∀ fields done : List (String × Value), Ascending done →
      Ascending (insertFields done fields) ∧
        ∀ field ∈ insertFields done fields, field ∈ done ∨ field ∈ fields := by
    intro fields
    induction fields with
    | nil => exact fun done hdone => ⟨hdone, fun field hfield => .inl hfield⟩
    | cons first fields ih =>
      intro done hdone
      obtain ⟨hascending, hmem⟩ :=
        ih (insertField first.1 first.2 done) (ascending_insertField hdone _ _)
      refine ⟨hascending, fun field hfield => ?_⟩
      rcases hmem field hfield with hinserted | hlater
      · rcases mem_insertField hinserted with rfl | hold
        · exact .inr List.mem_cons_self
        · exact .inl hold
      · exact .inr (List.mem_cons_of_mem _ hlater)
  obtain ⟨hascending, hmem⟩ := hfold fields [] List.Pairwise.nil
  exact ⟨_, objectOf_eq fields, hascending, fun field hfield =>
    (hmem field hfield).resolve_left List.not_mem_nil⟩

/-- Fields that are in order stay as they are. -/
theorem objectOf_of_ascending (h : Ascending fields) : objectOf fields = .object fields := by
  have hfold : ∀ fields done : List (String × Value), Ascending (done ++ fields) →
      insertFields done fields = done ++ fields := by
    intro fields
    induction fields with
    | nil => exact fun done _ => (List.append_nil done).symm
    | cons first fields ih =>
      intro done hdone
      have hlast : ∀ field ∈ done, field.1 < first.1 := by
        intro field hfield
        rw [Ascending, List.map_append, List.pairwise_append] at hdone
        exact hdone.2.2 _ (List.mem_map_of_mem hfield) _ List.mem_cons_self
      show insertFields (insertField first.1 first.2 done) fields = _
      rw [insertField_last hlast, ih, List.append_assoc, List.singleton_append]
      rwa [List.append_assoc, List.singleton_append]
  rw [objectOf_eq, hfold fields [] h, List.nil_append]

end Value

/-! ### Numbers that are written as integers -/

namespace NumberLexeme

/-- The integer that a sign and digits name. -/
def integer (lexeme : NumberLexeme) : Int :=
  if lexeme.negative then -(digitsValue lexeme.whole : Int) else digitsValue lexeme.whole

/-- A number as written is an integer that fits a word. -/
structure IsWord (lexeme : NumberLexeme) : Prop where
  /-- There are no digits behind a point. -/
  fraction : lexeme.fraction = none
  /-- There is no exponent. -/
  exponent : lexeme.exponent = none
  /-- The integer fits. -/
  fits : FitsWord lexeme.integer

instance (lexeme : NumberLexeme) : Decidable lexeme.IsWord :=
  decidable_of_iff (lexeme.fraction = none ∧ lexeme.exponent = none ∧ FitsWord lexeme.integer)
    ⟨fun h => ⟨h.1, h.2.1, h.2.2⟩, fun h => ⟨h.fraction, h.exponent, h.fits⟩⟩

/-- A significand below the limit keeps all its digits. -/
theorem extend_eq {limit : Nat} {digits : List Char} (h : digitsValue digits < limit) :
    extend limit 0 digits = (digitsValue digits, []) := by
  let next (value : Nat) (c : Char) : Nat := value * 10 + (digitValue? c).getD 0
  have hgrows : ∀ (digits : List Char) (value : Nat), value ≤ digits.foldl next value := by
    intro digits
    induction digits with
    | nil => exact fun value => Nat.le_refl value
    | cons c digits ih =>
      intro value
      have hnext : value ≤ next value c := by
        show value ≤ value * 10 + (digitValue? c).getD 0
        omega
      exact Nat.le_trans hnext (ih _)
  have hextend : ∀ (digits : List Char) (value : Nat), digits.foldl next value < limit →
      extend limit value digits = (digits.foldl next value, []) := by
    intro digits
    induction digits with
    | nil => exact fun value _ => rfl
    | cons c digits ih =>
      intro value hlimit
      have hfits : next value c < limit := Nat.lt_of_le_of_lt (hgrows digits _) hlimit
      rw [extend]
      exact (if_pos hfits).trans (ih _ hlimit)
  exact hextend digits 0 h

variable {lexeme : NumberLexeme}

theorem IsWord.number?_eq (h : lexeme.IsWord) :
    lexeme.number? =
      if lexeme.negative = true ∧ digitsValue lexeme.whole = 0 then
        signed true (.zero false)
      else some (.integer lexeme.integer h.fits) := by
  have hfits := h.fits
  have hlimit : digitsValue lexeme.whole < significandLimit := by
    rw [integer, FitsWord] at hfits
    rw [significandLimit]
    split at hfits <;> omega
  rw [number?, extend_eq hlimit]
  dsimp only
  rw [h.fraction]
  dsimp only
  rw [if_pos ⟨rfl, h.exponent⟩]
  by_cases hzero : lexeme.negative = true ∧ digitsValue lexeme.whole = 0
  · rw [if_pos hzero, dif_neg fun hboth => hboth.2 hzero, hzero.1, hzero.2, Binary64.ofNat_zero]
  · rw [if_neg hzero, dif_pos ⟨hfits, hzero⟩]
    rfl

end NumberLexeme

namespace Number

theorem digitsValue_decimalDigits (n : Nat) : digitsValue (decimalDigits n) = n := by
  rw [decimalDigits, ← Nat.toList_repr, digitsValue_repr]

theorem integer_integerLexeme (i : Int) : (integerLexeme i).integer = i := by
  show (if decide (i < 0) = true then -(digitsValue (decimalDigits i.natAbs) : Int)
    else digitsValue (decimalDigits i.natAbs)) = i
  simp only [digitsValue_decimalDigits, decide_eq_true_eq]
  split <;> omega

/-- Integers are read back. -/
theorem number?_integerLexeme {i : Int} (fits : FitsWord i) :
    (integerLexeme i).number? = some (.integer i fits) := by
  have hword : (integerLexeme i).IsWord := ⟨rfl, rfl, (integer_integerLexeme i).symm ▸ fits⟩
  rw [hword.number?_eq, if_neg]
  · simp only [integer_integerLexeme]
  · rintro ⟨hnegative, hzero⟩
    have hlt : i < 0 := of_decide_eq_true hnegative
    have hdigits : digitsValue (decimalDigits i.natAbs) = 0 := hzero
    rw [digitsValue_decimalDigits] at hdigits
    omega

end Number

/-- **A number that was written as an integer of a word is read back.**  Minus zero is not an
integer as it is read, and is written with a point. -/
theorem NumberLexeme.IsWord.number?_lexemeOf {lexeme : NumberLexeme} (h : lexeme.IsWord)
    {n : Number} (hread : lexeme.number? = some n) : (Json.lexemeOf n).number? = some n := by
  rw [h.number?_eq] at hread
  split at hread
  · have hzero : ∀ n, signed true (.zero false) = some n →
        n = .float (.zero true) rfl := by
      intro n hn
      exact (Option.some.inj hn).symm
    rw [hzero n hread]
    have hlexeme : Json.lexemeOf (.float (.zero true) rfl) = ⟨true, ['0'], some ['0'], none⟩ := rfl
    rw [hlexeme]
    decide +kernel
  · cases hread
    have htext : (Number.integer lexeme.integer h.fits).text =
        (Number.integerLexeme lexeme.integer).chars := Number.chars_integerLexeme _
    rw [Json.lexemeOf_eq (Number.proper_integerLexeme _) htext]
    exact Number.number?_integerLexeme h.fits

namespace Json

open TaskEngine

mutual

/-- All numbers within a tree, as they are written. -/
def Tree.numbers : Tree → List NumberLexeme
  | .number lexeme => [lexeme]
  | .array items _ => Tree.numbersOfItems items
  | .object fields _ => Tree.numbersOfFields fields
  | _ => []

/-- All numbers within items. -/
def Tree.numbersOfItems : List Tree → List NumberLexeme
  | [] => []
  | item :: items => item.numbers ++ Tree.numbersOfItems items

/-- All numbers within fields. -/
def Tree.numbersOfFields : List (Option (List Char) × Tree) → List NumberLexeme
  | [] => []
  | (_, item) :: fields => item.numbers ++ Tree.numbersOfFields fields

end

theorem numbersOfItems_eq_flatMap (items : List Tree) :
    Tree.numbersOfItems items = items.flatMap Tree.numbers := by
  induction items with
  | nil => rfl
  | cons item items ih => rw [Tree.numbersOfItems, ih, List.flatMap_cons]

theorem numbersOfFields_eq_flatMap (fields : List (Option (List Char) × Tree)) :
    Tree.numbersOfFields fields = fields.flatMap fun field => field.2.numbers := by
  induction fields with
  | nil => rfl
  | cons field fields ih => rw [Tree.numbersOfFields, ih, List.flatMap_cons]

/-! ### Values that are read back -/

/-- The value is read back from where it is written, with so many levels left. -/
def ReadsAt (levels : Nat) (value : Value) : Prop := valueOf levels (.ofValue value) = .ok value

variable {levels : Nat}

theorem enter_eq_ok {inner : Nat} (h : enter levels = .ok inner) :
    1 < levels ∧ inner = levels - 1 := by
  rw [enter] at h
  split at h
  · cases h
  · cases h
    exact ⟨by omega, rfl⟩

/-- Only a list that can be entered, and is closed, has a value. -/
theorem valueOf_array_eq_ok {items : List Tree} {closed : Bool} {value : Value}
    (h : valueOf levels (.array items closed) = .ok value) :
    1 < levels ∧ ∃ values, itemValues (levels - 1) items = .ok values ∧ value = .array values := by
  rw [valueOf] at h
  obtain ⟨inner, henter, h⟩ := bind_eq_ok.1 h
  obtain ⟨hlevels, rfl⟩ := enter_eq_ok henter
  obtain ⟨values, hvalues, h⟩ := bind_eq_ok.1 h
  cases closed with
  | false => cases h
  | true =>
    cases h
    exact ⟨hlevels, values, hvalues, rfl⟩

/-- Only an object that can be entered, and is closed, has a value. -/
theorem valueOf_object_eq_ok {fields : List (Option (List Char) × Tree)} {closed : Bool}
    {value : Value} (h : valueOf levels (.object fields closed) = .ok value) :
    1 < levels ∧
      ∃ values, fieldValues (levels - 1) fields = .ok values ∧ value = .objectOf values := by
  rw [valueOf] at h
  obtain ⟨inner, henter, h⟩ := bind_eq_ok.1 h
  obtain ⟨hlevels, rfl⟩ := enter_eq_ok henter
  obtain ⟨values, hvalues, h⟩ := bind_eq_ok.1 h
  cases closed with
  | false => cases h
  | true =>
    cases h
    exact ⟨hlevels, values, hvalues, rfl⟩

theorem itemValues_cons_eq_ok {item : Tree} {items : List Tree} {values : List Value}
    (h : itemValues levels (item :: items) = .ok values) :
    ∃ value rest, valueOf levels item = .ok value ∧ itemValues levels items = .ok rest ∧
      values = value :: rest := by
  rw [itemValues] at h
  obtain ⟨value, hvalue, h⟩ := bind_eq_ok.1 h
  obtain ⟨rest, hrest, h⟩ := bind_eq_ok.1 h
  cases h
  exact ⟨value, rest, hvalue, hrest, rfl⟩

theorem fieldValues_cons_eq_ok {key : Option (List Char)} {item : Tree}
    {fields : List (Option (List Char) × Tree)} {values : List (String × Value)}
    (h : fieldValues levels ((key, item) :: fields) = .ok values) :
    ∃ name value rest, textOf key = .ok name ∧ valueOf levels item = .ok value ∧
      fieldValues levels fields = .ok rest ∧ values = (name, value) :: rest := by
  rw [fieldValues] at h
  obtain ⟨name, hname, h⟩ := bind_eq_ok.1 h
  obtain ⟨value, hvalue, h⟩ := bind_eq_ok.1 h
  obtain ⟨rest, hrest, h⟩ := bind_eq_ok.1 h
  cases h
  exact ⟨name, value, rest, hname, hvalue, hrest, rfl⟩

theorem itemValues_ofItems {items : List Value} :
    itemValues levels (Tree.ofItems items) = .ok items ↔ ∀ item ∈ items, ReadsAt levels item := by
  induction items with
  | nil => exact ⟨fun _ item hitem => absurd hitem List.not_mem_nil, fun _ => rfl⟩
  | cons item items ih =>
    rw [List.forall_mem_cons, ← ih, Tree.ofItems]
    constructor
    · intro h
      obtain ⟨value, rest, hvalue, hrest, heq⟩ := itemValues_cons_eq_ok h
      cases heq
      exact ⟨hvalue, hrest⟩
    · rintro ⟨hitem, hitems⟩
      rw [itemValues, hitem, ok_bind, hitems]
      rfl

theorem textOf_toList (key : String) : textOf (some key.toList) = .ok key :=
  congrArg Except.ok String.ofList_toList

theorem fieldValues_ofFields {fields : List (String × Value)} :
    fieldValues levels (Tree.ofFields fields) = .ok fields ↔
      ∀ field ∈ fields, ReadsAt levels field.2 := by
  induction fields with
  | nil => exact ⟨fun _ field hfield => absurd hfield List.not_mem_nil, fun _ => rfl⟩
  | cons field fields ih =>
    rw [List.forall_mem_cons, ← ih, Tree.ofFields]
    constructor
    · intro h
      obtain ⟨name, value, rest, -, hvalue, hrest, heq⟩ := fieldValues_cons_eq_ok h
      cases heq
      exact ⟨hvalue, hrest⟩
    · rintro ⟨hfield, hfields⟩
      rw [fieldValues, textOf_toList, ok_bind, hfield, ok_bind, hfields]
      rfl

/-- Keys are read back in any case. -/
theorem map_fst_of_fieldValues_ofFields {fields values : List (String × Value)}
    (h : fieldValues levels (Tree.ofFields fields) = .ok values) :
    values.map Prod.fst = fields.map Prod.fst := by
  induction fields generalizing values with
  | nil =>
    cases h
    rfl
  | cons field fields ih =>
    rw [Tree.ofFields] at h
    obtain ⟨name, value, rest, hname, -, hrest, rfl⟩ := fieldValues_cons_eq_ok h
    rw [textOf_toList] at hname
    cases hname
    rw [List.map_cons, List.map_cons, ih hrest]

theorem readsAt_array {items : List Value} :
    ReadsAt levels (.array items) ↔ 1 < levels ∧ ∀ item ∈ items, ReadsAt (levels - 1) item := by
  rw [← itemValues_ofItems, ReadsAt, Tree.ofValue]
  constructor
  · intro h
    obtain ⟨hlevels, values, hvalues, heq⟩ := valueOf_array_eq_ok h
    cases heq
    exact ⟨hlevels, hvalues⟩
  · rintro ⟨hlevels, hvalues⟩
    rw [valueOf, enter, if_neg (by omega), ok_bind, hvalues]
    rfl

theorem readsAt_object {fields : List (String × Value)} :
    ReadsAt levels (.object fields) ↔
      1 < levels ∧ Value.Ascending fields ∧ ∀ field ∈ fields, ReadsAt (levels - 1) field.2 := by
  rw [ReadsAt, Tree.ofValue]
  constructor
  · intro h
    obtain ⟨hlevels, values, hvalues, heq⟩ := valueOf_object_eq_ok h
    obtain ⟨kept, hkept, hascending, -⟩ := Value.exists_objectOf values
    rw [hkept] at heq
    cases heq
    -- what was written is in order, so nothing but its order was kept
    have hvaluesAscending : Value.Ascending values := by
      rw [Value.Ascending, map_fst_of_fieldValues_ofFields hvalues]
      exact hascending
    rw [Value.objectOf_of_ascending hvaluesAscending] at hkept
    cases hkept
    exact ⟨hlevels, hascending, fieldValues_ofFields.1 hvalues⟩
  · rintro ⟨hlevels, hascending, hfields⟩
    rw [valueOf, enter, if_neg (by omega), ok_bind, fieldValues_ofFields.2 hfields, ok_bind,
      Value.objectOf_of_ascending hascending]
    rfl

mutual

/-- **What is read, is read back**, if all numbers were written as integers of words. -/
theorem readsAt_of_valueOf {tree : Tree} {levels : Nat} {value : Value}
    (hwords : ∀ lexeme ∈ tree.numbers, lexeme.IsWord) (h : valueOf levels tree = .ok value) :
    ReadsAt levels value := by
  match tree with
  | .null =>
    cases h
    rfl
  | .bool flag =>
    cases h
    rfl
  | .number lexeme =>
    rw [valueOf] at h
    cases hnumber : lexeme.number? with
    | none =>
      rw [hnumber] at h
      cases h
    | some n =>
      rw [hnumber] at h
      cases h
      have hword : lexeme.IsWord := hwords lexeme (List.mem_singleton_self lexeme)
      rw [ReadsAt, Tree.ofValue, valueOf, hword.number?_lexemeOf hnumber]
  | .quoted none => cases h
  | .quoted (some text) =>
    cases h
    exact congrArg (Except.map Value.string) (textOf_toList (String.ofList text))
  | .array items closed =>
    obtain ⟨hlevels, values, hvalues, rfl⟩ := valueOf_array_eq_ok h
    exact readsAt_array.2 ⟨hlevels, readsAt_of_itemValues hwords hvalues⟩
  | .object fields closed =>
    obtain ⟨hlevels, values, hvalues, rfl⟩ := valueOf_object_eq_ok h
    obtain ⟨kept, hkept, hascending, hmem⟩ := Value.exists_objectOf values
    rw [hkept]
    exact readsAt_object.2 ⟨hlevels, hascending, fun field hfield =>
      readsAt_of_fieldValues hwords hvalues field (hmem field hfield)⟩
  | .broken => cases h

theorem readsAt_of_itemValues {items : List Tree} {levels : Nat} {values : List Value}
    (hwords : ∀ lexeme ∈ Tree.numbersOfItems items, lexeme.IsWord)
    (h : itemValues levels items = .ok values) : ∀ value ∈ values, ReadsAt levels value := by
  match items with
  | [] =>
    cases h
    exact fun value hvalue => absurd hvalue List.not_mem_nil
  | item :: items =>
    obtain ⟨value, rest, hvalue, hrest, rfl⟩ := itemValues_cons_eq_ok h
    obtain ⟨hitem, hitems⟩ := List.forall_mem_append.1 hwords
    exact List.forall_mem_cons.2
      ⟨readsAt_of_valueOf hitem hvalue, readsAt_of_itemValues hitems hrest⟩

theorem readsAt_of_fieldValues {fields : List (Option (List Char) × Tree)} {levels : Nat}
    {values : List (String × Value)}
    (hwords : ∀ lexeme ∈ Tree.numbersOfFields fields, lexeme.IsWord)
    (h : fieldValues levels fields = .ok values) : ∀ field ∈ values, ReadsAt levels field.2 := by
  match fields with
  | [] =>
    cases h
    exact fun field hfield => absurd hfield List.not_mem_nil
  | (key, item) :: fields =>
    obtain ⟨name, value, rest, -, hvalue, hrest, rfl⟩ := fieldValues_cons_eq_ok h
    obtain ⟨hitem, hitems⟩ := List.forall_mem_append.1 hwords
    exact List.forall_mem_cons.2
      ⟨readsAt_of_valueOf hitem hvalue, readsAt_of_fieldValues hitems hrest⟩

end

/-- What is read back repeats no key. -/
theorem ReadsAt.unrepeating {value : Value} {levels : Nat} (h : ReadsAt levels value) :
    value.Unrepeating := by
  match value with
  | .null => exact .null
  | .bool flag => exact .bool flag
  | .number n => exact .number n
  | .string text => exact .string text
  | .array items =>
    obtain ⟨hlevels, hitems⟩ := readsAt_array.1 h
    exact .array fun item hitem => (hitems item hitem).unrepeating
  | .object fields =>
    obtain ⟨hlevels, hascending, hfields⟩ := readsAt_object.1 h
    exact .object hascending.nodup fun field hfield => (hfields field hfield).unrepeating
termination_by levels

/-- With lists around it, a value is read back as it is with fewer levels left. -/
theorem readsAt_nested {depth levels : Nat} (h : depth < levels) {value : Value} :
    ReadsAt levels (nested depth value) ↔ ReadsAt (levels - depth) value := by
  induction depth generalizing levels with
  | zero => exact Iff.rfl
  | succ depth ih =>
    rw [nested, readsAt_array, List.forall_mem_singleton, ih (by omega), Nat.sub_sub,
      Nat.add_comm 1 depth]
    exact and_iff_right (by omega)

theorem readsBack_iff {depth : Nat} (h : depth < maxLevels) {value : Value} :
    ReadsBack depth value ↔ ReadsAt (maxLevels - depth) value := by
  rw [← readsAt_nested h, ReadsBack, readValue, read_text]
  rfl

end Json

end TaskEngine
