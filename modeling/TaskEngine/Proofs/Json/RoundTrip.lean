import TaskEngine.Json.Printer
import TaskEngine.Json.Reader
import TaskEngine.Proofs.Documents.Records
import TaskEngine.Proofs.Json.Numerals

/-!
# Reading what was written

The text of a value is cut into the tokens that it was put together from, and these tokens build up
the tree of the value: nothing is lost in its text but the order in which fields are kept.  So to
read a text that was written is to read the tree of its value, whatever is read from it.

## Main definitions

* `Json.tokensOf` — the tokens that a value is written as.
* `Json.ReadsBack` — the text of a value reads back as that value, with some lists around it.
* `Json.nodeOf` — the node of a document where a value was written.

## Main results

* `Json.lexToken_quoted` — quoted texts are read back, whatever their characters.
* `Json.tokens_chars` — the text of a value consists of its tokens.
* `Json.foldl_tokensOf` — its tokens build up its tree.
* `Json.read_text` — **a text that was written is read as the tree of its value.**
* `Json.readList_nodeOf`, `Json.readMap_nodeOf` — lists and maps are read back item by item.
-/

namespace TaskEngine.Json

open TaskEngine

/-! ### Quoted texts -/

/-- Four hexadecimal digits name a control character. -/
theorem radixNumber?_control {n : Nat} (h : n < 0x20) :
    radixNumber? 16 ['0', '0', hexDigit (n / 16), hexDigit (n % 16)] = some n := by
  have hall : ∀ n < 0x20,
      radixNumber? 16 ['0', '0', hexDigit (n / 16), hexDigit (n % 16)] = some n := by decide
  exact hall n h

/-- A short escape is read as the character it stands for. -/
theorem lexQuoted_short {letter c : Char} (h : shortEscape? letter = some c)
    {more after : List Char} {units : List QuotedUnit}
    (hmore : lexQuoted more = some (units, after)) :
    lexQuoted ('\\' :: letter :: more) = some (.char c :: units, after) := by
  rw [lexQuoted, h, hmore]
  have hnumber : shortEscape? 'u' = none := by decide
  rintro a b c' d rest rfl
  rw [hnumber] at h
  exact absurd h.symm (Option.some_ne_none c)

/-- A character is read back, be it escaped or not. -/
theorem lexQuoted_escapeChar (c : Char) {more after : List Char} {units : List QuotedUnit}
    (hmore : lexQuoted more = some (units, after)) :
    lexQuoted (escapeChar c ++ more) = some (.char c :: units, after) := by
  unfold escapeChar
  repeat' split
  all_goals first
    | subst_vars; exact lexQuoted_short rfl hmore
    | skip
  · -- a control character is named by its number
    rename_i hcontrol
    have hunit : QuotedUnit.ofNumber c.toNat = .char c := by
      rw [QuotedUnit.ofNumber, if_neg (by omega), Char.ofNat_toNat]
    show lexQuoted ('\\' :: 'u' :: '0' :: '0' :: hexDigit (c.toNat / 16) ::
      hexDigit (c.toNat % 16) :: more) = _
    rw [lexQuoted, radixNumber?_control hcontrol, hmore, ← hunit]
  · rename_i hquote hslash _ _ _ _ _ hcontrol
    rw [List.singleton_append, lexQuoted, if_neg hquote, if_neg (not_or.2 ⟨hslash, hcontrol⟩),
      hmore, Option.map_some]
    · rintro a b d e rest rfl
      exact absurd rfl hslash
    · rintro d rest rfl
      exact absurd rfl hslash

theorem lexQuoted_flatMap (text rest : List Char) :
    lexQuoted (text.flatMap escapeChar ++ '\x22' :: rest) = some (text.map .char, rest) := by
  induction text with
  | nil => rfl
  | cons c text ih =>
    rw [List.flatMap_cons, List.append_assoc, List.map_cons]
    exact lexQuoted_escapeChar c ih

theorem joinUnits_map_char (text : List Char) : joinUnits (text.map .char) = some text := by
  induction text with
  | nil => rfl
  | cons c text ih => rw [List.map_cons, joinUnits, ih, Option.map_some]

/-- Quoted texts are read back, whatever their characters. -/
theorem lexToken_quoted (text rest : List Char) :
    lexToken '\x22' (text.flatMap escapeChar ++ '\x22' :: rest) =
      some (.quoted (some text), rest) := by
  show (lexQuoted _).map _ = _
  rw [lexQuoted_flatMap, Option.map_some]
  dsimp only
  rw [joinUnits_map_char]

/-! ### Tokens -/

theorem tokens_cons {c : Char} {rest after : List Char} {token : Token}
    (hblank : isBlank c = false) (h : lexToken c rest = some (token, after)) :
    tokens (c :: rest) = token :: tokens after := by
  rw [tokens, if_neg (by rw [hblank]; exact Bool.false_ne_true)]
  split
  · rename_i hnone
    rw [h] at hnone
    exact absurd hnone (Option.some_ne_none _)
  · rename_i hsome
    rw [h] at hsome
    obtain ⟨rfl, rfl⟩ := Prod.mk.inj (Option.some.inj hsome)
    rfl

theorem tokens_quoted (text rest : List Char) :
    tokens (quoted text ++ rest) = .quoted (some text) :: tokens rest := by
  rw [quoted, List.cons_append, List.cons_append, List.append_assoc, List.singleton_append]
  exact tokens_cons rfl (lexToken_quoted text rest)

/-- A character that can start a number starts nothing else. -/
theorem lexToken_of_number {c : Char} (hc : c = '-' ∨ isDecimalDigit c = true) (rest : List Char) :
    isBlank c = false ∧
      lexToken c rest =
        (lexNumber (c :: rest)).map fun (lexeme, after) => (.number lexeme, after) := by
  have hne : ∀ d, d ≠ '-' → isDecimalDigit d = false → c ≠ d := by
    rintro d hsign hdigit rfl
    rcases hc with hc | hc
    · exact hsign hc
    · rw [hdigit] at hc
      exact Bool.false_ne_true hc
  constructor
  · rw [isBlank]
    simp only [Bool.or_eq_false_iff, beq_eq_false_iff_ne]
    exact ⟨⟨⟨hne _ (by decide) (by decide), hne _ (by decide) (by decide)⟩,
      hne _ (by decide) (by decide)⟩, hne _ (by decide) (by decide)⟩
  · unfold lexToken
    repeat rw [if_neg (hne _ (by decide) (by decide))]

theorem tokens_number (n : Number) {rest : List Char} (hrest : EndsNumber rest) :
    tokens (n.text ++ rest) = .number (lexemeOf n) :: tokens rest := by
  have hread := lexNumber_text n hrest
  obtain ⟨hproper, htext⟩ := exists_lexemeOf n
  obtain ⟨c, more, hchars, hc⟩ : ∃ c more, n.text = c :: more ∧
      (c = '-' ∨ isDecimalDigit c = true) := by
    rw [htext, NumberLexeme.chars]
    cases (lexemeOf n).negative with
    | true => exact ⟨_, _, rfl, Or.inl rfl⟩
    | false =>
      obtain ⟨c, digits, hwhole⟩ := List.exists_cons_of_ne_nil hproper.whole.1
      rw [hwhole]
      exact ⟨_, _, rfl, Or.inr (hproper.whole.2 c (hwhole ▸ List.mem_cons_self))⟩
  rw [hchars, List.cons_append] at hread ⊢
  obtain ⟨hblank, htoken⟩ := lexToken_of_number hc (more ++ rest)
  refine tokens_cons hblank ?_
  rw [htoken, hread, Option.map_some]

mutual

/-- The tokens that a value is written as. -/
def tokensOf : Value → List Token
  | .null => [.null]
  | .bool flag => [.bool flag]
  | .number n => [.number (lexemeOf n)]
  | .string text => [.quoted (some text.toList)]
  | .array [] => [.beginArray, .endArray]
  | .array (item :: items) => .beginArray :: (tokensOf item ++ tokensOfItems items)
  | .object [] => [.beginObject, .endObject]
  | .object ((key, value) :: fields) =>
    .beginObject :: .quoted (some key.toList) :: .colon :: (tokensOf value ++ tokensOfFields fields)

/-- The tokens of the items of a list after the first, and of its end. -/
def tokensOfItems : List Value → List Token
  | [] => [.endArray]
  | item :: items => .comma :: (tokensOf item ++ tokensOfItems items)

/-- The tokens of the fields of an object after the first, and of its end. -/
def tokensOfFields : List (String × Value) → List Token
  | [] => [.endObject]
  | (key, value) :: fields =>
    .comma :: .quoted (some key.toList) :: .colon :: (tokensOf value ++ tokensOfFields fields)

end

theorem endsNumber_itemsChars (items : List Value) (rest : List Char) :
    EndsNumber (Value.itemsChars items ++ rest) := by
  cases items with
  | nil =>
    rintro c ⟨⟩
    decide
  | cons item items =>
    rintro c ⟨⟩
    decide

theorem endsNumber_fieldsChars (fields : List (String × Value)) (rest : List Char) :
    EndsNumber (Value.fieldsChars fields ++ rest) := by
  cases fields with
  | nil =>
    rintro c ⟨⟩
    decide
  | cons field fields =>
    rintro c ⟨⟩
    decide

theorem tokens_field (key : String) (rest : List Char) :
    tokens (quoted key.toList ++ ':' :: rest) =
      .quoted (some key.toList) :: .colon :: tokens rest := by
  rw [tokens_quoted, tokens_cons (c := ':') rfl rfl]

mutual

/-- The text of a value consists of its tokens. -/
theorem tokens_chars (value : Value) {rest : List Char} (hrest : EndsNumber rest) :
    tokens (value.chars ++ rest) = tokensOf value ++ tokens rest := by
  match value with
  | .null => exact tokens_cons (c := 'n') rfl rfl
  | .bool true => exact tokens_cons (c := 't') rfl rfl
  | .bool false => exact tokens_cons (c := 'f') rfl rfl
  | .number n => exact tokens_number n hrest
  | .string text => exact tokens_quoted text.toList rest
  | .array [] =>
    rw [Value.chars, tokensOf]
    show tokens ('[' :: ']' :: rest) = _
    rw [tokens_cons (c := '[') rfl rfl, tokens_cons (c := ']') rfl rfl]
    rfl
  | .array (item :: items) =>
    rw [Value.chars, tokensOf, List.cons_append, List.append_assoc,
      tokens_cons (c := '[') rfl rfl, tokens_chars item (endsNumber_itemsChars items rest),
      tokens_itemsChars items rest, List.cons_append, List.append_assoc]
  | .object [] =>
    rw [Value.chars, tokensOf]
    show tokens ('\x7b' :: '\x7d' :: rest) = _
    rw [tokens_cons (c := '\x7b') rfl rfl, tokens_cons (c := '\x7d') rfl rfl]
    rfl
  | .object ((key, value) :: fields) =>
    rw [Value.chars, tokensOf, List.cons_append, List.append_assoc,
      tokens_cons (c := '\x7b') rfl rfl, List.cons_append, tokens_field, List.append_assoc,
      tokens_chars value (endsNumber_fieldsChars fields rest), tokens_fieldsChars fields rest]
    simp only [List.cons_append, List.append_assoc]

theorem tokens_itemsChars (items : List Value) (rest : List Char) :
    tokens (Value.itemsChars items ++ rest) = tokensOfItems items ++ tokens rest := by
  match items with
  | [] => exact tokens_cons (c := ']') rfl rfl
  | item :: items =>
    rw [Value.itemsChars, tokensOfItems, List.cons_append, List.append_assoc,
      tokens_cons (c := ',') rfl rfl, tokens_chars item (endsNumber_itemsChars items rest),
      tokens_itemsChars items rest, List.cons_append, List.append_assoc]

theorem tokens_fieldsChars (fields : List (String × Value)) (rest : List Char) :
    tokens (Value.fieldsChars fields ++ rest) = tokensOfFields fields ++ tokens rest := by
  match fields with
  | [] => exact tokens_cons (c := '\x7d') rfl rfl
  | (key, value) :: fields =>
    rw [Value.fieldsChars, tokensOfFields, List.cons_append, List.append_assoc,
      tokens_cons (c := ',') rfl rfl, List.cons_append, tokens_field, List.append_assoc,
      tokens_chars value (endsNumber_fieldsChars fields rest), tokens_fieldsChars fields rest]
    simp only [List.cons_append, List.append_assoc]

end

/-! ### Trees -/

open Reading

mutual

/-- The tokens of a value build up its tree. -/
theorem foldl_tokensOf (value : Value) (stack : List Open) (first : Bool) (more : List Token) :
    (tokensOf value ++ more).foldl step (.going stack (.value first)) =
      more.foldl step (complete stack (.ofValue value)) := by
  match value with
  | .null => rfl
  | .bool flag => rfl
  | .number n => rfl
  | .string text => rfl
  | .array [] => rfl
  | .array (item :: items) =>
    rw [tokensOf, List.cons_append, List.append_assoc, List.foldl_cons]
    show (tokensOf item ++ _).foldl step (.going (.array [] :: stack) (.value true)) = _
    rw [foldl_tokensOf item]
    exact foldl_tokensOfItems items stack [Tree.ofValue item] more
  | .object [] => rfl
  | .object ((key, value) :: fields) =>
    rw [tokensOf, List.cons_append, List.cons_append, List.cons_append, List.append_assoc,
      List.foldl_cons, List.foldl_cons, List.foldl_cons]
    show (tokensOf value ++ _).foldl step
      (.going (.object [] (some key.toList) :: stack) (.value false)) = _
    rw [foldl_tokensOf value]
    exact foldl_tokensOfFields fields stack [(some key.toList, Tree.ofValue value)] _ more

/-- Items are added to those that a list has already. -/
theorem foldl_tokensOfItems (items : List Value) (stack : List Open) (done : List Tree)
    (more : List Token) :
    (tokensOfItems items ++ more).foldl step (.going (.array done :: stack) .separator) =
      more.foldl step (complete stack (.array (done.reverse ++ Tree.ofItems items) true)) := by
  match items with
  | [] =>
    rw [Tree.ofItems, List.append_nil]
    rfl
  | item :: items =>
    rw [tokensOfItems, List.cons_append, List.append_assoc, List.foldl_cons]
    show (tokensOf item ++ _).foldl step (.going (.array done :: stack) (.value false)) = _
    rw [foldl_tokensOf item, Tree.ofItems]
    show (tokensOfItems items ++ more).foldl step
      (.going (.array (Tree.ofValue item :: done) :: stack) .separator) = _
    rw [foldl_tokensOfItems items, List.reverse_cons, List.append_assoc, List.singleton_append]

/-- Fields are added to those that an object has already. -/
theorem foldl_tokensOfFields (fields : List (String × Value)) (stack : List Open)
    (done : List (Option (List Char) × Tree)) (last : Option (List Char)) (more : List Token) :
    (tokensOfFields fields ++ more).foldl step (.going (.object done last :: stack) .separator) =
      more.foldl step (complete stack (.object (done.reverse ++ Tree.ofFields fields) true)) := by
  match fields with
  | [] =>
    rw [Tree.ofFields, List.append_nil]
    rfl
  | (key, value) :: fields =>
    rw [tokensOfFields, List.cons_append, List.cons_append, List.cons_append, List.append_assoc,
      List.foldl_cons, List.foldl_cons, List.foldl_cons]
    show (tokensOf value ++ _).foldl step
      (.going (.object done (some key.toList) :: stack) (.value false)) = _
    rw [foldl_tokensOf value, Tree.ofFields]
    show (tokensOfFields fields ++ more).foldl step
      (.going (.object ((some key.toList, Tree.ofValue value) :: done) _ :: stack) .separator) = _
    rw [foldl_tokensOfFields fields, List.reverse_cons, List.append_assoc, List.singleton_append]

end

theorem parse_text (value : Value) : parse value.text = ⟨.ofValue value, false⟩ := by
  have htokens := tokens_chars value endsNumber_nil
  have htree := foldl_tokensOf value [] false []
  rw [List.append_nil] at htokens htree
  have hend : tokens [] = [] := by rw [tokens]
  rw [parse, Value.text, String.toList_ofList, htokens, hend, List.append_nil, htree]
  rfl

/-- **A text that was written is read as the tree of its value**, whatever is read from it. -/
theorem read_text {α : Type} (reader : Node → Except Fault α) (value : Value) :
    Json.read reader value.text = reader ⟨maxLevels, .ofValue value⟩ := by
  rw [Json.read, parse_text]
  dsimp only
  cases reader ⟨maxLevels, .ofValue value⟩ with
  | error fault => rfl
  | ok found => rfl

/-! ### Values that read back -/

/-- A value inside of lists. -/
def nested : Nat → Value → Value
  | 0, value => value
  | depth + 1, value => .array [nested depth value]

/-- The text of a value reads back as that value, with some lists around it.  Numbers may be written
as one number and read as another, and there is a limit to how deep a document can be. -/
def ReadsBack (depth : Nat) (value : Value) : Prop :=
  readValue (nested depth value).text = .ok (nested depth value)

/-- Each list around a value takes one level. -/
theorem valueOf_of_nested {depth levels : Nat} {value : Value}
    (h : valueOf levels (.ofValue (nested depth value)) = .ok (nested depth value)) :
    valueOf (levels - depth) (.ofValue value) = .ok value := by
  induction depth generalizing levels with
  | zero => exact h
  | succ depth ih =>
    have hitem : valueOf (levels - 1) (.ofValue (nested depth value)) =
        .ok (nested depth value) := by
      rw [nested, Tree.ofValue, Tree.ofItems, Tree.ofItems, valueOf, enter] at h
      split at h
      · exact absurd h (by simp [bind, Except.bind])
      · rw [ok_bind, itemValues, itemValues] at h
        cases hvalue : valueOf (levels - 1) (.ofValue (nested depth value)) with
        | error fault =>
          rw [hvalue] at h
          exact absurd h (by simp [bind, Except.bind])
        | ok found =>
          rw [hvalue, ok_bind, ok_bind] at h
          have hsame : Value.array [found] = .array [nested depth value] := Except.ok.inj h
          rw [(List.cons.inj (Value.array.inj hsame)).1]
    rw [show levels - (depth + 1) = levels - 1 - depth by omega]
    exact ih hitem

theorem ReadsBack.valueOf {depth : Nat} {value : Value} (h : ReadsBack depth value) :
    valueOf (maxLevels - depth) (.ofValue value) = .ok value :=
  valueOf_of_nested (by rwa [ReadsBack, readValue, read_text] at h)

/-! ### Nodes of what was written -/

open DocumentNode

/-- The node of a document where a value was written. -/
def nodeOf (levels : Nat) (value : Value) : Node := ⟨levels, .ofValue value⟩

variable {α : Type} {levels : Nat}

theorem text_nodeOf (levels : Nat) (written : String) :
    text (nodeOf levels (.string written)) = .ok written :=
  congrArg Except.ok String.ofList_toList

theorem flag_nodeOf (levels : Nat) (flag : Bool) :
    DocumentNode.flag (nodeOf levels (.bool flag)) = .ok flag := rfl

theorem readOptional_text_nodeOf (levels : Nat) (written : Option String) :
    readOptional text (nodeOf levels (.ofText? written)) = .ok written := by
  cases written with
  | none => rfl
  | some written =>
    show (do return some (← text (nodeOf levels (.string written)))) = _
    rw [text_nodeOf, ok_bind]
    rfl

theorem ofFields_eq_map (fields : List (String × Value)) :
    Tree.ofFields fields = fields.map fun field => (some field.1.toList, .ofValue field.2) := by
  induction fields with
  | nil => rfl
  | cons field fields ih => rw [Tree.ofFields, ih, List.map_cons]

theorem ofItems_eq_map (items : List Value) : Tree.ofItems items = items.map .ofValue := by
  induction items with
  | nil => rfl
  | cons item items ih => rw [Tree.ofItems, ih, List.map_cons]

theorem fields_nodeOf (hlevels : 1 < levels) (fields : List (String × Value)) :
    DocumentNode.fields (nodeOf levels (.object fields)) =
      .ok ⟨namedEntries (fields.map fun field => (field.1, nodeOf (levels - 1) field.2)),
        true⟩ := by
  show Node.entries id (nodeOf levels (.object fields)) = _
  rw [Node.entries, nodeOf, Tree.ofValue]
  dsimp only
  rw [enter, if_neg (by omega), ok_bind, ofFields_eq_map, namedEntries, List.map_map,
    List.map_map]
  congr 3
  funext field
  simp [textOf, nodeOf, Except.map, String.ofList_toList]

theorem items_nodeOf (hlevels : 1 < levels) (items : List Value) :
    DocumentNode.items (nodeOf levels (.array items)) =
      .ok ⟨items.map (nodeOf (levels - 1)), true⟩ := by
  show Node.listing (nodeOf levels (.array items)) = _
  rw [Node.listing, nodeOf, Tree.ofValue]
  dsimp only
  rw [enter, if_neg (by omega), ok_bind, ofItems_eq_map, List.map_map]
  rfl

/-- A list is read back if its items are. -/
theorem readList_nodeOf (hlevels : 1 < levels) {item : Node → Except Fault α}
    {document : α → Value} {items : List α}
    (hitems : ∀ i ∈ items, item (nodeOf (levels - 1) (document i)) = .ok i) :
    readList item (nodeOf levels (.array (items.map document))) = .ok items := by
  have hread : ((items.map document).map (nodeOf (levels - 1))).mapM item = .ok items := by
    rw [List.map_map, List.mapM_map]
    exact (mapM_eq_ok (g := id) hitems).trans (by rw [List.map_id])
  rw [readList, items_nodeOf hlevels, ok_bind, hread]
  rfl

/-- Entries that were written are read one by one. -/
theorem readMap_entries (hlevels : 1 < levels) {β : Type} {value : Node → Except Fault α}
    {document : β → Value} {content : β → α} {entries : List (String × β)}
    (hvalues : ∀ entry ∈ entries,
      value (nodeOf (levels - 1) (document entry.2)) = .ok (content entry.2)) :
    readMap value (nodeOf levels (.object (entries.map fun entry =>
      (entry.1, document entry.2)))) =
        .ok (OrderedMap.ofList (entries.map fun entry => (entry.1, content entry.2))) := by
  have hread : (namedEntries ((entries.map fun entry => (entry.1, document entry.2)).map
      fun field => (field.1, nodeOf (levels - 1) field.2))).mapM (fun (key, node) => do
        let key ← key
        return (key, ← value node)) =
          .ok (entries.map fun entry => (entry.1, content entry.2)) := by
    rw [namedEntries, List.map_map, List.map_map, List.mapM_map]
    refine mapM_eq_ok fun entry hentry => ?_
    show (do return (entry.1, ← value (nodeOf (levels - 1) (document entry.2)))) = _
    rw [hvalues entry hentry]
    rfl
  rw [readMap, fields_nodeOf hlevels, ok_bind, hread]
  rfl

/-- A map is read back, in its order, if its values are. -/
theorem readMap_nodeOf (hlevels : 1 < levels) {value : Node → Except Fault α}
    {document : α → Value} {map : OrderedMap α}
    (hvalues : ∀ entry ∈ map.entries,
      value (nodeOf (levels - 1) (document entry.2)) = .ok entry.2) :
    readMap value (nodeOf levels (.object (map.entries.map fun entry =>
      (entry.1, document entry.2)))) = .ok map := by
  have hentries : map.entries.map (fun entry => (entry.1, entry.2)) = map.entries := List.map_id _
  have hcontent : ∀ entry ∈ map.entries,
      value (nodeOf (levels - 1) (document entry.2)) = .ok (id entry.2) := hvalues
  rw [readMap_entries hlevels hcontent]
  show Except.ok (OrderedMap.ofList (map.entries.map fun entry => (entry.1, entry.2))) = _
  rw [hentries, OrderedMap.ofList_entries]

end TaskEngine.Json
