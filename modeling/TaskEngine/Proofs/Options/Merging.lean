import TaskEngine.Schema
import Mathlib.Data.List.Basic

/-!
# What a merged map looks like

An ordered map is seen through its keys, in order, and the value of each.  Insertions, defaults
and new values are described by what they do to both.

## Main definitions

* `lastValue?` — the value that a list of pairs leaves a key with.
* `newNames` — the names of a list that are not known yet, each at its first place.
* `Schema.default?`, `Schema.defaultNames` — the options of a schema that have a default.

## Main results

* `OrderedMap.get?_insertAll`, `OrderedMap.keys_insertAll` — pairs inserted one after another.
* `OrderedMap.extend_insertAll` — pairs collected first and put in later.
* `OrderedMap.extend_assoc` — three maps, of which two are put together first.
* `OrderedMap.entries_eq`, `OrderedMap.ext_get?` — a map is its keys, each with its value.
* `Schema.get?_fillDefaults`, `Schema.keys_fillDefaults`, `Schema.entries_fillDefaults` — defaults
  put behind.
-/

namespace TaskEngine

variable {α β : Type}

/-- The value that pairs leave a key with: that of the last of its pairs. -/
def lastValue? (pairs : List (String × α)) (key : String) : Option α := pairs.reverse.lookup key

/-- The names that are not known yet, each at its first place. -/
def newNames (known names : List String) : List String := (names.filter (· ∉ known)).eraseDups

theorem lookup_cons_ite (pair : String × α) (pairs : List (String × α)) (key : String) :
    (pair :: pairs).lookup key = if key = pair.1 then some pair.2 else pairs.lookup key := by
  rw [List.lookup_cons]
  by_cases h : key = pair.1
  · rw [if_pos h, beq_iff_eq.2 h]
  · rw [if_neg h, beq_eq_false_iff_ne.2 h]

theorem lookup_isSome_iff_mem (pairs : List (String × α)) (key : String) :
    (pairs.lookup key).isSome = true ↔ key ∈ pairs.map Prod.fst := by
  rw [List.lookup_isSome_iff, List.mem_map]
  exact exists_congr fun pair => and_congr_right fun _ => beq_iff_eq.trans eq_comm

theorem lookup_eq_none_of_notMem {pairs : List (String × α)} {key : String}
    (h : key ∉ pairs.map Prod.fst) : pairs.lookup key = none := by
  rwa [← lookup_isSome_iff_mem, Option.not_isSome_iff_eq_none] at h

theorem mem_of_lookup {pairs : List (String × α)} {key : String} {value : α}
    (h : pairs.lookup key = some value) : (key, value) ∈ pairs := by
  obtain ⟨front, back, rfl, -⟩ := List.lookup_eq_some_iff.1 h
  exact List.mem_append_right _ List.mem_cons_self

theorem lookup_of_mem {pairs : List (String × α)} (hnodup : (pairs.map Prod.fst).Nodup)
    {pair : String × α} (h : pair ∈ pairs) : pairs.lookup pair.1 = some pair.2 := by
  induction pairs with
  | nil => exact absurd h List.not_mem_nil
  | cons first pairs ih =>
    rw [List.map_cons, List.nodup_cons] at hnodup
    rw [lookup_cons_ite]
    rcases List.mem_cons.1 h with rfl | hlater
    · exact if_pos rfl
    · have hne : pair.1 ≠ first.1 := fun heq =>
        hnodup.1 (heq ▸ List.mem_map.2 ⟨pair, hlater, rfl⟩)
      rw [if_neg hne, ih hnodup.2 hlater]

/-- Values that are computed from keys and values are found under the same keys. -/
theorem lookup_map_value (f : String → α → β) (pairs : List (String × α)) (key : String) :
    (pairs.map fun pair => (pair.1, f pair.1 pair.2)).lookup key =
      (pairs.lookup key).map (f key) := by
  induction pairs with
  | nil => rfl
  | cons pair pairs ih =>
    rw [List.map_cons, lookup_cons_ite, lookup_cons_ite, ih]
    by_cases hkey : key = pair.1
    · rw [if_pos hkey, if_pos hkey, Option.map_some, hkey]
    · rw [if_neg hkey, if_neg hkey]

theorem lastValue?_cons (pair : String × α) (pairs : List (String × α)) (key : String) :
    lastValue? (pair :: pairs) key =
      (lastValue? pairs key).or (if key = pair.1 then some pair.2 else none) := by
  rw [lastValue?, List.reverse_cons, List.lookup_append, lookup_cons_ite]
  rfl

@[simp] theorem newNames_nil (known : List String) : newNames known [] = [] := rfl

theorem newNames_cons_of_mem {known : List String} {name : String} (h : name ∈ known)
    (names : List String) : newNames known (name :: names) = newNames known names := by
  simp [newNames, h]

theorem newNames_cons_of_notMem {known : List String} {name : String} (h : name ∉ known)
    (names : List String) :
    newNames known (name :: names) = name :: newNames (known ++ [name]) names := by
  have hfilter : (names.filter (· ∉ known)).filter (fun other => !other == name) =
      names.filter (· ∉ known ++ [name]) := by
    rw [List.filter_filter]
    refine List.filter_congr fun other _ => ?_
    by_cases hother : other = name <;> simp [hother]
  simp only [newNames, List.filter_cons, h, not_false_eq_true, decide_true, if_true,
    List.eraseDups_cons, hfilter]

theorem mem_newNames {known names : List String} {name : String} :
    name ∈ newNames known names ↔ name ∈ names ∧ name ∉ known := by
  simp [newNames, List.mem_eraseDups]

/-! ### Looking up pairs -/

theorem lookup_insertPair (key : String) (value : α) (pairs : List (String × α)) (k : String) :
    (insertPair key value pairs).lookup k = if k = key then some value else pairs.lookup k := by
  induction pairs with
  | nil => rw [insertPair, lookup_cons_ite]
  | cons pair pairs ih =>
    obtain ⟨k', v⟩ := pair
    by_cases hkey : k' = key
    · rw [insertPair, if_pos hkey, lookup_cons_ite, lookup_cons_ite, hkey]
      by_cases hk : k = key
      · rw [if_pos hk, if_pos hk]
      · rw [if_neg hk, if_neg hk, if_neg hk]
    · rw [insertPair, if_neg hkey, lookup_cons_ite, lookup_cons_ite, ih]
      by_cases hk : k = k'
      · rw [if_pos hk, if_neg fun e => hkey (hk.symm.trans e), if_pos hk]
      · rw [if_neg hk, if_neg hk]

theorem insertPair_insertPair_self (key : String) (value value' : α) (pairs : List (String × α)) :
    insertPair key value (insertPair key value' pairs) = insertPair key value pairs := by
  induction pairs with
  | nil => simp only [insertPair, if_true]
  | cons pair pairs ih =>
    obtain ⟨k, v⟩ := pair
    by_cases hk : k = key
    · simp only [insertPair, if_pos hk]
    · simp only [insertPair, if_neg hk, ih]

theorem insertPair_of_notMem {key : String} {pairs : List (String × α)}
    (h : key ∉ pairs.map Prod.fst) (value : α) :
    insertPair key value pairs = pairs ++ [(key, value)] := by
  induction pairs with
  | nil => rfl
  | cons pair pairs ih =>
    rw [List.map_cons, List.mem_cons, not_or] at h
    rw [insertPair, if_neg (Ne.symm h.1), ih h.2, List.cons_append]

/-- A key that is there already keeps its place, so another one may come before or after it. -/
theorem insertPair_comm {key key' : String} {pairs : List (String × α)}
    (hkey : key ∈ pairs.map Prod.fst) (hne : key ≠ key') (value value' : α) :
    insertPair key value (insertPair key' value' pairs) =
      insertPair key' value' (insertPair key value pairs) := by
  induction pairs with
  | nil => exact absurd hkey List.not_mem_nil
  | cons pair pairs ih =>
    obtain ⟨k, v⟩ := pair
    by_cases hk : k = key
    · have hk' : k ≠ key' := fun e => hne (hk.symm.trans e)
      simp only [insertPair, if_pos hk, if_neg hk']
    · by_cases hk' : k = key'
      · simp only [insertPair, if_neg hk, if_pos hk']
      · have hlater : key ∈ pairs.map Prod.fst :=
          (List.mem_cons.1 hkey).resolve_left fun e => hk e.symm
        simp only [insertPair, if_neg hk, if_neg hk', ih hlater]

/-- Where no key occurs twice, what is done with the pairs can be done key by key. -/
theorem flatMap_lookup {pairs : List (String × α)} (h : (pairs.map Prod.fst).Nodup)
    (f : α → List β) :
    (pairs.flatMap fun pair => f pair.2) =
      (pairs.map Prod.fst).flatMap fun key => ((pairs.lookup key).map f).getD [] := by
  rw [List.flatMap_map]
  refine List.flatMap_congr fun pair hpair => ?_
  rw [lookup_of_mem h hpair]
  rfl

/-- Where no key occurs twice, the pairs are the keys, each with its value. -/
theorem eq_filterMap_lookup {pairs : List (String × α)} (h : (pairs.map Prod.fst).Nodup) :
    pairs = (pairs.map Prod.fst).filterMap fun key => (pairs.lookup key).map (key, ·) := by
  rw [List.filterMap_map]
  refine List.filterMap_some.symm.trans (List.filterMap_congr fun pair hpair => ?_)
  rw [Function.comp_apply, lookup_of_mem h hpair]
  rfl

namespace OrderedMap

variable (m : OrderedMap α)

theorem contains_iff {key : String} : m.contains key = true ↔ key ∈ m.keys :=
  lookup_isSome_iff_mem m.entries key

theorem get?_insert (key : String) (value : α) (k : String) :
    (m.insert key value).get? k = if k = key then some value else m.get? k :=
  lookup_insertPair key value m.entries k

@[simp] theorem get?_insert_self (key : String) (value : α) :
    (m.insert key value).get? key = some value := by
  rw [get?_insert, if_pos rfl]

theorem get?_insert_of_ne {key k : String} (h : k ≠ key) (value : α) :
    (m.insert key value).get? k = m.get? k := by
  rw [get?_insert, if_neg h]

theorem get?_insertNew (key : String) (value : α) (name : String) :
    (m.insertNew key value).get? name =
      (m.get? name).or (if name = key then some value else none) := by
  rw [insertNew, contains]
  cases hkey : m.get? key with
  | none =>
    rw [Option.isSome_none, if_neg Bool.false_ne_true, get?_insert]
    by_cases hname : name = key
    · rw [if_pos hname, if_pos hname, hname, hkey, Option.none_or]
    · rw [if_neg hname, if_neg hname, Option.or_none]
  | some present =>
    rw [Option.isSome_some, if_pos rfl]
    by_cases hname : name = key
    · rw [hname, hkey, Option.some_or]
    · rw [if_neg hname, Option.or_none]

theorem insertAll_append (pairs more : List (String × α)) :
    m.insertAll (pairs ++ more) = (m.insertAll pairs).insertAll more :=
  List.foldl_append

theorem get?_insertAll (pairs : List (String × α)) (key : String) :
    (m.insertAll pairs).get? key = (lastValue? pairs key).or (m.get? key) := by
  induction pairs generalizing m with
  | nil => rfl
  | cons pair pairs ih =>
    show ((m.insert pair.1 pair.2).insertAll pairs).get? key = _
    rw [ih, get?_insert, lastValue?_cons, Option.or_assoc]
    by_cases hkey : key = pair.1 <;> simp [hkey]

theorem keys_insertAll (pairs : List (String × α)) :
    (m.insertAll pairs).keys = m.keys ++ newNames m.keys (pairs.map Prod.fst) := by
  induction pairs generalizing m with
  | nil => simp [insertAll]
  | cons pair pairs ih =>
    show ((m.insert pair.1 pair.2).insertAll pairs).keys = _
    rw [ih, keys_insert, List.map_cons]
    by_cases hkey : pair.1 ∈ m.keys
    · rw [if_pos hkey, newNames_cons_of_mem hkey]
    · rw [if_neg hkey, newNames_cons_of_notMem hkey, List.append_assoc, List.singleton_append]

/-- Pairs with new keys come behind. -/
theorem entries_insertAll {pairs : List (String × α)}
    (h : ((m.entries ++ pairs).map Prod.fst).Nodup) :
    (m.insertAll pairs).entries = m.entries ++ pairs := by
  induction pairs generalizing m with
  | nil => exact (List.append_nil _).symm
  | cons pair pairs ih =>
    have hnew : pair.1 ∉ m.entries.map Prod.fst := by
      rw [List.map_append, List.map_cons, List.nodup_append] at h
      exact fun hmem => h.2.2 pair.1 hmem pair.1 List.mem_cons_self rfl
    have hinsert : (m.insert pair.1 pair.2).entries = m.entries ++ [pair] :=
      insertPair_of_notMem hnew pair.2
    show ((m.insert pair.1 pair.2).insertAll pairs).entries = _
    rw [ih, hinsert, List.append_assoc, List.singleton_append]
    rwa [hinsert, List.append_assoc, List.singleton_append]

/-- The entries of a map make that map again. -/
@[simp] theorem ofList_entries : ofList m.entries = m :=
  ext_entries (entries_insertAll empty m.nodup)

theorem insertAll_insert_of_mem {key : String} {pairs : List (String × α)} (hkey : key ∈ m.keys)
    (hpairs : key ∉ pairs.map Prod.fst) (value : α) :
    (m.insert key value).insertAll pairs = (m.insertAll pairs).insert key value := by
  induction pairs generalizing m with
  | nil => rfl
  | cons pair pairs ih =>
    rw [List.map_cons, List.mem_cons, not_or] at hpairs
    have hcomm : (m.insert key value).insert pair.1 pair.2 =
        (m.insert pair.1 pair.2).insert key value :=
      ext_entries (insertPair_comm hkey hpairs.1 value pair.2).symm
    have hkey' : key ∈ (m.insert pair.1 pair.2).keys := by
      rw [keys_insert]
      split
      · exact hkey
      · exact List.mem_append_left _ hkey
    show ((m.insert key value).insert pair.1 pair.2).insertAll pairs = _
    rw [hcomm, ih _ hkey' hpairs.2]
    rfl

theorem extend_insert (other : OrderedMap α) (key : String) (value : α) :
    m.extend (other.insert key value) = (m.extend other).insert key value := by
  obtain ⟨pairs, hnodup⟩ := other
  show m.insertAll (insertPair key value pairs) = (m.insertAll pairs).insert key value
  induction pairs generalizing m with
  | nil => rfl
  | cons pair pairs ih =>
    obtain ⟨k, v⟩ := pair
    rw [List.map_cons, List.nodup_cons] at hnodup
    by_cases hk : k = key
    · -- the pairs behind do not touch the key, which has its place before them
      subst hk
      have hkey : k ∈ (m.insert k v).keys := by
        rw [← contains_iff, contains, get?_insert_self, Option.isSome_some]
      have hself : (m.insert k v).insert k value = m.insert k value :=
        ext_entries (insertPair_insertPair_self k value v m.entries)
      rw [insertPair, if_pos rfl]
      show (m.insert k value).insertAll pairs = ((m.insert k v).insertAll pairs).insert k value
      rw [← insertAll_insert_of_mem _ hkey hnodup.1, hself]
    · rw [insertPair, if_neg hk]
      exact ih (m.insert k v) hnodup.2

/-- Pairs may be collected first and put in later. -/
theorem extend_insertAll (other : OrderedMap α) (pairs : List (String × α)) :
    m.extend (other.insertAll pairs) = m.insertAll (other.entries ++ pairs) := by
  rw [insertAll_append]
  show _ = (m.extend other).insertAll pairs
  induction pairs generalizing other with
  | nil => rfl
  | cons pair pairs ih =>
    show m.extend ((other.insert pair.1 pair.2).insertAll pairs) = _
    rw [ih, extend_insert]
    rfl

/-- Of three maps, it does not matter which two are put together first. -/
theorem extend_assoc (other last : OrderedMap α) :
    (m.extend other).extend last = m.extend (other.extend last) := by
  rw [show other.extend last = other.insertAll last.entries from rfl, extend_insertAll,
    insertAll_append]
  rfl

theorem get?_mapValues (f : String → α → β) (key : String) :
    (m.mapValues f).get? key = (m.get? key).map (f key) :=
  lookup_map_value f m.entries key

/-- What is done with the values can be done key by key. -/
theorem flatMap_entries (f : α → List β) :
    (m.entries.flatMap fun entry => f entry.2) =
      m.keys.flatMap fun key => ((m.get? key).map f).getD [] :=
  flatMap_lookup m.nodup f

/-- The entries are the keys, each with its value. -/
theorem entries_eq : m.entries = m.keys.filterMap fun key => (m.get? key).map (key, ·) :=
  eq_filterMap_lookup m.nodup

theorem get?_of_mem {key : String} {value : α} (h : (key, value) ∈ m.entries) :
    m.get? key = some value :=
  lookup_of_mem m.nodup h

/-- Maps with the same keys in the same order and the same values are equal. -/
theorem ext_get? {m other : OrderedMap α} (hkeys : m.keys = other.keys)
    (h : ∀ key ∈ m.keys, m.get? key = other.get? key) : m = other := by
  refine ext_entries ?_
  rw [m.entries_eq, other.entries_eq, ← hkeys]
  refine List.filterMap_congr fun key hkey => ?_
  rw [h key hkey]

end OrderedMap

/-! ### Defaults -/

namespace Schema

/-- The default of an option. -/
def default? (schema : Schema) (name : String) : Option Value :=
  (schema.specs.get? name).bind OptionSpec.default

/-- The options with a default, in the order in which they are declared. -/
def defaultNames (schema : Schema) : List String :=
  (schema.specs.entries.filter (·.2.default.isSome)).map Prod.fst

/-- Puts the defaults of declarations behind options that lack them. -/
def fillFrom (specs : List (String × OptionSpec)) (options : Options) : Options :=
  specs.foldl (fun options (name, spec) => match spec.default with
    | some value => options.insertNew name value
    | none => options) options

theorem fillDefaults_eq (schema : Schema) (options : Options) :
    schema.fillDefaults options = fillFrom schema.specs.entries options := rfl

variable {specs : List (String × OptionSpec)}

theorem fillFrom_cons_none {name : String} {spec : OptionSpec} (h : spec.default = none)
    (specs : List (String × OptionSpec)) (options : Options) :
    fillFrom ((name, spec) :: specs) options = fillFrom specs options := by
  rw [fillFrom, List.foldl_cons]
  dsimp only
  rw [h]
  rfl

theorem fillFrom_cons_some {name : String} {spec : OptionSpec} {value : Value}
    (h : spec.default = some value) (specs : List (String × OptionSpec)) (options : Options) :
    fillFrom ((name, spec) :: specs) options =
      fillFrom specs (options.insertNew name value) := by
  rw [fillFrom, List.foldl_cons]
  dsimp only
  rw [h]
  rfl

theorem entries_fillFrom
    (hnodup : (specs.map Prod.fst).Nodup) (options : Options) :
    (fillFrom specs options).entries = options.entries ++
      (specs.filterMap fun declared => declared.2.default.map (declared.1, ·)).filter
        fun entry => !options.contains entry.1 := by
  induction specs generalizing options with
  | nil => exact (List.append_nil _).symm
  | cons declared specs ih =>
    obtain ⟨name, spec⟩ := declared
    rw [List.map_cons, List.nodup_cons] at hnodup
    cases hdefault : spec.default with
    | none =>
      have hhead : ((name, spec) :: specs).filterMap
          (fun declared => declared.2.default.map (declared.1, ·)) =
            specs.filterMap fun declared => declared.2.default.map (declared.1, ·) := by
        rw [List.filterMap_cons_none]
        rw [hdefault, Option.map_none]
      rw [fillFrom_cons_none hdefault, ih hnodup.2, hhead]
    | some value =>
      have hhead : ((name, spec) :: specs).filterMap
          (fun declared => declared.2.default.map (declared.1, ·)) = (name, value) ::
            specs.filterMap fun declared => declared.2.default.map (declared.1, ·) := by
        rw [List.filterMap_cons_some]
        rw [hdefault, Option.map_some]
      rw [fillFrom_cons_some hdefault, ih hnodup.2, hhead, OrderedMap.insertNew]
      by_cases hname : options.contains name = true
      · rw [if_pos hname, List.filter_cons_of_neg (by simp [hname])]
      · have hnew : name ∉ options.entries.map Prod.fst := fun h => hname (options.contains_iff.2 h)
        rw [if_neg hname, List.filter_cons_of_pos (by simp [hname]), OrderedMap.entries_insert,
          insertPair_of_notMem hnew, List.append_assoc, List.singleton_append]
        congr 2
        refine List.filter_congr fun entry hentry => ?_
        -- the names behind differ from this one, so it does not matter to them
        obtain ⟨other, hother, hmap⟩ := List.mem_filterMap.1 hentry
        obtain ⟨default, -, rfl⟩ := Option.map_eq_some_iff.1 hmap
        have hne : other.1 ≠ name := fun heq =>
          hnodup.1 (heq ▸ List.mem_map.2 ⟨other, hother, rfl⟩)
        rw [OrderedMap.contains, OrderedMap.contains, OrderedMap.get?_insert_of_ne _ hne]

theorem get?_fillFrom (hnodup : (specs.map Prod.fst).Nodup) (options : Options) (key : String) :
    (fillFrom specs options).get? key =
      (options.get? key).or ((specs.lookup key).bind OptionSpec.default) := by
  induction specs generalizing options with
  | nil => simp [fillFrom]
  | cons declared specs ih =>
    obtain ⟨name, spec⟩ := declared
    rw [List.map_cons, List.nodup_cons] at hnodup
    rw [lookup_cons_ite]
    cases hdefault : spec.default with
    | none =>
      rw [fillFrom_cons_none hdefault, ih hnodup.2]
      by_cases hkey : key = name
      · rw [hkey, lookup_eq_none_of_notMem hnodup.1, if_pos rfl, Option.bind_some, hdefault,
          Option.bind_none]
      · rw [if_neg hkey]
    | some value =>
      rw [fillFrom_cons_some hdefault, ih hnodup.2, OrderedMap.get?_insertNew, Option.or_assoc]
      by_cases hkey : key = name
      · rw [if_pos hkey, if_pos hkey, Option.bind_some, hdefault, Option.some_or]
      · rw [if_neg hkey, if_neg hkey, Option.none_or]

theorem keys_fillFrom (hnodup : (specs.map Prod.fst).Nodup) (options : Options) :
    (fillFrom specs options).keys = options.keys ++
      (((specs.filter (·.2.default.isSome)).map Prod.fst).filter (· ∉ options.keys)) := by
  have hnames : ((specs.filterMap fun declared => declared.2.default.map (declared.1, ·)).map
      Prod.fst) = (specs.filter (·.2.default.isSome)).map Prod.fst := by
    clear hnodup
    induction specs with
    | nil => rfl
    | cons declared specs ih =>
      rw [List.filterMap_cons, List.filter_cons]
      cases declared.2.default with
      | none => exact ih
      | some value => exact congrArg (declared.1 :: ·) ih
  rw [OrderedMap.keys, entries_fillFrom hnodup, List.map_append, ← hnames, List.filter_map]
  congr 2
  refine List.filter_congr fun entry _ => ?_
  simp only [Function.comp_apply, ← options.contains_iff, decide_not, Bool.decide_eq_true]

variable (schema : Schema) (options : Options)

/-- Defaults are put behind the options that are given, where those lack them. -/
theorem entries_fillDefaults :
    (schema.fillDefaults options).entries = options.entries ++
      (schema.specs.entries.filterMap fun declared => declared.2.default.map (declared.1, ·)).filter
        fun entry => !options.contains entry.1 :=
  entries_fillFrom schema.specs.nodup options

theorem get?_fillDefaults (key : String) :
    (schema.fillDefaults options).get? key = (options.get? key).or (schema.default? key) := by
  rw [fillDefaults_eq, get?_fillFrom schema.specs.nodup]
  rfl

theorem keys_fillDefaults :
    (schema.fillDefaults options).keys =
      options.keys ++ schema.defaultNames.filter (· ∉ options.keys) := by
  rw [fillDefaults_eq, keys_fillFrom schema.specs.nodup]
  rfl

end Schema

end TaskEngine
