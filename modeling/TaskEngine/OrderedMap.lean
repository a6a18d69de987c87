/-!
# Ordered maps

A map from texts that remembers the order in which its keys came in.  A key that is
put in again keeps its place and takes the new value.

## Main definitions

* `OrderedMap` — a list of pairs in which no key occurs twice.
* `OrderedMap.insert`, `OrderedMap.erase`, `OrderedMap.extend` — the changes.
* `OrderedMap.get?`, `OrderedMap.contains`, `OrderedMap.keys` — what can be seen.
* `OrderedMap.mapValues` — the same keys with other values.
-/

namespace TaskEngine

/-- Replaces the value of a key in place, or appends the pair. -/
def insertPair {α : Type} (key : String) (value : α) : List (String × α) → List (String × α)
  | [] => [(key, value)]
  | (k, v) :: pairs => if k = key then (k, value) :: pairs else (k, v) :: insertPair key value pairs

/-- The keys after an insertion: a key that was not there comes last. -/
theorem map_fst_insertPair {α : Type} (key : String) (value : α) (pairs : List (String × α)) :
    (insertPair key value pairs).map Prod.fst =
      if key ∈ pairs.map Prod.fst then pairs.map Prod.fst else pairs.map Prod.fst ++ [key] := by
  induction pairs with
  | nil => simp [insertPair]
  | cons pair pairs ih =>
    obtain ⟨k, v⟩ := pair
    by_cases h : k = key
    · simp [insertPair, h]
    · have h' : ¬key = k := fun e => h e.symm
      simp only [insertPair, if_neg h, List.map_cons, ih, List.mem_cons, h', false_or]
      split <;> simp

theorem nodup_insertPair {α : Type} (key : String) (value : α) {pairs : List (String × α)}
    (h : (pairs.map Prod.fst).Nodup) : ((insertPair key value pairs).map Prod.fst).Nodup := by
  rw [map_fst_insertPair]
  split
  · exact h
  · rename_i hk
    rw [List.nodup_append]
    refine ⟨h, by simp, fun a ha b hb e => hk ?_⟩
    rw [List.mem_singleton] at hb
    rwa [← hb, ← e]

/-- A map from texts that remembers the order of its keys. -/
structure OrderedMap (α : Type) where
  /-- The pairs, in order. -/
  entries : List (String × α)
  /-- No key occurs twice. -/
  nodup : (entries.map Prod.fst).Nodup

namespace OrderedMap

variable {α β : Type}

/-- The map without entries. -/
def empty : OrderedMap α := ⟨[], List.nodup_nil⟩

instance : Inhabited (OrderedMap α) := ⟨empty⟩

instance : EmptyCollection (OrderedMap α) := ⟨empty⟩

theorem ext_entries {a b : OrderedMap α} (h : a.entries = b.entries) : a = b := by
  cases a; cases b; cases h; rfl

instance [DecidableEq α] : DecidableEq (OrderedMap α) := fun a b =>
  if h : a.entries = b.entries then isTrue (ext_entries h)
  else isFalse fun e => h (congrArg entries e)

/-- The keys, in order. -/
def keys (m : OrderedMap α) : List String := m.entries.map Prod.fst

/-- The number of entries. -/
def size (m : OrderedMap α) : Nat := m.entries.length

/-- Whether there are no entries. -/
def isEmpty (m : OrderedMap α) : Bool := m.entries.isEmpty

/-- The value of a key. -/
def get? (m : OrderedMap α) (key : String) : Option α := m.entries.lookup key

/-- Whether a key has a value. -/
def contains (m : OrderedMap α) (key : String) : Bool := (m.get? key).isSome

/-- Gives a key a value: in place if the key is there, behind all others if not. -/
def insert (m : OrderedMap α) (key : String) (value : α) : OrderedMap α :=
  ⟨insertPair key value m.entries, nodup_insertPair key value m.nodup⟩

/-- Gives a key a value unless it has one. -/
def insertNew (m : OrderedMap α) (key : String) (value : α) : OrderedMap α :=
  if m.contains key then m else m.insert key value

/-- Takes a key out; the others keep their order. -/
def erase (m : OrderedMap α) (key : String) : OrderedMap α :=
  ⟨m.entries.filter (·.1 != key), m.nodup.sublist (List.filter_sublist.map _)⟩

/-- Inserts pairs one after another. -/
def insertAll (m : OrderedMap α) (pairs : List (String × α)) : OrderedMap α :=
  pairs.foldl (fun m (key, value) => m.insert key value) m

/-- The map of a list of pairs: a repeated key keeps its first place and has its last value. -/
def ofList (pairs : List (String × α)) : OrderedMap α := empty.insertAll pairs

/-- The pairs, in order. -/
def toList (m : OrderedMap α) : List (String × α) := m.entries

/-- Inserts the entries of another map, in their order. -/
def extend (m other : OrderedMap α) : OrderedMap α := m.insertAll other.entries

/-- The map with values computed from keys and values. -/
def mapValues (f : String → α → β) (m : OrderedMap α) : OrderedMap β :=
  ⟨m.entries.map fun (key, value) => (key, f key value), by
    rw [List.map_map]
    exact m.nodup⟩

@[simp] theorem entries_empty : (empty : OrderedMap α).entries = [] := rfl

@[simp] theorem entries_insert (m : OrderedMap α) (key : String) (value : α) :
    (m.insert key value).entries = insertPair key value m.entries := rfl

@[simp] theorem keys_mapValues (f : String → α → β) (m : OrderedMap α) :
    (m.mapValues f).keys = m.keys := by
  simp [keys, mapValues, Function.comp_def]

/-- The keys after an insertion: a key that was not there comes last. -/
theorem keys_insert (m : OrderedMap α) (key : String) (value : α) :
    (m.insert key value).keys = if key ∈ m.keys then m.keys else m.keys ++ [key] :=
  map_fst_insertPair key value m.entries

end OrderedMap

end TaskEngine
