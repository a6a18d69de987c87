import TaskEngine.Proofs.Options.Merging

/-!
# Reading records whose keys differ

A record is read from a list of entries.  Where no key occurs twice, reading does what one expects:
the fields that are known are found under their names, the other entries are kept in their order,
and the record is made of what is found.

## Main definitions

* `namedEntries` — entries with keys that can be read.

## Main results

* `RecordReader.build_seq` and the like — a record is put together field by field.
* `RecordReader.collect_named` — entries are either found or kept.
* `RecordReader.readFields_named`, `RecordReader.readOpen_named` — **a record of entries with
  different keys is read from the nodes under its names.**
-/

namespace TaskEngine

open DocumentNode

variable {D α β : Type}

/-- Entries with keys that can be read. -/
def namedEntries (entries : List (String × D)) : List (Except Fault String × D) :=
  entries.map fun entry => (.ok entry.1, entry.2)

@[simp] theorem ok_bind {ε : Type} (a : α) (f : α → Except ε β) : (Except.ok a >>= f) = f a := rfl

/-- What succeeds in two stages, succeeds in each of them. -/
theorem bind_eq_ok {ε : Type} {x : Except ε α} {f : α → Except ε β} {b : β} :
    (x >>= f) = .ok b ↔ ∃ a, x = .ok a ∧ f a = .ok b := by
  constructor
  · intro h
    cases x with
    | error e => cases h
    | ok a => exact ⟨a, rfl, h⟩
  · rintro ⟨a, rfl, h⟩
    exact h

theorem map_eq_ok {ε : Type} {x : Except ε α} {f : α → β} {b : β} :
    x.map f = .ok b ↔ ∃ a, x = .ok a ∧ f a = b := by
  constructor
  · intro h
    cases x with
    | error e => cases h
    | ok a => exact ⟨a, rfl, Except.ok.inj h⟩
  · rintro ⟨a, rfl, rfl⟩
    rfl

theorem mapM_eq_ok {items : List α} {f : α → Except Fault β} {g : α → β}
    (h : ∀ item ∈ items, f item = .ok (g item)) : items.mapM f = .ok (items.map g) := by
  induction items with
  | nil => rfl
  | cons item items ih =>
    have hrest := ih fun other hother => h other (List.mem_cons_of_mem item hother)
    rw [List.mapM_cons, h item List.mem_cons_self, hrest, ok_bind, ok_bind]
    rfl

namespace RecordReader

/-! ### Fields -/

section Build

variable {found : String → Option D} {name : String} {node : D} {value : D → Except Fault α}
  {content : α}

theorem build_map {reader : RecordReader D α} (h : reader.build found = .ok content) (f : α → β) :
    (f <$> reader).build found = .ok (f content) := by
  show (reader.build found).map f = _
  rw [h]
  rfl

theorem build_seq {function : RecordReader D (α → β)} {argument : RecordReader D α} {f : α → β}
    (hf : function.build found = .ok f) (h : argument.build found = .ok content) :
    (function <*> argument).build found = .ok (f content) := by
  show (do
    let f ← function.build found
    return f (← argument.build found)) = _
  rw [hf, h]
  rfl

theorem build_required (hfound : found name = some node) (hvalue : value node = .ok content) :
    (required name value).build found = .ok content := by
  rw [required]
  dsimp only
  rw [hfound]
  exact hvalue

theorem build_withDefault (hfound : found name = some node) (hvalue : value node = .ok content)
    (default : α) : (withDefault name value default).build found = .ok content := by
  rw [withDefault]
  dsimp only
  rw [hfound]
  exact hvalue

theorem check_of_ok (hvalue : value node = .ok content) : check value node = .ok () := by
  rw [check, hvalue]
  rfl

end Build

/-! ### Entries -/

variable {known : List (String × (D → Except Fault Unit))} {entries : List (String × D)}

/-- Entries with different keys are found if they are known, and kept if they are not. -/
theorem collect_named {other : String → D → Except Fault β} {kept : String × D → β}
    (hnodup : (entries.map Prod.fst).Nodup)
    (hknown : ∀ entry ∈ entries, ∀ check, known.lookup entry.1 = some check →
      check entry.2 = .ok ())
    (hother : ∀ entry ∈ entries, known.lookup entry.1 = none →
      other entry.1 entry.2 = .ok (kept entry))
    (found : List (String × D)) (hfresh : ∀ entry ∈ entries, found.lookup entry.1 = none)
    (others : List β) :
    collect known other (namedEntries entries) found others =
      .ok (found ++ entries.filter fun entry => (known.lookup entry.1).isSome,
        others ++ (entries.filter fun entry => (known.lookup entry.1).isNone).map kept) := by
  induction entries generalizing found others with
  | nil => simp [namedEntries, collect]
  | cons entry entries ih =>
    obtain ⟨key, node⟩ := entry
    rw [List.map_cons, List.nodup_cons] at hnodup
    have hlater := ih hnodup.2 (fun e he => hknown e (List.mem_cons_of_mem _ he))
      (fun e he => hother e (List.mem_cons_of_mem _ he))
    rw [namedEntries, List.map_cons, ← namedEntries, collect, ok_bind]
    cases hlookup : known.lookup key with
    | none =>
      have hkept := hother (key, node) List.mem_cons_self hlookup
      dsimp only at hkept ⊢
      rw [hkept, ok_bind, hlater found (fun e he => hfresh e (List.mem_cons_of_mem _ he))]
      simp [hlookup]
    | some check =>
      have hcheck := hknown (key, node) List.mem_cons_self check hlookup
      have hnew := hfresh (key, node) List.mem_cons_self
      dsimp only at hcheck hnew ⊢
      have hstill : ∀ e ∈ entries, (found ++ [(key, node)]).lookup e.1 = none := by
        intro e he
        have hne : e.1 ≠ key := by
          rintro rfl
          exact hnodup.1 (List.mem_map.2 ⟨e, he, rfl⟩)
        rw [List.lookup_append, hfresh e (List.mem_cons_of_mem _ he), Option.none_or,
          lookup_cons_ite, if_neg hne]
        rfl
      rw [hnew, if_neg (by simp), hcheck, ok_bind, hlater _ hstill]
      simp [hlookup]

variable [DocumentNode D] {node : D}

/-- A record is made of the nodes under its names; the other entries are passed over. -/
theorem readFields_named {reader : RecordReader D α} {record : α}
    (hnodup : (entries.map Prod.fst).Nodup)
    (hknown : ∀ entry ∈ entries, ∀ check, reader.known.lookup entry.1 = some check →
      check entry.2 = .ok ())
    (hskip : ∀ entry ∈ entries, reader.known.lookup entry.1 = none → skip entry.2 = .ok ())
    (hbuild : reader.build ((entries.filter fun entry =>
      (reader.known.lookup entry.1).isSome).lookup ·) = .ok record) :
    reader.readFields ⟨namedEntries entries, true⟩ = .ok record := by
  rw [readFields, collect_named hnodup hknown hskip [] (fun _ _ => rfl) [], ok_bind]
  exact hbuild

/-- A record is made of the nodes under its names, and of a map if the other entries are read as
those of that map. -/
theorem readOpen_named {reader : RecordReader D (OrderedMap Value → α)}
    {record : OrderedMap Value → α} {extra : OrderedMap Value}
    (hfields : fields node = .ok ⟨namedEntries entries, true⟩)
    (hnodup : (entries.map Prod.fst).Nodup)
    (hknown : ∀ entry ∈ entries, ∀ check, reader.known.lookup entry.1 = some check →
      check entry.2 = .ok ())
    (hextra : ((entries.filter fun entry => (reader.known.lookup entry.1).isNone).map
      fun entry => (entry.1, unknown entry.2)) =
        extra.entries.map fun entry => (entry.1, .ok entry.2))
    (hbuild : reader.build ((entries.filter fun entry =>
      (reader.known.lookup entry.1).isSome).lookup ·) = .ok record) :
    reader.readOpen node = .ok (record extra) := by
  let content (read : Except Fault Value) : Value := read.toOption.getD .null
  have hkept : ∀ entry ∈ entries, reader.known.lookup entry.1 = none →
      (do return (entry.1, ← unknown entry.2) : Except Fault (String × Value)) =
        .ok (entry.1, content (unknown entry.2)) := by
    intro entry hentry hnone
    have hmem : (entry.1, unknown entry.2) ∈
        extra.entries.map fun entry => (entry.1, Except.ok entry.2) := by
      rw [← hextra]
      exact List.mem_map.2 ⟨entry, List.mem_filter.2 ⟨hentry, by rw [hnone]; rfl⟩, rfl⟩
    obtain ⟨found, -, hfound⟩ := List.mem_map.1 hmem
    rw [← (Prod.mk.inj hfound).2]
    rfl
  have hothers : ((entries.filter fun entry => (reader.known.lookup entry.1).isNone).map
      fun entry => (entry.1, content (unknown entry.2))) = extra.entries := by
    have hmapped := congrArg (List.map fun entry => (entry.1, content entry.2)) hextra
    rw [List.map_map, List.map_map] at hmapped
    exact hmapped.trans (List.map_id extra.entries)
  have hcollect : collect reader.known (fun name node => do return (name, ← unknown node))
      (namedEntries entries) [] [] =
        .ok (entries.filter fun entry => (reader.known.lookup entry.1).isSome, extra.entries) := by
    rw [collect_named hnodup hknown hkept [] (fun _ _ => rfl) [], List.nil_append,
      List.nil_append, hothers]
  rw [readOpen, hfields, ok_bind, hcollect, ok_bind]
  show (do
    let record ← reader.build _
    return record (OrderedMap.ofList extra.entries)) = _
  rw [hbuild, ok_bind, OrderedMap.ofList_entries]
  rfl

end RecordReader

end TaskEngine
