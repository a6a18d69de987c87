import TaskEngine.Proofs.Documents.Records
import Mathlib.Data.List.Nodup

/-!
# Readers put together from readers

A record is read field by field, so what holds of the fields that are found holds of the record, and
a record that was written field by field is read field by field.  Both are shown along the way in
which the reader is put together, whatever the notation of the document.

## Main definitions

* `Ensures` — whatever is read from nodes of some kind has a property.
* `Descends` — what is within nodes of some kind is of another kind.
* `RecordReader.Makes` — whatever is made of nodes of some kind has a property.
* `RecordReader.Recovers` — a record is made again of the fields that it was written as.

## Main results

* `ensures_readList`, `ensures_readMap`, `RecordReader.Makes.read`,
  `RecordReader.Makes.readOpen` — **what holds of all that is found holds of what is read.**
* `RecordReader.Recovers.readFields`, `RecordReader.Recovers.readOpen` — **a record is read from the
  fields that it was written as.**
* `readTagged_named` — so is one that names its kind.
-/

namespace TaskEngine

open DocumentNode

variable {D α β : Type}

/-! ### What was put in -/

theorem mem_insertPair {key : String} {value : α} {pair : String × α} {pairs : List (String × α)}
    (h : pair ∈ insertPair key value pairs) : pair = (key, value) ∨ pair ∈ pairs := by
  induction pairs with
  | nil => exact .inl (List.mem_singleton.1 h)
  | cons first pairs ih =>
    obtain ⟨k, v⟩ := first
    rw [insertPair] at h
    split at h
    · rename_i heq
      subst heq
      exact (List.mem_cons.1 h).imp_right (List.mem_cons_of_mem _)
    · rcases List.mem_cons.1 h with rfl | hlater
      · exact .inr List.mem_cons_self
      · exact (ih hlater).imp_right (List.mem_cons_of_mem _)

theorem OrderedMap.mem_insertAll {m : OrderedMap α} {pairs : List (String × α)}
    {entry : String × α} (h : entry ∈ (m.insertAll pairs).entries) :
    entry ∈ m.entries ∨ entry ∈ pairs := by
  induction pairs generalizing m with
  | nil => exact .inl h
  | cons pair pairs ih =>
    rcases ih (m := m.insert pair.1 pair.2) h with hinserted | hlater
    · rcases mem_insertPair hinserted with rfl | hold
      · exact .inr List.mem_cons_self
      · exact .inl hold
    · exact .inr (List.mem_cons_of_mem _ hlater)

theorem OrderedMap.mem_ofList {pairs : List (String × α)} {entry : String × α}
    (h : entry ∈ (ofList pairs).entries) : entry ∈ pairs :=
  (mem_insertAll h).resolve_left List.not_mem_nil

theorem exists_of_mem_mapM {items : List α} {f : α → Except Fault β} {results : List β}
    (h : items.mapM f = .ok results) {result : β} (hresult : result ∈ results) :
    ∃ item ∈ items, f item = .ok result := by
  induction items generalizing results with
  | nil =>
    cases h
    exact absurd hresult List.not_mem_nil
  | cons item items ih =>
    rw [List.mapM_cons] at h
    obtain ⟨first, hfirst, h⟩ := bind_eq_ok.1 h
    obtain ⟨rest, hrest, h⟩ := bind_eq_ok.1 h
    cases h
    rcases List.mem_cons.1 hresult with rfl | hlater
    · exact ⟨item, List.mem_cons_self, hfirst⟩
    · obtain ⟨other, hother, hread⟩ := ih hrest hlater
      exact ⟨other, List.mem_cons_of_mem _ hother, hread⟩

/-! ### What is found -/

/-- Whatever is read from nodes of a kind has a property. -/
def Ensures (kind : D → Prop) (read : D → Except Fault α) (holds : α → Prop) : Prop :=
  ∀ node, kind node → ∀ content, read node = .ok content → holds content

/-- The nodes within nodes of a kind are of another kind. -/
structure Descends [DocumentNode D] (kind inner : D → Prop) : Prop where
  items : ∀ node, kind node → ∀ listing, items node = .ok listing →
    ∀ child ∈ listing.entries, inner child
  fields : ∀ node, kind node → ∀ listing, fields node = .ok listing →
    ∀ entry ∈ listing.entries, inner entry.2
  places : ∀ node, kind node → ∀ listing, places node = some (.ok listing) →
    ∀ child ∈ listing.entries, inner child

section Ensures

variable {kind inner : D → Prop} {read : D → Except Fault α} {holds : α → Prop}

theorem ensures_true (kind : D → Prop) (read : D → Except Fault α) :
    Ensures kind read fun _ => True :=
  fun _ _ _ _ => trivial

variable [DocumentNode D]

theorem ensures_readOptional (h : Ensures kind read holds) :
    Ensures kind (readOptional read) fun content =>
      ∀ found, content = some found → holds found := by
  rintro node hnode content hread found rfl
  rw [readOptional] at hread
  obtain ⟨isAbsent, -, hread⟩ := bind_eq_ok.1 hread
  cases isAbsent with
  | true => cases hread
  | false =>
    obtain ⟨found', hfound, hread⟩ := bind_eq_ok.1 hread
    cases hread
    exact h node hnode found hfound

variable (hdown : Descends kind inner)

include hdown

theorem ensures_readList (h : Ensures inner read holds) :
    Ensures kind (readList read) fun items => ∀ item ∈ items, holds item := by
  intro node hnode items hread item hitem
  rw [readList] at hread
  obtain ⟨listing, hlisting, hread⟩ := bind_eq_ok.1 hread
  obtain ⟨found, hfound, hread⟩ := bind_eq_ok.1 hread
  obtain ⟨-, -, hread⟩ := bind_eq_ok.1 hread
  cases hread
  obtain ⟨child, hchild, hitem⟩ := exists_of_mem_mapM hfound hitem
  exact h child (hdown.items node hnode listing hlisting child hchild) item hitem

theorem ensures_readMap (h : Ensures inner read holds) :
    Ensures kind (readMap read) fun map => ∀ entry ∈ map.entries, holds entry.2 := by
  intro node hnode map hread entry hentry
  rw [readMap] at hread
  obtain ⟨listing, hlisting, hread⟩ := bind_eq_ok.1 hread
  obtain ⟨pairs, hpairs, hread⟩ := bind_eq_ok.1 hread
  obtain ⟨-, -, hread⟩ := bind_eq_ok.1 hread
  cases hread
  obtain ⟨child, hchild, hpair⟩ := exists_of_mem_mapM hpairs (OrderedMap.mem_ofList hentry)
  obtain ⟨key, -, hpair⟩ := bind_eq_ok.1 hpair
  obtain ⟨content, hcontent, hpair⟩ := bind_eq_ok.1 hpair
  cases hpair
  exact h child.2 (hdown.fields node hnode listing hlisting child hchild) content hcontent

end Ensures

namespace RecordReader

/-- Whatever is made of nodes of a kind has a property. -/
def Makes (reader : RecordReader D α) (kind : D → Prop) (holds : α → Prop) : Prop :=
  ∀ found : String → Option D, (∀ name node, found name = some node → kind node) →
    ∀ content, reader.build found = .ok content → holds content

section Makes

variable {kind inner : D → Prop} {holds : α → Prop} {holds' : β → Prop} {name : String}
  {value : D → Except Fault α}

theorem Makes.map {reader : RecordReader D α} (h : reader.Makes kind holds) {f : α → β}
    (hf : ∀ content, holds content → holds' (f content)) : (f <$> reader).Makes kind holds' := by
  intro found hfound content hbuild
  obtain ⟨argument, hargument, rfl⟩ := map_eq_ok.1 hbuild
  exact hf argument (h found hfound argument hargument)

theorem Makes.seq {function : RecordReader D (α → β)} {argument : RecordReader D α}
    (hf : function.Makes kind fun f => ∀ content, holds content → holds' (f content))
    (h : argument.Makes kind holds) : (function <*> argument).Makes kind holds' := by
  intro found hfound content hbuild
  obtain ⟨f, hfunction, hbuild⟩ := bind_eq_ok.1 hbuild
  obtain ⟨content', hargument, hbuild⟩ := bind_eq_ok.1 hbuild
  cases hbuild
  exact hf found hfound f hfunction content' (h found hfound content' hargument)

theorem makes_required (h : Ensures kind value holds) (name : String) :
    (required name value).Makes kind holds := by
  intro found hfound content hbuild
  rw [required] at hbuild
  dsimp only at hbuild
  cases hnode : found name with
  | none =>
    rw [hnode] at hbuild
    cases hbuild
  | some node =>
    rw [hnode] at hbuild
    exact h node (hfound name node hnode) content hbuild

theorem makes_withDefault (h : Ensures kind value holds) (name : String) {default : α}
    (hdefault : holds default) : (withDefault name value default).Makes kind holds := by
  intro found hfound content hbuild
  rw [withDefault] at hbuild
  dsimp only at hbuild
  cases hnode : found name with
  | none =>
    rw [hnode] at hbuild
    cases hbuild
    exact hdefault
  | some node =>
    rw [hnode] at hbuild
    exact h node (hfound name node hnode) content hbuild

theorem makes_optional [DocumentNode D] (h : Ensures kind value holds) (name : String) :
    (optional name value).Makes kind fun content => ∀ found, content = some found → holds found :=
  makes_withDefault (ensures_readOptional h) name fun _ hnone => nomatch hnone

section Collect

variable {known : List (String × (D → Except Fault Unit))} {other : String → D → Except Fault β}
  {entries : List (Except Fault String × D)} {found : List (String × D)} {others : List β}
  {result : List (String × D) × List β}

/-- An entry is kept if it is not known, and found if it is known and passes its check. -/
theorem collect_cons_eq_ok {key : Except Fault String} {node : D}
    (h : collect known other ((key, node) :: entries) found others = .ok result) :
    ∃ name, key = .ok name ∧
      ((known.lookup name = none ∧ ∃ kept, other name node = .ok kept ∧
          collect known other entries found (others ++ [kept]) = .ok result) ∨
        ∃ check, known.lookup name = some check ∧ check node = .ok () ∧
          collect known other entries (found ++ [(name, node)]) others = .ok result) := by
  rw [collect] at h
  obtain ⟨name, hkey, hrest⟩ := bind_eq_ok.1 h
  refine ⟨name, hkey, ?_⟩
  cases hlookup : known.lookup name with
  | none =>
    rw [hlookup] at hrest
    obtain ⟨kept, hkept, hrest⟩ := bind_eq_ok.1 hrest
    exact .inl ⟨rfl, kept, hkept, hrest⟩
  | some check =>
    rw [hlookup] at hrest
    dsimp only at hrest
    split at hrest
    · cases hrest
    · obtain ⟨_, hpasses, hrest⟩ := bind_eq_ok.1 hrest
      exact .inr ⟨check, rfl, hpasses, hrest⟩

/-- Whatever is found was there. -/
theorem mem_of_collect (h : collect known other entries found others = .ok result)
    {entry : String × D} (hentry : entry ∈ result.1) :
    entry ∈ found ∨ (.ok entry.1, entry.2) ∈ entries := by
  induction entries generalizing found others with
  | nil =>
    cases h
    exact .inl hentry
  | cons first entries ih =>
    obtain ⟨key, node⟩ := first
    obtain ⟨name, rfl, ⟨-, kept, -, hrest⟩ | ⟨check, -, -, hrest⟩⟩ := collect_cons_eq_ok h
    · exact (ih hrest).imp_right (List.mem_cons_of_mem _)
    · rcases ih hrest with hbefore | hlater
      · rcases List.mem_append.1 hbefore with hold | hnew
        · exact .inl hold
        · obtain rfl := List.mem_singleton.1 hnew
          exact .inr List.mem_cons_self
      · exact .inr (List.mem_cons_of_mem _ hlater)

/-- Whatever is kept was there, and is not known. -/
theorem exists_of_mem_kept (h : collect known other entries found others = .ok result) {kept : β}
    (hkept : kept ∈ result.2) :
    kept ∈ others ∨ ∃ name node, (.ok name, node) ∈ entries ∧ known.lookup name = none ∧
      other name node = .ok kept := by
  induction entries generalizing found others with
  | nil =>
    cases h
    exact .inl hkept
  | cons first entries ih =>
    obtain ⟨key, node⟩ := first
    have hbehind : (∃ name node, (.ok name, node) ∈ entries ∧ known.lookup name = none ∧
        other name node = .ok kept) → ∃ name node', (.ok name, node') ∈ (key, node) :: entries ∧
          known.lookup name = none ∧ other name node' = .ok kept := by
      rintro ⟨name, node', hlater, hfacts⟩
      exact ⟨name, node', List.mem_cons_of_mem _ hlater, hfacts⟩
    obtain ⟨name, rfl, ⟨hnone, first, hfirst, hrest⟩ | ⟨check, -, -, hrest⟩⟩ :=
      collect_cons_eq_ok h
    · rcases ih hrest with hbefore | hlater
      · rcases List.mem_append.1 hbefore with hold | hnew
        · exact .inl hold
        · obtain rfl := List.mem_singleton.1 hnew
          exact .inr ⟨name, node, List.mem_cons_self, hnone, hfirst⟩
      · exact .inr (hbehind hlater)
    · exact (ih hrest).imp_right hbehind

/-- Whatever is known has passed its check. -/
theorem check_of_collect (h : collect known other entries found others = .ok result)
    {name : String} {node : D} (hentry : (.ok name, node) ∈ entries)
    {check : D → Except Fault Unit} (hcheck : known.lookup name = some check) :
    check node = .ok () := by
  induction entries generalizing found others with
  | nil => exact absurd hentry List.not_mem_nil
  | cons first entries ih =>
    obtain ⟨key, node'⟩ := first
    obtain ⟨name', rfl, ⟨hnone, kept, -, hrest⟩ | ⟨check', hknown, hpasses, hrest⟩⟩ :=
      collect_cons_eq_ok h
    · rcases List.mem_cons.1 hentry with hfirst | hlater
      · cases hfirst
        rw [hnone] at hcheck
        cases hcheck
      · exact ih hrest hlater
    · rcases List.mem_cons.1 hentry with hfirst | hlater
      · cases hfirst
        rw [hknown] at hcheck
        cases hcheck
        exact hpasses
      · exact ih hrest hlater

end Collect

variable [DocumentNode D] (hdown : Descends kind inner)

include hdown

/-- What holds of a record of any nodes that are found holds of a record that is read. -/
theorem Makes.read {reader : RecordReader D α} (h : reader.Makes inner holds) :
    Ensures kind reader.read holds := by
  intro node hnode content hread
  rw [RecordReader.read] at hread
  cases hplaces : places node with
  | none =>
    rw [hplaces] at hread
    obtain ⟨listing, hlisting, hread⟩ := bind_eq_ok.1 hread
    rw [readFields] at hread
    obtain ⟨⟨found, others⟩, hcollect, hread⟩ := bind_eq_ok.1 hread
    obtain ⟨-, -, hread⟩ := bind_eq_ok.1 hread
    refine h _ (fun name child hchild => ?_) content hread
    have hentry := (mem_of_collect hcollect (mem_of_lookup hchild)).resolve_left List.not_mem_nil
    exact hdown.fields node hnode listing hlisting _ hentry
  | some read =>
    rw [hplaces] at hread
    obtain ⟨listing, hlisting, hplaced⟩ := bind_eq_ok.1 hread
    subst hlisting
    rw [readPlaces] at hplaced
    obtain ⟨-, -, hplaced⟩ := bind_eq_ok.1 hplaced
    dsimp only at hplaced
    split at hplaced
    · cases hplaced
    · rename_i record hrecord
      split at hplaced
      · cases hplaced
        refine h _ (fun name child hchild => ?_) _ hrecord
        obtain ⟨⟨known, child'⟩, hzip, heq⟩ := List.mem_map.1 (mem_of_lookup hchild)
        cases heq
        exact hdown.places node hnode listing hplaces _ (List.of_mem_zip hzip).2
      · cases hplaced

/-- The same if the entries that are not known are kept: they do not have the name of a field. -/
theorem Makes.readOpen {reader : RecordReader D (OrderedMap Value → α)} {values : Value → Prop}
    (h : reader.Makes inner fun record => ∀ extra : OrderedMap Value,
      (∀ entry ∈ extra.entries, entry.1 ∉ reader.known.map Prod.fst) →
        (∀ entry ∈ extra.entries, values entry.2) → holds (record extra))
    (hunknown : Ensures inner unknown values) : Ensures kind reader.readOpen holds := by
  intro node hnode content hread
  rw [RecordReader.readOpen] at hread
  obtain ⟨listing, hlisting, hread⟩ := bind_eq_ok.1 hread
  obtain ⟨⟨found, others⟩, hcollect, hread⟩ := bind_eq_ok.1 hread
  obtain ⟨-, -, hread⟩ := bind_eq_ok.1 hread
  obtain ⟨record, hrecord, hread⟩ := bind_eq_ok.1 hread
  cases hread
  have hinner := hdown.fields node hnode listing hlisting
  have hextra : ∀ entry ∈ (OrderedMap.ofList others).entries,
      reader.known.lookup entry.1 = none ∧ values entry.2 := by
    intro entry hentry
    obtain ⟨name, child, hchild, hnone, hkept⟩ :=
      (exists_of_mem_kept hcollect (OrderedMap.mem_ofList hentry)).resolve_left List.not_mem_nil
    obtain ⟨value, hvalue, hkept⟩ := bind_eq_ok.1 hkept
    cases hkept
    exact ⟨hnone, hunknown child (hinner _ hchild) value hvalue⟩
  refine h _ (fun name child hchild => ?_) record hrecord _ (fun entry hentry hdeclared => ?_)
    fun entry hentry => (hextra entry hentry).2
  · exact hinner _
      ((mem_of_collect hcollect (mem_of_lookup hchild)).resolve_left List.not_mem_nil)
  · have hknown := (lookup_isSome_iff_mem reader.known entry.1).2 hdeclared
    rw [(hextra entry hentry).1] at hknown
    cases hknown

end Makes

/-! ### What was written -/

/-- The fields of a record that are written, of all that it has. -/
def writtenFields (fields : List (String × Option Value)) : List (String × Value) :=
  fields.filterMap fun field => field.2.map (field.1, ·)

/-- A record is made again of the fields that it was written as, where each of them is placed; those
that were left out are not found. -/
structure Recovers (place : Value → D) (reader : RecordReader D α) (content : α)
    (fields : List (String × Option Value)) : Prop where
  /-- They are the fields that the reader knows. -/
  names : fields.map Prod.fst = reader.known.map Prod.fst
  /-- Each of them passes its check. -/
  checks : ∀ known ∈ reader.known, ∃ field ∈ fields, field.1 = known.1 ∧
    ∀ value, field.2 = some value → known.2 (place value) = .ok ()
  /-- Together they make up the record. -/
  build : ∀ found : String → Option D, (∀ field ∈ fields, found field.1 = field.2.map place) →
    reader.build found = .ok content

section Recovers

variable {place : Value → D} {content : α} {fields fields' : List (String × Option Value)}
  {name : String} {read : D → Except Fault α} {value : Value}

theorem Recovers.map {reader : RecordReader D α} (h : reader.Recovers place content fields)
    (f : α → β) : (f <$> reader).Recovers place (f content) fields where
  names := h.names
  checks := h.checks
  build found hfound := build_map (h.build found hfound) f

theorem Recovers.seq {function : RecordReader D (α → β)} {argument : RecordReader D α}
    {f : α → β} (hf : function.Recovers place f fields)
    (h : argument.Recovers place content fields') :
    (function <*> argument).Recovers place (f content) (fields ++ fields') where
  names := by
    show _ = (function.known ++ argument.known).map Prod.fst
    rw [List.map_append, List.map_append, hf.names, h.names]
  checks known hknown := by
    rcases List.mem_append.1 (show known ∈ function.known ++ argument.known from hknown) with
      hfirst | hsecond
    · obtain ⟨field, hfield, hcheck⟩ := hf.checks known hfirst
      exact ⟨field, List.mem_append_left _ hfield, hcheck⟩
    · obtain ⟨field, hfield, hcheck⟩ := h.checks known hsecond
      exact ⟨field, List.mem_append_right _ hfield, hcheck⟩
  build found hfound := by
    obtain ⟨hfirst, hsecond⟩ := List.forall_mem_append.1 hfound
    exact build_seq (hf.build found hfirst) (h.build found hsecond)

theorem recovers_required (h : read (place value) = .ok content) (name : String) :
    (required name read).Recovers place content [(name, some value)] where
  names := rfl
  checks known hknown := by
    obtain rfl := List.mem_singleton.1 hknown
    refine ⟨_, List.mem_singleton_self _, rfl, ?_⟩
    rintro _ ⟨⟩
    exact check_of_ok h
  build found hfound := build_required (hfound _ (List.mem_singleton_self _)) h

theorem recovers_withDefault (h : read (place value) = .ok content) (name : String) (default : α) :
    (withDefault name read default).Recovers place content [(name, some value)] where
  names := rfl
  checks known hknown := by
    obtain rfl := List.mem_singleton.1 hknown
    refine ⟨_, List.mem_singleton_self _, rfl, ?_⟩
    rintro _ ⟨⟩
    exact check_of_ok h
  build found hfound := build_withDefault (hfound _ (List.mem_singleton_self _)) h default

theorem recovers_leftOut (read : D → Except Fault α) (name : String) (default : α) :
    (withDefault name read default).Recovers place default [(name, none)] where
  names := rfl
  checks known hknown := by
    obtain rfl := List.mem_singleton.1 hknown
    exact ⟨_, List.mem_singleton_self _, rfl, fun _ hnone => nomatch hnone⟩
  build found hfound := by
    have hnone : found name = none := hfound _ (List.mem_singleton_self _)
    rw [withDefault]
    dsimp only
    rw [hnone]

variable {reader : RecordReader D α} {entries : List (String × Value)}

theorem Recovers.mem_known (h : reader.Recovers place content fields) {entry : String × Value}
    (hentry : entry ∈ writtenFields fields) : entry.1 ∈ reader.known.map Prod.fst := by
  obtain ⟨field, hfield, hwritten⟩ := List.mem_filterMap.1 hentry
  obtain ⟨value, hvalue, rfl⟩ := Option.map_eq_some_iff.1 hwritten
  rw [← h.names]
  exact List.mem_map_of_mem hfield

theorem Recovers.isSome_lookup (h : reader.Recovers place content fields) :
    ∀ entry ∈ writtenFields fields, (reader.known.lookup entry.1).isSome = true :=
  fun _ hentry => (lookup_isSome_iff_mem _ _).2 (h.mem_known hentry)

/-- Fields with different names pass the check that their names stand for. -/
theorem Recovers.check_written (h : reader.Recovers place content fields)
    (hnodup : (reader.known.map Prod.fst).Nodup) {entry : String × Value}
    (hentry : entry ∈ writtenFields fields) {check : D → Except Fault Unit}
    (hcheck : reader.known.lookup entry.1 = some check) : check (place entry.2) = .ok () := by
  obtain ⟨field, hfield, hwritten⟩ := List.mem_filterMap.1 hentry
  obtain ⟨value, hvalue, rfl⟩ := Option.map_eq_some_iff.1 hwritten
  obtain ⟨field', hfield', hname, hpasses⟩ := h.checks _ (mem_of_lookup hcheck)
  rw [← h.names] at hnodup
  have hsame : field' = field := List.inj_on_of_nodup_map hnodup hfield' hfield hname
  rw [hsame] at hpasses
  exact hpasses value hvalue

/-- Among entries with different keys, the fields that were written are found. -/
theorem Recovers.build_entries (h : reader.Recovers place content fields)
    (hnodup : (reader.known.map Prod.fst).Nodup) (hkeys : (entries.map Prod.fst).Nodup)
    (hknown : (entries.filter fun entry => (reader.known.lookup entry.1).isSome) =
      writtenFields fields) :
    reader.build (((entries.map fun entry => (entry.1, place entry.2)).filter fun entry =>
      (reader.known.lookup entry.1).isSome).lookup ·) = .ok content := by
  refine h.build _ fun field hfield => ?_
  have hplaced : ((entries.map fun entry => (entry.1, place entry.2)).filter fun entry =>
      (reader.known.lookup entry.1).isSome) =
        (writtenFields fields).map fun entry => (entry.1, place entry.2) := by
    rw [List.filter_map, ← hknown]
    rfl
  have hwrittenKeys : (((writtenFields fields).map fun entry =>
      (entry.1, place entry.2)).map Prod.fst).Nodup := by
    rw [List.map_map, ← hknown]
    exact hkeys.sublist (List.filter_sublist.map _)
  rw [hplaced]
  obtain ⟨name, value?⟩ := field
  cases value? with
  | some value =>
    have hwritten : (name, value) ∈ writtenFields fields :=
      List.mem_filterMap.2 ⟨(name, some value), hfield, rfl⟩
    exact lookup_of_mem hwrittenKeys (List.mem_map.2 ⟨_, hwritten, rfl⟩)
  | none =>
    refine lookup_eq_none_of_notMem fun hmem => ?_
    obtain ⟨placed, hplaced, hname⟩ := List.mem_map.1 hmem
    obtain ⟨entry, hentry, rfl⟩ := List.mem_map.1 hplaced
    obtain ⟨field, hother, hwritten⟩ := List.mem_filterMap.1 hentry
    obtain ⟨value, hvalue, rfl⟩ := Option.map_eq_some_iff.1 hwritten
    -- a field that was left out has a name of its own
    rw [← h.names] at hnodup
    have hsame : field = (name, none) := List.inj_on_of_nodup_map hnodup hother hfield hname
    rw [hsame] at hvalue
    cases hvalue

theorem nodup_writtenFields (h : (fields.map Prod.fst).Nodup) :
    ((writtenFields fields).map Prod.fst).Nodup := by
  have hsublist : ((writtenFields fields).map Prod.fst).Sublist (fields.map Prod.fst) := by
    clear h
    induction fields with
    | nil => exact List.Sublist.slnil
    | cons field fields ih =>
      obtain ⟨name, value?⟩ := field
      cases value? with
      | none => exact ih.cons name
      | some value => exact ih.cons_cons name
  exact h.sublist hsublist

section Around

variable {reader : RecordReader D (OrderedMap Value → α)} {record : OrderedMap Value → α}
  {front back : List (String × Value)} {extra : OrderedMap Value}
  (h : reader.Recovers place record fields) (hnodup : (reader.known.map Prod.fst).Nodup)
  (hwritten : writtenFields fields = front ++ back)
  (hapart : ∀ entry ∈ extra.entries, entry.1 ∉ reader.known.map Prod.fst)

include h hwritten hapart

include hnodup in
/-- Entries that are not known may be written among the fields: no key occurs twice. -/
theorem Recovers.nodup_around : ((front ++ extra.entries ++ back).map Prod.fst).Nodup := by
  have hfields : ((front ++ back).map Prod.fst).Nodup := by
    rw [← hwritten]
    exact nodup_writtenFields (h.names ▸ hnodup)
  have hknown : ∀ name ∈ (front ++ back).map Prod.fst, name ∉ extra.entries.map Prod.fst := by
    intro name hname hextra
    rw [← hwritten] at hname
    obtain ⟨entry, hentry, rfl⟩ := List.mem_map.1 hextra
    obtain ⟨written, hmem, heq⟩ := List.mem_map.1 hname
    exact hapart entry hentry (heq ▸ h.mem_known hmem)
  simp only [List.map_append, List.nodup_append, List.mem_append] at hfields hknown ⊢
  refine ⟨⟨hfields.1, extra.nodup, fun a ha b hb e => ?_⟩, hfields.2.1, fun a ha b hb e => ?_⟩
  · exact hknown a (.inl ha) (e ▸ hb)
  · rcases ha with hfront | hextra
    · exact hfields.2.2 a hfront b hb e
    · exact hknown b (.inr hb) (e ▸ hextra)

/-- The fields among the entries are those that are known. -/
theorem Recovers.filter_known : ((front ++ extra.entries ++ back).filter fun entry =>
    (reader.known.lookup entry.1).isSome) = writtenFields fields := by
  have hextra : (extra.entries.filter fun entry => (reader.known.lookup entry.1).isSome) = [] :=
    List.filter_eq_nil_iff.2 fun entry hentry => by
      simp [lookup_eq_none_of_notMem (hapart entry hentry)]
  obtain ⟨hfront, hback⟩ := List.forall_mem_append.1 (hwritten ▸ h.isSome_lookup)
  rw [List.filter_append, List.filter_append, hextra, List.filter_eq_self.2 hfront,
    List.filter_eq_self.2 hback, List.append_nil, hwritten]

/-- The other entries are those that are not. -/
theorem Recovers.filter_unknown : ((front ++ extra.entries ++ back).filter fun entry =>
    (reader.known.lookup entry.1).isNone) = extra.entries := by
  have hnone : ∀ {entries : List (String × Value)},
      (∀ entry ∈ entries, (reader.known.lookup entry.1).isSome = true) →
        (entries.filter fun entry => (reader.known.lookup entry.1).isNone) = [] :=
    fun hall => List.filter_eq_nil_iff.2 fun entry hentry => by
      rw [Option.isNone_iff_eq_none, ← Option.not_isSome_iff_eq_none, not_not]
      exact hall entry hentry
  have hextra : (extra.entries.filter fun entry =>
      (reader.known.lookup entry.1).isNone) = extra.entries :=
    List.filter_eq_self.2 fun entry hentry => by
      rw [lookup_eq_none_of_notMem (hapart entry hentry)]
      rfl
  obtain ⟨hfront, hback⟩ := List.forall_mem_append.1 (hwritten ▸ h.isSome_lookup)
  rw [List.filter_append, List.filter_append, hextra, hnone hfront, hnone hback, List.nil_append,
    List.append_nil]

variable [DocumentNode D]

include hnodup in
/-- **A record is read back with the entries that it does not know.** -/
theorem Recovers.readOpen {node : D}
    (hfields : DocumentNode.fields node = .ok ⟨namedEntries
      ((front ++ extra.entries ++ back).map fun entry => (entry.1, place entry.2)), true⟩)
    (hunknown : ∀ entry ∈ extra.entries, unknown (place entry.2) = .ok entry.2) :
    reader.readOpen node = .ok (record extra) := by
  have hkeys := h.nodup_around hnodup hwritten hapart
  have hknown := h.filter_known hwritten hapart
  refine readOpen_named hfields ?_ ?_ ?_ (h.build_entries hnodup hkeys hknown)
  · rw [List.map_map]
    exact hkeys
  · intro entry hentry check hcheck
    obtain ⟨written, hmem, rfl⟩ := List.mem_map.1 hentry
    refine h.check_written hnodup ?_ hcheck
    rw [← hknown]
    exact List.mem_filter.2 ⟨hmem, by rw [hcheck]; rfl⟩
  · rw [List.filter_map, List.map_map]
    show ((front ++ extra.entries ++ back).filter fun entry =>
      (reader.known.lookup entry.1).isNone).map (fun entry =>
        (entry.1, unknown (place entry.2))) = _
    rw [h.filter_unknown hwritten hapart]
    exact List.map_congr_left fun entry hentry => by rw [hunknown entry hentry]

end Around

variable [DocumentNode D]

/-- **A record is read from the fields that it was written as.** -/
theorem Recovers.readFields (h : reader.Recovers place content fields)
    (hnodup : (reader.known.map Prod.fst).Nodup) :
    reader.readFields ⟨namedEntries ((writtenFields fields).map fun entry =>
      (entry.1, place entry.2)), true⟩ = .ok content := by
  have hkeys : ((writtenFields fields).map Prod.fst).Nodup := nodup_writtenFields (h.names ▸ hnodup)
  refine readFields_named ?_ ?_ ?_
    (h.build_entries hnodup hkeys (List.filter_eq_self.2 h.isSome_lookup))
  · rw [List.map_map]
    exact hkeys
  · intro entry hentry check hcheck
    obtain ⟨written, hwritten, rfl⟩ := List.mem_map.1 hentry
    exact h.check_written hnodup hwritten hcheck
  · intro entry hentry hnone
    obtain ⟨written, hwritten, rfl⟩ := List.mem_map.1 hentry
    have hsome := h.isSome_lookup written hwritten
    dsimp only at hnone
    rw [hnone] at hsome
    cases hsome

end Recovers

end RecordReader

/-! ### Tagged records -/

section Tagged

variable [DocumentNode D] {tag : String} {kinds : List (String × RecordReader Value α)}
  {place : Value → D} {entries : List (String × Value)}

/-- Entries behind the one that names the kind are kept aside as they are. -/
theorem collectTagged_named (haside : ∀ entry ∈ entries, entry.1 ≠ tag ∧
      aside (place entry.2) = .ok entry.2)
    (kind : Option (RecordReader Value α)) (kept : List (FieldKey × Value)) :
    collectTagged tag kinds (entries.map fun entry => (.ok (.named entry.1), place entry.2)) kind
      kept = .ok (kind, kept ++ entries.map fun entry => (.named entry.1, entry.2)) := by
  induction entries generalizing kept with
  | nil => rw [List.map_nil, collectTagged, List.map_nil, List.append_nil]
  | cons entry entries ih =>
    obtain ⟨⟨hne, hread⟩, hrest⟩ := List.forall_mem_cons.1 haside
    rw [List.map_cons, collectTagged, ok_bind]
    dsimp only
    rw [if_neg hne, hread, ok_bind, ih hrest, List.append_assoc]
    rfl

/-- A record that names its kind first is read as one of that kind. -/
theorem readTagged_named {node : D} {name : String} {reader : RecordReader Value α}
    {value : Value} (hplaces : taggedPlaces node = none)
    (hentries : asideKey node = .ok ⟨((tag, value) :: entries).map fun entry =>
      (.ok (.named entry.1), place entry.2), true⟩)
    (hname : text (place value) = .ok name) (hkind : kinds.lookup name = some reader)
    (haside : ∀ entry ∈ entries, entry.1 ≠ tag ∧ aside (place entry.2) = .ok entry.2) :
    readTagged tag kinds node = reader.readFields ⟨namedEntries entries, true⟩ := by
  have hcollect : collectTagged tag kinds (((tag, value) :: entries).map fun entry =>
      (.ok (.named entry.1), place entry.2)) none [] =
        .ok (some reader, entries.map fun entry => (.named entry.1, entry.2)) := by
    rw [List.map_cons, collectTagged, ok_bind]
    dsimp only
    rw [if_pos rfl, if_neg (by simp), hname, ok_bind, kindNamed, hkind]
    exact collectTagged_named haside (some reader) []
  have hnamed : (entries.map fun entry => (FieldKey.named entry.1, entry.2)).filterMap
      (nameEntry reader) = namedEntries entries := by
    rw [List.filterMap_map, namedEntries, ← List.filterMap_eq_map]
    rfl
  rw [readTagged, hplaces]
  dsimp only
  rw [hentries, ok_bind, hcollect, ok_bind]
  show reader.readFields ⟨_, true⟩ = _
  rw [hnamed]

end Tagged

end TaskEngine
