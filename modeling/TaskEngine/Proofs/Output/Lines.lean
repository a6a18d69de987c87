import TaskEngine.Capture

/-!
# Cutting output into lines

Output is cut into lines byte by byte, and every line is read as text of its own.  The same lines
come out if all bytes are read as one text first, which is then split at its newlines: the byte of
a newline never belongs to a longer character, so reading breaks off in front of it in the same
way as at the end.

## Main definitions

* `dropReturn` — a text without one carriage return at its end.
* `textLines` — the lines of a text.
* `messagesOf` — the messages that output stands for, by reading it as one text.

## Main results

* `cutLines_append` — cutting may be interrupted anywhere.
* `decodeAll_newline` — reading bytes does not look past a newline.
* `messagesOf_eq` — **lines may be cut first and read afterwards.**
-/

namespace TaskEngine

/-! ### Cutting -/

/-- Bytes are either free of newlines, or such a line in front of other bytes. -/
theorem line_induction {p : Bytes → Prop} (last : ∀ line, newline ∉ line → p line)
    (more : ∀ line bytes, newline ∉ line → p bytes → p (line ++ newline :: bytes))
    (bytes : Bytes) : p bytes := by
  -- the start of the line that has been passed is carried along
  suffices h : ∀ line, newline ∉ line → p (line ++ bytes) from h [] List.not_mem_nil
  induction bytes with
  | nil =>
    intro line hline
    rw [List.append_nil]
    exact last line hline
  | cons b bytes ih =>
    intro line hline
    by_cases hb : b = newline
    · rw [hb]
      exact more line bytes hline (ih [] List.not_mem_nil)
    · rw [List.append_cons]
      refine ih _ fun hmem => ?_
      rcases List.mem_append.1 hmem with h | h
      · exact hline h
      · exact hb (List.mem_singleton.1 h).symm

theorem cutLines_newline (bytes : Bytes) :
    cutLines (newline :: bytes) = ([] :: (cutLines bytes).1, (cutLines bytes).2) := by
  simp [cutLines]

theorem cutLines_cons {b : UInt8} (h : newline ≠ b) (bytes : Bytes) :
    cutLines (b :: bytes) = match (cutLines bytes).1 with
      | [] => ([], b :: (cutLines bytes).2)
      | line :: lines => ((b :: line) :: lines, (cutLines bytes).2) := by
  rw [cutLines]
  exact if_neg (Ne.symm h)

theorem cutLines_of_not_mem {line : Bytes} (h : newline ∉ line) : cutLines line = ([], line) := by
  induction line with
  | nil => rfl
  | cons b line ih =>
    rw [List.mem_cons, not_or] at h
    rw [cutLines_cons h.1, ih h.2]

theorem cutLines_line {line : Bytes} (h : newline ∉ line) (bytes : Bytes) :
    cutLines (line ++ newline :: bytes) = (line :: (cutLines bytes).1, (cutLines bytes).2) := by
  induction line with
  | nil => exact cutLines_newline bytes
  | cons b line ih =>
    rw [List.mem_cons, not_or] at h
    rw [List.cons_append, cutLines_cons h.1, ih h.2]

/-- The incomplete line contains no newline. -/
theorem newline_not_mem_rest (bytes : Bytes) : newline ∉ (cutLines bytes).2 := by
  induction bytes using line_induction with
  | last line h =>
    rw [cutLines_of_not_mem h]
    exact h
  | more line bytes h ih =>
    rw [cutLines_line h]
    exact ih

/-- Every newline completes a line. -/
theorem length_cutLines (bytes : Bytes) : (cutLines bytes).1.length = bytes.count newline := by
  induction bytes using line_induction with
  | last line h =>
    rw [cutLines_of_not_mem h, List.count_eq_zero_of_not_mem h]
    rfl
  | more line bytes h ih =>
    rw [cutLines_line h, List.count_append, List.count_eq_zero_of_not_mem h, List.count_cons_self,
      List.length_cons, ih, Nat.zero_add]

/-- Cutting goes on with the line that was left incomplete. -/
theorem cutLines_append (first second : Bytes) :
    cutLines (first ++ second) =
      ((cutLines first).1 ++ (cutLines ((cutLines first).2 ++ second)).1,
        (cutLines ((cutLines first).2 ++ second)).2) := by
  induction first using line_induction with
  | last line h =>
    rw [cutLines_of_not_mem h]
    rfl
  | more line bytes h ih =>
    rw [List.append_assoc, List.cons_append, cutLines_line h, cutLines_line h, ih]
    rfl

/-- The bytes end inside a line exactly if there are any and the last one is no newline. -/
theorem isEmpty_rest (bytes : Bytes) :
    (cutLines bytes).2.isEmpty = !bytes.getLast?.any (· != newline) := by
  induction bytes using line_induction with
  | last line h =>
    rw [cutLines_of_not_mem h]
    cases hlast : line.getLast? with
    | none => rw [List.getLast?_eq_none_iff.1 hlast]; rfl
    | some b =>
      have hb : b ≠ newline := fun e => h (e ▸ List.mem_of_getLast? hlast)
      have hne : line ≠ [] := fun e => by simp [e] at hlast
      rw [Option.any_some, bne_iff_ne.2 hb]
      simpa using hne
  | more line bytes h ih =>
    rw [cutLines_line h, ih]
    cases bytes with
    | nil => simp
    | cons b bytes =>
      rw [List.getLast?_append, List.getLast?_cons_cons, List.getLast?_cons, Option.some_or]

/-! ### Reading -/

theorem decodeTail_newline (more value : Nat) (rest after : Bytes) :
    decodeTail more value (rest ++ newline :: after) =
      ((decodeTail more value rest).1, (decodeTail more value rest).2 ++ newline :: after) := by
  induction more generalizing value rest with
  | zero => rfl
  | succ more ih =>
    cases rest with
    | nil => rfl
    | cons b rest =>
      rw [List.cons_append, decodeTail, decodeTail]
      split
      · exact ih _ _
      · rfl

/-- Whatever a first byte asks for, a newline does not give it. -/
theorem not_continues_newline {first : Nat} {next : Continuation}
    (h : continuation? first = some next) : ¬next.least ≤ newline.toNat := by
  rw [continuation?] at h
  repeat' split at h
  all_goals
    cases h
  all_goals decide

theorem decodeStep_newline (b : UInt8) (rest after : Bytes) :
    decodeStep b (rest ++ newline :: after) =
      ((decodeStep b rest).1, (decodeStep b rest).2 ++ newline :: after) := by
  rw [decodeStep, decodeStep]
  split
  · rfl
  · rw [decodeAfter.eq_def, decodeAfter.eq_def]
    cases hnext : continuation? b.toNat with
    | none => rfl
    | some next =>
      cases rest with
      | nil => exact if_neg fun h => not_continues_newline hnext h.1
      | cons c rest =>
        rw [List.cons_append]
        dsimp only
        split
        · exact decodeTail_newline _ _ _ _
        · rfl

/-- Reading bytes does not look past a newline. -/
theorem decodeAll_newline (bytes after : Bytes) :
    decodeAll (bytes ++ newline :: after) = decodeAll bytes ++ some '\n' :: decodeAll after := by
  induction bytes using decodeAll.induct with
  | case1 =>
    rw [List.nil_append, decodeAll, decodeAll]
    rfl
  | case2 b rest ih =>
    rw [List.cons_append, decodeAll, decodeStep_newline, ih, decodeAll]
    rfl

/-! #### Which bytes are read as a newline -/

theorem eq_of_ofNat {value : Nat} (h : Char.ofNat value = '\n') : value = 10 := by
  by_cases hvalid : value.isValidChar
  · rw [Char.ofNat, dif_pos hvalid] at h
    exact congrArg Char.toNat h
  · rw [Char.ofNat, dif_neg hvalid] at h
    exact absurd h (by decide)

/-- What the first two bytes of a character contribute is too large for a newline, at the latest
when the third is read. -/
theorem large_of_continues {first second : Nat} {next : Continuation}
    (hnext : continuation? first = some next)
    (hsecond : next.least ≤ second ∧ second ≤ next.greatest) :
    0x80 ≤ leadBits first * 0x40 + second % 0x40 ∨
      next.more ≠ 0 ∧ 2 ≤ leadBits first * 0x40 + second % 0x40 := by
  rw [continuation?] at hnext
  repeat' split at hnext
  all_goals
    cases hnext
  all_goals
    dsimp only at hsecond ⊢
    rw [leadBits]
    split
    · omega
    · split
      · omega
      · omega

theorem decodeTail_ne_newline {more value : Nat} {rest : Bytes}
    (h : 0x80 ≤ value ∨ more ≠ 0 ∧ 2 ≤ value) :
    (decodeTail more value rest).1 ≠ some '\n' := by
  induction more generalizing value rest with
  | zero =>
    intro heq
    have hvalue := eq_of_ofNat (Option.some.inj heq)
    omega
  | succ more ih =>
    cases rest with
    | nil => exact nofun
    | cons b rest =>
      rw [decodeTail]
      split
      · exact ih (Or.inl (by omega))
      · exact nofun

/-- Only a newline is read as one. -/
theorem decodeStep_ne_newline {b : UInt8} (h : newline ≠ b) (rest : Bytes) :
    (decodeStep b rest).1 ≠ some '\n' := by
  rw [decodeStep]
  split
  · intro heq
    exact h (UInt8.toNat_inj.1 (eq_of_ofNat (Option.some.inj heq)).symm)
  · rw [decodeAfter.eq_def]
    cases hnext : continuation? b.toNat with
    | none => exact nofun
    | some next =>
      cases rest with
      | nil => exact nofun
      | cons c rest =>
        dsimp only
        split
        · rename_i hc
          exact decodeTail_ne_newline (large_of_continues hnext hc)
        · exact nofun

/-- What is left behind a character was there before. -/
theorem mem_of_mem_decodeTail {more value : Nat} {rest : Bytes} {b : UInt8}
    (h : b ∈ (decodeTail more value rest).2) : b ∈ rest := by
  induction more generalizing value rest with
  | zero => exact h
  | succ more ih =>
    cases rest with
    | nil => exact h
    | cons c rest =>
      rw [decodeTail] at h
      split at h
      · exact List.mem_cons_of_mem _ (ih h)
      · exact h

theorem mem_of_mem_decodeStep {first b : UInt8} {rest : Bytes}
    (h : b ∈ (decodeStep first rest).2) : b ∈ rest := by
  rw [decodeStep] at h
  split at h
  · exact h
  · rw [decodeAfter.eq_def] at h
    cases hnext : continuation? first.toNat with
    | none =>
      rw [hnext] at h
      exact h
    | some next =>
      rw [hnext] at h
      cases rest with
      | nil => exact h
      | cons c rest =>
        dsimp only at h
        split at h
        · exact List.mem_cons_of_mem _ (mem_of_mem_decodeTail h)
        · exact h

theorem newline_not_mem_decodeAll {bytes : Bytes} (h : newline ∉ bytes) :
    some '\n' ∉ decodeAll bytes := by
  induction bytes using decodeAll.induct with
  | case1 =>
    rw [decodeAll]
    exact List.not_mem_nil
  | case2 b rest ih =>
    rw [List.mem_cons, not_or] at h
    rw [decodeAll, List.mem_cons, not_or]
    exact ⟨(decodeStep_ne_newline h.1 rest).symm, ih fun hmem => h.2 (mem_of_mem_decodeStep hmem)⟩

/-! ### Lines of a text -/

/-- A text without one carriage return at its end. -/
def dropReturn (text : List Char) : List Char :=
  if text.getLast? = some '\r' then text.dropLast else text

/-- The pieces of a text between its newlines, without the last one if that is empty. -/
def textLines (text : List Char) : List (List Char) :=
  let pieces := text.splitOn '\n'
  if pieces.getLast? = some [] then pieces.dropLast else pieces

/-- The messages that output stands for: it is read as one text and split at its newlines, and
every line loses one carriage return at its end. -/
def messagesOf (bytes : Bytes) : List String :=
  (textLines (decodeLossy bytes)).map fun line => String.ofList (dropReturn line)

theorem splitOn_decodeLossy (bytes : Bytes) :
    (decodeLossy bytes).splitOn '\n' =
      (cutLines bytes).1.map decodeLossy ++ [decodeLossy (cutLines bytes).2] := by
  have hfree : ∀ line, newline ∉ line → '\n' ∉ decodeLossy line := by
    intro line hline hmem
    obtain ⟨read, hread, heq⟩ := List.mem_map.1 hmem
    cases read with
    | none => exact absurd heq (by decide)
    | some c => exact newline_not_mem_decodeAll hline ((show c = '\n' from heq) ▸ hread)
  induction bytes using line_induction with
  | last line h =>
    rw [cutLines_of_not_mem h, List.splitOn_eq_singleton (hfree line h)]
    rfl
  | more line bytes h ih =>
    have hread : decodeLossy (line ++ newline :: bytes) =
        decodeLossy line ++ '\n' :: decodeLossy bytes := by
      rw [decodeLossy, decodeAll_newline, List.map_append, List.map_cons]
      rfl
    rw [hread, List.splitOn_append_cons_self_of_not_mem (hfree line h), ih, cutLines_line h]
    rfl

theorem decodeLossy_eq_nil {bytes : Bytes} : decodeLossy bytes = [] ↔ bytes = [] := by
  cases bytes with
  | nil => exact iff_of_true (by rw [decodeLossy, decodeAll, List.map_nil]) rfl
  | cons b bytes =>
    refine iff_of_false (fun h => ?_) (List.cons_ne_nil _ _)
    rw [decodeLossy, decodeAll] at h
    exact List.cons_ne_nil _ _ h

/-- **Lines may be cut first and read afterwards.**  What is left of an incomplete line is one
more line, unless it is empty. -/
theorem messagesOf_eq (bytes : Bytes) :
    messagesOf bytes = (cutLines bytes).1.map lineText ++
      (if (cutLines bytes).2.isEmpty then [] else [lineText (cutLines bytes).2]) := by
  have hlines : ∀ lines : List Bytes,
      (lines.map decodeLossy).map (fun line => String.ofList (dropReturn line)) =
        lines.map lineText := fun lines => List.map_map
  rw [messagesOf, textLines, splitOn_decodeLossy]
  rw [List.getLast?_concat, List.dropLast_concat]
  cases hrest : (cutLines bytes).2 with
  | nil =>
    rw [if_pos (congrArg some (decodeLossy_eq_nil.2 rfl)), hlines]
    exact (List.append_nil _).symm
  | cons b rest =>
    have hread : some (decodeLossy (b :: rest)) ≠ some [] := fun h =>
      List.cons_ne_nil _ _ (decodeLossy_eq_nil.1 (Option.some.inj h))
    rw [if_neg hread, List.map_append, hlines]
    rfl

end TaskEngine
