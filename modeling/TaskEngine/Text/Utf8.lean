/-!
# UTF-8

Bytes are read as text character by character.  Where they encode none, the longest
stretch that starts like a character, or else a single byte, counts as one fault.

## Main definitions

* `Bytes` — what is written to a stream.
* `encodeChar`, `encodeText` — the bytes of a text.
* `decodeStep` — the first character or fault of some bytes.
* `decodeLossy` — the text of bytes, with a replacement character for every fault.
* `decode?` — the text of bytes without faults.
-/

namespace TaskEngine

/-- What is written to a stream. -/
abbrev Bytes := List UInt8

/-- The byte of a natural number below 256. -/
def byte (n : Nat) : UInt8 := UInt8.ofNat n

/-- The bytes of a character. -/
def encodeChar (c : Char) : Bytes :=
  let n := c.toNat
  if n < 0x80 then [byte n]
  else if n < 0x800 then [byte (0xC0 + n / 0x40), byte (0x80 + n % 0x40)]
  else if n < 0x10000 then
    [byte (0xE0 + n / 0x1000), byte (0x80 + n / 0x40 % 0x40), byte (0x80 + n % 0x40)]
  else
    [byte (0xF0 + n / 0x40000), byte (0x80 + n / 0x1000 % 0x40), byte (0x80 + n / 0x40 % 0x40),
      byte (0x80 + n % 0x40)]

/-- The bytes of a text. -/
def encodeText (text : String) : Bytes := text.toList.flatMap encodeChar

/-- The bytes that may follow the first byte of a longer character: the bounds of the second
byte, and how many more come after it. -/
structure Continuation where
  /-- The least second byte. -/
  least : Nat
  /-- The greatest second byte. -/
  greatest : Nat
  /-- How many bytes come after the second. -/
  more : Nat

/-- What has to follow a first byte that does not stand alone. -/
def continuation? (first : Nat) : Option Continuation :=
  if 0xC2 ≤ first ∧ first ≤ 0xDF then some ⟨0x80, 0xBF, 0⟩
  else if first = 0xE0 then some ⟨0xA0, 0xBF, 1⟩
  else if first = 0xED then some ⟨0x80, 0x9F, 1⟩
  else if 0xE1 ≤ first ∧ first ≤ 0xEF then some ⟨0x80, 0xBF, 1⟩
  else if first = 0xF0 then some ⟨0x90, 0xBF, 2⟩
  else if 0xF1 ≤ first ∧ first ≤ 0xF3 then some ⟨0x80, 0xBF, 2⟩
  else if first = 0xF4 then some ⟨0x80, 0x8F, 2⟩
  else none

/-- The bits that a first byte gives to its character. -/
def leadBits (first : Nat) : Nat :=
  if first < 0xE0 then first % 0x20 else if first < 0xF0 then first % 0x10 else first % 0x08

/-- Reads the bytes behind the first two of a character: the character, or none if the bytes
break off, and the bytes that follow. -/
def decodeTail : Nat → Nat → Bytes → Option Char × Bytes
  | 0, value, rest => (some (Char.ofNat value), rest)
  | _ + 1, _, [] => (none, [])
  | more + 1, value, b :: rest =>
    if 0x80 ≤ b.toNat ∧ b.toNat ≤ 0xBF then
      decodeTail more (value * 0x40 + b.toNat % 0x40) rest
    else (none, b :: rest)

/-- Reads the rest of a character behind its first byte. -/
def decodeAfter (first : Nat) (rest : Bytes) : Option Char × Bytes :=
  match continuation? first, rest with
  | none, rest => (none, rest)
  | some _, [] => (none, [])
  | some next, b :: rest =>
    if next.least ≤ b.toNat ∧ b.toNat ≤ next.greatest then
      decodeTail next.more (leadBits first * 0x40 + b.toNat % 0x40) rest
    else (none, b :: rest)

/-- The first character of some bytes, or none for a fault, and the bytes that follow. -/
def decodeStep (first : UInt8) (rest : Bytes) : Option Char × Bytes :=
  if first.toNat < 0x80 then (some (Char.ofNat first.toNat), rest)
  else decodeAfter first.toNat rest

theorem length_decodeTail_le (more value : Nat) (rest : Bytes) :
    (decodeTail more value rest).2.length ≤ rest.length := by
  fun_induction decodeTail more value rest with
  | case1 => simp
  | case2 => simp
  | case3 more value b rest h ih => simp only [List.length_cons]; omega
  | case4 => simp

theorem length_decodeStep_le (first : UInt8) (rest : Bytes) :
    (decodeStep first rest).2.length ≤ rest.length := by
  unfold decodeStep
  split
  · simp
  · unfold decodeAfter
    split
    · simp
    · simp
    · rename_i next b rest
      split
      · exact Nat.le_trans (length_decodeTail_le ..) (Nat.le_succ _)
      · simp

/-- The characters and faults of some bytes. -/
def decodeAll : Bytes → List (Option Char)
  | [] => []
  | b :: rest => (decodeStep b rest).1 :: decodeAll (decodeStep b rest).2
termination_by bytes => bytes.length
decreasing_by exact Nat.lt_succ_of_le (length_decodeStep_le b rest)

/-- What stands for a fault. -/
def replacementChar : Char := '\ufffd'

/-- The text of bytes, with a replacement character for every fault. -/
def decodeLossy (bytes : Bytes) : List Char := (decodeAll bytes).map (·.getD replacementChar)

/-- The text of bytes without faults. -/
def decode? (bytes : Bytes) : Option String := ((decodeAll bytes).mapM id).map String.ofList

end TaskEngine
