import Mathlib.Data.List.Basic

/-!
# A2a.Utf8

Texts as bytes: `str::as_bytes` and `std::str::from_utf8`, with where and
how a decoding fails.
-/

namespace A2a

/-- `str::as_bytes`. -/
def utf8 (s : String) : List UInt8 := s.toList.flatMap String.utf8EncodeChar

/-- A failure to decode: the bytes before `validUpTo` are text, and
`errorLen` bytes from there are none; absent, the input ends within a
character. -/
structure Utf8Error where
  validUpTo : Nat
  errorLen : Option Nat

/-- The text `{}` prints for a failure. -/
def Utf8Error.display : Utf8Error → String
  | ⟨validUpTo, some len⟩ => s!"invalid utf-8 sequence of {len} bytes from index {validUpTo}"
  | ⟨validUpTo, none⟩ => s!"incomplete utf-8 byte sequence from index {validUpTo}"

/-- Whether a byte opens a character. -/
def opensChar (b : UInt8) : Bool := b < 0x80 || (0xC2 ≤ b && b ≤ 0xF4)

/-- Whether a byte continues a character. -/
def continuesChar (b : UInt8) : Bool := 0x80 ≤ b && b ≤ 0xBF

/-- Whether a byte may follow the one that opens a character. -/
def followsOpening (first second : UInt8) : Bool :=
  if first = 0xE0 then 0xA0 ≤ second && second ≤ 0xBF
  else if first = 0xED then 0x80 ≤ second && second ≤ 0x9F
  else if first = 0xF0 then 0x90 ≤ second && second ≤ 0xBF
  else if first = 0xF4 then 0x80 ≤ second && second ≤ 0x8F
  else continuesChar second

/-- How many of the bytes, which begin no character, are wrong. -/
def utf8ErrorLen : List UInt8 → Option Nat
  | [] => none
  | [first] => if opensChar first then none else some 1
  | [first, second] =>
      if opensChar first && followsOpening first second then none else some 1
  | first :: second :: third :: rest =>
      if opensChar first && followsOpening first second then
        if continuesChar third then
          if rest.isEmpty then none else some 3
        else some 2
      else some 1

/-- The characters of the bytes, of which `i` are already read. -/
def fromUtf8From (i : Nat) (bytes : List UInt8) : Except Utf8Error (List Char) :=
  if bytes = [] then .ok []
  else
    match bytes.toByteArray.utf8DecodeChar? 0 with
    | some c => (fromUtf8From (i + c.utf8Size) (bytes.drop c.utf8Size)).map (c :: ·)
    | none => .error ⟨i, utf8ErrorLen bytes⟩
termination_by bytes.length
decreasing_by
  have hpos := c.utf8Size_pos
  have hlen := List.length_pos_iff.mpr ‹bytes ≠ []›
  rw [List.length_drop]
  omega

/-- `std::str::from_utf8`. -/
def fromUtf8 (bytes : List UInt8) : Except Utf8Error String :=
  (fromUtf8From 0 bytes).map String.ofList

/-! ## lemmas -/

@[simp] theorem utf8_ofList (cs : List Char) :
    utf8 (String.ofList cs) = cs.flatMap String.utf8EncodeChar := by
  rw [utf8, String.toList_ofList]

theorem utf8_append (s t : String) : utf8 (s ++ t) = utf8 s ++ utf8 t := by
  rw [utf8, String.toList_append, List.flatMap_append]
  rfl

theorem utf8EncodeChar_ne_nil (c : Char) : String.utf8EncodeChar c ≠ [] := by
  intro h
  have hlen := String.length_utf8EncodeChar c
  rw [h, List.length_nil] at hlen
  have hpos := c.utf8Size_pos
  omega

/-- A character that was written is read back. -/
theorem fromUtf8From_encode (i : Nat) (c : Char) (bytes : List UInt8) :
    fromUtf8From i (String.utf8EncodeChar c ++ bytes) =
      (fromUtf8From (i + c.utf8Size) bytes).map (c :: ·) := by
  have hne : String.utf8EncodeChar c ++ bytes ≠ [] :=
    fun h => utf8EncodeChar_ne_nil c (List.append_eq_nil_iff.mp h).1
  have hdecode : (String.utf8EncodeChar c ++ bytes).toByteArray.utf8DecodeChar? 0 = some c := by
    rw [List.toByteArray_append]
    exact ByteArray.utf8DecodeChar?_utf8EncodeChar_append
  have hdrop : (String.utf8EncodeChar c ++ bytes).drop c.utf8Size = bytes := by
    rw [← String.length_utf8EncodeChar c, List.drop_left]
  rw [fromUtf8From, if_neg hne, hdecode]
  dsimp only
  rw [hdrop]

/-- **A text is read back from its bytes.** -/
theorem fromUtf8From_flatMap (i : Nat) (cs : List Char) :
    fromUtf8From i (cs.flatMap String.utf8EncodeChar) = .ok cs := by
  induction cs generalizing i with
  | nil =>
      rw [List.flatMap_nil, fromUtf8From, if_pos rfl]
  | cons c cs ih =>
      rw [List.flatMap_cons, fromUtf8From_encode, ih]
      rfl

@[simp] theorem fromUtf8_utf8 (s : String) : fromUtf8 (utf8 s) = .ok s := by
  rw [fromUtf8, utf8, fromUtf8From_flatMap]
  exact congrArg Except.ok String.ofList_toList

/-- A byte written for a number from 0x80 on is not below it. -/
theorem ne_ofNat_of_lt {b : UInt8} (hb : b < 0x80) (n : Nat) (hle : 0x80 ≤ n) (hlt : n < 0x100) :
    b ≠ UInt8.ofNat n := by
  intro h
  have hv : b.toNat < 0x80 := hb
  rw [h, UInt8.toNat_ofNat'] at hv
  omega

/-- A byte below 0x80 in a character's bytes is the character. -/
theorem mem_utf8EncodeChar {c : Char} {b : UInt8} (hb : b < 0x80)
    (h : b ∈ String.utf8EncodeChar c) : c.toNat = b.toNat := by
  have hval : c.toNat = c.val.toNat := rfl
  unfold String.utf8EncodeChar at h
  dsimp only at h
  split at h
  · rw [List.mem_singleton] at h
    rw [h, UInt8.toNat_ofNat']
    omega
  · -- every byte of a longer encoding is from 0x80 on
    exfalso
    have hlarge := ne_ofNat_of_lt hb
    split at h
    · simp only [List.mem_cons, List.not_mem_nil, or_false] at h
      rcases h with h | h
      all_goals exact hlarge _ (by omega) (by omega) h
    · split at h
      all_goals simp only [List.mem_cons, List.not_mem_nil, or_false] at h
      · rcases h with h | h | h
        all_goals exact hlarge _ (by omega) (by omega) h
      · rcases h with h | h | h | h
        all_goals exact hlarge _ (by omega) (by omega) h

end A2a
