import A2a.Utf8

/-!
# A2a.PercentEncoding

Texts as segments of a path: every byte that is not an unreserved character
of RFC 3986 is written `%XX`, and a reader takes any two hexadecimal digits
after a `%` for a byte.
-/

namespace A2a

/-! ## writing -/

/-- The bytes that stand for themselves: letters, digits, and `-`, `.`, `_`
and `~`. -/
def isUnreserved (b : UInt8) : Bool :=
  (0x30 ≤ b && b ≤ 0x39) || (0x41 ≤ b && b ≤ 0x5A) || (0x61 ≤ b && b ≤ 0x7A) ||
    b = 0x2D || b = 0x2E || b = 0x5F || b = 0x7E

/-- A digit of a byte, in upper case. -/
def hexDigit (n : Nat) : Char := Char.ofNat (if n < 10 then 0x30 + n else 0x37 + n)

/-- How a byte is written. -/
def percentEncodeByte (b : UInt8) : List Char :=
  if isUnreserved b then [Char.ofNat b.toNat]
  else ['%', hexDigit (b.toNat / 16), hexDigit (b.toNat % 16)]

/-- `utf8_percent_encode`, sparing the unreserved characters. -/
def percentEncode (s : String) : String := String.ofList ((utf8 s).flatMap percentEncodeByte)

/-! ## reading -/

/-- `char::to_digit(16)`. -/
def hexValue (b : UInt8) : Option UInt8 :=
  if 0x30 ≤ b && b ≤ 0x39 then some (b - 0x30)
  else if 0x41 ≤ b && b ≤ 0x46 then some (b - 0x37)
  else if 0x61 ≤ b && b ≤ 0x66 then some (b - 0x57)
  else none

/-- The byte that three bytes are the writing of. -/
def writtenByte (b high low : UInt8) : Option UInt8 :=
  if b = 0x25 then
    match hexValue high, hexValue low with
    | some high, some low => some (high * 16 + low)
    | _, _ => none
  else none

/-- `percent_decode`: a `%` that two digits do not follow stands for
itself. -/
def percentDecodeBytes : List UInt8 → List UInt8
  | [] => []
  | [b] => [b]
  | [b, c] => [b, c]
  | b :: c :: d :: rest =>
      match writtenByte b c d with
      | some byte => byte :: percentDecodeBytes rest
      | none => b :: percentDecodeBytes (c :: d :: rest)

/-- `percent_decode_str(…).decode_utf8().ok()`. -/
def percentDecode (s : String) : Option String :=
  match fromUtf8 (percentDecodeBytes (utf8 s)) with
  | .ok text => some text
  | .error _ => none

/-! ## what a written byte is made of -/

/-- A character of a written text. -/
def isSegmentChar (c : Char) : Prop :=
  c = '%' ∨ ∃ b : UInt8, isUnreserved b = true ∧ c = Char.ofNat b.toNat

theorem isUnreserved_lt {b : UInt8} (h : isUnreserved b = true) : b.toNat < 0x7F := by
  simp only [isUnreserved, Bool.or_eq_true, Bool.and_eq_true, decide_eq_true_eq,
    UInt8.le_iff_toNat_le, ← UInt8.toNat_inj] at h
  simp at h
  omega

theorem utf8EncodeChar_ofNat {n : Nat} (h : n < 0x80) :
    String.utf8EncodeChar (Char.ofNat n) = [UInt8.ofNat n] := by
  have key : ∀ i : Fin 0x80, String.utf8EncodeChar (Char.ofNat i.val) = [UInt8.ofNat i.val] := by
    decide
  exact key ⟨n, h⟩

/-- The digits are unreserved. -/
theorem hexDigit_unreserved {n : Nat} (h : n < 16) :
    ∃ b : UInt8, isUnreserved b = true ∧ hexDigit n = Char.ofNat b.toNat := by
  have key : ∀ i : Fin 16, isUnreserved (UInt8.ofNat (hexDigit i.val).toNat) = true ∧
      hexDigit i.val = Char.ofNat (UInt8.ofNat (hexDigit i.val).toNat).toNat := by
    decide
  exact ⟨_, key ⟨n, h⟩⟩

/-- A digit is read back. -/
theorem hexValue_hexDigit {n : Nat} (h : n < 16) :
    ∃ b, String.utf8EncodeChar (hexDigit n) = [b] ∧ hexValue b = some (UInt8.ofNat n) := by
  have key : ∀ i : Fin 16,
      String.utf8EncodeChar (hexDigit i.val) = [UInt8.ofNat (hexDigit i.val).toNat] ∧
        hexValue (UInt8.ofNat (hexDigit i.val).toNat) = some (UInt8.ofNat i.val) := by
    decide
  exact ⟨_, key ⟨n, h⟩⟩

theorem isSegmentChar_of_mem {c : Char} {b : UInt8} (h : c ∈ percentEncodeByte b) :
    isSegmentChar c := by
  unfold percentEncodeByte at h
  split at h
  · rw [List.mem_singleton] at h
    exact Or.inr ⟨b, by assumption, h⟩
  · simp only [List.mem_cons, List.not_mem_nil, or_false] at h
    have hb := b.toNat_lt
    rcases h with h | h | h
    · exact Or.inl h
    · rw [h]
      exact Or.inr (hexDigit_unreserved (by omega))
    · rw [h]
      exact Or.inr (hexDigit_unreserved (by omega))

/-- A written text has only such characters. -/
theorem isSegmentChar_of_mem_percentEncode {c : Char} {s : String}
    (h : c ∈ (percentEncode s).toList) : isSegmentChar c := by
  rw [percentEncode, String.toList_ofList, List.mem_flatMap] at h
  obtain ⟨b, -, hc⟩ := h
  exact isSegmentChar_of_mem hc

theorem not_isSegmentChar {c : Char} {b : UInt8} (hc : c = Char.ofNat b.toNat)
    (hlt : b.toNat < 0x80) (hkept : isUnreserved b = false) (hne : b ≠ 0x25) :
    ¬ isSegmentChar c := by
  intro h
  have hsame : ∀ b' : UInt8, b'.toNat < 0x80 → Char.ofNat b'.toNat = Char.ofNat b.toNat → b' = b := by
    intro b' hlt' heq
    have hbytes := congrArg String.utf8EncodeChar heq
    rw [utf8EncodeChar_ofNat hlt', utf8EncodeChar_ofNat hlt, UInt8.ofNat_toNat,
      UInt8.ofNat_toNat] at hbytes
    exact List.singleton_inj.mp hbytes
  rcases h with h | ⟨b', hb', h⟩
  · have hpercent := hsame 0x25 (by decide) (h.symm.trans hc)
    exact hne hpercent.symm
  · have hlt' := isUnreserved_lt hb'
    rw [hsame b' (by omega) (h.symm.trans hc)] at hb'
    rw [hkept] at hb'
    exact Bool.noConfusion hb'

theorem slash_not_isSegmentChar : ¬ isSegmentChar '/' :=
  not_isSegmentChar (b := 0x2F) rfl (by decide) (by decide) (by decide)

/-! ## what is read back -/

/-- A byte that is no `%` stands for itself. -/
theorem percentDecodeBytes_cons {b : UInt8} (h : b ≠ 0x25) (bytes : List UInt8) :
    percentDecodeBytes (b :: bytes) = b :: percentDecodeBytes bytes := by
  match bytes with
  | [] => rfl
  | [c] => rfl
  | c :: d :: rest =>
      have hwritten : writtenByte b c d = none := if_neg h
      rw [percentDecodeBytes, hwritten]

/-- A written byte is read back. -/
theorem percentDecodeBytes_encodeByte (b : UInt8) (bytes : List UInt8) :
    percentDecodeBytes ((percentEncodeByte b).flatMap String.utf8EncodeChar ++ bytes) =
      b :: percentDecodeBytes bytes := by
  unfold percentEncodeByte
  split
  · rename_i hkept
    have hlt := isUnreserved_lt hkept
    have hne : b ≠ 0x25 := by
      intro h
      rw [h] at hkept
      exact absurd hkept (by decide)
    rw [List.flatMap_singleton, utf8EncodeChar_ofNat (by omega), UInt8.ofNat_toNat,
      List.singleton_append, percentDecodeBytes_cons hne]
  · have hb := b.toNat_lt
    obtain ⟨high, hhigh, hhv⟩ := hexValue_hexDigit (n := b.toNat / 16) (by omega)
    obtain ⟨low, hlow, hlv⟩ := hexValue_hexDigit (n := b.toNat % 16) (by omega)
    have hpercent : String.utf8EncodeChar '%' = [0x25] := by decide
    have hvalue : UInt8.ofNat (b.toNat / 16) * 16 + UInt8.ofNat (b.toNat % 16) = b := by
      have hsixteen : (16 : UInt8).toNat = 16 := rfl
      rw [← UInt8.toNat_inj, UInt8.toNat_add, UInt8.toNat_mul, UInt8.toNat_ofNat',
        UInt8.toNat_ofNat', hsixteen]
      omega
    have hwritten : writtenByte 0x25 high low = some b := by
      rw [writtenByte, if_pos rfl, hhv, hlv]
      exact congrArg some hvalue
    simp only [List.flatMap_cons, List.flatMap_nil, hpercent, hhigh, hlow, List.append_nil,
      List.cons_append, List.nil_append]
    rw [percentDecodeBytes, hwritten]

/-- What was written is read back, whatever follows. -/
theorem percentDecodeBytes_append (s : String) (bytes : List UInt8) :
    percentDecodeBytes (utf8 (percentEncode s) ++ bytes) = utf8 s ++ percentDecodeBytes bytes := by
  rw [percentEncode, utf8_ofList]
  induction utf8 s with
  | nil => rfl
  | cons b rest ih =>
      rw [List.flatMap_cons, List.flatMap_append, List.append_assoc,
        percentDecodeBytes_encodeByte, ih, List.cons_append]

theorem percentDecodeBytes_percentEncode (s : String) :
    percentDecodeBytes (utf8 (percentEncode s)) = utf8 s := by
  have h := percentDecodeBytes_append s []
  rwa [List.append_nil, percentDecodeBytes, List.append_nil] at h

/-- **A text is read back from its segment.** -/
@[simp] theorem percentDecode_percentEncode (s : String) :
    percentDecode (percentEncode s) = some s := by
  rw [percentDecode, percentDecodeBytes_percentEncode, fromUtf8_utf8]

/-- Bytes without a `%` stand for themselves. -/
theorem percentDecodeBytes_of_not_mem {bytes : List UInt8} (h : 0x25 ∉ bytes) :
    percentDecodeBytes bytes = bytes := by
  induction bytes with
  | nil => rfl
  | cons b rest ih =>
      have hb : b ≠ 0x25 := fun heq => h (by rw [heq]; exact List.mem_cons_self)
      rw [percentDecodeBytes_cons hb, ih fun hin => h (List.mem_cons_of_mem _ hin)]

/-- A text is read back from its segment, and what follows unencoded as it
is. -/
theorem percentDecode_append (s : String) {t : String} (h : 0x25 ∉ utf8 t) :
    percentDecode (percentEncode s ++ t) = some (s ++ t) := by
  rw [percentDecode, utf8_append, percentDecodeBytes_append, percentDecodeBytes_of_not_mem h,
    ← utf8_append, fromUtf8_utf8]

theorem percentDecode_of_not_mem {t : String} (h : 0x25 ∉ utf8 t) : percentDecode t = some t := by
  rw [percentDecode, percentDecodeBytes_of_not_mem h, fromUtf8_utf8]

theorem utf8_injective {s t : String} (h : utf8 s = utf8 t) : s = t := by
  have hs := fromUtf8_utf8 s
  rw [h, fromUtf8_utf8] at hs
  exact (Except.ok.inj hs).symm

theorem utf8_ne_nil {s : String} (h : s ≠ "") : utf8 s ≠ [] :=
  fun heq => h (utf8_injective heq)

theorem percentDecodeBytes_ne_nil {bytes : List UInt8} (h : bytes ≠ []) :
    percentDecodeBytes bytes ≠ [] := by
  match bytes with
  | [] => exact absurd rfl h
  | [_] => exact List.cons_ne_nil _ _
  | [_, _] => exact List.cons_ne_nil _ _
  | b :: c :: d :: rest =>
      rw [percentDecodeBytes]
      split
      all_goals exact List.cons_ne_nil _ _

theorem percentEncode_ne_empty {s : String} (h : s ≠ "") : percentEncode s ≠ "" := by
  intro heq
  have hbytes := percentDecodeBytes_percentEncode s
  rw [heq] at hbytes
  exact utf8_ne_nil h hbytes.symm

/-- A segment that is not empty stands for more than nothing. -/
theorem percentDecode_ne_empty {s : String} (h : s ≠ "") : percentDecode s ≠ some "" := by
  have hbytes := percentDecodeBytes_ne_nil (utf8_ne_nil h)
  rw [percentDecode, fromUtf8, fromUtf8From, if_neg hbytes]
  split
  · rename_i text htext
    intro heq
    rw [Option.some.inj heq] at htext
    split at htext
    · rename_i c hc
      cases hrest : fromUtf8From (0 + c.utf8Size)
          ((percentDecodeBytes (utf8 s)).drop c.utf8Size) with
      | error e =>
          rw [hrest] at htext
          cases htext
      | ok cs =>
          rw [hrest] at htext
          have hofList : String.ofList (c :: cs) = "" := Except.ok.inj htext
          have htoList := congrArg String.toList hofList
          rw [String.toList_ofList] at htoList
          exact absurd htoList (List.cons_ne_nil _ _)
    · cases htext
  · exact (Option.some_ne_none _).symm

end A2a
