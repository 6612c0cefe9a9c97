import Mathlib.Data.Nat.Log
import Mathlib.Tactic.NormNum

/-!
# A2a.F64

Double-precision numbers by their bit pattern: a sign bit, eleven bits of
exponent and fifty-two of fraction.  Only what a conversion from and to
integers needs is defined; the arithmetic is that of `Nat`.

An integer of at most 2^53 is a double exactly (`toExactInt?_ofInt`).
-/

namespace A2a

/-- A double, as its bits. -/
abbrev F64 := UInt64

namespace F64

/-- The largest size up to which every integer is a double. -/
def maxExactInteger : Nat := 2 ^ 53

def sign (x : F64) : Nat := x.toNat / 2 ^ 63

def exponent (x : F64) : Nat := x.toNat / 2 ^ 52 % 2 ^ 11

def fraction (x : F64) : Nat := x.toNat % 2 ^ 52

/-- Neither an infinity nor NaN. -/
def isFinite (x : F64) : Bool := x.exponent ≠ 2 ^ 11 - 1

/-- The size of a double that is whole and at most 2^53. -/
def exactMagnitude? (x : F64) : Option Nat :=
  if x.exponent = 0 then
    -- zero, or too small to be whole
    if x.fraction = 0 then some 0 else none
  else if x.exponent < 1023 then none
  else if x.exponent ≤ 1075 then
    if (2 ^ 52 + x.fraction) % 2 ^ (1075 - x.exponent) = 0 then
      some ((2 ^ 52 + x.fraction) / 2 ^ (1075 - x.exponent))
    else none
  else if x.exponent = 1076 ∧ x.fraction = 0 then some maxExactInteger
  else none

/-- The integer a double is, if it is whole and at most 2^53 in size
(`n.fract() == 0.0 && n.abs() <= 2^53`, then `n as i64`). -/
def toExactInt? (x : F64) : Option Int :=
  x.exactMagnitude?.map fun (n : Nat) => if x.sign = 1 then -(n : Int) else (n : Int)

/-- The bits of `m`, rounded to the nearest double, ties to even. -/
def natBits (m : Nat) : Nat :=
  if m = 0 then 0
  else if m.log2 ≤ 52 then
    (m.log2 + 1023) * 2 ^ 52 + (m * 2 ^ (52 - m.log2) - 2 ^ 52)
  else
    let low := 2 ^ (m.log2 - 52)
    let kept := m / low
    let up := low < 2 * (m % low) ∨ (low = 2 * (m % low) ∧ kept % 2 = 1)
    -- rounding up to the next power of two carries into the exponent
    (m.log2 + 1023) * 2 ^ 52 + ((if up then kept + 1 else kept) - 2 ^ 52)

/-- `as f64` on an integer of 64 bits. -/
def ofInt (n : Int) : F64 :=
  UInt64.ofNat ((if n < 0 then 2 ^ 63 else 0) + natBits n.natAbs)

/-! ## exactness -/

/-- The fields of a double put together from them. -/
theorem fields_of_bits {s e f : Nat} (hs : s ≤ 1) (he : e < 2 ^ 11) (hf : f < 2 ^ 52)
    {x : F64} (hx : x = UInt64.ofNat (s * 2 ^ 63 + (e * 2 ^ 52 + f))) :
    x.sign = s ∧ x.exponent = e ∧ x.fraction = f := by
  have hlt : s * 2 ^ 63 + (e * 2 ^ 52 + f) < 2 ^ 64 := by omega
  have hval : x.toNat = s * 2 ^ 63 + (e * 2 ^ 52 + f) := by
    rw [hx, UInt64.toNat_ofNat']
    exact Nat.mod_eq_of_lt hlt
  rw [sign, exponent, fraction, hval]
  refine ⟨?_, ?_, ?_⟩ <;> omega

theorem exactMagnitude?_le {x : F64} {n : Nat} (h : x.exactMagnitude? = some n) :
    n ≤ maxExactInteger := by
  have hf : x.fraction < 2 ^ 52 := Nat.mod_lt _ (by decide)
  simp only [exactMagnitude?] at h
  split at h
  · split at h
    · obtain rfl := Option.some.inj h
      exact Nat.zero_le _
    · contradiction
  · split at h
    · contradiction
    · split at h
      · split at h
        · obtain rfl := Option.some.inj h
          calc (2 ^ 52 + x.fraction) / 2 ^ (1075 - x.exponent)
              ≤ 2 ^ 52 + x.fraction := Nat.div_le_self _ _
            _ ≤ maxExactInteger := by rw [maxExactInteger]; omega
        · contradiction
      · split at h
        · obtain rfl := Option.some.inj h
          exact Nat.le_refl _
        · contradiction

/-- The integers read are those of at most 2^53. -/
theorem natAbs_le_of_toExactInt? {x : F64} {n : Int} (h : x.toExactInt? = some n) :
    n.natAbs ≤ maxExactInteger := by
  obtain ⟨m, hm, hn⟩ := Option.map_eq_some_iff.mp h
  have hle := exactMagnitude?_le hm
  rw [← hn]
  split <;> omega

/-- The bits of a number of at most 2^53, field by field. -/
theorem natBits_of_le {m : Nat} (hpos : 0 < m) (hle : m ≤ maxExactInteger) :
    (m = maxExactInteger ∧ natBits m = 1076 * 2 ^ 52 + 0) ∨
      ∃ e f, e ≤ 52 ∧ f < 2 ^ 52 ∧ m * 2 ^ (52 - e) = 2 ^ 52 + f ∧
        natBits m = (e + 1023) * 2 ^ 52 + f := by
  rcases Nat.lt_or_ge m maxExactInteger with hlt | hge
  · right
    have hm : m ≠ 0 := Nat.ne_of_gt hpos
    have hlog : m.log2 ≤ 52 := by
      have := (Nat.log2_lt hm).mpr (show m < 2 ^ 53 from hlt)
      omega
    have hlow : 2 ^ 52 ≤ m * 2 ^ (52 - m.log2) := by
      calc 2 ^ 52 = 2 ^ m.log2 * 2 ^ (52 - m.log2) := by rw [← Nat.pow_add]; congr 1; omega
        _ ≤ m * 2 ^ (52 - m.log2) := Nat.mul_le_mul_right _ (Nat.log2_self_le hm)
    have hhigh : m * 2 ^ (52 - m.log2) < 2 ^ 53 := by
      calc m * 2 ^ (52 - m.log2) < 2 ^ (m.log2 + 1) * 2 ^ (52 - m.log2) :=
            Nat.mul_lt_mul_of_pos_right Nat.lt_log2_self (Nat.two_pow_pos _)
        _ = 2 ^ 53 := by rw [← Nat.pow_add]; congr 1; omega
    refine ⟨m.log2, m * 2 ^ (52 - m.log2) - 2 ^ 52, hlog, by omega, by omega, ?_⟩
    rw [natBits, if_neg hm, if_pos hlog]
  · left
    obtain rfl : m = maxExactInteger := Nat.le_antisymm hle hge
    exact ⟨rfl, by decide⟩

theorem exactMagnitude?_of_fields {x : F64} {m : Nat} (hpos : 0 < m)
    (h : (m = maxExactInteger ∧ x.exponent = 1076 ∧ x.fraction = 0) ∨
      ∃ e ≤ 52, m * 2 ^ (52 - e) = 2 ^ 52 + x.fraction ∧ x.exponent = e + 1023) :
    x.exactMagnitude? = some m := by
  rcases h with ⟨rfl, he, hf⟩ | ⟨e, hle, hm, he⟩
  · simp only [exactMagnitude?, he, hf]
    rfl
  · have hshift : 1075 - x.exponent = 52 - e := by omega
    have hdvd : (2 ^ 52 + x.fraction) % 2 ^ (52 - e) = 0 := by
      rw [← hm]
      exact Nat.mul_mod_left _ _
    have hquot : (2 ^ 52 + x.fraction) / 2 ^ (52 - e) = m := by
      rw [← hm]
      exact Nat.mul_div_cancel _ (Nat.two_pow_pos _)
    rw [exactMagnitude?, if_neg (by omega), if_neg (by omega), if_pos (by omega), hshift,
      if_pos hdvd, hquot]

/-- **Integers of at most 2^53 are doubles exactly.** -/
theorem toExactInt?_ofInt {n : Int} (h : n.natAbs ≤ maxExactInteger) :
    (ofInt n).toExactInt? = some n := by
  by_cases hzero : n = 0
  · subst hzero
    decide
  have hpos : 0 < n.natAbs := Int.natAbs_pos.mpr hzero
  -- the bits are those of the size, under the sign
  obtain ⟨s, hs, hsign, hbits⟩ : ∃ s ≤ 1, (s = 1 ↔ n < 0) ∧
      ofInt n = UInt64.ofNat (s * 2 ^ 63 + natBits n.natAbs) := by
    by_cases hneg : n < 0
    · exact ⟨1, Nat.le_refl 1, by simp [hneg], by rw [ofInt, if_pos hneg, Nat.one_mul]⟩
    · exact ⟨0, Nat.zero_le 1, by simp [hneg], by rw [ofInt, if_neg hneg, Nat.zero_mul]⟩
  have hfields : (ofInt n).sign = s ∧ (ofInt n).exactMagnitude? = some n.natAbs := by
    rcases natBits_of_le hpos h with ⟨hmax, hb⟩ | ⟨e, f, he, hf, hm, hb⟩
    · rw [hb] at hbits
      obtain ⟨h1, h2, h3⟩ := fields_of_bits hs (by decide) (by decide) hbits
      exact ⟨h1, exactMagnitude?_of_fields hpos (.inl ⟨hmax, h2, h3⟩)⟩
    · rw [hb] at hbits
      obtain ⟨h1, h2, h3⟩ := fields_of_bits hs (by omega) hf hbits
      exact ⟨h1, exactMagnitude?_of_fields hpos (.inr ⟨e, he, by rw [h3]; exact hm, h2⟩)⟩
  rw [toExactInt?, hfields.2, hfields.1, Option.map_some]
  congr 1
  split <;> omega

end F64

end A2a
