import Mathlib.Tactic.Common

/-!
# A2a.IpAddr

Addresses of `std::net` and how a text is read as one: decimal bytes between
dots, or hexadecimal groups between colons with one run of zeroes left out
and perhaps an IPv4 address at the end.
-/

namespace A2a

/-! ## addresses -/

structure Ipv4Addr where
  a : UInt8
  b : UInt8
  c : UInt8
  d : UInt8
  deriving DecidableEq

/-- Eight groups of sixteen bits. -/
structure Ipv6Addr where
  a : UInt16
  b : UInt16
  c : UInt16
  d : UInt16
  e : UInt16
  f : UInt16
  g : UInt16
  h : UInt16
  deriving DecidableEq

inductive IpAddr
  | v4 (addr : Ipv4Addr)
  | v6 (addr : Ipv6Addr)
  deriving DecidableEq

namespace Ipv4Addr

def isLoopback (addr : Ipv4Addr) : Bool := addr.a = 127

/-- RFC 1918. -/
def isPrivate (addr : Ipv4Addr) : Bool :=
  addr.a = 10 || (addr.a = 172 && 16 ≤ addr.b && addr.b ≤ 31) || (addr.a = 192 && addr.b = 168)

def isLinkLocal (addr : Ipv4Addr) : Bool := addr.a = 169 && addr.b = 254

def isUnspecified (addr : Ipv4Addr) : Bool := addr = ⟨0, 0, 0, 0⟩

def isMulticast (addr : Ipv4Addr) : Bool := 224 ≤ addr.a && addr.a ≤ 239

/-- Two bytes as a group. -/
def group (high low : UInt8) : UInt16 := UInt16.ofNat (256 * high.toNat + low.toNat)

/-- `to_ipv6_mapped`: `::ffff:a.b.c.d`. -/
def toIpv6Mapped (addr : Ipv4Addr) : Ipv6Addr :=
  ⟨0, 0, 0, 0, 0, 0xFFFF, group addr.a addr.b, group addr.c addr.d⟩

/-- `to_ipv6_compatible`: `::a.b.c.d`. -/
def toIpv6Compatible (addr : Ipv4Addr) : Ipv6Addr :=
  ⟨0, 0, 0, 0, 0, 0, group addr.a addr.b, group addr.c addr.d⟩

end Ipv4Addr

namespace Ipv6Addr

def isLoopback (addr : Ipv6Addr) : Bool := addr = ⟨0, 0, 0, 0, 0, 0, 0, 1⟩

def isUnspecified (addr : Ipv6Addr) : Bool := addr = ⟨0, 0, 0, 0, 0, 0, 0, 0⟩

/-- `fe80::/10`. -/
def isUnicastLinkLocal (addr : Ipv6Addr) : Bool := addr.a &&& 0xFFC0 = 0xFE80

/-- `ff00::/8`. -/
def isMulticast (addr : Ipv6Addr) : Bool := addr.a >>> 8 = 0xFF

/-- The bytes of a group. -/
def high (group : UInt16) : UInt8 := UInt8.ofNat (group.toNat / 256)
def low (group : UInt16) : UInt8 := UInt8.ofNat group.toNat

def toIpv4Mapped (addr : Ipv6Addr) : Option Ipv4Addr :=
  if addr.a = 0 ∧ addr.b = 0 ∧ addr.c = 0 ∧ addr.d = 0 ∧ addr.e = 0 ∧ addr.f = 0xFFFF then
    some ⟨high addr.g, low addr.g, high addr.h, low addr.h⟩
  else none

end Ipv6Addr

theorem high_group (a b : UInt8) : Ipv6Addr.high (Ipv4Addr.group a b) = a := by
  have ha := a.toNat_lt
  have hb := b.toNat_lt
  apply UInt8.toNat_inj.mp
  rw [Ipv6Addr.high, Ipv4Addr.group, UInt8.toNat_ofNat', UInt16.toNat_ofNat']
  omega

theorem low_group (a b : UInt8) : Ipv6Addr.low (Ipv4Addr.group a b) = b := by
  have hb := b.toNat_lt
  apply UInt8.toNat_inj.mp
  rw [Ipv6Addr.low, Ipv4Addr.group, UInt8.toNat_ofNat', UInt16.toNat_ofNat']
  omega

/-- A mapped address is the one it maps. -/
theorem toIpv4Mapped_toIpv6Mapped (addr : Ipv4Addr) :
    addr.toIpv6Mapped.toIpv4Mapped = some addr := by
  rw [Ipv6Addr.toIpv4Mapped, if_pos ⟨rfl, rfl, rfl, rfl, rfl, rfl⟩]
  simp only [Ipv4Addr.toIpv6Mapped, high_group, low_group]

/-! ## reading -/

/-- What is read of a text, and the rest of it. -/
abbrev AddrReader (α : Type) := List Char → Option (α × List Char)

/-- `char::to_digit`, for a base up to 36. -/
def toDigit (radix : Nat) (c : Char) : Option Nat :=
  let digit :=
    if c.isDigit then c.toNat - '0'.toNat
    else if c.isLower then c.toNat - 'a'.toNat + 10
    else if c.isUpper then c.toNat - 'A'.toNat + 10
    else radix
  if digit < radix then some digit else none

/-- A number of a few digits below a bound. -/
def readNumber (radix maxDigits bound : Nat) (allowZeroPrefix : Bool) : AddrReader Nat := fun cs =>
  let digits := cs.takeWhile fun c => (toDigit radix c).isSome
  let number := digits.foldl (fun n c => radix * n + (toDigit radix c).getD 0) 0
  if maxDigits < digits.length then none
  else if digits = [] then none
  else if !allowZeroPrefix && digits.head? = some '0' && 1 < digits.length then none
  else if number < bound then some (number, cs.drop digits.length)
  else none

/-- `read_given_char`. -/
def readGivenChar (c : Char) : AddrReader Unit
  | first :: rest => if first = c then some ((), rest) else none
  | [] => none

/-- `read_separator`: a separator stands before all but the first. -/
def readSeparator {α : Type} (sep : Char) (index : Nat) (inner : AddrReader α) : AddrReader α := fun cs =>
  if index = 0 then inner cs
  else (readGivenChar sep cs).bind fun found => inner found.2

/-- A byte of an IPv4 address: no octal numbers. -/
def readOctet : AddrReader Nat := readNumber 10 3 256 false

def readIpv4Addr : AddrReader Ipv4Addr := fun cs => do
  let (a, cs) ← readSeparator '.' 0 readOctet cs
  let (b, cs) ← readSeparator '.' 1 readOctet cs
  let (c, cs) ← readSeparator '.' 2 readOctet cs
  let (d, cs) ← readSeparator '.' 3 readOctet cs
  some (⟨UInt8.ofNat a, UInt8.ofNat b, UInt8.ofNat c, UInt8.ofNat d⟩, cs)

/-- A group of an IPv6 address. -/
def readGroup : AddrReader Nat := readNumber 16 4 65536 true

/-- `read_groups`, with `left` groups to go: those read, whether an IPv4
address ends them, and the rest. -/
def readGroups (index : Nat) : Nat → List Char → List UInt16 × Bool × List Char
  | 0, cs => ([], false, cs)
  | left + 1, cs =>
      match if 0 < left then readSeparator ':' index readIpv4Addr cs else none with
      | some (addr, cs) => ([Ipv4Addr.group addr.a addr.b, Ipv4Addr.group addr.c addr.d], true, cs)
      | none =>
          match readSeparator ':' index readGroup cs with
          | some (group, cs) =>
              let (groups, ipv4, cs) := readGroups (index + 1) left cs
              (UInt16.ofNat group :: groups, ipv4, cs)
          | none => ([], false, cs)

/-- Eight groups as an address. -/
def Ipv6Addr.ofGroups : List UInt16 → Option Ipv6Addr
  | [a, b, c, d, e, f, g, h] => some ⟨a, b, c, d, e, f, g, h⟩
  | _ => none

def readIpv6Addr : AddrReader Ipv6Addr := fun cs =>
  let (head, ipv4, cs) := readGroups 0 8 cs
  if head.length = 8 then (Ipv6Addr.ofGroups head).map fun addr => (addr, cs)
  else if ipv4 then none
  else do
    let (_, cs) ← readGivenChar ':' cs
    let (_, cs) ← readGivenChar ':' cs
    -- the colons stand for a group at least
    let (tail, _, cs) := readGroups 0 (8 - (head.length + 1)) cs
    let addr ← Ipv6Addr.ofGroups
      (head ++ List.replicate (8 - head.length - tail.length) 0 ++ tail)
    some (addr, cs)

/-- `str::parse::<IpAddr>`: the whole text is an address. -/
def parseIpAddr (cs : List Char) : Option IpAddr :=
  let found := (readIpv4Addr cs).map (fun (addr, cs) => (IpAddr.v4 addr, cs)) <|>
    (readIpv6Addr cs).map fun (addr, cs) => (IpAddr.v6 addr, cs)
  found.bind fun (addr, rest) => if rest = [] then some addr else none

example : parseIpAddr "::ffff:169.254.1.1".toList =
    some (.v6 (Ipv4Addr.toIpv6Mapped ⟨169, 254, 1, 1⟩)) := by decide

/-! ## no address ends in a dot -/

/-- What was read ends in something else than a dot. -/
def EndsWell (cs rest : List Char) : Prop := ∃ front last, cs = front ++ last :: rest ∧ last ≠ '.'

theorem EndsWell.append {cs rest : List Char} (h : EndsWell cs rest) (front : List Char) :
    EndsWell (front ++ cs) rest := by
  obtain ⟨front', last, heq, hlast⟩ := h
  refine ⟨front ++ front', last, ?_, hlast⟩
  rw [heq, List.append_assoc]

theorem EndsWell.trans {cs mid rest : List Char} (h : EndsWell cs mid) (h' : EndsWell mid rest) :
    EndsWell cs rest := by
  obtain ⟨front, last, heq, _⟩ := h
  rw [heq, ← List.singleton_append, ← List.append_assoc]
  exact h'.append _

theorem readNumber_endsWell {radix maxDigits bound : Nat} {allow : Bool} {cs rest : List Char}
    {n : Nat} (hdot : toDigit radix '.' = none)
    (h : readNumber radix maxDigits bound allow cs = some (n, rest)) : EndsWell cs rest := by
  have hsplit := List.takeWhile_append_dropWhile (p := fun c => (toDigit radix c).isSome) (l := cs)
  have hall := List.all_takeWhile (p := fun c => (toDigit radix c).isSome) (l := cs)
  unfold readNumber at h
  generalize cs.takeWhile (fun c => (toDigit radix c).isSome) = digits at h hsplit hall
  have hrest : cs.drop digits.length = cs.dropWhile fun c => (toDigit radix c).isSome := by
    conv => lhs; rw [← hsplit]
    exact List.drop_left
  by_cases hnil : digits = []
  · rw [hnil] at h
    simp at h
  · have hlast := List.dropLast_concat_getLast hnil
    have hdigit := List.all_eq_true.mp hall _ (List.getLast_mem hnil)
    have heq : rest = cs.drop digits.length := by
      dsimp only at h
      rw [if_neg hnil] at h
      split at h
      · cases h
      split at h
      · cases h
      split at h
      · exact (Prod.mk.inj (Option.some.inj h)).2.symm
      · cases h
    refine ⟨digits.dropLast, digits.getLast hnil, ?_, ?_⟩
    · rw [heq, hrest, ← List.singleton_append, ← List.append_assoc, hlast, hsplit]
    · intro hbad
      rw [hbad, hdot] at hdigit
      cases hdigit

theorem readGivenChar_eq {c : Char} {cs rest : List Char} {u : Unit}
    (h : readGivenChar c cs = some (u, rest)) : cs = c :: rest := by
  cases cs with
  | nil => cases h
  | cons first others =>
      rw [readGivenChar] at h
      by_cases hc : first = c
      · rw [if_pos hc] at h
        cases h
        rw [hc]
      · rw [if_neg hc] at h
        cases h

theorem readSeparator_endsWell {α : Type} {sep : Char} {index : Nat} {inner : AddrReader α}
    (hinner : ∀ cs value rest, inner cs = some (value, rest) → EndsWell cs rest)
    {cs rest : List Char} {value : α} (h : readSeparator sep index inner cs = some (value, rest)) :
    EndsWell cs rest := by
  rw [readSeparator] at h
  by_cases hindex : index = 0
  · rw [if_pos hindex] at h
    exact hinner cs value rest h
  · rw [if_neg hindex] at h
    obtain ⟨found, hsep, hread⟩ := Option.bind_eq_some_iff.mp h
    rw [readGivenChar_eq (u := found.1) hsep]
    exact (hinner found.2 value rest hread).append [sep]

theorem readOctet_endsWell (cs : List Char) (n : Nat) (rest : List Char)
    (h : readOctet cs = some (n, rest)) : EndsWell cs rest :=
  readNumber_endsWell (by decide) h

theorem readGroup_endsWell (cs : List Char) (n : Nat) (rest : List Char)
    (h : readGroup cs = some (n, rest)) : EndsWell cs rest :=
  readNumber_endsWell (by decide) h

theorem readIpv4Addr_endsWell (cs : List Char) (addr : Ipv4Addr) (rest : List Char)
    (h : readIpv4Addr cs = some (addr, rest)) : EndsWell cs rest := by
  obtain ⟨first, ha, h⟩ := Option.bind_eq_some_iff.mp h
  obtain ⟨second, hb, h⟩ := Option.bind_eq_some_iff.mp h
  obtain ⟨third, hc, h⟩ := Option.bind_eq_some_iff.mp h
  obtain ⟨fourth, hd, h⟩ := Option.bind_eq_some_iff.mp h
  cases h
  have hfirst := readSeparator_endsWell readOctet_endsWell ha
  have hsecond := readSeparator_endsWell readOctet_endsWell hb
  have hthird := readSeparator_endsWell readOctet_endsWell hc
  have hfourth := readSeparator_endsWell readOctet_endsWell hd
  exact hfirst.trans (hsecond.trans (hthird.trans hfourth))

/-- Groups are read, or nothing is. -/
theorem readGroups_endsWell (left index : Nat) (cs : List Char) :
    (readGroups index left cs).2.2 = cs ∧ (readGroups index left cs).1 = [] ∨
      EndsWell cs (readGroups index left cs).2.2 := by
  induction left generalizing index cs with
  | zero => exact Or.inl ⟨rfl, rfl⟩
  | succ left ih =>
      rw [readGroups]
      split
      · rename_i addr rest hread
        right
        by_cases hleft : 0 < left
        · rw [if_pos hleft] at hread
          exact readSeparator_endsWell readIpv4Addr_endsWell hread
        · rw [if_neg hleft] at hread
          cases hread
      · split
        · rename_i group rest hread
          right
          have hgroup := readSeparator_endsWell readGroup_endsWell hread
          rcases ih (index + 1) rest with h | h
          · dsimp only
            rw [h.1]
            exact hgroup
          · exact hgroup.trans h
        · exact Or.inl ⟨rfl, rfl⟩

theorem readIpv6Addr_endsWell (cs : List Char) (addr : Ipv6Addr) (rest : List Char)
    (h : readIpv6Addr cs = some (addr, rest)) : EndsWell cs rest := by
  have hhead := readGroups_endsWell 8 0 cs
  unfold readIpv6Addr at h
  generalize readGroups 0 8 cs = head at h hhead
  dsimp only at h
  by_cases hlength : head.1.length = 8
  · rw [if_pos hlength] at h
    obtain ⟨_, _, heq⟩ := Option.map_eq_some_iff.mp h
    cases heq
    rcases hhead with hnone | hread
    · rw [hnone.2] at hlength
      cases hlength
    · exact hread
  · rw [if_neg hlength] at h
    by_cases hipv4 : head.2.1 = true
    · rw [if_pos hipv4] at h
      cases h
    · rw [if_neg hipv4] at h
      obtain ⟨first, hfirst, h⟩ := Option.bind_eq_some_iff.mp h
      obtain ⟨second, hsecond, h⟩ := Option.bind_eq_some_iff.mp h
      obtain ⟨_, _, heq⟩ := Option.bind_eq_some_iff.mp h
      cases heq
      have htail := readGroups_endsWell (8 - (head.1.length + 1)) 0 second.2
      have hcolon : EndsWell head.2.2 second.2 := by
        rw [readGivenChar_eq (u := first.1) hfirst, readGivenChar_eq (u := second.1) hsecond]
        exact ⟨[':'], ':', rfl, by decide⟩
      have hcolons : EndsWell cs second.2 := by
        rcases hhead with hnone | hread
        · rw [← hnone.1]
          exact hcolon
        · exact hread.trans hcolon
      rcases htail with hnone | hread
      · rw [hnone.1]
        exact hcolons
      · exact hcolons.trans hread

/-- **A text that ends in a dot is no address.** -/
theorem parseIpAddr_dot (cs : List Char) : parseIpAddr (cs ++ ['.']) = none := by
  have hends : ∀ text, EndsWell (cs ++ ['.']) text → text ≠ [] := by
    intro text hends hnil
    obtain ⟨front, last, heq, hlast⟩ := hends
    rw [hnil] at heq
    exact hlast (List.append_inj_right' heq rfl |> List.cons.inj |>.1).symm
  rw [Option.eq_none_iff_forall_ne_some]
  intro addr h
  obtain ⟨found, hfound, hrest⟩ := Option.bind_eq_some_iff.mp h
  have hnil : found.2 = [] := by
    by_contra hne
    exact Option.some_ne_none addr (hrest.symm.trans (if_neg hne))
  rw [Option.orElse_eq_orElse, Option.orElse_eq_or] at hfound
  rcases Option.or_eq_some_iff.mp hfound with hv4 | ⟨_, hv6⟩
  · obtain ⟨read, hread, heq⟩ := Option.map_eq_some_iff.mp hv4
    rw [← heq] at hnil
    exact hends _ (readIpv4Addr_endsWell _ read.1 read.2 hread) hnil
  · obtain ⟨read, hread, heq⟩ := Option.map_eq_some_iff.mp hv6
    rw [← heq] at hnil
    exact hends _ (readIpv6Addr_endsWell _ read.1 read.2 hread) hnil

end A2a
