import A2a.IpAddr

/-!
# A2a.IpAddr.Spelling

What the text of an address looks like: the characters an address is
written with, the two colons at least of an IPv6 one, and what follows a
dotted address when a colon ends it.
-/

namespace A2a

/-- An address that is the machine itself. -/
def IpAddr.isLoopback : IpAddr → Bool
  | .v4 addr => addr.isLoopback
  | .v6 addr => addr.isLoopback

/-- A reader took a front of these characters. -/
def Took (ok : Char → Bool) (cs rest : List Char) : Prop :=
  ∃ front, cs = front ++ rest ∧ ∀ c ∈ front, ok c = true

/-- The characters of a dotted address. -/
def isDotted (c : Char) : Bool := (toDigit 10 c).isSome || decide (c = '.')

/-- The characters of any address. -/
def isSpelling (c : Char) : Bool := (toDigit 16 c).isSome || decide (c = '.') || decide (c = ':')

namespace Took

variable {ok ok' : Char → Bool} {cs mid rest : List Char}

theorem refl (cs : List Char) : Took ok cs cs := ⟨[], rfl, by simp⟩

theorem cons {c : Char} (hc : ok c = true) (h : Took ok cs rest) : Took ok (c :: cs) rest := by
  obtain ⟨front, heq, hfront⟩ := h
  exact ⟨c :: front, by rw [heq, List.cons_append], List.forall_mem_cons.mpr ⟨hc, hfront⟩⟩

theorem trans (h : Took ok cs mid) (h' : Took ok mid rest) : Took ok cs rest := by
  obtain ⟨front, heq, hfront⟩ := h
  obtain ⟨front', heq', hfront'⟩ := h'
  refine ⟨front ++ front', by rw [heq, heq', List.append_assoc], ?_⟩
  intro c hc
  exact (List.mem_append.mp hc).elim (hfront c) (hfront' c)

theorem mono (h : Took ok cs rest) (hok : ∀ c, ok c = true → ok' c = true) : Took ok' cs rest := by
  obtain ⟨front, heq, hfront⟩ := h
  exact ⟨front, heq, fun c hc => hok c (hfront c hc)⟩

/-- What is left has no more of a character. -/
theorem count_le (h : Took ok cs rest) (c : Char) : rest.count c ≤ cs.count c := by
  obtain ⟨front, heq, _⟩ := h
  rw [heq, List.count_append]
  omega

/-- All of a text that was read to its end. -/
theorem all (h : Took ok cs []) : ∀ c ∈ cs, ok c = true := by
  obtain ⟨front, heq, hfront⟩ := h
  rwa [heq, List.append_nil]

end Took

/-! ## the characters -/

theorem readNumber_took {radix maxDigits bound : Nat} {allow : Bool} {cs rest : List Char} {n : Nat}
    (h : readNumber radix maxDigits bound allow cs = some (n, rest)) :
    Took (fun c => (toDigit radix c).isSome) cs rest := by
  refine ⟨cs.takeWhile fun c => (toDigit radix c).isSome, ?_, ?_⟩
  · have hsplit := List.takeWhile_append_dropWhile (p := fun c => (toDigit radix c).isSome) (l := cs)
    have hrest : rest = cs.drop (cs.takeWhile fun c => (toDigit radix c).isSome).length := by
      unfold readNumber at h
      dsimp only at h
      split at h
      · cases h
      split at h
      · cases h
      split at h
      · cases h
      split at h
      · exact (Prod.mk.inj (Option.some.inj h)).2.symm
      · cases h
    rw [hrest]
    conv => rhs; rhs; rhs; rw [← hsplit]
    rw [List.drop_left, hsplit]
  · exact List.all_eq_true.mp List.all_takeWhile

theorem readSeparator_took {α : Type} {ok : Char → Bool} {sep : Char} {index : Nat}
    {inner : AddrReader α} (hsep : ok sep = true)
    (hinner : ∀ cs value rest, inner cs = some (value, rest) → Took ok cs rest)
    {cs rest : List Char} {value : α} (h : readSeparator sep index inner cs = some (value, rest)) :
    Took ok cs rest := by
  rw [readSeparator] at h
  by_cases hindex : index = 0
  · rw [if_pos hindex] at h
    exact hinner cs value rest h
  · rw [if_neg hindex] at h
    obtain ⟨found, hfound, hread⟩ := Option.bind_eq_some_iff.mp h
    rw [readGivenChar_eq (u := found.1) hfound]
    exact (hinner found.2 value rest hread).cons hsep

theorem readOctet_took (cs : List Char) (n : Nat) (rest : List Char)
    (h : readOctet cs = some (n, rest)) : Took isDotted cs rest := by
  refine (readNumber_took h).mono ?_
  intro c hc
  rw [isDotted, hc, Bool.true_or]

theorem readIpv4Addr_took (cs : List Char) (addr : Ipv4Addr) (rest : List Char)
    (h : readIpv4Addr cs = some (addr, rest)) : Took isDotted cs rest := by
  obtain ⟨first, ha, h⟩ := Option.bind_eq_some_iff.mp h
  obtain ⟨second, hb, h⟩ := Option.bind_eq_some_iff.mp h
  obtain ⟨third, hc, h⟩ := Option.bind_eq_some_iff.mp h
  obtain ⟨fourth, hd, h⟩ := Option.bind_eq_some_iff.mp h
  cases h
  have hfirst := readSeparator_took (by decide) readOctet_took ha
  have hsecond := readSeparator_took (by decide) readOctet_took hb
  have hthird := readSeparator_took (by decide) readOctet_took hc
  have hfourth := readSeparator_took (by decide) readOctet_took hd
  exact hfirst.trans (hsecond.trans (hthird.trans hfourth))

/-- A decimal digit is a hexadecimal one. -/
theorem isSpelling_of_isDotted (c : Char) (h : isDotted c = true) : isSpelling c = true := by
  rw [isDotted, Bool.or_eq_true] at h
  unfold isSpelling
  rcases h with h | h
  · suffices hhex : (toDigit 16 c).isSome = true by rw [hhex]; rfl
    unfold toDigit at h ⊢
    dsimp only at h ⊢
    split at h
    · next hdigit =>
        have hlt : c.toNat - '0'.toNat < 16 := by
          by_contra hge
          rw [if_neg (by omega)] at h
          cases h
        rw [if_pos hdigit, if_pos hlt]
        rfl
    · split at h
      · rw [if_neg (by omega)] at h
        cases h
      · split at h
        · rw [if_neg (by omega)] at h
          cases h
        · rw [if_neg (by omega)] at h
          cases h
  · rw [h, Bool.or_true, Bool.true_or]

theorem readIpv4Addr_spelling (cs : List Char) (addr : Ipv4Addr) (rest : List Char)
    (h : readIpv4Addr cs = some (addr, rest)) : Took isSpelling cs rest :=
  (readIpv4Addr_took cs addr rest h).mono isSpelling_of_isDotted

theorem readGroup_spelling (cs : List Char) (n : Nat) (rest : List Char)
    (h : readGroup cs = some (n, rest)) : Took isSpelling cs rest := by
  refine (readNumber_took h).mono ?_
  intro c hc
  rw [isSpelling, hc, Bool.true_or, Bool.true_or]

theorem readGroups_spelling (left index : Nat) (cs : List Char) :
    Took isSpelling cs (readGroups index left cs).2.2 := by
  induction left generalizing index cs with
  | zero => exact Took.refl cs
  | succ left ih =>
      rw [readGroups]
      split
      · next addr rest hread =>
          by_cases hleft : 0 < left
          · rw [if_pos hleft] at hread
            exact readSeparator_took (by decide) readIpv4Addr_spelling hread
          · rw [if_neg hleft] at hread
            cases hread
      · split
        · next group rest hread =>
            have hgroup := readSeparator_took (by decide) readGroup_spelling hread
            exact hgroup.trans (ih (index + 1) rest)
        · exact Took.refl cs

/-- The characters an address is written with are letters up to `f`, digits
and what stands next to them. -/
theorem isSpelling_range {c : Char} (h : isSpelling c = true) :
    0x2D < c.toNat ∧ c.toNat ≤ 0x3A ∧ c ≠ '/' ∨ 0x40 < c.toNat ∧ c.toNat < 0x47 ∨
      0x60 < c.toNat ∧ c.toNat < 0x67 := by
  unfold isSpelling at h
  rw [Bool.or_eq_true, Bool.or_eq_true, decide_eq_true_eq, decide_eq_true_eq] at h
  rcases h with (h | rfl) | rfl
  · have hlt : ∀ n, (if n < 16 then some n else none : Option Nat).isSome = true → n < 16 := by
      intro n hn
      by_contra hge
      rw [if_neg hge] at hn
      cases hn
    have hdigit := hlt _ h
    have hzero : '0'.toNat = 48 := rfl
    have hlower : 'a'.toNat = 97 := rfl
    have hupper : 'A'.toNat = 65 := rfl
    have hrange (low high : Char) (hc : low.val ≤ c.val ∧ c.val ≤ high.val) :
        low.toNat ≤ c.toNat ∧ c.toNat ≤ high.toNat :=
      ⟨UInt32.le_iff_toNat_le.mp hc.1, UInt32.le_iff_toNat_le.mp hc.2⟩
    have hboth (low high : Char)
        (hc : (decide (low.val ≤ c.val) && decide (c.val ≤ high.val)) = true) :
        low.toNat ≤ c.toNat ∧ c.toNat ≤ high.toNat := by
      rw [Bool.and_eq_true, decide_eq_true_eq, decide_eq_true_eq] at hc
      exact hrange low high hc
    split at hdigit
    · next hc =>
        have hbounds := hboth '0' '9' hc
        have hnine : '9'.toNat = 57 := rfl
        have hslash : '/'.toNat = 47 := rfl
        left
        refine ⟨by omega, by omega, ?_⟩
        rintro rfl
        omega
    · split at hdigit
      · next hc =>
          have hbounds := hboth 'a' 'z' hc
          omega
      · split at hdigit
        · next hc =>
            have hbounds := hrange 'A' 'Z' (of_decide_eq_true hc)
            omega
        · omega
  · decide
  · decide
/-! ## colons -/

/-- A separator that is read is one less of its character. -/
theorem readSeparator_count {α : Type} {ok : Char → Bool} {index : Nat} {inner : AddrReader α}
    (hinner : ∀ cs value rest, inner cs = some (value, rest) → Took ok cs rest)
    {cs rest : List Char} {value : α} (h : readSeparator ':' index inner cs = some (value, rest)) :
    rest.count ':' + (if index = 0 then 0 else 1) ≤ cs.count ':' := by
  rw [readSeparator] at h
  by_cases hindex : index = 0
  · rw [if_pos hindex] at h ⊢
    exact (hinner cs value rest h).count_le ':'
  · rw [if_neg hindex] at h ⊢
    obtain ⟨found, hfound, hread⟩ := Option.bind_eq_some_iff.mp h
    have hle := (hinner found.2 value rest hread).count_le ':'
    rw [readGivenChar_eq (u := found.1) hfound, List.count_cons_self]
    omega

/-- Each group but the first has a colon before it, and an address at the
end is two groups. -/
theorem readGroups_count (left index : Nat) (cs : List Char) :
    (readGroups index left cs).1.length + (readGroups index left cs).2.2.count ':' ≤
      cs.count ':' + if index = 0 then 2 else 1 := by
  induction left generalizing index cs with
  | zero =>
      simp only [readGroups, List.length_nil]
      omega
  | succ left ih =>
      rw [readGroups]
      split
      · next addr rest hread =>
          by_cases hleft : 0 < left
          · rw [if_pos hleft] at hread
            have hcount := readSeparator_count readIpv4Addr_spelling hread
            simp only [List.length_cons, List.length_nil]
            split_ifs at hcount ⊢ <;> omega
          · rw [if_neg hleft] at hread
            cases hread
      · split
        · next group rest hread =>
            have hcount := readSeparator_count readGroup_spelling hread
            have hmore := ih (index + 1) rest
            rw [if_neg (Nat.succ_ne_zero index)] at hmore
            generalize readGroups (index + 1) left rest = found at hmore ⊢
            obtain ⟨groups, ipv4, others⟩ := found
            simp only [List.length_cons] at hmore ⊢
            split_ifs at hcount ⊢ <;> omega
        · simp only [List.length_nil]
          omega

/-- How an IPv6 address is read: eight groups, or some before and after two
colons. -/
theorem readIpv6Addr_eq_some {cs rest : List Char} {addr : Ipv6Addr}
    (h : readIpv6Addr cs = some (addr, rest)) :
    ((readGroups 0 8 cs).1.length = 8 ∧ rest = (readGroups 0 8 cs).2.2) ∨
      ∃ after left, (readGroups 0 8 cs).2.2 = ':' :: ':' :: after ∧
        rest = (readGroups 0 left after).2.2 := by
  unfold readIpv6Addr at h
  generalize readGroups 0 8 cs = head at h ⊢
  dsimp only at h
  by_cases hlength : head.1.length = 8
  · rw [if_pos hlength] at h
    obtain ⟨_, _, heq⟩ := Option.map_eq_some_iff.mp h
    cases heq
    exact .inl ⟨hlength, rfl⟩
  · rw [if_neg hlength] at h
    by_cases hipv4 : head.2.1 = true
    · rw [if_pos hipv4] at h
      cases h
    · rw [if_neg hipv4] at h
      obtain ⟨first, hfirst, h⟩ := Option.bind_eq_some_iff.mp h
      obtain ⟨second, hsecond, h⟩ := Option.bind_eq_some_iff.mp h
      obtain ⟨_, _, heq⟩ := Option.bind_eq_some_iff.mp h
      cases heq
      right
      refine ⟨second.2, 8 - (head.1.length + 1), ?_, rfl⟩
      rw [readGivenChar_eq (u := first.1) hfirst, readGivenChar_eq (u := second.1) hsecond]

theorem readIpv6Addr_spelling (cs : List Char) (addr : Ipv6Addr) (rest : List Char)
    (h : readIpv6Addr cs = some (addr, rest)) : Took isSpelling cs rest := by
  have hhead := readGroups_spelling 8 0 cs
  rcases readIpv6Addr_eq_some h with ⟨_, hrest⟩ | ⟨after, left, hcolons, hrest⟩
  · rw [hrest]
    exact hhead
  · rw [hcolons] at hhead
    have htail := readGroups_spelling left 0 after
    rw [← hrest] at htail
    exact hhead.trans ((htail.cons (by decide)).cons (by decide))

/-- **An IPv6 address has two colons at least.** -/
theorem readIpv6Addr_colons {cs : List Char} {addr : Ipv6Addr}
    (h : readIpv6Addr cs = some (addr, [])) : 2 ≤ cs.count ':' := by
  rcases readIpv6Addr_eq_some h with ⟨hlength, hrest⟩ | ⟨after, left, hcolons, _⟩
  · have hcount := readGroups_count 8 0 cs
    rw [if_pos rfl] at hcount
    omega
  · have hle := (readGroups_spelling 8 0 cs).count_le ':'
    rw [hcolons, List.count_cons_self, List.count_cons_self] at hle
    omega

/-! ## whole texts -/

/-- An address of a whole text is read by one of the readers. -/
theorem parseIpAddr_eq_some {cs : List Char} {ip : IpAddr} (h : parseIpAddr cs = some ip) :
    (∃ addr, ip = .v4 addr ∧ readIpv4Addr cs = some (addr, [])) ∨
      ∃ addr, ip = .v6 addr ∧ readIpv4Addr cs = none ∧ readIpv6Addr cs = some (addr, []) := by
  obtain ⟨found, hfound, hrest⟩ := Option.bind_eq_some_iff.mp h
  have hnil : found.2 = [] := by
    by_contra hne
    exact Option.some_ne_none ip (hrest.symm.trans (if_neg hne))
  have hip : found.1 = ip := Option.some.inj ((if_pos hnil).symm.trans hrest)
  rw [Option.orElse_eq_orElse, Option.orElse_eq_or] at hfound
  rcases Option.or_eq_some_iff.mp hfound with hv4 | ⟨hnone, hv6⟩
  · obtain ⟨read, hread, heq⟩ := Option.map_eq_some_iff.mp hv4
    rw [← heq] at hnil hip
    refine .inl ⟨read.1, hip.symm, ?_⟩
    rw [hread, ← show read.2 = [] from hnil]
  · obtain ⟨read, hread, heq⟩ := Option.map_eq_some_iff.mp hv6
    rw [← heq] at hnil hip
    refine .inr ⟨read.1, hip.symm, Option.map_eq_none_iff.mp hnone, ?_⟩
    rw [hread, ← show read.2 = [] from hnil]

/-- The characters of an address. -/
theorem parseIpAddr_spelling {cs : List Char} {ip : IpAddr} (h : parseIpAddr cs = some ip) :
    ∀ c ∈ cs, isSpelling c = true := by
  rcases parseIpAddr_eq_some h with ⟨addr, _, hread⟩ | ⟨addr, _, _, hread⟩
  · exact (readIpv4Addr_spelling cs addr [] hread).all
  · exact (readIpv6Addr_spelling cs addr [] hread).all

/-! ## what a colon ends -/

/-- A reader reads the same where a colon follows. -/
def ColonEnds {α : Type} (reader : AddrReader α) : Prop :=
  ∀ {cs rest : List Char} {value : α} (more : List Char),
    reader cs = some (value, rest) →
      reader (cs ++ ':' :: more) = some (value, rest ++ ':' :: more)

theorem takeWhile_append_cons {p : Char → Bool} {c : Char} (hc : p c = false)
    (cs more : List Char) : (cs ++ c :: more).takeWhile p = cs.takeWhile p := by
  induction cs with
  | nil => rw [List.nil_append, List.takeWhile_cons_of_neg (by rw [hc]; simp), List.takeWhile_nil]
  | cons first cs ih =>
      rw [List.cons_append, List.takeWhile_cons, List.takeWhile_cons, ih]

theorem readNumber_colonEnds {radix maxDigits bound : Nat} {allow : Bool}
    (hcolon : (toDigit radix ':').isSome = false) :
    ColonEnds (readNumber radix maxDigits bound allow) := by
  intro cs rest value more h
  have hle := (List.takeWhile_sublist (l := cs) fun c => (toDigit radix c).isSome).length_le
  unfold readNumber at h ⊢
  rw [takeWhile_append_cons hcolon]
  generalize cs.takeWhile (fun c => (toDigit radix c).isSome) = digits at h hle ⊢
  dsimp only at h ⊢
  split at h
  · cases h
  split at h
  · cases h
  split at h
  · cases h
  split at h
  · next hlong hempty hzero hbound =>
      rw [if_neg hlong, if_neg hempty, if_neg hzero, if_pos hbound,
        List.drop_append_of_le_length hle]
      cases h
      rfl
  · cases h

theorem readSeparator_colonEnds {α : Type} {sep : Char} {index : Nat} {inner : AddrReader α}
    (hinner : ColonEnds inner) : ColonEnds (readSeparator sep index inner) := by
  intro cs rest value more h
  rw [readSeparator] at h ⊢
  by_cases hindex : index = 0
  · rw [if_pos hindex] at h ⊢
    exact hinner more h
  · rw [if_neg hindex] at h ⊢
    obtain ⟨found, hfound, hread⟩ := Option.bind_eq_some_iff.mp h
    rw [readGivenChar_eq (u := found.1) hfound, List.cons_append, readGivenChar, if_pos rfl]
    exact hinner more hread

/-- A dotted address is read up to a colon. -/
theorem readIpv4Addr_colonEnds : ColonEnds readIpv4Addr := by
  have hoctet : ColonEnds readOctet := readNumber_colonEnds (by decide)
  intro cs rest value more h
  obtain ⟨first, ha, h⟩ := Option.bind_eq_some_iff.mp h
  obtain ⟨second, hb, h⟩ := Option.bind_eq_some_iff.mp h
  obtain ⟨third, hc, h⟩ := Option.bind_eq_some_iff.mp h
  obtain ⟨fourth, hd, h⟩ := Option.bind_eq_some_iff.mp h
  cases h
  unfold readIpv4Addr
  rw [readSeparator_colonEnds hoctet more ha]
  dsimp only [Option.bind_eq_bind, Option.bind_some]
  rw [readSeparator_colonEnds hoctet more hb]
  dsimp only [Option.bind_eq_bind, Option.bind_some]
  rw [readSeparator_colonEnds hoctet more hc]
  dsimp only [Option.bind_eq_bind, Option.bind_some]
  rw [readSeparator_colonEnds hoctet more hd]
  rfl

/-- **A dotted address with a port is no address.** -/
theorem parseIpAddr_port {cs : List Char} {addr : Ipv4Addr}
    (h : readIpv4Addr cs = some (addr, [])) (port : List Char) :
    parseIpAddr (cs ++ ':' :: port) = none := by
  have hread := readIpv4Addr_colonEnds port h
  rw [Option.eq_none_iff_forall_ne_some]
  intro ip hip
  rcases parseIpAddr_eq_some hip with ⟨_, _, hwhole⟩ | ⟨_, _, hnone, _⟩
  · rw [hread] at hwhole
    simp at hwhole
  · rw [hread] at hnone
    cases hnone

end A2a
