import A2a.PercentEncoding

/-!
# A2a.ServiceName

The component label of an app served over SLIMRPC
(`a2acli-transport-slimrpc/src/serve/connect.rs`).

A name is written byte by byte, what is no lowercase letter or digit as
`-xx`; a label that would get too long is made of the name's hashes instead.
`serviceComponentName_valid` says that the labels are valid, and apart as far
as they can be read back.
-/

namespace A2a

/-! ## codes -/

/-- Words of a prefix code are read back one by one. -/
theorem flatMap_injective_of_prefixFree {α β : Type} {f : α → List β} (hne : ∀ a, f a ≠ [])
    (hcode : ∀ a b s t, f a ++ s = f b ++ t → a = b ∧ s = t) :
    ∀ {l m : List α}, l.flatMap f = m.flatMap f → l = m := by
  intro l
  induction l with
  | nil =>
      intro m h
      cases m with
      | nil => rfl
      | cons b m =>
          rw [List.flatMap_cons, List.flatMap_nil, List.nil_eq_append_iff] at h
          exact absurd h.1 (hne b)
  | cons a l ih =>
      intro m h
      cases m with
      | nil =>
          rw [List.flatMap_cons, List.flatMap_nil, List.append_eq_nil_iff] at h
          exact absurd h.1 (hne a)
      | cons b m =>
          rw [List.flatMap_cons, List.flatMap_cons] at h
          obtain ⟨hab, hrest⟩ := hcode a b _ _ h
          rw [hab, ih hrest]

/-! ## digits -/

/-- A digit of `{:x}`. -/
def lowerHexDigit (n : Nat) : Char := Char.ofNat (if n < 10 then 0x30 + n else 0x57 + n)

/-- `{:0width$x}` of a number that has no more digits than that. -/
def lowerHex : Nat → Nat → List Char
  | 0, _ => []
  | width + 1, n => lowerHex width (n / 16) ++ [lowerHexDigit (n % 16)]

theorem lowerHexDigit_label {n : Nat} (h : n < 16) :
    ((lowerHexDigit n).isLower || (lowerHexDigit n).isDigit) = true := by
  have key : ∀ i : Fin 16, ((lowerHexDigit i.val).isLower || (lowerHexDigit i.val).isDigit) = true := by
    decide
  exact key ⟨n, h⟩

theorem lowerHexDigit_injective {m n : Nat} (hm : m < 16) (hn : n < 16)
    (h : lowerHexDigit m = lowerHexDigit n) : m = n := by
  have key : ∀ i j : Fin 16, lowerHexDigit i.val = lowerHexDigit j.val → i.val = j.val := by
    decide
  exact key ⟨m, hm⟩ ⟨n, hn⟩ h

theorem length_lowerHex (width n : Nat) : (lowerHex width n).length = width := by
  induction width generalizing n with
  | zero => rfl
  | succ width ih => rw [lowerHex, List.length_append, ih, List.length_singleton]

/-- Two digits tell a byte. -/
theorem lowerHex_two_injective {m n : Nat} (hm : m < 256) (hn : n < 256)
    (h : lowerHex 2 m = lowerHex 2 n) : m = n := by
  simp only [lowerHex, List.nil_append, List.singleton_append, List.cons.injEq, and_true] at h
  have hhigh := lowerHexDigit_injective (by omega) (by omega) h.1
  have hlow := lowerHexDigit_injective (by omega) (by omega) h.2
  omega

theorem lowerHex_label (width n : Nat) :
    ∀ c ∈ lowerHex width n, (c.isLower || c.isDigit) = true := by
  induction width generalizing n with
  | zero => simp [lowerHex]
  | succ width ih =>
      intro c hc
      rw [lowerHex, List.mem_append, List.mem_singleton] at hc
      rcases hc with hc | rfl
      · exact ih _ c hc
      · exact lowerHexDigit_label (by omega)

/-! ## labels -/

/-- `is_ascii_lowercase` or `is_ascii_digit`. -/
def isLabelByte (b : UInt8) : Bool := (0x61 ≤ b && b ≤ 0x7A) || (0x30 ≤ b && b ≤ 0x39)

/-- What SLIM allows in a label. -/
def isLabelChar (c : Char) : Bool := (c.isLower || c.isDigit) || c = '-'

/-- What a byte adds to the label. -/
def componentByte (b : UInt8) : List Char :=
  if isLabelByte b then [Char.ofNat b.toNat] else '-' :: lowerHex 2 b.toNat

/-- What `parse_proto_name` makes of the parts of a name: their hashes. -/
structure EncodedName where
  component0 : UInt64
  component1 : UInt64
  component2 : UInt64

/-- `name-` and `hash-`, which the labels of the two forms begin with. -/
def nameLead : List Char := ['n', 'a', 'm', 'e', '-']

def hashLead : List Char := ['h', 'a', 's', 'h', '-']

/-- The label of hashes. -/
def hashLabel (encoded : EncodedName) : List Char :=
  hashLead ++ lowerHex 16 encoded.component0.toNat ++ '-' ::
    lowerHex 16 encoded.component1.toNat ++ '-' :: lowerHex 16 encoded.component2.toNat

section label

variable {E : Type} (parseProtoName : String → Except E EncodedName)

/-- The loop over the bytes; a label too long gives way to the hashes. -/
def pushBytes (appName : String) (name : List Char) : List UInt8 → Except E (List Char)
  | [] => .ok name
  | b :: bytes =>
      let name := name ++ componentByte b
      if 1024 < name.length then (parseProtoName appName).map hashLabel
      else pushBytes appName name bytes

/-- `service_component_name`. -/
def serviceComponentName (appName : String) : Except E String :=
  (pushBytes parseProtoName appName nameLead (utf8 appName)).map String.ofList

/-- The label that can be read back, of whatever length. -/
def reversibleLabel (appName : String) : List Char :=
  nameLead ++ (utf8 appName).flatMap componentByte

/-! ## bytes -/

theorem componentByte_ne_nil (b : UInt8) : componentByte b ≠ [] := by
  unfold componentByte
  split <;> simp

theorem isLabelByte_lt {b : UInt8} (h : isLabelByte b = true) : b.toNat < 0x80 := by
  simp only [isLabelByte, Bool.or_eq_true, Bool.and_eq_true, decide_eq_true_eq,
    UInt8.le_iff_toNat_le] at h
  simp at h
  omega

/-- A byte of a label is its own character, and no hyphen. -/
theorem ofNat_label {b : UInt8} (h : isLabelByte b = true) :
    ((Char.ofNat b.toNat).isLower || (Char.ofNat b.toNat).isDigit) = true ∧
      (Char.ofNat b.toNat).toNat = b.toNat ∧ Char.ofNat b.toNat ≠ '-' := by
  have key : ∀ i : Fin 0x80, isLabelByte (UInt8.ofNat i.val) = true →
      ((Char.ofNat i.val).isLower || (Char.ofNat i.val).isDigit) = true ∧
        (Char.ofNat i.val).toNat = i.val ∧ Char.ofNat i.val ≠ '-' := by
    decide
  have hb := key ⟨b.toNat, isLabelByte_lt h⟩
  rw [UInt8.ofNat_toNat] at hb
  exact hb h

/-- What bytes add is read back: a hyphen says that two digits follow. -/
theorem componentByte_code (a b : UInt8) (s t : List Char)
    (h : componentByte a ++ s = componentByte b ++ t) : a = b ∧ s = t := by
  unfold componentByte at h
  by_cases ha : isLabelByte a = true
  · by_cases hb : isLabelByte b = true
    · rw [if_pos ha, if_pos hb, List.singleton_append, List.singleton_append, List.cons.injEq] at h
      have hcode := congrArg Char.toNat h.1
      rw [(ofNat_label ha).2.1, (ofNat_label hb).2.1] at hcode
      exact ⟨UInt8.toNat_inj.mp hcode, h.2⟩
    · rw [if_pos ha, if_neg hb, List.singleton_append, List.cons_append, List.cons.injEq] at h
      exact absurd h.1 (ofNat_label ha).2.2
  · by_cases hb : isLabelByte b = true
    · rw [if_neg ha, if_pos hb, List.singleton_append, List.cons_append, List.cons.injEq] at h
      exact absurd h.1.symm (ofNat_label hb).2.2
    · rw [if_neg ha, if_neg hb, List.cons_append, List.cons_append, List.cons.injEq] at h
      obtain ⟨hhex, hrest⟩ := List.append_inj h.2 (by rw [length_lowerHex, length_lowerHex])
      have halt := a.toNat_lt
      have hblt := b.toNat_lt
      exact ⟨UInt8.toNat_inj.mp (lowerHex_two_injective (by omega) (by omega) hhex), hrest⟩

theorem componentByte_label (b : UInt8) : ∀ c ∈ componentByte b, isLabelChar c = true := by
  intro c hc
  unfold componentByte at hc
  rw [isLabelChar, Bool.or_eq_true]
  split at hc
  · next hb =>
    rw [List.mem_singleton] at hc
    rw [hc]
    exact Or.inl (ofNat_label hb).1
  · rw [List.mem_cons] at hc
    rcases hc with rfl | hc
    · exact Or.inr rfl
    · exact Or.inl (lowerHex_label 2 b.toNat c hc)

/-! ## the two forms -/

theorem reversibleLabel_label (appName : String) :
    ∀ c ∈ reversibleLabel appName, isLabelChar c = true := by
  intro c hc
  rw [reversibleLabel, List.mem_append] at hc
  rcases hc with hc | hc
  · have hlead : (nameLead.all isLabelChar) = true := by decide
    exact List.all_eq_true.mp hlead c hc
  · obtain ⟨b, -, hb⟩ := List.mem_flatMap.mp hc
    exact componentByte_label b c hb

/-- **A label that can be read back** belongs to one name. -/
theorem reversibleLabel_injective {a b : String} (h : reversibleLabel a = reversibleLabel b) :
    a = b := by
  rw [reversibleLabel, reversibleLabel] at h
  exact utf8_injective
    (flatMap_injective_of_prefixFree componentByte_ne_nil componentByte_code
      (List.append_cancel_left h))

theorem length_hashLabel (encoded : EncodedName) : (hashLabel encoded).length = 55 := by
  simp only [hashLabel, List.length_append, List.length_cons, length_lowerHex]
  rfl

theorem hashLabel_label (encoded : EncodedName) : ∀ c ∈ hashLabel encoded, isLabelChar c = true := by
  have hlead : (hashLead.all isLabelChar) = true := by decide
  intro c hc
  have hhex : ∀ n, c ∈ lowerHex 16 n → isLabelChar c = true := by
    intro n hmem
    rw [isLabelChar, Bool.or_eq_true]
    exact Or.inl (lowerHex_label 16 n c hmem)
  simp only [hashLabel, List.append_assoc, List.cons_append, List.mem_append, List.mem_cons] at hc
  rcases hc with hc | hc | rfl | hc | rfl | hc
  · exact List.all_eq_true.mp hlead c hc
  · exact hhex _ hc
  · rfl
  · exact hhex _ hc
  · rfl
  · exact hhex _ hc

/-- The loop stops where the label gets too long, and only there. -/
theorem pushBytes_eq (appName : String) (bytes : List UInt8) {name : List Char}
    (h : name.length ≤ 1024) :
    pushBytes parseProtoName appName name bytes =
      if 1024 < (name ++ bytes.flatMap componentByte).length then
        (parseProtoName appName).map hashLabel
      else .ok (name ++ bytes.flatMap componentByte) := by
  induction bytes generalizing name with
  | nil =>
      rw [List.flatMap_nil, List.append_nil, if_neg (by omega), pushBytes]
  | cons b bytes ih =>
      rw [pushBytes, List.flatMap_cons, ← List.append_assoc]
      by_cases hlong : 1024 < (name ++ componentByte b).length
      · rw [if_pos hlong, if_pos (by rw [List.length_append]; omega)]
      · rw [if_neg hlong, ih (by omega)]

/-- **The label of a name** is the one that can be read back unless that is too long. -/
theorem serviceComponentName_eq (appName : String) :
    serviceComponentName parseProtoName appName =
      if 1024 < (reversibleLabel appName).length then
        (parseProtoName appName).map fun encoded => String.ofList (hashLabel encoded)
      else .ok (String.ofList (reversibleLabel appName)) := by
  rw [serviceComponentName, pushBytes_eq parseProtoName appName _ (by decide), ← reversibleLabel]
  split
  · cases parseProtoName appName <;> rfl
  · rfl

/-- A label of the given form. -/
def HasForm (form : List Char) (label : String) : Prop := form <+: label.toList

theorem hasForm_append (form rest : List Char) : HasForm form (String.ofList (form ++ rest)) := by
  rw [HasForm, String.toList_ofList]
  exact List.prefix_append form rest

theorem reversibleLabel_form (appName : String) :
    HasForm nameLead (String.ofList (reversibleLabel appName)) ∧
      ¬ HasForm hashLead (String.ofList (reversibleLabel appName)) := by
  constructor
  · rw [reversibleLabel]
    exact hasForm_append nameLead _
  · rw [HasForm, String.toList_ofList, reversibleLabel]
    simp [nameLead, hashLead]

theorem hashLabel_form (encoded : EncodedName) :
    HasForm hashLead (String.ofList (hashLabel encoded)) ∧
      ¬ HasForm nameLead (String.ofList (hashLabel encoded)) := by
  constructor
  · rw [hashLabel, List.append_assoc, List.append_assoc]
    exact hasForm_append hashLead _
  · rw [HasForm, String.toList_ofList, hashLabel]
    simp [nameLead, hashLead]

/-- A label is of one form or the other, by the length of the first. -/
theorem serviceComponentName_cases {appName label : String}
    (h : serviceComponentName parseProtoName appName = .ok label) :
    ((reversibleLabel appName).length ≤ 1024 ∧ label = String.ofList (reversibleLabel appName)) ∨
      (1024 < (reversibleLabel appName).length ∧
        ∃ encoded, label = String.ofList (hashLabel encoded)) := by
  rw [serviceComponentName_eq] at h
  split at h
  · next hlong =>
    cases hparse : parseProtoName appName with
    | error e =>
        rw [hparse] at h
        contradiction
    | ok encoded =>
        rw [hparse] at h
        exact Or.inr ⟨hlong, encoded, (Except.ok.inj h).symm⟩
  · next hshort => exact Or.inl ⟨by omega, (Except.ok.inj h).symm⟩

/-- **Labels are valid and do not collide.**  A label has at most 1024
characters, all of them lowercase letters, digits or hyphens; labels of the
form that can be read back belong to one name each; a label is of the other
form exactly if that one would be too long; and none is of both forms. -/
theorem serviceComponentName_valid (a b : String) (label other : String)
    (ha : serviceComponentName parseProtoName a = .ok label)
    (hb : serviceComponentName parseProtoName b = .ok other) :
    label.length ≤ 1024 ∧ label.toList.all isLabelChar = true ∧
      (a ≠ b → HasForm nameLead label → HasForm nameLead other → label ≠ other) ∧
      (HasForm hashLead label ↔ 1024 < (reversibleLabel a).length) ∧
      (HasForm nameLead label ↔ ¬ HasForm hashLead label) ∧
      (HasForm hashLead label → HasForm nameLead other → label ≠ other) := by
  have hboth : HasForm hashLead label → HasForm nameLead other → label ≠ other := by
    rintro hhash hname rfl
    rcases serviceComponentName_cases parseProtoName ha with ⟨-, hlabel⟩ | ⟨-, encoded, hlabel⟩
    · rw [hlabel] at hhash
      exact (reversibleLabel_form a).2 hhash
    · rw [hlabel] at hname
      exact (hashLabel_form encoded).2 hname
  have hinj : a ≠ b → HasForm nameLead label → HasForm nameLead other → label ≠ other := by
    rintro hne hname hname' rfl
    rcases serviceComponentName_cases parseProtoName ha with ⟨-, hlabel⟩ | ⟨-, encoded, hlabel⟩
    · rcases serviceComponentName_cases parseProtoName hb with ⟨-, hother⟩ | ⟨-, encoded, hother⟩
      · have hsame := congrArg String.toList (hlabel.symm.trans hother)
        rw [String.toList_ofList, String.toList_ofList] at hsame
        exact hne (reversibleLabel_injective hsame)
      · rw [hother] at hname
        exact (hashLabel_form encoded).2 hname
    · rw [hlabel] at hname
      exact (hashLabel_form encoded).2 hname
  rcases serviceComponentName_cases parseProtoName ha with ⟨hlen, hlabel⟩ | ⟨hlen, encoded, hlabel⟩
  · have hform := reversibleLabel_form a
    rw [← hlabel] at hform
    refine ⟨?_, ?_, hinj, by simp only [hform.2, false_iff]; omega, by simp only [hform, not_false_iff], hboth⟩
    · rwa [hlabel, ← String.length_toList, String.toList_ofList]
    · rw [hlabel, String.toList_ofList, List.all_eq_true]
      exact reversibleLabel_label a
  · have hform := hashLabel_form encoded
    rw [← hlabel] at hform
    refine ⟨?_, ?_, hinj, by simp only [hform.1, hlen], by simp only [hform, not_true], hboth⟩
    · rw [hlabel, ← String.length_toList, String.toList_ofList, length_hashLabel]
      omega
    · rw [hlabel, String.toList_ofList, List.all_eq_true]
      exact hashLabel_label encoded

end label

/-- Hyphens of a name and slashes are told apart; no hash is asked for. -/
theorem serviceComponentName_valid_demo :
    let parseProtoName : String → Except String EncodedName := fun name =>
      .error s!"no hash of {name}"
    serviceComponentName parseProtoName "org/demo/a-b" = .ok "name-org-2fdemo-2fa-2db" ∧
      "name-org-2fdemo-2fa-2db" ≠ "name-org-2fdemo-2da-2fb" := by
  intro parseProtoName
  have hslash : serviceComponentName parseProtoName "org/demo/a-b" =
      .ok "name-org-2fdemo-2fa-2db" := rfl
  have hhyphen : serviceComponentName parseProtoName "org/demo-a/b" =
      .ok "name-org-2fdemo-2da-2fb" := rfl
  have hvalid := serviceComponentName_valid parseProtoName "org/demo/a-b" "org/demo-a/b" _ _
    hslash hhyphen
  exact ⟨hslash, hvalid.2.2.1 (by decide) ⟨_, rfl⟩ ⟨_, rfl⟩⟩

end A2a
