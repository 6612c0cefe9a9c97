import A2a.JsonText
import Mathlib.Data.List.Forall2
import Mathlib.Data.Nat.PSub

/-!
# A2a.JsonText.Compact

A JSON value as one line of text, the way `serde_json::to_string` writes it,
and what reading the text gives.

A reader opens at most `recursionLimit` arrays and objects inside one
another, and a double need not read as it was.  `Value.reread` is what a
value reads as, for any way to read numbers: something exactly if it does
not nest too deep and each of its numbers reads (`reread_isSome_iff`).

`readText` is a reader of such texts; what it makes of a written value is
`reread` (`readText_compact`).
-/

namespace A2a

/-! ## what a value reads as -/

/-- How many arrays and objects are open at once: `serde_json` gives up at
the next one. -/
def recursionLimit : Nat := 127

mutual

/-- How many arrays and objects of a value are inside one another. -/
def Value.depth : Value → Nat
  | .null | .bool _ | .number _ | .string _ => 0
  | .array vs => Value.depthOfItems vs + 1
  | .object fields => Value.depthOfFields fields + 1

def Value.depthOfItems : List Value → Nat
  | [] => 0
  | v :: vs => max v.depth (Value.depthOfItems vs)

def Value.depthOfFields : List (String × Value) → Nat
  | [] => 0
  | (_, v) :: fields => max v.depth (Value.depthOfFields fields)

end

mutual

/-- The numbers of a value. -/
def Value.numbers : Value → List Number
  | .null | .bool _ | .string _ => []
  | .number n => [n]
  | .array vs => Value.numbersOfItems vs
  | .object fields => Value.numbersOfFields fields

def Value.numbersOfItems : List Value → List Number
  | [] => []
  | v :: vs => v.numbers ++ Value.numbersOfItems vs

def Value.numbersOfFields : List (String × Value) → List Number
  | [] => []
  | (_, v) :: fields => v.numbers ++ Value.numbersOfFields fields

end

mutual

/-- What a written value reads as, with `limit` arrays and objects still to
be opened and each number read as `number` tells. -/
def Value.reread (number : Number → Option Number) : Nat → Value → Option Value
  | _, .null => some .null
  | _, .bool b => some (.bool b)
  | _, .number n => (number n).map .number
  | _, .string s => some (.string s)
  | 0, .array _ => none
  | limit + 1, .array vs => (Value.rereadItems number limit vs).map .array
  | 0, .object _ => none
  | limit + 1, .object fields => (Value.rereadFields number limit fields).map .object

def Value.rereadItems (number : Number → Option Number) (limit : Nat) :
    List Value → Option (List Value)
  | [] => some []
  | v :: vs =>
      (v.reread number limit).bind fun v => (Value.rereadItems number limit vs).map (v :: ·)

def Value.rereadFields (number : Number → Option Number) (limit : Nat) :
    List (String × Value) → Option (List (String × Value))
  | [] => some []
  | (key, v) :: fields =>
      (v.reread number limit).bind fun v =>
        (Value.rereadFields number limit fields).map ((key, v) :: ·)

end

variable {number : Number → Option Number} {limit : Nat}

mutual

/-- A value reads exactly if it is not too deep and all its numbers read. -/
theorem reread_isSome_iff (number : Number → Option Number) (limit : Nat) (v : Value) :
    (v.reread number limit).isSome = true ↔
      v.depth ≤ limit ∧ ∀ n ∈ v.numbers, (number n).isSome = true := by
  cases v with
  | null => simp [Value.reread, Value.depth, Value.numbers]
  | bool b => simp [Value.reread, Value.depth, Value.numbers]
  | number n => simp [Value.reread, Value.depth, Value.numbers]
  | string s => simp [Value.reread, Value.depth, Value.numbers]
  | array vs =>
      cases limit with
      | zero => simp [Value.reread, Value.depth]
      | succ limit =>
          rw [Value.reread, Option.isSome_map, rereadItems_isSome_iff number limit vs, Value.depth,
            Value.numbers, Nat.add_le_add_iff_right]
  | object fields =>
      cases limit with
      | zero => simp [Value.reread, Value.depth]
      | succ limit =>
          rw [Value.reread, Option.isSome_map, rereadFields_isSome_iff number limit fields,
            Value.depth, Value.numbers, Nat.add_le_add_iff_right]

theorem rereadItems_isSome_iff (number : Number → Option Number) (limit : Nat) (vs : List Value) :
    (Value.rereadItems number limit vs).isSome = true ↔
      Value.depthOfItems vs ≤ limit ∧
        ∀ n ∈ Value.numbersOfItems vs, (number n).isSome = true := by
  cases vs with
  | nil => simp [Value.rereadItems, Value.depthOfItems, Value.numbersOfItems]
  | cons v vs =>
      have hv := reread_isSome_iff number limit v
      have hvs := rereadItems_isSome_iff number limit vs
      rw [Value.rereadItems, Value.depthOfItems, Value.numbersOfItems, Nat.max_le,
        List.forall_mem_append, and_and_and_comm, ← hv, ← hvs]
      cases v.reread number limit <;> simp

theorem rereadFields_isSome_iff (number : Number → Option Number) (limit : Nat)
    (fields : List (String × Value)) :
    (Value.rereadFields number limit fields).isSome = true ↔
      Value.depthOfFields fields ≤ limit ∧
        ∀ n ∈ Value.numbersOfFields fields, (number n).isSome = true := by
  cases fields with
  | nil => simp [Value.rereadFields, Value.depthOfFields, Value.numbersOfFields]
  | cons field fields =>
      obtain ⟨key, v⟩ := field
      have hv := reread_isSome_iff number limit v
      have hfields := rereadFields_isSome_iff number limit fields
      rw [Value.rereadFields, Value.depthOfFields, Value.numbersOfFields, Nat.max_le,
        List.forall_mem_append, and_and_and_comm, ← hv, ← hfields]
      cases v.reread number limit <;> simp

end

mutual

/-- With more to be opened a value reads as the same. -/
theorem reread_mono {limit limit' : Nat} (hle : limit ≤ limit') {v v' : Value}
    (h : v.reread number limit = some v') : v.reread number limit' = some v' := by
  cases v with
  | null => exact h
  | bool b => exact h
  | number n => exact h
  | string s => exact h
  | array vs =>
      cases limit with
      | zero => contradiction
      | succ limit =>
          obtain ⟨limit', rfl⟩ : ∃ k, limit' = k + 1 := ⟨limit' - 1, by omega⟩
          obtain ⟨vs', hvs, rfl⟩ := Option.map_eq_some_iff.mp h
          rw [Value.reread, rereadItems_mono (by omega) hvs, Option.map_some]
  | object fields =>
      cases limit with
      | zero => contradiction
      | succ limit =>
          obtain ⟨limit', rfl⟩ : ∃ k, limit' = k + 1 := ⟨limit' - 1, by omega⟩
          obtain ⟨fields', hfields, rfl⟩ := Option.map_eq_some_iff.mp h
          rw [Value.reread, rereadFields_mono (by omega) hfields, Option.map_some]

theorem rereadItems_mono {limit limit' : Nat} (hle : limit ≤ limit') {vs vs' : List Value}
    (h : Value.rereadItems number limit vs = some vs') :
    Value.rereadItems number limit' vs = some vs' := by
  cases vs with
  | nil => exact h
  | cons v vs =>
      obtain ⟨v', hv, h⟩ := Option.bind_eq_some_iff.mp h
      obtain ⟨vs'', hvs, rfl⟩ := Option.map_eq_some_iff.mp h
      rw [Value.rereadItems, reread_mono hle hv, Option.bind_some, rereadItems_mono hle hvs,
        Option.map_some]

theorem rereadFields_mono {limit limit' : Nat} (hle : limit ≤ limit')
    {fields fields' : List (String × Value)}
    (h : Value.rereadFields number limit fields = some fields') :
    Value.rereadFields number limit' fields = some fields' := by
  cases fields with
  | nil => exact h
  | cons field fields =>
      obtain ⟨key, v⟩ := field
      obtain ⟨v', hv, h⟩ := Option.bind_eq_some_iff.mp h
      obtain ⟨fields'', hfields, rfl⟩ := Option.map_eq_some_iff.mp h
      rw [Value.rereadFields, reread_mono hle hv, Option.bind_some,
        rereadFields_mono hle hfields, Option.map_some]

end

/-- Items are read one by one. -/
theorem rereadItems_eq_some {vs vs' : List Value} :
    Value.rereadItems number limit vs = some vs' ↔
      List.Forall₂ (fun v v' => v.reread number limit = some v') vs vs' := by
  induction vs generalizing vs' with
  | nil => simp [Value.rereadItems, eq_comm]
  | cons v vs ih =>
      rw [Value.rereadItems, Option.bind_eq_some_iff, List.forall₂_cons_left_iff]
      constructor
      · rintro ⟨v', hv, h⟩
        obtain ⟨vs', hvs, rfl⟩ := Option.map_eq_some_iff.mp h
        exact ⟨v', vs', hv, ih.mp hvs, rfl⟩
      · rintro ⟨v', vs', hv, hvs, rfl⟩
        exact ⟨v', hv, Option.map_eq_some_iff.mpr ⟨vs', ih.mpr hvs, rfl⟩⟩

/-- Fields keep their keys and are read one by one. -/
theorem rereadFields_eq_some {fields fields' : List (String × Value)} :
    Value.rereadFields number limit fields = some fields' ↔
      List.Forall₂ (fun f f' => f.1 = f'.1 ∧ f.2.reread number limit = some f'.2)
        fields fields' := by
  induction fields generalizing fields' with
  | nil => simp [Value.rereadFields, eq_comm]
  | cons field fields ih =>
      obtain ⟨key, v⟩ := field
      rw [Value.rereadFields, Option.bind_eq_some_iff, List.forall₂_cons_left_iff]
      constructor
      · rintro ⟨v', hv, h⟩
        obtain ⟨fields', hfields, rfl⟩ := Option.map_eq_some_iff.mp h
        exact ⟨(key, v'), fields', ⟨rfl, hv⟩, ih.mp hfields, rfl⟩
      · rintro ⟨⟨key', v'⟩, fields', ⟨hkey, hv⟩, hfields, rfl⟩
        cases hkey
        exact ⟨v', hv, Option.map_eq_some_iff.mpr ⟨fields', ih.mpr hfields, rfl⟩⟩

/-- Items are read if each is. -/
theorem rereadItems_isSome {vs : List Value} :
    (Value.rereadItems number limit vs).isSome = true ↔
      ∀ v ∈ vs, (v.reread number limit).isSome = true := by
  induction vs with
  | nil => simp [Value.rereadItems]
  | cons v vs ih =>
      rw [List.forall_mem_cons, ← ih, Value.rereadItems]
      cases v.reread number limit <;> simp

theorem rereadFields_isSome {fields : List (String × Value)} :
    (Value.rereadFields number limit fields).isSome = true ↔
      ∀ f ∈ fields, (f.2.reread number limit).isSome = true := by
  induction fields with
  | nil => simp [Value.rereadFields]
  | cons field fields ih =>
      obtain ⟨key, v⟩ := field
      rw [List.forall_mem_cons, ← ih, Value.rereadFields]
      cases v.reread number limit <;> simp

/-- What is under a key is read from what was written under it. -/
theorem lookup_reread {fields fields' : List (String × Value)}
    (h : List.Forall₂ (fun f f' => f.1 = f'.1 ∧ f.2.reread number limit = some f'.2) fields fields')
    (key : String) :
    fields'.lookup key = (fields.lookup key).bind (Value.reread number limit) := by
  induction h with
  | nil => rfl
  | @cons f f' fields fields' hf _ ih =>
      obtain ⟨key', v⟩ := f
      obtain ⟨key'', v'⟩ := f'
      obtain ⟨hkey, hv⟩ := hf
      cases hkey
      rw [List.lookup_cons, List.lookup_cons]
      cases key == key' with
      | true => exact hv.symm
      | false => exact ih

/-! ## the writer -/

section Writer

variable (floatText : UInt64 → String)

mutual

/-- `CompactFormatter`. -/
def Value.compact : Value → List Char
  | .null => ['n', 'u', 'l', 'l']
  | .bool b => if b then ['t', 'r', 'u', 'e'] else ['f', 'a', 'l', 's', 'e']
  | .number x => (x.text floatText).toList
  | .string s => quoted s
  | .array vs => '[' :: (Value.compactItems true vs ++ [']'])
  | .object fields => '\x7b' :: (Value.compactFields true fields ++ ['\x7d'])

def Value.compactItems (first : Bool) : List Value → List Char
  | [] => []
  | v :: vs => (if first then [] else [',']) ++ (v.compact ++ Value.compactItems false vs)

def Value.compactFields (first : Bool) : List (String × Value) → List Char
  | [] => []
  | (key, v) :: fields =>
      (if first then [] else [',']) ++
        (quoted key ++ ':' :: (v.compact ++ Value.compactFields false fields))

end

end Writer

section Characters

variable {floatText : UInt64 → String} {c : Char}

theorem not_mem_quoted (hc : c.toNat < 0x20) (s : String) : c ∉ quoted s := by
  have hprintable : printable c = false := by
    rw [printable, Bool.and_eq_false_iff, decide_eq_false_iff_not]
    exact .inl (by omega)
  rw [mem_quoted hprintable]
  omega

theorem not_mem_ascii {cs : List Char} (hcs : cs.all printable = true) (hc : c.toNat < 0x20) :
    c ∉ cs := by
  refine not_mem_of_printable hcs ?_
  rw [printable, Bool.and_eq_false_iff, decide_eq_false_iff_not]
  exact .inl (by omega)

mutual

/-- No character below U+0020 is written. -/
theorem not_mem_compact (hfloat : ∀ bits, NumberText (floatText bits)) (hc : c.toNat < 0x20)
    (v : Value) : c ∉ v.compact floatText := by
  cases v with
  | null => exact not_mem_ascii rfl hc
  | bool b => cases b <;> exact not_mem_ascii rfl hc
  | number n => exact not_mem_ascii (n.numberText hfloat).printable hc
  | string s => exact not_mem_quoted hc s
  | array vs =>
      have hopening : c ∉ ['['] := not_mem_ascii (by decide) hc
      have hclosing : c ∉ [']'] := not_mem_ascii (by decide) hc
      have hitems := not_mem_compactItems hfloat hc true vs
      rw [List.mem_singleton] at hopening hclosing
      simp [Value.compact, hopening, hclosing, hitems]
  | object fields =>
      have hopening : c ∉ ['\x7b'] := not_mem_ascii (by decide) hc
      have hclosing : c ∉ ['\x7d'] := not_mem_ascii (by decide) hc
      have hfields := not_mem_compactFields hfloat hc true fields
      rw [List.mem_singleton] at hopening hclosing
      simp [Value.compact, hopening, hclosing, hfields]

theorem not_mem_compactItems (hfloat : ∀ bits, NumberText (floatText bits)) (hc : c.toNat < 0x20)
    (first : Bool) (vs : List Value) : c ∉ Value.compactItems floatText first vs := by
  cases vs with
  | nil => exact List.not_mem_nil
  | cons v vs =>
      have hcomma : c ∉ if first then [] else [','] :=
        not_mem_ascii (by cases first <;> decide) hc
      rw [Value.compactItems, List.mem_append, List.mem_append, not_or, not_or]
      exact ⟨hcomma, not_mem_compact hfloat hc v, not_mem_compactItems hfloat hc false vs⟩

theorem not_mem_compactFields (hfloat : ∀ bits, NumberText (floatText bits))
    (hc : c.toNat < 0x20) (first : Bool) (fields : List (String × Value)) :
    c ∉ Value.compactFields floatText first fields := by
  cases fields with
  | nil => exact List.not_mem_nil
  | cons field fields =>
      obtain ⟨key, v⟩ := field
      have hcomma : c ∉ if first then [] else [','] :=
        not_mem_ascii (by cases first <;> decide) hc
      have hcolon : c ∉ [':'] := not_mem_ascii (by decide) hc
      rw [List.mem_singleton] at hcolon
      rw [Value.compactFields, List.mem_append, List.mem_append, List.mem_cons, List.mem_append,
        not_or, not_or, not_or, not_or]
      exact ⟨hcomma, not_mem_quoted hc key, hcolon, not_mem_compact hfloat hc v,
        not_mem_compactFields hfloat hc false fields⟩

end

end Characters

/-! ## the reader -/

/-- The value of a hexadecimal digit. -/
def hexDigitValue (c : Char) : Option Nat :=
  if c.isDigit then some (c.toNat - 0x30)
  else if 'a' ≤ c ∧ c ≤ 'f' then some (c.toNat - 0x57)
  else if 'A' ≤ c ∧ c ≤ 'F' then some (c.toNat - 0x37)
  else none

/-- The number of some hexadecimal digits. -/
def hexNumber (cs : List Char) : Option Nat :=
  cs.foldlM (fun n c => (hexDigitValue c).map fun d => 16 * n + d) 0

/-- What a letter after a backslash stands for. -/
def shortEscape (c : Char) : Option Char :=
  if c = '"' ∨ c = '\\' ∨ c = '/' then some c
  else if c = 'b' then some '\x08'
  else if c = 't' then some '\t'
  else if c = 'n' then some '\n'
  else if c = 'f' then some '\x0c'
  else if c = 'r' then some '\r'
  else none

/-- A string from after its opening quote on, and what follows it.  Pairs of
surrogates, which are not written, are not read. -/
def readString : List Char → Option (List Char × List Char)
  | [] => none
  | '"' :: rest => some ([], rest)
  | '\\' :: 'u' :: a :: b :: c :: d :: rest =>
      (hexNumber [a, b, c, d]).bind fun n =>
        if n.isValidChar then (readString rest).map fun p => (Char.ofNat n :: p.1, p.2) else none
  | '\\' :: e :: rest =>
      (shortEscape e).bind fun c => (readString rest).map fun p => (c :: p.1, p.2)
  | c :: rest =>
      if c = '\\' ∨ c.toNat < 0x20 then none
      else (readString rest).map fun p => (c :: p.1, p.2)

/-- What may stand in a number. -/
def isNumberChar (c : Char) : Bool := c.isDigit || c ∈ ['+', '-', '.', 'e', 'E']

/-- A literal from its second letter on, and what follows it. -/
def readLiteral (letters : List Char) (v : Value) (cs : List Char) : Option (Value × List Char) :=
  if letters.isPrefixOf cs then some (v, cs.drop letters.length) else none

/-- A comma, but not before the first entry. -/
def readComma (first : Bool) (cs : List Char) : Option (List Char) :=
  if first then some cs
  else
    match cs with
    | ',' :: cs => some cs
    | _ => none

/-- The key of a field and its colon. -/
def readKey : List Char → Option (String × List Char)
  | '"' :: cs =>
      (readString cs).bind fun p =>
        match p.2 with
        | ':' :: rest => some (String.ofList p.1, rest)
        | _ => none
  | _ => none

section Reader

variable (readNumber : List Char → Option Number)

mutual

/-- A value and what follows it, with `limit` arrays and objects still to be
opened. -/
def readValue : Nat → Nat → List Char → Option (Value × List Char)
  | 0, _, _ => none
  | _ + 1, _, [] => none
  | fuel + 1, limit, c :: cs =>
      if c = '"' then (readString cs).map fun p => (.string (String.ofList p.1), p.2)
      else if c = '[' then
        (Nat.ppred limit).bind fun limit =>
          (readItems fuel limit true cs).map fun p => (.array p.1, p.2)
      else if c = '\x7b' then
        (Nat.ppred limit).bind fun limit =>
          (readFields fuel limit true cs).map fun p => (.object p.1, p.2)
      else if c = 'n' then readLiteral ['u', 'l', 'l'] .null cs
      else if c = 't' then readLiteral ['r', 'u', 'e'] (.bool true) cs
      else if c = 'f' then readLiteral ['a', 'l', 's', 'e'] (.bool false) cs
      else
        (readNumber ((c :: cs).takeWhile isNumberChar)).map fun n =>
          (.number n, (c :: cs).dropWhile isNumberChar)

/-- The items of an array up to its bracket. -/
def readItems : Nat → Nat → Bool → List Char → Option (List Value × List Char)
  | 0, _, _, _ => none
  | fuel + 1, limit, first, cs =>
      if cs.head? = some ']' then some ([], cs.tail)
      else
        (readComma first cs).bind fun cs =>
          (readValue fuel limit cs).bind fun p =>
            (readItems fuel limit false p.2).map fun q => (p.1 :: q.1, q.2)

/-- The fields of an object up to its brace. -/
def readFields : Nat → Nat → Bool → List Char → Option (List (String × Value) × List Char)
  | 0, _, _, _ => none
  | fuel + 1, limit, first, cs =>
      if cs.head? = some '\x7d' then some ([], cs.tail)
      else
        (readComma first cs).bind fun cs =>
          (readKey cs).bind fun key =>
            (readValue fuel limit key.2).bind fun p =>
              (readFields fuel limit false p.2).map fun q => ((key.1, p.1) :: q.1, q.2)

end

/-- A text that is a value. -/
def readText (text : List Char) : Option Value :=
  match readValue readNumber (text.length + 1) recursionLimit text with
  | some (v, []) => some v
  | _ => none

end Reader

/-! ## reading what was written -/

theorem hexNumber_control : ∀ n : Fin 0x20, hexNumber (lowerHex 4 n) = some n.val := by decide

/-- An escape reads as the character it stands for. -/
theorem readString_escapeChar (c : Char) (rest : List Char) :
    readString (escapeChar c ++ rest) = (readString rest).map fun p => (c :: p.1, p.2) := by
  unfold escapeChar
  split_ifs with _ _ _ _ _ _ _ hlow
  on_goal 8 =>
    -- the four digits of a control character
    have hhex := hexNumber_control ⟨c.toNat, hlow⟩
    have hlength := length_lowerHex 4 c.toNat
    have hvalid : c.toNat.isValidChar := c.valid
    match hdigits : lowerHex 4 c.toNat, hlength with
    | [a, b, d, e], _ =>
        simp only [hdigits] at hhex
        simp only [List.cons_append, List.nil_append, readString, hhex, Option.bind_some,
          hvalid, if_true, Char.ofNat_toNat]
  on_goal 8 =>
    have hquote : c ≠ '"' := by assumption
    have hslash : ¬(c = '\\' ∨ c.toNat < 0x20) := by
      simp only [not_or]
      exact ⟨by assumption, hlow⟩
    rw [List.cons_append, List.nil_append, readString.eq_def]
    split <;> simp_all
  all_goals
    subst c
    simp [readString, shortEscape]

theorem readString_escaped (cs rest : List Char) :
    readString (cs.flatMap escapeChar ++ '"' :: rest) = some (cs, rest) := by
  induction cs with
  | nil => simp [readString]
  | cons c cs ih =>
      rw [List.flatMap_cons, List.append_assoc, readString_escapeChar, ih]
      rfl

/-- Reading after an opening quote finds the string. -/
theorem readString_quoted (s : String) (rest : List Char) :
    ∃ cs, quoted s ++ rest = '"' :: cs ∧ readString cs = some (s.toList, rest) := by
  refine ⟨s.toList.flatMap escapeChar ++ '"' :: rest, ?_, readString_escaped _ _⟩
  rw [quoted, List.cons_append, List.append_assoc]
  rfl

theorem readKey_quoted (key : String) (rest : List Char) :
    readKey (quoted key ++ ':' :: rest) = some (key, rest) := by
  obtain ⟨cs, hcs, hread⟩ := readString_quoted key (':' :: rest)
  rw [hcs, readKey, hread]
  simp

/-- The text does not go on with a number. -/
def Stops (rest : List Char) : Prop := ∀ c ∈ rest.head?, isNumberChar c = false

section Compact

variable {floatText : UInt64 → String} {readNumber : List Char → Option Number}

theorem NumberText.isNumberChar {s : String} (h : NumberText s) :
    ∀ c ∈ s.toList, isNumberChar c = true := by
  intro c hc
  rw [A2a.isNumberChar, Bool.or_eq_true, decide_eq_true_iff]
  exact h.chars c hc

/-- What a number begins with begins nothing else. -/
theorem ne_of_isNumberChar {c d : Char} (hc : isNumberChar c = true)
    (hd : isNumberChar d = false) : c ≠ d := by
  rintro rfl
  exact Bool.noConfusion (hc.symm.trans hd)

theorem readValue_number {s : String} (hs : NumberText s) (fuel limit : Nat) {rest : List Char}
    (hrest : Stops rest) :
    readValue readNumber (fuel + 1) limit (s.toList ++ rest) =
      (readNumber s.toList).map fun n => (.number n, rest) := by
  have hchars := hs.isNumberChar
  cases hcs : s.toList with
  | nil => exact absurd (String.toList_inj.mp hcs) hs.nonempty
  | cons c cs =>
      rw [hcs] at hchars
      have hc := hchars c (.head _)
      have htake : (c :: (cs ++ rest)).takeWhile isNumberChar = c :: cs := by
        rw [← List.cons_append, List.takeWhile_append_of_pos hchars]
        cases rest with
        | nil => simp
        | cons d rest => simp [hrest d rfl]
      have hdrop : (c :: (cs ++ rest)).dropWhile isNumberChar = rest := by
        rw [← List.cons_append, List.dropWhile_append_of_pos hchars]
        cases rest with
        | nil => rfl
        | cons d rest => simp [hrest d rfl]
      rw [List.cons_append, readValue, if_neg (ne_of_isNumberChar hc (by decide)),
        if_neg (ne_of_isNumberChar hc (by decide)), if_neg (ne_of_isNumberChar hc (by decide)),
        if_neg (ne_of_isNumberChar hc (by decide)), if_neg (ne_of_isNumberChar hc (by decide)),
        if_neg (ne_of_isNumberChar hc (by decide)), htake, hdrop]

/-- No text of a value is empty or begins as an array ends. -/
theorem compact_cons (hfloat : ∀ bits, NumberText (floatText bits)) (v : Value) :
    ∃ c cs, v.compact floatText = c :: cs ∧ c ≠ ']' := by
  cases v with
  | null => exact ⟨_, _, rfl, by decide⟩
  | bool b => cases b <;> exact ⟨_, _, rfl, by decide⟩
  | number n =>
      have htext := n.numberText hfloat
      have hchars := htext.isNumberChar
      rw [Value.compact]
      cases hcs : (n.text floatText).toList with
      | nil => exact absurd (String.toList_inj.mp hcs) htext.nonempty
      | cons c cs =>
          rw [hcs] at hchars
          exact ⟨c, cs, rfl, ne_of_isNumberChar (hchars c (.head _)) (by decide)⟩
  | string s => exact ⟨_, _, rfl, by decide⟩
  | array vs => exact ⟨_, _, rfl, by decide⟩
  | object fields => exact ⟨_, _, rfl, by decide⟩

/-- What follows an item: a comma or the bracket. -/
theorem stops_compactItems (vs : List Value) (rest : List Char) :
    Stops (Value.compactItems floatText false vs ++ ']' :: rest) := by
  cases vs <;>
    · intro c hc
      cases hc
      decide

theorem stops_compactFields (fields : List (String × Value)) (rest : List Char) :
    Stops (Value.compactFields floatText false fields ++ '\x7d' :: rest) := by
  cases fields <;>
    · intro c hc
      cases hc
      decide

mutual

/-- A written value reads as `reread` says, whatever follows it. -/
theorem readValue_compact (hfloat : ∀ bits, NumberText (floatText bits)) (v : Value)
    (fuel limit : Nat) (rest : List Char) (hfuel : (v.compact floatText).length ≤ fuel) (hrest : Stops rest) :
    readValue readNumber fuel limit (v.compact floatText ++ rest) =
      (v.reread (fun n => readNumber (n.text floatText).toList) limit).map (·, rest) := by
  obtain ⟨c, cs, hcs, -⟩ := compact_cons hfloat v
  cases fuel with
  | zero => simp [hcs] at hfuel
  | succ fuel =>
      cases v with
      | null => rfl
      | bool b => cases b <;> rfl
      | number n =>
          rw [Value.compact, readValue_number (n.numberText hfloat) fuel limit hrest, Value.reread,
            Option.map_map]
          rfl
      | string s =>
          obtain ⟨cs, hquoted, hread⟩ := readString_quoted s rest
          rw [Value.compact, hquoted, readValue, if_pos rfl, hread, Option.map_some,
            String.ofList_toList]
          rfl
      | array vs =>
          rw [Value.compact, List.length_cons, List.length_append, List.length_singleton] at hfuel
          rw [Value.compact, List.cons_append, List.append_assoc, readValue, if_neg (by decide),
            if_pos rfl]
          cases limit with
          | zero => rfl
          | succ limit =>
              have hitems := readItems_compact hfloat vs fuel limit true rest (by omega)
              change (readItems readNumber fuel limit true (_ ++ ']' :: rest)).map _ = _
              rw [hitems, Value.reread, Option.map_map, Option.map_map]
              rfl
      | object fields =>
          rw [Value.compact, List.length_cons, List.length_append, List.length_singleton] at hfuel
          rw [Value.compact, List.cons_append, List.append_assoc, readValue, if_neg (by decide),
            if_neg (by decide), if_pos rfl]
          cases limit with
          | zero => rfl
          | succ limit =>
              have hfields := readFields_compact hfloat fields fuel limit true rest (by omega)
              change (readFields readNumber fuel limit true (_ ++ '\x7d' :: rest)).map _ = _
              rw [hfields, Value.reread, Option.map_map, Option.map_map]
              rfl

theorem readItems_compact (hfloat : ∀ bits, NumberText (floatText bits)) (vs : List Value)
    (fuel limit : Nat) (first : Bool) (rest : List Char)
    (hfuel : (Value.compactItems floatText first vs).length < fuel) :
    readItems readNumber fuel limit first
        (Value.compactItems floatText first vs ++ ']' :: rest) =
      (Value.rereadItems (fun n => readNumber (n.text floatText).toList) limit vs).map
        (·, rest) := by
  cases fuel with
  | zero => omega
  | succ fuel =>
      cases vs with
      | nil => rfl
      | cons v vs =>
          obtain ⟨c, cs, hcs, hc⟩ := compact_cons hfloat v
          have hlength : 0 < (v.compact floatText).length := by
            rw [hcs]
            exact Nat.succ_pos _
          rw [Value.compactItems, List.length_append, List.length_append] at hfuel
          have hv := readValue_compact hfloat v fuel limit
            (Value.compactItems floatText false vs ++ ']' :: rest) (by omega)
            (stops_compactItems vs rest)
          have hvs := readItems_compact hfloat vs fuel limit false rest (by omega)
          have hcomma : readComma first (Value.compactItems floatText first (v :: vs) ++
              ']' :: rest) = some (v.compact floatText ++
                (Value.compactItems floatText false vs ++ ']' :: rest)) := by
            rw [Value.compactItems, List.append_assoc, List.append_assoc]
            cases first <;> rfl
          have hhead : (Value.compactItems floatText first (v :: vs) ++ ']' :: rest).head? ≠
              some ']' := by
            rw [Value.compactItems, hcs]
            cases first with
            | true => simpa using hc
            | false => simp
          rw [readItems, if_neg hhead, hcomma, Option.bind_some, hv, Value.rereadItems]
          cases v.reread (fun n => readNumber (n.text floatText).toList) limit with
          | none => rfl
          | some v' =>
              rw [Option.map_some, Option.bind_some, Option.bind_some, hvs, Option.map_map,
                Option.map_map]
              rfl

theorem readFields_compact (hfloat : ∀ bits, NumberText (floatText bits))
    (fields : List (String × Value)) (fuel limit : Nat) (first : Bool) (rest : List Char)
    (hfuel : (Value.compactFields floatText first fields).length < fuel) :
    readFields readNumber fuel limit first
        (Value.compactFields floatText first fields ++ '\x7d' :: rest) =
      (Value.rereadFields (fun n => readNumber (n.text floatText).toList) limit fields).map
        (·, rest) := by
  cases fuel with
  | zero => omega
  | succ fuel =>
      cases fields with
      | nil => rfl
      | cons field fields =>
          obtain ⟨key, v⟩ := field
          rw [Value.compactFields, List.length_append, List.length_append, List.length_cons,
            List.length_append] at hfuel
          have hv := readValue_compact hfloat v fuel limit
            (Value.compactFields floatText false fields ++ '\x7d' :: rest) (by omega)
            (stops_compactFields fields rest)
          have hfields := readFields_compact hfloat fields fuel limit false rest (by omega)
          have hcomma : readComma first (Value.compactFields floatText first ((key, v) :: fields) ++
              '\x7d' :: rest) = some (quoted key ++ ':' :: (v.compact floatText ++
                (Value.compactFields floatText false fields ++ '\x7d' :: rest))) := by
            rw [Value.compactFields, List.append_assoc, List.append_assoc, List.cons_append,
              List.append_assoc]
            cases first <;> rfl
          have hhead : (Value.compactFields floatText first ((key, v) :: fields) ++
              '\x7d' :: rest).head? ≠ some '\x7d' := by
            rw [Value.compactFields, quoted]
            cases first <;> simp
          rw [readFields, if_neg hhead, hcomma, Option.bind_some, readKey_quoted, Option.bind_some,
            hv, Value.rereadFields]
          cases v.reread (fun n => readNumber (n.text floatText).toList) limit with
          | none => rfl
          | some v' =>
              rw [Option.map_some, Option.bind_some, Option.bind_some, hfields, Option.map_map,
                Option.map_map]
              rfl

end

/-- **A written value reads as `reread` says**: up to the recursion limit, and
with its numbers as they read. -/
theorem readText_compact (hfloat : ∀ bits, NumberText (floatText bits)) (v : Value) :
    readText readNumber (v.compact floatText) =
      v.reread (fun n => readNumber (n.text floatText).toList) recursionLimit := by
  have hread := @readValue_compact floatText readNumber hfloat v
    ((v.compact floatText).length + 1) recursionLimit [] (by omega) (by simp [Stops])
  rw [List.append_nil] at hread
  rw [readText, hread]
  cases v.reread (fun n => readNumber (n.text floatText).toList) recursionLimit <;> rfl

end Compact

end A2a
