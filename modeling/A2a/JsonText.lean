import A2a.Listing
import A2a.ServiceName
import A2a.TextOutput
import A2a.Types

/-!
# A2a.JsonText

A JSON value as indented text, the way `serde_json::to_string_pretty` writes
it.  The texts of doubles are a parameter.

Strings are escaped below U+0020 alone, so of the control characters of a
value those from U+007F on are written as they are, and the others are not:
`mem_pretty`.  No line of the text is blank: `filled_pretty`.  A block of it
is thus whole, and clean without the former: `clean_pretty_iff`.
-/

namespace A2a

/-! ## the writer -/

/-- A character in a string (`ESCAPE` of `serde_json`). -/
def escapeChar (c : Char) : List Char :=
  if c = '"' then ['\\', '"']
  else if c = '\\' then ['\\', '\\']
  else if c = '\x08' then ['\\', 'b']
  else if c = '\t' then ['\\', 't']
  else if c = '\n' then ['\\', 'n']
  else if c = '\x0c' then ['\\', 'f']
  else if c = '\r' then ['\\', 'r']
  else if c.toNat < 0x20 then '\\' :: 'u' :: lowerHex 4 c.toNat
  else [c]

def quoted (s : String) : List Char := '"' :: (s.toList.flatMap escapeChar ++ ['"'])

/-- A line feed and the indentation of the next line. -/
def newLine (n : Nat) : List Char := '\n' :: List.replicate (2 * n) ' '

def Number.text (floatText : UInt64 → String) : Number → String
  | .int n => toString n
  | .float bits => floatText bits

mutual

/-- `PrettyFormatter`, at an indentation. -/
def Value.pretty (floatText : UInt64 → String) (n : Nat) : Value → List Char
  | .null => ['n', 'u', 'l', 'l']
  | .bool b => if b then ['t', 'r', 'u', 'e'] else ['f', 'a', 'l', 's', 'e']
  | .number x => (x.text floatText).toList
  | .string s => quoted s
  | .array vs =>
      '[' :: (Value.prettyItems floatText (n + 1) true vs ++
        (if vs.isEmpty then [] else newLine n) ++ [']'])
  | .object fields =>
      '\x7b' :: (Value.prettyFields floatText (n + 1) true fields ++
        (if fields.isEmpty then [] else newLine n) ++ ['\x7d'])

def Value.prettyItems (floatText : UInt64 → String) (n : Nat) (first : Bool) :
    List Value → List Char
  | [] => []
  | v :: vs =>
      (if first then [] else [',']) ++ newLine n ++ v.pretty floatText n ++
        Value.prettyItems floatText n false vs

def Value.prettyFields (floatText : UInt64 → String) (n : Nat) (first : Bool) :
    List (String × Value) → List Char
  | [] => []
  | (key, v) :: fields =>
      (if first then [] else [',']) ++ newLine n ++ quoted key ++ [':', ' '] ++
        v.pretty floatText n ++ Value.prettyFields floatText n false fields

end

mutual

/-- The strings of a value, keys included. -/
def Value.strings : Value → List String
  | .null | .bool _ | .number _ => []
  | .string s => [s]
  | .array vs => Value.stringsOfItems vs
  | .object fields => Value.stringsOfFields fields

def Value.stringsOfItems : List Value → List String
  | [] => []
  | v :: vs => v.strings ++ Value.stringsOfItems vs

def Value.stringsOfFields : List (String × Value) → List String
  | [] => []
  | (key, v) :: fields => key :: (v.strings ++ Value.stringsOfFields fields)

end

/-- The text of a JSON number. -/
structure NumberText (s : String) : Prop where
  nonempty : s ≠ ""
  chars : ∀ c ∈ s.toList, c.isDigit = true ∨ c ∈ ['+', '-', '.', 'e', 'E']

/-! ## its characters -/

variable {floatText : UInt64 → String} {c : Char}

def printable (c : Char) : Bool := 0x20 ≤ c.toNat && c.toNat < 0x7F

/-- A printable text has no other characters. -/
theorem not_mem_of_printable {cs : List Char} (hcs : cs.all printable = true)
    (hc : printable c = false) : c ∉ cs := by
  intro hmem
  have h := List.all_eq_true.mp hcs c hmem
  exact Bool.noConfusion (h.symm.trans hc)

/-- A control is not printable. -/
theorem not_printable_of_isControl (hc : isControl c = true) : printable c = false := by
  rw [isControl, Bool.or_eq_true, Bool.and_eq_true] at hc
  simp only [decide_eq_true_iff] at hc
  rw [printable, Bool.and_eq_false_iff, decide_eq_false_iff_not, decide_eq_false_iff_not]
  omega

/-- So a printable text has no control. -/
theorem uncontrolled_of_printable {cs : List Char} (hcs : cs.all printable = true) :
    Uncontrolled cs := by
  intro c hc
  cases hcontrol : isControl c with
  | false => rfl
  | true => exact absurd hc (not_mem_of_printable hcs (not_printable_of_isControl hcontrol))

/-- The text of a number is printable. -/
theorem NumberText.printable {s : String} (h : NumberText s) : s.toList.all printable = true := by
  have hsigns : ['+', '-', '.', 'e', 'E'].all A2a.printable = true := by decide
  rw [List.all_eq_true]
  intro c hc
  obtain hdigit | hmem := h.chars c hc
  · rw [Char.isDigit, Bool.and_eq_true, decide_eq_true_iff, decide_eq_true_iff] at hdigit
    obtain ⟨hlow, hhigh⟩ := hdigit
    have hlow : 48 ≤ c.toNat := UInt32.le_iff_toNat_le.mp hlow
    have hhigh : c.toNat ≤ 57 := UInt32.le_iff_toNat_le.mp hhigh
    rw [A2a.printable, Bool.and_eq_true, decide_eq_true_iff, decide_eq_true_iff]
    omega
  · exact List.all_eq_true.mp hsigns c hmem

/-- A natural number is written so. -/
theorem numberText_toString_nat (n : Nat) : NumberText (toString n) := by
  refine ⟨toString_ne_empty n, fun c hc => .inl ?_⟩
  rw [Nat.toString_eq_repr, Nat.toList_repr] at hc
  exact Nat.isDigit_of_mem_toDigits (by decide) (by decide) hc

/-- So an integer is written. -/
theorem numberText_toString (n : Int) : NumberText (toString n) := by
  cases n with
  | ofNat n => exact numberText_toString_nat n
  | negSucc n =>
      have hn := numberText_toString_nat (n + 1)
      have htext : toString (Int.negSucc n) = "-" ++ toString (n + 1) := rfl
      rw [htext]
      refine ⟨by simp, fun c hc => ?_⟩
      rw [String.toList_append] at hc
      obtain hc | hc := List.mem_append.mp hc
      · rw [show "-".toList = ['-'] from rfl, List.mem_singleton] at hc
        exact .inr (by rw [hc]; decide)
      · exact hn.chars c hc

/-- **A number is written as one**, if a double is. -/
theorem Number.numberText (hfloat : ∀ bits, NumberText (floatText bits)) (x : Number) :
    NumberText (x.text floatText) := by
  cases x with
  | int n => exact numberText_toString n
  | float bits => exact hfloat bits

/-- Hexadecimal digits are printable. -/
theorem lowerHex_printable (width n : Nat) : (lowerHex width n).all printable = true := by
  have key : ∀ i : Fin 16, printable (lowerHexDigit i.val) = true := by decide
  induction width generalizing n with
  | zero => rfl
  | succ width ih =>
      rw [lowerHex, List.all_append, ih, Bool.true_and, List.all_cons, List.all_nil, Bool.and_true]
      exact key ⟨n % 16, Nat.mod_lt _ (by decide)⟩

/-- A character is escaped, or it is no control below U+0020. -/
theorem escapeChar_cases (d : Char) :
    ((escapeChar d).all printable = true ∧ d.toNat < 0x7F) ∨
      (escapeChar d = [d] ∧ 0x20 ≤ d.toNat) := by
  unfold escapeChar
  split_ifs with _ _ _ _ _ _ _ hlow
  on_goal 8 =>
    left
    rw [List.all_cons, List.all_cons, lowerHex_printable]
    exact ⟨rfl, by omega⟩
  on_goal 8 => exact .inr ⟨rfl, by omega⟩
  all_goals
    subst d
    exact .inl ⟨by decide, by decide⟩

/-- Of what is not printable only what is above the tilde is left as it is. -/
theorem mem_escapeChar (hc : printable c = false) (d : Char) :
    c ∈ escapeChar d ↔ 0x7F ≤ c.toNat ∧ c = d := by
  have hrange : ¬0x20 ≤ c.toNat ∨ ¬c.toNat < 0x7F := by
    rwa [printable, Bool.and_eq_false_iff, decide_eq_false_iff_not, decide_eq_false_iff_not] at hc
  obtain ⟨hprintable, hlow⟩ | ⟨hself, hhigh⟩ := escapeChar_cases d
  · constructor
    · intro hmem
      exact absurd hmem (not_mem_of_printable hprintable hc)
    · rintro ⟨h, rfl⟩
      omega
  · rw [hself, List.mem_singleton]
    constructor
    · rintro rfl
      exact ⟨by omega, rfl⟩
    · exact fun h => h.2

theorem ne_of_printable {d : Char} (hc : printable c = false) (hd : printable d = true) :
    c ≠ d := by
  rintro rfl
  exact Bool.noConfusion (hc.symm.trans hd)

/-- Of the controls in a string those from U+007F on are written. -/
theorem mem_quoted (hc : printable c = false) (s : String) :
    c ∈ quoted s ↔ 0x7F ≤ c.toNat ∧ c ∈ s.toList := by
  have hquote := ne_of_printable hc (d := '"') rfl
  rw [quoted, List.mem_cons, List.mem_append, List.mem_singleton, List.mem_flatMap]
  simp only [hquote, false_or, or_false, mem_escapeChar hc]
  constructor
  · rintro ⟨d, hd, h, rfl⟩
    exact ⟨h, hd⟩
  · rintro ⟨h, hmem⟩
    exact ⟨c, hmem, h, rfl⟩

theorem not_mem_newLine (hc : printable c = false) (hne : c ≠ '\n') (n : Nat) : c ∉ newLine n := by
  simp [newLine, hne, ne_of_printable hc (d := ' ') rfl]

/-- Brackets around entries, and what separates them, add no such character. -/
theorem mem_bracketed (hc : printable c = false) (hne : c ≠ '\n') {opening closing : Char}
    (hopening : printable opening = true) (hclosing : printable closing = true)
    (inner : List Char) (blank : Bool) (n : Nat) :
    c ∈ opening :: (inner ++ (if blank then [] else newLine n) ++ [closing]) ↔ c ∈ inner := by
  have hline : c ∉ if blank then [] else newLine n := by
    split
    · exact List.not_mem_nil
    · exact not_mem_newLine hc hne n
  rw [List.mem_cons, List.mem_append, List.mem_append, List.mem_singleton]
  simp only [ne_of_printable hc hopening, ne_of_printable hc hclosing, hline, false_or, or_false]

theorem not_mem_separator (hc : printable c = false) (hne : c ≠ '\n') (first : Bool) (n : Nat) :
    c ∉ (if first then [] else [',']) ++ newLine n := by
  rw [List.mem_append, not_or]
  refine ⟨?_, not_mem_newLine hc hne n⟩
  split
  · exact List.not_mem_nil
  · exact not_mem_of_printable (by decide) hc

mutual

/-- What is no printable character comes from a string. -/
theorem mem_pretty (hfloat : ∀ bits, NumberText (floatText bits)) (hc : printable c = false)
    (hne : c ≠ '\n') (n : Nat) (v : Value) :
    c ∈ v.pretty floatText n ↔ ∃ s ∈ v.strings, c ∈ quoted s := by
  cases v with
  | null =>
      have hnull : c ∉ ['n', 'u', 'l', 'l'] := not_mem_of_printable (by decide) hc
      simpa [Value.pretty, Value.strings] using hnull
  | bool b =>
      have hbool : c ∉ if b then ['t', 'r', 'u', 'e'] else ['f', 'a', 'l', 's', 'e'] :=
        not_mem_of_printable (by cases b <;> decide) hc
      simpa [Value.pretty, Value.strings] using hbool
  | number x =>
      have hnumber := not_mem_of_printable (x.numberText hfloat).printable hc
      simpa [Value.pretty, Value.strings] using hnumber
  | string s => simp [Value.pretty, Value.strings]
  | array vs =>
      rw [Value.pretty, Value.strings, mem_bracketed hc hne rfl rfl, mem_prettyItems hfloat hc hne]
  | object fields =>
      rw [Value.pretty, Value.strings, mem_bracketed hc hne rfl rfl, mem_prettyFields hfloat hc hne]

/-- In a list such a character is in one of its texts. -/
theorem mem_prettyItems (hfloat : ∀ bits, NumberText (floatText bits)) (hc : printable c = false)
    (hne : c ≠ '\n') (n : Nat) (first : Bool) (vs : List Value) :
    c ∈ Value.prettyItems floatText n first vs ↔
      ∃ s ∈ Value.stringsOfItems vs, c ∈ quoted s := by
  cases vs with
  | nil => simp [Value.prettyItems, Value.stringsOfItems]
  | cons v vs =>
      have hseparator := not_mem_separator hc hne first n
      rw [Value.prettyItems, List.mem_append, List.mem_append, mem_pretty hfloat hc hne,
        mem_prettyItems hfloat hc hne, Value.stringsOfItems]
      simp only [hseparator, false_or, List.mem_append, or_and_right, exists_or]

/-- In an object such a character is in one of its texts or keys. -/
theorem mem_prettyFields (hfloat : ∀ bits, NumberText (floatText bits)) (hc : printable c = false)
    (hne : c ≠ '\n') (n : Nat) (first : Bool) (fields : List (String × Value)) :
    c ∈ Value.prettyFields floatText n first fields ↔
      ∃ s ∈ Value.stringsOfFields fields, c ∈ quoted s := by
  cases fields with
  | nil => simp [Value.prettyFields, Value.stringsOfFields]
  | cons field fields =>
      obtain ⟨key, v⟩ := field
      have hseparator := not_mem_separator hc hne first n
      have hcolon : c ∉ [':', ' '] := not_mem_of_printable (by decide) hc
      rw [Value.prettyFields, List.mem_append, List.mem_append, List.mem_append, List.mem_append,
        mem_pretty hfloat hc hne, mem_prettyFields hfloat hc hne, Value.stringsOfFields]
      simp only [hseparator, hcolon, false_or, or_false, List.exists_mem_cons_iff, List.mem_append,
        or_and_right, exists_or, or_assoc]

end

/-! ## its lines -/

/-- No line is blank, where the first is said to be `started`. -/
def filled (started : Bool) : List Char → Bool
  | [] => started
  | c :: cs => if c = '\n' then started && filled false cs else filled true cs

/-- A text that goes on from a line that has begun. -/
theorem filled_append {started : Bool} {cs cs' : List Char} (hcs : filled started cs = true)
    (hcs' : filled true cs' = true) : filled started (cs ++ cs') = true := by
  induction cs generalizing started with
  | nil =>
      rw [filled] at hcs
      rw [hcs, List.nil_append, hcs']
  | cons c cs ih =>
      rw [filled] at hcs
      rw [List.cons_append, filled]
      split at hcs
      · next hc =>
        rw [Bool.and_eq_true] at hcs
        rw [if_pos hc, hcs.1, ih hcs.2]
        rfl
      · next hc =>
        rw [if_neg hc]
        exact ih hcs

/-- Characters without a line feed are a line that is not blank. -/
theorem filled_of_not_mem {started : Bool} {cs : List Char} (hcs : '\n' ∉ cs)
    (hne : started = true ∨ cs ≠ []) : filled started cs = true := by
  induction cs generalizing started with
  | nil => simpa [filled] using hne
  | cons c cs ih =>
      obtain ⟨hc, hcs⟩ := not_or.mp (mt List.mem_cons.mpr hcs)
      rw [filled, if_neg (Ne.symm hc)]
      exact ih hcs (.inl rfl)

theorem filled_true {cs : List Char} (h : filled false cs = true) : filled true cs = true := by
  cases cs with
  | nil => rfl
  | cons c cs =>
      rw [filled] at h ⊢
      split
      · next hc =>
        rw [if_pos hc] at h
        contradiction
      · next hc => rwa [if_neg hc] at h

/-- A new line must have something on it. -/
theorem filled_newLine {cs : List Char} (h : filled false cs = true) (n : Nat) :
    filled true (newLine n ++ cs) = true := by
  have hspaces (k : Nat) : filled false (List.replicate k ' ' ++ cs) = true := by
    induction k with
    | zero => exact h
    | succ k ih => exact filled_true ih
  exact hspaces (2 * n)

/-- A quoted text is on one line. -/
theorem filled_quoted (s : String) : filled false (quoted s) = true := by
  have hnl : '\n' ∉ quoted s := fun hmem => by
    have hhigh := ((mem_quoted rfl s).mp hmem).1
    contradiction
  exact filled_of_not_mem hnl (.inr (by simp [quoted]))

/-- So is a number. -/
theorem NumberText.filled {s : String} (h : NumberText s) : filled false s.toList = true := by
  have hne : s.toList ≠ [] := by simp [h.nonempty]
  exact filled_of_not_mem (not_mem_of_printable h.printable rfl) (.inr hne)

/-- Brackets are filled around what is. -/
theorem filled_bracketed {opening closing : Char} (hopening : opening ≠ '\n')
    (hclosing : closing ≠ '\n') {inner : List Char} (hinner : filled true inner = true)
    (blank : Bool) (n : Nat) :
    filled false (opening :: (inner ++ (if blank then [] else newLine n) ++ [closing])) = true := by
  have hclose (started : Bool) : filled started [closing] = true := by
    rw [filled, if_neg hclosing]
    rfl
  rw [filled, if_neg hopening, List.append_assoc]
  refine filled_append hinner ?_
  split
  · exact hclose true
  · exact filled_newLine (hclose false) n

theorem filled_separator {cs : List Char} (h : filled false cs = true) (first : Bool) (n : Nat) :
    filled true ((if first then [] else [',']) ++ newLine n ++ cs) = true := by
  rw [List.append_assoc]
  cases first with
  | true => exact filled_newLine h n
  | false => exact filled_newLine h n

mutual

/-- No line of the text is blank. -/
theorem filled_pretty (hfloat : ∀ bits, NumberText (floatText bits)) (n : Nat) (v : Value) :
    filled false (v.pretty floatText n) = true := by
  cases v with
  | null => rfl
  | bool b => cases b <;> rfl
  | number x => exact (x.numberText hfloat).filled
  | string s => exact filled_quoted s
  | array vs =>
      rw [Value.pretty]
      exact filled_bracketed (by decide) (by decide) (filled_prettyItems hfloat (n + 1) true vs) _ n
  | object fields =>
      rw [Value.pretty]
      exact filled_bracketed (by decide) (by decide)
        (filled_prettyFields hfloat (n + 1) true fields) _ n

/-- **No line of a list is blank.** -/
theorem filled_prettyItems (hfloat : ∀ bits, NumberText (floatText bits)) (n : Nat) (first : Bool)
    (vs : List Value) : filled true (Value.prettyItems floatText n first vs) = true := by
  cases vs with
  | nil => rfl
  | cons v vs =>
      rw [Value.prettyItems]
      exact filled_append (filled_separator (filled_pretty hfloat n v) first n)
        (filled_prettyItems hfloat n false vs)

/-- **Nor is one of an object.** -/
theorem filled_prettyFields (hfloat : ∀ bits, NumberText (floatText bits)) (n : Nat) (first : Bool)
    (fields : List (String × Value)) :
    filled true (Value.prettyFields floatText n first fields) = true := by
  cases fields with
  | nil => rfl
  | cons field fields =>
      obtain ⟨key, v⟩ := field
      have hkey := filled_separator (filled_quoted key) first n
      have hcolon := filled_append hkey (show filled true [':', ' '] = true from rfl)
      rw [Value.prettyFields]
      exact filled_append (filled_append hcolon (filled_true (filled_pretty hfloat n v)))
        (filled_prettyFields hfloat n false fields)

end

/-- The lines of such a text are not blank. -/
theorem ne_nil_of_filled {line cs : List Char} (hcr : '\r' ∉ line ++ cs)
    (h : filled (!line.isEmpty) cs = true) : ∀ l ∈ linesFrom line cs, l ≠ [] := by
  induction cs generalizing line with
  | nil =>
      intro l hl
      rw [linesFrom] at hl
      split at hl
      · contradiction
      · next hne => rwa [List.mem_singleton.mp hl]
  | cons c cs ih =>
      intro l hl
      rw [linesFrom] at hl
      rw [filled] at h
      split at hl
      · next hc =>
        rw [if_pos hc, Bool.and_eq_true] at h
        obtain rfl | hl := List.mem_cons.mp hl
        · rw [stripCr_of_not_mem fun hmem => hcr (List.mem_append_left _ hmem)]
          simpa using h.1
        · have hrest : '\r' ∉ [] ++ cs := fun hmem => hcr (List.mem_append_right _ (.tail _ hmem))
          exact ih hrest h.2 l hl
      · next hc =>
        rw [if_neg hc] at h
        have hstarted : (line ++ [c]).isEmpty = false := by simp
        have hrest : '\r' ∉ (line ++ [c]) ++ cs := by simpa using hcr
        refine ih hrest ?_ l hl
        rw [hstarted]
        exact h

/-- Only a carriage return can be stripped. -/
theorem mem_stripCr {line : List Char} (hc : c ∈ line) (hcr : c ≠ '\r') : c ∈ stripCr line := by
  rw [stripCr]
  split
  · next hlast =>
    rw [← List.dropLast_append_getLast? _ hlast, List.mem_append, List.mem_singleton] at hc
    exact hc.resolve_right hcr
  · exact hc

/-- The characters are those of the lines, but what ends them. -/
theorem exists_mem_linesFrom {line cs : List Char} (hc : c ∈ line ++ cs) (hne : c ≠ '\n')
    (hcr : c ≠ '\r') : ∃ l ∈ linesFrom line cs, c ∈ l := by
  induction cs generalizing line with
  | nil =>
      rw [List.append_nil] at hc
      rw [linesFrom, if_neg (List.ne_nil_of_mem hc)]
      exact ⟨line, .head _, hc⟩
  | cons d cs ih =>
      rw [linesFrom]
      split
      · next hd =>
        rw [List.mem_append, List.mem_cons, hd] at hc
        obtain hc | hc | hc := hc
        · exact ⟨_, .head _, mem_stripCr hc hcr⟩
        · exact absurd hc hne
        · obtain ⟨l, hl, hmem⟩ := ih (show c ∈ [] ++ cs from hc)
          exact ⟨l, .tail _ hl, hmem⟩
      · exact ih (by simpa using hc)

/-! ## a block of it -/

/-- `serde_json::to_string_pretty`. -/
def toStringPretty (floatText : UInt64 → String) (v : Value) : String :=
  String.ofList (v.pretty floatText 0)

/-- There is none in a text of JSON. -/
theorem cr_not_mem_pretty (hfloat : ∀ bits, NumberText (floatText bits)) (n : Nat) (v : Value) :
    '\r' ∉ v.pretty floatText n := by
  rw [mem_pretty hfloat rfl (by decide)]
  rintro ⟨s, -, hmem⟩
  have hhigh := ((mem_quoted rfl s).mp hmem).1
  contradiction

/-- A block of JSON is whole. -/
theorem whole_pretty (hfloat : ∀ bits, NumberText (floatText bits)) (label : String) (v : Value) :
    (TextItem.block label (toStringPretty floatText v)).Whole := by
  have hcr : '\r' ∉ [] ++ v.pretty floatText 0 := cr_not_mem_pretty hfloat 0 v
  have hfilled := ne_nil_of_filled hcr (filled_pretty hfloat 0 v)
  rw [TextItem.Whole, Unparted, toStringPretty, String.toList_ofList,
    List.dropWhile_eq_nil_iff.mpr fun l hl => by simpa using hfilled l hl]
  intro l hl
  contradiction

/-- **A block of JSON is clean exactly if its strings have no controls from
U+007F on.** -/
theorem clean_pretty_iff (hfloat : ∀ bits, NumberText (floatText bits)) (label : String)
    (v : Value) :
    (TextItem.block label (toStringPretty floatText v)).Clean ↔
      ∀ s ∈ v.strings, ∀ c ∈ s.toList, isControl c = true → c.toNat < 0x20 := by
  rw [TextItem.Clean, toStringPretty, String.toList_ofList]
  constructor
  · intro hclean s hs c hc hcontrol
    by_contra hhigh
    have hprintable := not_printable_of_isControl hcontrol
    have hrange : 0x7F ≤ c.toNat := by
      rw [printable, Bool.and_eq_false_iff, decide_eq_false_iff_not, decide_eq_false_iff_not]
        at hprintable
      omega
    have hnl : c ≠ '\n' := by
      rintro rfl
      exact absurd hrange (by decide)
    have hcr : c ≠ '\r' := by
      rintro rfl
      exact absurd hrange (by decide)
    have hquoted := (mem_quoted hprintable s).mpr ⟨hrange, hc⟩
    have hmem : c ∈ [] ++ v.pretty floatText 0 :=
      (mem_pretty hfloat hprintable hnl 0 v).mpr ⟨s, hs, hquoted⟩
    obtain ⟨l, hl, hmem⟩ := exists_mem_linesFrom hmem hnl hcr
    exact Bool.noConfusion (hcontrol.symm.trans (hclean l hl c hmem))
  · intro hstrings l hl c hc
    cases hcontrol : isControl c with
    | false => rfl
    | true =>
        have hnl : c ≠ '\n' := by
          rintro rfl
          exact newline_not_mem_linesFrom List.not_mem_nil l hl hc
        obtain h | hmem := mem_linesFrom l hl c hc
        · exact absurd h List.not_mem_nil
        · have hprintable := not_printable_of_isControl hcontrol
          obtain ⟨s, hs, hquoted⟩ := (mem_pretty hfloat hprintable hnl 0 v).mp hmem
          obtain ⟨hhigh, hc⟩ := (mem_quoted hprintable s).mp hquoted
          have hlow := hstrings s hs c hc hcontrol
          omega

end A2a
