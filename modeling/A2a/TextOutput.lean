import A2a.Sse
import Mathlib.Data.List.DropRight

/-!
# A2a.TextOutput

The CLI's `text` output (`TextOutput` in `a2acli/src/lib.rs`) and what a
reader finds in it.

A field is a line `Label: value`; a block is a line `Label:`, its content
and a blank line.  The content of some blocks is itself fields and blocks, a
record.  `readOutput` reads a text by these rules, knowing the labels of the
blocks whose content is free text.

`inert_output` says of which values an output is read as it was meant, and has
no control characters of theirs.
-/

namespace A2a

/-! ## the output -/

/-- `TextOutput`. -/
structure TextOutput where
  lines : List String

/-- The text without the newlines at its end. -/
def trimNewlines (text : String) : String := String.ofList (text.toList.rdropWhile (· == '\n'))

namespace TextOutput

/-- `TextOutput::default`. -/
def empty : TextOutput := ⟨[]⟩

def field (out : TextOutput) (label value : String) : TextOutput :=
  ⟨out.lines ++ [label ++ ": " ++ value]⟩

def raw (out : TextOutput) (line : String) : TextOutput := ⟨out.lines ++ [line]⟩

def block (out : TextOutput) (label content : String) : TextOutput :=
  ⟨out.lines ++ (label ++ ":") :: (A2a.lines content ++ [""])⟩

def finish (out : TextOutput) : String := trimNewlines (String.intercalate "\n" out.lines)

end TextOutput

/-! ## reading it -/

/-- What a reader finds: a field line, or a block with its content. -/
inductive TextEntry
  | line (text : List Char)
  | block (label : List Char) (content : List (List Char))

/-- The labels of the blocks whose content is free text. -/
def freeLabels : List String := ["Interfaces", "Text", "Data"]

/-- The line opens such a block. -/
def opensBlock (line : List Char) : Bool :=
  freeLabels.any fun label => line == label.toList ++ [':']

/-- Read lines, in a block or outside of one: a blank line closes a block, and
says nothing outside of one. -/
def readLines : Option (List Char × List (List Char)) → List (List Char) → List TextEntry
  | none, [] => []
  | some (label, content), [] => [.block label content]
  | none, line :: rest =>
      if line = [] then readLines none rest
      else if opensBlock line then readLines (some (line, [])) rest
      else .line line :: readLines none rest
  | some (label, content), line :: rest =>
      if line = [] then .block label content :: readLines none rest
      else readLines (some (label, content ++ [line])) rest

/-- Read a text. -/
def readOutput (text : String) : List TextEntry := readLines none (text.toList.splitOn '\n')

/-- The lines an entry consists of. -/
def TextEntry.texts : TextEntry → List (List Char)
  | .line text => [text]
  | .block label content => label :: content

/-- The text is read as the entries, and its control characters are the line
feeds between lines. -/
structure InertText (text : String) (entries : List TextEntry) : Prop where
  controls : ∀ c ∈ text.toList, isControl c = true → c = '\n'
  read : readOutput text = entries

/-! ## what is put out -/

/-- An item of an output: the first line of a record, a field, a block of
text, or a block of entries with a line each. -/
inductive TextItem
  | heading (label : String)
  | field (label value : String)
  | block (label content : String)
  | listing (label : String) (entries : List String)

/-- An item, or a record of items under its label. -/
inductive TextSection
  | item (item : TextItem)
  | record (label : String) (items : List TextItem)

/-- Characters none of which is a control. -/
def Uncontrolled (cs : List Char) : Prop := ∀ c ∈ cs, isControl c = false

theorem all_iff_uncontrolled {cs : List Char} :
    (cs.all fun c => !isControl c) = true ↔ Uncontrolled cs := by
  simp [Uncontrolled]

instance {cs : List Char} : Decidable (Uncontrolled cs) :=
  decidable_of_iff _ all_iff_uncontrolled

/-- No line follows a blank one, but blank ones. -/
def Unparted (lines : List (List Char)) : Prop := ∀ l ∈ lines.dropWhile (· ≠ []), l = []

instance {lines : List (List Char)} : Decidable (Unparted lines) :=
  inferInstanceAs (Decidable (∀ l ∈ lines.dropWhile (· ≠ []), l = []))

namespace TextItem

/-- The lines an item is put out as. -/
def lines : TextItem → List String
  | .heading label => [label ++ ":"]
  | .field label value => [label ++ ": " ++ value]
  | .block label content => (label ++ ":") :: (A2a.lines content ++ [""])
  | .listing label entries =>
      (label ++ ":") :: (A2a.lines (String.intercalate "\n" entries) ++ [""])

/-- What the item is to be read as; blank lines at the end of a content are
not told from the one that closes its block. -/
def entry : TextItem → TextEntry
  | .heading label => .line (label ++ ":").toList
  | .field label value => .line (label ++ ": " ++ value).toList
  | .block label content =>
      .block (label ++ ":").toList ((linesFrom [] content.toList).rdropWhile (· == []))
  | .listing label entries => .block (label ++ ":").toList (entries.map String.toList)

/-- The item's labels are what they are taken for. -/
def Labelled : TextItem → Prop
  | .heading label => Uncontrolled label.toList ∧ opensBlock (label ++ ":").toList = false
  | .field label _ => Uncontrolled label.toList
  | .block label _ => label ∈ freeLabels
  | .listing label entries => label ∈ freeLabels ∧ entries ≠ [] ∧ ∀ e ∈ entries, e.toList ≠ []

/-- The item's values have no control characters; a block's content has
those that end its lines. -/
def Clean : TextItem → Prop
  | .heading _ => True
  | .field _ value => Uncontrolled value.toList
  | .block _ content => ∀ l ∈ linesFrom [] content.toList, Uncontrolled l
  | .listing _ entries => ∀ e ∈ entries, Uncontrolled e.toList

/-- The item's content does not close its block. -/
def Whole : TextItem → Prop
  | .block _ content => Unparted (linesFrom [] content.toList)
  | _ => True

def Inert (i : TextItem) : Prop := i.Clean ∧ i.Whole

end TextItem

namespace TextSection

def lines : TextSection → List String
  | .item i => i.lines
  | .record label items =>
      (label ++ ":") :: (A2a.lines (TextOutput.finish ⟨items.flatMap (·.lines)⟩) ++ [""])

/-- The items of a section; the first line of a record is one. -/
def items : TextSection → List TextItem
  | .item i => [i]
  | .record label items => .heading label :: items

end TextSection

/-! ## splitting into lines -/

/-- Lines joined are split into the lines they have. -/
theorem splitOn_intercalate_lines {ls : List (List Char)} (hls : ls ≠ []) :
    (['\n'].intercalate ls).splitOn '\n' = ls.flatMap (·.splitOn '\n') := by
  induction ls with
  | nil => contradiction
  | cons l ls ih =>
      cases ls with
      | nil => simp
      | cons l' ls =>
          rw [List.intercalate_cons_cons, List.append_assoc, List.singleton_append,
            List.splitOn_append_cons_self, ih (by simp)]
          rfl

/-- What a piece of a split has, the whole has. -/
theorem mem_of_mem_splitOn {cs piece : List Char} (hpiece : piece ∈ cs.splitOn '\n') {c : Char}
    (hc : c ∈ piece) : c ∈ cs := by
  have hwhole : ['\n'].intercalate (cs.splitOn '\n') = cs := List.intercalate_splitOn '\n'
  rw [← hwhole]
  generalize cs.splitOn '\n' = pieces at hpiece
  induction pieces with
  | nil => contradiction
  | cons p ps ih =>
      cases ps with
      | nil =>
          obtain rfl := List.mem_singleton.mp hpiece
          simpa using hc
      | cons p' ps =>
          rw [List.intercalate_cons_cons]
          obtain rfl | hpiece := List.mem_cons.mp hpiece
          · simp [hc]
          · exact List.mem_append_right _ (ih hpiece)

/-- A piece of a split at line feeds has none. -/
theorem newline_not_mem_splitOn {cs piece : List Char} (hpiece : piece ∈ cs.splitOn '\n') :
    '\n' ∉ piece := by
  induction cs generalizing piece with
  | nil =>
      rw [List.splitOn_nil, List.mem_singleton] at hpiece
      simp [hpiece]
  | cons c cs ih =>
      rw [List.splitOn_cons_eq_if_modifyHead] at hpiece
      split at hpiece
      · obtain rfl | hpiece := List.mem_cons.mp hpiece
        · exact List.not_mem_nil
        · exact ih hpiece
      · next hc =>
        cases hsplit : cs.splitOn '\n' with
        | nil => exact absurd hsplit (List.splitOn_ne_nil _ _)
        | cons p ps =>
            rw [hsplit, List.modifyHead_cons] at hpiece
            obtain rfl | hpiece := List.mem_cons.mp hpiece
            · have hp : '\n' ∉ p := ih (by rw [hsplit]; exact .head _)
              have hne : '\n' ≠ c := by
                rintro rfl
                simp at hc
              simp [hp, hne]
            · exact ih (by rw [hsplit]; exact .tail _ hpiece)

/-! ## reading lines -/

variable {st : Option (List Char × List (List Char))}

/-- A blank line ends what is read before it. -/
theorem readLines_blank (ls rest : List (List Char)) :
    readLines st (ls ++ [] :: rest) = readLines st ls ++ readLines none rest := by
  induction ls generalizing st with
  | nil => obtain _ | ⟨label, content⟩ := st <;> simp [readLines]
  | cons l ls ih =>
      obtain _ | ⟨label, content⟩ := st
      · rw [List.cons_append, readLines, readLines]
        split
        · exact ih
        · split
          · exact ih
          · rw [ih, List.cons_append]
      · rw [List.cons_append, readLines, readLines]
        split
        · rw [ih, List.cons_append]
        · exact ih

/-- Blank lines at the end say nothing. -/
theorem readLines_blanks (ls : List (List Char)) (n : Nat) :
    readLines st (ls ++ List.replicate n []) = readLines st ls := by
  induction n with
  | zero => simp
  | succ n ih =>
      rw [List.replicate_succ', ← List.append_assoc, readLines_blank, ih]
      simp [readLines]

/-- Nothing is read exactly where all lines are blank. -/
theorem readLines_eq_nil_iff (ls : List (List Char)) :
    readLines none ls = [] ↔ ∀ l ∈ ls, l = [] := by
  have hopen (label : List Char) (content ls : List (List Char)) :
      readLines (some (label, content)) ls ≠ [] := by
    induction ls generalizing content with
    | nil => simp [readLines]
    | cons l ls ih =>
        rw [readLines]
        split
        · simp
        · exact ih _
  induction ls with
  | nil => simp [readLines]
  | cons l ls ih =>
      rw [readLines]
      split
      · next hl => simp [hl, ih]
      · next hl =>
        split
        · simp [hopen, hl]
        · simp [hl]

/-- What is read of a block: its lines up to a blank one, and what follows. -/
theorem readLines_block (label : List Char) (content ls : List (List Char)) :
    readLines (some (label, content)) ls =
      .block label (content ++ ls.takeWhile (· ≠ [])) ::
        readLines none (ls.dropWhile (· ≠ [])) := by
  induction ls generalizing content with
  | nil => simp [readLines]
  | cons l ls ih =>
      rw [readLines]
      split
      · next hl => simp [hl, readLines]
      · next hl =>
        rw [ih]
        simp [hl]

/-- What is read are the lines that were there. -/
theorem mem_of_mem_readLines {ls : List (List Char)} {e : TextEntry} (he : e ∈ readLines st ls)
    {l : List Char} (hl : l ∈ e.texts) :
    l ∈ ls ∨ ∃ label content, st = some (label, content) ∧ l ∈ label :: content := by
  induction ls generalizing st with
  | nil =>
      obtain _ | ⟨label, content⟩ := st
      · contradiction
      · rw [readLines, List.mem_singleton] at he
        subst he
        exact .inr ⟨label, content, rfl, hl⟩
  | cons l₀ ls ih =>
      obtain _ | ⟨label, content⟩ := st
      · rw [readLines] at he
        have hrest (he : e ∈ readLines none ls) : l ∈ l₀ :: ls := by
          obtain h | ⟨_, _, h, _⟩ := ih he
          · exact .tail _ h
          · contradiction
        left
        split at he
        · exact hrest he
        · split at he
          · obtain h | ⟨label, content, hst, h⟩ := ih he
            · exact .tail _ h
            · cases hst
              rw [List.mem_singleton] at h
              simp [h]
          · obtain rfl | he := List.mem_cons.mp he
            · rw [TextEntry.texts, List.mem_singleton] at hl
              simp [hl]
            · exact hrest he
      · rw [readLines] at he
        split at he
        · obtain rfl | he := List.mem_cons.mp he
          · exact .inr ⟨label, content, rfl, hl⟩
          · obtain h | ⟨_, _, h, _⟩ := ih he
            · exact .inl (.tail _ h)
            · contradiction
        · obtain h | ⟨label', content', hst, h⟩ := ih he
          · exact .inl (.tail _ h)
          · cases hst
            rw [← List.cons_append, List.mem_append, List.mem_singleton] at h
            obtain h | rfl := h
            · exact .inr ⟨label, content, rfl, h⟩
            · exact .inl (.head _)

/-! ## reading a text -/

/-- A text is its trimmed form and newlines. -/
theorem trimNewlines_append (text : String) :
    ∃ n, text.toList = (trimNewlines text).toList ++ List.replicate n '\n' := by
  refine ⟨(text.toList.rtakeWhile (· == '\n')).length, ?_⟩
  have hall : ∀ c ∈ text.toList.rtakeWhile (· == '\n'), c = '\n' := by
    intro c hc
    simpa using List.mem_rtakeWhile_imp hc
  rw [trimNewlines, String.toList_ofList, ← List.eq_replicate_of_mem hall,
    List.rdropWhile_append_rtakeWhile]

theorem splitOn_append_newlines (cs : List Char) (n : Nat) :
    (cs ++ List.replicate n '\n').splitOn '\n' = cs.splitOn '\n' ++ List.replicate n [] := by
  induction n with
  | zero => simp
  | succ n ih =>
      rw [List.replicate_succ', ← List.append_assoc, List.splitOn_append_cons_self, ih,
        List.splitOn_nil, List.append_assoc, ← List.replicate_succ']

/-- **An output is read line by line**, however its lines are split further. -/
theorem readOutput_finish (ls : List String) :
    readOutput (TextOutput.finish ⟨ls⟩) =
      readLines none (ls.flatMap fun l => l.toList.splitOn '\n') := by
  obtain ⟨n, hn⟩ := trimNewlines_append (String.intercalate "\n" ls)
  have hread : readOutput (TextOutput.finish ⟨ls⟩) =
      readLines none ((String.intercalate "\n" ls).toList.splitOn '\n') := by
    rw [hn, splitOn_append_newlines, readLines_blanks]
    rfl
  rw [hread, String.toList_intercalate]
  cases ls with
  | nil => simp [readLines]
  | cons l ls =>
      rw [show "\n".toList = ['\n'] from rfl, splitOn_intercalate_lines (by simp), List.flatMap_map]

/-- The characters of joined lines are those of the lines, and line feeds. -/
theorem mem_intercalate_lines {ls : List (List Char)} {c : Char} (hc : c ≠ '\n') :
    c ∈ ['\n'].intercalate ls ↔ ∃ l ∈ ls, c ∈ l := by
  induction ls with
  | nil => simp
  | cons l ls ih =>
      cases ls with
      | nil => simp
      | cons l' ls =>
          have hne : c ∉ ['\n'] := by simp [hc]
          rw [List.intercalate_cons_cons, List.mem_append, List.mem_append,
            List.exists_mem_cons_iff]
          simp only [hne, or_false, ih]

/-- So are those of an output. -/
theorem mem_finish {ls : List String} {c : Char} (hc : c ≠ '\n') :
    c ∈ (TextOutput.finish ⟨ls⟩).toList ↔ ∃ l ∈ ls, c ∈ l.toList := by
  obtain ⟨n, hn⟩ := trimNewlines_append (String.intercalate "\n" ls)
  have htrim : c ∈ (TextOutput.finish ⟨ls⟩).toList ↔ c ∈ (String.intercalate "\n" ls).toList := by
    rw [hn, List.mem_append, List.mem_replicate]
    simp [hc, TextOutput.finish]
  rw [htrim, String.toList_intercalate, show "\n".toList = ['\n'] from rfl,
    mem_intercalate_lines hc]
  simp

/-! ## the lines of a content -/

/-- Lines end at line feeds alone. -/
theorem newline_not_mem_linesFrom {line cs : List Char} (hline : '\n' ∉ line) :
    ∀ l ∈ linesFrom line cs, '\n' ∉ l := by
  induction cs generalizing line with
  | nil =>
      intro l hl
      rw [linesFrom] at hl
      split at hl
      · contradiction
      · rw [List.mem_singleton.mp hl]
        exact hline
  | cons c cs ih =>
      intro l hl
      rw [linesFrom] at hl
      split at hl
      · obtain rfl | hl := List.mem_cons.mp hl
        · rw [stripCr]
          split
          · exact fun h => hline (List.dropLast_subset _ h)
          · exact hline
        · exact ih List.not_mem_nil l hl
      · next hc =>
        refine ih ?_ l hl
        simp [hline, Ne.symm hc]

theorem stripCr_of_not_mem {line : List Char} (h : '\r' ∉ line) : stripCr line = line := by
  rw [stripCr, if_neg]
  intro hlast
  exact h (List.mem_of_getLast? hlast)

/-- Without carriage returns, the lines of a text read as its split does. -/
theorem readLines_linesFrom {line cs : List Char} (hline : '\n' ∉ line) (hcr : '\r' ∉ line ++ cs) :
    readLines st (linesFrom line cs) = readLines st ((line ++ cs).splitOn '\n') := by
  induction cs generalizing line st with
  | nil =>
      rw [List.append_nil, List.splitOn_eq_singleton hline, linesFrom]
      split
      · next hnil =>
        rw [hnil]
        exact (readLines_blanks [] 1).symm
      · rfl
  | cons c cs ih =>
      rw [linesFrom]
      split
      · next hc =>
        subst hc
        have hstrip : stripCr line = line := stripCr_of_not_mem fun h =>
          hcr (List.mem_append_left _ h)
        have hrest : '\r' ∉ [] ++ cs := fun h =>
          hcr (List.mem_append_right _ (List.mem_cons_of_mem _ h))
        rw [List.splitOn_append_cons_self, List.splitOn_eq_singleton hline, hstrip,
          List.singleton_append]
        obtain _ | ⟨label, content⟩ := st
        · rw [readLines, readLines]
          split
          · exact ih List.not_mem_nil hrest
          · split
            · exact ih List.not_mem_nil hrest
            · rw [ih List.not_mem_nil hrest, List.nil_append]
        · rw [readLines, readLines]
          split
          · rw [ih List.not_mem_nil hrest, List.nil_append]
          · exact ih List.not_mem_nil hrest
      · next hc =>
        have happend : line ++ c :: cs = (line ++ [c]) ++ cs := by simp
        rw [happend]
        refine ih ?_ (happend ▸ hcr)
        simp [hline, Ne.symm hc]

/-! ## reading items -/

variable {i : TextItem} {items : List TextItem} {sections : List TextSection}

theorem Uncontrolled.newline_not_mem {cs : List Char} (h : Uncontrolled cs) : '\n' ∉ cs := by
  intro hmem
  have hcontrol := h _ hmem
  contradiction

theorem Uncontrolled.cr_not_mem {cs : List Char} (h : Uncontrolled cs) : '\r' ∉ cs := by
  intro hmem
  have hcontrol := h _ hmem
  contradiction

theorem uncontrolled_append {cs cs' : List Char} :
    Uncontrolled (cs ++ cs') ↔ Uncontrolled cs ∧ Uncontrolled cs' := by
  simp only [Uncontrolled, List.mem_append, or_imp, forall_and]

theorem uncontrolled_colon : Uncontrolled [':'] := by decide

theorem uncontrolled_freeLabel {label : String} (h : label ∈ freeLabels) :
    Uncontrolled label.toList := by
  have hall : ∀ label ∈ freeLabels, Uncontrolled label.toList := by decide
  exact hall label h

theorem opensBlock_freeLabel {label : String} (h : label ∈ freeLabels) :
    opensBlock (label ++ ":").toList = true := by
  rw [opensBlock, List.any_eq_true]
  exact ⟨label, h, by rw [String.toList_append]; exact beq_self_eq_true _⟩

/-- A colon in a line that opens a block is the last character. -/
theorem opensBlock_field (label value : String) :
    opensBlock (label ++ ": " ++ value).toList = false := by
  rw [Bool.eq_false_iff, opensBlock]
  intro hopens
  obtain ⟨free, hfree, heq⟩ := List.any_eq_true.mp hopens
  have hcolon : ':' ∉ free.toList := by
    have hall : ∀ free ∈ freeLabels, ':' ∉ free.toList := by decide
    exact hall free hfree
  have hline : (label ++ ": " ++ value).toList =
      (label.toList ++ [':']) ++ ' ' :: value.toList := by
    simp
  have hdrop := congrArg List.dropLast (hline.symm.trans (eq_of_beq heq))
  rw [List.dropLast_concat, List.dropLast_append_of_ne_nil (by simp)] at hdrop
  rw [← hdrop] at hcolon
  simp at hcolon

/-- Lines put out as they are. -/
theorem flatMap_splitOn {ls : List String} (h : ∀ l ∈ ls, '\n' ∉ l.toList) :
    ls.flatMap (fun l => l.toList.splitOn '\n') = ls.map String.toList := by
  induction ls with
  | nil => rfl
  | cons l ls ih =>
      rw [List.flatMap_cons, List.splitOn_eq_singleton (h l (.head _)),
        ih fun l' hl' => h l' (.tail _ hl')]
      rfl

theorem flatMap_splitOn_lines (content : String) :
    (lines content).flatMap (fun l => l.toList.splitOn '\n') = linesFrom [] content.toList := by
  rw [flatMap_splitOn]
  · rw [lines, List.map_map]
    exact (List.map_congr_left fun l _ => String.toList_ofList).trans (List.map_id _)
  · intro l hl
    obtain ⟨cs, hcs, rfl⟩ := List.mem_map.mp hl
    rw [String.toList_ofList]
    exact newline_not_mem_linesFrom List.not_mem_nil cs hcs

/-- What is read of a block that is put out. -/
theorem readLines_putBlock {label : String} (h : label ∈ freeLabels) (content : String)
    (rest : List (List Char)) :
    readLines none (((label ++ ":") :: (lines content ++ [""])).flatMap
        (fun l => l.toList.splitOn '\n') ++ rest) =
      readLines (some ((label ++ ":").toList, [])) (linesFrom [] content.toList) ++
        readLines none rest := by
  have hlabel : Uncontrolled (label ++ ":").toList := by
    rw [String.toList_append]
    exact uncontrolled_append.mpr ⟨uncontrolled_freeLabel h, uncontrolled_colon⟩
  have hne : (label ++ ":").toList ≠ [] := by simp
  rw [List.flatMap_cons, List.flatMap_append, flatMap_splitOn_lines,
    List.splitOn_eq_singleton hlabel.newline_not_mem, List.singleton_append, List.cons_append,
    readLines, if_neg hne, if_pos (opensBlock_freeLabel h)]
  have hblank : ([""] : List String).flatMap (fun l => l.toList.splitOn '\n') = [[]] := rfl
  rw [hblank, List.append_assoc, List.singleton_append, readLines_blank]

/-- What a reader finds of an item: its entry, or of a block the lines up to
a blank one and what it takes the others for. -/
def TextItem.found : TextItem → List TextEntry
  | .block label content =>
      .block (label ++ ":").toList ((linesFrom [] content.toList).takeWhile (· ≠ [])) ::
        readLines none ((linesFrom [] content.toList).dropWhile (· ≠ []))
  | i => [i.entry]

/-- The characters of a listing are those of its entries. -/
theorem TextItem.Clean.listing {label : String} {entries : List String}
    (h : (TextItem.listing label entries).Clean) {c : Char}
    (hc : c ∈ (String.intercalate "\n" entries).toList) : c = '\n' ∨ isControl c = false := by
  by_cases hne : c = '\n'
  · exact .inl hne
  · right
    rw [String.toList_intercalate, show "\n".toList = ['\n'] from rfl,
      mem_intercalate_lines hne] at hc
    obtain ⟨l, hl, hc⟩ := hc
    obtain ⟨e, he, rfl⟩ := List.mem_map.mp hl
    exact h e he c hc

/-- **An item is read apart from what follows it.** -/
theorem TextItem.readLines_append (hlabel : i.Labelled) (hclean : i.Clean)
    (rest : List (List Char)) :
    readLines none (i.lines.flatMap (fun l => l.toList.splitOn '\n') ++ rest) =
      i.found ++ readLines none rest := by
  cases i with
  | heading label =>
      have huncontrolled : Uncontrolled (label ++ ":").toList := by
        rw [String.toList_append]
        exact uncontrolled_append.mpr ⟨hlabel.1, uncontrolled_colon⟩
      have hne : (label ++ ":").toList ≠ [] := by simp
      rw [TextItem.lines, List.flatMap_singleton,
        List.splitOn_eq_singleton huncontrolled.newline_not_mem, List.singleton_append, readLines,
        if_neg hne, hlabel.2]
      rfl
  | field label value =>
      have huncontrolled : Uncontrolled (label ++ ": " ++ value).toList := by
        rw [String.toList_append, String.toList_append]
        refine uncontrolled_append.mpr ⟨uncontrolled_append.mpr ⟨hlabel, ?_⟩, hclean⟩
        decide
      have hne : (label ++ ": " ++ value).toList ≠ [] := by simp
      rw [TextItem.lines, List.flatMap_singleton,
        List.splitOn_eq_singleton huncontrolled.newline_not_mem, List.singleton_append, readLines,
        if_neg hne, opensBlock_field]
      rfl
  | block label content =>
      rw [TextItem.lines, readLines_putBlock hlabel, readLines_block, List.nil_append]
      rfl
  | listing label entries =>
      obtain ⟨hfree, hentries, hne⟩ := hlabel
      have hcr : '\r' ∉ [] ++ (String.intercalate "\n" entries).toList := fun hmem => by
        obtain h | h := hclean.listing hmem <;> contradiction
      have hlines : (String.intercalate "\n" entries).toList.splitOn '\n' =
          entries.map String.toList := by
        rw [String.toList_intercalate]
        refine List.splitOn_intercalate '\n' (fun l hl => ?_) (by simpa using hentries)
        obtain ⟨e, he, rfl⟩ := List.mem_map.mp hl
        exact Uncontrolled.newline_not_mem (hclean e he)
      have hfull : ∀ l ∈ entries.map String.toList, decide (l ≠ []) = true := by
        intro l hl
        obtain ⟨e, he, rfl⟩ := List.mem_map.mp hl
        simpa using hne e he
      rw [TextItem.lines, readLines_putBlock hfree, readLines_linesFrom List.not_mem_nil hcr,
        List.nil_append, hlines, readLines_block, List.nil_append,
        List.takeWhile_eq_self_iff.mpr hfull,
        List.dropWhile_eq_nil_iff.mpr hfull]
      rfl

/-! ## reading sections -/

/-- The lines of an item have no control characters if its values have none. -/
theorem TextItem.uncontrolled_lines (hlabel : i.Labelled) (hclean : i.Clean) :
    ∀ l ∈ i.lines, Uncontrolled l.toList := by
  have hopening {label : String} (h : Uncontrolled label.toList) :
      Uncontrolled (label ++ ":").toList := by
    rw [String.toList_append]
    exact uncontrolled_append.mpr ⟨h, uncontrolled_colon⟩
  have hcontent {content : String} (h : ∀ l ∈ linesFrom [] content.toList, Uncontrolled l) :
      ∀ l ∈ A2a.lines content ++ [""], Uncontrolled l.toList := by
    intro l hl
    obtain hl | hl := List.mem_append.mp hl
    · obtain ⟨cs, hcs, rfl⟩ := List.mem_map.mp hl
      rw [String.toList_ofList]
      exact h cs hcs
    · rw [List.mem_singleton.mp hl]
      exact fun c hc => absurd hc List.not_mem_nil
  intro l hl
  cases i with
  | heading label =>
      rw [List.mem_singleton.mp hl]
      exact hopening hlabel.1
  | field label value =>
      rw [List.mem_singleton.mp hl, String.toList_append, String.toList_append]
      refine uncontrolled_append.mpr ⟨uncontrolled_append.mpr ⟨hlabel, ?_⟩, hclean⟩
      decide
  | block label content =>
      obtain rfl | hl := List.mem_cons.mp hl
      · exact hopening (uncontrolled_freeLabel hlabel)
      · exact hcontent hclean l hl
  | listing label entries =>
      obtain rfl | hl := List.mem_cons.mp hl
      · exact hopening (uncontrolled_freeLabel hlabel.1)
      · refine hcontent (fun cs hcs c hc => ?_) l hl
        obtain h | h := mem_linesFrom cs hcs c hc
        · contradiction
        · obtain rfl | h := hclean.listing h
          · exact absurd hc (newline_not_mem_linesFrom List.not_mem_nil cs hcs)
          · exact h

/-- Items are read one after another. -/
theorem readLines_items (hitems : ∀ i ∈ items, i.Labelled ∧ i.Clean) (rest : List (List Char)) :
    readLines none ((items.flatMap (·.lines)).flatMap (fun l => l.toList.splitOn '\n') ++ rest) =
      items.flatMap (·.found) ++ readLines none rest := by
  induction items with
  | nil => rfl
  | cons i items ih =>
      have hi := hitems i (.head _)
      rw [List.flatMap_cons, List.flatMap_append, List.append_assoc,
        TextItem.readLines_append hi.1 hi.2, ih fun j hj => hitems j (.tail _ hj),
        List.flatMap_cons, List.append_assoc]

/-- So are sections, a record as its first line and its items. -/
theorem readLines_sections (hsections : ∀ s ∈ sections, ∀ i ∈ s.items, i.Labelled ∧ i.Clean)
    (rest : List (List Char)) :
    readLines none ((sections.flatMap (·.lines)).flatMap (fun l => l.toList.splitOn '\n') ++ rest) =
      (sections.flatMap (·.items)).flatMap (·.found) ++ readLines none rest := by
  induction sections with
  | nil => rfl
  | cons s sections ih =>
      have hs := hsections s (.head _)
      have hrest := ih fun s' hs' => hsections s' (.tail _ hs')
      rw [List.flatMap_cons, List.flatMap_append, List.append_assoc, List.flatMap_cons,
        List.flatMap_append, List.append_assoc, ← hrest]
      cases s with
      | item i =>
          have hi := hs i (.head _)
          rw [TextSection.lines, TextSection.items, List.flatMap_singleton]
          exact TextItem.readLines_append hi.1 hi.2 _
      | record label items =>
          have hheading := hs (.heading label) (.head _)
          have hitems : ∀ i ∈ items, i.Labelled ∧ i.Clean := fun i hi => hs i (.tail _ hi)
          have hread := readLines_items hitems []
          rw [List.append_nil, readLines, List.append_nil, ← readOutput_finish, readOutput] at hread
          have hcr : '\r' ∉ [] ++ (TextOutput.finish ⟨items.flatMap (·.lines)⟩).toList := by
            intro hmem
            have hne : '\r' ≠ '\n' := by decide
            rw [List.nil_append] at hmem
            obtain ⟨l, hl, hmem⟩ := (mem_finish hne).mp hmem
            obtain ⟨i, hi, hl⟩ := List.mem_flatMap.mp hl
            have huncontrolled := TextItem.uncontrolled_lines (hitems i hi).1 (hitems i hi).2 l hl
            exact huncontrolled.cr_not_mem hmem
          have hblank : ([""] : List String).flatMap (fun l => l.toList.splitOn '\n') = [[]] := rfl
          have hfirst := TextItem.readLines_append hheading.1 hheading.2
          rw [TextSection.lines, TextSection.items, List.flatMap_cons, List.flatMap_append,
            flatMap_splitOn_lines, hblank, List.append_assoc, List.append_assoc,
            List.singleton_append]
          rw [TextItem.lines, List.flatMap_singleton] at hfirst
          rw [hfirst, readLines_blank, readLines_linesFrom List.not_mem_nil hcr, List.nil_append,
            hread, List.flatMap_cons, List.append_assoc]

/-! ## inert outputs -/

/-- Where each item is found as one entry at least, as many entries as items
are one of each. -/
theorem length_found_eq_one {f : TextItem → List TextEntry} (hpos : ∀ i ∈ items, 1 ≤ (f i).length)
    (h : (items.flatMap f).length = items.length) : ∀ i ∈ items, (f i).length = 1 := by
  have hle (items : List TextItem) (hpos : ∀ i ∈ items, 1 ≤ (f i).length) :
      items.length ≤ (items.flatMap f).length := by
    induction items with
    | nil => simp
    | cons i items ih =>
        have hi := hpos i (.head _)
        have hrest := ih fun j hj => hpos j (.tail _ hj)
        rw [List.flatMap_cons, List.length_append, List.length_cons]
        omega
  induction items with
  | nil => simp
  | cons i items ih =>
      have hi := hpos i (.head _)
      have htail := fun j hj => hpos j (List.mem_cons_of_mem i hj)
      have hrest := hle items htail
      rw [List.flatMap_cons, List.length_append, List.length_cons] at h
      intro j hj
      obtain rfl | hj := List.mem_cons.mp hj
      · omega
      · exact ih htail (by omega) j hj

theorem TextItem.one_le_length_found (i : TextItem) : 1 ≤ i.found.length := by
  cases i <;> simp [found]

/-- A content stays in its block exactly if the block is all that is found. -/
theorem TextItem.whole_iff (i : TextItem) : i.Whole ↔ i.found.length = 1 := by
  cases i with
  | block label content =>
      rw [TextItem.Whole, TextItem.found, List.length_cons, Nat.add_eq_right,
        List.length_eq_zero_iff,
        readLines_eq_nil_iff]
      rfl
  | _ => simp [Whole, found]

/-- Then the block is found with its content, blank lines at the end aside. -/
theorem Unparted.takeWhile {ls : List (List Char)} (h : Unparted ls) :
    ls.takeWhile (· ≠ []) = ls.rdropWhile (· == []) := by
  have hsplit := List.takeWhile_append_dropWhile (p := fun l => decide (l ≠ [])) (l := ls)
  have hblank : ls = ls.takeWhile (· ≠ []) ++ List.replicate (ls.dropWhile (· ≠ [])).length [] := by
    rw [← List.eq_replicate_of_mem h]
    exact hsplit.symm
  have hdrop (n : Nat) (as : List (List Char)) :
      (as ++ List.replicate n []).rdropWhile (· == []) = as.rdropWhile (· == []) := by
    induction n with
    | zero => simp
    | succ n ih =>
        rw [List.replicate_succ', ← List.append_assoc, List.rdropWhile_concat_pos _ _ _ rfl, ih]
  have hself : (ls.takeWhile (· ≠ [])).rdropWhile (· == []) = ls.takeWhile (· ≠ []) := by
    rw [List.rdropWhile_eq_self_iff]
    intro hne hlast
    have hmem := List.mem_takeWhile_imp (List.getLast_mem hne)
    rw [eq_of_beq hlast] at hmem
    simp at hmem
  calc ls.takeWhile (· ≠ [])
      = (ls.takeWhile (· ≠ [])).rdropWhile (· == []) := hself.symm
    _ = (ls.takeWhile (· ≠ []) ++
          List.replicate (ls.dropWhile (· ≠ [])).length []).rdropWhile (· == []) := (hdrop _ _).symm
    _ = ls.rdropWhile (· == []) := by rw [← hblank]

theorem TextItem.found_of_whole (h : i.Whole) : i.found = [i.entry] := by
  cases i with
  | block label content =>
      have hnil := (readLines_eq_nil_iff _).mpr h
      rw [TextItem.found, hnil, Unparted.takeWhile h]
      rfl
  | _ => rfl

/-- An item whose entry has no control characters is clean. -/
theorem TextItem.clean_of_entry (h : ∀ l ∈ i.entry.texts, Uncontrolled l) : i.Clean := by
  cases i with
  | heading label => trivial
  | field label value =>
      have hline := h _ (.head _)
      rw [String.toList_append, uncontrolled_append] at hline
      exact hline.2
  | block label content =>
      intro l hl
      rw [← List.rdropWhile_append_rtakeWhile (p := fun l => l == [])
        (l := linesFrom [] content.toList)] at hl
      obtain hl | hl := List.mem_append.mp hl
      · exact h l (.tail _ hl)
      · have hnil : l = [] := by simpa using List.mem_rtakeWhile_imp hl
        rw [hnil]
        exact fun c hc => absurd hc List.not_mem_nil
  | listing label entries => exact fun e he => h _ (.tail _ (List.mem_map_of_mem he))

/-- Without control characters in its items an output has none but line feeds. -/
theorem controls_of_clean (hsections : ∀ s ∈ sections, ∀ i ∈ s.items, i.Labelled ∧ i.Clean) :
    ∀ c ∈ (TextOutput.finish ⟨sections.flatMap (·.lines)⟩).toList,
      isControl c = true → c = '\n' := by
  intro c hc hcontrol
  by_contra hne
  have hitem {i : TextItem} (hi : i.Labelled ∧ i.Clean) {l : String} (hl : l ∈ i.lines)
      (hc : c ∈ l.toList) : False := by
    have huncontrolled := TextItem.uncontrolled_lines hi.1 hi.2 l hl c hc
    exact Bool.noConfusion (hcontrol.symm.trans huncontrolled)
  obtain ⟨l, hl, hc⟩ := (mem_finish hne).mp hc
  obtain ⟨s, hs, hl⟩ := List.mem_flatMap.mp hl
  have hs := hsections s hs
  cases s with
  | item i => exact hitem (hs i (.head _)) hl hc
  | record label items =>
      obtain rfl | hl := List.mem_cons.mp hl
      · exact hitem (hs (.heading label) (.head _)) (.head _) hc
      · obtain hl | hl := List.mem_append.mp hl
        · obtain ⟨cs, hcs, rfl⟩ := List.mem_map.mp hl
          rw [String.toList_ofList] at hc
          obtain h | h := mem_linesFrom cs hcs c hc
          · exact absurd h List.not_mem_nil
          · obtain ⟨l, hl, hc⟩ := (mem_finish hne).mp h
            obtain ⟨i, hi, hl⟩ := List.mem_flatMap.mp hl
            exact hitem (hs i (.tail _ hi)) hl hc
        · rw [List.mem_singleton.mp hl] at hc
          exact absurd hc List.not_mem_nil

/-- **An output is inert exactly if its items are.** -/
theorem inert_output (hlabels : ∀ s ∈ sections, ∀ i ∈ s.items, i.Labelled) :
    InertText (TextOutput.finish ⟨sections.flatMap (·.lines)⟩)
        ((sections.flatMap (·.items)).map (·.entry)) ↔
      ∀ s ∈ sections, ∀ i ∈ s.items, i.Inert := by
  have hfound (hclean : ∀ s ∈ sections, ∀ i ∈ s.items, i.Labelled ∧ i.Clean) :
      readOutput (TextOutput.finish ⟨sections.flatMap (·.lines)⟩) =
        (sections.flatMap (·.items)).flatMap (·.found) := by
    have hread := readLines_sections hclean []
    rw [List.append_nil, readLines, List.append_nil, ← readOutput_finish] at hread
    exact hread
  constructor
  · intro hinert
    have hclean : ∀ s ∈ sections, ∀ i ∈ s.items, i.Labelled ∧ i.Clean := by
      intro s hs i hi
      refine ⟨hlabels s hs i hi, TextItem.clean_of_entry fun l hl c hc => ?_⟩
      -- the entry is read off the text, so its lines are lines of the text
      have hentry : i.entry ∈ readOutput (TextOutput.finish ⟨sections.flatMap (·.lines)⟩) := by
        rw [hinert.read]
        exact List.mem_map_of_mem (List.mem_flatMap.mpr ⟨s, hs, hi⟩)
      obtain hmem | ⟨_, _, hnone, _⟩ := mem_of_mem_readLines hentry hl
      · cases hcontrol : isControl c with
        | false => rfl
        | true =>
            obtain rfl := hinert.controls c (mem_of_mem_splitOn hmem hc) hcontrol
            exact absurd hc (newline_not_mem_splitOn hmem)
      · cases hnone
    have hlength : ((sections.flatMap (·.items)).flatMap (·.found)).length =
        (sections.flatMap (·.items)).length := by
      rw [← hfound hclean, hinert.read, List.length_map]
    have hone := length_found_eq_one (fun i _ => i.one_le_length_found) hlength
    intro s hs i hi
    exact ⟨(hclean s hs i hi).2, i.whole_iff.mpr (hone i (List.mem_flatMap.mpr ⟨s, hs, hi⟩))⟩
  · intro h
    have hclean : ∀ s ∈ sections, ∀ i ∈ s.items, i.Labelled ∧ i.Clean := fun s hs i hi =>
      ⟨hlabels s hs i hi, (h s hs i hi).1⟩
    refine ⟨controls_of_clean hclean, ?_⟩
    have hwhole : ∀ i ∈ sections.flatMap (·.items), i.found = [i.entry] := by
      intro i hi
      obtain ⟨s, hs, hi⟩ := List.mem_flatMap.mp hi
      exact TextItem.found_of_whole (h s hs i hi).2
    rw [hfound hclean]
    generalize sections.flatMap (·.items) = items at hwhole
    induction items with
    | nil => rfl
    | cons i items ih =>
        rw [List.flatMap_cons, hwhole i (.head _), ih fun j hj => hwhole j (.tail _ hj)]
        rfl

end A2a
