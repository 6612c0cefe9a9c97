import A2a.FileParts.Snapshot

/-!
# A2a.FileParts.Safety

A saved file's name is one component that stays in the directory it is saved
to, and one that Windows takes where the files are saved on Windows
(`SafeComponent`).  Every step that makes a name keeps that: what is left of
an agent's own name, the extension of the media type and the number
(`savedNames_safe`).
-/

namespace A2a

/-! ## safe names -/

/-- What Windows reserves in a file name. -/
def reservedChars : List Char := ['<', '>', ':', '"', '|', '?', '*']

/-- No separator, no control character, and nothing that is reserved. -/
def isPlainChar (windows : Bool) (c : Char) : Bool :=
  c != '/' && c != '\\' && !isControl c && !(windows && reservedChars.contains c)

/-- The device names of Windows. -/
def deviceNames : List (List Char) :=
  ["CON", "PRN", "AUX", "NUL", "COM1", "COM2", "COM3", "COM4", "COM5", "COM6", "COM7", "COM8",
    "COM9", "LPT1", "LPT2", "LPT3", "LPT4", "LPT5", "LPT6", "LPT7", "LPT8", "LPT9"].map String.toList

/-- The part of a name before its first dot. -/
def beforeDot (cs : List Char) : List Char := cs.takeWhile (· != '.')

/-- A name that is one component, and on Windows one that names a file. -/
structure SafeComponent (windows : Bool) (cs : List Char) : Prop where
  nonempty : cs ≠ []
  not_dots : cs ≠ ['.'] ∧ cs ≠ ['.', '.']
  chars : ∀ c ∈ cs, isPlainChar windows c = true
  ending : windows = true → ∀ c, cs.getLast? = some c → c ≠ '.' ∧ c ≠ ' '
  device : windows = true → (beforeDot cs).map Char.toUpper ∉ deviceNames

variable {windows : Bool} {cs ds : List Char}

/-! ## before the first dot -/

theorem beforeDot_append_of_mem (h : '.' ∈ cs) : beforeDot (cs ++ ds) = beforeDot cs := by
  induction cs with
  | nil => contradiction
  | cons c rest ih =>
      unfold beforeDot at ih ⊢
      rw [List.cons_append, List.takeWhile_cons, List.takeWhile_cons]
      by_cases hdot : c = '.'
      · simp [hdot]
      · have hrest : '.' ∈ rest := (List.mem_cons.mp h).resolve_left (Ne.symm hdot)
        rw [ih hrest]

theorem beforeDot_append_of_notMem (h : '.' ∉ cs) : beforeDot (cs ++ ds) = cs ++ beforeDot ds := by
  unfold beforeDot
  rw [List.takeWhile_append_of_pos]
  intro c hc
  have hne : c ≠ '.' := fun heq => h (heq ▸ hc)
  simpa using hne

theorem beforeDot_append_dot (cs ds : List Char) : beforeDot (cs ++ '.' :: ds) = beforeDot cs := by
  by_cases h : '.' ∈ cs
  · exact beforeDot_append_of_mem h
  · have hcs : beforeDot (cs ++ []) = cs ++ beforeDot [] := beforeDot_append_of_notMem h
    rw [List.append_nil] at hcs
    rw [beforeDot_append_of_notMem h, hcs]
    rfl

/-- No device has a parenthesis in its name. -/
theorem not_device_of_paren (h : '(' ∈ cs) : cs.map Char.toUpper ∉ deviceNames := by
  intro hdevice
  have hnone : (deviceNames.all fun name => !name.contains '(') = true := by decide
  have hname := List.all_eq_true.mp hnone _ hdevice
  have hmem : '(' ∈ cs.map Char.toUpper := List.mem_map.mpr ⟨'(', h, by decide⟩
  simp [hmem] at hname

/-! ## extensions and numbers -/

theorem isPlainChar_of_isDigit {c : Char} (h : c.isDigit = true) : isPlainChar windows c = true := by
  have key : ∀ i : Fin 10, isPlainChar true (Char.ofNat (0x30 + i.val)) = true ∧
      isPlainChar false (Char.ofNat (0x30 + i.val)) = true := by
    decide
  have hzero : '0'.toNat = 0x30 := rfl
  have hnine : '9'.toNat = 0x39 := rfl
  rw [Char.isDigit_iff_toNat, hzero, hnine] at h
  have hc := key ⟨c.toNat - 0x30, by omega⟩
  rw [show 0x30 + (c.toNat - 0x30) = c.toNat by omega, Char.ofNat_toNat] at hc
  cases windows with
  | true => exact hc.1
  | false => exact hc.2

theorem isPlainChar_numberSuffix {n : Nat} : ∀ c ∈ numberSuffix n, isPlainChar windows c = true := by
  intro c hc
  simp only [numberSuffix, List.mem_cons, List.mem_append, List.not_mem_nil, or_false] at hc
  rcases hc with rfl | rfl | hc | rfl
  · cases windows <;> decide
  · cases windows <;> decide
  · exact isPlainChar_of_isDigit (Nat.isDigit_of_mem_toDigits (by decide) (by decide) hc)
  · cases windows <;> decide

/-- An extension leaves a name safe. -/
theorem SafeComponent.append_extension (h : SafeComponent windows cs) (hne : ds ≠ [])
    (hchars : ∀ c ∈ '.' :: ds, isPlainChar windows c = true)
    (hend : ∀ c, ds.getLast? = some c → c ≠ '.' ∧ c ≠ ' ') :
    SafeComponent windows (cs ++ '.' :: ds) where
  nonempty := by simp
  not_dots := by
    have hcs := List.length_pos_iff.mpr h.nonempty
    have hds := List.length_pos_iff.mpr hne
    constructor
    · intro heq
      have hlength := congrArg List.length heq
      simp at hlength
      omega
    · intro heq
      have hlength := congrArg List.length heq
      simp at hlength
      omega
  chars c hc := (List.mem_append.mp hc).elim (h.chars c) (hchars c)
  ending _ c hc := by
    cases ds with
    | nil => contradiction
    | cons d ds => exact hend c (by simpa [List.getLast?_append, List.getLast?_cons_cons] using hc)
  device hw := by
    rw [beforeDot_append_dot]
    exact h.device hw

/-- So does a number. -/
theorem safeComponent_numbered {name : String} (h : SafeComponent windows name.toList) (n : Nat) :
    SafeComponent windows (numbered name n).toList := by
  rcases toList_numbered name n with ⟨stem, ext, hname, -, hn⟩ | ⟨-, hn⟩
  · rw [hn]
    rw [hname] at h
    have hparen : '(' ∈ stem ++ numberSuffix n := by simp [numberSuffix]
    refine ⟨by simp, ⟨?_, ?_⟩, ?_, ?_, ?_⟩
    · intro heq
      have hmem := List.mem_append_left ('.' :: ext) hparen
      simp [heq] at hmem
    · intro heq
      have hmem := List.mem_append_left ('.' :: ext) hparen
      simp [heq] at hmem
    · intro c hc
      rw [List.mem_append, List.mem_append] at hc
      rcases hc with (hc | hc) | hc
      · exact h.chars c (List.mem_append_left _ hc)
      · exact isPlainChar_numberSuffix c hc
      · exact h.chars c (List.mem_append_right _ hc)
    · intro hw c hc
      refine h.ending hw c ?_
      rw [List.getLast?_append] at hc ⊢
      simpa using hc
    · intro hw
      have hdevice := h.device hw
      rw [beforeDot_append_dot] at hdevice ⊢
      by_cases hdot : '.' ∈ stem
      · rwa [beforeDot_append_of_mem hdot]
      · rw [beforeDot_append_of_notMem hdot]
        apply not_device_of_paren
        simp [numberSuffix, beforeDot]
  · rw [hn]
    have hparen : '(' ∈ name.toList ++ numberSuffix n := by simp [numberSuffix]
    refine ⟨by simp [numberSuffix], ⟨?_, ?_⟩, ?_, ?_, ?_⟩
    · intro heq
      simp [heq] at hparen
    · intro heq
      simp [heq] at hparen
    · intro c hc
      rw [List.mem_append] at hc
      exact hc.elim (h.chars c) (isPlainChar_numberSuffix c)
    · intro hw c hc
      have hsuffix : numberSuffix n = (' ' :: '(' :: Nat.toDigits 10 n) ++ [')'] := rfl
      rw [hsuffix, ← List.append_assoc, List.getLast?_concat, Option.some.injEq] at hc
      simp [← hc]
    · intro hw
      by_cases hdot : '.' ∈ name.toList
      · rw [beforeDot_append_of_mem hdot]
        exact h.device hw
      · rw [beforeDot_append_of_notMem hdot]
        apply not_device_of_paren
        simp [numberSuffix, beforeDot]

/-! ## what is left of an agent's name -/

/-- What lies between separators has none. -/
theorem not_of_mem_splitOnP {α : Type} {p : α → Bool} {l piece : List α}
    (h : piece ∈ l.splitOnP p) : ∀ c ∈ piece, p c = false := by
  induction l generalizing piece with
  | nil =>
      rw [List.splitOnP_nil, List.mem_singleton] at h
      simp [h]
  | cons a rest ih =>
      rw [List.splitOnP_cons_eq_if_modifyHead] at h
      split at h
      · rw [List.mem_cons] at h
        rcases h with rfl | h
        · simp
        · exact ih h
      · next ha =>
        cases hrest : rest.splitOnP p with
        | nil => exact absurd hrest (List.splitOnP_ne_nil p rest)
        | cons head pieces =>
            rw [hrest, List.modifyHead_cons, List.mem_cons] at h
            rcases h with rfl | h
            · intro c hc
              rw [List.mem_cons] at hc
              rcases hc with rfl | hc
              · simpa using ha
              · exact ih (by rw [hrest]; exact List.mem_cons_self) c hc
            · exact ih (by rw [hrest]; exact List.mem_cons_of_mem _ h)

theorem mem_of_mem_trim {c : Char} (h : c ∈ trim cs) : c ∈ cs := by
  rw [trim, List.mem_reverse] at h
  have hmem := List.mem_reverse.mp ((List.dropWhile_suffix isWhitespace).subset h)
  exact (List.dropWhile_suffix isWhitespace).subset hmem

theorem mem_of_mem_trimEndMatches {p : Char → Bool} {c : Char} (h : c ∈ trimEndMatches p cs) :
    c ∈ cs := by
  rw [trimEndMatches, List.mem_reverse] at h
  exact List.mem_reverse.mp ((List.dropWhile_suffix p).subset h)

theorem last_trimEndMatches {p : Char → Bool} {c : Char}
    (h : (trimEndMatches p cs).getLast? = some c) : p c = false := by
  rw [trimEndMatches, List.getLast?_reverse] at h
  cases hdrop : cs.reverse.dropWhile p with
  | nil =>
      rw [hdrop] at h
      contradiction
  | cons d rest =>
      rw [hdrop, List.head?_cons, Option.some.injEq] at h
      have hhead := List.head_dropWhile_not p (l := cs.reverse) (by rw [hdrop]; exact List.cons_ne_nil d rest)
      simp only [hdrop, List.head_cons] at hhead
      rw [← h]
      simpa using hhead

/-- With what is reserved replaced, and no dot or space at the end. -/
def replacedReserved (cs : List Char) : List Char :=
  trimEndMatches ['.', ' '].contains (cs.map fun c => if reservedChars.contains c then '_' else c)

/-- The test of `windowsSafe` for a device. -/
def isDevice (stem : List Char) : Bool :=
  ((stem.take 3 == "COM".toList || stem.take 3 == "LPT".toList) &&
    stem.length == 4 && (stem.drop 3).all fun c => '1' ≤ c && c ≤ '9') ||
    ["CON", "PRN", "AUX", "NUL"].contains (String.ofList stem)

theorem windowsSafe_eq (cs : List Char) :
    windowsSafe cs =
      if isDevice ((beforeDot (replacedReserved cs)).map Char.toUpper) then '_' :: replacedReserved cs
      else replacedReserved cs := rfl

/-- The test finds every device. -/
theorem isDevice_of_mem {stem : List Char} (h : stem ∈ deviceNames) : isDevice stem = true := by
  have hall : deviceNames.all isDevice = true := by decide
  exact List.all_eq_true.mp hall stem h

theorem isPlainChar_replacedReserved (hchars : ∀ c ∈ cs, isPlainChar false c = true) :
    ∀ c ∈ replacedReserved cs, isPlainChar true c = true := by
  intro c hc
  obtain ⟨d, hd, hdc⟩ := List.mem_map.mp (mem_of_mem_trimEndMatches hc)
  have hplain := hchars d hd
  by_cases hreserved : reservedChars.contains d = true
  · rw [if_pos hreserved] at hdc
    rw [← hdc]
    decide
  · rw [if_neg hreserved] at hdc
    rw [← hdc]
    rw [Bool.not_eq_true] at hreserved
    rw [isPlainChar, Bool.false_and, Bool.not_false, Bool.and_true] at hplain
    rw [isPlainChar, hplain, hreserved]
    rfl

theorem not_dots_of_ending (h : ∀ c, cs.getLast? = some c → c ≠ '.' ∧ c ≠ ' ') :
    cs ≠ ['.'] ∧ cs ≠ ['.', '.'] := by
  constructor
  · rintro rfl
    exact (h '.' rfl).1 rfl
  · rintro rfl
    exact (h '.' rfl).1 rfl

/-- What Windows is handed is safe there. -/
theorem safeComponent_windowsSafe (hchars : ∀ c ∈ cs, isPlainChar false c = true)
    (hne : windowsSafe cs ≠ []) : SafeComponent true (windowsSafe cs) := by
  have hplain := isPlainChar_replacedReserved hchars
  have hending : ∀ c, (replacedReserved cs).getLast? = some c → c ≠ '.' ∧ c ≠ ' ' := by
    intro c hc
    have hkept := last_trimEndMatches hc
    simpa using hkept
  rw [windowsSafe_eq] at hne ⊢
  by_cases hdevice : isDevice ((beforeDot (replacedReserved cs)).map Char.toUpper) = true
  · rw [if_pos hdevice]
    -- a device has a name, so the underscore does not stand alone
    cases hsafe : replacedReserved cs with
    | nil =>
        rw [hsafe] at hdevice
        contradiction
    | cons d rest =>
        rw [hsafe] at hplain hending
        have hending' : ∀ c, ('_' :: d :: rest).getLast? = some c → c ≠ '.' ∧ c ≠ ' ' := by
          intro c hc
          rw [List.getLast?_cons_cons] at hc
          exact hending c hc
        refine ⟨List.cons_ne_nil _ _, not_dots_of_ending hending', ?_, fun _ => hending', ?_⟩
        · intro c hc
          rw [List.mem_cons] at hc
          rcases hc with rfl | hc
          · decide
          · exact hplain c hc
        · intro _ hmem
          have hnone : (deviceNames.all fun name => name.head? != some '_') = true := by decide
          have hname := List.all_eq_true.mp hnone _ hmem
          simp [beforeDot] at hname
  · rw [if_neg hdevice] at hne ⊢
    refine ⟨hne, not_dots_of_ending hending, hplain, fun _ => hending, ?_⟩
    intro _ hmem
    exact hdevice (isDevice_of_mem hmem)

/-- A component without its control characters. -/
def replacedControls (base : List Char) : List Char :=
  base.map fun c => if isControl c then '_' else c

theorem isPlainChar_replacedControls {base : List Char}
    (h : ∀ c ∈ base, (decide (c = '/') || decide (c = '\\')) = false) :
    ∀ c ∈ replacedControls base, isPlainChar false c = true := by
  intro c hc
  obtain ⟨d, hd, hdc⟩ := List.mem_map.mp hc
  by_cases hcontrol : isControl d = true
  · rw [if_pos hcontrol] at hdc
    rw [← hdc]
    decide
  · rw [if_neg hcontrol] at hdc
    have hsep := h d hd
    rw [Bool.or_eq_false_iff, decide_eq_false_iff_not, decide_eq_false_iff_not] at hsep
    rw [Bool.not_eq_true] at hcontrol
    rw [← hdc]
    simp [isPlainChar, hsep, hcontrol]

/-- No dot comes of a character that is none. -/
theorem replacedControls_eq_dots {base : List Char} {n : Nat}
    (h : replacedControls base = List.replicate n '.') : base = List.replicate n '.' := by
  rw [List.eq_replicate_iff] at h ⊢
  refine ⟨by simpa [replacedControls] using h.1, fun c hc => ?_⟩
  have hdot := h.2 _ (List.mem_map.mpr ⟨c, hc, rfl⟩)
  by_cases hcontrol : isControl c = true
  · rw [if_pos hcontrol] at hdot
    contradiction
  · rwa [if_neg hcontrol] at hdot

/-- What is left of a name is safe. -/
theorem safeComponent_cleanName {raw name : String} (h : cleanName windows raw = some name) :
    SafeComponent windows name.toList := by
  unfold cleanName at h
  simp only at h
  split at h
  · contradiction
  · next base hbase =>
    obtain ⟨component, hcomponent, hbase'⟩ := List.mem_map.mp (List.mem_of_find?_eq_some hbase)
    have hsep := not_of_mem_splitOnP (List.mem_reverse.mp hcomponent)
    have hchars := isPlainChar_replacedControls fun c hc =>
      hsep c (mem_of_mem_trim (by rw [hbase']; exact hc))
    split at h
    · contradiction
    · next hdots =>
      cases windows with
      | true =>
          simp only [if_true] at h
          split at h
          · contradiction
          · next hne =>
            rw [← Option.some.inj h, String.toList_ofList]
            exact safeComponent_windowsSafe hchars hne
      | false =>
          simp only [Bool.false_eq_true, if_false] at h
          split at h
          · contradiction
          · next hne =>
            rw [← Option.some.inj h, String.toList_ofList]
            rw [Bool.or_eq_true, decide_eq_true_eq, decide_eq_true_eq, not_or] at hdots
            exact ⟨hne, ⟨fun heq => hdots.1 (replacedControls_eq_dots (n := 1) heq),
              fun heq => hdots.2 (replacedControls_eq_dots (n := 2) heq)⟩, hchars,
              fun hw => absurd hw Bool.false_ne_true, fun hw => absurd hw Bool.false_ne_true⟩

/-- What is added for a media type: a dot, and something that ends in neither
dot nor space. -/
theorem extensionFor_safe {mediaType ext : String} (h : extensionFor mediaType = some ext) :
    ∃ ds, ext.toList = '.' :: ds ∧ ds ≠ [] ∧ (∀ c ∈ '.' :: ds, isPlainChar windows c = true) ∧
      ∀ c, ds.getLast? = some c → c ≠ '.' ∧ c ≠ ' ' := by
  have hall : (extensions.all fun known => known.2.toList.head? == some '.' &&
      (known.2.toList.tail != [] && (known.2.toList.all (isPlainChar true) &&
        (known.2.toList.all (isPlainChar false) &&
          (known.2.toList.tail.getLast? != some '.' &&
            known.2.toList.tail.getLast? != some ' '))))) = true := by
    decide
  unfold extensionFor at h
  simp only at h
  obtain ⟨known, hfound, hext⟩ := Option.map_eq_some_iff.mp h
  have hknown := List.all_eq_true.mp hall known (List.mem_of_find?_eq_some hfound)
  rw [hext] at hknown
  simp only [Bool.and_eq_true, beq_iff_eq, bne_iff_ne, List.all_eq_true] at hknown
  obtain ⟨hdot, hne, hplain, hplain', hend, hend'⟩ := hknown
  have hlist : ext.toList = '.' :: ext.toList.tail := (List.cons_head?_tail hdot).symm
  refine ⟨ext.toList.tail, hlist, hne, ?_, fun c hc => ⟨?_, ?_⟩⟩
  · rw [← hlist]
    cases windows with
    | true => exact hplain
    | false => exact hplain'
  · rintro rfl
    exact hend hc
  · rintro rfl
    exact hend' hc

/-- **The name of a part is safe.** -/
theorem safeComponent_resolveName (part : Part) (fallback : String) :
    SafeComponent windows (resolveName windows part fallback).toList := by
  have hbase : SafeComponent windows (((part.filename.bind (cleanName windows)).or
      (cleanName windows fallback)).getD "filepart").toList := by
    cases hown : part.filename.bind (cleanName windows) with
    | some name =>
        obtain ⟨raw, -, hraw⟩ := Option.bind_eq_some_iff.mp hown
        exact safeComponent_cleanName hraw
    | none =>
        cases hfallback : cleanName windows fallback with
        | some name => exact safeComponent_cleanName hfallback
        | none =>
            have hplain : ("filepart".toList.all (isPlainChar true) &&
                "filepart".toList.all (isPlainChar false)) = true := by decide
            rw [Bool.and_eq_true, List.all_eq_true, List.all_eq_true] at hplain
            refine ⟨by decide, by decide, ?_, fun _ c hc => ?_, fun _ => by decide⟩
            · cases windows with
              | true => exact hplain.1
              | false => exact hplain.2
            · have hlast : c = 't' := (Option.some.inj hc).symm
              rw [hlast]
              decide
  unfold resolveName
  simp only
  split
  · split
    · next ext hext =>
      obtain ⟨mediaType, -, hmediaType⟩ := Option.bind_eq_some_iff.mp hext
      obtain ⟨ds, hlist, hne, hchars, hend⟩ := extensionFor_safe hmediaType
      rw [String.toList_append, hlist]
      exact hbase.append_extension hne hchars hend
    · exact hbase
  · exact hbase

/-! ## the files of an invocation -/

theorem mem_names_addBytes {name other : String} {bytes : List UInt8}
    {files : List (String × List UInt8)} (h : other ∈ (addBytes name bytes files).map (·.1)) :
    other = name ∨ other ∈ files.map (·.1) := by
  induction files with
  | nil => simpa [addBytes] using h
  | cons file files ih =>
      unfold addBytes at h
      split at h
      · exact Or.inr h
      · rw [List.map_cons, List.mem_cons] at h ⊢
        rcases h with h | h
        · exact Or.inr (Or.inl h)
        · exact (ih h).imp id Or.inr

theorem safeComponent_joined (fallback : String) (parts : List Part) :
    ∀ name ∈ (joined windows fallback parts).map (·.1), SafeComponent windows name.toList := by
  rw [joined_eq]
  suffices h : ∀ files : List (String × List UInt8),
      (∀ name ∈ files.map (·.1), SafeComponent windows name.toList) →
      ∀ name ∈ (parts.foldl (joinPart windows fallback) files).map (·.1),
        SafeComponent windows name.toList from h [] (by simp)
  induction parts with
  | nil => exact fun files h => h
  | cons part parts ih =>
      intro files h
      rw [List.foldl_cons]
      refine ih _ fun name hname => ?_
      unfold joinPart at hname
      cases hcontent : part.content with
      | raw bytes =>
          simp only [hcontent] at hname
          rcases mem_names_addBytes hname with rfl | hold
          · exact safeComponent_resolveName part fallback
          · exact h name hold
      | text _ => exact h name (by simpa only [hcontent] using hname)
      | url _ => exact h name (by simpa only [hcontent] using hname)
      | data _ => exact h name (by simpa only [hcontent] using hname)

theorem safeComponent_putsOf {owner : Owner} {fallback : String} {parts : List Part}
    {append : Bool} {p : Put} (h : p ∈ putsOf windows owner fallback parts append) :
    SafeComponent windows p.name.toList := by
  obtain ⟨file, hfile, rfl⟩ := List.mem_map.mp h
  exact safeComponent_joined fallback parts file.1 (List.mem_map_of_mem hfile)

theorem safeComponent_putsAfter {calls : List SaveCall} {p : Put} (h : p ∈ putsAfter windows calls) :
    SafeComponent windows p.name.toList := by
  rw [putsAfter, List.mem_reverse] at h
  obtain ⟨call, -, hp⟩ := List.mem_flatMap.mp h
  cases call with
  | task task =>
      rw [SaveCall.puts, List.mem_append] at hp
      rcases hp with hp | hp
      · obtain ⟨artifact, -, hartifact⟩ := List.mem_flatMap.mp hp
        exact safeComponent_putsOf hartifact
      · cases hmessage : task.status.message with
        | none => simp [hmessage] at hp
        | some message =>
            rw [hmessage] at hp
            exact safeComponent_putsOf hp
  | message message => exact safeComponent_putsOf hp
  | artifact artifact append => exact safeComponent_putsOf hp

/-- The file of an owner has the name it used, or that name with a number. -/
theorem safeComponent_fileOf {dir owner name : String} {ps : List Put}
    (hsafe : ∀ p ∈ ps, SafeComponent windows p.name.toList) (h : owner ∈ ownersOf name ps) :
    (fileOf dir owner name ps).dir = dir ∧
      SafeComponent windows (fileOf dir owner name ps).fileName.toList := by
  have hused : name ∈ ps.map (·.name) := by
    by_contra hunused
    rw [ownersOf_of_unused hunused] at h
    contradiction
  obtain ⟨p, hp, rfl⟩ := List.mem_map.mp hused
  refine ⟨rfl, ?_⟩
  unfold fileOf pathOf
  by_cases hfirst : (ownersOf p.name ps).idxOf owner = 0
  · simp only [hfirst, if_true]
    exact hsafe p hp
  · simp only [hfirst, if_false]
    exact safeComponent_numbered (hsafe p hp) _

/-- **Saved file names are safe.**  Whatever an agent calls its files, its
artifacts and their media types, every path handed out in an invocation, and
every path written to, is one safe component in the directory. -/
theorem savedNames_safe (windows : Bool) (dir : String) (files : Files) (calls : List SaveCall) :
    let saving := saveAll windows dir files calls
    (∀ owner name path, saving.saver.HandedOut owner name path →
      path.dir = dir ∧ SafeComponent windows path.fileName.toList) ∧
    (∀ path, saving.files.lookup path ≠ files.lookup path →
      path.dir = dir ∧ SafeComponent windows path.fileName.toList) := by
  have hsafe : ∀ p ∈ putsAfter windows calls, SafeComponent windows p.name.toList :=
    fun p hp => safeComponent_putsAfter hp
  rw [saveAll_eq]
  constructor
  · intro owner name path hout
    obtain ⟨hmem, rfl⟩ := handedOut_iff.mp hout
    exact safeComponent_fileOf hsafe hmem
  · intro path hwritten
    by_contra hunsafe
    refine hwritten (lookup_notHandedOut dir files fun owner name hmem heq => hunsafe ?_)
    rw [← heq]
    exact safeComponent_fileOf hsafe hmem

end A2a
