import A2a.Types
import Mathlib.Data.List.Nodup

/-!
# A2a.MessageParts

The parts of a message from the flags of `send`
(`resolve_message_parts`, `a2acli/src/lib.rs`).

`clap` gives the values of each flag by themselves, with their places on the
command line; the order across flags is found again by sorting the places.
A media type goes to the part before it, and `grouped` says where that is
the part flag it directly follows.
-/

namespace A2a

/-! ## flags -/

inductive PartKind
  | text | file | data
  deriving DecidableEq

/-- A flag of `send` that has to do with parts, with its value. -/
inductive SendFlag
  | part (kind : PartKind) (value : String)
  | mediaType (value : String)

/-- The id `clap` knows a part flag by. -/
def PartKind.argId : PartKind → String
  | .text => "text_parts"
  | .file => "file_parts"
  | .data => "data_parts"

def SendFlag.argId : SendFlag → String
  | .part kind _ => kind.argId
  | .mediaType _ => "media_types"

def SendFlag.value : SendFlag → String
  | .part _ value => value
  | .mediaType value => value

def SendFlag.isPart : SendFlag → Bool
  | .part _ _ => true
  | .mediaType _ => false

/-- A command line of `send`: its part flags in the order typed, each with the
place of its value, and the positional text. -/
structure SendLine where
  flags : List (Nat × SendFlag)
  text : Option String
  ordered : flags.Pairwise fun a b => a.1 < b.1

/-- What `clap` makes of the command line. -/
structure MessageCommand where
  text : Option String
  textParts : List String
  fileParts : List String
  dataParts : List String
  mediaTypes : List String

namespace SendLine

variable (line : SendLine)

/-- The flags of one id. -/
def ofId (id : String) : List (Nat × SendFlag) := line.flags.filter fun flag => flag.2.argId = id

def values (id : String) : List String := (line.ofId id).map fun flag => flag.2.value

def command : MessageCommand where
  text := line.text
  textParts := line.values "text_parts"
  fileParts := line.values "file_parts"
  dataParts := line.values "data_parts"
  mediaTypes := line.values "media_types"

/-- `ArgMatches::indices_of`: nothing for a flag that is not there. -/
def indicesOf (id : String) : Option (List Nat) :=
  match line.ofId id with
  | [] => none
  | flags => some (flags.map Prod.fst)

end SendLine

/-! ## errors -/

/-- The kinds of `io::ErrorKind` that are told apart. -/
inductive IoErrorKind
  | notFound | invalidFilename | invalidInput | other
  deriving DecidableEq

/-- The errors of a command that its parts can lead to: a usage error, or a
file that cannot be read. -/
inductive PartError
  | invalidInput (message : String)
  | readFile (path : String) (source : IoErrorKind)

def mediaTypeMisplaced : String :=
  "--media-type must immediately follow a --text-part/--file-part/--data-part"

def noParts : String :=
  "message must have at least one part: pass text, or use --text-part/--file-part/--data-part"

def textNotCombined : String :=
  "the positional message text cannot be combined with " ++
    "--text-part/--file-part/--data-part; pass it as --text-part instead"

/-! ## parts -/

/-- What files and the standard input hold at some moment. -/
structure Io where
  read : String → Except IoErrorKind (List UInt8)
  readToString : String → Except IoErrorKind String
  readStdin : Except IoErrorKind String

def Part.url (s : String) : Part := ⟨.url s, none, none, none⟩

def Part.raw (bytes : List UInt8) : Part := ⟨.raw bytes, none, none, none⟩

def Part.data (v : Value) : Part := ⟨.data v, none, none, none⟩

/-- `Path::file_name` of a text: its last component, if that is a name. -/
def pathFileName (path : String) : Option String :=
  match ((path.toList.splitOn '/').filter fun name => name ≠ [] ∧ name ≠ ['.']).getLast? with
  | some name => if name = ['.', '.'] then none else some (String.ofList name)
  | none => none

/-- `build_file_part`. -/
def buildFilePart (io : Io) (value : String) : Except PartError Part :=
  if "://".toList <:+: value.toList then .ok (Part.url value)
  else
    match io.read value with
    | .error source => .error (.readFile value source)
    | .ok bytes => .ok { Part.raw bytes with filename := pathFileName value }

/-- `means_not_a_readable_path`. -/
def meansNotAReadablePath : IoErrorKind → Bool
  | .notFound | .invalidFilename | .invalidInput => true
  | .other => false

section build

variable (parseJson : String → Except String Value)

/-- `parse_data_part_json`. -/
def parseDataPartJson (text source : String) : Except PartError Part :=
  match parseJson text with
  | .ok v => .ok (Part.data v)
  | .error error => .error (.invalidInput s!"--data-part: invalid JSON in {source}: {error}")

/-- `build_data_part`. -/
def buildDataPart (io : Io) (value : String) : Except PartError Part :=
  if value = "-" then
    match io.readStdin with
    | .error source => .error (.readFile "<stdin>" source)
    | .ok buffer => parseDataPartJson parseJson buffer "<stdin>"
  else
    match io.readToString value with
    | .ok text => parseDataPartJson parseJson text value
    | .error source =>
        if meansNotAReadablePath source then
          match parseJson value with
          | .ok v => .ok (Part.data v)
          | .error _ =>
              let message := "--data-part must be a file path, \"-\" for stdin, or inline JSON: "
              .error (.invalidInput (message ++ value))
        else .error (.readFile value source)

def buildPart (io : Io) : PartKind → String → Except PartError Part
  | .text, value => .ok (Part.text value)
  | .file, value => buildFilePart io value
  | .data, value => buildDataPart parseJson io value

/-- `parts.last_mut()`, with the media type given to it. -/
def setMediaType (parts : List Part) (mediaType : String) : Option (List Part) :=
  parts.getLast?.map fun part => parts.dropLast ++ [{ part with mediaType := some mediaType }]

/-- The loop over the flags in their order.  `io` tells what is there to read
when the part of that number is built. -/
def assemble (io : Nat → Io) (parts : List Part) : List SendFlag → Except PartError (List Part)
  | [] => .ok parts
  | .part kind value :: rest =>
      match buildPart parseJson (io parts.length) kind value with
      | .error e => .error e
      | .ok part => assemble io (parts ++ [part]) rest
  | .mediaType value :: rest =>
      match setMediaType parts value with
      | some parts => assemble io parts rest
      | none => .error (.invalidInput mediaTypeMisplaced)

/-- The places of a flag with its values. -/
def tokens (indices : Option (List Nat)) (values : List String) (token : String → SendFlag) :
    List (Nat × SendFlag) :=
  match indices with
  | some indices => (indices.zip values).map fun entry => (entry.1, token entry.2)
  | none => []

/-- `resolve_message_parts`. -/
def resolveMessageParts (io : Nat → Io) (indicesOf : String → Option (List Nat))
    (command : MessageCommand) : Except PartError (List Part) :=
  let partTokens := tokens (indicesOf "text_parts") command.textParts (.part .text) ++
    tokens (indicesOf "file_parts") command.fileParts (.part .file) ++
    tokens (indicesOf "data_parts") command.dataParts (.part .data)
  if !command.mediaTypes.isEmpty && partTokens.isEmpty then
    .error (.invalidInput mediaTypeMisplaced)
  else if partTokens.isEmpty then
    match command.text with
    | some text => .ok [Part.text text]
    | none => .error (.invalidInput noParts)
  else if command.text.isSome then .error (.invalidInput textNotCombined)
  else
    let all := partTokens ++ tokens (indicesOf "media_types") command.mediaTypes .mediaType
    assemble parseJson io [] ((all.mergeSort fun a b => decide (a.1 ≤ b.1)).map Prod.snd)

end build

/-! ## the order typed -/

theorem SendFlag.part_of_argId {flag : SendFlag} (kind : PartKind) (h : flag.argId = kind.argId) :
    SendFlag.part kind flag.value = flag := by
  cases flag with
  | part kind' value =>
      have hkind : kind = kind' := by
        cases kind <;> cases kind' <;> simp [SendFlag.argId, PartKind.argId] at h ⊢
      rw [hkind, SendFlag.value]
  | mediaType value => cases kind <;> simp [SendFlag.argId, PartKind.argId] at h

theorem SendFlag.mediaType_of_argId {flag : SendFlag} (h : flag.argId = "media_types") :
    SendFlag.mediaType flag.value = flag := by
  cases flag with
  | part kind value => cases kind <;> simp [SendFlag.argId, PartKind.argId] at h
  | mediaType value => rfl

theorem tokens_ofId {line : SendLine} {id : String} {token : String → SendFlag}
    (h : ∀ flag : SendFlag, flag.argId = id → token flag.value = flag) :
    tokens (line.indicesOf id) (line.values id) token = line.ofId id := by
  have hzip : (((line.ofId id).map Prod.fst).zip (line.values id)).map
      (fun entry => (entry.1, token entry.2)) = line.ofId id := by
    rw [SendLine.values, List.zip_map', List.map_map]
    conv => rhs; rw [← List.map_id (line.ofId id)]
    apply List.map_congr_left
    intro flag hflag
    have hid : flag.2.argId = id := by simpa using (List.mem_filter.mp hflag).2
    show (flag.1, token flag.2.value) = flag
    rw [h flag.2 hid]
  unfold tokens SendLine.indicesOf
  cases hflags : line.ofId id with
  | nil => rfl
  | cons flag rest =>
      rw [hflags] at hzip
      exact hzip

/-- Every flag has one of the four ids. -/
theorem perm_ofId (line : SendLine) :
    (line.ofId "text_parts" ++ (line.ofId "file_parts" ++
      (line.ofId "data_parts" ++ line.ofId "media_types"))).Perm line.flags := by
  unfold SendLine.ofId
  induction line.flags with
  | nil => exact List.Perm.nil
  | cons flag rest ih =>
      obtain ⟨index, flag⟩ := flag
      simp only [List.filter_cons]
      cases flag with
      | part kind value =>
          cases kind with
          | text => exact ih.cons _
          | file => exact List.perm_middle.trans (ih.cons _)
          | data => exact (List.perm_middle.append_left _).trans (List.perm_middle.trans (ih.cons _))
      | mediaType value =>
          exact ((List.perm_middle.append_left _).append_left _).trans
            ((List.perm_middle.append_left _).trans (List.perm_middle.trans (ih.cons _)))

/-- Sorting by the places finds the order typed. -/
theorem sorted_ofId (line : SendLine) :
    (line.ofId "text_parts" ++ line.ofId "file_parts" ++ line.ofId "data_parts" ++
      line.ofId "media_types").mergeSort (fun a b => decide (a.1 ≤ b.1)) = line.flags := by
  have hperm := (List.mergeSort_perm (line.ofId "text_parts" ++ line.ofId "file_parts" ++
    line.ofId "data_parts" ++ line.ofId "media_types") fun a b => decide (a.1 ≤ b.1)).trans
      ((List.Perm.of_eq (by simp only [List.append_assoc])).trans (perm_ofId line))
  have hsorted := @List.pairwise_mergeSort (Nat × SendFlag) (fun a b => decide (a.1 ≤ b.1))
    (fun a b c hab hbc => by simp at hab hbc ⊢; omega) (fun a b => by simp; omega)
    (line.ofId "text_parts" ++ line.ofId "file_parts" ++ line.ofId "data_parts" ++
      line.ofId "media_types")
  have hnodup : (line.flags.map Prod.fst).Nodup :=
    List.pairwise_map.mpr (line.ordered.imp fun h => ne_of_lt h)
  refine List.Perm.eq_of_pairwise ?_ hsorted (line.ordered.imp fun h => by simp; omega) hperm
  intro a b ha hb hab hba
  rw [decide_eq_true_eq] at hab hba
  exact List.inj_on_of_nodup_map hnodup (hperm.mem_iff.mp ha) hb (by omega)

/-! ## where media types belong -/

/-- The part flags in their order, each with the media type directly after it;
nothing if a media type is elsewhere. -/
def grouped : List SendFlag → Option (List (PartKind × String × Option String))
  | [] => some []
  | .part kind value :: .mediaType mediaType :: rest =>
      (grouped rest).map fun groups => (kind, value, some mediaType) :: groups
  | .part kind value :: rest => (grouped rest).map fun groups => (kind, value, none) :: groups
  | .mediaType _ :: _ => none

/-- A media type follows another. -/
def doubled : List SendFlag → Bool
  | .mediaType _ :: .mediaType _ :: _ => true
  | _ :: rest => doubled rest
  | [] => false

def startsWithMediaType : List SendFlag → Bool
  | .mediaType _ :: _ => true
  | _ => false

/-- A part with the media type given to it, or its own. -/
def Part.withMediaType (part : Part) : Option String → Part
  | some mediaType => { part with mediaType := some mediaType }
  | none => part

section build

variable (parseJson : String → Except String Value) (io : Nat → Io)

/-- The parts of groups, from the one of some number on. -/
def buildGroups (k : Nat) : List (PartKind × String × Option String) → Except PartError (List Part)
  | [] => .ok []
  | (kind, value, mediaType) :: groups =>
      match buildPart parseJson (io k) kind value with
      | .error e => .error e
      | .ok part => (buildGroups (k + 1) groups).map (part.withMediaType mediaType :: ·)

/-- Why the first part that cannot be built cannot. -/
def firstFailure (k : Nat) : List SendFlag → Option PartError
  | [] => none
  | .part kind value :: rest =>
      match buildPart parseJson (io k) kind value with
      | .error e => some e
      | .ok _ => firstFailure (k + 1) rest
  | .mediaType _ :: rest => firstFailure k rest

theorem setMediaType_concat (parts : List Part) (part : Part) (mediaType : String) :
    setMediaType (parts ++ [part]) mediaType =
      some (parts ++ [part.withMediaType (some mediaType)]) := by
  simp [setMediaType, Part.withMediaType]

/-- Where every media type belongs, the loop builds the groups. -/
theorem assemble_of_grouped {flags : List SendFlag} (parts : List Part)
    {groups : List (PartKind × String × Option String)} (h : grouped flags = some groups) :
    assemble parseJson io parts flags =
      (buildGroups parseJson io parts.length groups).map (parts ++ ·) := by
  fun_induction grouped flags generalizing parts groups with
  | case1 =>
      rw [← Option.some.inj h]
      simp [assemble, buildGroups, Except.map]
  | case2 kind value mediaType rest ih =>
      obtain ⟨later, hlater, rfl⟩ := Option.map_eq_some_iff.mp h
      rw [assemble, buildGroups]
      cases hpart : buildPart parseJson (io parts.length) kind value with
      | error e => rfl
      | ok part =>
          have hrest := ih (parts ++ [part.withMediaType (some mediaType)]) hlater
          rw [List.length_append, List.length_singleton] at hrest
          simp only [assemble, setMediaType_concat, hrest]
          cases buildGroups parseJson io (parts.length + 1) later <;> simp [Except.map]
  | case3 kind value rest hnot ih =>
      obtain ⟨later, hlater, rfl⟩ := Option.map_eq_some_iff.mp h
      rw [assemble, buildGroups]
      cases hpart : buildPart parseJson (io parts.length) kind value with
      | error e => rfl
      | ok part =>
          have hrest := ih (parts ++ [part]) hlater
          rw [List.length_append, List.length_singleton] at hrest
          simp only [hrest, Part.withMediaType]
          cases buildGroups parseJson io (parts.length + 1) later <;> simp [Except.map]
  | case4 value rest => contradiction

/-- Once there is a part, the loop fails where a part cannot be built. -/
theorem assemble_eq_error {flags : List SendFlag} {parts : List Part} (hne : parts ≠ [])
    {e : PartError} :
    assemble parseJson io parts flags = .error e ↔
      firstFailure parseJson io parts.length flags = some e := by
  induction flags generalizing parts with
  | nil => simp [assemble, firstFailure]
  | cons flag rest ih =>
      cases flag with
      | part kind value =>
          rw [assemble, firstFailure]
          cases hpart : buildPart parseJson (io parts.length) kind value with
          | error failure => simp
          | ok part =>
              have hrest := @ih (parts ++ [part]) (by simp)
              rwa [List.length_append, List.length_singleton] at hrest
      | mediaType value =>
          obtain ⟨before, last, rfl⟩ := (List.eq_nil_or_concat' parts).resolve_left hne
          have hrest := @ih (before ++ [last.withMediaType (some value)]) (by simp)
          rw [List.length_append, List.length_singleton] at hrest
          rw [assemble, firstFailure, setMediaType_concat, List.length_append,
            List.length_singleton]
          exact hrest

/-- So it does from a part flag on. -/
theorem assemble_part_eq_error {kind : PartKind} {value : String} {rest : List SendFlag}
    {e : PartError} :
    assemble parseJson io [] (.part kind value :: rest) = .error e ↔
      firstFailure parseJson io 0 (.part kind value :: rest) = some e := by
  rw [assemble, firstFailure, List.length_nil]
  cases hpart : buildPart parseJson (io 0) kind value with
  | error failure => simp
  | ok part => exact assemble_eq_error parseJson io (List.cons_ne_nil part [])

/-- Media types are all where they belong if none is first and none follows another. -/
theorem grouped_eq_none_iff (flags : List SendFlag) :
    grouped flags = none ↔ startsWithMediaType flags = true ∨ doubled flags = true := by
  fun_induction grouped flags with
  | case1 => simp [startsWithMediaType, doubled]
  | case2 kind value mediaType rest ih =>
      rw [Option.map_eq_none_iff, ih]
      cases rest with
      | nil => simp [startsWithMediaType, doubled]
      | cons flag rest => cases flag <;> simp [startsWithMediaType, doubled]
  | case3 kind value rest hnot ih =>
      rw [Option.map_eq_none_iff, ih]
      simp [startsWithMediaType, doubled]
  | case4 value rest => simp [startsWithMediaType]

/-- The groups are the part flags. -/
theorem grouped_parts {flags : List SendFlag}
    {groups : List (PartKind × String × Option String)} (h : grouped flags = some groups) :
    groups.map (fun group => SendFlag.part group.1 group.2.1) = flags.filter SendFlag.isPart := by
  fun_induction grouped flags generalizing groups with
  | case1 =>
      rw [← Option.some.inj h]
      rfl
  | case2 kind value mediaType rest ih =>
      obtain ⟨later, hlater, rfl⟩ := Option.map_eq_some_iff.mp h
      rw [List.map_cons, ih hlater]
      rfl
  | case3 kind value rest hnot ih =>
      obtain ⟨later, hlater, rfl⟩ := Option.map_eq_some_iff.mp h
      rw [List.map_cons, ih hlater]
      rfl
  | case4 value rest => contradiction

/-! ## the command -/

variable (line : SendLine)

/-- The flags in the order typed. -/
def SendLine.typed : List SendFlag := line.flags.map Prod.snd

def SendLine.resolve : Except PartError (List Part) :=
  resolveMessageParts parseJson io line.indicesOf line.command

/-- Parts come one for each part flag in the order typed, each with the media
type directly after it; a media type that is elsewhere is a usage error.  A
command of well-placed part flags comes to nothing else. -/
structure SendLine.AsTyped : Prop where
  built : ∀ groups, grouped line.typed = some groups → groups ≠ [] → line.text = none →
    line.resolve parseJson io = buildGroups parseJson io 0 groups
  plain : ∀ text, line.typed = [] → line.text = some text →
    line.resolve parseJson io = .ok [Part.text text]
  parts : ∀ parts, line.resolve parseJson io = .ok parts →
    ∃ groups, grouped line.typed = some groups ∧
      (groups ≠ [] → buildGroups parseJson io 0 groups = .ok parts) ∧
      (groups = [] → ∃ text, line.text = some text ∧ parts = [Part.text text])
  usage : grouped line.typed = none →
    ∃ message, line.resolve parseJson io = .error (.invalidInput message)

theorem SendLine.ofId_eq_nil_iff (id : String) :
    line.ofId id = [] ↔ ∀ flag ∈ line.typed, flag.argId ≠ id := by
  rw [SendLine.ofId, List.filter_eq_nil_iff, SendLine.typed, List.forall_mem_map]
  simp

theorem SendFlag.isPart_eq_false_iff (flag : SendFlag) :
    flag.isPart = false ↔
      (flag.argId ≠ "text_parts" ∧ flag.argId ≠ "file_parts") ∧ flag.argId ≠ "data_parts" := by
  cases flag with
  | part kind value =>
      cases kind <;> simp [SendFlag.isPart, SendFlag.argId, PartKind.argId]
  | mediaType value => simp [SendFlag.isPart, SendFlag.argId]

/-- There are tokens of parts if part flags were typed. -/
theorem SendLine.partTokens_eq_nil_iff :
    line.ofId "text_parts" ++ line.ofId "file_parts" ++ line.ofId "data_parts" = [] ↔
      line.typed.any SendFlag.isPart = false := by
  rw [List.append_eq_nil_iff, List.append_eq_nil_iff, line.ofId_eq_nil_iff, line.ofId_eq_nil_iff,
    line.ofId_eq_nil_iff, List.any_eq_false]
  simp only [Bool.not_eq_true, SendFlag.isPart_eq_false_iff]
  constructor
  · intro h flag hflag
    exact ⟨⟨h.1.1 flag hflag, h.1.2 flag hflag⟩, h.2 flag hflag⟩
  · intro h
    exact ⟨⟨fun flag hflag => (h flag hflag).1.1, fun flag hflag => (h flag hflag).1.2⟩,
      fun flag hflag => (h flag hflag).2⟩

/-- Without part flags, whatever was typed is a media type. -/
theorem SendLine.mediaTypes_eq_nil_iff (h : line.typed.any SendFlag.isPart = false) :
    line.values "media_types" = [] ↔ line.typed = [] := by
  rw [SendLine.values, List.map_eq_nil_iff, line.ofId_eq_nil_iff, List.eq_nil_iff_forall_not_mem]
  constructor
  · intro hnone flag hflag
    cases flag with
    | part kind value => exact absurd rfl (List.any_eq_false.mp h _ hflag)
    | mediaType value => exact hnone _ hflag rfl
  · intro hnone flag hflag
    exact absurd hflag (hnone flag)

/-- What the command comes to. -/
theorem SendLine.resolve_eq :
    line.resolve parseJson io =
      if line.typed.any SendFlag.isPart then
        if line.text.isSome then .error (.invalidInput textNotCombined)
        else assemble parseJson io [] line.typed
      else if line.typed ≠ [] then .error (.invalidInput mediaTypeMisplaced)
      else match line.text with
        | some text => .ok [Part.text text]
        | none => .error (.invalidInput noParts) := by
  have htext : tokens (line.indicesOf "text_parts") (line.values "text_parts") (.part .text) =
      line.ofId "text_parts" := tokens_ofId fun _ hid => SendFlag.part_of_argId .text hid
  have hfile : tokens (line.indicesOf "file_parts") (line.values "file_parts") (.part .file) =
      line.ofId "file_parts" := tokens_ofId fun _ hid => SendFlag.part_of_argId .file hid
  have hdata : tokens (line.indicesOf "data_parts") (line.values "data_parts") (.part .data) =
      line.ofId "data_parts" := tokens_ofId fun _ hid => SendFlag.part_of_argId .data hid
  have hmedia : tokens (line.indicesOf "media_types") (line.values "media_types") .mediaType =
      line.ofId "media_types" := tokens_ofId fun _ hid => SendFlag.mediaType_of_argId hid
  simp only [SendLine.resolve, resolveMessageParts, SendLine.command, htext, hfile, hdata, hmedia,
    sorted_ofId]
  by_cases hany : line.typed.any SendFlag.isPart = true
  · have hsome : (line.ofId "text_parts" ++ line.ofId "file_parts" ++
        line.ofId "data_parts").isEmpty = false := by
      rw [List.isEmpty_eq_false_iff]
      intro hnil
      rw [line.partTokens_eq_nil_iff.mp hnil] at hany
      contradiction
    simp only [hsome, hany, Bool.and_false, Bool.false_eq_true, if_false, if_true]
    rfl
  · rw [Bool.not_eq_true] at hany
    have hnone : (line.ofId "text_parts" ++ line.ofId "file_parts" ++
        line.ofId "data_parts").isEmpty = true := by
      rw [List.isEmpty_iff]
      exact line.partTokens_eq_nil_iff.mpr hany
    by_cases htyped : line.typed = []
    · have hvalues := (line.mediaTypes_eq_nil_iff hany).mpr htyped
      simp only [hnone]
      simp [hvalues, htyped]
    · have hvalues := mt (line.mediaTypes_eq_nil_iff hany).mp htyped
      simp only [hnone]
      simp [hany, hvalues, htyped]

/-- The first of some groups is a part flag. -/
theorem isPart_of_grouped {flags : List SendFlag}
    {groups : List (PartKind × String × Option String)} (h : grouped flags = some groups)
    (hne : groups ≠ []) : flags.any SendFlag.isPart = true := by
  cases flags with
  | nil => exact absurd (Option.some.inj h).symm hne
  | cons flag rest =>
      cases flag with
      | part kind value => rfl
      | mediaType value => simp [grouped] at h

/-- Well-placed part flags are built one by one. -/
theorem SendLine.resolve_of_grouped {groups : List (PartKind × String × Option String)}
    (h : grouped line.typed = some groups) (hne : groups ≠ []) (htext : line.text = none) :
    line.resolve parseJson io = buildGroups parseJson io 0 groups := by
  rw [line.resolve_eq, if_pos (isPart_of_grouped h hne), htext, if_neg (by simp),
    assemble_of_grouped parseJson io [] h]
  cases buildGroups parseJson io 0 groups <;> rfl

theorem SendLine.resolve_of_text {text : String} (htyped : line.typed = [])
    (htext : line.text = some text) :
    line.resolve parseJson io = .ok [Part.text text] := by
  rw [line.resolve_eq, htyped, htext]
  rfl

/-- What is a usage error anyway is as it should be. -/
theorem SendLine.asTyped_of_usage {message : String}
    (h : line.resolve parseJson io = .error (.invalidInput message)) :
    line.AsTyped parseJson io where
  built _ hgrouped hne htext := line.resolve_of_grouped parseJson io hgrouped hne htext
  plain _ htyped htext := line.resolve_of_text parseJson io htyped htext
  parts parts hparts := by
    rw [h] at hparts
    contradiction
  usage _ := ⟨message, h⟩

/-- The parts are those of the groups, where every media type belongs. -/
theorem SendLine.asTyped_of_grouped {groups : List (PartKind × String × Option String)}
    (hgrouped : grouped line.typed = some groups) (hne : groups ≠ [])
    (h : line.resolve parseJson io = assemble parseJson io [] line.typed) :
    line.AsTyped parseJson io where
  built _ hgrouped hne htext := line.resolve_of_grouped parseJson io hgrouped hne htext
  plain _ htyped htext := line.resolve_of_text parseJson io htyped htext
  parts parts hparts := by
    refine ⟨groups, hgrouped, fun _ => ?_, fun hnil => absurd hnil hne⟩
    rw [h, assemble_of_grouped parseJson io [] hgrouped] at hparts
    cases hbuild : buildGroups parseJson io 0 groups with
    | error e => simp [hbuild, Except.map] at hparts
    | ok built => simpa [hbuild, Except.map] using hparts
  usage hnone := by
    rw [hgrouped] at hnone
    contradiction

/-- Without flags, the text is the only part. -/
theorem SendLine.asTyped_of_nil (htyped : line.typed = []) : line.AsTyped parseJson io where
  built _ hgrouped hne htext := line.resolve_of_grouped parseJson io hgrouped hne htext
  plain _ htyped htext := line.resolve_of_text parseJson io htyped htext
  parts parts hparts := by
    refine ⟨[], by rw [htyped, grouped], fun h => absurd rfl h, fun _ => ?_⟩
    rw [line.resolve_eq, htyped] at hparts
    cases htext : line.text with
    | none => simp [htext] at hparts
    | some text => exact ⟨text, rfl, by simpa [htext, eq_comm] using hparts⟩
  usage hnone := by
    rw [htyped, grouped] at hnone
    contradiction

/-- From a part flag on, a second media type goes unnoticed unless a part
cannot be built. -/
theorem SendLine.asTyped_of_part {kind : PartKind} {value : String} {rest : List SendFlag}
    (htyped : line.typed = .part kind value :: rest)
    (h : line.resolve parseJson io = assemble parseJson io [] line.typed) :
    line.AsTyped parseJson io ↔
      doubled line.typed = false ∨
        ∃ message, firstFailure parseJson io 0 line.typed = some (.invalidInput message) := by
  have herror : ∀ e, line.resolve parseJson io = .error e ↔
      firstFailure parseJson io 0 line.typed = some e := by
    intro e
    rw [h, htyped]
    exact assemble_part_eq_error parseJson io
  cases hgrouped : grouped line.typed with
  | none =>
      have hdoubled : doubled line.typed = true := by
        rcases (grouped_eq_none_iff _).mp hgrouped with hfirst | hdoubled
        · rw [htyped] at hfirst
          contradiction
        · exact hdoubled
      rw [hdoubled]
      constructor
      · intro has
        obtain ⟨message, husage⟩ := has.usage hgrouped
        exact Or.inr ⟨message, (herror _).mp husage⟩
      · rintro (hnot | ⟨message, hfailure⟩)
        · contradiction
        · exact line.asTyped_of_usage parseJson io ((herror _).mpr hfailure)
  | some groups =>
      have hdoubled : doubled line.typed = false := by
        rw [← Bool.not_eq_true]
        intro hdoubled
        rw [(grouped_eq_none_iff _).mpr (Or.inr hdoubled)] at hgrouped
        contradiction
      have hne : groups ≠ [] := by
        intro hnil
        have hflags := grouped_parts hgrouped
        rw [hnil, htyped] at hflags
        contradiction
      exact iff_of_true (line.asTyped_of_grouped parseJson io hgrouped hne h) (Or.inl hdoubled)

/-- **Parts come as they were typed**, unless a media type follows another and
nothing else is wrong with the command: its positional text, a media type
before any part, or data that is not JSON, before a file that cannot be read. -/
theorem SendLine.asTyped_iff :
    line.AsTyped parseJson io ↔
      doubled line.typed = false ∨ startsWithMediaType line.typed = true ∨
        line.text.isSome = true ∨
        ∃ message, firstFailure parseJson io 0 line.typed = some (.invalidInput message) := by
  have hresolve := line.resolve_eq parseJson io
  cases htyped : line.typed with
  | nil => exact iff_of_true (line.asTyped_of_nil parseJson io htyped) (Or.inl rfl)
  | cons flag rest =>
      cases flag with
      | mediaType value =>
          refine iff_of_true ?_ (Or.inr (Or.inl rfl))
          rw [htyped] at hresolve
          split at hresolve
          · split at hresolve
            · exact line.asTyped_of_usage parseJson io hresolve
            · have hfirst : line.resolve parseJson io =
                  .error (.invalidInput mediaTypeMisplaced) := hresolve
              exact line.asTyped_of_usage parseJson io hfirst
          · rw [if_pos (List.cons_ne_nil _ _)] at hresolve
            exact line.asTyped_of_usage parseJson io hresolve
      | part kind value =>
          have hany : line.typed.any SendFlag.isPart = true := by
            rw [htyped]
            rfl
          rw [if_pos hany] at hresolve
          by_cases htext : line.text.isSome = true
          · rw [if_pos htext] at hresolve
            exact iff_of_true (line.asTyped_of_usage parseJson io hresolve)
              (Or.inr (Or.inr (Or.inl htext)))
          · rw [if_neg htext] at hresolve
            rw [← htyped, line.asTyped_of_part parseJson io htyped hresolve]
            simp [htyped, startsWithMediaType, htext]

end build

/-- A command line with a second media type after a part. -/
def doubledLine : SendLine where
  flags := [(3, .part .text "hi"), (5, .mediaType "text/markdown"), (7, .mediaType "text/html")]
  text := none
  ordered := by simp

/-- The first of the two is dropped. -/
theorem doubledLine_not_asTyped :
    let parseJson : String → Except String Value := fun _ => .error "expected value at line 1 column 1"
    let io : Nat → Io := fun _ => ⟨fun _ => .error .notFound, fun _ => .error .notFound, .ok ""⟩
    doubledLine.resolve parseJson io = .ok [{ Part.text "hi" with mediaType := some "text/html" }] ∧
      ¬ doubledLine.AsTyped parseJson io := by
  intro parseJson io
  have hparts : doubledLine.resolve parseJson io =
      .ok [{ Part.text "hi" with mediaType := some "text/html" }] := by
    rw [SendLine.resolve_eq]
    rfl
  refine ⟨hparts, fun has => ?_⟩
  obtain ⟨message, husage⟩ := has.usage rfl
  rw [hparts] at husage
  contradiction

end A2a
