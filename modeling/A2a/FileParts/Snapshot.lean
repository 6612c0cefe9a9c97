import A2a.Events.Artifacts
import A2a.FileParts.Owners

/-!
# A2a.FileParts.Snapshot

The files of a stream of artifact updates beside those of the task they
build up (`a2acli/src/fileparts.rs`, `apply_event_to_task`).

The server keeps the name an artifact was first sent with; the saver names
the files of a chunk by the chunk alone, and hands out paths in the order
chunks arrive.  `stream_eq_snapshot` is that both leave the same files where
none of this makes a difference.

Updates are listed newest first, and so are puts.
-/

namespace A2a

/-! ## the files of one save -/

/-- The bytes a part adds to the files of a name. -/
def partBytes (windows : Bool) (fallback name : String) (part : Part) : Option (List UInt8) :=
  match part.content with
  | .raw bytes => if resolveName windows part fallback = name then some bytes else none
  | _ => none

/-- The parts of a name, joined. -/
def namedBytes (windows : Bool) (fallback name : String) (parts : List Part) : List UInt8 :=
  (parts.filterMap (partBytes windows fallback name)).flatten

/-- Whether the parts have a file of the name. -/
def usesName (windows : Bool) (fallback name : String) (parts : List Part) : Bool :=
  parts.any fun part => (partBytes windows fallback name part).isSome

/-- The joined files by name. -/
def namedFile (windows : Bool) (fallback name : String) (parts : List Part) :
    Option (List UInt8) :=
  if usesName windows fallback name parts then some (namedBytes windows fallback name parts) else none

section Named

variable {windows : Bool} {fallback name : String}

/-- A name that no part has gets no bytes. -/
theorem namedBytes_of_unused {parts : List Part} (h : usesName windows fallback name parts = false) :
    namedBytes windows fallback name parts = [] := by
  unfold usesName at h
  rw [List.any_eq_false] at h
  have hnone : parts.filterMap (partBytes windows fallback name) = [] := by
    rw [List.filterMap_eq_nil_iff]
    exact fun part hp => Option.not_isSome_iff_eq_none.mp (h part hp)
  rw [namedBytes, hnone, List.flatten_nil]

/-- More parts use the names they use. -/
theorem usesName_append (parts more : List Part) :
    usesName windows fallback name (parts ++ more) =
      (usesName windows fallback name parts || usesName windows fallback name more) :=
  List.any_append

/-- The bytes of more parts come after. -/
theorem namedBytes_append (parts more : List Part) :
    namedBytes windows fallback name (parts ++ more) =
      namedBytes windows fallback name parts ++ namedBytes windows fallback name more := by
  simp [namedBytes, List.filterMap_append]

theorem usesName_singleton (part : Part) :
    usesName windows fallback name [part] = (partBytes windows fallback name part).isSome := by
  simp [usesName]

theorem namedBytes_singleton (part : Part) :
    namedBytes windows fallback name [part] = (partBytes windows fallback name part).getD [] := by
  rw [namedBytes, List.filterMap_cons, List.filterMap_nil]
  cases partBytes windows fallback name part <;> simp

end Named

/-- Bytes are added to their own name only. -/
theorem lookup_addBytes (name other : String) (bytes : List UInt8)
    (files : List (String × List UInt8)) :
    (addBytes name bytes files).lookup other =
      if name = other then some ((files.lookup other).getD [] ++ bytes) else files.lookup other := by
  induction files with
  | nil =>
      by_cases h : name = other
      · simp [addBytes, h]
      · simp [addBytes, h, Ne.symm h]
  | cons file files ih =>
      obtain ⟨first, data⟩ := file
      unfold addBytes
      by_cases hfirst : first = name
      · subst hfirst
        by_cases h : first = other
        · simp [h]
        · have hbeq : (other == first) = false := by simpa using Ne.symm h
          simp [h, List.lookup_cons, hbeq]
      · by_cases h : other = first
        · subst h
          simp [hfirst, Ne.symm hfirst]
        · have hbeq : (other == first) = false := by simpa using h
          simp [hfirst, List.lookup_cons, hbeq, ih]

/-- A name is added at most once. -/
theorem keys_addBytes (name : String) (bytes : List UInt8) {files : List (String × List UInt8)}
    (h : (files.map (·.1)).Nodup) : ((addBytes name bytes files).map (·.1)).Nodup ∧
      ∀ other, other ∈ (addBytes name bytes files).map (·.1) → other = name ∨ other ∈ files.map (·.1) := by
  induction files with
  | nil => simp [addBytes]
  | cons file files ih =>
      obtain ⟨hfirst, hrest⟩ := List.nodup_cons.mp h
      obtain ⟨hnodup, hmem⟩ := ih hrest
      unfold addBytes
      split
      · exact ⟨h, fun other ho => .inr ho⟩
      · next hne =>
          constructor
          · rw [List.map_cons, List.nodup_cons]
            refine ⟨fun hin => ?_, hnodup⟩
            cases hmem _ hin with
            | inl heq => exact hne heq
            | inr hold => exact hfirst hold
          · intro other ho
            rw [List.map_cons, List.mem_cons] at ho ⊢
            cases ho with
            | inl heq => exact .inr (.inl heq)
            | inr hin =>
                cases hmem other hin with
                | inl heq => exact .inl heq
                | inr hold => exact .inr (.inr hold)

/-- The first loop of a save as a step. -/
def joinPart (windows : Bool) (fallback : String) (files : List (String × List UInt8))
    (part : Part) : List (String × List UInt8) :=
  match part.content with
  | .raw bytes => addBytes (resolveName windows part fallback) bytes files
  | _ => files

/-- Joining goes part by part. -/
theorem joined_eq (windows : Bool) (fallback : String) (parts : List Part) :
    joined windows fallback parts = parts.foldl (joinPart windows fallback) [] := rfl

/-- What a part adds under a name. -/
theorem lookup_joinPart (windows : Bool) (fallback name : String)
    (files : List (String × List UInt8)) (part : Part) :
    (joinPart windows fallback files part).lookup name =
      match partBytes windows fallback name part with
      | some bytes => some ((files.lookup name).getD [] ++ bytes)
      | none => files.lookup name := by
  unfold joinPart partBytes
  cases part.content with
  | raw bytes =>
      simp only [lookup_addBytes]
      split <;> rfl
  | text _ => rfl
  | url _ => rfl
  | data _ => rfl

/-- No name is joined twice. -/
theorem nodup_joined (windows : Bool) (fallback : String) (parts : List Part) :
    ((joined windows fallback parts).map (·.1)).Nodup := by
  rw [joined_eq]
  suffices h : ∀ files : List (String × List UInt8), (files.map (·.1)).Nodup →
      ((parts.foldl (joinPart windows fallback) files).map (·.1)).Nodup from h [] List.nodup_nil
  induction parts with
  | nil => exact fun files h => h
  | cons part parts ih =>
      intro files h
      rw [List.foldl_cons]
      refine ih _ ?_
      unfold joinPart
      cases part.content with
      | raw bytes => exact (keys_addBytes _ _ h).1
      | text _ => exact h
      | url _ => exact h
      | data _ => exact h

/-- **The joined file of a name** is its parts, one after the other. -/
theorem lookup_joined (windows : Bool) (fallback name : String) (parts : List Part) :
    (joined windows fallback parts).lookup name = namedFile windows fallback name parts := by
  rw [joined_eq]
  suffices h : ∀ files : List (String × List UInt8),
      (parts.foldl (joinPart windows fallback) files).lookup name =
        if usesName windows fallback name parts then
          some ((files.lookup name).getD [] ++ namedBytes windows fallback name parts)
        else files.lookup name from by
    rw [h []]
    rfl
  induction parts with
  | nil => exact fun files => rfl
  | cons part parts ih =>
      intro files
      rw [List.foldl_cons, ih, lookup_joinPart, ← List.singleton_append, usesName_append,
        namedBytes_append, usesName_singleton, namedBytes_singleton]
      cases hpart : partBytes windows fallback name part with
      | none => simp
      | some bytes =>
          cases huses : usesName windows fallback name parts with
          | true => simp
          | false => simp [namedBytes_of_unused huses]

/-! ## the puts of one save -/

variable {windows append : Bool} {owner : Owner} {fallback name other : String} {ps : List Put}

theorem lookup_eq_none_of_notMem {files : List (String × List UInt8)} (h : name ∉ files.map (·.1)) :
    files.lookup name = none := by
  rw [List.lookup_eq_none_iff]
  exact fun file hf => by simpa using fun he : name = file.1 => h (he ▸ List.mem_map_of_mem hf)

/-- The puts of a save reach each of its names once. -/
theorem puts_files (owner : Owner) (append : Bool) (name : String) (ps : List Put)
    {files : List (String × List UInt8)} (h : (files.map (·.1)).Nodup) :
    bytesPut owner.key name
        ((files.map fun file => (⟨owner.key, file.1, file.2, append⟩ : Put)).reverse ++ ps) =
      (if (files.lookup name).isSome then
        (if append then bytesPut owner.key name ps else []) ++ (files.lookup name).getD []
      else bytesPut owner.key name ps) ∧
    ownersOf name
        ((files.map fun file => (⟨owner.key, file.1, file.2, append⟩ : Put)).reverse ++ ps) =
      if (files.lookup name).isSome ∧ owner.key ∉ ownersOf name ps then ownersOf name ps ++ [owner.key]
      else ownersOf name ps := by
  induction files generalizing ps with
  | nil => simp
  | cons file files ih =>
      obtain ⟨first, data⟩ := file
      obtain ⟨hfirst, hrest⟩ := List.nodup_cons.mp h
      rw [List.map_cons, List.reverse_cons, List.append_assoc, List.singleton_append]
      obtain ⟨hbytes, howners⟩ := ih (⟨owner.key, first, data, append⟩ :: ps) hrest
      rw [hbytes, howners]
      by_cases hname : name = first
      · subst hname
        have hnone : files.lookup name = none := lookup_eq_none_of_notMem hfirst
        have hself := bytesPut_cons_self ⟨owner.key, name, data, append⟩ ps
        simp only [hnone, List.lookup_cons, beq_self_eq_true, hself]
        simp [ownersOf]
      · have hbeq : (name == first) = false := by simpa using hname
        have hne : ¬(owner.key = owner.key ∧ first = name) := fun he => hname he.2.symm
        have hother : bytesPut owner.key name (⟨owner.key, first, data, append⟩ :: ps) =
            bytesPut owner.key name ps := bytesPut_cons_ne hne
        have howner : ownersOf name (⟨owner.key, first, data, append⟩ :: ps) = ownersOf name ps :=
          ownersOf_cons_ne (Ne.symm hname)
        simp only [List.lookup_cons, hbeq, hother, howner]
        exact ⟨trivial, trivial⟩

/-- What a save puts under a name for its own owner. -/
theorem bytesPut_putsOf (windows : Bool) (owner : Owner) (fallback name : String)
    (parts : List Part) (append : Bool) (ps : List Put) :
    bytesPut owner.key name ((putsOf windows owner fallback parts append).reverse ++ ps) =
      if usesName windows fallback name parts then
        (if append then bytesPut owner.key name ps else []) ++ namedBytes windows fallback name parts
      else bytesPut owner.key name ps := by
  have hbytes := (puts_files owner append name ps (nodup_joined windows fallback parts)).1
  rw [lookup_joined, namedFile] at hbytes
  rw [putsOf, hbytes]
  cases usesName windows fallback name parts <;> rfl

/-- Chunks that are appended come after what was put. -/
theorem bytesPut_putsOf_append (parts : List Part) :
    bytesPut owner.key name ((putsOf windows owner fallback parts true).reverse ++ ps) =
      bytesPut owner.key name ps ++ namedBytes windows fallback name parts := by
  rw [bytesPut_putsOf]
  cases huses : usesName windows fallback name parts with
  | true => rfl
  | false => simp [namedBytes_of_unused huses]

/-- A first chunk begins its file. -/
theorem bytesPut_putsOf_first (h : bytesPut owner.key name ps = []) (parts : List Part) :
    bytesPut owner.key name ((putsOf windows owner fallback parts append).reverse ++ ps) =
      namedBytes windows fallback name parts := by
  rw [bytesPut_putsOf, h]
  cases huses : usesName windows fallback name parts with
  | true => simp
  | false => simp [namedBytes_of_unused huses]

/-- An owner comes last under the names it first uses. -/
theorem ownersOf_putsOf (windows : Bool) (owner : Owner) (fallback name : String)
    (parts : List Part) (append : Bool) (ps : List Put) :
    ownersOf name ((putsOf windows owner fallback parts append).reverse ++ ps) =
      if usesName windows fallback name parts ∧ owner.key ∉ ownersOf name ps then
        ownersOf name ps ++ [owner.key]
      else ownersOf name ps := by
  have howners := (puts_files owner append name ps (nodup_joined windows fallback parts)).2
  rw [lookup_joined, namedFile] at howners
  rw [putsOf, howners]
  cases usesName windows fallback name parts <;> rfl

/-- A save puts nothing for another owner. -/
theorem bytesPut_putsOf_ne {other : Owner} (h : other ≠ owner) (parts : List Part) :
    bytesPut other.key name ((putsOf windows owner fallback parts append).reverse ++ ps) =
      bytesPut other.key name ps := by
  unfold putsOf
  generalize joined windows fallback parts = files
  induction files generalizing ps with
  | nil => rfl
  | cons file files ih =>
      rw [List.map_cons, List.reverse_cons, List.append_assoc, List.singleton_append, ih]
      exact bytesPut_cons_ne fun he => h (Owner.key_inj he.1.symm)

/-- The owners of a name are those that used it. -/
theorem mem_ownersOf_putsOf {key : String} (parts : List Part) :
    key ∈ ownersOf name ((putsOf windows owner fallback parts append).reverse ++ ps) ↔
      key ∈ ownersOf name ps ∨ (key = owner.key ∧ usesName windows fallback name parts = true) := by
  rw [ownersOf_putsOf]
  by_cases hkey : key = owner.key
  · subst hkey
    split
    · next h => simp [h.1]
    · next h =>
        rw [not_and_not_right] at h
        exact ⟨.inl, fun ho => ho.elim id fun hu => h hu.2⟩
  · split <;> simp [hkey]

/-! ## a stream of updates -/

/-- Each artifact is sent once without append, and appended to since. -/
def OnceThenAppended : List TaskArtifactUpdateEvent → Prop
  | [] => True
  | update :: earlier =>
      (update.appends = true ↔ update.about ∈ idsAfter [] earlier) ∧ OnceThenAppended earlier

/-- The name the files of a draft get if they have none of their own. -/
def Draft.fallbackName (d : Draft) : String := Saving.fallbackName d.base

/-- All the parts of a draft. -/
def Draft.parts (d : Draft) : List Part := d.pieces.flatMap (·.parts)

/-- The files of a chunk get the names they would get if it carried the name
of its artifact. -/
def KeepsNames (windows : Bool) : List TaskArtifactUpdateEvent → Prop
  | [] => True
  | update :: earlier =>
      (∀ d, draftAfter [] update.about earlier = some d → ∀ part ∈ update.artifact.parts,
        ∀ bytes, part.content = .raw bytes →
          resolveName windows part (Saving.fallbackName update.artifact) =
            resolveName windows part d.fallbackName) ∧ KeepsNames windows earlier

/-- The puts of a stream that is saved as it arrives. -/
def streamPuts (windows : Bool) : List TaskArtifactUpdateEvent → List Put
  | [] => []
  | update :: earlier =>
      (SaveCall.artifactPuts windows update.artifact update.appends).reverse ++
        streamPuts windows earlier

/-- The owners of a name are met in the order of their artifacts. -/
def InOrder (windows : Bool) (updates : List TaskArtifactUpdateEvent) : Prop :=
  ∀ name, (ownersOf name (streamPuts windows updates)).Sublist
    ((idsAfter [] updates).map fun id => (Owner.artifact id).key)

instance OnceThenAppended.decidable :
    (updates : List TaskArtifactUpdateEvent) → Decidable (OnceThenAppended updates)
  | [] => inferInstanceAs (Decidable True)
  | update :: earlier =>
      have := OnceThenAppended.decidable earlier
      inferInstanceAs (Decidable ((update.appends = true ↔ update.about ∈ idsAfter [] earlier) ∧
        OnceThenAppended earlier))

/-- What is related is there on both sides. -/
theorem isSome_of_rel {α β : Type} {r : α → β → Prop} {a : Option α} {b : Option β}
    (h : Option.Rel r a b) : a.isSome = b.isSome := by
  cases h <;> rfl

/-- There is a draft of each artifact that was sent. -/
theorem isSome_draftAfter (id : ArtifactId) (updates : List TaskArtifactUpdateEvent) :
    (draftAfter [] id updates).isSome = (idsAfter [] updates).contains id := by
  have hfind := find?_artifactsAfter [] id updates
  have hids := map_artifactsAfter [] updates
  rw [List.map_nil] at hids
  rw [← hids, ← any_artifactId, any_eq_isSome_find?]
  exact isSome_of_rel hfind

/-- Of a fallback only the name it gives a part matters. -/
theorem partBytes_congr {fallback' : String} {part : Part}
    (h : ∀ bytes, part.content = .raw bytes →
      resolveName windows part fallback = resolveName windows part fallback') :
    partBytes windows fallback name part = partBytes windows fallback' name part := by
  unfold partBytes
  cases hcontent : part.content with
  | raw bytes => simp only [h bytes hcontent]
  | text _ => rfl
  | url _ => rfl
  | data _ => rfl

/-- Parts with the same bytes join to the same file. -/
theorem namedBytes_congr {fallback' : String} {parts : List Part}
    (h : ∀ part ∈ parts, partBytes windows fallback name part = partBytes windows fallback' name part) :
    namedBytes windows fallback name parts = namedBytes windows fallback' name parts := by
  rw [namedBytes, namedBytes, List.filterMap_congr h]

/-- They use the same names. -/
theorem usesName_congr {fallback' : String} {parts : List Part}
    (h : ∀ part ∈ parts, partBytes windows fallback name part = partBytes windows fallback' name part) :
    usesName windows fallback name parts = usesName windows fallback' name parts := by
  induction parts with
  | nil => rfl
  | cons part parts ih =>
      obtain ⟨hpart, hparts⟩ := List.forall_mem_cons.mp h
      unfold usesName at ih ⊢
      rw [List.any_cons, List.any_cons, hpart, ih hparts]

/-- A chunk adds its parts at the end. -/
theorem Draft.parts_extend (d : Draft) (update : Artifact) :
    (⟨d.base, d.appended ++ [update]⟩ : Draft).parts = d.parts ++ update.parts := by
  simp [Draft.parts, Draft.pieces]

theorem Draft.parts_base (artifact : Artifact) : (⟨artifact, []⟩ : Draft).parts = artifact.parts := by
  simp [Draft.parts, Draft.pieces]

/-- What the stream put is what the draft of the artifact comes to. -/
theorem streamPuts_draft {updates : List TaskArtifactUpdateEvent} (honce : OnceThenAppended updates)
    (hnames : KeepsNames windows updates) (id : ArtifactId) (name : String) :
    bytesPut (Owner.artifact id).key name (streamPuts windows updates) =
      ((draftAfter [] id updates).map fun d =>
        namedBytes windows d.fallbackName name d.parts).getD [] ∧
    ((Owner.artifact id).key ∈ ownersOf name (streamPuts windows updates) ↔
      ((draftAfter [] id updates).any fun d => usesName windows d.fallbackName name d.parts) = true) := by
  induction updates with
  | nil => simp [streamPuts, bytesPut, ownersOf, draftAfter]
  | cons update earlier ih =>
      obtain ⟨happends, honce⟩ := honce
      obtain ⟨hkeeps, hnames⟩ := hnames
      obtain ⟨hbytes, howners⟩ := ih honce hnames
      simp only [streamPuts, SaveCall.artifactPuts, mem_ownersOf_putsOf, howners, draftAfter]
      have hself : (Owner.artifact update.artifact.artifactId).key =
        (Owner.artifact update.about).key := rfl
      by_cases habout : update.about = id
      · subst habout
        have hknown := isSome_draftAfter update.about earlier
        rw [if_pos rfl, hself]
        cases happend : update.appends with
        | true =>
            rw [List.contains_iff_mem.mpr (happends.mp happend)] at hknown
            obtain ⟨d, hd⟩ := Option.isSome_iff_exists.mp hknown
            have hparts : ∀ part ∈ update.artifact.parts,
                partBytes windows (Saving.fallbackName update.artifact) name part =
                  partBytes windows d.fallbackName name part :=
              fun part hp => partBytes_congr (hkeeps d hd part hp)
            constructor
            · rw [← hself, bytesPut_putsOf_append, hself, hbytes, namedBytes_congr hparts, hd]
              simp [Draft.parts_extend, Draft.fallbackName, namedBytes_append]
            · simp [hd, usesName_congr hparts, Draft.parts_extend, Draft.fallbackName, usesName_append]
        | false =>
            have hmem : update.about ∉ idsAfter [] earlier := fun h => by
              rw [happends.mpr h] at happend
              contradiction
            rw [← List.contains_iff_mem, Bool.not_eq_true] at hmem
            rw [hmem] at hknown
            have hd : draftAfter [] update.about earlier = none := by simpa using hknown
            rw [hd, ← hself] at hbytes
            constructor
            · rw [← hself, bytesPut_putsOf_first hbytes]
              simp [Draft.parts_base, Draft.fallbackName]
            · simp [hd, Draft.parts_base, Draft.fallbackName]
      · have hother : Owner.artifact id ≠ Owner.artifact update.artifact.artifactId :=
          fun he => habout (Owner.artifact.inj he).symm
        have hkey : (Owner.artifact id).key ≠ (Owner.artifact update.artifact.artifactId).key :=
          fun he => hother (Owner.key_inj he)
        rw [if_neg habout, bytesPut_putsOf_ne hother]
        exact ⟨hbytes, by simp [hkey]⟩

/-- Only artifacts own the files of a stream. -/
theorem owner_of_streamPuts {updates : List TaskArtifactUpdateEvent} {key : String}
    (h : key ∈ ownersOf name (streamPuts windows updates)) :
    ∃ id, key = (Owner.artifact id).key := by
  induction updates with
  | nil => exact absurd h List.not_mem_nil
  | cons update earlier ih =>
      rw [streamPuts, SaveCall.artifactPuts, mem_ownersOf_putsOf] at h
      cases h with
      | inl hold => exact ih hold
      | inr hself => exact ⟨_, hself.1⟩

/-! ## a snapshot -/

/-- The puts of a task's artifacts. -/
def snapshotPuts (windows : Bool) (artifacts : List Artifact) : List Put :=
  (artifacts.flatMap fun artifact => SaveCall.artifactPuts windows artifact false).reverse

/-- Whether an artifact has a file of the name. -/
def Artifact.uses (windows : Bool) (name : String) (artifact : Artifact) : Bool :=
  usesName windows (Saving.fallbackName artifact) name artifact.parts

/-- The puts of the last artifact are the latest. -/
theorem snapshotPuts_append (artifacts : List Artifact) (artifact : Artifact) :
    snapshotPuts windows (artifacts ++ [artifact]) =
      (SaveCall.artifactPuts windows artifact false).reverse ++ snapshotPuts windows artifacts := by
  simp [snapshotPuts]

/-- A snapshot meets the owners of a name in the order of its artifacts. -/
theorem ownersOf_snapshotPuts {artifacts : List Artifact}
    (h : (artifacts.map (·.artifactId)).Nodup) (name : String) :
    ownersOf name (snapshotPuts windows artifacts) =
      (artifacts.filter (Artifact.uses windows name)).map fun a => (Owner.artifact a.artifactId).key := by
  induction artifacts using List.reverseRecOn with
  | nil => rfl
  | append_singleton artifacts artifact ih =>
      rw [List.map_append, List.nodup_append] at h
      obtain ⟨hnodup, _, hnew⟩ := h
      have hfresh : (Owner.artifact artifact.artifactId).key ∉
          ownersOf name (snapshotPuts windows artifacts) := by
        rw [ih hnodup, List.mem_map]
        rintro ⟨a, ha, hkey⟩
        exact hnew _ (List.mem_map_of_mem (List.mem_of_mem_filter ha)) _ (by simp)
          (Owner.artifact.inj (Owner.key_inj hkey))
      rw [snapshotPuts_append, SaveCall.artifactPuts, ownersOf_putsOf, ih hnodup]
      rw [ih hnodup] at hfresh
      by_cases huses : artifact.uses windows name = true
      · rw [if_pos ⟨huses, hfresh⟩]
        simp [List.filter_append, huses]
      · rw [if_neg fun hc => huses hc.1]
        simp [List.filter_append, huses]

/-- In a snapshot each artifact puts its own parts. -/
theorem bytesPut_snapshotPuts {artifacts : List Artifact}
    (h : (artifacts.map (·.artifactId)).Nodup) (id : ArtifactId) (name : String) :
    bytesPut (Owner.artifact id).key name (snapshotPuts windows artifacts) =
      ((artifacts.find? (·.artifactId == id)).map fun a =>
        namedBytes windows (Saving.fallbackName a) name a.parts).getD [] := by
  induction artifacts using List.reverseRecOn with
  | nil => rfl
  | append_singleton artifacts artifact ih =>
      rw [List.map_append, List.nodup_append] at h
      obtain ⟨hnodup, _, hnew⟩ := h
      rw [snapshotPuts_append, SaveCall.artifactPuts, List.find?_append]
      by_cases hid : artifact.artifactId = id
      · subst hid
        have hnone : artifacts.find? (·.artifactId == artifact.artifactId) = none := by
          rw [List.find?_eq_none]
          intro a ha he
          exact hnew _ (List.mem_map_of_mem ha) artifact.artifactId (by simp) (by simpa using he)
        have hbytes := ih hnodup
        rw [hnone] at hbytes
        rw [bytesPut_putsOf_first hbytes, hnone]
        simp
      · rw [bytesPut_putsOf_ne fun he => hid (Owner.artifact.inj he).symm, ih hnodup]
        simp [hid]

/-! ## the same files -/

/-- A part of a list without duplicates is told by its elements. -/
theorem eq_filter_of_sublist {part whole : List String} (h : part.Sublist whole)
    (hnodup : whole.Nodup) : part = whole.filter (part.contains ·) := by
  induction h with
  | slnil => rfl
  | @cons part whole a h ih =>
      obtain ⟨hnew, hnodup⟩ := List.nodup_cons.mp hnodup
      have hskip : part.contains a = false := by
        simpa using fun ha => hnew (h.subset ha)
      rw [List.filter_cons_of_neg (by simpa using hskip)]
      exact ih hnodup
  | @cons_cons part whole a h ih =>
      obtain ⟨hnew, hnodup⟩ := List.nodup_cons.mp hnodup
      have hsame : whole.filter ((a :: part).contains ·) = whole.filter (part.contains ·) := by
        refine List.filter_congr fun b hb => ?_
        have hne : b ≠ a := fun he => hnew (he ▸ hb)
        simp [hne]
      rw [List.filter_cons_of_pos (by simp), hsame, ← ih hnodup]

/-- Two orders of the same names that agree with a third are one. -/
theorem eq_of_sublist_of_mem_iff {part part' whole : List String} (h : part.Sublist whole)
    (h' : part'.Sublist whole) (hnodup : whole.Nodup) (hmem : ∀ a, a ∈ part ↔ a ∈ part') :
    part = part' := by
  have hsame : (part.contains ·) = (part'.contains ·) := by
    funext a
    rw [Bool.eq_iff_iff, List.contains_iff_mem, List.contains_iff_mem, hmem]
  rw [eq_filter_of_sublist h hnodup, eq_filter_of_sublist h' hnodup]
  exact congrArg (whole.filter ·) hsame

/-- An artifact has the name its draft began with. -/
theorem Draft.Makes.fallbackName {d : Draft} {artifact : Artifact} (h : d.Makes artifact) :
    Saving.fallbackName artifact = d.fallbackName := by
  unfold Draft.fallbackName Saving.fallbackName
  rw [h.name, h.artifactId]

/-- No artifact is twice in the task. -/
theorem nodup_artifactsAfter (updates : List TaskArtifactUpdateEvent) :
    ((artifactsAfter [] updates).map (·.artifactId)).Nodup := by
  rw [map_artifactsAfter]
  exact nodup_idsAfter List.nodup_nil updates

/-- The updates whose files do not depend on when they are saved. -/
structure NamesSettled (windows : Bool) (updates : List TaskArtifactUpdateEvent) : Prop where
  keeps : KeepsNames windows updates
  inOrder : InOrder windows updates
  apart : Apart (streamPuts windows updates)

section Same

variable {updates : List TaskArtifactUpdateEvent}

/-- **Each artifact puts the same bytes**, streamed or in the snapshot. -/
theorem bytesPut_stream_eq (honce : OnceThenAppended updates) (hkeeps : KeepsNames windows updates)
    (id : ArtifactId) (name : String) :
    bytesPut (Owner.artifact id).key name (streamPuts windows updates) =
      bytesPut (Owner.artifact id).key name (snapshotPuts windows (artifactsAfter [] updates)) := by
  rw [(streamPuts_draft honce hkeeps id name).1, bytesPut_snapshotPuts (nodup_artifactsAfter updates)]
  have hfind := find?_artifactsAfter [] id updates
  revert hfind
  generalize draftAfter [] id updates = draft
  generalize (artifactsAfter [] updates).find? (·.artifactId == id) = artifact
  intro hfind
  cases hfind with
  | none => rfl
  | some hmakes =>
      have hparts := hmakes.parts
      simp only [Option.map_some, Option.getD_some, hmakes.fallbackName, hparts]
      rfl

/-- The owners in a snapshot are the artifacts that use the name. -/
theorem mem_ownersOf_snapshotPuts (id : ArtifactId) (name : String) :
    (Owner.artifact id).key ∈ ownersOf name (snapshotPuts windows (artifactsAfter [] updates)) ↔
      ((artifactsAfter [] updates).find? (·.artifactId == id)).any (Artifact.uses windows name) =
        true := by
  have hnodup := nodup_artifactsAfter updates
  rw [ownersOf_snapshotPuts hnodup]
  generalize artifactsAfter [] updates = artifacts at hnodup ⊢
  induction artifacts with
  | nil => simp
  | cons artifact artifacts ih =>
      obtain ⟨hnew, hnodup⟩ := List.nodup_cons.mp hnodup
      have ih := ih hnodup
      by_cases hid : artifact.artifactId = id
      · subst hid
        have hnone : artifacts.find? (·.artifactId == artifact.artifactId) = none := by
          rw [List.find?_eq_none]
          intro a ha he
          exact hnew (List.mem_map.mpr ⟨a, ha, by simpa using he⟩)
        rw [hnone] at ih
        by_cases huses : artifact.uses windows name = true
        · simp [huses]
        · simpa [huses] using ih
      · have hkey : (Owner.artifact artifact.artifactId).key ≠ (Owner.artifact id).key :=
          fun he => hid (Owner.artifact.inj (Owner.key_inj he))
        by_cases huses : artifact.uses windows name = true
        · simpa [huses, hid, Ne.symm hkey] using ih
        · simpa [huses, hid] using ih

/-- **The same artifacts use a name**, streamed or in the snapshot. -/
theorem mem_ownersOf_stream_iff (honce : OnceThenAppended updates)
    (hkeeps : KeepsNames windows updates) (id : ArtifactId) (name : String) :
    (Owner.artifact id).key ∈ ownersOf name (streamPuts windows updates) ↔
      (Owner.artifact id).key ∈
        ownersOf name (snapshotPuts windows (artifactsAfter [] updates)) := by
  rw [(streamPuts_draft honce hkeeps id name).2, mem_ownersOf_snapshotPuts]
  have hfind := find?_artifactsAfter [] id updates
  revert hfind
  generalize draftAfter [] id updates = draft
  generalize (artifactsAfter [] updates).find? (·.artifactId == id) = artifact
  intro hfind
  cases hfind with
  | none => rfl
  | some hmakes =>
      have hparts := hmakes.parts
      simp only [Option.any_some, Artifact.uses, hmakes.fallbackName, hparts]
      rfl

/-- Both meet the owners of a name in the same order. -/
theorem ownersOf_stream_eq (honce : OnceThenAppended updates) (h : NamesSettled windows updates)
    (name : String) :
    ownersOf name (streamPuts windows updates) =
      ownersOf name (snapshotPuts windows (artifactsAfter [] updates)) := by
  have hids : idsAfter [] updates = (artifactsAfter [] updates).map (·.artifactId) := by
    rw [map_artifactsAfter, List.map_nil]
  have hnodup : ((idsAfter [] updates).map fun id => (Owner.artifact id).key).Nodup :=
    (nodup_idsAfter List.nodup_nil updates).map fun a b he => Owner.artifact.inj (Owner.key_inj he)
  refine eq_of_sublist_of_mem_iff (h.inOrder name) ?_ hnodup fun key => ?_
  · rw [ownersOf_snapshotPuts (nodup_artifactsAfter updates), hids, List.map_map]
    exact List.filter_sublist.map _
  · constructor
    · intro hmem
      obtain ⟨id, rfl⟩ := owner_of_streamPuts hmem
      exact (mem_ownersOf_stream_iff honce h.keeps id name).mp hmem
    · intro hmem
      have hkey := hmem
      rw [ownersOf_snapshotPuts (nodup_artifactsAfter updates), List.mem_map] at hkey
      obtain ⟨a, _, rfl⟩ := hkey
      exact (mem_ownersOf_stream_iff honce h.keeps a.artifactId name).mpr hmem

/-- Both leave the same files. -/
theorem files_stream_eq (honce : OnceThenAppended updates) (h : NamesSettled windows updates)
    (dir : String) (files : Files) :
    (savingAfter dir files (streamPuts windows updates)).files =
      (savingAfter dir files (snapshotPuts windows (artifactsAfter [] updates))).files := by
  have howners := ownersOf_stream_eq honce h
  have hfile (owner name : String) : fileOf dir owner name (streamPuts windows updates) =
      fileOf dir owner name (snapshotPuts windows (artifactsAfter [] updates)) := by
    unfold fileOf
    rw [howners]
  have hapart : Apart (snapshotPuts windows (artifactsAfter [] updates)) := by
    intro name k hpos hlt
    rw [← howners] at hlt ⊢
    exact h.apart name k hpos hlt
  refine Finmap.ext_lookup fun path => ?_
  by_cases hout : ∃ owner name, owner ∈ ownersOf name (streamPuts windows updates) ∧
      fileOf dir owner name (streamPuts windows updates) = path
  · obtain ⟨owner, name, hmem, hpath⟩ := hout
    obtain ⟨id, rfl⟩ := owner_of_streamPuts hmem
    rw [← hpath, lookup_fileOf dir files h.apart hmem, hfile,
      lookup_fileOf dir files hapart (howners name ▸ hmem), bytesPut_stream_eq honce h.keeps]
  · have hnot : ∀ owner name, owner ∈ ownersOf name (streamPuts windows updates) →
        fileOf dir owner name (streamPuts windows updates) ≠ path :=
      fun owner name hmem he => hout ⟨owner, name, hmem, he⟩
    rw [lookup_notHandedOut dir files hnot]
    refine (lookup_notHandedOut dir files fun owner name hmem => ?_).symm
    rw [← hfile]
    exact hnot owner name (howners name ▸ hmem)

end Same

/-! ## saving a stream and saving the task -/

/-- The savers hand out the same paths from here on, and the files are the
same. -/
structure Saving.Alike (s s' : Saving) : Prop where
  dir : s.saver.dir = s'.saver.dir
  taken : ∀ name, s.saver.taken name = s'.saver.taken name
  files : s.files = s'.files

/-- A put keeps savings alike. -/
theorem Saving.Alike.put {s s' : Saving} (h : s.Alike s') (p : Put) : (s.put p).Alike (s'.put p) := by
  have hreserve : (s.put p).saver.taken p.name = (s'.put p).saver.taken p.name ∧
      (s.put p).files = (s'.put p).files := by
    simp only [Saving.put, Saving.saveFile, FilePartSaver.reserve, h.taken p.name, h.dir, h.files]
    cases (s'.saver.taken p.name).find? (·.owner = p.owner) <;> simp [FilePartSaver.taken]
  have hdir (s : Saving) : (s.put p).saver.dir = s.saver.dir := by
    simp only [Saving.put, Saving.saveFile, FilePartSaver.reserve]
    cases (s.saver.taken p.name).find? (·.owner = p.owner) <;> rfl
  have hother (s : Saving) {name : String} (hne : name ≠ p.name) :
      (s.put p).saver.taken name = s.saver.taken name := by
    simp only [Saving.put, Saving.saveFile, FilePartSaver.reserve]
    cases (s.saver.taken p.name).find? (·.owner = p.owner) <;>
      simp [FilePartSaver.taken, Finmap.lookup_insert_of_ne _ hne]
  refine ⟨by rw [hdir, hdir, h.dir], fun name => ?_, hreserve.2⟩
  by_cases hname : name = p.name
  · rw [hname]
    exact hreserve.1
  · rw [hother s hname, hother s' hname, h.taken]

/-- Savings that are alike stay so whatever is put. -/
theorem Saving.Alike.foldl_put {s s' : Saving} (h : s.Alike s') (ps : List Put) :
    (ps.foldl Saving.put s).Alike (ps.foldl Saving.put s') := by
  induction ps generalizing s s' with
  | nil => exact h
  | cons p ps ih => exact ih (h.put p)

/-- Puts after puts. -/
theorem savingAfter_append (dir : String) (files : Files) (ps earlier : List Put) :
    savingAfter dir files (ps.reverse ++ earlier) =
      ps.foldl Saving.put (savingAfter dir files earlier) := by
  induction ps generalizing earlier with
  | nil => rfl
  | cons p ps ih =>
      rw [List.reverse_cons, List.append_assoc, List.singleton_append, ih, List.foldl_cons]
      rfl

/-- A new saver after the events of a stream, saved as they arrive. -/
def saveStream (windows : Bool) (dir : String) (files : Files)
    (updates : List TaskArtifactUpdateEvent) : Saving :=
  updates.reverse.foldl (fun s update => s.saveEvent windows (.artifactUpdate update))
    ⟨.new dir, files⟩

/-- A stream is saved put by put. -/
theorem saveStream_eq (windows : Bool) (dir : String) (files : Files)
    (updates : List TaskArtifactUpdateEvent) :
    saveStream windows dir files updates = savingAfter dir files (streamPuts windows updates) := by
  unfold saveStream
  induction updates with
  | nil => rfl
  | cons update earlier ih =>
      rw [List.reverse_cons, List.foldl_append, ih, List.foldl_cons, List.foldl_nil, streamPuts,
        savingAfter_append]
      exact saveArtifact_eq _ _ _ _

/-- So are the artifacts of a task. -/
theorem saveArtifacts_eq (windows : Bool) (dir : String) (files : Files) (artifacts : List Artifact) :
    artifacts.foldl (fun s artifact => s.saveArtifact windows artifact false) ⟨.new dir, files⟩ =
      savingAfter dir files (snapshotPuts windows artifacts) := by
  rw [foldl_saveArtifact, foldl_put]
  rfl

/-- The update of a task's status, as a stream carries it. -/
def Task.statusUpdate (task : Task) : StreamResponse :=
  .statusUpdate ⟨task.id, task.contextId, task.status, none⟩

/-- What a task saves is its artifacts, then what the update of its status
saves. -/
theorem saveTask_eq (windows : Bool) (dir : String) (files : Files) (task : Task) :
    (⟨.new dir, files⟩ : Saving).saveTask windows task =
      (savingAfter dir files (snapshotPuts windows (task.artifacts.getD []))).saveEvent windows
        task.statusUpdate := by
  rw [← saveArtifacts_eq]
  simp only [Saving.saveTask, Saving.saveEvent, Task.statusUpdate]

/-- A status update is saved alike on both sides. -/
theorem Saving.Alike.saveEvent_statusUpdate {s s' : Saving} (h : s.Alike s') (windows : Bool)
    (task : Task) : (s.saveEvent windows task.statusUpdate).Alike
      (s'.saveEvent windows task.statusUpdate) := by
  simp only [Saving.saveEvent, Task.statusUpdate]
  cases task.status.message with
  | none => exact h
  | some message =>
      simp only [saveMessage_eq]
      exact h.foldl_put _

variable {store : InMemoryTaskStore} {task : Task} {calls : List UpdateCall}

/-- **A stream and a snapshot leave the same files**, where the names of the
files do not depend on when they are saved: the updates the server applied to
a task that had no artifacts, each saved as it arrived, and the task they
built up, saved once. -/
theorem stream_eq_snapshot (windows : Bool) (dir : String) (files : Files)
    (hstored : store.get task.id = some task) (hempty : task.artifacts.getD [] = [])
    (hnames : ∀ call ∈ calls, call.Names task) (honce : OnceThenAppended (calls.map (·.update)))
    (hsettled : NamesSettled windows (calls.map (·.update))) :
    ((saveStream windows dir files (calls.map (·.update))).saveEvent windows
        (applyUpdates store task calls).2.statusUpdate).files =
      ((⟨.new dir, files⟩ : Saving).saveTask windows (applyUpdates store task calls).2).files := by
  have hartifacts := (applyUpdates_cases hstored hnames).2.2.2
  rw [hempty] at hartifacts
  rw [saveTask_eq, hartifacts, saveStream_eq]
  refine (Saving.Alike.saveEvent_statusUpdate ?_ windows _).files
  obtain ⟨hdir, htaken⟩ := taken_savingAfter dir files (streamPuts windows (calls.map (·.update)))
  obtain ⟨hdir', htaken'⟩ := taken_savingAfter dir files
    (snapshotPuts windows (artifactsAfter [] (calls.map (·.update))))
  exact ⟨hdir.trans hdir'.symm,
    fun name => by rw [htaken, htaken', ownersOf_stream_eq honce hsettled],
    files_stream_eq honce hsettled dir files⟩

/-- A chunk of the artifact `id` with one file. -/
def logCall (id : ArtifactId) (name filename : Option String) (bytes : List UInt8) (append : Bool) :
    UpdateCall :=
  ⟨⟨"t", "c", ⟨id, name, none, [⟨.raw bytes, filename, none, none⟩], none, none⟩, some append, none,
    none⟩, .unixEpoch, false⟩

/-- Two logs of one name, and a chunk of the first that omits the name but
has a filename; newest first. -/
def logs : List UpdateCall :=
  [logCall "a1" none (some "log.txt") [3] true, logCall "a2" (some "log.txt") none [2] false,
    logCall "a1" (some "log.txt") none [1] false]

theorem logs_settled : NamesSettled false (logs.map (·.update)) where
  keeps := by
    refine ⟨fun d hd part hp bytes _ => ?_, fun d hd => ?_, fun d hd => ?_, trivial⟩
    · cases hd
      rw [List.mem_singleton.mp hp]
      decide
    · cases hd
    · cases hd
  inOrder name := by
    have hputs : streamPuts false (logs.map (·.update)) = [⟨"art:a1", "log.txt", [3], true⟩,
        ⟨"art:a2", "log.txt", [2], false⟩, ⟨"art:a1", "log.txt", [1], false⟩] := by rfl
    rw [hputs]
    by_cases hname : "log.txt" = name
    · subst hname
      decide
    · simp [ownersOf, hname]
  apart := by decide

theorem stream_eq_snapshot_logs :
    ((saveStream false "out" ∅ (logs.map (·.update))).saveEvent false
        (applyUpdates ((InMemoryTaskStore.new none).create (noteTask [])).2 (noteTask [])
          logs).2.statusUpdate).files =
      ((⟨.new "out", ∅⟩ : Saving).saveTask false
        (applyUpdates ((InMemoryTaskStore.new none).create (noteTask [])).2 (noteTask [])
          logs).2).files := by
  refine stream_eq_snapshot false "out" ∅ (get_create_new _) rfl (fun call hc _ => ?_) (by decide)
    logs_settled
  simp only [logs, List.mem_cons, List.not_mem_nil, or_false] at hc
  obtain rfl | rfl | rfl := hc <;> rfl

/-- A chunk without the artifact's name and without a filename. -/
def namelessLogs : List UpdateCall :=
  [logCall "a1" none none [2] true, logCall "a1" (some "log.txt") none [1] false]

/-- Streamed, the chunk goes to a file named after the artifact's id, which
the snapshot does not have. -/
theorem nameless_chunk_apart :
    OnceThenAppended (namelessLogs.map (·.update)) ∧
    (∀ call ∈ namelessLogs, call.Names (noteTask [])) ∧
    ((saveStream false "out" ∅ (namelessLogs.map (·.update))).saveEvent false
        (applyUpdates ((InMemoryTaskStore.new none).create (noteTask [])).2 (noteTask [])
          namelessLogs).2.statusUpdate).files ≠
      ((⟨.new "out", ∅⟩ : Saving).saveTask false
        (applyUpdates ((InMemoryTaskStore.new none).create (noteTask [])).2 (noteTask [])
          namelessLogs).2).files := by
  refine ⟨by decide, ?_, fun h => ?_⟩
  · intro call hc _
    simp only [namelessLogs, List.mem_cons, List.not_mem_nil, or_false] at hc
    obtain rfl | rfl := hc <;> rfl
  · have hlookup := congrArg (Finmap.lookup ⟨"out", "a1"⟩) h
    revert hlookup
    decide

end A2a
