import A2a.FileParts.Names

/-!
# A2a.FileParts.Owners

Whose bytes a saved file holds, after any sequence of saves
(`a2acli/src/fileparts.rs`).

A save is a list of `Put`s, one for each file it writes, and what a saver has
done is told from the puts alone: `ownersOf` are the messages and artifacts
that used a name, in the order they came, and `bytesPut` what one of them put
there since its last non-append save.

The `k`th owner of a name is given the name numbered `k`, whether or not
another name is spelled that way.  So files never meet exactly if the names
are `Apart` (`pathsApart_iff`), and then each holds its owner's bytes
(`fileParts_separate`).
-/

namespace A2a

/-! ## saves as puts -/

/-- What a file is saved for. -/
inductive Owner
  | message (id : String)
  | artifact (id : ArtifactId)

/-- The owner as the saver writes it. -/
def Owner.key : Owner → String
  | .message id => "msg:" ++ id
  | .artifact id => "art:" ++ id

/-- Two owners have different keys. -/
theorem Owner.key_inj {a b : Owner} (h : a.key = b.key) : a = b := by
  have hlist := congrArg String.toList h
  cases a <;> cases b <;> simp [Owner.key] at hlist ⊢ <;> exact String.toList_inj.mp hlist

/-- The bytes one save writes to one file. -/
structure Put where
  owner : String
  name : String
  data : List UInt8
  append : Bool

/-- Write the file of a put. -/
def Saving.put (s : Saving) (p : Put) : Saving := s.saveFile p.owner p.append (p.name, p.data)

/-- The puts of a `save`. -/
def putsOf (windows : Bool) (owner : Owner) (fallback : String) (parts : List Part)
    (append : Bool) : List Put :=
  (joined windows fallback parts).map fun file => ⟨owner.key, file.1, file.2, append⟩

/-- A call to the saver. -/
inductive SaveCall
  | task (task : Task)
  | message (message : Message)
  | artifact (artifact : Artifact) (append : Bool)

namespace SaveCall

def run (windows : Bool) (s : Saving) : SaveCall → Saving
  | .task t => s.saveTask windows t
  | .message m => s.saveMessage windows m
  | .artifact a append => s.saveArtifact windows a append

def messagePuts (windows : Bool) (m : Message) : List Put :=
  putsOf windows (.message m.messageId) "status-msg" m.parts false

def artifactPuts (windows : Bool) (a : Artifact) (append : Bool) : List Put :=
  putsOf windows (.artifact a.artifactId) (Saving.fallbackName a) a.parts append

/-- The puts of a call. -/
def puts (windows : Bool) : SaveCall → List Put
  | .task t =>
      ((t.artifacts.getD []).flatMap fun a => artifactPuts windows a false) ++
        ((t.status.message.map (messagePuts windows)).getD [])
  | .message m => messagePuts windows m
  | .artifact a append => artifactPuts windows a append

end SaveCall

/-- A save is its puts, one after the other. -/
theorem save_eq (windows : Bool) (s : Saving) (owner : Owner) (fallback : String)
    (parts : List Part) (append : Bool) :
    s.save windows owner.key fallback parts append =
      (putsOf windows owner fallback parts append).foldl Saving.put s := by
  unfold Saving.save putsOf
  rw [List.foldl_map]
  rfl

/-- So is that of a message. -/
theorem saveMessage_eq (windows : Bool) (s : Saving) (message : Message) :
    s.saveMessage windows message = (SaveCall.messagePuts windows message).foldl Saving.put s :=
  save_eq windows s (.message message.messageId) _ _ _

/-- So is that of an artifact. -/
theorem saveArtifact_eq (windows : Bool) (s : Saving) (artifact : Artifact) (append : Bool) :
    s.saveArtifact windows artifact append =
      (SaveCall.artifactPuts windows artifact append).foldl Saving.put s :=
  save_eq windows s (.artifact artifact.artifactId) _ _ _

/-- So is that of all artifacts of a task. -/
theorem foldl_saveArtifact (windows : Bool) (s : Saving) (artifacts : List Artifact) :
    artifacts.foldl (fun s artifact => s.saveArtifact windows artifact false) s =
      (artifacts.flatMap fun artifact => SaveCall.artifactPuts windows artifact false).foldl
        Saving.put s := by
  induction artifacts generalizing s with
  | nil => rfl
  | cons artifact artifacts ih =>
      rw [List.foldl_cons, List.flatMap_cons, List.foldl_append, ih, saveArtifact_eq]

/-- A call makes its puts, one after another. -/
theorem run_saveCall (windows : Bool) (s : Saving) (call : SaveCall) :
    call.run windows s = (call.puts windows).foldl Saving.put s := by
  cases call with
  | task task =>
      simp only [SaveCall.run, SaveCall.puts, Saving.saveTask, List.foldl_append,
        foldl_saveArtifact]
      cases task.status.message with
      | none => rfl
      | some message => exact saveMessage_eq windows _ message
  | message message => exact saveMessage_eq windows s message
  | artifact artifact append => exact saveArtifact_eq windows s artifact append

/-! ## what the puts amount to

Puts are listed newest first. -/

/-- The owners of the files of a name, in the order they first used it. -/
def ownersOf (name : String) : List Put → List String
  | [] => []
  | p :: earlier =>
      if p.name = name ∧ p.owner ∉ ownersOf name earlier then ownersOf name earlier ++ [p.owner]
      else ownersOf name earlier

/-- What an owner put under a name since its last non-append put of it. -/
def bytesPut (owner name : String) : List Put → List UInt8
  | [] => []
  | p :: earlier =>
      if p.owner = owner ∧ p.name = name then
        (if p.append then bytesPut owner name earlier else []) ++ p.data
      else bytesPut owner name earlier

/-- The path of the `k`th owner of a name. -/
def pathOf (dir name : String) (k : Nat) : PathBuf := ⟨dir, if k = 0 then name else numbered name k⟩

/-- The file of an owner and a name. -/
def fileOf (dir owner name : String) (ps : List Put) : PathBuf :=
  pathOf dir name ((ownersOf name ps).idxOf owner)

/-- No name used is spelled like a numbered one that was given out. -/
def Apart (ps : List Put) : Prop :=
  ∀ name k, 0 < k → k < (ownersOf name ps).length → ownersOf (numbered name k) ps = []

/-- The saver and the files after the puts. -/
def savingAfter (dir : String) (files : Files) : List Put → Saving
  | [] => ⟨.new dir, files⟩
  | p :: earlier => (savingAfter dir files earlier).put p

variable {dir name owner : String} {files : Files} {ps : List Put} {p : Put}

/-- Puts are listed newest first. -/
theorem foldl_put (dir : String) (files : Files) (ps : List Put) :
    ps.foldl Saving.put ⟨.new dir, files⟩ = savingAfter dir files ps.reverse := by
  rw [List.foldl_eq_foldr_reverse]
  induction ps.reverse with
  | nil => rfl
  | cons p earlier ih => rw [List.foldr_cons, ih]; rfl

/-- An owner that has the name keeps its place. -/
theorem ownersOf_cons_self (h : owner ∈ ownersOf p.name ps) (howner : p.owner = owner) :
    ownersOf p.name (p :: ps) = ownersOf p.name ps := by
  subst howner
  simp [ownersOf, h]

/-- A new one comes last. -/
theorem ownersOf_cons_new (h : p.owner ∉ ownersOf p.name ps) :
    ownersOf p.name (p :: ps) = ownersOf p.name ps ++ [p.owner] := by
  simp [ownersOf, h]

/-- Another name has the owners it had. -/
theorem ownersOf_cons_ne (h : p.name ≠ name) : ownersOf name (p :: ps) = ownersOf name ps := by
  simp [ownersOf, h]

/-- A put keeps the owners there are, in their places. -/
theorem ownersOf_prefix_cons (name : String) (p : Put) (ps : List Put) :
    ownersOf name ps <+: ownersOf name (p :: ps) := by
  rw [ownersOf]
  split
  · exact List.prefix_append _ _
  · exact List.prefix_rfl

/-- No owner is listed twice. -/
theorem nodup_ownersOf (name : String) (ps : List Put) : (ownersOf name ps).Nodup := by
  induction ps with
  | nil => exact List.nodup_nil
  | cons p ps ih =>
      unfold ownersOf
      split
      · next h => exact List.nodup_append.mpr ⟨ih, List.nodup_singleton _, fun a ha b hb => by
          rw [List.mem_singleton.mp hb]
          exact fun he => h.2 (he ▸ ha)⟩
      · exact ih

/-- Who does not own a name has put nothing there. -/
theorem bytesPut_of_notMem (h : owner ∉ ownersOf name ps) : bytesPut owner name ps = [] := by
  induction ps with
  | nil => rfl
  | cons p ps ih =>
      have hps : owner ∉ ownersOf name ps := fun hm => h ((ownersOf_prefix_cons name p ps).subset hm)
      unfold bytesPut
      split
      · next hp =>
          obtain ⟨rfl, rfl⟩ := hp
          exact absurd (by rw [ownersOf_cons_new hps]; simp) h
      · exact ih hps

/-- A put begins its file, or is added to it. -/
theorem bytesPut_cons_self (p : Put) (ps : List Put) :
    bytesPut p.owner p.name (p :: ps) =
      (if p.append then bytesPut p.owner p.name ps else []) ++ p.data := by
  simp [bytesPut]

/-- The files of others are as they were. -/
theorem bytesPut_cons_ne (h : ¬(p.owner = owner ∧ p.name = name)) :
    bytesPut owner name (p :: ps) = bytesPut owner name ps := by
  rw [bytesPut, if_neg h]

/-- Fewer puts are apart, too. -/
theorem Apart.of_cons (h : Apart (p :: ps)) : Apart ps := by
  intro name k hpos hlt
  have hlonger := (ownersOf_prefix_cons name p ps).length_le
  have hnil := h name k hpos (by omega)
  have hsub := (ownersOf_prefix_cons (numbered name k) p ps).length_le
  rw [hnil] at hsub
  exact List.eq_nil_of_length_eq_zero (by simpa using hsub)

/-- A name no one put has no owner. -/
theorem ownersOf_of_unused (h : name ∉ ps.map (·.name)) : ownersOf name ps = [] := by
  induction ps with
  | nil => rfl
  | cons p ps ih =>
      simp only [List.map_cons, List.mem_cons, not_or] at h
      rw [ownersOf_cons_ne (Ne.symm h.1), ih h.2]

/-- Only the names in use need be looked at. -/
theorem apart_iff (ps : List Put) :
    Apart ps ↔ ∀ name ∈ ps.map (·.name), ∀ k < (ownersOf name ps).length, 0 < k →
      ownersOf (numbered name k) ps = [] := by
  constructor
  · intro h name _ k hlt hpos
    exact h name k hpos hlt
  · intro h name k hpos hlt
    by_cases hused : name ∈ ps.map (·.name)
    · exact h name hused k hlt hpos
    · rw [ownersOf_of_unused hused] at hlt
      exact absurd hlt (Nat.not_lt_zero k)

instance (ps : List Put) : Decidable (Apart ps) := decidable_of_iff _ (apart_iff ps).symm

/-! ## the paths handed out -/

/-- The paths of a name's owners, the first of them numbered `k`. -/
def reservedFrom (dir name : String) : Nat → List String → List Reserved
  | _, [] => []
  | k, owner :: owners => ⟨owner, pathOf dir name k⟩ :: reservedFrom dir name (k + 1) owners

theorem length_reservedFrom (k : Nat) (owners : List String) :
    (reservedFrom dir name k owners).length = owners.length := by
  induction owners generalizing k with
  | nil => rfl
  | cons _ owners ih => simp [reservedFrom, ih]

theorem reservedFrom_append (k : Nat) (owners : List String) (owner : String) :
    reservedFrom dir name k (owners ++ [owner]) =
      reservedFrom dir name k owners ++ [⟨owner, pathOf dir name (k + owners.length)⟩] := by
  induction owners generalizing k with
  | nil => rfl
  | cons _ owners ih =>
      simp only [List.cons_append, reservedFrom, ih, List.length_cons]
      rw [Nat.add_assoc, Nat.add_comm 1]

/-- The path reserved for an owner is that of its place. -/
theorem find?_reservedFrom (k : Nat) (owners : List String) :
    (reservedFrom dir name k owners).find? (·.owner = owner) =
      if owner ∈ owners then some ⟨owner, pathOf dir name (k + owners.idxOf owner)⟩ else none := by
  induction owners generalizing k with
  | nil => rfl
  | cons first owners ih =>
      rw [reservedFrom, List.find?_cons]
      by_cases hfirst : first = owner
      · simp [hfirst]
      · simp only [hfirst, decide_false, ih, List.mem_cons, Ne.symm hfirst, false_or,
          List.idxOf_cons_ne _ hfirst]
        rw [Nat.add_assoc, Nat.add_comm 1]

/-- A path is reserved for one owner only. -/
theorem mem_reservedFrom {path : PathBuf} (k : Nat) {owners : List String} (h : owners.Nodup) :
    ⟨owner, path⟩ ∈ reservedFrom dir name k owners ↔
      owner ∈ owners ∧ path = pathOf dir name (k + owners.idxOf owner) := by
  induction owners generalizing k with
  | nil => simp [reservedFrom]
  | cons first owners ih =>
      obtain ⟨hfirst, hrest⟩ := List.nodup_cons.mp h
      rw [reservedFrom, List.mem_cons, ih _ hrest, List.mem_cons]
      by_cases howner : owner = first
      · subst howner
        simp [hfirst]
      · simp only [Reserved.mk.injEq, howner, false_and, false_or, List.idxOf_cons_ne _ (Ne.symm howner)]
        rw [Nat.add_assoc, Nat.add_comm 1]

variable {saver : FilePartSaver} {owners : List String}

/-- An owner that has used a name gets the same path again. -/
theorem reserve_known (h : saver.taken name = reservedFrom saver.dir name 0 owners)
    (hmem : owner ∈ owners) :
    saver.reserve owner name = ((pathOf saver.dir name (owners.idxOf owner), false),
      { saver with reserved := saver.reserved.insert name (reservedFrom saver.dir name 0 owners) }) := by
  unfold FilePartSaver.reserve
  simp only [h, find?_reservedFrom, if_pos hmem, Nat.zero_add]

/-- A new owner of a name gets the next number. -/
theorem reserve_new (h : saver.taken name = reservedFrom saver.dir name 0 owners)
    (hnew : owner ∉ owners) :
    saver.reserve owner name = ((pathOf saver.dir name owners.length, true),
      { saver with
        reserved := saver.reserved.insert name (reservedFrom saver.dir name 0 (owners ++ [owner])) }) := by
  have hempty : (reservedFrom saver.dir name 0 owners).isEmpty = decide (owners.length = 0) := by
    cases owners <;> simp [reservedFrom]
  unfold FilePartSaver.reserve
  simp only [h, find?_reservedFrom, if_neg hnew, hempty, length_reservedFrom, decide_eq_true_eq,
    reservedFrom_append, Nat.zero_add, pathOf]

/-- What a put does, to a saver that has handed out paths in the order of
`owners`. -/
theorem saving_put (s : Saving) (p : Put)
    (h : s.saver.taken p.name = reservedFrom s.saver.dir p.name 0 owners) :
    (s.put p).saver.dir = s.saver.dir ∧
    (s.put p).saver.taken p.name = reservedFrom s.saver.dir p.name 0
      (if p.owner ∈ owners then owners else owners ++ [p.owner]) ∧
    (∀ name, name ≠ p.name → (s.put p).saver.taken name = s.saver.taken name) ∧
    (s.put p).files = writeFile s.files (pathOf s.saver.dir p.name (owners.idxOf p.owner)) p.data
      (p.append && decide (p.owner ∈ owners)) := by
  unfold Saving.put Saving.saveFile
  by_cases hmem : p.owner ∈ owners
  · simp only [reserve_known h hmem, hmem]
    refine ⟨trivial, by simp [FilePartSaver.taken], fun name hname => ?_, by simp⟩
    simp [FilePartSaver.taken, Finmap.lookup_insert_of_ne _ hname]
  · simp only [reserve_new h hmem, hmem, List.idxOf_eq_length hmem]
    refine ⟨trivial, by simp [FilePartSaver.taken], fun name hname => ?_, by simp⟩
    simp [FilePartSaver.taken, Finmap.lookup_insert_of_ne _ hname]

/-- The paths handed out are those of the owners. -/
theorem taken_savingAfter (dir : String) (files : Files) (ps : List Put) :
    (savingAfter dir files ps).saver.dir = dir ∧
    ∀ name, (savingAfter dir files ps).saver.taken name =
      reservedFrom dir name 0 (ownersOf name ps) := by
  induction ps with
  | nil => exact ⟨rfl, fun name => rfl⟩
  | cons p earlier ih =>
      obtain ⟨hdir, htaken⟩ := ih
      have h : (savingAfter dir files earlier).saver.taken p.name = reservedFrom
          (savingAfter dir files earlier).saver.dir p.name 0 (ownersOf p.name earlier) := by
        rw [hdir, htaken]
      obtain ⟨hdir', hself, hother, _⟩ := saving_put (savingAfter dir files earlier) p h
      refine ⟨hdir'.trans hdir, fun name => ?_⟩
      rw [savingAfter]
      by_cases hname : name = p.name
      · subst hname
        rw [hself, hdir]
        by_cases hmem : p.owner ∈ ownersOf p.name earlier
        · rw [if_pos hmem, ownersOf_cons_self hmem rfl]
        · rw [if_neg hmem, ownersOf_cons_new hmem]
      · rw [hother name hname, htaken, ownersOf_cons_ne (Ne.symm hname)]

/-- What a put writes. -/
theorem files_savingAfter (dir : String) (files : Files) (p : Put) (earlier : List Put) :
    (savingAfter dir files (p :: earlier)).files =
      writeFile (savingAfter dir files earlier).files (fileOf dir p.owner p.name (p :: earlier)) p.data
        (p.append && decide (p.owner ∈ ownersOf p.name earlier)) := by
  obtain ⟨hdir, htaken⟩ := taken_savingAfter dir files earlier
  have h : (savingAfter dir files earlier).saver.taken p.name = reservedFrom
      (savingAfter dir files earlier).saver.dir p.name 0 (ownersOf p.name earlier) := by
    rw [hdir, htaken]
  obtain ⟨_, _, _, hfiles⟩ := saving_put (savingAfter dir files earlier) p h
  rw [savingAfter, hfiles, hdir, fileOf]
  by_cases hmem : p.owner ∈ ownersOf p.name earlier
  · rw [ownersOf_cons_self hmem rfl]
  · rw [ownersOf_cons_new hmem, List.idxOf_append_of_notMem hmem, List.idxOf_eq_length hmem]
    simp

/-! ## apart -/

/-- The path is the one handed to the owner for the name. -/
def FilePartSaver.HandedOut (saver : FilePartSaver) (owner name : String) (path : PathBuf) : Prop :=
  ⟨owner, path⟩ ∈ saver.taken name

/-- **A path is handed out** to the owners of a name, by their places. -/
theorem handedOut_iff {path : PathBuf} :
    (savingAfter dir files ps).saver.HandedOut owner name path ↔
      owner ∈ ownersOf name ps ∧ path = fileOf dir owner name ps := by
  unfold FilePartSaver.HandedOut fileOf
  rw [(taken_savingAfter dir files ps).2, mem_reservedFrom 0 (nodup_ownersOf name ps), Nat.zero_add]

/-- A numbered name is another. -/
theorem numbered_ne (name : String) (n : Nat) : numbered name n ≠ name := by
  intro h
  have hlength := congrArg (fun s : String => s.toList.length) h
  rcases toList_numbered name n with ⟨stem, ext, hname, _, hn⟩ | ⟨_, hn⟩
  · simp only [hn, hname, List.length_append, List.length_cons, numberSuffix] at hlength
    omega
  · simp only [hn, List.length_append, List.length_cons, numberSuffix] at hlength
    omega

/-- No two files handed out have one path. -/
def FilePartSaver.PathsApart (saver : FilePartSaver) : Prop :=
  ∀ owner name owner' name' path, saver.HandedOut owner name path →
    saver.HandedOut owner' name' path → owner = owner' ∧ name = name'

/-- An owner has a place. -/
theorem idxOf_lt_of_mem (h : owner ∈ ownersOf name ps) :
    (ownersOf name ps).idxOf owner < (ownersOf name ps).length := List.idxOf_lt_length_of_mem h

/-- Names that are apart keep their files apart. -/
theorem Apart.fileOf_inj (h : Apart ps) {owner' name' : String} (hmem : owner ∈ ownersOf name ps)
    (hmem' : owner' ∈ ownersOf name' ps)
    (hpath : fileOf dir owner name ps = fileOf dir owner' name' ps) :
    owner = owner' ∧ name = name' := by
  have hlt := idxOf_lt_of_mem hmem
  have hlt' := idxOf_lt_of_mem hmem'
  have hfile : (if (ownersOf name ps).idxOf owner = 0 then name
      else numbered name ((ownersOf name ps).idxOf owner)) =
      if (ownersOf name' ps).idxOf owner' = 0 then name'
      else numbered name' ((ownersOf name' ps).idxOf owner') :=
    congrArg PathBuf.fileName hpath
  have hsame : name = name' ∧ (ownersOf name ps).idxOf owner = (ownersOf name' ps).idxOf owner' := by
    by_cases hk : (ownersOf name ps).idxOf owner = 0
    · by_cases hk' : (ownersOf name' ps).idxOf owner' = 0
      · rw [if_pos hk, if_pos hk'] at hfile
        exact ⟨hfile, hk.trans hk'.symm⟩
      · rw [if_pos hk, if_neg hk'] at hfile
        have hnil := h name' _ (Nat.pos_of_ne_zero hk') hlt'
        rw [← hfile] at hnil
        rw [hnil] at hmem
        exact absurd hmem List.not_mem_nil
    · by_cases hk' : (ownersOf name' ps).idxOf owner' = 0
      · rw [if_neg hk, if_pos hk'] at hfile
        have hnil := h name _ (Nat.pos_of_ne_zero hk) hlt
        rw [hfile] at hnil
        rw [hnil] at hmem'
        exact absurd hmem' List.not_mem_nil
      · rw [if_neg hk, if_neg hk'] at hfile
        exact numbered_inj hfile
  obtain ⟨rfl, hidx⟩ := hsame
  exact ⟨(List.idxOf_inj hmem).mp hidx, rfl⟩

/-- **Files never meet exactly if the names are apart.** -/
theorem pathsApart_iff (dir : String) (files : Files) (ps : List Put) :
    (savingAfter dir files ps).saver.PathsApart ↔ Apart ps := by
  constructor
  · intro h name k hpos hlt
    by_contra hne
    obtain ⟨owner', rest, hcons⟩ := List.exists_cons_of_ne_nil hne
    -- the `k`th owner of the name and the first of the numbered one
    have hmem : (ownersOf name ps)[k] ∈ ownersOf name ps := List.getElem_mem hlt
    have hidx : (ownersOf name ps).idxOf (ownersOf name ps)[k] = k :=
      (nodup_ownersOf name ps).idxOf_getElem k hlt
    have hmem' : owner' ∈ ownersOf (numbered name k) ps := hcons ▸ List.mem_cons_self
    have hidx' : (ownersOf (numbered name k) ps).idxOf owner' = 0 := by rw [hcons, List.idxOf_cons_self]
    have hpath : fileOf dir owner' (numbered name k) ps = fileOf dir (ownersOf name ps)[k] name ps := by
      unfold fileOf pathOf
      rw [hidx, hidx', if_pos rfl, if_neg (by omega)]
    have hsame := h _ _ _ _ _ (handedOut_iff.mpr ⟨hmem, rfl⟩)
      (handedOut_iff.mpr ⟨hmem', hpath.symm⟩)
    exact numbered_ne name k hsame.2.symm
  · intro h owner name owner' name' path hout hout'
    obtain ⟨hmem, hpath⟩ := handedOut_iff.mp hout
    obtain ⟨hmem', hpath'⟩ := handedOut_iff.mp hout'
    exact h.fileOf_inj hmem hmem' (hpath.symm.trans hpath')

/-! ## the bytes -/

/-- An owner keeps its file. -/
theorem fileOf_cons (hmem : owner ∈ ownersOf name ps) (p : Put) :
    fileOf dir owner name (p :: ps) = fileOf dir owner name ps := by
  obtain ⟨more, hmore⟩ := ownersOf_prefix_cons name p ps
  unfold fileOf
  rw [← hmore, List.idxOf_append_of_mem hmem]

/-- Who puts a name owns it. -/
theorem mem_ownersOf_self (p : Put) (ps : List Put) : p.owner ∈ ownersOf p.name (p :: ps) := by
  by_cases hmem : p.owner ∈ ownersOf p.name ps
  · rw [ownersOf_cons_self hmem rfl]
    exact hmem
  · rw [ownersOf_cons_new hmem]
    simp

/-- Nobody else begins to by it. -/
theorem mem_ownersOf_of_ne (hne : ¬(p.owner = owner ∧ p.name = name))
    (hmem : owner ∈ ownersOf name (p :: ps)) : owner ∈ ownersOf name ps := by
  rw [ownersOf] at hmem
  split at hmem
  · next hnew =>
      cases List.mem_append.mp hmem with
      | inl hold => exact hold
      | inr hself => exact absurd ⟨(List.mem_singleton.mp hself).symm, hnew.1⟩ hne
  · exact hmem

/-- What was written is in the file. -/
theorem lookup_writeFile (files : Files) (path : PathBuf) (data : List UInt8) (append : Bool) :
    (writeFile files path data append).lookup path =
      some (if append then (files.lookup path).getD [] ++ data else data) :=
  Finmap.lookup_insert _

/-- Other files are left alone. -/
theorem lookup_writeFile_ne {path other : PathBuf} (h : other ≠ path) (data : List UInt8)
    (append : Bool) : (writeFile files path data append).lookup other = files.lookup other :=
  Finmap.lookup_insert_of_ne _ h

/-- A file holds what its owner put there, if the names are apart. -/
theorem lookup_fileOf (dir : String) (files : Files) (h : Apart ps)
    (hmem : owner ∈ ownersOf name ps) :
    (savingAfter dir files ps).files.lookup (fileOf dir owner name ps) =
      some (bytesPut owner name ps) := by
  induction ps with
  | nil => exact absurd hmem List.not_mem_nil
  | cons p earlier ih =>
      rw [files_savingAfter]
      by_cases hself : p.owner = owner ∧ p.name = name
      · obtain ⟨rfl, rfl⟩ := hself
        rw [lookup_writeFile, bytesPut_cons_self]
        by_cases hold : p.owner ∈ ownersOf p.name earlier
        · rw [fileOf_cons hold, ih h.of_cons hold]
          cases p.append <;> simp [hold]
        · rw [bytesPut_of_notMem hold]
          cases p.append <;> simp [hold]
      · have hold := mem_ownersOf_of_ne hself hmem
        have hother : fileOf dir owner name (p :: earlier) ≠ fileOf dir p.owner p.name (p :: earlier) := by
          intro hpath
          obtain ⟨howner, hname⟩ := h.fileOf_inj hmem (mem_ownersOf_self p earlier) hpath
          exact hself ⟨howner.symm, hname.symm⟩
        rw [lookup_writeFile_ne hother, fileOf_cons hold, ih h.of_cons hold,
          bytesPut_cons_ne hself]

/-- A file that was not handed out is as it was. -/
theorem lookup_notHandedOut (dir : String) (files : Files) {path : PathBuf}
    (h : ∀ owner name, owner ∈ ownersOf name ps → fileOf dir owner name ps ≠ path) :
    (savingAfter dir files ps).files.lookup path = files.lookup path := by
  induction ps with
  | nil => rfl
  | cons p earlier ih =>
      have hself := h p.owner p.name (mem_ownersOf_self p earlier)
      rw [files_savingAfter, lookup_writeFile_ne (Ne.symm hself)]
      refine ih fun owner name hmem => ?_
      rw [← fileOf_cons hmem p]
      exact h owner name ((ownersOf_prefix_cons name p earlier).subset hmem)

/-! ## the calls of an invocation -/

/-- The puts of the calls, newest first. -/
def putsAfter (windows : Bool) (calls : List SaveCall) : List Put :=
  (calls.flatMap (·.puts windows)).reverse

/-- A new saver after the calls. -/
def saveAll (windows : Bool) (dir : String) (files : Files) (calls : List SaveCall) : Saving :=
  calls.foldl (fun s call => call.run windows s) ⟨.new dir, files⟩

/-- All calls together are their puts. -/
theorem saveAll_eq (windows : Bool) (dir : String) (files : Files) (calls : List SaveCall) :
    saveAll windows dir files calls = savingAfter dir files (putsAfter windows calls) := by
  unfold saveAll putsAfter
  rw [← foldl_put]
  generalize (⟨.new dir, files⟩ : Saving) = s
  induction calls generalizing s with
  | nil => rfl
  | cons call calls ih =>
      rw [List.foldl_cons, List.flatMap_cons, List.foldl_append, ih, run_saveCall]

/-- The files of the owners do not mix: no two owners have the same path,
and each file holds what its owner put there under its name. -/
structure Separate (s : Saving) (ps : List Put) : Prop where
  paths : ∀ (owner owner' : Owner) name name' path, s.saver.HandedOut owner.key name path →
    s.saver.HandedOut owner'.key name' path → owner = owner'
  bytes : ∀ (owner : Owner) name path, s.saver.HandedOut owner.key name path →
    s.files.lookup path = some (bytesPut owner.key name ps)

/-- **Saved file parts of different owners never mix** in an invocation
whose names are apart, and only then are all its files apart. -/
theorem fileParts_separate (windows : Bool) (dir : String) (files : Files) (calls : List SaveCall) :
    ((saveAll windows dir files calls).saver.PathsApart ↔ Apart (putsAfter windows calls)) ∧
    (Apart (putsAfter windows calls) →
      Separate (saveAll windows dir files calls) (putsAfter windows calls)) := by
  rw [saveAll_eq]
  refine ⟨pathsApart_iff _ _ _, fun h => ⟨?_, ?_⟩⟩
  · intro owner owner' name name' path hout hout'
    exact Owner.key_inj ((pathsApart_iff _ _ _).mpr h _ _ _ _ _ hout hout').1
  · intro owner name path hout
    obtain ⟨hmem, hpath⟩ := handedOut_iff.mp hout
    rw [hpath]
    exact lookup_fileOf dir files h hmem

/-- An artifact with one file. -/
def document (id name : String) (bytes : List UInt8) : SaveCall :=
  .artifact ⟨id, some name, none, [⟨.raw bytes, none, none, none⟩], none, none⟩ false

/-- Three artifacts of one name, and a chunk of the second. -/
def documents : List SaveCall :=
  [document "a1" "doc.txt" [1], document "a2" "doc.txt" [2], document "a3" "doc.txt" [3],
    .artifact ⟨"a2", some "doc.txt", none, [⟨.raw [4], none, none, none⟩], none, none⟩ true]

theorem fileParts_separate_documents :
    Apart (putsAfter false documents) ∧
      Separate (saveAll false "out" ∅ documents) (putsAfter false documents) :=
  ⟨by decide, (fileParts_separate false "out" ∅ documents).2 (by decide)⟩

/-- Two artifacts of one name and a third named as the second is numbered:
the third takes the second's file. -/
def clashing : List SaveCall :=
  [document "a1" "doc.txt" [1], document "a2" "doc.txt" [2], document "a3" "doc (1).txt" [3]]

theorem clashing_mixed :
    ¬Separate (saveAll false "out" ∅ clashing) (putsAfter false clashing) := by
  intro h
  rw [saveAll_eq] at h
  have hsecond : (savingAfter "out" ∅ (putsAfter false clashing)).saver.HandedOut
      (Owner.artifact "a2").key "doc.txt" ⟨"out", "doc (1).txt"⟩ :=
    handedOut_iff.mpr ⟨by decide, by decide⟩
  have hthird : (savingAfter "out" ∅ (putsAfter false clashing)).saver.HandedOut
      (Owner.artifact "a3").key "doc (1).txt" ⟨"out", "doc (1).txt"⟩ :=
    handedOut_iff.mpr ⟨by decide, by decide⟩
  have hsame := h.paths _ _ _ _ _ hsecond hthird
  simp at hsame

end A2a
