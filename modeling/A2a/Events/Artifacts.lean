import A2a.Events

/-!
# A2a.Events.Artifacts

What a task's artifacts are after any sequence of artifact updates
(`apply_event_to_task` in `a2a-server/src/handler.rs`).

The reference is read off the updates, not off the task they build up:
`idsAfter` lists the ids in the order they first appear, and `draftAfter` is
the last non-append update of an artifact with what was appended since.
`artifacts_folded` is that the stored task has exactly these artifacts.

Updates are listed newest first.
-/

namespace A2a

/-! ## the reference -/

/-- The artifact an update is about. -/
def TaskArtifactUpdateEvent.about (update : TaskArtifactUpdateEvent) : ArtifactId :=
  update.artifact.artifactId

/-- Whether an update appends. -/
def TaskArtifactUpdateEvent.appends (update : TaskArtifactUpdateEvent) : Bool :=
  update.append.getD false

/-- The ids in the order they first appear; an append to none of them is an
error. -/
def idsAfter (initial : List ArtifactId) : List TaskArtifactUpdateEvent → List ArtifactId
  | [] => initial
  | update :: earlier =>
      if update.appends || (idsAfter initial earlier).contains update.about then
        idsAfter initial earlier
      else idsAfter initial earlier ++ [update.about]

/-- An artifact as last sent without append, and what was appended since. -/
structure Draft where
  base : Artifact
  appended : List Artifact

/-- All the artifacts a draft is made of, in order. -/
def Draft.pieces (d : Draft) : List Artifact := d.base :: d.appended

/-- The draft of an artifact, none if it is not present. -/
def draftAfter (initial : List Artifact) (id : ArtifactId) :
    List TaskArtifactUpdateEvent → Option Draft
  | [] => (initial.find? (·.artifactId == id)).map (⟨·, []⟩)
  | update :: earlier =>
      if update.about = id then
        if update.appends then
          (draftAfter initial id earlier).map fun d => ⟨d.base, d.appended ++ [update.artifact]⟩
        else some ⟨update.artifact, []⟩
      else draftAfter initial id earlier

/-- An entry of an artifact's metadata. -/
def Artifact.entry (artifact : Artifact) (key : String) : Option Value :=
  artifact.metadata.bind (·.lookup key)

/-- The artifact a draft amounts to: the parts of all its pieces, the union
of their metadata with later values winning, and the rest of the base. -/
structure Draft.Makes (d : Draft) (artifact : Artifact) : Prop where
  artifactId : artifact.artifactId = d.base.artifactId
  name : artifact.name = d.base.name
  description : artifact.description = d.base.description
  extensions : artifact.extensions = d.base.extensions
  parts : artifact.parts = d.pieces.flatMap (·.parts)
  metadata : ∀ key, artifact.entry key = (d.pieces.filterMap (·.entry key)).getLast?
  present : artifact.metadata.isSome = d.pieces.any (·.metadata.isSome)

/-! ## one artifact -/

theorem Draft.makes_base (artifact : Artifact) : (⟨artifact, []⟩ : Draft).Makes artifact where
  artifactId := rfl
  name := rfl
  description := rfl
  extensions := rfl
  parts := by simp [Draft.pieces]
  metadata key := by
    simp only [Draft.pieces, List.filterMap_cons, List.filterMap_nil]
    cases artifact.entry key <;> rfl
  present := by simp [Draft.pieces]

theorem entry_extendArtifact (update artifact : Artifact) (key : String) :
    (extendArtifact update artifact).entry key = (update.entry key).or (artifact.entry key) := by
  unfold Artifact.entry extendArtifact
  cases hm : update.metadata with
  | none => simp
  | some metadata =>
      simp only [Option.bind_some, Metadata.extend]
      have hold : (artifact.metadata.getD ∅).lookup key =
          artifact.metadata.bind fun m => m.lookup key := by
        cases artifact.metadata <;> simp
      rw [← hold]
      by_cases hk : key ∈ metadata
      · rw [Finmap.lookup_union_left hk]
        obtain ⟨value, hvalue⟩ := Finmap.mem_iff.mp hk
        simp [hvalue]
      · rw [Finmap.lookup_union_right hk, Finmap.lookup_eq_none.mpr hk, Option.none_or]

/-- An append adds the update to the draft. -/
theorem Draft.Makes.extend {d : Draft} {artifact : Artifact} (h : d.Makes artifact)
    (update : Artifact) :
    (⟨d.base, d.appended ++ [update]⟩ : Draft).Makes (extendArtifact update artifact) where
  artifactId := h.artifactId
  name := h.name
  description := h.description
  extensions := h.extensions
  parts := by
    have hparts := h.parts
    simp only [Draft.pieces] at hparts
    simp [Draft.pieces, extendArtifact, hparts]
  metadata key := by
    have hentry := h.metadata key
    simp only [Draft.pieces] at hentry
    rw [entry_extendArtifact, hentry]
    simp only [Draft.pieces, ← List.cons_append, List.filterMap_append, List.filterMap_cons,
      List.filterMap_nil]
    cases update.entry key <;> simp
  present := by
    have hpresent := h.present
    simp only [Draft.pieces] at hpresent
    simp only [Draft.pieces, ← List.cons_append, List.any_append, ← hpresent, List.any_cons,
      List.any_nil, Bool.or_false]
    unfold extendArtifact
    cases update.metadata <;> simp

/-! ## all the artifacts -/

/-- The artifacts after an update, none if it is refused. -/
def updateArtifacts (artifacts : List Artifact) (update : TaskArtifactUpdateEvent) :
    Option (List Artifact) :=
  if update.appends then
    if artifacts.any (·.artifactId == update.about) then
      some (modifyArtifact update.about (extendArtifact update.artifact) artifacts)
    else none
  else if artifacts.any (·.artifactId == update.about) then
    some (modifyArtifact update.about (fun _ => update.artifact) artifacts)
  else some (artifacts ++ [update.artifact])

/-- An artifact update is one of the artifacts. -/
theorem applyArtifactUpdate_eq (task : Task) (update : TaskArtifactUpdateEvent) :
    applyArtifactUpdate task update =
      match updateArtifacts (task.artifacts.getD []) update with
      | some artifacts => .ok { task with artifacts := some artifacts }
      | none => .error .invalidAgentResponse := by
  simp only [applyArtifactUpdate, updateArtifacts, TaskArtifactUpdateEvent.appends,
    TaskArtifactUpdateEvent.about]
  split
  · next happend =>
      split
      · next hknown => simp [happend, hknown]
      · next hknown => simp [happend, hknown]
  · next happend =>
      split
      · next hknown => simp [happend, hknown]
      · next hknown => simp [happend, hknown]

/-- The artifacts after the updates; a refused one changes nothing. -/
def artifactsAfter (initial : List Artifact) : List TaskArtifactUpdateEvent → List Artifact
  | [] => initial
  | update :: earlier =>
      (updateArtifacts (artifactsAfter initial earlier) update).getD (artifactsAfter initial earlier)

theorem any_artifactId (artifacts : List Artifact) (id : ArtifactId) :
    artifacts.any (·.artifactId == id) = (artifacts.map (·.artifactId)).contains id := by
  induction artifacts with
  | nil => rfl
  | cons a as ih => rw [List.any_cons, List.map_cons, List.contains_cons, ih, Bool.beq_comm]

theorem any_eq_isSome_find? (artifacts : List Artifact) (id : ArtifactId) :
    artifacts.any (·.artifactId == id) = (artifacts.find? (·.artifactId == id)).isSome := by
  rw [List.isSome_find?]

theorem find?_modifyArtifact_self {id : ArtifactId} {f : Artifact → Artifact}
    (hf : ∀ a, a.artifactId = id → (f a).artifactId = id) (artifacts : List Artifact) :
    (modifyArtifact id f artifacts).find? (·.artifactId == id) =
      (artifacts.find? (·.artifactId == id)).map f := by
  induction artifacts with
  | nil => rfl
  | cons a as ih =>
      unfold modifyArtifact
      by_cases ha : a.artifactId = id
      · simp [ha, hf a ha]
      · simp [ha, ih]

theorem find?_modifyArtifact_ne {id other : ArtifactId} {f : Artifact → Artifact}
    (hf : ∀ a, a.artifactId = id → (f a).artifactId = id) (hne : other ≠ id)
    (artifacts : List Artifact) :
    (modifyArtifact id f artifacts).find? (·.artifactId == other) =
      artifacts.find? (·.artifactId == other) := by
  induction artifacts with
  | nil => rfl
  | cons a as ih =>
      unfold modifyArtifact
      split
      · next ha =>
          have hnew : ¬(f a).artifactId = other := fun h => hne (h.symm.trans (hf a ha))
          simp [ha, hnew, Ne.symm hne]
      · by_cases ho : a.artifactId = other
        · simp [ho]
        · simp [ho, ih]

/-- The ids after the updates are those of the reference. -/
theorem map_artifactsAfter (initial : List Artifact) (updates : List TaskArtifactUpdateEvent) :
    (artifactsAfter initial updates).map (·.artifactId) =
      idsAfter (initial.map (·.artifactId)) updates := by
  induction updates with
  | nil => rfl
  | cons update earlier ih =>
      have happend : (modifyArtifact update.about (extendArtifact update.artifact)
          (artifactsAfter initial earlier)).map (·.artifactId) =
          (artifactsAfter initial earlier).map (·.artifactId) :=
        map_modifyArtifact (f := extendArtifact update.artifact) (fun a ha => ha) _
      have hreplace : (modifyArtifact update.about (fun _ => update.artifact)
          (artifactsAfter initial earlier)).map (·.artifactId) =
          (artifactsAfter initial earlier).map (·.artifactId) :=
        map_modifyArtifact (f := fun _ => update.artifact) (fun _ _ => rfl) _
      simp only [artifactsAfter, updateArtifacts, idsAfter, any_artifactId, ← ih]
      cases update.appends with
      | true => split_ifs <;> simp_all
      | false => split_ifs <;> simp_all [TaskArtifactUpdateEvent.about]

variable {artifacts artifacts' : List Artifact} {update : TaskArtifactUpdateEvent}

/-- An update is refused if it appends to an artifact that is not there. -/
theorem updateArtifacts_eq_none :
    updateArtifacts artifacts update = none ↔
      update.appends = true ∧ artifacts.find? (·.artifactId == update.about) = none := by
  unfold updateArtifacts
  rw [any_eq_isSome_find?]
  cases update.appends <;> cases artifacts.find? (·.artifactId == update.about) <;> simp

theorem find?_updateArtifacts_ne {id : ArtifactId} (hne : update.about ≠ id)
    (h : updateArtifacts artifacts update = some artifacts') :
    artifacts'.find? (·.artifactId == id) = artifacts.find? (·.artifactId == id) := by
  unfold updateArtifacts at h
  split at h
  · split at h
    · rw [← Option.some.inj h]
      exact find?_modifyArtifact_ne (f := extendArtifact update.artifact) (fun a ha => ha)
        (Ne.symm hne) artifacts
    · contradiction
  · split at h
    · rw [← Option.some.inj h]
      exact find?_modifyArtifact_ne (fun _ _ => rfl) (Ne.symm hne) artifacts
    · rw [← Option.some.inj h, List.find?_append]
      have hnew : ¬update.artifact.artifactId = id := hne
      simp [hnew]

theorem find?_updateArtifacts_append (happend : update.appends = true)
    (h : updateArtifacts artifacts update = some artifacts') :
    artifacts'.find? (·.artifactId == update.about) =
      (artifacts.find? (·.artifactId == update.about)).map (extendArtifact update.artifact) := by
  unfold updateArtifacts at h
  rw [if_pos happend] at h
  split at h
  · rw [← Option.some.inj h]
    exact find?_modifyArtifact_self (f := extendArtifact update.artifact) (fun a ha => ha) artifacts
  · contradiction

theorem find?_updateArtifacts_replace (hreplace : update.appends = false)
    (h : updateArtifacts artifacts update = some artifacts') :
    artifacts'.find? (·.artifactId == update.about) = some update.artifact := by
  unfold updateArtifacts at h
  rw [if_neg (by simp [hreplace]), any_eq_isSome_find?] at h
  split at h
  · next hsome =>
      have hreplaced : (modifyArtifact update.about (fun _ => update.artifact) artifacts).find?
          (·.artifactId == update.about) =
          (artifacts.find? (·.artifactId == update.about)).map fun _ => update.artifact :=
        find?_modifyArtifact_self (fun _ _ => rfl) artifacts
      obtain ⟨old, hold⟩ := Option.isSome_iff_exists.mp hsome
      rw [← Option.some.inj h, hreplaced, hold, Option.map_some]
  · next hnone =>
      rw [← Option.some.inj h, List.find?_append]
      rw [Option.not_isSome_iff_eq_none.mp hnone]
      simp [TaskArtifactUpdateEvent.about]

theorem rel_makes_extend {draft : Option Draft} {artifact : Option Artifact}
    (h : Option.Rel Draft.Makes draft artifact) (update : Artifact) :
    Option.Rel Draft.Makes (draft.map fun d => ⟨d.base, d.appended ++ [update]⟩)
      (artifact.map (extendArtifact update)) := by
  cases h with
  | none => exact .none
  | some hmakes => exact .some (hmakes.extend update)

/-- Each artifact is what its draft amounts to. -/
theorem find?_artifactsAfter (initial : List Artifact) (id : ArtifactId)
    (updates : List TaskArtifactUpdateEvent) :
    Option.Rel Draft.Makes (draftAfter initial id updates)
      ((artifactsAfter initial updates).find? (·.artifactId == id)) := by
  induction updates with
  | nil =>
      simp only [draftAfter, artifactsAfter]
      cases initial.find? (·.artifactId == id) with
      | none => exact .none
      | some artifact => exact .some (Draft.makes_base artifact)
  | cons update earlier ih =>
      simp only [artifactsAfter, draftAfter]
      cases hu : updateArtifacts (artifactsAfter initial earlier) update with
      | none =>
          -- a refused append: there is neither an artifact nor a draft
          obtain ⟨happend, hnone⟩ := updateArtifacts_eq_none.mp hu
          rw [Option.getD_none]
          split
          · next habout =>
              subst habout
              rw [hnone] at ih ⊢
              cases hdraft : draftAfter initial update.about earlier with
              | none => exact .none
              | some d => rw [hdraft] at ih; cases ih
          · exact ih
      | some artifacts =>
          rw [Option.getD_some]
          split
          · next habout =>
              subst habout
              split
              · next happend =>
                  rw [find?_updateArtifacts_append happend hu]
                  exact rel_makes_extend ih update.artifact
              · next happend =>
                  rw [find?_updateArtifacts_replace (by simpa using happend) hu]
                  exact .some (Draft.makes_base update.artifact)
          · next habout =>
              rw [find?_updateArtifacts_ne habout hu]
              exact ih

/-- Only the first appearance of an id adds it. -/
theorem nodup_idsAfter {initial : List ArtifactId} (h : initial.Nodup)
    (updates : List TaskArtifactUpdateEvent) : (idsAfter initial updates).Nodup := by
  induction updates with
  | nil => exact h
  | cons update earlier ih =>
      simp only [idsAfter]
      split
      · exact ih
      · next hnew =>
          simp only [Bool.or_eq_true, List.contains_iff_mem, not_or] at hnew
          rw [List.nodup_append]
          refine ⟨ih, List.nodup_singleton _, fun a ha b hb => ?_⟩
          rw [List.mem_singleton.mp hb]
          exact fun he => hnew.2 (he ▸ ha)

/-! ## applying updates to a stored task -/

/-- An update as `apply_event_to_task` is given it: with the task it applies
to, or with none so that the task is loaded (`loads`). -/
structure UpdateCall where
  update : TaskArtifactUpdateEvent
  now : DateTime
  loads : Bool

namespace UpdateCall

def run (call : UpdateCall) (store : InMemoryTaskStore) (task : Task) :
    Except A2AError (Option Task) × InMemoryTaskStore :=
  applyEventToTask store call.now (if call.loads then none else some task)
    (.artifactUpdate call.update)

/-- The task loaded is the one meant. -/
def Names (call : UpdateCall) (task : Task) : Prop :=
  call.loads = true → call.update.taskId = task.id

end UpdateCall

/-- The store and the task after the updates; one that fails leaves the task
there was. -/
def applyUpdates (store : InMemoryTaskStore) (task : Task) :
    List UpdateCall → InMemoryTaskStore × Task
  | [] => (store, task)
  | call :: earlier =>
      let reached := applyUpdates store task earlier
      match call.run reached.1 reached.2 with
      | (.ok updated, store) => (store, updated.getD reached.2)
      | (.error _, store) => (store, reached.2)

variable {store : InMemoryTaskStore} {task : Task} {call : UpdateCall}

/-- A write that keeps the state of the stored task is taken. -/
theorem update_of_state_eq {old : Task} (hold : store.get task.id = some old)
    (hstate : old.status.state = task.status.state) :
    ∃ version store', store.update task = (.ok version, store') ∧
      store'.get task.id = some task := by
  unfold InMemoryTaskStore.get at hold
  obtain ⟨entry, hentry, hold⟩ := Option.map_eq_some_iff.mp hold
  subst hold
  have hterm : entry.task.isTerminal = task.isTerminal := by
    unfold Task.isTerminal
    rw [hstate]
  -- a state that stays retires nothing
  have hretired : (!entry.task.isTerminal && task.isTerminal) = false := by
    rw [hterm]
    simp
  refine ⟨entry.version + 1, { store with tasks := store.tasks.put task (entry.version + 1) }, ?_, ?_⟩
  · simp only [InMemoryTaskStore.update, hentry, hretired]
    simp [hstate]
  · simp [InMemoryTaskStore.get, Tasks.put]

theorem saveTask_of_state_eq {old : Task} (now : DateTime) (hold : store.get task.id = some old)
    (hstate : old.status.state = task.status.state) :
    ∃ store', saveTask store now task = (.ok (task.backfill now), store') ∧
      store'.get task.id = some (task.backfill now) := by
  have hold' : store.get (task.backfill now).id = some old := hold
  obtain ⟨version, store', hupdate, hget⟩ := update_of_state_eq hold' hstate
  exact ⟨store', by simp only [saveTask, hupdate], hget⟩

/-- **One update**: refused with the store as it was, or applied and stored. -/
theorem UpdateCall.run_cases (hstored : store.get task.id = some task) (hnames : call.Names task) :
    (updateArtifacts (task.artifacts.getD []) call.update = none ∧
      call.run store task = (.error .invalidAgentResponse, store)) ∨
    ∃ artifacts store',
      updateArtifacts (task.artifacts.getD []) call.update = some artifacts ∧
      call.run store task =
        (.ok (some ({ task with artifacts := some artifacts }.backfill call.now)), store') ∧
      store'.get task.id = some ({ task with artifacts := some artifacts }.backfill call.now) := by
  have htask : taskForUpdate store (if call.loads then none else some task) call.update.taskId =
      .ok task := by
    unfold taskForUpdate
    cases hloads : call.loads with
    | false => rfl
    | true => simp [hnames hloads, hstored]
  cases hu : updateArtifacts (task.artifacts.getD []) call.update with
  | none =>
      have happly : applyArtifactUpdate task call.update = .error .invalidAgentResponse := by
        rw [applyArtifactUpdate_eq, hu]
      exact .inl ⟨rfl, by simp [UpdateCall.run, applyEventToTask, htask, Except.bind, foldEvent, happly]⟩
  | some artifacts =>
      have happly : applyArtifactUpdate task call.update =
          .ok { task with artifacts := some artifacts } := by
        rw [applyArtifactUpdate_eq, hu]
      have hold : store.get { task with artifacts := some artifacts }.id = some task := hstored
      obtain ⟨store', hsave, hget⟩ := saveTask_of_state_eq call.now hold rfl
      refine .inr ⟨artifacts, store', rfl, ?_, hget⟩
      simp [UpdateCall.run, applyEventToTask, htask, Except.bind, foldEvent, happly, hsave]

/-! ## after any updates -/

/-- What a stored task is after the updates. -/
structure ArtifactsFolded (task : Task) (calls : List UpdateCall) (store' : InMemoryTaskStore)
    (task' : Task) : Prop where
  stored : store'.get task.id = some task'
  /-- nothing but the artifacts changes, and a missing timestamp -/
  frame : task' = { task with
    artifacts := task'.artifacts
    status := { task.status with timestamp := task'.status.timestamp } }
  stamped : task.status.timestamp ≠ none → task'.status = task.status
  /-- the ids are in the order they first appear -/
  ids : task'.artifactIds = idsAfter task.artifactIds (calls.map (·.update))
  unique : task.artifactIds.Nodup → task'.artifactIds.Nodup
  /-- each artifact is what was sent of it since its last non-append update -/
  artifacts : ∀ id, Option.Rel Draft.Makes
    (draftAfter (task.artifacts.getD []) id (calls.map (·.update)))
    ((task'.artifacts.getD []).find? (·.artifactId == id))
  /-- an append to an artifact that is not there fails and changes nothing -/
  refused : ∀ call : UpdateCall, call.Names task → call.update.appends = true →
    call.update.about ∉ task'.artifactIds →
    call.run store' task' = (.error .invalidAgentResponse, store')
  /-- every other update is applied -/
  applied : ∀ call : UpdateCall, call.Names task →
    (call.update.appends = true → call.update.about ∈ task'.artifactIds) →
    ∃ next store'', call.run store' task' = (.ok (some next), store'')

/-- The stored task is the one the updates build up. -/
theorem applyUpdates_cases (hstored : store.get task.id = some task) {calls : List UpdateCall}
    (hnames : ∀ call ∈ calls, call.Names task) :
    (applyUpdates store task calls).1.get task.id = some (applyUpdates store task calls).2 ∧
    (applyUpdates store task calls).2 = { task with
      artifacts := (applyUpdates store task calls).2.artifacts
      status := { task.status with
        timestamp := (applyUpdates store task calls).2.status.timestamp } } ∧
    (task.status.timestamp ≠ none → (applyUpdates store task calls).2.status = task.status) ∧
    (applyUpdates store task calls).2.artifacts.getD [] =
      artifactsAfter (task.artifacts.getD []) (calls.map (·.update)) := by
  induction calls with
  | nil => exact ⟨hstored, rfl, fun _ => rfl, rfl⟩
  | cons call earlier ih =>
      obtain ⟨hget, hframe, hstamped, hartifacts⟩ :=
        ih fun c hc => hnames c (List.mem_cons_of_mem _ hc)
      have hid : (applyUpdates store task earlier).2.id = task.id := by rw [hframe]
      have hcall : call.Names (applyUpdates store task earlier).2 :=
        fun hl => (hnames call List.mem_cons_self hl).trans hid.symm
      rw [← hid] at hget
      simp only [applyUpdates, List.map_cons, artifactsAfter, ← hartifacts]
      rcases UpdateCall.run_cases hget hcall with ⟨hu, hrun⟩ | ⟨artifacts, store', hu, hrun, hget'⟩
      · rw [hrun, hu, Option.getD_none]
        exact ⟨hid ▸ hget, hframe, hstamped, rfl⟩
      · rw [hrun, hu, Option.getD_some]
        rw [← hid]
        refine ⟨hget', ?_, fun hts => ?_, rfl⟩
        · rw [hframe]
          rfl
        · have hkept := hstamped hts
          show ({ (applyUpdates store task earlier).2 with
            artifacts := some artifacts }.backfill call.now).status = task.status
          rw [Task.backfill_of_stamped (by rw [hkept]; exact hts)]
          exact hkept

/-- **The artifacts of a task are the fold of its artifact updates**: its
ids in the order they first appear, each artifact what its last non-append
update and the appends since make of it, and nothing else changed. -/
theorem artifacts_folded (hstored : store.get task.id = some task) {calls : List UpdateCall}
    (hnames : ∀ call ∈ calls, call.Names task) :
    ArtifactsFolded task calls (applyUpdates store task calls).1 (applyUpdates store task calls).2 := by
  obtain ⟨hget, hframe, hstamped, hartifacts⟩ := applyUpdates_cases hstored hnames
  have hids : (applyUpdates store task calls).2.artifactIds =
      idsAfter task.artifactIds (calls.map (·.update)) := by
    unfold Task.artifactIds
    rw [hartifacts, map_artifactsAfter]
  have hid : (applyUpdates store task calls).2.id = task.id := by rw [hframe]
  have hget' : (applyUpdates store task calls).1.get (applyUpdates store task calls).2.id =
      some (applyUpdates store task calls).2 := by rw [hid]; exact hget
  -- whether an id is there, as the code asks it
  have hknown (id : ArtifactId) : id ∈ (applyUpdates store task calls).2.artifactIds ↔
      ((applyUpdates store task calls).2.artifacts.getD []).find? (·.artifactId == id) ≠ none := by
    rw [Task.artifactIds, ← List.contains_iff_mem, ← any_artifactId, any_eq_isSome_find?,
      ← Option.isSome_iff_ne_none]
  exact {
    stored := hget
    frame := hframe
    stamped := hstamped
    ids := hids
    unique := fun h => hids ▸ nodup_idsAfter h _
    artifacts := fun id => by
      rw [hartifacts]
      exact find?_artifactsAfter _ id _
    refused := fun call hn happend hmissing => by
      rcases UpdateCall.run_cases hget' (fun hl => (hn hl).trans hid.symm) with
        ⟨_, hrun⟩ | ⟨artifacts, _, hu, _⟩
      · exact hrun
      · have hnone := updateArtifacts_eq_none.mpr
          ⟨happend, not_not.mp fun h => hmissing ((hknown _).mpr h)⟩
        rw [hu] at hnone
        contradiction
    applied := fun call hn hpresent => by
      rcases UpdateCall.run_cases hget' (fun hl => (hn hl).trans hid.symm) with
        ⟨hu, _⟩ | ⟨artifacts, store', _, hrun, _⟩
      · obtain ⟨happend, hnone⟩ := updateArtifacts_eq_none.mp hu
        exact absurd hnone ((hknown _).mp (hpresent happend))
      · exact ⟨_, store', hrun⟩ }

theorem get_create_new (task : Task) :
    ((InMemoryTaskStore.new none).create task).2.get task.id = some task := by
  rcases InMemoryTaskStore.create_cases (.new none) task with ⟨hne, _⟩ | ⟨_, store', hcreate, hwrote⟩
  · exact absurd (InMemoryTaskStore.get_new none task.id) hne
  · rw [hcreate, hwrote.get_of_unlimited rfl, if_pos rfl]

/-- An artifact with one text part. -/
def noteArtifact (name : Option String) (text : String) : Artifact :=
  ⟨"note", name, none, [.text text], none, none⟩

/-- An update of it for the task `t`. -/
def noteCall (append : Bool) (name : Option String) (text : String) : UpdateCall :=
  ⟨⟨"t", "c", noteArtifact name text, some append, none, none⟩, .unixEpoch, false⟩

def noteTask (artifacts : List Artifact) : Task :=
  ⟨"t", "c", ⟨.working, none, none⟩, some artifacts, none, none⟩

/-- A draft and a chunk of it that omits its name. -/
theorem artifacts_folded_note :
    ((InMemoryTaskStore.new none).create (noteTask [])).2.get "t" = some (noteTask []) ∧
      ArtifactsFolded (noteTask []) [noteCall true none "b", noteCall false (some "n") "a"]
        (applyUpdates ((InMemoryTaskStore.new none).create (noteTask [])).2 (noteTask [])
          [noteCall true none "b", noteCall false (some "n") "a"]).1
        (applyUpdates ((InMemoryTaskStore.new none).create (noteTask [])).2 (noteTask [])
          [noteCall true none "b", noteCall false (some "n") "a"]).2 := by
  refine ⟨get_create_new _, artifacts_folded (get_create_new _) fun call hc _ => ?_⟩
  simp only [List.mem_cons, List.not_mem_nil, or_false] at hc
  obtain rfl | rfl := hc <;> rfl

/-- A task that came with two artifacts of one id keeps them both. -/
theorem twinArtifacts_stay :
    ((InMemoryTaskStore.new none).create
        (noteTask [noteArtifact none "a", noteArtifact none "b"])).2.get "t" =
      some (noteTask [noteArtifact none "a", noteArtifact none "b"]) ∧
    ¬(applyUpdates ((InMemoryTaskStore.new none).create
          (noteTask [noteArtifact none "a", noteArtifact none "b"])).2
        (noteTask [noteArtifact none "a", noteArtifact none "b"])
        [noteCall false none "c"]).2.artifactIds.Nodup := by
  have hstored := get_create_new (noteTask [noteArtifact none "a", noteArtifact none "b"])
  obtain ⟨_, _, _, hartifacts⟩ := applyUpdates_cases hstored
    (List.forall_mem_singleton.mpr fun hloads : (noteCall false none "c").loads = true =>
      absurd hloads Bool.false_ne_true)
  refine ⟨hstored, ?_⟩
  unfold Task.artifactIds
  rw [hartifacts, map_artifactsAfter]
  decide

end A2a
