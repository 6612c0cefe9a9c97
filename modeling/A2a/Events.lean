import A2a.TaskStore

/-!
# A2a.Events

How an executor's event changes a task (`backfill_status_timestamp`,
`apply_event_to_task`, `save_task`, the FAILED task of `fail_task` and
`status_update` in `a2a-server/src/handler.rs`).

`foldEvent` is what an event makes of a task.  `applyEventToTask` is the
source's function: the same, plus the store.
-/

namespace A2a

/-! ## timestamps -/

/-- Fill in a missing timestamp. -/
def TaskStatus.backfill (now : DateTime) (status : TaskStatus) : TaskStatus :=
  { status with timestamp := status.timestamp.or (some now) }

/-- Fill in a missing status timestamp. -/
def Task.backfill (now : DateTime) (task : Task) : Task :=
  { task with status := task.status.backfill now }

/-- `backfill_status_timestamp`. -/
def backfillStatusTimestamp (now : DateTime) : StreamResponse → StreamResponse
  | .task task => .task (task.backfill now)
  | .statusUpdate update => .statusUpdate { update with status := update.status.backfill now }
  | .artifactUpdate update => .artifactUpdate update
  | .message message => .message message

@[simp] theorem Task.backfill_id (now : DateTime) (task : Task) :
    (task.backfill now).id = task.id := rfl

@[simp] theorem Task.backfill_state (now : DateTime) (task : Task) :
    (task.backfill now).status.state = task.status.state := rfl

@[simp] theorem Task.backfill_isTerminal (now : DateTime) (task : Task) :
    (task.backfill now).isTerminal = task.isTerminal := rfl

@[simp] theorem Task.backfill_artifacts (now : DateTime) (task : Task) :
    (task.backfill now).artifacts = task.artifacts := rfl

@[simp] theorem Task.backfill_history (now : DateTime) (task : Task) :
    (task.backfill now).history = task.history := rfl

/-- A stamped status is left as it is. -/
theorem Task.backfill_of_stamped {task : Task} (h : task.status.timestamp ≠ none)
    (now : DateTime) : task.backfill now = task := by
  obtain ⟨t, ht⟩ := Option.ne_none_iff_exists'.mp h
  obtain ⟨id, ctx, ⟨state, message, timestamp⟩, artifacts, history, metadata⟩ := task
  subst ht
  rfl

theorem Task.backfill_stamped (now : DateTime) (task : Task) :
    (task.backfill now).status.timestamp ≠ none := by
  cases h : task.status.timestamp <;> simp [backfill, TaskStatus.backfill, h]

/-- The status an event carries. -/
def StreamResponse.status : StreamResponse → Option TaskStatus
  | .task next => some next.status
  | .statusUpdate update => some update.status
  | _ => none

@[simp] theorem isTerminalEvent_backfill (now : DateTime) (ev : StreamResponse) :
    isTerminalEvent (backfillStatusTimestamp now ev) = isTerminalEvent ev := by
  cases ev <;> rfl

@[simp] theorem taskIdForEvent_backfill (now : DateTime) (ev : StreamResponse) :
    taskIdForEvent (backfillStatusTimestamp now ev) = taskIdForEvent ev := by
  cases ev <;> rfl

@[simp] theorem isMessage_backfill (now : DateTime) (ev : StreamResponse) :
    (backfillStatusTimestamp now ev).isMessage = ev.isMessage := by
  cases ev <;> rfl

/-! ## artifacts -/

/-- Change the first artifact with the given id. -/
def modifyArtifact (id : ArtifactId) (f : Artifact → Artifact) : List Artifact → List Artifact
  | [] => []
  | a :: as => if a.artifactId = id then f a :: as else a :: modifyArtifact id f as

/-- What an appending update adds to an artifact: parts at the end, and
metadata whose new values win. -/
def extendArtifact (update : Artifact) (artifact : Artifact) : Artifact :=
  { artifact with
    parts := artifact.parts ++ update.parts
    metadata := match update.metadata with
      | none => artifact.metadata
      | some metadata => some ((artifact.metadata.getD ∅).extend metadata) }

/-- The artifact arm of `apply_event_to_task`: append to a known artifact,
replace it, or add a new one. -/
def applyArtifactUpdate (task : Task) (update : TaskArtifactUpdateEvent) :
    Except A2AError Task :=
  let artifacts := task.artifacts.getD []
  let known := artifacts.any (·.artifactId == update.artifact.artifactId)
  if update.append.getD false then
    if known then
      .ok { task with
        artifacts := some <|
          modifyArtifact update.artifact.artifactId (extendArtifact update.artifact) artifacts }
    else .error .invalidAgentResponse
  else if known then
    .ok { task with
      artifacts := some <|
        modifyArtifact update.artifact.artifactId (fun _ => update.artifact) artifacts }
  else .ok { task with artifacts := some (artifacts ++ [update.artifact]) }

/-- What an event makes of a task. -/
def foldEvent (task : Task) : StreamResponse → Except A2AError Task
  | .task next => .ok next
  | .statusUpdate update => .ok { task with status := update.status }
  | .artifactUpdate update => applyArtifactUpdate task update
  | .message _ => .ok task

/-! ## storing an event -/

/-- `save_task`: an update, or a create where the store has no such task.
The two meet the store one after the other. -/
def saveTask (store : InMemoryTaskStore) (now : DateTime) (task : Task) :
    Except A2AError Task × InMemoryTaskStore :=
  let task := task.backfill now
  match store.update task with
  | (.ok _, store) => (.ok task, store)
  | (.error error, store) =>
      if error.code = ErrorCode.taskNotFound then
        match store.create task with
        | (.ok _, store) => (.ok task, store)
        | (.error error, store) => (.error error, store)
      else (.error error, store)

/-- The task an update is applied to: the one at hand, or the stored one. -/
def taskForUpdate (store : InMemoryTaskStore) (current : Option Task) (taskId : TaskId) :
    Except A2AError Task :=
  match current with
  | some task => .ok task
  | none =>
      match store.get taskId with
      | some task => .ok task
      | none => .error (.taskNotFound taskId)

/-- `apply_event_to_task`. -/
def applyEventToTask (store : InMemoryTaskStore) (now : DateTime) (current : Option Task)
    (event : StreamResponse) : Except A2AError (Option Task) × InMemoryTaskStore :=
  let save (task : Except A2AError Task) :
      Except A2AError (Option Task) × InMemoryTaskStore :=
    match task with
    | .error error => (.error error, store)
    | .ok task =>
        match saveTask store now task with
        | (.ok task, store) => (.ok (some task), store)
        | (.error error, store) => (.error error, store)
  match event with
  | .task task => save (.ok task)
  | .statusUpdate update =>
      save ((taskForUpdate store current update.taskId).bind (foldEvent · event))
  | .artifactUpdate update =>
      save ((taskForUpdate store current update.taskId).bind (foldEvent · event))
  | .message _ => (.ok current, store)

/-! ## the handler's own transitions -/

/-- The task `fail_task` stores: FAILED, with the sanitized error as the
agent's message. -/
def failedTask (now : DateTime) (messageId : String) (task : Task) (error : A2AError) : Task :=
  let message := Message.new messageId .agent [.text (sanitizedInternalError error.message).message]
  { task with status := {
      state := .failed
      message := some { message with taskId := some task.id, contextId := some task.contextId }
      timestamp := some now } }

/-- `status_update`: the event that delivers a task's current status. -/
def statusUpdate (task : Task) : StreamResponse :=
  .statusUpdate ⟨task.id, task.contextId, task.status, none⟩

@[simp] theorem isTerminalEvent_statusUpdate (task : Task) :
    isTerminalEvent (statusUpdate task) = task.isTerminal := rfl

@[simp] theorem taskIdForEvent_statusUpdate (task : Task) :
    taskIdForEvent (statusUpdate task) = some task.id := rfl

@[simp] theorem failedTask_id (now : DateTime) (messageId : String) (task : Task)
    (error : A2AError) : (failedTask now messageId task error).id = task.id := rfl

@[simp] theorem failedTask_isTerminal (now : DateTime) (messageId : String) (task : Task)
    (error : A2AError) : (failedTask now messageId task error).isTerminal = true := rfl

@[simp] theorem failedTask_artifacts (now : DateTime) (messageId : String) (task : Task)
    (error : A2AError) :
    (failedTask now messageId task error).artifacts = task.artifacts := rfl

@[simp] theorem failedTask_history (now : DateTime) (messageId : String) (task : Task)
    (error : A2AError) : (failedTask now messageId task error).history = task.history := rfl

/-! ## what an event keeps -/

/-- The ids of a task's artifacts. -/
def Task.artifactIds (task : Task) : List ArtifactId := (task.artifacts.getD []).map (·.artifactId)

/-- The messages of a task's history. -/
def Task.messages (task : Task) : List Message := task.history.getD []

theorem map_modifyArtifact {id : ArtifactId} {f : Artifact → Artifact}
    (hf : ∀ a, a.artifactId = id → (f a).artifactId = id) (as : List Artifact) :
    (modifyArtifact id f as).map (·.artifactId) = as.map (·.artifactId) := by
  induction as with
  | nil => rfl
  | cons a as ih =>
      simp only [modifyArtifact]
      split
      · next ha => simp [hf a ha, ha]
      · simp [ih]

/-- An artifact update names an artifact the task then has, and loses none. -/
theorem artifactIds_applyArtifactUpdate {task task' : Task} {update : TaskArtifactUpdateEvent}
    (h : applyArtifactUpdate task update = .ok task') :
    task'.artifactIds = task.artifactIds ∨
      task'.artifactIds = task.artifactIds ++ [update.artifact.artifactId] := by
  simp only [applyArtifactUpdate] at h
  split at h
  · split at h
    · obtain rfl := Except.ok.inj h
      left
      exact map_modifyArtifact (f := extendArtifact update.artifact) (fun a ha => ha) _
    · contradiction
  · split at h
    · obtain rfl := Except.ok.inj h
      left
      exact map_modifyArtifact (f := fun _ => update.artifact) (fun _ _ => rfl) _
    · obtain rfl := Except.ok.inj h
      exact .inr (by simp [Task.artifactIds])

/-- An artifact update changes nothing but the artifacts. -/
theorem applyArtifactUpdate_frame {task task' : Task} {update : TaskArtifactUpdateEvent}
    (h : applyArtifactUpdate task update = .ok task') :
    task' = { task with artifacts := task'.artifacts } := by
  simp only [applyArtifactUpdate] at h
  split at h
  · split at h
    · obtain rfl := Except.ok.inj h; rfl
    · contradiction
  · split at h <;> (obtain rfl := Except.ok.inj h; rfl)

/-- Whether an event leaves artifacts and history to the task it is applied
to: every event but a whole task does. -/
def isDelta : StreamResponse → Bool
  | .task _ => false
  | _ => true

/-- A status or artifact update loses no artifact and no message. -/
theorem foldEvent_keeps {task task' : Task} {ev : StreamResponse} (hd : isDelta ev = true)
    (h : foldEvent task ev = .ok task') :
    task'.id = task.id ∧ (∀ a ∈ task.artifactIds, a ∈ task'.artifactIds) ∧
      task'.messages = task.messages := by
  cases ev with
  | task next => simp [isDelta] at hd
  | message message =>
      obtain rfl := Except.ok.inj h
      exact ⟨rfl, fun _ ha => ha, rfl⟩
  | statusUpdate update =>
      obtain rfl := Except.ok.inj h
      exact ⟨rfl, fun _ ha => ha, rfl⟩
  | artifactUpdate update =>
      have hframe := applyArtifactUpdate_frame h
      refine ⟨by rw [hframe], fun a ha => ?_, by rw [hframe]; rfl⟩
      rcases artifactIds_applyArtifactUpdate h with he | he
      · rw [he]; exact ha
      · rw [he]; exact List.mem_append_left _ ha

end A2a
