import A2a.Handler

/-!
# A2a.StartExecution

A send from its call to the registration of its execution, with no other
call in between: `prepare_task_for_execution`, `save_request_push_config`
and `start_execution` in `a2a-server/src/handler.rs`.

Nothing is rolled back where a later step refuses.  `rejected_leaves_no_trace`
says exactly which refused sends leave the stores as they were.
-/

namespace A2a

/-- A call on the shared stores: it may fail, and what it wrote before stays. -/
abbrev Call := ExceptT A2AError (StateM Stores)

namespace Call

/-- A check that touches no store. -/
def check (result : Except A2AError α) : Call α := ExceptT.mk (pure result)

/-- `TaskStore::get`. -/
def getTask (id : TaskId) : Call (Option Task) := do
  return (← get).taskStore.get id

/-- `TaskStore::create`. -/
def createTask (task : Task) : Call TaskVersion :=
  ExceptT.mk <| modifyGet fun s =>
    ((s.taskStore.create task).1, { s with taskStore := (s.taskStore.create task).2 })

/-- The push configuration store's `save`, behind its capability. -/
def savePushConfig (h : Handler) (newId : String) (config : TaskPushNotificationConfig) :
    Call TaskPushNotificationConfig :=
  ExceptT.mk <| modifyGet fun s =>
    ((h.savePushConfig newId config s.pushConfigStore).1,
      { s with pushConfigStore := (h.savePushConfig newId config s.pushConfigStore).2 })

/-- `ExecutionManager::start`; `x` is the new execution. -/
def start (x : ExecId) (task : Task) : Call Unit :=
  ExceptT.mk <| modifyGet fun s =>
    match s.manager.start task.id x with
    | .error error => (.error error, s)
    | .ok (_, manager) => (.ok (), { s with manager := manager })

/-- `prepare_task_for_execution`. -/
def prepareTaskForExecution (fresh : Fresh) (req : SendMessageRequest) : Call Prepared := do
  let taskId := requestTaskId fresh req
  let prepared ← check (prepare fresh req taskId (← getTask taskId))
  if prepared.stored.isNone then
    let _ ← createTask prepared.task
  return prepared

/-- `save_request_push_config`. -/
def saveRequestPushConfig (h : Handler) (fresh : Fresh) (taskId : TaskId)
    (req : SendMessageRequest) : Call Unit := do
  match requestPushConfig taskId req with
  | none => return
  | some config =>
      let _ ← savePushConfig h fresh.configId config

/-- `send_message` (`streaming` for `send_streaming_message`) up to the
registration of its execution `x`, which runs on the task returned. -/
def startExecution (h : Handler) (params : ServiceParams) (fresh : Fresh) (x : ExecId)
    (streaming : Bool) (req : SendMessageRequest) : Call Prepared := do
  check (h.checkSend params streaming req)
  let prepared ← prepareTaskForExecution fresh req
  saveRequestPushConfig h fresh prepared.task.id req
  start x prepared.task
  return prepared

end Call

/-! ## which refused sends leave a trace -/

/-- Whether the request's push configuration, if it carries one, is saved. -/
def pushAccepted (h : Handler) (fresh : Fresh) (s : Stores) (taskId : TaskId)
    (req : SendMessageRequest) : Prop :=
  ∀ config, requestPushConfig taskId req = some config →
    h.requirePushNotifications = .ok () ∧
      ∃ store, s.pushConfigStore = some store ∧ store.accepts fresh.configId config

/-- Whether the store holds the request's push configuration, if it carries
one, just so. -/
def pushHeld (fresh : Fresh) (s : Stores) (taskId : TaskId) (req : SendMessageRequest) : Prop :=
  ∀ config, requestPushConfig taskId req = some config →
    ∃ store, s.pushConfigStore = some store ∧ store.holds fresh.configId config

/-- Whether a task has an execution registered. -/
def inProgress (s : Stores) (taskId : TaskId) : Prop := s.manager.executions taskId ≠ none

/-- A refused send that gets as far as a write: one that creates a task and
then has its push configuration refused or its id in use, or one that
continues a task, adds a push configuration, and then finds the task in
progress. -/
def refusedAfterWriting (h : Handler) (params : ServiceParams) (fresh : Fresh) (streaming : Bool)
    (req : SendMessageRequest) (s : Stores) : Prop :=
  let taskId := requestTaskId fresh req
  h.checkSend params streaming req = .ok () ∧
    ∃ prepared, prepare fresh req taskId (s.taskStore.get taskId) = .ok prepared ∧
      if prepared.stored.isNone then ¬ pushAccepted h fresh s taskId req ∨ inProgress s taskId
      else pushAccepted h fresh s taskId req ∧ inProgress s taskId ∧ ¬ pushHeld fresh s taskId req

/-! ## what each part of a send does -/

namespace Call

/-- The answer of a call and the stores it leaves. -/
def exec (call : Call α) (s : Stores) : Except A2AError α × Stores := StateT.run call.run s

variable {call : Call α} {next : α → Call β} {s s' : Stores} {h : Handler}

theorem exec_bind_ok (hc : call.exec s = (.ok a, s')) :
    (call >>= next).exec s = (next a).exec s' := by
  simp only [exec] at hc ⊢
  rw [ExceptT.run_bind, StateT.run_bind, hc]
  rfl

theorem exec_bind_error (hc : call.exec s = (.error error, s')) :
    (call >>= next).exec s = (.error error, s') := by
  simp only [exec] at hc ⊢
  rw [ExceptT.run_bind, StateT.run_bind, hc]
  rfl

@[simp] theorem exec_check (result : Except A2AError α) (s : Stores) :
    (check result).exec s = (result, s) := rfl

@[simp] theorem exec_pure (a : α) (s : Stores) : (pure a : Call α).exec s = (.ok a, s) := rfl

@[simp] theorem exec_getTask (id : TaskId) (s : Stores) :
    (getTask id).exec s = (.ok (s.taskStore.get id), s) := rfl

@[simp] theorem exec_createTask (task : Task) (s : Stores) :
    (createTask task).exec s =
      ((s.taskStore.create task).1, { s with taskStore := (s.taskStore.create task).2 }) := rfl

@[simp] theorem exec_savePushConfig (config : TaskPushNotificationConfig) (s : Stores) :
    (savePushConfig h newId config).exec s =
      ((h.savePushConfig newId config s.pushConfigStore).1,
        { s with pushConfigStore := (h.savePushConfig newId config s.pushConfigStore).2 }) := rfl

/-- A request that cannot be prepared writes nothing. -/
theorem exec_prepare_refused
    (hp : prepare fresh req (requestTaskId fresh req)
      (s.taskStore.get (requestTaskId fresh req)) = .error error) :
    (prepareTaskForExecution fresh req).exec s = (.error error, s) := by
  rw [prepareTaskForExecution, exec_bind_ok (exec_getTask _ _), hp]
  exact exec_bind_error (exec_check _ _)

/-- A continued task is not written yet. -/
theorem exec_prepare_continued
    (hp : prepare fresh req (requestTaskId fresh req)
      (s.taskStore.get (requestTaskId fresh req)) = .ok prepared)
    (hs : prepared.stored.isNone = false) :
    (prepareTaskForExecution fresh req).exec s = (.ok prepared, s) := by
  rw [prepareTaskForExecution, exec_bind_ok (exec_getTask _ _), hp,
    exec_bind_ok (exec_check _ _), hs]
  exact exec_bind_ok (exec_pure _ _)

/-- A new task is stored, in its SUBMITTED state. -/
theorem exec_prepare_created
    (hp : prepare fresh req (requestTaskId fresh req)
      (s.taskStore.get (requestTaskId fresh req)) = .ok prepared)
    (hs : prepared.stored.isNone = true) :
    ∃ store, (prepareTaskForExecution fresh req).exec s =
        (.ok prepared, { s with taskStore := store }) ∧ store ≠ s.taskStore ∧
      s.taskStore.create prepared.task = (.ok 1, store) := by
  obtain ⟨_, _, _, rfl⟩ | ⟨hget, _, rfl⟩ := prepare_ok hp
  · simp at hs
  · obtain ⟨hne, _⟩ | ⟨_, store, hc, hw⟩ := InMemoryTaskStore.create_cases s.taskStore
      (newTask fresh (requestTaskId fresh req) req.message)
    · exact absurd hget hne
    · refine ⟨store, ?_, fun he => ?_, hc⟩
      · rw [prepareTaskForExecution, exec_bind_ok (exec_getTask _ _), hp,
          exec_bind_ok (exec_check _ _), if_pos hs]
        have hcreate : (createTask (newTask fresh (requestTaskId fresh req) req.message)).exec s =
            (.ok 1, { s with taskStore := store }) := by
          rw [exec_createTask, hc]
        exact exec_bind_ok hcreate
      · have hself := hw.get_self rfl
        rw [he] at hself
        exact absurd (hget.symm.trans hself) (by simp)

/-- A push configuration that is not accepted ends the send, unsaved. -/
theorem exec_saveRequestPushConfig_refused (hna : ¬ pushAccepted h fresh s taskId req) :
    ∃ error, (saveRequestPushConfig h fresh taskId req).exec s = (.error error, s) := by
  simp only [pushAccepted, not_forall] at hna
  obtain ⟨config, hreq, hna⟩ := hna
  have hsave : ∃ error, (savePushConfig h fresh.configId config).exec s = (.error error, s) := by
    rw [exec_savePushConfig]
    cases hstore : s.pushConfigStore with
    | none =>
        simp only [Handler.savePushConfig]
        split <;> exact ⟨_, by rw [← hstore]⟩
    | some store =>
        simp only [Handler.savePushConfig]
        split
        · exact ⟨_, by rw [← hstore]⟩
        · next hok =>
            have hacc : ¬ store.accepts fresh.configId config :=
              fun hacc => hna ⟨hok, store, hstore, hacc⟩
            obtain ⟨error, he⟩ := InMemoryPushConfigStore.save_of_not_accepts hacc
            exact ⟨error, by rw [he, ← hstore]⟩
  obtain ⟨error, hsave⟩ := hsave
  refine ⟨error, ?_⟩
  rw [saveRequestPushConfig, hreq]
  exact exec_bind_error hsave

/-- An accepted one is saved, which changes the store unless it holds it. -/
theorem exec_saveRequestPushConfig_accepted (ha : pushAccepted h fresh s taskId req) :
    ∃ store, (saveRequestPushConfig h fresh taskId req).exec s =
        (.ok (), { s with pushConfigStore := store }) ∧
      (store = s.pushConfigStore ↔ pushHeld fresh s taskId req) := by
  cases hreq : requestPushConfig taskId req with
  | none =>
      refine ⟨s.pushConfigStore, by rw [saveRequestPushConfig, hreq]; rfl, fun _ => ?_, fun _ => rfl⟩
      intro config hc
      rw [hreq] at hc
      contradiction
  | some config =>
      obtain ⟨hok, store, hstore, hacc⟩ := ha config hreq
      obtain ⟨saved, store', hsave, hsame⟩ := InMemoryPushConfigStore.save_of_accepts hacc
      have hexec : (savePushConfig h fresh.configId config).exec s =
          (.ok saved, { s with pushConfigStore := some store' }) := by
        rw [exec_savePushConfig, hstore]
        simp only [Handler.savePushConfig, hok, hsave]
      refine ⟨some store', by rw [saveRequestPushConfig, hreq]; exact exec_bind_ok hexec, ?_⟩
      rw [hstore, Option.some.injEq, hsame]
      constructor
      · intro hheld config' hc
        rw [hreq, Option.some.injEq] at hc
        subst hc
        exact ⟨store, hstore, hheld⟩
      · intro hheld
        obtain ⟨store₁, hstore₁, hheld⟩ := hheld config hreq
        rw [hstore, Option.some.injEq] at hstore₁
        exact hstore₁ ▸ hheld

/-- `start` refuses a task in progress and writes to neither store. -/
theorem exec_start (x : ExecId) (task : Task) (s : Stores) :
    (inProgress s task.id ∧ ∃ error, (start x task).exec s = (.error error, s)) ∨
      (¬ inProgress s task.id ∧ ∃ manager, (start x task).exec s =
        (.ok (), { s with manager := manager })) := by
  have hstart : (start x task).exec s = match s.manager.start task.id x with
      | .error error => (.error error, s)
      | .ok (_, manager) => (.ok (), { s with manager := manager }) := rfl
  rw [hstart]
  cases hx : s.manager.executions task.id with
  | some y =>
      left
      refine ⟨by simp [inProgress, hx], ?_⟩
      simp only [ExecutionManager.start, hx, Option.isSome_some, if_true]
      exact ⟨_, rfl⟩
  | none =>
      right
      refine ⟨by simp [inProgress, hx], ?_⟩
      simp [ExecutionManager.start, hx]

end Call

open Call

/-- The task a request runs on is the one it was prepared under. -/
theorem prepare_id {s : Stores} {prepared : Prepared}
    (hp : prepare fresh req taskId (s.taskStore.get taskId) = .ok prepared) :
    prepared.task.id = taskId := by
  obtain ⟨t, hget, _, rfl⟩ | ⟨_, _, rfl⟩ := prepare_ok hp
  · have hid := InMemoryTaskStore.get_id hget
    exact hid
  · rfl

/-- Whether a refusal left both stores as they were. -/
def Untouched (s : Stores) : Except A2AError Prepared × Stores → Prop
  | (.error _, s') => s'.taskStore = s.taskStore ∧ s'.pushConfigStore = s.pushConfigStore
  | (.ok _, _) => True

variable {h : Handler} {s : Stores} {prepared : Prepared}

theorem refusedAfterWriting_of_prepared (hadm : h.checkSend params streaming req = .ok ())
    (hp : prepare fresh req (requestTaskId fresh req)
      (s.taskStore.get (requestTaskId fresh req)) = .ok prepared) :
    refusedAfterWriting h params fresh streaming req s ↔
      if prepared.stored.isNone then
        ¬ pushAccepted h fresh s prepared.task.id req ∨ inProgress s prepared.task.id
      else pushAccepted h fresh s prepared.task.id req ∧ inProgress s prepared.task.id ∧
        ¬ pushHeld fresh s prepared.task.id req := by
  rw [prepare_id hp]
  constructor
  · rintro ⟨_, prepared', hp', hif⟩
    obtain rfl := Except.ok.inj (hp'.symm.trans hp)
    exact hif
  · intro hif
    exact ⟨hadm, prepared, hp, hif⟩

/-- A send that creates its task leaves it behind, whatever refuses it. -/
theorem untouched_of_created {store : InMemoryTaskStore} (hne : store ≠ s.taskStore) :
    Untouched s ((do
      saveRequestPushConfig h fresh prepared.task.id req
      start x prepared.task
      return prepared : Call Prepared).exec { s with taskStore := store }) ↔
    ¬ (¬ pushAccepted h fresh s prepared.task.id req ∨ inProgress s prepared.task.id) := by
  by_cases ha : pushAccepted h fresh s prepared.task.id req
  · obtain ⟨push, hsave, _⟩ := exec_saveRequestPushConfig_accepted
      (h := h) (s := { s with taskStore := store }) ha
    rw [exec_bind_ok hsave]
    rcases exec_start x prepared.task { s with taskStore := store, pushConfigStore := push } with
      ⟨hprog, error, hst⟩ | ⟨hidle, manager, hst⟩
    · rw [exec_bind_error hst]
      simp only [Untouched, hne, false_and, false_iff, not_not]
      exact .inr hprog
    · rw [exec_bind_ok hst]
      simp only [exec_pure, Untouched, true_iff, not_or, not_not]
      exact ⟨ha, hidle⟩
  · obtain ⟨error, hsave⟩ := exec_saveRequestPushConfig_refused
      (h := h) (s := { s with taskStore := store }) ha
    rw [exec_bind_error hsave]
    simp [Untouched, hne, ha]

/-- A send that continues a task leaves behind what it saved before `start`
refused it. -/
theorem untouched_of_continued :
    Untouched s ((do
      saveRequestPushConfig h fresh prepared.task.id req
      start x prepared.task
      return prepared : Call Prepared).exec s) ↔
    ¬ (pushAccepted h fresh s prepared.task.id req ∧ inProgress s prepared.task.id ∧
      ¬ pushHeld fresh s prepared.task.id req) := by
  by_cases ha : pushAccepted h fresh s prepared.task.id req
  · obtain ⟨push, hsave, hheld⟩ := exec_saveRequestPushConfig_accepted ha
    rw [exec_bind_ok hsave]
    rcases exec_start x prepared.task { s with pushConfigStore := push } with
      ⟨hprog, error, hst⟩ | ⟨hidle, manager, hst⟩
    · have hprog : inProgress s prepared.task.id := hprog
      rw [exec_bind_error hst]
      simp only [Untouched, true_and, hheld, ha, hprog, not_not]
    · have hidle : ¬ inProgress s prepared.task.id := hidle
      rw [exec_bind_ok hst]
      simp [exec_pure, Untouched, hidle]
  · obtain ⟨error, hsave⟩ := exec_saveRequestPushConfig_refused ha
    rw [exec_bind_error hsave]
    simp [Untouched, ha]

/-- Past the preparation a send leaves the tasks alone. -/
theorem exec_register_taskStore (h : Handler) (fresh : Fresh) (x : ExecId)
    (req : SendMessageRequest) (prepared : Prepared) (s : Stores) :
    ∃ result manager push, ((do
      saveRequestPushConfig h fresh prepared.task.id req
      start x prepared.task
      return prepared : Call Prepared).exec s) =
        (result, { s with manager := manager, pushConfigStore := push }) ∧
      ∀ p, result = .ok p → p = prepared := by
  by_cases ha : pushAccepted h fresh s prepared.task.id req
  · obtain ⟨push, hsave, _⟩ := exec_saveRequestPushConfig_accepted ha
    rw [exec_bind_ok hsave]
    rcases exec_start x prepared.task { s with pushConfigStore := push } with
      ⟨_, error, hst⟩ | ⟨_, manager, hst⟩
    · rw [exec_bind_error hst]
      exact ⟨.error error, s.manager, push, rfl, by simp⟩
    · rw [exec_bind_ok hst]
      refine ⟨.ok prepared, manager, push, rfl, fun p hp => ?_⟩
      exact (Except.ok.inj hp).symm
  · obtain ⟨error, hsave⟩ := exec_saveRequestPushConfig_refused ha
    rw [exec_bind_error hsave]
    exact ⟨.error error, s.manager, s.pushConfigStore, rfl, by simp⟩

/-- **What a send does to the tasks** before its execution runs: nothing, or
it creates the task it was prepared for.  A continued task is not written. -/
theorem exec_startExecution_taskStore (h : Handler) (params : ServiceParams) (fresh : Fresh)
    (x : ExecId) (streaming : Bool) (req : SendMessageRequest) (s : Stores) :
    (((startExecution h params fresh x streaming req).exec s).2.taskStore = s.taskStore ∧
      ∀ p, ((startExecution h params fresh x streaming req).exec s).1 = .ok p →
        prepare fresh req (requestTaskId fresh req)
          (s.taskStore.get (requestTaskId fresh req)) = .ok p ∧ p.stored ≠ none) ∨
    ∃ p, prepare fresh req (requestTaskId fresh req)
        (s.taskStore.get (requestTaskId fresh req)) = .ok p ∧ p.stored = none ∧
      s.taskStore.create p.task =
        (.ok 1, ((startExecution h params fresh x streaming req).exec s).2.taskStore) ∧
      ∀ p', ((startExecution h params fresh x streaming req).exec s).1 = .ok p' → p' = p := by
  rw [startExecution]
  cases hadm : h.checkSend params streaming req with
  | error error =>
      rw [exec_bind_error (exec_check _ _)]
      exact .inl ⟨rfl, by simp⟩
  | ok _ =>
      rw [exec_bind_ok (exec_check _ _)]
      cases hp : prepare fresh req (requestTaskId fresh req)
          (s.taskStore.get (requestTaskId fresh req)) with
      | error error =>
          rw [exec_bind_error (exec_prepare_refused hp)]
          exact .inl ⟨rfl, by simp⟩
      | ok prepared =>
          cases hs : prepared.stored.isNone with
          | true =>
              obtain ⟨store, hexec, _, hcreate⟩ := exec_prepare_created hp hs
              rw [exec_bind_ok hexec]
              obtain ⟨result, manager, push, he, hok⟩ :=
                exec_register_taskStore h fresh x req prepared { s with taskStore := store }
              rw [he]
              exact .inr ⟨prepared, rfl, Option.isNone_iff_eq_none.mp hs, hcreate, hok⟩
          | false =>
              rw [exec_bind_ok (exec_prepare_continued hp hs)]
              obtain ⟨result, manager, push, he, hok⟩ :=
                exec_register_taskStore h fresh x req prepared s
              rw [he]
              refine .inl ⟨rfl, fun p hres => ?_⟩
              obtain rfl := hok p hres
              refine ⟨rfl, fun hnone => ?_⟩
              rw [hnone] at hs
              contradiction

/-- A send whose execution was registered continues a stored task, which it
has not written, or has just created its task. -/
theorem startExecution_ok
    (hs : (startExecution h params fresh x streaming req).exec s = (.ok prepared, s')) :
    prepared.task.id = requestTaskId fresh req ∧
    ((∃ old, prepared.stored = some old ∧ s.taskStore.get prepared.task.id = some old ∧
      old.isTerminal = false ∧ prepared.task = continueTask old req.message ∧
      s'.taskStore = s.taskStore) ∨
    (prepared.stored = none ∧ req.message.taskId = none ∧
      s.taskStore.get prepared.task.id = none ∧
      prepared.task = newTask fresh (requestTaskId fresh req) req.message ∧
      s.taskStore.create prepared.task = (.ok 1, s'.taskStore))) := by
  have hcases := exec_startExecution_taskStore h params fresh x streaming req s
  rw [hs] at hcases
  rcases hcases with ⟨hsame, hok⟩ | ⟨p, hp, hnone, hcreate, hok⟩
  · obtain ⟨hp, hstored⟩ := hok prepared rfl
    have hid := prepare_id hp
    refine ⟨hid, .inl ?_⟩
    rcases prepare_ok hp with ⟨old, hget, hlive, rfl⟩ | ⟨_, _, rfl⟩
    · exact ⟨old, rfl, by rw [hid, hget], hlive, rfl, hsame⟩
    · exact absurd rfl hstored
  · obtain rfl := hok prepared rfl
    have hid := prepare_id hp
    refine ⟨hid, .inr ?_⟩
    rcases prepare_ok hp with ⟨old, _, _, rfl⟩ | ⟨hget, hreq, rfl⟩
    · contradiction
    · exact ⟨rfl, hreq, by rw [hid, hget], rfl, hcreate⟩

/-- **A refused send leaves no trace**, unless it is refused after it wrote:
if a send is answered with an error before its execution is registered, the
task store and the push configuration store are the ones it found exactly
where `refusedAfterWriting` does not hold. -/
theorem rejected_leaves_no_trace (h : Handler) (params : ServiceParams) (fresh : Fresh)
    (x : ExecId) (streaming : Bool) (req : SendMessageRequest) (s : Stores) :
    Untouched s ((startExecution h params fresh x streaming req).exec s) ↔
      ¬ refusedAfterWriting h params fresh streaming req s := by
  rw [startExecution]
  cases hadm : h.checkSend params streaming req with
  | error error =>
      rw [exec_bind_error (exec_check _ _)]
      simp [Untouched, refusedAfterWriting, hadm]
  | ok _ =>
      rw [exec_bind_ok (exec_check _ _)]
      cases hp : prepare fresh req (requestTaskId fresh req)
          (s.taskStore.get (requestTaskId fresh req)) with
      | error error =>
          rw [exec_bind_error (exec_prepare_refused hp)]
          simp [Untouched, refusedAfterWriting, hp]
      | ok prepared =>
          rw [refusedAfterWriting_of_prepared hadm hp]
          cases hs : prepared.stored.isNone with
          | true =>
              obtain ⟨store, hcreate, hne, _⟩ := exec_prepare_created hp hs
              rw [exec_bind_ok hcreate]
              exact untouched_of_created hne
          | false =>
              rw [exec_bind_ok (exec_prepare_continued hp hs)]
              exact untouched_of_continued

/-- A send whose push configuration has no URL. -/
def sendWithBadPush : SendMessageRequest where
  message := .new "m" .user [.text "hello"]
  configuration := some ⟨none, some ⟨"", none, "", none, none, none⟩, none, none⟩
  metadata := none
  tenant := none

/-- Empty stores, with a push configuration store. -/
def emptyStores : Stores := ⟨.new none, some ⟨∅⟩, .empty⟩

/-- The answer to that send and the stores it leaves. -/
def badPushResult : Except A2AError Prepared × Stores :=
  (startExecution .new ∅ ⟨.unixEpoch, "t", "c", "a", "p"⟩ 0 false sendWithBadPush).exec emptyStores

/-- A refused send can leave a task behind: the URL is refused after the task
was created, and the task stays SUBMITTED. -/
theorem badPush_leaves_a_task :
    ¬ Untouched emptyStores badPushResult ∧ emptyStores.taskStore.get "t" = none ∧
      (badPushResult.2.taskStore.get "t").map (·.status.state) = some .submitted := by
  refine ⟨fun h => ?_, rfl, rfl⟩
  have hget := congrArg (fun store : InMemoryTaskStore => (store.get "t").isSome) h.1
  exact absurd hget (by decide)

end A2a
