import A2a.Events
import A2a.PushStore
import A2a.Registry

/-!
# A2a.Handler

What the request handler (`DefaultRequestHandler` in
`a2a-server/src/handler.rs`) decides without waiting for anyone: who may
call, what a send request makes of the stored task, which push
configuration it carries, and when a blocking send answers early.

The state it works on is `Stores`.  Ids and clock readings come from
outside, as `Fresh`.
-/

namespace A2a

/-! ## the handler -/

/-- How a handler was built. -/
structure Handler where
  capabilities : AgentCapabilities
  defaultInputModes : List String
  authorizer : Option (ServiceParams → Option TaskId → Except A2AError Unit)

/-- `DefaultRequestHandler::new`. -/
def Handler.new : Handler := ⟨⟨none, none, none, none⟩, [], none⟩

/-- The stores a handler shares between its calls, and the registry. -/
structure Stores where
  taskStore : InMemoryTaskStore
  pushConfigStore : Option InMemoryPushConfigStore
  manager : ExecutionManager

/-- A clock reading and newly generated ids (`Utc::now`, `new_task_id`,
`new_context_id`, `Message::new`, and the id of a push configuration). -/
structure Fresh where
  now : DateTime
  taskId : TaskId
  contextId : String
  messageId : String
  configId : String

/-! ## who may call -/

/-- `char::is_whitespace`: the Unicode property White_Space. -/
def isWhitespace (c : Char) : Bool :=
  let n := c.toNat
  (9 ≤ n && n ≤ 13) || n = 0x20 || n = 0x85 || n = 0xA0 || n = 0x1680 ||
    (0x2000 ≤ n && n ≤ 0x200A) || n = 0x2028 || n = 0x2029 || n = 0x202F || n = 0x205F || n = 0x3000

/-- `char::is_control`. -/
def isControl (c : Char) : Bool := c.toNat < 0x20 || (0x7F ≤ c.toNat && c.toNat < 0xA0)

/-- `str::trim`. -/
def trim (cs : List Char) : List Char :=
  ((cs.dropWhile isWhitespace).reverse.dropWhile isWhitespace).reverse

/-- The extensions a call activates: the values of its `A2A-Extensions`
parameter, repeated or separated by commas. -/
def activatedExtensions (params : ServiceParams) : List (List Char) :=
  ((params.lookup "a2a-extensions").getD []).flatMap fun value =>
    (value.toList.splitOn ',').map trim

namespace Handler

/-- `require_extensions`: the first required extension not activated is
refused. -/
def requireExtensions (h : Handler) (params : ServiceParams) : Except A2AError Unit :=
  match h.capabilities.extensions with
  | none => .ok ()
  | some extensions =>
      match extensions.find? fun ext =>
        ext.required = some true && !(activatedExtensions params).contains ext.uri.toList with
      | some missing => .error (.extensionSupportRequired missing.uri)
      | none => .ok ()

/-- `authorize`. -/
def authorize (h : Handler) (params : ServiceParams) (taskId : Option TaskId) :
    Except A2AError Unit :=
  match h.requireExtensions params with
  | .error error => .error error
  | .ok _ =>
      match h.authorizer with
      | some authorizer => authorizer params taskId
      | none => .ok ()

/-- `require_capability`: only an explicit `false` refuses. -/
def requireCapability (declared : Option Bool) (unsupported : A2AError) : Except A2AError Unit :=
  if declared = some false then .error unsupported else .ok ()

/-- `require_streaming`. -/
def requireStreaming (h : Handler) : Except A2AError Unit :=
  requireCapability h.capabilities.streaming
    (.unsupportedOperation "the agent card does not declare streaming")

/-- `require_push_notifications`. -/
def requirePushNotifications (h : Handler) : Except A2AError Unit :=
  requireCapability h.capabilities.pushNotifications .pushNotificationNotSupported

/-- `validate_content_types`: a declared, non-empty media type must be among
the input modes, unless there are none. -/
def validateContentTypes (h : Handler) (message : Message) : Except A2AError Unit :=
  if h.defaultInputModes = [] then .ok ()
  else if message.parts.all fun part =>
      part.mediaType.all fun mediaType => mediaType = "" || h.defaultInputModes.contains mediaType
    then .ok ()
  else .error .contentTypeNotSupported

/-- `push_config_store_checked` and the `save` it is called for. -/
def savePushConfig (h : Handler) (newId : String) (config : TaskPushNotificationConfig) :
    Option InMemoryPushConfigStore →
      Except A2AError TaskPushNotificationConfig × Option InMemoryPushConfigStore
  | none =>
      match h.requirePushNotifications with
      | .error error => (.error error, none)
      | .ok _ => (.error .pushNotificationNotSupported, none)
  | some store =>
      match h.requirePushNotifications with
      | .error error => (.error error, some store)
      | .ok _ => ((store.save newId config).1, some (store.save newId config).2)

/-- The checks a send passes before it reads any store. -/
def checkSend (h : Handler) (params : ServiceParams) (streaming : Bool) (req : SendMessageRequest) :
    Except A2AError Unit :=
  match h.authorize params req.message.taskId with
  | .error error => .error error
  | .ok _ =>
      match if streaming then h.requireStreaming else .ok () with
      | .error error => .error error
      | .ok _ => h.validateContentTypes req.message

end Handler

/-! ## what a send makes of the stored task -/

/-- The task a continuing send runs on: the agent's question, unless the
history has it, and the new message are appended to the history. -/
def continueTask (existing : Task) (message : Message) : Task :=
  let history := existing.history.getD []
  let asked := existing.status.message.filter fun asked =>
    history.all (·.messageId != asked.messageId)
  { existing with history := some (history ++ asked.toList ++ [message]) }

/-- The task a send without a task id creates. -/
def newTask (fresh : Fresh) (taskId : TaskId) (message : Message) : Task where
  id := taskId
  contextId := message.contextId.getD fresh.contextId
  status := ⟨.submitted, none, some fresh.now⟩
  artifacts := none
  history := some [message]
  metadata := none

/-- The task a request runs on, and what the store held of it. -/
structure Prepared where
  task : Task
  stored : Option Task

/-- `prepare_task_for_execution` between its read of the store and its
`create`, which a request with nothing stored still has to do. -/
def prepare (fresh : Fresh) (req : SendMessageRequest) (taskId : TaskId) :
    Option Task → Except A2AError Prepared
  | none =>
      if req.message.taskId.isSome then .error (.taskNotFound taskId)
      else .ok ⟨newTask fresh taskId req.message, none⟩
  | some stored =>
      if stored.isTerminal then
        .error (.unsupportedOperation s!"task {taskId} has already reached a terminal state")
      else
        match req.message.contextId with
        | some requested =>
            if requested ≠ stored.contextId then
              .error (.invalidParams (s!"contextId {requested} does not match task {taskId}, " ++
                s!"which belongs to context {stored.contextId}"))
            else .ok ⟨continueTask stored req.message, some stored⟩
        | none => .ok ⟨continueTask stored req.message, some stored⟩

/-- The id a request names, or a new one. -/
def requestTaskId (fresh : Fresh) (req : SendMessageRequest) : TaskId :=
  req.message.taskId.getD fresh.taskId

/-- The push configuration a request carries, bound to its task. -/
def requestPushConfig (taskId : TaskId) (req : SendMessageRequest) :
    Option TaskPushNotificationConfig :=
  (req.configuration.bind (·.taskPushNotificationConfig)).map fun config =>
    { config with taskId := taskId, tenant := config.tenant.or req.tenant }

/-- The history cap of a request. -/
def SendMessageRequest.historyLength (req : SendMessageRequest) : Option Int :=
  req.configuration.bind (·.historyLength)

/-- `should_interrupt_non_streaming`: the task a blocking send answers with
before its execution is over. -/
def shouldInterruptNonStreaming (req : SendMessageRequest) (event : StreamResponse) :
    Option TaskId :=
  if (req.configuration.bind (·.returnImmediately)).getD false then
    taskIdForEvent event
  else
    match event with
    | .task task => if task.status.state = .authRequired then some task.id else none
    | .statusUpdate update =>
        if update.status.state = .authRequired then some update.taskId else none
    | _ => none

/-! ## lemmas -/

@[simp] theorem continueTask_id (task : Task) (message : Message) :
    (continueTask task message).id = task.id := rfl

@[simp] theorem continueTask_status (task : Task) (message : Message) :
    (continueTask task message).status = task.status := rfl

@[simp] theorem continueTask_isTerminal (task : Task) (message : Message) :
    (continueTask task message).isTerminal = task.isTerminal := rfl

@[simp] theorem continueTask_artifactIds (task : Task) (message : Message) :
    (continueTask task message).artifactIds = task.artifactIds := rfl

theorem mem_messages_continueTask (task : Task) (message : Message) :
    message ∈ (continueTask task message).messages := by
  simp [Task.messages, continueTask]

/-- What a prepared request runs on: the stored task with its message
appended, or a new task. -/
theorem prepare_ok {stored : Option Task} {p : Prepared}
    (h : prepare fresh req taskId stored = .ok p) :
    (∃ t, stored = some t ∧ t.isTerminal = false ∧ p = ⟨continueTask t req.message, some t⟩) ∨
      (stored = none ∧ req.message.taskId = none ∧
        p = ⟨newTask fresh taskId req.message, none⟩) := by
  cases stored with
  | none =>
      simp only [prepare] at h
      split at h
      · contradiction
      · next hid =>
          refine .inr ⟨rfl, ?_, (Except.ok.inj h).symm⟩
          simpa using hid
  | some t =>
      simp only [prepare] at h
      split at h
      · contradiction
      · next hterm =>
          refine .inl ⟨t, rfl, by simpa using hterm, ?_⟩
          split at h
          · split at h
            · contradiction
            · exact (Except.ok.inj h).symm
          · exact (Except.ok.inj h).symm

end A2a
