import A2a.Errors
import A2a.Routing

/-!
# A2a.Rest

The REST binding: the path and the body each operation of the client builds
(`a2a-client/src/rest.rs`), and what `rest_router` makes of a request
(`a2a-server/src/rest.rs`).

A `RestCall` is an operation with the ids it names; what else a request
carries, in its query or its body, has no part in where it goes.  A body is
ProtoJSON, in which an empty text is an absent one.
-/

namespace A2a

/-! ## operations and requests -/

/-- An operation, the tenant it is for and the ids it names. -/
inductive RestCall
  | sendMessage (tenant : Option String) (taskId : Option TaskId)
  | sendStreamingMessage (tenant : Option String) (taskId : Option TaskId)
  | getTask (tenant : Option String) (id : TaskId)
  | listTasks (tenant : Option String)
  | cancelTask (tenant : Option String) (id : TaskId)
  | subscribeToTask (tenant : Option String) (id : TaskId)
  | createPushConfig (tenant : Option String) (taskId : TaskId) (id : Option String)
  | getPushConfig (tenant : Option String) (taskId : TaskId) (id : String)
  | listPushConfigs (tenant : Option String) (taskId : TaskId)
  | deletePushConfig (tenant : Option String) (taskId : TaskId) (id : String)
  | getExtendedAgentCard (tenant : Option String)
deriving DecidableEq

inductive RestMethod
  | get
  | post
  | delete
deriving DecidableEq

/-- What a body says of whom it is about; a request without a body says
nothing. -/
structure RestBody where
  tenant : Option String
  taskId : TaskId
  configId : Option String

def RestBody.empty : RestBody := ⟨none, "", none⟩

structure RestRequest where
  method : RestMethod
  path : String
  body : RestBody

/-! ## the client -/

def restSendMessagePath : String := "/message:send"
def restStreamMessagePath : String := "/message:stream"
def restExtendedAgentCardPath : String := "/extendedAgentCard"

/-- An id as one segment of a path. -/
def segment (id : String) : String := percentEncode id

/-- `tenant_path`: the binding of a path under a tenant. -/
def tenantPath (tenant : Option String) (path : String) : String :=
  match tenant with
  | some tenant => if tenant ≠ "" then "/" ++ segment tenant ++ path else path
  | none => path

namespace RestTransport

/-- The request of an operation; `subscribe_to_task` makes another if this
one is refused. -/
def request : RestCall → RestRequest
  | .sendMessage tenant taskId =>
      ⟨.post, tenantPath tenant restSendMessagePath, ⟨tenant, taskId.getD "", none⟩⟩
  | .sendStreamingMessage tenant taskId =>
      ⟨.post, tenantPath tenant restStreamMessagePath, ⟨tenant, taskId.getD "", none⟩⟩
  | .getTask tenant id => ⟨.get, tenantPath tenant ("/tasks/" ++ segment id), .empty⟩
  | .listTasks tenant => ⟨.get, tenantPath tenant "/tasks", .empty⟩
  | .cancelTask tenant id =>
      ⟨.post, tenantPath tenant ("/tasks/" ++ segment id ++ ":cancel"), ⟨tenant, id, none⟩⟩
  | .subscribeToTask tenant id =>
      ⟨.get, tenantPath tenant ("/tasks/" ++ segment id ++ ":subscribe"), .empty⟩
  | .createPushConfig tenant taskId id =>
      ⟨.post, tenantPath tenant ("/tasks/" ++ segment taskId ++ "/pushNotificationConfigs"),
        ⟨tenant, taskId, id⟩⟩
  | .getPushConfig tenant taskId id =>
      ⟨.get, tenantPath tenant
        ("/tasks/" ++ segment taskId ++ "/pushNotificationConfigs/" ++ segment id), .empty⟩
  | .listPushConfigs tenant taskId =>
      ⟨.get, tenantPath tenant ("/tasks/" ++ segment taskId ++ "/pushNotificationConfigs"), .empty⟩
  | .deletePushConfig tenant taskId id =>
      ⟨.delete, tenantPath tenant
        ("/tasks/" ++ segment taskId ++ "/pushNotificationConfigs/" ++ segment id), .empty⟩
  | .getExtendedAgentCard tenant => ⟨.get, tenantPath tenant restExtendedAgentCardPath, .empty⟩

/-- The request `subscribe_to_task` makes of a server that does not know the
first. -/
def legacySubscribeRequest (tenant : Option String) (id : TaskId) : RestRequest :=
  ⟨.get, tenantPath tenant ("/tasks/" ++ segment id ++ "/subscribe"), .empty⟩

end RestTransport

/-! ## what the server refuses -/

inductive RestRejection
  | notFound
  | methodNotAllowed
  | pathRejection
  | error (error : A2AError)

/-- An error about one field of the body. -/
def invalidRequestBody (violation : FieldViolation) : A2AError :=
  { A2AError.invalidParams "invalid request body" with
    details := some [.badRequest [violation]] }

/-- `rest_payload_error_response`. -/
def restPayloadError (text : String) : RestRejection := .error (invalidRequestBody ⟨"", text⟩)

/-- `reconcile_tenant`: a body's tenant is the path's, or the path has
none. -/
def reconcileTenant (path body : Option String) : Except RestRejection (Option String) :=
  match path, body with
  | some path, some body =>
      if path ≠ body then
        .error (.error (invalidRequestBody
          ⟨"tenant", s!"tenant in the body ({body}) does not match the tenant in the path ({path})"⟩))
      else .ok (some path)
  | some path, none => .ok (some path)
  | none, body => .ok body

/-! ## the handlers -/

/-- `str::strip_suffix`. -/
def stripSuffix (trail s : String) : Option String :=
  if trail.toList.isSuffixOf s.toList then
    some (String.ofList (s.toList.take (s.toList.length - trail.toList.length)))
  else none

/-- The path of a task route. -/
structure TaskPath where
  tenant : Option String
  id : TaskId

def TaskPath.read (params : Captures) : Except RestRejection TaskPath :=
  match params.lookup "id" with
  | some id => .ok ⟨params.lookup "tenant", id⟩
  | none => .error .pathRejection

/-- The path of a push-config route. -/
structure PushConfigPath where
  tenant : Option String
  id : TaskId
  configId : String

def PushConfigPath.read (params : Captures) : Except RestRejection PushConfigPath :=
  match params.lookup "id", params.lookup "config_id" with
  | some id, some configId => .ok ⟨params.lookup "tenant", id, configId⟩
  | _, _ => .error .pathRejection

/-- `Option<Path<String>>`: the one parameter of a path, if it has one. -/
def pathString (params : Captures) : Option String := params.head?.map (·.2)

/-- What a handler calls, of the parameters of a path and a body. -/
abbrev RestHandler := Captures → RestBody → Except RestRejection RestCall

def handleSendMessage : RestHandler := fun params body => do
  let tenant ← reconcileTenant (pathString params) (body.tenant.bind emptyToNone)
  return .sendMessage tenant (emptyToNone body.taskId)

def handleStreamMessage : RestHandler := fun params body => do
  let tenant ← reconcileTenant (pathString params) (body.tenant.bind emptyToNone)
  return .sendStreamingMessage tenant (emptyToNone body.taskId)

def handleGetTaskOrSubscribe : RestHandler := fun params _ => do
  let path ← TaskPath.read params
  match stripSuffix ":subscribe" path.id with
  | some id => return .subscribeToTask path.tenant id
  | none => return .getTask path.tenant path.id

def handleListTasks : RestHandler := fun params _ => .ok (.listTasks (pathString params))

/-- `handle_cancel_task_inner`: the path names the task. -/
def handleCancelTaskInner (id : TaskId) (tenant : Option String) (body : RestBody) :
    Except RestRejection RestCall := do
  let tenant ← reconcileTenant tenant (body.tenant.bind emptyToNone)
  return .cancelTask tenant id

def handlePostTaskAction : RestHandler := fun params body => do
  let path ← TaskPath.read params
  match stripSuffix ":cancel" path.id with
  | some id => handleCancelTaskInner id path.tenant body
  | none =>
      match stripSuffix ":subscribe" path.id with
      | some id => return .subscribeToTask path.tenant id
      | none => .error (.error (.invalidRequest "unsupported task action"))

def handleCancelTaskLegacy : RestHandler := fun params body =>
  match pathString params with
  | some id => handleCancelTaskInner id none body
  | none => .error .pathRejection

def handleSubscribeToTaskLegacy : RestHandler := fun params _ =>
  match pathString params with
  | some id => .ok (.subscribeToTask none id)
  | none => .error .pathRejection

/-- `parse_create_push_config_request`: a task id in the body is the
path's. -/
def parseCreatePushConfigRequest (taskId : TaskId) (body : RestBody) :
    Except RestRejection (TaskId × Option String) :=
  if body.taskId ≠ "" ∧ body.taskId ≠ taskId then
    let named := body.taskId
    .error (restPayloadError
      s!"taskId in request body ({named}) did not match task id in path ({taskId})")
  else .ok (taskId, body.configId.bind emptyToNone)

def handleCreatePushConfig : RestHandler := fun params body => do
  let path ← TaskPath.read params
  let config ← parseCreatePushConfigRequest path.id body
  let tenant ← reconcileTenant path.tenant (body.tenant.bind emptyToNone)
  return .createPushConfig tenant config.1 config.2

def handleGetPushConfig : RestHandler := fun params _ => do
  let path ← PushConfigPath.read params
  return .getPushConfig path.tenant path.id path.configId

def handleListPushConfigs : RestHandler := fun params _ => do
  let path ← TaskPath.read params
  return .listPushConfigs path.tenant path.id

def handleDeletePushConfig : RestHandler := fun params _ => do
  let path ← PushConfigPath.read params
  return .deletePushConfig path.tenant path.id path.configId

def handleGetExtendedAgentCard : RestHandler := fun params _ =>
  .ok (.getExtendedAgentCard (pathString params))

/-! ## the router -/

/-- The handlers of a path, one for each method that has any. -/
structure MethodRouter where
  get : Option RestHandler := none
  post : Option RestHandler := none
  delete : Option RestHandler := none

def MethodRouter.handler (router : MethodRouter) : RestMethod → Option RestHandler
  | .get => router.get
  | .post => router.post
  | .delete => router.delete

/-- A path and its handlers. -/
def route (parts : List PathPart) (router : MethodRouter) :
    List PathPart × Captures × MethodRouter := (parts, [], router)

/-- `rest_router`. -/
def restRouter : List (List PathPart × Captures × MethodRouter) :=
  [route [.lit "message:send"] { post := handleSendMessage },
    route [.lit "message", .lit "send"] { post := handleSendMessage },
    route [.lit "message:stream"] { post := handleStreamMessage },
    route [.lit "message", .lit "stream"] { post := handleStreamMessage },
    route [.lit "tasks", .param "id"]
      { get := handleGetTaskOrSubscribe, post := handlePostTaskAction },
    route [.lit "tasks"] { get := handleListTasks },
    route [.lit "tasks", .param "id", .lit "cancel"] { post := handleCancelTaskLegacy },
    route [.lit "tasks", .param "id", .lit "subscribe"]
      { get := handleSubscribeToTaskLegacy, post := handleSubscribeToTaskLegacy },
    route [.lit "tasks", .param "id", .lit "pushNotificationConfigs"]
      { post := handleCreatePushConfig, get := handleListPushConfigs },
    route [.lit "tasks", .param "id", .lit "push-configs"]
      { post := handleCreatePushConfig, get := handleListPushConfigs },
    route [.lit "tasks", .param "id", .lit "pushNotificationConfigs", .param "config_id"]
      { get := handleGetPushConfig, delete := handleDeletePushConfig },
    route [.lit "tasks", .param "id", .lit "push-configs", .param "config_id"]
      { get := handleGetPushConfig, delete := handleDeletePushConfig },
    route [.lit "extendedAgentCard"] { get := handleGetExtendedAgentCard },
    route [.lit "agent-card", .lit "extended"] { get := handleGetExtendedAgentCard },
    -- every method again under a tenant
    route [.param "tenant", .lit "message:send"] { post := handleSendMessage },
    route [.param "tenant", .lit "message:stream"] { post := handleStreamMessage },
    route [.param "tenant", .lit "tasks", .param "id"]
      { get := handleGetTaskOrSubscribe, post := handlePostTaskAction },
    route [.param "tenant", .lit "tasks"] { get := handleListTasks },
    route [.param "tenant", .lit "tasks", .param "id", .lit "pushNotificationConfigs"]
      { post := handleCreatePushConfig, get := handleListPushConfigs },
    route [.param "tenant", .lit "tasks", .param "id", .lit "pushNotificationConfigs",
        .param "config_id"]
      { get := handleGetPushConfig, delete := handleDeletePushConfig },
    route [.param "tenant", .lit "extendedAgentCard"] { get := handleGetExtendedAgentCard }]

/-- The parameters of a path, decoded. -/
def decodeCaptures (captures : Captures) : Option Captures :=
  captures.mapM fun (name, seg) => (percentDecode seg).map (name, ·)

/-- What the router makes of the segments of a path. -/
def dispatchSegments (method : RestMethod) (segs : List String) (body : RestBody) :
    Except RestRejection RestCall :=
  match resolve segs restRouter with
  | none => .error .notFound
  | some (captures, router) =>
      match router.handler method with
      | none => .error .methodNotAllowed
      | some handler =>
          match decodeCaptures captures with
          | none => .error .pathRejection
          | some params => handler params body

/-- What the router makes of a request. -/
def dispatch (request : RestRequest) : Except RestRejection RestCall :=
  dispatchSegments request.method (urlSegments request.path) request.body

/-! ## lemmas -/

/-- What follows of a computation of two steps that ends well. -/
theorem Except.bind_ok {ε α β : Type} {x : Except ε α} {f : α → Except ε β} {b : β}
    (h : (x >>= f) = .ok b) : ∃ a, x = .ok a ∧ f a = .ok b := by
  cases x with
  | error e => cases h
  | ok a => exact ⟨a, rfl, h⟩

theorem mem_of_lookup {α β : Type} [BEq α] [LawfulBEq α] {entries : List (α × β)} {key : α}
    {value : β} (h : entries.lookup key = some value) : (key, value) ∈ entries := by
  obtain ⟨before, after, heq, -⟩ := List.lookup_eq_some_iff.mp h
  rw [heq]
  exact List.mem_append_right _ List.mem_cons_self

end A2a
