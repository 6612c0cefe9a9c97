import A2a.Middleware
import A2a.Rest
import A2a.Sse

/-!
# A2a.Bindings

From a request to the handler, on each of the four servers: JSON-RPC
(`a2a-server/src/jsonrpc.rs`), REST (`a2a-server/src/rest.rs`), gRPC
(`a2a-grpc/src/server.rs`) and SLIMRPC (`a2a-slimrpc/src/server.rs`).

A server either calls the handler, with the parameters it found, or answers
by itself.  Three of them check the protocol version before; the question is
whether `check_a2a_version` accepts what a request that reaches the handler
asks for.
-/

namespace A2a

/-- A call of a `RequestHandler`. -/
inductive HandlerCall
  | sendMessage (req : SendMessageRequest)
  | sendStreamingMessage (req : SendMessageRequest)
  | getTask (req : GetTaskRequest)
  | listTasks (req : ListTasksRequest)
  | cancelTask (req : CancelTaskRequest)
  | subscribeToTask (req : SubscribeToTaskRequest)
  | createPushConfig (req : TaskPushNotificationConfig)
  | getPushConfig (req : GetTaskPushNotificationConfigRequest)
  | listPushConfigs (req : ListTaskPushNotificationConfigsRequest)
  | deletePushConfig (req : DeleteTaskPushNotificationConfigRequest)
  | getExtendedAgentCard (req : GetExtendedAgentCardRequest)

namespace Methods

def sendMessage : String := "SendMessage"
def sendStreamingMessage : String := "SendStreamingMessage"
def getTask : String := "GetTask"
def listTasks : String := "ListTasks"
def cancelTask : String := "CancelTask"
def subscribeToTask : String := "SubscribeToTask"
def createPushConfig : String := "CreateTaskPushNotificationConfig"
def getPushConfig : String := "GetTaskPushNotificationConfig"
def listPushConfigs : String := "ListTaskPushNotificationConfigs"
def deletePushConfig : String := "DeleteTaskPushNotificationConfig"
def getExtendedAgentCard : String := "GetExtendedAgentCard"

/-- `methods::is_streaming`. -/
def isStreaming (method : String) : Bool :=
  method = sendStreamingMessage || method = subscribeToTask

end Methods

/-! ## JSON-RPC -/

structure JsonRpcRequest where
  jsonrpc : String
  id : JsonRpcId
  method : String
  params : Option Value

/-- `protojson_conv::from_value`, for each type of request. -/
structure ProtoJson where
  sendMessageRequest : Value → Except String SendMessageRequest
  getTaskRequest : Value → Except String GetTaskRequest
  listTasksRequest : Value → Except String ListTasksRequest
  cancelTaskRequest : Value → Except String CancelTaskRequest
  subscribeToTaskRequest : Value → Except String SubscribeToTaskRequest
  taskPushNotificationConfig : Value → Except String TaskPushNotificationConfig
  getTaskPushNotificationConfigRequest : Value → Except String GetTaskPushNotificationConfigRequest
  listTaskPushNotificationConfigsRequest :
    Value → Except String ListTaskPushNotificationConfigsRequest
  deleteTaskPushNotificationConfigRequest :
    Value → Except String DeleteTaskPushNotificationConfigRequest
  getExtendedAgentCardRequest : Value → Except String GetExtendedAgentCardRequest

def A2AError.methodNotFound (method : String) : A2AError :=
  .new ErrorCode.methodNotFound s!"method not found: {method}"

/-- `params_or_empty`. -/
def JsonRpcRequest.paramsOrEmpty (request : JsonRpcRequest) : Value :=
  match request.params with
  | some .null => .object []
  | some params => params
  | none => .object []

/-- The call of the parameters a method takes, or what is wrong with them
(`invalid_params`). -/
def callOf {α : Type} (call : α → HandlerCall) : Except String α → Except A2AError HandlerCall
  | .ok req => .ok (call req)
  | .error error => .error (.invalidParams s!"invalid params: {error}")

/-- `handle_unary_request`, up to the handler. -/
def handleUnaryRequest (json : ProtoJson) (request : JsonRpcRequest) :
    Except A2AError HandlerCall :=
  let rawParams := request.paramsOrEmpty
  if request.method = Methods.sendMessage then
    callOf .sendMessage (json.sendMessageRequest rawParams)
  else if request.method = Methods.getTask then
    callOf .getTask (json.getTaskRequest rawParams)
  else if request.method = Methods.listTasks then
    callOf .listTasks (json.listTasksRequest rawParams)
  else if request.method = Methods.cancelTask then
    callOf .cancelTask (json.cancelTaskRequest rawParams)
  else if request.method = Methods.createPushConfig then
    callOf .createPushConfig (json.taskPushNotificationConfig rawParams)
  else if request.method = Methods.getPushConfig then
    callOf .getPushConfig (json.getTaskPushNotificationConfigRequest rawParams)
  else if request.method = Methods.listPushConfigs then
    callOf .listPushConfigs (json.listTaskPushNotificationConfigsRequest rawParams)
  else if request.method = Methods.deletePushConfig then
    callOf .deletePushConfig (json.deleteTaskPushNotificationConfigRequest rawParams)
  else if request.method = Methods.getExtendedAgentCard then
    callOf .getExtendedAgentCard (json.getExtendedAgentCardRequest rawParams)
  else if request.method = "" then .error (.invalidRequest "method is required")
  else .error (.methodNotFound request.method)

/-- `handle_streaming_request`, up to the handler. -/
def handleStreamingRequest (json : ProtoJson) (request : JsonRpcRequest) :
    Except A2AError HandlerCall :=
  let rawParams := request.paramsOrEmpty
  if request.method = Methods.sendStreamingMessage then
    callOf .sendStreamingMessage (json.sendMessageRequest rawParams)
  else if request.method = Methods.subscribeToTask then
    callOf .subscribeToTask (json.subscribeToTaskRequest rawParams)
  else .error (.methodNotFound request.method)

/-- The parameters of a request over HTTP, whose query was collected into a
`HashMap` (see `addQueryVersion`). -/
def httpParams (headers : HeaderMap) (query : Option (List (String × String))) : ServiceParams :=
  addQueryVersion (extractServiceParams headers) query

/-- `handle_jsonrpc`: what is called, of a body that was read or is answered
as malformed. -/
def handleJsonrpc (json : ProtoJson) (headers : HeaderMap) (query : Option (List (String × String)))
    (body : Except A2AError JsonRpcRequest) : Except A2AError (ServiceParams × HandlerCall) :=
  let params := httpParams headers query
  match body with
  | .error error => .error error
  | .ok request =>
      if request.jsonrpc ≠ "2.0" then .error (.invalidRequest "invalid jsonrpc version")
      else
        match checkA2aVersion params with
        | .error error => .error error
        | .ok _ =>
            (if Methods.isStreaming request.method then handleStreamingRequest json request
              else handleUnaryRequest json request).map fun call => (params, call)

/-! ## REST -/

/-- `validate_protocol_version`, ahead of the handlers of every path that is
routed. -/
def validateProtocolVersion (headers : HeaderMap) (query : Option (List (String × String)))
    (next : Except RestRejection (ServiceParams × RestCall)) :
    Except RestRejection (ServiceParams × RestCall) :=
  match checkA2aVersion (httpParams headers query) with
  | .ok _ => next
  | .error error => .error (.error error)

/-- A request as the REST server handles it.  `unread` is what the query or
the body is refused for where it cannot be read; the handler is given the
parameters of the headers alone. -/
def serveRest (headers : HeaderMap) (query : Option (List (String × String)))
    (unread : Option RestRejection) (request : RestRequest) :
    Except RestRejection (ServiceParams × RestCall) :=
  match resolve (urlSegments request.path) restRouter with
  | none => .error .notFound
  | some _ =>
      validateProtocolVersion headers query
        (match dispatch request, unread with
        | .ok call, none => .ok (extractServiceParams headers, call)
        | .ok _, some rejection => .error rejection
        | .error rejection, _ => .error rejection)

/-! ## gRPC -/

/-- A request to one of the methods of the service. -/
inductive GrpcRequest
  | sendMessage (req : Proto.SendMessageRequest)
  | sendStreamingMessage (req : Proto.SendMessageRequest)
  | getTask (req : Proto.GetTaskRequest)
  | listTasks (req : Proto.ListTasksRequest)
  | cancelTask (req : Proto.CancelTaskRequest)
  | subscribeToTask (req : Proto.SubscribeToTaskRequest)
  | createTaskPushNotificationConfig (req : Proto.TaskPushNotificationConfig)
  | getTaskPushNotificationConfig (req : Proto.GetTaskPushNotificationConfigRequest)
  | listTaskPushNotificationConfigs (req : Proto.ListTaskPushNotificationConfigsRequest)
  | getExtendedAgentCard (req : Proto.GetExtendedAgentCardRequest)
  | deleteTaskPushNotificationConfig (req : Proto.DeleteTaskPushNotificationConfigRequest)

namespace GrpcHandler

/-- What every method does before its handler: `validate_protocol_version` on
the parameters it found. -/
def serve (metadata : HeaderMap) (call : HandlerCall) :
    Except A2AError (ServiceParams × HandlerCall) := do
  let params := extractMetadataParams metadata
  checkA2aVersion params
  return (params, call)

variable (newId : String) (metadata : HeaderMap)

def sendMessage (req : Proto.SendMessageRequest) :=
  serve metadata (.sendMessage (fromProtoSendMessageRequest newId req))

def sendStreamingMessage (req : Proto.SendMessageRequest) :=
  serve metadata (.sendStreamingMessage (fromProtoSendMessageRequest newId req))

def getTask (req : Proto.GetTaskRequest) := serve metadata (.getTask (fromProtoGetTaskRequest req))

def listTasks (req : Proto.ListTasksRequest) :=
  serve metadata (.listTasks (fromProtoListTasksRequest req))

def cancelTask (req : Proto.CancelTaskRequest) :=
  serve metadata (.cancelTask (fromProtoCancelTaskRequest req))

def subscribeToTask (req : Proto.SubscribeToTaskRequest) :=
  serve metadata (.subscribeToTask (fromProtoSubscribeToTaskRequest req))

def createTaskPushNotificationConfig (req : Proto.TaskPushNotificationConfig) :=
  serve metadata (.createPushConfig (fromProtoCreateTaskPushNotificationConfigRequest req))

def getTaskPushNotificationConfig (req : Proto.GetTaskPushNotificationConfigRequest) :=
  serve metadata (.getPushConfig (fromProtoGetTaskPushNotificationConfigRequest req))

def listTaskPushNotificationConfigs (req : Proto.ListTaskPushNotificationConfigsRequest) :=
  serve metadata (.listPushConfigs (fromProtoListTaskPushNotificationConfigsRequest req))

def getExtendedAgentCard (req : Proto.GetExtendedAgentCardRequest) :=
  serve metadata (.getExtendedAgentCard (fromProtoGetExtendedAgentCardRequest req))

def deleteTaskPushNotificationConfig (req : Proto.DeleteTaskPushNotificationConfigRequest) :=
  serve metadata (.deletePushConfig (fromProtoDeleteTaskPushNotificationConfigRequest req))

/-- The method a request is for. -/
def handle : GrpcRequest → Except A2AError (ServiceParams × HandlerCall)
  | .sendMessage req => sendMessage newId metadata req
  | .sendStreamingMessage req => sendStreamingMessage newId metadata req
  | .getTask req => getTask metadata req
  | .listTasks req => listTasks metadata req
  | .cancelTask req => cancelTask metadata req
  | .subscribeToTask req => subscribeToTask metadata req
  | .createTaskPushNotificationConfig req => createTaskPushNotificationConfig metadata req
  | .getTaskPushNotificationConfig req => getTaskPushNotificationConfig metadata req
  | .listTaskPushNotificationConfigs req => listTaskPushNotificationConfigs metadata req
  | .getExtendedAgentCard req => getExtendedAgentCard metadata req
  | .deleteTaskPushNotificationConfig req => deleteTaskPushNotificationConfig metadata req

end GrpcHandler

/-! ## SLIMRPC -/

/-- `prost::Message::decode`, for each type of request. -/
structure ProtoDecode where
  sendMessageRequest : List UInt8 → Except String Proto.SendMessageRequest
  getTaskRequest : List UInt8 → Except String Proto.GetTaskRequest
  listTasksRequest : List UInt8 → Except String Proto.ListTasksRequest
  cancelTaskRequest : List UInt8 → Except String Proto.CancelTaskRequest
  subscribeToTaskRequest : List UInt8 → Except String Proto.SubscribeToTaskRequest
  taskPushNotificationConfig : List UInt8 → Except String Proto.TaskPushNotificationConfig
  getTaskPushNotificationConfigRequest :
    List UInt8 → Except String Proto.GetTaskPushNotificationConfigRequest
  listTaskPushNotificationConfigsRequest :
    List UInt8 → Except String Proto.ListTaskPushNotificationConfigsRequest
  deleteTaskPushNotificationConfigRequest :
    List UInt8 → Except String Proto.DeleteTaskPushNotificationConfigRequest
  getExtendedAgentCardRequest : List UInt8 → Except String Proto.GetExtendedAgentCardRequest

/-- What the SLIMRPC server answers by itself. -/
inductive SlimRejection
  | unimplemented
  | invalidArgument (message : String)

def a2aSlimrpcService : String := "lf.a2a.v1.A2AService"

/-- A request on a SLIMRPC session. -/
structure SlimRequest where
  service : String
  method : String
  metadata : SlimMetadata
  identity : CallerIdentity
  payload : List UInt8

namespace SlimRpcHandler

/-- `context_to_service_params`. -/
def params (keys : SlimKeys) (request : SlimRequest) : ServiceParams :=
  toServiceParams keys request.metadata request.identity

/-- What `register_unary_unary` and the two streaming registrations do before
their handler: `decode_proto_request`, and no more. -/
def serve {α : Type} (keys : SlimKeys) (typeName : String)
    (decode : List UInt8 → Except String α) (call : α → HandlerCall) (request : SlimRequest) :
    Except SlimRejection (ServiceParams × HandlerCall) :=
  match decode request.payload with
  | .ok req => .ok (params keys request, call req)
  | .error error => .error (.invalidArgument s!"invalid {typeName} payload: {error}")

/-- `register`: the methods of the service. -/
def handle (keys : SlimKeys) (proto : ProtoDecode) (newId : String) (request : SlimRequest) :
    Except SlimRejection (ServiceParams × HandlerCall) :=
  if request.service ≠ a2aSlimrpcService then .error .unimplemented
  else if request.method = Methods.sendMessage then
    serve keys "SendMessageRequest" proto.sendMessageRequest
      (fun req => .sendMessage (fromProtoSendMessageRequest newId req)) request
  else if request.method = Methods.sendStreamingMessage then
    serve keys "SendMessageRequest" proto.sendMessageRequest
      (fun req => .sendStreamingMessage (fromProtoSendMessageRequest newId req)) request
  else if request.method = Methods.getTask then
    serve keys "GetTaskRequest" proto.getTaskRequest
      (fun req => .getTask (fromProtoGetTaskRequest req)) request
  else if request.method = Methods.listTasks then
    serve keys "ListTasksRequest" proto.listTasksRequest
      (fun req => .listTasks (fromProtoListTasksRequest req)) request
  else if request.method = Methods.cancelTask then
    serve keys "CancelTaskRequest" proto.cancelTaskRequest
      (fun req => .cancelTask (fromProtoCancelTaskRequest req)) request
  else if request.method = Methods.subscribeToTask then
    serve keys "SubscribeToTaskRequest" proto.subscribeToTaskRequest
      (fun req => .subscribeToTask (fromProtoSubscribeToTaskRequest req)) request
  else if request.method = Methods.createPushConfig then
    serve keys "TaskPushNotificationConfig" proto.taskPushNotificationConfig
      (fun req => .createPushConfig (fromProtoCreateTaskPushNotificationConfigRequest req)) request
  else if request.method = Methods.getPushConfig then
    serve keys "GetTaskPushNotificationConfigRequest" proto.getTaskPushNotificationConfigRequest
      (fun req => .getPushConfig (fromProtoGetTaskPushNotificationConfigRequest req)) request
  else if request.method = Methods.listPushConfigs then
    serve keys "ListTaskPushNotificationConfigsRequest" proto.listTaskPushNotificationConfigsRequest
      (fun req => .listPushConfigs (fromProtoListTaskPushNotificationConfigsRequest req)) request
  else if request.method = Methods.getExtendedAgentCard then
    serve keys "GetExtendedAgentCardRequest" proto.getExtendedAgentCardRequest
      (fun req => .getExtendedAgentCard (fromProtoGetExtendedAgentCardRequest req)) request
  else if request.method = Methods.deletePushConfig then
    serve keys "DeleteTaskPushNotificationConfigRequest"
      proto.deleteTaskPushNotificationConfigRequest
      (fun req => .deletePushConfig (fromProtoDeleteTaskPushNotificationConfigRequest req)) request
  else .error .unimplemented

end SlimRpcHandler

end A2a
