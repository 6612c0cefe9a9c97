import A2a.Proto
import A2a.AgentCard
import A2a.Format

/-!
# A2a.Pbconv

The conversions between the native types and the protobuf messages
(`a2a-pb/src/pbconv.rs`): values, timestamps, tasks and events, requests
and responses.  `A2a.Pbconv.AgentCard` has the rest.

The entries of a JSON object and of a nested `Struct` are listed in the
order of their keys, as the ordered maps of the source hold them.
-/

namespace A2a

/-! ## values -/

/-- `json_number`: a whole double of at most 2^53 is read as an integer, any
other finite one as it is. -/
def jsonNumber (x : F64) : Option Number :=
  match x.toExactInt? with
  | some n => some (.int n)
  | none => if x.isFinite then some (.float x) else none

/-- `Number::as_f64`. -/
def Number.asF64 : Number → F64
  | .int n => F64.ofInt n
  | .float bits => bits

mutual

/-- `json_value_to_proto_value`. -/
def jsonValueToProtoValue : Value → Proto.Value
  | .null => .nullValue 0
  | .bool b => .boolValue b
  | .number n => .numberValue n.asF64
  | .string s => .stringValue s
  | .array vs => .listValue (jsonValuesToProtoValues vs)
  | .object fields => .structValue (jsonFieldsToProtoFields fields)

def jsonValuesToProtoValues : List Value → List Proto.Value
  | [] => []
  | v :: vs => jsonValueToProtoValue v :: jsonValuesToProtoValues vs

def jsonFieldsToProtoFields : List (String × Value) → List (String × Proto.Value)
  | [] => []
  | (k, v) :: fields => (k, jsonValueToProtoValue v) :: jsonFieldsToProtoFields fields

end

mutual

/-- `proto_value_to_json_value`. -/
def protoValueToJsonValue : Proto.Value → Value
  | .none => .null
  | .nullValue _ => .null
  | .boolValue b => .bool b
  | .numberValue x => match jsonNumber x with
    | some n => .number n
    | none => .null
  | .stringValue s => .string s
  | .listValue vs => .array (protoValuesToJsonValues vs)
  | .structValue fields => .object (protoFieldsToJsonFields fields)

def protoValuesToJsonValues : List Proto.Value → List Value
  | [] => []
  | v :: vs => protoValueToJsonValue v :: protoValuesToJsonValues vs

def protoFieldsToJsonFields : List (String × Proto.Value) → List (String × Value)
  | [] => []
  | (k, v) :: fields => (k, protoValueToJsonValue v) :: protoFieldsToJsonFields fields

end

/-- `to_proto_struct`. -/
def toProtoStruct (value : Metadata) : Proto.Struct := mapValues jsonValueToProtoValue value

/-- `from_proto_struct`. -/
def fromProtoStruct (s : Proto.Struct) : Metadata := mapValues protoValueToJsonValue s

def optMetadataToProto (metadata : Option Metadata) : Option Proto.Struct :=
  metadata.map toProtoStruct

def optMetadataFromProto (s : Option Proto.Struct) : Option Metadata := s.map fromProtoStruct

/-! ## timestamps -/

def protoTimestampMinSeconds : Int := -62135596800

def protoTimestampMaxSeconds : Int := 253402300799

/-- `to_proto_timestamp`: nothing outside the range of a protobuf timestamp. -/
def toProtoTimestamp (dt : DateTime) : Option Proto.Timestamp :=
  if protoTimestampMinSeconds ≤ dt.seconds ∧ dt.seconds ≤ protoTimestampMaxSeconds then
    some ⟨dt.seconds, asI32 dt.nanos⟩
  else none

/-- `DateTime::from_timestamp`: the years chrono has, and a leap second only
as the last of a minute. -/
def DateTime.fromTimestamp (seconds : Int) (nanos : Nat) : Option DateTime :=
  if h : -8334601228800 ≤ seconds ∧ seconds ≤ 8210266876799 ∧
      (nanos < 1000000000 ∨ (nanos < 2000000000 ∧ seconds % 60 = 59)) then
    some ⟨seconds, nanos, by omega⟩
  else none

/-- `from_proto_timestamp`; the nanoseconds are read `as u32`. -/
def fromProtoTimestamp (ts : Proto.Timestamp) : Option DateTime :=
  DateTime.fromTimestamp ts.seconds (ts.nanos % 2 ^ 32).toNat

/-! ## scalars without presence -/

/-- `empty_to_none`. -/
def emptyToNone (s : String) : Option String := if s = "" then none else some s

/-- An empty repeated field is read as absent. -/
def emptyListToNone {α : Type} (xs : List α) : Option (List α) :=
  if xs.isEmpty then none else some xs

/-- A flag that is not set is read as absent. -/
def falseToNone (b : Bool) : Option Bool := if b then some true else none

/-- `non_positive_to_none`. -/
def nonPositiveToNone (value : Option Int) : Option Int := value.filter (0 < ·)

/-! ## enumerations -/

def toProtoRole : Role → Int
  | .unspecified => 0
  | .user => 1
  | .agent => 2

def fromProtoRole (v : Int) : Role :=
  if v = 1 then .user else if v = 2 then .agent else .unspecified

def toProtoTaskState : TaskState → Int
  | .unspecified => 0
  | .submitted => 1
  | .working => 2
  | .completed => 3
  | .failed => 4
  | .canceled => 5
  | .inputRequired => 6
  | .rejected => 7
  | .authRequired => 8

def fromProtoTaskState (v : Int) : TaskState :=
  if v = 1 then .submitted
  else if v = 2 then .working
  else if v = 3 then .completed
  else if v = 4 then .failed
  else if v = 5 then .canceled
  else if v = 6 then .inputRequired
  else if v = 7 then .rejected
  else if v = 8 then .authRequired
  else .unspecified

/-! ## messages and tasks -/

def toProtoPart (p : Part) : Proto.Part where
  content := match p.content with
    | .text t => some (.text t)
    | .raw r => some (.raw r)
    | .url u => some (.url u)
    | .data d => some (.data (jsonValueToProtoValue d))
  filename := p.filename.getD ""
  mediaType := p.mediaType.getD ""
  metadata := optMetadataToProto p.metadata

def fromProtoPart (p : Proto.Part) : Part where
  content := match p.content with
    | some (.text t) => .text t
    | some (.raw r) => .raw r
    | some (.url u) => .url u
    | some (.data d) => .data (protoValueToJsonValue d)
    | none => .text ""
  filename := emptyToNone p.filename
  mediaType := emptyToNone p.mediaType
  metadata := optMetadataFromProto p.metadata

def toProtoMessage (m : Message) : Proto.Message where
  messageId := m.messageId
  contextId := m.contextId.getD ""
  taskId := m.taskId.getD ""
  role := toProtoRole m.role
  parts := m.parts.map toProtoPart
  metadata := optMetadataToProto m.metadata
  extensions := m.extensions.getD []
  referenceTaskIds := m.referenceTaskIds.getD []

def fromProtoMessage (m : Proto.Message) : Message where
  messageId := m.messageId
  contextId := emptyToNone m.contextId
  taskId := emptyToNone m.taskId
  role := fromProtoRole m.role
  parts := m.parts.map fromProtoPart
  metadata := optMetadataFromProto m.metadata
  extensions := emptyListToNone m.extensions
  referenceTaskIds := emptyListToNone m.referenceTaskIds

def toProtoTaskStatus (s : TaskStatus) : Proto.TaskStatus where
  state := toProtoTaskState s.state
  message := s.message.map toProtoMessage
  timestamp := s.timestamp.bind toProtoTimestamp

def fromProtoTaskStatus (s : Proto.TaskStatus) : TaskStatus where
  state := fromProtoTaskState s.state
  message := s.message.map fromProtoMessage
  timestamp := s.timestamp.bind fromProtoTimestamp

def toProtoArtifact (a : Artifact) : Proto.Artifact where
  artifactId := a.artifactId
  name := a.name.getD ""
  description := a.description.getD ""
  parts := a.parts.map toProtoPart
  metadata := optMetadataToProto a.metadata
  extensions := a.extensions.getD []

def fromProtoArtifact (a : Proto.Artifact) : Artifact where
  artifactId := a.artifactId
  name := emptyToNone a.name
  description := emptyToNone a.description
  parts := a.parts.map fromProtoPart
  metadata := optMetadataFromProto a.metadata
  extensions := emptyListToNone a.extensions

def toProtoTask (t : Task) : Proto.Task where
  id := t.id
  contextId := t.contextId
  status := some (toProtoTaskStatus t.status)
  artifacts := (t.artifacts.map (·.map toProtoArtifact)).getD []
  history := (t.history.map (·.map toProtoMessage)).getD []
  metadata := optMetadataToProto t.metadata

def fromProtoTask (t : Proto.Task) : Task where
  id := t.id
  contextId := t.contextId
  status := (t.status.map fromProtoTaskStatus).getD ⟨.unspecified, none, none⟩
  artifacts := if t.artifacts.isEmpty then none else some (t.artifacts.map fromProtoArtifact)
  history := if t.history.isEmpty then none else some (t.history.map fromProtoMessage)
  metadata := optMetadataFromProto t.metadata

/-! ## push configurations -/

def toProtoAuthenticationInfo (a : AuthenticationInfo) : Proto.AuthenticationInfo where
  scheme := a.scheme
  credentials := a.credentials.getD ""

def fromProtoAuthenticationInfo (a : Proto.AuthenticationInfo) : AuthenticationInfo where
  scheme := a.scheme
  credentials := emptyToNone a.credentials

def toProtoTaskPushNotificationConfig (c : TaskPushNotificationConfig) :
    Proto.TaskPushNotificationConfig where
  tenant := c.tenant.getD ""
  id := c.id.getD ""
  taskId := c.taskId
  url := c.url
  token := c.token.getD ""
  authentication := c.authentication.map toProtoAuthenticationInfo

def fromProtoTaskPushNotificationConfig (c : Proto.TaskPushNotificationConfig) :
    TaskPushNotificationConfig where
  url := c.url
  id := emptyToNone c.id
  taskId := c.taskId
  token := emptyToNone c.token
  authentication := c.authentication.map fromProtoAuthenticationInfo
  tenant := emptyToNone c.tenant

def toProtoCreateTaskPushNotificationConfigRequest (r : TaskPushNotificationConfig) :
    Proto.TaskPushNotificationConfig := toProtoTaskPushNotificationConfig r

def fromProtoCreateTaskPushNotificationConfigRequest (r : Proto.TaskPushNotificationConfig) :
    TaskPushNotificationConfig := fromProtoTaskPushNotificationConfig r

/-! ## requests and responses -/

def toProtoSendMessageConfiguration (c : SendMessageConfiguration) :
    Proto.SendMessageConfiguration where
  acceptedOutputModes := c.acceptedOutputModes.getD []
  taskPushNotificationConfig := c.taskPushNotificationConfig.map toProtoTaskPushNotificationConfig
  historyLength := c.historyLength
  returnImmediately := c.returnImmediately.getD false

def fromProtoSendMessageConfiguration (c : Proto.SendMessageConfiguration) :
    SendMessageConfiguration where
  acceptedOutputModes := emptyListToNone c.acceptedOutputModes
  taskPushNotificationConfig := c.taskPushNotificationConfig.map fromProtoTaskPushNotificationConfig
  historyLength := c.historyLength
  returnImmediately := falseToNone c.returnImmediately

def toProtoSendMessageRequest (r : SendMessageRequest) : Proto.SendMessageRequest where
  tenant := r.tenant.getD ""
  message := some (toProtoMessage r.message)
  configuration := r.configuration.map toProtoSendMessageConfiguration
  metadata := optMetadataToProto r.metadata

/-- `newId` is the id generated for a message that is missing. -/
def fromProtoSendMessageRequest (newId : String) (r : Proto.SendMessageRequest) :
    SendMessageRequest where
  tenant := emptyToNone r.tenant
  message := (r.message.map fromProtoMessage).getD (Message.new newId .user [])
  configuration := r.configuration.map fromProtoSendMessageConfiguration
  metadata := optMetadataFromProto r.metadata

def toProtoGetTaskRequest (r : GetTaskRequest) : Proto.GetTaskRequest where
  tenant := r.tenant.getD ""
  id := r.id
  historyLength := r.historyLength

def fromProtoGetTaskRequest (r : Proto.GetTaskRequest) : GetTaskRequest where
  tenant := emptyToNone r.tenant
  id := r.id
  historyLength := r.historyLength

def toProtoListTasksRequest (r : ListTasksRequest) : Proto.ListTasksRequest where
  tenant := r.tenant.getD ""
  contextId := r.contextId.getD ""
  status := (r.status.map toProtoTaskState).getD 0
  pageSize := r.pageSize
  pageToken := r.pageToken.getD ""
  historyLength := r.historyLength
  statusTimestampAfter := r.statusTimestampAfter.bind toProtoTimestamp
  includeArtifacts := r.includeArtifacts

def fromProtoListTasksRequest (r : Proto.ListTasksRequest) : ListTasksRequest where
  tenant := emptyToNone r.tenant
  contextId := emptyToNone r.contextId
  status := if r.status = 0 then none else some (fromProtoTaskState r.status)
  pageSize := nonPositiveToNone r.pageSize
  pageToken := emptyToNone r.pageToken
  historyLength := r.historyLength
  statusTimestampAfter := r.statusTimestampAfter.bind fromProtoTimestamp
  includeArtifacts := r.includeArtifacts

def toProtoListTasksResponse (r : ListTasksResponse) : Proto.ListTasksResponse where
  tasks := r.tasks.map toProtoTask
  nextPageToken := r.nextPageToken
  pageSize := r.pageSize
  totalSize := r.totalSize

def fromProtoListTasksResponse (r : Proto.ListTasksResponse) : ListTasksResponse where
  tasks := r.tasks.map fromProtoTask
  nextPageToken := r.nextPageToken
  pageSize := r.pageSize
  totalSize := r.totalSize

def toProtoCancelTaskRequest (r : CancelTaskRequest) : Proto.CancelTaskRequest where
  tenant := r.tenant.getD ""
  id := r.id
  metadata := optMetadataToProto r.metadata

def fromProtoCancelTaskRequest (r : Proto.CancelTaskRequest) : CancelTaskRequest where
  tenant := emptyToNone r.tenant
  id := r.id
  metadata := optMetadataFromProto r.metadata

def toProtoSubscribeToTaskRequest (r : SubscribeToTaskRequest) : Proto.SubscribeToTaskRequest where
  tenant := r.tenant.getD ""
  id := r.id

def fromProtoSubscribeToTaskRequest (r : Proto.SubscribeToTaskRequest) :
    SubscribeToTaskRequest where
  tenant := emptyToNone r.tenant
  id := r.id

def toProtoGetExtendedAgentCardRequest (r : GetExtendedAgentCardRequest) :
    Proto.GetExtendedAgentCardRequest where
  tenant := r.tenant.getD ""

def fromProtoGetExtendedAgentCardRequest (r : Proto.GetExtendedAgentCardRequest) :
    GetExtendedAgentCardRequest where
  tenant := emptyToNone r.tenant

def toProtoGetTaskPushNotificationConfigRequest (r : GetTaskPushNotificationConfigRequest) :
    Proto.GetTaskPushNotificationConfigRequest where
  tenant := r.tenant.getD ""
  taskId := r.taskId
  id := r.id

def fromProtoGetTaskPushNotificationConfigRequest
    (r : Proto.GetTaskPushNotificationConfigRequest) : GetTaskPushNotificationConfigRequest where
  tenant := emptyToNone r.tenant
  taskId := r.taskId
  id := r.id

def toProtoDeleteTaskPushNotificationConfigRequest (r : DeleteTaskPushNotificationConfigRequest) :
    Proto.DeleteTaskPushNotificationConfigRequest where
  tenant := r.tenant.getD ""
  taskId := r.taskId
  id := r.id

def fromProtoDeleteTaskPushNotificationConfigRequest
    (r : Proto.DeleteTaskPushNotificationConfigRequest) :
    DeleteTaskPushNotificationConfigRequest where
  tenant := emptyToNone r.tenant
  taskId := r.taskId
  id := r.id

def toProtoListTaskPushNotificationConfigsRequest (r : ListTaskPushNotificationConfigsRequest) :
    Proto.ListTaskPushNotificationConfigsRequest where
  tenant := r.tenant.getD ""
  taskId := r.taskId
  pageSize := r.pageSize.getD 0
  pageToken := r.pageToken.getD ""

def fromProtoListTaskPushNotificationConfigsRequest
    (r : Proto.ListTaskPushNotificationConfigsRequest) :
    ListTaskPushNotificationConfigsRequest where
  tenant := emptyToNone r.tenant
  taskId := r.taskId
  pageSize := if r.pageSize = 0 then none else some r.pageSize
  pageToken := emptyToNone r.pageToken

def toProtoListTaskPushNotificationConfigsResponse (r : ListTaskPushNotificationConfigsResponse) :
    Proto.ListTaskPushNotificationConfigsResponse where
  configs := r.configs.map toProtoTaskPushNotificationConfig
  nextPageToken := r.nextPageToken.getD ""

def fromProtoListTaskPushNotificationConfigsResponse
    (r : Proto.ListTaskPushNotificationConfigsResponse) :
    ListTaskPushNotificationConfigsResponse where
  configs := r.configs.map fromProtoTaskPushNotificationConfig
  nextPageToken := emptyToNone r.nextPageToken

def toProtoSendMessageResponse (r : SendMessageResponse) : Proto.SendMessageResponse where
  payload := match r with
    | .task t => some (.task (toProtoTask t))
    | .message m => some (.message (toProtoMessage m))

def fromProtoSendMessageResponse (r : Proto.SendMessageResponse) : Option SendMessageResponse :=
  match r.payload with
  | some (.task t) => some (.task (fromProtoTask t))
  | some (.message m) => some (.message (fromProtoMessage m))
  | none => none

/-! ## events -/

def toProtoTaskStatusUpdateEvent (e : TaskStatusUpdateEvent) : Proto.TaskStatusUpdateEvent where
  taskId := e.taskId
  contextId := e.contextId
  status := some (toProtoTaskStatus e.status)
  metadata := optMetadataToProto e.metadata

def fromProtoTaskStatusUpdateEvent (e : Proto.TaskStatusUpdateEvent) : TaskStatusUpdateEvent where
  taskId := e.taskId
  contextId := e.contextId
  status := (e.status.map fromProtoTaskStatus).getD ⟨.unspecified, none, none⟩
  metadata := optMetadataFromProto e.metadata

def toProtoTaskArtifactUpdateEvent (e : TaskArtifactUpdateEvent) :
    Proto.TaskArtifactUpdateEvent where
  taskId := e.taskId
  contextId := e.contextId
  artifact := some (toProtoArtifact e.artifact)
  append := e.append.getD false
  lastChunk := e.lastChunk.getD false
  metadata := optMetadataToProto e.metadata

def fromProtoTaskArtifactUpdateEvent (e : Proto.TaskArtifactUpdateEvent) :
    TaskArtifactUpdateEvent where
  taskId := e.taskId
  contextId := e.contextId
  artifact := (e.artifact.map fromProtoArtifact).getD ⟨"", none, none, [], none, none⟩
  append := falseToNone e.append
  lastChunk := falseToNone e.lastChunk
  metadata := optMetadataFromProto e.metadata

def toProtoStreamResponse (r : StreamResponse) : Proto.StreamResponse where
  payload := match r with
    | .task t => some (.task (toProtoTask t))
    | .message m => some (.message (toProtoMessage m))
    | .statusUpdate s => some (.statusUpdate (toProtoTaskStatusUpdateEvent s))
    | .artifactUpdate a => some (.artifactUpdate (toProtoTaskArtifactUpdateEvent a))

def fromProtoStreamResponse (r : Proto.StreamResponse) : Option StreamResponse :=
  match r.payload with
  | some (.task t) => some (.task (fromProtoTask t))
  | some (.message m) => some (.message (fromProtoMessage m))
  | some (.statusUpdate s) => some (.statusUpdate (fromProtoTaskStatusUpdateEvent s))
  | some (.artifactUpdate a) => some (.artifactUpdate (fromProtoTaskArtifactUpdateEvent a))
  | none => none

end A2a
