import Mathlib.Data.Finmap
import Mathlib.Data.String.Basic

/-!
# A2a.Types

The data model of the protocol (`a2a/src/types.rs`, `event.rs`,
`errors.rs`): tasks with their status, artifacts and history, the four
streaming events, the requests the handler serves, and errors.

Hash maps are finite maps (`Finmap`), whose equality does not depend on an
order of insertion.  Integers keep the range of their Rust type only where
a computation depends on it.
-/

namespace A2a

/-! ## JSON values -/

/-- A JSON number as `serde_json` keeps it: an integer, or a double by its
bit pattern. -/
inductive Number
  | int (n : Int)
  | float (bits : UInt64)
  deriving DecidableEq, Repr

/-- A JSON value (`serde_json::Value`). -/
inductive Value
  | null
  | bool (b : Bool)
  | number (n : Number)
  | string (s : String)
  | array (vs : List Value)
  | object (fields : List (String × Value))

/-- A free-form metadata map, `HashMap<String, Value>`. -/
abbrev Metadata := Finmap fun _ : String => Value

/-- `HashMap::extend`: the entries of `new` win. -/
def Metadata.extend (old new : Metadata) : Metadata := new ∪ old

/-! ## identifiers and time -/

/-- `as i32` on a count. -/
def asI32 (n : Nat) : Int := (n : Int).bmod (2 ^ 32)

/-- Counts below 2^31 survive `as i32`. -/
theorem asI32_of_lt {n : Nat} (h : n < 2 ^ 31) : asI32 n = n := by
  have hn : (n : Int) < 2 ^ 31 := by exact_mod_cast h
  exact Int.bmod_eq_of_le (by omega) (by omega)

abbrev TaskId := String
abbrev ArtifactId := String

/-- An instant (`chrono::DateTime<Utc>`): whole seconds since the epoch and
the nanoseconds within the second, more than a second's worth in a leap
second. -/
structure DateTime where
  seconds : Int
  nanos : Nat
  nanos_lt : nanos < 2000000000
  deriving DecidableEq, Repr

/-- `DateTime::UNIX_EPOCH`. -/
def DateTime.unixEpoch : DateTime := ⟨0, 0, by decide⟩

/-- Instants are ordered by second, then by nanosecond. -/
instance : LT DateTime where
  lt a b := a.seconds < b.seconds ∨ (a.seconds = b.seconds ∧ a.nanos < b.nanos)

instance (a b : DateTime) : Decidable (a < b) :=
  inferInstanceAs (Decidable (a.seconds < b.seconds ∨ (a.seconds = b.seconds ∧ a.nanos < b.nanos)))

/-! ## messages -/

inductive Role
  | unspecified | user | agent
  deriving DecidableEq, Repr

inductive PartContent
  | text (s : String)
  | raw (bytes : List UInt8)
  | url (s : String)
  | data (v : Value)

structure Part where
  content : PartContent
  filename : Option String
  mediaType : Option String
  metadata : Option Metadata

/-- A part holding only text. -/
def Part.text (s : String) : Part := ⟨.text s, none, none, none⟩

/-- One message of a conversation. -/
structure Message where
  messageId : String
  contextId : Option String
  taskId : Option TaskId
  role : Role
  parts : List Part
  metadata : Option Metadata
  extensions : Option (List String)
  referenceTaskIds : Option (List TaskId)

/-- `Message::new`; the fresh id is an argument. -/
def Message.new (id : String) (role : Role) (parts : List Part) : Message :=
  ⟨id, none, none, role, parts, none, none, none⟩

/-! ## tasks -/

/-- The lifecycle state of a task. -/
inductive TaskState
  | unspecified | submitted | working | completed | failed
  | canceled | inputRequired | rejected | authRequired
  deriving DecidableEq, Repr

/-- The states in which no further change is permitted. -/
def TaskState.isTerminal : TaskState → Bool
  | .completed | .failed | .canceled | .rejected => true
  | _ => false

/-- The name `{:?}` prints for a state. -/
def TaskState.debugName : TaskState → String
  | .unspecified => "Unspecified"
  | .submitted => "Submitted"
  | .working => "Working"
  | .completed => "Completed"
  | .failed => "Failed"
  | .canceled => "Canceled"
  | .inputRequired => "InputRequired"
  | .rejected => "Rejected"
  | .authRequired => "AuthRequired"

structure TaskStatus where
  state : TaskState
  message : Option Message
  timestamp : Option DateTime

structure Artifact where
  artifactId : ArtifactId
  name : Option String
  description : Option String
  parts : List Part
  metadata : Option Metadata
  extensions : Option (List String)

structure Task where
  id : TaskId
  contextId : String
  status : TaskStatus
  artifacts : Option (List Artifact)
  history : Option (List Message)
  metadata : Option Metadata

/-- A task with no more than an id, a context and a state. -/
def makeTask (id contextId : String) (state : TaskState) : Task :=
  ⟨id, contextId, ⟨state, none, none⟩, none, none, none⟩

/-- Whether the task has reached a terminal state. -/
def Task.isTerminal (task : Task) : Bool := task.status.state.isTerminal

/-! ## streaming events -/

structure TaskStatusUpdateEvent where
  taskId : TaskId
  contextId : String
  status : TaskStatus
  metadata : Option Metadata

structure TaskArtifactUpdateEvent where
  taskId : TaskId
  contextId : String
  artifact : Artifact
  append : Option Bool
  lastChunk : Option Bool
  metadata : Option Metadata

/-- A streaming event. -/
inductive StreamResponse
  | task (task : Task)
  | message (message : Message)
  | statusUpdate (update : TaskStatusUpdateEvent)
  | artifactUpdate (update : TaskArtifactUpdateEvent)

/-- `is_terminal_event`: the event carries a terminal state. -/
def isTerminalEvent : StreamResponse → Bool
  | .task task => task.status.state.isTerminal
  | .statusUpdate update => update.status.state.isTerminal
  | _ => false

/-- `task_id_for_event`: the task an event names. -/
def taskIdForEvent : StreamResponse → Option TaskId
  | .task task => some task.id
  | .statusUpdate update => some update.taskId
  | .artifactUpdate update => some update.taskId
  | .message _ => none

/-- Whether the event is a direct answer rather than news of a task. -/
def StreamResponse.isMessage : StreamResponse → Bool
  | .message _ => true
  | _ => false

/-! ## errors -/

/-- A typed error detail: its type URL and its fields. -/
structure TypedDetail where
  typeUrl : String
  value : Metadata

/-- A protocol error (`A2AError`). -/
structure A2AError where
  code : Int
  message : String
  details : Option (List TypedDetail)

namespace ErrorCode

def taskNotFound : Int := -32001
def taskNotCancelable : Int := -32002
def pushNotificationNotSupported : Int := -32003
def unsupportedOperation : Int := -32004
def contentTypeNotSupported : Int := -32005
def invalidAgentResponse : Int := -32006
def extendedCardNotConfigured : Int := -32007
def extensionSupportRequired : Int := -32008
def versionNotSupported : Int := -32009
def parseError : Int := -32700
def invalidRequest : Int := -32600
def methodNotFound : Int := -32601
def invalidParams : Int := -32602
def internalError : Int := -32603

end ErrorCode

namespace A2AError

def new (code : Int) (message : String) : A2AError := ⟨code, message, none⟩

def taskNotFound (taskId : TaskId) : A2AError :=
  new ErrorCode.taskNotFound s!"task not found: {taskId}"

def taskNotCancelable (taskId : TaskId) : A2AError :=
  new ErrorCode.taskNotCancelable s!"task cannot be canceled: {taskId}"

def pushNotificationNotSupported : A2AError :=
  new ErrorCode.pushNotificationNotSupported "push notification not supported"

def unsupportedOperation (msg : String) : A2AError := new ErrorCode.unsupportedOperation msg

def contentTypeNotSupported : A2AError :=
  new ErrorCode.contentTypeNotSupported "incompatible content types"

def invalidAgentResponse : A2AError :=
  new ErrorCode.invalidAgentResponse "invalid agent response"

def extensionSupportRequired (uri : String) : A2AError :=
  new ErrorCode.extensionSupportRequired s!"extension support required: {uri}"

def internal (msg : String) : A2AError := new ErrorCode.internalError msg

def invalidParams (msg : String) : A2AError := new ErrorCode.invalidParams msg

def invalidRequest (msg : String) : A2AError := new ErrorCode.invalidRequest msg

end A2AError

/-- `sanitized_internal_error`: the detail goes to the log, the client sees
a generic message. -/
def sanitizedInternalError (_detail : String) : A2AError := .internal "Internal error"

/-! ## requests -/

structure AuthenticationInfo where
  scheme : String
  credentials : Option String
  deriving DecidableEq

/-- Where the events of a task are pushed to. -/
structure TaskPushNotificationConfig where
  url : String
  id : Option String
  taskId : TaskId
  token : Option String
  authentication : Option AuthenticationInfo
  tenant : Option String
  deriving DecidableEq

structure SendMessageConfiguration where
  acceptedOutputModes : Option (List String)
  taskPushNotificationConfig : Option TaskPushNotificationConfig
  historyLength : Option Int
  returnImmediately : Option Bool

structure SendMessageRequest where
  message : Message
  configuration : Option SendMessageConfiguration
  metadata : Option Metadata
  tenant : Option String

/-- What `send_message` answers with. -/
inductive SendMessageResponse
  | task (task : Task)
  | message (message : Message)

structure GetTaskRequest where
  id : TaskId
  historyLength : Option Int
  tenant : Option String

structure ListTasksRequest where
  contextId : Option String
  status : Option TaskState
  pageSize : Option Int
  pageToken : Option String
  historyLength : Option Int
  statusTimestampAfter : Option DateTime
  includeArtifacts : Option Bool
  tenant : Option String

structure ListTasksResponse where
  tasks : List Task
  nextPageToken : String
  pageSize : Int
  totalSize : Int

structure GetTaskPushNotificationConfigRequest where
  taskId : TaskId
  id : String
  tenant : Option String

structure DeleteTaskPushNotificationConfigRequest where
  taskId : TaskId
  id : String
  tenant : Option String

structure ListTaskPushNotificationConfigsRequest where
  taskId : TaskId
  pageSize : Option Int
  pageToken : Option String
  tenant : Option String

structure ListTaskPushNotificationConfigsResponse where
  configs : List TaskPushNotificationConfig
  nextPageToken : Option String

structure CancelTaskRequest where
  id : TaskId
  metadata : Option Metadata
  tenant : Option String

structure SubscribeToTaskRequest where
  id : TaskId
  tenant : Option String

structure GetExtendedAgentCardRequest where
  tenant : Option String

/-! ## the agent card -/

/-- A protocol extension the card declares. -/
structure AgentExtension where
  uri : String
  description : Option String
  required : Option Bool
  params : Option Metadata

/-- The capabilities the card declares; an absent one is not restricted. -/
structure AgentCapabilities where
  streaming : Option Bool
  pushNotifications : Option Bool
  extensions : Option (List AgentExtension)
  extendedAgentCard : Option Bool

/-! ## calls -/

/-- Service parameters: HTTP headers or gRPC metadata. -/
abbrev ServiceParams := Finmap fun _ : String => List String

/-- What an executor is given (`ExecutorContext`; its `user` is always
absent here). -/
structure ExecutorContext where
  message : Option Message
  taskId : TaskId
  storedTask : Option Task
  contextId : String
  metadata : Option Metadata
  serviceParams : ServiceParams
  tenant : Option String

end A2a
