import A2a.F64
import Mathlib.Data.Finmap

/-!
# A2a.Proto

The protobuf messages of the protocol (`a2a-pb/proto/a2a.proto`) as their
generated types hold them, with the well-known types they use.

A scalar, string or repeated field has no presence: its default stands for
absence.  A field of message type, a `oneof` and a field marked `optional`
may be absent.  Enumerations are numbers.
-/

namespace A2a.Proto

/-! ## well-known types -/

/-- `google.protobuf.Value`: one kind of value, or none. -/
inductive Value
  | none
  | nullValue (n : Int)
  | boolValue (b : Bool)
  | numberValue (x : F64)
  | stringValue (s : String)
  | listValue (values : List Value)
  | structValue (fields : List (String × Value))

/-- `google.protobuf.Struct`. -/
abbrev Struct := Finmap fun _ : String => Value

/-- `google.protobuf.Timestamp`. -/
structure Timestamp where
  seconds : Int
  nanos : Int

/-! ## messages and tasks -/

inductive Part.Content
  | text (s : String)
  | raw (bytes : List UInt8)
  | url (s : String)
  | data (v : Value)

structure Part where
  content : Option Part.Content
  filename : String
  mediaType : String
  metadata : Option Struct

structure Message where
  messageId : String
  contextId : String
  taskId : String
  role : Int
  parts : List Part
  metadata : Option Struct
  extensions : List String
  referenceTaskIds : List String

structure TaskStatus where
  state : Int
  message : Option Message
  timestamp : Option Timestamp

structure Artifact where
  artifactId : String
  name : String
  description : String
  parts : List Part
  metadata : Option Struct
  extensions : List String

structure Task where
  id : String
  contextId : String
  status : Option TaskStatus
  artifacts : List Artifact
  history : List Message
  metadata : Option Struct

/-! ## requests and responses -/

structure AuthenticationInfo where
  scheme : String
  credentials : String

structure TaskPushNotificationConfig where
  tenant : String
  id : String
  taskId : String
  url : String
  token : String
  authentication : Option AuthenticationInfo

structure SendMessageConfiguration where
  acceptedOutputModes : List String
  taskPushNotificationConfig : Option TaskPushNotificationConfig
  historyLength : Option Int
  returnImmediately : Bool

structure SendMessageRequest where
  tenant : String
  message : Option Message
  configuration : Option SendMessageConfiguration
  metadata : Option Struct

structure GetTaskRequest where
  tenant : String
  id : String
  historyLength : Option Int

structure ListTasksRequest where
  tenant : String
  contextId : String
  status : Int
  pageSize : Option Int
  pageToken : String
  historyLength : Option Int
  statusTimestampAfter : Option Timestamp
  includeArtifacts : Option Bool

structure ListTasksResponse where
  tasks : List Task
  nextPageToken : String
  pageSize : Int
  totalSize : Int

structure CancelTaskRequest where
  tenant : String
  id : String
  metadata : Option Struct

structure SubscribeToTaskRequest where
  tenant : String
  id : String

structure GetExtendedAgentCardRequest where
  tenant : String

structure GetTaskPushNotificationConfigRequest where
  tenant : String
  taskId : String
  id : String

structure DeleteTaskPushNotificationConfigRequest where
  tenant : String
  taskId : String
  id : String

structure ListTaskPushNotificationConfigsRequest where
  tenant : String
  taskId : String
  pageSize : Int
  pageToken : String

structure ListTaskPushNotificationConfigsResponse where
  configs : List TaskPushNotificationConfig
  nextPageToken : String

inductive SendMessageResponse.Payload
  | task (task : Task)
  | message (message : Message)

structure SendMessageResponse where
  payload : Option SendMessageResponse.Payload

/-! ## events -/

structure TaskStatusUpdateEvent where
  taskId : String
  contextId : String
  status : Option TaskStatus
  metadata : Option Struct

structure TaskArtifactUpdateEvent where
  taskId : String
  contextId : String
  artifact : Option Artifact
  append : Bool
  lastChunk : Bool
  metadata : Option Struct

inductive StreamResponse.Payload
  | task (task : Task)
  | message (message : Message)
  | statusUpdate (update : TaskStatusUpdateEvent)
  | artifactUpdate (update : TaskArtifactUpdateEvent)

structure StreamResponse where
  payload : Option StreamResponse.Payload

/-! ## the agent card -/

structure AgentInterface where
  url : String
  protocolBinding : String
  tenant : String
  protocolVersion : String

structure AgentProvider where
  url : String
  organization : String

structure AgentExtension where
  uri : String
  description : String
  required : Bool
  params : Option Struct

structure AgentCapabilities where
  streaming : Option Bool
  pushNotifications : Option Bool
  extensions : List AgentExtension
  extendedAgentCard : Option Bool

structure StringList where
  list : List String

structure SecurityRequirement where
  schemes : Finmap fun _ : String => StringList

structure AgentSkill where
  id : String
  name : String
  description : String
  tags : List String
  examples : List String
  inputModes : List String
  outputModes : List String
  securityRequirements : List SecurityRequirement

structure AgentCardSignature where
  /-- `protected` -/
  protectedHeader : String
  signature : String
  header : Option Struct

structure ApiKeySecurityScheme where
  description : String
  location : String
  name : String

structure HttpAuthSecurityScheme where
  description : String
  scheme : String
  bearerFormat : String

structure AuthorizationCodeOAuthFlow where
  authorizationUrl : String
  tokenUrl : String
  refreshUrl : String
  scopes : Finmap fun _ : String => String
  pkceRequired : Bool

structure ClientCredentialsOAuthFlow where
  tokenUrl : String
  refreshUrl : String
  scopes : Finmap fun _ : String => String

structure ImplicitOAuthFlow where
  authorizationUrl : String
  refreshUrl : String
  scopes : Finmap fun _ : String => String

structure PasswordOAuthFlow where
  tokenUrl : String
  refreshUrl : String
  scopes : Finmap fun _ : String => String

structure DeviceCodeOAuthFlow where
  deviceAuthorizationUrl : String
  tokenUrl : String
  refreshUrl : String
  scopes : Finmap fun _ : String => String

inductive OAuthFlows.Flow
  | authorizationCode (flow : AuthorizationCodeOAuthFlow)
  | clientCredentials (flow : ClientCredentialsOAuthFlow)
  | implicit (flow : ImplicitOAuthFlow)
  | password (flow : PasswordOAuthFlow)
  | deviceCode (flow : DeviceCodeOAuthFlow)

structure OAuthFlows where
  flow : Option OAuthFlows.Flow

structure OAuth2SecurityScheme where
  description : String
  flows : Option OAuthFlows
  oauth2MetadataUrl : String

structure OpenIdConnectSecurityScheme where
  description : String
  openIdConnectUrl : String

structure MutualTlsSecurityScheme where
  description : String

inductive SecurityScheme.Scheme
  | apiKeySecurityScheme (scheme : ApiKeySecurityScheme)
  | httpAuthSecurityScheme (scheme : HttpAuthSecurityScheme)
  | oauth2SecurityScheme (scheme : OAuth2SecurityScheme)
  | openIdConnectSecurityScheme (scheme : OpenIdConnectSecurityScheme)
  | mtlsSecurityScheme (scheme : MutualTlsSecurityScheme)

structure SecurityScheme where
  scheme : Option SecurityScheme.Scheme

structure AgentCard where
  name : String
  description : String
  supportedInterfaces : List AgentInterface
  provider : Option AgentProvider
  version : String
  documentationUrl : Option String
  capabilities : Option AgentCapabilities
  securitySchemes : Finmap fun _ : String => SecurityScheme
  securityRequirements : List SecurityRequirement
  defaultInputModes : List String
  defaultOutputModes : List String
  skills : List AgentSkill
  signatures : List AgentCardSignature
  iconUrl : Option String

end A2a.Proto
