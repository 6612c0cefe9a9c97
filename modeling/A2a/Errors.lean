import A2a.ErrorDetails
import A2a.Pbconv

/-!
# A2a.Errors

How an error travels over each transport: as a JSON-RPC error object
(`a2a/src/errors.rs`, `a2a-client/src/jsonrpc.rs`), as the body of a REST
response (`a2a-server/src/rest.rs`, `a2a-client/src/rest.rs`) and as a gRPC
status (`a2a-grpc/src/errors.rs`).

Each writer replaces the `ErrorInfo` details by one that names the code;
each reader hands what arrived to `a2aErrorFromDetails`.  Times are
arguments, as they are written.
-/

namespace A2a

/-! ## codes and reasons -/

/-- The codes of the protocol. -/
def ErrorCode.table : List Int :=
  [taskNotFound, taskNotCancelable, pushNotificationNotSupported, unsupportedOperation,
    contentTypeNotSupported, invalidAgentResponse, extendedCardNotConfigured,
    extensionSupportRequired, versionNotSupported, parseError, invalidRequest, methodNotFound,
    invalidParams, internalError]

/-- `error_reason`. -/
def errorReason (code : Int) : String :=
  if code = ErrorCode.taskNotFound then "TASK_NOT_FOUND"
  else if code = ErrorCode.taskNotCancelable then "TASK_NOT_CANCELABLE"
  else if code = ErrorCode.pushNotificationNotSupported then "PUSH_NOTIFICATION_NOT_SUPPORTED"
  else if code = ErrorCode.unsupportedOperation then "UNSUPPORTED_OPERATION"
  else if code = ErrorCode.contentTypeNotSupported then "CONTENT_TYPE_NOT_SUPPORTED"
  else if code = ErrorCode.invalidAgentResponse then "INVALID_AGENT_RESPONSE"
  else if code = ErrorCode.extendedCardNotConfigured then "EXTENDED_AGENT_CARD_NOT_CONFIGURED"
  else if code = ErrorCode.extensionSupportRequired then "EXTENSION_SUPPORT_REQUIRED"
  else if code = ErrorCode.versionNotSupported then "VERSION_NOT_SUPPORTED"
  else if code = ErrorCode.parseError then "PARSE_ERROR"
  else if code = ErrorCode.invalidRequest then "INVALID_REQUEST"
  else if code = ErrorCode.methodNotFound then "METHOD_NOT_FOUND"
  else if code = ErrorCode.invalidParams then "INVALID_PARAMS"
  else "INTERNAL_ERROR"

/-- `reason_to_error_code`. -/
def reasonToErrorCode (reason : String) : Option Int :=
  if reason = "TASK_NOT_FOUND" then some ErrorCode.taskNotFound
  else if reason = "TASK_NOT_CANCELABLE" then some ErrorCode.taskNotCancelable
  else if reason = "PUSH_NOTIFICATION_NOT_SUPPORTED" then
    some ErrorCode.pushNotificationNotSupported
  else if reason = "UNSUPPORTED_OPERATION" then some ErrorCode.unsupportedOperation
  else if reason = "UNSUPPORTED_CONTENT_TYPE" ∨ reason = "CONTENT_TYPE_NOT_SUPPORTED" then
    some ErrorCode.contentTypeNotSupported
  else if reason = "INVALID_AGENT_RESPONSE" then some ErrorCode.invalidAgentResponse
  else if reason = "EXTENDED_AGENT_CARD_NOT_CONFIGURED" ∨
      reason = "EXTENDED_CARD_NOT_CONFIGURED" then
    some ErrorCode.extendedCardNotConfigured
  else if reason = "EXTENSION_SUPPORT_REQUIRED" then some ErrorCode.extensionSupportRequired
  else if reason = "VERSION_NOT_SUPPORTED" then some ErrorCode.versionNotSupported
  else if reason = "PARSE_ERROR" then some ErrorCode.parseError
  else if reason = "INVALID_REQUEST" then some ErrorCode.invalidRequest
  else if reason = "METHOD_NOT_FOUND" then some ErrorCode.methodNotFound
  else if reason = "INVALID_PARAMS" then some ErrorCode.invalidParams
  else if reason = "INTERNAL_ERROR" then some ErrorCode.internalError
  else none

/-- Each code is named by its reason. -/
theorem reasonToErrorCode_errorReason :
    ∀ code ∈ ErrorCode.table, reasonToErrorCode (errorReason code) = some code := by
  decide

/-! ## what a client makes of details -/

/-- The text a violation is reported with. -/
def FieldViolation.text (v : FieldViolation) : String :=
  if v.field = "" then v.description else s!"{v.field}: {v.description}"

/-- A message with the violations of one detail appended. -/
def appendViolations (message : String) (detail : TypedDetail) : String :=
  let texts := detail.violations.map FieldViolation.text
  if texts.isEmpty then message
  else
    let joined := "; ".intercalate texts
    s!"{message}: {joined}"

/-- The details of one type. -/
def ofType (typeUrl : String) (details : List TypedDetail) : List TypedDetail :=
  details.filter (·.typeUrl = typeUrl)

/-- `protocol_error_code`: the last protocol `ErrorInfo` with a known
reason. -/
def protocolErrorCode (details : List TypedDetail) : Option Int :=
  (((ofType errorInfoType details).filter fun detail =>
      (detail.value.lookup "domain").bind Value.asStr = some protocolDomain).filterMap fun detail =>
    ((detail.value.lookup "reason").bind Value.asStr).bind reasonToErrorCode).getLast?

/-- `a2a_error_from_details`. -/
def a2aErrorFromDetails (code : Int) (message : String) (details : List TypedDetail) : A2AError where
  code := (protocolErrorCode details).getD
    (if !(ofType badRequestType details).isEmpty ∧ code = ErrorCode.internalError then
      ErrorCode.invalidParams
    else code)
  message := (ofType badRequestType details).foldl appendViolations message
  details := if details.isEmpty then none else some details

/-! ## JSON-RPC -/

/-- `entry(k).or_insert(v)` on the entries of an object. -/
def orInsert : List (String × Value) → String × Value → List (String × Value)
  | [], field => [field]
  | head :: fields, field =>
      if field.1 = head.1 then head :: fields
      else if field.1 < head.1 then field :: head :: fields
      else head :: orInsert fields field

/-- The metadata entries `existing` adds to `info`. -/
def TypedDetail.addMetadata (info existing : TypedDetail) : TypedDetail :=
  match (existing.value.lookup "metadata").bind Value.asObject,
    (info.value.lookup "metadata").bind Value.asObject with
  | some theirs, some ours =>
      { info with value := info.value.insert "metadata" (.object (theirs.foldl orInsert ours)) }
  | _, _ => info

/-- A JSON-RPC error object. -/
structure JsonRpcError where
  code : Int
  message : String
  data : Option Value

/-- The details that are not replaced. -/
def A2AError.kept (error : A2AError) : List TypedDetail :=
  (error.details.getD []).filter (·.typeUrl ≠ errorInfoType)

/-- The `ErrorInfo` of a JSON-RPC error. -/
def A2AError.jsonrpcInfo (error : A2AError) (timestamp : String) : TypedDetail :=
  (ofType errorInfoType (error.details.getD [])).foldl TypedDetail.addMetadata
    (.errorInfo (errorReason error.code) protocolDomain
      (some (Finmap.singleton "timestamp" timestamp)))

/-- `to_jsonrpc_error`. -/
def A2AError.toJsonrpcError (error : A2AError) (timestamp : String) : JsonRpcError where
  code := error.code
  message := error.message
  data := some (.array (error.kept.map TypedDetail.toValue ++
    [(error.jsonrpcInfo timestamp).toValue]))

/-- `parse_jsonrpc_error`. -/
def parseJsonrpcError (err : JsonRpcError) : A2AError :=
  let details := match err.data with
    | some (.array data) => data.filterMap TypedDetail.fromValue
    | _ => []
  a2aErrorFromDetails err.code err.message details

/-! ## REST -/

/-- `http_status_code`. -/
def A2AError.httpStatusCode (error : A2AError) : Nat :=
  if error.code = ErrorCode.taskNotFound then 404
  else if error.code = ErrorCode.methodNotFound then 501
  else if error.code ∈ [ErrorCode.taskNotCancelable, ErrorCode.pushNotificationNotSupported,
      ErrorCode.unsupportedOperation, ErrorCode.contentTypeNotSupported,
      ErrorCode.versionNotSupported, ErrorCode.extendedCardNotConfigured,
      ErrorCode.extensionSupportRequired, ErrorCode.parseError, ErrorCode.invalidRequest,
      ErrorCode.invalidParams] then 400
  else 500

/-- `rest_grpc_status`. -/
def restGrpcStatus (code : Int) : String :=
  if code = ErrorCode.taskNotFound then "NOT_FOUND"
  else if code = ErrorCode.methodNotFound then "UNIMPLEMENTED"
  else if code ∈ [ErrorCode.taskNotCancelable, ErrorCode.extendedCardNotConfigured,
      ErrorCode.extensionSupportRequired, ErrorCode.pushNotificationNotSupported,
      ErrorCode.unsupportedOperation, ErrorCode.versionNotSupported] then "FAILED_PRECONDITION"
  else if code ∈ [ErrorCode.contentTypeNotSupported, ErrorCode.parseError,
      ErrorCode.invalidRequest, ErrorCode.invalidParams] then "INVALID_ARGUMENT"
  else "INTERNAL"

/-- The `google.rpc.Status` a failed request is answered with. -/
structure RestErrorStatus where
  code : Nat
  status : String
  message : String
  details : List TypedDetail

/-- The string entries of a detail's metadata. -/
def TypedDetail.stringMetadata (detail : TypedDetail) : List (String × String) :=
  (((detail.value.lookup "metadata").bind Value.asObject).getD []).filterMap fun field =>
    field.2.asStr.map (field.1, ·)

/-- The metadata of the `ErrorInfo` of a REST error. -/
def A2AError.restMetadata (error : A2AError) (timestamp : String) :
    Finmap fun _ : String => String :=
  ((ofType errorInfoType (error.details.getD [])).flatMap TypedDetail.stringMetadata).foldl
    (fun metadata field =>
      if (metadata.lookup field.1).isSome then metadata else metadata.insert field.1 field.2)
    (Finmap.singleton "timestamp" timestamp)

/-- `rest_error_envelope`. -/
def restErrorEnvelope (timestamp : String) (err : A2AError) : RestErrorStatus where
  code := err.httpStatusCode
  status := restGrpcStatus err.code
  message := err.message
  details := err.kept ++
    [.errorInfo (errorReason err.code) protocolDomain (some (err.restMetadata timestamp))]

/-- The body of the answer. -/
def RestErrorStatus.toValue (s : RestErrorStatus) : Value :=
  .object [("error", .object [("code", .number (.int s.code)),
    ("details", .array (s.details.map TypedDetail.toValue)), ("message", .string s.message),
    ("status", .string s.status)])]

/-- The details of a body; absent ones are none. -/
def readDetails : Option Value → Option (List TypedDetail)
  | none => some []
  | some (.array details) => details.mapM TypedDetail.fromValue
  | some _ => none

/-- `rest_error`, with the body parsed. -/
def restError (body : Value) : Option A2AError :=
  match body.get "error" with
  | none => none
  | some error =>
      match (error.get "message").bind Value.asStr, readDetails (error.get "details") with
      | some message, some details =>
          some (a2aErrorFromDetails ErrorCode.internalError message details)
      | _, _ => none

/-! ## gRPC -/

/-- The codes of a gRPC status. -/
inductive GrpcCode
  | ok | cancelled | unknown | invalidArgument | deadlineExceeded | notFound | alreadyExists
  | permissionDenied | resourceExhausted | failedPrecondition | aborted | outOfRange
  | unimplemented | internal | unavailable | dataLoss | unauthenticated
  deriving DecidableEq

/-- The name `{:?}` prints for a code. -/
def GrpcCode.debugName : GrpcCode → String
  | .ok => "Ok"
  | .cancelled => "Cancelled"
  | .unknown => "Unknown"
  | .invalidArgument => "InvalidArgument"
  | .deadlineExceeded => "DeadlineExceeded"
  | .notFound => "NotFound"
  | .alreadyExists => "AlreadyExists"
  | .permissionDenied => "PermissionDenied"
  | .resourceExhausted => "ResourceExhausted"
  | .failedPrecondition => "FailedPrecondition"
  | .aborted => "Aborted"
  | .outOfRange => "OutOfRange"
  | .unimplemented => "Unimplemented"
  | .internal => "Internal"
  | .unavailable => "Unavailable"
  | .dataLoss => "DataLoss"
  | .unauthenticated => "Unauthenticated"

/-- A detail of a status, decoded; `other` is one a client does not
understand. -/
inductive AnyDetail
  | errorInfo (reason domain : String) (metadata : Finmap fun _ : String => String)
  | badRequest (violations : List FieldViolation)
  | struct (fields : Proto.Struct)
  | other

/-- A gRPC status with the details of its `google.rpc.Status`, none if that
does not decode. -/
structure GrpcStatus where
  code : GrpcCode
  message : String
  details : List AnyDetail

/-- What the code relies on in `tonic-types`: a status made with error
details carries each of them once, in whatever order. -/
structure Tonic where
  pack : List AnyDetail → List AnyDetail
  pack_perm : ∀ details, (pack details).Perm details

instance : Inhabited Tonic := ⟨⟨id, fun _ => .refl _⟩⟩

/-- The gRPC code of an error. -/
def A2AError.grpcCode (err : A2AError) : GrpcCode :=
  if err.code = ErrorCode.taskNotFound then .notFound
  else if err.code ∈ [ErrorCode.taskNotCancelable, ErrorCode.pushNotificationNotSupported,
      ErrorCode.unsupportedOperation, ErrorCode.extendedCardNotConfigured,
      ErrorCode.extensionSupportRequired, ErrorCode.versionNotSupported] then .failedPrecondition
  else if err.code ∈ [ErrorCode.contentTypeNotSupported, ErrorCode.parseError,
      ErrorCode.invalidRequest, ErrorCode.invalidParams] then .invalidArgument
  else if err.code = ErrorCode.methodNotFound then .unimplemented
  else if err.code ∈ [ErrorCode.invalidAgentResponse, ErrorCode.internalError] then .internal
  else .unknown

/-- The violations of every `BadRequest` detail. -/
def A2AError.fieldViolations (err : A2AError) : List FieldViolation :=
  (ofType badRequestType (err.details.getD [])).flatMap TypedDetail.violations

/-- The metadata of the first `ErrorInfo` detail. -/
def A2AError.grpcMetadata (err : A2AError) : Finmap fun _ : String => String :=
  mapOfFields
    (((ofType errorInfoType (err.details.getD [])).head?.map TypedDetail.stringMetadata).getD [])

/-- `a2a_error_to_status`. -/
def a2aErrorToStatus (tonic : Tonic) (err : A2AError) : GrpcStatus where
  code := err.grpcCode
  message := err.message
  details := tonic.pack
    (.errorInfo (errorReason err.code) protocolDomain err.grpcMetadata ::
      if err.fieldViolations.isEmpty then [] else [.badRequest err.fieldViolations])

/-- A detail as the client keeps it. -/
def AnyDetail.typed : AnyDetail → Option TypedDetail
  | .errorInfo reason domain metadata =>
      some (.errorInfo reason domain
        (if metadata.entries.card = 0 then none else some metadata))
  | .badRequest violations => some (.badRequest violations)
  | .struct fields => some (.fromStruct (fromProtoStruct fields))
  | .other => none

/-- `typed_details`. -/
def typedDetails (status : GrpcStatus) : List TypedDetail := status.details.filterMap AnyDetail.typed

/-- The A2A code a gRPC code stands for by itself. -/
def GrpcCode.transportCode : GrpcCode → Option Int
  | .notFound => some ErrorCode.taskNotFound
  | .failedPrecondition => some ErrorCode.taskNotCancelable
  | .unimplemented => some ErrorCode.methodNotFound
  | .invalidArgument => some ErrorCode.invalidParams
  | .internal => some ErrorCode.internalError
  | _ => none

/-- `status_to_a2a_error`. -/
def statusToA2aError (status : GrpcStatus) : A2AError :=
  let details := typedDetails status
  match (protocolErrorCode details).or status.code.transportCode with
  | some code => a2aErrorFromDetails code status.message details
  | none =>
      let name := status.code.debugName
      a2aErrorFromDetails ErrorCode.internalError s!"gRPC {name}: {status.message}" details

end A2a
