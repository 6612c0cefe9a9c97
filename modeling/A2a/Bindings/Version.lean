import A2a.Bindings

/-!
# A2a.Bindings.Version

Which requests reach the handler with a version the server does not support:
none over JSON-RPC, REST and gRPC, and over SLIMRPC every one that is well
formed, for there the version is not checked.
-/

namespace A2a

/-- What the servers read requests with. -/
structure Readers where
  json : ProtoJson
  proto : ProtoDecode
  keys : SlimKeys
  newId : String

/-- A request to one of the four servers. -/
inductive BindingRequest
  | jsonrpc (headers : HeaderMap) (query : Option (List (String × String)))
      (body : Except A2AError JsonRpcRequest)
  | rest (headers : HeaderMap) (query : Option (List (String × String)))
      (unread : Option RestRejection) (request : RestRequest)
  | grpc (metadata : HeaderMap) (request : GrpcRequest)
  | slimrpc (request : SlimRequest)

namespace BindingRequest

/-- The service parameters of a request. -/
def params (keys : SlimKeys) : BindingRequest → ServiceParams
  | jsonrpc headers query _ => httpParams headers query
  | rest headers query _ _ => httpParams headers query
  | grpc metadata _ => extractMetadataParams metadata
  | slimrpc request => SlimRpcHandler.params keys request

/-- A method of the handler is called for the request. -/
def Reaches (readers : Readers) : BindingRequest → Prop
  | jsonrpc headers query body => ∃ call, handleJsonrpc readers.json headers query body = .ok call
  | rest headers query unread request => ∃ call, serveRest headers query unread request = .ok call
  | grpc metadata request => ∃ call, GrpcHandler.handle readers.newId metadata request = .ok call
  | slimrpc request =>
      ∃ call, SlimRpcHandler.handle readers.keys readers.proto readers.newId request = .ok call

end BindingRequest

/-- The parameters ask for a version that is supported. -/
def Supported (params : ServiceParams) : Prop := checkA2aVersion params = .ok ()

/-! ## the servers that check -/

theorem supported_of_handleJsonrpc {json : ProtoJson} {headers : HeaderMap}
    {query : Option (List (String × String))} {body : Except A2AError JsonRpcRequest}
    {call : ServiceParams × HandlerCall} (h : handleJsonrpc json headers query body = .ok call) :
    Supported (httpParams headers query) := by
  unfold handleJsonrpc at h
  cases body with
  | error error => cases h
  | ok request =>
      dsimp only at h
      by_cases hversion : request.jsonrpc ≠ "2.0"
      · rw [if_pos hversion] at h
        cases h
      · rw [if_neg hversion] at h
        cases hcheck : checkA2aVersion (httpParams headers query) with
        | error error =>
            rw [hcheck] at h
            cases h
        | ok _ => exact hcheck

theorem supported_of_serveRest {headers : HeaderMap} {query : Option (List (String × String))}
    {unread : Option RestRejection} {request : RestRequest} {call : ServiceParams × RestCall}
    (h : serveRest headers query unread request = .ok call) :
    Supported (httpParams headers query) := by
  unfold serveRest at h
  split at h
  · cases h
  · unfold validateProtocolVersion at h
    split at h
    · rename_i hcheck
      exact hcheck
    · cases h

theorem supported_of_serve {metadata : HeaderMap} {call : HandlerCall}
    {called : ServiceParams × HandlerCall} (h : GrpcHandler.serve metadata call = .ok called) :
    Supported (extractMetadataParams metadata) := by
  obtain ⟨_, hcheck, _⟩ := Except.bind_ok h
  exact hcheck

theorem supported_of_grpc {newId : String} {metadata : HeaderMap} {request : GrpcRequest}
    {called : ServiceParams × HandlerCall}
    (h : GrpcHandler.handle newId metadata request = .ok called) :
    Supported (extractMetadataParams metadata) := by
  cases request
  all_goals exact supported_of_serve h

/-! ## the server that does not -/

/-- Which payloads each method of the service reads. -/
def slimReads (proto : ProtoDecode) : List (String × (List UInt8 → Bool)) :=
  [(Methods.sendMessage, fun payload => (proto.sendMessageRequest payload).isOk),
    (Methods.sendStreamingMessage, fun payload => (proto.sendMessageRequest payload).isOk),
    (Methods.getTask, fun payload => (proto.getTaskRequest payload).isOk),
    (Methods.listTasks, fun payload => (proto.listTasksRequest payload).isOk),
    (Methods.cancelTask, fun payload => (proto.cancelTaskRequest payload).isOk),
    (Methods.subscribeToTask, fun payload => (proto.subscribeToTaskRequest payload).isOk),
    (Methods.createPushConfig, fun payload => (proto.taskPushNotificationConfig payload).isOk),
    (Methods.getPushConfig,
      fun payload => (proto.getTaskPushNotificationConfigRequest payload).isOk),
    (Methods.listPushConfigs,
      fun payload => (proto.listTaskPushNotificationConfigsRequest payload).isOk),
    (Methods.getExtendedAgentCard, fun payload => (proto.getExtendedAgentCardRequest payload).isOk),
    (Methods.deletePushConfig,
      fun payload => (proto.deleteTaskPushNotificationConfigRequest payload).isOk)]

/-- A request to a method of the service, with a payload it reads. -/
def SlimRequest.WellFormed (proto : ProtoDecode) (request : SlimRequest) : Prop :=
  request.service = a2aSlimrpcService ∧
    ∃ reads, (slimReads proto).lookup request.method = some reads ∧ reads request.payload = true

/-- A payload that is read is handed on. -/
theorem serve_ok_iff {α : Type} {keys : SlimKeys} {typeName : String}
    {decode : List UInt8 → Except String α} {call : α → HandlerCall} {request : SlimRequest} :
    (∃ called, SlimRpcHandler.serve keys typeName decode call request = .ok called) ↔
      (decode request.payload).isOk = true := by
  unfold SlimRpcHandler.serve
  cases decode request.payload with
  | ok req => exact ⟨fun _ => rfl, fun _ => ⟨_, rfl⟩⟩
  | error error =>
      constructor
      · rintro ⟨called, h⟩
        cases h
      · intro h
        cases h

/-- Where a server chooses, it is enough to follow either way. -/
theorem reaches_ite {c reached : Prop} [Decidable c]
    {yes no : Except SlimRejection (ServiceParams × HandlerCall)}
    (hyes : c → ((∃ called, yes = .ok called) ↔ reached))
    (hno : ¬ c → ((∃ called, no = .ok called) ↔ reached)) :
    (∃ called, (if c then yes else no) = .ok called) ↔ reached := by
  by_cases h : c
  · rw [if_pos h]
    exact hyes h
  · rw [if_neg h]
    exact hno h

theorem wellFormed_iff {proto : ProtoDecode} {request : SlimRequest} {reads : List UInt8 → Bool}
    (hservice : request.service = a2aSlimrpcService)
    (hlookup : (slimReads proto).lookup request.method = some reads) :
    request.WellFormed proto ↔ reads request.payload = true := by
  constructor
  · rintro ⟨_, reads', hlookup', hreads⟩
    rw [hlookup] at hlookup'
    rw [Option.some.inj hlookup']
    exact hreads
  · intro hreads
    exact ⟨hservice, reads, hlookup, hreads⟩

/-- **Every request that is well formed reaches the handler.** -/
theorem slim_reaches_iff (keys : SlimKeys) (proto : ProtoDecode) (newId : String)
    (request : SlimRequest) :
    (∃ called, SlimRpcHandler.handle keys proto newId request = .ok called) ↔
      request.WellFormed proto := by
  have herror : ∀ rejection : SlimRejection,
      ¬ ∃ called : ServiceParams × HandlerCall, Except.error rejection = .ok called := by
    rintro rejection ⟨called, h⟩
    cases h
  by_cases hservice : request.service = a2aSlimrpcService
  · have hread : ∀ {reads : List UInt8 → Bool} {method : String}, request.method = method →
        (slimReads proto).lookup method = some reads →
        (request.WellFormed proto ↔ reads request.payload = true) := by
      intro reads method hmethod hlookup
      rw [← hmethod] at hlookup
      exact wellFormed_iff hservice hlookup
    rw [SlimRpcHandler.handle, if_neg (not_not_intro hservice)]
    -- one case for each registered method, in the order of registration
    iterate 11
      refine reaches_ite (fun hmethod => serve_ok_iff.trans (hread hmethod rfl).symm) fun hother => ?_
    constructor
    · exact fun h => absurd h (herror _)
    · rintro ⟨_, reads, hlookup, _⟩
      have hmem := mem_of_lookup hlookup
      unfold slimReads at hmem
      iterate 11
        rcases List.mem_cons.mp hmem with h | hmem
        · have hmethod := congrArg Prod.fst h
          dsimp only at hmethod
          contradiction
      exact absurd hmem List.not_mem_nil
  · rw [SlimRpcHandler.handle, if_pos hservice]
    exact ⟨fun h => absurd h (herror _), fun h => absurd h.1 hservice⟩

/-! ## every binding -/

/-- A request whose version is checked, or is none that needs to be: over
SLIMRPC one that is well formed has to ask for a supported one. -/
def BindingRequest.VersionSound (readers : Readers) : BindingRequest → Prop
  | slimrpc request =>
      request.WellFormed readers.proto → Supported (SlimRpcHandler.params readers.keys request)
  | _ => True

/-- **What reaches the handler is of a supported version**, exactly where the
request does not rely on the check that SLIMRPC lacks. -/
theorem reaches_supported_iff (readers : Readers) (request : BindingRequest) :
    (request.Reaches readers → Supported (request.params readers.keys)) ↔
      request.VersionSound readers := by
  cases request with
  | jsonrpc headers query body =>
      refine ⟨fun _ => trivial, fun _ h => ?_⟩
      obtain ⟨call, hcall⟩ := h
      exact supported_of_handleJsonrpc hcall
  | rest headers query unread request =>
      refine ⟨fun _ => trivial, fun _ h => ?_⟩
      obtain ⟨call, hcall⟩ := h
      exact supported_of_serveRest hcall
  | grpc metadata request =>
      refine ⟨fun _ => trivial, fun _ h => ?_⟩
      obtain ⟨call, hcall⟩ := h
      exact supported_of_grpc hcall
  | slimrpc request =>
      have hreaches := slim_reaches_iff readers.keys readers.proto readers.newId request
      exact ⟨fun h hformed => h (hreaches.mpr hformed), fun h hcall => h (hreaches.mp hcall)⟩

/-! ## a request without a version -/

/-- A reader of payloads without bytes, each the default message. -/
def readEmpty {α : Type} (message : α) (payload : List UInt8) : Except String α :=
  if payload = [] then .ok message else .error "failed to decode Protobuf message"

def emptyProto : ProtoDecode where
  sendMessageRequest := readEmpty ⟨"", none, none, none⟩
  getTaskRequest := readEmpty ⟨"", "", none⟩
  listTasksRequest := readEmpty ⟨"", "", 0, none, "", none, none, none⟩
  cancelTaskRequest := readEmpty ⟨"", "", none⟩
  subscribeToTaskRequest := readEmpty ⟨"", ""⟩
  taskPushNotificationConfig := readEmpty ⟨"", "", "", "", "", none⟩
  getTaskPushNotificationConfigRequest := readEmpty ⟨"", "", ""⟩
  listTaskPushNotificationConfigsRequest := readEmpty ⟨"", "", 0, ""⟩
  deleteTaskPushNotificationConfigRequest := readEmpty ⟨"", "", ""⟩
  getExtendedAgentCardRequest := readEmpty ⟨""⟩

/-- Readers of nothing but payloads without bytes. -/
def emptyReaders : Readers where
  json :=
    { sendMessageRequest := fun _ => .error "expected an object"
      getTaskRequest := fun _ => .error "expected an object"
      listTasksRequest := fun _ => .error "expected an object"
      cancelTaskRequest := fun _ => .error "expected an object"
      subscribeToTaskRequest := fun _ => .error "expected an object"
      taskPushNotificationConfig := fun _ => .error "expected an object"
      getTaskPushNotificationConfigRequest := fun _ => .error "expected an object"
      listTaskPushNotificationConfigsRequest := fun _ => .error "expected an object"
      deleteTaskPushNotificationConfigRequest := fun _ => .error "expected an object"
      getExtendedAgentCardRequest := fun _ => .error "expected an object" }
  proto := emptyProto
  keys := ⟨"slimrpc-timeout", "slimrpc-code", "slimrpc-dir"⟩
  newId := ""

/-- For the card, without metadata. -/
def unversionedRequest : SlimRequest :=
  ⟨a2aSlimrpcService, Methods.getExtendedAgentCard, [], ⟨none, none, none⟩, []⟩

/-- **A request that names no version is served** over SLIMRPC. -/
theorem slim_serves_unversioned :
    SlimRpcHandler.handle emptyReaders.keys emptyReaders.proto "" unversionedRequest =
        .ok (∅, .getExtendedAgentCard ⟨none⟩) ∧
      ¬ ∀ (readers : Readers) (request : BindingRequest),
        request.Reaches readers → Supported (request.params readers.keys) := by
  have hserved : SlimRpcHandler.handle emptyReaders.keys emptyReaders.proto ""
      unversionedRequest = .ok (∅, .getExtendedAgentCard ⟨none⟩) := rfl
  refine ⟨hserved, ?_⟩
  intro h
  have hchecked := h emptyReaders (.slimrpc unversionedRequest) ⟨_, hserved⟩
  have hparams : BindingRequest.params emptyReaders.keys (.slimrpc unversionedRequest) = ∅ := rfl
  have hversion : parseMajorVersion "0.3" ≠ some supportedMajorVersion := by decide
  have hrefused : checkA2aVersion ∅ = .error (.versionNotSupported "0.3") := if_neg hversion
  rw [hparams, Supported, hrefused] at hchecked
  cases hchecked

end A2a
