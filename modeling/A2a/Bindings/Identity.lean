import A2a.Bindings.Params
import A2a.Pbconv

/-!
# A2a.Bindings.Identity

Who a caller is over SLIMRPC (`a2a-slimrpc/src/common.rs`, `client.rs`,
`server.rs`).

- `identity_not_forged`: the parameters of a request name the caller the
  session reports, whatever the request's metadata holds.
- `delivered_sentBy_iff`: a message of a `Collaborate` session names its sender
  on the stream; the callback is handed what the sender wrote.
-/

namespace A2a

/-! ## requests -/

/-- What the session reports under a key of the caller's identity. -/
def CallerIdentity.reported (identity : CallerIdentity) (key : String) : Option String :=
  if key = slimSrcMetadataKey then identity.slimSrc
  else if key = slimPeerSubjectMetadataKey then identity.peerSubject
  else if key = slimPeerIssuerMetadataKey then identity.peerIssuer
  else none

/-- The metadata of a request, in the order its map is walked. -/
def walked (order : AList fun _ : String => String) : SlimMetadata :=
  order.entries.map fun entry => (entry.1, entry.2)

theorem mem_walked {order : AList fun _ : String => String} {key value : String} :
    (key, value) ∈ walked order ↔ order.lookup key = some value := by
  have hentry : (⟨key, value⟩ : (_ : String) × String) ∈ order.entries ↔
      order.lookup key = some value := AList.mem_lookup_iff.symm
  rw [← hentry, walked, List.mem_map]
  constructor
  · rintro ⟨entry, hmem, heq⟩
    rw [Prod.mk.injEq] at heq
    rw [← heq.1, ← heq.2]
    exact hmem
  · intro hmem
    exact ⟨_, hmem, rfl⟩

theorem lookup_insertIdentity (params : ServiceParams) (entry : String × Option String)
    (name : String) :
    (insertIdentity params entry).lookup name =
      if name = entry.1 then (entry.2.map fun value => [value]).or (params.lookup name)
      else params.lookup name := by
  unfold insertIdentity
  by_cases hname : name = entry.1
  · rw [if_pos hname]
    cases hvalue : entry.2 with
    | none => rfl
    | some value => rw [hname]; exact Finmap.lookup_insert params
  · rw [if_neg hname]
    cases hvalue : entry.2 with
    | none => rfl
    | some value => exact Finmap.lookup_insert_of_ne params hname

/-- What the filter lets through is under its own key. -/
theorem lookup_kept (keys : SlimKeys) (order : AList fun _ : String => String) (name : String) :
    (((walked order).filter fun entry =>
        !isInternalMetadataKey keys entry.1 && !isReservedIdentityKey entry.1).foldl
      (fun params entry => params.insert entry.1 [entry.2]) (∅ : ServiceParams)).lookup name =
      if isReservedIdentityKey name = true ∨ isInternalMetadataKey keys name = true then none
      else (order.lookup name).map fun value => [value] := by
  by_cases hdropped : isReservedIdentityKey name = true ∨ isInternalMetadataKey keys name = true
  · have hnot : ∀ entry ∈ (walked order).filter (fun entry =>
        !isInternalMetadataKey keys entry.1 && !isReservedIdentityKey entry.1), entry.1 ≠ name := by
      intro entry hentry hname
      have hkept := (List.mem_filter.mp hentry).2
      rw [hname] at hkept
      rcases hdropped with h | h
      · simp [h] at hkept
      · simp [h] at hkept
    rw [if_pos hdropped, lookup_foldl_insert_of_not_mem _ _ hnot, Finmap.lookup_empty]
  · have hpass : (!isInternalMetadataKey keys name && !isReservedIdentityKey name) = true := by
      rw [not_or] at hdropped
      simp [hdropped]
    rw [if_neg hdropped]
    cases hlookup : order.lookup name with
    | none =>
        have hnot : ∀ entry ∈ (walked order).filter (fun entry =>
            !isInternalMetadataKey keys entry.1 && !isReservedIdentityKey entry.1),
            entry.1 ≠ name := by
          intro entry hentry hname
          have hmem := mem_walked.mp (List.mem_filter.mp hentry).1
          rw [hname, hlookup] at hmem
          contradiction
        rw [lookup_foldl_insert_of_not_mem _ _ hnot, Finmap.lookup_empty, Option.map_none]
    | some value =>
        have hone : ∀ text, (name, text) ∈ (walked order).filter (fun entry =>
            !isInternalMetadataKey keys entry.1 && !isReservedIdentityKey entry.1) →
            text = value := by
          intro text htext
          have hmem := mem_walked.mp (List.mem_filter.mp htext).1
          rw [hlookup] at hmem
          exact (Option.some.inj hmem).symm
        rw [lookup_foldl_insert_of_mem _ _
          (List.mem_filter.mpr ⟨mem_walked.mpr hlookup, hpass⟩) hone, Option.map_some]

/-- A key of the identity is reserved, in whatever case. -/
theorem isReservedIdentityKey_of_mem {key : String} (h : key ∈ reservedIdentityKeys) :
    isReservedIdentityKey key = true :=
  List.any_eq_true.mpr ⟨key, h, eqIgnoreAsciiCase_iff.mpr rfl⟩

/-- Under a reserved key is what the session reports, under an internal key
nothing, and under any other what the metadata has. -/
theorem lookup_toServiceParams (keys : SlimKeys) (order : AList fun _ : String => String)
    (identity : CallerIdentity) (name : String) :
    (toServiceParams keys (walked order) identity).lookup name =
      if isReservedIdentityKey name = true then (identity.reported name).map fun value => [value]
      else if isInternalMetadataKey keys name = true then none
      else (order.lookup name).map fun value => [value] := by
  have hkept := lookup_kept keys order name
  rw [toServiceParams]
  simp only [List.foldl_cons, List.foldl_nil, lookup_insertIdentity, hkept]
  by_cases hreserved : isReservedIdentityKey name = true
  · simp only [hreserved, true_or, if_true, Option.or_none, CallerIdentity.reported]
    by_cases hsrc : name = slimSrcMetadataKey
    · simp [hsrc, slimSrcMetadataKey, slimPeerSubjectMetadataKey, slimPeerIssuerMetadataKey]
    · by_cases hsubject : name = slimPeerSubjectMetadataKey
      · simp [hsubject, slimSrcMetadataKey, slimPeerSubjectMetadataKey, slimPeerIssuerMetadataKey]
      · by_cases hissuer : name = slimPeerIssuerMetadataKey
        · simp [hissuer, slimSrcMetadataKey, slimPeerSubjectMetadataKey, slimPeerIssuerMetadataKey]
        · simp [hsrc, hsubject, hissuer]
  · have hne : ∀ key ∈ reservedIdentityKeys, name ≠ key := by
      intro key hkey heq
      rw [heq] at hreserved
      exact hreserved (isReservedIdentityKey_of_mem hkey)
    rw [if_neg (hne _ (by simp [reservedIdentityKeys])),
      if_neg (hne _ (by simp [reservedIdentityKeys])),
      if_neg (hne _ (by simp [reservedIdentityKeys])), if_neg hreserved]
    simp only [hreserved, Bool.false_eq_true, false_or]

/-- **A caller's identity cannot be forged.**  Whatever the metadata holds and
in whatever order it is walked, the values under any spelling of a reserved
key are those of the session; and metadata that agrees on all other keys gives
the same parameters. -/
theorem identity_not_forged (keys : SlimKeys) (identity : CallerIdentity)
    (metadata other : AList fun _ : String => String) :
    (∀ key reserved, reserved ∈ reservedIdentityKeys → eqIgnoreAsciiCase key reserved = true →
      (toServiceParams keys (walked metadata) identity).lookup key =
        (identity.reported key).map fun value => [value]) ∧
    ((∀ key, isReservedIdentityKey key = false → isInternalMetadataKey keys key = false →
        metadata.lookup key = other.lookup key) →
      toServiceParams keys (walked metadata) identity =
        toServiceParams keys (walked other) identity) := by
  constructor
  · intro key reserved hmem hcase
    have hreserved : isReservedIdentityKey key = true := List.any_eq_true.mpr ⟨reserved, hmem, hcase⟩
    rw [lookup_toServiceParams, if_pos hreserved]
  · intro hagree
    apply Finmap.ext_lookup
    intro name
    rw [lookup_toServiceParams, lookup_toServiceParams]
    by_cases hreserved : isReservedIdentityKey name = true
    · rw [if_pos hreserved, if_pos hreserved]
    · by_cases hinternal : isInternalMetadataKey keys name = true
      · simp only [hinternal, if_true]
      · rw [hagree name (by simpa using hreserved) (by simpa using hinternal)]

/-- Metadata that spells a reserved key its own way says nothing of the
caller. -/
theorem identity_not_forged_src :
    let keys : SlimKeys := ⟨"slimrpc-timeout", "slimrpc-code", "slimrpc-dir"⟩
    let identity : CallerIdentity := ⟨some "org/ns/alice", none, none⟩
    let forged : AList fun _ : String => String := AList.insert "Slim-Src" "org/ns/bob" ∅
    (toServiceParams keys (walked forged) identity).lookup "Slim-Src" = none ∧
      toServiceParams keys (walked forged) identity = toServiceParams keys (walked ∅) identity := by
  intro keys identity forged
  have hforged := identity_not_forged keys identity forged ∅
  have hcase : eqIgnoreAsciiCase "Slim-Src" slimSrcMetadataKey = true := by decide
  refine ⟨hforged.1 "Slim-Src" slimSrcMetadataKey List.mem_cons_self hcase, hforged.2 ?_⟩
  intro key hreserved _
  have hne : key ≠ "Slim-Src" := by
    intro heq
    rw [heq, isReservedIdentityKey, List.any_eq_false] at hreserved
    exact hreserved slimSrcMetadataKey List.mem_cons_self hcase
  exact AList.lookup_insert_ne hne

/-! ## broadcasts -/

/-- The codes of `slim_rpc::RpcError` that are told apart. -/
inductive RpcCode
  | notFound | failedPrecondition | unimplemented | invalidArgument | deadlineExceeded
  | internal | unavailable | unauthenticated | other

structure RpcError where
  code : RpcCode
  message : String

/-- `rpc_error_to_a2a_error`. -/
def rpcErrorToA2aError (error : RpcError) : A2AError :=
  let code := match error.code with
    | .notFound => ErrorCode.taskNotFound
    | .failedPrecondition => ErrorCode.taskNotCancelable
    | .unimplemented => ErrorCode.unsupportedOperation
    | .invalidArgument => ErrorCode.invalidParams
    | .deadlineExceeded | .internal | .unavailable | .unauthenticated | .other =>
        ErrorCode.internalError
  A2AError.new code error.message

/-- A broadcast as the transport hands it over: the name of its sender, and
the bytes the sender gave. -/
structure Broadcast where
  source : String
  bytes : List UInt8

/-- What decodes protobuf messages (`prost`), with its error's text. -/
abbrev MessageDecoder := List UInt8 → Except String Proto.Message

/-- `decode_proto_response`. -/
def decodeProtoResponse (decode : MessageDecoder) (bytes : List UInt8) (typeName : String) :
    Except A2AError Proto.Message :=
  (decode bytes).mapError fun error => A2AError.internal s!"invalid {typeName} payload: {error}"

/-- `decode_proto_request`. -/
def decodeProtoRequest (decode : MessageDecoder) (bytes : List UInt8) (typeName : String) :
    Except RpcError Proto.Message :=
  (decode bytes).mapError fun error => ⟨.invalidArgument, s!"invalid {typeName} payload: {error}"⟩

/-- An item of the stream of `SlimRpcTransport::collaborate`. -/
def collaborate (decode : MessageDecoder) (item : Except RpcError Broadcast) :
    Except A2AError Message := do
  let item ← item.mapError rpcErrorToA2aError
  let protoMessage ← decodeProtoResponse decode item.bytes "Message"
  let message := fromProtoMessage protoMessage
  return { message with
    metadata := some ((message.metadata.getD ∅).insert slimSrcMetadataKey (.string item.source)) }

/-- What the callback of `register_collaborate` is called with, if at all; the
sender's name is not asked for. -/
def registerCollaborate (decode : MessageDecoder) (item : Except RpcError Broadcast) :
    Option Message := do
  let item ← item.toOption
  let protoMessage ← (decodeProtoRequest decode item.bytes "Message").toOption
  return fromProtoMessage protoMessage

inductive DeliveryPath
  | stream
  | callback

/-- The message of a broadcast that the application receives. -/
def delivered (decode : MessageDecoder) (path : DeliveryPath) (broadcast : Broadcast) :
    Option Message :=
  match path with
  | .stream => (collaborate decode (.ok broadcast)).toOption
  | .callback => registerCollaborate decode (.ok broadcast)

/-- The message names its sender. -/
def Message.SentBy (message : Message) (source : String) : Prop :=
  message.metadata.bind (fun metadata => metadata.lookup slimSrcMetadataKey) =
    some (.string source)

/-- The sender put its own name into what it sent. -/
def Proto.Message.SignedBy (message : Proto.Message) (source : String) : Prop :=
  message.metadata.bind (fun metadata => metadata.lookup slimSrcMetadataKey) =
    some (.stringValue source)

theorem protoValueToJsonValue_eq_string {v : Proto.Value} {s : String} :
    protoValueToJsonValue v = .string s ↔ v = .stringValue s := by
  cases v with
  | stringValue t => simp [protoValueToJsonValue]
  | numberValue x =>
      rw [protoValueToJsonValue]
      split <;> simp
  | _ => simp [protoValueToJsonValue]

/-- Without the stream's own entry, a message names whom its sender named. -/
theorem fromProtoMessage_sentBy {message : Proto.Message} {source : String} :
    (fromProtoMessage message).SentBy source ↔ message.SignedBy source := by
  rw [Message.SentBy, Proto.Message.SignedBy, fromProtoMessage, optMetadataFromProto]
  cases message.metadata with
  | none => simp
  | some metadata =>
      simp only [Option.map_some, Option.bind_some, fromProtoStruct, lookup_mapValues,
        Option.map_eq_some_iff, protoValueToJsonValue_eq_string]
      simp

/-- **A broadcast names its sender.**  Every message an application receives of
a broadcast has the sender's name as the transport reports it, exactly on the
stream, or where the sender told its name itself. -/
theorem delivered_sentBy_iff (decode : MessageDecoder) (path : DeliveryPath)
    (broadcast : Broadcast) :
    (∀ message, delivered decode path broadcast = some message → message.SentBy broadcast.source) ↔
      path = .stream ∨
        ∀ message, decode broadcast.bytes = .ok message → message.SignedBy broadcast.source := by
  cases path with
  | stream =>
      refine ⟨fun _ => Or.inl rfl, fun _ => ?_⟩
      intro message hdelivered
      rw [delivered, collaborate] at hdelivered
      cases hdecode : decode broadcast.bytes with
      | error error =>
          simp [decodeProtoResponse, hdecode, Except.mapError, Except.toOption, bind, Except.bind]
            at hdelivered
      | ok protoMessage =>
          simp only [decodeProtoResponse, hdecode, Except.mapError, Except.toOption, bind,
            Except.bind, pure, Except.pure, Option.some.injEq] at hdelivered
          rw [← hdelivered, Message.SentBy, Option.bind_some, Finmap.lookup_insert]
  | callback =>
      cases hdecode : decode broadcast.bytes with
      | error error =>
          simp [delivered, registerCollaborate, decodeProtoRequest, hdecode, Except.mapError,
            Except.toOption]
      | ok protoMessage =>
          simp [delivered, registerCollaborate, decodeProtoRequest, hdecode, Except.mapError,
            Except.toOption, fromProtoMessage_sentBy]

/-- The bytes of a message that gives `org/ns/bob` for its sender. -/
def forgedBytes : List UInt8 :=
  [0x0A, 0x01, 0x6D, 0x32, 0x1A, 0x0A, 0x18, 0x0A, 0x08] ++ utf8 "slim-src" ++
    [0x12, 0x0C, 0x1A, 0x0A] ++ utf8 "org/ns/bob"

/-- The message of these bytes. -/
def forgedMessage : Proto.Message where
  messageId := "m"
  contextId := ""
  taskId := ""
  role := 0
  parts := []
  metadata := some (Finmap.singleton slimSrcMetadataKey (.stringValue "org/ns/bob"))
  extensions := []
  referenceTaskIds := []

/-- Alice's broadcast reaches the callback in bob's name. -/
theorem forged_not_sentBy :
    let decode : MessageDecoder := fun bytes =>
      if bytes = forgedBytes then .ok forgedMessage else .error "failed to decode Protobuf message"
    ∃ message, delivered decode .callback ⟨"org/ns/alice", forgedBytes⟩ = some message ∧
      ¬ message.SentBy "org/ns/alice" ∧ message.SentBy "org/ns/bob" := by
  intro decode
  have hsigned : forgedMessage.SignedBy "org/ns/bob" := Finmap.lookup_singleton_eq
  refine ⟨fromProtoMessage forgedMessage, ?_, ?_, fromProtoMessage_sentBy.mpr hsigned⟩
  · simp [delivered, registerCollaborate, decodeProtoRequest, decode, Except.mapError,
      Except.toOption]
  · intro hsent
    have hother := hsigned.symm.trans (fromProtoMessage_sentBy.mp hsent)
    simp at hother

end A2a
