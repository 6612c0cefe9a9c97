import A2a.Pbconv.RoundTrip

/-!
# A2a.Pbconv.CardRoundTrip

What survives the conversion of an agent card to protobuf and back, and
what survives of any converted value (`pbconv_roundTrip`).

Each direction strips one scheme from the address of a gRPC interface, so
an address with three of them is changed again by a second trip:
`AgentInterface.Settled` rules it out.
-/

namespace A2a

/-! ## interfaces -/

/-- The scheme a gRPC address goes without. -/
abbrev httpScheme : String := "http://"

/-- A gRPC address without its scheme, if it has one. -/
def stripScheme (url : String) : String := (stripPrefix httpScheme url).getD url

theorem stripScheme_append (t : String) : stripScheme (httpScheme ++ t) = t := by
  rw [stripScheme, stripPrefix_eq_some.mpr rfl, Option.getD_some]

/-- Stripping changes exactly the addresses that have a scheme. -/
theorem stripScheme_eq_self {url : String} :
    stripScheme url = url ↔ ∀ t, url ≠ httpScheme ++ t := by
  constructor
  · rintro h t rfl
    rw [stripScheme_append] at h
    have hlen := congrArg String.length h
    rw [String.length_append, show httpScheme.length = 7 from rfl] at hlen
    omega
  · intro h
    rw [stripScheme]
    cases hs : stripPrefix httpScheme url with
    | none => rfl
    | some t => exact absurd (stripPrefix_eq_some.mp hs) (h t)

theorem length_stripScheme_le (url : String) : (stripScheme url).length ≤ url.length := by
  rw [stripScheme]
  cases hs : stripPrefix httpScheme url with
  | none => exact Nat.le_refl _
  | some t =>
      rw [stripPrefix_eq_some.mp hs, String.length_append, Option.getD_some]
      omega

/-- An address that still has a scheme when one was stripped began with it. -/
theorem eq_append_of_stripScheme {url t : String} (h : stripScheme url = httpScheme ++ t) :
    url = httpScheme ++ stripScheme url := by
  cases hs : stripPrefix httpScheme url with
  | none =>
      have hself : stripScheme url = url := by rw [stripScheme, hs, Option.getD_none]
      rw [hself] at h
      rw [stripPrefix_eq_some.mpr h] at hs
      contradiction
  | some t' =>
      have hurl := stripPrefix_eq_some.mp hs
      rw [stripScheme, hs, Option.getD_some]
      exact hurl

/-- Stripping twice leaves nothing to strip unless there were three
schemes. -/
theorem stripScheme_settled (url : String) :
    stripScheme (stripScheme (stripScheme (stripScheme url))) = stripScheme (stripScheme url) ↔
      ∀ t, url ≠ httpScheme ++ (httpScheme ++ (httpScheme ++ t)) := by
  constructor
  · rintro h t rfl
    rw [stripScheme_append, stripScheme_append, stripScheme_append] at h
    have hlen := congrArg String.length h
    have hle := length_stripScheme_le t
    rw [String.length_append, show httpScheme.length = 7 from rfl] at hlen
    omega
  · intro h
    have hdone : stripScheme (stripScheme (stripScheme url)) = stripScheme (stripScheme url) := by
      rw [stripScheme_eq_self]
      intro t ht
      -- each of the two strips before must have met a scheme
      have h1 := eq_append_of_stripScheme ht
      have h0 := eq_append_of_stripScheme h1
      rw [ht] at h1
      rw [h1] at h0
      exact h t h0
    rw [hdone, hdone]

namespace AgentInterface

attribute [ext] AgentInterface

/-- Whether the interface is reached by gRPC. -/
def IsGrpc (i : AgentInterface) : Prop :=
  eqIgnoreAsciiCase i.protocolBinding transportProtocolGrpc = true

structure Canonical (i : AgentInterface) : Prop where
  url : i.wireUrl = i.url
  tenant : optString.Canonical i.tenant

/-- A gRPC address with fewer than three schemes. -/
def Settled (i : AgentInterface) : Prop :=
  i.IsGrpc → ∀ t, i.url ≠ httpScheme ++ (httpScheme ++ (httpScheme ++ t))

/-- What is left of an interface after a trip. -/
def norm (i : AgentInterface) : AgentInterface := fromProtoAgentInterface (toProtoAgentInterface i)

theorem normalize_of_grpc {binding : String}
    (h : eqIgnoreAsciiCase binding transportProtocolGrpc = true) (url : String) :
    normalizeAgentInterfaceUrl url binding = stripScheme url := if_pos h

theorem normalize_of_other {binding : String}
    (h : eqIgnoreAsciiCase binding transportProtocolGrpc = false) (url : String) :
    normalizeAgentInterfaceUrl url binding = url := by
  rw [normalizeAgentInterfaceUrl, h]
  rfl

/-- The trip strips at both ends. -/
theorem norm_url (i : AgentInterface) : i.norm.url =
    normalizeAgentInterfaceUrl (normalizeAgentInterfaceUrl i.url i.protocolBinding)
      i.protocolBinding := rfl

theorem norm_of_canonical {i : AgentInterface} (h : i.Canonical) : i.norm = i := by
  have hurl : normalizeAgentInterfaceUrl i.wireUrl i.protocolBinding = i.url := by
    rw [h.url]
    exact h.url
  exact AgentInterface.ext hurl rfl rfl (optString.roundTrip _ h.tenant)

theorem norm_norm_iff (i : AgentInterface) : i.norm.norm = i.norm ↔ i.Settled := by
  have hurl : i.norm.norm = i.norm ↔ i.norm.norm.url = i.norm.url := by
    constructor
    · exact fun h => congrArg AgentInterface.url h
    · exact fun h => AgentInterface.ext h rfl rfl (optString.norm_norm i.tenant)
  rw [hurl, norm_url i.norm, norm_url i]
  show normalizeAgentInterfaceUrl (normalizeAgentInterfaceUrl _ i.protocolBinding)
    i.protocolBinding = _ ↔ _
  cases hgrpc : eqIgnoreAsciiCase i.protocolBinding transportProtocolGrpc with
  | true =>
      rw [normalize_of_grpc hgrpc, normalize_of_grpc hgrpc, normalize_of_grpc hgrpc,
        normalize_of_grpc hgrpc, stripScheme_settled]
      exact ⟨fun h _ => h, fun h => h hgrpc⟩
  | false =>
      rw [normalize_of_other hgrpc, normalize_of_other hgrpc, normalize_of_other hgrpc,
        normalize_of_other hgrpc]
      refine ⟨fun _ h => ?_, fun _ => rfl⟩
      rw [IsGrpc, hgrpc] at h
      contradiction

end AgentInterface

/-! ## capabilities and skills -/

attribute [ext] AgentExtension AgentCapabilities AgentSkill AgentCardSignature

def agentProviderFormat : Format AgentProvider Proto.AgentProvider where
  encode := toProtoAgentProvider
  decode := fromProtoAgentProvider
  Canonical _ := True
  roundTrip _ _ := rfl
  normal _ := trivial

structure AgentExtension.Canonical (e : AgentExtension) : Prop where
  description : optString.Canonical e.description
  required : optBool.Canonical e.required
  params : optMetadata.Canonical e.params

def agentExtensionFormat : Format AgentExtension Proto.AgentExtension where
  encode := toProtoAgentExtension
  decode := fromProtoAgentExtension
  Canonical := AgentExtension.Canonical
  roundTrip _ h := AgentExtension.ext rfl (optString.roundTrip _ h.description)
    (optBool.roundTrip _ h.required) (optMetadata.roundTrip _ h.params)
  normal e :=
    { description := optString.normal e.description
      required := optBool.normal e.required
      params := optMetadata.normal e.params }

structure AgentCapabilities.Canonical (c : AgentCapabilities) : Prop where
  extensions : agentExtensionFormat.items.Canonical c.extensions

def agentCapabilitiesFormat : Format AgentCapabilities Proto.AgentCapabilities where
  encode := toProtoAgentCapabilities
  decode := fromProtoAgentCapabilities
  Canonical := AgentCapabilities.Canonical
  roundTrip _ h := AgentCapabilities.ext rfl rfl (agentExtensionFormat.items.roundTrip _ h.extensions)
    rfl
  normal c := { extensions := agentExtensionFormat.items.normal c.extensions }

/-- Every requirement survives. -/
def securityRequirementFormat : Format SecurityRequirement Proto.SecurityRequirement where
  encode := toProtoSecurityRequirement
  decode := fromProtoSecurityRequirement
  Canonical _ := True
  roundTrip r _ := by
    rw [fromProtoSecurityRequirement, toProtoSecurityRequirement, mapValues_mapValues]
    exact mapValues_of_fixed fun _ _ => rfl
  normal _ := trivial

structure AgentSkill.Canonical (s : AgentSkill) : Prop where
  examples : optStrings.Canonical s.examples
  inputModes : optStrings.Canonical s.inputModes
  outputModes : optStrings.Canonical s.outputModes
  securityRequirements : securityRequirementFormat.items.Canonical s.securityRequirements

def agentSkillFormat : Format AgentSkill Proto.AgentSkill where
  encode := toProtoAgentSkill
  decode := fromProtoAgentSkill
  Canonical := AgentSkill.Canonical
  roundTrip _ h := AgentSkill.ext rfl rfl rfl rfl (optStrings.roundTrip _ h.examples)
    (optStrings.roundTrip _ h.inputModes) (optStrings.roundTrip _ h.outputModes)
    (securityRequirementFormat.items.roundTrip _ h.securityRequirements)
  normal s :=
    { examples := optStrings.normal s.examples
      inputModes := optStrings.normal s.inputModes
      outputModes := optStrings.normal s.outputModes
      securityRequirements := securityRequirementFormat.items.normal s.securityRequirements }

structure AgentCardSignature.Canonical (s : AgentCardSignature) : Prop where
  header : optMetadata.Canonical s.header

def agentCardSignatureFormat : Format AgentCardSignature Proto.AgentCardSignature where
  encode := toProtoAgentCardSignature
  decode := fromProtoAgentCardSignature
  Canonical := AgentCardSignature.Canonical
  roundTrip _ h := AgentCardSignature.ext rfl rfl (optMetadata.roundTrip _ h.header)
  normal s := { header := optMetadata.normal s.header }

/-! ## security schemes -/

attribute [ext] AuthorizationCodeOAuthFlow ClientCredentialsOAuthFlow DeviceCodeOAuthFlow
  ImplicitOAuthFlow PasswordOAuthFlow ApiKeySecurityScheme HttpAuthSecurityScheme
  OAuth2SecurityScheme OpenIdConnectSecurityScheme MutualTlsSecurityScheme

/-- The flows that survive. -/
def OAuthFlows.Canonical : OAuthFlows → Prop
  | .authorizationCode f => optString.Canonical f.refreshUrl ∧ optBool.Canonical f.pkceRequired
  | .clientCredentials f => optString.Canonical f.refreshUrl
  | .deviceCode f => optString.Canonical f.refreshUrl
  | .implicit f => optString.Canonical f.refreshUrl
  | .password f => optString.Canonical f.refreshUrl

def oauthFlowsFormat : PartialFormat OAuthFlows Proto.OAuthFlows where
  encode := toProtoOauthFlows
  decode := fromProtoOauthFlows
  norm
    | .authorizationCode f => .authorizationCode { f with
        refreshUrl := optString.norm f.refreshUrl
        pkceRequired := optBool.norm f.pkceRequired }
    | .clientCredentials f => .clientCredentials { f with
        refreshUrl := optString.norm f.refreshUrl }
    | .deviceCode f => .deviceCode { f with refreshUrl := optString.norm f.refreshUrl }
    | .implicit f => .implicit { f with refreshUrl := optString.norm f.refreshUrl }
    | .password f => .password { f with refreshUrl := optString.norm f.refreshUrl }
  Canonical := OAuthFlows.Canonical
  decode_encode f := by cases f <;> rfl
  roundTrip f h := by
    cases f with
    | authorizationCode f =>
        exact congrArg OAuthFlows.authorizationCode (AuthorizationCodeOAuthFlow.ext rfl rfl rfl
          (optString.roundTrip _ h.1) (optBool.roundTrip _ h.2))
    | clientCredentials f =>
        exact congrArg OAuthFlows.clientCredentials
          (ClientCredentialsOAuthFlow.ext rfl rfl (optString.roundTrip _ h))
    | deviceCode f =>
        exact congrArg OAuthFlows.deviceCode
          (DeviceCodeOAuthFlow.ext rfl rfl rfl (optString.roundTrip _ h))
    | implicit f =>
        exact congrArg OAuthFlows.implicit
          (ImplicitOAuthFlow.ext rfl rfl (optString.roundTrip _ h))
    | password f =>
        exact congrArg OAuthFlows.password
          (PasswordOAuthFlow.ext rfl rfl (optString.roundTrip _ h))
  normal f := by
    cases f with
    | authorizationCode f => exact ⟨optString.normal f.refreshUrl, optBool.normal f.pkceRequired⟩
    | clientCredentials f => exact optString.normal f.refreshUrl
    | deviceCode f => exact optString.normal f.refreshUrl
    | implicit f => exact optString.normal f.refreshUrl
    | password f => exact optString.normal f.refreshUrl

/-- The flows of a scheme, a required field. -/
abbrev schemeFlows : Format OAuthFlows (Option Proto.OAuthFlows) :=
  oauthFlowsFormat.required missingFlows

structure OAuth2SecurityScheme.Canonical (s : OAuth2SecurityScheme) : Prop where
  flows : s.flows.Canonical
  description : optString.Canonical s.description
  oauth2MetadataUrl : optString.Canonical s.oauth2MetadataUrl

/-- The schemes that survive. -/
def SecurityScheme.Canonical : SecurityScheme → Prop
  | .apiKey s => optString.Canonical s.description
  | .httpAuth s => optString.Canonical s.description ∧ optString.Canonical s.bearerFormat
  | .oauth2 s => s.Canonical
  | .openIdConnect s => optString.Canonical s.description
  | .mutualTls s => optString.Canonical s.description

def securitySchemeFormat : PartialFormat SecurityScheme Proto.SecurityScheme where
  encode := toProtoSecurityScheme
  decode := fromProtoSecurityScheme
  norm
    | .apiKey s => .apiKey { s with description := optString.norm s.description }
    | .httpAuth s => .httpAuth { s with
        description := optString.norm s.description
        bearerFormat := optString.norm s.bearerFormat }
    | .oauth2 s => .oauth2 {
        flows := schemeFlows.norm s.flows
        description := optString.norm s.description
        oauth2MetadataUrl := optString.norm s.oauth2MetadataUrl }
    | .openIdConnect s => .openIdConnect { s with description := optString.norm s.description }
    | .mutualTls s => .mutualTls { s with description := optString.norm s.description }
  Canonical := SecurityScheme.Canonical
  decode_encode s := by cases s <;> rfl
  roundTrip s h := by
    cases s with
    | apiKey s =>
        exact congrArg SecurityScheme.apiKey
          (ApiKeySecurityScheme.ext rfl rfl (optString.roundTrip _ h))
    | httpAuth s =>
        exact congrArg SecurityScheme.httpAuth (HttpAuthSecurityScheme.ext rfl
          (optString.roundTrip _ h.1) (optString.roundTrip _ h.2))
    | oauth2 s =>
        exact congrArg SecurityScheme.oauth2 (OAuth2SecurityScheme.ext
          (schemeFlows.roundTrip _ h.flows) (optString.roundTrip _ h.description)
          (optString.roundTrip _ h.oauth2MetadataUrl))
    | openIdConnect s =>
        exact congrArg SecurityScheme.openIdConnect
          (OpenIdConnectSecurityScheme.ext rfl (optString.roundTrip _ h))
    | mutualTls s =>
        exact congrArg SecurityScheme.mutualTls
          (MutualTlsSecurityScheme.ext (optString.roundTrip _ h))
  normal s := by
    cases s with
    | apiKey s => exact optString.normal s.description
    | httpAuth s => exact ⟨optString.normal s.description, optString.normal s.bearerFormat⟩
    | oauth2 s =>
        exact
          { flows := schemeFlows.normal s.flows
            description := optString.normal s.description
            oauth2MetadataUrl := optString.normal s.oauth2MetadataUrl }
    | openIdConnect s => exact optString.normal s.description
    | mutualTls s => exact optString.normal s.description

/-! ## the card -/

namespace AgentCard

attribute [ext] AgentCard

structure Canonical (c : AgentCard) : Prop where
  supportedInterfaces : ∀ i ∈ c.supportedInterfaces, i.Canonical
  capabilities : c.capabilities.Canonical
  skills : agentSkillFormat.list.Canonical c.skills
  securitySchemes : (securitySchemeFormat.entries String).Canonical c.securitySchemes
  securityRequirements : securityRequirementFormat.items.Canonical c.securityRequirements
  signatures : agentCardSignatureFormat.items.Canonical c.signatures

/-- A card all of whose interfaces are settled. -/
def Settled (c : AgentCard) : Prop := ∀ i ∈ c.supportedInterfaces, i.Settled

/-- What is left of a card after a trip. -/
def norm (c : AgentCard) : AgentCard := fromProtoAgentCard (toProtoAgentCard c)

theorem norm_supportedInterfaces (c : AgentCard) :
    c.norm.supportedInterfaces = c.supportedInterfaces.map AgentInterface.norm := by
  show List.map _ (List.map _ c.supportedInterfaces) = _
  rw [List.map_map]
  rfl

theorem norm_of_canonical {c : AgentCard} (h : c.Canonical) : c.norm = c := by
  have hifaces : c.norm.supportedInterfaces = c.supportedInterfaces := by
    rw [norm_supportedInterfaces]
    exact (List.map_congr_left fun i hi =>
      AgentInterface.norm_of_canonical (h.supportedInterfaces i hi)).trans (List.map_id _)
  exact AgentCard.ext rfl rfl rfl hifaces (agentCapabilitiesFormat.roundTrip _ h.capabilities)
    rfl rfl (agentSkillFormat.list.roundTrip _ h.skills)
    (agentProviderFormat.option.roundTrip _ fun _ _ => trivial) rfl rfl
    ((securitySchemeFormat.entries String).roundTrip _ h.securitySchemes)
    (securityRequirementFormat.items.roundTrip _ h.securityRequirements)
    (agentCardSignatureFormat.items.roundTrip _ h.signatures)

/-- A second trip changes a card in its interfaces only. -/
theorem norm_norm_iff (c : AgentCard) : c.norm.norm = c.norm ↔ c.Settled := by
  have hifaces : c.norm.norm = c.norm ↔
      c.norm.norm.supportedInterfaces = c.norm.supportedInterfaces := by
    constructor
    · exact fun h => congrArg AgentCard.supportedInterfaces h
    · exact fun h => AgentCard.ext rfl rfl rfl h (agentCapabilitiesFormat.norm_norm c.capabilities)
        rfl rfl (agentSkillFormat.list.norm_norm c.skills)
        (agentProviderFormat.option.norm_norm c.provider) rfl rfl
        ((securitySchemeFormat.entries String).norm_norm c.securitySchemes)
        (securityRequirementFormat.items.norm_norm c.securityRequirements)
        (agentCardSignatureFormat.items.norm_norm c.signatures)
  rw [hifaces, norm_supportedInterfaces, norm_supportedInterfaces, List.map_map,
    List.map_inj_left]
  exact forall₂_congr fun i _ => i.norm_norm_iff

end AgentCard

/-! ## the whole format -/

section ComesBack

variable {α β : Type}

/-- `x` comes back if it is canonical, and a second trip changes nothing. -/
def ComesBack (encode : α → β) (decode : β → α) (Canonical : α → Prop) (x : α) : Prop :=
  (Canonical x → decode (encode x) = x) ∧
    decode (encode (decode (encode x))) = decode (encode x)

/-- The same where the reader may refuse: it never does. -/
def ComesBackSome (encode : α → β) (decode : β → Option α) (Canonical : α → Prop)
    (x : α) : Prop :=
  (Canonical x → decode (encode x) = some x) ∧
    ∃ y, decode (encode x) = some y ∧ decode (encode y) = some y

theorem Format.comesBack (f : Format α β) (x : α) :
    ComesBack f.encode f.decode f.Canonical x := ⟨f.roundTrip x, f.norm_norm x⟩

theorem PartialFormat.comesBackSome (f : PartialFormat α β) (x : α) :
    ComesBackSome f.encode f.decode f.Canonical x := by
  refine ⟨f.decode_of_canonical, f.norm x, f.decode_encode x, ?_⟩
  rw [f.decode_encode, f.norm_norm]

end ComesBack

theorem AgentInterface.comesBack_iff (i : AgentInterface) :
    ComesBack toProtoAgentInterface fromProtoAgentInterface Canonical i ↔ i.Settled := by
  rw [← i.norm_norm_iff]
  exact ⟨fun h => h.2, fun h => ⟨norm_of_canonical, h⟩⟩

theorem AgentCard.comesBack_iff (c : AgentCard) :
    ComesBack toProtoAgentCard fromProtoAgentCard Canonical c ↔ c.Settled := by
  rw [← c.norm_norm_iff]
  exact ⟨fun h => h.2, fun h => ⟨norm_of_canonical, h⟩⟩

/-- A value of one of the converted types. -/
inductive Converted
  | value (x : Value)
  | struct (x : Metadata)
  | timestamp (x : Option DateTime)
  | part (x : Part)
  | message (x : Message)
  | taskStatus (x : TaskStatus)
  | artifact (x : Artifact)
  | task (x : Task)
  | taskStatusUpdateEvent (x : TaskStatusUpdateEvent)
  | taskArtifactUpdateEvent (x : TaskArtifactUpdateEvent)
  | streamResponse (x : StreamResponse)
  | sendMessageResponse (x : SendMessageResponse)
  | sendMessageConfiguration (x : SendMessageConfiguration)
  | sendMessageRequest (x : SendMessageRequest)
  | getTaskRequest (x : GetTaskRequest)
  | listTasksRequest (x : ListTasksRequest)
  | listTasksResponse (x : ListTasksResponse)
  | cancelTaskRequest (x : CancelTaskRequest)
  | subscribeToTaskRequest (x : SubscribeToTaskRequest)
  | getExtendedAgentCardRequest (x : GetExtendedAgentCardRequest)
  | authenticationInfo (x : AuthenticationInfo)
  | taskPushNotificationConfig (x : TaskPushNotificationConfig)
  | createTaskPushNotificationConfigRequest (x : TaskPushNotificationConfig)
  | getTaskPushNotificationConfigRequest (x : GetTaskPushNotificationConfigRequest)
  | deleteTaskPushNotificationConfigRequest (x : DeleteTaskPushNotificationConfigRequest)
  | listTaskPushNotificationConfigsRequest (x : ListTaskPushNotificationConfigsRequest)
  | listTaskPushNotificationConfigsResponse (x : ListTaskPushNotificationConfigsResponse)
  | agentProvider (x : AgentProvider)
  | agentExtension (x : AgentExtension)
  | agentCapabilities (x : AgentCapabilities)
  | securityRequirement (x : SecurityRequirement)
  | oauthFlows (x : OAuthFlows)
  | securityScheme (x : SecurityScheme)
  | agentSkill (x : AgentSkill)
  | agentCardSignature (x : AgentCardSignature)
  | agentInterface (x : AgentInterface)
  | agentCard (x : AgentCard)

namespace Converted

/-- The value comes back if it is canonical, and a second trip changes
nothing; `newId` is the id for a message that is missing. -/
def RoundTrips (newId : String) : Converted → Prop
  | .value x => ComesBack jsonValueToProtoValue protoValueToJsonValue Value.Canonical x
  | .struct x => ComesBack toProtoStruct fromProtoStruct structFormat.Canonical x
  | .timestamp x =>
      ComesBack (·.bind toProtoTimestamp) (·.bind fromProtoTimestamp) optTimestamp.Canonical x
  | .part x => ComesBack toProtoPart fromProtoPart Part.Canonical x
  | .message x => ComesBack toProtoMessage fromProtoMessage Message.Canonical x
  | .taskStatus x => ComesBack toProtoTaskStatus fromProtoTaskStatus TaskStatus.Canonical x
  | .artifact x => ComesBack toProtoArtifact fromProtoArtifact Artifact.Canonical x
  | .task x => ComesBack toProtoTask fromProtoTask Task.Canonical x
  | .taskStatusUpdateEvent x =>
      ComesBack toProtoTaskStatusUpdateEvent fromProtoTaskStatusUpdateEvent
        TaskStatusUpdateEvent.Canonical x
  | .taskArtifactUpdateEvent x =>
      ComesBack toProtoTaskArtifactUpdateEvent fromProtoTaskArtifactUpdateEvent
        TaskArtifactUpdateEvent.Canonical x
  | .streamResponse x =>
      ComesBackSome toProtoStreamResponse fromProtoStreamResponse StreamResponse.Canonical x
  | .sendMessageResponse x =>
      ComesBackSome toProtoSendMessageResponse fromProtoSendMessageResponse
        SendMessageResponse.Canonical x
  | .sendMessageConfiguration x =>
      ComesBack toProtoSendMessageConfiguration fromProtoSendMessageConfiguration
        SendMessageConfiguration.Canonical x
  | .sendMessageRequest x =>
      ComesBack toProtoSendMessageRequest (fromProtoSendMessageRequest newId)
        SendMessageRequest.Canonical x
  | .getTaskRequest x =>
      ComesBack toProtoGetTaskRequest fromProtoGetTaskRequest GetTaskRequest.Canonical x
  | .listTasksRequest x =>
      ComesBack toProtoListTasksRequest fromProtoListTasksRequest ListTasksRequest.Canonical x
  | .listTasksResponse x =>
      ComesBack toProtoListTasksResponse fromProtoListTasksResponse
        ListTasksResponse.Canonical x
  | .cancelTaskRequest x =>
      ComesBack toProtoCancelTaskRequest fromProtoCancelTaskRequest
        CancelTaskRequest.Canonical x
  | .subscribeToTaskRequest x =>
      ComesBack toProtoSubscribeToTaskRequest fromProtoSubscribeToTaskRequest
        SubscribeToTaskRequest.Canonical x
  | .getExtendedAgentCardRequest x =>
      ComesBack toProtoGetExtendedAgentCardRequest fromProtoGetExtendedAgentCardRequest
        GetExtendedAgentCardRequest.Canonical x
  | .authenticationInfo x =>
      ComesBack toProtoAuthenticationInfo fromProtoAuthenticationInfo
        AuthenticationInfo.Canonical x
  | .taskPushNotificationConfig x =>
      ComesBack toProtoTaskPushNotificationConfig fromProtoTaskPushNotificationConfig
        TaskPushNotificationConfig.Canonical x
  | .createTaskPushNotificationConfigRequest x =>
      ComesBack toProtoCreateTaskPushNotificationConfigRequest
        fromProtoCreateTaskPushNotificationConfigRequest TaskPushNotificationConfig.Canonical x
  | .getTaskPushNotificationConfigRequest x =>
      ComesBack toProtoGetTaskPushNotificationConfigRequest
        fromProtoGetTaskPushNotificationConfigRequest
        GetTaskPushNotificationConfigRequest.Canonical x
  | .deleteTaskPushNotificationConfigRequest x =>
      ComesBack toProtoDeleteTaskPushNotificationConfigRequest
        fromProtoDeleteTaskPushNotificationConfigRequest
        DeleteTaskPushNotificationConfigRequest.Canonical x
  | .listTaskPushNotificationConfigsRequest x =>
      ComesBack toProtoListTaskPushNotificationConfigsRequest
        fromProtoListTaskPushNotificationConfigsRequest
        ListTaskPushNotificationConfigsRequest.Canonical x
  | .listTaskPushNotificationConfigsResponse x =>
      ComesBack toProtoListTaskPushNotificationConfigsResponse
        fromProtoListTaskPushNotificationConfigsResponse
        ListTaskPushNotificationConfigsResponse.Canonical x
  | .agentProvider x => ComesBack toProtoAgentProvider fromProtoAgentProvider (fun _ => True) x
  | .agentExtension x =>
      ComesBack toProtoAgentExtension fromProtoAgentExtension AgentExtension.Canonical x
  | .agentCapabilities x =>
      ComesBack toProtoAgentCapabilities fromProtoAgentCapabilities
        AgentCapabilities.Canonical x
  | .securityRequirement x =>
      ComesBack toProtoSecurityRequirement fromProtoSecurityRequirement (fun _ => True) x
  | .oauthFlows x => ComesBackSome toProtoOauthFlows fromProtoOauthFlows OAuthFlows.Canonical x
  | .securityScheme x =>
      ComesBackSome toProtoSecurityScheme fromProtoSecurityScheme SecurityScheme.Canonical x
  | .agentSkill x => ComesBack toProtoAgentSkill fromProtoAgentSkill AgentSkill.Canonical x
  | .agentCardSignature x =>
      ComesBack toProtoAgentCardSignature fromProtoAgentCardSignature
        AgentCardSignature.Canonical x
  | .agentInterface x =>
      ComesBack toProtoAgentInterface fromProtoAgentInterface AgentInterface.Canonical x
  | .agentCard x => ComesBack toProtoAgentCard fromProtoAgentCard AgentCard.Canonical x

/-- The condition under which it does: only interfaces need one. -/
def Settled : Converted → Prop
  | .agentInterface x => x.Settled
  | .agentCard x => x.Settled
  | _ => True

end Converted

/-- **Everything that is converted survives as much as it should**, but for
the interfaces of a card, which do exactly when they are settled. -/
theorem pbconv_roundTrip (newId : String) (x : Converted) : x.RoundTrips newId ↔ x.Settled := by
  cases x with
  | value x => exact iff_of_true (valueFormat.comesBack x) trivial
  | struct x => exact iff_of_true (structFormat.comesBack x) trivial
  | timestamp x => exact iff_of_true (optTimestamp.comesBack x) trivial
  | part x => exact iff_of_true (partFormat.comesBack x) trivial
  | message x => exact iff_of_true (messageFormat.comesBack x) trivial
  | taskStatus x => exact iff_of_true (taskStatusFormat.comesBack x) trivial
  | artifact x => exact iff_of_true (artifactFormat.comesBack x) trivial
  | task x => exact iff_of_true (taskFormat.comesBack x) trivial
  | taskStatusUpdateEvent x => exact iff_of_true (taskStatusUpdateEventFormat.comesBack x) trivial
  | taskArtifactUpdateEvent x =>
      exact iff_of_true (taskArtifactUpdateEventFormat.comesBack x) trivial
  | streamResponse x => exact iff_of_true (streamResponseFormat.comesBackSome x) trivial
  | sendMessageResponse x => exact iff_of_true (sendMessageResponseFormat.comesBackSome x) trivial
  | sendMessageConfiguration x =>
      exact iff_of_true (sendMessageConfigurationFormat.comesBack x) trivial
  | sendMessageRequest x =>
      exact iff_of_true ((sendMessageRequestFormat newId).comesBack x) trivial
  | getTaskRequest x => exact iff_of_true (getTaskRequestFormat.comesBack x) trivial
  | listTasksRequest x => exact iff_of_true (listTasksRequestFormat.comesBack x) trivial
  | listTasksResponse x => exact iff_of_true (listTasksResponseFormat.comesBack x) trivial
  | cancelTaskRequest x => exact iff_of_true (cancelTaskRequestFormat.comesBack x) trivial
  | subscribeToTaskRequest x =>
      exact iff_of_true (subscribeToTaskRequestFormat.comesBack x) trivial
  | getExtendedAgentCardRequest x =>
      exact iff_of_true (getExtendedAgentCardRequestFormat.comesBack x) trivial
  | authenticationInfo x => exact iff_of_true (authenticationInfoFormat.comesBack x) trivial
  | taskPushNotificationConfig x =>
      exact iff_of_true (taskPushNotificationConfigFormat.comesBack x) trivial
  | createTaskPushNotificationConfigRequest x =>
      exact iff_of_true (taskPushNotificationConfigFormat.comesBack x) trivial
  | getTaskPushNotificationConfigRequest x =>
      exact iff_of_true (getTaskPushNotificationConfigRequestFormat.comesBack x) trivial
  | deleteTaskPushNotificationConfigRequest x =>
      exact iff_of_true (deleteTaskPushNotificationConfigRequestFormat.comesBack x) trivial
  | listTaskPushNotificationConfigsRequest x =>
      exact iff_of_true (listTaskPushNotificationConfigsRequestFormat.comesBack x) trivial
  | listTaskPushNotificationConfigsResponse x =>
      exact iff_of_true (listTaskPushNotificationConfigsResponseFormat.comesBack x) trivial
  | agentProvider x => exact iff_of_true (agentProviderFormat.comesBack x) trivial
  | agentExtension x => exact iff_of_true (agentExtensionFormat.comesBack x) trivial
  | agentCapabilities x => exact iff_of_true (agentCapabilitiesFormat.comesBack x) trivial
  | securityRequirement x => exact iff_of_true (securityRequirementFormat.comesBack x) trivial
  | oauthFlows x => exact iff_of_true (oauthFlowsFormat.comesBackSome x) trivial
  | securityScheme x => exact iff_of_true (securitySchemeFormat.comesBackSome x) trivial
  | agentSkill x => exact iff_of_true (agentSkillFormat.comesBack x) trivial
  | agentCardSignature x => exact iff_of_true (agentCardSignatureFormat.comesBack x) trivial
  | agentInterface x => exact x.comesBack_iff
  | agentCard x => exact x.comesBack_iff

/-- An interface whose address has three schemes. -/
def threeSchemes : AgentInterface where
  url := "http://http://http://h"
  protocolBinding := "GRPC"
  protocolVersion := version
  tenant := none

/-- The second trip changes it. -/
theorem threeSchemes_changes :
    ¬(Converted.agentInterface threeSchemes).RoundTrips "m" ∧
      fromProtoAgentInterface (toProtoAgentInterface threeSchemes) ≠
        fromProtoAgentInterface (toProtoAgentInterface
          (fromProtoAgentInterface (toProtoAgentInterface threeSchemes))) := by
  suffices hne : fromProtoAgentInterface (toProtoAgentInterface threeSchemes) ≠
      fromProtoAgentInterface (toProtoAgentInterface
        (fromProtoAgentInterface (toProtoAgentInterface threeSchemes))) from
    ⟨fun h => hne h.2.symm, hne⟩
  intro h
  have hsettled := threeSchemes.norm_norm_iff.mp h.symm
  have hgrpc : threeSchemes.IsGrpc := by
    show eqIgnoreAsciiCase "GRPC" "GRPC" = true
    rw [eqIgnoreAsciiCase, decide_eq_true rfl]
  exact hsettled hgrpc "h" (by decide)

end A2a
