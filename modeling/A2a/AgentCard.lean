import A2a.Types

/-!
# A2a.AgentCard

The agent card (`a2a/src/agent_card.rs`): what an agent says of itself, how
it is reached and how calls to it are authorized.
-/

namespace A2a

/-! ## interfaces -/

/-- Where and over which transport an agent is reached. -/
structure AgentInterface where
  url : String
  protocolBinding : String
  protocolVersion : String
  tenant : Option String

def transportProtocolGrpc : String := "GRPC"

/-- The protocol version the library speaks (`a2a::VERSION`). -/
def version : String := "1.0"

/-- `str::eq_ignore_ascii_case`. -/
def eqIgnoreAsciiCase (a b : String) : Bool :=
  a.toList.map Char.toLower = b.toList.map Char.toLower

/-- `str::strip_prefix`. -/
def stripPrefix (lead s : String) : Option String :=
  if lead.toList.isPrefixOf s.toList then some (String.ofList (s.toList.drop lead.toList.length))
  else none

theorem stripPrefix_eq_some {lead s t : String} :
    stripPrefix lead s = some t ↔ s = lead ++ t := by
  rw [stripPrefix]
  constructor
  · intro h
    split at h
    · next hlead =>
      obtain rfl := Option.some.inj h
      obtain ⟨rest, hrest⟩ := List.isPrefixOf_iff_prefix.mp hlead
      apply String.toList_injective
      rw [String.toList_append, String.toList_ofList, ← hrest, List.drop_left]
    · contradiction
  · rintro rfl
    have hlead : lead.toList.isPrefixOf (lead ++ t).toList = true := by
      rw [List.isPrefixOf_iff_prefix, String.toList_append]
      exact List.prefix_append _ _
    rw [if_pos hlead, String.toList_append, List.drop_left, String.ofList_toList]

/-- What is before the first separator. -/
theorem head?_splitOn (sep : Char) (cs : List Char) :
    (cs.splitOn sep).head? = some (cs.takeWhile fun c => !(c == sep)) := by
  induction cs with
  | nil => rfl
  | cons c rest ih =>
      rw [List.splitOn_cons_eq_if_modifyHead, List.takeWhile_cons]
      by_cases hc : (c == sep) = true
      · rw [if_pos hc, hc]
        rfl
      · have hkeep : (!(c == sep)) = true := by
          rw [Bool.not_eq_true', Bool.eq_false_iff]
          exact hc
        rw [if_neg hc, if_pos hkeep, List.head?_modifyHead, ih]
        rfl

/-- `normalize_agent_interface_url`: a gRPC address goes without its scheme. -/
def normalizeAgentInterfaceUrl (url protocolBinding : String) : String :=
  if eqIgnoreAsciiCase protocolBinding transportProtocolGrpc then
    (stripPrefix "http://" url).getD url
  else url

namespace AgentInterface

def new (url protocolBinding : String) : AgentInterface where
  url := normalizeAgentInterfaceUrl url protocolBinding
  protocolBinding := protocolBinding
  protocolVersion := version
  tenant := none

def wireUrl (i : AgentInterface) : String := normalizeAgentInterfaceUrl i.url i.protocolBinding

end AgentInterface

/-! ## security -/

structure AuthorizationCodeOAuthFlow where
  authorizationUrl : String
  tokenUrl : String
  scopes : Finmap fun _ : String => String
  refreshUrl : Option String
  pkceRequired : Option Bool

structure ClientCredentialsOAuthFlow where
  tokenUrl : String
  scopes : Finmap fun _ : String => String
  refreshUrl : Option String

structure DeviceCodeOAuthFlow where
  deviceAuthorizationUrl : String
  tokenUrl : String
  scopes : Finmap fun _ : String => String
  refreshUrl : Option String

structure ImplicitOAuthFlow where
  authorizationUrl : String
  scopes : Finmap fun _ : String => String
  refreshUrl : Option String

structure PasswordOAuthFlow where
  tokenUrl : String
  scopes : Finmap fun _ : String => String
  refreshUrl : Option String

inductive OAuthFlows
  | authorizationCode (flow : AuthorizationCodeOAuthFlow)
  | clientCredentials (flow : ClientCredentialsOAuthFlow)
  | deviceCode (flow : DeviceCodeOAuthFlow)
  | implicit (flow : ImplicitOAuthFlow)
  | password (flow : PasswordOAuthFlow)

structure ApiKeySecurityScheme where
  location : String
  name : String
  description : Option String

structure HttpAuthSecurityScheme where
  scheme : String
  description : Option String
  bearerFormat : Option String

structure OAuth2SecurityScheme where
  flows : OAuthFlows
  description : Option String
  oauth2MetadataUrl : Option String

structure OpenIdConnectSecurityScheme where
  openIdConnectUrl : String
  description : Option String

structure MutualTlsSecurityScheme where
  description : Option String

/-- A way to authorize a call. -/
inductive SecurityScheme
  | apiKey (scheme : ApiKeySecurityScheme)
  | httpAuth (scheme : HttpAuthSecurityScheme)
  | oauth2 (scheme : OAuth2SecurityScheme)
  | openIdConnect (scheme : OpenIdConnectSecurityScheme)
  | mutualTls (scheme : MutualTlsSecurityScheme)

/-- The schemes to be satisfied together, each with its scopes. -/
abbrev SecurityRequirement := Finmap fun _ : String => List String

/-! ## the card -/

structure AgentProvider where
  organization : String
  url : String

/-- What an agent can be asked to do. -/
structure AgentSkill where
  id : String
  name : String
  description : String
  tags : List String
  examples : Option (List String)
  inputModes : Option (List String)
  outputModes : Option (List String)
  securityRequirements : Option (List SecurityRequirement)

structure AgentCardSignature where
  /-- `protected` -/
  protectedHeader : String
  signature : String
  header : Option Metadata

structure AgentCard where
  name : String
  description : String
  version : String
  supportedInterfaces : List AgentInterface
  capabilities : AgentCapabilities
  defaultInputModes : List String
  defaultOutputModes : List String
  skills : List AgentSkill
  provider : Option AgentProvider
  documentationUrl : Option String
  iconUrl : Option String
  securitySchemes : Option (Finmap fun _ : String => SecurityScheme)
  securityRequirements : Option (List SecurityRequirement)
  signatures : Option (List AgentCardSignature)

end A2a
