import A2a.AgentCard
import A2a.Json

/-!
# A2a.AgentCard.Json

The agent card as JSON (`a2a/src/agent_card.rs`).

Each type is read as it was written, but for the interfaces: their URL is
normalized on both ways (`AgentInterface.fromValue_toValue`), and a card
comes back as it was exactly if no gRPC interface has a URL that still
begins with `http://` (`agentCard_roundTrip`).
-/

namespace A2a

/-! ## OAuth flows -/

namespace AuthorizationCodeOAuthFlow

def keys : List String := ["authorizationUrl", "tokenUrl", "scopes", "refreshUrl", "pkceRequired"]

def entries (s : AuthorizationCodeOAuthFlow) : List (String × Option Value) :=
  [("authorizationUrl", some (Json.string.write s.authorizationUrl)),
    ("tokenUrl", some (Json.string.write s.tokenUrl)),
    ("scopes", some (Json.string.map.write s.scopes)),
    ("refreshUrl", s.refreshUrl.map Json.string.write),
    ("pkceRequired", s.pkceRequired.map Json.bool.write)]

def fromValue : Value → Except String AuthorizationCodeOAuthFlow := readStruct keys fun fields => do
  return {
    authorizationUrl := ← readRequired Json.string.read "authorizationUrl" fields
    tokenUrl := ← readRequired Json.string.read "tokenUrl" fields
    scopes := ← readRequired Json.string.map.read "scopes" fields
    refreshUrl := ← readOptional Json.string.read "refreshUrl" fields
    pkceRequired := ← readOptional Json.bool.read "pkceRequired" fields }

/-- A flow with an authorization code is read as it was written. -/
theorem fromValue_struct (s : AuthorizationCodeOAuthFlow) : fromValue (.struct s.entries) = .ok s := by
  have hkeys : (s.entries.map (·.1)).Nodup := (by decide : keys.Nodup)
  rw [fromValue, readStruct_struct]
  simp only [readRequired_written hkeys, readOptional_written hkeys]
  simp [entries, List.lookup_cons, bind, Except.bind, pure, Except.pure]

def json : Json AuthorizationCodeOAuthFlow := .ofStruct entries fromValue fromValue_struct

end AuthorizationCodeOAuthFlow

namespace ClientCredentialsOAuthFlow

def keys : List String := ["tokenUrl", "scopes", "refreshUrl"]

def entries (s : ClientCredentialsOAuthFlow) : List (String × Option Value) :=
  [("tokenUrl", some (Json.string.write s.tokenUrl)),
    ("scopes", some (Json.string.map.write s.scopes)),
    ("refreshUrl", s.refreshUrl.map Json.string.write)]

def fromValue : Value → Except String ClientCredentialsOAuthFlow := readStruct keys fun fields => do
  return {
    tokenUrl := ← readRequired Json.string.read "tokenUrl" fields
    scopes := ← readRequired Json.string.map.read "scopes" fields
    refreshUrl := ← readOptional Json.string.read "refreshUrl" fields }

/-- So is one with the client's credentials. -/
theorem fromValue_struct (s : ClientCredentialsOAuthFlow) : fromValue (.struct s.entries) = .ok s := by
  have hkeys : (s.entries.map (·.1)).Nodup := (by decide : keys.Nodup)
  rw [fromValue, readStruct_struct]
  simp only [readRequired_written hkeys, readOptional_written hkeys]
  simp [entries, List.lookup_cons, bind, Except.bind, pure, Except.pure]

def json : Json ClientCredentialsOAuthFlow := .ofStruct entries fromValue fromValue_struct

end ClientCredentialsOAuthFlow

namespace DeviceCodeOAuthFlow

def keys : List String := ["deviceAuthorizationUrl", "tokenUrl", "scopes", "refreshUrl"]

def entries (s : DeviceCodeOAuthFlow) : List (String × Option Value) :=
  [("deviceAuthorizationUrl", some (Json.string.write s.deviceAuthorizationUrl)),
    ("tokenUrl", some (Json.string.write s.tokenUrl)),
    ("scopes", some (Json.string.map.write s.scopes)),
    ("refreshUrl", s.refreshUrl.map Json.string.write)]

def fromValue : Value → Except String DeviceCodeOAuthFlow := readStruct keys fun fields => do
  return {
    deviceAuthorizationUrl := ← readRequired Json.string.read "deviceAuthorizationUrl" fields
    tokenUrl := ← readRequired Json.string.read "tokenUrl" fields
    scopes := ← readRequired Json.string.map.read "scopes" fields
    refreshUrl := ← readOptional Json.string.read "refreshUrl" fields }

/-- So is one with a device code. -/
theorem fromValue_struct (s : DeviceCodeOAuthFlow) : fromValue (.struct s.entries) = .ok s := by
  have hkeys : (s.entries.map (·.1)).Nodup := (by decide : keys.Nodup)
  rw [fromValue, readStruct_struct]
  simp only [readRequired_written hkeys, readOptional_written hkeys]
  simp [entries, List.lookup_cons, bind, Except.bind, pure, Except.pure]

def json : Json DeviceCodeOAuthFlow := .ofStruct entries fromValue fromValue_struct

end DeviceCodeOAuthFlow

namespace ImplicitOAuthFlow

def keys : List String := ["authorizationUrl", "scopes", "refreshUrl"]

def entries (s : ImplicitOAuthFlow) : List (String × Option Value) :=
  [("authorizationUrl", some (Json.string.write s.authorizationUrl)),
    ("scopes", some (Json.string.map.write s.scopes)),
    ("refreshUrl", s.refreshUrl.map Json.string.write)]

def fromValue : Value → Except String ImplicitOAuthFlow := readStruct keys fun fields => do
  return {
    authorizationUrl := ← readRequired Json.string.read "authorizationUrl" fields
    scopes := ← readRequired Json.string.map.read "scopes" fields
    refreshUrl := ← readOptional Json.string.read "refreshUrl" fields }

/-- So is the implicit one. -/
theorem fromValue_struct (s : ImplicitOAuthFlow) : fromValue (.struct s.entries) = .ok s := by
  have hkeys : (s.entries.map (·.1)).Nodup := (by decide : keys.Nodup)
  rw [fromValue, readStruct_struct]
  simp only [readRequired_written hkeys, readOptional_written hkeys]
  simp [entries, List.lookup_cons, bind, Except.bind, pure, Except.pure]

def json : Json ImplicitOAuthFlow := .ofStruct entries fromValue fromValue_struct

end ImplicitOAuthFlow

namespace PasswordOAuthFlow

def keys : List String := ["tokenUrl", "scopes", "refreshUrl"]

def entries (s : PasswordOAuthFlow) : List (String × Option Value) :=
  [("tokenUrl", some (Json.string.write s.tokenUrl)),
    ("scopes", some (Json.string.map.write s.scopes)),
    ("refreshUrl", s.refreshUrl.map Json.string.write)]

def fromValue : Value → Except String PasswordOAuthFlow := readStruct keys fun fields => do
  return {
    tokenUrl := ← readRequired Json.string.read "tokenUrl" fields
    scopes := ← readRequired Json.string.map.read "scopes" fields
    refreshUrl := ← readOptional Json.string.read "refreshUrl" fields }

/-- So is the one with a password. -/
theorem fromValue_struct (s : PasswordOAuthFlow) : fromValue (.struct s.entries) = .ok s := by
  have hkeys : (s.entries.map (·.1)).Nodup := (by decide : keys.Nodup)
  rw [fromValue, readStruct_struct]
  simp only [readRequired_written hkeys, readOptional_written hkeys]
  simp [entries, List.lookup_cons, bind, Except.bind, pure, Except.pure]

def json : Json PasswordOAuthFlow := .ofStruct entries fromValue fromValue_struct

end PasswordOAuthFlow

namespace OAuthFlows

def toValue : OAuthFlows → Value
  | .authorizationCode s => .object [("authorizationCode", AuthorizationCodeOAuthFlow.json.write s)]
  | .clientCredentials s => .object [("clientCredentials", ClientCredentialsOAuthFlow.json.write s)]
  | .deviceCode s => .object [("deviceCode", DeviceCodeOAuthFlow.json.write s)]
  | .implicit s => .object [("implicit", ImplicitOAuthFlow.json.write s)]
  | .password s => .object [("password", PasswordOAuthFlow.json.write s)]

/-- The alternatives, by the key that tells them. -/
def alternatives : List (String × (Value → Except String OAuthFlows)) :=
  [("authorizationCode", fun v => (AuthorizationCodeOAuthFlow.json.read v).map .authorizationCode),
    ("clientCredentials", fun v => (ClientCredentialsOAuthFlow.json.read v).map .clientCredentials),
    ("deviceCode", fun v => (DeviceCodeOAuthFlow.json.read v).map .deviceCode),
    ("implicit", fun v => (ImplicitOAuthFlow.json.read v).map .implicit),
    ("password", fun v => (PasswordOAuthFlow.json.read v).map .password)]

def fromValue : Value → Except String OAuthFlows
  | .object fields => readUnion "unknown OAuth flow variant" fields alternatives
  | _ => .error "invalid type, expected a map"

/-- **So are the flows**, by the key of the one there is. -/
theorem fromValue_toValue (s : OAuthFlows) : fromValue s.toValue = .ok s := by
  cases s
  all_goals
    rw [toValue, fromValue, readUnion_single rfl, Json.read_write]
    rfl

def json : Json OAuthFlows := ⟨toValue, fromValue, fromValue_toValue⟩

end OAuthFlows

/-! ## security schemes -/

namespace ApiKeySecurityScheme

def keys : List String := ["location", "name", "description"]

def entries (s : ApiKeySecurityScheme) : List (String × Option Value) :=
  [("location", some (Json.string.write s.location)),
    ("name", some (Json.string.write s.name)),
    ("description", s.description.map Json.string.write)]

def fromValue : Value → Except String ApiKeySecurityScheme := readStruct keys fun fields => do
  return {
    location := ← readRequired Json.string.read "location" fields
    name := ← readRequired Json.string.read "name" fields
    description := ← readOptional Json.string.read "description" fields }

/-- A scheme of an API key is read as it was written. -/
theorem fromValue_struct (s : ApiKeySecurityScheme) : fromValue (.struct s.entries) = .ok s := by
  have hkeys : (s.entries.map (·.1)).Nodup := (by decide : keys.Nodup)
  rw [fromValue, readStruct_struct]
  simp only [readRequired_written hkeys, readOptional_written hkeys]
  simp [entries, List.lookup_cons, bind, Except.bind, pure, Except.pure]

def json : Json ApiKeySecurityScheme := .ofStruct entries fromValue fromValue_struct

end ApiKeySecurityScheme

namespace HttpAuthSecurityScheme

def keys : List String := ["scheme", "description", "bearerFormat"]

def entries (s : HttpAuthSecurityScheme) : List (String × Option Value) :=
  [("scheme", some (Json.string.write s.scheme)),
    ("description", s.description.map Json.string.write),
    ("bearerFormat", s.bearerFormat.map Json.string.write)]

def fromValue : Value → Except String HttpAuthSecurityScheme := readStruct keys fun fields => do
  return {
    scheme := ← readRequired Json.string.read "scheme" fields
    description := ← readOptional Json.string.read "description" fields
    bearerFormat := ← readOptional Json.string.read "bearerFormat" fields }

/-- So is one of an HTTP header. -/
theorem fromValue_struct (s : HttpAuthSecurityScheme) : fromValue (.struct s.entries) = .ok s := by
  have hkeys : (s.entries.map (·.1)).Nodup := (by decide : keys.Nodup)
  rw [fromValue, readStruct_struct]
  simp only [readRequired_written hkeys, readOptional_written hkeys]
  simp [entries, List.lookup_cons, bind, Except.bind, pure, Except.pure]

def json : Json HttpAuthSecurityScheme := .ofStruct entries fromValue fromValue_struct

end HttpAuthSecurityScheme

namespace OAuth2SecurityScheme

def keys : List String := ["flows", "description", "oauth2MetadataUrl"]

def entries (s : OAuth2SecurityScheme) : List (String × Option Value) :=
  [("flows", some (OAuthFlows.json.write s.flows)),
    ("description", s.description.map Json.string.write),
    ("oauth2MetadataUrl", s.oauth2MetadataUrl.map Json.string.write)]

def fromValue : Value → Except String OAuth2SecurityScheme := readStruct keys fun fields => do
  return {
    flows := ← readRequired OAuthFlows.json.read "flows" fields
    description := ← readOptional Json.string.read "description" fields
    oauth2MetadataUrl := ← readOptional Json.string.read "oauth2MetadataUrl" fields }

/-- So is one of OAuth 2. -/
theorem fromValue_struct (s : OAuth2SecurityScheme) : fromValue (.struct s.entries) = .ok s := by
  have hkeys : (s.entries.map (·.1)).Nodup := (by decide : keys.Nodup)
  rw [fromValue, readStruct_struct]
  simp only [readRequired_written hkeys, readOptional_written hkeys]
  simp [entries, List.lookup_cons, bind, Except.bind, pure, Except.pure]

def json : Json OAuth2SecurityScheme := .ofStruct entries fromValue fromValue_struct

end OAuth2SecurityScheme

namespace OpenIdConnectSecurityScheme

def keys : List String := ["openIdConnectUrl", "description"]

def entries (s : OpenIdConnectSecurityScheme) : List (String × Option Value) :=
  [("openIdConnectUrl", some (Json.string.write s.openIdConnectUrl)),
    ("description", s.description.map Json.string.write)]

def fromValue : Value → Except String OpenIdConnectSecurityScheme := readStruct keys fun fields => do
  return {
    openIdConnectUrl := ← readRequired Json.string.read "openIdConnectUrl" fields
    description := ← readOptional Json.string.read "description" fields }

/-- So is one of OpenID Connect. -/
theorem fromValue_struct (s : OpenIdConnectSecurityScheme) : fromValue (.struct s.entries) = .ok s := by
  have hkeys : (s.entries.map (·.1)).Nodup := (by decide : keys.Nodup)
  rw [fromValue, readStruct_struct]
  simp only [readRequired_written hkeys, readOptional_written hkeys]
  simp [entries, List.lookup_cons, bind, Except.bind, pure, Except.pure]

def json : Json OpenIdConnectSecurityScheme := .ofStruct entries fromValue fromValue_struct

end OpenIdConnectSecurityScheme

namespace MutualTlsSecurityScheme

def keys : List String := ["description"]

def entries (s : MutualTlsSecurityScheme) : List (String × Option Value) :=
  [("description", s.description.map Json.string.write)]

def fromValue : Value → Except String MutualTlsSecurityScheme := readStruct keys fun fields => do
  return {
    description := ← readOptional Json.string.read "description" fields }

/-- So is one of mutual TLS. -/
theorem fromValue_struct (s : MutualTlsSecurityScheme) : fromValue (.struct s.entries) = .ok s := by
  have hkeys : (s.entries.map (·.1)).Nodup := (by decide : keys.Nodup)
  rw [fromValue, readStruct_struct]
  simp only [readOptional_written hkeys]
  simp [entries, bind, Except.bind, pure, Except.pure]

def json : Json MutualTlsSecurityScheme := .ofStruct entries fromValue fromValue_struct

end MutualTlsSecurityScheme

namespace SecurityScheme

def toValue : SecurityScheme → Value
  | .apiKey s => .object [("apiKeySecurityScheme", ApiKeySecurityScheme.json.write s)]
  | .httpAuth s => .object [("httpAuthSecurityScheme", HttpAuthSecurityScheme.json.write s)]
  | .oauth2 s => .object [("oauth2SecurityScheme", OAuth2SecurityScheme.json.write s)]
  | .openIdConnect s => .object [("openIdConnectSecurityScheme", OpenIdConnectSecurityScheme.json.write s)]
  | .mutualTls s => .object [("mtlsSecurityScheme", MutualTlsSecurityScheme.json.write s)]

/-- The alternatives, by the key that tells them. -/
def alternatives : List (String × (Value → Except String SecurityScheme)) :=
  [("apiKeySecurityScheme", fun v => (ApiKeySecurityScheme.json.read v).map .apiKey),
    ("httpAuthSecurityScheme", fun v => (HttpAuthSecurityScheme.json.read v).map .httpAuth),
    ("oauth2SecurityScheme", fun v => (OAuth2SecurityScheme.json.read v).map .oauth2),
    ("openIdConnectSecurityScheme", fun v => (OpenIdConnectSecurityScheme.json.read v).map .openIdConnect),
    ("mtlsSecurityScheme", fun v => (MutualTlsSecurityScheme.json.read v).map .mutualTls)]

def fromValue : Value → Except String SecurityScheme
  | .object fields => readUnion "unknown security scheme variant" fields alternatives
  | _ => .error "invalid type, expected a map"

/-- **So is any scheme**, by its key. -/
theorem fromValue_toValue (s : SecurityScheme) : fromValue s.toValue = .ok s := by
  cases s
  all_goals
    rw [toValue, fromValue, readUnion_single rfl, Json.read_write]
    rfl

def json : Json SecurityScheme := ⟨toValue, fromValue, fromValue_toValue⟩

end SecurityScheme

/-! ## security requirements -/

namespace SecurityRequirement

/-- `serialize_optional_security_requirements`, on one: the scopes of each
scheme in an object of their own. -/
def toValue (requirement : SecurityRequirement) : Value :=
  .object [("schemes", .object ((sortedFields requirement).map fun e =>
    (e.1, .object [("list", Json.string.list.write e.2)])))]

/-- The scopes of a scheme, in one of their shapes. -/
def parseScopes (scheme : String) : Value → Except String (List String)
  | .array vs =>
      (Json.string.list.read (.array vs)).mapError fun e =>
        s!"invalid security scopes for {scheme}: {e}"
  | .object fields =>
      match fields.lookup "list" with
      | some list =>
          (Json.string.list.read list).mapError fun e =>
            s!"invalid wrapped security scopes for {scheme}: {e}"
      | none =>
          if fields.isEmpty then .ok []
          else .error s!"invalid wrapped security scopes for {scheme}"
  | _ => .error s!"security scopes for {scheme} must be a list"

/-- `parse_security_requirement_map`. -/
def parseMap : Value → Except String SecurityRequirement
  | .object fields =>
      (fields.mapM fun e => (parseScopes e.1 e.2).map (e.1, ·)).map mapOfFields
  | _ => .error "security requirement schemes must be an object"

/-- `parse_security_requirement_value`. -/
def fromValue (v : Value) : Except String SecurityRequirement :=
  match Json.string.list.map.read v with
  | .ok requirement => .ok requirement
  | .error _ =>
      match v with
      | .object fields =>
          match fields.lookup "schemes" with
          | some schemes => parseMap schemes
          | none => .error "invalid security requirement shape"
      | _ => .error "security requirement must be an object"

/-- The shapes scopes come in. -/
inductive ScopesShape (scopes : List String) : Value → Prop
  | bare : ScopesShape scopes (Json.string.list.write scopes)
  | wrapped : ScopesShape scopes (.object [("list", Json.string.list.write scopes)])
  | empty (h : scopes = []) : ScopesShape scopes (.object [])

/-- Scopes are read from either shape. -/
theorem parseScopes_shape (scheme : String) {scopes : List String} {v : Value}
    (h : ScopesShape scopes v) : parseScopes scheme v = .ok scopes := by
  have hread := Json.string.list.read_write scopes
  cases h with
  | bare =>
      show (Json.string.list.read (Json.string.list.write scopes)).mapError _ = _
      rw [hread]
      rfl
  | wrapped =>
      show (Json.string.list.read (Json.string.list.write scopes)).mapError _ = _
      rw [hread]
      rfl
  | empty h =>
      rw [h]
      rfl

/-- **The shape with `schemes`**, each scheme's scopes in any of theirs. -/
theorem fromValue_schemes (requirement : SecurityRequirement) (shape : String → List String → Value)
    (h : ∀ scheme scopes, ScopesShape scopes (shape scheme scopes)) :
    fromValue (.object [("schemes", .object ((sortedFields requirement).map fun e =>
      (e.1, shape e.1 e.2)))]) = .ok requirement := by
  have hentries (entries : List (String × List String)) :
      ((entries.map fun e => (e.1, shape e.1 e.2)).mapM fun e =>
        (parseScopes e.1 e.2).map (e.1, ·)) = .ok entries := by
    induction entries with
    | nil => rfl
    | cons e entries ih =>
        rw [List.map_cons, List.mapM_cons, parseScopes_shape e.1 (h e.1 e.2), ih]
        rfl
  show (((sortedFields requirement).map fun e => (e.1, shape e.1 e.2)).mapM fun e =>
    (parseScopes e.1 e.2).map (e.1, ·)).map mapOfFields = .ok requirement
  rw [hentries, Except.map, mapOfFields_sortedFields]

/-- **The shape of a plain map.** -/
theorem fromValue_map (requirement : SecurityRequirement) :
    fromValue (Json.string.list.map.write requirement) = .ok requirement := by
  unfold fromValue
  rw [Json.read_write]

/-- A requirement is read as it was written. -/
theorem fromValue_toValue (requirement : SecurityRequirement) :
    fromValue requirement.toValue = .ok requirement :=
  fromValue_schemes requirement _ fun _ _ => .wrapped

def json : Json SecurityRequirement := ⟨toValue, fromValue, fromValue_toValue⟩

end SecurityRequirement


/-! ## the parts of a card -/

namespace AgentProvider

def keys : List String := ["organization", "url"]

def entries (s : AgentProvider) : List (String × Option Value) :=
  [("organization", some (Json.string.write s.organization)),
    ("url", some (Json.string.write s.url))]

def fromValue : Value → Except String AgentProvider := readStruct keys fun fields => do
  return {
    organization := ← readRequired Json.string.read "organization" fields
    url := ← readRequired Json.string.read "url" fields }

/-- So is a provider. -/
theorem fromValue_struct (s : AgentProvider) : fromValue (.struct s.entries) = .ok s := by
  have hkeys : (s.entries.map (·.1)).Nodup := (by decide : keys.Nodup)
  rw [fromValue, readStruct_struct]
  simp only [readRequired_written hkeys]
  simp [entries, List.lookup_cons, bind, Except.bind, pure, Except.pure]

def json : Json AgentProvider := .ofStruct entries fromValue fromValue_struct

@[simp] theorem solid_json : json.Solid := Json.solid_ofStruct _ _ _

end AgentProvider

namespace AgentExtension

def keys : List String := ["uri", "description", "required", "params"]

def entries (s : AgentExtension) : List (String × Option Value) :=
  [("uri", some (Json.string.write s.uri)),
    ("description", s.description.map Json.string.write),
    ("required", s.required.map Json.bool.write),
    ("params", s.params.map Json.value.map.write)]

def fromValue : Value → Except String AgentExtension := readStruct keys fun fields => do
  return {
    uri := ← readRequired Json.string.read "uri" fields
    description := ← readOptional Json.string.read "description" fields
    required := ← readOptional Json.bool.read "required" fields
    params := ← readOptional Json.value.map.read "params" fields }

/-- So is an extension. -/
theorem fromValue_struct (s : AgentExtension) : fromValue (.struct s.entries) = .ok s := by
  have hkeys : (s.entries.map (·.1)).Nodup := (by decide : keys.Nodup)
  rw [fromValue, readStruct_struct]
  simp only [readRequired_written hkeys, readOptional_written hkeys]
  simp [entries, List.lookup_cons, bind, Except.bind, pure, Except.pure]

def json : Json AgentExtension := .ofStruct entries fromValue fromValue_struct

end AgentExtension

namespace AgentCapabilities

def keys : List String := ["streaming", "pushNotifications", "extensions", "extendedAgentCard"]

def entries (s : AgentCapabilities) : List (String × Option Value) :=
  [("streaming", s.streaming.map Json.bool.write),
    ("pushNotifications", s.pushNotifications.map Json.bool.write),
    ("extensions", s.extensions.map AgentExtension.json.list.write),
    ("extendedAgentCard", s.extendedAgentCard.map Json.bool.write)]

def fromValue : Value → Except String AgentCapabilities := readStruct keys fun fields => do
  return {
    streaming := ← readOptional Json.bool.read "streaming" fields
    pushNotifications := ← readOptional Json.bool.read "pushNotifications" fields
    extensions := ← readOptional AgentExtension.json.list.read "extensions" fields
    extendedAgentCard := ← readOptional Json.bool.read "extendedAgentCard" fields }

/-- So are the capabilities. -/
theorem fromValue_struct (s : AgentCapabilities) : fromValue (.struct s.entries) = .ok s := by
  have hkeys : (s.entries.map (·.1)).Nodup := (by decide : keys.Nodup)
  rw [fromValue, readStruct_struct]
  simp only [readOptional_written hkeys]
  simp [entries, List.lookup_cons, bind, Except.bind, pure, Except.pure]

def json : Json AgentCapabilities := .ofStruct entries fromValue fromValue_struct

end AgentCapabilities

namespace AgentSkill

def keys : List String :=
  ["id", "name", "description", "tags", "examples", "inputModes", "outputModes",
    "securityRequirements"]

def entries (s : AgentSkill) : List (String × Option Value) :=
  [("id", some (Json.string.write s.id)),
    ("name", some (Json.string.write s.name)),
    ("description", some (Json.string.write s.description)),
    ("tags", some (Json.string.list.write s.tags)),
    ("examples", s.examples.map Json.string.list.write),
    ("inputModes", s.inputModes.map Json.string.list.write),
    ("outputModes", s.outputModes.map Json.string.list.write),
    ("securityRequirements", s.securityRequirements.map SecurityRequirement.json.list.write)]

def fromValue : Value → Except String AgentSkill := readStruct keys fun fields => do
  return {
    id := ← readRequired Json.string.read "id" fields
    name := ← readRequired Json.string.read "name" fields
    description := ← readRequired Json.string.read "description" fields
    tags := ← readRequired Json.string.list.read "tags" fields
    examples := ← readOptional Json.string.list.read "examples" fields
    inputModes := ← readOptional Json.string.list.read "inputModes" fields
    outputModes := ← readOptional Json.string.list.read "outputModes" fields
    securityRequirements :=
      ← readOptional SecurityRequirement.json.list.read "securityRequirements" fields }

/-- So is a skill. -/
theorem fromValue_struct (s : AgentSkill) : fromValue (.struct s.entries) = .ok s := by
  have hkeys : (s.entries.map (·.1)).Nodup := (by decide : keys.Nodup)
  rw [fromValue, readStruct_struct]
  simp only [readRequired_written hkeys, readOptional_written hkeys]
  simp [entries, List.lookup_cons, bind, Except.bind, pure, Except.pure]

def json : Json AgentSkill := .ofStruct entries fromValue fromValue_struct

end AgentSkill

namespace AgentCardSignature

def keys : List String := ["protected", "signature", "header"]

def entries (s : AgentCardSignature) : List (String × Option Value) :=
  [("protected", some (Json.string.write s.protectedHeader)),
    ("signature", some (Json.string.write s.signature)),
    ("header", s.header.map Json.value.map.write)]

def fromValue : Value → Except String AgentCardSignature := readStruct keys fun fields => do
  return {
    protectedHeader := ← readRequired Json.string.read "protected" fields
    signature := ← readRequired Json.string.read "signature" fields
    header := ← readOptional Json.value.map.read "header" fields }

/-- So is a signature. -/
theorem fromValue_struct (s : AgentCardSignature) : fromValue (.struct s.entries) = .ok s := by
  have hkeys : (s.entries.map (·.1)).Nodup := (by decide : keys.Nodup)
  rw [fromValue, readStruct_struct]
  simp only [readRequired_written hkeys, readOptional_written hkeys]
  simp [entries, List.lookup_cons, bind, Except.bind, pure, Except.pure]

def json : Json AgentCardSignature := .ofStruct entries fromValue fromValue_struct

end AgentCardSignature

/-! ## interfaces -/

namespace AgentInterface

def keys : List String := ["url", "protocolBinding", "protocolVersion", "tenant"]

/-- `AgentInterface::serialize`. -/
def entries (i : AgentInterface) : List (String × Option Value) :=
  [("url", some (Json.string.write i.wireUrl)),
    ("protocolBinding", some (Json.string.write i.protocolBinding)),
    ("protocolVersion", some (Json.string.write i.protocolVersion)),
    ("tenant", i.tenant.map Json.string.write)]

/-- `AgentInterface::deserialize`. -/
def fromValue : Value → Except String AgentInterface := readStruct keys fun fields => do
  let url ← readRequired Json.string.read "url" fields
  let protocolBinding ← readRequired Json.string.read "protocolBinding" fields
  return {
    url := normalizeAgentInterfaceUrl url protocolBinding
    protocolBinding := protocolBinding
    protocolVersion := ← readRequired Json.string.read "protocolVersion" fields
    tenant := ← readOptional Json.string.read "tenant" fields }

/-- An interface once it was sent. -/
def resent (i : AgentInterface) : AgentInterface :=
  { i with url := normalizeAgentInterfaceUrl i.wireUrl i.protocolBinding }

/-- An interface is read with its URL made normal once more. -/
theorem fromValue_struct (i : AgentInterface) : fromValue (.struct i.entries) = .ok i.resent := by
  have hkeys : (i.entries.map (·.1)).Nodup := (by decide : keys.Nodup)
  rw [fromValue, readStruct_struct]
  simp only [readRequired_written hkeys, readOptional_written hkeys]
  simp [entries, resent, List.lookup_cons, bind, Except.bind, pure, Except.pure]

/-- A gRPC address that begins with a scheme to be stripped. -/
def Prefixed (i : AgentInterface) : Prop :=
  eqIgnoreAsciiCase i.protocolBinding transportProtocolGrpc = true ∧
    (stripPrefix "http://" i.url).isSome = true

end AgentInterface

/-- What is stripped and what is left make up the text. -/
theorem stripPrefix_length {lead s rest : String} (h : stripPrefix lead s = some rest) :
    s.toList.length = lead.toList.length + rest.toList.length := by
  rw [stripPrefix_eq_some.mp h, String.toList_append, List.length_append]

/-- A normal URL is no longer than it was. -/
theorem normalizeAgentInterfaceUrl_length (url protocolBinding : String) :
    (normalizeAgentInterfaceUrl url protocolBinding).toList.length ≤ url.toList.length := by
  unfold normalizeAgentInterfaceUrl
  split
  · cases h : stripPrefix "http://" url with
    | none => exact Nat.le_refl _
    | some rest =>
        have hlength := stripPrefix_length h
        rw [Option.getD_some]
        omega
  · exact Nat.le_refl _

/-- An address is kept exactly if it has no scheme to be stripped. -/
theorem AgentInterface.normalize_eq_iff (i : AgentInterface) :
    normalizeAgentInterfaceUrl i.url i.protocolBinding = i.url ↔ ¬ i.Prefixed := by
  unfold normalizeAgentInterfaceUrl AgentInterface.Prefixed
  cases hgrpc : eqIgnoreAsciiCase i.protocolBinding transportProtocolGrpc with
  | false => simp
  | true =>
      cases h : stripPrefix "http://" i.url with
      | none => simp
      | some rest =>
          have hlength := stripPrefix_length h
          have hlead : "http://".toList.length = 7 := by decide
          simp only [if_true, Option.getD_some, Option.isSome_some, and_self, not_true_eq_false,
            iff_false]
          intro hsame
          rw [hsame] at hlength
          omega

/-- **An interface comes back as it was** exactly if its address has no
scheme to be stripped. -/
theorem AgentInterface.resent_eq_iff (i : AgentInterface) : i.resent = i ↔ ¬ i.Prefixed := by
  have hurl : i.resent = i ↔ normalizeAgentInterfaceUrl i.wireUrl i.protocolBinding = i.url := by
    constructor
    · intro h
      exact congrArg AgentInterface.url h
    · intro h
      rw [AgentInterface.resent, h]
  rw [hurl, ← i.normalize_eq_iff]
  constructor
  · intro h
    -- what is sent is no longer than the address, nor is what comes back
    have hsent := normalizeAgentInterfaceUrl_length i.url i.protocolBinding
    have hback := normalizeAgentInterfaceUrl_length i.wireUrl i.protocolBinding
    rw [h] at hback
    by_contra hne
    have hprefixed := not_not.mp (mt i.normalize_eq_iff.mpr hne)
    obtain ⟨hgrpc, hsome⟩ := hprefixed
    obtain ⟨rest, hrest⟩ := Option.isSome_iff_exists.mp hsome
    have hlength := stripPrefix_length hrest
    have hlead : "http://".toList.length = 7 := by decide
    have hwire : i.wireUrl = rest := by
      rw [AgentInterface.wireUrl, normalizeAgentInterfaceUrl, if_pos hgrpc, hrest]
      rfl
    rw [hwire] at hback
    omega
  · intro h
    rw [AgentInterface.wireUrl, h, h]

/-- The addresses that are still to be stripped after `new`. -/
theorem AgentInterface.new_prefixed_iff (url protocolBinding : String) :
    (AgentInterface.new url protocolBinding).Prefixed ↔
      eqIgnoreAsciiCase protocolBinding transportProtocolGrpc = true ∧
        ∃ rest, url = "http://" ++ ("http://" ++ rest) := by
  show eqIgnoreAsciiCase protocolBinding transportProtocolGrpc = true ∧
    (stripPrefix "http://" (normalizeAgentInterfaceUrl url protocolBinding)).isSome = true ↔ _
  apply and_congr_right
  intro hgrpc
  rw [normalizeAgentInterfaceUrl, if_pos hgrpc, Option.isSome_iff_exists]
  cases h : stripPrefix "http://" url with
  | none =>
      rw [Option.getD_none, h]
      constructor
      · rintro ⟨rest, hrest⟩
        contradiction
      · rintro ⟨rest, rfl⟩
        rw [stripPrefix_eq_some.mpr rfl] at h
        contradiction
  | some after =>
      rw [Option.getD_some, stripPrefix_eq_some.mp h]
      constructor
      · rintro ⟨rest, hrest⟩
        exact ⟨rest, by rw [stripPrefix_eq_some.mp hrest]⟩
      · rintro ⟨rest, hrest⟩
        have hafter : after = "http://" ++ rest := by
          have hlists := congrArg String.toList hrest
          rw [String.toList_append, String.toList_append] at hlists
          exact String.toList_inj.mp (List.append_cancel_left hlists)
        exact ⟨rest, stripPrefix_eq_some.mpr hafter⟩

/-! ## the card -/

namespace AgentCard

def keys : List String :=
  ["name", "description", "version", "supportedInterfaces", "capabilities", "defaultInputModes",
    "defaultOutputModes", "skills", "provider", "documentationUrl", "iconUrl", "securitySchemes",
    "securityRequirements", "signatures"]

def entries (card : AgentCard) : List (String × Option Value) :=
  [("name", some (Json.string.write card.name)),
    ("description", some (Json.string.write card.description)),
    ("version", some (Json.string.write card.version)),
    ("supportedInterfaces",
      some (.array (card.supportedInterfaces.map fun i => .struct i.entries))),
    ("capabilities", some (AgentCapabilities.json.write card.capabilities)),
    ("defaultInputModes", some (Json.string.list.write card.defaultInputModes)),
    ("defaultOutputModes", some (Json.string.list.write card.defaultOutputModes)),
    ("skills", some (AgentSkill.json.list.write card.skills)),
    ("provider", card.provider.map AgentProvider.json.write),
    ("documentationUrl", card.documentationUrl.map Json.string.write),
    ("iconUrl", card.iconUrl.map Json.string.write),
    ("securitySchemes", card.securitySchemes.map SecurityScheme.json.map.write),
    ("securityRequirements",
      card.securityRequirements.map SecurityRequirement.json.list.write),
    ("signatures", card.signatures.map AgentCardSignature.json.list.write)]

/-- `deserialize_vec_null_as_default`. -/
def readSkills (v : Value) : Except String (List AgentSkill) :=
  (readOption AgentSkill.json.list.read (some v)).map (·.getD [])

def fromValue : Value → Except String AgentCard := readStruct keys fun fields => do
  return {
    name := ← readRequired Json.string.read "name" fields
    description := ← readDefaulted Json.string.read "" "description" fields
    version := ← readRequired Json.string.read "version" fields
    supportedInterfaces :=
      ← readRequired (Json.readList AgentInterface.fromValue) "supportedInterfaces" fields
    capabilities := ← readRequired AgentCapabilities.json.read "capabilities" fields
    defaultInputModes := ← readDefaulted Json.string.list.read [] "defaultInputModes" fields
    defaultOutputModes := ← readDefaulted Json.string.list.read [] "defaultOutputModes" fields
    skills := ← readDefaulted readSkills [] "skills" fields
    provider := ← readOptional AgentProvider.json.read "provider" fields
    documentationUrl := ← readOptional Json.string.read "documentationUrl" fields
    iconUrl := ← readOptional Json.string.read "iconUrl" fields
    securitySchemes := ← readOptional SecurityScheme.json.map.read "securitySchemes" fields
    securityRequirements :=
      ← readOptional SecurityRequirement.json.list.read "securityRequirements" fields
    signatures := ← readOptional AgentCardSignature.json.list.read "signatures" fields }

/-- **A card comes back** with each of its interfaces as it was sent. -/
theorem fromValue_struct (card : AgentCard) :
    fromValue (.struct card.entries) =
      .ok { card with supportedInterfaces := card.supportedInterfaces.map AgentInterface.resent } := by
  have hkeys : (card.entries.map (·.1)).Nodup := (by decide : keys.Nodup)
  have hinterfaces := Json.readList_map AgentInterface.fromValue_struct card.supportedInterfaces
  have hskills : readSkills (AgentSkill.json.list.write card.skills) = .ok card.skills := by
    have hread := readOption_map AgentSkill.json.list (Json.solid_list _) (some card.skills)
    rw [Option.map_some] at hread
    rw [readSkills, hread]
    rfl
  rw [fromValue, readStruct_struct]
  simp only [readRequired_written hkeys, readOptional_written hkeys, readDefaulted_written hkeys]
  simp [entries, List.lookup_cons, hinterfaces, hskills, bind, Except.bind, pure, Except.pure]

end AgentCard

/-- **The card's JSON round trip**, and the two shapes of a requirement. -/
theorem agentCard_roundTrip (card : AgentCard) :
    (AgentCard.fromValue (.struct card.entries) = .ok card ↔
      ∀ i ∈ card.supportedInterfaces, ¬ i.Prefixed) ∧
    (∀ url protocolBinding, (AgentInterface.new url protocolBinding).Prefixed ↔
      eqIgnoreAsciiCase protocolBinding transportProtocolGrpc = true ∧
        ∃ rest, url = "http://" ++ ("http://" ++ rest)) ∧
    ∀ (requirement : SecurityRequirement) (shape : String → List String → Value),
      (∀ scheme scopes, SecurityRequirement.ScopesShape scopes (shape scheme scopes)) →
      SecurityRequirement.fromValue (Json.string.list.map.write requirement) = .ok requirement ∧
        SecurityRequirement.fromValue (.object [("schemes", .object
          ((sortedFields requirement).map fun e => (e.1, shape e.1 e.2)))]) = .ok requirement := by
  constructor
  · have hmap : card.supportedInterfaces.map AgentInterface.resent = card.supportedInterfaces ↔
        ∀ i ∈ card.supportedInterfaces, i.resent = i := by
      rw [← List.map_inj_left (g := fun i => i), List.map_id']
    rw [AgentCard.fromValue_struct, Except.ok.injEq]
    simp only [← AgentInterface.resent_eq_iff, ← hmap]
    constructor
    · exact congrArg AgentCard.supportedInterfaces
    · intro hsame
      rw [hsame]
  · refine ⟨AgentInterface.new_prefixed_iff, ?_⟩
    intro requirement shape hshape
    exact ⟨SecurityRequirement.fromValue_map requirement,
      SecurityRequirement.fromValue_schemes requirement shape hshape⟩

/-- A card whose interface was made for a twice prefixed address. -/
def prefixedCard : AgentCard where
  name := ""
  description := ""
  version := ""
  supportedInterfaces := [.new "http://http://host" "GRPC"]
  capabilities := ⟨none, none, none, none⟩
  defaultInputModes := []
  defaultOutputModes := []
  skills := []
  provider := none
  documentationUrl := none
  iconUrl := none
  securitySchemes := none
  securityRequirements := none
  signatures := none

/-- It does not come back as it was. -/
theorem prefixedCard_changes :
    AgentCard.fromValue (.struct prefixedCard.entries) ≠ .ok prefixedCard := by
  intro h
  rw [AgentCard.fromValue_struct, Except.ok.injEq] at h
  have hurls := congrArg (fun card => card.supportedInterfaces.map AgentInterface.url) h
  revert hurls
  decide

end A2a
