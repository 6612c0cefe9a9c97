import A2a.Pbconv

/-!
# A2a.Pbconv.AgentCard

The conversions of the agent card (`a2a-pb/src/pbconv.rs`): interfaces,
capabilities, skills, security schemes and OAuth flows.
-/

namespace A2a

/-! ## interfaces and capabilities -/

def toProtoAgentInterface (i : AgentInterface) : Proto.AgentInterface where
  url := i.wireUrl
  protocolBinding := i.protocolBinding
  tenant := i.tenant.getD ""
  protocolVersion := i.protocolVersion

def fromProtoAgentInterface (i : Proto.AgentInterface) : AgentInterface :=
  { AgentInterface.new i.url i.protocolBinding with
    protocolVersion := i.protocolVersion
    tenant := emptyToNone i.tenant }

def toProtoAgentProvider (p : AgentProvider) : Proto.AgentProvider where
  organization := p.organization
  url := p.url

def fromProtoAgentProvider (p : Proto.AgentProvider) : AgentProvider where
  organization := p.organization
  url := p.url

def toProtoAgentExtension (e : AgentExtension) : Proto.AgentExtension where
  uri := e.uri
  description := e.description.getD ""
  required := e.required.getD false
  params := e.params.map toProtoStruct

def fromProtoAgentExtension (e : Proto.AgentExtension) : AgentExtension where
  uri := e.uri
  description := emptyToNone e.description
  required := falseToNone e.required
  params := optMetadataFromProto e.params

def toProtoAgentCapabilities (c : AgentCapabilities) : Proto.AgentCapabilities where
  streaming := c.streaming
  pushNotifications := c.pushNotifications
  extensions := (c.extensions.map (·.map toProtoAgentExtension)).getD []
  extendedAgentCard := c.extendedAgentCard

def fromProtoAgentCapabilities (c : Proto.AgentCapabilities) : AgentCapabilities where
  streaming := c.streaming
  pushNotifications := c.pushNotifications
  extensions :=
    if c.extensions.isEmpty then none else some (c.extensions.map fromProtoAgentExtension)
  extendedAgentCard := c.extendedAgentCard

/-! ## security -/

def toProtoSecurityRequirement (r : SecurityRequirement) : Proto.SecurityRequirement where
  schemes := mapValues Proto.StringList.mk r

def fromProtoSecurityRequirement (r : Proto.SecurityRequirement) : SecurityRequirement :=
  mapValues Proto.StringList.list r.schemes

def toProtoOauthFlows (f : OAuthFlows) : Proto.OAuthFlows where
  flow := match f with
    | .authorizationCode ac => some (.authorizationCode {
        authorizationUrl := ac.authorizationUrl
        tokenUrl := ac.tokenUrl
        refreshUrl := ac.refreshUrl.getD ""
        scopes := ac.scopes
        pkceRequired := ac.pkceRequired.getD false })
    | .clientCredentials cc => some (.clientCredentials {
        tokenUrl := cc.tokenUrl
        refreshUrl := cc.refreshUrl.getD ""
        scopes := cc.scopes })
    | .deviceCode dc => some (.deviceCode {
        deviceAuthorizationUrl := dc.deviceAuthorizationUrl
        tokenUrl := dc.tokenUrl
        refreshUrl := dc.refreshUrl.getD ""
        scopes := dc.scopes })
    | .implicit im => some (.implicit {
        authorizationUrl := im.authorizationUrl
        refreshUrl := im.refreshUrl.getD ""
        scopes := im.scopes })
    | .password pw => some (.password {
        tokenUrl := pw.tokenUrl
        refreshUrl := pw.refreshUrl.getD ""
        scopes := pw.scopes })

def fromProtoOauthFlows (f : Proto.OAuthFlows) : Option OAuthFlows :=
  match f.flow with
  | some (.authorizationCode ac) => some (.authorizationCode {
      authorizationUrl := ac.authorizationUrl
      tokenUrl := ac.tokenUrl
      scopes := ac.scopes
      refreshUrl := emptyToNone ac.refreshUrl
      pkceRequired := falseToNone ac.pkceRequired })
  | some (.clientCredentials cc) => some (.clientCredentials {
      tokenUrl := cc.tokenUrl
      scopes := cc.scopes
      refreshUrl := emptyToNone cc.refreshUrl })
  | some (.deviceCode dc) => some (.deviceCode {
      deviceAuthorizationUrl := dc.deviceAuthorizationUrl
      tokenUrl := dc.tokenUrl
      scopes := dc.scopes
      refreshUrl := emptyToNone dc.refreshUrl })
  | some (.implicit im) => some (.implicit {
      authorizationUrl := im.authorizationUrl
      scopes := im.scopes
      refreshUrl := emptyToNone im.refreshUrl })
  | some (.password pw) => some (.password {
      tokenUrl := pw.tokenUrl
      scopes := pw.scopes
      refreshUrl := emptyToNone pw.refreshUrl })
  | none => none

/-- The flow an OAuth scheme has when none could be read. -/
def missingFlows : OAuthFlows := .clientCredentials ⟨"", ∅, none⟩

def toProtoSecurityScheme (s : SecurityScheme) : Proto.SecurityScheme where
  scheme := match s with
    | .apiKey ak => some (.apiKeySecurityScheme {
        description := ak.description.getD ""
        location := ak.location
        name := ak.name })
    | .httpAuth ha => some (.httpAuthSecurityScheme {
        description := ha.description.getD ""
        scheme := ha.scheme
        bearerFormat := ha.bearerFormat.getD "" })
    | .oauth2 oa => some (.oauth2SecurityScheme {
        description := oa.description.getD ""
        flows := some (toProtoOauthFlows oa.flows)
        oauth2MetadataUrl := oa.oauth2MetadataUrl.getD "" })
    | .openIdConnect oi => some (.openIdConnectSecurityScheme {
        description := oi.description.getD ""
        openIdConnectUrl := oi.openIdConnectUrl })
    | .mutualTls mt => some (.mtlsSecurityScheme { description := mt.description.getD "" })

def fromProtoSecurityScheme (s : Proto.SecurityScheme) : Option SecurityScheme :=
  match s.scheme with
  | some (.apiKeySecurityScheme ak) => some (.apiKey {
      location := ak.location
      name := ak.name
      description := emptyToNone ak.description })
  | some (.httpAuthSecurityScheme ha) => some (.httpAuth {
      scheme := ha.scheme
      description := emptyToNone ha.description
      bearerFormat := emptyToNone ha.bearerFormat })
  | some (.oauth2SecurityScheme oa) => some (.oauth2 {
      description := emptyToNone oa.description
      flows := (oa.flows.bind fromProtoOauthFlows).getD missingFlows
      oauth2MetadataUrl := emptyToNone oa.oauth2MetadataUrl })
  | some (.openIdConnectSecurityScheme oi) => some (.openIdConnect {
      openIdConnectUrl := oi.openIdConnectUrl
      description := emptyToNone oi.description })
  | some (.mtlsSecurityScheme mt) => some (.mutualTls { description := emptyToNone mt.description })
  | none => none

/-! ## the card -/

def toProtoAgentSkill (s : AgentSkill) : Proto.AgentSkill where
  id := s.id
  name := s.name
  description := s.description
  tags := s.tags
  examples := s.examples.getD []
  inputModes := s.inputModes.getD []
  outputModes := s.outputModes.getD []
  securityRequirements :=
    (s.securityRequirements.map (·.map toProtoSecurityRequirement)).getD []

def fromProtoAgentSkill (s : Proto.AgentSkill) : AgentSkill where
  id := s.id
  name := s.name
  description := s.description
  tags := s.tags
  examples := emptyListToNone s.examples
  inputModes := emptyListToNone s.inputModes
  outputModes := emptyListToNone s.outputModes
  securityRequirements :=
    if s.securityRequirements.isEmpty then none
    else some (s.securityRequirements.map fromProtoSecurityRequirement)

def toProtoAgentCardSignature (s : AgentCardSignature) : Proto.AgentCardSignature where
  protectedHeader := s.protectedHeader
  signature := s.signature
  header := s.header.map toProtoStruct

def fromProtoAgentCardSignature (s : Proto.AgentCardSignature) : AgentCardSignature where
  protectedHeader := s.protectedHeader
  signature := s.signature
  header := optMetadataFromProto s.header

def toProtoAgentCard (c : AgentCard) : Proto.AgentCard where
  name := c.name
  description := c.description
  version := c.version
  supportedInterfaces := c.supportedInterfaces.map toProtoAgentInterface
  provider := c.provider.map toProtoAgentProvider
  documentationUrl := c.documentationUrl
  capabilities := some (toProtoAgentCapabilities c.capabilities)
  securitySchemes := (c.securitySchemes.map (mapValues toProtoSecurityScheme)).getD ∅
  securityRequirements := (c.securityRequirements.map (·.map toProtoSecurityRequirement)).getD []
  defaultInputModes := c.defaultInputModes
  defaultOutputModes := c.defaultOutputModes
  skills := c.skills.map toProtoAgentSkill
  signatures := (c.signatures.map (·.map toProtoAgentCardSignature)).getD []
  iconUrl := c.iconUrl

def fromProtoAgentCard (c : Proto.AgentCard) : AgentCard where
  name := c.name
  description := c.description
  version := c.version
  supportedInterfaces := c.supportedInterfaces.map fromProtoAgentInterface
  capabilities := (c.capabilities.map fromProtoAgentCapabilities).getD ⟨none, none, none, none⟩
  defaultInputModes := c.defaultInputModes
  defaultOutputModes := c.defaultOutputModes
  skills := c.skills.map fromProtoAgentSkill
  provider := c.provider.map fromProtoAgentProvider
  documentationUrl := c.documentationUrl
  iconUrl := c.iconUrl
  securitySchemes :=
    if c.securitySchemes.entries.card = 0 then none
    else some (filterMapValues fromProtoSecurityScheme c.securitySchemes)
  securityRequirements :=
    if c.securityRequirements.isEmpty then none
    else some (c.securityRequirements.map fromProtoSecurityRequirement)
  signatures :=
    if c.signatures.isEmpty then none
    else some (c.signatures.map fromProtoAgentCardSignature)

end A2a
