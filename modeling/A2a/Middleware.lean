import A2a.AgentCard
import A2a.Handler

/-!
# A2a.Middleware

Service parameters as the servers find them (`a2a-server/src/middleware.rs`,
`a2a-grpc/src/server.rs`, `a2a-slimrpc/src/common.rs`), and the check of the
protocol version that every binding is to make of them.
-/

namespace A2a

/-! ## the version -/

def svcParamVersion : String := "A2A-Version"

/-- The major version this build implements. -/
def supportedMajorVersion : Nat := 1

/-- `str::parse::<u32>`. -/
def parseU32 (cs : List Char) : Option Nat :=
  let digits := match cs with
    | '+' :: rest => rest
    | rest => rest
  if digits ≠ [] ∧ digits.all Char.isDigit then
    let n := digits.foldl (fun n c => 10 * n + (c.toNat - '0'.toNat)) 0
    if n < 2 ^ 32 then some n else none
  else none

/-- `parse_major_version`. -/
def parseMajorVersion (value : String) : Option Nat :=
  ((trim value.toList).splitOn '.').head?.bind parseU32

def A2AError.versionNotSupported (version : String) : A2AError :=
  .new ErrorCode.versionNotSupported s!"version not supported: {version}"

/-- The version a request asks for; an absent one counts as 0.3. -/
def requestedVersion (params : ServiceParams) : String :=
  ((params.lookup "a2a-version").bind List.head?).getD "0.3"

/-- `check_a2a_version`. -/
def checkA2aVersion (params : ServiceParams) : Except A2AError Unit :=
  if parseMajorVersion (requestedVersion params) = some supportedMajorVersion then .ok ()
  else .error (.versionNotSupported (requestedVersion params))

/-! ## headers -/

/-- Headers in the order they are walked; the names are in lower case. -/
abbrev HeaderMap := List (String × List UInt8)

/-- `HeaderValue::to_str`: only visible ASCII, spaces and tabs are text. -/
def headerToStr (value : List UInt8) : Option String :=
  if value.all fun b => (32 ≤ b && b < 127) || b = 9 then
    some (String.ofList (value.map fun b => Char.ofNat b.toNat))
  else none

/-- `entry(name).or_default().push(value)`. -/
def pushParam (params : ServiceParams) (name value : String) : ServiceParams :=
  params.insert name ((params.lookup name).getD [] ++ [value])

/-- The parameters with those of one header. -/
def pushHeader (params : ServiceParams) (header : String × List UInt8) : ServiceParams :=
  match headerToStr header.2 with
  | some value => pushParam params header.1 value
  | none => params

/-- `extract_service_params` of the HTTP bindings. -/
def extractServiceParams (headers : HeaderMap) : ServiceParams := headers.foldl pushHeader ∅

/-- `add_query_version`: the query of an address, if it is one, fills in a
version no header gives.  `query` are the entries of the `HashMap` that the query
is collected into, in the order it is walked: each name once, with the last of
its values.  Names that differ in case are different there. -/
def addQueryVersion (params : ServiceParams) (query : Option (List (String × String))) :
    ServiceParams :=
  if (params.lookup "a2a-version").isSome then params
  else
    match query.bind fun query => query.find? fun field => eqIgnoreAsciiCase field.1 svcParamVersion with
    | some field => params.insert "a2a-version" [field.2]
    | none => params

/-! ## gRPC -/

/-- `str::ends_with`. -/
def endsWith (trail s : String) : Bool := trail.toList.isSuffixOf s.toList

/-- `extract_service_params` of the gRPC server: a name in `-bin` has no
text. -/
def extractMetadataParams (metadata : HeaderMap) : ServiceParams :=
  extractServiceParams (metadata.filter fun entry => !endsWith "-bin" entry.1)

/-! ## SLIMRPC -/

/-- Keys of the SLIMRPC layer that `slim_rpc` names. -/
structure SlimKeys where
  deadline : String
  statusCode : String
  rpcDir : String

def slimSrcMetadataKey : String := "slim-src"
def slimPeerSubjectMetadataKey : String := "slim-peer-subject"
def slimPeerIssuerMetadataKey : String := "slim-peer-issuer"

def reservedIdentityKeys : List String :=
  [slimSrcMetadataKey, slimPeerSubjectMetadataKey, slimPeerIssuerMetadataKey]

/-- `is_reserved_identity_key`. -/
def isReservedIdentityKey (key : String) : Bool :=
  reservedIdentityKeys.any fun reserved => eqIgnoreAsciiCase key reserved

/-- `is_internal_metadata_key`. -/
def isInternalMetadataKey (keys : SlimKeys) (key : String) : Bool :=
  [keys.deadline, keys.statusCode, "rpc-id", "service", "method", keys.rpcDir].contains key ||
    eqIgnoreAsciiCase key "slim-payload-sig"

/-- The caller as the session reports it. -/
structure CallerIdentity where
  slimSrc : Option String
  peerSubject : Option String
  peerIssuer : Option String

/-- The parameters with one of the caller's. -/
def insertIdentity (params : ServiceParams) (entry : String × Option String) : ServiceParams :=
  match entry.2 with
  | some value => params.insert entry.1 [value]
  | none => params

/-- Metadata of a SLIMRPC message, one text for each key, in the order it is
walked. -/
abbrev SlimMetadata := List (String × String)

/-- `to_service_params`: without the keys of the layer and of the caller's
identity, which the session gives. -/
def toServiceParams (keys : SlimKeys) (metadata : SlimMetadata) (identity : CallerIdentity) :
    ServiceParams :=
  let kept := metadata.filter fun entry =>
    !isInternalMetadataKey keys entry.1 && !isReservedIdentityKey entry.1
  let params : ServiceParams := kept.foldl (fun params entry => params.insert entry.1 [entry.2]) ∅
  [(slimSrcMetadataKey, identity.slimSrc), (slimPeerSubjectMetadataKey, identity.peerSubject),
    (slimPeerIssuerMetadataKey, identity.peerIssuer)].foldl insertIdentity params

end A2a
