import A2a.Handler
import A2a.Bindings.Params
import A2a.IpAddr

/-!
# A2a.PushSender

The sender of push notifications (`a2a-server/src/push/sender.rs`).

With validation on, three checks keep it from addresses of the internal
network: the one of the URL before the first request, the one of every URL
that a response redirects to, and the one of the addresses that a name
resolves to.  How an address is parsed as a URL is a parameter; a connection
is made to the address that a host spells out or to one its name resolves to.
-/

namespace A2a

/-! ## addresses that are blocked -/

/-- The restrictions of `is_blocked_ip` on IPv4. -/
def Ipv4Addr.blocked (addr : Ipv4Addr) : Bool :=
  addr.isLoopback || addr.isPrivate || addr.isLinkLocal || addr.isUnspecified || addr.isMulticast

/-- `is_blocked_ip`. -/
def isBlockedIp : IpAddr → Bool
  | .v4 v4 => v4.blocked
  | .v6 v6 =>
      let isUla : Bool := v6.a &&& 0xFE00 = 0xFC00
      -- or a mapped address would bypass the checks above
      let mappedV4Blocked := v6.toIpv4Mapped.any Ipv4Addr.blocked
      v6.isLoopback || isUla || mappedV4Blocked || v6.isUnicastLinkLocal || v6.isUnspecified ||
        v6.isMulticast

structure SocketAddr where
  ip : IpAddr
  port : UInt16

/-- `connectable_addrs`. -/
def connectableAddrs (addrs : List SocketAddr) : List SocketAddr :=
  addrs.filter fun addr => !isBlockedIp addr.ip

/-! ## URLs -/

/-- A URL: its text, its scheme and the text of its host. -/
structure Url where
  text : String
  scheme : String
  host : Option String
  deriving DecidableEq

/-- How `reqwest` parses URLs; a URL's text is that URL. -/
structure UrlParser where
  parse : String → Option Url
  parse_text : ∀ {s url}, parse s = some url → parse url.text = some url

/-- The parser of a few URLs. -/
def UrlParser.ofUrls (known : List Url) : UrlParser where
  parse s := known.find? fun url => url.text = s
  parse_text := by
    intro s url h
    have htext := List.find?_some h
    rw [decide_eq_true_eq] at htext
    rw [htext]
    exact h

/-- `strip_suffix('.')`. -/
def stripDot (cs : List Char) : List Char :=
  if cs.getLast? = some '.' then cs.dropLast else cs

/-- A host without the brackets of IPv6. -/
def unbracketed (host : List Char) : List Char :=
  if host.head? = some '[' ∧ host.getLast? = some ']' ∧ 1 < host.length then
    host.tail.dropLast
  else host

/-- The address a URL's host spells out. -/
def Url.literal (url : Url) : Option IpAddr :=
  url.host.bind fun host => parseIpAddr (unbracketed host.toList)

def blockedHosts : List String :=
  ["127.0.0.1", "localhost", "::1", "[::1]", "169.254.169.254", "metadata.google.internal",
    "metadata.azure.com", "metadata.goog", "0.0.0.0"]

/-- The check of a URL that is one. -/
def Url.validate (url : Url) : Except A2AError Unit :=
  if url.scheme ≠ "http" ∧ url.scheme ≠ "https" then
    .error (.invalidParams "push URL must be http or https")
  else
    match url.host with
    | none => .ok ()
    | some host =>
        -- `localhost.` is `localhost`
        let host := stripDot host.toList
        if (blockedHosts.map String.toList).contains host then
          .error (.invalidParams "push URL targets blocked host")
        else if (parseIpAddr (unbracketed host)).any isBlockedIp then
          .error (.invalidParams "push URL targets private/loopback/link-local address")
        else .ok ()

/-- `validate_push_url`. -/
def validatePushUrl (urls : UrlParser) (url : String) : Except A2AError Unit :=
  match urls.parse url with
  | none => .error (.invalidParams "invalid push notification URL")
  | some url => url.validate

/-! ## the client -/

/-- `SsrfGuardedResolver::resolve`, of what the lookup of a host answers. -/
def resolveGuarded (answer : Except String (List SocketAddr)) : Except String (List SocketAddr) :=
  match answer with
  | .error error => .error error
  | .ok resolved =>
      if connectableAddrs resolved = [] then
        .error "push URL host resolves only to blocked (loopback, private, link-local, or metadata) addresses"
      else .ok (connectableAddrs resolved)

/-- What a redirect policy decides. -/
inductive RedirectAction
  | follow
  | stop
  | error (message : String)

/-- `ssrf_guarded_redirect_policy`, after requests to `previous`. -/
def ssrfGuardedRedirectPolicy (urls : UrlParser) (previous : List Url) (url : Url) : RedirectAction :=
  if 10 ≤ previous.length then .stop
  else
    match validatePushUrl urls url.text with
    | .error _ => .error "push URL redirect target is blocked"
    | .ok _ => .follow

/-- What the network does with one request: what each lookup of the host
answers, and where the response redirects to. -/
structure Hop where
  answers : List (Except String (List SocketAddr))
  redirect : Option String

/-- The addresses the guarded client may connect to for one request. -/
def Url.dialed (url : Url) (hop : Hop) : List IpAddr :=
  match url.literal with
  | some ip => [ip]
  | none => hop.answers.flatMap fun answer =>
      match resolveGuarded answer with
      | .error _ => []
      | .ok addrs => addrs.map SocketAddr.ip

/-- The addresses it may connect to for a request and all it is redirected
to. -/
def connections (urls : UrlParser) (previous : List Url) (url : Url) : List Hop → List IpAddr
  | [] => []
  | hop :: rest =>
      url.dialed hop ++
        match hop.redirect.bind urls.parse with
        | none => []
        | some next =>
            match ssrfGuardedRedirectPolicy urls (previous ++ [url]) next with
            | .follow => connections urls (previous ++ [url]) next rest
            | .stop => []
            | .error _ => []

/-! ## sending -/

/-- A request of the sender. -/
structure PushRequest where
  url : String
  headers : List (String × String)
  body : List UInt8
  deriving DecidableEq

/-- How a request ends: with a status and how that is written, or unsent or
unanswered. -/
inductive PushAnswer
  | status (code : Nat) (text : String)
  | failed (error : String)

structure HttpPushSender where
  failOnError : Bool
  validateUrls : Bool

/-- Whether a text would begin another header. -/
def breaksLine (text : String) : Bool := text.toList.any fun c => c = '\r' || c = '\n'

namespace HttpPushSender

/-- The checks `send_push` makes before a request. -/
def check (sender : HttpPushSender) (urls : UrlParser) (config : TaskPushNotificationConfig) :
    Except A2AError Unit := do
  if sender.validateUrls then validatePushUrl urls config.url
  if config.token.any breaksLine then
    throw (.invalidParams "push notification token must not contain CR/LF")
  match config.authentication with
  | none => pure ()
  | some auth =>
      match auth.credentials with
      | none => pure ()
      | some creds =>
          if breaksLine creds then
            throw (.invalidParams "push credentials must not contain CR/LF")
          if auth.scheme = "" ∨ auth.scheme.toList.any fun c => isWhitespace c || isControl c then
            throw (.invalidParams "push authentication scheme must be a single token")

/-- The scheme as it is sent; no other letters than those of ASCII are
lowered to the two names. -/
def authScheme (scheme : String) : String :=
  if lowerKey scheme = "bearer" then "Bearer"
  else if lowerKey scheme = "basic" then "Basic"
  else scheme

/-- The request for a configuration. -/
def request (config : TaskPushNotificationConfig) (body : List UInt8) : PushRequest where
  url := config.url
  headers :=
    [("Content-Type", "application/json")] ++
    (config.token.map fun token => ("A2A-Notification-Token", token)).toList ++
    ((config.authentication.bind fun auth => auth.credentials.map fun creds =>
      ("Authorization", s!"{authScheme auth.scheme} {creds}"))).toList
  body := body

/-- `handle_error`. -/
def handleError (sender : HttpPushSender) (msg : String) : Except A2AError Unit :=
  if sender.failOnError then .error (sanitizedInternalError msg) else .ok ()

/-- `send_push`: the requests it makes and how it ends, for how a request
ends.  `toVec` writes an event. -/
def sendPush (sender : HttpPushSender) (urls : UrlParser)
    (toVec : StreamResponse → Except String (List UInt8)) (config : TaskPushNotificationConfig)
    (event : StreamResponse) (answer : PushAnswer) : List PushRequest × Except A2AError Unit :=
  match sender.check urls config with
  | .error error => ([], .error error)
  | .ok _ =>
      match toVec event with
      | .error error => ([], sender.handleError s!"failed to serialize event: {error}")
      | .ok body =>
          ([request config body],
            match answer with
            | .status code text =>
                if 200 ≤ code ∧ code < 300 then .ok ()
                else sender.handleError s!"push endpoint returned status: {text}"
            | .failed error => sender.handleError s!"failed to send push notification: {error}")

/-- The addresses the guarded client may connect to for a request of the
sender. -/
def dials (urls : UrlParser) (hops : List Hop) (request : PushRequest) : List IpAddr :=
  match urls.parse request.url with
  | none => []
  | some url => connections urls [] url hops

end HttpPushSender

end A2a
