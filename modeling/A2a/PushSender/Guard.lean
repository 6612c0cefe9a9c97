import A2a.PushSender

/-!
# A2a.PushSender.Guard

The three checks together: with validation on, no hop of a push reaches an
address that `is_blocked_ip` blocks, written as one or mapped into another.
-/

namespace A2a

/-! ## addresses -/

/-- A mapped address is blocked where the one it maps is. -/
theorem isBlockedIp_mapped {addr : Ipv4Addr} (h : isBlockedIp (.v4 addr) = true) :
    isBlockedIp (.v6 addr.toIpv6Mapped) = true := by
  have hmapped : addr.toIpv6Mapped.toIpv4Mapped.any Ipv4Addr.blocked = true := by
    rw [toIpv4Mapped_toIpv6Mapped, Option.any_some]
    exact h
  simp only [isBlockedIp, hmapped, Bool.or_true, Bool.true_or]

theorem not_blocked_of_connectable {addrs : List SocketAddr} {addr : SocketAddr}
    (h : addr ∈ connectableAddrs addrs) : isBlockedIp addr.ip = false := by
  have hfilter := (List.mem_filter.mp h).2
  rwa [Bool.not_eq_true'] at hfilter

/-- The resolver gives no blocked address. -/
theorem not_blocked_of_resolved {answer : Except String (List SocketAddr)} {addrs : List SocketAddr}
    (h : resolveGuarded answer = .ok addrs) {addr : SocketAddr} (haddr : addr ∈ addrs) :
    isBlockedIp addr.ip = false := by
  cases answer with
  | error error => cases h
  | ok resolved =>
      rw [resolveGuarded] at h
      by_cases hempty : connectableAddrs resolved = []
      · rw [if_pos hempty] at h
        cases h
      · rw [if_neg hempty] at h
        cases h
        exact not_blocked_of_connectable haddr

/-! ## literals -/

/-- The host of a literal has no dot to strip. -/
theorem stripDot_of_literal {host : List Char} {ip : IpAddr}
    (h : parseIpAddr (unbracketed host) = some ip) : stripDot host = host := by
  unfold stripDot
  by_cases hdot : host.getLast? = some '.'
  · exfalso
    have hplain : unbracketed host = host := by
      unfold unbracketed
      apply if_neg
      intro hbrackets
      rw [hdot] at hbrackets
      exact absurd hbrackets.2.1 (by decide)
    obtain ⟨front, hhost⟩ := List.getLast?_eq_some_iff.mp hdot
    rw [hplain, hhost, parseIpAddr_dot] at h
    cases h
  · exact if_neg hdot

/-- The addresses among the blocked hosts are blocked. -/
theorem blocked_of_blockedHosts {host : List Char} {ip : IpAddr}
    (hhost : host ∈ blockedHosts.map String.toList)
    (h : parseIpAddr (unbracketed host) = some ip) : isBlockedIp ip = true := by
  have hall : (blockedHosts.map String.toList).all
      (fun host => (parseIpAddr (unbracketed host)).all isBlockedIp) = true := by decide
  have hblocked := List.all_eq_true.mp hall host hhost
  rwa [h] at hblocked

/-- A URL of the web whose host is an address is rejected exactly if the
address is blocked. -/
theorem Url.validate_literal {url : Url} {ip : IpAddr}
    (hscheme : url.scheme = "http" ∨ url.scheme = "https") (h : url.literal = some ip) :
    (∃ error, url.validate = .error error) ↔ isBlockedIp ip = true := by
  obtain ⟨host, hhost, hip⟩ := Option.bind_eq_some_iff.mp h
  have hweb : ¬ (url.scheme ≠ "http" ∧ url.scheme ≠ "https") := by
    intro hother
    rcases hscheme with hhttp | hhttps
    · exact hother.1 hhttp
    · exact hother.2 hhttps
  rw [Url.validate, if_neg hweb, hhost]
  dsimp only
  rw [stripDot_of_literal hip, hip, Option.any_some]
  by_cases hlisted : ((blockedHosts.map String.toList).contains host.toList) = true
  · rw [if_pos hlisted]
    have hblocked := blocked_of_blockedHosts (List.contains_iff_mem.mp hlisted) hip
    exact iff_of_true ⟨_, rfl⟩ hblocked
  · rw [if_neg hlisted]
    by_cases hblocked : isBlockedIp ip = true
    · rw [if_pos hblocked]
      exact iff_of_true ⟨_, rfl⟩ hblocked
    · rw [if_neg hblocked]
      apply iff_of_false _ hblocked
      intro hrejected
      obtain ⟨_, herror⟩ := hrejected
      cases herror

/-- A URL that is not rejected is of the web. -/
theorem Url.scheme_of_validate {url : Url} (h : url.validate = .ok ()) :
    url.scheme = "http" ∨ url.scheme = "https" := by
  by_contra hscheme
  rw [Url.validate, if_pos (not_or.mp hscheme)] at h
  cases h

/-! ## hops -/

/-- No request to a URL that is not rejected reaches a blocked address. -/
theorem Url.not_blocked_of_dialed {url : Url} (h : url.validate = .ok ()) {hop : Hop} {ip : IpAddr}
    (hip : ip ∈ url.dialed hop) : isBlockedIp ip = false := by
  unfold Url.dialed at hip
  cases hliteral : url.literal with
  | some addr =>
      rw [hliteral] at hip
      have hsame : ip = addr := List.mem_singleton.mp hip
      rw [hsame, Bool.eq_false_iff]
      intro hblocked
      obtain ⟨_, herror⟩ := (url.validate_literal (Url.scheme_of_validate h) hliteral).mpr hblocked
      rw [h] at herror
      cases herror
  | none =>
      rw [hliteral] at hip
      obtain ⟨answer, _, hip⟩ := List.mem_flatMap.mp hip
      cases hresolved : resolveGuarded answer with
      | error error =>
          rw [hresolved] at hip
          cases hip
      | ok addrs =>
          rw [hresolved] at hip
          obtain ⟨addr, haddr, heq⟩ := List.mem_map.mp hip
          rw [← heq]
          exact not_blocked_of_resolved hresolved haddr

/-- A redirect is followed only to a URL that is not rejected. -/
theorem validate_of_follow {urls : UrlParser} {previous : List Url} {text : String} {next : Url}
    (hnext : urls.parse text = some next)
    (h : ssrfGuardedRedirectPolicy urls previous next = .follow) : next.validate = .ok () := by
  rw [ssrfGuardedRedirectPolicy] at h
  by_cases hlong : 10 ≤ previous.length
  · rw [if_pos hlong] at h
    cases h
  · rw [if_neg hlong, validatePushUrl, urls.parse_text hnext] at h
    dsimp only at h
    cases hvalid : next.validate with
    | ok _ => rfl
    | error error =>
        rw [hvalid] at h
        cases h

/-- **No hop reaches a blocked address**, whatever the lookups answer and
wherever the responses redirect to. -/
theorem not_blocked_of_connections (urls : UrlParser) (hops : List Hop) {previous : List Url}
    {url : Url} (h : url.validate = .ok ()) {ip : IpAddr}
    (hip : ip ∈ connections urls previous url hops) : isBlockedIp ip = false := by
  induction hops generalizing previous url with
  | nil => cases hip
  | cons hop rest ih =>
      rw [connections] at hip
      rcases List.mem_append.mp hip with hdialed | hfurther
      · exact Url.not_blocked_of_dialed h hdialed
      · cases hredirect : hop.redirect.bind urls.parse with
        | none =>
            rw [hredirect] at hfurther
            cases hfurther
        | some next =>
            rw [hredirect] at hfurther
            obtain ⟨text, _, hparse⟩ := Option.bind_eq_some_iff.mp hredirect
            cases hpolicy : ssrfGuardedRedirectPolicy urls (previous ++ [url]) next with
            | follow =>
                simp only [hpolicy] at hfurther
                exact ih (validate_of_follow hparse hpolicy) hfurther
            | stop =>
                simp only [hpolicy] at hfurther
                cases hfurther
            | error message =>
                simp only [hpolicy] at hfurther
                cases hfurther

/-! ## the sender -/

section sender

variable {urls : UrlParser} {toVec : StreamResponse → Except String (List UInt8)}
  {config : TaskPushNotificationConfig} {event : StreamResponse} {answer : PushAnswer}

/-- Nothing is sent but the configuration's request, and not unless the
checks pass. -/
theorem HttpPushSender.mem_sendPush {sender : HttpPushSender} {request : PushRequest}
    (h : request ∈ (sender.sendPush urls toVec config event answer).1) :
    request.url = config.url ∧ sender.check urls config = .ok () := by
  unfold sendPush at h
  cases hcheck : sender.check urls config with
  | error error =>
      rw [hcheck] at h
      cases h
  | ok _ =>
      rw [hcheck] at h
      cases hbody : toVec event with
      | error error =>
          rw [hbody] at h
          cases h
      | ok body =>
          rw [hbody] at h
          have hrequest := List.mem_singleton.mp h
          rw [hrequest]
          exact ⟨rfl, rfl⟩

/-- With validation on, the checks begin with the URL's. -/
theorem HttpPushSender.validate_of_check {failOnError : Bool}
    (h : (HttpPushSender.mk failOnError true).check urls config = .ok ()) :
    validatePushUrl urls config.url = .ok () := by
  cases hvalid : validatePushUrl urls config.url with
  | ok _ => rfl
  | error error =>
      unfold check at h
      simp only [if_true, hvalid] at h
      cases h

end sender

/-- **The guard**: with validation on, a push reaches no blocked address, nor
one mapped from one; and a URL of the web whose host is an address is
rejected exactly if the address is blocked. -/
theorem push_guarded (urls : UrlParser) (toVec : StreamResponse → Except String (List UInt8))
    (failOnError : Bool) (config : TaskPushNotificationConfig) (event : StreamResponse)
    (answer : PushAnswer) (hops : List Hop) :
    (∀ request ∈ ((HttpPushSender.mk failOnError true).sendPush urls toVec config event answer).1,
      ∀ ip ∈ HttpPushSender.dials urls hops request,
        isBlockedIp ip = false ∧
          ∀ v4 : Ipv4Addr, ip = .v6 v4.toIpv6Mapped → isBlockedIp (.v4 v4) = false) ∧
    ∀ text url ip, urls.parse text = some url → (url.scheme = "http" ∨ url.scheme = "https") →
      url.literal = some ip →
        ((∃ error, validatePushUrl urls text = .error error) ↔ isBlockedIp ip = true) := by
  constructor
  · intro request hrequest ip hip
    obtain ⟨hurl, hcheck⟩ := HttpPushSender.mem_sendPush hrequest
    have hvalid := HttpPushSender.validate_of_check hcheck
    have hblocked : isBlockedIp ip = false := by
      rw [HttpPushSender.dials, hurl] at hip
      rw [validatePushUrl] at hvalid
      cases hparse : urls.parse config.url with
      | none =>
          rw [hparse] at hip
          cases hip
      | some url =>
          rw [hparse] at hip hvalid
          exact not_blocked_of_connections urls hops hvalid hip
    refine ⟨hblocked, ?_⟩
    intro v4 hv4
    rw [Bool.eq_false_iff]
    intro hfour
    rw [hv4, isBlockedIp_mapped hfour] at hblocked
    cases hblocked
  · intro text url ip hparse hscheme hliteral
    rw [validatePushUrl, hparse]
    exact Url.validate_literal hscheme hliteral

/-- `http://[::127.0.0.1]/`, as it is parsed. -/
def compatibleUrl : Url := ⟨"http://[::7f00:1]/", "http", some "[::7f00:1]"⟩

/-- An address that is not blocked, but not of the web. -/
def fileUrl : Url := ⟨"ftp://93.184.216.34/", "ftp", some "93.184.216.34"⟩

def compatibleConfig : TaskPushNotificationConfig :=
  ⟨compatibleUrl.text, none, "t", none, none, none⟩

/-- Embedded otherwise than by mapping, the loopback address is reached; and
a URL is rejected whose address is not blocked. -/
theorem compatible_reached :
    let urls := UrlParser.ofUrls [compatibleUrl, fileUrl]
    let sender : HttpPushSender := ⟨false, true⟩
    let event : StreamResponse := .task (makeTask "t" "c" .working)
    (∃ request ∈ (sender.sendPush urls (fun _ => .ok []) compatibleConfig event (.status 200 "200 OK")).1,
      .v6 (Ipv4Addr.toIpv6Compatible ⟨127, 0, 0, 1⟩) ∈
        HttpPushSender.dials urls [⟨[], none⟩] request) ∧
    isBlockedIp (.v4 ⟨127, 0, 0, 1⟩) = true ∧
    fileUrl.literal = some (.v4 ⟨93, 184, 216, 34⟩) ∧ isBlockedIp (.v4 ⟨93, 184, 216, 34⟩) = false ∧
    ∃ error, validatePushUrl urls fileUrl.text = .error error := by
  refine ⟨⟨HttpPushSender.request compatibleConfig [], ?_, ?_⟩, ?_, ?_, ?_, _, rfl⟩
  all_goals decide

end A2a
