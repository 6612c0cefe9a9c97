import A2a.ClientFactory
import A2a.Middleware

/-!
# A2a.SignaledVersion

The `A2A-Version` that `a2acli` sends: which version it settles on
(`a2acli/src/lib.rs`) and what its interceptors make of the parameters of a
call (`a2a-client/src/auth.rs`).

The map of parameters tells spellings of a name apart, the headers it becomes
do not: a parameter of the caller's own under another spelling is sent beside
the version (`versionSignaled_iff`).
-/

namespace A2a

/-! ## versions -/

/-- `parse_protocol_version`: major and minor, what follows is ignored. -/
def parseProtocolVersion (value : String) : Option (Nat × Nat) :=
  match (trim value.toList).splitOn '.' with
  | [] => none
  | [major] => (parseU32 major).map fun major => (major, 0)
  | major :: minor :: _ => do
      let major ← parseU32 major
      let minor ← parseU32 minor
      some (major, minor)

def supportedProtocolVersion : Nat × Nat := (parseProtocolVersion version).getD (1, 0)

def versionLabel (v : Nat × Nat) : String := toString v.1 ++ "." ++ toString v.2

/-- The order of pairs: by major version, then by minor. -/
def versionLt (a b : Nat × Nat) : Bool := a.1 < b.1 || (a.1 = b.1 && a.2 < b.2)

/-- The version settled on, and a note if it is not simply the supported one. -/
structure NegotiatedVersion where
  version : String
  note : Option String

/-- `negotiate_a2a_version`. -/
def negotiateA2aVersion (explicit : Option String) (declared : String) (supported : Nat × Nat) :
    NegotiatedVersion :=
  let supportedLabel := versionLabel supported
  match explicit with
  | some requested =>
      let note := s!"signaling A2A-Version {requested} (a2acli supports {supportedLabel})"
      ⟨requested, if parseProtocolVersion requested ≠ some supported then some note else none⟩
  | none =>
      match parseProtocolVersion declared with
      | none =>
          let note := s!"agent card declares an unparseable protocol version ({declared}); " ++
            s!"signaling {supportedLabel}"
          ⟨supportedLabel, some note⟩
      | some declaredVersion =>
          if declaredVersion.1 ≠ 1 then
            let note := s!"agent card declares protocol version {declared}, which is outside 1.x; " ++
              s!"signaling {supportedLabel} rather than negotiating below 1.0"
            ⟨supportedLabel, some note⟩
          else if versionLt declaredVersion supported then
            let version := versionLabel declaredVersion
            let note := s!"negotiated A2A-Version down to {version} (agent card declares " ++
              s!"{version}, a2acli supports {supportedLabel})"
            ⟨version, some note⟩
          else ⟨supportedLabel, none⟩

/-- `validate_a2a_version`, with the text of its usage error. -/
def validateA2aVersion : Option String → Except String Unit
  | none => .ok ()
  | some requested =>
      match parseProtocolVersion requested with
      | some (major, _) =>
          if major = 1 then .ok ()
          else .error (s!"--a2a-version must be 1.x, got {requested}: A2A reads an empty or pre-1.0 " ++
            "version as 0.3, and a2acli never signals below 1.0")
      | none => .error s!"--a2a-version must be a version like 1.0, got {requested}"

/-! ## interceptors -/

/-- The interceptors of a call: a header's value added, a line logged, the
version set. -/
inductive Interceptor
  | auth (headerName headerValue : String)
  | logging
  | version (value : String)

/-- `CallInterceptor::before`. -/
def Interceptor.before (params : ServiceParams) : Interceptor → ServiceParams
  | .auth name value => params.insert name ((params.lookup name).getD [] ++ [value])
  | .logging => params
  | .version value => params.insert svcParamVersion [value]

/-- `apply_before`: the parameters a call is sent with. -/
def A2AClient.applyBefore {T : Type} (client : A2AClient T Interceptor) : ServiceParams :=
  client.interceptors.foldl Interceptor.before client.defaultParams

/-- A header of `--svc-param`. -/
structure HeaderArg where
  name : String
  value : String

/-- The flags that have to do with the parameters of a call. -/
structure CallFlags where
  bearer : Option String
  apiKey : Option String
  svcParams : List HeaderArg
  debug : Bool
  a2aVersion : Option String

/-- The interceptors that add headers. -/
def CallFlags.headers (cli : CallFlags) : List HeaderArg :=
  (cli.bearer.map fun token => (⟨"Authorization", "Bearer " ++ token⟩ : HeaderArg)).toList ++
    (cli.apiKey.map fun apiKey => (⟨"X-API-Key", apiKey⟩ : HeaderArg)).toList ++ cli.svcParams

/-- The interceptors before the one of the version. -/
def CallFlags.interceptors (cli : CallFlags) : List Interceptor :=
  (cli.headers.map fun header => Interceptor.auth header.name header.value) ++
    if cli.debug then [.logging] else []

/-- `resolve_client`, over the interface that was selected: the client, and
the note of its version. -/
def resolveClient {F T : Type} (factory : A2AClientFactory F Interceptor) (cli : CallFlags)
    (transport : T) (iface : AgentInterface) : A2AClient T Interceptor × Option String :=
  let negotiated := negotiateA2aVersion cli.a2aVersion iface.protocolVersion supportedProtocolVersion
  ({ factory.client transport iface with
      interceptors := cli.interceptors ++ [.version negotiated.version] }, negotiated.note)

/-! ## one version -/

/-- Another way to spell `A2A-Version`, or its own. -/
def IsVersionKey (key : String) : Prop := eqIgnoreAsciiCase key svcParamVersion = true

/-- Under all spellings together there is one value. -/
def SignalsOnce (params : ServiceParams) (v : String) : Prop :=
  ∃ key, IsVersionKey key ∧ params.lookup key = some [v] ∧
    ∀ other values, IsVersionKey other → params.lookup other = some values → values ≠ [] →
      other = key

/-- The version that was asked for, or the smaller of the supported one and
the declared one if that is 1.x, or the supported one. -/
def expectedVersion (explicit : Option String) (declared : String) (supported : Nat × Nat) : String :=
  match explicit with
  | some requested => requested
  | none =>
      match parseProtocolVersion declared with
      | some declaredVersion =>
          if declaredVersion.1 = 1 ∧ versionLt declaredVersion supported = true then
            versionLabel declaredVersion
          else versionLabel supported
      | none => versionLabel supported

theorem negotiateA2aVersion_version (explicit : Option String) (declared : String)
    (supported : Nat × Nat) :
    (negotiateA2aVersion explicit declared supported).version =
      expectedVersion explicit declared supported := by
  unfold negotiateA2aVersion expectedVersion
  cases explicit with
  | some requested => rfl
  | none =>
      cases parseProtocolVersion declared with
      | none => rfl
      | some declaredVersion =>
          by_cases hmajor : declaredVersion.1 = 1
          · by_cases hlt : versionLt declaredVersion supported = true
            · simp [hmajor, hlt]
            · simp [hmajor, hlt]
          · simp [hmajor]

/-- What a call signals: one value, of a version 1.x that a server accepts,
the one expected; and a note if it is not the supported version. -/
def VersionSignaled {F T : Type} (factory : A2AClientFactory F Interceptor) (cli : CallFlags)
    (transport : T) (iface : AgentInterface) : Prop :=
  ∃ v, SignalsOnce (resolveClient factory cli transport iface).1.applyBefore v ∧
    (∃ minor, parseProtocolVersion v = some (1, minor)) ∧
    checkA2aVersion (Finmap.singleton "a2a-version" [v]) = .ok () ∧
    v = expectedVersion cli.a2aVersion iface.protocolVersion supportedProtocolVersion ∧
    (parseProtocolVersion v ≠ some supportedProtocolVersion →
      (resolveClient factory cli transport iface).2.isSome = true)

/-- The version parses alike on both sides. -/
theorem checkA2aVersion_of_parse {v : String} {minor : Nat}
    (h : parseProtocolVersion v = some (1, minor)) :
    checkA2aVersion (Finmap.singleton "a2a-version" [v]) = .ok () := by
  have hmajor : parseMajorVersion v = some supportedMajorVersion := by
    unfold parseProtocolVersion at h
    unfold parseMajorVersion
    split at h
    · contradiction
    · next major hsplit =>
      rw [hsplit]
      obtain ⟨n, hn, heq⟩ := Option.map_eq_some_iff.mp h
      rw [Prod.mk.injEq] at heq
      exact hn.trans (congrArg some heq.1)
    · next major minor' rest hsplit =>
      rw [hsplit]
      obtain ⟨n, hn, hrest⟩ := Option.bind_eq_some_iff.mp h
      obtain ⟨m, -, heq⟩ := Option.bind_eq_some_iff.mp hrest
      rw [Option.some.injEq, Prod.mk.injEq] at heq
      exact hn.trans (congrArg some heq.1)
  have hrequested : requestedVersion (Finmap.singleton "a2a-version" [v]) = v := by
    rw [requestedVersion, Finmap.lookup_singleton_eq]
    rfl
  rw [checkA2aVersion, hrequested, if_pos hmajor]

theorem supportedProtocolVersion_eq : supportedProtocolVersion = (1, 0) := by decide

/-- Whatever is settled on is 1.x. -/
theorem expectedVersion_parse {explicit : Option String} (declared : String)
    (h : validateA2aVersion explicit = .ok ()) :
    ∃ minor, parseProtocolVersion (expectedVersion explicit declared supportedProtocolVersion) =
      some (1, minor) := by
  cases explicit with
  | some requested =>
      rw [validateA2aVersion] at h
      split at h
      · next major minor hparse =>
        split at h
        · next hmajor =>
          rw [hmajor] at hparse
          exact ⟨minor, hparse⟩
        · contradiction
      · contradiction
  | none =>
      have hnever : ∀ declaredVersion : Nat × Nat,
          ¬ (declaredVersion.1 = 1 ∧ versionLt declaredVersion (1, 0) = true) := by
        intro declaredVersion hlt
        simp [versionLt] at hlt
        omega
      have hlabel : parseProtocolVersion (versionLabel (1, 0)) = some (1, 0) := by decide
      refine ⟨0, ?_⟩
      rw [supportedProtocolVersion_eq, expectedVersion]
      cases parseProtocolVersion declared with
      | none => exact hlabel
      | some declaredVersion =>
          simp only [if_neg (hnever declaredVersion)]
          exact hlabel

/-- A version other than the supported one comes with a note. -/
theorem negotiateA2aVersion_note {explicit : Option String} {declared : String}
    (h : parseProtocolVersion (expectedVersion explicit declared supportedProtocolVersion) ≠
      some supportedProtocolVersion) :
    (negotiateA2aVersion explicit declared supportedProtocolVersion).note.isSome = true := by
  have hlabel : parseProtocolVersion (versionLabel supportedProtocolVersion) =
      some supportedProtocolVersion := by decide
  unfold negotiateA2aVersion
  unfold expectedVersion at h
  cases explicit with
  | some requested =>
      simp only at h ⊢
      rw [if_pos h]
      rfl
  | none =>
      cases hparse : parseProtocolVersion declared with
      | none => rfl
      | some declaredVersion =>
          simp only [hparse] at h ⊢
          by_cases hmajor : declaredVersion.1 = 1
          · by_cases hlt : versionLt declaredVersion supportedProtocolVersion = true
            · simp [hmajor, hlt]
            · rw [if_neg (fun hboth => hlt hboth.2)] at h
              exact absurd hlabel h
          · simp [hmajor]

/-! ## headers -/

/-- The parameters after headers were added. -/
def addHeaders (params : ServiceParams) (headers : List HeaderArg) : ServiceParams :=
  (headers.map fun header => Interceptor.auth header.name header.value).foldl Interceptor.before params

/-- There is a value under the name. -/
def HasValue (params : ServiceParams) (key : String) : Prop :=
  ∃ values, params.lookup key = some values ∧ values ≠ []

/-- Under a name that no header has is what there was. -/
theorem lookup_addHeaders_of_forall_ne {headers : List HeaderArg} {key : String}
    (h : ∀ header ∈ headers, header.name ≠ key) (params : ServiceParams) :
    (addHeaders params headers).lookup key = params.lookup key := by
  induction headers generalizing params with
  | nil => rfl
  | cons header rest ih =>
      have hrest := ih (fun header hmem => h header (List.mem_cons_of_mem _ hmem))
        ((Interceptor.auth header.name header.value).before params)
      exact hrest.trans
        (Finmap.lookup_insert_of_ne params (Ne.symm (h header List.mem_cons_self)))

/-- Under a name, as it is spelled, are the values there were and then those of
the headers, in order. -/
theorem lookup_addHeaders (headers : List HeaderArg) (params : ServiceParams) (key : String) :
    ((addHeaders params headers).lookup key).getD [] = (params.lookup key).getD [] ++
      (headers.filter fun header => header.name = key).map HeaderArg.value := by
  induction headers generalizing params with
  | nil => exact (List.append_nil _).symm
  | cons header rest ih =>
      refine (ih ((Interceptor.auth header.name header.value).before params)).trans ?_
      rw [Interceptor.before]
      by_cases hname : header.name = key
      · rw [hname, Finmap.lookup_insert, List.filter_cons_of_pos (by simpa using hname)]
        simp
      · rw [Finmap.lookup_insert_of_ne params (Ne.symm hname),
          List.filter_cons_of_neg (by simpa using hname)]

/-- What has a value keeps one, and a header has one. -/
theorem hasValue_addHeaders {headers : List HeaderArg} {params : ServiceParams} {key : String}
    (h : HasValue params key ∨ ∃ header ∈ headers, header.name = key) :
    HasValue (addHeaders params headers) key := by
  induction headers generalizing params with
  | nil =>
      rcases h with h | ⟨header, hmem, -⟩
      · exact h
      · contradiction
  | cons header rest ih =>
      refine @ih ((Interceptor.auth header.name header.value).before params) ?_
      by_cases hname : header.name = key
      · left
        rw [HasValue, Interceptor.before, hname]
        exact ⟨_, Finmap.lookup_insert params, by simp⟩
      · rcases h with ⟨values, hvalues, hne⟩ | ⟨other, hmem, hother⟩
        · left
          refine ⟨values, ?_, hne⟩
          rw [Interceptor.before, Finmap.lookup_insert_of_ne params (Ne.symm hname)]
          exact hvalues
        · rw [List.mem_cons] at hmem
          rcases hmem with rfl | hmem
          · exact absurd hother hname
          · exact Or.inr ⟨other, hmem, hother⟩

section call

variable {F T : Type} (factory : A2AClientFactory F Interceptor) (cli : CallFlags) (transport : T)
  (iface : AgentInterface)

theorem client_defaultParams :
    (factory.client transport iface).defaultParams = Finmap.singleton svcParamVersion [version] := by
  unfold A2AClientFactory.client
  simp only
  split <;> rfl

/-- The version is set last, over the headers. -/
theorem applyBefore_resolveClient :
    (resolveClient factory cli transport iface).1.applyBefore =
      (addHeaders (Finmap.singleton svcParamVersion [version]) cli.headers).insert svcParamVersion
        [expectedVersion cli.a2aVersion iface.protocolVersion supportedProtocolVersion] := by
  have hheaders : cli.interceptors.foldl Interceptor.before
      (Finmap.singleton svcParamVersion [version]) =
        addHeaders (Finmap.singleton svcParamVersion [version]) cli.headers := by
    rw [CallFlags.interceptors, List.foldl_append]
    cases cli.debug <;> rfl
  unfold resolveClient A2AClient.applyBefore
  simp only
  rw [client_defaultParams, List.foldl_append, hheaders, negotiateA2aVersion_version]
  rfl

/-- There is one value if no header has another spelling of the name. -/
theorem signalsOnce_iff (v : String) :
    SignalsOnce ((addHeaders (Finmap.singleton svcParamVersion [version]) cli.headers).insert
        svcParamVersion [v]) v ↔
      ∀ header ∈ cli.headers, IsVersionKey header.name → header.name = svcParamVersion := by
  have hown : IsVersionKey svcParamVersion := by
    rw [IsVersionKey, eqIgnoreAsciiCase, decide_eq_true_eq]
  constructor
  · rintro ⟨key, -, -, honly⟩ header hmem hspelled
    have hkey := honly svcParamVersion [v] hown (Finmap.lookup_insert _) (List.cons_ne_nil _ _)
    by_contra hne
    have hvalue : HasValue (addHeaders (Finmap.singleton svcParamVersion [version]) cli.headers)
        header.name := hasValue_addHeaders (Or.inr ⟨header, hmem, rfl⟩)
    obtain ⟨values, hvalues, hsome⟩ := hvalue
    have hother := honly header.name values hspelled
      ((Finmap.lookup_insert_of_ne _ hne).trans hvalues) hsome
    exact hne (hother.trans hkey.symm)
  · intro hheaders
    refine ⟨svcParamVersion, hown, Finmap.lookup_insert _, ?_⟩
    intro other values hspelled hvalues hsome
    by_contra hne
    rw [Finmap.lookup_insert_of_ne _ hne, lookup_addHeaders_of_forall_ne] at hvalues
    · have hnone : (Finmap.singleton svcParamVersion [version] : ServiceParams).lookup other =
          none := by
        rw [Finmap.lookup_eq_none, Finmap.mem_singleton]
        exact hne
      rw [hnone] at hvalues
      contradiction
    · intro header hmem heq
      rw [← heq] at hspelled hne
      exact hne (hheaders header hmem hspelled)

/-- The headers of the CLI's own are no versions. -/
theorem headers_spelled_iff :
    (∀ header ∈ cli.headers, IsVersionKey header.name → header.name = svcParamVersion) ↔
      ∀ param ∈ cli.svcParams, IsVersionKey param.name → param.name = svcParamVersion := by
  have hauthorization : ¬ IsVersionKey "Authorization" := by
    rw [IsVersionKey]
    decide
  have hapiKey : ¬ IsVersionKey "X-API-Key" := by
    rw [IsVersionKey]
    decide
  constructor
  · intro h param hparam
    exact h param (List.mem_append_right _ hparam)
  · intro h header hheader hspelled
    simp only [CallFlags.headers, List.mem_append, Option.mem_toList, Option.map_eq_some_iff]
      at hheader
    rcases hheader with (⟨token, -, rfl⟩ | ⟨apiKey, -, rfl⟩) | hparam
    · exact absurd hspelled hauthorization
    · exact absurd hspelled hapiKey
    · exact h header hparam hspelled

/-- **One version is signaled**, the one expected and with a note where one is
due, exactly if no parameter of the caller's is another spelling of its name. -/
theorem versionSignaled_iff (hvalid : validateA2aVersion cli.a2aVersion = .ok ()) :
    VersionSignaled factory cli transport iface ↔
      ∀ param ∈ cli.svcParams, IsVersionKey param.name → param.name = svcParamVersion := by
  rw [← headers_spelled_iff]
  constructor
  · rintro ⟨v, honce, -, -, hv, -⟩
    rw [applyBefore_resolveClient, ← hv] at honce
    exact (signalsOnce_iff cli v).mp honce
  · intro hheaders
    obtain ⟨minor, hparse⟩ := expectedVersion_parse iface.protocolVersion hvalid
    refine ⟨_, ?_, ⟨minor, hparse⟩, checkA2aVersion_of_parse hparse, rfl, negotiateA2aVersion_note⟩
    rw [applyBefore_resolveClient]
    exact (signalsOnce_iff cli _).mpr hheaders

end call

/-- Flags with a version and a header of the caller's. -/
def headerFlags (name : String) : CallFlags where
  bearer := none
  apiKey := none
  svcParams := [⟨name, "0.3"⟩]
  debug := false
  a2aVersion := some "1.3"

/-- A factory without transports. -/
def noFactories : A2AClientFactory Unit Interceptor := ⟨∅, [], [], Nat.two_pow_pos 64⟩

/-- A header of the very name is replaced. -/
theorem versionSignaled_headerFlags :
    validateA2aVersion (headerFlags "A2A-Version").a2aVersion = .ok () ∧
      VersionSignaled noFactories (headerFlags "A2A-Version") () (.new "http://localhost" "JSONRPC") := by
  have hvalid : validateA2aVersion (headerFlags "A2A-Version").a2aVersion = .ok () := by
    have hparse : parseProtocolVersion "1.3" = some (1, 3) := by decide
    simp [validateA2aVersion, headerFlags, hparse]
  refine ⟨hvalid, (versionSignaled_iff noFactories _ () _ hvalid).mpr ?_⟩
  intro param hparam _
  rw [List.mem_singleton.mp hparam]
  rfl

/-- A header of another spelling is sent beside the version. -/
theorem headerFlags_not_versionSignaled :
    ¬ VersionSignaled noFactories (headerFlags "a2a-version") () (.new "http://localhost" "JSONRPC") := by
  rintro ⟨v, honce, -, -, hv, -⟩
  rw [applyBefore_resolveClient, ← hv] at honce
  have hname := (signalsOnce_iff _ v).mp honce ⟨"a2a-version", "0.3"⟩ List.mem_cons_self (by
    rw [IsVersionKey]
    decide)
  exact absurd hname (by decide)

end A2a
