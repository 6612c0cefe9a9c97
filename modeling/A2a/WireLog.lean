import A2a.Bindings.Params
import A2a.SignaledVersion
import Mathlib.Data.List.Sort

/-!
# A2a.WireLog

What the client logs of the headers of a request (`a2a-client/src/wire.rs`),
and that it tells no credential (`credentials_unlogged`).
-/

namespace A2a

/-- `VISIBLE_HEADERS`. -/
def visibleHeaders : List String :=
  ["a2a-version", "accept", "accept-encoding", "content-length", "content-type", "host",
    "user-agent"]

/-- `is_visible`. -/
def isVisibleHeader (name : String) : Bool := visibleHeaders.contains name

/-- `REDACTED`. -/
def redacted : String := "(redacted)"

/-- What `render_headers` makes of a header. -/
def renderHeader (header : String × List UInt8) : String :=
  let shown := (headerToStr header.2).getD "(binary)"
  if isVisibleHeader header.1 then s!"{header.1}: {shown}"
  else s!"{header.1}: {redacted}"

/-- `render_headers`. -/
def renderHeaders (headers : HeaderMap) : String :=
  ", ".intercalate ((headers.map renderHeader).mergeSort (· ≤ ·))

/-- The same value, unless it is not shown. -/
def SameShown (name value value' : String) : Prop :=
  isVisibleHeader (lowerKey name) = true → value = value'

/-- Parameters that differ in values that are not shown, if in anything. -/
def ServiceParams.SameShown (params params' : ServiceParams) : Prop :=
  ∀ key, Option.Rel (List.Forall₂ (A2a.SameShown key)) (params.lookup key) (params'.lookup key)

/-- Flags that differ in values that are not shown, if in anything. -/
structure CallFlags.SameShown (flags flags' : CallFlags) : Prop where
  headers : List.Forall₂ (fun header header' => header.name = header'.name ∧
    A2a.SameShown header.name header.value header'.value) flags.headers flags'.headers
  version : flags.a2aVersion = flags'.a2aVersion

variable {params params' : ServiceParams} {key : String}

theorem ServiceParams.sameShown_refl (params : ServiceParams) : params.SameShown params := by
  intro key
  cases params.lookup key with
  | none => exact .none
  | some values => exact .some (List.forall₂_same.mpr fun _ _ _ => rfl)

theorem ServiceParams.SameShown.insert (h : params.SameShown params') {values values' : List String}
    (hvalues : List.Forall₂ (A2a.SameShown key) values values') :
    ServiceParams.SameShown (params.insert key values) (params'.insert key values') := by
  intro other
  by_cases hkey : other = key
  · rw [hkey, Finmap.lookup_insert, Finmap.lookup_insert]
    exact .some hvalues
  · rw [Finmap.lookup_insert_of_ne _ hkey, Finmap.lookup_insert_of_ne _ hkey]
    exact h other

/-- Headers are added alike. -/
theorem ServiceParams.SameShown.addHeaders (h : params.SameShown params')
    {headers headers' : List HeaderArg}
    (hheaders : List.Forall₂ (fun header header' => header.name = header'.name ∧
      A2a.SameShown header.name header.value header'.value) headers headers') :
    (A2a.addHeaders params headers).SameShown (A2a.addHeaders params' headers') := by
  induction hheaders generalizing params params' with
  | nil => exact h
  | @cons header header' headers headers' hheader _ ih =>
      obtain ⟨hname, hvalue⟩ := hheader
      have hrest : ((Interceptor.auth header.name header.value).before params).SameShown
          ((Interceptor.auth header'.name header'.value).before params') := by
        rw [Interceptor.before, Interceptor.before, ← hname]
        refine h.insert (List.rel_append ?_ (.cons hvalue .nil))
        have hlookup := h header.name
        generalize params.lookup header.name = found at hlookup
        generalize params'.lookup header.name = found' at hlookup
        cases hlookup with
        | none => exact .nil
        | some hvalues => exact hvalues
      exact ih hrest

/-- What is logged of a parameter. -/
def paramLines (params : ServiceParams) (key : String) : List String :=
  ((params.lookup key).getD []).map fun value => renderHeader (lowerKey key, utf8 value)

theorem ServiceParams.SameShown.paramLines_eq (h : params.SameShown params') (key : String) :
    paramLines params key = paramLines params' key := by
  have hlookup := h key
  unfold paramLines
  generalize params.lookup key = found at hlookup
  generalize params'.lookup key = found' at hlookup
  cases hlookup with
  | none => rfl
  | @some values values' hvalues =>
      simp only [Option.getD_some]
      induction hvalues with
      | nil => rfl
      | cons hvalue _ ih =>
          rw [List.map_cons, List.map_cons, ih]
          congr 1
          unfold renderHeader
          by_cases hvisible : isVisibleHeader (lowerKey key) = true
          · rw [hvalue hvisible]
          · rw [if_neg hvisible, if_neg hvisible]

/-- In whatever order parameters are walked, their lines are those of the keys. -/
theorem lines_entries {order : AList fun _ : String => List String} (horder : order.toFinmap = params) :
    (order.entries.flatMap paramHeaders).map renderHeader = order.keys.flatMap (paramLines params) := by
  rw [List.map_flatMap, AList.keys, List.keys, List.flatMap_map]
  refine List.flatMap_congr fun entry hentry => ?_
  have hlookup : params.lookup entry.1 = some entry.2 := by
    rw [← horder]
    exact AList.mem_lookup_iff.mpr hentry
  rw [paramLines, hlookup, paramHeaders, List.map_map]
  rfl

theorem keys_perm (h : params.SameShown params') {order order' : AList fun _ : String => List String}
    (horder : order.toFinmap = params) (horder' : order'.toFinmap = params') :
    order.keys.Perm order'.keys := by
  rw [List.perm_ext_iff_of_nodup order.keys_nodup order'.keys_nodup]
  intro key
  have hlookup := h key
  rw [← horder, ← horder'] at hlookup
  change key ∈ order ↔ key ∈ order'
  rw [← AList.lookup_isSome, ← AList.lookup_isSome]
  change Option.Rel _ (order.lookup key) (order'.lookup key) at hlookup
  generalize order.lookup key = found at hlookup
  generalize order'.lookup key = found' at hlookup
  cases hlookup with
  | none => rfl
  | some _ => rfl

/-- Headers that show the same lines, in any order, are rendered alike. -/
theorem renderHeaders_of_perm {headers headers' : HeaderMap}
    (h : (headers.map renderHeader).Perm (headers'.map renderHeader)) :
    renderHeaders headers = renderHeaders headers' := by
  have hsorted : (headers.map renderHeader).mergeSort (· ≤ ·) =
      (headers'.map renderHeader).mergeSort (· ≤ ·) := by
    refine List.Perm.eq_of_sortedLE List.sortedLE_mergeSort List.sortedLE_mergeSort ?_
    exact (List.mergeSort_perm _ _).trans (h.trans (List.mergeSort_perm _ _).symm)
  rw [renderHeaders, renderHeaders, hsorted]

section credentials

variable {F T : Type} {factory : A2AClientFactory F Interceptor} {transport : T}
  {iface : AgentInterface} {flags flags' : CallFlags} {own headers headers' : HeaderMap}
  {order order' : AList fun _ : String => List String}

/-- **The log tells no credential**: of two command lines that differ in the
values of headers that are not on the list of shown ones, and in nothing else,
a request has the same line in the log, in whatever order its parameters are
walked. -/
theorem credentials_unlogged (hflags : flags.SameShown flags')
    (horder : order.toFinmap = (resolveClient factory flags transport iface).1.applyBefore)
    (horder' : order'.toFinmap = (resolveClient factory flags' transport iface).1.applyBefore)
    (hsent : httpHeaders own order.entries = some headers)
    (hsent' : httpHeaders own order'.entries = some headers') :
    renderHeaders headers = renderHeaders headers' := by
  have hparams : ServiceParams.SameShown (resolveClient factory flags transport iface).1.applyBefore
      (resolveClient factory flags' transport iface).1.applyBefore := by
    rw [applyBefore_resolveClient, applyBefore_resolveClient, ← hflags.version]
    refine ServiceParams.SameShown.insert ?_ (List.forall₂_same.mpr fun _ _ _ => rfl)
    exact (ServiceParams.sameShown_refl _).addHeaders hflags.headers
  have hheaders : own ++ order.entries.flatMap paramHeaders = headers := by
    unfold httpHeaders at hsent
    split at hsent
    · exact Option.some.inj hsent
    · contradiction
  have hheaders' : own ++ order'.entries.flatMap paramHeaders = headers' := by
    unfold httpHeaders at hsent'
    split at hsent'
    · exact Option.some.inj hsent'
    · contradiction
  rw [← hheaders, ← hheaders']
  refine renderHeaders_of_perm ?_
  rw [List.map_append, List.map_append, lines_entries horder, lines_entries horder']
  refine List.Perm.append_left _ ?_
  have hlines : paramLines (resolveClient factory flags transport iface).1.applyBefore =
      paramLines (resolveClient factory flags' transport iface).1.applyBefore :=
    funext hparams.paramLines_eq
  rw [hlines]
  exact (keys_perm hparams horder horder').flatMap_right _

end credentials

/-- A command line with a token and nothing else. -/
def bearerFlags (token : String) : CallFlags where
  bearer := some token
  apiKey := none
  svcParams := []
  debug := false
  a2aVersion := none

/-- Its parameters, in an order. -/
def bearerParams (token : String) : AList fun _ : String => List String :=
  ((AList.singleton "A2A-Version" ["1.0"]).insert "Authorization" ["Bearer " ++ token]).insert
    "A2A-Version" ["1.0"]

theorem toFinmap_bearerParams (token : String) : (bearerParams token).toFinmap =
    (resolveClient noFactories (bearerFlags token) ()
      (.new "http://localhost" "JSONRPC")).1.applyBefore := by
  have hversion : expectedVersion none "1.0" supportedProtocolVersion = "1.0" := by decide
  have hdeclared : (AgentInterface.new "http://localhost" "JSONRPC").protocolVersion = "1.0" := rfl
  have hexplicit : (bearerFlags token).a2aVersion = none := rfl
  rw [applyBefore_resolveClient, hdeclared, hexplicit, hversion]
  rfl

theorem credentials_unlogged_bearer :
    renderHeaders [("a2a-version", utf8 "1.0"), ("authorization", utf8 "Bearer alpha")] =
      renderHeaders [("a2a-version", utf8 "1.0"), ("authorization", utf8 "Bearer beta")] := by
  have hflags : (bearerFlags "alpha").SameShown (bearerFlags "beta") := by
    refine ⟨.cons ⟨rfl, fun hvisible => ?_⟩ .nil, rfl⟩
    revert hvisible
    decide
  have hsent : httpHeaders [] (bearerParams "alpha").entries =
      some [("a2a-version", utf8 "1.0"), ("authorization", utf8 "Bearer alpha")] := by decide
  have hsent' : httpHeaders [] (bearerParams "beta").entries =
      some [("a2a-version", utf8 "1.0"), ("authorization", utf8 "Bearer beta")] := by decide
  exact credentials_unlogged hflags (toFinmap_bearerParams _) (toFinmap_bearerParams _) hsent hsent'

end A2a
