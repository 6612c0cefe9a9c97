import A2a.Bindings
import A2a.PercentEncoding

/-!
# A2a.Bindings.Params

What the service parameters of a client are when a server hands them to its
handler, on each binding: headers over HTTP (`a2a-client/src/rest.rs`,
`a2a-client/src/jsonrpc.rs`), metadata over gRPC (`a2a-grpc/src/client.rs`)
and over SLIMRPC (`a2a-slimrpc/src/common.rs`).

HTTP and gRPC write the names in lower case and every value by itself;
SLIMRPC keeps a name as it is and joins its values.  So the three agree on
parameters that are `Portable`, and on no others.
-/

namespace A2a

/-! ## names and values -/

/-- `str::to_ascii_lowercase`, as a header's name is normalised. -/
def lowerKey (key : String) : String := String.ofList (key.toList.map Char.toLower)

/-- A character of a header's name. -/
def isTokenChar (c : Char) : Bool :=
  c.isAlphanum || ['!', '#', '$', '%', '&', '*', '+', '-', '.', '^', '_', '|', '~'].contains c ||
    c.toNat = 0x27 || c.toNat = 0x60

/-- `HeaderName::from_bytes`. -/
def isHeaderName (key : String) : Bool := key ≠ "" && key.toList.all isTokenChar

/-- `HeaderValue::from_str`. -/
def isHeaderValue (value : String) : Bool :=
  (utf8 value).all fun b => (32 ≤ b && b < 127) || b = 9

/-- A visible ASCII character. -/
def isVisible (c : Char) : Bool := 0x21 ≤ c.toNat && c.toNat ≤ 0x7E

/-! ## the clients -/

/-- A parameter and its values, as a map is walked. -/
abbrev ParamEntry := (_ : String) × List String

/-- The headers of one parameter, one for each value. -/
def paramHeaders (entry : ParamEntry) : HeaderMap :=
  entry.2.map fun value => (lowerKey entry.1, utf8 value)

/-- The headers of a request over HTTP after those of its own; a name or a
value that is none fails the request. -/
def httpHeaders (own : HeaderMap) (entries : List ParamEntry) : Option HeaderMap :=
  if entries.all fun entry => entry.2.all fun value => isHeaderName entry.1 && isHeaderValue value then
    some (own ++ entries.flatMap paramHeaders)
  else none

/-- `service_params_to_metadata` of the gRPC client: names and values that
are none are left out, as are names of binary metadata. -/
def grpcMetadata (own : HeaderMap) (entries : List ParamEntry) : HeaderMap :=
  own ++ (entries.filter fun entry => isHeaderName entry.1 && !endsWith "-bin" (lowerKey entry.1)).flatMap
    fun entry => paramHeaders ⟨entry.1, entry.2.filter isHeaderValue⟩

/-- `service_params_to_metadata` of SLIMRPC. -/
def slimMetadata (own : SlimMetadata) (entries : List ParamEntry) : SlimMetadata :=
  own ++ entries.map fun entry => (entry.1, ", ".intercalate entry.2)

/-! ## the servers -/

/-- What the layers under the bindings put into a request besides, and the
names they keep for themselves. -/
structure Layers where
  http : HeaderMap
  grpc : HeaderMap
  keys : SlimKeys
  slim : SlimMetadata
  identity : CallerIdentity
  reserved : List String
  http_reserved : ∀ header ∈ http, header.1 ∈ reserved
  grpc_reserved : ∀ header ∈ grpc, header.1 ∈ reserved
  slim_internal : ∀ entry ∈ slim, isInternalMetadataKey keys entry.1 = true
  version_free : "a2a-version" ∉ reserved
  extensions_free : "a2a-extensions" ∉ reserved

inductive Binding
  | http
  | grpc
  | slimrpc
deriving DecidableEq

/-- What a server hands to the handler of parameters walked in some order. -/
def received (layers : Layers) : Binding → List ParamEntry → Option ServiceParams
  | .http, entries => (httpHeaders layers.http entries).map extractServiceParams
  | .grpc, entries => some (extractMetadataParams (grpcMetadata layers.grpc entries))
  | .slimrpc, entries =>
      some (toServiceParams layers.keys (slimMetadata layers.slim entries) layers.identity)

/-- Parameters a client may give: header names that nobody else uses, and
visible values. -/
structure ClientParams (layers : Layers) where
  params : ServiceParams
  header_names : ∀ key ∈ params, isHeaderName key = true
  not_binary : ∀ key ∈ params, endsWith "-bin" (lowerKey key) = false
  not_reserved : ∀ key ∈ params, lowerKey key ∉ layers.reserved ∧ isReservedIdentityKey key = false
  not_internal : ∀ key ∈ params, isInternalMetadataKey layers.keys key = false
  visible : ∀ key values, params.lookup key = some values →
    ∀ value ∈ values, value.toList.all isVisible = true

/-! ## meaning the same -/

/-- The values of every parameter, and no others, are under its name in lower
case: as a list, or joined. -/
def HoldsExactly (got params : ServiceParams) : Prop :=
  ∀ key values, params.lookup key = some values →
    if values = [] then (got.lookup (lowerKey key)).getD [] = []
    else got.lookup (lowerKey key) = some values ∨
      got.lookup (lowerKey key) = some [", ".intercalate values]

/-- In whatever order each binding walks them, the parameters arrive, hold
exactly, and their consumers decide alike. -/
def MeansTheSame (layers : Layers) (params : ServiceParams) : Prop :=
  ∀ order : Binding → AList (fun _ : String => List String),
    (∀ binding, (order binding).toFinmap = params) →
      ∃ got : Binding → ServiceParams,
        (∀ binding, received layers binding (order binding).entries = some (got binding)) ∧
        (∀ binding, HoldsExactly (got binding) params) ∧
        (∀ (handler : Handler) (b₁ b₂ : Binding),
          handler.requireExtensions (got b₁) = handler.requireExtensions (got b₂)) ∧
        ∀ b₁ b₂ : Binding,
          (checkA2aVersion (got b₁)).isOk = (checkA2aVersion (got b₂)).isOk

/-- Parameters every binding carries alike: a name is in lower case exactly
if it has values, none without values is another but for its case, and a
version given more than once begins with one that has a minor or is not
supported. -/
structure Portable (params : ServiceParams) : Prop where
  lower : ∀ key values, params.lookup key = some values → (values ≠ [] ↔ lowerKey key = key)
  apart : ∀ key, params.lookup key = some [] → lowerKey key ∉ params
  version : ∀ first second rest, params.lookup "a2a-version" = some (first :: second :: rest) →
    '.' ∈ first.toList ∨ parseMajorVersion first ≠ some supportedMajorVersion

/-! ## texts -/

theorem isVisible_lt {c : Char} (h : isVisible c = true) : 0x21 ≤ c.toNat ∧ c.toNat ≤ 0x7E := by
  rw [isVisible, Bool.and_eq_true, decide_eq_true_eq, decide_eq_true_eq] at h
  exact h

/-- A visible text is a byte for each character. -/
theorem utf8_visible {cs : List Char} (h : cs.all isVisible = true) :
    cs.flatMap String.utf8EncodeChar = cs.map fun c => UInt8.ofNat c.toNat := by
  induction cs with
  | nil => rfl
  | cons c rest ih =>
      rw [List.all_cons, Bool.and_eq_true] at h
      have hc := isVisible_lt h.1
      have hencode : String.utf8EncodeChar c = [UInt8.ofNat c.toNat] := by
        have hascii := utf8EncodeChar_ofNat (n := c.toNat) (by omega)
        rwa [Char.ofNat_toNat] at hascii
      rw [List.flatMap_cons, List.map_cons, hencode, ih h.2]
      rfl

theorem byte_visible {c : Char} (h : isVisible c = true) :
    ((32 ≤ UInt8.ofNat c.toNat && UInt8.ofNat c.toNat < 127) || UInt8.ofNat c.toNat = 9) = true := by
  have hc := isVisible_lt h
  have hbyte : (UInt8.ofNat c.toNat).toNat = c.toNat := by
    rw [UInt8.toNat_ofNat']
    omega
  have hlow : (32 : UInt8) ≤ UInt8.ofNat c.toNat := by
    rw [UInt8.le_iff_toNat_le, hbyte]
    have h32 : (32 : UInt8).toNat = 32 := rfl
    omega
  have hhigh : UInt8.ofNat c.toNat < 127 := by
    rw [UInt8.lt_iff_toNat_lt, hbyte]
    have h127 : (127 : UInt8).toNat = 127 := rfl
    omega
  rw [Bool.or_eq_true, Bool.and_eq_true, decide_eq_true_eq, decide_eq_true_eq]
  exact Or.inl ⟨hlow, hhigh⟩

theorem isHeaderValue_visible {value : String} (h : value.toList.all isVisible = true) :
    isHeaderValue value = true := by
  rw [isHeaderValue, utf8, utf8_visible h, List.all_map, List.all_eq_true]
  intro c hc
  exact byte_visible (List.all_eq_true.mp h c hc)

/-- A visible value is read as it was written. -/
theorem headerToStr_visible {value : String} (h : value.toList.all isVisible = true) :
    headerToStr (utf8 value) = some value := by
  have htext : (isHeaderValue value) = true := isHeaderValue_visible h
  have hback : (value.toList.map fun c => UInt8.ofNat c.toNat).map (fun b => Char.ofNat b.toNat) =
      value.toList := by
    rw [List.map_map]
    conv => rhs; rw [← List.map_id value.toList]
    apply List.map_congr_left
    intro c hc
    have hlt := isVisible_lt (List.all_eq_true.mp h c hc)
    have hbyte : (UInt8.ofNat c.toNat).toNat = c.toNat := by
      rw [UInt8.toNat_ofNat']
      omega
    rw [Function.comp_apply, hbyte, Char.ofNat_toNat, id_eq]
  unfold isHeaderValue at htext
  rw [headerToStr, if_pos htext, utf8, utf8_visible h, hback, String.ofList_toList]

theorem toLower_toLower (c : Char) : c.toLower.toLower = c.toLower := by
  unfold Char.toLower
  by_cases h : c.val ≥ 'A'.val ∧ c.val ≤ 'Z'.val
  · rw [dif_pos h]
    have hlow : ¬ ((c.val + 32) ≥ 'A'.val ∧ (c.val + 32) ≤ 'Z'.val) := by
      intro hupper
      have hfrom := h.1
      have hto := h.2
      have habove := hupper.2
      simp [UInt32.le_iff_toNat_le] at hfrom hto habove
      omega
    exact dif_neg hlow
  · rw [dif_neg h, dif_neg h]

theorem lowerKey_lowerKey (key : String) : lowerKey (lowerKey key) = lowerKey key := by
  rw [lowerKey, lowerKey, String.toList_ofList, List.map_map]
  congr 1
  apply List.map_congr_left
  intro c _
  exact toLower_toLower c

theorem eqIgnoreAsciiCase_iff {a b : String} : eqIgnoreAsciiCase a b = true ↔ lowerKey a = lowerKey b := by
  rw [eqIgnoreAsciiCase, decide_eq_true_eq, lowerKey, lowerKey]
  constructor
  · intro h
    rw [h]
  · intro h
    have hlist := congrArg String.toList h
    rwa [String.toList_ofList, String.toList_ofList] at hlist

/-! ## headers as parameters -/

/-- The value a header has under a name. -/
def valueOf (name : String) (header : String × List UInt8) : Option String :=
  if header.1 = name then headerToStr header.2 else none

theorem lookup_pushHeader (params : ServiceParams) (header : String × List UInt8) (name : String) :
    (pushHeader params header).lookup name =
      match valueOf name header with
      | some value => some ((params.lookup name).getD [] ++ [value])
      | none => params.lookup name := by
  unfold pushHeader valueOf
  by_cases hkey : header.1 = name
  · rw [if_pos hkey]
    cases headerToStr header.2 with
    | none => rfl
    | some value =>
        dsimp only
        rw [pushParam, hkey, Finmap.lookup_insert]
  · rw [if_neg hkey]
    cases headerToStr header.2 with
    | none => rfl
    | some value => exact Finmap.lookup_insert_of_ne _ (Ne.symm hkey)

/-- The values of a name are those of its headers, in their order. -/
theorem lookup_foldl_pushHeader (headers : HeaderMap) (params : ServiceParams) (name : String) :
    (headers.foldl pushHeader params).lookup name =
      match headers.filterMap (valueOf name) with
      | [] => params.lookup name
      | values => some ((params.lookup name).getD [] ++ values) := by
  induction headers generalizing params with
  | nil => rfl
  | cons header rest ih =>
      rw [List.foldl_cons, ih, lookup_pushHeader]
      cases hvalue : valueOf name header with
      | none => rw [List.filterMap_cons_none hvalue]
      | some value =>
          rw [List.filterMap_cons_some hvalue]
          cases rest.filterMap (valueOf name) with
          | nil => rfl
          | cons first others =>
              dsimp only
              rw [Option.getD_some, List.append_assoc, List.singleton_append]

/-- What a server finds under a name. -/
theorem lookup_extractServiceParams (headers : HeaderMap) (name : String) :
    (extractServiceParams headers).lookup name =
      match headers.filterMap (valueOf name) with
      | [] => none
      | values => some values := by
  rw [extractServiceParams, lookup_foldl_pushHeader, Finmap.lookup_empty]
  cases headers.filterMap (valueOf name) with
  | nil => rfl
  | cons first others => rfl

/-- The values every walked parameter has under a name. -/
def valuesAt (name : String) (entries : List ParamEntry) : List String :=
  entries.flatMap fun entry => if lowerKey entry.1 = name then entry.2 else []

theorem filterMap_paramHeaders (name : String) (entry : ParamEntry)
    (hvisible : ∀ value ∈ entry.2, value.toList.all isVisible = true) :
    (paramHeaders entry).filterMap (valueOf name) =
      if lowerKey entry.1 = name then entry.2 else [] := by
  rw [paramHeaders, List.filterMap_map]
  by_cases hkey : lowerKey entry.1 = name
  · rw [if_pos hkey]
    have hread : ∀ value ∈ entry.2,
        (valueOf name ∘ fun value => (lowerKey entry.1, utf8 value)) value = some value := by
      intro value hvalue
      rw [Function.comp_apply, valueOf, if_pos hkey, headerToStr_visible (hvisible value hvalue)]
    rw [List.filterMap_congr hread]
    exact List.filterMap_some
  · rw [if_neg hkey]
    apply List.filterMap_eq_nil_iff.mpr
    intro value _
    exact if_neg hkey

theorem filterMap_flatMap_paramHeaders (name : String) (entries : List ParamEntry)
    (hvisible : ∀ entry ∈ entries, ∀ value ∈ entry.2, value.toList.all isVisible = true) :
    (entries.flatMap paramHeaders).filterMap (valueOf name) = valuesAt name entries := by
  rw [List.filterMap_flatMap, valuesAt]
  apply List.flatMap_congr
  intro entry hentry
  exact filterMap_paramHeaders name entry (hvisible entry hentry)

/-- Headers a layer keeps for itself have no value under another name. -/
theorem filterMap_own {own : HeaderMap} {reserved : List String} {name : String}
    (hown : ∀ header ∈ own, header.1 ∈ reserved) (hname : name ∉ reserved) :
    own.filterMap (valueOf name) = [] := by
  apply List.filterMap_eq_nil_iff.mpr
  intro header hheader
  apply if_neg
  intro heq
  rw [← heq] at hname
  exact hname (hown header hheader)

/-! ## what each binding delivers -/

/-- The parameters as they are walked. -/
theorem mem_entries {params : ServiceParams} {order : AList fun _ : String => List String}
    (horder : order.toFinmap = params) (entry : ParamEntry) :
    entry ∈ order.entries ↔ params.lookup entry.1 = some entry.2 := by
  rw [← horder, Finmap.lookup_toFinmap]
  exact AList.mem_lookup_iff.symm

/-- What a parameter arrives as where every value is a header. -/
def asHeaders (name : String) (entries : List ParamEntry) : Option (List String) :=
  match valuesAt name entries with
  | [] => none
  | values => some values

/-- What it arrives as where they are joined. -/
def asJoined (params : ServiceParams) (name : String) : Option (List String) :=
  (params.lookup name).map fun values => [", ".intercalate values]

section delivered

variable {layers : Layers} (client : ClientParams layers)
  {order : AList fun _ : String => List String} (horder : order.toFinmap = client.params)

include horder

theorem mem_of_entry {entry : ParamEntry} (h : entry ∈ order.entries) : entry.1 ∈ client.params :=
  Finmap.mem_of_lookup_eq_some ((mem_entries horder entry).mp h)

theorem visible_entries : ∀ entry ∈ order.entries, ∀ value ∈ entry.2,
    value.toList.all isVisible = true :=
  fun entry hentry => client.visible entry.1 entry.2 ((mem_entries horder entry).mp hentry)

theorem received_http : ∃ got, received layers .http order.entries = some got ∧
    ∀ name, name ∉ layers.reserved → got.lookup name = asHeaders name order.entries := by
  have hvisible := visible_entries client horder
  have hvalid : (order.entries.all fun entry => entry.2.all fun value =>
      isHeaderName entry.1 && isHeaderValue value) = true := by
    rw [List.all_eq_true]
    intro entry hentry
    rw [List.all_eq_true]
    intro value hvalue
    rw [client.header_names entry.1 (mem_of_entry client horder hentry),
      isHeaderValue_visible (hvisible entry hentry value hvalue)]
    rfl
  refine ⟨extractServiceParams (layers.http ++ order.entries.flatMap paramHeaders), ?_, ?_⟩
  · rw [received, httpHeaders, if_pos hvalid]
    rfl
  · intro name hname
    rw [lookup_extractServiceParams, List.filterMap_append,
      filterMap_own layers.http_reserved hname, List.nil_append,
      filterMap_flatMap_paramHeaders name _ hvisible]
    rfl

theorem received_grpc : ∃ got, received layers .grpc order.entries = some got ∧
    ∀ name, name ∉ layers.reserved → got.lookup name = asHeaders name order.entries := by
  have hvisible := visible_entries client horder
  have hkept : order.entries.filter (fun entry =>
      isHeaderName entry.1 && !endsWith "-bin" (lowerKey entry.1)) = order.entries := by
    apply List.filter_eq_self.mpr
    intro entry hentry
    have hmem := mem_of_entry client horder hentry
    rw [client.header_names entry.1 hmem, client.not_binary entry.1 hmem]
    rfl
  have hheaders : order.entries.flatMap
      (fun entry => paramHeaders ⟨entry.1, entry.2.filter isHeaderValue⟩) =
        order.entries.flatMap paramHeaders := by
    apply List.flatMap_congr
    intro entry hentry
    have hvalues : entry.2.filter isHeaderValue = entry.2 :=
      List.filter_eq_self.mpr fun value hvalue =>
        isHeaderValue_visible (hvisible entry hentry value hvalue)
    rw [hvalues]
  have htext : (order.entries.flatMap paramHeaders).filter (fun entry => !endsWith "-bin" entry.1) =
      order.entries.flatMap paramHeaders := by
    apply List.filter_eq_self.mpr
    intro header hheader
    obtain ⟨entry, hentry, hin⟩ := List.mem_flatMap.mp hheader
    obtain ⟨value, _, heq⟩ := List.mem_map.mp hin
    rw [← heq, client.not_binary entry.1 (mem_of_entry client horder hentry)]
    rfl
  refine ⟨_, rfl, ?_⟩
  intro name hname
  have hown : ∀ header ∈ layers.grpc.filter (fun entry => !endsWith "-bin" entry.1),
      header.1 ∈ layers.reserved :=
    fun header hheader => layers.grpc_reserved header (List.mem_of_mem_filter hheader)
  rw [extractMetadataParams, grpcMetadata, hkept, hheaders, List.filter_append, htext,
    lookup_extractServiceParams, List.filterMap_append, filterMap_own hown hname, List.nil_append,
    filterMap_flatMap_paramHeaders name _ hvisible]
  rfl

end delivered

/-! ## SLIMRPC's metadata as parameters -/

/-- The caller's identity is under other names. -/
theorem lookup_foldl_insertIdentity (entries : List (String × Option String)) (params : ServiceParams)
    {name : String} (h : ∀ entry ∈ entries, entry.1 ≠ name) :
    (entries.foldl insertIdentity params).lookup name = params.lookup name := by
  induction entries generalizing params with
  | nil => rfl
  | cons entry rest ih =>
      rw [List.foldl_cons, ih _ fun entry hentry => h entry (List.mem_cons_of_mem _ hentry)]
      unfold insertIdentity
      split
      · exact Finmap.lookup_insert_of_ne _ (Ne.symm (h entry List.mem_cons_self))
      · rfl

/-- A name no entry has is not inserted. -/
theorem lookup_foldl_insert_of_not_mem (entries : SlimMetadata) (params : ServiceParams)
    {name : String} (h : ∀ entry ∈ entries, entry.1 ≠ name) :
    (entries.foldl (fun params entry => params.insert entry.1 [entry.2]) params).lookup name =
      params.lookup name := by
  induction entries generalizing params with
  | nil => rfl
  | cons entry rest ih =>
      rw [List.foldl_cons, ih _ fun entry hentry => h entry (List.mem_cons_of_mem _ hentry)]
      exact Finmap.lookup_insert_of_ne _ (Ne.symm (h entry List.mem_cons_self))

/-- A name that one entry has is inserted with its text. -/
theorem lookup_foldl_insert_of_mem (entries : SlimMetadata) (params : ServiceParams)
    {name text : String} (hmem : (name, text) ∈ entries)
    (hone : ∀ text', (name, text') ∈ entries → text' = text) :
    (entries.foldl (fun params entry => params.insert entry.1 [entry.2]) params).lookup name =
      some [text] := by
  induction entries generalizing params with
  | nil => exact absurd hmem List.not_mem_nil
  | cons entry rest ih =>
      rw [List.foldl_cons]
      by_cases hrest : (name, text) ∈ rest
      · exact ih _ hrest fun text' htext' => hone text' (List.mem_cons_of_mem _ htext')
      · have hentry : (name, text) = entry := by
          rcases List.mem_cons.mp hmem with h | h
          · exact h
          · exact absurd h hrest
        have hother : ∀ entry' ∈ rest, entry'.1 ≠ name := by
          intro entry' hentry' heq
          have hsame := hone entry'.2 (List.mem_cons_of_mem _ (by rwa [← heq]))
          rw [← heq, ← hsame] at hrest
          exact hrest hentry'
        rw [lookup_foldl_insert_of_not_mem rest _ hother, ← hentry, Finmap.lookup_insert]

section delivered

variable {layers : Layers} (client : ClientParams layers)
  {order : AList fun _ : String => List String} (horder : order.toFinmap = client.params)

include horder

/-- What is left of the metadata is the client's. -/
theorem filter_slimMetadata :
    (slimMetadata layers.slim order.entries).filter (fun entry =>
        !isInternalMetadataKey layers.keys entry.1 && !isReservedIdentityKey entry.1) =
      order.entries.map fun entry => (entry.1, ", ".intercalate entry.2) := by
  have hown : layers.slim.filter (fun entry =>
      !isInternalMetadataKey layers.keys entry.1 && !isReservedIdentityKey entry.1) = [] := by
    apply List.filter_eq_nil_iff.mpr
    intro entry hentry
    rw [layers.slim_internal entry hentry]
    exact Bool.false_ne_true
  rw [slimMetadata, List.filter_append, hown, List.nil_append]
  apply List.filter_eq_self.mpr
  intro pair hpair
  obtain ⟨entry, hentry, heq⟩ := List.mem_map.mp hpair
  have hmem := mem_of_entry client horder hentry
  rw [← heq, client.not_internal entry.1 hmem, (client.not_reserved entry.1 hmem).2]
  rfl

theorem received_slim : ∃ got, received layers .slimrpc order.entries = some got ∧
    ∀ name, name ∉ reservedIdentityKeys → got.lookup name = asJoined client.params name := by
  refine ⟨_, rfl, ?_⟩
  intro name hname
  have hidentity : ∀ entry ∈ [(slimSrcMetadataKey, layers.identity.slimSrc),
      (slimPeerSubjectMetadataKey, layers.identity.peerSubject),
      (slimPeerIssuerMetadataKey, layers.identity.peerIssuer)], entry.1 ≠ name := by
    intro entry hentry heq
    apply hname
    rw [← heq]
    simp only [List.mem_cons, List.not_mem_nil, or_false] at hentry
    rcases hentry with h | h | h
    all_goals rw [h]
    all_goals simp [reservedIdentityKeys]
  rw [toServiceParams, lookup_foldl_insertIdentity _ _ hidentity, filter_slimMetadata client horder,
    asJoined]
  cases hlookup : client.params.lookup name with
  | none =>
      rw [lookup_foldl_insert_of_not_mem, Finmap.lookup_empty]
      · rfl
      · intro pair hpair heq
        obtain ⟨entry, hentry, hpair⟩ := List.mem_map.mp hpair
        have hmem := (mem_entries horder entry).mp hentry
        rw [← hpair] at heq
        have hkey : entry.1 = name := heq
        rw [hkey, hlookup] at hmem
        cases hmem
  | some values =>
      have hin : (name, ", ".intercalate values) ∈
          order.entries.map fun entry => (entry.1, ", ".intercalate entry.2) :=
        List.mem_map.mpr ⟨⟨name, values⟩, (mem_entries horder ⟨name, values⟩).mpr hlookup, rfl⟩
      have hone : ∀ text, (name, text) ∈
          (order.entries.map fun entry => (entry.1, ", ".intercalate entry.2)) →
            text = ", ".intercalate values := by
        intro text htext
        obtain ⟨entry, hentry, heq⟩ := List.mem_map.mp htext
        have hmem := (mem_entries horder entry).mp hentry
        rw [Prod.mk.injEq] at heq
        rw [heq.1, hlookup] at hmem
        rw [← heq.2, Option.some.inj hmem]
      exact lookup_foldl_insert_of_mem _ _ hin hone

end delivered

/-! ## the values under a name -/

theorem valuesAt_append (name : String) (before after : List ParamEntry) :
    valuesAt name (before ++ after) = valuesAt name before ++ valuesAt name after :=
  List.flatMap_append

theorem valuesAt_cons {name : String} {entry : ParamEntry} (h : lowerKey entry.1 = name)
    (rest : List ParamEntry) : valuesAt name (entry :: rest) = entry.2 ++ valuesAt name rest := by
  rw [valuesAt, List.flatMap_cons, if_pos h]
  rfl

/-- Where no parameter of a name has values, there are none. -/
theorem valuesAt_eq_nil {name : String} {entries : List ParamEntry}
    (h : ∀ entry ∈ entries, lowerKey entry.1 = name → entry.2 = []) :
    valuesAt name entries = [] := by
  apply List.flatMap_eq_nil_iff.mpr
  intro entry hentry
  by_cases hkey : lowerKey entry.1 = name
  · rw [if_pos hkey]
    exact h entry hentry hkey
  · exact if_neg hkey

/-- Where one parameter of a name has values, they are its. -/
theorem valuesAt_eq {name : String} {entries : List ParamEntry} {entry : ParamEntry}
    (hnodup : entries.Nodup) (hmem : entry ∈ entries) (hkey : lowerKey entry.1 = name)
    (hothers : ∀ other ∈ entries, other ≠ entry → lowerKey other.1 = name → other.2 = []) :
    valuesAt name entries = entry.2 := by
  obtain ⟨before, after, heq⟩ := List.append_of_mem hmem
  rw [heq] at hnodup hothers
  have hsplit := List.nodup_append.mp hnodup
  have hbefore : valuesAt name before = [] := by
    apply valuesAt_eq_nil
    intro other hother
    apply hothers other (List.mem_append_left _ hother)
    exact hsplit.2.2 other hother entry List.mem_cons_self
  have hafter : valuesAt name after = [] := by
    apply valuesAt_eq_nil
    intro other hother
    apply hothers other (List.mem_append_right _ (List.mem_cons_of_mem _ hother))
    intro hsame
    rw [hsame] at hother
    exact (List.nodup_cons.mp hsplit.2.1).1 hother
  rw [heq, valuesAt_append, hbefore, List.nil_append, valuesAt_cons hkey, hafter, List.append_nil]

/-- A parameter has its values under its name. -/
theorem le_length_valuesAt {name : String} {entries : List ParamEntry} {entry : ParamEntry}
    (hmem : entry ∈ entries) (hkey : lowerKey entry.1 = name) :
    entry.2.length ≤ (valuesAt name entries).length := by
  obtain ⟨before, after, heq⟩ := List.append_of_mem hmem
  rw [heq, valuesAt_append, valuesAt_cons hkey, List.length_append, List.length_append]
  omega

/-- Two parameters of a name have their values there. -/
theorem length_valuesAt {name : String} {entries : List ParamEntry} {first second : ParamEntry}
    (hfirst : first ∈ entries) (hsecond : second ∈ entries) (hne : first ≠ second)
    (hkey : lowerKey first.1 = name) (hkey' : lowerKey second.1 = name) :
    first.2.length + second.2.length ≤ (valuesAt name entries).length := by
  obtain ⟨before, after, heq⟩ := List.append_of_mem hfirst
  rw [heq, valuesAt_append, valuesAt_cons hkey, List.length_append, List.length_append]
  rw [heq] at hsecond
  have hrest : second ∈ before ++ after := by
    rcases List.mem_append.mp hsecond with h | h
    · exact List.mem_append_left _ h
    · rcases List.mem_cons.mp h with h | h
      · exact absurd h.symm hne
      · exact List.mem_append_right _ h
  have hlength := le_length_valuesAt hrest hkey'
  rw [valuesAt_append, List.length_append] at hlength
  omega

end A2a
