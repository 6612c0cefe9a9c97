import A2a.Errors

/-!
# A2a.Errors.Transported

An error looks the same over every transport (`errors_transported`): its
code always arrives, its message over JSON-RPC and REST as over gRPC when
no two of its details list violations, and its details but for the
`ErrorInfo` that carries the code.
-/

namespace A2a

/-! ## the detail that carries the code -/

/-- The detail is the protocol's `ErrorInfo` for a code. -/
structure TypedDetail.Names (detail : TypedDetail) (code : Int) : Prop where
  typeUrl : detail.typeUrl = errorInfoType
  reason : detail.value.lookup "reason" = some (.string (errorReason code))
  domain : detail.value.lookup "domain" = some (.string protocolDomain)
  untyped : detail.value.lookup "@type" = none

theorem TypedDetail.names_errorInfo (code : Int) (metadata : Option (Finmap fun _ : String => String)) :
    (errorInfo (errorReason code) protocolDomain metadata).Names code := by
  cases metadata with
  | none =>
      exact
        { typeUrl := rfl
          reason := by
            rw [errorInfo, Finmap.lookup_insert_of_ne _ (by decide), Finmap.lookup_insert]
          domain := Finmap.lookup_insert _
          untyped := by
            rw [errorInfo, Finmap.lookup_insert_of_ne _ (by decide),
              Finmap.lookup_insert_of_ne _ (by decide), Finmap.lookup_empty] }
  | some metadata =>
      exact
        { typeUrl := rfl
          reason := by
            rw [errorInfo, Finmap.lookup_insert_of_ne _ (by decide),
              Finmap.lookup_insert_of_ne _ (by decide), Finmap.lookup_insert]
          domain := by
            rw [errorInfo, Finmap.lookup_insert_of_ne _ (by decide), Finmap.lookup_insert]
          untyped := by
            rw [errorInfo, Finmap.lookup_insert_of_ne _ (by decide),
              Finmap.lookup_insert_of_ne _ (by decide), Finmap.lookup_insert_of_ne _ (by decide),
              Finmap.lookup_empty] }

/-- Metadata of other details does not change what it names. -/
theorem TypedDetail.Names.addMetadata {info : TypedDetail} {code : Int} (h : info.Names code)
    (existing : TypedDetail) : (info.addMetadata existing).Names code := by
  rw [TypedDetail.addMetadata]
  split
  · exact
      { typeUrl := h.typeUrl
        reason := by rw [Finmap.lookup_insert_of_ne _ (by decide), h.reason]
        domain := by rw [Finmap.lookup_insert_of_ne _ (by decide), h.domain]
        untyped := by rw [Finmap.lookup_insert_of_ne _ (by decide), h.untyped] }
  · exact h

theorem A2AError.names_jsonrpcInfo (error : A2AError) (timestamp : String) :
    (error.jsonrpcInfo timestamp).Names error.code := by
  rw [A2AError.jsonrpcInfo]
  have hstart := TypedDetail.names_errorInfo error.code (some (Finmap.singleton "timestamp" timestamp))
  generalize TypedDetail.errorInfo _ _ _ = info at hstart
  induction ofType errorInfoType (error.details.getD []) generalizing info with
  | nil => exact hstart
  | cons existing details ih => exact ih _ (hstart.addMetadata existing)

variable {details : List TypedDetail} {info : TypedDetail} {code : Int}

/-- The reason of the only `ErrorInfo` selects the code. -/
theorem protocolErrorCode_of_names (hinfo : info.Names code) (hcode : code ∈ ErrorCode.table)
    (h : ∃ before, ofType errorInfoType details = before ++ [info]) :
    protocolErrorCode details = some code := by
  obtain ⟨before, hbefore⟩ := h
  have hdomain : (info.value.lookup "domain").bind Value.asStr = some protocolDomain := by
    rw [hinfo.domain]
    rfl
  have hreason : ((info.value.lookup "reason").bind Value.asStr).bind reasonToErrorCode =
      some code := by
    rw [hinfo.reason]
    exact reasonToErrorCode_errorReason code hcode
  have hread : ∀ read : TypedDetail → Option Int, read info = some code →
      [info].filterMap read = [code] := fun read h => by
    rw [List.filterMap_cons_some h, List.filterMap_nil]
  rw [protocolErrorCode, hbefore, List.filter_append, List.filter_cons_of_pos (by simp [hdomain]),
    List.filter_nil, List.filterMap_append, hread _ hreason, List.getLast?_append,
    List.getLast?_singleton, Option.some_or]

/-! ## JSON-RPC and REST -/

/-- What both readers are handed: the details kept, as they arrive, and the
one that carries the code. -/
theorem a2aErrorFromDetails_kept (error : A2AError) (hinfo : info.Names error.code)
    (hcode : error.code ∈ ErrorCode.table) (code : Int) :
    a2aErrorFromDetails code error.message (error.kept.map TypedDetail.arrived ++ [info]) =
      ⟨error.code, (ofType badRequestType (error.kept.map TypedDetail.arrived)).foldl
        appendViolations error.message, some (error.kept.map TypedDetail.arrived ++ [info])⟩ := by
  have hlast : ofType errorInfoType (error.kept.map TypedDetail.arrived ++ [info]) =
      ofType errorInfoType (error.kept.map TypedDetail.arrived) ++ [info] := by
    rw [ofType, List.filter_append, List.filter_cons_of_pos (by simp [hinfo.typeUrl]),
      List.filter_nil]
    rfl
  have hbad : ofType badRequestType (error.kept.map TypedDetail.arrived ++ [info]) =
      ofType badRequestType (error.kept.map TypedDetail.arrived) := by
    have hne : ¬errorInfoType = badRequestType := by decide
    rw [ofType, List.filter_append, List.filter_cons_of_neg (by simp [hinfo.typeUrl, hne]),
      List.filter_nil, List.append_nil]
    rfl
  rw [a2aErrorFromDetails, protocolErrorCode_of_names hinfo hcode ⟨_, hlast⟩, hbad,
    Option.getD_some, if_neg (by simp)]

/-- The details a JSON-RPC client reads. -/
theorem parse_toJsonrpcError_eq (error : A2AError) (timestamp : String) :
    parseJsonrpcError (error.toJsonrpcError timestamp) =
      a2aErrorFromDetails error.code error.message
        (error.kept.map TypedDetail.arrived ++ [error.jsonrpcInfo timestamp]) := by
  have hread : (error.kept.map TypedDetail.toValue ++
      [(error.jsonrpcInfo timestamp).toValue]).filterMap TypedDetail.fromValue =
        error.kept.map TypedDetail.arrived ++ [error.jsonrpcInfo timestamp] := by
    rw [List.filterMap_append, List.filterMap_map,
      List.filterMap_cons_some (TypedDetail.fromValue_toValue _), List.filterMap_nil,
      TypedDetail.arrived_eq (error.names_jsonrpcInfo timestamp).untyped]
    congr 1
    rw [← List.filterMap_eq_map]
    exact List.filterMap_congr fun detail _ => detail.fromValue_toValue
  simp only [parseJsonrpcError, A2AError.toJsonrpcError, hread]

theorem parse_toJsonrpcError (error : A2AError) (timestamp : String)
    (hcode : error.code ∈ ErrorCode.table) :
    parseJsonrpcError (error.toJsonrpcError timestamp) =
      ⟨error.code, (ofType badRequestType (error.kept.map TypedDetail.arrived)).foldl
        appendViolations error.message,
        some (error.kept.map TypedDetail.arrived ++ [error.jsonrpcInfo timestamp])⟩ := by
  rw [parse_toJsonrpcError_eq,
    a2aErrorFromDetails_kept error (error.names_jsonrpcInfo timestamp) hcode error.code]

theorem mapM_fromValue (details : List TypedDetail) :
    (details.map TypedDetail.toValue).mapM TypedDetail.fromValue =
      some (details.map TypedDetail.arrived) := by
  induction details with
  | nil => rfl
  | cons detail details ih =>
      rw [List.map_cons, List.mapM_cons, ih, TypedDetail.fromValue_toValue]
      rfl

theorem restError_toValue {s : RestErrorStatus}
    (h : (s.details.map TypedDetail.toValue).mapM TypedDetail.fromValue = some details) :
    restError s.toValue = some (a2aErrorFromDetails ErrorCode.internalError s.message details) := by
  have herror : s.toValue.get "error" = some (.object [("code", .number (.int s.code)),
      ("details", .array (s.details.map TypedDetail.toValue)), ("message", .string s.message),
      ("status", .string s.status)]) := rfl
  have hdetails : Value.get (.object [("code", .number (.int s.code)),
      ("details", .array (s.details.map TypedDetail.toValue)), ("message", .string s.message),
      ("status", .string s.status)]) "details" =
        some (.array (s.details.map TypedDetail.toValue)) := rfl
  have hmessage : (Value.get (.object [("code", .number (.int s.code)),
      ("details", .array (s.details.map TypedDetail.toValue)), ("message", .string s.message),
      ("status", .string s.status)]) "message").bind Value.asStr = some s.message := rfl
  simp only [restError, herror, hdetails, hmessage, readDetails, h]

/-- The details a REST client reads. -/
theorem restError_envelope_eq (error : A2AError) (timestamp : String) :
    restError (restErrorEnvelope timestamp error).toValue =
      some (a2aErrorFromDetails ErrorCode.internalError error.message
        (error.kept.map TypedDetail.arrived ++ [.errorInfo (errorReason error.code)
          protocolDomain (some (error.restMetadata timestamp))])) := by
  have hinfo := TypedDetail.names_errorInfo error.code (some (error.restMetadata timestamp))
  have hread := mapM_fromValue (restErrorEnvelope timestamp error).details
  rw [restErrorEnvelope, List.map_append (f := TypedDetail.arrived), List.map_singleton,
    TypedDetail.arrived_eq hinfo.untyped] at hread
  exact restError_toValue (s := restErrorEnvelope timestamp error) hread

theorem restError_envelope (error : A2AError) (timestamp : String)
    (hcode : error.code ∈ ErrorCode.table) :
    restError (restErrorEnvelope timestamp error).toValue =
      some ⟨error.code, (ofType badRequestType (error.kept.map TypedDetail.arrived)).foldl
        appendViolations error.message,
        some (error.kept.map TypedDetail.arrived ++ [.errorInfo (errorReason error.code)
          protocolDomain (some (error.restMetadata timestamp))])⟩ := by
  have hinfo := TypedDetail.names_errorInfo error.code (some (error.restMetadata timestamp))
  rw [restError_envelope_eq]
  exact congrArg some (a2aErrorFromDetails_kept error hinfo hcode _)

/-! ## gRPC -/

theorem appendViolations_eq {detail detail' : TypedDetail} (message : String)
    (h : detail.violations = detail'.violations) :
    appendViolations message detail = appendViolations message detail' := by
  rw [appendViolations, appendViolations, h]

/-- Where no two details list violations, they are reported as if one
detail listed them all. -/
theorem foldl_appendViolations (message : String) {details : List TypedDetail}
    (h : (details.filter fun detail => !detail.violations.isEmpty).length ≤ 1) :
    details.foldl appendViolations message =
      appendViolations message (.badRequest (details.flatMap TypedDetail.violations)) := by
  induction details generalizing message with
  | nil =>
      rw [appendViolations, TypedDetail.violations_badRequest]
      rfl
  | cons detail details ih =>
      cases hv : detail.violations with
      | nil =>
          have hsame : appendViolations message detail = message := by
            rw [appendViolations, hv]
            rfl
          rw [List.filter_cons_of_neg (by simp [hv])] at h
          rw [List.foldl_cons, hsame, ih message h, List.flatMap_cons, hv, List.nil_append]
      | cons v vs =>
          rw [List.filter_cons_of_pos (by simp [hv]), List.length_cons] at h
          have hnone : ∀ other ∈ details, other.violations = [] := by
            have hnil : details.filter (fun detail => !detail.violations.isEmpty) = [] :=
              List.eq_nil_of_length_eq_zero (by omega)
            intro other hother
            have hempty := List.filter_eq_nil_iff.mp hnil other hother
            simpa using hempty
          have hflat : details.flatMap TypedDetail.violations = [] :=
            List.flatMap_eq_nil_iff.mpr hnone
          have hrest := ih (appendViolations message detail) (by omega)
          rw [List.foldl_cons, hrest, List.flatMap_cons, hflat, List.append_nil]
          rw [appendViolations, TypedDetail.violations_badRequest]
          exact appendViolations_eq message (TypedDetail.violations_badRequest _).symm

/-- The `ErrorInfo` a gRPC client is handed. -/
def A2AError.grpcInfo (error : A2AError) : TypedDetail :=
  .errorInfo (errorReason error.code) protocolDomain
    (if error.grpcMetadata.entries.card = 0 then none else some error.grpcMetadata)

/-- The details a gRPC client is handed, in some order. -/
theorem typedDetails_perm (tonic : Tonic) (error : A2AError) :
    (typedDetails (a2aErrorToStatus tonic error)).Perm
      (error.grpcInfo :: if error.fieldViolations.isEmpty then []
        else [.badRequest error.fieldViolations]) := by
  refine ((tonic.pack_perm _).filterMap AnyDetail.typed).trans (List.Perm.of_eq ?_)
  cases error.fieldViolations.isEmpty <;> rfl

theorem statusToA2aError_code (tonic : Tonic) (error : A2AError)
    (hcode : error.code ∈ ErrorCode.table) :
    statusToA2aError (a2aErrorToStatus tonic error) =
      a2aErrorFromDetails error.code error.message (typedDetails (a2aErrorToStatus tonic error)) ∧
    protocolErrorCode (typedDetails (a2aErrorToStatus tonic error)) = some error.code := by
  have hinfo : error.grpcInfo.Names error.code := TypedDetail.names_errorInfo error.code _
  have hperm := typedDetails_perm tonic error
  have honly : (ofType errorInfoType (typedDetails (a2aErrorToStatus tonic error))).Perm
      [error.grpcInfo] := by
    have hfilter := hperm.filter fun detail => detail.typeUrl = errorInfoType
    refine hfilter.trans (List.Perm.of_eq ?_)
    have hne : ¬badRequestType = errorInfoType := by decide
    rw [List.filter_cons_of_pos (by simp [hinfo.typeUrl])]
    cases error.fieldViolations.isEmpty with
    | true => rfl
    | false => simp [TypedDetail.badRequest, hne]
  have hprotocol : protocolErrorCode (typedDetails (a2aErrorToStatus tonic error)) =
      some error.code :=
    protocolErrorCode_of_names hinfo hcode ⟨[], List.perm_singleton.mp honly⟩
  refine ⟨?_, hprotocol⟩
  simp only [statusToA2aError, hprotocol, Option.some_or]
  rfl

theorem statusToA2aError_message (tonic : Tonic) (error : A2AError)
    (hcode : error.code ∈ ErrorCode.table) :
    (statusToA2aError (a2aErrorToStatus tonic error)).message =
      appendViolations error.message (.badRequest error.fieldViolations) := by
  have hinfo : error.grpcInfo.Names error.code := TypedDetail.names_errorInfo error.code _
  have hperm := typedDetails_perm tonic error
  have hne : ¬errorInfoType = badRequestType := by decide
  have hfilter := hperm.filter fun detail => detail.typeUrl = badRequestType
  rw [List.filter_cons_of_neg (by simp [hinfo.typeUrl, hne])] at hfilter
  rw [(statusToA2aError_code tonic error hcode).1, a2aErrorFromDetails, ofType]
  show List.foldl _ _ _ = _
  cases hv : error.fieldViolations.isEmpty with
  | true =>
      rw [hv, if_pos rfl, List.filter_nil] at hfilter
      rw [hfilter.eq_nil, List.foldl_nil, appendViolations, TypedDetail.violations_badRequest,
        List.isEmpty_iff.mp hv]
      rfl
  | false =>
      rw [hv] at hfilter
      have hone : List.filter (fun detail => decide (detail.typeUrl = badRequestType))
          (typedDetails (a2aErrorToStatus tonic error)) =
            [TypedDetail.badRequest error.fieldViolations] :=
        List.perm_singleton.mp (by simpa [TypedDetail.badRequest] using hfilter)
      rw [hone]
      rfl

theorem statusToA2aError_violations (tonic : Tonic) (error : A2AError)
    (hcode : error.code ∈ ErrorCode.table) (hviolations : error.fieldViolations ≠ []) :
    .badRequest error.fieldViolations ∈
      (statusToA2aError (a2aErrorToStatus tonic error)).details.getD [] := by
  have hmem : TypedDetail.badRequest error.fieldViolations ∈
      typedDetails (a2aErrorToStatus tonic error) := by
    rw [(typedDetails_perm tonic error).mem_iff, if_neg (by simpa using hviolations)]
    exact List.mem_cons_of_mem _ List.mem_cons_self
  have hsome : ¬(typedDetails (a2aErrorToStatus tonic error)).isEmpty = true := by
    rw [List.isEmpty_iff]
    exact List.ne_nil_of_mem hmem
  rw [(statusToA2aError_code tonic error hcode).1, a2aErrorFromDetails]
  show _ ∈ Option.getD (if _ then _ else _) _
  rw [if_neg hsome]
  exact hmem

/-! ## every transport -/

/-- No entry of the error's details passes for a type. -/
def A2AError.Untyped (error : A2AError) : Prop :=
  ∀ detail ∈ error.details.getD [], detail.value.lookup "@type" = none

/-- At most one of the error's details lists violations. -/
def A2AError.OneBadRequest (error : A2AError) : Prop :=
  ((ofType badRequestType (error.details.getD [])).filter
    fun detail => !detail.violations.isEmpty).length ≤ 1

theorem A2AError.kept_arrived {error : A2AError} (h : error.Untyped) :
    error.kept.map TypedDetail.arrived = error.kept := by
  have hsame : ∀ detail ∈ error.kept, detail.arrived = detail := fun detail hd =>
    TypedDetail.arrived_eq (h detail (List.mem_filter.mp hd).1)
  exact (List.map_congr_left hsame).trans (List.map_id _)

theorem A2AError.ofType_kept (error : A2AError) :
    ofType badRequestType error.kept = ofType badRequestType (error.details.getD []) := by
  rw [ofType, A2AError.kept, List.filter_filter, ofType]
  refine List.filter_congr fun detail _ => ?_
  have hne : ¬badRequestType = errorInfoType := by decide
  by_cases htype : detail.typeUrl = badRequestType
  · simp [htype, hne]
  · simp [htype]

/-- **An error looks the same over every transport.**  Its code always
arrives.  Its message is the same over JSON-RPC and REST, and over gRPC too
if no two of its details list violations.  Its details arrive over JSON-RPC
and REST in their order, the `ErrorInfo` ones replaced by one that names
the code, and over gRPC the violations they list do. -/
theorem errors_transported (tonic : Tonic) (error : A2AError) (timestamp timestamp' : String)
    (hcode : error.code ∈ ErrorCode.table) :
    ∃ overJsonrpc overRest overGrpc,
      parseJsonrpcError (error.toJsonrpcError timestamp) = overJsonrpc ∧
      restError (restErrorEnvelope timestamp' error).toValue = some overRest ∧
      statusToA2aError (a2aErrorToStatus tonic error) = overGrpc ∧
      (overJsonrpc.code = error.code ∧ overRest.code = error.code ∧ overGrpc.code = error.code) ∧
      overRest.message = overJsonrpc.message ∧
      (error.Untyped → error.OneBadRequest → overGrpc.message = overJsonrpc.message) ∧
      (∃ info info' : TypedDetail, info.Names error.code ∧ info'.Names error.code ∧
        overJsonrpc.details = some (error.kept.map TypedDetail.arrived ++ [info]) ∧
        overRest.details = some (error.kept.map TypedDetail.arrived ++ [info'])) ∧
      (∀ detail : TypedDetail, detail.value.lookup "@type" = none → detail.arrived = detail) ∧
      (error.fieldViolations ≠ [] →
        .badRequest error.fieldViolations ∈ overGrpc.details.getD []) := by
  have hgrpc := statusToA2aError_code tonic error hcode
  refine ⟨_, _, _, parse_toJsonrpcError error timestamp hcode,
    restError_envelope error timestamp' hcode, rfl, ⟨rfl, rfl, ?_⟩, rfl, ?_,
    ⟨_, _, error.names_jsonrpcInfo timestamp, TypedDetail.names_errorInfo error.code _, rfl, rfl⟩,
    fun _ => TypedDetail.arrived_eq, statusToA2aError_violations tonic error hcode⟩
  · rw [hgrpc.1, a2aErrorFromDetails, hgrpc.2]
    rfl
  · intro huntyped hone
    rw [statusToA2aError_message tonic error hcode, A2AError.kept_arrived huntyped,
      A2AError.ofType_kept]
    exact (foldl_appendViolations error.message hone).symm

/-- An error with a hint, a quota exceeded elsewhere and two bad fields. -/
def quotaError : A2AError where
  code := ErrorCode.invalidParams
  message := "refused"
  details := some [.fromStruct ((∅ : Metadata).insert "hint" (.string "wait")),
    .errorInfo "QUOTA" "example.com" none, .badRequest [⟨"a", "empty"⟩], .badRequest [⟨"b", "empty"⟩]]

/-- It arrives with its code. -/
theorem errors_transported_quota :
    ErrorCode.invalidParams ∈ ErrorCode.table ∧
      (parseJsonrpcError (quotaError.toJsonrpcError "now")).code = ErrorCode.invalidParams := by
  obtain ⟨_, _, _, hjsonrpc, _, _, hcodes, _⟩ :=
    errors_transported default quotaError "now" "now" (by decide)
  exact ⟨by decide, hjsonrpc ▸ hcodes.1⟩

theorem quotaError_kept : quotaError.kept.map TypedDetail.arrived =
    [.fromStruct ((∅ : Metadata).insert "hint" (.string "wait")), .badRequest [⟨"a", "empty"⟩],
      .badRequest [⟨"b", "empty"⟩]] := by
  have huntyped : quotaError.Untyped := by
    intro detail hd
    simp only [quotaError, Option.getD_some, List.mem_cons, List.not_mem_nil, or_false] at hd
    obtain rfl | rfl | rfl | rfl := hd <;> rfl
  rw [A2AError.kept_arrived huntyped]
  rfl

/-- The quota detail is lost over JSON-RPC, the hint over gRPC, and the two
messages differ. -/
theorem quotaError_differs :
    TypedDetail.errorInfo "QUOTA" "example.com" none ∉
        (parseJsonrpcError (quotaError.toJsonrpcError "now")).details.getD [] ∧
      TypedDetail.fromStruct ((∅ : Metadata).insert "hint" (.string "wait")) ∉
        (statusToA2aError (a2aErrorToStatus default quotaError)).details.getD [] ∧
      (parseJsonrpcError (quotaError.toJsonrpcError "now")).message =
        "refused: a: empty: b: empty" ∧
      (statusToA2aError (a2aErrorToStatus default quotaError)).message =
        "refused: a: empty; b: empty" := by
  have hcode : quotaError.code ∈ ErrorCode.table := by decide
  refine ⟨?_, ?_, ?_, ?_⟩
  · rw [parse_toJsonrpcError quotaError "now" hcode, quotaError_kept]
    intro h
    have hcases := List.mem_append.mp h
    simp only [List.mem_cons, List.not_mem_nil, or_false] at hcases
    obtain (heq | heq | heq) | heq := hcases
    · exact absurd (congrArg TypedDetail.typeUrl heq) (by decide)
    · exact absurd (congrArg TypedDetail.typeUrl heq) (by decide)
    · exact absurd (congrArg TypedDetail.typeUrl heq) (by decide)
    · have hdomain := (quotaError.names_jsonrpcInfo "now").domain
      rw [← heq, TypedDetail.errorInfo, Finmap.lookup_insert] at hdomain
      exact absurd (Value.string.inj (Option.some.inj hdomain)) (by decide)
  · intro h
    rw [(statusToA2aError_code default quotaError hcode).1] at h
    have hmem := (typedDetails_perm default quotaError).mem_iff.mp h
    rw [if_neg (by decide), List.mem_cons, List.mem_singleton] at hmem
    obtain heq | heq := hmem
    · exact absurd (congrArg TypedDetail.typeUrl heq) (by decide)
    · exact absurd (congrArg TypedDetail.typeUrl heq) (by decide)
  · rw [parse_toJsonrpcError quotaError "now" hcode, quotaError_kept]
    decide
  · rw [statusToA2aError_message default quotaError hcode]
    decide

end A2a
