import A2a.Errors.Transported

/-!
# A2a.Errors.RoundTrip

What a JSON-RPC client makes of any error at all (`to_jsonrpc_error`,
`parse_jsonrpc_error`).

The code is sent as a number and, in the `ErrorInfo`, as a reason.  The
reader takes the reason, and every code without a reason of its own is sent
with that of `INTERNAL_ERROR` (`ErrorCode.received`).
-/

namespace A2a

/-- The code an error is received with. -/
def ErrorCode.received (code : Int) : Int := if code ∈ table then code else internalError

theorem ErrorCode.received_mem (code : Int) : received code ∈ table := by
  unfold received
  split
  · assumption
  · decide

theorem ErrorCode.received_eq_iff (code : Int) : received code = code ↔ code ∈ table := by
  constructor
  · intro h
    rw [← h]
    exact received_mem code
  · intro h
    rw [received, if_pos h]

/-- A code is sent with the reason of the code it is received as. -/
theorem errorReason_received (code : Int) :
    errorReason (ErrorCode.received code) = errorReason code := by
  unfold ErrorCode.received
  by_cases hcode : code ∈ ErrorCode.table
  · rw [if_pos hcode]
  · rw [if_neg hcode]
    simp only [ErrorCode.table, List.mem_cons, List.not_mem_nil, or_false, not_or] at hcode
    simp only [errorReason, hcode, if_false]
    rfl

theorem TypedDetail.Names.received {info : TypedDetail} {code : Int} (h : info.Names code) :
    info.Names (ErrorCode.received code) where
  typeUrl := h.typeUrl
  reason := by rw [errorReason_received, h.reason]
  domain := h.domain
  untyped := h.untyped

/-- Any error over JSON-RPC. -/
theorem parse_toJsonrpcError_received (error : A2AError) (timestamp : String) :
    parseJsonrpcError (error.toJsonrpcError timestamp) =
      ⟨ErrorCode.received error.code,
        (ofType badRequestType (error.kept.map TypedDetail.arrived)).foldl appendViolations
          error.message,
        some (error.kept.map TypedDetail.arrived ++ [error.jsonrpcInfo timestamp])⟩ := by
  rw [parse_toJsonrpcError_eq]
  exact a2aErrorFromDetails_kept { error with code := ErrorCode.received error.code }
    (error.names_jsonrpcInfo timestamp).received (ErrorCode.received_mem error.code) error.code

/-! ## details -/

/-- No entry of the details that are kept passes for a type. -/
def A2AError.KeptUntyped (error : A2AError) : Prop :=
  ∀ detail ∈ error.kept, detail.value.lookup "@type" = none

theorem TypedDetail.lookup_arrived (detail : TypedDetail) :
    detail.arrived.value.lookup "@type" = none := Finmap.lookup_erase _ _

/-- Only a detail with an entry that passes for its type is changed. -/
theorem TypedDetail.arrived_eq_iff (detail : TypedDetail) :
    detail.arrived = detail ↔ detail.value.lookup "@type" = none := by
  constructor
  · intro h
    rw [← h]
    exact detail.lookup_arrived
  · exact TypedDetail.arrived_eq

/-- The details of an error but for the `ErrorInfo` ones. -/
def otherDetails (error : A2AError) : List TypedDetail :=
  (error.details.getD []).filter (·.typeUrl ≠ errorInfoType)

theorem otherDetails_eq_kept (error : A2AError) : otherDetails error = error.kept := rfl

theorem otherDetails_received (error : A2AError) (timestamp : String) :
    otherDetails (parseJsonrpcError (error.toJsonrpcError timestamp)) =
      (error.kept.map TypedDetail.arrived).filter (·.typeUrl ≠ errorInfoType) := by
  rw [parse_toJsonrpcError_received, otherDetails, Option.getD_some, List.filter_append,
    List.filter_cons_of_neg (by simp [(error.names_jsonrpcInfo timestamp).typeUrl]), List.filter_nil,
    List.append_nil]

/-- The details arrive exactly if none of their entries passes for a type. -/
theorem otherDetails_eq_iff (error : A2AError) (timestamp : String) :
    otherDetails (parseJsonrpcError (error.toJsonrpcError timestamp)) = otherDetails error ↔
      error.KeptUntyped := by
  rw [otherDetails_received, otherDetails_eq_kept]
  constructor
  · intro h
    -- as many details come out as go in, so none is filtered
    have hlength : ((error.kept.map TypedDetail.arrived).filter
        (·.typeUrl ≠ errorInfoType)).length = (error.kept.map TypedDetail.arrived).length := by
      rw [h, List.length_map]
    have hall := List.filter_sublist.eq_of_length hlength
    rw [hall] at h
    intro detail hd
    rw [← TypedDetail.arrived_eq_iff]
    exact List.map_inj_left.mp (h.trans (List.map_id _).symm) detail hd
  · intro h
    have hsame : error.kept.map TypedDetail.arrived = error.kept :=
      (List.map_congr_left fun detail hd => TypedDetail.arrived_eq (h detail hd)).trans (List.map_id _)
    rw [hsame, List.filter_eq_self]
    intro detail hd
    exact (List.mem_filter.mp hd).2

/-- **An error's round trip over JSON-RPC**, whatever its code and details. -/
theorem jsonrpc_roundTrip (error : A2AError) (timestamp : String) :
    (parseJsonrpcError (error.toJsonrpcError timestamp)).code = ErrorCode.received error.code ∧
    ((parseJsonrpcError (error.toJsonrpcError timestamp)).code = error.code ↔
      error.code ∈ ErrorCode.table) ∧
    (otherDetails (parseJsonrpcError (error.toJsonrpcError timestamp)) = otherDetails error ↔
      error.KeptUntyped) ∧
    (error.KeptUntyped → (parseJsonrpcError (error.toJsonrpcError timestamp)).message =
      (ofType badRequestType (error.details.getD [])).foldl appendViolations error.message) := by
  have hparse := parse_toJsonrpcError_received error timestamp
  refine ⟨by rw [hparse], by rw [hparse]; exact ErrorCode.received_eq_iff error.code,
    otherDetails_eq_iff error timestamp, fun h => ?_⟩
  have hsame : error.kept.map TypedDetail.arrived = error.kept :=
    (List.map_congr_left fun detail hd => TypedDetail.arrived_eq (h detail hd)).trans (List.map_id _)
  rw [hparse, hsame, A2AError.ofType_kept]

/-- An error of a code that is not the protocol's, with a detail that has an
entry named as its type is. -/
def rateLimited : A2AError where
  code := -32050
  message := "slow down"
  details := some [⟨badRequestType, (∅ : Metadata).insert "@type" (.string "limit")⟩]

theorem rateLimited_changed :
    (parseJsonrpcError (rateLimited.toJsonrpcError "now")).code = ErrorCode.internalError ∧
      otherDetails (parseJsonrpcError (rateLimited.toJsonrpcError "now")) ≠
        otherDetails rateLimited := by
  constructor
  · rw [parse_toJsonrpcError_received]
    rfl
  · rw [Ne, otherDetails_eq_iff]
    intro h
    have hnone := h _ (List.mem_filter.mpr ⟨List.mem_singleton_self _, by decide⟩)
    rw [Finmap.lookup_insert] at hnone
    contradiction

end A2a
