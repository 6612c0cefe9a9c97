import A2a.Errors.RoundTrip
import A2a.JsonText.Compact
import A2a.Sse.LineEndings

/-!
# A2a.Sse.Codec

The texts an event stream carries, and what reading them gives.

How `serde_json` and the generated ProtoJSON code write and read is a
parameter, `Codec`.  `serde_json` gives up on a text that nests too deep, so
an error is read only if its details leave room for the response around them
(`toJsonrpcError_reads`, `restErrorEnvelope_reads`).  What is read of it
names the same code (`a2aErrorFromDetails_names`).

`jsonCodec` is such a codec.
-/

namespace A2a

/-! ## JSON-RPC responses as JSON -/

/-- `JsonRpcId::serialize`. -/
def JsonRpcId.toValue : JsonRpcId → Value
  | .string s => .string s
  | .number n => .number (.int n.toInt)
  | .null => .null

/-- `JsonRpcId::deserialize`. -/
def JsonRpcId.read : Value → Option JsonRpcId
  | .string s => some (.string s)
  | .number (.int n) =>
      if Int64.minValue.toInt ≤ n ∧ n ≤ Int64.maxValue.toInt then some (.number (Int64.ofInt n))
      else none
  | .null => some .null
  | _ => none

/-- An optional field; `null` reads as absent. -/
def optionalField : Option Value → Option Value
  | some .null => none
  | v => v

/-- A field that is left out if absent. -/
def skipNone (key : String) (v : Option Value) : List (String × Value) :=
  (v.map (key, ·)).toList

def JsonRpcError.toValue (err : JsonRpcError) : Value :=
  .object ([("code", .number (.int err.code))] ++ skipNone "data" err.data ++
    [("message", .string err.message)])

/-- `as_i64` and the range of an `i32`. -/
def readI32 : Value → Option Int
  | .number (.int n) => if -2 ^ 31 ≤ n ∧ n < 2 ^ 31 then some n else none
  | _ => none

def JsonRpcError.read (v : Value) : Option JsonRpcError :=
  match (v.get "code").bind readI32, (v.get "message").bind Value.asStr with
  | some code, some message => some ⟨code, message, optionalField (v.get "data")⟩
  | _, _ => none

namespace JsonRpcResponse

/-- `JsonRpcResponse::success`. -/
def success (id : JsonRpcId) (result : Value) : JsonRpcResponse := ⟨"2.0", id, some result, none⟩

/-- `JsonRpcResponse::error`. -/
def failure (id : JsonRpcId) (err : JsonRpcError) : JsonRpcResponse := ⟨"2.0", id, none, some err⟩

def toValue (r : JsonRpcResponse) : Value :=
  .object (skipNone "error" (r.error.map JsonRpcError.toValue) ++
    [("id", r.id.toValue), ("jsonrpc", .string r.jsonrpc)] ++ skipNone "result" r.result)

def read (v : Value) : Option JsonRpcResponse :=
  match (v.get "jsonrpc").bind Value.asStr, (v.get "id").bind JsonRpcId.read,
    optionalField (v.get "error") with
  | some jsonrpc, some id, none => some ⟨jsonrpc, id, optionalField (v.get "result"), none⟩
  | some jsonrpc, some id, some err =>
      (JsonRpcError.read err).map fun err =>
        ⟨jsonrpc, id, optionalField (v.get "result"), some err⟩
  | _, _, _ => none

end JsonRpcResponse

/-- `RestErrorEnvelope::deserialize`, on an object. -/
def RestErrorEnvelope.read (v : Value) : Option RestErrorEnvelope :=
  match v.get "error" with
  | none => none
  | some error =>
      match (error.get "message").bind Value.asStr, readDetails (error.get "details") with
      | some message, some details => some ⟨message, details⟩
      | _, _ => none

/-- What the code relies on in `serde_json` and the generated ProtoJSON code.
A text holds no line break.  It reads as `Value.reread` says: up to the
recursion limit, an integer as it is and a double as `number` tells.  An
event is an object with no entry of the name `error`. -/
structure Codec extends Decoders where
  toValue : StreamResponse → Except String Value
  write : Value → String
  number : Number → Option Number
  number_int {n : Int} (h : -2 ^ 63 ≤ n ∧ n < 2 ^ 64) : number (.int n) = some (.int n)
  write_nonempty (v : Value) : (write v).toList ≠ []
  write_unbroken (v : Value) : Unbroken (write v).toList
  envelope_write (r : JsonRpcResponse) : toDecoders.envelope (write r.toValue) =
    (r.toValue.reread number recursionLimit).bind JsonRpcResponse.read
  restEnvelope_write (s : RestErrorStatus) : toDecoders.restEnvelope (write s.toValue) =
    (s.toValue.reread number recursionLimit).bind RestErrorEnvelope.read
  restEnvelope_none {fields : List (String × Value)} (h : fields.lookup "error" = none) :
    toDecoders.restEnvelope (write (.object fields)) = none
  toValue_object {event : StreamResponse} {v : Value} (h : toValue event = .ok v) :
    ∃ fields, v = .object fields ∧ fields.lookup "error" = none

namespace Codec

variable (C : Codec)

/-- What a written value reads as. -/
def reread (v : Value) : Option Value := v.reread C.number recursionLimit

/-- A written value is read: it does not nest too deep, and its numbers are
read. -/
def Reads (v : Value) : Prop :=
  v.depth ≤ recursionLimit ∧ ∀ n ∈ v.numbers, (C.number n).isSome = true

/-- A value is read exactly if it is within the limit and its numbers are read. -/
theorem reread_isSome_iff (v : Value) : (C.reread v).isSome = true ↔ C.Reads v :=
  A2a.reread_isSome_iff C.number recursionLimit v

/-- Whether the ProtoJSON encoding of an event decodes to it, from the value
its text reads as and from the text. -/
def RoundTrips (event : StreamResponse) : Prop :=
  ∃ v v', C.toValue event = .ok v ∧ C.reread v = some v' ∧ C.fromValue v' = .ok event ∧
    C.fromStr (C.write v) = .ok event

end Codec
/-! ## reading what was written -/

/-- An id is read as it was written. -/
theorem JsonRpcId.read_toValue (id : JsonRpcId) : JsonRpcId.read id.toValue = some id := by
  cases id with
  | string s => rfl
  | number n =>
      have hle := n.le_maxValue
      have hge := n.minValue_le
      rw [toValue, read, if_pos ⟨Int64.le_iff_toInt_le.mp hge, Int64.le_iff_toInt_le.mp hle⟩,
        Int64.ofInt_toInt]
  | null => rfl

/-- So is a result, if it is an object. -/
theorem JsonRpcResponse.read_success (id : JsonRpcId) (fields : List (String × Value)) :
    read (success id (.object fields)).toValue = some (success id (.object fields)) := by
  have hid : ((success id (.object fields)).toValue.get "id").bind JsonRpcId.read = some id :=
    id.read_toValue
  have hversion : ((success id (.object fields)).toValue.get "jsonrpc").bind Value.asStr =
      some "2.0" := rfl
  rw [read, hid, hversion]
  rfl

/-- So is an error whose code fits and whose data is not `null`. -/
theorem JsonRpcError.read_toValue {err : JsonRpcError} (hcode : -2 ^ 31 ≤ err.code)
    (hcode' : err.code < 2 ^ 31) (hdata : err.data ≠ some .null) :
    read err.toValue = some err := by
  obtain ⟨code, message, data⟩ := err
  have hread : readI32 (.number (.int code)) = some code := if_pos ⟨hcode, hcode'⟩
  have hcodeField : ((toValue ⟨code, message, data⟩).get "code").bind readI32 = some code := hread
  have hrest : ((toValue ⟨code, message, data⟩).get "message").bind Value.asStr = some message ∧
      optionalField ((toValue ⟨code, message, data⟩).get "data") = data := by
    cases data with
    | none => exact ⟨rfl, rfl⟩
    | some data =>
        refine ⟨rfl, ?_⟩
        show optionalField (some data) = some data
        cases data
        all_goals first | contradiction | rfl
  rw [read, hcodeField, hrest.1, hrest.2]

/-- So is a response with such an error. -/
theorem JsonRpcResponse.read_failure (id : JsonRpcId) {err : JsonRpcError}
    (hcode : -2 ^ 31 ≤ err.code) (hcode' : err.code < 2 ^ 31) (hdata : err.data ≠ some .null) :
    read (failure id err).toValue = some (failure id err) := by
  have hid : ((failure id err).toValue.get "id").bind JsonRpcId.read = some id := id.read_toValue
  have hversion : ((failure id err).toValue.get "jsonrpc").bind Value.asStr = some "2.0" := rfl
  have herror : optionalField ((failure id err).toValue.get "error") = some err.toValue := rfl
  rw [read, hid, hversion, herror]
  dsimp only
  rw [JsonRpcError.read_toValue hcode hcode' hdata]
  rfl

/-! ## what responses read as -/

/-- An id's text reads as the id at any limit. -/
theorem JsonRpcId.reread_toValue (C : Codec) (id : JsonRpcId) (limit : Nat) :
    id.toValue.reread C.number limit = some id.toValue := by
  cases id with
  | string s => rfl
  | number n =>
      have hle := Int64.le_iff_toInt_le.mp n.le_maxValue
      have hge := Int64.le_iff_toInt_le.mp n.minValue_le
      have hmax : Int64.maxValue.toInt = 2 ^ 63 - 1 := by decide
      have hmin : Int64.minValue.toInt = -2 ^ 63 := by decide
      have hrange : -2 ^ 63 ≤ n.toInt ∧ n.toInt < 2 ^ 64 := by omega
      rw [toValue, Value.reread, C.number_int hrange]
      rfl
  | null => rfl

/-- A response reads if its result does, one level deeper. -/
theorem JsonRpcResponse.reread_success (C : Codec) (id : JsonRpcId) (v : Value) (limit : Nat) :
    (success id v).toValue.reread C.number (limit + 1) =
      (v.reread C.number limit).map fun v' => (success id v').toValue := by
  change (Value.object [("id", id.toValue), ("jsonrpc", .string "2.0"), ("result", v)]).reread
    C.number (limit + 1) = _
  simp only [Value.reread, Value.rereadFields, id.reread_toValue C, Option.bind_some,
    Option.map_some]
  cases v.reread C.number limit <;> rfl

/-- An error response reads if its data do, two levels deeper. -/
theorem JsonRpcResponse.reread_failure (C : Codec) (id : JsonRpcId) {code : Int}
    (hcode : -2 ^ 31 ≤ code ∧ code < 2 ^ 31) (message : String) (data : Value) (limit : Nat) :
    (failure id ⟨code, message, some data⟩).toValue.reread C.number (limit + 2) =
      (data.reread C.number limit).map fun data' =>
        (failure id ⟨code, message, some data'⟩).toValue := by
  have hrange : -2 ^ 63 ≤ code ∧ code < 2 ^ 64 := by omega
  change (Value.object [("error", .object [("code", .number (.int code)), ("data", data),
    ("message", .string message)]), ("id", id.toValue), ("jsonrpc", .string "2.0")]).reread
    C.number (limit + 2) = _
  simp only [Value.reread, Value.rereadFields, id.reread_toValue C, C.number_int hrange,
    Option.bind_some, Option.map_some]
  cases data.reread C.number limit <;> rfl

/-- The body of an answer with other details. -/
def RestErrorStatus.withDetails (s : RestErrorStatus) (details : List Value) : Value :=
  .object [("error", .object [("code", .number (.int s.code)), ("details", .array details),
    ("message", .string s.message), ("status", .string s.status)])]

/-- A status has three digits. -/
theorem A2AError.httpStatusCode_lt (err : A2AError) : err.httpStatusCode < 600 := by
  unfold httpStatusCode
  split_ifs <;> decide

/-- The body of a failed request reads if its details do, three levels
deeper. -/
theorem reread_restErrorEnvelope (C : Codec) (timestamp : String) (err : A2AError) (limit : Nat) :
    (restErrorEnvelope timestamp err).toValue.reread C.number (limit + 3) =
      (Value.rereadItems C.number limit
        ((restErrorEnvelope timestamp err).details.map TypedDetail.toValue)).map
        (restErrorEnvelope timestamp err).withDetails := by
  have hcode : C.number (.int (restErrorEnvelope timestamp err).code) =
      some (.int (restErrorEnvelope timestamp err).code) := by
    have hlt : (restErrorEnvelope timestamp err).code < 600 := err.httpStatusCode_lt
    exact C.number_int (by omega)
  simp only [RestErrorStatus.toValue, Value.reread, Value.rereadFields, hcode, Option.bind_some,
    Option.map_some]
  cases Value.rereadItems C.number limit
    ((restErrorEnvelope timestamp err).details.map TypedDetail.toValue) <;> rfl

/-! ## what details read as -/

section Details

variable {number : Number → Option Number} {limit : Nat} {v : Value}

/-- A detail that was read has under each key what was written there. -/
theorem TypedDetail.fromValue_reread (detail : TypedDetail)
    (h : detail.toValue.reread number limit = some v) :
    ∃ map : Metadata, fromValue v =
        some ⟨((map.lookup "@type").bind Value.asStr).getD structType, map.erase "@type"⟩ ∧
      ∃ limit', ∀ key, map.lookup key =
        (detail.entries.lookup key).bind (Value.reread number limit') := by
  cases limit with
  | zero => contradiction
  | succ limit =>
      obtain ⟨fields, hfields, rfl⟩ := Option.map_eq_some_iff.mp h
      have hall := List.rel_reverse (rereadFields_eq_some.mp hfields)
      refine ⟨mapOfFields fields, rfl, limit, fun key => ?_⟩
      rw [lookup_mapOfFields, lookup_reread hall, ← lookup_mapOfFields, mapOfFields_sortedFields]

/-- The detail that names a code still does when it was read. -/
theorem TypedDetail.Names.reread {info : TypedDetail} {code : Int} (hinfo : info.Names code)
    (h : info.toValue.reread number limit = some v) :
    ∃ info', TypedDetail.fromValue v = some info' ∧ info'.Names code := by
  obtain ⟨map, hread, limit', hlookup⟩ := info.fromValue_reread h
  have hmem : "@type" ∉ info.value := Finmap.lookup_eq_none.mp hinfo.untyped
  have hentries (key : String) (w : Value) (hkey : info.value.lookup key = some w) :
      info.entries.lookup key = some w := by
    have hin : key ∈ info.value := Finmap.lookup_isSome.mp (by rw [hkey]; rfl)
    rw [TypedDetail.entries, Finmap.lookup_union_left hin, hkey]
  have htype : map.lookup "@type" = some (.string errorInfoType) := by
    rw [hlookup, TypedDetail.entries, Finmap.lookup_union_right hmem, Finmap.lookup_singleton_eq,
      hinfo.typeUrl]
    rfl
  refine ⟨_, hread, ?_⟩
  exact {
    typeUrl := by rw [htype]; rfl
    reason := by
      rw [Finmap.lookup_erase_ne (by decide), hlookup, hentries _ _ hinfo.reason]
      rfl
    domain := by
      rw [Finmap.lookup_erase_ne (by decide), hlookup, hentries _ _ hinfo.domain]
      rfl
    untyped := Finmap.lookup_erase _ _ }

/-- What is read of details that end with the one that names the code. -/
theorem readDetails_reread {details : List TypedDetail} {info : TypedDetail} {code : Int}
    (hinfo : info.Names code) {vs : List Value}
    (h : Value.rereadItems number limit (details.map TypedDetail.toValue ++ [info.toValue]) =
      some vs) :
    ∃ read info', vs.mapM TypedDetail.fromValue = some (read ++ [info']) ∧ info'.Names code := by
  induction details generalizing vs with
  | nil =>
      obtain ⟨v, vs', hv, hvs, rfl⟩ := List.forall₂_cons_left_iff.mp (rereadItems_eq_some.mp h)
      obtain rfl := List.forall₂_nil_left_iff.mp hvs
      obtain ⟨info', hread, hnames⟩ := hinfo.reread hv
      refine ⟨[], info', ?_, hnames⟩
      rw [List.mapM_cons, hread]
      rfl
  | cons detail details ih =>
      obtain ⟨v, vs', hv, hvs, rfl⟩ := List.forall₂_cons_left_iff.mp (rereadItems_eq_some.mp h)
      obtain ⟨detail', hdetail⟩ : ∃ detail', TypedDetail.fromValue v = some detail' := by
        obtain ⟨map, hread, -⟩ := detail.fromValue_reread hv
        exact ⟨_, hread⟩
      obtain ⟨read, info', hreads, hnames⟩ := ih (rereadItems_eq_some.mpr hvs)
      refine ⟨detail' :: read, info', ?_, hnames⟩
      rw [List.mapM_cons, hdetail, hreads]
      rfl

theorem filterMap_of_mapM {α β : Type} {f : α → Option β} {as : List α} {bs : List β}
    (h : as.mapM f = some bs) : as.filterMap f = bs := by
  induction as generalizing bs with
  | nil => exact Option.some.inj h
  | cons a as ih =>
      rw [List.mapM_cons] at h
      obtain ⟨b, hb, h⟩ := Option.bind_eq_some_iff.mp h
      obtain ⟨bs', hbs, h⟩ := Option.bind_eq_some_iff.mp h
      cases h
      rw [List.filterMap_cons_some hb, ih hbs]

/-- Details that end so make an error of that code, which has details. -/
theorem a2aErrorFromDetails_names (read : List TypedDetail) {info : TypedDetail} {code : Int}
    (hinfo : info.Names code) (given : Int) (message : String) :
    (a2aErrorFromDetails given message (read ++ [info])).code = ErrorCode.received code ∧
      (a2aErrorFromDetails given message (read ++ [info])).details.isSome = true := by
  have hlast : ofType errorInfoType (read ++ [info]) = ofType errorInfoType read ++ [info] := by
    rw [ofType, List.filter_append, List.filter_cons_of_pos (by simp [hinfo.typeUrl]),
      List.filter_nil]
    rfl
  have hcode := protocolErrorCode_of_names hinfo.received (ErrorCode.received_mem code) ⟨_, hlast⟩
  rw [a2aErrorFromDetails, hcode]
  exact ⟨rfl, by simp⟩

end Details

/-- What a JSON-RPC client makes of an error it reads. -/
theorem parseJsonrpcError_reread {number : Number → Option Number} {limit : Nat}
    (err : A2AError) (timestamp : String) {data : Value}
    (h : (Value.array (err.kept.map TypedDetail.toValue ++
      [(err.jsonrpcInfo timestamp).toValue])).reread number limit = some data) :
    data ≠ .null ∧
      (parseJsonrpcError ⟨err.code, err.message, some data⟩).code = ErrorCode.received err.code ∧
      (parseJsonrpcError ⟨err.code, err.message, some data⟩).details.isSome = true := by
  cases limit with
  | zero => contradiction
  | succ limit =>
      obtain ⟨vs, hvs, rfl⟩ := Option.map_eq_some_iff.mp h
      obtain ⟨read, info, hread, hnames⟩ := readDetails_reread (err.names_jsonrpcInfo timestamp) hvs
      refine ⟨fun hnull => by contradiction, ?_⟩
      simp only [parseJsonrpcError, filterMap_of_mapM hread]
      exact a2aErrorFromDetails_names _ hnames err.code err.message

/-- What a REST client makes of an error it reads. -/
theorem RestErrorEnvelope.read_reread {number : Number → Option Number} {limit : Nat}
    (err : A2AError) (timestamp : String) {vs : List Value}
    (h : Value.rereadItems number limit
      ((restErrorEnvelope timestamp err).details.map TypedDetail.toValue) = some vs) :
    ∃ read info, RestErrorEnvelope.read ((restErrorEnvelope timestamp err).withDetails vs) =
      some ⟨err.message, read ++ [info]⟩ ∧ info.Names err.code := by
  have hdetails : (restErrorEnvelope timestamp err).details.map TypedDetail.toValue =
      err.kept.map TypedDetail.toValue ++ [(TypedDetail.errorInfo (errorReason err.code)
        protocolDomain (some (err.restMetadata timestamp))).toValue] := by
    rw [restErrorEnvelope, List.map_append]
    rfl
  rw [hdetails] at h
  obtain ⟨read, info, hread, hnames⟩ := readDetails_reread (TypedDetail.names_errorInfo _ _) h
  refine ⟨read, info, ?_, hnames⟩
  have herror : ((restErrorEnvelope timestamp err).withDetails vs).get "error" =
      some (.object [("code", .number (.int (restErrorEnvelope timestamp err).code)),
        ("details", .array vs), ("message", .string err.message),
        ("status", .string (restErrorEnvelope timestamp err).status)]) := rfl
  have hread : readDetails (some (.array vs)) = some (read ++ [info]) := hread
  rw [RestErrorEnvelope.read, herror]
  simp [Value.get, Value.asStr, List.lookup_cons, hread]

/-! ## which errors are read -/

section Depth

variable {number : Number → Option Number} {limit : Nat}

/-- Each entry of a detail is read. -/
def TypedDetail.EntriesRead (number : Number → Option Number) (limit : Nat)
    (detail : TypedDetail) : Prop :=
  ∀ key v, detail.value.lookup key = some v → (v.reread number limit).isSome = true

/-- A detail is read if each entry is, one level deeper. -/
theorem TypedDetail.reread_isSome_iff (detail : TypedDetail) :
    (detail.toValue.reread number (limit + 1)).isSome = true ↔
      detail.EntriesRead number limit := by
  rw [toValue, Value.reread, Option.isSome_map, rereadFields_isSome]
  constructor
  · intro h key v hv
    have hmem : key ∈ detail.value := Finmap.lookup_isSome.mp (by rw [hv]; rfl)
    have hentry : detail.entries.lookup key = some v := by
      rw [entries, Finmap.lookup_union_left hmem, hv]
    exact h (key, v) (mem_sortedFields.mpr hentry)
  · rintro h ⟨key, v⟩ hf
    have hentry := mem_sortedFields.mp hf
    rw [entries] at hentry
    by_cases hmem : key ∈ detail.value
    · rw [Finmap.lookup_union_left hmem] at hentry
      exact h key v hentry
    · -- the entry is the type of the detail
      rw [Finmap.lookup_union_right hmem] at hentry
      have hkey := (Finmap.mem_singleton key "@type" _).mp
        (Finmap.lookup_isSome.mp (by rw [hentry]; rfl))
      rw [hkey, Finmap.lookup_singleton_eq] at hentry
      rw [← Option.some.inj hentry]
      rfl

/-- An entry is added or was there. -/
theorem mem_orInsert {fields : List (String × Value)} {field f : String × Value}
    (h : f ∈ orInsert fields field) : f ∈ fields ∨ f = field := by
  induction fields with
  | nil => exact .inr (List.mem_singleton.mp h)
  | cons head fields ih =>
      rw [orInsert] at h
      split_ifs at h
      · exact .inl h
      · rcases List.mem_cons.mp h with rfl | h
        · exact .inr rfl
        · exact .inl h
      · rcases List.mem_cons.mp h with rfl | h
        · exact .inl (.head _)
        · exact (ih h).imp_left (.tail _)

/-- So are many. -/
theorem mem_foldl_orInsert {theirs ours : List (String × Value)} {f : String × Value}
    (h : f ∈ theirs.foldl orInsert ours) : f ∈ ours ∨ f ∈ theirs := by
  induction theirs generalizing ours with
  | nil => exact .inl h
  | cons field theirs ih =>
      rcases ih h with h | h
      · exact (mem_orInsert h).imp_right fun heq => by rw [heq]; exact .head _
      · exact .inr (.tail _ h)

/-- The metadata of a detail that is read. -/
theorem TypedDetail.EntriesRead.metadata {detail : TypedDetail} {fields : List (String × Value)}
    (h : detail.EntriesRead number (limit + 1))
    (hfields : (detail.value.lookup "metadata").bind Value.asObject = some fields) :
    ∀ f ∈ fields, (f.2.reread number limit).isSome = true := by
  obtain ⟨v, hv, hobject⟩ := Option.bind_eq_some_iff.mp hfields
  have hsome := h "metadata" v hv
  cases v with
  | object fields' =>
      cases hobject
      rwa [Value.reread, Option.isSome_map, rereadFields_isSome] at hsome
  | null => contradiction
  | bool b => contradiction
  | number n => contradiction
  | string s => contradiction
  | array vs => contradiction

/-- Joined metadata is read if both sides are. -/
theorem TypedDetail.EntriesRead.addMetadata {info existing : TypedDetail}
    (h : info.EntriesRead number (limit + 1)) (hexisting : existing.EntriesRead number (limit + 1)) :
    (info.addMetadata existing).EntriesRead number (limit + 1) := by
  unfold TypedDetail.addMetadata
  split
  · next theirs ours htheirs hours =>
      intro key v hv
      by_cases hkey : key = "metadata"
      · rw [hkey, Finmap.lookup_insert] at hv
        cases hv
        rw [Value.reread, Option.isSome_map, rereadFields_isSome]
        intro f hf
        rcases mem_foldl_orInsert hf with hf | hf
        · exact h.metadata hours f hf
        · exact hexisting.metadata htheirs f hf
      · rw [Finmap.lookup_insert_of_ne _ hkey] at hv
        exact h key v hv
  · exact h

/-- An `ErrorInfo` is flat. -/
theorem TypedDetail.entriesRead_errorInfo (reason domain : String)
    (metadata : Option (Finmap fun _ : String => String)) :
    (errorInfo reason domain metadata).EntriesRead number (limit + 1) := by
  intro key v hv
  have hnames (hv : (((∅ : Metadata).insert "reason" (.string reason)).insert "domain"
      (.string domain)).lookup key = some v) : (v.reread number (limit + 1)).isSome = true := by
    by_cases hdomain : key = "domain"
    · rw [hdomain, Finmap.lookup_insert] at hv
      cases hv
      rfl
    · rw [Finmap.lookup_insert_of_ne _ hdomain] at hv
      by_cases hreason : key = "reason"
      · rw [hreason, Finmap.lookup_insert] at hv
        cases hv
        rfl
      · rw [Finmap.lookup_insert_of_ne _ hreason, Finmap.lookup_empty] at hv
        contradiction
  cases metadata with
  | none => exact hnames hv
  | some metadata =>
      by_cases hkey : key = "metadata"
      · rw [errorInfo, hkey, Finmap.lookup_insert] at hv
        cases hv
        rw [Value.reread, Option.isSome_map, rereadFields_isSome]
        intro f hf
        obtain ⟨e, -, rfl⟩ := List.mem_map.mp hf
        rfl
      · rw [errorInfo, Finmap.lookup_insert_of_ne _ hkey] at hv
        exact hnames hv

variable {err : A2AError}

/-- The details of a JSON-RPC error are read if those of the error are. -/
theorem toJsonrpcError_reads
    (h : ∀ detail ∈ err.details.getD [], (detail.toValue.reread number (limit + 2)).isSome = true)
    (timestamp : String) :
    ((Value.array (err.kept.map TypedDetail.toValue ++
      [(err.jsonrpcInfo timestamp).toValue])).reread number (limit + 3)).isSome = true := by
  have hentries : ∀ detail ∈ err.details.getD [], detail.EntriesRead number (limit + 1) :=
    fun detail hd => detail.reread_isSome_iff.mp (h detail hd)
  have hinfo : (err.jsonrpcInfo timestamp).EntriesRead number (limit + 1) := by
    have hall : ∀ detail ∈ ofType errorInfoType (err.details.getD []),
        detail.EntriesRead number (limit + 1) :=
      fun detail hd => hentries detail (List.mem_filter.mp hd).1
    rw [A2AError.jsonrpcInfo]
    generalize ofType errorInfoType (err.details.getD []) = existing at hall
    have hstart := @TypedDetail.entriesRead_errorInfo number limit
      (errorReason err.code) protocolDomain (some (Finmap.singleton "timestamp" timestamp))
    generalize TypedDetail.errorInfo _ _ _ = info at hstart
    induction existing generalizing info with
    | nil => exact hstart
    | cons detail existing ih =>
        exact ih (fun detail hd => hall detail (.tail _ hd)) _
          (hstart.addMetadata (hall detail (.head _)))
  rw [Value.reread, Option.isSome_map, rereadItems_isSome]
  intro v hv
  rcases List.mem_append.mp hv with hv | hv
  · obtain ⟨detail, hd, rfl⟩ := List.mem_map.mp hv
    exact h detail (List.mem_filter.mp hd).1
  · rw [List.mem_singleton.mp hv]
    exact (TypedDetail.reread_isSome_iff _).mpr hinfo

/-- So are those of a REST error. -/
theorem restErrorEnvelope_reads
    (h : ∀ detail ∈ err.details.getD [], (detail.toValue.reread number (limit + 2)).isSome = true)
    (timestamp : String) :
    (Value.rereadItems number (limit + 2)
      ((restErrorEnvelope timestamp err).details.map TypedDetail.toValue)).isSome = true := by
  rw [rereadItems_isSome, restErrorEnvelope, List.forall_mem_map]
  intro detail hdetail
  rcases List.mem_append.mp hdetail with hd | hd
  · exact h detail (List.mem_filter.mp hd).1
  · rw [List.mem_singleton.mp hd]
    exact (TypedDetail.reread_isSome_iff _).mpr (TypedDetail.entriesRead_errorInfo _ _ _)

end Depth

/-! ## a codec -/

def readNatural (digits : List Char) : Option Nat :=
  if digits ≠ [] ∧ digits.all Char.isDigit = true then some (Nat.ofDigitChars 10 digits 0) else none

/-- An integer of 64 bits from its text.  No double is read. -/
def readInteger : List Char → Option Number
  | '-' :: digits =>
      (readNatural digits).bind fun n => if n ≤ 2 ^ 63 then some (.int (-n)) else none
  | digits => (readNatural digits).bind fun n => if n < 2 ^ 64 then some (.int n) else none

/-- The text a double is given here, which is out of the range of one. -/
def outOfRange (_bits : UInt64) : String := "1e999"

theorem numberText_outOfRange (bits : UInt64) : NumberText (outOfRange bits) :=
  ⟨by simp [outOfRange], by simp [outOfRange, Char.isDigit]⟩

/-- A natural number is read as it was written. -/
theorem readNatural_toString (n : Nat) : readNatural (toString n).toList = some n := by
  have hdigits : (toString n).toList = Nat.toDigits 10 n := String.toList_ofList
  have hall : (Nat.toDigits 10 n).all Char.isDigit = true := by
    rw [List.all_eq_true]
    exact fun c hc => Nat.isDigit_of_mem_toDigits (by decide) (by decide) hc
  rw [readNatural, hdigits, if_pos ⟨Nat.toDigits_ne_nil, hall⟩, Nat.ofDigitChars_ten_toDigits]

/-- What the text of a number reads as. -/
def rereadInteger (n : Number) : Option Number := readInteger (n.text outOfRange).toList

/-- So is an integer of 64 bits. -/
theorem rereadInteger_int {n : Int} (h : -2 ^ 63 ≤ n ∧ n < 2 ^ 64) :
    rereadInteger (.int n) = some (.int n) := by
  cases n with
  | ofNat n =>
      have htext : ((Number.int (Int.ofNat n)).text outOfRange).toList = (toString n).toList := rfl
      have hlt : n < 2 ^ 64 := by
        have hlt := h.2
        rw [Int.ofNat_eq_natCast] at hlt
        omega
      have hread := readNatural_toString n
      rw [rereadInteger, htext]
      cases hcs : (toString n).toList with
      | nil =>
          rw [hcs] at hread
          contradiction
      | cons c cs =>
          have hc : c ≠ '-' := by
            rintro rfl
            rw [hcs] at hread
            simp [readNatural] at hread
          rw [hcs] at hread
          rw [readInteger, hread, Option.bind_some, if_pos hlt]
          · rfl
          · rintro digits heq
            exact hc (List.cons.inj heq).1
  | negSucc n =>
      have htext : ((Number.int (Int.negSucc n)).text outOfRange).toList =
          '-' :: (toString (n + 1)).toList := by
        show ("-" ++ toString (n + 1)).toList = _
        rw [String.toList_append]
        rfl
      have hle : n + 1 ≤ 2 ^ 63 := by
        have hge := h.1
        rw [Int.negSucc_eq] at hge
        omega
      rw [rereadInteger, htext, readInteger, readNatural_toString, Option.bind_some, if_pos hle]
      rfl

def jsonWrite (v : Value) : String := String.ofList (v.compact outOfRange)

def jsonRead (text : String) : Option Value := readText readInteger text.toList

/-- **What is written reads as `Value.reread` says.** -/
theorem jsonRead_jsonWrite (v : Value) :
    jsonRead (jsonWrite v) = v.reread rereadInteger recursionLimit := by
  rw [jsonRead, jsonWrite, String.toList_ofList]
  exact readText_compact numberText_outOfRange v

/-- A written text is not empty. -/
theorem jsonWrite_nonempty (v : Value) : (jsonWrite v).toList ≠ [] := by
  obtain ⟨c, cs, hcs, -⟩ := compact_cons numberText_outOfRange v
  rw [jsonWrite, String.toList_ofList, hcs]
  exact List.cons_ne_nil c cs

/-- A written text has no line break. -/
theorem jsonWrite_unbroken (v : Value) : Unbroken (jsonWrite v).toList := by
  intro c hc
  rw [jsonWrite, String.toList_ofList] at hc
  constructor
  · rintro rfl
    exact not_mem_compact numberText_outOfRange (by decide) v hc
  · rintro rfl
    exact not_mem_compact numberText_outOfRange (by decide) v hc

/-- A user's message of one text as ProtoJSON. -/
def textMessage (id text : String) : Value :=
  .object [("message", .object [("messageId", .string id),
    ("parts", .array [.object [("text", .string text)]]), ("role", .string "ROLE_USER")])]

/-- Only such messages are encoded here. -/
def encodeMessage : StreamResponse → Except String Value
  | .message ⟨id, none, none, .user, [⟨.text text, none, none, none⟩], none, none, none⟩ =>
      .ok (textMessage id text)
  | _ => .error "unsupported event"

def decodeMessage : Value → Except String StreamResponse
  | .object [("message", .object [("messageId", .string id),
      ("parts", .array [.object [("text", .string text)]]), ("role", .string "ROLE_USER")])] =>
      .ok (.message (.new id .user [.text text]))
  | _ => .error "unsupported event"

def decodeText (text : String) : Except String StreamResponse :=
  match jsonRead text with
  | some v => decodeMessage v
  | none => .error "recursion limit exceeded"

/-- A text that is read is decoded from its value. -/
theorem decodeText_of_read {text : String} {v : Value} (h : jsonRead text = some v) :
    decodeText text = decodeMessage v := by
  simp only [decodeText, h]

/-- One that is not gives the error of the limit. -/
theorem decodeText_of_unread {text : String} (h : jsonRead text = none) :
    decodeText text = .error "recursion limit exceeded" := by
  simp only [decodeText, h]

/-- An encoded event is an object, of no entry `error`. -/
theorem encodeMessage_object {event : StreamResponse} {v : Value}
    (h : encodeMessage event = .ok v) :
    ∃ fields, v = .object fields ∧ fields.lookup "error" = none := by
  unfold encodeMessage at h
  split at h
  · rw [← Except.ok.inj h]
    exact ⟨_, rfl, rfl⟩
  · contradiction

/-- A codec of a user's messages and of errors. -/
def jsonCodec : Codec where
  envelope text := (jsonRead text).bind JsonRpcResponse.read
  restEnvelope text := (jsonRead text).bind RestErrorEnvelope.read
  fromValue := decodeMessage
  fromStr := decodeText
  toValue := encodeMessage
  write := jsonWrite
  number := rereadInteger
  number_int h := rereadInteger_int h
  write_nonempty := jsonWrite_nonempty
  write_unbroken := jsonWrite_unbroken
  envelope_write r := by rw [jsonRead_jsonWrite]
  restEnvelope_write s := by rw [jsonRead_jsonWrite]
  restEnvelope_none {fields} h := by
    rw [jsonRead_jsonWrite, recursionLimit, Value.reread]
    cases hfields : Value.rereadFields rereadInteger 126 fields with
    | none => rfl
    | some fields' =>
        have hlookup := lookup_reread (rereadFields_eq_some.mp hfields) "error"
        rw [h, Option.bind_none] at hlookup
        rw [Option.map_some, Option.bind_some, RestErrorEnvelope.read, Value.get, hlookup]
  toValue_object := encodeMessage_object

theorem jsonCodec_fromStr : jsonCodec.fromStr = decodeText := rfl

theorem jsonCodec_write : jsonCodec.write = jsonWrite := rfl

/-- A message of one text decodes to itself. -/
theorem decodeMessage_textMessage (id text : String) :
    decodeMessage (textMessage id text) = .ok (.message (.new id .user [.text text])) := by
  simp [decodeMessage, textMessage]

/-- A message of one text is encoded so. -/
theorem encodeMessage_text (id text : String) :
    encodeMessage (.message (.new id .user [.text text])) = .ok (textMessage id text) := rfl

/-- Both ways together. -/
theorem jsonCodec_roundTrips (id text : String) :
    jsonCodec.RoundTrips (.message (.new id .user [.text text])) := by
  have hread : (textMessage id text).reread rereadInteger recursionLimit =
      some (textMessage id text) := by
    simp [textMessage, Value.reread, Value.rereadFields, Value.rereadItems, recursionLimit]
  have hdecode := decodeMessage_textMessage id text
  have hread' : jsonCodec.reread (textMessage id text) = some (textMessage id text) := hread
  have hencode : jsonCodec.toValue (.message (.new id .user [.text text])) =
      .ok (textMessage id text) := encodeMessage_text id text
  have hfromValue : jsonCodec.fromValue (textMessage id text) =
      .ok (.message (.new id .user [.text text])) := hdecode
  have hfromStr : jsonCodec.fromStr (jsonCodec.write (textMessage id text)) =
      .ok (.message (.new id .user [.text text])) := by
    have hread := (jsonRead_jsonWrite (textMessage id text)).trans hread
    rw [jsonCodec_fromStr, jsonCodec_write, decodeText_of_read hread, hdecode]
  exact ⟨textMessage id text, textMessage id text, hencode, hread', hfromValue, hfromStr⟩

end A2a
