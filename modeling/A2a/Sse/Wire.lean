import A2a.Sse.Codec

/-!
# A2a.Sse.Wire

The server's writers of event streams (`a2a-server/src/sse.rs`) against the
client's reader.  A frame is an `id` line, for a REST error an `event` line,
and the `data` lines; comments keep the connection alive in between.

Over either binding a stream arrives as it was sent, but for the details of
an error (`streams_arrive`), if `serde_json` reads what it writes
(`deepError_not_arrives`).
-/

namespace A2a

/-! ## axum's events -/

/-- `Event::field`. -/
def sseField (name value : String) : String := name ++ ": " ++ value ++ "\n"

/-- `Event::data`: a field for each line. -/
def sseData (data : String) : String :=
  String.join ((data.toList.splitOn '\n').map fun line => sseField "data" (String.ofList line))

/-- `Event::finalize`, after its fields. -/
def sseFinalize (fields : String) : String := fields ++ "\n"

/-- `Event::comment`, or what `KeepAlive` writes for want of one. -/
def sseComment (text : String) : String := ":" ++ text ++ "\n"

/-- A comment as it keeps the connection alive. -/
structure SseComment where
  text : String
  unbroken : Unbroken text.toList

/-- What the server sends: a comment, or an item of the stream. -/
inductive Emission
  | keepAlive (comment : SseComment)
  | item (i : SseItem)

def Emission.toItem : Emission → Option SseItem
  | .keepAlive _ => none
  | .item i => some i

/-! ## the server -/

section Server

variable (C : Codec)

/-- `protojson_stream`, on one item. -/
def protojsonItem (item : SseItem) : Except A2AError Value :=
  match item with
  | .error err => .error err
  | .ok event =>
      match C.toValue event with
      | .ok v => .ok v
      | .error e =>
          .error (sanitizedInternalError s!"failed to serialize ProtoJSON stream payload: {e}")

/-- The event `sse_jsonrpc_stream` makes of an item. -/
def sseJsonrpcEvent (requestId : JsonRpcId) (timestamp : String) (eventId : Nat)
    (item : Except A2AError Value) : String :=
  let data := match item with
    | .ok result => C.write (JsonRpcResponse.success requestId result).toValue
    | .error err =>
        C.write (JsonRpcResponse.failure requestId (err.toJsonrpcError timestamp)).toValue
  sseFinalize (sseField "id" (toString eventId) ++ sseData data)

/-- The event `rest_sse` and `sse_from_rest_stream` make of an item. -/
def sseRestEvent (timestamp : String) (eventId : Nat) (item : Except A2AError Value) : String :=
  match item with
  | .ok val => sseFinalize (sseField "id" (toString eventId) ++ sseData (C.write val))
  | .error err =>
      sseFinalize (sseField "id" (toString eventId) ++ sseField "event" "error" ++
        sseData (C.write (restErrorEnvelope timestamp err).toValue))

/-- How a server writes: its binding, the id of the request and the clock
read for each event. -/
structure SseWriter where
  binding : SseBinding
  requestId : JsonRpcId
  timestamp : Nat → String

/-- The body of the response; `eventId` events are written already. -/
def SseWriter.body (w : SseWriter) (eventId : Nat) : List Emission → String
  | [] => ""
  | .keepAlive comment :: emissions =>
      sseFinalize (sseComment comment.text) ++ w.body eventId emissions
  | .item i :: emissions =>
      let value := protojsonItem C i
      let event := match w.binding with
        | .jsonrpc => sseJsonrpcEvent C w.requestId (w.timestamp (eventId + 1)) (eventId + 1) value
        | .rest => sseRestEvent C (w.timestamp (eventId + 1)) (eventId + 1) value
      event ++ w.body (eventId + 1) emissions

end Server

/-! ## the frames as events -/

/-- The line `id: n`. -/
def SseLine.id (n : Nat) : SseLine where
  text := "id: " ++ toString n
  nonempty := by
    rw [String.toList_append]
    exact fun h => absurd (List.append_eq_nil_iff.mp h).1 (by decide)
  unbroken := by
    rw [String.toList_append]
    apply Unbroken.append (by decide)
    intro c hc
    have hdigits : (toString n).toList = Nat.toDigits 10 n := String.toList_ofList
    rw [hdigits] at hc
    have hdigit := Nat.isDigit_of_mem_toDigits (by decide) (by decide) hc
    constructor
    · rintro rfl
      contradiction
    · rintro rfl
      contradiction

/-- The line `event: error`. -/
def SseLine.errorName : SseLine := ⟨"event: error", by decide, by decide⟩

/-- The line of a comment. -/
def SseComment.line (comment : SseComment) : SseLine where
  text := ":" ++ comment.text
  nonempty := by
    rw [String.toList_append]
    exact fun h => absurd (List.append_eq_nil_iff.mp h).1 (by decide)
  unbroken := by
    rw [String.toList_append]
    exact Unbroken.append (by decide) comment.unbroken

/-- An event of lines that end in LF. -/
def plainEvent (inner : List SseLine) (last : SseLine) : SseEvent :=
  ⟨inner.map fun l => (l, .lf), last, .lf, .lf⟩

/-- The text of a value as a line. -/
def Codec.line (C : Codec) (v : Value) : SseLine := ⟨C.write v, C.write_nonempty v, C.write_unbroken v⟩

theorem sseData_line (l : SseLine) : sseData l.text = l.data.text ++ "\n" := by
  have hline : '\n' ∉ l.text.toList := fun hmem => (l.unbroken _ hmem).1 rfl
  rw [sseData, List.splitOn_eq_singleton hline, List.map_singleton, String.ofList_toList, sseField]
  rfl

theorem plainEvent_chars (inner : List SseLine) (last : SseLine) :
    (plainEvent inner last).chars =
      inner.flatMap (fun l => l.text.toList ++ ['\n']) ++ last.text.toList ++ ['\n', '\n'] := by
  rw [SseEvent.chars, SseEvent.body, plainEvent, List.flatMap_map]
  rfl

section Server

variable (C : Codec)

/-- The value an item is sent as. -/
def SseWriter.payload (w : SseWriter) (eventId : Nat) (value : Except A2AError Value) : Value :=
  match w.binding, value with
  | .jsonrpc, .ok result => (JsonRpcResponse.success w.requestId result).toValue
  | .jsonrpc, .error err =>
      (JsonRpcResponse.failure w.requestId (err.toJsonrpcError (w.timestamp eventId))).toValue
  | .rest, .ok result => result
  | .rest, .error err => (restErrorEnvelope (w.timestamp eventId) err).toValue

/-- The lines before the data of an item. -/
def SseWriter.fields (w : SseWriter) (eventId : Nat) (value : Except A2AError Value) :
    List SseLine :=
  match w.binding, value with
  | .rest, .error _ => [.id eventId, .errorName]
  | _, _ => [.id eventId]

/-- What the server sends, as events. -/
def SseWriter.events (w : SseWriter) (eventId : Nat) : List Emission → List SseEvent
  | [] => []
  | .keepAlive comment :: emissions => plainEvent [] comment.line :: w.events eventId emissions
  | .item i :: emissions =>
      let value := protojsonItem C i
      plainEvent (w.fields (eventId + 1) value) (C.line (w.payload (eventId + 1) value)).data ::
        w.events (eventId + 1) emissions

end Server

theorem sseField_id (n : Nat) : sseField "id" (toString n) = (SseLine.id n).text ++ "\n" := by
  have hname : "id" ++ ": " = "id: " := by decide
  rw [sseField, hname]
  rfl

theorem sseField_error : sseField "event" "error" = SseLine.errorName.text ++ "\n" := by decide

theorem sseComment_line (comment : SseComment) :
    sseComment comment.text = comment.line.text ++ "\n" := rfl

/-- A body is its events. -/
theorem SseWriter.body_eq (C : Codec) (w : SseWriter) (eventId : Nat) (emissions : List Emission) :
    (w.body C eventId emissions).toList = (w.events C eventId emissions).flatMap SseEvent.chars := by
  have hbreak : "\n".toList = ['\n'] := by decide
  have hline (v : Value) : sseData (C.write v) = (C.line v).data.text ++ "\n" :=
    sseData_line (C.line v)
  induction emissions generalizing eventId with
  | nil => rfl
  | cons emission emissions ih =>
      cases emission with
      | keepAlive comment =>
          rw [body, events, List.flatMap_cons, String.toList_append, ih, plainEvent_chars]
          simp only [sseFinalize, sseComment_line, String.toList_append, List.append_assoc, hbreak,
            List.flatMap_nil, List.cons_append, List.nil_append]
      | item i =>
          rw [body, events, List.flatMap_cons, String.toList_append, ih, plainEvent_chars]
          obtain ⟨binding, requestId, timestamp⟩ := w
          cases binding with
          | jsonrpc =>
              cases protojsonItem C i
              all_goals simp only [sseJsonrpcEvent, sseFinalize, sseField_id, hline, payload, fields,
                List.flatMap_cons, String.toList_append, List.append_assoc, hbreak,
                List.flatMap_nil, List.cons_append, List.nil_append]
          | rest =>
              cases protojsonItem C i
              all_goals simp only [sseRestEvent, sseFinalize, sseField_id, sseField_error, hline,
                payload, fields, List.flatMap_cons, String.toList_append, List.append_assoc, hbreak,
                List.flatMap_nil, List.cons_append, List.nil_append]

/-! ## what arrives -/

theorem ErrorCode.table_range : ∀ code ∈ ErrorCode.table, -2 ^ 31 ≤ code ∧ code < 2 ^ 31 := by
  decide

/-- An event arrives as it was sent, an error with its code. -/
inductive Arrives : SseItem → SseItem → Prop
  | event (event : StreamResponse) : Arrives (.ok event) (.ok event)
  | error {err err' : A2AError} (code : err'.code = err.code) : Arrives (.error err) (.error err')

/-- What a stream may carry: events whose encoding decodes to them, and
errors with a code of the protocol. -/
def Codec.Carries (C : Codec) : SseItem → Prop
  | .ok event => C.RoundTrips event
  | .error err => err.code ∈ ErrorCode.table

/-- The text an item is sent as is read, whatever its place in the stream. -/
def SseWriter.Fits (C : Codec) (w : SseWriter) (i : SseItem) : Prop :=
  ∀ eventId, C.Reads (w.payload eventId (protojsonItem C i))

/-- What arrives of any item: something, and if its text is read an event
whose encoding decodes to it as it is, and an error with the code it is
received as and with details. -/
inductive Reported (C : Codec) (w : SseWriter) : SseItem → SseItem → Prop
  | event {event : StreamResponse} {i' : SseItem}
      (same : w.Fits C (.ok event) → C.RoundTrips event → i' = .ok event) :
      Reported C w (.ok event) i'
  | error {err : A2AError} {i' : SseItem}
      (told : w.Fits C (.error err) → ∃ err', i' = .error err' ∧
        err'.code = ErrorCode.received err.code ∧ err'.details.isSome = true) :
      Reported C w (.error err) i'

/-- Any item a stream can be given: codes are 32 bits wide. -/
def Sends : SseItem → Prop
  | .ok _ => True
  | .error err => -2 ^ 31 ≤ err.code ∧ err.code < 2 ^ 31

theorem Codec.Carries.sends {C : Codec} {i : SseItem} (h : C.Carries i) : Sends i := by
  cases i with
  | ok event => trivial
  | error err => exact ErrorCode.table_range err.code h

theorem Reported.arrives {C : Codec} {w : SseWriter} {i i' : SseItem} (h : C.Carries i)
    (hfits : w.Fits C i) (hr : Reported C w i i') : Arrives i i' := by
  cases hr with
  | @event event i' hsame =>
      rw [hsame hfits h]
      exact .event event
  | @error err i' htold =>
      obtain ⟨err', rfl, hcode, -⟩ := htold hfits
      exact .error (hcode.trans ((ErrorCode.received_eq_iff err.code).mpr h))

theorem plainEvent_texts (inner : List SseLine) (last : SseLine) :
    (plainEvent inner last).texts = inner.map SseLine.text ++ [last.text] := by
  rw [SseEvent.texts, plainEvent, List.map_map]
  rfl

/-- Lines that are no `data` lines change nothing. -/
theorem appendData_none {data line : String} (h : dataLine line = none) :
    appendData data line = data := by
  rw [appendData, h]

theorem dataLine_id (n : Nat) : dataLine (SseLine.id n).text = none := by
  show dataLine ("id: " ++ toString n) = none
  rw [dataLine, stripPrefix, stripPrefix, String.toList_append]
  rfl

theorem dataLine_comment (comment : SseComment) : dataLine comment.line.text = none := by
  show dataLine (":" ++ comment.text) = none
  rw [dataLine, stripPrefix, stripPrefix, String.toList_append]
  rfl

theorem SseWriter.eventItem_keepAlive (b : SseBinding) (D : Decoders) (comment : SseComment) :
    b.eventItem D (plainEvent [] comment.line) = none := by
  apply b.parseEvent_none
  rw [eventData_withLf, plainEvent_texts]
  exact appendData_none (dataLine_comment comment)

/-- The data of an item's frame is what was written. -/
theorem SseWriter.eventData_item (C : Codec) (w : SseWriter) (eventId : Nat)
    (value : Except A2AError Value) :
    eventData (String.ofList (plainEvent (w.fields eventId value)
      (C.line (w.payload eventId value)).data).withLf.body) =
        C.write (w.payload eventId value) := by
  have hfields : ((w.fields eventId value).map SseLine.text).foldl appendData "" = "" := by
    have hid : appendData "" (SseLine.id eventId).text = "" := appendData_none (dataLine_id eventId)
    have herror : appendData "" SseLine.errorName.text = "" := by decide
    unfold fields
    split
    · rw [List.map_cons, List.foldl_cons, hid]
      exact herror
    · exact hid
  rw [eventData_withLf, plainEvent_texts, List.foldl_append, hfields]
  exact appendData_data _
/-! ## parsing a frame's data -/
section Parse

variable {D : Decoders} {text : String} {event : StreamResponse}

theorem parseJsonrpcEvent_success {r : JsonRpcResponse} {result : Value}
    (hne : eventData text ≠ "") (henvelope : D.envelope (eventData text) = some r)
    (herror : r.error = none) (hresult : r.result = some result)
    (hvalue : D.fromValue result = .ok event) :
    parseJsonrpcEvent D text = some (.ok event) := by
  simp only [parseJsonrpcEvent, hne, if_false, henvelope, herror, hresult, hvalue]

theorem parseJsonrpcEvent_failure {r : JsonRpcResponse} {err : JsonRpcError}
    (hne : eventData text ≠ "") (henvelope : D.envelope (eventData text) = some r)
    (herror : r.error = some err) :
    parseJsonrpcEvent D text = some (.error (parseJsonrpcError err)) := by
  simp only [parseJsonrpcEvent, hne, if_false, henvelope, herror]

theorem parseJsonrpcEvent_unread {e : String} (hne : eventData text ≠ "")
    (henvelope : D.envelope (eventData text) = none)
    (hvalue : D.fromStr (eventData text) = .error e) :
    parseJsonrpcEvent D text = some (.error (.internal s!"SSE parse error: {e}")) := by
  simp only [parseJsonrpcEvent, hne, if_false, henvelope, hvalue]

theorem parseRestEvent_event (hne : eventData text ≠ "")
    (herror : D.restError (eventData text) = none)
    (hvalue : D.fromStr (eventData text) = .ok event) :
    parseRestEvent D text = some (.ok event) := by
  simp only [parseRestEvent, hne, if_false, herror, hvalue]

theorem parseRestEvent_error {err : A2AError} (hne : eventData text ≠ "")
    (herror : D.restError (eventData text) = some err) :
    parseRestEvent D text = some (.error err) := by
  simp only [parseRestEvent, hne, if_false, herror]

end Parse

/-- A frame whose data an event was written as parses to it. -/
theorem SseWriter.parse_event (C : Codec) (w : SseWriter) (eventId : Nat) {event : StreamResponse}
    {v v' : Value} (hv : C.toValue event = .ok v) (hread : C.reread v = some v')
    (hfromValue : C.fromValue v' = .ok event) (hfromStr : C.fromStr (C.write v) = .ok event)
    (hreads : C.Reads (w.payload eventId (.ok v))) {text : String} (hne : eventData text ≠ "")
    (hdata : eventData text = C.write (w.payload eventId (.ok v))) :
    w.binding.parseEvent C.toDecoders text = some (.ok event) := by
  obtain ⟨fields, rfl, herror⟩ := C.toValue_object hv
  obtain ⟨binding, requestId, timestamp⟩ := w
  cases binding with
  | jsonrpc =>
      change eventData text = C.write (JsonRpcResponse.success requestId (.object fields)).toValue
        at hdata
      change C.Reads (JsonRpcResponse.success requestId (.object fields)).toValue at hreads
      have henvelope := C.envelope_write (.success requestId (.object fields))
      have hresponse := JsonRpcResponse.reread_success C requestId (.object fields) 126
      -- one level deeper the value reads as it does by itself
      have hsame : (Value.object fields).reread C.number 126 = some v' := by
        have hsome := (C.reread_isSome_iff _).mpr hreads
        rw [Codec.reread, recursionLimit, hresponse, Option.isSome_map] at hsome
        obtain ⟨v'', hv''⟩ := Option.isSome_iff_exists.mp hsome
        rw [hv'', ← hread]
        exact (reread_mono (by decide) hv'').symm
      obtain ⟨fields', rfl⟩ : ∃ fields', v' = .object fields' := by
        obtain ⟨fields', -, rfl⟩ := Option.map_eq_some_iff.mp hsame
        exact ⟨fields', rfl⟩
      rw [recursionLimit, hresponse, hsame, Option.map_some, Option.bind_some,
        JsonRpcResponse.read_success, ← hdata] at henvelope
      exact parseJsonrpcEvent_success hne henvelope rfl rfl hfromValue
  | rest =>
      change eventData text = C.write (.object fields) at hdata
      have hrest := C.restEnvelope_none herror
      rw [← hdata] at hfromStr hrest
      refine parseRestEvent_event hne ?_ hfromStr
      rw [Decoders.restError, hrest]
      rfl

/-- A frame whose data an error was written as parses, if it is read, to an
error with its code and with details. -/
theorem SseWriter.parse_error (C : Codec) (w : SseWriter) (eventId : Nat) {err : A2AError}
    (hrange : -2 ^ 31 ≤ err.code ∧ err.code < 2 ^ 31)
    (hreads : C.Reads (w.payload eventId (.error err))) {text : String} (hne : eventData text ≠ "")
    (hdata : eventData text = C.write (w.payload eventId (.error err))) :
    ∃ err', err'.code = ErrorCode.received err.code ∧ err'.details.isSome = true ∧
      w.binding.parseEvent C.toDecoders text = some (.error err') := by
  have hsome := (C.reread_isSome_iff _).mpr hreads
  obtain ⟨binding, requestId, timestamp⟩ := w
  cases binding with
  | jsonrpc =>
      change eventData text = C.write (JsonRpcResponse.failure requestId
        (err.toJsonrpcError (timestamp eventId))).toValue at hdata
      have henvelope := C.envelope_write (.failure requestId
        (err.toJsonrpcError (timestamp eventId)))
      have hresponse := JsonRpcResponse.reread_failure C requestId hrange err.message
        (.array (err.kept.map TypedDetail.toValue ++
          [(err.jsonrpcInfo (timestamp eventId)).toValue])) 125
      change (C.reread (JsonRpcResponse.failure requestId ⟨err.code, err.message, some (.array
        (err.kept.map TypedDetail.toValue ++
          [(err.jsonrpcInfo (timestamp eventId)).toValue]))⟩).toValue).isSome = true at hsome
      rw [Codec.reread, recursionLimit, hresponse, Option.isSome_map] at hsome
      obtain ⟨data, hread⟩ := Option.isSome_iff_exists.mp hsome
      obtain ⟨hnull, hcode, hdetails⟩ := parseJsonrpcError_reread err (timestamp eventId) hread
      change C.envelope _ = ((JsonRpcResponse.failure requestId ⟨err.code, err.message, some
        (.array (err.kept.map TypedDetail.toValue ++
          [(err.jsonrpcInfo (timestamp eventId)).toValue]))⟩).toValue.reread C.number
            recursionLimit).bind _ at henvelope
      rw [recursionLimit, hresponse, hread, Option.map_some, Option.bind_some,
        JsonRpcResponse.read_failure requestId hrange.1 hrange.2 (by simpa using hnull),
        ← hdata] at henvelope
      exact ⟨_, hcode, hdetails, parseJsonrpcEvent_failure hne henvelope rfl⟩
  | rest =>
      change eventData text = C.write (restErrorEnvelope (timestamp eventId) err).toValue at hdata
      change (C.reread (restErrorEnvelope (timestamp eventId) err).toValue).isSome = true at hsome
      have hrest := C.restEnvelope_write (restErrorEnvelope (timestamp eventId) err)
      have hbody := reread_restErrorEnvelope C (timestamp eventId) err 124
      rw [Codec.reread, recursionLimit, hbody, Option.isSome_map] at hsome
      obtain ⟨vs, hvs⟩ := Option.isSome_iff_exists.mp hsome
      obtain ⟨read, info, hread, hnames⟩ := RestErrorEnvelope.read_reread err (timestamp eventId) hvs
      obtain ⟨hcode, hdetails⟩ := a2aErrorFromDetails_names read hnames
        ErrorCode.internalError err.message
      rw [recursionLimit, hbody, hvs, Option.map_some, Option.bind_some, hread, ← hdata] at hrest
      refine ⟨_, hcode, hdetails, parseRestEvent_error hne ?_⟩
      rw [Decoders.restError, hrest]
      rfl

section Fallback

variable {D : Decoders} {text : String}

/-- Data that is no response is taken for an event. -/
theorem parseJsonrpcEvent_fallback (hne : eventData text ≠ "")
    (henvelope : D.envelope (eventData text) = none) :
    ∃ i, parseJsonrpcEvent D text = some i := by
  simp only [parseJsonrpcEvent, hne, if_false, henvelope]
  cases D.fromStr (eventData text) <;> exact ⟨_, rfl⟩

theorem parseRestEvent_fallback (hne : eventData text ≠ "")
    (henvelope : D.restEnvelope (eventData text) = none) :
    ∃ i, parseRestEvent D text = some i := by
  simp only [parseRestEvent, hne, if_false, Decoders.restError, henvelope, Option.map_none]
  cases D.fromStr (eventData text) <;> exact ⟨_, rfl⟩

end Fallback

/-- Over JSON-RPC, an error that is not read, nor taken for an event, yields
one of the client's own. -/
theorem SseWriter.eventItem_unread (C : Codec) (requestId : JsonRpcId) (timestamp : Nat → String)
    (eventId : Nat) {err : A2AError} {e : String}
    (hunread : C.reread (payload ⟨.jsonrpc, requestId, timestamp⟩ eventId (.error err)) = none)
    (hfromStr : C.fromStr (C.write (payload ⟨.jsonrpc, requestId, timestamp⟩ eventId
      (.error err))) = .error e) :
    SseBinding.jsonrpc.eventItem C.toDecoders
      (plainEvent (fields ⟨.jsonrpc, requestId, timestamp⟩ eventId (.error err))
        (C.line (payload ⟨.jsonrpc, requestId, timestamp⟩ eventId (.error err))).data) =
      some (.error (.internal s!"SSE parse error: {e}")) := by
  have hdata := eventData_item C ⟨.jsonrpc, requestId, timestamp⟩ eventId (.error err)
  have hne : eventData (String.ofList (plainEvent (fields ⟨.jsonrpc, requestId, timestamp⟩ eventId
      (.error err)) (C.line (payload ⟨.jsonrpc, requestId, timestamp⟩ eventId
        (.error err))).data).withLf.body) ≠ "" := by
    rw [hdata]
    intro hempty
    exact C.write_nonempty _ (by rw [hempty]; rfl)
  have henvelope : C.envelope (C.write (payload ⟨.jsonrpc, requestId, timestamp⟩ eventId
      (.error err))) = none := by
    have hwrite := C.envelope_write (.failure requestId (err.toJsonrpcError (timestamp eventId)))
    change _ = (C.reread (payload ⟨.jsonrpc, requestId, timestamp⟩ eventId (.error err))).bind _
      at hwrite
    rw [hunread] at hwrite
    exact hwrite
  rw [← hdata] at henvelope hfromStr
  have hparse := parseJsonrpcEvent_unread hne henvelope hfromStr
  exact hparse

/-- A frame whose data an error was written as parses to something. -/
theorem SseWriter.parse_error_some (C : Codec) (w : SseWriter) (eventId : Nat) {err : A2AError}
    (hrange : -2 ^ 31 ≤ err.code ∧ err.code < 2 ^ 31) {text : String} (hne : eventData text ≠ "")
    (hdata : eventData text = C.write (w.payload eventId (.error err))) :
    ∃ i, w.binding.parseEvent C.toDecoders text = some i := by
  by_cases hreads : C.Reads (w.payload eventId (.error err))
  · obtain ⟨err', -, -, hparse⟩ := w.parse_error C eventId hrange hreads hne hdata
    exact ⟨_, hparse⟩
  · have hnone : C.reread (w.payload eventId (.error err)) = none := by
      rw [← Option.not_isSome_iff_eq_none, C.reread_isSome_iff]
      exact hreads
    obtain ⟨binding, requestId, timestamp⟩ := w
    cases binding with
    | jsonrpc =>
        have henvelope := C.envelope_write (.failure requestId
          (err.toJsonrpcError (timestamp eventId)))
        change C.envelope (C.write (payload ⟨.jsonrpc, requestId, timestamp⟩ eventId (.error err))) =
          (C.reread (payload ⟨.jsonrpc, requestId, timestamp⟩ eventId (.error err))).bind _
            at henvelope
        rw [hnone, ← hdata] at henvelope
        exact parseJsonrpcEvent_fallback hne henvelope
    | rest =>
        have hrest := C.restEnvelope_write (restErrorEnvelope (timestamp eventId) err)
        change C.restEnvelope (C.write (payload ⟨.rest, requestId, timestamp⟩ eventId (.error err))) =
          (C.reread (payload ⟨.rest, requestId, timestamp⟩ eventId (.error err))).bind _ at hrest
        rw [hnone, ← hdata] at hrest
        exact parseRestEvent_fallback hne hrest

/-- A frame whose data any event was written as parses to something. -/
theorem SseWriter.parse_some (C : Codec) (w : SseWriter) (eventId : Nat) (event : StreamResponse)
    {text : String} (hne : eventData text ≠ "")
    (hdata : eventData text = C.write (w.payload eventId (protojsonItem C (.ok event)))) :
    ∃ i, w.binding.parseEvent C.toDecoders text = some i := by
  cases hv : C.toValue event with
  | error e =>
      have hitem : protojsonItem C (.ok event) =
          .error (sanitizedInternalError s!"failed to serialize ProtoJSON stream payload: {e}") := by
        simp only [protojsonItem, hv]
      rw [hitem] at hdata
      have hrange := ErrorCode.table_range ErrorCode.internalError (by decide)
      exact w.parse_error_some C eventId hrange hne hdata
  | ok v =>
      have hitem : protojsonItem C (.ok event) = .ok v := by simp only [protojsonItem, hv]
      rw [hitem] at hdata
      obtain ⟨fields, rfl, herror⟩ := C.toValue_object hv
      obtain ⟨binding, requestId, timestamp⟩ := w
      cases binding with
      | jsonrpc =>
          change eventData text = C.write (JsonRpcResponse.success requestId (.object fields)).toValue
            at hdata
          have henvelope := C.envelope_write (.success requestId (.object fields))
          rw [recursionLimit, JsonRpcResponse.reread_success C requestId (.object fields) 126,
            ← hdata] at henvelope
          cases hread : (Value.object fields).reread C.number 126 with
          | none =>
              rw [hread] at henvelope
              exact parseJsonrpcEvent_fallback hne henvelope
          | some v' =>
              obtain ⟨fields', -, rfl⟩ := Option.map_eq_some_iff.mp hread
              rw [hread, Option.map_some, Option.bind_some, JsonRpcResponse.read_success]
                at henvelope
              show ∃ i, parseJsonrpcEvent C.toDecoders text = some i
              simp only [parseJsonrpcEvent, hne, if_false, henvelope, JsonRpcResponse.success]
              cases C.fromValue (.object fields') <;> exact ⟨_, rfl⟩
      | rest =>
          change eventData text = C.write (.object fields) at hdata
          have hrest := C.restEnvelope_none herror
          rw [← hdata] at hrest
          exact parseRestEvent_fallback hne hrest

/-- An item's frame yields it. -/
theorem SseWriter.eventItem_item (C : Codec) (w : SseWriter) (eventId : Nat) {i : SseItem}
    (h : Sends i) :
    ∃ i', Reported C w i i' ∧ w.binding.eventItem C.toDecoders
      (plainEvent (w.fields eventId (protojsonItem C i))
        (C.line (w.payload eventId (protojsonItem C i))).data) = some i' := by
  have hdata := w.eventData_item C eventId (protojsonItem C i)
  have hne : eventData (String.ofList (plainEvent (w.fields eventId (protojsonItem C i))
      (C.line (w.payload eventId (protojsonItem C i))).data).withLf.body) ≠ "" := by
    rw [hdata]
    intro hempty
    exact C.write_nonempty _ (by rw [hempty]; rfl)
  rw [SseBinding.eventItem]
  by_cases hfits : w.Fits C i
  · have hreads := hfits eventId
    cases i with
    | ok event =>
        by_cases hround : C.RoundTrips event
        · obtain ⟨v, v', hv, hread, hfromValue, hfromStr⟩ := hround
          have hitem : protojsonItem C (.ok event) = .ok v := by
            simp only [protojsonItem, hv]
          rw [hitem] at hdata hne hreads ⊢
          exact ⟨_, .event fun _ _ => rfl,
            w.parse_event C eventId hv hread hfromValue hfromStr hreads hne hdata⟩
        · obtain ⟨i', hi'⟩ := w.parse_some C eventId event hne hdata
          exact ⟨i', .event fun _ h => absurd h hround, hi'⟩
    | error err =>
        obtain ⟨err', hcode, hdetails, hparse⟩ := w.parse_error C eventId h hreads hne hdata
        exact ⟨_, .error fun _ => ⟨err', rfl, hcode, hdetails⟩, hparse⟩
  · cases i with
    | ok event =>
        obtain ⟨i', hi'⟩ := w.parse_some C eventId event hne hdata
        exact ⟨i', .event fun h => absurd h hfits, hi'⟩
    | error err =>
        obtain ⟨i', hi'⟩ := w.parse_error_some C eventId h hne hdata
        exact ⟨i', .error fun h => absurd h hfits, hi'⟩

/-- What the frames of a stream yield. -/
theorem SseWriter.filterMap_events (C : Codec) (w : SseWriter) (eventId : Nat)
    (emissions : List Emission) (h : ∀ i ∈ emissions.filterMap Emission.toItem, Sends i) :
    List.Forall₂ (Reported C w) (emissions.filterMap Emission.toItem)
      ((w.events C eventId emissions).filterMap (w.binding.eventItem C.toDecoders)) := by
  induction emissions generalizing eventId with
  | nil => exact .nil
  | cons emission emissions ih =>
      cases emission with
      | keepAlive comment =>
          rw [events, List.filterMap_cons_none (eventItem_keepAlive _ _ comment)]
          exact ih eventId h
      | item i =>
          obtain ⟨i', hreported, hitem⟩ := w.eventItem_item C (eventId + 1) (h i (.head _))
          rw [events, List.filterMap_cons_some hitem]
          exact .cons hreported (ih (eventId + 1) fun i' hi' => h i' (.tail _ hi'))
theorem SseWriter.events_readable (C : Codec) (w : SseWriter) (eventId : Nat)
    (emissions : List Emission) : ∀ e ∈ w.events C eventId emissions, e.style.Readable := by
  have hplain (inner : List SseLine) (last : SseLine) : (plainEvent inner last).style.Readable := by
    refine ⟨?_, .head _⟩
    intro hmem
    obtain ⟨l, hl, hcr⟩ := List.mem_map.mp hmem
    obtain ⟨l', -, rfl⟩ := List.mem_map.mp hl
    contradiction
  induction emissions generalizing eventId with
  | nil =>
      intro e he
      contradiction
  | cons emission emissions ih =>
      intro e he
      cases emission with
      | keepAlive comment =>
          cases he with
          | head => exact hplain _ _
          | tail _ he => exact ih eventId e he
      | item i =>
          cases he with
          | head => exact hplain _ _
          | tail _ he => exact ih (eventId + 1) e he

/-- What the reader yields of a body, however it is cut into chunks. -/
theorem SseWriter.yields_iff (C : Codec) (w : SseWriter) (emissions : List Emission)
    {chunks : List (List UInt8)} (h : chunks.flatten = utf8 (w.body C 0 emissions))
    (yielded : List SseItem) :
    (Reader.ofChunks chunks).Yields C.toDecoders (w.binding.parseEvent C.toDecoders) yielded ↔
      yielded = (w.events C 0 emissions).filterMap (w.binding.eventItem C.toDecoders) := by
  have hbytes : utf8 (w.body C 0 emissions) = encode (w.events C 0 emissions) := by
    rw [utf8, w.body_eq C, encode, bytesOf]
  rw [Reader.yields_iff, h, hbytes, Reader.items_readable (w.events_readable C 0 emissions)]

/-- Whatever a stream is given, the reader yields what is reported of it. -/
theorem streams_reported (C : Codec) (w : SseWriter) (emissions : List Emission)
    (h : ∀ i ∈ emissions.filterMap Emission.toItem, Sends i) :
    ∃ items, List.Forall₂ (Reported C w) (emissions.filterMap Emission.toItem) items ∧
      ∀ chunks : List (List UInt8), chunks.flatten = utf8 (w.body C 0 emissions) → ∀ yielded,
        (Reader.ofChunks chunks).Yields C.toDecoders (w.binding.parseEvent C.toDecoders) yielded ↔
          yielded = items :=
  ⟨_, w.filterMap_events C 0 emissions h, fun _ hchunks => w.yields_iff C emissions hchunks⟩

/-- An event is read if its encoding is, one level deeper. -/
theorem SseWriter.fits_event (C : Codec) (w : SseWriter) {event : StreamResponse} {v : Value}
    (hv : C.toValue event = .ok v) (h : (v.reread C.number 126).isSome = true) :
    w.Fits C (.ok event) := by
  intro eventId
  have hitem : protojsonItem C (.ok event) = .ok v := by simp only [protojsonItem, hv]
  rw [hitem, ← C.reread_isSome_iff]
  obtain ⟨binding, requestId, timestamp⟩ := w
  cases binding with
  | jsonrpc =>
      show ((JsonRpcResponse.success requestId v).toValue.reread C.number 127).isSome = true
      rw [JsonRpcResponse.reread_success C requestId v 126, Option.isSome_map, h]
  | rest =>
      obtain ⟨v', hv'⟩ := Option.isSome_iff_exists.mp h
      show (v.reread C.number 127).isSome = true
      rw [reread_mono (by decide) hv']
      rfl

/-- An error is read if its details nest at most 124 deep, which leaves room
for the response, the error and the list of details. -/
theorem SseWriter.fits_error (C : Codec) (w : SseWriter) {err : A2AError}
    (hrange : -2 ^ 31 ≤ err.code ∧ err.code < 2 ^ 31)
    (h : ∀ detail ∈ err.details.getD [], (detail.toValue.reread C.number 124).isSome = true) :
    w.Fits C (.error err) := by
  intro eventId
  rw [← C.reread_isSome_iff]
  obtain ⟨binding, requestId, timestamp⟩ := w
  cases binding with
  | jsonrpc =>
      have hdata := toJsonrpcError_reads h (timestamp eventId)
      have hresponse := JsonRpcResponse.reread_failure C requestId hrange err.message
        (.array (err.kept.map TypedDetail.toValue ++
          [(err.jsonrpcInfo (timestamp eventId)).toValue])) 125
      show ((JsonRpcResponse.failure requestId ⟨err.code, err.message, some (.array
        (err.kept.map TypedDetail.toValue ++
          [(err.jsonrpcInfo (timestamp eventId)).toValue]))⟩).toValue.reread C.number 127).isSome =
            true
      rw [hresponse, Option.isSome_map, hdata]
  | rest =>
      have hdetails := restErrorEnvelope_reads h (timestamp eventId)
      show ((restErrorEnvelope (timestamp eventId) err).toValue.reread C.number 127).isSome = true
      rw [reread_restErrorEnvelope C (timestamp eventId) err 124, Option.isSome_map, hdetails]

/-- **A stream arrives as it was sent**: over either binding, with comments
anywhere between, the reader yields the same events and errors with the
same codes, in order, and nothing else, if `serde_json` reads each text. -/
theorem streams_arrive (C : Codec) (w : SseWriter) (emissions : List Emission)
    (h : ∀ i ∈ emissions.filterMap Emission.toItem, C.Carries i)
    (hfits : ∀ i ∈ emissions.filterMap Emission.toItem, w.Fits C i) :
    ∃ items, List.Forall₂ Arrives (emissions.filterMap Emission.toItem) items ∧
      ∀ chunks : List (List UInt8), chunks.flatten = utf8 (w.body C 0 emissions) → ∀ yielded,
        (Reader.ofChunks chunks).Yields C.toDecoders (w.binding.parseEvent C.toDecoders) yielded ↔
          yielded = items := by
  obtain ⟨items, hreported, hyields⟩ := streams_reported C w emissions fun i hi => (h i hi).sends
  have hboth := (List.forall₂_and_left _ _).mpr
    ⟨fun i hi => And.intro (h i hi) (hfits i hi), hreported⟩
  exact ⟨items, hboth.imp fun i i' hi => hi.2.arrives hi.1.1 hi.1.2, hyields⟩

def helloEvent : StreamResponse := .message (.new "m" .user [.text "hi"])

/-- A message, a comment and an error. -/
def helloEmissions : List Emission :=
  [.item (.ok helloEvent), .keepAlive ⟨"", by decide⟩, .item (.error (.taskNotFound "t"))]

theorem helloEvent_fits (w : SseWriter) : w.Fits jsonCodec (.ok helloEvent) := by
  have hread : ((textMessage "m" "hi").reread rereadInteger 126).isSome = true := by
    simp [textMessage, Value.reread, Value.rereadFields, Value.rereadItems]
  exact w.fits_event jsonCodec (encodeMessage_text "m" "hi") hread

theorem taskNotFound_fits (w : SseWriter) (id : String) :
    w.Fits jsonCodec (.error (.taskNotFound id)) := by
  have hrange := ErrorCode.table_range ErrorCode.taskNotFound (by decide)
  exact w.fits_error jsonCodec hrange fun detail hd => absurd hd List.not_mem_nil

theorem streams_arrive_hello :
    ∃ items, List.Forall₂ Arrives [.ok helloEvent, .error (.taskNotFound "t")] items ∧
      ∀ yielded, (Reader.ofChunks [utf8 (SseWriter.body jsonCodec
          ⟨.jsonrpc, .number 1, fun _ => "now"⟩ 0 helloEmissions)]).Yields jsonCodec.toDecoders
        (parseJsonrpcEvent jsonCodec.toDecoders) yielded ↔ yielded = items := by
  have hcarries : ∀ i ∈ helloEmissions.filterMap Emission.toItem, jsonCodec.Carries i := by
    intro i hi
    change i ∈ [.ok helloEvent, .error (.taskNotFound "t")] at hi
    simp only [List.mem_cons, List.not_mem_nil, or_false] at hi
    rcases hi with rfl | rfl
    · exact jsonCodec_roundTrips "m" "hi"
    · show ErrorCode.taskNotFound ∈ ErrorCode.table
      decide
  have hfits : ∀ i ∈ helloEmissions.filterMap Emission.toItem,
      SseWriter.Fits jsonCodec ⟨.jsonrpc, .number 1, fun _ => "now"⟩ i := by
    intro i hi
    change i ∈ [.ok helloEvent, .error (.taskNotFound "t")] at hi
    simp only [List.mem_cons, List.not_mem_nil, or_false] at hi
    rcases hi with rfl | rfl
    · exact helloEvent_fits _
    · exact taskNotFound_fits _ "t"
  obtain ⟨items, harrive, hyields⟩ := streams_arrive jsonCodec
    ⟨.jsonrpc, .number 1, fun _ => "now"⟩ helloEmissions hcarries hfits
  exact ⟨items, harrive, hyields _ (List.append_nil _)⟩

/-! ## an error that is not read -/

/-- Arrays inside one another. -/
def nestedArrays : Nat → Value
  | 0 => .null
  | n + 1 => .array [nestedArrays n]

theorem reread_nestedArrays {number : Number → Option Number} {limit n : Nat} (h : limit < n) :
    (nestedArrays n).reread number limit = none := by
  induction n generalizing limit with
  | zero => omega
  | succ n ih =>
      rw [nestedArrays]
      cases limit with
      | zero => rfl
      | succ limit =>
          rw [Value.reread, Value.rereadItems, ih (by omega)]
          rfl

/-- A detail of 125 levels. -/
def deepDetail : TypedDetail := ⟨structType, Finmap.singleton "tree" (nestedArrays 124)⟩

def deepError : A2AError := ⟨ErrorCode.taskNotFound, "gone", some [deepDetail]⟩

theorem deepDetail_unread (number : Number → Option Number) :
    deepDetail.toValue.reread number 124 = none := by
  rw [← Option.not_isSome_iff_eq_none, TypedDetail.reread_isSome_iff]
  intro h
  have htree := h "tree" (nestedArrays 124) (Finmap.lookup_singleton_eq)
  rw [reread_nestedArrays (by decide)] at htree
  contradiction

/-- The response to a deep error is not read. -/
theorem deepError_unread (requestId : JsonRpcId) (timestamp : Nat → String) (eventId : Nat) :
    jsonCodec.reread (SseWriter.payload ⟨.jsonrpc, requestId, timestamp⟩ eventId
      (.error deepError)) = none := by
  have hrange := ErrorCode.table_range ErrorCode.taskNotFound (by decide)
  have hresponse := JsonRpcResponse.reread_failure jsonCodec requestId hrange "gone"
    (.array (deepError.kept.map TypedDetail.toValue ++
      [(deepError.jsonrpcInfo (timestamp eventId)).toValue])) 125
  have hkept : deepDetail.toValue ∈ deepError.kept.map TypedDetail.toValue ++
      [(deepError.jsonrpcInfo (timestamp eventId)).toValue] :=
    List.mem_append_left _ (List.mem_map_of_mem (List.mem_filter.mpr ⟨.head _, by decide⟩))
  have hdata : (Value.array (deepError.kept.map TypedDetail.toValue ++
      [(deepError.jsonrpcInfo (timestamp eventId)).toValue])).reread jsonCodec.number 125 =
        none := by
    rw [← Option.not_isSome_iff_eq_none, Value.reread, Option.isSome_map, rereadItems_isSome]
    intro h
    have hsome := h _ hkept
    rw [deepDetail_unread] at hsome
    contradiction
  rw [hdata] at hresponse
  exact hresponse

/-- Its frame yields an error of the client's own. -/
theorem deepError_eventItem (requestId : JsonRpcId) (timestamp : Nat → String) (eventId : Nat) :
    SseBinding.jsonrpc.eventItem jsonCodec.toDecoders
      (plainEvent (SseWriter.fields ⟨.jsonrpc, requestId, timestamp⟩ eventId (.error deepError))
        (jsonCodec.line (SseWriter.payload ⟨.jsonrpc, requestId, timestamp⟩ eventId
          (.error deepError))).data) =
      some (.error (.internal "SSE parse error: recursion limit exceeded")) := by
  have hunread := deepError_unread requestId timestamp eventId
  have hfromStr : jsonCodec.fromStr (jsonCodec.write (SseWriter.payload
      ⟨.jsonrpc, requestId, timestamp⟩ eventId (.error deepError))) =
        .error "recursion limit exceeded" := by
    have hread := (jsonRead_jsonWrite _).trans hunread
    rw [jsonCodec_fromStr, jsonCodec_write, decodeText_of_unread hread]
  exact SseWriter.eventItem_unread jsonCodec requestId timestamp eventId hunread hfromStr

/-- What a stream of a deep error yields. -/
theorem deepError_yields (yielded : List SseItem) :
    (Reader.ofChunks [utf8 (SseWriter.body jsonCodec ⟨.jsonrpc, .number 1, fun _ => "now"⟩ 0
        [.item (.error deepError)])]).Yields jsonCodec.toDecoders
      (parseJsonrpcEvent jsonCodec.toDecoders) yielded ↔
        yielded = [.error (.internal "SSE parse error: recursion limit exceeded")] := by
  have hchunks : [utf8 (SseWriter.body jsonCodec ⟨.jsonrpc, .number 1, fun _ => "now"⟩ 0
      [.item (.error deepError)])].flatten = utf8 (SseWriter.body jsonCodec
        ⟨.jsonrpc, .number 1, fun _ => "now"⟩ 0 [.item (.error deepError)]) := List.append_nil _
  have hyields := SseWriter.yields_iff jsonCodec ⟨.jsonrpc, .number 1, fun _ => "now"⟩
    [.item (.error deepError)] hchunks yielded
  have hitem : (SseWriter.events jsonCodec ⟨.jsonrpc, .number 1, fun _ => "now"⟩ 0
      [.item (.error deepError)]).filterMap (SseBinding.jsonrpc.eventItem jsonCodec.toDecoders) =
        [.error (.internal "SSE parse error: recursion limit exceeded")] :=
    List.filterMap_cons_some (deepError_eventItem _ _ _)
  rw [hitem] at hyields
  exact hyields

/-- A deep error loses its code. -/
theorem deepError_not_arrives :
    (∀ i ∈ [(.error deepError : SseItem)], jsonCodec.Carries i) ∧
      ¬∃ items, List.Forall₂ Arrives [.error deepError] items ∧
        ∀ yielded, (Reader.ofChunks [utf8 (SseWriter.body jsonCodec
            ⟨.jsonrpc, .number 1, fun _ => "now"⟩ 0 [.item (.error deepError)])]).Yields
          jsonCodec.toDecoders (parseJsonrpcEvent jsonCodec.toDecoders) yielded ↔
            yielded = items := by
  constructor
  · intro i hi
    rw [List.mem_singleton.mp hi]
    show ErrorCode.taskNotFound ∈ ErrorCode.table
    decide
  · rintro ⟨items, harrive, hyields⟩
    have hitems := (deepError_yields items).mp ((hyields items).mpr rfl)
    rw [hitems] at harrive
    cases harrive with
    | cons h _ =>
        cases h with
        | error hcode => exact absurd hcode (by decide)

end A2a
