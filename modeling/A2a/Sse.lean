import A2a.AgentCard
import A2a.Errors
import A2a.Framing
import A2a.Handler
import A2a.Utf8

/-!
# A2a.Sse

The client's reader of event streams (`a2a-client/src/jsonrpc.rs`): bytes
arrive in chunks, `findEventBoundary` cuts them into frames, and a parser of
the binding makes an item of a frame (`parseJsonrpcEvent`,
`parseRestEvent`).  What is left when the stream ends has a parser of its
own (`parseStreamTail`).

The JSON decoders are the ones `serde_json` and the generated ProtoJSON code
provide; they are fields of `Decoders`.
-/

namespace A2a

/-! ## what the reader decodes -/

/-- `JsonRpcId`. -/
inductive JsonRpcId
  | string (s : String)
  | number (n : Int64)
  | null
  deriving DecidableEq

/-- `JsonRpcResponse`. -/
structure JsonRpcResponse where
  jsonrpc : String
  id : JsonRpcId
  result : Option Value
  error : Option JsonRpcError

/-- `RestErrorEnvelope`: what a client reads of a REST error. -/
structure RestErrorEnvelope where
  message : String
  details : List TypedDetail

/-- The JSON decoders: `serde_json::from_str` at the two envelopes, and
`protojson_conv`'s `from_value` and `from_str` at the events. -/
structure Decoders where
  envelope : String → Option JsonRpcResponse
  restEnvelope : String → Option RestErrorEnvelope
  fromValue : Value → Except String StreamResponse
  fromStr : String → Except String StreamResponse

instance : Inhabited Decoders :=
  ⟨⟨fun _ => none, fun _ => none, fun _ => .error "", fun _ => .error ""⟩⟩

/-- `rest_error`. -/
def Decoders.restError (D : Decoders) (body : String) : Option A2AError :=
  (D.restEnvelope body).map fun envelope =>
    a2aErrorFromDetails ErrorCode.internalError envelope.message envelope.details

/-- What the reader yields. -/
abbrev SseItem := Except A2AError StreamResponse

/-! ## event boundaries -/

def lf : UInt8 := 10

def cr : UInt8 := 13

/-- The byte strings that end an event. -/
def separators : List (List UInt8) := [[lf, lf], [cr, cr], [cr, lf, cr, lf]]

/-- The length of the separator the bytes begin with. -/
def boundaryAt (bytes : List UInt8) : Option Nat :=
  if [lf, lf] <+: bytes then some 2
  else if [cr, cr] <+: bytes then some 2
  else if [cr, lf, cr, lf] <+: bytes then some 4
  else none

/-- The loop of `find_event_boundary` from index `i` on. -/
def findEventBoundaryFrom (i : Nat) : List UInt8 → Option (Nat × Nat)
  | [] => none
  | b :: bytes =>
      match boundaryAt (b :: bytes) with
      | some len => some (i, i + len)
      | none => findEventBoundaryFrom (i + 1) bytes

/-- `find_event_boundary`. -/
def findEventBoundary (buf : List UInt8) : Option (Nat × Nat) := findEventBoundaryFrom 0 buf

theorem boundaryAt_eq_none {bytes : List UInt8} :
    boundaryAt bytes = none ↔ ∀ separator ∈ separators, ¬ separator <+: bytes := by
  simp only [separators, List.forall_mem_cons]
  unfold boundaryAt
  split
  · simp_all
  · split
    · simp_all
    · split <;> simp_all

/-- No separator begins another. -/
theorem boundaryAt_of_prefix {bytes separator : List UInt8} (hmem : separator ∈ separators)
    (h : separator <+: bytes) : boundaryAt bytes = some separator.length := by
  obtain ⟨more, rfl⟩ := h
  simp only [separators, List.mem_cons, List.not_mem_nil, or_false] at hmem
  rcases hmem with rfl | rfl | rfl
  · rfl
  · rfl
  · rfl

theorem prefix_of_boundaryAt {bytes : List UInt8} {len : Nat} (h : boundaryAt bytes = some len) :
    ∃ separator ∈ separators, separator <+: bytes ∧ separator.length = len := by
  unfold boundaryAt at h
  split at h
  · next hp => exact ⟨_, .head _, hp, Option.some.inj h⟩
  · split at h
    · next hp => exact ⟨_, .tail _ (.head _), hp, Option.some.inj h⟩
    · split at h
      · next hp => exact ⟨_, .tail _ (.tail _ (.head _)), hp, Option.some.inj h⟩
      · contradiction

theorem length_separator {separator : List UInt8} (hmem : separator ∈ separators) :
    2 ≤ separator.length ∧ (separator.length ≤ 2 ∨ separator = [cr, lf, cr, lf]) := by
  simp only [separators, List.mem_cons, List.not_mem_nil, or_false] at hmem
  rcases hmem with rfl | rfl | rfl
  all_goals decide

/-- A separator that more input would complete ends behind the next one. -/
theorem boundaryAt_append_eq_none {bytes : List UInt8} {m len : Nat} (more : List UInt8)
    (hm : 0 < m) (hnone : boundaryAt bytes = none) (hsome : boundaryAt (bytes.drop m) = some len) :
    boundaryAt (bytes ++ more) = none := by
  rw [boundaryAt_eq_none] at hnone ⊢
  intro separator hmem hbegins
  have hshort : bytes.length < separator.length := by
    by_contra hlen
    exact hnone separator hmem (List.prefix_of_prefix_length_le hbegins
      (List.prefix_append bytes more) (Nat.le_of_not_lt hlen))
  obtain ⟨next, hnext, hnextBegins, -⟩ := prefix_of_boundaryAt hsome
  have hlen := hnextBegins.length_le
  have hnextLen := (length_separator hnext).1
  rw [List.length_drop] at hlen
  rcases (length_separator hmem).2 with hle | rfl
  · omega
  · -- the bytes are `\r\n\r`, in which no separator begins
    have hlength : bytes.length = 3 := by
      have : [cr, lf, cr, lf].length = 4 := rfl
      omega
    have hbytes : bytes = [cr, lf, cr] := by
      have htake := List.prefix_iff_eq_take.mp (List.prefix_of_prefix_length_le
        (List.prefix_append bytes more) hbegins (Nat.le_of_lt hshort))
      rw [hlength] at htake
      exact htake
    have hm1 : m = 1 := by omega
    rw [hbytes, hm1] at hsome
    contradiction

/-- Where a boundary lies: the first place that begins with a separator. -/
theorem findEventBoundaryFrom_eq_some {i start stop : Nat} {bytes : List UInt8} :
    findEventBoundaryFrom i bytes = some (start, stop) ↔
      ∃ k len, start = i + k ∧ stop = i + k + len ∧ boundaryAt (bytes.drop k) = some len ∧
        ∀ j < k, boundaryAt (bytes.drop j) = none := by
  induction bytes generalizing i with
  | nil =>
      constructor
      · intro h
        contradiction
      · rintro ⟨k, len, -, -, hsome, -⟩
        rw [List.drop_nil] at hsome
        contradiction
  | cons b bytes ih =>
      rw [findEventBoundaryFrom]
      split
      · next len hlen =>
          constructor
          · intro h
            simp only [Option.some.injEq, Prod.mk.injEq] at h
            exact ⟨0, len, by omega, by omega, hlen, by intro j hj; omega⟩
          · rintro ⟨k, len', rfl, rfl, hsome, hfirst⟩
            have hk : k = 0 := by
              by_contra hne
              have := hfirst 0 (Nat.pos_of_ne_zero hne)
              rw [List.drop_zero, hlen] at this
              contradiction
            subst hk
            rw [List.drop_zero, hlen, Option.some.injEq] at hsome
            rw [hsome]
            rfl
      · next hnone =>
          rw [ih]
          constructor
          · rintro ⟨k, len, rfl, rfl, hsome, hfirst⟩
            refine ⟨k + 1, len, by omega, by omega, hsome, ?_⟩
            intro j hj
            cases j with
            | zero => exact hnone
            | succ j => exact hfirst j (by omega)
          · rintro ⟨k, len, rfl, rfl, hsome, hfirst⟩
            cases k with
            | zero =>
                rw [List.drop_zero, hnone] at hsome
                contradiction
            | succ k =>
                refine ⟨k, len, by omega, by omega, hsome, ?_⟩
                intro j hj
                exact hfirst (j + 1) (by omega)

theorem findEventBoundaryFrom_eq_none {i : Nat} {bytes : List UInt8} :
    findEventBoundaryFrom i bytes = none ↔ ∀ j, boundaryAt (bytes.drop j) = none := by
  induction bytes generalizing i with
  | nil =>
      constructor
      · intro _ j
        rw [List.drop_nil]
        rfl
      · intro _
        rfl
  | cons b bytes ih =>
      rw [findEventBoundaryFrom]
      split
      · next len hlen =>
          constructor
          · intro h
            contradiction
          · intro h
            have := h 0
            rw [List.drop_zero, hlen] at this
            contradiction
      · next hnone =>
          rw [ih]
          constructor
          · intro h j
            cases j with
            | zero => exact hnone
            | succ j => exact h j
          · intro h j
            exact h (j + 1)

/-- **A boundary stays where it is when more bytes arrive.** -/
theorem findEventBoundary_append {buf : List UInt8} {start stop : Nat}
    (h : findEventBoundary buf = some (start, stop)) (more : List UInt8) :
    findEventBoundary (buf ++ more) = some (start, stop) := by
  rw [findEventBoundary, findEventBoundaryFrom_eq_some] at h ⊢
  obtain ⟨k, len, hstart, hstop, hsome, hfirst⟩ := h
  have hpos : k < buf.length := by
    by_contra hle
    rw [List.drop_eq_nil_of_le (by omega)] at hsome
    contradiction
  refine ⟨k, len, hstart, hstop, ?_, ?_⟩
  · obtain ⟨separator, hmem, hbegins, rfl⟩ := prefix_of_boundaryAt hsome
    rw [List.drop_append_of_le_length (by omega)]
    exact boundaryAt_of_prefix hmem (hbegins.trans (List.prefix_append _ _))
  · intro j hj
    rw [List.drop_append_of_le_length (by omega)]
    apply boundaryAt_append_eq_none more (m := k - j) (by omega) (hfirst j hj)
    rw [List.drop_drop, Nat.add_sub_cancel' (by omega)]
    exact hsome

/-- The rule by which the reader cuts its buffer. -/
def eventFrames : FrameFinder UInt8 where
  find := findEventBoundary
  start_le h := by
    obtain ⟨k, len, rfl, rfl, -, -⟩ := findEventBoundaryFrom_eq_some.mp h
    omega
  stop_pos h := by
    obtain ⟨k, len, rfl, rfl, hsome, -⟩ := findEventBoundaryFrom_eq_some.mp h
    obtain ⟨separator, hmem, -, rfl⟩ := prefix_of_boundaryAt hsome
    have hlen := (length_separator hmem).1
    omega
  stop_le h := by
    obtain ⟨k, len, rfl, rfl, hsome, -⟩ := findEventBoundaryFrom_eq_some.mp h
    obtain ⟨separator, hmem, hbegins, rfl⟩ := prefix_of_boundaryAt hsome
    have hlen := hbegins.length_le
    have hpos := (length_separator hmem).1
    rw [List.length_drop] at hlen
    omega
  find_append h more := findEventBoundary_append h more

/-! ## lines -/

/-- A line without the `\r` of its `\r\n`. -/
def stripCr (line : List Char) : List Char :=
  if line.getLast? = some '\r' then line.dropLast else line

/-- The lines of a text of which `line` is read; the last one may lack its
`\n`, and then keeps its `\r`. -/
def linesFrom (line : List Char) : List Char → List (List Char)
  | [] => if line = [] then [] else [line]
  | c :: cs => if c = '\n' then stripCr line :: linesFrom [] cs else linesFrom (line ++ [c]) cs

/-- `str::lines`. -/
def lines (text : String) : List String := (linesFrom [] text.toList).map String.ofList

/-- The lines are made of the characters. -/
theorem mem_linesFrom {line cs : List Char} :
    ∀ l ∈ linesFrom line cs, ∀ c ∈ l, c ∈ line ∨ c ∈ cs := by
  induction cs generalizing line with
  | nil =>
      intro l hl c hc
      rw [linesFrom] at hl
      split at hl
      · contradiction
      · rw [List.mem_singleton.mp hl] at hc
        exact .inl hc
  | cons d cs ih =>
      intro l hl c hc
      rw [linesFrom] at hl
      split at hl
      · cases hl with
        | head =>
            left
            rw [stripCr] at hc
            split at hc
            · exact List.dropLast_subset _ hc
            · exact hc
        | tail _ hl =>
            rcases ih l hl c hc with h | h
            · contradiction
            · exact .inr (.tail _ h)
      · rcases ih l hl c hc with h | h
        · rcases List.mem_append.mp h with h | h
          · exact .inl h
          · rw [List.mem_singleton.mp h]
            exact .inr (.head _)
        · exact .inr (.tail _ h)

/-- What a `data` line carries; other lines carry nothing. -/
def dataLine (line : String) : Option String :=
  (stripPrefix "data: " line).or (stripPrefix "data:" line)

/-- The data of an event with that of one more line. -/
def appendData (data line : String) : String :=
  match dataLine line with
  | some d => if data = "" then d else data ++ "\n" ++ d
  | none => data

/-- The data of an event. -/
def eventData (text : String) : String := (lines text).foldl appendData ""

/-! ## parsing a frame -/

/-- The closure of `parse_sse_stream`. -/
def parseJsonrpcEvent (D : Decoders) (text : String) : Option SseItem :=
  let data := eventData text
  if data = "" then none
  else
    match D.envelope data with
    | some response =>
        match response.error, response.result with
        | some err, _ => some (.error (parseJsonrpcError err))
        | none, some result =>
            match D.fromValue result with
            | .ok event => some (.ok event)
            | .error e => some (.error (.internal s!"SSE parse error: {e}"))
        | none, none => none
    | none =>
        match D.fromStr data with
        | .ok event => some (.ok event)
        | .error e => some (.error (.internal s!"SSE parse error: {e}"))

/-- The closure of `parse_sse_stream_rest`. -/
def parseRestEvent (D : Decoders) (text : String) : Option SseItem :=
  let data := eventData text
  if data = "" then none
  else
    match D.restError data with
    | some err => some (.error err)
    | none =>
        match D.fromStr data with
        | .ok event => some (.ok event)
        | .error e => some (.error (.internal s!"SSE parse error: {e}"))

/-- The item of a complete frame. -/
def parseFrame (parseEvent : String → Option SseItem) (bytes : List UInt8) : Option SseItem :=
  match fromUtf8 bytes with
  | .ok text => parseEvent text
  | .error e =>
      let text := e.display
      some (.error (.internal s!"SSE UTF-8 decode error: {text}"))

/-- `parse_stream_tail`. -/
def parseStreamTail (D : Decoders) (buf : List UInt8) (parseEvent : String → Option SseItem) :
    Option SseItem :=
  match fromUtf8 buf with
  | .error e =>
      let text := e.display
      some (.error (.internal s!"SSE UTF-8 decode error at end of stream: {text}"))
  | .ok text =>
      if trim text.toList = [] then none
      else if (lines text).any fun line => (stripPrefix "data:" line).isSome then parseEvent text
      else
        let count := buf.length
        let unparseable : SseItem := .error (.internal
          (s!"stream ended with {count} unparseable trailing byte(s); the connection was " ++
            "probably cut mid-message"))
        match D.envelope text with
        | none => some unparseable
        | some response =>
            match response.error, response.result with
            | some err, _ => some (.error (parseJsonrpcError err))
            | none, some result =>
                match D.fromValue result with
                | .ok event => some (.ok event)
                | .error e =>
                    some (.error (.internal
                      s!"failed to parse JSON-RPC result at end of stream: {e}"))
            | none, none => some unparseable

/-! ## the reader -/

/-- `parse_sse_bytes` between two polls: what the transport will deliver,
the bytes of no frame yet, and the items parsed but not yielded. -/
structure Reader where
  stream : List (Except String (List UInt8))
  buf : List UInt8
  pending : List SseItem

namespace Reader

variable (D : Decoders) (parseEvent : String → Option SseItem)

/-- The loop of one poll: the next item and the reader after it, or the end.
A transport error is an item like any other. -/
def pollFrom : List (Except String (List UInt8)) → List UInt8 → List SseItem →
    Option (SseItem × Reader)
  | stream, buf, item :: pending => some (item, ⟨stream, buf, pending⟩)
  | .ok chunk :: stream, buf, [] =>
      let drained := eventFrames.drain (buf ++ chunk)
      pollFrom stream drained.2 (drained.1.filterMap (parseFrame parseEvent))
  | .error e :: stream, buf, [] =>
      pollFrom stream buf [.error (.internal s!"SSE stream error: {e}")]
  | [], buf, [] =>
      -- the buffer is taken: polled once more, the reader finds nothing
      (parseStreamTail D buf parseEvent).map fun item => (item, ⟨[], [], []⟩)

def poll (r : Reader) : Option (SseItem × Reader) := pollFrom D parseEvent r.stream r.buf r.pending

/-- A reader of chunks that arrive without an error. -/
def ofChunks (chunks : List (List UInt8)) : Reader := ⟨chunks.map .ok, [], []⟩

/-- The items a reader yields until it ends. -/
inductive Yields : Reader → List SseItem → Prop
  | done {r : Reader} (h : r.poll D parseEvent = none) : Yields r []
  | item {r r' : Reader} {i : SseItem} {items : List SseItem}
      (h : r.poll D parseEvent = some (i, r')) (rest : Yields r' items) : Yields r (i :: items)

end Reader

end A2a
