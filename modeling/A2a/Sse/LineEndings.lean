import A2a.Sse.Chunks

/-!
# A2a.Sse.LineEndings

Event streams whose lines end in LF, CRLF or CR, in any mixture.  The
reader cuts a frame at two equal terminators only, and `str::lines` ends no
line at a lone CR, so what it yields depends on the terminators: an event is
read alike for every content exactly if its style is `EventStyle.Readable`
(`lineEndings_alike_iff`).
-/

namespace A2a

/-! ## event streams -/

/-- A line terminator. -/
inductive Eol
  | lf | crlf | cr
  deriving DecidableEq

def Eol.chars : Eol → List Char
  | .lf => ['\n']
  | .crlf => ['\r', '\n']
  | .cr => ['\r']

/-- Characters without a line break. -/
def Unbroken (cs : List Char) : Prop := ∀ c ∈ cs, c ≠ '\n' ∧ c ≠ '\r'

instance (cs : List Char) : Decidable (Unbroken cs) :=
  List.decidableBAll (fun c => c ≠ '\n' ∧ c ≠ '\r') cs

theorem Unbroken.append {cs cs' : List Char} (h : Unbroken cs) (h' : Unbroken cs') :
    Unbroken (cs ++ cs') := by
  intro c hc
  rcases List.mem_append.mp hc with hc | hc
  · exact h c hc
  · exact h' c hc

/-- A line of an event: a field or a comment. -/
structure SseLine where
  text : String
  nonempty : text.toList ≠ []
  unbroken : Unbroken text.toList

/-- An event as it is written: its lines, and the blank line that ends it. -/
structure SseEvent where
  inner : List (SseLine × Eol)
  last : SseLine
  lastEol : Eol
  blank : Eol

/-- The terminators of an event. -/
structure EventStyle where
  inner : List Eol
  last : Eol
  blank : Eol
  deriving DecidableEq

namespace SseEvent

def style (e : SseEvent) : EventStyle := ⟨e.inner.map Prod.snd, e.lastEol, e.blank⟩

/-- The event with LF after each line. -/
def withLf (e : SseEvent) : SseEvent := ⟨e.inner.map fun l => (l.1, .lf), e.last, .lf, .lf⟩

/-- The texts of the lines. -/
def texts (e : SseEvent) : List String := e.inner.map (fun l => l.1.text) ++ [e.last.text]

/-- The lines, without the last terminator. -/
def body (e : SseEvent) : List Char :=
  e.inner.flatMap (fun l => l.1.text.toList ++ l.2.chars) ++ e.last.text.toList

def chars (e : SseEvent) : List Char := e.body ++ (e.lastEol.chars ++ e.blank.chars)

end SseEvent

/-- `as_bytes` on characters. -/
def bytesOf (cs : List Char) : List UInt8 := cs.flatMap String.utf8EncodeChar

/-- The bytes of a stream of events. -/
def encode (events : List SseEvent) : List UInt8 := bytesOf (events.flatMap SseEvent.chars)

/-- A style the reader gets right: no line inside the event ends in a lone
CR, and the last line and the blank one end in the same way, or in CR and
CRLF. -/
def EventStyle.Readable (s : EventStyle) : Prop :=
  Eol.cr ∉ s.inner ∧
    (s.last, s.blank) ∈ [(Eol.lf, Eol.lf), (.crlf, .crlf), (.cr, .cr), (.cr, .crlf)]

instance (s : EventStyle) : Decidable s.Readable := inferInstanceAs (Decidable (_ ∧ _))

/-- The two readers. -/
inductive SseBinding
  | jsonrpc | rest
  deriving DecidableEq

/-- The frame parser of a binding. -/
def SseBinding.parseEvent (b : SseBinding) (D : Decoders) : String → Option SseItem :=
  match b with
  | .jsonrpc => parseJsonrpcEvent D
  | .rest => parseRestEvent D

/-- Whether a reader yields the same from two byte sequences, however they
arrive. -/
def ReadAlike (D : Decoders) (b : SseBinding) (bytes bytes' : List UInt8) : Prop :=
  ∀ chunks chunks' : List (List UInt8), chunks.flatten = bytes → chunks'.flatten = bytes' →
    ∀ items, (Reader.ofChunks chunks).Yields D (b.parseEvent D) items ↔
      (Reader.ofChunks chunks').Yields D (b.parseEvent D) items

theorem readAlike_iff {D : Decoders} {b : SseBinding} {bytes bytes' : List UInt8} :
    ReadAlike D b bytes bytes' ↔
      Reader.items D (b.parseEvent D) bytes = Reader.items D (b.parseEvent D) bytes' := by
  constructor
  · intro h
    have hsame := h [bytes] [bytes'] (List.append_nil _) (List.append_nil _)
      (Reader.items D (b.parseEvent D) bytes)
    rw [Reader.yields_iff, Reader.yields_iff, List.flatten_cons, List.flatten_nil,
      List.append_nil, List.flatten_cons, List.flatten_nil, List.append_nil] at hsame
    exact hsame.mp rfl
  · intro h chunks chunks' hchunks hchunks' items
    rw [Reader.yields_iff, Reader.yields_iff, hchunks, hchunks', h]

/-! ## bytes without a separator -/

/-- No separator begins within `bytes`, with `after` behind them. -/
def Unseparated : List UInt8 → List UInt8 → Prop
  | [], _ => True
  | b :: bytes, after => boundaryAt (b :: (bytes ++ after)) = none ∧ Unseparated bytes after

theorem Unseparated.append {bytes bytes' after : List UInt8}
    (h : Unseparated bytes (bytes' ++ after)) (h' : Unseparated bytes' after) :
    Unseparated (bytes ++ bytes') after := by
  induction bytes with
  | nil => exact h'
  | cons b bytes ih =>
      rw [List.cons_append]
      refine ⟨?_, ih h.2⟩
      rw [List.append_assoc]
      exact h.1

theorem Unseparated.boundaryAt_drop {bytes after : List UInt8} (h : Unseparated bytes after) :
    ∀ i < bytes.length, boundaryAt ((bytes ++ after).drop i) = none := by
  induction bytes with
  | nil =>
      intro i hi
      contradiction
  | cons b bytes ih =>
      intro i hi
      cases i with
      | zero => exact h.1
      | succ i => exact ih h.2 i (Nat.lt_of_succ_lt_succ hi)

/-- A byte of no terminator begins no separator. -/
theorem boundaryAt_text {b : UInt8} (hlf : b ≠ lf) (hcr : b ≠ cr) (bytes : List UInt8) :
    boundaryAt (b :: bytes) = none := by
  simp only [boundaryAt, List.cons_prefix_cons, hlf.symm, hcr.symm, false_and, if_false]

theorem boundaryAt_lf {b : UInt8} (hlf : b ≠ lf) (bytes : List UInt8) :
    boundaryAt (lf :: b :: bytes) = none := by
  have hlfcr : cr ≠ lf := by decide
  simp [boundaryAt, List.cons_prefix_cons, hlf.symm, hlfcr]

theorem boundaryAt_cr {b : UInt8} (hlf : b ≠ lf) (hcr : b ≠ cr) (bytes : List UInt8) :
    boundaryAt (cr :: b :: bytes) = none := by
  have hlfcr : lf ≠ cr := by decide
  simp [boundaryAt, List.cons_prefix_cons, hlf.symm, hcr.symm, hlfcr]

theorem boundaryAt_crlf {b : UInt8} (hcr : b ≠ cr) (bytes : List UInt8) :
    boundaryAt (cr :: lf :: b :: bytes) = none := by
  have hlfcr : lf ≠ cr := by decide
  simp [boundaryAt, List.cons_prefix_cons, hcr.symm, hlfcr, hlfcr.symm]

theorem boundaryAt_crlfcr {b : UInt8} (hlf : b ≠ lf) (bytes : List UInt8) :
    boundaryAt (cr :: lf :: cr :: b :: bytes) = none := by
  have hlfcr : lf ≠ cr := by decide
  simp [boundaryAt, List.cons_prefix_cons, hlf.symm, hlfcr, hlfcr.symm]

/-- A terminator before a byte of the next line begins no separator. -/
theorem unseparated_eol {eol : Eol} (hne : eol ≠ .cr) {b : UInt8} (hlf : b ≠ lf) (hcr : b ≠ cr)
    (bytes : List UInt8) : Unseparated (bytesOf eol.chars) (b :: bytes) := by
  cases eol with
  | lf => exact ⟨boundaryAt_lf hlf bytes, trivial⟩
  | crlf => exact ⟨boundaryAt_crlf hcr bytes, boundaryAt_lf hlf bytes, trivial⟩
  | cr => contradiction

theorem unseparated_text {bytes : List UInt8} (h : ∀ b ∈ bytes, b ≠ lf ∧ b ≠ cr)
    (after : List UInt8) : Unseparated bytes after := by
  induction bytes with
  | nil => trivial
  | cons b bytes ih =>
      have hb := h b (.head _)
      exact ⟨boundaryAt_text hb.1 hb.2 _, ih fun b' hb' => h b' (.tail _ hb')⟩

/-- The loop takes a frame out of the buffer. -/
theorem drain_frame {frame separator after : List UInt8} (hmem : separator ∈ separators)
    (h : Unseparated frame (separator ++ after)) :
    eventFrames.drain (frame ++ separator ++ after) =
      (frame :: (eventFrames.drain after).1, (eventFrames.drain after).2) := by
  have hfind : findEventBoundary (frame ++ separator ++ after) =
      some (frame.length, frame.length + separator.length) := by
    apply findEventBoundary_frame hmem
    intro i hi
    rw [List.append_assoc, ← boundaryAt_eq_none]
    exact h.boundaryAt_drop i hi
  rw [eventFrames.drain_some hfind, List.append_assoc, List.take_left, ← List.append_assoc,
    ← List.length_append, List.drop_left]

/-! ## the bytes of a line -/

theorem bytesOf_append (cs cs' : List Char) : bytesOf (cs ++ cs') = bytesOf cs ++ bytesOf cs' :=
  List.flatMap_append

@[simp] theorem bytesOf_nil : bytesOf [] = [] := rfl

@[simp] theorem encode_nil : encode [] = [] := rfl

theorem encode_cons (e : SseEvent) (events : List SseEvent) :
    encode (e :: events) = bytesOf e.chars ++ encode events := by
  rw [encode, List.flatMap_cons, bytesOf_append, encode]

theorem encode_append (events events' : List SseEvent) :
    encode (events ++ events') = encode events ++ encode events' := by
  rw [encode, List.flatMap_append, bytesOf_append, encode, encode]

theorem fromUtf8_bytesOf (cs : List Char) : fromUtf8 (bytesOf cs) = .ok (String.ofList cs) := by
  rw [fromUtf8, bytesOf, fromUtf8From_flatMap]
  rfl

theorem SseLine.mem_bytes (l : SseLine) {b : UInt8} (h : b ∈ bytesOf l.text.toList) :
    b ≠ lf ∧ b ≠ cr := by
  obtain ⟨c, hc, hb⟩ := List.mem_flatMap.mp h
  have hunbroken := l.unbroken c hc
  constructor
  · rintro rfl
    have hnat := mem_utf8EncodeChar (by decide) hb
    exact hunbroken.1 (Char.toNat_inj.mp hnat)
  · rintro rfl
    have hnat := mem_utf8EncodeChar (by decide) hb
    exact hunbroken.2 (Char.toNat_inj.mp hnat)

theorem SseLine.bytes_cons (l : SseLine) :
    ∃ b bytes, bytesOf l.text.toList = b :: bytes ∧ b ≠ lf ∧ b ≠ cr := by
  cases hbytes : bytesOf l.text.toList with
  | nil =>
      exfalso
      obtain ⟨c, cs, hcs⟩ := List.exists_cons_of_ne_nil l.nonempty
      rw [hcs, bytesOf, List.flatMap_cons, List.append_eq_nil_iff] at hbytes
      exact utf8EncodeChar_ne_nil c hbytes.1
  | cons b bytes =>
      have hb : b ∈ bytesOf l.text.toList := by
        rw [hbytes]
        exact .head _
      exact ⟨b, bytes, rfl, l.mem_bytes hb⟩

/-! ## the lines of a frame -/

theorem linesFrom_text {l : List Char} (h : ∀ c ∈ l, c ≠ '\n') (line rest : List Char) :
    linesFrom line (l ++ rest) = linesFrom (line ++ l) rest := by
  induction l generalizing line with
  | nil => rw [List.append_nil, List.nil_append]
  | cons c l ih =>
      rw [List.cons_append, linesFrom, if_neg (h c (.head _)), ih fun c' hc' => h c' (.tail _ hc'),
        List.append_assoc, List.singleton_append]

theorem SseLine.stripCr_text (l : SseLine) : stripCr l.text.toList = l.text.toList := by
  apply if_neg
  intro h
  exact (l.unbroken _ (List.mem_of_getLast? h)).2 rfl

/-- A line with its terminator is one line, unless that is a lone CR. -/
theorem linesFrom_line (l : SseLine) {eol : Eol} (hne : eol ≠ .cr) (rest : List Char) :
    linesFrom [] (l.text.toList ++ eol.chars ++ rest) = l.text.toList :: linesFrom [] rest := by
  rw [List.append_assoc, linesFrom_text fun c hc => (l.unbroken c hc).1, List.nil_append]
  cases eol with
  | lf =>
      show linesFrom l.text.toList ('\n' :: rest) = _
      rw [linesFrom, if_pos rfl, l.stripCr_text]
  | crlf =>
      show linesFrom l.text.toList ('\r' :: '\n' :: rest) = _
      rw [linesFrom, if_neg (by decide), linesFrom, if_pos rfl, stripCr,
        if_pos List.getLast?_concat, List.dropLast_concat]
  | cr => contradiction

/-- The lines of a body that has no lone CR. -/
theorem linesFrom_body (inner : List (SseLine × Eol)) (h : ∀ l ∈ inner, l.2 ≠ .cr)
    (rest : List Char) :
    linesFrom [] (inner.flatMap (fun l => l.1.text.toList ++ l.2.chars) ++ rest) =
      inner.map (fun l => l.1.text.toList) ++ linesFrom [] rest := by
  induction inner with
  | nil => rfl
  | cons l inner ih =>
      rw [List.flatMap_cons, List.append_assoc, linesFrom_line l.1 (h l (.head _)),
        ih fun l' hl' => h l' (.tail _ hl')]
      rfl

theorem linesFrom_last (l : SseLine) : linesFrom [] l.text.toList = [l.text.toList] := by
  have hlines := linesFrom_text (fun c hc => (l.unbroken c hc).1) [] []
  rw [List.append_nil, List.nil_append] at hlines
  rw [hlines, linesFrom, if_neg l.nonempty]

/-- Whether a line feed left of the event before leads the frame. -/
def lead (left : Bool) : List Char := if left then ['\n'] else []

/-- A leading line feed changes no data. -/
theorem eventData_lead (left : Bool) (cs : List Char) :
    eventData (String.ofList (lead left ++ cs)) = eventData (String.ofList cs) := by
  cases left with
  | false => rfl
  | true =>
      rw [eventData, eventData, lines, lines, String.toList_ofList, String.toList_ofList]
      show ((linesFrom [] ('\n' :: cs)).map String.ofList).foldl appendData "" = _
      rw [linesFrom, if_pos rfl]
      rfl

theorem eventData_body (e : SseEvent) (h : Eol.cr ∉ e.style.inner) (left : Bool) :
    eventData (String.ofList (lead left ++ e.body)) = e.texts.foldl appendData "" := by
  have hinner : ∀ l ∈ e.inner, l.2 ≠ .cr := by
    intro l hl hcr
    exact h (List.mem_map.mpr ⟨l, hl, hcr⟩)
  have hbody : (linesFrom [] e.body).map String.ofList = e.texts := by
    rw [SseEvent.body, linesFrom_body e.inner hinner, linesFrom_last, List.map_append, List.map_map,
      SseEvent.texts]
    simp only [Function.comp_def, String.ofList_toList, List.map_cons, List.map_nil]
  rw [eventData_lead, eventData, lines, String.toList_ofList, hbody]

/-- A frame parser sees the data only. -/
theorem SseBinding.parseEvent_congr (b : SseBinding) (D : Decoders) {text text' : String}
    (h : eventData text = eventData text') : b.parseEvent D text = b.parseEvent D text' := by
  cases b with
  | jsonrpc => simp only [parseEvent, parseJsonrpcEvent, h]
  | rest => simp only [parseEvent, parseRestEvent, h]

/-- Without data there is no item. -/
theorem SseBinding.parseEvent_none (b : SseBinding) (D : Decoders) {text : String} (h : eventData text = "") :
    b.parseEvent D text = none := by
  cases b with
  | jsonrpc => simp only [parseEvent, parseJsonrpcEvent, h, if_true]
  | rest => simp only [parseEvent, parseRestEvent, h, if_true]

/-! ## `data` lines -/

/-- The line that carries a text as data. -/
def SseLine.data (l : SseLine) : SseLine where
  text := "data: " ++ l.text
  nonempty := by
    rw [String.toList_append]
    exact fun h => absurd (List.append_eq_nil_iff.mp h).1 (by decide)
  unbroken := by
    rw [String.toList_append]
    exact Unbroken.append (by decide) l.unbroken

theorem appendData_data (s : String) : appendData "" ("data: " ++ s) = s := by
  rw [appendData, dataLine, stripPrefix_eq_some.mpr rfl]
  rfl

/-! ## reading an event -/

theorem SseEvent.body_cons (e : SseEvent) :
    ∃ b bytes, bytesOf e.body = b :: bytes ∧ b ≠ lf ∧ b ≠ cr := by
  rw [SseEvent.body]
  cases e.inner with
  | nil => exact e.last.bytes_cons
  | cons l inner =>
      obtain ⟨b, bytes, hbytes, hlf, hcr⟩ := l.1.bytes_cons
      rw [List.flatMap_cons, List.append_assoc, List.append_assoc, bytesOf_append, hbytes]
      exact ⟨b, _, rfl, hlf, hcr⟩

/-- The lines before the last hold no separator. -/
theorem unseparated_inner (inner : List (SseLine × Eol)) (h : ∀ l ∈ inner, l.2 ≠ .cr)
    {b : UInt8} (hlf : b ≠ lf) (hcr : b ≠ cr) (bytes : List UInt8) :
    Unseparated (bytesOf (inner.flatMap fun l => l.1.text.toList ++ l.2.chars)) (b :: bytes) ∧
      ∃ b' bytes', bytesOf (inner.flatMap fun l => l.1.text.toList ++ l.2.chars) ++ b :: bytes =
        b' :: bytes' ∧ b' ≠ lf ∧ b' ≠ cr := by
  induction inner with
  | nil => exact ⟨trivial, b, bytes, rfl, hlf, hcr⟩
  | cons l inner ih =>
      obtain ⟨hrest, b', bytes', hcons, hlf', hcr'⟩ := ih fun l' hl' => h l' (.tail _ hl')
      obtain ⟨t, text, htext, htlf, htcr⟩ := l.1.bytes_cons
      rw [List.flatMap_cons, bytesOf_append, bytesOf_append, List.append_assoc]
      constructor
      · apply (unseparated_text (fun b hb => l.1.mem_bytes hb) _).append
        apply Unseparated.append _ hrest
        rw [hcons]
        exact unseparated_eol (h l (.head _)) hlf' hcr' bytes'
      · rw [htext]
        exact ⟨t, _, rfl, htlf, htcr⟩

theorem unseparated_lead (left : Bool) {b : UInt8} (hlf : b ≠ lf) (hcr : b ≠ cr)
    (bytes : List UInt8) : Unseparated (bytesOf (lead left)) (b :: bytes) := by
  cases left with
  | false => trivial
  | true =>
      have hne : Eol.lf ≠ .cr := by decide
      exact unseparated_eol hne hlf hcr bytes

/-- No separator begins in a body without a lone CR. -/
theorem unseparated_body (e : SseEvent) (h : Eol.cr ∉ e.style.inner) (left : Bool)
    (after : List UInt8) : Unseparated (bytesOf (lead left ++ e.body)) after := by
  have hinner : ∀ l ∈ e.inner, l.2 ≠ .cr := by
    intro l hl hcr
    exact h (List.mem_map.mpr ⟨l, hl, hcr⟩)
  obtain ⟨b, bytes, hbody, hlf, hcr⟩ := e.body_cons
  obtain ⟨t, text, htext, htlf, htcr⟩ := e.last.bytes_cons
  rw [bytesOf_append]
  apply Unseparated.append
  · rw [hbody]
    exact unseparated_lead left hlf hcr _
  · rw [SseEvent.body, bytesOf_append]
    apply Unseparated.append
    · rw [htext]
      exact (unseparated_inner e.inner hinner htlf htcr _).1
    · exact unseparated_text (fun b hb => e.last.mem_bytes hb) _

/-- Whether a style leaves a line feed to the next event: of `\r\r\n`, the
reader takes `\r\r`. -/
def EventStyle.leaves (s : EventStyle) : Bool :=
  match s.last, s.blank with
  | .cr, .crlf => true
  | _, _ => false

/-- An event of a readable style is one frame. -/
theorem drain_event (e : SseEvent) (h : e.style.Readable) (left : Bool) (rest : List UInt8) :
    eventFrames.drain (bytesOf (lead left ++ e.chars) ++ rest) =
      (bytesOf (lead left ++ e.body) ::
          (eventFrames.drain (bytesOf (lead e.style.leaves) ++ rest)).1,
        (eventFrames.drain (bytesOf (lead e.style.leaves) ++ rest)).2) := by
  have hunseparated := unseparated_body e h.1 left
  have hlf : [lf, lf] ∈ separators := by decide
  have hcr : [cr, cr] ∈ separators := by decide
  have hcrlf : [cr, lf, cr, lf] ∈ separators := by decide
  have hends := h.2
  rw [SseEvent.chars, ← List.append_assoc, bytesOf_append]
  obtain ⟨inner, last, lastEol, blank⟩ := e
  simp only [SseEvent.style, List.mem_cons, List.not_mem_nil, or_false, Prod.mk.injEq] at hends
  rcases hends with ⟨rfl, rfl⟩ | ⟨rfl, rfl⟩ | ⟨rfl, rfl⟩ | ⟨rfl, rfl⟩
  · exact drain_frame hlf (hunseparated _)
  · exact drain_frame hcrlf (hunseparated _)
  · exact drain_frame hcr (hunseparated _)
  · have hdrain := drain_frame hcr (hunseparated ([cr, cr] ++ lf :: rest))
    rw [List.append_assoc] at hdrain ⊢
    exact hdrain

/-- The item of an event. -/
def SseBinding.eventItem (b : SseBinding) (D : Decoders) (e : SseEvent) : Option SseItem :=
  b.parseEvent D (String.ofList e.withLf.body)

theorem SseEvent.withLf_readable (e : SseEvent) : e.withLf.style.Readable := by
  refine ⟨?_, .head _⟩
  intro hcr
  obtain ⟨l, hl, heq⟩ := List.mem_map.mp hcr
  obtain ⟨l', -, rfl⟩ := List.mem_map.mp hl
  contradiction

theorem SseEvent.withLf_texts (e : SseEvent) : e.withLf.texts = e.texts := by
  rw [SseEvent.texts, SseEvent.withLf, List.map_map]
  rfl

/-- The data of an event with LF line ends. -/
theorem eventData_withLf (e : SseEvent) :
    eventData (String.ofList e.withLf.body) = e.texts.foldl appendData "" := by
  rw [← e.withLf_texts]
  exact eventData_body e.withLf e.withLf_readable.1 false

/-- The frame of an event parses to its item. -/
theorem parseFrame_body (b : SseBinding) (D : Decoders) (e : SseEvent)
    (h : Eol.cr ∉ e.style.inner) (left : Bool) :
    parseFrame (b.parseEvent D) (bytesOf (lead left ++ e.body)) = b.eventItem D e := by
  rw [parseFrame, fromUtf8_bytesOf, SseBinding.eventItem]
  apply b.parseEvent_congr
  have hplain := eventData_body e.withLf e.withLf_readable.1 false
  rw [eventData_body e h, ← e.withLf_texts]
  exact hplain.symm

namespace Reader

/-- Reading the frames one after another. -/
theorem items_of_drain {D : Decoders} {parseEvent : String → Option SseItem}
    {bytes frame rest : List UInt8}
    (h : eventFrames.drain bytes =
      (frame :: (eventFrames.drain rest).1, (eventFrames.drain rest).2)) :
    items D parseEvent bytes = (parseFrame parseEvent frame).toList ++ items D parseEvent rest := by
  rw [items, h, items, List.filterMap_cons]
  cases parseFrame parseEvent frame <;> rfl

/-- A tail of white space yields nothing. -/
theorem parseStreamTail_blank {D : Decoders} {parseEvent : String → Option SseItem}
    {cs : List Char} (h : trim cs = []) : parseStreamTail D (bytesOf cs) parseEvent = none := by
  rw [parseStreamTail, fromUtf8_bytesOf]
  dsimp only
  rw [String.toList_ofList, if_pos h]

/-- Only a line feed left of the last event yields nothing. -/
theorem items_lead (D : Decoders) (parseEvent : String → Option SseItem) (left : Bool) :
    items D parseEvent (bytesOf (lead left)) = [] := by
  have hfind : eventFrames.find (bytesOf (lead left)) = none := by
    cases left <;> rfl
  have htrim : trim (lead left) = [] := by
    cases left <;> rfl
  rw [items, eventFrames.drain_none hfind, parseStreamTail_blank htrim]
  rfl

/-- Events of readable styles yield their items. -/
theorem items_encode {D : Decoders} {b : SseBinding} (events : List SseEvent)
    (h : ∀ e ∈ events, e.style.Readable) (left : Bool) :
    ∃ left', ∀ rest,
      items D (b.parseEvent D) (bytesOf (lead left) ++ (encode events ++ rest)) =
        events.filterMap (b.eventItem D) ++
          items D (b.parseEvent D) (bytesOf (lead left') ++ rest) := by
  induction events generalizing left with
  | nil => exact ⟨left, fun rest => rfl⟩
  | cons e events ih =>
      have he := h e (.head _)
      obtain ⟨left', hrest⟩ := ih (fun e' he' => h e' (.tail _ he')) e.style.leaves
      refine ⟨left', fun rest => ?_⟩
      have hbytes : bytesOf (lead left) ++ (encode (e :: events) ++ rest) =
          bytesOf (lead left ++ e.chars) ++ (encode events ++ rest) := by
        rw [encode_cons, bytesOf_append]
        simp only [List.append_assoc]
      rw [hbytes, items_of_drain (drain_event e he left _), parseFrame_body b D e he.1, hrest,
        List.filterMap_cons, ← List.append_assoc]
      cases b.eventItem D e <;> rfl

theorem items_readable {D : Decoders} {b : SseBinding} {events : List SseEvent}
    (h : ∀ e ∈ events, e.style.Readable) :
    items D (b.parseEvent D) (encode events) = events.filterMap (b.eventItem D) := by
  obtain ⟨left', hitems⟩ := items_encode events h false
  have hend := hitems []
  rw [List.append_nil, List.append_nil, items_lead, List.append_nil] at hend
  exact hend

end Reader

theorem SseBinding.eventItem_withLf (b : SseBinding) (D : Decoders) (e : SseEvent) :
    b.eventItem D e.withLf = b.eventItem D e := by
  have hbody : e.withLf.withLf = e.withLf := by
    rw [SseEvent.withLf, SseEvent.withLf, List.map_map]
    rfl
  rw [SseBinding.eventItem, hbody]
  rfl

/-- **Events of readable styles read as they do with LF.** -/
theorem readAlike_of_readable (D : Decoders) (b : SseBinding) {events : List SseEvent}
    (h : ∀ e ∈ events, e.style.Readable) :
    ReadAlike D b (encode events) (encode (events.map SseEvent.withLf)) := by
  have hlf : ∀ e ∈ events.map SseEvent.withLf, e.style.Readable := by
    intro e he
    obtain ⟨e', -, rfl⟩ := List.mem_map.mp he
    exact e'.withLf_readable
  rw [readAlike_iff, Reader.items_readable h, Reader.items_readable hlf, List.filterMap_map]
  exact (List.filterMap_congr fun e _ => b.eventItem_withLf D e).symm

end A2a
