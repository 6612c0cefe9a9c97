import A2a.Sse.LineEndings
import Mathlib.Data.List.TakeWhile

/-!
# A2a.Sse.Unreadable

Each style that is not readable has contents the reader gets wrong: a `data`
line behind a lone CR is lost, two events between which no boundary is seen
become one, a comment after which none is seen is reported as a cut stream,
and an empty `data` line keeps its `\r`.

The other lines of these streams are comments, so what the reader makes of
the rest does not matter.
-/

namespace A2a

/-! ## what the decoders reject -/

/-- No decoder takes the text. -/
def Decoders.Rejects (D : Decoders) (text : String) : Prop :=
  D.envelope text = none ∧ D.restEnvelope text = none ∧ ∃ e, D.fromStr text = .error e

/-- A text of colons and line breaks. -/
def Quiet (cs : List Char) : Prop := ∀ c ∈ cs, c = ':' ∨ c = '\r' ∨ c = '\n'

instance (cs : List Char) : Decidable (Quiet cs) :=
  List.decidableBAll (fun c => c = ':' ∨ c = '\r' ∨ c = '\n') cs

/-- The decoders of JSON: some text is an event, it is none with a colon
after it, and no JSON consists of colons and line breaks. -/
structure JsonDecoders extends Decoders where
  sample : SseLine
  event : StreamResponse
  envelope_sample : toDecoders.envelope sample.text = none
  restEnvelope_sample : toDecoders.restEnvelope sample.text = none
  fromStr_sample : toDecoders.fromStr sample.text = .ok event
  rejects_trailing (more : String) : toDecoders.Rejects (sample.text ++ "\r:" ++ more)
  rejects_quiet (text : String) (h : Quiet text.toList) : toDecoders.Rejects text

namespace SseBinding

theorem parseEvent_rejects (b : SseBinding) {D : Decoders} {text : String}
    (hne : eventData text ≠ "") (h : D.Rejects (eventData text)) :
    ∃ e, b.parseEvent D text = some (.error e) := by
  obtain ⟨henvelope, hrest, e, hfrom⟩ := h
  cases b with
  | jsonrpc => simp [parseEvent, parseJsonrpcEvent, hne, henvelope, hfrom]
  | rest => simp [parseEvent, parseRestEvent, hne, Decoders.restError, hrest, hfrom]

theorem parseEvent_sample (b : SseBinding) (D : JsonDecoders) {text : String}
    (h : eventData text = D.sample.text) :
    b.parseEvent D.toDecoders text = some (.ok D.event) := by
  have hne : D.sample.text ≠ "" := by
    intro hempty
    exact D.sample.nonempty (by rw [hempty]; rfl)
  cases b with
  | jsonrpc =>
      simp [parseEvent, parseJsonrpcEvent, h, hne, D.envelope_sample, D.fromStr_sample]
  | rest =>
      simp [parseEvent, parseRestEvent, h, hne, Decoders.restError, D.restEnvelope_sample,
        D.fromStr_sample]

end SseBinding

/-! ## lines that carry no data -/

/-- A line without a `d` is no `data` line. -/
theorem stripPrefix_eq_none {lead line : String} {c : Char} (h : c ∈ lead.toList)
    (hline : c ∉ line.toList) : stripPrefix lead line = none := by
  rw [stripPrefix, if_neg]
  intro hbegins
  exact hline ((List.isPrefixOf_iff_prefix.mp hbegins).subset h)

theorem dataLine_eq_none {line : List Char} (h : Quiet line) :
    dataLine (String.ofList line) = none := by
  have hd : 'd' ∉ (String.ofList line).toList := by
    rw [String.toList_ofList]
    intro hmem
    have := h 'd' hmem
    revert this
    decide
  rw [dataLine, stripPrefix_eq_none (c := 'd') (by decide) hd,
    stripPrefix_eq_none (c := 'd') (by decide) hd]
  rfl

theorem foldl_appendData_quiet {ls : List (List Char)} (h : ∀ l ∈ ls, Quiet l) (data : String) :
    (ls.map String.ofList).foldl appendData data = data := by
  induction ls with
  | nil => rfl
  | cons l ls ih =>
      rw [List.map_cons, List.foldl_cons, appendData, dataLine_eq_none (h l (.head _))]
      exact ih fun l' hl' => h l' (.tail _ hl')

theorem quiet_linesFrom {cs : List Char} (h : Quiet cs) : ∀ l ∈ linesFrom [] cs, Quiet l := by
  intro l hl c hc
  rcases mem_linesFrom l hl c hc with hnil | hcs
  · contradiction
  · exact h c hcs

theorem eventData_quiet {cs : List Char} (h : Quiet cs) : eventData (String.ofList cs) = "" := by
  rw [eventData, lines, String.toList_ofList, foldl_appendData_quiet (quiet_linesFrom h)]

/-! ## comments yield no event -/

/-- Bytes of colons and line breaks. -/
def QuietBytes (bytes : List UInt8) : Prop := ∀ b ∈ bytes, b = 58 ∨ b = cr ∨ b = lf

theorem QuietBytes.exists_chars {bytes : List UInt8} (h : QuietBytes bytes) :
    ∃ cs, bytes = bytesOf cs ∧ Quiet cs := by
  induction bytes with
  | nil => exact ⟨[], rfl, fun c hc => absurd hc List.not_mem_nil⟩
  | cons b bytes ih =>
      obtain ⟨cs, rfl, hcs⟩ := ih fun b' hb' => h b' (.tail _ hb')
      have hcons : ∀ c : Char, (c = ':' ∨ c = '\r' ∨ c = '\n') → Quiet (c :: cs) := by
        intro c hc c' hc'
        cases hc' with
        | head => exact hc
        | tail _ hc' => exact hcs c' hc'
      rcases h b (.head _) with rfl | rfl | rfl
      · exact ⟨':' :: cs, rfl, hcons _ (.inl rfl)⟩
      · exact ⟨'\r' :: cs, rfl, hcons _ (.inr (.inl rfl))⟩
      · exact ⟨'\n' :: cs, rfl, hcons _ (.inr (.inr rfl))⟩

theorem Quiet.bytes {cs : List Char} (h : Quiet cs) : QuietBytes (bytesOf cs) := by
  intro b hb
  obtain ⟨c, hc, hmem⟩ := List.mem_flatMap.mp hb
  rcases h c hc with rfl | rfl | rfl
  · exact .inl (List.mem_singleton.mp hmem)
  · exact .inr (.inl (List.mem_singleton.mp hmem))
  · exact .inr (.inr (List.mem_singleton.mp hmem))

/-- A tail of colons and line breaks is reported, unless it is blank. -/
theorem parseStreamTail_quiet (D : JsonDecoders) (parseEvent : String → Option SseItem)
    {cs : List Char} (h : Quiet cs) (hne : trim cs ≠ []) :
    ∃ e, parseStreamTail D.toDecoders (bytesOf cs) parseEvent = some (.error e) := by
  have hdata : (lines (String.ofList cs)).any
      (fun line => (stripPrefix "data:" line).isSome) = false := by
    rw [List.any_eq_false]
    intro line hline
    rw [lines, String.toList_ofList] at hline
    obtain ⟨l, hl, rfl⟩ := List.mem_map.mp hline
    rw [stripPrefix_eq_none (c := 'd') (by decide)]
    · exact Bool.false_ne_true
    · rw [String.toList_ofList]
      intro hd
      have := quiet_linesFrom h l hl 'd' hd
      revert this
      decide
  have henvelope := (D.rejects_quiet (String.ofList cs) (by
    rw [String.toList_ofList]
    exact h)).1
  rw [parseStreamTail, fromUtf8_bytesOf]
  dsimp only
  rw [String.toList_ofList, if_neg hne, hdata, if_neg Bool.false_ne_true, henvelope]
  exact ⟨_, rfl⟩

/-- How many events are among the items. -/
def countEvents (items : List SseItem) : Nat := items.countP Except.isOk

theorem countEvents_append (items items' : List SseItem) :
    countEvents (items ++ items') = countEvents items + countEvents items' :=
  List.countP_append

theorem countEvents_toList_le (item : Option SseItem) : countEvents item.toList ≤ 1 := by
  cases item with
  | none => exact Nat.zero_le 1
  | some item => exact List.countP_le_length

theorem countEvents_error {item : Option SseItem} (h : ∀ event, item ≠ some (.ok event)) :
    countEvents item.toList = 0 := by
  cases item with
  | none => rfl
  | some item =>
      cases item with
      | error e => rfl
      | ok event => exact absurd rfl (h event)

/-- Comments yield no event, whatever their frames. -/
theorem countEvents_quiet (D : JsonDecoders) (b : SseBinding) {bytes : List UInt8}
    (h : QuietBytes bytes) :
    countEvents (Reader.items D.toDecoders (b.parseEvent D.toDecoders) bytes) = 0 := by
  obtain ⟨hframes, htail⟩ := eventFrames.mem_of_mem_drain bytes
  have hnone : (eventFrames.drain bytes).1.filterMap (parseFrame (b.parseEvent D.toDecoders)) =
      [] := by
    rw [List.filterMap_eq_nil_iff]
    intro frame hframe
    have hquiet : QuietBytes frame := fun x hx => h x (hframes frame hframe x hx)
    obtain ⟨cs, rfl, hcs⟩ := hquiet.exists_chars
    rw [parseFrame, fromUtf8_bytesOf]
    exact b.parseEvent_none D.toDecoders (eventData_quiet hcs)
  have hquiet : QuietBytes (eventFrames.drain bytes).2 := fun x hx => h x (htail x hx)
  obtain ⟨cs, hcs, hquietCs⟩ := hquiet.exists_chars
  rw [Reader.items, hnone, List.nil_append, hcs]
  by_cases htrim : trim cs = []
  · rw [Reader.parseStreamTail_blank htrim]
    rfl
  · obtain ⟨e, he⟩ := parseStreamTail_quiet D (b.parseEvent D.toDecoders) hquietCs htrim
    rw [he]
    rfl

/-! ## the first frame of bytes that begin without a separator -/

/-- Bytes without a separator are in the first frame, or in the tail. -/
theorem items_unseparated {D : Decoders} {parseEvent : String → Option SseItem}
    {bytes after : List UInt8} (h : Unseparated bytes after) :
    Reader.items D parseEvent (bytes ++ after) =
        (parseStreamTail D (bytes ++ after) parseEvent).toList ∨
      ∃ more rest, (∀ x ∈ more, x ∈ after) ∧ (∀ x ∈ rest, x ∈ after) ∧
        Reader.items D parseEvent (bytes ++ after) =
          (parseFrame parseEvent (bytes ++ more)).toList ++ Reader.items D parseEvent rest := by
  cases hfind : findEventBoundary (bytes ++ after) with
  | none =>
      left
      rw [Reader.items, eventFrames.drain_none hfind]
      rfl
  | some boundary =>
      right
      obtain ⟨start, stop⟩ := boundary
      have hle : start ≤ stop := eventFrames.start_le hfind
      have hstart : bytes.length ≤ start := by
        by_contra hlt
        rw [findEventBoundary, findEventBoundaryFrom_eq_some] at hfind
        obtain ⟨k, len, rfl, -, hsome, -⟩ := hfind
        rw [Nat.zero_add] at hlt
        rw [h.boundaryAt_drop k (Nat.lt_of_not_le hlt)] at hsome
        contradiction
      have htake : (bytes ++ after).take start = bytes ++ after.take (start - bytes.length) := by
        rw [List.take_append, List.take_of_length_le hstart]
      have hdrop : (bytes ++ after).drop stop = after.drop (stop - bytes.length) := by
        rw [List.drop_append, List.drop_eq_nil_of_le (Nat.le_trans hstart hle), List.nil_append]
      refine ⟨after.take (start - bytes.length), after.drop (stop - bytes.length),
        fun x hx => List.mem_of_mem_take hx, fun x hx => List.mem_of_mem_drop hx, ?_⟩
      apply Reader.items_of_drain
      rw [eventFrames.drain_some hfind, htake, hdrop]

/-! ## contents of a style -/

/-- The line `:`. -/
def SseLine.comment : SseLine := ⟨":", by decide, by decide⟩

/-- Comments with the given terminators. -/
def comments (eols : List Eol) : List (SseLine × Eol) := eols.map fun eol => (.comment, eol)

/-- The characters of lines. -/
def lineChars (inner : List (SseLine × Eol)) : List Char :=
  inner.flatMap fun l => l.1.text.toList ++ l.2.chars

namespace EventStyle

/-- An event of comments but for its last line. -/
def withLast (s : EventStyle) (l : SseLine) : SseEvent := ⟨comments s.inner, l, s.last, s.blank⟩

/-- An event of comments but for its first line. -/
def withFirst (s : EventStyle) (l : SseLine) : SseEvent :=
  match s.inner with
  | [] => ⟨[], l, s.last, s.blank⟩
  | eol :: inner => ⟨(l, eol) :: comments inner, .comment, s.last, s.blank⟩

theorem style_withLast (s : EventStyle) (l : SseLine) : (s.withLast l).style = s := by
  rw [withLast, SseEvent.style, comments, List.map_map]
  exact congrArg (EventStyle.mk · s.last s.blank) (List.map_id _)

theorem style_withFirst (s : EventStyle) (l : SseLine) : (s.withFirst l).style = s := by
  obtain ⟨inner, last, blank⟩ := s
  cases inner with
  | nil => rfl
  | cons eol inner =>
      show EventStyle.mk (eol :: (comments inner).map Prod.snd) last blank = _
      rw [comments, List.map_map]
      exact congrArg (fun eols => EventStyle.mk (eol :: eols) last blank) (List.map_id _)

end EventStyle

theorem quiet_append {cs cs' : List Char} (h : Quiet cs) (h' : Quiet cs') : Quiet (cs ++ cs') := by
  intro c hc
  rcases List.mem_append.mp hc with hc | hc
  · exact h c hc
  · exact h' c hc

theorem quiet_eol (eol : Eol) : Quiet eol.chars := by
  cases eol <;> decide

theorem quiet_comment : Quiet SseLine.comment.text.toList := by decide

theorem quiet_comments (eols : List Eol) : Quiet (lineChars (comments eols)) := by
  intro c hc
  obtain ⟨l, hl, hmem⟩ := List.mem_flatMap.mp hc
  obtain ⟨eol, -, rfl⟩ := List.mem_map.mp hl
  exact quiet_append quiet_comment (quiet_eol eol) c hmem

/-- Comments up to the last line, then what is behind it. -/
theorem quiet_rest (inner : List Eol) (last blank : Eol) :
    ∃ cs, Quiet cs ∧ lineChars (comments inner) ++ SseLine.comment.text.toList ++
      (last.chars ++ blank.chars) = ':' :: cs := by
  have hends := quiet_append (quiet_eol last) (quiet_eol blank)
  cases inner with
  | nil => exact ⟨_, hends, rfl⟩
  | cons eol inner =>
      refine ⟨_, quiet_append (quiet_eol eol) (quiet_append (quiet_append (quiet_comments inner)
        quiet_comment) hends), ?_⟩
      have hcomment : SseLine.comment.text.toList = [':'] := by decide
      rw [comments, List.map_cons, lineChars, List.flatMap_cons, hcomment]
      simp only [List.append_assoc, List.singleton_append]
      rfl

theorem quiet_withLast (s : EventStyle) : Quiet (s.withLast .comment).chars :=
  quiet_append (quiet_append (quiet_comments s.inner) quiet_comment)
    (quiet_append (quiet_eol s.last) (quiet_eol s.blank))

theorem quiet_encode (styles : List EventStyle) :
    QuietBytes (encode (styles.map fun s => s.withLast .comment)) := by
  apply Quiet.bytes
  intro c hc
  obtain ⟨e, he, hmem⟩ := List.mem_flatMap.mp hc
  obtain ⟨s, -, rfl⟩ := List.mem_map.mp he
  exact quiet_withLast s c hmem

theorem chars_withFirst (s : EventStyle) (l : SseLine) :
    ∃ cs, Quiet cs ∧ (s.withFirst l).chars = l.text.toList ++ cs := by
  have hends := quiet_append (quiet_eol s.last) (quiet_eol s.blank)
  obtain ⟨inner, last, blank⟩ := s
  cases inner with
  | nil => exact ⟨_, hends, rfl⟩
  | cons eol inner =>
      refine ⟨eol.chars ++ (lineChars (comments inner) ++ SseLine.comment.text.toList ++
        (last.chars ++ blank.chars)), ?_, ?_⟩
      · exact quiet_append (quiet_eol eol) (quiet_append (quiet_append (quiet_comments inner)
          quiet_comment) hends)
      · show (l.text.toList ++ eol.chars ++ lineChars (comments inner) ++
          SseLine.comment.text.toList) ++ (last.chars ++ blank.chars) = _
        simp only [List.append_assoc]

/-! ## what the contents mean -/

theorem texts_comments (eols : List Eol) :
    (comments eols).map (fun l => l.1.text) = (eols.map fun _ => [':']).map String.ofList := by
  rw [comments, List.map_map, List.map_map]
  rfl

/-- Comments add no data. -/
theorem foldl_comments (eols : List Eol) (data : String) :
    ((comments eols).map fun l => l.1.text).foldl appendData data = data := by
  rw [texts_comments, foldl_appendData_quiet]
  intro l hl
  obtain ⟨eol, -, rfl⟩ := List.mem_map.mp hl
  exact quiet_comment

theorem appendData_comment (data : String) : appendData data SseLine.comment.text = data := by
  have hnone : dataLine (String.ofList [':']) = none := dataLine_eq_none quiet_comment
  show appendData data (String.ofList [':']) = data
  rw [appendData, hnone]

theorem texts_withLast (s : EventStyle) (l : SseLine) :
    (s.withLast l).texts.foldl appendData "" = appendData "" l.text := by
  rw [SseEvent.texts, EventStyle.withLast, List.foldl_append, foldl_comments]
  rfl

theorem texts_withFirst (s : EventStyle) (l : SseLine) :
    (s.withFirst l).texts.foldl appendData "" = appendData "" l.text := by
  obtain ⟨inner, last, blank⟩ := s
  cases inner with
  | nil => rfl
  | cons eol inner =>
      show (((comments inner).map fun l => l.1.text) ++ [SseLine.comment.text]).foldl appendData
        (appendData "" l.text) = _
      rw [List.foldl_append, foldl_comments]
      exact appendData_comment _

theorem eventItem_comment (b : SseBinding) (D : Decoders) (s : EventStyle) :
    b.eventItem D (s.withLast .comment) = none := by
  apply b.parseEvent_none
  rw [eventData_withLf, texts_withLast, appendData_comment]

theorem filterMap_comments (b : SseBinding) (D : Decoders) (styles : List EventStyle) :
    (styles.map fun s => s.withLast .comment).filterMap (b.eventItem D) = [] := by
  rw [List.filterMap_eq_nil_iff]
  intro e he
  obtain ⟨s, -, rfl⟩ := List.mem_map.mp he
  exact eventItem_comment b D s

theorem eventItem_data (b : SseBinding) (D : JsonDecoders) {e : SseEvent}
    (h : e.texts.foldl appendData "" = appendData "" D.sample.data.text) :
    b.eventItem D.toDecoders e = some (.ok D.event) := by
  apply b.parseEvent_sample
  rw [eventData_withLf, h]
  exact appendData_data _

/-! ## bytes in one frame -/

/-- Without a `data` line there is no data. -/
theorem eventData_of_any {text : String}
    (h : ((lines text).any fun line => (stripPrefix "data:" line).isSome) = false) :
    eventData text = "" := by
  rw [eventData]
  revert h
  induction lines text with
  | nil =>
      intro _
      rfl
  | cons line ls ih =>
      intro h
      rw [List.any_cons, Bool.or_eq_false_iff, Option.isSome_eq_false_iff,
        Option.isNone_iff_eq_none] at h
      have hspace : stripPrefix "data: " line = none := by
        have hdata := h.1
        rw [stripPrefix] at hdata ⊢
        split at hdata
        · contradiction
        · next hbegins =>
            rw [if_neg]
            intro hlong
            apply hbegins
            have hshort : "data:".toList <+: "data: ".toList := by decide
            exact List.isPrefixOf_iff_prefix.mpr
              (hshort.trans (List.isPrefixOf_iff_prefix.mp hlong))
      rw [List.foldl_cons, appendData, dataLine, hspace, h.1]
      exact ih h.2

/-- A tail whose data is rejected yields no event. -/
theorem parseStreamTail_rejects (b : SseBinding) {D : Decoders} {cs : List Char}
    (hne : eventData (String.ofList cs) ≠ "") (h : D.Rejects (eventData (String.ofList cs)))
    (event : StreamResponse) :
    parseStreamTail D (bytesOf cs) (b.parseEvent D) ≠ some (.ok event) := by
  obtain ⟨e, he⟩ := b.parseEvent_rejects hne h
  have hany : ((lines (String.ofList cs)).any fun line => (stripPrefix "data:" line).isSome) =
      true := by
    rw [← Bool.not_eq_false]
    intro hfalse
    exact hne (eventData_of_any hfalse)
  rw [parseStreamTail, fromUtf8_bytesOf]
  dsimp only
  rw [hany, if_pos rfl, he]
  split
  · exact (Option.some_ne_none _).symm
  · intro heq
    cases heq

section OneFrame

variable (D : JsonDecoders) (b : SseBinding) {cs : List Char} {after : List UInt8}

/-- What is in one frame yields one event at most. -/
theorem countEvents_le_one (h : Unseparated (bytesOf cs) after) (hquiet : QuietBytes after) :
    countEvents (Reader.items D.toDecoders (b.parseEvent D.toDecoders) (bytesOf cs ++ after)) ≤
      1 := by
  rcases items_unseparated h with htail | ⟨more, rest, -, hrest, hframe⟩
  · rw [htail]
    exact countEvents_toList_le _
  · rw [hframe, countEvents_append, countEvents_quiet D b fun x hx => hquiet x (hrest x hx)]
    exact countEvents_toList_le _

/-- Rejected data yields no event. -/
theorem countEvents_eq_zero (h : Unseparated (bytesOf cs) after) (hquiet : QuietBytes after)
    (hdata : ∀ more, Quiet more → eventData (String.ofList (cs ++ more)) ≠ "" ∧
      D.toDecoders.Rejects (eventData (String.ofList (cs ++ more)))) :
    countEvents (Reader.items D.toDecoders (b.parseEvent D.toDecoders) (bytesOf cs ++ after)) =
      0 := by
  rcases items_unseparated h with htail | ⟨more, rest, hmore, hrest, hframe⟩
  · rw [htail]
    apply countEvents_error
    obtain ⟨chars, rfl, hchars⟩ := hquiet.exists_chars
    obtain ⟨hne, hrejects⟩ := hdata chars hchars
    rw [← bytesOf_append]
    exact parseStreamTail_rejects b hne hrejects
  · rw [hframe, countEvents_append, countEvents_quiet D b fun x hx => hquiet x (hrest x hx)]
    apply countEvents_error
    obtain ⟨chars, rfl, hchars⟩ := (show QuietBytes more from
      fun x hx => hquiet x (hmore x hx)).exists_chars
    obtain ⟨hne, hrejects⟩ := hdata chars hchars
    obtain ⟨e, he⟩ := b.parseEvent_rejects hne hrejects
    intro event
    rw [← bytesOf_append, parseFrame, fromUtf8_bytesOf]
    dsimp only
    rw [he]
    intro heq
    cases heq

end OneFrame

/-! ## a lone CR inside an event -/

/-- A line that does not end in CR goes on to the next line feed. -/
theorem linesFrom_extend {line : List Char} (hne : line ≠ []) (hlast : line.getLast? ≠ some '\r')
    (s cs : List Char) :
    ∃ s' rest, linesFrom (line ++ s) cs = (line ++ s') :: rest ∧
      ∀ l ∈ rest, ∀ c ∈ l, c ∈ cs := by
  induction cs generalizing s with
  | nil =>
      refine ⟨s, [], ?_, fun l hl => absurd hl List.not_mem_nil⟩
      rw [linesFrom, if_neg fun h => hne (List.append_eq_nil_iff.mp h).1]
  | cons c cs ih =>
      rw [linesFrom]
      split
      · refine ⟨if (line ++ s).getLast? = some '\r' then s.dropLast else s, linesFrom [] cs, ?_, ?_⟩
        · rw [stripCr]
          split
          · next hcr =>
              have hs : s ≠ [] := by
                intro hnil
                rw [hnil, List.append_nil] at hcr
                exact hlast hcr
              rw [List.dropLast_append_of_ne_nil hs]
          · rfl
        · intro l hl c' hc'
          rcases mem_linesFrom l hl c' hc' with h | h
          · contradiction
          · exact .tail _ h
      · obtain ⟨s', rest, heq, hmem⟩ := ih (s ++ [c])
        rw [List.append_assoc, heq]
        exact ⟨s', rest, rfl, fun l hl c' hc' => .tail _ (hmem l hl c' hc')⟩

/-- The line behind a lone CR belongs to the data before it. -/
theorem eventData_loneCr (left : Bool) {u : List Eol} (hu : Eol.cr ∉ u) (l : SseLine)
    {more : List Char} (hmore : Quiet more) :
    ∃ s, eventData (String.ofList ((lead left ++ lineChars (comments u) ++ l.data.text.toList ++
      ['\r', ':']) ++ more)) = l.text ++ "\r:" ++ s := by
  have hcomments : ∀ l ∈ comments u, l.2 ≠ .cr := by
    intro l hl hcr
    obtain ⟨eol, heol, rfl⟩ := List.mem_map.mp hl
    exact hu (hcr ▸ heol)
  have hline : ∀ c ∈ l.data.text.toList ++ ['\r', ':'], c ≠ '\n' := by
    intro c hc
    rcases List.mem_append.mp hc with hc | hc
    · exact (l.data.unbroken c hc).1
    · simp only [List.mem_cons, List.not_mem_nil, or_false] at hc
      rcases hc with rfl | rfl
      all_goals decide
  have hne : l.data.text.toList ++ ['\r', ':'] ≠ [] :=
    fun h => absurd (List.append_eq_nil_iff.mp h).2 (List.cons_ne_nil _ _)
  have hlast : (l.data.text.toList ++ ['\r', ':']).getLast? ≠ some '\r' := by
    have hcolon : ['\r', ':'] = ['\r'] ++ [':'] := rfl
    rw [hcolon, ← List.append_assoc, List.getLast?_concat]
    decide
  obtain ⟨s, rest, hlines, hrest⟩ := linesFrom_extend hne hlast [] more
  refine ⟨String.ofList s, ?_⟩
  have hquiet : ∀ l ∈ rest, Quiet l := fun l hl c hc => hmore c (hrest l hl c hc)
  rw [List.append_nil] at hlines
  rw [List.append_assoc, List.append_assoc, List.append_assoc, eventData_lead,
    ← List.append_assoc l.data.text.toList, eventData, lines, String.toList_ofList, lineChars,
    linesFrom_body _ hcomments, linesFrom_text hline, List.nil_append, hlines, List.map_append,
    List.foldl_append, List.map_cons, List.foldl_cons, foldl_appendData_quiet hquiet]
  have hfold : (((comments u).map fun l => l.1.text.toList).map String.ofList).foldl appendData "" =
      "" := by
    rw [List.map_map]
    simp only [Function.comp_def, String.ofList_toList]
    exact foldl_comments u ""
  have htext : String.ofList (l.data.text.toList ++ ['\r', ':'] ++ s) =
      "data: " ++ (l.text ++ "\r:" ++ String.ofList s) := by
    rw [String.ofList_append, String.ofList_append, String.ofList_toList, SseLine.data]
    simp only [String.append_assoc]
  rw [hfold, htext, appendData_data]

/-! ## the four ways to be wrong -/

/-- White space is what `trim` removes. -/
theorem trim_ne_nil {cs : List Char} {c : Char} (hmem : c ∈ cs) (hc : isWhitespace c = false) :
    trim cs ≠ [] := by
  intro h
  rw [trim, List.reverse_eq_nil_iff, List.dropWhile_eq_nil_iff] at h
  rw [← List.takeWhile_append_dropWhile (p := isWhitespace) (l := cs)] at hmem
  have hspace : isWhitespace c = true := by
    rcases List.mem_append.mp hmem with hmem | hmem
    · exact List.mem_takeWhile_imp hmem
    · exact h c (List.mem_reverse.mpr hmem)
  rw [hspace] at hc
  contradiction

theorem Unseparated.find_eq_none {bytes : List UInt8} (h : Unseparated bytes []) :
    findEventBoundary bytes = none := by
  rw [findEventBoundary, findEventBoundaryFrom_eq_none]
  intro i
  by_cases hi : i < bytes.length
  · have hnone := h.boundaryAt_drop i hi
    rw [List.append_nil] at hnone
    exact hnone
  · rw [List.drop_eq_nil_of_le (Nat.le_of_not_lt hi)]
    rfl

section Styles

variable (D : JsonDecoders) (b : SseBinding)

/-- What the reader makes of events behind a line feed is not what it makes
of them with LF. -/
def Misread (events : List SseEvent) : Prop :=
  ∀ left, Reader.items D.toDecoders (b.parseEvent D.toDecoders)
    (bytesOf (lead left) ++ encode events) ≠ events.filterMap (b.eventItem D.toDecoders)

/-- Comments before events that are misread change nothing. -/
theorem not_readAlike {before : List EventStyle} {events : List SseEvent}
    (hbefore : ∀ s ∈ before, s.Readable) (h : Misread D b events) :
    ¬ ReadAlike D.toDecoders b
      (encode (before.map (fun s => s.withLast .comment) ++ events))
      (encode ((before.map (fun s => s.withLast .comment) ++ events).map SseEvent.withLf)) := by
  have hlf : ∀ e ∈ (before.map (fun s => s.withLast .comment) ++ events).map SseEvent.withLf,
      e.style.Readable := by
    intro e he
    obtain ⟨e', -, rfl⟩ := List.mem_map.mp he
    exact e'.withLf_readable
  have hstyles : ∀ e ∈ before.map fun s => s.withLast .comment, e.style.Readable := by
    intro e he
    obtain ⟨s, hs, rfl⟩ := List.mem_map.mp he
    rw [s.style_withLast]
    exact hbefore s hs
  obtain ⟨left, hitems⟩ := Reader.items_encode (D := D.toDecoders) (b := b) _ hstyles false
  have hsame : ∀ events' : List SseEvent,
      (events'.map SseEvent.withLf).filterMap (b.eventItem D.toDecoders) =
        events'.filterMap (b.eventItem D.toDecoders) := by
    intro events'
    rw [List.filterMap_map]
    exact List.filterMap_congr fun e _ => b.eventItem_withLf D.toDecoders e
  have hbefore' := hitems (encode events)
  rw [filterMap_comments, List.nil_append] at hbefore'
  rw [readAlike_iff, Reader.items_readable hlf, hsame, encode_append, List.filterMap_append,
    filterMap_comments, List.nil_append]
  intro heq
  exact h left (hbefore'.symm.trans heq)

theorem chars_loneCr (u v : List Eol) (l : SseLine) (last blank : Eol) :
    ∃ cs, Quiet cs ∧
      (SseEvent.mk (comments u ++ (l, .cr) :: comments v) .comment last blank).chars =
        lineChars (comments u) ++ (l.text.toList ++ (['\r', ':'] ++ cs)) := by
  obtain ⟨cs, hcs, hrest⟩ := quiet_rest v last blank
  refine ⟨cs, hcs, ?_⟩
  have hcolon : ['\r', ':'] ++ cs = '\r' :: ':' :: cs := rfl
  have hline : Eol.cr.chars = ['\r'] := rfl
  rw [SseEvent.chars, SseEvent.body, List.flatMap_append, List.flatMap_cons, hcolon, ← hrest, hline]
  simp only [lineChars, List.append_assoc, List.cons_append, List.nil_append]

theorem texts_loneCr (u v : List Eol) (l : SseLine) (last blank : Eol) :
    (SseEvent.mk (comments u ++ (l, .cr) :: comments v) .comment last blank).texts.foldl
      appendData "" = appendData "" l.text := by
  rw [SseEvent.texts, List.map_append, List.foldl_append, List.foldl_append, foldl_comments]
  simp only [List.map_cons, List.foldl_cons, List.foldl_nil, foldl_comments]
  exact appendData_comment _

theorem quiet_after {cs : List Char} (h : Quiet cs) (after : List EventStyle) :
    QuietBytes (bytesOf cs ++ encode (after.map fun s => s.withLast .comment)) := by
  intro x hx
  rcases List.mem_append.mp hx with hx | hx
  · exact h.bytes x hx
  · exact quiet_encode after x hx

/-- Comments, a line and what stands behind it, with no separator. -/
theorem unseparated_line {u : List Eol} (hu : Eol.cr ∉ u) (left : Bool) (l : SseLine)
    {cs : List Char} {after : List UInt8} (h : Unseparated (bytesOf cs) after) :
    Unseparated (bytesOf (lead left ++ lineChars (comments u) ++ l.text.toList ++ cs)) after := by
  have hstyle : Eol.cr ∉ ((EventStyle.mk u .lf .lf).withLast l).style.inner := by
    rw [EventStyle.style_withLast]
    exact hu
  rw [bytesOf_append, List.append_assoc (lead left)]
  exact (unseparated_body _ hstyle left _).append h

/-- A comment behind a `data` line that ends in a lone CR is read as data. -/
theorem misread_loneCr {u : List Eol} (hu : Eol.cr ∉ u) (v : List Eol) (last blank : Eol)
    (after : List EventStyle) :
    Misread D b (⟨comments u ++ (D.sample.data, .cr) :: comments v, .comment, last, blank⟩ ::
      after.map fun s => s.withLast .comment) := by
  intro left hitems
  obtain ⟨cs, hcs, hchars⟩ := chars_loneCr u v D.sample.data last blank
  have hbytes : bytesOf (lead left) ++ encode (⟨comments u ++ (D.sample.data, .cr) :: comments v,
      .comment, last, blank⟩ :: after.map fun s => s.withLast .comment) =
      bytesOf (lead left ++ lineChars (comments u) ++ D.sample.data.text.toList ++ ['\r', ':']) ++
        (bytesOf cs ++ encode (after.map fun s => s.withLast .comment)) := by
    rw [encode_cons, hchars]
    simp only [bytesOf_append, List.append_assoc]
  have hcolon (after : List UInt8) : Unseparated (bytesOf ['\r', ':']) after :=
    ⟨boundaryAt_cr (by decide) (by decide) after, boundaryAt_text (by decide) (by decide) after,
      trivial⟩
  have hnone := countEvents_eq_zero D b
    (unseparated_line hu left D.sample.data (hcolon _)) (quiet_after hcs after) (by
      intro more hmore
      obtain ⟨s, hs⟩ := eventData_loneCr left hu D.sample hmore
      rw [hs]
      refine ⟨?_, D.rejects_trailing s⟩
      intro hempty
      have htext := congrArg String.toList hempty
      rw [String.toList_append, String.toList_append] at htext
      exact D.sample.nonempty (List.append_eq_nil_iff.mp (List.append_eq_nil_iff.mp htext).1).1)
  rw [← hbytes, hitems, List.filterMap_cons, eventItem_data b D (texts_loneCr u v _ last blank),
    filterMap_comments] at hnone
  contradiction

/-- The terminators between two events that the reader takes for one. -/
def unseen : List (Eol × Eol) := [(.lf, .crlf), (.lf, .cr), (.crlf, .cr), (.cr, .lf)]

theorem unseparated_unseen {last blank : Eol} (h : (last, blank) ∈ unseen) {b : UInt8}
    (hlf : b ≠ lf) (hcr : b ≠ cr) (bytes : List UInt8) :
    Unseparated (bytesOf (last.chars ++ blank.chars)) (b :: bytes) := by
  have hcrlf : cr ≠ lf := by decide
  simp only [unseen, List.mem_cons, List.not_mem_nil, or_false, Prod.mk.injEq] at h
  rcases h with ⟨rfl, rfl⟩ | ⟨rfl, rfl⟩ | ⟨rfl, rfl⟩ | ⟨rfl, rfl⟩
  · exact ⟨boundaryAt_lf hcrlf _, boundaryAt_crlf hcr _, boundaryAt_lf hlf _, trivial⟩
  · exact ⟨boundaryAt_lf hcrlf _, boundaryAt_cr hlf hcr _, trivial⟩
  · exact ⟨boundaryAt_crlfcr hlf _, boundaryAt_lf hcrlf _, boundaryAt_cr hlf hcr _, trivial⟩
  · exact ⟨boundaryAt_crlf hcr _, boundaryAt_lf hlf _, trivial⟩

theorem unseparated_unseen_end {last blank : Eol} (h : (last, blank) ∈ unseen) :
    Unseparated (bytesOf (last.chars ++ blank.chars)) [] := by
  simp only [unseen, List.mem_cons, List.not_mem_nil, or_false, Prod.mk.injEq] at h
  rcases h with ⟨rfl, rfl⟩ | ⟨rfl, rfl⟩ | ⟨rfl, rfl⟩ | ⟨rfl, rfl⟩
  · exact ⟨by decide, by decide, by decide, trivial⟩
  · exact ⟨by decide, by decide, trivial⟩
  · exact ⟨by decide, by decide, by decide, trivial⟩
  · exact ⟨by decide, by decide, trivial⟩

/-- Two events between which no boundary is seen yield one. -/
theorem misread_unseen {s : EventStyle} (hinner : Eol.cr ∉ s.inner)
    (hends : (s.last, s.blank) ∈ unseen) (next : EventStyle) (after : List EventStyle) :
    Misread D b (s.withLast D.sample.data :: next.withFirst D.sample.data ::
      after.map fun s => s.withLast .comment) := by
  intro left hitems
  obtain ⟨cs, hcs, hchars⟩ := chars_withFirst next D.sample.data
  obtain ⟨t, text, htext, htlf, htcr⟩ := D.sample.data.bytes_cons
  have hbytes : bytesOf (lead left) ++ encode (s.withLast D.sample.data ::
      next.withFirst D.sample.data :: after.map fun s => s.withLast .comment) =
      bytesOf (lead left ++ lineChars (comments s.inner) ++ D.sample.data.text.toList ++
        ((s.last.chars ++ s.blank.chars) ++ D.sample.data.text.toList)) ++
          (bytesOf cs ++ encode (after.map fun s => s.withLast .comment)) := by
    rw [encode_cons, encode_cons, hchars, SseEvent.chars, SseEvent.body, EventStyle.withLast,
      lineChars]
    simp only [bytesOf_append, List.append_assoc]
  have hends' : Unseparated (bytesOf ((s.last.chars ++ s.blank.chars) ++
      D.sample.data.text.toList)) (bytesOf cs ++ encode (after.map fun s => s.withLast .comment)) := by
    rw [bytesOf_append]
    apply Unseparated.append
    · rw [htext]
      exact unseparated_unseen hends htlf htcr _
    · exact unseparated_text (fun x hx => D.sample.data.mem_bytes hx) _
  have hone := countEvents_le_one D b (unseparated_line hinner left D.sample.data hends')
    (quiet_after hcs after)
  rw [← hbytes, hitems, List.filterMap_cons, List.filterMap_cons,
    eventItem_data b D (texts_withLast s _), eventItem_data b D (texts_withFirst next _),
    filterMap_comments] at hone
  contradiction

/-- A comment behind which no boundary is seen is reported as a cut stream. -/
theorem misread_tail {s : EventStyle} (hinner : Eol.cr ∉ s.inner)
    (hends : (s.last, s.blank) ∈ unseen) : Misread D b [s.withLast .comment] := by
  intro left hitems
  have hbytes : bytesOf (lead left) ++ encode [s.withLast .comment] =
      bytesOf (lead left ++ lineChars (comments s.inner) ++ SseLine.comment.text.toList ++
        (s.last.chars ++ s.blank.chars)) := by
    rw [encode_cons, SseEvent.chars, SseEvent.body, EventStyle.withLast, lineChars, encode_nil]
    simp only [bytesOf_append, List.append_assoc, List.append_nil]
  have hquiet : Quiet (lead left ++ lineChars (comments s.inner) ++
      SseLine.comment.text.toList ++ (s.last.chars ++ s.blank.chars)) := by
    have hlead : Quiet (lead left) := by
      cases left <;> decide
    exact quiet_append (quiet_append (quiet_append hlead (quiet_comments _)) quiet_comment)
      (quiet_append (quiet_eol _) (quiet_eol _))
  have hcolon : ':' ∈ lead left ++ lineChars (comments s.inner) ++
      SseLine.comment.text.toList ++ (s.last.chars ++ s.blank.chars) := by
    apply List.mem_append_left
    apply List.mem_append_right
    exact .head _
  obtain ⟨e, he⟩ := parseStreamTail_quiet D (b.parseEvent D.toDecoders) hquiet
    (trim_ne_nil hcolon (by decide))
  have hfind := (unseparated_line hinner left .comment (unseparated_unseen_end hends)).find_eq_none
  rw [← hbytes] at he hfind
  rw [Reader.items, eventFrames.drain_none hfind, he, List.filterMap_cons,
    eventItem_comment] at hitems
  contradiction

/-- The line `data:`. -/
def SseLine.emptyData : SseLine := ⟨"data:", by decide, by decide⟩

/-- The data of an empty `data` line that keeps its `\r`. -/
theorem eventData_emptyData (left : Bool) {u : List Eol} (hu : Eol.cr ∉ u) :
    eventData (String.ofList (lead left ++ lineChars (comments u) ++
      SseLine.emptyData.text.toList ++ ['\r'])) = "\r" := by
  have hcomments : ∀ l ∈ comments u, l.2 ≠ .cr := by
    intro l hl hcr
    obtain ⟨eol, heol, rfl⟩ := List.mem_map.mp hl
    exact hu (hcr ▸ heol)
  have hfold : (((comments u).map fun l => l.1.text.toList).map String.ofList).foldl appendData "" =
      "" := by
    rw [List.map_map]
    simp only [Function.comp_def, String.ofList_toList]
    exact foldl_comments u ""
  rw [List.append_assoc, List.append_assoc, eventData_lead, eventData, lines, String.toList_ofList,
    lineChars, linesFrom_body _ hcomments, List.map_append, List.foldl_append, hfold]
  decide

/-- An empty `data` line before `\r\n\n` keeps its `\r`. -/
theorem misread_emptyData {s : EventStyle} (hinner : Eol.cr ∉ s.inner) (hlast : s.last = .crlf)
    (hblank : s.blank = .lf) (after : List EventStyle) :
    Misread D b (s.withLast .emptyData :: after.map fun s => s.withLast .comment) := by
  intro left hitems
  have hcrFrame (after : List UInt8) : Unseparated (bytesOf ['\r']) ([lf, lf] ++ after) :=
    ⟨boundaryAt_crlf (by decide) _, trivial⟩
  have hdrain := drain_frame (by decide : [lf, lf] ∈ separators)
    (unseparated_line hinner left .emptyData
      (hcrFrame (encode (after.map fun s => s.withLast .comment))))
  have hbytes : bytesOf (lead left) ++ encode (s.withLast .emptyData ::
      after.map fun s => s.withLast .comment) =
      bytesOf (lead left ++ lineChars (comments s.inner) ++ SseLine.emptyData.text.toList ++
        ['\r']) ++ [lf, lf] ++ encode (after.map fun s => s.withLast .comment) := by
    have hlflf : Eol.crlf.chars ++ Eol.lf.chars = ['\r'] ++ ['\n', '\n'] := rfl
    have hbreaks : bytesOf ['\n', '\n'] = [lf, lf] := by decide
    rw [encode_cons, SseEvent.chars, SseEvent.body, EventStyle.withLast, lineChars, ← hbreaks]
    dsimp only
    rw [hlast, hblank, hlflf]
    simp only [bytesOf_append, List.append_assoc]
  have hdata := eventData_emptyData left hinner
  have hrejects : D.toDecoders.Rejects "\r" := by
    apply D.rejects_quiet
    decide
  obtain ⟨e, he⟩ := b.parseEvent_rejects (by rw [hdata]; decide) (by rw [hdata]; exact hrejects)
  have hnone : b.eventItem D.toDecoders (s.withLast .emptyData) = none := by
    apply b.parseEvent_none
    rw [eventData_withLf, texts_withLast]
    decide
  rw [hbytes, Reader.items_of_drain hdrain, parseFrame, fromUtf8_bytesOf] at hitems
  dsimp only at hitems
  rw [he, List.filterMap_cons, hnone, filterMap_comments] at hitems
  contradiction

end Styles

/-! ## the styles that are read alike -/

/-- A list of styles that are not all readable has a first one that is not. -/
theorem exists_first_unreadable {styles : List EventStyle} (h : ¬ ∀ s ∈ styles, s.Readable) :
    ∃ before s after, styles = before ++ s :: after ∧ (∀ s ∈ before, s.Readable) ∧
      ¬ s.Readable := by
  induction styles with
  | nil => exact absurd (fun s hs => absurd hs List.not_mem_nil) h
  | cons s styles ih =>
      by_cases hs : s.Readable
      · have hrest : ¬ ∀ s' ∈ styles, s'.Readable := by
          intro hall
          apply h
          intro s' hs'
          cases hs' with
          | head => exact hs
          | tail _ hs' => exact hall s' hs'
        obtain ⟨before, s', after, rfl, hbefore, hs'⟩ := ih hrest
        refine ⟨s :: before, s', after, rfl, ?_, hs'⟩
        intro s'' hs''
        cases hs'' with
        | head => exact hs
        | tail _ hs'' => exact hbefore s'' hs''
      · exact ⟨[], s, styles, rfl, fun s hs => absurd hs List.not_mem_nil, hs⟩

theorem map_style_comments (styles : List EventStyle) :
    (styles.map fun s => s.withLast .comment).map SseEvent.style = styles := by
  rw [List.map_map]
  exact (List.map_congr_left fun s _ => s.style_withLast .comment).trans (List.map_id _)

theorem map_snd_comments (eols : List Eol) : (comments eols).map Prod.snd = eols := by
  rw [comments, List.map_map]
  exact List.map_id _

/-- A style that is not readable has contents that are misread. -/
theorem exists_misread (D : JsonDecoders) (b : SseBinding) {s : EventStyle} (h : ¬ s.Readable)
    (after : List EventStyle) :
    ∃ events, events.map SseEvent.style = s :: after ∧ Misread D b events := by
  obtain ⟨inner, last, blank⟩ := s
  by_cases hinner : Eol.cr ∈ inner
  · obtain ⟨u, v, rfl, hu⟩ := List.eq_append_cons_of_mem hinner
    refine ⟨_, ?_, misread_loneCr D b hu v last blank after⟩
    rw [List.map_cons, map_style_comments, SseEvent.style, List.map_append, List.map_cons,
      map_snd_comments, map_snd_comments]
  · have hends : (last, blank) ∈ unseen ∨ (last = .crlf ∧ blank = .lf) := by
      have hnot : (last, blank) ∉ [(Eol.lf, Eol.lf), (.crlf, .crlf), (.cr, .cr), (.cr, .crlf)] :=
        fun hmem => h ⟨hinner, hmem⟩
      revert hnot
      cases last <;> cases blank <;> decide
    rcases hends with hends | ⟨rfl, rfl⟩
    · cases after with
      | nil =>
          refine ⟨_, ?_, misread_tail D b (s := ⟨inner, last, blank⟩) hinner hends⟩
          rw [List.map_cons, EventStyle.style_withLast]
          rfl
      | cons next after =>
          refine ⟨_, ?_, misread_unseen D b (s := ⟨inner, last, blank⟩) hinner hends next after⟩
          rw [List.map_cons, List.map_cons, EventStyle.style_withLast, EventStyle.style_withFirst,
            map_style_comments]
    · refine ⟨_, ?_, misread_emptyData D b (s := ⟨inner, .crlf, .lf⟩) hinner rfl rfl after⟩
      rw [List.map_cons, EventStyle.style_withLast, map_style_comments]

/-- **Which line endings are read alike**: for a mixture of line endings,
every stream of events is read as with LF exactly if each event's style is
readable. -/
theorem lineEndings_alike_iff (D : JsonDecoders) (b : SseBinding) (styles : List EventStyle) :
    (∀ events : List SseEvent, events.map SseEvent.style = styles →
      ReadAlike D.toDecoders b (encode events) (encode (events.map SseEvent.withLf))) ↔
        ∀ s ∈ styles, s.Readable := by
  constructor
  · intro h
    by_contra hstyles
    obtain ⟨before, s, after, rfl, hbefore, hs⟩ := exists_first_unreadable hstyles
    obtain ⟨events, hevents, hmisread⟩ := exists_misread D b hs after
    apply not_readAlike D b hbefore hmisread
    apply h
    rw [List.map_append, map_style_comments, hevents]
  · intro h events hevents
    apply readAlike_of_readable
    intro e he
    apply h
    rw [← hevents]
    exact List.mem_map_of_mem he

/-! ## an event with CR line ends -/

/-- The terminators the format allows: CR before a blank line that ends in LF
would be CRLF. -/
def EventStyle.Allowed (s : EventStyle) : Prop := ¬ (s.last = .cr ∧ s.blank = .lf)

def sampleText : String :=
  "\x7b\"message\":\x7b\"messageId\":\"m\",\"role\":\"ROLE_USER\",\"parts\":[]\x7d\x7d"

def sampleFromStr (text : String) : Except String StreamResponse :=
  if text = sampleText then .ok (.message (.new "m" .user []))
  else .error "expected value at line 1 column 1"

theorem sampleFromStr_of_ne {text : String} (h : text ≠ sampleText) :
    ∃ e, sampleFromStr text = .error e := ⟨_, if_neg h⟩

/-- Decoders that know one message. -/
def sampleDecoders : JsonDecoders where
  envelope _ := none
  restEnvelope _ := none
  fromValue _ := .error "invalid type"
  fromStr := sampleFromStr
  sample := ⟨sampleText, by decide, by decide⟩
  event := .message (.new "m" .user [])
  envelope_sample := rfl
  restEnvelope_sample := rfl
  fromStr_sample := if_pos rfl
  rejects_trailing more := by
    have hne : sampleText ++ "\r:" ++ more ≠ sampleText := by
      intro heq
      have hlength := congrArg (fun s => s.toList.length) heq
      simp only [String.toList_append, List.length_append] at hlength
      have hcolon : "\r:".toList.length = 2 := rfl
      omega
    exact ⟨rfl, rfl, sampleFromStr_of_ne hne⟩
  rejects_quiet text h := by
    have hne : text ≠ sampleText := by
      intro heq
      rw [heq] at h
      exact absurd (h '\x7b' (by decide)) (by decide)
    exact ⟨rfl, rfl, sampleFromStr_of_ne hne⟩

/-- The line `id: 1`. -/
def idLine : SseLine := ⟨"id: 1", by decide, by decide⟩

/-- An id and a message, with CR after each line. -/
def crEvent : SseEvent := ⟨[(idLine, .cr)], sampleDecoders.sample.data, .cr, .cr⟩

/-- Of an event with CR line ends nothing is read. -/
theorem lineEndings_not_alike :
    ¬ ∀ (D : JsonDecoders) (b : SseBinding) (events : List SseEvent),
      (∀ e ∈ events, e.style.Allowed) →
        ReadAlike D.toDecoders b (encode events) (encode (events.map SseEvent.withLf)) := by
  intro h
  have hallowed : ∀ e ∈ [crEvent], e.style.Allowed := by
    intro e he
    rw [List.mem_singleton.mp he]
    exact fun hlf => absurd hlf.2 (by decide)
  have halike := readAlike_iff.mp (h sampleDecoders .jsonrpc [crEvent] hallowed)
  have hlf : ∀ e ∈ [crEvent].map SseEvent.withLf, e.style.Readable := by
    intro e he
    rw [List.mem_singleton.mp he]
    exact crEvent.withLf_readable
  have hunseparated : Unseparated (bytesOf crEvent.body) ([cr, cr] ++ []) := by
    obtain ⟨t, text, htext, htlf, htcr⟩ := sampleDecoders.sample.data.bytes_cons
    have hbody : bytesOf crEvent.body = bytesOf idLine.text.toList ++
        ([cr] ++ bytesOf sampleDecoders.sample.data.text.toList) := by
      rw [SseEvent.body, bytesOf_append]
      rfl
    rw [hbody]
    apply (unseparated_text (fun x hx => idLine.mem_bytes hx) _).append
    apply Unseparated.append _ (unseparated_text (fun x hx =>
      sampleDecoders.sample.data.mem_bytes hx) _)
    rw [htext]
    exact ⟨boundaryAt_cr htlf htcr _, trivial⟩
  have hdrain := drain_frame (by decide : [cr, cr] ∈ separators) hunseparated
  have hencode : encode [crEvent] = bytesOf crEvent.body ++ [cr, cr] ++ [] := by
    rw [encode_cons, encode_nil, SseEvent.chars, bytesOf_append]
    rfl
  have hunbroken : ∀ c ∈ crEvent.body, c ≠ '\n' := by
    have hbody : crEvent.body = idLine.text.toList ++ ['\r'] ++
        sampleDecoders.sample.data.text.toList := by
      rw [SseEvent.body]
      rfl
    rw [hbody]
    simp only [List.forall_mem_append, List.forall_mem_singleton]
    refine ⟨⟨fun c hc => ?_, by decide⟩, fun c hc => ?_⟩
    · exact (idLine.unbroken c hc).1
    · exact (sampleDecoders.sample.data.unbroken c hc).1
  have hlines : linesFrom [] crEvent.body = [crEvent.body] := by
    have htext := linesFrom_text hunbroken [] []
    rw [List.append_nil, List.nil_append] at htext
    rw [htext, linesFrom, if_neg (by decide)]
  have hid : stripPrefix "data:" (String.ofList crEvent.body) = none := by
    rw [stripPrefix, String.toList_ofList, if_neg (by decide)]
  have hdata : eventData (String.ofList crEvent.body) = "" := by
    apply eventData_of_any
    rw [lines, String.toList_ofList, hlines, List.map_singleton, List.any_cons, hid]
    rfl
  have hitem : SseBinding.jsonrpc.eventItem sampleDecoders.toDecoders crEvent.withLf =
      some (.ok sampleDecoders.event) := by
    rw [SseBinding.eventItem_withLf]
    exact eventItem_data .jsonrpc sampleDecoders (by decide)
  have hnone := SseBinding.jsonrpc.parseEvent_none sampleDecoders.toDecoders hdata
  rw [hencode, Reader.items_of_drain hdrain, parseFrame, fromUtf8_bytesOf,
    Reader.items_readable hlf, List.map_cons, List.filterMap_cons, hitem] at halike
  dsimp only at halike
  have hend : Reader.items sampleDecoders.toDecoders
      (SseBinding.jsonrpc.parseEvent sampleDecoders.toDecoders) [] = [] :=
    Reader.items_lead _ _ false
  rw [hnone, hend] at halike
  contradiction

end A2a
