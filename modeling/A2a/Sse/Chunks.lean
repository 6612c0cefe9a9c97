import A2a.Sse

/-!
# A2a.Sse.Chunks

What the reader yields is a function of the bytes, however they were cut
into chunks: an item for each frame in turn, and one for what is left
(`parseSseBytes_chunks`).  The frames are those of the byte sequence itself
(`Framed`).
-/

namespace A2a

/-! ## the frames of a byte sequence -/

/-- The frames of a byte sequence: each ends at the first separator in what
follows the one before, and the tail has none. -/
inductive Framed : List UInt8 → List (List UInt8) → List UInt8 → Prop
  | tail {bytes : List UInt8} (h : ∀ i, ∀ separator ∈ separators, ¬ separator <+: bytes.drop i) :
      Framed bytes [] bytes
  | frame {frame separator bytes tail : List UInt8} {frames : List (List UInt8)}
      (hmem : separator ∈ separators)
      (first : ∀ i < frame.length, ∀ other ∈ separators,
        ¬ other <+: (frame ++ separator ++ bytes).drop i)
      (rest : Framed bytes frames tail) :
      Framed (frame ++ separator ++ bytes) (frame :: frames) tail

/-- The bytes around a boundary. -/
theorem findEventBoundary_split {buf : List UInt8} {start stop : Nat}
    (h : findEventBoundary buf = some (start, stop)) :
    ∃ separator ∈ separators, buf = buf.take start ++ separator ++ buf.drop stop ∧
      start ≤ buf.length ∧
      ∀ i < start, ∀ other ∈ separators, ¬ other <+: buf.drop i := by
  have hstart : start ≤ buf.length :=
    Nat.le_trans (eventFrames.start_le h) (eventFrames.stop_le h)
  rw [findEventBoundary, findEventBoundaryFrom_eq_some] at h
  obtain ⟨k, len, hk, hstop, hsome, hfirst⟩ := h
  rw [Nat.zero_add] at hk hstop
  subst hk
  obtain ⟨separator, hmem, ⟨more, hmore⟩, rfl⟩ := prefix_of_boundaryAt hsome
  refine ⟨separator, hmem, ?_, hstart, fun i hi => boundaryAt_eq_none.mp (hfirst i hi)⟩
  have hdrop : buf.drop stop = more := by
    rw [hstop, ← List.drop_drop, ← hmore, List.drop_left]
  rw [hdrop, List.append_assoc, hmore, List.take_append_drop]

/-- A separator at the first place that has one is the boundary. -/
theorem findEventBoundary_frame {frame separator bytes : List UInt8}
    (hmem : separator ∈ separators)
    (first : ∀ i < frame.length, ∀ other ∈ separators,
      ¬ other <+: (frame ++ separator ++ bytes).drop i) :
    findEventBoundary (frame ++ separator ++ bytes) =
      some (frame.length, frame.length + separator.length) := by
  rw [findEventBoundary, findEventBoundaryFrom_eq_some]
  refine ⟨frame.length, separator.length, by omega, by omega, ?_, ?_⟩
  · rw [List.append_assoc, List.drop_left]
    exact boundaryAt_of_prefix hmem (List.prefix_append _ _)
  · intro j hj
    exact boundaryAt_eq_none.mpr (first j hj)

theorem findEventBoundary_eq_none {bytes : List UInt8} :
    findEventBoundary bytes = none ↔ ∀ i, ∀ separator ∈ separators, ¬ separator <+: bytes.drop i := by
  rw [findEventBoundary, findEventBoundaryFrom_eq_none]
  exact forall_congr' fun i => boundaryAt_eq_none

/-- The loop takes the frames out of a buffer and leaves the tail. -/
theorem framed_drain (buf : List UInt8) :
    Framed buf (eventFrames.drain buf).1 (eventFrames.drain buf).2 := by
  induction buf using FrameFinder.drain.induct (F := eventFrames) with
  | case1 buf h =>
      rw [eventFrames.drain_none h]
      exact .tail (findEventBoundary_eq_none.mp h)
  | case2 buf start stop h ih =>
      rw [eventFrames.drain_some h]
      obtain ⟨separator, hmem, hsplit, hstart, hfirst⟩ := findEventBoundary_split h
      have hlen : (buf.take start).length = start := List.length_take_of_le hstart
      have hframed : Framed (buf.take start ++ separator ++ buf.drop stop)
          (buf.take start :: (eventFrames.drain (buf.drop stop)).1)
          (eventFrames.drain (buf.drop stop)).2 := by
        apply Framed.frame hmem _ ih
        rw [hlen, ← hsplit]
        exact hfirst
      rw [← hsplit] at hframed
      exact hframed

/-- A byte sequence has only one reading. -/
theorem drain_eq_of_framed {bytes tail : List UInt8} {frames : List (List UInt8)}
    (h : Framed bytes frames tail) : eventFrames.drain bytes = (frames, tail) := by
  induction h with
  | tail h => exact eventFrames.drain_none (findEventBoundary_eq_none.mpr h)
  | @frame frame separator bytes tail frames hmem first rest ih =>
      have hfind := findEventBoundary_frame hmem first
      rw [eventFrames.drain_some hfind, List.append_assoc, List.take_left,
        ← List.append_assoc, ← List.length_append, List.drop_left, ih]

/-! ## what a reader yields -/

namespace Reader

variable {D : Decoders} {parseEvent : String → Option SseItem}

/-- Readers with the same next item yield the same. -/
theorem Yields.of_poll_eq {r r' : Reader} {items : List SseItem}
    (h : r.poll D parseEvent = r'.poll D parseEvent) (hyields : r'.Yields D parseEvent items) :
    r.Yields D parseEvent items := by
  cases hyields with
  | done hnone => exact .done (h.trans hnone)
  | item hsome rest => exact .item (h.trans hsome) rest

/-- A reader yields one sequence of items. -/
theorem Yields.unique {r : Reader} {items items' : List SseItem}
    (h : r.Yields D parseEvent items) (h' : r.Yields D parseEvent items') : items = items' := by
  induction h generalizing items' with
  | done hnone =>
      cases h' with
      | done _ => rfl
      | item hsome _ =>
          rw [hnone] at hsome
          contradiction
  | item hsome _ ih =>
      cases h' with
      | done hnone =>
          rw [hsome] at hnone
          contradiction
      | item hsome' rest' =>
          rw [hsome, Option.some.injEq, Prod.mk.injEq] at hsome'
          obtain ⟨rfl, rfl⟩ := hsome'
          rw [ih rest']

/-- Nothing is left after the tail. -/
theorem yields_end : (Reader.mk [] [] []).Yields D parseEvent [] := by
  apply Yields.done
  rw [poll, pollFrom, parseStreamTail, fromUtf8, fromUtf8From, if_pos rfl]
  rfl

/-- What is pending comes first. -/
theorem yields_pending {stream : List (Except String (List UInt8))} {buf : List UInt8}
    {items : List SseItem} (pending : List SseItem)
    (h : (Reader.mk stream buf []).Yields D parseEvent items) :
    (Reader.mk stream buf pending).Yields D parseEvent (pending ++ items) := by
  induction pending with
  | nil => exact h
  | cons item pending ih =>
      have hpoll : (Reader.mk stream buf (item :: pending)).poll D parseEvent =
          some (item, ⟨stream, buf, pending⟩) := by
        rw [poll, pollFrom]
      exact .item hpoll ih

/-- A reader yields an item for each frame, then one for the tail. -/
theorem yields_feed (chunks : List (List UInt8)) (buf : List UInt8) :
    (Reader.mk (chunks.map .ok) buf []).Yields D parseEvent
      ((eventFrames.feed buf chunks).1.filterMap (parseFrame parseEvent) ++
        (parseStreamTail D (eventFrames.feed buf chunks).2 parseEvent).toList) := by
  induction chunks generalizing buf with
  | nil =>
      have hpoll : (Reader.mk [] buf []).poll D parseEvent =
          (parseStreamTail D buf parseEvent).map fun item => (item, ⟨[], [], []⟩) := by
        rw [poll, pollFrom]
      rw [List.map_nil]
      simp only [FrameFinder.feed, List.filterMap_nil, List.nil_append]
      cases htail : parseStreamTail D buf parseEvent with
      | none =>
          rw [htail] at hpoll
          exact .done hpoll
      | some item =>
          rw [htail] at hpoll
          exact .item hpoll yields_end
  | cons chunk chunks ih =>
      have hpoll : (Reader.mk ((chunk :: chunks).map .ok) buf []).poll D parseEvent =
          (Reader.mk (chunks.map .ok) (eventFrames.drain (buf ++ chunk)).2
            ((eventFrames.drain (buf ++ chunk)).1.filterMap (parseFrame parseEvent))).poll D
              parseEvent := by
        rw [poll, List.map_cons, pollFrom, poll]
      apply Yields.of_poll_eq hpoll
      rw [FrameFinder.feed, List.filterMap_append, List.append_assoc]
      exact yields_pending _ (ih _)

/-- The items of a byte sequence: one for each frame that has one, then one
for the tail. -/
def items (D : Decoders) (parseEvent : String → Option SseItem) (bytes : List UInt8) :
    List SseItem :=
  (eventFrames.drain bytes).1.filterMap (parseFrame parseEvent) ++
    (parseStreamTail D (eventFrames.drain bytes).2 parseEvent).toList

theorem yields_iff {chunks : List (List UInt8)} {yielded : List SseItem} :
    (ofChunks chunks).Yields D parseEvent yielded ↔
      yielded = items D parseEvent chunks.flatten := by
  have hfeed : eventFrames.feed [] chunks = eventFrames.drain chunks.flatten := by
    rw [eventFrames.feed_eq_drain chunks rfl, List.nil_append]
  have hyields : (ofChunks chunks).Yields D parseEvent (items D parseEvent chunks.flatten) := by
    rw [items, ← hfeed]
    exact yields_feed chunks []
  constructor
  · intro h
    exact h.unique hyields
  · intro h
    rw [h]
    exact hyields

end Reader

/-- **What a reader yields does not depend on how the bytes were cut**: the
items of the frames of the byte sequence, each parsed once and in order,
then the item of its tail; after that the reader ends. -/
theorem parseSseBytes_chunks (D : Decoders) (parseEvent : String → Option SseItem)
    (bytes : List UInt8) :
    ∃ frames tail, Framed bytes frames tail ∧
      ∀ chunks : List (List UInt8), chunks.flatten = bytes → ∀ items,
        (Reader.ofChunks chunks).Yields D parseEvent items ↔
          items = frames.filterMap (parseFrame parseEvent) ++
            (parseStreamTail D tail parseEvent).toList := by
  refine ⟨_, _, framed_drain bytes, ?_⟩
  intro chunks hchunks items
  rw [Reader.yields_iff, hchunks]
  rfl

/-- A comment cut inside its separator, with an empty chunk and a tail. -/
theorem parseSseBytes_chunks_comment :
    ∃ frames tail, Framed [58, cr, lf, cr, lf, 58] frames tail ∧ ∀ items,
      (Reader.ofChunks [[58, cr, lf, cr], [], [lf, 58]]).Yields default
          (parseJsonrpcEvent default) items ↔
        items = frames.filterMap (parseFrame (parseJsonrpcEvent default)) ++
          (parseStreamTail default tail (parseJsonrpcEvent default)).toList := by
  obtain ⟨frames, tail, hframed, h⟩ := parseSseBytes_chunks default (parseJsonrpcEvent default)
    [58, cr, lf, cr, lf, 58]
  exact ⟨frames, tail, hframed, h [[58, cr, lf, cr], [], [lf, 58]] rfl⟩

end A2a
