import Mathlib.Data.List.Basic

/-!
# A2a.Framing

Cutting a stream into frames while it arrives: a rule that finds the first
frame of what has been read (`FrameFinder`), and the loop that takes every
frame it finds out of a buffer (`drain`).

If more input never changes what the rule finds, the frames do not depend
on the chunks the stream arrived in (`feed_eq_drain`).
-/

namespace A2a

/-- A rule that finds the first frame of a buffer: where the frame ends, and
where the rest of the buffer begins. -/
structure FrameFinder (α : Type) where
  find : List α → Option (Nat × Nat)
  start_le {buf : List α} {start stop : Nat} (h : find buf = some (start, stop)) : start ≤ stop
  stop_pos {buf : List α} {start stop : Nat} (h : find buf = some (start, stop)) : 0 < stop
  stop_le {buf : List α} {start stop : Nat} (h : find buf = some (start, stop)) :
    stop ≤ buf.length
  find_append {buf : List α} {start stop : Nat} (h : find buf = some (start, stop))
    (more : List α) : find (buf ++ more) = some (start, stop)

namespace FrameFinder

variable {α : Type} (F : FrameFinder α)

/-- The frames of a buffer, and what is left of it. -/
def drain (buf : List α) : List (List α) × List α :=
  match _h : F.find buf with
  | none => ([], buf)
  | some (start, stop) =>
      let rest := drain (buf.drop stop)
      (buf.take start :: rest.1, rest.2)
termination_by buf.length
decreasing_by
  have hpos := F.stop_pos _h
  have hle := F.stop_le _h
  rw [List.length_drop]
  omega

/-- The frames of a buffer to which chunks are added one after another, and
what is left in the end. -/
def feed (buf : List α) : List (List α) → List (List α) × List α
  | [] => ([], buf)
  | chunk :: chunks =>
      let drained := F.drain (buf ++ chunk)
      let rest := feed drained.2 chunks
      (drained.1 ++ rest.1, rest.2)

/-! ## what a buffer holds -/

theorem drain_none {buf : List α} (h : F.find buf = none) : F.drain buf = ([], buf) := by
  rw [drain]
  split
  · rfl
  · next heq =>
      rw [h] at heq
      contradiction

theorem drain_some {buf : List α} {start stop : Nat} (h : F.find buf = some (start, stop)) :
    F.drain buf =
      (buf.take start :: (F.drain (buf.drop stop)).1, (F.drain (buf.drop stop)).2) := by
  rw [drain]
  split
  · next heq =>
      rw [h] at heq
      contradiction
  · next heq =>
      rw [h, Option.some.injEq, Prod.mk.injEq] at heq
      rw [heq.1, heq.2]

/-- What is left holds no frame. -/
theorem find_drain (buf : List α) : F.find (F.drain buf).2 = none := by
  induction buf using drain.induct (F := F) with
  | case1 buf h =>
      rw [F.drain_none h]
      exact h
  | case2 buf start stop h ih =>
      rw [F.drain_some h]
      exact ih

/-- Frames and rest hold nothing else than the buffer. -/
theorem mem_of_mem_drain (buf : List α) :
    (∀ frame ∈ (F.drain buf).1, ∀ x ∈ frame, x ∈ buf) ∧ ∀ x ∈ (F.drain buf).2, x ∈ buf := by
  induction buf using drain.induct (F := F) with
  | case1 buf h =>
      rw [F.drain_none h]
      exact ⟨fun _ hframe => absurd hframe List.not_mem_nil, fun _ hx => hx⟩
  | case2 buf start stop h ih =>
      rw [F.drain_some h]
      constructor
      · intro frame hframe x hx
        cases hframe with
        | head => exact List.mem_of_mem_take hx
        | tail _ hframe => exact List.mem_of_mem_drop (ih.1 frame hframe x hx)
      · intro x hx
        exact List.mem_of_mem_drop (ih.2 x hx)

/-- **Draining twice drains once**: the frames of a buffer stay when more
arrives. -/
theorem drain_append (buf more : List α) :
    F.drain (buf ++ more) =
      ((F.drain buf).1 ++ (F.drain ((F.drain buf).2 ++ more)).1,
        (F.drain ((F.drain buf).2 ++ more)).2) := by
  induction buf using drain.induct (F := F) with
  | case1 buf h =>
      rw [F.drain_none h]
      rfl
  | case2 buf start stop h ih =>
      have hstart : start ≤ buf.length := Nat.le_trans (F.start_le h) (F.stop_le h)
      have htake : (buf ++ more).take start = buf.take start := List.take_append_of_le_length hstart
      have hdrop : (buf ++ more).drop stop = buf.drop stop ++ more :=
        List.drop_append_of_le_length (F.stop_le h)
      rw [F.drain_some (F.find_append h more), htake, hdrop, ih, F.drain_some h]
      rfl

/-- **The frames do not depend on the chunks.** -/
theorem feed_eq_drain (chunks : List (List α)) {buf : List α} (h : F.find buf = none) :
    F.feed buf chunks = F.drain (buf ++ chunks.flatten) := by
  induction chunks generalizing buf with
  | nil =>
      rw [List.flatten_nil, List.append_nil, F.drain_none h]
      rfl
  | cons chunk chunks ih =>
      rw [List.flatten_cons, ← List.append_assoc, F.drain_append (buf ++ chunk), feed,
        ih (F.find_drain _)]

end FrameFinder

end A2a
