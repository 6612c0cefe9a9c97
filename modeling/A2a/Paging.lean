import Mathlib.Data.List.Basic

/-!
# A2a.Paging

Following page tokens.  A service answers a token with a page; a page may
name the token of the next one.  `follow` is the loop of a client that
wants everything.

A service that cuts one list at offsets (`Offsets`) is followed to its end
in finitely many calls, and the pages are the list (`follow_offsets`).
-/

namespace A2a.Paging

variable {ε τ π α : Type}

/-- Ask for the page `token` names, then for the page that page names, until
one names none.  `none` if a call fails or `fuel` calls do not get there. -/
def follow (serve : Option τ → Except ε π) (next : π → Option τ) :
    Nat → Option τ → Option (List π)
  | 0, _ => none
  | fuel + 1, token =>
      match serve token with
      | .error _ => none
      | .ok page =>
          match next page with
          | none => some [page]
          | some token => (follow serve next fuel (some token)).map (page :: ·)

/-- The part of `xs` from `start` that fits one page. -/
def cut (xs : List α) (start size : Nat) : List α := (xs.drop start).take size

/-- The service cuts `xs` into pages of `size`: a token stands for an offset
(`reads`), its page holds the items from there on, and names the offset
behind them while there are more. -/
structure Offsets (serve : Option τ → Except ε π) (next : π → Option τ) (items : π → List α)
    (xs : List α) (size : Nat) (reads : Option τ → Nat → Prop) : Prop where
  page : ∀ token start, reads token start → ∃ page, serve token = .ok page ∧
    items page = cut xs start size ∧
    (next page = none ∧ xs.length ≤ start + size ∨
      ∃ token', next page = some token' ∧ reads (some token') (start + size) ∧
        start + size < xs.length)

variable {serve : Option τ → Except ε π} {next : π → Option τ} {items : π → List α}
  {xs : List α} {size : Nat} {reads : Option τ → Nat → Prop}

/-- **Following tokens is complete**: from the token of an offset, at most one
call for each item there and one more reach a page without a token; the pages
are the list from that offset on, and each is one the service serves. -/
theorem follow_offsets (h : Offsets serve next items xs size reads) (hsize : 0 < size)
    (fuel : Nat) :
    ∀ token start, reads token start → xs.length - start < fuel →
      ∃ pages, follow serve next fuel token = some pages ∧ pages.flatMap items = xs.drop start ∧
        ∀ page ∈ pages, ∃ token start, reads token start ∧ serve token = .ok page := by
  induction fuel with
  | zero =>
      intro token start _ hfuel
      exact absurd hfuel (Nat.not_lt_zero _)
  | succ fuel ih =>
      intro token start hreads hfuel
      obtain ⟨page, hserve, hitems, hnext⟩ := h.page token start hreads
      rcases hnext with ⟨hnext, hend⟩ | ⟨token', hnext, hreads', hmore⟩
      · refine ⟨[page], by simp only [follow, hserve, hnext], ?_, ?_⟩
        · have hlen : (xs.drop start).length ≤ size := by
            rw [List.length_drop]
            omega
          rw [List.flatMap_singleton, hitems, cut, List.take_of_length_le hlen]
        · intro p hp
          obtain rfl := List.mem_singleton.mp hp
          exact ⟨token, start, hreads, hserve⟩
      · -- the rest is shorter by a page, which is not empty
        have hfuel' : xs.length - (start + size) < fuel := by omega
        obtain ⟨pages, hfollow, hconcat, hserved⟩ := ih (some token') (start + size) hreads' hfuel'
        refine ⟨page :: pages, by simp only [follow, hserve, hnext, hfollow, Option.map_some], ?_, ?_⟩
        · rw [List.flatMap_cons, hitems, hconcat, cut, ← List.drop_drop]
          exact List.take_append_drop size (xs.drop start)
        · intro p hp
          rcases List.mem_cons.mp hp with rfl | hp
          · exact ⟨token, start, hreads, hserve⟩
          · exact hserved p hp

end A2a.Paging
