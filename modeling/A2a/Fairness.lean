import A2a.Machine
import Mathlib.Data.Nat.Pairing
import Mathlib.Order.WellFounded

/-!
# A2a.Fairness

Runs that never end, and what a fair scheduler makes of them.

An action of `A` is weakly fair in such a run if it is taken again and again,
unless it is not enabled again and again (`Unending.Fair`).  `Fair.reaches`
is the rule that proves progress from it: while something is to be waited
for, `A` is enabled, a step of `A` brings it nearer in a well-founded order,
and no other step takes it farther away.  `exists_fair` is a scheduler that is
fair.

Nothing here names a program.
-/

namespace A2a
namespace Machine

variable {σ α : Type} {M : Machine σ α} {s₀ : σ} {tr : List (σ × α)} {A : α → Prop}

/-- An action of `A` can be taken. -/
def Enabled (M : Machine σ α) (A : α → Prop) (s : σ) : Prop :=
  ∃ a s', A a ∧ M.step s a = some s'

/-- A run that never ends: its states, and the action each is left by. -/
structure Unending (M : Machine σ α) where
  state : Nat → σ
  act : Nat → α
  step : ∀ n, M.step (state n) (act n) = some (state (n + 1))

namespace Unending

variable {r : M.Unending}

/-- Its first `n` steps. -/
def trace (r : M.Unending) : Nat → List (σ × α)
  | 0 => []
  | n + 1 => r.trace n ++ [(r.state n, r.act n)]

/-- What goes on after a run is a run. -/
theorem run (r : M.Unending) (hr : M.Run s₀ tr (r.state 0)) (n : Nat) :
    M.Run s₀ (tr ++ r.trace n) (r.state n) := by
  induction n with
  | zero =>
      rw [trace, List.append_nil]
      exact hr
  | succ n ih =>
      rw [trace, ← List.append_assoc]
      exact ih.snoc (r.step n)

theorem guarded {C : σ → α → Prop} (hg : Guarded C tr) (hC : ∀ n, C (r.state n) (r.act n))
    (n : Nat) : Guarded C (tr ++ r.trace n) := by
  induction n with
  | zero =>
      rw [trace, List.append_nil]
      exact hg
  | succ n ih =>
      rw [trace, ← List.append_assoc, guarded_snoc]
      exact ⟨ih, hC n⟩

/-- Weak fairness: if an action of `A` is enabled from some time on, one is
taken after it. -/
def Fair (r : M.Unending) (A : α → Prop) : Prop :=
  ∀ n, (∀ m, n ≤ m → M.Enabled A (r.state m)) → ∃ m, n ≤ m ∧ A (r.act m)

/-- **Progress rule**: while `P` holds, `A` is enabled, and every step leads to
`Q`, or keeps `P` and does not raise the rank, which a step of `A` lowers. -/
theorem Fair.reaches {β : Type} [PartialOrder β] [WellFoundedLT β] (hfair : r.Fair A)
    {P Q : Nat → Prop} (rank : Nat → β) (henabled : ∀ n, P n → M.Enabled A (r.state n))
    (hstep : ∀ n, P n → Q (n + 1) ∨ (P (n + 1) ∧ rank (n + 1) ≤ rank n ∧
      (A (r.act n) → rank (n + 1) < rank n))) {n : Nat} (hn : P n) : ∃ m, n ≤ m ∧ Q m := by
  generalize hb : rank n = b
  induction b using WellFoundedLT.induction generalizing n with
  | ind b ih =>
    by_contra hnever
    -- from below `b` it would be reached
    have hbelow (m : Nat) (hm : n ≤ m) (hP : P m) (hlt : rank m < b) : False := by
      obtain ⟨k, hk, hQ⟩ := ih (rank m) hlt hP rfl
      exact hnever ⟨k, Nat.le_trans hm hk, hQ⟩
    have hwaits : ∀ m, n ≤ m → P m ∧ rank m = b := by
      intro m hm
      induction hm with
      | refl => exact ⟨hn, hb⟩
      | @step m hm ihm =>
          obtain ⟨hP, hrank⟩ := ihm
          obtain hQ | ⟨hP', hle, _⟩ := hstep m hP
          · exact absurd ⟨m + 1, Nat.le_succ_of_le hm, hQ⟩ hnever
          · rw [hrank] at hle
            obtain hlt | heq := lt_or_eq_of_le hle
            · exact (hbelow (m + 1) (Nat.le_succ_of_le hm) hP' hlt).elim
            · exact ⟨hP', heq⟩
    obtain ⟨m, hm, hA⟩ := hfair n fun m hm => henabled m (hwaits m hm).1
    obtain ⟨hP, hrank⟩ := hwaits m hm
    obtain hQ | ⟨hP', _, hlower⟩ := hstep m hP
    · exact hnever ⟨m + 1, Nat.le_succ_of_le hm, hQ⟩
    · exact hbelow (m + 1) (Nat.le_succ_of_le hm) hP' (hrank ▸ hlower hA)

end Unending

/-- **A fair scheduler**: where some action can always be taken, a run goes on
for ever, fair to each of the `A j`.  They take turns. -/
theorem exists_fair (A : Nat → α → Prop) (hgoes : ∀ s, ∃ a s', M.step s a = some s') (s₀ : σ) :
    ∃ r : M.Unending, r.state 0 = s₀ ∧ ∀ j, r.Fair (A j) := by
  have hpick (s : σ) (n : Nat) : ∃ p : α × σ, M.step s p.1 = some p.2 ∧
      (M.Enabled (A n.unpair.1) s → A n.unpair.1 p.1) := by
    by_cases henabled : M.Enabled (A n.unpair.1) s
    · obtain ⟨a, s', ha, hs⟩ := henabled
      exact ⟨(a, s'), hs, fun _ => ha⟩
    · obtain ⟨a, s', hs⟩ := hgoes s
      exact ⟨(a, s'), hs, fun h => absurd h henabled⟩
  choose pick hstep hturn using hpick
  let state : Nat → σ := Nat.rec s₀ fun n s => (pick s n).2
  refine ⟨⟨state, fun n => (pick (state n) n).1, fun n => hstep (state n) n⟩, rfl, ?_⟩
  intro j n henabled
  -- its next turn
  refine ⟨Nat.pair j n, Nat.right_le_pair j n, ?_⟩
  have hacts := hturn (state (Nat.pair j n)) (Nat.pair j n)
  rw [Nat.unpair_pair] at hacts
  exact hacts (henabled _ (Nat.right_le_pair j n))

end Machine
end A2a
