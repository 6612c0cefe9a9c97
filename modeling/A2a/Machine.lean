import Mathlib.Data.List.Basic

/-!
# A2a.Machine

Transition systems with runs, the frame every concurrent part of this
development is stated in.

A `Machine` is a partial step function: `step s a` is the state after the
action `a`, or `none` where `a` cannot happen in `s`.  A `Run` records the
states it went through and the action taken in each, so a property may
speak about the past of a state:

* `Run.invariant` — what one step preserves, a run preserves;
* `Run.guarded`, `Run.guardedBy` — the same for runs whose steps all meet
  a condition, on the state or on the run so far;
* `run_of_exec` — a script of actions that executes is a run.

Nothing here names a program.
-/

namespace A2a

/-- A transition system: the state after an action, `none` where the action
is not enabled. -/
structure Machine (σ α : Type) where
  step : σ → α → Option σ

namespace Machine

variable {σ α : Type} {M : Machine σ α}

/-- `M.Run s₀ tr s`: a run from `s₀` to `s`; `tr` lists each state it left,
with the action it left it by, oldest first. -/
inductive Run (M : Machine σ α) (s₀ : σ) : List (σ × α) → σ → Prop
  | nil : Run M s₀ [] s₀
  | snoc {tr : List (σ × α)} {s s' : σ} {a : α} :
      Run M s₀ tr s → M.step s a = some s' → Run M s₀ (tr ++ [(s, a)]) s'

/-- Two runs, the second from where the first came to. -/
theorem Run.append {tr' : List (σ × α)} (hr : M.Run s₀ tr s) (hr' : M.Run s tr' s') :
    M.Run s₀ (tr ++ tr') s' := by
  induction hr' with
  | nil =>
      rw [List.append_nil]
      exact hr
  | snoc _ hs ih =>
      rw [← List.append_assoc]
      exact ih.snoc hs

/-- **Invariant rule**: what holds at the start and is preserved by every
step holds after every run.  The invariant may mention the steps taken. -/
theorem Run.invariant {I : List (σ × α) → σ → Prop} (h0 : I [] s₀)
    (hstep : ∀ tr s a s', I tr s → M.step s a = some s' → I (tr ++ [(s, a)]) s')
    (hr : M.Run s₀ tr s) : I tr s := by
  induction hr with
  | nil => exact h0
  | snoc _ hs ih => exact hstep _ _ _ _ ih hs

/-- Every step of the run meets `C` in the state it is taken in. -/
def Guarded (C : σ → α → Prop) (tr : List (σ × α)) : Prop :=
  ∀ p ∈ tr, C p.1 p.2

theorem guarded_nil (C : σ → α → Prop) : Guarded C [] := fun _ hp => (List.not_mem_nil hp).elim

theorem guarded_snoc {C : σ → α → Prop} :
    Guarded C (tr ++ [(s, a)]) ↔ Guarded C tr ∧ C s a := by
  simp only [Guarded, List.mem_append, List.mem_singleton]
  constructor
  · intro h
    exact ⟨fun p hp => h p (.inl hp), h (s, a) (.inr rfl)⟩
  · rintro ⟨h, hc⟩ p (hp | rfl)
    · exact h p hp
    · exact hc

/-- **Guarded invariant rule**: an invariant need only survive the steps
that meet the condition. -/
theorem Run.guarded {C : σ → α → Prop} {I : List (σ × α) → σ → Prop} (h0 : I [] s₀)
    (hstep : ∀ tr s a s', I tr s → C s a → M.step s a = some s' → I (tr ++ [(s, a)]) s')
    (hr : M.Run s₀ tr s) (hg : Guarded C tr) : I tr s := by
  induction hr with
  | nil => exact h0
  | snoc _ hs ih =>
      obtain ⟨hg', hc⟩ := guarded_snoc.mp hg
      exact hstep _ _ _ _ (ih hg') hc hs

/-- Guarded invariant rule for invariants of the state alone. -/
theorem Run.guarded_state {C : σ → α → Prop} {I : σ → Prop} (h0 : I s₀)
    (hstep : ∀ s a s', I s → C s a → M.step s a = some s' → I s')
    (hr : M.Run s₀ tr s) (hg : Guarded C tr) : I s :=
  hr.guarded (I := fun _ s => I s) h0 (fun _ s a s' => hstep s a s') hg

/-- Every step of the run meets `C`, which may look at the run before it. -/
def GuardedBy (C : List (σ × α) → σ → α → Prop) (tr : List (σ × α)) : Prop :=
  ∀ tr₁ s a tr₂, tr = tr₁ ++ (s, a) :: tr₂ → C tr₁ s a

theorem GuardedBy.of_snoc {C : List (σ × α) → σ → α → Prop} (h : GuardedBy C (tr ++ [(s, a)])) :
    GuardedBy C tr ∧ C tr s a := by
  refine ⟨fun tr₁ s₁ a₁ tr₂ he => ?_, h tr s a [] rfl⟩
  exact h tr₁ s₁ a₁ (tr₂ ++ [(s, a)]) (by simp [he])

theorem GuardedBy.snoc {C : List (σ × α) → σ → α → Prop} (h : GuardedBy C tr) (hc : C tr s a) :
    GuardedBy C (tr ++ [(s, a)]) := by
  intro tr₁ s₁ a₁ tr₂ he
  rcases List.eq_nil_or_concat tr₂ with rfl | ⟨tr₃, q, rfl⟩
  · obtain ⟨rfl, hp⟩ := List.append_inj' he rfl
    obtain ⟨rfl, rfl⟩ : s = s₁ ∧ a = a₁ := by simpa using hp
    exact hc
  · have he' : tr ++ [(s, a)] = (tr₁ ++ (s₁, a₁) :: tr₃) ++ [q] := by simpa using he
    exact h tr₁ s₁ a₁ tr₃ (List.append_inj' he' rfl).1

/-- Guarded invariant rule for conditions on the run so far. -/
theorem Run.guardedBy {C : List (σ × α) → σ → α → Prop} {I : List (σ × α) → σ → Prop}
    (h0 : I [] s₀)
    (hstep : ∀ tr s a s', I tr s → C tr s a → M.step s a = some s' → I (tr ++ [(s, a)]) s')
    (hr : M.Run s₀ tr s) (hg : GuardedBy C tr) : I tr s := by
  induction hr with
  | nil => exact h0
  | snoc _ hs ih =>
      obtain ⟨hg', hc⟩ := hg.of_snoc
      exact hstep _ _ _ _ (ih hg') hc hs

/-- Every state a run left is itself reached by a run, a prefix of it. -/
theorem Run.prefix_of_split (hr : M.Run s₀ tr s) :
    ∀ tr₁ p tr₂, tr = tr₁ ++ p :: tr₂ → M.Run s₀ tr₁ p.1 := by
  induction hr with
  | nil => intro tr₁ p tr₂ h; simp at h
  | @snoc tr s s' a hr hs ih =>
      intro tr₁ p tr₂ h
      rcases List.eq_nil_or_concat tr₂ with rfl | ⟨tr₃, q, rfl⟩
      · obtain ⟨rfl, hp⟩ := List.append_inj' h rfl
        obtain rfl : (s, a) = p := by simpa using hp
        exact hr
      · have h' : tr ++ [(s, a)] = (tr₁ ++ p :: tr₃) ++ [q] := by simpa using h
        exact ih tr₁ p tr₃ (List.append_inj' h' rfl).1

/-! ## executing a script -/

/-- Take the actions one after another, recording the run. -/
def execFrom (M : Machine σ α) : List (σ × α) → σ → List α → Option (List (σ × α) × σ)
  | tr, s, [] => some (tr, s)
  | tr, s, a :: as =>
      match M.step s a with
      | none => none
      | some s' => execFrom M (tr ++ [(s, a)]) s' as

/-- The run of a script of actions from `s`, if each is enabled. -/
def exec (M : Machine σ α) (s : σ) (as : List α) : Option (List (σ × α) × σ) :=
  execFrom M [] s as

theorem run_of_execFrom (hr : M.Run s₀ tr s) (h : M.execFrom tr s as = some (tr', s')) :
    M.Run s₀ tr' s' := by
  induction as generalizing tr s with
  | nil =>
      simp only [execFrom, Option.some.injEq, Prod.mk.injEq] at h
      obtain ⟨rfl, rfl⟩ := h
      exact hr
  | cons a as ih =>
      simp only [execFrom] at h
      split at h
      · contradiction
      · next s'' hs => exact ih (hr.snoc hs) h

/-- **A script that executes is a run.** -/
theorem run_of_exec (h : M.exec s₀ as = some (tr, s)) : M.Run s₀ tr s :=
  run_of_execFrom .nil h

theorem actions_of_execFrom {tr : List (σ × α)} (h : M.execFrom tr s as = some (tr', s')) :
    tr'.map (·.2) = tr.map (·.2) ++ as := by
  induction as generalizing tr s with
  | nil =>
      simp only [execFrom, Option.some.injEq, Prod.mk.injEq] at h
      rw [← h.1, List.append_nil]
  | cons a as ih =>
      simp only [execFrom] at h
      split at h
      · contradiction
      · rw [ih h]
        simp

/-- Its actions are the script's. -/
theorem actions_of_exec (h : M.exec s₀ as = some (tr, s)) : tr.map (·.2) = as :=
  actions_of_execFrom h

end Machine

end A2a
