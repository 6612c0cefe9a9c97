import Mathlib.Logic.Relation

/-!
# A2a.Program

Programs that ask their environment questions, with loops, and what holds
of all their runs.

A `Program Op α` asks questions `Op β`, each answered by a `β`, and ends with
an `α`.  `p.Runs R h r h'` is a run of `p` after the exchanges `h`: the
environment keeps to `R`, `h'` are all exchanges after it, newest first, and
`r` is the result, `none` if the run is not over.

`p.Ensures R I h Q` is the weakest precondition of `p` over histories: every
run from `h` keeps `I`, and ends in `Q` if it ends.  There is one rule for
each construct, with an invariant for a loop.

Nothing here names a program.
-/

namespace A2a

universe u v

/-- Ask and go on, or do a body until it leaves the loop and go on. -/
inductive Program (Op : Type → Type u) : Type → Type (max 1 u)
  | done {α : Type} (a : α) : Program Op α
  | askThen {α β : Type} (op : Op β) (k : β → Program Op α) : Program Op α
  | loopThen {α β σ : Type} (body : σ → Program Op (σ ⊕ β)) (s : σ) (k : β → Program Op α) :
      Program Op α

/-- A question and its answer. -/
structure Exchange (Op : Type → Type u) where
  {β : Type}
  op : Op β
  answer : β

namespace Program

variable {Op : Type → Type u} {Op' : Type → Type v} {α β γ σ ε ω : Type}

/-- Go on with the result. -/
def bind : {α : Type} → Program Op α → (α → Program Op γ) → Program Op γ
  | _, .done a, f => f a
  | _, .askThen op k, f => .askThen op fun b => (k b).bind f
  | _, .loopThen body s k, f => .loopThen body s fun b => (k b).bind f

theorem bind_assoc (p : Program Op α) (f : α → Program Op β) (g : β → Program Op γ) :
    (p.bind f).bind g = p.bind fun a => (f a).bind g := by
  induction p with
  | done a => rfl
  | askThen op k ih => simp only [bind, ih]
  | loopThen body s k _ ih => simp only [bind, ih]

instance : Monad (Program Op) where
  pure := .done
  bind := bind

/-- A question. -/
def ask (op : Op β) : Program Op β := .askThen op .done

/-- A loop: the body answers with its next state, or leaves. -/
def loop (body : σ → Program Op (σ ⊕ β)) (s : σ) : Program Op β := .loopThen body s .done

/-! ## runs -/

/-- A run of a program.  A loop goes through its body any number of times. -/
def Runs (R : List (Exchange Op) → Prop) :
    {α : Type} → Program Op α → List (Exchange Op) → Option α → List (Exchange Op) → Prop
  | _, .done a, h, r, h' => (r = none ∨ r = some a) ∧ h' = h
  | _, .askThen op k, h, r, h' =>
      (r = none ∧ h' = h) ∨ ∃ b, R (⟨op, b⟩ :: h) ∧ (k b).Runs R (⟨op, b⟩ :: h) r h'
  | _, .loopThen body s k, h, r, h' =>
      ∃ last, Relation.ReflTransGen
          (fun p q => (body p.1).Runs R p.2 (some (.inl q.1)) q.2) (s, h) last ∧
        ((r = none ∧ (body last.1).Runs R last.2 none h') ∨
          ∃ b h₁, (body last.1).Runs R last.2 (some (.inr b)) h₁ ∧ (k b).Runs R h₁ r h')

variable {R : List (Exchange Op) → Prop} {I : List (Exchange Op) → Prop}
  {h h' : List (Exchange Op)} {r : Option γ}

/-- A run that has not begun. -/
theorem runs_nil (p : Program Op α) : p.Runs R h none h := by
  induction p with
  | done a => exact ⟨.inl rfl, rfl⟩
  | askThen op k => exact .inl ⟨rfl, rfl⟩
  | loopThen body s k ih _ => exact ⟨(s, h), .refl, .inl ⟨rfl, ih s⟩⟩

theorem runs_done_iff {a b : γ} :
    (Program.done a : Program Op γ).Runs R h (some b) h' ↔ b = a ∧ h' = h := by
  constructor
  · rintro ⟨hb | hb, rfl⟩
    · contradiction
    · exact ⟨Option.some.inj hb, rfl⟩
  · rintro ⟨rfl, rfl⟩
    exact ⟨.inr rfl, rfl⟩

/-- A run of two programs, one after the other. -/
theorem runs_bind {p : Program Op α} {f : α → Program Op γ} (hr : (p.bind f).Runs R h r h') :
    (r = none ∧ p.Runs R h none h') ∨
      ∃ a h₁, p.Runs R h (some a) h₁ ∧ (f a).Runs R h₁ r h' := by
  induction p generalizing h with
  | done a => exact .inr ⟨a, h, ⟨.inr rfl, rfl⟩, hr⟩
  | askThen op k ih =>
      rcases hr with ⟨hnone, rfl⟩ | ⟨b, hb, hr⟩
      · exact .inl ⟨hnone, .inl ⟨rfl, rfl⟩⟩
      · rcases ih b hr with ⟨hnone, hp⟩ | ⟨a, h₁, hp, hf⟩
        · exact .inl ⟨hnone, .inr ⟨b, hb, hp⟩⟩
        · exact .inr ⟨a, h₁, .inr ⟨b, hb, hp⟩, hf⟩
  | loopThen body s k _ ih =>
      obtain ⟨last, hiterated, hr⟩ := hr
      rcases hr with ⟨hnone, hbody⟩ | ⟨b, h₁, hbody, hr⟩
      · exact .inl ⟨hnone, last, hiterated, .inl ⟨rfl, hbody⟩⟩
      · rcases ih b hr with ⟨hnone, hp⟩ | ⟨a, h₂, hp, hf⟩
        · exact .inl ⟨hnone, last, hiterated, .inr ⟨b, h₁, hbody, hp⟩⟩
        · exact .inr ⟨a, h₂, ⟨last, hiterated, .inr ⟨b, h₁, hbody, hp⟩⟩, hf⟩

/-- One run after the other. -/
theorem Runs.bind {p : Program Op α} {f : α → Program Op γ} {a : α} {h₁ : List (Exchange Op)}
    (hp : p.Runs R h (some a) h₁) (hf : (f a).Runs R h₁ r h') : (p.bind f).Runs R h r h' := by
  induction p generalizing h with
  | done b =>
      obtain ⟨hb, rfl⟩ := hp
      rcases hb with hb | hb
      · contradiction
      · cases hb
        exact hf
  | askThen op k ih =>
      rcases hp with ⟨hnone, _⟩ | ⟨b, hb, hp⟩
      · contradiction
      · exact .inr ⟨b, hb, ih b hp hf⟩
  | loopThen body s k _ ih =>
      obtain ⟨last, hiterated, ⟨hnone, _⟩ | ⟨b, h₂, hbody, hp⟩⟩ := hp
      · contradiction
      · exact ⟨last, hiterated, .inr ⟨b, h₂, hbody, ih b hp hf⟩⟩

/-! ## what a program ensures -/

/-- Every run keeps `I`, and ends in `Q` if it ends. -/
def Ensures (p : Program Op α) (R I : List (Exchange Op) → Prop) (h : List (Exchange Op))
    (Q : α → List (Exchange Op) → Prop) : Prop :=
  ∀ r h', p.Runs R h r h' → I h' ∧ ∀ a, r = some a → Q a h'

variable {Q : γ → List (Exchange Op) → Prop}

theorem Ensures.mono {p : Program Op γ} {Q' : γ → List (Exchange Op) → Prop}
    (hp : p.Ensures R I h Q) (hQ : ∀ a h', I h' → Q a h' → Q' a h') : p.Ensures R I h Q' := by
  intro r h' hr
  obtain ⟨hI, hend⟩ := hp r h' hr
  exact ⟨hI, fun a ha => hQ a h' hI (hend a ha)⟩

theorem Ensures.weaken {p : Program Op γ} {I' : List (Exchange Op) → Prop} (hp : p.Ensures R I h Q)
    (hI : ∀ h', I h' → I' h') : p.Ensures R I' h Q :=
  fun r h' hr => ⟨hI h' (hp r h' hr).1, (hp r h' hr).2⟩

theorem ensures_done {a : γ} (hI : I h) (hQ : Q a h) :
    (Program.done a : Program Op γ).Ensures R I h Q := by
  rintro r h' ⟨hr, rfl⟩
  refine ⟨hI, fun b hb => ?_⟩
  rcases hr with hr | hr
  · cases hr.symm.trans hb
  · cases hr.symm.trans hb
    exact hQ

/-- A question, whatever the answer. -/
theorem ensures_ask {op : Op β} {k : β → Program Op γ} (hI : I h)
    (hk : ∀ b, R (⟨op, b⟩ :: h) → (k b).Ensures R I (⟨op, b⟩ :: h) Q) :
    (Program.askThen op k).Ensures R I h Q := by
  rintro r h' (⟨rfl, rfl⟩ | ⟨b, hb, hr⟩)
  · exact ⟨hI, fun a ha => by cases ha⟩
  · exact hk b hb r h' hr

theorem ensures_bind {p : Program Op α} {f : α → Program Op γ}
    (hp : p.Ensures R I h fun a h' => (f a).Ensures R I h' Q) : (p.bind f).Ensures R I h Q := by
  intro r h' hr
  rcases runs_bind hr with ⟨rfl, hcut⟩ | ⟨a, h₁, hfirst, hf⟩
  · exact ⟨(hp _ _ hcut).1, fun a ha => by cases ha⟩
  · exact (hp _ _ hfirst).2 a rfl r h' hf

/-- A loop, by an invariant of its state and the history. -/
theorem ensures_loop {body : σ → Program Op (σ ⊕ β)} {s : σ} {k : β → Program Op γ}
    (inv : σ → List (Exchange Op) → Prop) (hinit : inv s h)
    (hbody : ∀ s h, inv s h →
      (body s).Ensures R I h (Sum.elim inv fun b h' => (k b).Ensures R I h' Q)) :
    (Program.loopThen body s k).Ensures R I h Q := by
  rintro r h' ⟨last, hiterated, hr⟩
  have hlast : inv last.1 last.2 := by
    clear hr
    induction hiterated with
    | refl => exact hinit
    | tail _ hstep ih => exact (hbody _ _ ih _ _ hstep).2 _ rfl
  rcases hr with ⟨rfl, hr⟩ | ⟨b, h₁, hr, hk⟩
  · exact ⟨(hbody _ _ hlast _ _ hr).1, fun a ha => by cases ha⟩
  · exact (hbody _ _ hlast _ _ hr).2 _ rfl r h' hk

/-- A condition on a result, or on a failure. -/
def onResult (ok : α → Prop) (failed : ε → Prop) : Except ε α → Prop
  | .ok a => ok a
  | .error e => failed e

/-- What a first program comes to decides whether there is a second one. -/
theorem ensures_bindExcept {p : ExceptT ε (Program Op) α} {f : α → ExceptT ε (Program Op) β}
    {Q : Except ε β → List (Exchange Op) → Prop}
    (hp : p.run.Ensures R I h fun r h' =>
      onResult (fun a => (f a).run.Ensures R I h' Q) (fun e => Q (.error e) h') r) :
    (p >>= f).run.Ensures R I h Q := by
  refine ensures_bind (hp.mono ?_)
  rintro (e | a) h' hI hend
  · exact ensures_done hI hend
  · exact hend

/-! ## what a program asks -/

/-- All exchanges of a program are of a kind. -/
def Asks (A : Exchange Op → Prop) : {α : Type} → Program Op α → Prop
  | _, .done _ => True
  | _, .askThen op k => ∀ b, A ⟨op, b⟩ ∧ (k b).Asks A
  | _, .loopThen body _ k => (∀ s, (body s).Asks A) ∧ ∀ b, (k b).Asks A

section asks

variable {A : Exchange Op → Prop}

theorem Asks.bind {p : Program Op α} {f : α → Program Op γ} (hp : p.Asks A)
    (hf : ∀ a, (f a).Asks A) : (p.bind f).Asks A := by
  induction p with
  | done a => exact hf a
  | askThen op k ih => exact fun b => ⟨(hp b).1, ih b (hp b).2 hf⟩
  | loopThen body s k _ ih => exact ⟨hp.1, fun b => ih b (hp.2 b) hf⟩

theorem Asks.mono {A' : Exchange Op → Prop} {p : Program Op γ} (hp : p.Asks A)
    (hA : ∀ e, A e → A' e) : p.Asks A' := by
  induction p with
  | done a => trivial
  | askThen op k ih => exact fun b => ⟨hA _ (hp b).1, ih b (hp b).2⟩
  | loopThen body s k ihbody ih => exact ⟨fun s => ihbody s (hp.1 s), fun b => ih b (hp.2 b)⟩

/-- What those exchanges keep, the program keeps. -/
theorem Asks.ensures {p : Program Op γ} (hp : p.Asks A) {P : List (Exchange Op) → Prop}
    (hP : ∀ e h, A e → P h → P (e :: h)) (hh : P h) : p.Ensures R P h fun _ h' => P h' := by
  induction p generalizing h with
  | done a => exact ensures_done hh hh
  | askThen op k ih => exact ensures_ask hh fun b _ => ih b (hp b).2 (hP _ h (hp b).1 hh)
  | loopThen body s k ihbody ih =>
      refine ensures_loop (fun _ h => P h) hh fun s h hh => (ihbody s (hp.1 s) hh).mono ?_
      rintro (s' | b) h' _ hh'
      · exact hh'
      · exact ih b (hp.2 b) hh'

end asks

/-! ## what a program spends -/

/-- The sum of what all exchanges cost. -/
def spent (cost : Exchange Op → Nat) : List (Exchange Op) → Nat
  | [] => 0
  | e :: h => cost e + spent cost h

/-- Every run, over or not, spends at most `n`. -/
def Within (p : Program Op α) (R : List (Exchange Op) → Prop) (cost : Exchange Op → Nat)
    (n : Nat) : Prop :=
  ∀ h r h', p.Runs R h r h' → spent cost h' ≤ spent cost h + n

section cost

variable {cost : Exchange Op → Nat} {m n : Nat}

theorem Within.mono {p : Program Op γ} (hp : p.Within R cost m) (hle : m ≤ n) : p.Within R cost n :=
  fun h r h' hr => Nat.le_trans (hp h r h' hr) (Nat.add_le_add_left hle _)

theorem within_done (a : γ) : (Program.done a : Program Op γ).Within R cost n := by
  rintro h r h' ⟨_, rfl⟩
  exact Nat.le_add_right _ _

theorem within_ask {op : Op β} {k : β → Program Op γ} (hcost : ∀ b, cost ⟨op, b⟩ = m)
    (hk : ∀ b, (k b).Within R cost n) : (Program.askThen op k).Within R cost (m + n) := by
  rintro h r h' (⟨_, rfl⟩ | ⟨b, _, hr⟩)
  · exact Nat.le_add_right _ _
  · have hrest := hk b _ r h' hr
    rw [spent, hcost] at hrest
    omega

theorem within_bind {p : Program Op α} {f : α → Program Op γ} (hp : p.Within R cost m)
    (hf : ∀ a, (f a).Within R cost n) : (p.bind f).Within R cost (m + n) := by
  intro h r h' hr
  rcases runs_bind hr with ⟨_, hcut⟩ | ⟨a, h₁, hfirst, hrest⟩
  · have hspent := hp _ _ _ hcut
    omega
  · have hspent := hp _ _ _ hfirst
    have hmore := hf a _ _ _ hrest
    omega

/-- A program whose exchanges cost nothing. -/
theorem Asks.within {A : Exchange Op → Prop} {p : Program Op γ} (hp : p.Asks A)
    (hA : ∀ e, A e → cost e = 0) : p.Within R cost n := by
  intro h r h' hr
  have hsame : ∀ e h₁, A e → spent cost h₁ = spent cost h → spent cost (e :: h₁) = spent cost h := by
    intro e h₁ he heq
    rw [spent, hA e he, heq, Nat.zero_add]
  have hend := (hp.ensures (R := R) hsame rfl r h' hr).1
  omega

end cost

/-! ## questions answered by programs -/

/-- A program with each question asked by a program of its own. -/
def interpret (f : {β : Type} → Op β → Program Op' β) : {α : Type} → Program Op α → Program Op' α
  | _, .done a => .done a
  | _, .askThen op k => (f op).bind fun b => interpret f (k b)
  | _, .loopThen body s k =>
      .loopThen (fun s => interpret f (body s)) s fun b => interpret f (k b)

section interpret

variable {f : {β : Type} → Op β → Program Op' β} {S : List (Exchange Op') → Prop}
  {Rel : List (Exchange Op) → List (Exchange Op') → Prop} {c c' : List (Exchange Op')}

/-- The questions of two programs, one after the other. -/
theorem interpret_bind (p : Program Op α) (g : α → Program Op γ) :
    interpret f (p.bind g) = (interpret f p).bind fun a => interpret f (g a) := by
  induction p with
  | done a => rfl
  | askThen op k ih => simp only [bind, interpret, ih, bind_assoc]
  | loopThen body s k _ ih => simp only [bind, interpret, ih]

/-- What the program of each question keeps, the interpreted program keeps. -/
theorem Asks.ensures_interpret {A : Exchange Op → Prop} {p : Program Op γ} (hp : p.Asks A)
    {P : List (Exchange Op') → Prop} (hop : ∀ (β : Type) (op : Op β) c, (∀ b, A ⟨op, b⟩) → P c →
      (f op).Ensures S P c fun _ c' => P c') (hc : P c) :
    (interpret f p).Ensures S P c fun _ c' => P c' := by
  induction p generalizing c with
  | done a => exact ensures_done hc hc
  | askThen op k ih =>
      refine ensures_bind ((hop _ op c (fun b => (hp b).1) hc).mono ?_)
      exact fun b c' _ hc' => ih b (hp b).2 hc'
  | loopThen body s k ihbody ih =>
      refine ensures_loop (fun _ c => P c) hc fun s c hc => (ihbody s (hp.1 s) hc).mono ?_
      rintro (s' | b) c' _ hc'
      · exact hc'
      · exact ih b (hp.2 b) hc'

/-- **A run of the interpreted program is a run of the program**, with its
exchanges carried out, if each question's own program carries it out; a run
that is not over may be within such a program, of a question that is next. -/
theorem runs_interpret
    (hop : ∀ {β : Type} (op : Op β) h c b c', Rel h c → (f op).Runs S c (some b) c' →
      R (⟨op, b⟩ :: h) ∧ Rel (⟨op, b⟩ :: h) c')
    {p : Program Op γ} (hrel : Rel h c) (hr : (interpret f p).Runs S c r c') :
    ∃ h', p.Runs R h r h' ∧ (Rel h' c' ∨ r = none ∧ ∃ β, ∃ op : Op β, ∃ c₁, Rel h' c₁ ∧
      (f op).Runs S c₁ none c' ∧ ∀ b, R (⟨op, b⟩ :: h') → p.Runs R h none (⟨op, b⟩ :: h')) := by
  induction p generalizing h c c' with
  | done a =>
      obtain ⟨hr, rfl⟩ := hr
      exact ⟨h, ⟨hr, rfl⟩, .inl hrel⟩
  | askThen op k ih =>
      rcases runs_bind hr with ⟨rfl, hcut⟩ | ⟨b, c₁, hfirst, hr⟩
      · refine ⟨h, .inl ⟨rfl, rfl⟩, .inr ⟨rfl, _, op, c, hrel, hcut, fun b hR => ?_⟩⟩
        exact .inr ⟨b, hR, runs_nil _⟩
      · obtain ⟨hR, hrel⟩ := hop op h c b c₁ hrel hfirst
        obtain ⟨h', hk, hend⟩ := ih b hrel hr
        refine ⟨h', .inr ⟨b, hR, hk⟩, hend.imp_right ?_⟩
        rintro ⟨hnone, β', op', c₂, hrel₂, hwithin, hnext⟩
        exact ⟨hnone, β', op', c₂, hrel₂, hwithin, fun b' hR' => .inr ⟨b, hR, hnext b' hR'⟩⟩
  | loopThen body s k ihbody ihk =>
      obtain ⟨last, hiterated, hr⟩ := hr
      have hlast : ∃ h₁, Relation.ReflTransGen
          (fun p q => (body p.1).Runs R p.2 (some (.inl q.1)) q.2) (s, h) (last.1, h₁) ∧
            Rel h₁ last.2 := by
        clear hr
        induction hiterated with
        | refl => exact ⟨h, .refl, hrel⟩
        | tail _ hstep ih =>
            obtain ⟨h₁, hiterated, hrel₁⟩ := ih
            obtain ⟨h₂, hbody, hrel₂ | ⟨hnone, _⟩⟩ := ihbody _ hrel₁ hstep
            · exact ⟨h₂, hiterated.tail hbody, hrel₂⟩
            · contradiction
      obtain ⟨h₁, hiterated, hrel₁⟩ := hlast
      rcases hr with ⟨rfl, hbody⟩ | ⟨b, c₁, hbody, hr⟩
      · obtain ⟨h', hbody, hend⟩ := ihbody _ hrel₁ hbody
        refine ⟨h', ⟨_, hiterated, .inl ⟨rfl, hbody⟩⟩, ?_⟩
        rcases hend with hrel₂ | ⟨_, β', op', c₂, hrel₂, hwithin, hnext⟩
        · exact .inl hrel₂
        · refine .inr ⟨rfl, β', op', c₂, hrel₂, hwithin, fun b' hR' => ?_⟩
          exact ⟨_, hiterated, .inl ⟨rfl, hnext b' hR'⟩⟩
      · obtain ⟨h₂, hbody, hrel₂ | ⟨hnone, _⟩⟩ := ihbody _ hrel₁ hbody
        · obtain ⟨h', hk, hend⟩ := ihk b hrel₂ hr
          refine ⟨h', ⟨_, hiterated, .inr ⟨b, h₂, hbody, hk⟩⟩, hend.imp_right ?_⟩
          rintro ⟨hnone, β', op', c₂, hrel₃, hwithin, hnext⟩
          refine ⟨hnone, β', op', c₂, hrel₃, hwithin, fun b' hR' => ?_⟩
          exact ⟨_, hiterated, .inr ⟨b, h₂, hbody, hnext b' hR'⟩⟩
        · contradiction

end interpret

/-! ## running a program -/

/-- The run in an environment that answers each question, if it ends within
so many steps: the result and all exchanges. -/
def eval (answer : {β : Type} → Op β → ω → β × ω) :
    Nat → {α : Type} → Program Op α → ω → List (Exchange Op) → Option (α × ω × List (Exchange Op))
  | 0, _, _, _, _ => none
  | _ + 1, _, .done a, w, h => some (a, w, h)
  | n + 1, _, .askThen op k, w, h =>
      eval answer n (k (answer op w).1) (answer op w).2 (⟨op, (answer op w).1⟩ :: h)
  | n + 1, _, .loopThen body s k, w, h =>
      match eval answer n (body s) w h with
      | none => none
      | some (.inl s, w, h) => eval answer n (.loopThen body s k) w h
      | some (.inr b, w, h) => eval answer n (k b) w h

/-- What an environment does is a run; `inv` says how it keeps to `R`. -/
theorem runs_of_eval {answer : {β : Type} → Op β → ω → β × ω} (inv : ω → List (Exchange Op) → Prop)
    (hkeeps : ∀ (β : Type) (op : Op β) w h, inv w h → R (⟨op, (answer op w).1⟩ :: h) ∧
      inv (answer op w).2 (⟨op, (answer op w).1⟩ :: h))
    {n : Nat} {p : Program Op γ} {w w' : ω} {a : γ} (hinv : inv w h)
    (heval : eval answer n p w h = some (a, w', h')) : p.Runs R h (some a) h' ∧ inv w' h' := by
  induction n generalizing γ w w' h h' with
  | zero => contradiction
  | succ n ih =>
      cases p with
      | done b =>
          cases heval
          exact ⟨⟨.inr rfl, rfl⟩, hinv⟩
      | askThen op k =>
          obtain ⟨hR, hinv⟩ := hkeeps _ op w h hinv
          obtain ⟨hr, hinv⟩ := ih hinv heval
          exact ⟨.inr ⟨_, hR, hr⟩, hinv⟩
      | loopThen body s k =>
          rw [eval] at heval
          split at heval
          · contradiction
          · next s₁ w₁ h₁ hbody =>
            obtain ⟨hbody, hinv⟩ := ih hinv hbody
            obtain ⟨⟨last, hiterated, hend⟩, hinv⟩ := ih hinv heval
            exact ⟨⟨last, .head hbody hiterated, hend⟩, hinv⟩
          · next b w₁ h₁ hbody =>
            obtain ⟨hbody, hinv⟩ := ih hinv hbody
            obtain ⟨hk, hinv⟩ := ih hinv heval
            exact ⟨⟨(s, h), .refl, .inr ⟨b, h₁, hbody, hk⟩⟩, hinv⟩

end Program
end A2a
