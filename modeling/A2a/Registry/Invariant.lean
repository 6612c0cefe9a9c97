import A2a.Registry
import Mathlib.Data.List.Count

/-!
# A2a.Registry.Invariant

The invariant of the execution registry under every interleaving of its
operations, in two independent parts:

* `Maps` — an execution is registered under one id, and a registered task
  has no queue once the `start` that registered it has taken it;
* `Tokens` — a waiter's sender is one token, which is in its task's queue,
  in the hand of one `start` or `release`, or spent on one hand-over.
-/

namespace A2a

namespace RegistryState

/-! ## the two maps -/

/-- What holds of the two maps between any two locked sections. -/
structure Maps (s : RegistryState) : Prop where
  fresh : ∀ id x, s.manager.executions id = some x → x < s.nextExec
  inj : ∀ id id' x, s.manager.executions id = some x → s.manager.executions id' = some x → id = id'
  starting : ∀ c, s.starting = some c → s.manager.executions c.id = some c.exec
  quiet : ∀ id x, s.manager.executions id = some x →
    (∀ c, s.starting = some c → c.id = id → c.taken ≠ none) → s.manager.waiting id = []

/-- `send` touches neither map. -/
@[simp] theorem send_manager (s : RegistryState) (w : WaiterId) (v : Handover) :
    (s.send w v).manager = s.manager := by
  unfold send; split <;> rfl

@[simp] theorem send_starting (s : RegistryState) (w : WaiterId) (v : Handover) :
    (s.send w v).starting = s.starting := by
  unfold send; split <;> rfl

@[simp] theorem send_nextExec (s : RegistryState) (w : WaiterId) (v : Handover) :
    (s.send w v).nextExec = s.nextExec := by
  unfold send; split <;> rfl

@[simp] theorem send_releasing (s : RegistryState) (w : WaiterId) (v : Handover) :
    (s.send w v).releasing = s.releasing := by
  unfold send; split <;> rfl

@[simp] theorem send_phase (s : RegistryState) (w : WaiterId) (v : Handover) :
    (s.send w v).phase = s.phase := by
  unfold send; split <;> rfl

@[simp] theorem send_home (s : RegistryState) (w : WaiterId) (v : Handover) :
    (s.send w v).home = s.home := by
  unfold send; split <;> rfl

@[simp] theorem send_nextWaiter (s : RegistryState) (w : WaiterId) (v : Handover) :
    (s.send w v).nextWaiter = s.nextWaiter := by
  unfold send; split <;> rfl

theorem maps_empty : Maps empty where
  fresh := by intro id x h; simp [empty, ExecutionManager.empty] at h
  inj := by intro id id' x h; simp [empty, ExecutionManager.empty] at h
  starting := by intro c h; simp [empty] at h
  quiet := by intro id x h; simp [empty, ExecutionManager.empty] at h

/-- A queue may shrink, and a `start` may move on, without harm to the maps. -/
theorem Maps.shrink {s s' : RegistryState} (h : Maps s)
    (he : s'.manager.executions = s.manager.executions) (hn : s'.nextExec = s.nextExec)
    (hw : ∀ id, s.manager.waiting id = [] → s'.manager.waiting id = [])
    (hs : s'.starting = s.starting) : Maps s' where
  fresh := by rw [he, hn]; exact h.fresh
  inj := by rw [he]; exact h.inj
  starting := by rw [he, hs]; exact h.starting
  quiet := by
    rw [he, hs]
    exact fun id x hx hc => hw id (h.quiet id x hx hc)

theorem Maps.step {s s' : RegistryState} {op : RegistryOp} (h : Maps s)
    (hs : RegistryState.step s op = some s') : Maps s' := by
  cases op with
  | start id =>
      simp only [RegistryState.step] at hs
      split at hs
      · next hstart hfree =>
        obtain rfl := Option.some.inj hs
        constructor
        · intro k x hk
          by_cases hid : k = id
          · subst hid
            simp [ExecutionManager.insert] at hk
            simp [← hk]
          · simp only [ExecutionManager.insert, Function.update_of_ne hid] at hk
            exact Nat.lt_succ_of_lt (h.fresh k x hk)
        · intro k k' x hk hk'
          simp only [ExecutionManager.insert, Function.update_apply] at hk hk'
          split at hk <;> split at hk'
          · simp [*]
          · obtain rfl := Option.some.inj hk
            exact absurd (h.fresh k' _ hk') (Nat.lt_irrefl _)
          · obtain rfl := Option.some.inj hk'
            exact absurd (h.fresh k _ hk) (Nat.lt_irrefl _)
          · exact h.inj k k' x hk hk'
        · intro c hc
          obtain rfl := Option.some.inj hc
          simp [ExecutionManager.insert]
        · intro k x hk hc
          have hid : k ≠ id := fun hid => hc _ rfl hid.symm rfl
          simp only [ExecutionManager.insert, Function.update_of_ne hid] at hk ⊢
          exact h.quiet k x hk fun c hsome => by simp [hstart] at hsome
      · obtain rfl := Option.some.inj hs
        exact h
      · contradiction
  | startTake =>
      simp only [RegistryState.step] at hs
      split at hs
      · next id x hstart =>
        obtain rfl := Option.some.inj hs
        constructor
        · exact h.fresh
        · exact h.inj
        · intro c hc
          obtain rfl := Option.some.inj hc
          exact h.starting ⟨id, x, none⟩ hstart
        · intro k y hk _
          simp only [ExecutionManager.takeWaiting, Function.update_apply]
          split
          · rfl
          · next hid =>
            refine h.quiet k y hk fun c hc hck => ?_
            obtain rfl := Option.some.inj (hstart.symm.trans hc)
            exact absurd hck.symm hid
      · contradiction
  | startSend =>
      simp only [RegistryState.step] at hs
      split at hs
      · next id x w ws hstart =>
        obtain rfl := Option.some.inj hs
        constructor
        · simpa using h.fresh
        · simpa using h.inj
        · intro c hc
          obtain rfl := Option.some.inj hc
          simpa using h.starting _ hstart
        · intro k y hk _
          rw [send_manager] at hk ⊢
          refine h.quiet k y hk fun c hc _ => ?_
          obtain rfl := Option.some.inj (hstart.symm.trans hc)
          simp
      · contradiction
  | startEnd =>
      simp only [RegistryState.step] at hs
      split at hs
      · next id x hstart =>
        obtain rfl := Option.some.inj hs
        constructor
        · exact h.fresh
        · exact h.inj
        · intro c hc; contradiction
        · intro k y hk _
          refine h.quiet k y hk fun c hc _ => ?_
          obtain rfl := Option.some.inj (hstart.symm.trans hc)
          simp
      · contradiction
  | subscribe id =>
      simp only [RegistryState.step] at hs
      split at hs
      · next hstart =>
        obtain rfl := Option.some.inj hs
        unfold RegistryState.subscribe
        split
        · exact h.shrink (by simp [spawnWaiter]) (by simp [spawnWaiter])
            (by simp [spawnWaiter]) (by simp [spawnWaiter])
        · next hfree =>
          refine ⟨h.fresh, h.inj, h.starting, fun k x hk hc => ?_⟩
          have hid : k ≠ id := by
            rintro rfl
            rw [show s.manager.executions k = some x from hk] at hfree
            contradiction
          simp only [ExecutionManager.enqueue, Function.update_of_ne hid]
          exact h.quiet k x hk hc
      · contradiction
  | finish id x =>
      simp only [RegistryState.step] at hs
      split at hs
      · next hstart =>
        obtain rfl := Option.some.inj hs
        unfold ExecutionManager.finish
        split
        · have hsub : ∀ k y, Function.update s.manager.executions id none k = some y →
              s.manager.executions k = some y := by
            intro k y hk
            simp only [Function.update_apply] at hk
            split at hk
            · contradiction
            · exact hk
          constructor
          · exact fun k y hk => h.fresh k y (hsub k y hk)
          · exact fun k k' y hk hk' => h.inj k k' y (hsub k y hk) (hsub k' y hk')
          · intro c hc; simp [hstart] at hc
          · exact fun k y hk hc => h.quiet k y (hsub k y hk) hc
        · exact h
      · contradiction
  | release id =>
      obtain rfl := Option.some.inj hs
      refine h.shrink rfl rfl (fun k hk => ?_) rfl
      simp only [ExecutionManager.takeWaiting, Function.update_apply]
      split
      · rfl
      · exact hk
  | releaseSend k =>
      simp only [RegistryState.step] at hs
      split at hs
      · obtain rfl := Option.some.inj hs
        exact h.shrink (by simp) (by simp) (by simp) (by simp)
      · contradiction
  | dropClose w =>
      simp only [RegistryState.step] at hs
      split at hs
      · obtain rfl := Option.some.inj hs
        exact h.shrink rfl rfl (fun _ hk => hk) rfl
      · contradiction
  | dropRetain w =>
      simp only [RegistryState.step] at hs
      split at hs
      · obtain rfl := Option.some.inj hs
        refine h.shrink rfl rfl (fun k hk => ?_) rfl
        simp only [ExecutionManager.retainOpen, Function.update_apply]
        split
        · next hk' => rw [← hk', hk]; rfl
        · exact hk
      · contradiction

/-! ## the tokens -/

/-- The waiters some `start` or `release` has taken and not yet handed
anything. -/
def inHand (s : RegistryState) : List WaiterId :=
  (s.starting.bind (·.taken)).getD [] ++ s.releasing.flatten

/-- Where the sender of a waiter is, counted: in its task's queue, in some
operation's hand, or spent. -/
def tokens (s : RegistryState) (w : WaiterId) : Nat :=
  (s.manager.waiting (s.home w)).count w + s.inHand.count w + (s.inbox w).length

/-- What holds of the waiters between any two locked sections. -/
structure Tokens (s : RegistryState) : Prop where
  home : ∀ id w, w ∈ s.manager.waiting id → s.home w = id
  unborn : ∀ w, s.nextWaiter ≤ w → s.phase w = .unborn ∧ (∀ id, w ∉ s.manager.waiting id) ∧
    s.tokens w = 0
  born : ∀ w, w < s.nextWaiter → s.phase w ≠ .unborn
  live : ∀ w, s.phase w = .live → s.tokens w = 1
  le_one : ∀ w, s.tokens w ≤ 1
  dropped : ∀ w, s.phase w = .dropped → w ∉ s.manager.waiting (s.home w)

theorem tokens_empty : Tokens empty where
  home := by intro id w h; simp [empty, ExecutionManager.empty] at h
  unborn := by intro w _; simp [empty, ExecutionManager.empty, tokens, inHand]
  born := by intro w h; simp [empty] at h
  live := by intro w h; simp [empty] at h
  le_one := by intro w; simp [empty, ExecutionManager.empty, tokens, inHand]
  dropped := by intro w h; simp [empty] at h

/-- A section that only moves tokens about, and queues nobody, keeps the
invariant; a closed waiter's token may get lost. -/
theorem Tokens.move {s s' : RegistryState} (h : Tokens s) (hhome : s'.home = s.home)
    (hnext : s'.nextWaiter = s.nextWaiter) (hphase : s'.phase = s.phase)
    (hq : ∀ id w, w ∈ s'.manager.waiting id → w ∈ s.manager.waiting id)
    (htok : ∀ w, s'.tokens w = s.tokens w ∨ ((s.phase w).isClosed = true ∧
      s'.tokens w ≤ s.tokens w)) : Tokens s' where
  home id w hw := by rw [hhome]; exact h.home id w (hq id w hw)
  unborn w hw := by
    rw [hnext] at hw
    obtain ⟨hp, hnot, hzero⟩ := h.unborn w hw
    refine ⟨by rw [hphase]; exact hp, fun id hm => hnot id (hq id w hm), ?_⟩
    rcases htok w with he | ⟨_, hle⟩ <;> omega
  born w hw := by rw [hphase]; exact h.born w (hnext ▸ hw)
  live w hw := by
    rw [hphase] at hw
    have hone := h.live w hw
    rcases htok w with he | ⟨hc, _⟩
    · omega
    · rw [hw] at hc; contradiction
  le_one w := by
    have hle := h.le_one w
    rcases htok w with he | ⟨_, hle'⟩ <;> omega
  dropped w hw := by
    rw [hphase] at hw
    rw [hhome]
    exact fun hm => h.dropped w hw (hq _ w hm)

/-- Taking the front of the `k`-th list takes one token out of the hand. -/
theorem count_flatten_set {ls : List (List WaiterId)} (h : ls[k]? = some (w :: ws))
    (v : WaiterId) :
    ls.flatten.count v = (ls.set k ws).flatten.count v + if w = v then 1 else 0 := by
  induction ls generalizing k with
  | nil => simp at h
  | cons l ls ih =>
      cases k with
      | zero =>
          obtain rfl : l = w :: ws := by simpa using h
          simp [List.count_cons]
      | succ k =>
          have := ih (k := k) (by simpa using h)
          simp only [List.flatten_cons, List.set_cons_succ, List.count_append]
          omega

/-- Taking a task's queue moves its tokens into the taker's hand. -/
theorem count_takeWaiting {s : RegistryState} (h : Tokens s) (id : TaskId) (w : WaiterId) :
    ((s.manager.takeWaiting id).waiting (s.home w)).count w + (s.manager.waiting id).count w =
      (s.manager.waiting (s.home w)).count w := by
  simp only [ExecutionManager.takeWaiting, Function.update_apply]
  split
  · next hid => simp [hid]
  · next hid =>
    have hnot : w ∉ s.manager.waiting id := fun hm => hid (h.home id w hm)
    simp [List.count_eq_zero_of_not_mem hnot]

theorem mem_takeWaiting {m : ExecutionManager} {id k : TaskId}
    (h : w ∈ (m.takeWaiting id).waiting k) : w ∈ m.waiting k := by
  simp only [ExecutionManager.takeWaiting, Function.update_apply] at h
  split at h
  · simp at h
  · exact h

/-- Sending spends the token on the inbox, or loses it on a closed one. -/
theorem length_inbox_send (s : RegistryState) (w v : WaiterId) (value : Handover) :
    ((s.send w value).inbox v).length = (s.inbox v).length +
      if w = v ∧ (s.phase w).isClosed = false then 1 else 0 := by
  unfold send
  cases hc : (s.phase w).isClosed with
  | true => simp
  | false =>
      by_cases hv : w = v
      · subst hv; simp
      · simp [hv, Function.update_of_ne (Ne.symm hv)]

/-- A new waiter brings its one token. -/
theorem Tokens.spawn {s s' : RegistryState} (h : Tokens s) (id : TaskId)
    (hhome : s'.home = Function.update s.home s.nextWaiter id)
    (hphase : s'.phase = Function.update s.phase s.nextWaiter .live)
    (hnext : s'.nextWaiter = s.nextWaiter + 1)
    (hq : ∀ k w, w ∈ s'.manager.waiting k → w ∈ s.manager.waiting k ∨ (w = s.nextWaiter ∧ k = id))
    (htok : ∀ w, w ≠ s.nextWaiter → s'.tokens w = s.tokens w)
    (hnew : s'.tokens s.nextWaiter = 1) : Tokens s' where
  home k w hw := by
    rw [hhome]
    rcases hq k w hw with hm | ⟨rfl, rfl⟩
    · have hne : w ≠ s.nextWaiter := by
        rintro rfl
        exact (h.unborn _ le_rfl).2.1 k hm
      rw [Function.update_of_ne hne]
      exact h.home k w hm
    · rw [Function.update_self]
  unborn w hw := by
    have hlt : s.nextWaiter < w := by rw [hnext] at hw; exact hw
    have hne : w ≠ s.nextWaiter := Nat.ne_of_gt hlt
    obtain ⟨hp, hnot, hzero⟩ := h.unborn w (Nat.le_of_lt hlt)
    refine ⟨by rw [hphase, Function.update_of_ne hne]; exact hp, fun k hm => ?_, ?_⟩
    · rcases hq k w hm with hm | ⟨he, _⟩
      · exact hnot k hm
      · exact hne he
    · rw [htok w hne]; exact hzero
  born w hw := by
    rw [hphase]
    by_cases hne : w = s.nextWaiter
    · subst hne; simp
    · rw [Function.update_of_ne hne]
      rw [hnext] at hw
      exact h.born w (Nat.lt_of_le_of_ne (Nat.lt_succ_iff.mp hw) hne)
  live w hw := by
    by_cases hne : w = s.nextWaiter
    · subst hne; exact hnew
    · rw [hphase, Function.update_of_ne hne] at hw
      rw [htok w hne]
      exact h.live w hw
  le_one w := by
    by_cases hne : w = s.nextWaiter
    · subst hne; exact hnew.le
    · rw [htok w hne]; exact h.le_one w
  dropped w hw := by
    by_cases hne : w = s.nextWaiter
    · subst hne
      rw [hphase, Function.update_self] at hw
      contradiction
    · rw [hphase, Function.update_of_ne hne] at hw
      rw [hhome, Function.update_of_ne hne]
      intro hm
      rcases hq _ w hm with hm | ⟨he, _⟩
      · exact h.dropped w hw hm
      · exact hne he

theorem Tokens.subscribe {s : RegistryState} (h : Tokens s) (id : TaskId) :
    Tokens (s.subscribe id) := by
  obtain ⟨_, hnot, hzero⟩ := h.unborn s.nextWaiter le_rfl
  simp only [tokens] at hzero
  unfold RegistryState.subscribe
  split
  · next x hx =>
    have hopen : (((s.spawnWaiter id).phase s.nextWaiter).isClosed) = false := by
      simp [spawnWaiter, WaiterPhase.isClosed]
    refine h.spawn id (by simp [spawnWaiter]) (by simp [spawnWaiter]) (by simp [spawnWaiter])
      (fun k w hw => .inl (by simpa [spawnWaiter] using hw)) (fun w hne => ?_) ?_
    · have hlen := length_inbox_send (s.spawnWaiter id) s.nextWaiter w (.execution x)
      simp only [tokens, inHand, send_manager, send_home, send_starting, send_releasing, hlen]
      simp [spawnWaiter, Function.update_of_ne hne, Ne.symm hne]
    · have hlen := length_inbox_send (s.spawnWaiter id) s.nextWaiter s.nextWaiter (.execution x)
      rw [if_pos ⟨rfl, hopen⟩] at hlen
      simp only [tokens, inHand, send_manager, send_home, send_starting, send_releasing, hlen]
      simp only [spawnWaiter, Function.update_self, List.count_eq_zero_of_not_mem (hnot id)]
      simp only [inHand] at hzero
      omega
  · next hfree =>
    refine h.spawn id (by simp [spawnWaiter]) (by simp [spawnWaiter]) (by simp [spawnWaiter])
      (fun k w hw => ?_) (fun w hne => ?_) ?_
    · simp only [ExecutionManager.enqueue, Function.update_apply] at hw
      split at hw
      · next hk =>
        rcases List.mem_append.mp hw with hw | hw
        · exact .inl (hk ▸ hw)
        · exact .inr ⟨List.mem_singleton.mp hw, hk⟩
      · exact .inl hw
    · simp only [tokens, inHand, spawnWaiter, ExecutionManager.enqueue, Function.update_of_ne hne]
      by_cases hk : s.home w = id
      · simp [hk, Ne.symm hne]
      · simp [Function.update_of_ne hk]
    · simp only [inHand] at hzero
      simp only [tokens, inHand, spawnWaiter, ExecutionManager.enqueue, Function.update_self,
        List.count_append, List.count_eq_zero_of_not_mem (hnot id), List.count_singleton_self]
      simp only [List.count_append] at hzero
      omega

/-- Closing a receiver moves no token. -/
theorem Tokens.close {s : RegistryState} (h : Tokens s) (hlive : s.phase w = .live) :
    Tokens (s.setPhase w .closing) where
  home := h.home
  unborn v hv := by
    obtain ⟨hp, hrest⟩ := h.unborn v hv
    have hne : v ≠ w := by rintro rfl; rw [hp] at hlive; contradiction
    exact ⟨by simp [setPhase, Function.update_of_ne hne, hp], hrest⟩
  born v hv := by
    by_cases hne : v = w
    · subst hne; simp [setPhase]
    · simpa [setPhase, Function.update_of_ne hne] using h.born v hv
  live v hv := by
    by_cases hne : v = w
    · subst hne; simp [setPhase] at hv
    · exact h.live v (by simpa [setPhase, Function.update_of_ne hne] using hv)
  le_one := h.le_one
  dropped v hv := by
    by_cases hne : v = w
    · subst hne; simp [setPhase] at hv
    · exact h.dropped v (by simpa [setPhase, Function.update_of_ne hne] using hv)

/-- Cleaning the queue removes the dropped waiter, and no open one. -/
theorem Tokens.retain {s : RegistryState} (h : Tokens s) (hclosing : s.phase w = .closing) :
    Tokens { s.setPhase w .dropped with
      manager := s.manager.retainOpen (s.home w) fun v => (s.phase v).isClosed } := by
  have hq : ∀ k v, v ∈ (s.manager.retainOpen (s.home w) fun v => (s.phase v).isClosed).waiting k →
      v ∈ s.manager.waiting k ∧ (k = s.home w → (s.phase v).isClosed = false) := by
    intro k v hv
    simp only [ExecutionManager.retainOpen, Function.update_apply] at hv
    split at hv
    · next hk =>
      have := List.mem_filter.mp hv
      exact ⟨hk ▸ this.1, fun _ => by simpa using this.2⟩
    · next hk => exact ⟨hv, fun he => absurd he hk⟩
  have hle : ∀ k v, ((s.manager.retainOpen (s.home w)
      fun v => (s.phase v).isClosed).waiting k).count v ≤ (s.manager.waiting k).count v := by
    intro k v
    simp only [ExecutionManager.retainOpen, Function.update_apply]
    split
    · next hk => rw [hk]; exact (List.filter_sublist).count_le v
    · exact le_rfl
  constructor
  · exact fun k v hv => h.home k v (hq k v hv).1
  · intro v hv
    obtain ⟨hp, hnot, hzero⟩ := h.unborn v hv
    have hne : v ≠ w := by rintro rfl; rw [hp] at hclosing; contradiction
    refine ⟨by simp [setPhase, Function.update_of_ne hne, hp],
      fun k hm => hnot k (hq k v hm).1, ?_⟩
    have := hle (s.home v) v
    simp only [tokens, inHand, setPhase] at hzero ⊢
    omega
  · intro v hv
    by_cases hne : v = w
    · subst hne; simp [setPhase]
    · simpa [setPhase, Function.update_of_ne hne] using h.born v hv
  · intro v hv
    have hne : v ≠ w := by rintro rfl; simp [setPhase] at hv
    have hlive : s.phase v = .live := by simpa [setPhase, Function.update_of_ne hne] using hv
    have hsame : ((s.manager.retainOpen (s.home w) fun v => (s.phase v).isClosed).waiting
        (s.home v)).count v = (s.manager.waiting (s.home v)).count v := by
      simp only [ExecutionManager.retainOpen, Function.update_apply]
      split
      · next hk => rw [List.count_filter (by simp [hlive, WaiterPhase.isClosed]), hk]
      · rfl
    have hone := h.live v hlive
    simp only [tokens, inHand, setPhase, hsame] at hone ⊢
    exact hone
  · intro v
    have hv := hle (s.home v) v
    have hone := h.le_one v
    simp only [tokens, inHand, setPhase] at hone ⊢
    omega
  · intro v hv hm
    by_cases hne : v = w
    · subst hne
      have := (hq _ v hm).2 rfl
      rw [hclosing] at this
      contradiction
    · exact h.dropped v (by simpa [setPhase, Function.update_of_ne hne] using hv) (hq _ v hm).1

theorem Tokens.step {s s' : RegistryState} {op : RegistryOp} (h : Tokens s)
    (hs : RegistryState.step s op = some s') : Tokens s' := by
  cases op with
  | start id =>
      simp only [RegistryState.step] at hs
      split at hs
      · next hstart _ =>
        obtain rfl := Option.some.inj hs
        refine h.move rfl rfl rfl (fun _ _ hw => hw) fun w => .inl ?_
        simp [tokens, inHand, hstart, ExecutionManager.insert]
      · obtain rfl := Option.some.inj hs
        exact h
      · contradiction
  | startTake =>
      simp only [RegistryState.step] at hs
      split at hs
      · next id x hstart =>
        obtain rfl := Option.some.inj hs
        refine h.move rfl rfl rfl (fun _ _ hw => mem_takeWaiting hw) fun w => .inl ?_
        have := count_takeWaiting h id w
        simp only [tokens, inHand, hstart, Option.bind_some, Option.getD_some, Option.getD_none,
          List.count_append, List.nil_append]
        omega
      · contradiction
  | startSend =>
      simp only [RegistryState.step] at hs
      split at hs
      · next id x w ws hstart =>
        obtain rfl := Option.some.inj hs
        refine h.move (by simp) (by simp) (by simp) (by simp) fun v => ?_
        have hlen := length_inbox_send s w v (.execution x)
        simp only [tokens, inHand, hstart, Option.bind_some, Option.getD_some, send_manager,
          send_home, send_releasing, List.count_append, List.count_cons, beq_iff_eq, hlen]
        by_cases hv : w = v
        · subst hv
          cases hc : (s.phase w).isClosed with
          | true => simp
          | false => simp; omega
        · simp [hv]
      · contradiction
  | startEnd =>
      simp only [RegistryState.step] at hs
      split at hs
      · next hstart =>
        obtain rfl := Option.some.inj hs
        refine h.move rfl rfl rfl (fun _ _ hw => hw) fun w => .inl ?_
        simp [tokens, inHand, hstart]
      · contradiction
  | subscribe id =>
      simp only [RegistryState.step] at hs
      split at hs
      · obtain rfl := Option.some.inj hs
        exact h.subscribe id
      · contradiction
  | finish id x =>
      simp only [RegistryState.step] at hs
      split at hs
      · obtain rfl := Option.some.inj hs
        have hsame : (s.manager.finish id x).waiting = s.manager.waiting := by
          unfold ExecutionManager.finish; split <;> rfl
        refine h.move rfl rfl rfl (fun k w hw => ?_) fun w => .inl ?_
        · rw [← hsame]; exact hw
        · simp [tokens, inHand, hsame]
      · contradiction
  | release id =>
      obtain rfl := Option.some.inj hs
      refine h.move rfl rfl rfl (fun _ _ hw => mem_takeWaiting hw) fun w => .inl ?_
      have := count_takeWaiting h id w
      simp only [tokens, inHand, List.flatten_append, List.flatten_cons, List.flatten_nil,
        List.append_nil, List.count_append]
      omega
  | releaseSend k =>
      simp only [RegistryState.step] at hs
      split at hs
      · next w ws hk =>
        obtain rfl := Option.some.inj hs
        refine h.move (by simp) (by simp) (by simp) (by simp) fun v => ?_
        have hlen := length_inbox_send s w v .final
        have hflat := count_flatten_set hk v
        simp only [tokens, inHand, send_manager, send_home, send_starting, List.count_append, hlen]
        by_cases hv : w = v
        · subst hv
          cases hc : (s.phase w).isClosed <;> simp at hflat ⊢ <;> omega
        · simp [hv] at hflat ⊢
          omega
      · contradiction
  | dropClose w =>
      simp only [RegistryState.step] at hs
      split at hs
      · next hlive =>
        obtain rfl := Option.some.inj hs
        exact h.close hlive
      · contradiction
  | dropRetain w =>
      simp only [RegistryState.step] at hs
      split at hs
      · next hclosing =>
        obtain rfl := Option.some.inj hs
        exact h.retain hclosing
      · contradiction

/-! ## the invariant -/

/-- `x` is registered for `id`: the `start` that registered it has released
the registry lock, so the other operations see it. -/
def Registered (s : RegistryState) (id : TaskId) (x : ExecId) : Prop :=
  s.manager.executions id = some x ∧ ∀ c, s.starting = some c → c.id ≠ id

/-- The waiter's sender is in its task's queue, once, and nowhere else. -/
def QueuedOnce (s : RegistryState) (w : WaiterId) : Prop :=
  (s.manager.waiting (s.home w)).count w = 1 ∧ (∀ id, id ≠ s.home w → w ∉ s.manager.waiting id) ∧
    w ∉ s.inHand ∧ s.inbox w = []

/-- A `start` or `release` in progress has taken the sender off the queue
and has yet to use it. -/
def BeingHanded (s : RegistryState) (w : WaiterId) : Prop :=
  (∀ id, w ∉ s.manager.waiting id) ∧ s.inHand.count w = 1 ∧ s.inbox w = []

/-- The waiter was handed one subscription, and no sender of it is left. -/
def HandedOnce (s : RegistryState) (w : WaiterId) : Prop :=
  (∀ id, w ∉ s.manager.waiting id) ∧ w ∉ s.inHand ∧ ∃ v, s.inbox w = [v]

/-- No `start` and no `release` is half-way. -/
def Idle (s : RegistryState) : Prop := s.starting = none ∧ ∀ ws ∈ s.releasing, ws = []

/-- What the registry guarantees between any two locked sections. -/
structure Sound (s : RegistryState) : Prop where
  /-- a registered task has no queue -/
  noWaiters : ∀ id x, s.Registered id x → s.manager.waiting id = []
  /-- a task has one execution, and an execution one task -/
  single : ∀ id id' x y, s.Registered id x → s.Registered id' y → (id = id' ↔ x = y)
  /-- a waiter is queued once, handed one subscription, or dropped -/
  waiter : ∀ w, w < s.nextWaiter →
    s.QueuedOnce w ∨ s.BeingHanded w ∨ s.HandedOnce w ∨ (s.phase w).isClosed = true
  /-- only an operation in progress has a waiter in its hand -/
  settled : s.Idle → ∀ w, ¬ s.BeingHanded w
  /-- a dropped waiter leaves no sender queued -/
  dropped : ∀ w, s.phase w = .dropped → ∀ id, w ∉ s.manager.waiting id
  /-- `finish` removes no registration but its own execution's -/
  keepsOthers : ∀ id x s', RegistryState.step s (.finish id x) = some s' →
    ∀ id' y, y ≠ x → s.manager.executions id' = some y → s'.manager.executions id' = some y

theorem Tokens.not_mem_waiting {s : RegistryState} (h : Tokens s)
    (hw : w ∉ s.manager.waiting (s.home w)) (id : TaskId) : w ∉ s.manager.waiting id :=
  fun hm => hw (h.home id w hm ▸ hm)

/-- The one token of a live waiter is in one of three places. -/
theorem Tokens.place {s : RegistryState} (h : Tokens s) (hlive : s.phase w = .live) :
    s.QueuedOnce w ∨ s.BeingHanded w ∨ s.HandedOnce w := by
  have hone := h.live w hlive
  simp only [tokens] at hone
  by_cases hq : (s.manager.waiting (s.home w)).count w = 0
  · have hnot := h.not_mem_waiting (List.count_eq_zero.mp hq)
    by_cases hh : s.inHand.count w = 0
    · refine .inr (.inr ⟨hnot, List.count_eq_zero.mp hh, ?_⟩)
      exact List.length_eq_one_iff.mp (by omega)
    · exact .inr (.inl ⟨hnot, by omega, List.length_eq_zero_iff.mp (by omega)⟩)
  · refine .inl ⟨by omega, fun id hne hm => hne (h.home id w hm).symm, ?_, ?_⟩
    · exact List.count_eq_zero.mp (by omega)
    · exact List.length_eq_zero_iff.mp (by omega)

theorem sound_of_maps_tokens {s : RegistryState} (hm : Maps s) (ht : Tokens s) : Sound s where
  noWaiters id x hx := hm.quiet id x hx.1 fun c hc hid => absurd hid (hx.2 c hc)
  single id id' x y hx hy := by
    constructor
    · rintro rfl
      exact Option.some.inj (hx.1.symm.trans hy.1)
    · rintro rfl
      exact hm.inj id id' x hx.1 hy.1
  waiter w hw := by
    cases hp : s.phase w with
    | unborn => exact absurd hp (ht.born w hw)
    | live =>
        rcases ht.place hp with h | h | h
        · exact .inl h
        · exact .inr (.inl h)
        · exact .inr (.inr (.inl h))
    | closing | dropped => exact .inr (.inr (.inr rfl))
  settled hidle w hw := by
    have hflat : s.releasing.flatten = [] := List.flatten_eq_nil_iff.mpr hidle.2
    have hcount := hw.2.1
    simp [inHand, hidle.1, hflat] at hcount
  dropped w hw := ht.not_mem_waiting (ht.dropped w hw)
  keepsOthers id x s' hs id' y hne hy := by
    simp only [RegistryState.step] at hs
    split at hs
    · obtain rfl := Option.some.inj hs
      unfold ExecutionManager.finish
      split
      · next hreg =>
        have hid : id' ≠ id := by
          rintro rfl
          exact hne (Option.some.inj (hy.symm.trans hreg))
        simpa [Function.update_of_ne hid] using hy
      · exact hy
    · contradiction

end RegistryState

/-- **Registry invariant**: after any interleaving of the registry's
operations, over any task ids, a registered task has no queue, no task has
two executions, every waiter is queued once, handed one subscription or
dropped, and `finish` spares every other execution. -/
theorem registry_sound (hr : registryMachine.Run .empty tr s) : s.Sound := by
  have h := hr.invariant (I := fun _ s => s.Maps ∧ s.Tokens)
    ⟨RegistryState.maps_empty, RegistryState.tokens_empty⟩
    (fun _ _ _ _ h hs => ⟨h.1.step hs, h.2.step hs⟩)
  exact RegistryState.sound_of_maps_tokens h.1 h.2

/-- A waiter queued, one dropped, and a `start` that hands the first the new
execution. -/
theorem registry_sound_start :
    ∃ tr s, registryMachine.Run .empty tr s ∧ s.Sound ∧ s.Registered "t" 0 ∧
      s.inbox 0 = [.execution 0] ∧ s.phase 1 = .dropped := by
  have hx : ∃ tr s, registryMachine.exec .empty
      [.subscribe "t", .subscribe "t", .dropClose 1, .start "t", .dropRetain 1, .startTake,
        .startSend, .startEnd] = some (tr, s) ∧ s.manager.executions "t" = some 0 ∧
      s.starting = none ∧ s.inbox 0 = [.execution 0] ∧ s.phase 1 = .dropped :=
    ⟨_, _, rfl, by decide, rfl, by decide, by decide⟩
  obtain ⟨tr, s, hx, hreg, hidle, hin, hdrop⟩ := hx
  have hrun := Machine.run_of_exec hx
  exact ⟨tr, s, hrun, registry_sound hrun, ⟨hreg, by simp [hidle]⟩, hin, hdrop⟩

end A2a
