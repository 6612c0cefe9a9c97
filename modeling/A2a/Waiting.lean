import Mathlib.Logic.Function.Basic
import A2a.Execution

/-!
# A2a.Waiting

Subscriptions that wait for a task's next execution, on their own.

`Waits` is what they live in: the queues, the channels, and for each thread
the waiter it owns and the release it is in the middle of.  `Waits.Step` is
all that can happen to it, and `Waits.Ok` says where a waiter can be.

An id is closed with a task once the first release of that task took the
queue.  From there on no subscription reads the id live, so what hopes for
an execution is what the first release found.
-/

namespace A2a

/-- The queues, the channels, and what each thread has to do with them. -/
structure Waits where
  queue : TaskId → List WaiterId
  channels : List Oneshot
  /-- the waiter a thread owns, with the task it waits for -/
  waiter : Nat → Option (TaskId × WaiterId)
  /-- the thread has read its task live -/
  hoping : Nat → Bool
  /-- what a final snapshot left of the thread's wait, once it is over -/
  got : Nat → Option (TaskId × Option Task)
  /-- the release a thread is at, with the task it hands out -/
  release : Nat → Option (Task × ReleasePc)
  /-- the task whose release took the queue first -/
  closed : TaskId → Option Task

namespace Waits

/-- Send a value to each of the waiters. -/
def handAll (value : Resubscription) (ws : List WaiterId) (channels : List Oneshot) :
    List Oneshot :=
  ws.foldl (fun o w => o.modify w (Oneshot.send value)) channels

/-- What can happen to waiting subscriptions. -/
inductive Step : Waits → Waits → Prop
  /-- a thread comes to a release, or leaves it with nothing left to hand -/
  | move {v : Waits} {i : Nat} {r : Option (Task × ReleasePc)}
      (hold : ∀ task ws, v.release i = some (task, .handing ws) → ws = [])
      (hnew : ∀ task ws, r ≠ some (task, .handing ws)) :
      Step v { v with release := Function.update v.release i r }
  /-- an execution starts -/
  | start {v : Waits} {id : TaskId} {value : Resubscription} (hv : value.receiver ≠ none) :
      Step v { v with
        queue := Function.update v.queue id []
        channels := handAll value (v.queue id) v.channels }
  | subscribe {v : Waits} {i : Nat} {id : TaskId} (hold : v.waiter i = none) :
      Step v { v with
        queue := Function.update v.queue id (v.queue id ++ [v.channels.length])
        channels := v.channels ++ [.empty]
        waiter := Function.update v.waiter i (some (id, v.channels.length)) }
  /-- a subscription reads its task live -/
  | hope {v : Waits} {i : Nat} {id : TaskId} {w : WaiterId} (hold : v.waiter i = some (id, w))
      (hopen : v.closed id = none) :
      Step v { v with hoping := Function.update v.hoping i true }
  /-- a waiter takes the value it was handed -/
  | attach {v : Waits} {i : Nat} {id : TaskId} {w : WaiterId} {value : Resubscription}
      {got : Option (TaskId × Option Task)}
      (hold : v.waiter i = some (id, w)) (hfull : v.channels[w]? = some (.full value))
      (hgot : ∀ p, got = some p →
        v.hoping i = true ∧ value.receiver = none ∧ p = (id, some value.snapshotTask)) :
      Step v { v with
        channels := v.channels.set w .closed
        waiter := Function.update v.waiter i none
        hoping := Function.update v.hoping i false
        got := Function.update v.got i got }
  /-- a waiter is dropped -/
  | leave {v : Waits} {i : Nat} {id : TaskId} {w : WaiterId}
      (hold : v.waiter i = some (id, w)) :
      Step v { v with
        queue := Function.update v.queue id ((v.queue id).filter fun u =>
          !(v.channels.set w .closed)[u]?.any (·.isClosed))
        channels := v.channels.set w .closed
        waiter := Function.update v.waiter i none
        hoping := Function.update v.hoping i false }
  /-- a stream is dropped after its wait -/
  | forget {v : Waits} {i : Nat} : Step v { v with got := Function.update v.got i none }
  | take {v : Waits} {i : Nat} {task : Task} (hold : v.release i = some (task, .take)) :
      Step v { v with
        queue := Function.update v.queue task.id []
        release := Function.update v.release i (some (task, .handing (v.queue task.id)))
        closed := Function.update v.closed task.id (some ((v.closed task.id).getD task)) }
  | hand {v : Waits} {i : Nat} {task : Task} {w : WaiterId} {ws : List WaiterId}
      (hold : v.release i = some (task, .handing (w :: ws))) :
      Step v { v with
        channels := v.channels.modify w (Oneshot.send ⟨none, task, 0⟩)
        release := Function.update v.release i (some (task, .handing ws)) }

/-- Where waiters are: a queued waiter is owned by a subscription to that
task and was handed nothing; an owned waiter that was handed nothing is
queued, or a release is about to reach it. -/
structure Ok (v : Waits) : Prop where
  owner : ∀ id, ∀ w ∈ v.queue id, ∃ i, v.waiter i = some (id, w)
  unique : ∀ i j id id' w, v.waiter i = some (id, w) → v.waiter j = some (id', w) → i = j
  unclosed : ∀ i id w, v.waiter i = some (id, w) → ∃ o, v.channels[w]? = some o ∧ o ≠ .closed
  empty : ∀ id, ∀ w ∈ v.queue id, v.channels[w]? = some .empty
  taken : ∀ i task ws, v.release i = some (task, .handing ws) → ∀ w ∈ ws,
    w < v.channels.length ∧ (∀ id, w ∉ v.queue id) ∧ ∀ j id, v.waiter j = some (id, w) → id = task.id
  reached : ∀ i id w, v.waiter i = some (id, w) → v.channels[w]? = some .empty →
    w ∈ v.queue id ∨ ∃ k task ws, v.release k = some (task, .handing ws) ∧ task.id = id ∧ w ∈ ws

/-- What a closed id is closed with is what its hoping subscriptions get. -/
structure Final (v : Waits) : Prop where
  /-- a subscription queued on a closed id has not read it live -/
  queued : ∀ i id w, v.waiter i = some (id, w) → w ∈ v.queue id → v.closed id ≠ none →
    v.hoping i = false
  closing : ∀ k task ws, v.release k = some (task, .handing ws) → v.closed task.id ≠ none
  handing : ∀ k task ws, v.release k = some (task, .handing ws) → ∀ w ∈ ws,
    ∀ i id, v.waiter i = some (id, w) → v.hoping i = true → v.closed id = some task
  full : ∀ i id w value, v.waiter i = some (id, w) → v.channels[w]? = some (.full value) →
    value.receiver = none → v.closed id ≠ none
  hoped : ∀ i id w value, v.waiter i = some (id, w) → v.channels[w]? = some (.full value) →
    value.receiver = none → v.hoping i = true → v.closed id = some value.snapshotTask
  got : ∀ i id o, v.got i = some (id, o) → o ≠ none ∧ v.closed id = o
  hoping : ∀ i, v.hoping i = true → v.waiter i ≠ none

/-- Nobody waits. -/
def nothing : Waits := ⟨fun _ => [], [], fun _ => none, fun _ => false, fun _ => none,
  fun _ => none, fun _ => none⟩

theorem Ok.nothing : Ok nothing := by
  constructor <;> simp [Waits.nothing]

theorem Final.nothing : Final nothing := by
  constructor <;> simp [Waits.nothing]

/-! ### channels and updates -/

/-- A channel is empty after a send elsewhere only. -/
theorem modify_send_empty (value : Resubscription) (channels : List Oneshot) (w u : WaiterId) :
    (channels.modify w (Oneshot.send value))[u]? = some .empty ↔
      u ≠ w ∧ channels[u]? = some .empty := by
  rw [List.getElem?_modify]
  by_cases hu : w = u
  · cases hc : channels[u]? with
    | none => simp
    | some o => cases o <;> simp [hu, Oneshot.send]
  · simp [hu, Ne.symm hu]

/-- A full channel was full, or was sent its value. -/
theorem modify_send_full (value value' : Resubscription) (channels : List Oneshot)
    (w u : WaiterId) :
    (channels.modify w (Oneshot.send value))[u]? = some (.full value') ↔
      (u = w ∧ channels[u]? = some .empty ∧ value' = value) ∨
        channels[u]? = some (.full value') := by
  rw [List.getElem?_modify]
  by_cases hu : w = u
  · cases hc : channels[u]? with
    | none => simp
    | some o => cases o <;> simp [hu, Oneshot.send, eq_comm]
  · simp [hu, Ne.symm hu]

theorem handAll_cons (value : Resubscription) (w : WaiterId) (ws : List WaiterId)
    (channels : List Oneshot) : handAll value (w :: ws) channels =
      handAll value ws (channels.modify w (Oneshot.send value)) := rfl

@[simp] theorem length_handAll (value : Resubscription) (ws : List WaiterId)
    (channels : List Oneshot) : (handAll value ws channels).length = channels.length := by
  induction ws generalizing channels with
  | nil => rfl
  | cons u us ih => rw [handAll_cons, ih, List.length_modify]

theorem handAll_empty (value : Resubscription) (ws : List WaiterId) (channels : List Oneshot)
    (u : WaiterId) :
    (handAll value ws channels)[u]? = some .empty ↔ u ∉ ws ∧ channels[u]? = some .empty := by
  induction ws generalizing channels with
  | nil => simp [handAll]
  | cons w ws ih =>
      rw [handAll_cons, ih, modify_send_empty, List.mem_cons, not_or]
      tauto

theorem handAll_full (value value' : Resubscription) (ws : List WaiterId)
    (channels : List Oneshot) (u : WaiterId)
    (h : (handAll value ws channels)[u]? = some (.full value')) :
    value' = value ∨ channels[u]? = some (.full value') := by
  induction ws generalizing channels with
  | nil => exact .inr h
  | cons w ws ih =>
      rw [handAll_cons] at h
      obtain h | h := ih _ h
      · exact .inl h
      · obtain ⟨_, _, h⟩ | h := (modify_send_full ..).mp h
        · exact .inl h
        · exact .inr h

/-- A channel that is not closed stays so whatever is sent. -/
theorem modify_send_open {value : Resubscription} {channels : List Oneshot} {w u : WaiterId}
    (h : ∃ o, channels[u]? = some o ∧ o ≠ .closed) :
    ∃ o, (channels.modify w (Oneshot.send value))[u]? = some o ∧ o ≠ .closed := by
  obtain ⟨o, ho, hne⟩ := h
  rw [List.getElem?_modify, ho]
  by_cases hu : w = u
  · refine ⟨o.send value, by simp [hu], ?_⟩
    cases o with
    | closed => contradiction
    | _ => simp [Oneshot.send]
  · exact ⟨o, by simp [hu], hne⟩

theorem handAll_open {value : Resubscription} {ws : List WaiterId} {channels : List Oneshot}
    {u : WaiterId} (h : ∃ o, channels[u]? = some o ∧ o ≠ .closed) :
    ∃ o, (handAll value ws channels)[u]? = some o ∧ o ≠ .closed := by
  induction ws generalizing channels with
  | nil => exact h
  | cons w ws ih => exact ih (modify_send_open h)

theorem update_none_eq_some {γ : Type} {f : Nat → Option γ} {i j : Nat} {x : γ} :
    Function.update f i none j = some x ↔ j ≠ i ∧ f j = some x := by
  by_cases hj : j = i <;> simp [hj]

theorem update_some_eq_some {γ : Type} {f : Nat → Option γ} {i j : Nat} {x y : γ} :
    Function.update f i (some y) j = some x ↔ (j = i ∧ y = x) ∨ (j ≠ i ∧ f j = some x) := by
  by_cases hj : j = i <;> simp [hj]

theorem mem_update_nil {q : TaskId → List WaiterId} {id id' : TaskId} {w : WaiterId} :
    w ∈ Function.update q id [] id' ↔ id' ≠ id ∧ w ∈ q id' := by
  by_cases hid : id' = id <;> simp [hid]

theorem mem_update_snoc {q : TaskId → List WaiterId} {id id' : TaskId} {w u : WaiterId} :
    w ∈ Function.update q id (q id ++ [u]) id' ↔ w ∈ q id' ∨ (id' = id ∧ w = u) := by
  by_cases hid : id' = id
  · subst hid
    simp
  · simp [hid]

theorem mem_update_filter {q : TaskId → List WaiterId} {id id' : TaskId} {w : WaiterId}
    {p : WaiterId → Bool} (h : w ∈ Function.update q id ((q id).filter p) id') :
    w ∈ q id' ∧ (id' = id → p w = true) := by
  by_cases hid : id' = id
  · subst hid
    simpa using h
  · exact ⟨by simpa [hid] using h, fun he => absurd he hid⟩

theorem mem_filter_closed {q : TaskId → List WaiterId} {id id' : TaskId} {w u : WaiterId}
    {channels : List Oneshot} (hu : u ∈ q id') (hne : u ≠ w) (hopen : channels[u]? = some .empty) :
    u ∈ Function.update q id ((q id).filter fun u =>
      !(channels.set w .closed)[u]?.any (·.isClosed)) id' := by
  by_cases hid : id' = id
  · subst hid
    simp [hu, List.getElem?_set_ne (Ne.symm hne), hopen, Oneshot.isClosed]
  · rwa [Function.update_of_ne hid]

variable {v v' : Waits} {i : Nat} {id : TaskId} {task : Task} {w : WaiterId} {ws : List WaiterId}

/-! ### where waiters are -/

/-- The waiters of one queue are in no other. -/
theorem Ok.queue_unique (hv : Ok v) (h : w ∈ v.queue k) (h' : w ∈ v.queue k') : k = k' := by
  obtain ⟨i, hi⟩ := hv.owner k w h
  obtain ⟨j, hj⟩ := hv.owner k' w h'
  obtain rfl := hv.unique i j k k' w hi hj
  rw [hi] at hj
  exact (Prod.mk.inj (Option.some.inj hj)).1

theorem Ok.move (hv : Ok v) {r : Option (Task × ReleasePc)}
    (hold : ∀ task ws, v.release i = some (task, .handing ws) → ws = [])
    (hnew : ∀ task ws, r ≠ some (task, .handing ws)) :
    Ok { v with release := Function.update v.release i r } where
  owner := hv.owner
  unique := hv.unique
  unclosed := hv.unclosed
  empty := hv.empty
  taken k task ws hk := by
    by_cases hki : k = i
    · rw [hki] at hk
      exact absurd (Function.update_self i r v.release ▸ hk) (hnew task ws)
    · exact hv.taken k task ws ((Function.update_of_ne hki r v.release) ▸ hk)
  reached j id w hj hempty := by
    obtain hq | ⟨k, task, ws, hk, hid, hw⟩ := hv.reached j id w hj hempty
    · exact .inl hq
    · have hki : k ≠ i := by
        rintro rfl
        rw [hold task ws hk] at hw
        contradiction
      exact .inr ⟨k, task, ws, (Function.update_of_ne hki r v.release).trans hk, hid, hw⟩

theorem Ok.start (hv : Ok v) {value : Resubscription} :
    Ok { v with
      queue := Function.update v.queue id []
      channels := handAll value (v.queue id) v.channels } where
  owner id' w hw := hv.owner id' w (mem_update_nil.mp hw).2
  unique := hv.unique
  unclosed j id' w hj := handAll_open (hv.unclosed j id' w hj)
  empty id' w hw := by
    obtain ⟨hne, hw⟩ := mem_update_nil.mp hw
    rw [handAll_empty]
    exact ⟨fun hw' => hne (hv.queue_unique hw hw'), hv.empty id' w hw⟩
  taken k task ws hk w hw := by
    obtain ⟨hlt, hno, hid⟩ := hv.taken k task ws hk w hw
    exact ⟨by simpa using hlt, fun id' hw' => hno id' (mem_update_nil.mp hw').2, hid⟩
  reached j id' w hj hempty := by
    obtain ⟨hno, hempty⟩ := (handAll_empty ..).mp hempty
    obtain hq | hrel := hv.reached j id' w hj hempty
    · refine .inl (mem_update_nil.mpr ⟨?_, hq⟩)
      rintro rfl
      exact hno hq
    · exact .inr hrel

theorem Ok.subscribe (hv : Ok v) (hold : v.waiter i = none) :
    Ok { v with
      queue := Function.update v.queue id (v.queue id ++ [v.channels.length])
      channels := v.channels ++ [.empty]
      waiter := Function.update v.waiter i (some (id, v.channels.length)) } := by
  -- the new waiter is nobody else's
  have hlt : ∀ j id' w, v.waiter j = some (id', w) → w < v.channels.length ∧ j ≠ i := by
    intro j id' w hj
    obtain ⟨o, ho, _⟩ := hv.unclosed j id' w hj
    refine ⟨(List.getElem?_eq_some_iff.mp ho).1, ?_⟩
    rintro rfl
    rw [hold] at hj
    contradiction
  have hchannel : ∀ w, w < v.channels.length → (v.channels ++ [Oneshot.empty])[w]? = v.channels[w]? :=
    fun w hw => List.getElem?_append_left hw
  constructor
  · intro id' w hw
    obtain hw | ⟨rfl, rfl⟩ := mem_update_snoc.mp hw
    · obtain ⟨j, hj⟩ := hv.owner id' w hw
      exact ⟨j, update_some_eq_some.mpr (.inr ⟨(hlt j id' w hj).2, hj⟩)⟩
    · exact ⟨i, Function.update_self ..⟩
  · intro j k id' id'' w hj hk
    obtain ⟨hji, hj⟩ | ⟨hji, hj⟩ := update_some_eq_some.mp hj <;>
      obtain ⟨hki, hk⟩ | ⟨hki, hk⟩ := update_some_eq_some.mp hk
    · rw [hji, hki]
    · cases hj
      exact absurd (hlt k id'' _ hk).1 (Nat.lt_irrefl _)
    · cases hk
      exact absurd (hlt j id' _ hj).1 (Nat.lt_irrefl _)
    · exact hv.unique j k id' id'' w hj hk
  · intro j id' w hj
    obtain ⟨_, he⟩ | ⟨_, hj⟩ := update_some_eq_some.mp hj
    · cases he
      exact ⟨.empty, by simp, by simp⟩
    · obtain ⟨o, ho, hne⟩ := hv.unclosed j id' w hj
      exact ⟨o, (hchannel w (hlt j id' w hj).1).trans ho, hne⟩
  · intro id' w hw
    obtain hw | ⟨_, rfl⟩ := mem_update_snoc.mp hw
    · obtain ⟨j, hj⟩ := hv.owner id' w hw
      exact (hchannel w (hlt j id' w hj).1).trans (hv.empty id' w hw)
    · simp
  · intro k task ws hk w hw
    obtain ⟨hw', hno, hid⟩ := hv.taken k task ws hk w hw
    have hlen : w < (v.channels ++ [Oneshot.empty]).length := by
      rw [List.length_append]
      exact Nat.lt_add_right 1 hw'
    refine ⟨hlen, fun id' hmem => ?_, fun j id' hj => ?_⟩
    · obtain hmem | ⟨_, rfl⟩ := mem_update_snoc.mp hmem
      · exact hno id' hmem
      · exact absurd hw' (Nat.lt_irrefl _)
    · obtain ⟨_, he⟩ | ⟨_, hj⟩ := update_some_eq_some.mp hj
      · cases he
        exact absurd hw' (Nat.lt_irrefl _)
      · exact hid j id' hj
  · intro j id' w hj hempty
    obtain ⟨_, he⟩ | ⟨_, hj⟩ := update_some_eq_some.mp hj
    · cases he
      exact .inl (mem_update_snoc.mpr (.inr ⟨rfl, rfl⟩))
    · obtain hq | hrel := hv.reached j id' w hj ((hchannel w (hlt j id' w hj).1).symm.trans hempty)
      · exact .inl (mem_update_snoc.mpr (.inl hq))
      · exact .inr hrel

/-- A waiter that is no longer owned, with its channel closed, leaves the
others where they were. -/
theorem Ok.close (hv : Ok v) (hold : v.waiter i = some (id, w)) {queue : TaskId → List WaiterId}
    (hsub : ∀ id' u, u ∈ queue id' → u ∈ v.queue id' ∧ u ≠ w)
    (hrest : ∀ id' u, u ∈ v.queue id' → u ≠ w → u ∈ queue id') {hoping : Nat → Bool}
    {got : Nat → Option (TaskId × Option Task)} :
    Ok { v with
      queue := queue
      channels := v.channels.set w .closed
      waiter := Function.update v.waiter i none
      hoping := hoping
      got := got } := by
  have hne : ∀ j id' u, Function.update v.waiter i none j = some (id', u) →
      v.waiter j = some (id', u) ∧ u ≠ w := by
    intro j id' u hj
    obtain ⟨hji, hj⟩ := update_none_eq_some.mp hj
    refine ⟨hj, ?_⟩
    rintro rfl
    exact hji (hv.unique j i id' id u hj hold)
  have hchannel : ∀ u, u ≠ w → (v.channels.set w Oneshot.closed)[u]? = v.channels[u]? :=
    fun u hu => List.getElem?_set_ne (Ne.symm hu)
  constructor
  · intro id' u hu
    obtain ⟨hu, huw⟩ := hsub id' u hu
    obtain ⟨j, hj⟩ := hv.owner id' u hu
    refine ⟨j, update_none_eq_some.mpr ⟨?_, hj⟩⟩
    rintro rfl
    rw [hold] at hj
    cases hj
    exact huw rfl
  · intro j k id' id'' u hj hk
    exact hv.unique j k id' id'' u (hne j id' u hj).1 (hne k id'' u hk).1
  · intro j id' u hj
    obtain ⟨hj, huw⟩ := hne j id' u hj
    rw [hchannel u huw]
    exact hv.unclosed j id' u hj
  · intro id' u hu
    obtain ⟨hu, huw⟩ := hsub id' u hu
    exact (hchannel u huw).trans (hv.empty id' u hu)
  · intro k task ws hk u hu
    obtain ⟨hlt, hno, hid⟩ := hv.taken k task ws hk u hu
    exact ⟨by simpa using hlt, fun id' hmem => hno id' (hsub id' u hmem).1,
      fun j id' hj => hid j id' (hne j id' u hj).1⟩
  · intro j id' u hj hempty
    obtain ⟨hj, huw⟩ := hne j id' u hj
    obtain hq | hrel := hv.reached j id' u hj ((hchannel u huw).symm.trans hempty)
    · exact .inl (hrest id' u hq huw)
    · exact .inr hrel

/-- A waiter that was handed a value is queued nowhere. -/
theorem Ok.not_queued (hv : Ok v) {value : Resubscription}
    (hfull : v.channels[w]? = some (.full value)) (id : TaskId) : w ∉ v.queue id := by
  intro hq
  cases hfull.symm.trans (hv.empty id w hq)

/-- A release that takes its queue is about to reach all of it. -/
theorem Ok.take (hv : Ok v) (hold : v.release i = some (task, .take))
    {closed : TaskId → Option Task} :
    Ok { v with
      queue := Function.update v.queue task.id []
      release := Function.update v.release i (some (task, .handing (v.queue task.id)))
      closed := closed } where
  owner id w hw := hv.owner id w (mem_update_nil.mp hw).2
  unique := hv.unique
  unclosed := hv.unclosed
  empty id w hw := hv.empty id w (mem_update_nil.mp hw).2
  taken k t us hk w hw := by
    obtain ⟨_, he⟩ | ⟨_, hk⟩ := update_some_eq_some.mp hk
    · cases he
      refine ⟨(List.getElem?_eq_some_iff.mp (hv.empty _ w hw)).1, fun id' hw' => ?_, fun j id hj => ?_⟩
      · obtain ⟨hne, hw'⟩ := mem_update_nil.mp hw'
        exact hne (hv.queue_unique hw' hw)
      · obtain ⟨k, hk⟩ := hv.owner _ w hw
        obtain rfl := hv.unique j k _ _ w hj hk
        cases hj.symm.trans hk
        rfl
    · obtain ⟨hlt, hno, hid⟩ := hv.taken k t us hk w hw
      exact ⟨hlt, fun id hw' => hno id (mem_update_nil.mp hw').2, hid⟩
  reached j id w hj hempty := by
    obtain hq | ⟨k, t, us, hk, ht, hw⟩ := hv.reached j id w hj hempty
    · by_cases hid : id = task.id
      · subst hid
        exact .inr ⟨i, task, _, Function.update_self .., rfl, hq⟩
      · exact .inl (mem_update_nil.mpr ⟨hid, hq⟩)
    · have hki : k ≠ i := by
        rintro rfl
        rw [hold] at hk
        cases hk
      exact .inr ⟨k, t, us, (Function.update_of_ne hki ..).trans hk, ht, hw⟩

/-- A release hands its task to the waiters it took. -/
theorem Ok.hand (hv : Ok v) (hold : v.release i = some (task, .handing (w :: ws))) :
    Ok { v with
      channels := v.channels.modify w (Oneshot.send ⟨none, task, 0⟩)
      release := Function.update v.release i (some (task, .handing ws)) } where
  owner := hv.owner
  unique := hv.unique
  unclosed j id u hj := modify_send_open (hv.unclosed j id u hj)
  empty id u hu := by
    refine (modify_send_empty ..).mpr ⟨?_, hv.empty id u hu⟩
    rintro rfl
    exact (hv.taken i task _ hold u List.mem_cons_self).2.1 id hu
  taken k t us hk u hu := by
    have hlen : (v.channels.modify w (Oneshot.send ⟨none, task, 0⟩)).length = v.channels.length :=
      List.length_modify ..
    obtain ⟨_, he⟩ | ⟨_, hk⟩ := update_some_eq_some.mp hk
    · cases he
      obtain ⟨hlt, hrest⟩ := hv.taken i task _ hold u (List.mem_cons_of_mem w hu)
      exact ⟨hlen ▸ hlt, hrest⟩
    · obtain ⟨hlt, hrest⟩ := hv.taken k t us hk u hu
      exact ⟨hlen ▸ hlt, hrest⟩
  reached j id u hj hempty := by
    obtain ⟨huw, hempty⟩ := (modify_send_empty ..).mp hempty
    obtain hq | ⟨k, t, us, hk, ht, hmem⟩ := hv.reached j id u hj hempty
    · exact .inl hq
    · by_cases hki : k = i
      · subst hki
        cases hold.symm.trans hk
        have hmem' : u ∈ ws := by simpa [huw] using hmem
        exact .inr ⟨k, task, ws, Function.update_self .., ht, hmem'⟩
      · exact .inr ⟨k, t, us, (Function.update_of_ne hki ..).trans hk, ht, hmem⟩

/-- **Waiters stay where they can be found**, whatever happens to them. -/
theorem Ok.step (hv : Ok v) (hs : Step v v') : Ok v' := by
  cases hs with
  | move hold hnew => exact hv.move hold hnew
  | start => exact hv.start
  | subscribe hold => exact hv.subscribe hold
  | hope => exact ⟨hv.owner, hv.unique, hv.unclosed, hv.empty, hv.taken, hv.reached⟩
  | @attach i id w value got hold hfull hgot =>
      refine hv.close hold (fun id' u hu => ⟨hu, ?_⟩) fun id' u hu _ => hu
      rintro rfl
      exact hv.not_queued hfull id' hu
  | @leave i id w hold =>
      have hrest : ∀ id' u, u ∈ v.queue id' → u ≠ w → u ∈ Function.update v.queue id
          ((v.queue id).filter fun u => !(v.channels.set w .closed)[u]?.any (·.isClosed)) id' :=
        fun id' u hu hne => mem_filter_closed hu hne (hv.empty id' u hu)
      refine hv.close hold (fun id' u hmem => ?_) hrest
      obtain ⟨hu, hopen⟩ := mem_update_filter hmem
      clear hmem
      refine ⟨hu, ?_⟩
      rintro rfl
      -- a waiter is queued for the task it waits for
      obtain ⟨j, hj⟩ := hv.owner id' u hu
      obtain rfl := hv.unique i j id id' u hold hj
      cases hold.symm.trans hj
      have hlt : u < v.channels.length := (List.getElem?_eq_some_iff.mp (hv.empty id u hu)).1
      have hclosed := hopen rfl
      simp [hlt, Oneshot.isClosed] at hclosed
  | forget => exact ⟨hv.owner, hv.unique, hv.unclosed, hv.empty, hv.taken, hv.reached⟩
  | take hold => exact hv.take hold
  | hand hold => exact hv.hand hold

/-! ### what a closed id is closed with -/

theorem Final.move (hv : Final v) {r : Option (Task × ReleasePc)}
    (hnew : ∀ task ws, r ≠ some (task, .handing ws)) :
    Final { v with release := Function.update v.release i r } := by
  have hrel : ∀ k task ws, Function.update v.release i r k = some (task, .handing ws) →
      v.release k = some (task, .handing ws) := by
    intro k task ws hk
    by_cases hki : k = i
    · rw [hki, Function.update_self] at hk
      exact absurd hk (hnew task ws)
    · rwa [Function.update_of_ne hki] at hk
  exact { hv with
    closing := fun k task ws hk => hv.closing k task ws (hrel k task ws hk)
    handing := fun k task ws hk => hv.handing k task ws (hrel k task ws hk) }

theorem Final.start (hv : Final v) {value : Resubscription} (hvalue : value.receiver ≠ none) :
    Final { v with
      queue := Function.update v.queue id []
      channels := handAll value (v.queue id) v.channels } := by
  have hfull : ∀ {w : WaiterId} {value' : Resubscription}, (handAll value (v.queue id) v.channels)[w]? = some (.full value') →
      value'.receiver = none → v.channels[w]? = some (.full value') := by
    intro w value' h hnone
    obtain rfl | h := handAll_full value value' _ _ _ h
    · exact absurd hnone hvalue
    · exact h
  exact { hv with
    queued := fun j id' w hj hq => hv.queued j id' w hj (mem_update_nil.mp hq).2
    full := fun j id' w value' hj h hnone => hv.full j id' w value' hj (hfull h hnone) hnone
    hoped := fun j id' w value' hj h hnone => hv.hoped j id' w value' hj (hfull h hnone) hnone }

theorem Final.subscribe (hok : Ok v) (hv : Final v) (hold : v.waiter i = none) :
    Final { v with
      queue := Function.update v.queue id (v.queue id ++ [v.channels.length])
      channels := v.channels ++ [.empty]
      waiter := Function.update v.waiter i (some (id, v.channels.length)) } := by
  have hnothope : v.hoping i = false := by
    cases hhope : v.hoping i with
    | false => rfl
    | true => exact absurd hold (hv.hoping i hhope)
  -- the new waiter does not hope, and was handed nothing
  have hwaiter : ∀ {j id' w}, Function.update v.waiter i (some (id, v.channels.length)) j =
      some (id', w) → (v.hoping j = false ∧ w = v.channels.length) ∨
        (v.waiter j = some (id', w) ∧ w < v.channels.length) := by
    intro j id' w hj
    obtain ⟨rfl, he⟩ | ⟨_, hj⟩ := update_some_eq_some.mp hj
    · cases he
      exact .inl ⟨hnothope, rfl⟩
    · obtain ⟨o, ho, _⟩ := hok.unclosed j id' w hj
      exact .inr ⟨hj, (List.getElem?_eq_some_iff.mp ho).1⟩
  have hfull : ∀ {j id' w} {value : Resubscription}, Function.update v.waiter i (some (id, v.channels.length)) j =
      some (id', w) → (v.channels ++ [Oneshot.empty])[w]? = some (.full value) →
      v.waiter j = some (id', w) ∧ v.channels[w]? = some (.full value) := by
    intro j id' w value hj h
    obtain ⟨_, rfl⟩ | ⟨hj, hlt⟩ := hwaiter hj
    · simp at h
    · exact ⟨hj, (List.getElem?_append_left hlt).symm.trans h⟩
  constructor
  · intro j id' w hj hq hclosed
    obtain ⟨hhope, _⟩ | ⟨hj, hlt⟩ := hwaiter hj
    · exact hhope
    · obtain hq | ⟨_, rfl⟩ := mem_update_snoc.mp hq
      · exact hv.queued j id' w hj hq hclosed
      · exact absurd hlt (Nat.lt_irrefl _)
  · exact hv.closing
  · intro k task ws hk w hw j id' hj hhope
    obtain ⟨hfalse, _⟩ | ⟨hj, _⟩ := hwaiter hj
    · exact absurd hhope (by simp [hfalse])
    · exact hv.handing k task ws hk w hw j id' hj hhope
  · intro j id' w value hj h
    obtain ⟨hj, h⟩ := hfull hj h
    exact hv.full j id' w value hj h
  · intro j id' w value hj h
    obtain ⟨hj, h⟩ := hfull hj h
    exact hv.hoped j id' w value hj h
  · exact hv.got
  · intro j hhope
    have hji : j ≠ i := by
      rintro rfl
      exact absurd hhope (by simp [hnothope])
    dsimp only
    rw [Function.update_of_ne hji]
    exact hv.hoping j hhope

theorem Final.hope (hok : Ok v) (hv : Final v) (hold : v.waiter i = some (id, w))
    (hopen : v.closed id = none) : Final { v with hoping := Function.update v.hoping i true } := by
  -- the subscription that hopes waits for a task that is not closed
  have hhoping : ∀ {j id' w'}, v.waiter j = some (id', w') → v.closed id' ≠ none →
      Function.update v.hoping i true j = v.hoping j := by
    intro j id' w' hj hclosed
    refine Function.update_of_ne ?_ ..
    rintro rfl
    cases hold.symm.trans hj
    exact hclosed hopen
  constructor
  · intro j id' w' hj hq hclosed
    exact (hhoping hj hclosed).trans (hv.queued j id' w' hj hq hclosed)
  · exact hv.closing
  · intro k task ws hk u hu j id' hj hhope
    have hid := (hok.taken k task ws hk u hu).2.2 j id' hj
    have hclosed : v.closed id' ≠ none := hid ▸ hv.closing k task ws hk
    exact hv.handing k task ws hk u hu j id' hj ((hhoping hj hclosed).symm.trans hhope)
  · exact hv.full
  · intro j id' w' value hj h hnone hhope
    have hclosed := hv.full j id' w' value hj h hnone
    exact hv.hoped j id' w' value hj h hnone ((hhoping hj hclosed).symm.trans hhope)
  · exact hv.got
  · intro j hhope
    by_cases hji : j = i
    · rw [hji]
      exact fun hnone => by cases hold.symm.trans hnone
    · exact hv.hoping j ((Function.update_of_ne hji ..).symm.trans hhope)

/-- A waiter that is no longer owned leaves the others what they get. -/
theorem Final.close (hv : Final v) {queue : TaskId → List WaiterId} {channels : List Oneshot}
    (hsub : ∀ id' u, u ∈ queue id' → u ∈ v.queue id')
    (hchannels : ∀ (u : WaiterId) (value : Resubscription), channels[u]? = some (.full value) →
      v.channels[u]? = some (.full value)) {got : Option (TaskId × Option Task)}
    (hgot : ∀ id' o, got = some (id', o) → o ≠ none ∧ v.closed id' = o) :
    Final { v with
      queue := queue
      channels := channels
      waiter := Function.update v.waiter i none
      hoping := Function.update v.hoping i false
      got := Function.update v.got i got } := by
  have hwaiter : ∀ {j id' w'}, Function.update v.waiter i none j = some (id', w') →
      v.waiter j = some (id', w') ∧ Function.update v.hoping i false j = v.hoping j := by
    intro j id' w' hj
    obtain ⟨hji, hj⟩ := update_none_eq_some.mp hj
    exact ⟨hj, Function.update_of_ne hji ..⟩
  constructor
  · intro j id' u hj hq hclosed
    obtain ⟨hj, hhope⟩ := hwaiter hj
    exact hhope.trans (hv.queued j id' u hj (hsub id' u hq) hclosed)
  · exact hv.closing
  · intro k task ws hk u hu j id' hj hhope
    obtain ⟨hj, he⟩ := hwaiter hj
    exact hv.handing k task ws hk u hu j id' hj (he.symm.trans hhope)
  · intro j id' u value hj h
    exact hv.full j id' u value (hwaiter hj).1 (hchannels u value h)
  · intro j id' u value hj h hnone hhope
    obtain ⟨hj, he⟩ := hwaiter hj
    exact hv.hoped j id' u value hj (hchannels u value h) hnone (he.symm.trans hhope)
  · intro j id' o hj
    by_cases hji : j = i
    · subst hji
      exact hgot id' o ((Function.update_self j got v.got).symm.trans hj)
    · exact hv.got j id' o ((Function.update_of_ne hji ..).symm.trans hj)
  · intro j hhope
    have hji : j ≠ i := by
      rintro rfl
      simp at hhope
    have hhope' : v.hoping j = true := (Function.update_of_ne hji ..).symm.trans hhope
    exact fun hnone => hv.hoping j hhope' ((Function.update_of_ne hji ..).symm.trans hnone)

theorem Final.take (hok : Ok v) (hv : Final v) :
    Final { v with
      queue := Function.update v.queue task.id []
      release := Function.update v.release i (some (task, .handing (v.queue task.id)))
      closed := Function.update v.closed task.id (some ((v.closed task.id).getD task)) } := by
  have hclosed : ∀ {id x}, v.closed id = some x →
      Function.update v.closed task.id (some ((v.closed task.id).getD task)) id = some x := by
    intro id x hx
    by_cases hid : id = task.id
    · subst hid
      rw [Function.update_self, hx, Option.getD_some]
    · rwa [Function.update_of_ne hid]
  have hne : ∀ {id}, v.closed id ≠ none →
      Function.update v.closed task.id (some ((v.closed task.id).getD task)) id ≠ none := by
    intro id h
    obtain ⟨x, hx⟩ := Option.ne_none_iff_exists'.mp h
    rw [hclosed hx]
    exact Option.some_ne_none x
  constructor
  · intro j id w hj hq h
    obtain ⟨hid, hq⟩ := mem_update_nil.mp hq
    dsimp only at h
    rw [Function.update_of_ne hid] at h
    exact hv.queued j id w hj hq h
  · intro k t us hk
    obtain ⟨_, he⟩ | ⟨_, hk⟩ := update_some_eq_some.mp hk
    · cases he
      simp
    · exact hne (hv.closing k t us hk)
  · intro k t us hk w hw j id hj hhope
    obtain ⟨_, he⟩ | ⟨_, hk⟩ := update_some_eq_some.mp hk
    · cases he
      obtain ⟨l, hl⟩ := hok.owner _ w hw
      obtain rfl := hok.unique j l _ _ w hj hl
      cases hj.symm.trans hl
      -- it hopes and was queued, so the id was not closed before
      have hopen : v.closed task.id = none := by
        by_contra h
        cases hhope.symm.trans (hv.queued j _ w hj hw h)
      simp [hopen]
    · exact hclosed (hv.handing k t us hk w hw j id hj hhope)
  · exact fun j id w value hj h hnone => hne (hv.full j id w value hj h hnone)
  · exact fun j id w value hj h hnone hhope => hclosed (hv.hoped j id w value hj h hnone hhope)
  · intro j id o hj
    obtain ⟨ho, hcl⟩ := hv.got j id o hj
    obtain ⟨x, rfl⟩ := Option.ne_none_iff_exists'.mp ho
    exact ⟨ho, hclosed hcl⟩
  · exact hv.hoping

theorem Final.hand (hok : Ok v) (hv : Final v)
    (hold : v.release i = some (task, .handing (w :: ws))) :
    Final { v with
      channels := v.channels.modify w (Oneshot.send ⟨none, task, 0⟩)
      release := Function.update v.release i (some (task, .handing ws)) } := by
  obtain ⟨_, _, htask⟩ := hok.taken i task _ hold w List.mem_cons_self
  have hrel : ∀ {k t us}, Function.update v.release i (some (task, .handing ws)) k =
      some (t, .handing us) → ∃ us', v.release k = some (t, .handing us') ∧ ∀ u ∈ us, u ∈ us' := by
    intro k t us hk
    obtain ⟨rfl, he⟩ | ⟨_, hk⟩ := update_some_eq_some.mp hk
    · cases he
      exact ⟨_, hold, fun u hu => List.mem_cons_of_mem w hu⟩
    · exact ⟨us, hk, fun u hu => hu⟩
  constructor
  · exact hv.queued
  · intro k t us hk
    obtain ⟨us', hk, _⟩ := hrel hk
    exact hv.closing k t us' hk
  · intro k t us hk u hu
    obtain ⟨us', hk, hsub⟩ := hrel hk
    exact hv.handing k t us' hk u (hsub u hu)
  · intro j id u value hj hfull hnone
    obtain ⟨rfl, _, rfl⟩ | hfull := (modify_send_full ..).mp hfull
    · rw [htask j id hj]
      exact hv.closing i task _ hold
    · exact hv.full j id u value hj hfull hnone
  · intro j id u value hj hfull hnone hhope
    obtain ⟨rfl, _, rfl⟩ | hfull := (modify_send_full ..).mp hfull
    · exact hv.handing i task _ hold u List.mem_cons_self j id hj hhope
    · exact hv.hoped j id u value hj hfull hnone hhope
  · exact hv.got
  · exact hv.hoping

/-- **A closed id ends every wait with the task it was closed with.** -/
theorem Final.step (hok : Ok v) (hv : Final v) (hs : Step v v') : Final v' := by
  have hset : ∀ (w : WaiterId) {u : WaiterId} {value : Resubscription}, (v.channels.set w Oneshot.closed)[u]? = some (.full value) →
      v.channels[u]? = some (.full value) := by
    intro w u value h
    by_cases hu : w = u
    · rw [hu, List.getElem?_set_self'] at h
      cases hc : v.channels[u]? <;> simp [hc] at h
    · rwa [List.getElem?_set_ne hu] at h
  cases hs with
  | move _ hnew => exact hv.move hnew
  | start hvalue => exact hv.start hvalue
  | subscribe hold => exact hv.subscribe hok hold
  | hope hold hopen => exact hv.hope hok hold hopen
  | @attach i id w value got hold hfull hgot =>
      refine hv.close (fun _ _ hu => hu) (fun _ _ => hset w) fun id' o hg => ?_
      obtain ⟨hhope, hnone, he⟩ := hgot _ hg
      cases he
      exact ⟨Option.some_ne_none _, hv.hoped i id w value hold hfull hnone hhope⟩
  | @leave i id w hold =>
      have hsub : ∀ id' u, u ∈ Function.update v.queue id ((v.queue id).filter fun u =>
          !(v.channels.set w .closed)[u]?.any (·.isClosed)) id' → u ∈ v.queue id' :=
        fun _ _ hu => (mem_update_filter hu).1
      have hclose := hv.close (i := i) hsub (fun _ _ => hset w) fun _ _ => hv.got i _ _
      rwa [Function.update_eq_self] at hclose
  | @forget i =>
      exact { hv with
        got := fun j id o hj => hv.got j id o (update_none_eq_some.mp hj).2 }
  | take hold => exact hv.take hok
  | hand hold => exact hv.hand hok hold

end Waits

end A2a
