import A2a.Server.Winners
import A2a.Waiting

/-!
# A2a.Server.Waiting

No subscription is left waiting on a canceled task.

The waiting subscriptions of the server are a `Waits`: `waits_step` shows
that every step of the server is one of its steps or leaves it alone.  What
closes an id is the first release of the cancel that made its task CANCELED.

`cancel_ends_waiting` is the guarantee of such a cancel, however it ends.
A cancel that lost the race has none to give: the waiting subscriptions are
the winner's, see `losingCancel_leaves_waiting`.
-/

namespace A2a

open InMemoryTaskStore

/-! ## what threads have to do with waiting -/

namespace SubscribePc

/-- The waiter a subscription owns. -/
def waiter : SubscribePc → Option WaiterId
  | .attached w => some w
  | .load w => some w
  | .loaded w _ => some w
  | .refusing w _ => some w
  | .opening w _ => some w
  | .waiting w _ => some w
  | _ => none

/-- The subscription has read its task live. -/
def hoping : SubscribePc → Bool
  | .loaded _ task => !task.isTerminal
  | .opening _ _ => true
  | .waiting _ _ => true
  | _ => false

end SubscribePc

/-- The task a stream without a receiver shows, before or after it is
yielded. -/
def Subscription.shown (sub : Subscription) : Option Task :=
  match sub.snapshotTask with
  | some task => some task
  | none =>
      match sub.yielded.getLast? with
      | some (.ok (.task task)) => some task
      | _ => none

/-- What a final snapshot left of a wait. -/
def Subscription.got (sub : Subscription) : Option (Option Task) :=
  if sub.receiver.isNone then some sub.shown else none

/-- What a final snapshot left of the wait of a subscription that waited. -/
def SubscribePc.got : SubscribePc → Option (Option Task)
  | .streaming (some _) sub => sub.got
  | .ended (some _) sub => sub.got
  | _ => none

namespace Thread

/-- The waiter a thread owns, with the task it waits for. -/
def waiter : Thread → Option (TaskId × WaiterId)
  | .subscribe call pc => pc.waiter.map (call.req.id, ·)
  | _ => none

def hoping : Thread → Bool
  | .subscribe _ pc => pc.hoping
  | _ => false

def got : Thread → Option (TaskId × Option Task)
  | .subscribe call pc => pc.got.map (call.req.id, ·)
  | _ => none

def release : Thread → Option (Task × ReleasePc)
  | .cancel _ pc => pc.release
  | _ => none

def released (guard : Task) : Thread → Option Task
  | .cancel _ pc => pc.released guard
  | _ => none

end Thread

/-! ## what closes an id -/

/-- What closes an id: the first release of the cancel that won it. -/
def closedWith (tr : List (Server × Action)) (s : Server) (id : TaskId) : Option Task :=
  (winners tr).findSome? fun p => if p.2.id = id then s.view none (·.released p.2) p.1 else none

/-- The waiting subscriptions of the server, after a run. -/
def Server.waits (tr : List (Server × Action)) (s : Server) : Waits where
  queue := s.manager.waiting
  channels := s.oneshots
  waiter := s.view none (·.waiter)
  hoping := s.view false (·.hoping)
  got := s.view none (·.got)
  release := s.view none (·.release)
  closed := closedWith tr s

variable {h : Handler} {s s' s₁ : Server} {tr : List (Server × Action)} {a : Action} {i : Nat}

theorem closedWith_of_mem (hw : Winners tr s) (hp : p ∈ winners tr) :
    closedWith tr s p.2.id = s.view none (·.released p.2) p.1 := by
  have hother : ∀ q ∈ winners tr, q.2.id = p.2.id → q = p := fun q hq => hw.unique q hq p hp
  cases hv : s.view none (·.released p.2) p.1 with
  | none =>
      rw [closedWith, List.findSome?_eq_none_iff]
      intro q hq
      split
      · next hid => rw [hother q hq hid, hv]
      · rfl
  | some y =>
      have hsome : (closedWith tr s p.2.id).isSome := by
        rw [closedWith, List.findSome?_isSome_iff]
        exact ⟨p, hp, by simp [hv]⟩
      obtain ⟨z, hz⟩ := Option.isSome_iff_exists.mp hsome
      obtain ⟨q, hq, hqz⟩ := List.exists_of_findSome?_eq_some hz
      split at hqz
      · next hid =>
          rw [hother q hq hid, hv] at hqz
          rw [hz, hqz]
      · contradiction

theorem closedWith_of_not_mem {id : TaskId} (hn : ∀ p ∈ winners tr, p.2.id ≠ id) : closedWith tr s id = none := by
  rw [closedWith, List.findSome?_eq_none_iff]
  intro p hp
  rw [if_neg (hn p hp)]

section step

variable {t t' : Thread} {cmd : Cmd} {b : cmd.β}

/-- What closes an id is not changed by a step that is no first release. -/
theorem closedWith_step (hw : Winners tr s) (hw' : Winners (tr ++ [(s, a)]) s')
    (hs : Server.step h s a = some s') (id : TaskId)
    (hview : ∀ p ∈ winners tr, p.2.id = id →
      s'.view none (·.released p.2) p.1 = s.view none (·.released p.2) p.1) :
    closedWith (tr ++ [(s, a)]) s' id = closedWith tr s id := by
  by_cases hid : ∃ p ∈ winners (tr ++ [(s, a)]), p.2.id = id
  · obtain ⟨p, hp, rfl⟩ := hid
    rw [closedWith_of_mem hw' hp]
    by_cases hold : p ∈ winners tr
    · rw [closedWith_of_mem hw hold]
      exact hview p hold rfl
    · obtain hp' | hwin := mem_winners_snoc.mp hp
      · contradiction
      · obtain ⟨call, hi, _⟩ := wins_thread hs hwin
        rw [Server.view_of_getElem hi, closedWith_of_not_mem]
        · rfl
        · intro q hq he
          have hqp := hw'.unique q (mem_winners_snoc.mpr (.inl hq)) p hp he
          exact hold (hqp ▸ hq)
  · have hno : ∀ p ∈ winners (tr ++ [(s, a)]), p.2.id ≠ id := fun p hp he => hid ⟨p, hp, he⟩
    rw [closedWith_of_not_mem hno,
      closedWith_of_not_mem fun p hp => hno p (mem_winners_snoc.mpr (.inl hp))]

/-- The waiting subscriptions after a step. -/
theorem waits_after (hruns : s.runs h a i t cmd) (hran : s.Ran i cmd s' s₁ b)
    (ht' : (cmd.resume b).1 = t') :
    Server.waits (tr ++ [(s, a)]) s' = {
      queue := s₁.manager.waiting
      channels := s₁.oneshots
      waiter := Function.update (s.view none (·.waiter)) i t'.waiter
      hoping := Function.update (s.view false (·.hoping)) i t'.hoping
      got := Function.update (s.view none (·.got)) i t'.got
      release := Function.update (s.view none (·.release)) i t'.release
      closed := closedWith (tr ++ [(s, a)]) s' } := by
  have hcont := hran.post hruns.continues
  have hqueue : s'.manager = s₁.manager ∧ s'.oneshots = s₁.oneshots := by
    rw [hran.eq]
    exact ⟨rfl, rfl⟩
  subst ht'
  simp only [Server.waits, hqueue]
  rw [hran.view hruns.1, hran.view hruns.1, hran.view hruns.1, hran.view hruns.1] <;>
  · intro t₂ ht₂
    obtain ⟨_, _, _, _, rfl⟩ := hcont.spawned ht₂
    rfl

/-- A step that leaves waiting alone. -/
theorem waits_same (hruns : s.runs h a i t cmd) (hran : s.Ran i cmd s' s₁ b)
    (ht' : (cmd.resume b).1 = t') (hqueue : s₁.manager.waiting = s.manager.waiting)
    (hchannels : s₁.oneshots = s.oneshots) (hwaiter : t'.waiter = t.waiter)
    (hhoping : t'.hoping = t.hoping) (hgot : t'.got = t.got) (hrelease : t'.release = t.release)
    (hclosed : closedWith (tr ++ [(s, a)]) s' = closedWith tr s) :
    Server.waits (tr ++ [(s, a)]) s' = Server.waits tr s := by
  rw [waits_after hruns hran ht', hqueue, hchannels, hclosed,
    s.view_same none (·.waiter) _ hruns.1 hwaiter, s.view_same false (·.hoping) _ hruns.1 hhoping,
    s.view_same none (·.got) _ hruns.1 hgot, s.view_same none (·.release) _ hruns.1 hrelease]
  rfl

/-- Nothing closes an id while no cancel that won acts, nor while one that
does has released the same. -/
theorem closedWith_same (hw : Winners tr s) (hw' : Winners (tr ++ [(s, a)]) s')
    (hs : Server.step h s a = some s') (hruns : s.runs h a i t cmd) (hran : s.Ran i cmd s' s₁ b)
    (hrel : ∀ x, (i, x) ∈ winners tr → (cmd.resume b).1.released x = t.released x) :
    closedWith (tr ++ [(s, a)]) s' = closedWith tr s := by
  funext id
  refine closedWith_step hw hw' hs id fun p hp _ => ?_
  have hcont := hran.post hruns.continues
  rw [hran.view hruns.1]
  · by_cases hpi : p.1 = i
    · obtain ⟨k, x⟩ := p
      obtain rfl : k = i := hpi
      rw [Function.update_self, Server.view_of_getElem hruns.1, hrel x hp]
    · rw [Function.update_of_ne hpi]
  · intro t₂ ht₂
    obtain ⟨_, _, _, _, rfl⟩ := hcont.spawned ht₂
    rfl

/-- A thread that is no cancel releases nothing. -/
theorem Winners.closedWith_same (hw : Winners tr s) (hw' : Winners (tr ++ [(s, a)]) s')
    (hs : Server.step h s a = some s') (hruns : s.runs h a i t cmd) (hran : s.Ran i cmd s' s₁ b)
    (ht : ∀ call pc, t ≠ .cancel call pc) :
    closedWith (tr ++ [(s, a)]) s' = closedWith tr s := by
  refine A2a.closedWith_same hw hw' hs hruns hran fun x hx => ?_
  obtain ⟨call, pc, hk, _⟩ := hw.thread _ hx
  exact absurd (Option.some.inj (hruns.1.symm.trans hk)) (ht call pc)

end step

/-! ## operations that leave waiting alone -/

/-- Whether an operation leaves the queues and their channels alone. -/
def Op.keepsWaiting {β : Type} : Op β → Bool
  | .start _ => false
  | .subscribe _ => false
  | .takeWaiting _ => false
  | .hand _ _ => false
  | .attached _ => false
  | .await _ => false
  | .dropWaiter _ _ => false
  | _ => true

theorem Op.waitingAfter_same {β : Type} {op : Op β} (hop : op.keepsWaiting = true) :
    op.waitingAfter s = s.manager.waiting ∧ op.oneshotsAfter s = s.oneshots := by
  cases op <;> first | exact ⟨rfl, rfl⟩ | contradiction

theorem Op.run_keepsWaiting {β : Type} {op : Op β} {b : β} (hr : op.run s = some (s₁, b))
    (hop : op.keepsWaiting = true) :
    s₁.manager.waiting = s.manager.waiting ∧ s₁.oneshots = s.oneshots := by
  have heffects := Op.effects hr
  rw [heffects.waiting, heffects.oneshots]
  exact Op.waitingAfter_same hop

def Cmd.keepsWaiting (cmd : Cmd) : Bool := cmd.op.keepsWaiting

@[simp] theorem andThen_keepsWaiting {β : Type} (op : Op β) (k : β → Thread) :
    (op.andThen k).keepsWaiting = op.keepsWaiting := rfl

@[simp] theorem saveOp_keepsWaiting (task : Task) (pc : SavePc) :
    (saveOp task pc).keepsWaiting = true := by
  cases pc <;> rfl

@[simp] theorem pushCmd_keepsWaiting (inp : Input) (taskId : TaskId) (event : StreamResponse)
    (pc : PushPc) (k : PushPc ⊕ Except A2AError Unit → Thread) :
    (pushCmd inp taskId event pc k).keepsWaiting = true := by
  rcases pc with _ | _ | _ <;> rfl

@[simp] theorem publishCmd_keepsWaiting (x : ExecId) (result : Item) (snapshotTask : Option Task)
    (pc : PublishPc) (k : Option PublishPc → Thread) :
    (publishCmd x result snapshotTask pc k).keepsWaiting = true := by
  cases pc <;> rfl

@[simp] theorem pollCmd_keepsWaiting (sub : Subscription)
    (k : Subscription → Option (Option Item) → Thread) :
    (pollCmd sub k).keepsWaiting = true := by
  simp only [pollCmd]
  split
  · rfl
  · split <;> rfl

theorem Driver.next_keepsWaiting (d : Driver) (inp : Input) :
    (d.next inp).keepsWaiting = true := by
  cases hpc : d.pc <;> simp only [Driver.next, hpc, andThen_keepsWaiting, saveOp_keepsWaiting,
    pushCmd_keepsWaiting, publishCmd_keepsWaiting]
  case poll => split <;> rfl
  all_goals rfl

theorem SendCall.next_keepsWaiting (call : SendCall) (pc : SendPc) (inp : Input)
    (hpc : ∀ prepared, pc ≠ .start prepared) : (call.next h inp pc).keepsWaiting = true := by
  cases pc <;> simp only [SendCall.next, andThen_keepsWaiting, pollCmd_keepsWaiting]
  case load => split <;> rfl
  case savePush => split <;> rfl
  case start prepared => exact absurd rfl (hpc prepared)
  all_goals rfl

theorem CancelCall.next_keepsWaiting (call : CancelCall) (pc : CancelPc) (inp : Input)
    (hpc : pc.release = none) : (call.next h inp pc).keepsWaiting = true := by
  cases pc <;> simp only [CancelCall.next, andThen_keepsWaiting, saveOp_keepsWaiting,
    pushCmd_keepsWaiting]
  case load => split <;> rfl
  case publishing => split <;> simp [Op.keepsWaiting]
  case failPublishing => split <;> simp [Op.keepsWaiting]
  case finishing => split <;> rfl
  case releasing => contradiction
  case dropping => contradiction
  all_goals rfl

/-! ## what each thread does to the waiting subscriptions -/

/-- The last two items of a stream without a receiver. -/
theorem post_pollCmd_got {sub : Subscription} {k : Subscription → Option (Option Item) → Thread} :
    (pollCmd sub k).Post s fun _ t' _ => ∃ sub' o, t' = k sub' o ∧ sub'.got = sub.got := by
  simp only [pollCmd]
  split
  · exact Cmd.post_pass.mpr ⟨_, _, rfl, rfl⟩
  · split
    · next task hsnap =>
        refine Cmd.post_pass.mpr ⟨_, _, rfl, ?_⟩
        simp [Subscription.got, Subscription.shown, Subscription.yieldSnapshot, hsnap]
    · exact Cmd.post_pass.mpr ⟨_, _, rfl, rfl⟩
    · next receiver _ hrecv =>
        refine Cmd.post_of_forall fun _ o => ?_
        cases o with
        | event event =>
            refine ⟨_, _, rfl, ?_⟩
            simp only [Subscription.receive]
            split <;> simp [Subscription.got, hrecv]
        | lagged =>
            refine ⟨_, _, rfl, ?_⟩
            simp [Subscription.got, Subscription.yieldLag, hrecv]
        | closed => exact ⟨_, _, rfl, rfl⟩

theorem Subscription.got_ofResubscription {value : Resubscription}
    (ho : (ofResubscription value).got = some o) :
    value.receiver = none ∧ o = some value.snapshotTask := by
  by_cases hnone : value.receiver = none
  · have ho' : o = some value.snapshotTask := by
      simpa [got, ofResubscription, shown, hnone, eq_comm] using ho
    exact ⟨hnone, ho'⟩
  · simp [got, ofResubscription, hnone] at ho

/-- Where a subscription goes in a step. -/
inductive SubscribeCall.Goes (s s₁ : Server) (call : SubscribeCall) :
    SubscribePc → SubscribePc → Prop
  | idle {pc pc' : SubscribePc} (hqueue : s₁.manager.waiting = s.manager.waiting)
      (hchannels : s₁.oneshots = s.oneshots) (hwaiter : pc'.waiter = pc.waiter)
      (hhoping : pc'.hoping = pc.hoping) (hgot : pc'.got = pc.got) : Goes s s₁ call pc pc'
  | queue (hqueue : s₁.manager.waiting = Function.update s.manager.waiting call.req.id
        (s.manager.waiting call.req.id ++ [s.oneshots.length]))
      (hchannels : s₁.oneshots = s.oneshots ++ [.empty]) :
      Goes s s₁ call .register (.attached s.oneshots.length)
  | hope {w : WaiterId} {task : Task} (hsame : s₁ = s)
      (hget : s.taskStore.get call.req.id = some task) (hlive : task.isTerminal = false) :
      Goes s s₁ call (.load w) (.loaded w task)
  | attach {pc pc' : SubscribePc} {w : WaiterId} {value : Resubscription}
      (hw : pc.waiter = some w) (hfull : s.oneshots[w]? = some (.full value))
      (hqueue : s₁.manager.waiting = s.manager.waiting)
      (hchannels : s₁.oneshots = s.oneshots.set w .closed) (hwaiter : pc'.waiter = none)
      (hhoping : pc'.hoping = false)
      (hgot : ∀ o, pc'.got = some o →
        pc.hoping = true ∧ value.receiver = none ∧ o = some value.snapshotTask) :
      Goes s s₁ call pc pc'
  | leave {pc pc' : SubscribePc} {w : WaiterId} (hw : pc.waiter = some w)
      (hqueue : s₁.manager.waiting = Function.update s.manager.waiting call.req.id
        ((s.manager.waiting call.req.id).filter fun u =>
          !(s.oneshots.set w .closed)[u]?.any (·.isClosed)))
      (hchannels : s₁.oneshots = s.oneshots.set w .closed) (hwaiter : pc'.waiter = none)
      (hhoping : pc'.hoping = false) (hgot : pc'.got = pc.got) : Goes s s₁ call pc pc'

theorem post_attached {w : WaiterId} {k : Option Resubscription → Thread} :
    ((Op.attached w).andThen k).Post s fun s₁ t' _ =>
      (∃ value, s.oneshots[w]? = some (.full value) ∧ s₁.manager.waiting = s.manager.waiting ∧
        s₁.oneshots = s.oneshots.set w .closed ∧ t' = k (some value)) ∨
      (s₁ = s ∧ t' = k none) := by
  intro s₁ b hrun
  simp only [Op.andThen, Op.run] at hrun
  split at hrun
  · next value hw =>
      cases hrun
      exact .inl ⟨value, hw, rfl, rfl, rfl⟩
  · cases hrun
    exact .inr ⟨rfl, rfl⟩

theorem post_subscribe {id : TaskId} {k : Receiver ⊕ WaiterId → Thread} :
    ((Op.subscribe id).andThen k).Post s fun s₁ t' _ =>
      (s₁ = s ∧ ∃ receiver, t' = k (.inl receiver)) ∨
      (s₁.manager.waiting = Function.update s.manager.waiting id
          (s.manager.waiting id ++ [s.oneshots.length]) ∧
        s₁.oneshots = s.oneshots ++ [.empty] ∧ t' = k (.inr s.oneshots.length)) := by
  intro s₁ b hrun
  simp only [Op.andThen, Op.run] at hrun
  split at hrun
  · split at hrun
    · cases hrun
      exact .inl ⟨rfl, _, rfl⟩
    · contradiction
  · cases hrun
    exact .inr ⟨rfl, rfl, rfl⟩

theorem SubscribeCall.next_goes (call : SubscribeCall) (pc : SubscribePc) :
    (call.next h pc).Post s fun s₁ t' _ => ∃ pc', t' = .subscribe call pc' ∧
      Goes s s₁ call pc pc' := by
  cases pc <;> simp only [SubscribeCall.next]
  case register =>
    split
    · exact Cmd.post_pass.mpr ⟨_, rfl, .idle rfl rfl rfl rfl rfl⟩
    · exact Cmd.post_pass.mpr ⟨_, rfl, .idle rfl rfl rfl rfl rfl⟩
    · intro s₁ b hrun
      obtain ⟨rfl, receiver, ht'⟩ | ⟨hq, ho, ht'⟩ := post_subscribe s₁ b hrun
      · exact ⟨_, ht', .idle rfl rfl rfl rfl rfl⟩
      · exact ⟨_, ht', .queue hq ho⟩
  case readState receiver =>
    intro s₁ b hrun
    obtain ⟨_, _, he⟩ := Option.map_eq_some_iff.mp hrun
    cases he
    exact ⟨_, rfl, .idle rfl rfl rfl rfl rfl⟩
  case attached w =>
    intro s₁ b hrun
    obtain ⟨value, hfull, hq, ho, ht'⟩ | ⟨rfl, ht'⟩ := post_attached s₁ b hrun
    · exact ⟨_, ht', .attach rfl hfull hq ho rfl rfl (by simp [SubscribePc.got])⟩
    · exact ⟨_, ht', .idle rfl rfl rfl rfl rfl⟩
  case load w =>
    simp only [Cmd.post_get]
    split
    · exact ⟨_, rfl, .idle rfl rfl rfl rfl rfl⟩
    · next task htask =>
        cases hterm : task.isTerminal with
        | true => exact ⟨_, rfl, .idle rfl rfl rfl (by simp [SubscribePc.hoping, hterm]) rfl⟩
        | false => exact ⟨_, rfl, .hope rfl htask hterm⟩
  case loaded w task =>
    intro s₁ b hrun
    obtain ⟨value, hfull, hq, ho, ht'⟩ | ⟨rfl, ht'⟩ := post_attached s₁ b hrun
    · exact ⟨_, ht', .attach rfl hfull hq ho rfl rfl (by simp [SubscribePc.got])⟩
    · dsimp only at ht'
      split at ht'
      · next hterm =>
          exact ⟨_, ht', .idle rfl rfl rfl (by simp [SubscribePc.hoping, hterm]) rfl⟩
      · next hterm =>
          exact ⟨_, ht', .idle rfl rfl rfl (by simp [SubscribePc.hoping, hterm]) rfl⟩
  case refusing w error =>
    exact (Cmd.post_of_run rfl).mpr ⟨_, rfl, .leave rfl rfl rfl rfl rfl rfl⟩
  case opening w task => exact Cmd.post_pass.mpr ⟨_, rfl, .idle rfl rfl rfl rfl rfl⟩
  case waiting w opened =>
    intro s₁ b hrun
    simp only [Op.andThen, Op.run] at hrun
    split at hrun
    · next value hw =>
        cases hrun
        exact ⟨_, rfl, .attach rfl hw rfl rfl rfl rfl fun o ho =>
          ⟨rfl, Subscription.got_ofResubscription ho⟩⟩
    · contradiction
  case streaming opened sub =>
    intro s₁ b hrun
    obtain ⟨hqueue, hchannels⟩ := Op.run_keepsWaiting hrun (pollCmd_keepsWaiting _ _)
    obtain ⟨sub', o, ht', hgot⟩ := post_pollCmd_got s₁ b hrun
    rw [ht']
    have hpc : ∀ pc', pc' = SubscribePc.streaming opened sub' ∨ pc' = .ended opened sub' →
        Goes s s₁ call (.streaming opened sub) pc' := by
      rintro pc' (rfl | rfl) <;>
      · refine .idle hqueue hchannels rfl rfl ?_
        cases opened with
        | none => rfl
        | some task => exact hgot
    rcases o with _ | _ | item
    · exact ⟨_, rfl, hpc _ (.inl rfl)⟩
    · exact ⟨_, rfl, hpc _ (.inr rfl)⟩
    · exact ⟨_, rfl, hpc _ (.inl rfl)⟩
  case refused => simp
  case ended => simp

section step

variable {t t' : Thread} {cmd : Cmd} {b : cmd.β}

/-- A subscription does one step of the waiting subscriptions, or none. -/
theorem SubscribeCall.Goes.waits {call : SubscribeCall} {pc pc' : SubscribePc}
    (hgoes : Goes s s₁ call pc pc') (hw : Winners tr s) (hw' : Winners (tr ++ [(s, a)]) s')
    (hs : Server.step h s a = some s') (hruns : s.runs h a i (.subscribe call pc) cmd)
    (hran : s.Ran i cmd s' s₁ b) (ht' : (cmd.resume b).1 = .subscribe call pc') :
    Waits.Step (Server.waits tr s) (Server.waits (tr ++ [(s, a)]) s') ∨
      Server.waits (tr ++ [(s, a)]) s' = Server.waits tr s := by
  have hclosed := hw.closedWith_same hw' hs hruns hran (by simp)
  have hi := hruns.1
  cases hgoes with
  | idle hqueue hchannels hwaiter hhoping hgot =>
      right
      refine waits_same hruns hran ht' hqueue hchannels ?_ hhoping ?_ rfl hclosed
      · simp [Thread.waiter, hwaiter]
      · simp [Thread.got, hgot]
  | queue hqueue hchannels =>
      left
      rw [waits_after hruns hran ht', hqueue, hchannels, hclosed, s.view_same false (·.hoping) (.subscribe call (.attached _)) hi rfl,
        s.view_same none (·.got) (.subscribe call (.attached _)) hi rfl, s.view_same none (·.release) (.subscribe call (.attached _)) hi rfl]
      exact .subscribe (v := s.waits tr) (Server.view_of_getElem hruns.1)
  | @hope w task hsame hget hlive =>
      left
      have hopen : closedWith tr s call.req.id = none := by
        by_cases hid : ∃ p ∈ winners tr, p.2.id = call.req.id
        · -- the task read would be CANCELED
          obtain ⟨p, hp, hid⟩ := hid
          have hst := (hw.canceled p hp).2 task (by rw [hid]; exact hget)
          simp [Task.isTerminal, hst, TaskState.isTerminal] at hlive
        · exact closedWith_of_not_mem fun p hp he => hid ⟨p, hp, he⟩
      rw [waits_after hruns hran ht', hsame, hclosed, s.view_same none (·.waiter) (.subscribe call (.loaded w task)) hi rfl,
        s.view_same none (·.got) (.subscribe call (.loaded w task)) hi rfl, s.view_same none (·.release) (.subscribe call (.loaded w task)) hi rfl]
      have hhoping : (Thread.subscribe call (.loaded w task)).hoping = true := by
        simp [Thread.hoping, SubscribePc.hoping, hlive]
      rw [hhoping]
      exact .hope (v := s.waits tr) (w := w) (Server.view_of_getElem hruns.1) hopen
  | @attach pc pc' w value hwaits hfull hqueue hchannels hwaiter hhoping hgot =>
      left
      have hold : (s.waits tr).waiter i = some (call.req.id, w) :=
        (Server.view_of_getElem hi).trans (by simp [Thread.waiter, hwaits])
      have hwaiter' : (Thread.subscribe call pc').waiter = none := by simp [Thread.waiter, hwaiter]
      rw [waits_after hruns hran ht', hqueue, hchannels, hclosed, hwaiter',
        s.view_same none (·.release) (.subscribe call pc') hi rfl, show (Thread.subscribe call pc').hoping = false from hhoping]
      refine .attach (v := s.waits tr) hold hfull fun p hp => ?_
      obtain ⟨o, ho, rfl⟩ := Option.map_eq_some_iff.mp hp
      obtain ⟨hhope, hnone, rfl⟩ := hgot o ho
      exact ⟨(Server.view_of_getElem hruns.1).trans hhope, hnone, rfl⟩
  | @leave pc pc' w hwaits hqueue hchannels hwaiter hhoping hgot =>
      left
      have hold : (s.waits tr).waiter i = some (call.req.id, w) :=
        (Server.view_of_getElem hi).trans (by simp [Thread.waiter, hwaits])
      have hwaiter' : (Thread.subscribe call pc').waiter = none := by simp [Thread.waiter, hwaiter]
      rw [waits_after hruns hran ht', hqueue, hchannels, hclosed, hwaiter',
        s.view_same none (·.got) (.subscribe call pc') hi (by simp [Thread.got, hgot]), s.view_same none (·.release) (.subscribe call pc') hi rfl,
        show (Thread.subscribe call pc').hoping = false from hhoping]
      exact .leave (v := s.waits tr) hold

/-- A release of a cancel that won is one of the waiting subscriptions.
`pcAt` is where the cancel is in it, `exit` where it goes on. -/
theorem release_waits {call : CancelCall} (pcAt : ReleasePc → CancelPc) {exit : CancelPc}
    {task x : Task} {rpc : ReleasePc}
    (hcmd : cmd = releaseCmd task rpc fun
      | some rpc' => .cancel call (pcAt rpc')
      | none => .cancel call exit)
    (hrelease : ∀ rpc, (pcAt rpc).release = some (task, rpc))
    (hexit : ∀ y ws, exit.release ≠ some (y, .handing ws)) (hid : task.id = x.id)
    (hx : (i, x) ∈ winners tr)
    (htake : ∀ ws, (pcAt (.handing ws)).released x = some (((pcAt .take).released x).getD task))
    (hgone : exit.released x = (pcAt (.handing [])).released x)
    (hw : Winners tr s) (hw' : Winners (tr ++ [(s, a)]) s')
    (hs : Server.step h s a = some s') (hruns : s.runs h a i (.cancel call (pcAt rpc)) cmd)
    (hran : s.Ran i cmd s' s₁ b) :
    Waits.Step (Server.waits tr s) (Server.waits (tr ++ [(s, a)]) s') := by
  have hi := hruns.1
  have hold : (s.waits tr).release i = some (task, rpc) :=
    (Server.view_of_getElem hi).trans (hrelease rpc)
  -- a cancel stays at its release, or leaves it
  have hwaits : ∀ pc' q ch, (cmd.resume b).1 = .cancel call pc' → s₁.manager.waiting = q →
      s₁.oneshots = ch → Server.waits (tr ++ [(s, a)]) s' = { s.waits tr with
        queue := q
        channels := ch
        release := Function.update (s.waits tr).release i pc'.release
        closed := closedWith (tr ++ [(s, a)]) s' } := by
    intro pc' q ch ht' hq hch
    rw [waits_after hruns hran ht', hq, hch, s.view_same none (·.waiter) (.cancel call pc') hi rfl,
      s.view_same false (·.hoping) (.cancel call pc') hi rfl,
      s.view_same none (·.got) (.cancel call pc') hi rfl]
    rfl
  have hclosed : ∀ pc', (cmd.resume b).1 = .cancel call pc' →
      pc'.released x = (pcAt rpc).released x →
      closedWith (tr ++ [(s, a)]) s' = closedWith tr s := by
    intro pc' ht' hrel
    refine closedWith_same hw hw' hs hruns hran fun y hy => ?_
    obtain rfl := hw.thread_unique hx hy
    rw [ht']
    exact hrel
  cases rpc with
  | take =>
      have hpost : cmd.Post s fun s₁ t' _ =>
          s₁.manager.waiting = Function.update s.manager.waiting task.id [] ∧
            s₁.oneshots = s.oneshots ∧
            t' = .cancel call (pcAt (.handing (s.manager.waiting task.id))) := by
        rw [hcmd]
        intro s₁ b hrun
        cases hrun
        exact ⟨rfl, rfl, rfl⟩
      obtain ⟨hq, hch, ht'⟩ := hran.post hpost
      have hclosed' : closedWith (tr ++ [(s, a)]) s' = Function.update (closedWith tr s) task.id
          (some ((closedWith tr s task.id).getD task)) := by
        funext id
        by_cases hid' : id = task.id
        · have hmem : (i, x) ∈ winners (tr ++ [(s, a)]) := mem_winners_snoc.mpr (.inl hx)
          have hi' := hran.getElem_self hi
          rw [ht'] at hi'
          rw [hid', Function.update_self, hid, closedWith_of_mem hw' hmem, closedWith_of_mem hw hx,
            Server.view_of_getElem hi, Server.view_of_getElem hi']
          exact htake _
        · rw [Function.update_of_ne hid']
          refine closedWith_step hw hw' hs id fun p hp hpid => ?_
          have hne : p.1 ≠ i := by
            rintro rfl
            have hpx : p.2 = x := hw.thread_unique hp hx
            exact hid' (hpid.symm.trans (hpx ▸ hid.symm))
          obtain ⟨_, _, hk, _⟩ := hw.thread p hp
          rw [Server.view_of_getElem hk, Server.view_of_getElem (hran.getElem_other hne hk)]
      rw [hwaits _ _ _ ht' hq hch, hclosed', hrelease]
      exact .take (v := s.waits tr) hold
  | handing ws =>
      have hsame : ∀ us, (pcAt (.handing us)).released x = (pcAt (.handing ws)).released x :=
        fun us => (htake us).trans (htake ws).symm
      cases ws with
      | nil =>
          have hpost : cmd.Post s fun s₁ t' _ => s₁ = s ∧ t' = .cancel call exit := by
            rw [hcmd]
            exact Cmd.post_pass.mpr ⟨rfl, rfl⟩
          obtain ⟨rfl, ht'⟩ := hran.post hpost
          rw [hwaits exit _ _ ht' rfl rfl, hclosed exit ht' hgone]
          refine .move (v := s₁.waits tr) (fun y us he => ?_) hexit
          have he' : y = task ∧ us = [] := by simpa using Option.some.inj (he.symm.trans hold)
          exact he'.2
      | cons w ws =>
          have hpost : cmd.Post s fun s₁ t' _ => s₁.manager.waiting = s.manager.waiting ∧
              s₁.oneshots = s.oneshots.modify w (Oneshot.send ⟨none, task, 0⟩) ∧
              t' = .cancel call (pcAt (.handing ws)) := by
            rw [hcmd]
            intro s₁ b hrun
            cases hrun
            exact ⟨rfl, rfl, rfl⟩
          obtain ⟨hq, hch, ht'⟩ := hran.post hpost
          rw [hwaits _ _ _ ht' hq hch, hclosed _ ht' (hsame ws), hrelease]
          exact .hand (v := s.waits tr) hold

theorem CancelPc.release_of_guard {pc : CancelPc} (hpc : pc.guard = none) :
    pc.release = none := by
  cases pc <;> first | rfl | contradiction

theorem CancelPc.released_of_guard {pc : CancelPc} {x y : Task} (hpc : pc.guard = some x)
    (hrelease : pc.release = none) : pc.released y = none := by
  cases pc <;> first | rfl | contradiction

/-- A cancel does one step of the waiting subscriptions, or none. -/
theorem cancel_waits {call : CancelCall} {pc : CancelPc} (hw : Winners tr s)
    (hw' : Winners (tr ++ [(s, a)]) s') (hs : Server.step h s a = some s')
    (hruns : s.runs h a i (.cancel call pc) cmd) (hran : s.Ran i cmd s' s₁ b) :
    Waits.Step (Server.waits tr s) (Server.waits (tr ++ [(s, a)]) s') ∨
      Server.waits (tr ++ [(s, a)]) s' = Server.waits tr s := by
  have hi := hruns.1
  obtain ⟨inp, rfl, hcmd⟩ := hruns.next hran rfl
  cases hrelease : pc.release with
  | some r =>
      -- its release goes on
      left
      cases pc with
      | releasing c task rpc =>
          have hx := hw.won i call _ c.task hi rfl
          obtain ⟨_, _, hk, _, _, hans⟩ := hw.thread _ hx
          cases hi.symm.trans hk
          exact release_waits (.releasing c task) hcmd (fun _ => rfl)
            (by simp [CancelPc.release]) (hans task rfl).1 hx (fun _ => rfl) rfl hw hw' hs hruns
            hran
      | dropping x r rpc =>
          have hx := hw.won i call _ x hi rfl
          cases r <;> exact release_waits (.dropping x _) hcmd (fun _ => rfl)
            (by simp [CancelPc.release]) rfl hx (fun _ => rfl) rfl hw hw' hs hruns hran
      | _ => contradiction
  | none =>
      left
      have hpost : cmd.Post s fun _ t' _ => ∃ pc', t' = .cancel call pc' ∧
          CancelCall.Goes s call inp pc pc' := by
        rw [hcmd]
        exact CancelCall.next_goes call pc inp
      obtain ⟨pc', ht', hgoes⟩ := hran.post hpost
      have hkeeps : cmd.op.keepsWaiting = true := by
        rw [hcmd]
        exact CancelCall.next_keepsWaiting call pc inp hrelease
      obtain ⟨hq, hch⟩ := Op.run_keepsWaiting hran.run hkeeps
      -- it has released nothing before or after
      have hun : (∀ x, (i, x) ∈ winners tr → pc'.released x = pc.released x) ∧
          ∀ task ws, pc'.release ≠ some (task, .handing ws) := by
        cases hgoes with
        | idle hnone hnone' hlive =>
            refine ⟨fun x hx => ?_, by simp [CancelPc.release_of_guard hnone']⟩
            obtain ⟨_, _, hk, _, hpc | ⟨r, hpc⟩, _⟩ := hw.thread _ hx
            · cases hi.symm.trans hk
              rw [hnone] at hpc
              contradiction
            · cases hi.symm.trans hk
              exact absurd hpc (hlive r)
        | wins => exact ⟨fun _ _ => rfl, by simp [CancelPc.release]⟩
        | on hpc hpc' hun =>
            have hun' := hun hrelease
            refine ⟨fun x _ => ?_, CancelPc.release_of_unreleased hun'⟩
            rw [CancelPc.released_of_unreleased hun', CancelPc.released_of_guard hpc hrelease]
        | out => contradiction
      have hclosed := closedWith_same hw hw' hs hruns hran fun x hx => by
        rw [ht']
        exact hun.1 x hx
      rw [waits_after hruns hran ht', hq, hch, hclosed,
        s.view_same none (·.waiter) (.cancel call pc') hi rfl,
        s.view_same false (·.hoping) (.cancel call pc') hi rfl,
        s.view_same none (·.got) (.cancel call pc') hi rfl]
      have hold : (s.waits tr).release i = none := (Server.view_of_getElem hi).trans hrelease
      exact .move (v := s.waits tr) (by simp [hold]) hun.2

/-- A send starts an execution, or leaves the waiting subscriptions alone. -/
theorem send_waits {call : SendCall} {pc : SendPc} (hw : Winners tr s)
    (hw' : Winners (tr ++ [(s, a)]) s') (hs : Server.step h s a = some s')
    (hruns : s.runs h a i (.send call pc) cmd) (hran : s.Ran i cmd s' s₁ b) :
    Waits.Step (Server.waits tr s) (Server.waits (tr ++ [(s, a)]) s') ∨
      Server.waits (tr ++ [(s, a)]) s' = Server.waits tr s := by
  have hclosed := hw.closedWith_same hw' hs hruns hran (by simp)
  have hcont := hran.post hruns.continues
  -- a send, or the drop of one, has nothing to do with waiting
  have hnone : (cmd.resume b).1.waiter = none ∧ (cmd.resume b).1.hoping = false ∧
      (cmd.resume b).1.got = none ∧ (cmd.resume b).1.release = none := by
    cases ht' : (cmd.resume b).1 with
    | send => exact ⟨rfl, rfl, rfl, rfl⟩
    | dropped => exact ⟨rfl, rfl, rfl, rfl⟩
    | _ =>
        rw [ht'] at hcont
        exact hcont.elim
  obtain ⟨hwaiter, hhoping, hgot, hrelease⟩ := hnone
  have hsame : s₁.manager.waiting = s.manager.waiting → s₁.oneshots = s.oneshots →
      Server.waits (tr ++ [(s, a)]) s' = Server.waits tr s := fun hq hch =>
    waits_same hruns hran rfl hq hch hwaiter hhoping hgot hrelease hclosed
  by_cases hstart : ∃ prepared inp, pc = .start prepared ∧ a = .step i inp
  · obtain ⟨prepared, inp, rfl, rfl⟩ := hstart
    obtain ⟨inp', hinp, rfl⟩ := hruns.next hran rfl
    have hq := hran.effects.waiting
    have hch := hran.effects.oneshots
    simp only [Thread.next, SendCall.next, Op.andThen, Op.waitingAfter, Op.oneshotsAfter] at hq hch
    by_cases hx : (s.manager.executions prepared.task.id).isSome
    · rw [if_pos hx] at hq hch
      exact .inr (hsame hq hch)
    · rw [if_neg hx] at hq hch
      left
      rw [waits_after hruns hran rfl, hq, hch, hclosed, s.view_same none (·.waiter) _ hruns.1 hwaiter,
        s.view_same false (·.hoping) _ hruns.1 hhoping, s.view_same none (·.got) _ hruns.1 hgot,
        s.view_same none (·.release) _ hruns.1 hrelease]
      exact .start (v := s.waits tr) (by simp)
  · have hkeeps : cmd.op.keepsWaiting = true := by
      obtain ⟨inp, ha, rfl⟩ | ⟨_, rfl⟩ := hruns.2
      · exact SendCall.next_keepsWaiting call pc inp fun p hp => hstart ⟨p, inp, hp, ha⟩
      · cases pc <;> rfl
    obtain ⟨hq, hch⟩ := Op.run_keepsWaiting hran.run hkeeps
    exact .inr (hsame hq hch)

/-- A driver leaves the waiting subscriptions alone. -/
theorem drive_waits {d : Driver} (hw : Winners tr s) (hw' : Winners (tr ++ [(s, a)]) s')
    (hs : Server.step h s a = some s') (hruns : s.runs h a i (.drive d) cmd)
    (hran : s.Ran i cmd s' s₁ b) :
    Server.waits (tr ++ [(s, a)]) s' = Server.waits tr s := by
  have hclosed := hw.closedWith_same hw' hs hruns hran (by simp)
  obtain ⟨inp, rfl, hcmd⟩ := hruns.next hran rfl
  have hkeeps : cmd.op.keepsWaiting = true := by
    rw [hcmd]
    exact d.next_keepsWaiting inp
  obtain ⟨hq, hch⟩ := Op.run_keepsWaiting hran.run hkeeps
  have hcont := hran.post hruns.continues
  cases ht' : (cmd.resume b).1 with
  | drive => exact waits_same hruns hran ht' hq hch rfl rfl rfl rfl hclosed
  | dropped => exact waits_same hruns hran ht' hq hch rfl rfl rfl rfl hclosed
  | _ =>
      rw [ht'] at hcont
      exact hcont.elim

/-- The consumer of a subscription drops it. -/
theorem drop_waits {call : SubscribeCall} {pc : SubscribePc} (hw : Winners tr s)
    (hw' : Winners (tr ++ [(s, .drop i)]) s') (hs : Server.step h s (.drop i) = some s')
    (hruns : s.runs h (.drop i) i (.subscribe call pc) cmd) (hran : s.Ran i cmd s' s₁ b)
    (hcmd : cmd = (Thread.subscribe call pc).drop) :
    Waits.Step (Server.waits tr s) (Server.waits (tr ++ [(s, .drop i)]) s') := by
  have hclosed := hw.closedWith_same hw' hs hruns hran (by simp)
  have hi := hruns.1
  -- it leaves its waiter, or forgets what it got
  have hleave : ∀ w, pc.waiter = some w → pc.got = none →
      (∀ s₁ b, cmd.op.run s = some (s₁, b) → (cmd.resume b).1 = .dropped ∧
        s₁.manager.waiting = Function.update s.manager.waiting call.req.id
          ((s.manager.waiting call.req.id).filter fun u =>
            !(s.oneshots.set w .closed)[u]?.any (·.isClosed)) ∧
        s₁.oneshots = s.oneshots.set w .closed) →
      Waits.Step (Server.waits tr s) (Server.waits (tr ++ [(s, .drop i)]) s') := by
    intro w hwaiter hgot hpost
    obtain ⟨ht', hq, hch⟩ := hpost s₁ b hran.run
    have hold : (s.waits tr).waiter i = some (call.req.id, w) :=
      (Server.view_of_getElem hi).trans (by simp [Thread.waiter, hwaiter])
    rw [waits_after hruns hran ht', hq, hch, hclosed,
      s.view_same none (·.got) .dropped hi (by simp [Thread.got, hgot]),
      s.view_same none (·.release) .dropped hi rfl]
    exact .leave (v := s.waits tr) hold
  subst hcmd
  cases pc with
  | opening w task =>
      exact hleave w rfl rfl fun s₁ b hrun => by
        cases hrun
        exact ⟨rfl, rfl, rfl⟩
  | waiting w task =>
      exact hleave w rfl rfl fun s₁ b hrun => by
        cases hrun
        exact ⟨rfl, rfl, rfl⟩
  | streaming opened sub =>
      obtain ⟨ht', _⟩ := hran.post (Thread.drop_dropped _)
      obtain ⟨hq, hch⟩ := Op.run_keepsWaiting hran.run rfl
      rw [waits_after hruns hran ht', hq, hch, hclosed,
        s.view_same none (·.waiter) .dropped hi rfl, s.view_same false (·.hoping) .dropped hi rfl,
        s.view_same none (·.release) .dropped hi rfl]
      exact .forget (v := s.waits tr)
  | _ => exact absurd hran.run (by simp [Thread.drop, Op.run])

/-- **The waiting subscriptions of the server** take one of their steps, or
none, in every step of the server. -/
theorem waits_step (hw : Winners tr s) (hw' : Winners (tr ++ [(s, a)]) s')
    (hs : Server.step h s a = some s') :
    Waits.Step (Server.waits tr s) (Server.waits (tr ++ [(s, a)]) s') ∨
      Server.waits (tr ++ [(s, a)]) s' = Server.waits tr s := by
  obtain ⟨request, rfl, rfl⟩ | ⟨i, t, cmd, s₁, b, hruns, hran⟩ := step_cases hs
  · right
    have hview : ∀ {γ : Type} (d : γ) (f : Thread → γ), (∀ request : Request, f request.thread = d) →
        ({ s with threads := s.threads ++ [request.thread] } : Server).view d f = s.view d f :=
      fun d f hf => Server.view_call (hf request)
    have hclosed := funext fun id => closedWith_step hw hw' hs id fun p _ _ => by
      rw [hview none (·.released p.2) (by rintro (_ | _ | _) <;> rfl)]
    simp only [Server.waits]
    rw [hclosed, hview none (·.waiter) (by rintro (_ | _ | _) <;> rfl),
      hview false (·.hoping) (by rintro (_ | _ | _) <;> rfl),
      hview none (·.got) (by rintro (_ | _ | _) <;> rfl),
      hview none (·.release) (by rintro (_ | _ | _) <;> rfl)]
  · cases t with
    | send call pc => exact send_waits hw hw' hs hruns hran
    | drive d => exact .inr (drive_waits hw hw' hs hruns hran)
    | cancel call pc => exact cancel_waits hw hw' hs hruns hran
    | subscribe call pc =>
        obtain ⟨inp, rfl, rfl⟩ | ⟨rfl, rfl⟩ := hruns.2
        · obtain ⟨pc', ht', hgoes⟩ := hran.post (call.next_goes pc)
          exact hgoes.waits hw hw' hs hruns hran ht'
        · exact .inl (drop_waits hw hw' hs hruns hran rfl)
    | dropped =>
        obtain ⟨inp, rfl, rfl⟩ := hruns.next hran rfl
        exact absurd hran.run (by simp [Thread.next, Op.run])

end step

/-! ## the end of a cancel -/

theorem waits_start (taskStore : InMemoryTaskStore)
    (pushConfigStore : Option InMemoryPushConfigStore) (pushSender : Bool) :
    Server.waits [] (.new taskStore pushConfigStore pushSender) = .nothing := by
  have hview : ∀ {γ : Type} (d : γ) (f : Thread → γ),
      (Server.new taskStore pushConfigStore pushSender).view d f = fun _ => d := fun _ _ => rfl
  simp only [Server.waits, hview]
  rfl

/-- What every run that keeps canceled tasks so leaves. -/
theorem waits_ok (hr : (serverMachine h).Run (.new taskStore pushConfigStore pushSender) tr s)
    (hg : Machine.GuardedBy (KeepsCanceled h) tr) :
    Winners tr s ∧ (Server.waits tr s).Ok ∧ (Server.waits tr s).Final := by
  refine hr.guardedBy (I := fun tr s =>
    Winners tr s ∧ (Server.waits tr s).Ok ∧ (Server.waits tr s).Final) ?_ ?_ hg
  · rw [waits_start]
    exact ⟨.start .., .nothing, .nothing⟩
  · rintro tr s a s' ⟨hw, hok, hfinal⟩ hc hs
    have hw' := hw.step hc hs
    obtain hstep | hsame := waits_step hw hw' hs
    · exact ⟨hw', hok.step hstep, hfinal.step hok hstep⟩
    · rw [hsame]
      exact ⟨hw', hok, hfinal⟩

/-- The task a cancel hands out last: the one it answers with, or the one it
made CANCELED if it failed. -/
def finalTask (x : Task) : Except A2AError Task → Task
  | .ok task => task
  | .error _ => x

/-- The `j`-th thread is a subscription to the task. -/
def Server.Subscribed (s : Server) (j : Nat) (id : TaskId) (pc : SubscribePc) : Prop :=
  ∃ call, s.threads[j]? = some (.subscribe call pc) ∧ call.req.id = id

/-- No subscription to the task waits for an execution any more. -/
structure Server.EndsWaiting (s : Server) (id : TaskId) (final : Task) : Prop where
  canceled : final.id = id ∧ final.status.state = .canceled
  stored : ∀ y, s.taskStore.get id = some y → y.status.state = .canceled
  /-- what is still queued has not read the task live: it is refused -/
  queued : ∀ w ∈ s.manager.waiting id, ∃ j pc, s.Subscribed j id pc ∧ pc.waiter = some w ∧
    pc.hoping = false
  /-- what has read it live has been handed an execution, or the task -/
  waiting : ∀ j pc w, s.Subscribed j id pc → pc.waiter = some w → pc.hoping = true →
    ∃ value, s.oneshots[w]? = some (.full value) ∧
      (value.receiver = none → value.snapshotTask = final)
  /-- and what took it shows that task -/
  resolved : ∀ j pc o, s.Subscribed j id pc → pc.got = some o → o = some final

/-- A waiter is a subscription's. -/
theorem subscribed_of_waiter {id : TaskId} (hj : s.view none (·.waiter) j = some (id, w)) :
    ∃ pc, s.Subscribed j id pc ∧ pc.waiter = some w := by
  cases ht : s.threads[j]? with
  | none => simp [Server.view, ht] at hj
  | some t =>
      rw [Server.view_of_getElem ht] at hj
      cases t with
      | subscribe call pc =>
          obtain ⟨w', hw', he⟩ := Option.map_eq_some_iff.mp hj
          obtain ⟨rfl, rfl⟩ := Prod.mk.inj he
          exact ⟨pc, ⟨call, ht, rfl⟩, hw'⟩
      | _ => contradiction

/-- A release is that of a cancel that won the task it hands out. -/
theorem Winners.of_release (hw : Winners tr s)
    (hk : s.view none (·.release) k = some (task, rpc)) :
    ∃ y, (k, y) ∈ winners tr ∧ y.id = task.id := by
  cases ht : s.threads[k]? with
  | none => simp [Server.view, ht] at hk
  | some t =>
      rw [Server.view_of_getElem ht] at hk
      cases t with
      | cancel call pc =>
          cases pc with
          | releasing c task' rpc' =>
              obtain ⟨rfl, rfl⟩ := Prod.mk.inj (Option.some.inj hk)
              have hx := hw.won k call _ c.task ht rfl
              obtain ⟨_, _, hk', _, _, hans⟩ := hw.thread _ hx
              cases ht.symm.trans hk'
              exact ⟨c.task, hx, (hans _ rfl).1.symm⟩
          | dropping task' r rpc' =>
              obtain ⟨rfl, rfl⟩ := Prod.mk.inj (Option.some.inj hk)
              exact ⟨_, hw.won k call _ _ ht rfl, rfl⟩
          | _ => contradiction
      | _ => contradiction

/-- **No subscription is left waiting on a canceled task**: in every run that
stores no canceled task again in another state, when a cancel that made its
task CANCELED has ended, whatever its result, every subscription that waits
for the task has been handed an execution or the canceled task, and what is
still queued is about to be refused. -/
theorem cancel_ends_waiting (h : Handler)
    (hr : (serverMachine h).Run (.new taskStore pushConfigStore pushSender) tr s)
    (hg : Machine.GuardedBy (KeepsCanceled h) tr) (hwin : (i, x) ∈ winners tr)
    (hend : s.threads[i]? = some (.cancel call (.returned result))) :
    s.EndsWaiting x.id (finalTask x result) := by
  obtain ⟨hw, hok, hfinal⟩ := waits_ok hr hg
  obtain ⟨_, pc, hi, hid, hpc, hans⟩ := hw.thread _ hwin
  cases hend.symm.trans hi
  have hclosed : closedWith tr s x.id = some (finalTask x result) := by
    rw [closedWith_of_mem hw hwin, Server.view_of_getElem hend]
    cases result <;> rfl
  have hne : (s.waits tr).closed x.id ≠ none := by simp [Server.waits, hclosed]
  refine ⟨?_, (hw.canceled _ hwin).2, fun w hq => ?_, ?_, ?_⟩
  · cases result with
    | ok task => exact hans task rfl
    | error error => exact ⟨rfl, (hw.canceled _ hwin).1⟩
  · obtain ⟨j, hj⟩ := hok.owner x.id w hq
    obtain ⟨pc, ⟨call', hj', hid'⟩, hpc⟩ := subscribed_of_waiter hj
    have hhope := hfinal.queued j x.id w hj hq hne
    exact ⟨j, pc, ⟨call', hj', hid'⟩, hpc, (Server.view_of_getElem hj').symm.trans hhope⟩
  · rintro j pc w ⟨call', hj, hid'⟩ hpc hhope
    have hwaiter : (s.waits tr).waiter j = some (x.id, w) :=
      (Server.view_of_getElem hj).trans (by simp [Thread.waiter, hpc, hid'])
    have hhope' : (s.waits tr).hoping j = true := (Server.view_of_getElem hj).trans hhope
    obtain ⟨o, ho, hopen⟩ := hok.unclosed j x.id w hwaiter
    cases o with
    | full value =>
        refine ⟨value, ho, fun hnone => ?_⟩
        have hval := hfinal.hoped j x.id w value hwaiter ho hnone hhope'
        exact Option.some.inj (hval.symm.trans hclosed)
    | empty =>
        obtain hq | ⟨k, task, ws, hk, hkid, _⟩ := hok.reached j x.id w hwaiter ho
        · have hfalse := hfinal.queued j x.id w hwaiter hq hne
          rw [hhope'] at hfalse
          contradiction
        · -- the release is that of this cancel, which has ended
          obtain ⟨y, hy, hyid⟩ := hw.of_release hk
          obtain ⟨rfl, rfl⟩ := Prod.mk.inj (hw.unique _ hy _ hwin (hyid.trans hkid))
          have hrel : (s.waits tr).release k = none := Server.view_of_getElem hend
          rw [hrel] at hk
          contradiction
    | closed => contradiction
  · rintro j pc o ⟨call', hj, hid'⟩ hgot
    have hgot' : (s.waits tr).got j = some (x.id, o) :=
      (Server.view_of_getElem hj).trans (by simp [Thread.got, hgot, hid'])
    have hcl := (hfinal.got j x.id o hgot').2
    exact hcl.symm.trans hclosed

/-- A cancel ends a subscription that waits. -/
theorem cancel_ends_waiting_handed :
    ∃ tr s x result, (serverMachine .new).Run awaitingInput tr s ∧ (1, x) ∈ winners tr ∧
      s.EndsWaiting x.id (finalTask x result) ∧
      ∃ opened, s.Subscribed 0 x.id (.waiting 0 opened) := by
  have hx : ∃ tr s x call result opened, (serverMachine .new).exec awaitingInput
      ([.call (.subscribe (.of "t")), .call (.cancel (.of "t"))] ++
        List.replicate 5 (.step 0 (.emitting [])) ++ List.replicate 12 (.step 1 (.emitting []))) =
        some (tr, s) ∧ (winners tr)[0]? = some (1, x) ∧
      s.threads[1]? = some (.cancel call (.returned result)) ∧
      s.Subscribed 0 x.id (.waiting 0 opened) :=
    ⟨_, _, _, _, _, _, rfl, rfl, rfl, _, rfl, rfl⟩
  obtain ⟨tr, s, x, call, result, opened, hexec, hwin, hend, hsub⟩ := hx
  have hrun := Machine.run_of_exec hexec
  have hg := keepsCanceled_of_unlimited hrun rfl
  have hmem := List.mem_of_getElem? hwin
  exact ⟨tr, s, x, result, hrun, hmem, cancel_ends_waiting .new hrun hg hmem hend, opened, hsub⟩

/-- Two cancels of one task; the one that lost returns first. -/
def losingCancel : List Action :=
  [.call (.subscribe (.of "t")), .call (.cancel (.of "t")), .call (.cancel (.of "t"))] ++
    List.replicate 5 (.step 0 (.emitting [])) ++
    [.step 1 (.emitting []), .step 2 (.emitting []), .step 1 (.emitting []),
      .step 2 (.emitting []), .step 2 (.emitting [])]

/-- A cancel that lost the race leaves subscriptions waiting on the canceled
task. -/
theorem losingCancel_leaves_waiting :
    ∃ tr s, (serverMachine .new).exec awaitingInput losingCancel = some (tr, s) ∧
      (serverMachine .new).Run awaitingInput tr s ∧
      (∃ y, s.taskStore.get "t" = some y ∧ y.isTerminal = true) ∧
      ¬ ∀ (i : Nat) (call : CancelCall) result,
        s.threads[i]? = some (.cancel call (.returned result)) → ∀ j w opened,
        s.Subscribed j call.req.id (.waiting w opened) → w ∉ s.manager.waiting call.req.id := by
  refine ⟨_, _, rfl, Machine.run_of_exec (show Machine.exec _ _ losingCancel = some _ from rfl),
    ⟨_, rfl, rfl⟩, fun hnone => ?_⟩
  exact hnone 2 _ _ rfl 0 0 _ ⟨_, rfl, rfl⟩ (List.mem_singleton.mpr rfl)

end A2a
