import A2a.Server.Delivery

/-!
# A2a.Server.Observers

What the observers of a task are told.

The stream of a send or a subscription, and a webhook, observe one task.  What
goes there goes by the threads that work for the task, its executions, and the
waiters handed to it (`Server.Observed`).  So a stream is told the events that
executors called for its task emitted, errors, and tasks under its id or one
such an executor named (`stream_told`).
-/

namespace A2a

/-! ## what is told of a task -/

section Heard

variable (E : TaskId → StreamResponse → Prop) (T : ExecId → Option TaskId) (W : List TaskId)

/-- An event that was emitted for the task, its status stamped. -/
def Relayed (own : TaskId) (event : StreamResponse) : Prop :=
  ∃ emitted now, E own emitted ∧ event = backfillStatusTimestamp now emitted

/-- What is published for the task. -/
def Relays (own : TaskId) : Item → Prop
  | .error _ => True
  | .ok event => Relayed E own event

/-- What a stream of the task may yield: what is published, and snapshots. -/
def Heard (own : TaskId) (item : Item) : Prop :=
  Relays E own item ∨ ∃ task, item = .ok (.task task) ∧ Named E own task.id

/-- A stream of the task: what it yielded, and where it receives. -/
structure Subscription.Of (own : TaskId) (sub : Subscription) : Prop where
  yielded : ∀ item ∈ sub.yielded, Heard E own item
  snapshot : ∀ task, sub.snapshotTask = some task → Named E own task.id
  receiver : ∀ r, sub.receiver = some r → T r.exec = some own

structure Resubscription.Of (own : TaskId) (value : Resubscription) : Prop where
  snapshot : Named E own value.snapshotTask.id
  receiver : ∀ r, value.receiver = some r → T r.exec = some own

/-- The stream of a send is of the task of the execution it follows. -/
def Subscription.Attached (sub : Subscription) : Prop :=
  ∃ r own, sub.receiver = some r ∧ T r.exec = some own ∧ sub.Of E T own

def DrivePc.Observed (own : TaskId) : DrivePc → Prop
  | .saving event _ _ => Relayed E own event
  | .pushing event _ => Relayed E own event
  | .publishing event _ => Relayed E own event
  | _ => True

/-- The waiters a release has yet to hand to are of the task. -/
def ReleasePc.Observed (own : TaskId) : ReleasePc → Prop
  | .take => True
  | .handing remaining => ∀ w ∈ remaining, W[w]? = some own

def CancelPc.Observed (own : TaskId) : CancelPc → Prop
  | .getActive task => task.id = own
  | .polling c => c.task.id = own
  | .saving c event _ _ => c.task.id = own ∧ Relayed E own event
  | .pushing c event _ => c.task.id = own ∧ Relayed E own event
  | .publishing c event _ => c.task.id = own ∧ Relayed E own event
  | .failPublishing c _ _ => c.task.id = own
  | .failLoad c _ => c.task.id = own
  | .failPushing c _ task _ => c.task.id = own ∧ task.id = own
  | .finishing c => c.task.id = own
  | .finalLoad c => c.task.id = own
  | .finalPushing c task _ => c.task.id = own ∧ task.id = own
  | .releasing c task pc => c.task.id = own ∧ task.id = own ∧ pc.Observed W own
  | .dropping task _ pc => task.id = own ∧ pc.Observed W own
  | _ => True

def SendPc.Observed : SendPc → Prop
  | .following _ sub _ => sub.Attached E T
  | .streaming sub => sub.Attached E T
  | .ended sub => sub.Attached E T
  | _ => True

def SubscribePc.Observed (own : TaskId) : SubscribePc → Prop
  | .readState receiver => T receiver.exec = some own
  | .attached w => W[w]? = some own
  | .load w => W[w]? = some own
  | .loaded w task => W[w]? = some own ∧ task.id = own
  | .opening w task => W[w]? = some own ∧ task.id = own
  | .waiting w opened => W[w]? = some own ∧ opened.id = own
  | .streaming opened sub => (∀ task, opened = some task → task.id = own) ∧ sub.Of E T own
  | .ended opened sub => (∀ task, opened = some task → task.id = own) ∧ sub.Of E T own
  | _ => True

/-- What a thread tells, or is told, is of its task. -/
def Thread.Observed : Thread → Prop
  | .send _ pc => pc.Observed E T
  | .drive d => d.pc.Observed E d.taskId
  | .cancel call pc => pc.Observed E W call.req.id
  | .subscribe call pc => pc.Observed E T W call.req.id
  | .dropped => True

/-- What an operation tells the observers of a task. -/
def Op.Observed {β : Type} : Op β → Prop
  | .broadcast x event => ∀ own, T x = some own → Relays E own event.result
  | .hand w value => ∀ own, W[w]? = some own → value.Of E T own
  | _ => True

/-- What an operation's answer tells of a task. -/
def Op.Reports {β : Type} : Op β → β → Prop
  | .get id, answer => ∀ task, answer = some task → task.id = id
  | .beginCancel id _, answer => ∀ task, answer = .ok task → task.id = id
  | .subscribe id, .inl receiver => T receiver.exec = some id
  | .subscribe id, .inr w => W[w]? = some id
  | .takeWaiting id, waiters => ∀ w ∈ waiters, W[w]? = some id
  | .attached w, answer => ∀ value own, answer = some value → W[w]? = some own → value.Of E T own
  | .await w, value => ∀ own, W[w]? = some own → value.Of E T own
  | .listen x, receiver => receiver.exec = x
  | .readState x, answer => ∀ own, T x = some own → Named E own answer.1.id
  | .recv receiver, answer =>
      ∀ event own, answer = .event event → T receiver.exec = some own → Relays E own event.result
  | _, _ => True

def Cmd.Observed (cmd : Cmd) : Prop := cmd.op.Observed E T W

def Cmd.StaysObserved (cmd : Cmd) : Prop := cmd.Ends (Op.Reports E T W) (Thread.Observed E T W)

end Heard

/-- What the threads share: what was published, the queues, and what waiters
were handed. -/
structure Server.Observed (E : TaskId → StreamResponse → Prop) (W : List TaskId) (s : Server) :
    Prop where
  sent : ∀ active ∈ s.executions, ∀ event ∈ active.sent, Relays E active.taskId event.result
  queued : ∀ id, ∀ w ∈ s.manager.waiting id, W[w]? = some id
  handed : ∀ (w : WaiterId) (value : Resubscription) (own : TaskId),
    s.oneshots[w]? = some (.full value) → W[w]? = some own → value.Of E s.taskOf own
  length : W.length = s.oneshots.length

/-! ## what stays told -/

variable {E E' : TaskId → StreamResponse → Prop} {T T' : ExecId → Option TaskId}
  {W W' : List TaskId} {h : Handler} {s s' s₁ : Server} {own : TaskId} {a : Action} {i : Nat}
  {t : Thread} {tr : List (Server × Action)} {taskStore : InMemoryTaskStore}
  {pushConfigStore : Option InMemoryPushConfigStore} {pushSender : Bool}

section Mono

variable (hE : ∀ own event, E own event → E' own event)

include hE

/-- An event that was relayed stays so as more is emitted, and so does all that follows here. -/
theorem Relayed.mono {event : StreamResponse} (hr : Relayed E own event) : Relayed E' own event := by
  obtain ⟨emitted, now, hemitted, hevent⟩ := hr
  exact ⟨emitted, now, hE own emitted hemitted, hevent⟩

theorem Relays.mono {item : Item} (hr : Relays E own item) : Relays E' own item := by
  cases item with
  | error error => trivial
  | ok event => exact Relayed.mono hE hr

theorem Heard.mono {item : Item} (ht : Heard E own item) : Heard E' own item := by
  obtain hrelays | ⟨task, hitem, hnamed⟩ := ht
  · exact .inl (hrelays.mono hE)
  · exact .inr ⟨task, hitem, hnamed.mono hE⟩

theorem DrivePc.Observed.mono {pc : DrivePc} (hpc : pc.Observed E own) : pc.Observed E' own := by
  cases pc <;> first | trivial | exact Relayed.mono hE hpc

variable (hT : ∀ x own, T x = some own → T' x = some own)

include hT

theorem Subscription.Of.mono {sub : Subscription} (hs : sub.Of E T own) : sub.Of E' T' own where
  yielded item hitem := (hs.yielded item hitem).mono hE
  snapshot task htask := (hs.snapshot task htask).mono hE
  receiver r hr := hT r.exec own (hs.receiver r hr)

theorem Resubscription.Of.mono {value : Resubscription} (hv : value.Of E T own) :
    value.Of E' T' own := ⟨hv.snapshot.mono hE, fun r hr => hT r.exec own (hv.receiver r hr)⟩

theorem Subscription.Attached.mono {sub : Subscription} (hs : sub.Attached E T) :
    sub.Attached E' T' := by
  obtain ⟨r, own, hr, hx, hof⟩ := hs
  exact ⟨r, own, hr, hT r.exec own hx, hof.mono hE hT⟩

variable (hW : ∀ (w : WaiterId) own, W[w]? = some own → W'[w]? = some own)

include hW

omit hE hT in
theorem ReleasePc.Observed.mono {pc : ReleasePc} (hpc : pc.Observed W own) : pc.Observed W' own := by
  cases pc with
  | take => trivial
  | handing remaining => exact fun w hw => hW w own (hpc w hw)

omit hT in
theorem CancelPc.Observed.mono {pc : CancelPc} (hpc : pc.Observed E W own) :
    pc.Observed E' W' own := by
  cases pc with
  | saving c event task pc => exact ⟨hpc.1, hpc.2.mono hE⟩
  | pushing c event pc => exact ⟨hpc.1, hpc.2.mono hE⟩
  | publishing c event pc => exact ⟨hpc.1, hpc.2.mono hE⟩
  | releasing c task pc => exact ⟨hpc.1, hpc.2.1, hpc.2.2.mono hW⟩
  | dropping task result pc => exact ⟨hpc.1, hpc.2.mono hW⟩
  | _ => exact hpc

theorem SubscribePc.Observed.mono {pc : SubscribePc} (hpc : pc.Observed E T W own) :
    pc.Observed E' T' W' own := by
  cases pc with
  | readState receiver => exact hT _ _ hpc
  | attached w => exact hW _ _ hpc
  | load w => exact hW _ _ hpc
  | loaded w task => exact ⟨hW _ _ hpc.1, hpc.2⟩
  | opening w task => exact ⟨hW _ _ hpc.1, hpc.2⟩
  | waiting w opened => exact ⟨hW _ _ hpc.1, hpc.2⟩
  | streaming opened sub => exact ⟨hpc.1, hpc.2.mono hE hT⟩
  | ended opened sub => exact ⟨hpc.1, hpc.2.mono hE hT⟩
  | _ => trivial

/-- What was observed of a thread stays true. -/
theorem Thread.Observed.mono (ht : t.Observed E T W) : t.Observed E' T' W' := by
  cases t with
  | send call pc =>
      cases pc <;> first | trivial | exact Subscription.Attached.mono hE hT ht
  | drive d => exact DrivePc.Observed.mono hE ht
  | cancel call pc => exact CancelPc.Observed.mono hE hW ht
  | subscribe call pc => exact SubscribePc.Observed.mono hE hT hW ht
  | dropped => trivial

end Mono

/-! ## streams -/

/-- A stream that resumes has the snapshot of its own task. -/
theorem Subscription.of_ofResubscription {value : Resubscription} (hv : value.Of E T own) :
    (ofResubscription value).Of E T own where
  yielded _ hitem := absurd hitem List.not_mem_nil
  snapshot task htask := by
    obtain rfl := Option.some.inj htask
    exact hv.snapshot
  receiver := hv.receiver

/-- One that does not has yielded nothing. -/
theorem Subscription.of_ofReceiver {receiver : Receiver} (hx : T receiver.exec = some own) :
    (ofReceiver receiver).Of E T own where
  yielded _ hitem := absurd hitem List.not_mem_nil
  snapshot task htask := by contradiction
  receiver r hr := by
    obtain rfl := Option.some.inj hr
    exact hx

/-- A stream that yields one item more. -/
theorem Subscription.Of.yield {sub sub' : Subscription} {item : Item} (hs : sub.Of E T own)
    (hitem : Heard E own item) (hyielded : sub'.yielded = sub.yielded ++ [item])
    (hsnapshot : ∀ task, sub'.snapshotTask = some task → sub.snapshotTask = some task)
    (hreceiver : sub'.receiver.map (·.exec) = sub.receiver.map (·.exec)) : sub'.Of E T own where
  yielded item' hitem' := by
    rw [hyielded] at hitem'
    obtain hitem' | hitem' := List.mem_append.mp hitem'
    · exact hs.yielded item' hitem'
    · obtain rfl := List.mem_singleton.mp hitem'
      exact hitem
  snapshot task htask := hs.snapshot task (hsnapshot task htask)
  receiver r hr := by
    rw [hr] at hreceiver
    obtain ⟨r', hr', hexec⟩ := Option.map_eq_some_iff.mp hreceiver.symm
    have hsame : r'.exec = r.exec := hexec
    rw [← hsame]
    exact hs.receiver r' hr'

/-- An event of the task's channel is one of the task. -/
theorem Subscription.Of.receive {sub : Subscription} {receiver : Receiver} {event : ExecutionEvent}
    (hs : sub.Of E T own) (hreceiver : sub.receiver = some receiver)
    (hevent : Relays E own event.result) :
    (sub.receive { receiver with next := receiver.next + 1 } event).Of E T own := by
  unfold Subscription.receive
  split
  · refine ⟨hs.yielded, hs.snapshot, fun r hr => ?_⟩
    obtain rfl := Option.some.inj hr
    exact hs.receiver receiver hreceiver
  · refine hs.yield (.inl hevent) rfl (fun _ h => h) ?_
    rw [hreceiver]
    rfl

/-- **A poll tells a stream** what is of its task. -/
theorem pollCmd_observed {sub : Subscription} (hs : sub.Of E T own) {R : Thread → Prop}
    {k : Subscription → Option (Option Item) → Thread}
    (hk : ∀ sub' o, sub'.Of E T own → sub'.receiver.map (·.exec) = sub.receiver.map (·.exec) →
      R (k sub' o)) : (pollCmd sub k).Ends (Op.Reports E T W) R := by
  simp only [pollCmd]
  split
  · exact Cmd.ends_andThen fun _ _ => hk _ _ hs rfl
  · split
    · next task htask =>
        refine Cmd.ends_andThen fun _ _ => hk _ _ (hs.yield ?_ rfl (fun _ h => ?_) rfl) rfl
        · exact .inr ⟨task, rfl, hs.snapshot task htask⟩
        · contradiction
    · exact Cmd.ends_andThen fun _ _ => hk _ _ hs rfl
    · next receiver _ hreceiver =>
        refine Cmd.ends_andThen fun answer hanswer => ?_
        cases answer with
        | closed => exact hk _ _ hs rfl
        | lagged =>
            have hlag : Heard E own (.error Subscription.lagError) := .inl True.intro
            exact hk _ _ (hs.yield hlag rfl (fun _ h => h) rfl) rfl
        | event event =>
            have hrelays := hanswer event own rfl (hs.receiver receiver hreceiver)
            refine hk _ _ (hs.receive hreceiver hrelays) ?_
            rw [hreceiver]
            unfold Subscription.receive
            split <;> rfl

/-! ## what an operation tells -/

/-- The tasks of the waiters after an operation. -/
def Op.waitersAfter (s : Server) (W : List TaskId) {β : Type} : Op β → List TaskId
  | .subscribe id => if (s.manager.executions id).isSome then W else W ++ [id]
  | _ => W

/-- A waiter keeps the task it waits for. -/
theorem Op.waitersAfter_mono {β : Type} (op : Op β) (w : WaiterId) (own : TaskId)
    (hw : W[w]? = some own) : (op.waitersAfter s W)[w]? = some own := by
  cases op with
  | subscribe id =>
      simp only [waitersAfter]
      split
      · exact hw
      · rw [List.getElem?_append_left (List.getElem?_eq_some_iff.mp hw).1]
        exact hw
  | _ => exact hw

/-- A waiter that is handed something is one it is sent to, or had it. -/
theorem full_of_handAll_mem {value handed : Resubscription} {ws : List WaiterId} {w : WaiterId}
    {channels : List Oneshot}
    (hfull : (ws.foldl (fun o w => o.modify w (Oneshot.send handed)) channels)[w]? =
      some (.full value)) :
    (value = handed ∧ w ∈ ws) ∨ channels[w]? = some (.full value) := by
  induction ws generalizing channels with
  | nil => exact .inr hfull
  | cons u us ih =>
      obtain ⟨heq, hmem⟩ | hbefore := ih hfull
      · exact .inl ⟨heq, List.mem_cons_of_mem u hmem⟩
      · obtain ⟨rfl, _, rfl⟩ | hbefore := (Waits.modify_send_full _ _ _ _ _).mp hbefore
        · exact .inl ⟨rfl, List.mem_cons_self⟩
        · exact .inr hbefore

/-- **An answer tells** what is of the task asked about. -/
theorem Op.run_reports {β : Type} {op : Op β} {b : β} (hc : s.Confined E) (hs : s.Observed E W)
    (hr : op.run s = some (s₁, b)) : op.Reports E s₁.taskOf (op.waitersAfter s W) b := by
  have htells := Op.run_tells hc hr
  have hkeeps : ∀ x own, s.taskOf x = some own → s₁.taskOf x = some own :=
    fun x own => (Op.effects hr).taskOf
  have hvalue {w : WaiterId} {value : Resubscription} (hfull : s.oneshots[w]? = some (.full value))
      (own : TaskId) (hw : W[w]? = some own) : value.Of E s₁.taskOf own :=
    (hs.handed w value own hfull hw).mono (fun _ _ h => h) hkeeps
  cases op with
  | get id =>
      obtain ⟨_, rfl⟩ := Prod.mk.inj (Option.some.inj hr)
      exact fun task htask => InMemoryTaskStore.get_id htask
  | beginCancel id now => exact htells
  | readState x => exact htells
  | takeWaiting id =>
      obtain ⟨_, rfl⟩ := Prod.mk.inj (Option.some.inj hr)
      exact hs.queued id
  | listen x =>
      obtain ⟨active, _, heq⟩ := Option.map_eq_some_iff.mp hr
      obtain ⟨_, rfl⟩ := Prod.mk.inj heq
      rfl
  | subscribe id =>
      simp only [run, ExecutionManager.get] at hr
      cases hx : s.manager.executions id with
      | some x =>
          simp only [hx] at hr
          split at hr
          · cases hr
            exact hc.registered id x hx
          · contradiction
      | none =>
          simp only [hx, Option.some.injEq, Prod.mk.injEq] at hr
          obtain ⟨_, rfl⟩ := hr
          have hfree : ¬ (s.manager.executions id).isSome := by simp [hx]
          show (if _ then W else W ++ [id])[s.oneshots.length]? = some id
          rw [if_neg hfree, ← hs.length]
          exact List.getElem?_concat_length
  | attached w =>
      simp only [run] at hr
      split at hr
      · next value hfull =>
          cases hr
          intro value' own hsome hw
          obtain rfl := Option.some.inj hsome
          exact hvalue hfull own hw
      · cases hr
        intro value' own hsome
        contradiction
  | await w =>
      simp only [run] at hr
      split at hr
      · next value hfull =>
          cases hr
          exact hvalue hfull
      · contradiction
  | recv receiver =>
      intro event own hanswer hown
      subst hanswer
      simp only [run] at hr
      split at hr
      · contradiction
      · next active hactive =>
          split at hr
          · cases hr
          · split at hr
            · next event' hevent =>
                cases hr
                obtain ⟨active', hactive', rfl⟩ := taskOf_eq_some.mp hown
                obtain rfl := Option.some.inj (hactive.symm.trans hactive')
                exact hs.sent active (List.mem_of_getElem? hactive) event (List.mem_of_getElem? hevent)
            · split at hr <;> cases hr
  | _ => exact True.intro

/-- What was published, after an operation. -/
theorem Op.Effects.sent {β : Type} {op : Op β} (he : op.Effects s s₁)
    (hop : op.Observed E s.taskOf W) (hs : s.Observed E W) :
    ∀ active ∈ s₁.executions, ∀ event ∈ active.sent, Relays E active.taskId event.result := by
  intro active hactive event hevent
  rw [he.executions] at hactive
  cases op with
  | start task =>
      simp only [Op.executionsAfter] at hactive
      split at hactive
      · exact hs.sent active hactive event hevent
      · obtain hactive | hactive := List.mem_append.mp hactive
        · exact hs.sent active hactive event hevent
        · obtain rfl := List.mem_singleton.mp hactive
          contradiction
  | publish x snapshotTask =>
      obtain ⟨k, hk⟩ := List.mem_iff_getElem?.mp hactive
      simp only [Op.executionsAfter, List.getElem?_modify] at hk
      obtain ⟨old, hold, rfl⟩ := Option.map_eq_some_iff.mp hk
      have hbefore := hs.sent old (List.mem_of_getElem? hold) event
      split at hevent
      · rw [if_pos (by assumption)]
        exact hbefore hevent
      · rw [if_neg (by assumption)]
        exact hbefore hevent
  | broadcast x event' =>
      simp only [Op.executionsAfter] at hactive
      split at hactive
      · obtain ⟨k, hk⟩ := List.mem_iff_getElem?.mp hactive
        rw [List.getElem?_modify] at hk
        obtain ⟨old, hold, rfl⟩ := Option.map_eq_some_iff.mp hk
        have hbefore := hs.sent old (List.mem_of_getElem? hold) event
        by_cases hx : x = k
        · rw [if_pos hx] at hevent ⊢
          obtain hevent | hevent := List.mem_append.mp hevent
          · exact hbefore hevent
          · obtain rfl := List.mem_singleton.mp hevent
            exact hop old.taskId (taskOf_eq_some.mpr ⟨old, hx ▸ hold, rfl⟩)
        · rw [if_neg hx] at hevent ⊢
          exact hbefore hevent
      · exact hs.sent active hactive event hevent
  | _ => exact hs.sent active hactive event hevent

/-- The queues, after an operation. -/
theorem Op.Effects.queued {β : Type} {op : Op β} (he : op.Effects s s₁) (hs : s.Observed E W) :
    ∀ id, ∀ w ∈ s₁.manager.waiting id, (op.waitersAfter s W)[w]? = some id := by
  intro id w hw
  have hbefore (hw : w ∈ s.manager.waiting id) : (op.waitersAfter s W)[w]? = some id :=
    op.waitersAfter_mono w id (hs.queued id w hw)
  have hupdate {id' : TaskId} {ws : List WaiterId} (hws : ∀ u ∈ ws, u ∈ s.manager.waiting id')
      (hw : w ∈ Function.update s.manager.waiting id' ws id) :
      (op.waitersAfter s W)[w]? = some id := by
    by_cases hid : id = id'
    · subst hid
      rw [Function.update_self] at hw
      exact hbefore (hws w hw)
    · rw [Function.update_of_ne hid] at hw
      exact hbefore hw
  rw [he.waiting] at hw
  cases op with
  | start task =>
      simp only [Op.waitingAfter] at hw
      split at hw
      · exact hbefore hw
      · exact hupdate (fun _ h => absurd h List.not_mem_nil) hw
  | subscribe id' =>
      simp only [Op.waitingAfter] at hw
      split at hw
      · exact hbefore hw
      · next hfree =>
          by_cases hid : id = id'
          · subst hid
            rw [Function.update_self] at hw
            obtain hw | hw := List.mem_append.mp hw
            · exact hbefore hw
            · obtain rfl := List.mem_singleton.mp hw
              show (if _ then W else W ++ [id])[s.oneshots.length]? = some id
              rw [if_neg hfree, ← hs.length]
              exact List.getElem?_concat_length
          · rw [Function.update_of_ne hid] at hw
            exact hbefore hw
  | takeWaiting id' => exact hupdate (fun _ h => absurd h List.not_mem_nil) hw
  | dropWaiter id' u => exact hupdate (fun _ h => List.mem_of_mem_filter h) hw
  | _ => exact hbefore hw

/-- What waiters were handed, after an operation. -/
theorem Op.Effects.handed {β : Type} {op : Op β} (he : op.Effects s s₁)
    (hop : op.Observed E s.taskOf W) (hs : s.Observed E W) {w : WaiterId} {value : Resubscription}
    (hfull : s₁.oneshots[w]? = some (.full value)) (hw : (op.waitersAfter s W)[w]? = some own) :
    value.Of E s₁.taskOf own := by
  have hkeeps : ∀ x own, s.taskOf x = some own → s₁.taskOf x = some own := fun x own => he.taskOf
  have hof (hv : value.Of E s.taskOf own) : value.Of E s₁.taskOf own :=
    hv.mono (fun _ _ h => h) hkeeps
  have hbefore (hfull : s.oneshots[w]? = some (.full value)) (hw : W[w]? = some own) :
      value.Of E s₁.taskOf own := hof (hs.handed w value own hfull hw)
  rw [he.oneshots] at hfull
  cases op with
  | start task =>
      simp only [Op.oneshotsAfter] at hfull
      split at hfull
      · exact hbefore hfull hw
      · next hfree =>
          obtain ⟨rfl, hmem⟩ | hfull := full_of_handAll_mem hfull
          · have hid := hs.queued task.id w hmem
            obtain rfl := Option.some.inj (hid.symm.trans hw)
            refine ⟨named_self task.id, fun r hr => ?_⟩
            obtain rfl := Option.some.inj hr
            rw [taskOf_eq_some, he.executions]
            refine ⟨.new task, ?_, rfl⟩
            simp only [Op.executionsAfter, if_neg hfree]
            exact List.getElem?_concat_length
          · exact hbefore hfull hw
  | subscribe id =>
      simp only [Op.oneshotsAfter] at hfull
      simp only [Op.waitersAfter] at hw
      split at hfull
      · next hregistered =>
          rw [if_pos hregistered] at hw
          exact hbefore hfull hw
      · next hfree =>
          rw [if_neg hfree] at hw
          have hlt : w < s.oneshots.length := by
            by_contra hge
            rw [List.getElem?_append_right (Nat.le_of_not_lt hge)] at hfull
            obtain heq := List.mem_singleton.mp (List.mem_of_getElem? hfull)
            contradiction
          rw [List.getElem?_append_left hlt] at hfull
          rw [List.getElem?_append_left (hs.length ▸ hlt)] at hw
          exact hbefore hfull hw
  | hand u value' =>
      obtain ⟨rfl, _, rfl⟩ | hfull := (Waits.modify_send_full _ _ _ _ _).mp hfull
      · exact hof (hop own hw)
      · exact hbefore hfull hw
  | attached u =>
      simp only [Op.oneshotsAfter] at hfull
      split at hfull
      · exact hbefore (full_of_set_closed hfull) hw
      · exact hbefore hfull hw
  | await u => exact hbefore (full_of_set_closed hfull) hw
  | dropWaiter id u => exact hbefore (full_of_set_closed hfull) hw
  | _ => exact hbefore hfull hw

/-- Every oneshot has its waiter. -/
theorem Op.Effects.waiters_length {β : Type} {op : Op β} (he : op.Effects s s₁)
    (hlength : W.length = s.oneshots.length) :
    (op.waitersAfter s W).length = s₁.oneshots.length := by
  rw [he.oneshots]
  cases op with
  | start task =>
      simp only [Op.oneshotsAfter]
      split
      · exact hlength
      · exact hlength.trans (Waits.length_handAll _ _ _).symm
  | subscribe id =>
      simp only [Op.oneshotsAfter, Op.waitersAfter]
      split
      · exact hlength
      · rw [List.length_append, List.length_append, hlength]
        rfl
  | hand w value => exact hlength.trans (List.length_modify ..).symm
  | attached w =>
      simp only [Op.oneshotsAfter]
      split
      · exact hlength.trans List.length_set.symm
      · exact hlength
  | await w => exact hlength.trans List.length_set.symm
  | dropWaiter id w => exact hlength.trans List.length_set.symm
  | _ => exact hlength

/-- **What an operation does to a server** that is observed. -/
theorem Op.Effects.observed {β : Type} {op : Op β} (he : op.Effects s s₁)
    (hop : op.Observed E s.taskOf W) (hs : s.Observed E W) :
    s₁.Observed E (op.waitersAfter s W) :=
  ⟨he.sent hop hs, he.queued hs, fun _ _ _ => he.handed hop hs, he.waiters_length hs.length⟩

/-! ## what a thread tells -/

/-- A publication sends what its own task is told. -/
theorem publishCmd_observes {x : ExecId} {result : Item} {snapshotTask : Option Task}
    (hx : T x = some own) (hresult : Relays E own result) (pc : PublishPc)
    (k : Option PublishPc → Thread) : (publishCmd x result snapshotTask pc k).Observed E T W := by
  cases pc with
  | send sequence =>
      intro own' hx'
      obtain rfl := Option.some.inj (hx.symm.trans hx')
      exact hresult
  | _ => exact True.intro

/-- A release hands its task to the waiters of that task. -/
theorem releaseCmd_observes {task : Task} {pc : ReleasePc} (hpc : pc.Observed W task.id)
    (k : Option ReleasePc → Thread) : (releaseCmd task pc k).Observed E T W := by
  obtain _ | _ | ⟨w, rest⟩ := pc
  · exact True.intro
  · exact True.intro
  · intro own hw
    have hid := hpc w List.mem_cons_self
    obtain rfl := Option.some.inj (hid.symm.trans hw)
    exact ⟨named_self task.id, fun r hr => by contradiction⟩

/-- A save sends nothing. -/
theorem saveOp_observes (task : Task) (pc : SavePc) : (saveOp task pc).Observed E T W := by
  cases pc <;> exact True.intro

/-- Nor does a push. -/
theorem pushCmd_observes (inp : Input) (taskId : TaskId) (event : StreamResponse) (pc : PushPc)
    (k : PushPc ⊕ Except A2AError Unit → Thread) :
    (pushCmd inp taskId event pc k).Observed E T W := by
  obtain _ | _ | ⟨config, rest⟩ := pc <;> exact True.intro

/-- A poll sends nothing either. -/
theorem pollCmd_observes (sub : Subscription) (k : Subscription → Option (Option Item) → Thread) :
    (pollCmd sub k).Observed E T W := by
  simp only [pollCmd]
  split
  · exact True.intro
  · split <;> exact True.intro

/-- **What a driver sends is of its own task.** -/
theorem Driver.next_observes {d : Driver} (hx : T d.exec = some d.taskId)
    (hpc : d.pc.Observed E d.taskId) (inp : Input) : (d.next inp).Observed E T W := by
  obtain ⟨taskId, x, ctx, current, stream, answered, tracked, pc⟩ := d
  cases pc <;> simp only [Driver.next]
  case poll => split <;> exact True.intro
  case saving event task pc => exact saveOp_observes task pc
  case pushing event pc => exact pushCmd_observes ..
  case publishing event pc =>
    have hrelays : Relays E taskId (.ok event) := hpc
    exact publishCmd_observes hx hrelays pc _
  case failSaving error task pc => exact saveOp_observes task pc
  case failPushing error task pc => exact pushCmd_observes ..
  case failPublishing error failed pc =>
    have hrelays : Relays E taskId (.error error) := True.intro
    exact publishCmd_observes hx hrelays pc _
  all_goals exact True.intro

/-- **So is what a cancel sends.** -/
theorem CancelCall.next_observes {call : CancelCall} {pc : CancelPc}
    (hconfined : pc.Confined E T call.req.id) (hpc : pc.Observed E W call.req.id) (inp : Input) :
    (call.next h inp pc).Observed E T W := by
  cases pc <;> simp only [CancelCall.next]
  case load => split <;> exact True.intro
  case saving c event task pc => exact saveOp_observes task pc
  case pushing c event pc => exact pushCmd_observes ..
  case publishing c event pc =>
    split
    · exact True.intro
    · next x hx =>
        have hrelays : Relays E call.req.id (.ok event) := hpc.2
        exact publishCmd_observes (hconfined.active x hx) hrelays pc _
  case failPublishing c error pc =>
    split
    · exact True.intro
    · next x hx =>
        have hrelays : Relays E call.req.id (.error error) := True.intro
        exact publishCmd_observes (hconfined.active x hx) hrelays pc _
  case failPushing c error task pc => exact pushCmd_observes ..
  case finishing c => split <;> exact True.intro
  case finalPushing c task pc => exact pushCmd_observes ..
  case releasing c task pc =>
    obtain ⟨_, hid, hpc⟩ := hpc
    rw [← hid] at hpc
    exact releaseCmd_observes hpc _
  case dropping task result pc =>
    obtain ⟨hid, hpc⟩ := hpc
    rw [← hid] at hpc
    exact releaseCmd_observes hpc _
  all_goals exact True.intro

/-- A send publishes nothing itself. -/
theorem SendCall.next_observes (call : SendCall) (pc : SendPc) (inp : Input) :
    (call.next h inp pc).Observed E T W := by
  cases pc <;> simp only [SendCall.next]
  case load => split <;> exact True.intro
  case savePush prepared => split <;> exact True.intro
  case following taskId sub lastEvent => exact pollCmd_observes sub _
  case streaming sub => exact pollCmd_observes sub _
  all_goals exact True.intro

/-- Nor does a subscription. -/
theorem SubscribeCall.next_observes (call : SubscribeCall) (pc : SubscribePc) :
    (call.next h pc).Observed E T W := by
  cases pc <;> simp only [SubscribeCall.next]
  case register => split <;> exact True.intro
  case streaming opened sub => exact pollCmd_observes sub _
  all_goals exact True.intro

/-- What any thread sends is of its own task. -/
theorem Server.runs.observes {cmd : Cmd} (hr : s.runs h a i t cmd) (hconfined : t.Confined E T)
    (ht : t.Observed E T W) : cmd.Observed E T W := by
  obtain ⟨_, ⟨inp, _, rfl⟩ | ⟨_, rfl⟩⟩ := hr
  · cases t with
    | send call pc => exact call.next_observes pc inp
    | drive d => exact Driver.next_observes hconfined.1 ht inp
    | cancel call pc => exact CancelCall.next_observes hconfined ht inp
    | subscribe call pc => exact call.next_observes pc
    | dropped => exact True.intro
  · cases t with
    | send call pc => cases pc <;> exact True.intro
    | subscribe call pc => cases pc <;> exact True.intro
    | _ => exact True.intro

/-! ## what a thread is told -/

/-- A driver that fails has the error to publish. -/
theorem Driver.fail_observed (d : Driver) (inp : Input) (error : A2AError) :
    (d.fail inp error).Observed E T W := by
  simp only [Driver.fail]
  split <;> exact True.intro

/-- One that accepts has the event it was given. -/
theorem Driver.accept_observed {d : Driver} (inp : Input) {event : StreamResponse}
    (hevent : E d.taskId event) : (d.accept inp event).Observed E T W := by
  have hrelayed : Relayed E d.taskId (backfillStatusTimestamp inp.now event) :=
    ⟨event, inp.now, hevent, rfl⟩
  simp only [Driver.accept]
  split
  · exact fail_observed d inp _
  · split
    · exact hrelayed
    · split
      · exact hrelayed
      · exact fail_observed _ inp _

/-- **A driver goes on with what its own executor gave it.** -/
theorem Driver.next_observed {d : Driver} (hpc : d.pc.Observed E d.taskId) (inp : Input)
    (htakes : ∀ event, (Thread.drive d).takes = some event → E d.taskId event) :
    (d.next inp).StaysObserved E T W := by
  obtain ⟨taskId, x, ctx, current, stream, answered, tracked, pc⟩ := d
  cases pc <;> simp only [Driver.next]
  case start => exact Cmd.ends_andThen fun _ _ => True.intro
  case poll =>
    cases stream with
    | nil => exact Cmd.ends_andThen fun _ _ => True.intro
    | cons item rest =>
        refine Cmd.ends_andThen fun state _ => ?_
        split
        · exact True.intro
        · cases item with
          | ok event =>
              apply accept_observed
              exact htakes event rfl
          | error error => exact fail_observed _ inp _
  case saving event task pc =>
    refine Cmd.ends_andThen fun answer _ => ?_
    cases hstep : saveStep pc task answer with
    | inl pc => exact hpc
    | inr result =>
        cases result with
        | ok task' => exact hpc
        | error error => exact fail_observed _ inp _
  case pushing event pc =>
    refine pushCmd_ends fun o => ?_
    obtain pc | _ | _ := o
    · exact hpc
    · exact fail_observed _ inp _
    · exact hpc
  case publishing event pc =>
    refine publishCmd_ends fun o => ?_
    cases o with
    | some pc => exact hpc
    | none => dsimp only; split <;> exact True.intro
  case failSaving error task pc =>
    refine Cmd.ends_andThen fun answer _ => ?_
    cases hstep : saveStep pc task answer with
    | inl pc => exact True.intro
    | inr result => cases result <;> exact True.intro
  case failPushing error task pc =>
    refine pushCmd_ends fun o => ?_
    cases o <;> exact True.intro
  case failPublishing error failed pc =>
    refine publishCmd_ends fun o => ?_
    cases o <;> exact True.intro
  case finishing => exact Cmd.ends_andThen fun _ _ => True.intro
  case done => exact Cmd.ends_halt

/-- A cancel whose loop is over has its task to release. -/
theorem CancelCall.afterLoop_observed {c : Cancelling} (hid : c.task.id = own) :
    (afterLoop c).Observed E W own := by
  simp only [afterLoop]
  split <;> exact hid

theorem CancelCall.afterEvent_observed {c : Cancelling} (hid : c.task.id = own)
    (event : StreamResponse) : (afterEvent c event).Observed E W own := by
  simp only [afterEvent]
  split
  · exact afterLoop_observed hid
  · exact hid

/-- An event of a cancel came from its own executor. -/
theorem CancelCall.accept_observed {c : Cancelling} (hid : c.task.id = own) (inp : Input)
    {event : StreamResponse} (hevent : E own event) : (accept c inp event).Observed E W own := by
  have hrelayed : Relayed E own (backfillStatusTimestamp inp.now event) :=
    ⟨event, inp.now, hevent, rfl⟩
  simp only [accept]
  split
  · exact ⟨hid, hrelayed⟩
  · split
    · exact ⟨hid, hrelayed⟩
    · exact ⟨hid, True.intro⟩

/-- A release that goes on hands to waiters of its task. -/
theorem releaseCmd_observed {task : Task} {pc : ReleasePc} {k : Option ReleasePc → Thread}
    {R : Thread → Prop} (hpc : pc.Observed W task.id) (hk : ∀ pc, pc.Observed W task.id → R (k (some pc)))
    (hdone : R (k none)) : (releaseCmd task pc k).Ends (Op.Reports E T W) R := by
  obtain _ | _ | ⟨w, rest⟩ := pc
  · exact Cmd.ends_andThen fun waiters hwaiters => hk _ hwaiters
  · exact Cmd.ends_andThen fun _ _ => hdone
  · exact Cmd.ends_andThen fun _ _ => hk _ fun u hu => hpc u (List.mem_cons_of_mem w hu)

/-- **A cancel goes on so, too.** -/
theorem CancelCall.next_observed {call : CancelCall} {pc : CancelPc}
    (hpc : pc.Observed E W call.req.id) (inp : Input)
    (htakes : ∀ event, (Thread.cancel call pc).takes = some event → E call.req.id event) :
    (call.next h inp pc).StaysObserved E T W := by
  cases pc <;> simp only [CancelCall.next]
  case load =>
    split
    · exact Cmd.ends_andThen fun _ _ => True.intro
    · refine Cmd.ends_andThen fun answer _ => ?_
      cases answer with
      | none => exact True.intro
      | some task => dsimp only; split_ifs <;> exact True.intro
  case beginCancel =>
    refine Cmd.ends_andThen fun answer hanswer => ?_
    cases answer with
    | ok task => exact hanswer task rfl
    | error error => dsimp only; split <;> exact True.intro
  case raced error =>
    refine Cmd.ends_andThen fun answer _ => ?_
    cases answer with
    | none => exact True.intro
    | some task => dsimp only; split <;> exact True.intro
  case getActive task => exact Cmd.ends_andThen fun _ _ => hpc
  case polling c =>
    obtain ⟨task, active, ctx, current, stream, terminalPushed⟩ := c
    refine Cmd.ends_andThen fun _ _ => ?_
    cases stream with
    | nil => exact afterLoop_observed hpc
    | cons item rest =>
        cases item with
        | ok event =>
            apply accept_observed
            · exact hpc
            · exact htakes event rfl
        | error error => dsimp only; split <;> exact hpc
  case saving c event task pc =>
    refine Cmd.ends_andThen fun answer _ => ?_
    cases hstep : saveStep pc task answer with
    | inl pc => exact hpc
    | inr result =>
        cases result with
        | error error => exact ⟨hpc.1, True.intro⟩
        | ok task' => exact hpc
  case pushing c event pc =>
    refine pushCmd_ends fun o => ?_
    obtain pc | _ | _ := o
    · exact hpc
    · exact ⟨hpc.1, True.intro⟩
    · dsimp only
      split
      · exact hpc
      · exact afterEvent_observed hpc.1 event
  case publishing c event pc =>
    split
    · exact Cmd.ends_andThen fun _ _ => afterEvent_observed hpc.1 event
    · refine publishCmd_ends fun o => ?_
      cases o with
      | some pc => exact hpc
      | none => exact afterEvent_observed hpc.1 event
  case failPublishing c error pc =>
    split
    · exact Cmd.ends_andThen fun _ _ => hpc
    · refine publishCmd_ends fun o => ?_
      cases o <;> exact hpc
  case failLoad c error =>
    refine Cmd.ends_andThen fun answer hanswer => ?_
    cases answer with
    | none => exact ⟨hpc, True.intro⟩
    | some task => exact ⟨hpc, hanswer task rfl⟩
  case failPushing c error task pc =>
    refine pushCmd_ends fun o => ?_
    cases o with
    | inl pc => exact hpc
    | inr _ => exact ⟨hpc.1, True.intro⟩
  case finishing c => split <;> exact Cmd.ends_andThen fun _ _ => hpc
  case finalLoad c =>
    refine Cmd.ends_andThen fun answer hanswer => ?_
    cases answer with
    | none => exact ⟨hpc, True.intro⟩
    | some task =>
        dsimp only
        split
        · exact ⟨hpc, hanswer task rfl, True.intro⟩
        · exact ⟨hpc, hanswer task rfl⟩
  case finalPushing c task pc =>
    refine pushCmd_ends fun o => ?_
    obtain pc | _ | _ := o
    · exact hpc
    · exact ⟨hpc.1, True.intro⟩
    · exact ⟨hpc.1, hpc.2, True.intro⟩
  case releasing c task pc =>
    obtain ⟨hguard, hid, hrelease⟩ := hpc
    rw [← hid] at hrelease
    refine releaseCmd_observed hrelease (fun pc hpc => ?_) ⟨hguard, True.intro⟩
    exact ⟨hguard, hid, hid ▸ hpc⟩
  case dropping task result pc =>
    obtain ⟨hid, hrelease⟩ := hpc
    rw [← hid] at hrelease
    refine releaseCmd_observed hrelease (fun pc hpc => ?_) True.intro
    exact ⟨hid, hid ▸ hpc⟩
  case returned => exact Cmd.ends_halt

/-- A poll of the stream of a send. -/
theorem pollCmd_attached {sub : Subscription} (hs : sub.Attached E T) {R : Thread → Prop}
    {k : Subscription → Option (Option Item) → Thread}
    (hk : ∀ sub' o, sub'.Attached E T → R (k sub' o)) :
    (pollCmd sub k).Ends (Op.Reports E T W) R := by
  obtain ⟨r, own, hr, hx, hof⟩ := hs
  refine pollCmd_observed hof fun sub' o hof' hsame => hk sub' o ?_
  rw [hr] at hsame
  obtain ⟨r', hr', hexec⟩ := Option.map_eq_some_iff.mp hsame
  have hexec : r'.exec = r.exec := hexec
  exact ⟨r', own, hr', hexec ▸ hx, hof'⟩

/-- A send follows the execution of its own task. -/
theorem SendCall.next_observed {call : SendCall} {pc : SendPc} (hpc : pc.Observed E T)
    (hconfined : (Thread.send call pc).Confined E T) (inp : Input) :
    (call.next h inp pc).StaysObserved E T W := by
  cases pc <;> simp only [SendCall.next]
  case load =>
    split
    · exact Cmd.ends_andThen fun _ _ => True.intro
    · refine Cmd.ends_andThen fun stored _ => ?_
      split
      · exact True.intro
      · split <;> exact True.intro
  case create prepared =>
    refine Cmd.ends_andThen fun answer _ => ?_
    cases answer <;> exact True.intro
  case savePush prepared =>
    split
    · exact Cmd.ends_andThen fun _ _ => True.intro
    · refine Cmd.ends_andThen fun answer _ => ?_
      cases answer <;> exact True.intro
  case start prepared =>
    refine Cmd.ends_andThen fun answer _ => ?_
    cases answer <;> exact True.intro
  case attach prepared x =>
    intro receiver hreceiver
    have hexec : receiver.exec = x := hreceiver
    have hx : T receiver.exec = some prepared.task.id := hexec ▸ hconfined
    have hsub : (Subscription.ofReceiver receiver).Attached E T :=
      ⟨receiver, _, rfl, hx, Subscription.of_ofReceiver hx⟩
    constructor
    · dsimp only
      split <;> exact hsub
    · intro t ht
      obtain rfl := List.mem_singleton.mp ht
      exact True.intro
  case following taskId sub lastEvent =>
    refine pollCmd_attached hpc fun sub' o hsub => ?_
    obtain _ | _ | item := o
    · exact hsub
    · simp only [finishSend]
      split <;> exact True.intro
    · simp only [onItem]
      split
      · exact True.intro
      · split
        · exact True.intro
        · split
          · exact True.intro
          · exact hsub
  case answering taskId => exact Cmd.ends_andThen fun _ _ => True.intro
  case streaming sub =>
    refine pollCmd_attached hpc fun sub' o hsub => ?_
    split <;> exact hsub
  case returned => exact Cmd.ends_halt
  case ended => exact Cmd.ends_halt

/-- **A subscription follows its own task**, attached or handed over. -/
theorem SubscribeCall.next_observed {call : SubscribeCall} {pc : SubscribePc}
    (hpc : pc.Observed E T W call.req.id) : (call.next h pc).StaysObserved E T W := by
  have hstream {value : Resubscription} (hv : value.Of E T call.req.id) {opened : Option Task}
      (hopened : ∀ task, opened = some task → task.id = call.req.id) :
      (Thread.subscribe call (.streaming opened (.ofResubscription value))).Observed E T W :=
    ⟨hopened, Subscription.of_ofResubscription hv⟩
  cases pc <;> simp only [SubscribeCall.next]
  case register =>
    split
    · exact Cmd.ends_andThen fun _ _ => True.intro
    · exact Cmd.ends_andThen fun _ _ => True.intro
    · refine Cmd.ends_andThen fun answer hanswer => ?_
      cases answer with
      | inl receiver => exact hanswer
      | inr w => exact hanswer
  case readState receiver =>
    refine Cmd.ends_andThen fun state hstate => hstream ⟨hstate _ hpc, fun r hr => ?_⟩ ?_
    · obtain rfl := Option.some.inj hr
      exact hpc
    · intro task htask
      contradiction
  case attached w =>
    refine Cmd.ends_andThen fun answer hanswer => ?_
    cases answer with
    | none => exact hpc
    | some value => exact hstream (hanswer value _ rfl hpc) fun task htask => by contradiction
  case load w =>
    refine Cmd.ends_andThen fun answer hanswer => ?_
    cases answer with
    | none => exact True.intro
    | some task => exact ⟨hpc, hanswer task rfl⟩
  case loaded w task =>
    refine Cmd.ends_andThen fun answer hanswer => ?_
    cases answer with
    | none =>
        dsimp only
        split
        · exact True.intro
        · exact hpc
    | some value => exact hstream (hanswer value _ rfl hpc.1) fun task htask => by contradiction
  case refusing w error => exact Cmd.ends_andThen fun _ _ => True.intro
  case opening w task => exact Cmd.ends_andThen fun _ _ => hpc
  case waiting w opened =>
    refine Cmd.ends_andThen fun value hvalue => hstream (hvalue _ hpc.1) fun task htask => ?_
    obtain rfl := Option.some.inj htask
    exact hpc.2
  case streaming opened sub =>
    refine pollCmd_observed hpc.2 fun sub' o hsub _ => ?_
    split <;> exact ⟨hpc.1, hsub⟩
  case refused => exact Cmd.ends_halt
  case ended => exact Cmd.ends_halt

/-! ## runs -/

/-- All that observers are told is of their task. -/
structure Observing (tr : List (Server × Action)) (s : Server) : Prop where
  isolated : Isolated tr s
  observed : ∃ W, s.Observed (Emitted tr) W ∧ ∀ t ∈ s.threads, t.Observed (Emitted tr) s.taskOf W

/-- What was observed of a server stays true. -/
theorem Server.Observed.mono (hE : ∀ own event, E own event → E' own event)
    (hs : s.Observed E W) : s.Observed E' W where
  sent active hactive event hevent := (hs.sent active hactive event hevent).mono hE
  queued := hs.queued
  handed w value own hfull hw := (hs.handed w value own hfull hw).mono hE fun _ _ h => h
  length := hs.length

/-- **A step keeps it**, whichever thread acts. -/
theorem Observing.step (ho : Observing tr s) (hs : Server.step h s a = some s') :
    Observing (tr ++ [(s, a)]) s' := by
  refine ⟨ho.isolated.step hs, ?_⟩
  obtain ⟨W, hshared, hthreads⟩ := ho.observed
  have hE : ∀ own event, Emitted tr own event → Emitted (tr ++ [(s, a)]) own event :=
    fun _ _ => Emitted.mono
  obtain ⟨request, rfl, rfl⟩ | ⟨i, t, cmd, s₁, b, hruns, hran⟩ := step_cases hs
  · have hsame := hshared.mono hE
    refine ⟨W, ⟨hsame.sent, hsame.queued, hsame.handed, hsame.length⟩, fun t ht => ?_⟩
    obtain ht | ht := List.mem_append.mp ht
    · exact (hthreads t ht).mono hE (fun _ _ h => h) fun _ _ h => h
    · obtain rfl := List.mem_singleton.mp ht
      cases request <;> exact True.intro
  · have hmem := List.mem_of_getElem? hruns.1
    have hconfined := ho.isolated.threads t hmem
    have ht := hthreads t hmem
    have hop : cmd.op.Observed (Emitted tr) s.taskOf W := hruns.observes hconfined ht
    have hT : ∀ x own, s.taskOf x = some own → s₁.taskOf x = some own :=
      fun x own => hran.effects.taskOf
    have hW := cmd.op.waitersAfter_mono (s := s) (W := W)
    have hafter := (hran.effects.observed hop hshared).mono hE
    have htold := Op.run_reports (ho.isolated.shared.mono hE) (hshared.mono hE) hran.run
    have hnext := ht.mono hE hT hW
    have hnextConfined := hconfined.mono hE hT
    have htakes : ∀ inp own event, a = .step i inp → t.worksFor = some own →
        t.takes = some event → Emitted (tr ++ [(s, a)]) own event := by
      intro inp own event ha hown htakes
      exact ⟨s, i, inp, t, by simp [ha], hruns.1, hown, htakes⟩
    have htaskOf : s'.taskOf = s₁.taskOf := by
      rw [hran.eq]
      rfl
    refine ⟨cmd.op.waitersAfter s W, ?_, fun t' ht' => ?_⟩
    · rw [hran.eq]
      exact ⟨hafter.sent, hafter.queued, hafter.handed, hafter.length⟩
    · rw [htaskOf]
      have hself : (cmd.resume b).1.Observed (Emitted (tr ++ [(s, a)])) s₁.taskOf
            (cmd.op.waitersAfter s W) ∧
          ∀ u ∈ (cmd.resume b).2, u.Observed (Emitted (tr ++ [(s, a)])) s₁.taskOf
            (cmd.op.waitersAfter s W) := by
        obtain ⟨_, ⟨inp, ha, rfl⟩ | ⟨_, rfl⟩⟩ := hruns
        · cases t with
          | send call pc => exact SendCall.next_observed hnext hnextConfined inp b htold
          | drive d => exact Driver.next_observed hnext inp (fun _ => htakes inp _ _ ha rfl) b htold
          | cancel call pc =>
              exact CancelCall.next_observed hnext inp (fun _ => htakes inp _ _ ha rfl) b htold
          | subscribe call pc => exact SubscribeCall.next_observed hnext b htold
          | dropped => exact b.elim
        · obtain ⟨hdrop, hnew⟩ := Thread.drop_dropped t s₁ b hran.run
          rw [hdrop, hnew]
          exact ⟨True.intro, fun _ h => absurd h List.not_mem_nil⟩
      obtain rfl | hold | hspawned := hran.mem_threads ht'
      · exact hself.1
      · exact (hthreads t' hold).mono hE hT hW
      · exact hself.2 t' hspawned

/-- So it is in every run. -/
theorem run_observing
    (hr : (serverMachine h).Run (.new taskStore pushConfigStore pushSender) tr s) :
    Observing tr s := by
  refine hr.invariant (I := Observing) ⟨run_isolated (h := h) .nil, [], ⟨?_, ?_, ?_, rfl⟩, ?_⟩
    fun _ _ _ _ ho hs => ho.step hs
  · exact fun _ h => absurd h List.not_mem_nil
  · exact fun _ _ h => absurd h List.not_mem_nil
  · exact fun _ _ _ h => by contradiction
  · exact fun _ h => absurd h List.not_mem_nil

/-! ## what streams are told -/

/-- The task whose events a stream shows: the one subscribed to, or the one of the
execution a send follows. -/
def Server.watched (s : Server) : Thread → Option TaskId
  | .subscribe call _ => some call.req.id
  | t => (t.subscription.bind (·.receiver)).bind fun receiver => s.taskOf receiver.exec

/-- The stream of a thread is one of the task it watches. -/
theorem Thread.Observed.subscription {sub : Subscription} (ht : t.Observed E s.taskOf W)
    (hsub : t.subscription = some sub) :
    ∃ own, s.watched t = some own ∧ sub.Of E s.taskOf own := by
  cases t with
  | send call pc =>
      have hattached : sub.Attached E s.taskOf := by
        cases pc <;> first | contradiction | exact Option.some.inj hsub ▸ ht
      obtain ⟨r, own, hr, hx, hof⟩ := hattached
      refine ⟨own, ?_, hof⟩
      simp only [Server.watched, hsub, Option.bind_some, hr, hx]
  | subscribe call pc =>
      refine ⟨call.req.id, rfl, ?_⟩
      cases pc <;> first | contradiction | exact Option.some.inj hsub ▸ ht.2
  | _ => contradiction

/-- The task a subscription opened with is its own. -/
theorem SubscribePc.Observed.opened {pc : SubscribePc} {task : Task} (hpc : pc.Observed E T W own)
    (hopened : pc.opened = some task) : task.id = own := by
  cases pc with
  | waiting w opened => exact Option.some.inj hopened ▸ hpc.2
  | streaming opened sub => exact hpc.1 task hopened
  | ended opened sub => exact hpc.1 task hopened
  | _ => contradiction

/-- **Streams are told of their task only**: in every interleaving, each item
a stream yielded is an error, an event that an executor called for the stream's
task emitted, or a task under that id or one such an executor named; and what
the stream of a subscription opened with is the task subscribed to. -/
theorem stream_told
    (hr : (serverMachine h).Run (.new taskStore pushConfigStore pushSender) tr s)
    (ht : t ∈ s.threads) :
    (∀ sub, t.subscription = some sub → ∃ own, s.watched t = some own ∧
      ∀ item ∈ sub.yielded, Heard (Emitted tr) own item) ∧
    ∀ call pc task, t = .subscribe call pc → pc.opened = some task → task.id = call.req.id := by
  obtain ⟨W, _, hthreads⟩ := (run_observing hr).observed
  have hobserved := hthreads t ht
  constructor
  · intro sub hsub
    obtain ⟨own, hown, hof⟩ := hobserved.subscription hsub
    exact ⟨own, hown, hof.yielded⟩
  · rintro call pc task rfl hopened
    exact SubscribePc.Observed.opened hobserved hopened

theorem stream_told_once : ∃ tr s t sub, (serverMachine .new).Run awaitingInput tr s ∧
    t ∈ s.threads ∧ t.subscription = some sub ∧ sub.yielded.length = 1 ∧
      ∀ item ∈ sub.yielded, Heard (Emitted tr) "t" item := by
  have hx : ((serverMachine .new).exec awaitingInput updatedOnce).map (fun p =>
      p.2.threads[0]?.map fun t =>
        (p.2.watched t, t.subscription.map (·.yielded.length))) = some (some (some "t", some 1)) := rfl
  obtain ⟨⟨tr, s⟩, hexec, hs⟩ := Option.map_eq_some_iff.mp hx
  obtain ⟨t, ht, hboth⟩ := Option.map_eq_some_iff.mp hs
  obtain ⟨hwatched, hyielded⟩ := Prod.mk.inj hboth
  obtain ⟨sub, hsub, hlength⟩ := Option.map_eq_some_iff.mp hyielded
  have hrun := Machine.run_of_exec hexec
  have hmem := List.mem_of_getElem? ht
  obtain ⟨own, hown, htold⟩ := (stream_told hrun hmem).1 sub hsub
  obtain rfl := Option.some.inj (hown.symm.trans hwatched)
  exact ⟨tr, s, t, sub, hrun, hmem, hsub, hlength, htold⟩

end A2a
