import A2a.Server.Steps

/-!
# A2a.Server.Timestamps

Every status that leaves the server was stored before, with its timestamp.

`Known P` says of each part of the server that the statuses in it satisfy
`P`; with `P` "some step stored it" this is an invariant of the runs from an
empty store (`Published`): an event is stamped before it is applied, its
task is stored before it is delivered, and what is delivered besides is read
from the store or from a snapshot.
-/

namespace A2a

open InMemoryTaskStore

/-! ## statuses -/

/-- The task's status has a timestamp. -/
def Task.Stamped (task : Task) : Prop := task.status.timestamp ≠ none

/-- Cancelling stamps the status. -/
@[simp] theorem canceledTask_stamped (task : Task) (now : DateTime) :
    (canceledTask task now).Stamped := nofun

/-- So does failing. -/
@[simp] theorem failedTask_stamped (now : DateTime) (messageId : String) (task : Task)
    (error : A2AError) : (failedTask now messageId task error).Stamped := nofun

@[simp] theorem status_statusUpdate (task : Task) : (statusUpdate task).status = some task.status :=
  rfl

/-- An event's status is that of the task it makes, once both are stamped. -/
theorem status_foldEvent {current task : Task} {event : StreamResponse} {now : DateTime}
    (h : foldEvent current (backfillStatusTimestamp now event) = .ok task) :
    ∀ status, (backfillStatusTimestamp now event).status = some status →
      (task.backfill now).status = status := by
  intro status hstatus
  cases event with
  | task next =>
      obtain rfl := Except.ok.inj h
      obtain rfl := Option.some.inj hstatus
      exact congrArg Task.status (Task.backfill_of_stamped (Task.backfill_stamped now next) now)
  | statusUpdate update =>
      obtain rfl := Except.ok.inj h
      obtain rfl := Option.some.inj hstatus
      have hstamped : ({ current with status := update.status.backfill now } : Task).Stamped :=
        Task.backfill_stamped now { current with status := update.status }
      exact congrArg Task.status (Task.backfill_of_stamped hstamped now)
  | artifactUpdate update => contradiction
  | message message => contradiction

/-! ## what is known of a server -/

section Known

variable (P : TaskStatus → Prop)

def StreamResponse.Known (event : StreamResponse) : Prop :=
  ∀ status, event.status = some status → P status

/-- An item of a stream: an error carries no status. -/
def KnownItem : Item → Prop
  | .ok event => event.Known P
  | .error _ => True

structure Subscription.Known (sub : Subscription) : Prop where
  snapshot : ∀ task, sub.snapshotTask = some task → P task.status
  yielded : ∀ item ∈ sub.yielded, KnownItem P item

/-- A driver's task, and what it is about to store or deliver. -/
def DrivePc.Known : DrivePc → Prop
  | .saving event task _ =>
      task.Stamped ∧ ∀ status, event.status = some status → task.status = status
  | .pushing event _ => event.Known P
  | .publishing event _ => event.Known P
  | .failSaving _ task _ => task.Stamped
  | .failPushing _ task _ => P task.status
  | .failPublishing _ failed _ => ∀ task, failed = some task → P task.status
  | _ => True

structure Cancelling.Known (c : Cancelling) : Prop where
  task : P c.task.status
  current : P c.current.status

def CancelPc.Known : CancelPc → Prop
  | .getActive task => P task.status
  | .polling c => c.Known P
  | .saving c event task _ =>
      c.Known P ∧ task.Stamped ∧ ∀ status, event.status = some status → task.status = status
  | .pushing c event _ => c.Known P ∧ event.Known P
  | .publishing c event _ => c.Known P ∧ event.Known P
  | .failPublishing c _ _ => c.Known P
  | .failLoad c _ => c.Known P
  | .failPushing c _ task _ => c.Known P ∧ P task.status
  | .finishing c => c.Known P
  | .finalLoad c => c.Known P
  | .finalPushing c task _ => c.Known P ∧ P task.status
  | .releasing c task _ => c.Known P ∧ P task.status
  | .dropping task _ _ => P task.status
  | _ => True

def SendPc.Known : SendPc → Prop
  | .create prepared => prepared.task.Stamped
  | .savePush prepared => P prepared.task.status
  | .start prepared => P prepared.task.status
  | .attach prepared _ => P prepared.task.status
  | .following _ sub _ => sub.Known P
  | .streaming sub => sub.Known P
  | .ended sub => sub.Known P
  | _ => True

def SubscribePc.Known : SubscribePc → Prop
  | .loaded _ task => P task.status
  | .opening _ task => P task.status
  | .waiting _ opened => P opened.status
  | .streaming opened sub => (∀ task, opened = some task → P task.status) ∧ sub.Known P
  | .ended opened sub => (∀ task, opened = some task → P task.status) ∧ sub.Known P
  | _ => True

def Thread.Known : Thread → Prop
  | .send _ pc => pc.Known P
  | .drive d => P d.current.status ∧ d.pc.Known P
  | .cancel _ pc => pc.Known P
  | .subscribe _ pc => pc.Known P
  | .dropped => True

/-- An execution's snapshot, and all that was sent to its subscribers. -/
structure ActiveExecution.Known (active : ActiveExecution) : Prop where
  snapshot : P active.snapshotTask.status
  sent : ∀ event ∈ active.sent, KnownItem P event.result

/-- What an operation brings to the shared state. -/
def Op.Known {β : Type} : Op β → Prop
  | .create task => task.Stamped
  | .update task => task.Stamped
  | .sendPush _ event _ => event.Known P
  | .start task => P task.status
  | .hand _ value => P value.snapshotTask.status
  | .publish _ snapshotTask => ∀ task, snapshotTask = some task → P task.status
  | .broadcast _ event => KnownItem P event.result
  | _ => True

/-- What a thread is about to bring. -/
def Cmd.Known (cmd : Cmd) : Prop := cmd.op.Known P

/-- What is known of an operation's answer: what it reads, and of a write
that succeeded what it wrote. -/
def Op.Answers {β : Type} : Op β → β → Prop
  | .get _, answer => ∀ task, answer = some task → P task.status
  | .create task, answer => ∀ version, answer = .ok version → P task.status
  | .update task, answer => ∀ version, answer = .ok version → P task.status
  | .beginCancel _ _, answer => ∀ task, answer = .ok task → P task.status
  | .attached _, answer => ∀ value, answer = some value → P value.snapshotTask.status
  | .await _, answer => P answer.snapshotTask.status
  | .readState _, answer => P answer.1.status
  | .recv _, answer => ∀ event, answer = .event event → KnownItem P event.result
  | _, _ => True

/-- What is known of a command's threads, however it is answered. -/
def Cmd.Keeps (cmd : Cmd) : Prop := cmd.Ends (Op.Answers P) (Thread.Known P)

/-- What the threads share. -/
structure Server.Known (s : Server) : Prop where
  store : ∀ id task, s.taskStore.get id = some task → P task.status
  executions : ∀ active ∈ s.executions, active.Known P
  oneshots : ∀ value, Oneshot.full value ∈ s.oneshots → P value.snapshotTask.status
  webhooks : ∀ push ∈ s.webhooks, push.2.Known P

end Known

/-! ## what stays known -/

variable {P P' : TaskStatus → Prop} {h : Handler} {s s' s₁ : Server}

section Mono

variable (hP : ∀ status, P status → P' status)

include hP

/-- An event stays known as more is known, and so does all that follows here. -/
theorem StreamResponse.Known.mono {event : StreamResponse} (hk : event.Known P) :
    event.Known P' := fun status hstatus => hP status (hk status hstatus)

theorem KnownItem.mono {item : Item} (hk : KnownItem P item) : KnownItem P' item := by
  cases item with
  | ok event => exact StreamResponse.Known.mono hP hk
  | error error => trivial

theorem Subscription.Known.mono {sub : Subscription} (hk : sub.Known P) : sub.Known P' where
  snapshot task htask := hP _ (hk.snapshot task htask)
  yielded item hitem := KnownItem.mono hP (hk.yielded item hitem)

theorem Cancelling.Known.mono {c : Cancelling} (hk : c.Known P) : c.Known P' :=
  ⟨hP _ hk.task, hP _ hk.current⟩

theorem DrivePc.Known.mono {pc : DrivePc} (hk : pc.Known P) : pc.Known P' := by
  cases pc with
  | saving event task pc => exact hk
  | pushing event pc => exact StreamResponse.Known.mono hP hk
  | publishing event pc => exact StreamResponse.Known.mono hP hk
  | failSaving error task pc => exact hk
  | failPushing error task pc => exact hP _ hk
  | failPublishing error failed pc => exact fun task htask => hP _ (hk task htask)
  | _ => trivial

theorem CancelPc.Known.mono {pc : CancelPc} (hk : pc.Known P) : pc.Known P' := by
  cases pc with
  | getActive task => exact hP _ hk
  | polling c => exact Cancelling.Known.mono hP hk
  | saving c event task pc => exact ⟨hk.1.mono hP, hk.2⟩
  | pushing c event pc => exact ⟨hk.1.mono hP, hk.2.mono hP⟩
  | publishing c event pc => exact ⟨hk.1.mono hP, hk.2.mono hP⟩
  | failPublishing c error pc => exact Cancelling.Known.mono hP hk
  | failLoad c error => exact Cancelling.Known.mono hP hk
  | failPushing c error task pc => exact ⟨hk.1.mono hP, hP _ hk.2⟩
  | finishing c => exact Cancelling.Known.mono hP hk
  | finalLoad c => exact Cancelling.Known.mono hP hk
  | finalPushing c task pc => exact ⟨hk.1.mono hP, hP _ hk.2⟩
  | releasing c task pc => exact ⟨hk.1.mono hP, hP _ hk.2⟩
  | dropping task result pc => exact hP _ hk
  | _ => trivial

theorem SendPc.Known.mono {pc : SendPc} (hk : pc.Known P) : pc.Known P' := by
  cases pc with
  | create prepared => exact hk
  | savePush prepared => exact hP _ hk
  | start prepared => exact hP _ hk
  | attach prepared x => exact hP _ hk
  | following taskId sub lastEvent => exact Subscription.Known.mono hP hk
  | streaming sub => exact Subscription.Known.mono hP hk
  | ended sub => exact Subscription.Known.mono hP hk
  | _ => trivial

theorem SubscribePc.Known.mono {pc : SubscribePc} (hk : pc.Known P) : pc.Known P' := by
  cases pc with
  | loaded w task => exact hP _ hk
  | opening w task => exact hP _ hk
  | waiting w opened => exact hP _ hk
  | streaming opened sub => exact ⟨fun task htask => hP _ (hk.1 task htask), hk.2.mono hP⟩
  | ended opened sub => exact ⟨fun task htask => hP _ (hk.1 task htask), hk.2.mono hP⟩
  | _ => trivial

theorem Thread.Known.mono {t : Thread} (hk : t.Known P) : t.Known P' := by
  cases t with
  | send call pc => exact SendPc.Known.mono hP hk
  | drive d => exact ⟨hP _ hk.1, hk.2.mono hP⟩
  | cancel call pc => exact CancelPc.Known.mono hP hk
  | subscribe call pc => exact SubscribePc.Known.mono hP hk
  | dropped => trivial

/-- What is known of a server stays so. -/
theorem Server.Known.mono (hk : s.Known P) : s.Known P' where
  store id task hget := hP _ (hk.store id task hget)
  executions active hactive :=
    ⟨hP _ (hk.executions active hactive).snapshot, fun event hevent =>
      KnownItem.mono hP ((hk.executions active hactive).sent event hevent)⟩
  oneshots value hvalue := hP _ (hk.oneshots value hvalue)
  webhooks push hpush := StreamResponse.Known.mono hP (hk.webhooks push hpush)

end Mono

/-! ## what an operation does -/

/-- What a oneshot holds after a send was sent, or was there. -/
theorem Oneshot.full_of_send {value value' : Resubscription} {o : Oneshot}
    (ho : Oneshot.send value o = .full value') : value' = value ∨ o = .full value' := by
  cases o with
  | empty => exact .inl (Oneshot.full.inj ho).symm
  | full value'' => exact .inr ho
  | closed => contradiction

/-- A value on a waiter's channel was there, or was sent. -/
theorem full_mem_modify {value value' : Resubscription} {oneshots : List Oneshot} {w : WaiterId}
    (hm : Oneshot.full value' ∈ oneshots.modify w (Oneshot.send value)) :
    value' = value ∨ Oneshot.full value' ∈ oneshots := by
  obtain ⟨k, hk⟩ := List.mem_iff_getElem?.mp hm
  rw [List.getElem?_modify] at hk
  cases ho : oneshots[k]? with
  | none => simp [ho] at hk
  | some o =>
      rw [ho] at hk
      have hmem : o ∈ oneshots := List.mem_of_getElem? ho
      by_cases hw : w = k
      · simp only [hw, if_true, Option.map_eq_map, Option.map_some, Option.some.injEq] at hk
        obtain hv | ho := Oneshot.full_of_send hk
        · exact .inl hv
        · exact .inr (ho ▸ hmem)
      · simp only [hw, if_false, Option.map_eq_map, Option.map_some, Option.some.injEq] at hk
        exact .inr (hk ▸ hmem)

/-- So it is after a send to many. -/
theorem full_mem_foldl {value value' : Resubscription} {waiters : List WaiterId}
    {oneshots : List Oneshot}
    (hm : Oneshot.full value' ∈
      waiters.foldl (fun o w => o.modify w (Oneshot.send value)) oneshots) :
    value' = value ∨ Oneshot.full value' ∈ oneshots := by
  induction waiters generalizing oneshots with
  | nil => exact .inr hm
  | cons w waiters ih =>
      obtain hv | hm := ih hm
      · exact .inl hv
      · exact full_mem_modify hm

/-- An execution after an operation is one before it with what the
operation brings, or new. -/
theorem Op.executions_known {β : Type} {op : Op β} (hop : op.Known P) (hk : s.Known P) :
    ∀ active ∈ op.executionsAfter s, active.Known P := by
  intro active hactive
  cases op with
  | start task =>
      simp only [executionsAfter] at hactive
      split at hactive
      · exact hk.executions active hactive
      · obtain hactive | hactive := List.mem_append.mp hactive
        · exact hk.executions active hactive
        · obtain rfl := List.mem_singleton.mp hactive
          exact ⟨hop, fun _ hevent => absurd hevent List.not_mem_nil⟩
  | publish x snapshotTask =>
      obtain ⟨k, hk'⟩ := List.mem_iff_getElem?.mp hactive
      simp only [executionsAfter, List.getElem?_modify] at hk'
      obtain ⟨old, hold, rfl⟩ := Option.map_eq_some_iff.mp hk'
      have hknown := hk.executions old (List.mem_of_getElem? hold)
      split
      · refine ⟨?_, hknown.sent⟩
        cases snapshotTask with
        | none => exact hknown.snapshot
        | some task => exact hop task rfl
      · exact hknown
  | broadcast x event =>
      simp only [executionsAfter] at hactive
      split at hactive
      · obtain ⟨k, hk'⟩ := List.mem_iff_getElem?.mp hactive
        rw [List.getElem?_modify] at hk'
        obtain ⟨old, hold, rfl⟩ := Option.map_eq_some_iff.mp hk'
        have hknown := hk.executions old (List.mem_of_getElem? hold)
        split
        · refine ⟨hknown.snapshot, fun event' hevent => ?_⟩
          obtain hevent | hevent := List.mem_append.mp hevent
          · exact hknown.sent event' hevent
          · obtain rfl := List.mem_singleton.mp hevent
            exact hop
        · exact hknown
      · exact hk.executions active hactive
  | _ => exact hk.executions active hactive

/-- The oneshots of a server hold known snapshots after any operation that brings known ones. -/
theorem Op.oneshots_known {β : Type} {op : Op β} (hop : op.Known P) (hk : s.Known P) :
    ∀ value, Oneshot.full value ∈ op.oneshotsAfter s → P value.snapshotTask.status := by
  intro value hvalue
  have hset : ∀ w, Oneshot.full value ∈ s.oneshots.set w .closed →
      P value.snapshotTask.status := by
    intro w hm
    obtain hm | hm := List.mem_or_eq_of_mem_set hm
    · exact hk.oneshots value hm
    · contradiction
  cases op with
  | start task =>
      simp only [oneshotsAfter] at hvalue
      split at hvalue
      · exact hk.oneshots value hvalue
      · obtain rfl | hvalue := full_mem_foldl hvalue
        · exact hop
        · exact hk.oneshots value hvalue
  | subscribe id =>
      simp only [oneshotsAfter] at hvalue
      split at hvalue
      · exact hk.oneshots value hvalue
      · obtain hvalue | hvalue := List.mem_append.mp hvalue
        · exact hk.oneshots value hvalue
        · have he : Oneshot.full value = .empty := List.mem_singleton.mp hvalue
          contradiction
  | hand w value' =>
      obtain rfl | hvalue := full_mem_modify hvalue
      · exact hop
      · exact hk.oneshots value hvalue
  | attached w =>
      simp only [oneshotsAfter] at hvalue
      split at hvalue
      · exact hset w hvalue
      · exact hk.oneshots value hvalue
  | await w => exact hset w hvalue
  | dropWaiter id w => exact hset w hvalue
  | _ => exact hk.oneshots value hvalue

/-- What was pushed stays known. -/
theorem Op.webhooks_known {β : Type} {op : Op β} (hop : op.Known P) (hk : s.Known P) :
    ∀ push ∈ op.webhooksAfter s, push.2.Known P := by
  intro push hpush
  cases op with
  | sendPush config event outcome =>
      obtain hpush | hpush := List.mem_append.mp hpush
      · exact hk.webhooks push hpush
      · obtain rfl := List.mem_singleton.mp hpush
        exact hop
  | _ => exact hk.webhooks push hpush

/-- What an operation stores is stamped, if what it brings is. -/
theorem Op.writes_stamped {β : Type} {op : Op β} {task : Task} (hop : op.Known P)
    (hw : op.writes s = some task) : task.Stamped := by
  cases op with
  | create task' =>
      simp only [writes] at hw
      split at hw
      · obtain rfl := Option.some.inj hw
        exact hop
      · contradiction
  | update task' =>
      simp only [writes] at hw
      split at hw
      · obtain rfl := Option.some.inj hw
        exact hop
      · contradiction
  | beginCancel id now =>
      simp only [writes] at hw
      obtain ⟨_, hb⟩ | ⟨_, _, _, hb⟩ | ⟨old, _, _, _, hb, _⟩ := beginCancel_cases s.taskStore id now
      · simp [hb] at hw
      · simp [hb] at hw
      · simp only [hb, Option.some.injEq] at hw
        rw [← hw]
        exact canceledTask_stamped old now
  | _ => contradiction

/-! ## what a thread brings -/

/-- A save brings a task that is stamped already. -/
theorem saveOp_known {task : Task} (htask : task.Stamped) (pc : SavePc) :
    (saveOp task pc).Known P := by
  cases pc <;> exact htask

/-- A push brings its event. -/
theorem pushCmd_known {inp : Input} {taskId : TaskId} {event : StreamResponse}
    (hevent : event.Known P) (pc : PushPc) (k : PushPc ⊕ Except A2AError Unit → Thread) :
    (pushCmd inp taskId event pc k).Known P := by
  obtain _ | _ | ⟨config, rest⟩ := pc
  · trivial
  · trivial
  · exact hevent

/-- A publication brings its item and its snapshot. -/
theorem publishCmd_known {x : ExecId} {result : Item} {snapshotTask : Option Task}
    (hresult : KnownItem P result) (htask : ∀ task, snapshotTask = some task → P task.status)
    (pc : PublishPc) (k : Option PublishPc → Thread) :
    (publishCmd x result snapshotTask pc k).Known P := by
  cases pc with
  | write => exact htask
  | count sequence => trivial
  | send sequence => exact hresult

/-- A release brings the task it hands on. -/
theorem releaseCmd_known {task : Task} (htask : P task.status) (pc : ReleasePc)
    (k : Option ReleasePc → Thread) : (releaseCmd task pc k).Known P := by
  obtain _ | _ | ⟨w, rest⟩ := pc
  · trivial
  · trivial
  · exact htask

/-- A poll brings nothing. -/
theorem pollCmd_known (sub : Subscription)
    (k : Subscription → Option (Option Item) → Thread) : (pollCmd sub k).Known P := by
  simp only [pollCmd]
  split
  · trivial
  · split <;> trivial

/-- **What a driver brings**, one case for each place it can be at. -/
theorem Driver.next_brings {d : Driver} (hd : (Thread.drive d).Known P) (inp : Input) :
    (d.next inp).Known P := by
  obtain ⟨hcurrent, hpc⟩ := hd
  cases hat : d.pc <;> rw [hat] at hpc <;> simp only [Driver.next, hat]
  case poll => split <;> trivial
  case saving event task pc => exact saveOp_known hpc.1 pc
  case pushing event pc => exact pushCmd_known hpc pc _
  case publishing event pc =>
    have hresult : KnownItem P (.ok event) := hpc
    refine publishCmd_known hresult (fun task htask => ?_) pc _
    obtain rfl := Option.some.inj htask
    exact hcurrent
  case failSaving error task pc => exact saveOp_known hpc pc
  case failPushing error task pc =>
    refine pushCmd_known (fun status hstatus => ?_) pc _
    obtain rfl := Option.some.inj hstatus
    exact hpc
  case failPublishing error failed pc =>
    have hresult : KnownItem P (.error error) := True.intro
    exact publishCmd_known hresult hpc pc _
  all_goals exact True.intro

/-- **What a cancel brings.** -/
theorem CancelCall.next_brings {pc : CancelPc} (hpc : pc.Known P) (call : CancelCall)
    (inp : Input) : (call.next h inp pc).Known P := by
  have hupdate : ∀ task : Task, P task.status → (statusUpdate task).Known P := by
    intro task htask status hstatus
    obtain rfl := Option.some.inj hstatus
    exact htask
  cases pc <;> simp only [CancelCall.next]
  case load => split <;> trivial
  case saving c event task pc => exact saveOp_known hpc.2.1 pc
  case pushing c event pc => exact pushCmd_known hpc.2 pc _
  case publishing c event pc =>
    split
    · trivial
    · have hresult : KnownItem P (.ok event) := hpc.2
      refine publishCmd_known hresult (fun task htask => ?_) pc _
      obtain rfl := Option.some.inj htask
      exact hpc.1.current
  case failPublishing c error pc =>
    split
    · trivial
    · have hresult : KnownItem P (.error error) := True.intro
      have hnone : ∀ task, (none : Option Task) = some task → P task.status := by simp
      exact publishCmd_known hresult hnone pc _
  case failPushing c error task pc => exact pushCmd_known (hupdate task hpc.2) pc _
  case finishing c => split <;> trivial
  case finalPushing c task pc => exact pushCmd_known (hupdate task hpc.2) pc _
  case releasing c task pc => exact releaseCmd_known hpc.2 pc _
  case dropping task result pc => exact releaseCmd_known hpc pc _
  all_goals exact True.intro

/-- **What a send brings.** -/
theorem SendCall.next_brings {pc : SendPc} (hpc : pc.Known P) (call : SendCall) (inp : Input) :
    (call.next h inp pc).Known P := by
  cases pc <;> simp only [SendCall.next]
  case load => split <;> trivial
  case create prepared => exact hpc
  case savePush prepared => split <;> trivial
  case start prepared => exact hpc
  case following taskId sub lastEvent => exact pollCmd_known sub _
  case streaming sub => exact pollCmd_known sub _
  all_goals exact True.intro

/-- A subscription brings nothing. -/
theorem SubscribeCall.next_brings (pc : SubscribePc) (call : SubscribeCall) :
    (call.next h pc).Known P := by
  cases pc <;> simp only [SubscribeCall.next]
  case register => split <;> trivial
  case streaming opened sub => exact pollCmd_known sub _
  all_goals exact True.intro

/-- What any thread brings. -/
theorem Thread.next_brings {t : Thread} (ht : t.Known P) (inp : Input) :
    (t.next h inp).Known P := by
  cases t with
  | send call pc => exact call.next_brings ht inp
  | drive d => exact Driver.next_brings ht inp
  | cancel call pc => exact call.next_brings ht inp
  | subscribe call pc => exact call.next_brings pc
  | dropped => trivial

/-- A stream that is dropped brings nothing. -/
theorem Thread.drop_brings (t : Thread) : t.drop.Known P := by
  cases t with
  | send call pc => cases pc <;> trivial
  | subscribe call pc => cases pc <;> trivial
  | _ => trivial

/-! ## what a thread is answered -/

/-- An operation's answer is read from what is known, or reports its write. -/
theorem Op.run_answers {β : Type} {op : Op β} {b : β} (hP : ∀ status, P status → P' status)
    (hk : s.Known P) (hw : ∀ task, op.writes s = some task → P' task.status)
    (hr : op.run s = some (s₁, b)) : op.Answers P' b := by
  cases op with
  | get id =>
      obtain ⟨_, rfl⟩ := Prod.mk.inj (Option.some.inj hr)
      exact fun task htask => hP _ (hk.store id task htask)
  | create task =>
      obtain ⟨_, rfl⟩ := Prod.mk.inj (Option.some.inj hr)
      intro version hb
      obtain ⟨_, hc⟩ | ⟨hfree, _⟩ := create_cases s.taskStore task
      · rw [hc] at hb
        contradiction
      · exact hw task (by simp [writes, hfree])
  | update task =>
      obtain ⟨_, rfl⟩ := Prod.mk.inj (Option.some.inj hr)
      exact fun version hb => hw task (by simp [writes, hb])
  | beginCancel id now =>
      obtain ⟨_, rfl⟩ := Prod.mk.inj (Option.some.inj hr)
      exact fun task hb => hw task (by simp [writes, hb])
  | attached w =>
      intro value hvalue
      simp only [run] at hr
      split at hr
      · next full hfull =>
          obtain ⟨_, rfl⟩ := Prod.mk.inj (Option.some.inj hr)
          obtain rfl := Option.some.inj hvalue
          exact hP _ (hk.oneshots full (List.mem_of_getElem? hfull))
      · obtain ⟨_, rfl⟩ := Prod.mk.inj (Option.some.inj hr)
        contradiction
  | await w =>
      simp only [run] at hr
      split at hr
      · next full hfull =>
          obtain ⟨_, rfl⟩ := Prod.mk.inj (Option.some.inj hr)
          exact hP _ (hk.oneshots full (List.mem_of_getElem? hfull))
      · contradiction
  | readState x =>
      obtain ⟨active, hactive, he⟩ := Option.map_eq_some_iff.mp hr
      obtain ⟨_, rfl⟩ := Prod.mk.inj he
      exact hP _ (hk.executions active (List.mem_of_getElem? hactive)).snapshot
  | recv receiver =>
      intro event hevent
      subst hevent
      simp only [run] at hr
      split at hr
      · contradiction
      · next active hactive =>
          have hknown := hk.executions active (List.mem_of_getElem? hactive)
          split at hr
          · cases hr
          · split at hr
            · next event' hsent =>
                cases hr
                exact KnownItem.mono hP (hknown.sent event (List.mem_of_getElem? hsent))
            · split at hr <;> cases hr
  | _ => exact True.intro

/-! ## a thread stays known -/

/-- After a save its thread knows the task, if the save was accepted. -/
theorem saveOp_keeps {task : Task} {pc : SavePc} {k : Except A2AError TaskVersion → Thread}
    (hk : ∀ answer, (∀ version, answer = .ok version → P task.status) → (k answer).Known P) :
    ((saveOp task pc).andThen k).Keeps P := by
  cases pc with
  | update => exact Cmd.ends_andThen hk
  | create => exact Cmd.ends_andThen hk

/-! ### streams -/

/-- A stream that resumes starts from a known snapshot. -/
theorem Subscription.known_ofResubscription {value : Resubscription}
    (hk : P value.snapshotTask.status) : (Subscription.ofResubscription value).Known P where
  snapshot task htask := by
    obtain rfl := Option.some.inj htask
    exact hk
  yielded _ hitem := absurd hitem List.not_mem_nil

/-- One that does not has none. -/
theorem Subscription.known_ofReceiver (receiver : Receiver) :
    (Subscription.ofReceiver receiver).Known P where
  snapshot _ htask := by contradiction
  yielded _ hitem := absurd hitem List.not_mem_nil

/-- A stream that yields one item more. -/
theorem Subscription.Known.yield {sub sub' : Subscription} {item : Item} (hk : sub.Known P)
    (hitem : KnownItem P item) (hsnapshot : sub'.snapshotTask = none ∨
      sub'.snapshotTask = sub.snapshotTask) (hy : sub'.yielded = sub.yielded ++ [item]) :
    sub'.Known P where
  snapshot task htask := by
    obtain hs | hs := hsnapshot
    · rw [hs] at htask
      contradiction
    · exact hk.snapshot task (hs ▸ htask)
  yielded item' hitem' := by
    rw [hy] at hitem'
    obtain hitem' | hitem' := List.mem_append.mp hitem'
    · exact hk.yielded item' hitem'
    · obtain rfl := List.mem_singleton.mp hitem'
      exact hitem

/-- What a poll takes from a channel or a snapshot is known. -/
theorem pollCmd_keeps {sub : Subscription} (hsub : sub.Known P)
    {k : Subscription → Option (Option Item) → Thread}
    (hk : ∀ sub' o, sub'.Known P → (∀ item, o = some (some item) → KnownItem P item) →
      (k sub' o).Known P) : (pollCmd sub k).Keeps P := by
  have hover : (k sub (some none)).Known P := hk sub _ hsub (by simp)
  simp only [pollCmd]
  split
  · exact Cmd.ends_andThen fun _ _ => hover
  · split
    · next task hsnapshot =>
        have hitem : KnownItem P (.ok (.task task)) := by
          intro status hstatus
          obtain rfl := Option.some.inj hstatus
          exact hsub.snapshot task hsnapshot
        refine Cmd.ends_andThen fun _ _ => hk _ _ (hsub.yield hitem (.inl rfl) rfl) ?_
        intro item h
        obtain rfl := Option.some.inj (Option.some.inj h)
        exact hitem
    · exact Cmd.ends_andThen fun _ _ => hover
    · next receiver hsnapshot _ =>
        refine Cmd.ends_andThen fun answer hanswer => ?_
        cases answer with
        | lagged =>
            have hlag : KnownItem P (.error Subscription.lagError) := True.intro
            refine hk _ _ (hsub.yield hlag (.inr rfl) rfl) ?_
            intro item h
            obtain rfl := Option.some.inj (Option.some.inj h)
            exact hlag
        | closed => exact hover
        | event event =>
            have hitem : KnownItem P event.result := hanswer event rfl
            by_cases hle : event.sequence ≤ sub.minSequence
            · have hreceive : (sub.receive { receiver with next := receiver.next + 1 } event).Known P := by
                rw [Subscription.receive, if_pos hle]
                exact ⟨hsub.snapshot, hsub.yielded⟩
              refine hk _ _ hreceive ?_
              simp [hle]
            · have hreceive : (sub.receive { receiver with next := receiver.next + 1 } event).Known P := by
                rw [Subscription.receive, if_neg hle]
                exact hsub.yield hitem (.inr rfl) rfl
              refine hk _ _ hreceive ?_
              intro item h
              rw [if_neg hle] at h
              obtain rfl := Option.some.inj (Option.some.inj h)
              exact hitem

/-! ### drivers -/

/-- A message has no status. -/
theorem known_of_isMessage {event : StreamResponse} (h : event.isMessage = true) :
    event.Known P := by
  intro status hstatus
  cases event with
  | message message => contradiction
  | _ => simp [StreamResponse.isMessage] at h

/-- An event delivered once its task is stored. -/
theorem known_of_saved {event : StreamResponse} {task : Task}
    (hstatus : ∀ status, event.status = some status → task.status = status)
    (hk : P task.status) : event.Known P := fun status h => hstatus status h ▸ hk

/-- A driver that goes on knows its task. -/
theorem Driver.goto_known {d : Driver} {pc : DrivePc} (hcurrent : P d.current.status)
    (hpc : pc.Known P) : (d.goto pc).Known P := ⟨hcurrent, hpc⟩

/-- One that fails has the task it failed on. -/
theorem Driver.fail_known {d : Driver} (hcurrent : P d.current.status) (inp : Input)
    (error : A2AError) : (d.fail inp error).Known P := by
  simp only [Driver.fail]
  split
  · exact goto_known hcurrent fun _ htask => by contradiction
  · exact goto_known hcurrent (failedTask_stamped inp.now inp.messageId d.current error)

/-- An event that is accepted is stamped with its task before it is stored. -/
theorem Driver.accept_known {d : Driver} (hcurrent : P d.current.status) (inp : Input)
    (event : StreamResponse) : (d.accept inp event).Known P := by
  simp only [Driver.accept]
  split
  · exact fail_known hcurrent inp _
  · split
    · next hmessage =>
        refine goto_known hcurrent (known_of_isMessage ?_)
        rw [isMessage_backfill]
        exact hmessage
    · split
      · next task hfold =>
          exact goto_known hcurrent ⟨Task.backfill_stamped inp.now task, status_foldEvent hfold⟩
      · apply fail_known
        exact hcurrent

/-- **A driver goes on with known statuses**, one case for each place. -/
theorem Driver.next_keeps {d : Driver} (hd : (Thread.drive d).Known P) (inp : Input) :
    (d.next inp).Keeps P := by
  obtain ⟨hcurrent, hpc⟩ := hd
  cases hat : d.pc <;> rw [hat] at hpc <;> simp only [Driver.next, hat]
  case start => exact Cmd.ends_andThen fun state hstate => ⟨hstate, True.intro⟩
  case poll =>
    split
    · exact Cmd.ends_andThen fun _ _ => goto_known hcurrent True.intro
    · refine Cmd.ends_andThen fun state _ => ?_
      split
      · exact goto_known hcurrent True.intro
      · split
        · apply accept_known
          exact hcurrent
        · apply fail_known
          exact hcurrent
  case saving event task pc =>
    refine saveOp_keeps fun answer hanswer => ?_
    cases hstep : saveStep pc task answer with
    | inl pc => exact goto_known hcurrent hpc
    | inr result =>
        cases result with
        | error error => exact fail_known hcurrent inp _
        | ok task' =>
            obtain ⟨rfl, version, hversion⟩ := saveStep_done hstep
            have hstored : P task'.status := hanswer version hversion
            exact goto_known hstored (known_of_saved hpc.2 hstored)
  case pushing event pc =>
    refine pushCmd_ends fun o => ?_
    obtain pc | _ | _ := o
    · exact goto_known hcurrent hpc
    · exact fail_known hcurrent inp _
    · exact goto_known hcurrent hpc
  case publishing event pc =>
    refine publishCmd_ends fun o => ?_
    cases o with
    | some pc => exact goto_known hcurrent hpc
    | none => exact goto_known hcurrent (by split <;> exact True.intro)
  case failSaving error task pc =>
    refine saveOp_keeps fun answer hanswer => ?_
    cases hstep : saveStep pc task answer with
    | inl pc => exact goto_known hcurrent hpc
    | inr result =>
        cases result with
        | error error => exact goto_known hcurrent fun _ htask => by contradiction
        | ok task' =>
            obtain ⟨rfl, version, hversion⟩ := saveStep_done hstep
            have hstored : P task'.status := hanswer version hversion
            exact goto_known hcurrent hstored
  case failPushing error task pc =>
    refine pushCmd_ends fun o => ?_
    cases o with
    | inl pc => exact goto_known hcurrent hpc
    | inr _ =>
        refine goto_known hcurrent fun task' htask => ?_
        obtain rfl := Option.some.inj htask
        exact hpc
  case failPublishing error failed pc =>
    refine publishCmd_ends fun o => ?_
    cases o with
    | some pc => exact goto_known hcurrent hpc
    | none => exact goto_known hcurrent True.intro
  case finishing => exact Cmd.ends_andThen fun _ _ => goto_known hcurrent True.intro
  case done => exact Cmd.ends_halt

/-! ### cancels -/

/-- Nothing new is told once the loop of a cancel is over. -/
theorem CancelCall.afterLoop_known {c : Cancelling} (hc : c.Known P) : (afterLoop c).Known P := by
  simp only [afterLoop]
  split <;> exact hc

/-- The loop goes on with what was known. -/
theorem CancelCall.afterEvent_known {c : Cancelling} (hc : c.Known P) (event : StreamResponse) :
    (afterEvent c event).Known P := by
  simp only [afterEvent]
  split
  · have hpushed : ({ c with terminalPushed := true } : Cancelling).Known P := ⟨hc.task, hc.current⟩
    exact afterLoop_known hpushed
  · exact hc

/-- An event of a cancel is stamped as one of a driver is. -/
theorem CancelCall.accept_known {c : Cancelling} (hc : c.Known P) (inp : Input)
    (event : StreamResponse) : (accept c inp event).Known P := by
  simp only [accept]
  split
  · next hmessage => exact ⟨hc, known_of_isMessage hmessage⟩
  · split
    · next task hfold =>
        exact ⟨hc, Task.backfill_stamped inp.now task, status_foldEvent hfold⟩
    · exact hc.task

/-- **A cancel goes on with known statuses.** -/
theorem CancelCall.next_keeps {pc : CancelPc} (hpc : pc.Known P) (call : CancelCall)
    (inp : Input) : (call.next h inp pc).Keeps P := by
  cases pc <;> simp only [CancelCall.next]
  case load =>
    split
    · exact Cmd.ends_andThen fun _ _ => True.intro
    · refine Cmd.ends_andThen fun answer _ => ?_
      cases answer with
      | none => exact True.intro
      | some task => dsimp only; split_ifs <;> exact True.intro
  case beginCancel =>
    refine Cmd.ends_andThen fun answer hanswer => ?_
    cases answer with
    | ok task => exact hanswer task rfl
    | error error => dsimp only; split <;> exact True.intro
  case raced error =>
    refine Cmd.ends_andThen fun answer _ => ?_
    cases answer with
    | none => exact True.intro
    | some task => dsimp only; split <;> exact True.intro
  case getActive task => exact Cmd.ends_andThen fun _ _ => ⟨hpc, hpc⟩
  case polling c =>
    refine Cmd.ends_andThen fun _ _ => ?_
    have hrest : ∀ rest, ({ c with stream := rest } : Cancelling).Known P :=
      fun rest => ⟨hpc.task, hpc.current⟩
    split
    · exact afterLoop_known hpc
    · exact accept_known (hrest _) inp _
    · split <;> exact hrest _
  case saving c event task pc =>
    refine saveOp_keeps fun answer hanswer => ?_
    cases hstep : saveStep pc task answer with
    | inl pc => exact hpc
    | inr result =>
        cases result with
        | error error => exact hpc.1.task
        | ok task' =>
            obtain ⟨rfl, version, hversion⟩ := saveStep_done hstep
            have hstored : P task'.status := hanswer version hversion
            exact ⟨⟨hpc.1.task, hstored⟩, known_of_saved hpc.2.2 hstored⟩
  case pushing c event pc =>
    refine pushCmd_ends fun o => ?_
    obtain pc | _ | _ := o
    · exact hpc
    · exact hpc.1.task
    · dsimp only
      split
      · exact hpc
      · exact afterEvent_known hpc.1 event
  case publishing c event pc =>
    split
    · exact Cmd.ends_andThen fun _ _ => afterEvent_known hpc.1 event
    · refine publishCmd_ends fun o => ?_
      cases o with
      | some pc => exact hpc
      | none => exact afterEvent_known hpc.1 event
  case failPublishing c error pc =>
    split
    · exact Cmd.ends_andThen fun _ _ => hpc
    · refine publishCmd_ends fun o => ?_
      cases o <;> exact hpc
  case failLoad c error =>
    refine Cmd.ends_andThen fun answer hanswer => ?_
    cases answer with
    | none => exact hpc.task
    | some task => exact ⟨hpc, hanswer task rfl⟩
  case failPushing c error task pc =>
    refine pushCmd_ends fun o => ?_
    cases o with
    | inl pc => exact hpc
    | inr _ => exact hpc.1.task
  case finishing c =>
    split
    · exact Cmd.ends_andThen fun _ _ => hpc
    · exact Cmd.ends_andThen fun _ _ => hpc
  case finalLoad c =>
    refine Cmd.ends_andThen fun answer hanswer => ?_
    cases answer with
    | none => exact hpc.task
    | some task => dsimp only; split <;> exact ⟨hpc, hanswer task rfl⟩
  case finalPushing c task pc =>
    refine pushCmd_ends fun o => ?_
    obtain pc | _ | _ := o
    · exact hpc
    · exact hpc.1.task
    · exact hpc
  case releasing c task pc =>
    refine releaseCmd_ends fun o => ?_
    cases o with
    | some pc => exact hpc
    | none => exact hpc.1.task
  case dropping task result pc =>
    refine releaseCmd_ends fun o => ?_
    cases o with
    | some pc => exact hpc
    | none => exact True.intro
  case returned => exact Cmd.ends_halt

/-! ### sends and subscriptions -/

/-- **A send goes on with known statuses.** -/
theorem SendCall.next_keeps {pc : SendPc} (hpc : pc.Known P) (call : SendCall) (inp : Input) :
    (call.next h inp pc).Keeps P := by
  cases pc <;> simp only [SendCall.next]
  case load =>
    split
    · exact Cmd.ends_andThen fun _ _ => True.intro
    · refine Cmd.ends_andThen fun stored hstored => ?_
      split
      · exact True.intro
      · next prepared hprepare =>
          obtain ⟨task, hs, _, rfl⟩ | ⟨_, _, rfl⟩ := prepare_ok hprepare
          · exact hstored task hs
          · have hstamped : (newTask inp.toFresh (requestTaskId inp.toFresh call.req)
                call.req.message).Stamped := by simp [newTask, Task.Stamped]
            exact hstamped
  case create prepared =>
    refine Cmd.ends_andThen fun answer hanswer => ?_
    cases answer with
    | ok version => exact hanswer version rfl
    | error error => exact True.intro
  case savePush prepared =>
    split
    · exact Cmd.ends_andThen fun _ _ => hpc
    · refine Cmd.ends_andThen fun answer _ => ?_
      cases answer with
      | ok config => exact hpc
      | error error => exact True.intro
  case start prepared =>
    refine Cmd.ends_andThen fun answer _ => ?_
    cases answer with
    | ok x => exact hpc
    | error error => exact True.intro
  case attach prepared x =>
    intro receiver _
    have hsub : (Subscription.ofReceiver receiver).Known P := Subscription.known_ofReceiver receiver
    constructor
    · dsimp only
      split <;> exact hsub
    · intro t ht
      obtain rfl := List.mem_singleton.mp ht
      exact ⟨hpc, True.intro⟩
  case following taskId sub lastEvent =>
    refine pollCmd_keeps hpc fun sub' o hsub _ => ?_
    obtain _ | _ | item := o
    · exact hsub
    · simp only [finishSend]
      split <;> exact True.intro
    · simp only [onItem]
      split
      · exact True.intro
      · split
        · exact True.intro
        · split
          · exact True.intro
          · exact hsub
  case answering taskId => exact Cmd.ends_andThen fun _ _ => True.intro
  case streaming sub =>
    refine pollCmd_keeps hpc fun sub' o hsub _ => ?_
    split <;> exact hsub
  case returned => exact Cmd.ends_halt
  case ended => exact Cmd.ends_halt

/-- **A subscription goes on with known statuses**, read from the store or handed to it. -/
theorem SubscribeCall.next_keeps {pc : SubscribePc} (hpc : pc.Known P) (call : SubscribeCall) :
    (call.next h pc).Keeps P := by
  have hattach : ∀ opened (value : Resubscription), (∀ task, opened = some task → P task.status) →
      P value.snapshotTask.status →
      (Thread.subscribe call (.streaming opened (.ofResubscription value))).Known P :=
    fun opened value hopened hvalue => ⟨hopened, Subscription.known_ofResubscription hvalue⟩
  have hnone : ∀ task, (none : Option Task) = some task → P task.status := by simp
  cases pc <;> simp only [SubscribeCall.next]
  case register =>
    split
    · exact Cmd.ends_andThen fun _ _ => True.intro
    · exact Cmd.ends_andThen fun _ _ => True.intro
    · refine Cmd.ends_andThen fun answer _ => ?_
      cases answer <;> exact True.intro
  case readState receiver =>
    exact Cmd.ends_andThen fun state hstate => hattach none _ hnone hstate
  case attached w =>
    refine Cmd.ends_andThen fun answer hanswer => ?_
    cases answer with
    | none => exact True.intro
    | some value => exact hattach none value hnone (hanswer value rfl)
  case load w =>
    refine Cmd.ends_andThen fun answer hanswer => ?_
    cases answer with
    | none => exact True.intro
    | some task => exact hanswer task rfl
  case loaded w task =>
    refine Cmd.ends_andThen fun answer hanswer => ?_
    cases answer with
    | none =>
        dsimp only
        split
        · exact True.intro
        · exact hpc
    | some value => exact hattach none value hnone (hanswer value rfl)
  case refusing w error => exact Cmd.ends_andThen fun _ _ => True.intro
  case opening w task => exact Cmd.ends_andThen fun _ _ => hpc
  case waiting w opened =>
    refine Cmd.ends_andThen fun value hvalue => hattach (some opened) value ?_ hvalue
    intro task htask
    obtain rfl := Option.some.inj htask
    exact hpc
  case streaming opened sub =>
    refine pollCmd_keeps hpc.2 fun sub' o hsub _ => ?_
    split <;> exact ⟨hpc.1, hsub⟩
  case refused => exact Cmd.ends_halt
  case ended => exact Cmd.ends_halt

/-- Any thread does. -/
theorem Thread.next_keeps {t : Thread} (ht : t.Known P) (inp : Input) :
    (t.next h inp).Keeps P := by
  cases t with
  | send call pc => exact call.next_keeps ht inp
  | drive d => exact Driver.next_keeps ht inp
  | cancel call pc => exact call.next_keeps ht inp
  | subscribe call pc => exact call.next_keeps ht
  | dropped => exact Cmd.ends_halt

/-- So does a stream that is dropped. -/
theorem Thread.drop_keeps (t : Thread) : t.drop.Keeps P := by
  unfold Thread.drop
  split
  · exact Cmd.ends_andThen fun _ _ => True.intro
  · exact Cmd.ends_andThen fun _ _ => True.intro
  · exact Cmd.ends_andThen fun _ _ => True.intro
  · exact Cmd.ends_andThen fun _ _ => True.intro
  · exact Cmd.ends_halt

/-! ## the tasks a run stored -/

/-- The tasks the steps of a run stored, oldest first. -/
def persisted (h : Handler) (tr : List (Server × Action)) : List Task :=
  tr.filterMap fun p => p.1.writes h p.2

/-- Some step stored a task with this status. -/
def Persisted (h : Handler) (tr : List (Server × Action)) (status : TaskStatus) : Prop :=
  ∃ task ∈ persisted h tr, task.status = status

/-- A step adds the task it writes. -/
theorem mem_persisted_snoc {tr : List (Server × Action)} {a : Action} {task : Task} :
    task ∈ persisted h (tr ++ [(s, a)]) ↔ task ∈ persisted h tr ∨ s.writes h a = some task := by
  simp [persisted, List.filterMap_append, List.filterMap_cons]
  cases s.writes h a <;> simp [eq_comm]

/-- What was stored stays stored in the history. -/
theorem Persisted.mono {tr : List (Server × Action)} {a : Action} {status : TaskStatus}
    (hp : Persisted h tr status) : Persisted h (tr ++ [(s, a)]) status := by
  obtain ⟨task, hmem, hstatus⟩ := hp
  exact ⟨task, mem_persisted_snoc.mpr (.inl hmem), hstatus⟩

/-- The shared state after an operation. -/
theorem Op.Effects.known {β : Type} {op : Op β} (he : op.Effects s s₁) (hop : op.Known P)
    (hk : s.Known P) (hw : ∀ task, op.writes s = some task → P task.status) : s₁.Known P where
  store id task hget := by
    rw [he.taskStore] at hget
    obtain ⟨_, hsame⟩ | ⟨x, hx, hwrote, _⟩ := op.taskStoreAfter_cases s
    · rw [hsame] at hget
      exact hk.store id task hget
    · obtain ⟨_, rfl⟩ | ⟨_, hold⟩ := hwrote.of_get hget
      · exact hw task hx
      · exact hk.store id task hold
  executions := by
    rw [he.executions]
    exact Op.executions_known hop hk
  oneshots := by
    rw [he.oneshots]
    exact Op.oneshots_known hop hk
  webhooks := by
    rw [he.webhooks]
    exact Op.webhooks_known hop hk

/-- The threads are no part of it. -/
theorem Server.Known.withThreads (hk : s.Known P) (threads : List Thread) :
    ({ s with threads := threads } : Server).Known P :=
  ⟨hk.store, hk.executions, hk.oneshots, hk.webhooks⟩

/-- What an action brings, whichever thread it runs. -/
theorem Server.runs.brings {a : Action} {i : Nat} {t : Thread} {cmd : Cmd}
    (hr : s.runs h a i t cmd) (ht : t.Known P) : cmd.Known P := by
  obtain ⟨_, ⟨inp, _, rfl⟩ | ⟨_, rfl⟩⟩ := hr
  · exact Thread.next_brings ht inp
  · exact t.drop_brings

/-- And what it goes on with. -/
theorem Server.runs.keeps {a : Action} {i : Nat} {t : Thread} {cmd : Cmd}
    (hr : s.runs h a i t cmd) (ht : t.Known P) : cmd.Keeps P := by
  obtain ⟨_, ⟨inp, _, rfl⟩ | ⟨_, rfl⟩⟩ := hr
  · exact Thread.next_keeps ht inp
  · exact t.drop_keeps

/-- All that is stored is stamped, and every status the server holds was
stored. -/
structure Stored (h : Handler) (tr : List (Server × Action)) (s : Server) : Prop where
  stamped : ∀ task ∈ persisted h tr, task.Stamped
  shared : s.Known (Persisted h tr)
  threads : ∀ t ∈ s.threads, t.Known (Persisted h tr)

/-- **A step keeps it**: what it writes is stamped, and what it shows was stored. -/
theorem Stored.step {tr : List (Server × Action)} {a : Action} (hs : Stored h tr s)
    (hstep : Server.step h s a = some s') : Stored h (tr ++ [(s, a)]) s' := by
  have hmono : ∀ status, Persisted h tr status → Persisted h (tr ++ [(s, a)]) status :=
    fun _ => Persisted.mono
  obtain ⟨request, rfl, rfl⟩ | ⟨i, t, cmd, s₁, b, hruns, hran⟩ := step_cases hstep
  · refine ⟨fun task htask => ?_, (hs.shared.mono hmono).withThreads _, fun t ht => ?_⟩
    · obtain htask | hw := mem_persisted_snoc.mp htask
      · exact hs.stamped task htask
      · contradiction
    · obtain ht | ht := List.mem_append.mp ht
      · exact (hs.threads t ht).mono hmono
      · obtain rfl := List.mem_singleton.mp ht
        cases request <;> exact True.intro
  · have ht := hs.threads t (List.mem_of_getElem? hruns.1)
    -- what the step stores is what the operation stores
    have hw : ∀ task, cmd.op.writes s = some task → Persisted h (tr ++ [(s, a)]) task.status := by
      intro task htask
      rw [hruns.writes] at htask
      exact ⟨task, mem_persisted_snoc.mpr (.inr htask), rfl⟩
    have hbrings : cmd.op.Known (Persisted h (tr ++ [(s, a)])) := hruns.brings (ht.mono hmono)
    have hkeeps := hruns.keeps (ht.mono hmono) b (Op.run_answers hmono hs.shared hw hran.run)
    have hshared : s₁.Known (Persisted h (tr ++ [(s, a)])) :=
      hran.effects.known hbrings (hs.shared.mono hmono) hw
    refine ⟨fun task htask => ?_, ?_, fun t' ht' => ?_⟩
    · obtain htask | hw := mem_persisted_snoc.mp htask
      · exact hs.stamped task htask
      · exact Op.writes_stamped hbrings (hruns.writes.trans hw)
    · rw [hran.eq]
      exact hshared.withThreads _
    · obtain rfl | ht' | ht' := hran.mem_threads ht'
      · exact hkeeps.1
      · exact (hs.threads t' ht').mono hmono
      · exact hkeeps.2 t' ht'

/-- An empty server shows nothing. -/
theorem stored_new (h : Handler) (limit : Option Nat)
    (pushConfigStore : Option InMemoryPushConfigStore) (pushSender : Bool) :
    Stored h [] (.new (.new limit) pushConfigStore pushSender) where
  stamped _ htask := absurd htask List.not_mem_nil
  shared := ⟨fun id task hget => by simp [Server.new] at hget, fun _ ha => absurd ha List.not_mem_nil,
    fun _ ha => absurd ha List.not_mem_nil, fun _ ha => absurd ha List.not_mem_nil⟩
  threads _ ht := absurd ht List.not_mem_nil

/-! ## the task an event was stored with -/

/-- The executor's event a thread is about to push or to publish. -/
def Thread.delivers : Thread → Option StreamResponse
  | .drive ⟨_, _, _, _, _, _, _, .pushing event _⟩ => some event
  | .drive ⟨_, _, _, _, _, _, _, .publishing event _⟩ => some event
  | .cancel _ (.pushing _ event _) => some event
  | .cancel _ (.publishing _ event _) => some event
  | _ => none

/-- The task an action stores, if it is the `i`-th thread's. -/
def Server.writesBy (h : Handler) (s : Server) (i : Nat) : Action → Option Task
  | .step j inp => if j = i then s.writes h (.step j inp) else none
  | _ => none

/-- The tasks a thread stored in a run, oldest first. -/
def persistedBy (h : Handler) (i : Nat) (tr : List (Server × Action)) : List Task :=
  tr.filterMap fun p => p.1.writesBy h i p.2

/-- A command whose thread goes on to deliver what it delivered before, or
an event whose task it stores. -/
def Cmd.Delivers (cmd : Cmd) (s : Server) (old : Option StreamResponse) : Prop :=
  cmd.Post s fun _ t' _ => ∀ event status, t'.delivers = some event → event.status = some status →
    (old = some event ∧ cmd.op.writes s = none) ∨
      ∃ task, cmd.op.writes s = some task ∧ task.status = status

/-- The thread delivers no status. -/
def Thread.Quiet (t : Thread) : Prop :=
  ∀ event, t.delivers = some event → event.status = none

/-- A thread that delivers nothing is quiet. -/
theorem Thread.Quiet.of_none {t : Thread} (h : t.delivers = none) : t.Quiet := by
  intro event hevent
  rw [h] at hevent
  contradiction

/-- A command that leads to a quiet thread delivers nothing. -/
theorem Cmd.delivers_of_quiet {cmd : Cmd} {old : Option StreamResponse}
    (hq : cmd.Post s fun _ t' _ => t'.Quiet) : cmd.Delivers s old := by
  intro s₁ b hr event status hevent hstatus
  rw [hq s₁ b hr event hevent] at hstatus
  contradiction

/-- One that writes nothing may go on delivering. -/
theorem Cmd.delivers_of_same {cmd : Cmd} {old : StreamResponse} (hw : cmd.op.writes s = none)
    (hq : cmd.Post s fun _ t' _ => t'.Quiet ∨ t'.delivers = some old) :
    cmd.Delivers s (some old) := by
  intro s₁ b hr event status hevent hstatus
  obtain hquiet | hsame := hq s₁ b hr
  · rw [hquiet event hevent] at hstatus
    contradiction
  · rw [hsame] at hevent
    exact .inl ⟨hevent, hw⟩

/-- A save that is accepted writes its task. -/
theorem saveOp_stores {task : Task} {pc : SavePc} {version : TaskVersion}
    (hr : (saveOp task pc).run s = some (s₁, .ok version)) :
    (saveOp task pc).writes s = some task := by
  cases pc with
  | update =>
      obtain ⟨_, hb⟩ := Prod.mk.inj (Option.some.inj hr)
      simp [saveOp, Op.writes, hb]
  | create =>
      obtain ⟨_, hb⟩ := Prod.mk.inj (Option.some.inj hr)
      obtain ⟨_, hc⟩ | ⟨hfree, _⟩ := create_cases s.taskStore task
      · rw [hc] at hb
        contradiction
      · simp [saveOp, Op.writes, hfree]

/-- A save of an event's task. -/
theorem saveOp_delivers (event : StreamResponse) {task : Task} {pc : SavePc}
    {old : Option StreamResponse} {k : Except A2AError TaskVersion → Thread}
    (hevent : ∀ status, event.status = some status → task.status = status)
    (hk : ∀ version, (k (.ok version)).delivers = some event)
    (herror : ∀ error, (k (.error error)).delivers = none) :
    ((saveOp task pc).andThen k).Delivers s old := by
  intro s₁ b hr event' status hevent' hstatus
  cases b with
  | error error =>
      have hnone : (k (.error error)).delivers = some event' := hevent'
      rw [herror error] at hnone
      contradiction
  | ok version =>
      have hsome : (k (.ok version)).delivers = some event' := hevent'
      rw [hk version] at hsome
      obtain rfl := Option.some.inj hsome
      exact .inr ⟨task, saveOp_stores hr, hevent status hstatus⟩

/-- A command none of whose threads delivers a status. -/
theorem delivers_andThen {β : Type} {op : Op β} {k : β → Thread} {old : Option StreamResponse}
    (hk : ∀ b, (k b).Quiet) : (op.andThen k).Delivers s old :=
  Cmd.delivers_of_quiet (Cmd.post_of_forall fun _ b => hk b)

/-- A failure is first stored. -/
theorem Driver.fail_delivers (d : Driver) (inp : Input) (error : A2AError) :
    (d.fail inp error).delivers = none := by
  simp only [Driver.fail]
  split <;> rfl

/-- So is an event that is accepted. -/
theorem Driver.accept_quiet (d : Driver) (inp : Input) (event : StreamResponse) :
    (d.accept inp event).Quiet := by
  simp only [Driver.accept]
  split
  · exact .of_none (fail_delivers d inp _)
  · split
    · next hmessage =>
        intro event' hevent'
        obtain rfl := Option.some.inj hevent'
        cases event with
        | message message => rfl
        | _ => contradiction
    · split
      · exact .of_none rfl
      · exact .of_none (fail_delivers _ inp _)

/-- **A driver delivers what it has just stored**, one case for each place. -/
theorem Driver.next_delivers {d : Driver} (hd : (Thread.drive d).Known P) (inp : Input) :
    (d.next inp).Delivers s (Thread.drive d).delivers := by
  obtain ⟨taskId, x, ctx, current, stream, answered, tracked, pc⟩ := d
  obtain ⟨hcurrent, hpc⟩ := hd
  cases pc <;> simp only [Driver.next]
  case start => exact delivers_andThen fun _ => .of_none rfl
  case poll =>
    split
    · exact delivers_andThen fun _ => .of_none rfl
    · refine delivers_andThen fun state => ?_
      split
      · exact .of_none rfl
      · split
        · exact accept_quiet _ inp _
        · exact .of_none (fail_delivers _ inp _)
  case saving event task pc =>
    refine saveOp_delivers event hpc.2 (fun version => rfl) fun error => ?_
    simp only [saveStep]
    split <;> rename_i hstep
    · rfl
    · split at hstep <;> cases hstep
    · exact fail_delivers _ inp _
  case pushing event pc =>
    refine Cmd.delivers_of_same (pushCmd_writes ..) (post_pushCmd fun _ o => ?_)
    obtain _ | _ | _ := o
    · exact .inr rfl
    · exact .inl (.of_none (fail_delivers _ inp _))
    · exact .inr rfl
  case publishing event pc =>
    refine Cmd.delivers_of_same (publishCmd_writes ..) (post_publishCmd fun _ o => ?_)
    cases o with
    | some pc => exact .inr rfl
    | none =>
        left
        dsimp only [goto]
        split <;> exact .of_none rfl
  case failSaving error task pc =>
    refine delivers_andThen fun answer => ?_
    split <;> exact .of_none rfl
  case failPushing error task pc =>
    refine Cmd.delivers_of_quiet (post_pushCmd fun _ o => ?_)
    cases o <;> exact .of_none rfl
  case failPublishing error failed pc =>
    refine Cmd.delivers_of_quiet (post_publishCmd fun _ o => ?_)
    cases o <;> exact .of_none rfl
  case finishing => exact delivers_andThen fun _ => .of_none rfl
  case done => exact Cmd.delivers_of_quiet Cmd.post_halt

theorem CancelCall.afterEvent_delivers (call : CancelCall) (c : Cancelling)
    (event : StreamResponse) : (Thread.cancel call (afterEvent c event)).delivers = none := by
  simp only [afterEvent, afterLoop]
  split
  · split <;> rfl
  · rfl

/-- A cancel stores an event first, too. -/
theorem CancelCall.accept_quiet (call : CancelCall) (c : Cancelling) (inp : Input)
    (event : StreamResponse) : (Thread.cancel call (accept c inp event)).Quiet := by
  simp only [accept]
  split
  · next hmessage =>
      intro event' hevent'
      obtain rfl := Option.some.inj hevent'
      cases event with
      | message message => rfl
      | _ => contradiction
  · split <;> exact .of_none rfl

/-- **A cancel delivers what it has just stored.** -/
theorem CancelCall.next_delivers {pc : CancelPc} (hpc : pc.Known P) (call : CancelCall)
    (inp : Input) : (call.next h inp pc).Delivers s (Thread.cancel call pc).delivers := by
  cases pc <;> simp only [CancelCall.next]
  case load =>
    split
    · exact delivers_andThen fun _ => .of_none rfl
    · refine delivers_andThen fun answer => ?_
      cases answer with
      | none => exact .of_none rfl
      | some task => dsimp only; split_ifs <;> exact .of_none rfl
  case beginCancel =>
    refine delivers_andThen fun answer => ?_
    cases answer with
    | ok task => exact .of_none rfl
    | error error => dsimp only; split <;> exact .of_none rfl
  case raced error =>
    refine delivers_andThen fun answer => ?_
    cases answer with
    | none => exact .of_none rfl
    | some task => dsimp only; split <;> exact .of_none rfl
  case getActive task => exact delivers_andThen fun _ => .of_none rfl
  case polling c =>
    refine delivers_andThen fun _ => ?_
    split
    · simp only [afterLoop]
      split <;> exact .of_none rfl
    · exact accept_quiet call _ inp _
    · split <;> exact .of_none rfl
  case saving c event task pc =>
    refine saveOp_delivers event hpc.2.2 (fun version => rfl) fun error => ?_
    simp only [saveStep]
    split <;> rename_i hstep
    · rfl
    · split at hstep <;> cases hstep
    · rfl
  case pushing c event pc =>
    refine Cmd.delivers_of_same (pushCmd_writes ..) (post_pushCmd fun _ o => ?_)
    obtain _ | _ | _ := o
    · exact .inr rfl
    · exact .inl (.of_none rfl)
    · dsimp only
      split
      · exact .inr rfl
      · exact .inl (.of_none (afterEvent_delivers call c event))
  case publishing c event pc =>
    split
    · exact delivers_andThen fun _ => .of_none (afterEvent_delivers call c event)
    · refine Cmd.delivers_of_same (publishCmd_writes ..) (post_publishCmd fun _ o => ?_)
      cases o with
      | some pc => exact .inr rfl
      | none => exact .inl (.of_none (afterEvent_delivers call c event))
  case failPublishing c error pc =>
    split
    · exact delivers_andThen fun _ => .of_none rfl
    · refine Cmd.delivers_of_quiet (post_publishCmd fun _ o => ?_)
      cases o <;> exact .of_none rfl
  case failLoad c error =>
    refine delivers_andThen fun answer => ?_
    cases answer <;> exact .of_none rfl
  case failPushing c error task pc =>
    refine Cmd.delivers_of_quiet (post_pushCmd fun _ o => ?_)
    cases o <;> exact .of_none rfl
  case finishing c =>
    split <;> exact delivers_andThen fun _ => .of_none rfl
  case finalLoad c =>
    refine delivers_andThen fun answer => ?_
    cases answer with
    | none => exact .of_none rfl
    | some task => dsimp only; split <;> exact .of_none rfl
  case finalPushing c task pc =>
    refine Cmd.delivers_of_quiet (post_pushCmd fun _ o => ?_)
    obtain _ | _ | _ := o <;> exact .of_none rfl
  case releasing c task pc =>
    refine Cmd.delivers_of_quiet (post_releaseCmd fun _ o => ?_)
    cases o <;> exact .of_none rfl
  case dropping task result pc =>
    refine Cmd.delivers_of_quiet (post_releaseCmd fun _ o => ?_)
    cases o <;> exact .of_none rfl
  case returned => exact Cmd.delivers_of_quiet Cmd.post_halt

/-- What a thread delivers after a step. -/
theorem Server.runs.delivers {a : Action} {i : Nat} {t : Thread} {cmd : Cmd}
    (hr : s.runs h a i t cmd) (ht : t.Known P) : cmd.Delivers s t.delivers := by
  have hquiet : (∀ t' new, t.Continues t' new → t'.delivers = none) → cmd.Delivers s t.delivers :=
    fun hq => Cmd.delivers_of_quiet fun s₁ b hrun => .of_none (hq _ _ (hr.continues s₁ b hrun))
  cases t with
  | drive d =>
      obtain ⟨_, ⟨inp, _, rfl⟩ | ⟨_, rfl⟩⟩ := hr
      · exact Driver.next_delivers ht inp
      · exact Cmd.delivers_of_quiet Cmd.post_halt
  | cancel call pc =>
      obtain ⟨_, ⟨inp, _, rfl⟩ | ⟨_, rfl⟩⟩ := hr
      · exact call.next_delivers ht inp
      · exact Cmd.delivers_of_quiet Cmd.post_halt
  | send call pc =>
      refine hquiet fun t' new hc => ?_
      cases t' <;> first | rfl | exact hc.elim
  | subscribe call pc =>
      refine hquiet fun t' new hc => ?_
      cases t' <;> first | rfl | exact hc.elim
  | dropped =>
      refine hquiet fun t' new hc => ?_
      cases t' <;> first | rfl | exact hc.elim

/-- A step adds what the thread itself writes. -/
theorem persistedBy_snoc (h : Handler) (i : Nat) (tr : List (Server × Action)) (s : Server)
    (a : Action) : persistedBy h i (tr ++ [(s, a)]) =
      persistedBy h i tr ++ (s.writesBy h i a).toList := by
  cases hw : s.writesBy h i a <;> simp [persistedBy, List.filterMap_append, hw]

/-- Only the thread that acts writes. -/
theorem Server.runs.writesBy {a : Action} {i : Nat} {t : Thread} {cmd : Cmd}
    (hr : s.runs h a i t cmd) (k : Nat) :
    s.writesBy h k a = if k = i then cmd.op.writes s else none := by
  have hwrites := hr.writes
  obtain ⟨_, ⟨inp, rfl, rfl⟩ | ⟨rfl, rfl⟩⟩ := hr
  · by_cases hk : k = i
    · rw [if_pos hk, hwrites, hk]
      exact if_pos rfl
    · rw [if_neg hk]
      exact if_neg (Ne.symm hk)
  · split
    · exact (Thread.drop_writes t).symm
    · rfl

/-- What a thread delivers has the status it stored last. -/
def DeliversLast (h : Handler) (tr : List (Server × Action)) (s : Server) : Prop :=
  ∀ i t event status, s.threads[i]? = some t → t.delivers = some event →
    event.status = some status →
      ∃ task, (persistedBy h i tr).getLast? = some task ∧ task.status = status

/-- **A step keeps it**: a thread that delivers has written nothing since. -/
theorem DeliversLast.step {tr : List (Server × Action)} {a : Action} (hd : DeliversLast h tr s)
    (hs : Stored h tr s) (hstep : Server.step h s a = some s') :
    DeliversLast h (tr ++ [(s, a)]) s' := by
  intro k t' event status hk hevent hstatus
  obtain ⟨request, rfl, rfl⟩ | ⟨i, t, cmd, s₁, b, hruns, hran⟩ := step_cases hstep
  · have hsame : persistedBy h k (tr ++ [(s, .call request)]) = persistedBy h k tr := by
      rw [persistedBy_snoc]
      exact List.append_nil _
    rw [hsame]
    obtain hlt | hle := Nat.lt_or_ge k s.threads.length
    · rw [List.getElem?_append_left hlt] at hk
      exact hd k t' event status hk hevent hstatus
    · rw [List.getElem?_append_right hle] at hk
      obtain rfl := List.mem_singleton.mp (List.mem_of_getElem? hk)
      cases request <;> contradiction
  · rw [persistedBy_snoc, hruns.writesBy]
    obtain ⟨rfl, rfl⟩ | ⟨hne, hold⟩ | ⟨_, hnew⟩ := hran.thread_cases hk
    · rw [if_pos rfl]
      have hdelivers := hruns.delivers (hs.threads t (List.mem_of_getElem? hruns.1)) s₁ b hran.run
      obtain ⟨hbefore, hw⟩ | ⟨task, hw, htask⟩ := hdelivers event status hevent hstatus
      · rw [hw]
        simpa using hd k t event status hruns.1 hbefore hstatus
      · rw [hw]
        exact ⟨task, by simp, htask⟩
    · rw [if_neg hne]
      simpa using hd k t' event status hold hevent hstatus
    · obtain ⟨call, prepared, x, _, rfl⟩ := (hruns.continues s₁ b hran.run).spawned hnew
      contradiction

/-! ## what leaves the server -/

/-- The stored task the stream of a subscription has yielded. -/
def SubscribePc.opened : SubscribePc → Option Task
  | .waiting _ opened => some opened
  | .streaming opened _ => opened
  | .ended opened _ => opened
  | _ => none

/-- The stream of a thread. -/
def Thread.subscription : Thread → Option Subscription
  | .send _ (.following _ sub _) => some sub
  | .send _ (.streaming sub) => some sub
  | .send _ (.ended sub) => some sub
  | .subscribe _ (.streaming _ sub) => some sub
  | .subscribe _ (.ended _ sub) => some sub
  | _ => none

/-- An event that left the server: pushed to a webhook, sent to the
subscribers of an execution, or yielded by a stream. -/
inductive Server.Published (s : Server) : StreamResponse → Prop
  | pushed {config : TaskPushNotificationConfig} {event : StreamResponse}
      (h : (config, event) ∈ s.webhooks) : Published s event
  | sent {active : ActiveExecution} {message : ExecutionEvent} {event : StreamResponse}
      (hx : active ∈ s.executions) (hm : message ∈ active.sent) (h : message.result = .ok event) :
      Published s event
  /-- the stored task a waiting stream opened with -/
  | opened {call : SubscribeCall} {pc : SubscribePc} {task : Task}
      (ht : .subscribe call pc ∈ s.threads) (h : pc.opened = some task) : Published s (.task task)
  | yielded {t : Thread} {sub : Subscription} {event : StreamResponse} (ht : t ∈ s.threads)
      (hsub : t.subscription = some sub) (h : .ok event ∈ sub.yielded) : Published s event

/-- The stream of a thread that is known. -/
theorem Subscription.known_of_thread {t : Thread} {sub : Subscription} (ht : t.Known P)
    (hsub : t.subscription = some sub) : sub.Known P := by
  cases t with
  | send call pc =>
      cases pc with
      | following taskId sub' lastEvent => exact Option.some.inj hsub ▸ ht
      | streaming sub' => exact Option.some.inj hsub ▸ ht
      | ended sub' => exact Option.some.inj hsub ▸ ht
      | _ => contradiction
  | subscribe call pc =>
      cases pc with
      | streaming opened sub' => exact Option.some.inj hsub ▸ ht.2
      | ended opened sub' => exact Option.some.inj hsub ▸ ht.2
      | _ => contradiction
  | _ => contradiction

theorem SubscribePc.known_opened {pc : SubscribePc} {task : Task} (hpc : pc.Known P)
    (h : pc.opened = some task) : P task.status := by
  cases pc with
  | waiting w opened =>
      obtain rfl := Option.some.inj h
      exact hpc
  | streaming opened sub => exact hpc.1 task h
  | ended opened sub => exact hpc.1 task h
  | _ => contradiction

/-- What left the server is known. -/
theorem Server.Known.published {event : StreamResponse} (hk : s.Known P)
    (ht : ∀ t ∈ s.threads, t.Known P) (hp : s.Published event) : event.Known P := by
  cases hp with
  | pushed hmem => exact hk.webhooks _ hmem
  | sent hx hmem hresult =>
      have hitem := (hk.executions _ hx).sent _ hmem
      rw [hresult] at hitem
      exact hitem
  | opened hmem hopened =>
      intro status hstatus
      obtain rfl := Option.some.inj hstatus
      exact SubscribePc.known_opened (ht _ hmem) hopened
  | yielded hmem hsub hyielded =>
      exact (Subscription.known_of_thread (ht _ hmem) hsub).yielded _ hyielded

/-- **Timestamps**: in every run from an empty store, every stored task has
a status timestamp; every status that left the server has one and is, with
it, the status of a task some step stored; and an event of the executor on
its way out has the status its thread stored last. -/
theorem published_stamped (h : Handler) {limit : Option Nat}
    {pushConfigStore : Option InMemoryPushConfigStore} {pushSender : Bool}
    {tr : List (Server × Action)}
    (hr : (serverMachine h).Run (.new (.new limit) pushConfigStore pushSender) tr s) :
    (∀ id task, s.taskStore.get id = some task → task.status.timestamp ≠ none) ∧
      (∀ event status, s.Published event → event.status = some status →
        status.timestamp ≠ none ∧ Persisted h tr status) ∧
      DeliversLast h tr s := by
  have hboth : Stored h tr s ∧ DeliversLast h tr s := by
    refine hr.invariant (I := fun tr s => Stored h tr s ∧ DeliversLast h tr s) ?_ ?_
    · refine ⟨stored_new h limit pushConfigStore pushSender, fun i t event status hi => ?_⟩
      simp [Server.new] at hi
    · intro tr s a s' ⟨hs, hd⟩ hstep
      exact ⟨hs.step hstep, hd.step hs hstep⟩
  obtain ⟨hs, hd⟩ := hboth
  have hstamped : ∀ status, Persisted h tr status → status.timestamp ≠ none := by
    intro status hp
    obtain ⟨task, hmem, rfl⟩ := hp
    exact hs.stamped task hmem
  refine ⟨fun id task hget => hstamped _ (hs.shared.store id task hget), ?_, hd⟩
  intro event status hpublished hstatus
  have hp := hs.shared.published hs.threads hpublished status hstatus
  exact ⟨hstamped status hp, hp⟩

/-- Progress of a new task, reported without a timestamp. -/
def unstamped : StreamResponse :=
  .statusUpdate ⟨"new-task", "new-context", ⟨.working, none, none⟩, none⟩

/-- A new task, of which the executor reports that progress. -/
theorem published_stamped_progress :
    ∃ tr s event status, (serverMachine .new).Run (.new (.new none) none false) tr s ∧
      s.Published event ∧ event.status = some status ∧ status.state = .working ∧
      status.timestamp ≠ none ∧ Persisted .new tr status := by
  have hx : ((serverMachine .new).exec (.new (.new none) none false)
      (.call (.send (.opening "m")) :: List.replicate 5 (.step 0 (.emitting [])) ++
        List.replicate 8 (.step 1 (.emitting [.ok unstamped])))).map
      (fun p => p.2.executions.map (·.sent.map (·.result))) =
        some [[.ok (backfillStatusTimestamp .unixEpoch unstamped)]] := rfl
  obtain ⟨⟨tr, s⟩, hexec, hsent⟩ := Option.map_eq_some_iff.mp hx
  have hrun := Machine.run_of_exec hexec
  have hpublished : s.Published (backfillStatusTimestamp .unixEpoch unstamped) := by
    obtain ⟨active, hactive, hresults⟩ := List.map_eq_singleton_iff.mp hsent
    obtain ⟨message, hmessage, hresult⟩ := List.map_eq_singleton_iff.mp hresults
    have hmem : active ∈ s.executions := by
      rw [hactive]
      exact List.mem_singleton_self active
    have hmem' : message ∈ active.sent := by
      rw [hmessage]
      exact List.mem_singleton_self message
    exact .sent hmem hmem' hresult
  obtain ⟨hstamped, hpersisted⟩ := (published_stamped .new hrun).2.1 _ _ hpublished rfl
  exact ⟨tr, s, _, _, hrun, hpublished, rfl, rfl, hstamped, hpersisted⟩

end A2a
