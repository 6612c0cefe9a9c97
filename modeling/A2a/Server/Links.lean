import A2a.Server.Steps
import A2a.Waiting

/-!
# A2a.Server.Links

What a thread has to do with the executions' channels.

`Link` is where a thread stands: it registers, publishes, reads a snapshot,
or follows.  `Link.Step` is all a step of a thread can do there
(`Server.runs.link`), with the executions and the waiters' channels it
leaves.  The proofs about channels go by its cases and no longer look at the
calls.
-/

namespace A2a

/-- Where a thread stands to the channel of an execution. -/
inductive Link
  | idle
  /-- before it registers an execution of the task -/
  | registering (task : Task)
  /-- registered, before it listens -/
  | attaching (x : ExecId)
  | publishing (x : ExecId) (item : Item) (snapshotTask : Option Task) (pc : PublishPc)
  /-- listening, before it reads the snapshot -/
  | reading (receiver : Receiver)
  /-- its stream is open; a `resumed` one opens with a snapshot -/
  | following (resumed : Bool) (sub : Subscription)
  /-- its stream is over -/
  | ended (resumed : Bool) (sub : Subscription)

/-- Where a driver stands. -/
def Driver.link (d : Driver) : Link :=
  match d.pc with
  | .publishing event pc => .publishing d.exec (.ok event) (some d.current) pc
  | .failPublishing error failed pc => .publishing d.exec (.error error) failed pc
  | _ => .idle

/-- Where a cancel stands. -/
def CancelPc.link : CancelPc → Link
  | .publishing c event pc =>
      match c.active with
      | some x => .publishing x (.ok event) (some c.current) pc
      | none => .idle
  | .failPublishing c error pc =>
      match c.active with
      | some x => .publishing x (.error error) none pc
      | none => .idle
  | _ => .idle

def Thread.link : Thread → Link
  | .send _ (.start prepared) => .registering prepared.task
  | .send _ (.attach _ x) => .attaching x
  | .send _ (.following _ sub _) => .following false sub
  | .send _ (.streaming sub) => .following false sub
  | .send _ (.ended sub) => .ended false sub
  | .drive d => d.link
  | .cancel _ pc => pc.link
  | .subscribe _ (.readState receiver) => .reading receiver
  | .subscribe _ (.streaming _ sub) => .following true sub
  | .subscribe _ (.ended _ sub) => .ended true sub
  | _ => .idle

namespace Link

/-- The execution whose published item the thread is yet to send. -/
def delivers : Link → Option ExecId
  | .publishing _ _ _ .write => none
  | .publishing x _ _ _ => some x
  | _ => none

/-- The thread is not publishing. -/
def quiet : Link → Bool
  | .publishing _ _ _ _ => false
  | _ => true

/-- Places a thread comes to without having done anything there. -/
def Resting : Link → Prop
  | .idle => True
  | .registering _ => True
  | .publishing _ _ _ .write => True
  | _ => False

end Link

/-! ## polling -/

/-- One poll of a subscription stream: the stream after it, and the item it
yielded or its end. -/
inductive Subscription.Polls (s : Server) (sub : Subscription) :
    Subscription → Option (Option Item) → Prop
  | done (hdone : sub.done = true) : Polls s sub sub (some none)
  | snapshot {task : Task} (hlive : sub.done = false) (htask : sub.snapshotTask = some task) :
      Polls s sub (sub.yieldSnapshot task) (some (some (.ok (.task task))))
  | unattached (hlive : sub.done = false) (htask : sub.snapshotTask = none)
      (hreceiver : sub.receiver = none) : Polls s sub sub (some none)
  | event {receiver : Receiver} {active : ActiveExecution} {event : ExecutionEvent}
      (hlive : sub.done = false) (htask : sub.snapshotTask = none)
      (hreceiver : sub.receiver = some receiver) (hactive : s.executions[receiver.exec]? = some active)
      (hnear : active.sent.length ≤ receiver.next + executionBufferCapacity)
      (hevent : active.sent[receiver.next]? = some event) :
      Polls s sub (sub.receive { receiver with next := receiver.next + 1 } event)
        (if event.sequence ≤ sub.minSequence then none else some (some event.result))
  | lagged {receiver : Receiver} {active : ActiveExecution}
      (hlive : sub.done = false) (htask : sub.snapshotTask = none)
      (hreceiver : sub.receiver = some receiver) (hactive : s.executions[receiver.exec]? = some active)
      (hfar : receiver.next + executionBufferCapacity < active.sent.length) :
      Polls s sub sub.yieldLag (some (some (.error Subscription.lagError)))
  | closed {receiver : Receiver} {active : ActiveExecution}
      (hlive : sub.done = false) (htask : sub.snapshotTask = none)
      (hreceiver : sub.receiver = some receiver) (hactive : s.executions[receiver.exec]? = some active)
      (hend : active.sent[receiver.next]? = none) (hclosed : s.channelClosed receiver.exec = true) :
      Polls s sub sub (some none)

/-- **What a poll does.** -/
theorem post_pollCmd_polls {s : Server} {sub : Subscription}
    {k : Subscription → Option (Option Item) → Thread} :
    (pollCmd sub k).Post s fun s₁ t' new => s₁ = s ∧ new = [] ∧
      ∃ sub' o, sub.Polls s sub' o ∧ t' = k sub' o := by
  rw [pollCmd]
  cases hdone : sub.done with
  | true =>
      rw [if_pos rfl, Cmd.post_pass]
      exact ⟨rfl, rfl, sub, some none, .done hdone, rfl⟩
  | false =>
      rw [if_neg Bool.false_ne_true]
      cases htask : sub.snapshotTask with
      | some task =>
          simp only [Cmd.post_pass]
          exact ⟨trivial, trivial, _, _, .snapshot hdone htask, rfl⟩
      | none =>
          cases hreceiver : sub.receiver with
          | none =>
              simp only [Cmd.post_pass]
              exact ⟨trivial, trivial, _, _, .unattached hdone htask hreceiver, rfl⟩
          | some receiver =>
              intro s₁ b hrun
              simp only [Op.andThen, Op.run] at hrun
              cases hactive : s.executions[receiver.exec]? with
              | none =>
                  rw [hactive] at hrun
                  contradiction
              | some active =>
                  rw [hactive] at hrun
                  by_cases hfar : receiver.next + executionBufferCapacity < active.sent.length
                  · simp only [if_pos hfar, Option.some.injEq] at hrun
                    obtain ⟨rfl, rfl⟩ := hrun
                    exact ⟨rfl, rfl, _, _, .lagged hdone htask hreceiver hactive hfar, rfl⟩
                  · simp only [if_neg hfar] at hrun
                    cases hevent : active.sent[receiver.next]? with
                    | some event =>
                        simp only [hevent, Option.some.injEq] at hrun
                        obtain ⟨rfl, rfl⟩ := hrun
                        exact ⟨rfl, rfl, _, _, .event hdone htask hreceiver hactive
                          (Nat.le_of_not_lt hfar) hevent, rfl⟩
                    | none =>
                        simp only [hevent] at hrun
                        by_cases hclosed : s.channelClosed receiver.exec = true
                        · simp only [if_pos hclosed, Option.some.injEq] at hrun
                          obtain ⟨rfl, rfl⟩ := hrun
                          exact ⟨rfl, rfl, _, _, .closed hdone htask hreceiver hactive hevent
                            hclosed, rfl⟩
                        · simp only [if_neg hclosed, reduceCtorEq] at hrun

/-! ## what a step leaves alone -/

/-- The executions are as they were, and no waiter was handed one. -/
structure Server.Calm (s s₁ : Server) : Prop where
  executions : s₁.executions = s.executions
  oneshots (w : WaiterId) (value : Resubscription) :
    s₁.oneshots[w]? = some (Oneshot.full value) →
      value.receiver = none ∨ s.oneshots[w]? = some (Oneshot.full value)

/-- A server is calm to itself. -/
theorem Server.Calm.refl (s : Server) : s.Calm s := ⟨rfl, fun _ _ h => .inr h⟩

/-- Closing a channel fills none. -/
theorem full_of_set_closed {channels : List Oneshot} {w u : WaiterId} {value : Resubscription}
    (h : (channels.set w .closed)[u]? = some (.full value)) :
    channels[u]? = some (.full value) := by
  rw [List.getElem?_set] at h
  split at h
  · split at h <;> simp at h
  · exact h

/-- A channel is full after a value was handed to some if it was before, or has
that value. -/
theorem full_of_handAll {value handed : Resubscription} {ws : List WaiterId} {w : WaiterId}
    {channels : List Oneshot}
    (h : (ws.foldl (fun o w => o.modify w (Oneshot.send handed)) channels)[w]? =
      some (.full value)) : value = handed ∨ channels[w]? = some (.full value) := by
  induction ws generalizing channels with
  | nil => exact .inr h
  | cons u us ih =>
      obtain heq | hfull := ih h
      · exact .inl heq
      · obtain ⟨_, _, rfl⟩ | hbefore := (Waits.modify_send_full _ _ _ _ _).mp hfull
        · exact .inl rfl
        · exact .inr hbefore

/-- What an operation hands to waiters. -/
def Op.hands {β : Type} (s : Server) : Op β → Option Resubscription
  | .start task =>
      if (s.manager.executions task.id).isSome then none
      else some ⟨some ⟨s.executions.length, 0⟩, task, 0⟩
  | .hand _ value => some value
  | _ => none

/-- **A waiter's channel is full** after an operation if it was before, or with
what the operation hands out. -/
theorem Op.Effects.full_cases {β : Type} {op : Op β} {s s₁ : Server} (he : op.Effects s s₁)
    {w : WaiterId} {value : Resubscription} (hfull : s₁.oneshots[w]? = some (.full value)) :
    s.oneshots[w]? = some (.full value) ∨ op.hands s = some value := by
  rw [he.oneshots] at hfull
  cases op with
  | start task =>
      simp only [oneshotsAfter] at hfull
      split at hfull
      · exact .inl hfull
      · next hfree =>
        obtain rfl | hold := full_of_handAll hfull
        · exact .inr (if_neg hfree)
        · exact .inl hold
  | subscribe id =>
      simp only [oneshotsAfter] at hfull
      split at hfull
      · exact .inl hfull
      · rw [List.getElem?_append] at hfull
        split at hfull
        · exact .inl hfull
        · rw [List.getElem?_singleton] at hfull
          split at hfull <;> simp at hfull
  | hand v handed =>
      obtain ⟨rfl, _, rfl⟩ | hold := (Waits.modify_send_full _ _ _ _ _).mp hfull
      · exact .inr rfl
      · exact .inl hold
  | attached v =>
      simp only [oneshotsAfter] at hfull
      split at hfull
      · exact .inl (full_of_set_closed hfull)
      · exact .inl hfull
  | await v => exact .inl (full_of_set_closed hfull)
  | dropWaiter id v => exact .inl (full_of_set_closed hfull)
  | _ => exact .inl hfull

/-- An operation that leaves the channels calm. -/
def Op.calm {β : Type} : Op β → Bool
  | .start _ => false
  | .publish _ _ => false
  | .broadcast _ _ => false
  | .hand _ value => value.receiver.isNone
  | _ => true

/-- An operation that does not touch channels or waiters changes neither. -/
theorem Op.run_calm {β : Type} {op : Op β} {s s₁ : Server} {b : β} (hr : op.run s = some (s₁, b))
    (hop : op.calm = true) : s.Calm s₁ := by
  have heffects := Op.effects hr
  constructor
  · rw [heffects.executions]
    cases op <;> first | rfl | contradiction
  · intro w value hfull
    obtain hold | hhands := heffects.full_cases hfull
    · exact .inr hold
    · cases op <;> try contradiction
      case hand v handed =>
        obtain rfl := Option.some.inj hhands
        exact .inl (Option.isNone_iff_eq_none.mp hop)

/-! ## the steps of a link -/

/-- What a step can do to where a thread stands, with what it makes of the
server. -/
inductive Link.Step (s s₁ : Server) : Link → Link → Prop
  | rest {l l' : Link} (hquiet : l.quiet = true) (hrest : l'.Resting) (hcalm : s.Calm s₁) :
      Step s s₁ l l'
  | start {task : Task} (hfree : s.manager.executions task.id = none)
      (hexec : s₁.executions = s.executions ++ [.new task])
      (hone : ∀ (w : WaiterId) (value : Resubscription), s₁.oneshots[w]? = some (Oneshot.full value) →
        value = ⟨some ⟨s.executions.length, 0⟩, task, 0⟩ ∨
          s.oneshots[w]? = some (Oneshot.full value)) :
      Step s s₁ (.registering task) (.attaching s.executions.length)
  | attach {x : ExecId} {active : ActiveExecution} (hactive : s.executions[x]? = some active)
      (hcalm : s.Calm s₁) :
      Step s s₁ (.attaching x) (.following false (.ofReceiver ⟨x, active.sent.length⟩))
  | listen {x : ExecId} {active : ActiveExecution} (hactive : s.executions[x]? = some active)
      (hcalm : s.Calm s₁) : Step s s₁ .idle (.reading ⟨x, active.sent.length⟩)
  | read {receiver : Receiver} {active : ActiveExecution}
      (hactive : s.executions[receiver.exec]? = some active) (hcalm : s.Calm s₁) :
      Step s s₁ (.reading receiver)
        (.following true (.ofResubscription ⟨some receiver, active.snapshotTask, active.sequence⟩))
  | take {w : WaiterId} {value : Resubscription} (hfull : s.oneshots[w]? = some (.full value))
      (hcalm : s.Calm s₁) : Step s s₁ .idle (.following true (.ofResubscription value))
  | poll {resumed : Bool} {sub sub' : Subscription} {o : Option (Option Item)}
      (hpolls : sub.Polls s sub' o) (ho : o ≠ some none) (hcalm : s.Calm s₁) :
      Step s s₁ (.following resumed sub) (.following resumed sub')
  | ends {resumed : Bool} {sub sub' : Subscription} (hpolls : sub.Polls s sub' (some none))
      (hcalm : s.Calm s₁) : Step s s₁ (.following resumed sub) (.ended resumed sub')
  | publish {x : ExecId} {item : Item} {snapshotTask : Option Task} {active : ActiveExecution}
      (hactive : s.executions[x]? = some active)
      (hexec : s₁.executions = s.executions.modify x fun active => { active with
        snapshotTask := snapshotTask.getD active.snapshotTask
        sequence := active.sequence + 1 })
      (hone : s₁.oneshots = s.oneshots) :
      Step s s₁ (.publishing x item snapshotTask .write)
        (.publishing x item snapshotTask (.count (active.sequence + 1)))
  | heard {x : ExecId} {item : Item} {snapshotTask : Option Task} {sequence : Nat}
      (hheard : s.listening x = true) (hcalm : s.Calm s₁) :
      Step s s₁ (.publishing x item snapshotTask (.count sequence))
        (.publishing x item snapshotTask (.send sequence))
  | unheard {x : ExecId} {item : Item} {snapshotTask : Option Task} {sequence : Nat} {l' : Link}
      (hheard : s.listening x = false) (hcalm : s.Calm s₁) (hrest : l'.Resting) :
      Step s s₁ (.publishing x item snapshotTask (.count sequence)) l'
  | send {x : ExecId} {item : Item} {snapshotTask : Option Task} {sequence : Nat} {l' : Link}
      (hexec : s₁.executions = if s.listening x then
        s.executions.modify x fun active => { active with
          sent := active.sent ++ [⟨sequence, item⟩] }
        else s.executions)
      (hone : s₁.oneshots = s.oneshots) (hrest : l'.Resting) :
      Step s s₁ (.publishing x item snapshotTask (.send sequence)) l'

/-- A step of a thread that stands at `l`: where it takes it, and that the
threads it spawns stand nowhere. -/
def Cmd.Links (cmd : Cmd) (s : Server) (l : Link) : Prop :=
  cmd.Post s fun s₁ t' new => Link.Step s s₁ l t'.link ∧ ∀ t ∈ new, t.link = .idle

section Links

variable {h : Handler} {s : Server} {l : Link}

/-- A thread that is done takes no further step. -/
theorem Cmd.links_halt {k : Empty → Thread × List Thread} : Cmd.Links ⟨.halt, k⟩ s l :=
  fun _ b => b.elim

/-- An operation that leaves the channels calm, and its thread at rest. -/
theorem Cmd.links_of_rest {β : Type} {op : Op β} {k : β → Thread} (hop : op.calm = true)
    (hquiet : l.quiet = true) (hk : ∀ b, (k b).link.Resting) : (op.andThen k).Links s l := by
  intro s₁ b hrun
  exact ⟨.rest hquiet (hk b) (Op.run_calm hrun hop), fun t ht => absurd ht List.not_mem_nil⟩

/-- A save touches no channel. -/
theorem saveOp_calm (task : Task) (pc : SavePc) : (saveOp task pc).calm = true := by
  cases pc <;> rfl

/-- A push leaves the channels alone. -/
theorem pushCmd_links {inp : Input} {taskId : TaskId} {event : StreamResponse} {pc : PushPc}
    {k : PushPc ⊕ Except A2AError Unit → Thread} (hquiet : l.quiet = true)
    (hk : ∀ o, (k o).link.Resting) : (pushCmd inp taskId event pc k).Links s l := by
  obtain _ | _ | ⟨config, rest⟩ := pc
  · exact Cmd.links_of_rest rfl hquiet fun _ => hk _
  · exact Cmd.links_of_rest rfl hquiet fun _ => hk _
  · refine Cmd.links_of_rest rfl hquiet fun o => ?_
    cases o <;> exact hk _

/-- A release hands streams over, and its own thread holds none. -/
theorem releaseCmd_links {task : Task} {pc : ReleasePc} {k : Option ReleasePc → Thread}
    (hquiet : l.quiet = true) (hk : ∀ o, (k o).link.Resting) :
    (releaseCmd task pc k).Links s l := by
  obtain _ | _ | ⟨w, rest⟩ := pc <;> exact Cmd.links_of_rest rfl hquiet fun _ => hk _

/-- A publication goes through its places. -/
theorem publishCmd_links {x : ExecId} {item : Item} {snapshotTask : Option Task} {pc : PublishPc}
    {k : Option PublishPc → Thread}
    (hk : ∀ pc, (k (some pc)).link = .publishing x item snapshotTask pc)
    (hnone : (k none).link.Resting) :
    (publishCmd x item snapshotTask pc k).Links s (.publishing x item snapshotTask pc) := by
  intro s₁ b hrun
  refine ⟨?_, by cases pc <;> exact fun t ht => absurd ht List.not_mem_nil⟩
  cases pc with
  | write =>
      simp only [publishCmd, Op.andThen, Op.run, Option.map_eq_some_iff] at hrun
      obtain ⟨active, hactive, rfl, rfl⟩ := hrun
      simp only [publishCmd, Op.andThen, hk]
      exact .publish hactive rfl rfl
  | count sequence =>
      simp only [publishCmd, Op.andThen, Op.run, Option.some.injEq] at hrun
      obtain ⟨rfl, rfl⟩ := hrun
      cases hheard : s.listening x with
      | true =>
          simp only [publishCmd, Op.andThen, hk]
          exact .heard hheard (.refl s)
      | false => exact .unheard hheard (.refl s) hnone
  | send sequence =>
      simp only [publishCmd, Op.andThen, Op.run, Option.some.injEq] at hrun
      obtain ⟨rfl, _⟩ := hrun
      refine .send ?_ ?_ hnone
      · cases s.listening x <;> rfl
      · cases s.listening x <;> rfl

/-- A poll goes on, or ends the stream. -/
theorem pollCmd_links {resumed : Bool} {sub : Subscription}
    {k : Subscription → Option (Option Item) → Thread}
    (hgoes : ∀ sub' o, sub.Polls s sub' o → o ≠ some none →
      (k sub' o).link = .following resumed sub' ∨ (k sub' o).link.Resting)
    (hends : ∀ sub', (k sub' (some none)).link = .ended resumed sub' ∨
      (k sub' (some none)).link.Resting) :
    (pollCmd sub k).Links s (.following resumed sub) := by
  intro s₁ b hrun
  obtain ⟨rfl, hnew, sub', o, hpolls, ht'⟩ := post_pollCmd_polls s₁ b hrun
  rw [hnew, ht']
  refine ⟨?_, fun t ht => absurd ht List.not_mem_nil⟩
  by_cases ho : o = some none
  · subst ho
    obtain hlink | hrest := hends sub'
    · rw [hlink]
      exact .ends hpolls (.refl s₁)
    · exact .rest rfl hrest (.refl s₁)
  · obtain hlink | hrest := hgoes sub' o hpolls ho
    · rw [hlink]
      exact .poll hpolls ho (.refl s₁)
    · exact .rest rfl hrest (.refl s₁)

end Links

/-! ## the calls -/

section Calls

variable {h : Handler} {s : Server}

/-- A driver that fails stores first. -/
theorem Driver.resting_fail (d : Driver) (inp : Input) (error : A2AError) :
    (d.fail inp error).link.Resting := by
  rw [Driver.fail]
  split <;> trivial

/-- So does one that accepts an event. -/
theorem Driver.resting_accept (d : Driver) (inp : Input) (event : StreamResponse) :
    (d.accept inp event).link.Resting := by
  simp only [Driver.accept]
  split
  · exact d.resting_fail inp _
  · split
    · trivial
    · split
      · trivial
      · exact Driver.resting_fail _ inp _

/-- **What a driver does to a channel**, one case for each place. -/
theorem Driver.next_links (d : Driver) (inp : Input) : (d.next inp).Links s (Thread.drive d).link := by
  show (d.next inp).Links s d.link
  cases hpc : d.pc <;> simp only [Driver.next, Driver.link, hpc]
  case start => exact Cmd.links_of_rest rfl rfl fun _ => trivial
  case poll =>
    split
    · exact Cmd.links_of_rest rfl rfl fun _ => trivial
    · refine Cmd.links_of_rest rfl rfl fun state => ?_
      split
      · trivial
      · split
        · exact Driver.resting_accept _ inp _
        · exact Driver.resting_fail _ inp _
  case saving event task pc =>
    refine Cmd.links_of_rest (saveOp_calm task pc) rfl fun answer => ?_
    split
    · trivial
    · trivial
    · exact d.resting_fail inp _
  case pushing =>
    refine pushCmd_links rfl fun o => ?_
    obtain _ | _ | _ := o
    · trivial
    · exact d.resting_fail inp _
    · trivial
  case publishing event pc =>
    refine publishCmd_links (fun _ => rfl) ?_
    show (d.goto (if isTerminalEvent event then .finishing else .poll)).link.Resting
    split <;> trivial
  case failSaving error task pc =>
    refine Cmd.links_of_rest (saveOp_calm task pc) rfl fun answer => ?_
    split <;> trivial
  case failPushing =>
    refine pushCmd_links rfl fun o => ?_
    cases o <;> trivial
  case failPublishing => exact publishCmd_links (fun _ => rfl) trivial
  case finishing => exact Cmd.links_of_rest rfl rfl fun _ => trivial
  case done => exact Cmd.links_halt

/-- After its loop a cancel publishes nothing. -/
theorem CancelCall.resting_afterLoop (c : Cancelling) : (afterLoop c).link.Resting := by
  rw [afterLoop]
  split <;> trivial

theorem CancelCall.resting_afterEvent (c : Cancelling) (event : StreamResponse) :
    (afterEvent c event).link.Resting := by
  rw [afterEvent]
  split
  · exact resting_afterLoop _
  · trivial

/-- An event of a cancel is stored first. -/
theorem CancelCall.resting_accept (c : Cancelling) (inp : Input) (event : StreamResponse) :
    (accept c inp event).link.Resting := by
  simp only [accept]
  split
  · trivial
  · split <;> trivial

/-- A publication begins at its write. -/
theorem CancelPc.resting_publishing (c : Cancelling) (event : StreamResponse) :
    (CancelPc.publishing c event .write).link.Resting := by
  rw [CancelPc.link]
  split <;> trivial

theorem CancelPc.resting_failPublishing (c : Cancelling) (error : A2AError) :
    (CancelPc.failPublishing c error .write).link.Resting := by
  rw [CancelPc.link]
  split <;> trivial

/-- **What a cancel does to a channel.** -/
theorem CancelCall.next_links (call : CancelCall) (pc : CancelPc) (inp : Input) :
    (call.next h inp pc).Links s pc.link := by
  cases pc <;> simp only [CancelCall.next]
  case load =>
    split
    · exact Cmd.links_of_rest rfl rfl fun _ => trivial
    · refine Cmd.links_of_rest rfl rfl fun stored => ?_
      split
      · trivial
      · split
        · trivial
        · split <;> trivial
  case beginCancel =>
    refine Cmd.links_of_rest rfl rfl fun answer => ?_
    cases answer with
    | ok task => trivial
    | error error =>
        dsimp only
        split <;> trivial
  case raced =>
    refine Cmd.links_of_rest rfl rfl fun stored => ?_
    split
    · trivial
    · split <;> trivial
  case getActive => exact Cmd.links_of_rest rfl rfl fun _ => trivial
  case polling c =>
    refine Cmd.links_of_rest rfl rfl fun _ => ?_
    split
    · exact resting_afterLoop c
    · exact resting_accept _ inp _
    · split
      · exact CancelPc.resting_failPublishing _ _
      · trivial
  case saving c event task pc =>
    refine Cmd.links_of_rest (saveOp_calm task pc) rfl fun answer => ?_
    split <;> trivial
  case pushing c event pc =>
    refine pushCmd_links rfl fun o => ?_
    obtain _ | _ | _ := o
    · trivial
    · trivial
    · dsimp only
      split
      · exact CancelPc.resting_publishing c event
      · exact resting_afterEvent c event
  case publishing c event pc =>
    rw [CancelPc.link]
    cases hactive : c.active with
    | none => exact Cmd.links_of_rest rfl rfl fun _ => resting_afterEvent c event
    | some x =>
        refine publishCmd_links (fun pc => ?_) (resting_afterEvent c event)
        simp only [Thread.link, CancelPc.link, hactive]
  case failPublishing c error pc =>
    rw [CancelPc.link]
    cases hactive : c.active with
    | none => exact Cmd.links_of_rest rfl rfl fun _ => trivial
    | some x =>
        refine publishCmd_links (fun pc => ?_) trivial
        simp only [Thread.link, CancelPc.link, hactive]
  case failLoad =>
    refine Cmd.links_of_rest rfl rfl fun stored => ?_
    split <;> trivial
  case failPushing =>
    refine pushCmd_links rfl fun o => ?_
    cases o <;> trivial
  case finishing =>
    split
    · exact Cmd.links_of_rest rfl rfl fun _ => trivial
    · exact Cmd.links_of_rest rfl rfl fun _ => trivial
  case finalLoad =>
    refine Cmd.links_of_rest rfl rfl fun stored => ?_
    split
    · trivial
    · split <;> trivial
  case finalPushing =>
    refine pushCmd_links rfl fun o => ?_
    obtain _ | _ | _ := o <;> trivial
  case releasing =>
    refine releaseCmd_links rfl fun o => ?_
    cases o <;> trivial
  case dropping =>
    refine releaseCmd_links rfl fun o => ?_
    cases o <;> trivial
  case returned => exact Cmd.links_halt

/-- A registration, or its refusal. -/
theorem start_links {task : Task} {k : Except A2AError ExecId → Thread}
    (hok : ∀ x, (k (.ok x)).link = .attaching x) (herror : ∀ error, (k (.error error)).link = .idle) :
    ((Op.start task).andThen k).Links s (.registering task) := by
  intro s₁ b hrun
  refine ⟨?_, fun t ht => absurd ht List.not_mem_nil⟩
  have heffects := Op.effects hrun
  simp only [Op.andThen, Op.run, ExecutionManager.start] at hrun
  by_cases hrunning : (s.manager.executions task.id).isSome
  · simp only [if_pos hrunning, Option.some.injEq] at hrun
    obtain ⟨rfl, rfl⟩ := hrun
    simp only [Op.andThen, herror]
    exact .rest rfl trivial (.refl s)
  · simp only [if_neg hrunning, Option.some.injEq] at hrun
    obtain ⟨_, rfl⟩ := hrun
    simp only [Op.andThen, hok]
    refine @Link.Step.start _ _ task (Option.not_isSome_iff_eq_none.mp hrunning) ?_
      fun w value hfull => ?_
    · rw [heffects.executions]
      exact if_neg hrunning
    · obtain hold | hhands := heffects.full_cases hfull
      · exact .inr hold
      · simp only [Op.andThen, Op.hands, if_neg hrunning, Option.some.injEq] at hhands
        exact .inl hhands.symm

/-- A send that answers follows nothing any more. -/
theorem SendCall.resting_finishSend (call : SendCall) (taskId : TaskId)
    (lastEvent : Option StreamResponse) :
    (Thread.send call (call.finishSend taskId lastEvent)).link = .idle := by
  unfold finishSend
  split <;> rfl

/-- A send goes on following, or answers. -/
theorem SendCall.link_onItem (call : SendCall) (taskId : TaskId) (sub : Subscription) (item : Item) :
    (Thread.send call (call.onItem taskId sub item)).link = .following false sub ∨
      (Thread.send call (call.onItem taskId sub item)).link = .idle := by
  unfold onItem
  split
  · exact .inr rfl
  · split
    · exact .inr rfl
    · split
      · exact .inr rfl
      · exact .inl rfl

/-- **What a send does with its stream.** -/
theorem SendCall.next_links (call : SendCall) (pc : SendPc) (inp : Input) :
    (call.next h inp pc).Links s (Thread.send call pc).link := by
  cases pc <;> simp only [SendCall.next, Thread.link]
  case load =>
    split
    · exact Cmd.links_of_rest rfl rfl fun _ => trivial
    · refine Cmd.links_of_rest rfl rfl fun stored => ?_
      split
      · trivial
      · split <;> trivial
  case create =>
    refine Cmd.links_of_rest rfl rfl fun answer => ?_
    cases answer <;> trivial
  case savePush =>
    split
    · exact Cmd.links_of_rest rfl rfl fun _ => trivial
    · refine Cmd.links_of_rest rfl rfl fun answer => ?_
      cases answer <;> trivial
  case start prepared => exact start_links (fun _ => rfl) (fun _ => rfl)
  case attach prepared x =>
    intro s₁ b hrun
    simp only [Op.run, Option.map_eq_some_iff, Prod.mk.injEq] at hrun
    obtain ⟨active, hactive, rfl, rfl⟩ := hrun
    refine ⟨?_, fun t ht => ?_⟩
    · cases hstreaming : call.streaming <;> exact .attach hactive (.refl s)
    · obtain rfl := List.mem_singleton.mp ht
      rfl
  case following taskId sub lastEvent =>
    refine pollCmd_links (fun sub' o _ ho => ?_) fun sub' => .inr ?_
    · obtain _ | _ | item := o
      · exact .inl rfl
      · contradiction
      · obtain hlink | hlink := call.link_onItem taskId sub' item
        · exact .inl hlink
        · right
          simp only [hlink]
          trivial
    · simp only [call.resting_finishSend]
      trivial
  case answering => exact Cmd.links_of_rest rfl rfl fun _ => trivial
  case streaming sub =>
    refine pollCmd_links (fun sub' o _ ho => .inl ?_) fun sub' => .inl rfl
    obtain _ | _ | item := o
    · rfl
    · contradiction
    · rfl
  case returned => exact Cmd.links_halt
  case ended => exact Cmd.links_halt

/-- A waiter that may have been handed its execution. -/
theorem attached_links {w : WaiterId} {k : Option Resubscription → Thread}
    (hsome : ∀ value, (k (some value)).link = .following true (.ofResubscription value))
    (hnone : (k none).link.Resting) : ((Op.attached w).andThen k).Links s .idle := by
  intro s₁ b hrun
  refine ⟨?_, fun t ht => absurd ht List.not_mem_nil⟩
  have hcalm : s.Calm s₁ := Op.run_calm hrun rfl
  cases b with
  | none => exact .rest rfl hnone hcalm
  | some value =>
      simp only [Op.andThen, hsome]
      refine .take (w := w) ?_ hcalm
      simp only [Op.andThen, Op.run] at hrun
      split at hrun
      · next hfull =>
        cases hrun
        exact hfull
      · cases hrun

/-- **What a subscription does with its stream**, waiting, reading and following. -/
theorem SubscribeCall.next_links (call : SubscribeCall) (pc : SubscribePc) :
    (call.next h pc).Links s (Thread.subscribe call pc).link := by
  cases pc <;> simp only [SubscribeCall.next, Thread.link]
  case register =>
    split
    · exact Cmd.links_of_rest rfl rfl fun _ => trivial
    · exact Cmd.links_of_rest rfl rfl fun _ => trivial
    · intro s₁ b hrun
      refine ⟨?_, fun t ht => absurd ht List.not_mem_nil⟩
      have hcalm : s.Calm s₁ := Op.run_calm hrun rfl
      simp only [Op.andThen, Op.run] at hrun
      split at hrun
      · split at hrun
        · next active hactive =>
          cases hrun
          exact .listen hactive hcalm
        · contradiction
      · cases hrun
        exact .rest rfl trivial hcalm
  case readState receiver =>
    intro s₁ b hrun
    refine ⟨?_, fun t ht => absurd ht List.not_mem_nil⟩
    simp only [Op.andThen, Op.run, Option.map_eq_some_iff] at hrun
    obtain ⟨active, hactive, rfl, rfl⟩ := hrun
    exact .read hactive (.refl s)
  case attached w => exact attached_links (fun _ => rfl) trivial
  case load =>
    refine Cmd.links_of_rest rfl rfl fun stored => ?_
    split <;> trivial
  case loaded w task =>
    refine attached_links (fun _ => rfl) ?_
    dsimp only
    split <;> trivial
  case refusing => exact Cmd.links_of_rest rfl rfl fun _ => trivial
  case opening => exact Cmd.links_of_rest rfl rfl fun _ => trivial
  case waiting w opened =>
    intro s₁ b hrun
    refine ⟨?_, fun t ht => absurd ht List.not_mem_nil⟩
    have hcalm : s.Calm s₁ := Op.run_calm hrun rfl
    refine .take (w := w) ?_ hcalm
    simp only [Op.andThen, Op.run] at hrun
    split at hrun
    · next hfull =>
      cases hrun
      exact hfull
    · contradiction
  case streaming opened sub =>
    refine pollCmd_links (fun sub' o _ ho => .inl ?_) fun sub' => .inl rfl
    obtain _ | _ | item := o
    · rfl
    · contradiction
    · rfl
  case refused => exact Cmd.links_halt
  case ended => exact Cmd.links_halt

/-- A stream that is dropped is gone. -/
theorem Thread.drop_links (t : Thread) : t.drop.Links s t.link := by
  unfold Thread.drop
  split
  · exact Cmd.links_of_rest rfl rfl fun _ => trivial
  · exact Cmd.links_of_rest rfl rfl fun _ => trivial
  · exact Cmd.links_of_rest rfl rfl fun _ => trivial
  · exact Cmd.links_of_rest rfl rfl fun _ => trivial
  · exact Cmd.links_halt

/-- **The steps of a thread at the channels.** -/
theorem Server.runs.link {a : Action} {i : Nat} {t : Thread} {cmd : Cmd}
    (hr : s.runs h a i t cmd) : cmd.Links s t.link := by
  obtain ⟨_, ⟨inp, _, rfl⟩ | ⟨_, rfl⟩⟩ := hr
  · cases t with
    | send call pc => exact call.next_links pc inp
    | drive d => exact d.next_links inp
    | cancel call pc => exact call.next_links pc inp
    | subscribe call pc => exact call.next_links pc
    | dropped => exact Cmd.links_halt
  · exact t.drop_links

end Calls

end A2a
