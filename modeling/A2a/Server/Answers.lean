import A2a.Server.BlockingSend
import A2a.Server.Progress
import A2a.Server.Registrations

/-!
# A2a.Server.Answers

A blocking send is answered, and with what is stored.

Under a fair scheduler the driver of its execution comes to its end, and then
the channel is closed.  A send that follows the channel receives what is left
of it (`SendCall.Awaits.next_left`), and answers.
-/

namespace A2a

variable {h : Handler} {id : TaskId} {x : ExecId} {i k : Nat} {call : SendCall}
  {tr : List (Server × Action)} {s s' s₁ : Server} {a : Action} {t : Thread}
  {f : Feed Item Task} {inp : Input} {d : Driver}

/-! ## what a send has yet to receive -/

/-- What was sent on the channel of an execution. -/
def Server.sentOn (s : Server) (x : ExecId) : List ExecutionEvent :=
  (s.executions[x]?.map (·.sent)).getD []

theorem Server.sentOn_of_getElem {active : ActiveExecution}
    (hactive : s.executions[x]? = some active) : s.sentOn x = active.sent := by
  rw [sentOn, hactive]
  rfl

/-- A step leaves what was sent on an execution, unless it sends there. -/
theorem Link.Step.sentOn {l l' : Link} (hl : Link.Step s s₁ l l') (hx : x < s.executions.length)
    (hnot : l.delivers ≠ some x) : s₁.sentOn x = s.sentOn x := by
  have hcalm (hc : s.Calm s₁) : s₁.sentOn x = s.sentOn x := by
    rw [Server.sentOn, hc.executions]
    rfl
  cases hl with
  | rest _ _ hc => exact hcalm hc
  | attach _ hc => exact hcalm hc
  | listen _ hc => exact hcalm hc
  | read _ hc => exact hcalm hc
  | take _ hc => exact hcalm hc
  | poll _ _ hc => exact hcalm hc
  | ends _ hc => exact hcalm hc
  | heard _ hc => exact hcalm hc
  | unheard _ hc => exact hcalm hc
  | start _ hexec =>
      rw [Server.sentOn, hexec, List.getElem?_append_left hx]
      rfl
  | @publish y item published _ _ hexec =>
      have hactive := List.getElem?_eq_getElem hx
      rw [Server.sentOn_of_getElem hactive, Server.sentOn, hexec]
      by_cases hy : y = x
      · subst hy
        rw [List.getElem?_modify_eq, hactive]
        rfl
      · rw [List.getElem?_modify_ne _ _ hy, hactive]
        rfl
  | @send y item published sequence _ hexec =>
      have hne : y ≠ x := fun h => hnot (congrArg some h)
      rw [Server.sentOn, hexec]
      split
      · rw [List.getElem?_modify_ne _ _ hne]
        rfl
      · rfl

/-- How far a stream is from its end, where so many items were sent. -/
def Subscription.left (sent : Nat) (sub : Subscription) : Nat :=
  if sub.done then 0
  else 1 + (if sub.snapshotTask.isSome then 1 else 0) + (sent - (sub.receiver.map (·.next)).getD 0)

/-- A poll that is answered brings a stream nearer its end. -/
theorem Subscription.Polls.left {sub sub' : Subscription} {o : Option (Option Item)}
    (hp : sub.Polls s sub' o) (ho : o ≠ some none) (hx : sub.receiver.map (·.exec) = some x) :
    sub'.left (s.sentOn x).length < sub.left (s.sentOn x).length := by
  have hlive (hdone : sub.done = false) : 0 < sub.left (s.sentOn x).length := by
    unfold Subscription.left
    rw [hdone, if_neg Bool.false_ne_true]
    omega
  have hends (hdone : sub.done = false) (hdone' : sub'.done = true) :
      sub'.left (s.sentOn x).length < sub.left (s.sentOn x).length := by
    have hzero : sub'.left (s.sentOn x).length = 0 := if_pos hdone'
    rw [hzero]
    exact hlive hdone
  cases hp with
  | done => exact absurd rfl ho
  | unattached => exact absurd rfl ho
  | closed => exact absurd rfl ho
  | lagged hdone => exact hends hdone rfl
  | @snapshot task hdone htask =>
      cases hterminal : task.isTerminal with
      | true => exact hends hdone hterminal
      | false =>
          simp only [Subscription.left, yieldSnapshot, hterminal, hdone, htask]
          simp
  | @event receiver active event hdone htask hreceiver hactive _ hevent =>
      have hexec : receiver.exec = x := by
        rw [hreceiver] at hx
        exact Option.some.inj hx
      have hlt : receiver.next < (s.sentOn x).length := by
        rw [← hexec, Server.sentOn_of_getElem hactive]
        exact (List.getElem?_eq_some_iff.mp hevent).1
      cases hdone' : (sub.receive { receiver with next := receiver.next + 1 } event).done with
      | true => exact hends hdone hdone'
      | false =>
          have hnext : (sub.receive { receiver with next := receiver.next + 1 } event).receiver =
              some { receiver with next := receiver.next + 1 } := by
            unfold receive
            split <;> rfl
          have hnone :
              (sub.receive { receiver with next := receiver.next + 1 } event).snapshotTask = none := by
            rw [← htask]
            unfold receive
            split <;> rfl
          simp only [Subscription.left, hdone, hdone', hnext, hnone, htask, hreceiver,
            Option.map_some, Option.getD_some, Option.isSome_none, Bool.false_eq_true, if_false]
          omega

/-- How far a blocking send is from its answer, once it follows its execution. -/
def SendPc.left (sent : Nat) : SendPc → Nat
  | .following _ sub _ => 2 + sub.left sent
  | .answering _ => 1
  | _ => 0

/-- **Every step of a send** that waits brings it nearer its answer. -/
theorem SendCall.Awaits.next_left {pc : SendPc} (haw : call.Awaits id x i tr s pc)
    (hpc : ∀ p y, pc ≠ .attach p y) : (call.next h inp pc).Post s fun _ t' _ =>
      ∃ pc', t' = .send call pc' ∧ ((∃ result, pc' = .returned result) ∨
        pc'.left (s.sentOn x).length < pc.left (s.sentOn x).length) := by
  cases pc <;> try exact haw.elim
  case attach p y => exact absurd rfl (hpc p y)
  case following taskId sub last =>
    obtain ⟨_, hx, _⟩ := haw
    have hover (pc' : SendPc) (hpc' : (∃ result, pc' = .returned result) ∨
        ∃ taskId, pc' = .answering taskId) : (∃ result, pc' = .returned result) ∨
          pc'.left (s.sentOn x).length <
            (SendPc.following taskId sub last).left (s.sentOn x).length := by
      refine hpc'.imp_right ?_
      rintro ⟨taskId, rfl⟩
      simp only [SendPc.left]
      omega
    simp only [SendCall.next]
    intro s₁ b hrun
    obtain ⟨_, _, sub', o, hpolls, hself⟩ := post_pollCmd_polls s₁ b hrun
    rw [hself]
    obtain _ | _ | item := o
    · exact ⟨_, rfl, .inr (Nat.add_lt_add_left (hpolls.left (by simp) hx) 2)⟩
    · refine ⟨_, rfl, hover _ ?_⟩
      unfold finishSend
      split <;> simp
    · refine ⟨_, rfl, ?_⟩
      unfold onItem
      split
      · exact .inl ⟨_, rfl⟩
      · split
        · exact hover _ (.inr ⟨_, rfl⟩)
        · split
          · exact .inl ⟨_, rfl⟩
          · exact .inr (Nat.add_lt_add_left (hpolls.left (by simp) hx) 2)
  case answering taskId =>
    exact Cmd.post_of_forall fun _ task => ⟨_, rfl, .inl ⟨_, rfl⟩⟩
  case returned => exact Cmd.post_halt

/-- A poll of a closed channel does not wait. -/
theorem pollCmd_ready {sub : Subscription} {k : Subscription → Option (Option Item) → Thread}
    (hx : sub.receiver.map (·.exec) = some x) (hlt : x < s.executions.length)
    (hclosed : s.channelClosed x = true) : (pollCmd sub k).Ready s := by
  obtain ⟨receiver, hreceiver, rfl⟩ := Option.map_eq_some_iff.mp hx
  unfold pollCmd
  split
  · rfl
  · split
    · rfl
    · rfl
    · next hreceiver' =>
      obtain rfl := Option.some.inj (hreceiver'.symm.trans hreceiver)
      simp only [Cmd.Ready, Op.andThen, Op.run, List.getElem?_eq_getElem hlt, hclosed, if_true]
      split
      · rfl
      · split <;> rfl

/-- A send whose execution is over does not wait. -/
theorem SendCall.Awaits.ready {pc : SendPc} (haw : call.Awaits id x i tr s pc)
    (hpc : ∀ result, pc ≠ .returned result) (hlt : x < s.executions.length)
    (hclosed : s.channelClosed x = true) : (call.next h inp pc).Ready s := by
  cases pc <;> try exact haw.elim
  case attach p y =>
    obtain ⟨rfl, _⟩ := haw
    show (Op.run s (.listen y)).isSome = true
    rw [Op.run, List.getElem?_eq_getElem hlt]
    rfl
  case following taskId sub last => exact pollCmd_ready haw.2.1 hlt hclosed
  case answering taskId => rfl
  case returned result => exact absurd rfl (hpc result)

/-- Nothing is sent on a channel whose driver is done. -/
theorem Channel.sentOn_step (hc : Channel x s f) (hfinished : s.Finished x)
    (hs : Server.step h s a = some s') : s'.sentOn x = s.sentOn x := by
  obtain ⟨active, hactive, _⟩ := hc.active
  obtain ⟨request, rfl, rfl⟩ | ⟨j, t, cmd, s₁, b, hruns, hran⟩ := step_cases hs
  · rfl
  · obtain ⟨hlink, _⟩ := hran.post hruns.link
    have hsent := hlink.sentOn (List.getElem?_eq_some_iff.mp hactive).1 fun hdel =>
      hc.not_finished (List.mem_of_getElem? hruns.1) hdel hfinished
    rw [← hsent, hran.eq]
    rfl

/-! ## the answer -/

/-- What holds of an attached blocking send in undisturbed runs. -/
structure Answering (h : Handler) (call : SendCall) (id : TaskId) (x : ExecId) (i : Nat)
    (tr : List (Server × Action)) (s : Server) : Prop where
  tracked : Tracked h x tr s
  attached : Attached call id x i tr s
  registering : Registering tr s
  uncanceled : ∀ call pc, Thread.cancel call pc ∈ s.threads → call.req.id ≠ id
  own : s.taskOf x = some id

theorem run_answering {pushConfigStore : Option InMemoryPushConfigStore} {pushSender : Bool}
    (hr : (serverMachine h).Run (.new (.new none) pushConfigStore pushSender) tr s)
    (hcall : call.Blocking) (hg : Machine.Guarded (Undisturbed h id x i) tr)
    (hattach : s.Attaches call id x i ∨ ∃ p ∈ tr, p.1.Attaches call id x i) :
    Answering h call id x i tr s := by
  have hawaited := run_awaited hr hcall hg hattach
  exact ⟨hawaited.tracked, hawaited.attached hattach, run_registering hr,
    run_uncanceled hr fun p hp => (hg p hp).uncanceled, run_attached hr hattach⟩

theorem Answering.length (ha : Answering h call id x i tr s) : x < s.executions.length := by
  obtain ⟨active, hactive, _⟩ := taskOf_eq_some.mp ha.own
  exact (List.getElem?_eq_some_iff.mp hactive).1

/-- A driver that is done stays so. -/
theorem step_done (hk : s.threads[k]? = some (.drive d)) (hd : d.pc = .done)
    (hs : Server.step h s a = some s') : s'.threads[k]? = some (.drive d) := by
  obtain ⟨_, hsame⟩ | ⟨hnot, _⟩ := step_driver hk hs
  · exact hsame
  · exact absurd hd hnot

theorem SendCall.Awaits.no_stream {pc : SendPc} (haw : call.Awaits id x i tr s pc) :
    (Thread.send call pc).drop = ⟨.halt, Empty.elim⟩ := by
  cases pc <;> first | rfl | exact haw.elim

/-- How far a thread is from its answer, if it is a send. -/
def Thread.toAnswer (sent : Nat) : Thread → Nat
  | .send _ pc => pc.left sent
  | _ => 0

section Progress

variable {r : (serverMachine h).Unending} {traces : Nat → List (Server × Action)}

/-- A send that has registered its execution spawns the driver. -/
theorem attached_spawns (hfair : r.Fair (StepsOf i))
    (hall : ∀ n, Answering h call id x i (traces n) (r.state n)) :
    ∃ (n k : Nat) (d : Driver), (r.state n).threads[k]? = some (.drive d) ∧ d.exec = x := by
  let driven (n : Nat) : Prop :=
    ∃ (k : Nat) (d : Driver), (r.state n).threads[k]? = some (.drive d) ∧ d.exec = x
  have hplace (n : Nat) : (r.state n).Attaches call id x i ∨ driven n := by
    obtain ⟨_, _, ⟨_, hattach⟩ | ⟨d, hd, hx, _⟩⟩ := (hall n).attached.serves
    · exact .inl hattach
    · obtain ⟨k, hk⟩ := List.mem_iff_getElem?.mp hd
      exact .inr ⟨k, d, hk, hx⟩
  obtain hattach | hdriven := hplace 0
  · suffices hreaches : ∃ m, 0 ≤ m ∧ driven m by
      obtain ⟨m, _, hdriven⟩ := hreaches
      exact ⟨m, hdriven⟩
    refine hfair.reaches (P := fun n => (r.state n).Attaches call id x i) (fun _ => 0)
      (fun n hn => ?_) (fun n hn => ?_) hattach
    · obtain ⟨p, hp, _⟩ := hn
      have hready :
          ((Thread.send call (.attach p x)).next h (.emitting [])).Ready (r.state n) := by
        show (Op.run (r.state n) (.listen x)).isSome = true
        rw [Op.run, List.getElem?_eq_getElem (hall n).length]
        rfl
      exact enabled_of_ready hp hready
    · refine (hplace (n + 1)).symm.imp_right fun hattach =>
        ⟨hattach, Nat.le_refl 0, fun hacts => ?_⟩
      obtain ⟨p, hp, _⟩ := hn
      obtain ⟨hidle, _⟩ | ⟨inp, s₁, receiver, _, _, hran⟩ := step_thread hp rfl (r.step n)
      · exact absurd hacts hidle
      · -- it has attached
        obtain ⟨p', hp', _⟩ := hattach
        have hself := Option.some.inj (hp'.symm.trans (hran.getElem_self hp))
        simp only [Thread.next, SendCall.next] at hself
        split at hself <;> cases hself
  · exact ⟨0, hdriven⟩

/-- **A blocking send is answered** once its driver is done. -/
theorem done_answers (hfair : r.Fair (StepsOf i))
    (hall : ∀ n, Answering h call id x i (traces n) (r.state n)) {n : Nat}
    (hk : (r.state n).threads[k]? = some (.drive d)) (hx : d.exec = x) (hd : d.pc = .done) :
    ∃ m result, (r.state m).threads[i]? = some (.send call (.returned result)) := by
  let waiting (n : Nat) : Prop := (r.state n).threads[k]? = some (.drive d) ∧
    ∀ result, (r.state n).threads[i]? ≠ some (.send call (.returned result))
  let answered (n : Nat) : Prop :=
    ∃ result, (r.state n).threads[i]? = some (.send call (.returned result))
  let rank (n : Nat) : Nat :=
    (r.state n).view 0 (Thread.toAnswer ((r.state n).sentOn x).length) i
  have hclosed {n : Nat} (hn : waiting n) : (r.state n).channelClosed x = true :=
    (hall n).registering.closed (hall n).uncanceled (hall n).own hn.1 hx hd
  by_cases hnow : answered n
  · exact ⟨n, hnow⟩
  · suffices hreaches : ∃ m, n ≤ m ∧ answered m by
      obtain ⟨m, _, hm⟩ := hreaches
      exact ⟨m, hm⟩
    refine hfair.reaches (P := waiting) rank (fun n hn => ?_) (fun n hn => ?_)
      ⟨hk, fun result hresult => hnow ⟨result, hresult⟩⟩
    · obtain ⟨pc, hi, haw⟩ := (hall n).attached.awaits
      have hready : (call.next h (.emitting []) pc).Ready (r.state n) :=
        haw.ready (fun result hpc => hn.2 result (hpc ▸ hi)) (hall n).length (hclosed hn)
      exact enabled_of_ready hi hready
    · obtain ⟨pc, hi, haw⟩ := (hall n).attached.awaits
      have hdone := step_done hn.1 hd (r.step n)
      have hsent : (r.state (n + 1)).sentOn x = (r.state n).sentOn x := by
        obtain ⟨f, _, _, hc⟩ := (hall n).tracked.channel (hall n).length
        exact hc.sentOn_step (Server.finished_of_closed (hall n).length (hclosed hn)) (r.step n)
      have hpc : ∀ p y, pc ≠ .attach p y := by
        rintro p y rfl
        obtain ⟨rfl, _⟩ := haw
        -- the execution has one owner
        obtain rfl := (hall n).registering.owned.unique i k _ _ y hi hn.1 rfl (congrArg some hx)
        cases hi.symm.trans hn.1
      obtain ⟨hidle, hsame⟩ | ⟨inp, s₁, b, _, _, hran⟩ := step_thread hi haw.no_stream (r.step n)
      · refine .inr ⟨⟨hdone, ?_⟩, le_of_eq ?_, fun hacts => absurd hacts hidle⟩
        · rw [hsame, ← hi]
          exact hn.2
        · show (r.state (n + 1)).view 0 _ i = (r.state n).view 0 _ i
          rw [hsent, Server.view_of_getElem hi, Server.view_of_getElem hsame]
      · have hself := hran.getElem_self hi
        obtain ⟨pc', hself', hleft⟩ := hran.post (haw.next_left hpc)
        rw [hself'] at hself
        by_cases hnext : answered (n + 1)
        · exact .inl hnext
        · obtain ⟨result, rfl⟩ | hleft := hleft
          · exact .inl ⟨result, hself⟩
          · have hlt : rank (n + 1) < rank n := by
              show (r.state (n + 1)).view 0 _ i < (r.state n).view 0 _ i
              rw [hsent, Server.view_of_getElem hi, Server.view_of_getElem hself]
              exact hleft
            refine .inr ⟨⟨hdone, fun result hresult => ?_⟩, le_of_lt hlt, fun _ => hlt⟩
            exact hnext ⟨result, hresult⟩

end Progress

/-- **A blocking send agrees with the store**, in every undisturbed run: it
answers with the task as stored after the last event, unless more events were
waiting at one of its reads than its channel keeps; and under a scheduler that
is fair to it and to its driver it answers. -/
theorem blockingSend_answered {pushConfigStore : Option InMemoryPushConfigStore} {pushSender : Bool}
    (hr : (serverMachine h).Run (.new (.new none) pushConfigStore pushSender) tr s)
    (hcall : call.Blocking) (hg : Machine.Guarded (Undisturbed h id x i) tr)
    (hattach : ∃ p ∈ tr, p.1.Attaches call id x i) :
    (∀ result, s.threads[i]? = some (.send call (.returned result)) →
      (∃ z, s.taskStore.get id = some z ∧ s.Settled x ∧
        result = .ok (.task (applyHistoryLength z call.req.historyLength))) ∨
      (result = .error Subscription.lagError ∧ ∃ p ∈ tr, p.1.Lags i ∧ ∃ inp, p.2 = .step i inp)) ∧
    (∀ r : (serverMachine h).Unending, r.state 0 = s →
      (∀ n, Undisturbed h id x i (r.state n) (r.act n)) → r.Fair (StepsOf i) →
      (∀ (n k : Nat) (d : Driver), (r.state n).threads[k]? = some (.drive d) → d.exec = x →
        r.Fair (StepsOf k)) →
        ∃ n result, (r.state n).threads[i]? = some (.send call (.returned result))) := by
  constructor
  · intro result hi
    obtain ⟨pc, hi', haw⟩ := (run_answering hr hcall hg (.inr hattach)).attached.awaits
    cases hi.symm.trans hi'
    exact haw
  · rintro r rfl hundisturbed hsender hdriver
    have hall (n : Nat) : Answering h call id x i (tr ++ r.trace n) (r.state n) := by
      obtain ⟨p, hp, hattach⟩ := hattach
      exact run_answering (r.run hr n) hcall (Machine.Unending.guarded hg hundisturbed n)
        (.inr ⟨p, List.mem_append_left _ hp, hattach⟩)
    obtain ⟨n, k, d, hk, hx⟩ := attached_spawns hsender hall
    obtain ⟨m, _, d', hk', hx', hd'⟩ :=
      driver_ends (hdriver n k d hk hx) (fun n => (hall n).registering.owned) hk hx
    exact done_answers hsender hall hk' hx' hd'

/-! ## a burst of events -/

instance (call : SendCall) : Decidable call.Blocking :=
  decidable_of_iff (call.streaming = false ∧
    (call.req.configuration.bind (·.returnImmediately)).getD false = false)
    ⟨fun h => ⟨h.1, h.2⟩, fun h => ⟨h.1, h.2⟩⟩

/-- The execution and the task a blocking send is attached to. -/
def Thread.attachedTo : Thread → Option (ExecId × TaskId)
  | .send call (.attach p x) => if call.Blocking then some (x, p.task.id) else none
  | _ => none

/-- The execution a thread drives. -/
def Thread.drives : Thread → Option ExecId
  | .drive d => some d.exec
  | _ => none

/-- The state of the task a send answered with, or the code of its error. -/
def Thread.answer : Thread → Option (TaskState ⊕ Int)
  | .send _ (.returned (.ok (.task task))) => some (.inl task.status.state)
  | .send _ (.returned (.error error)) => some (.inr error.code)
  | _ => none

/-- `n` updates of the task. -/
def burst (n : Nat) : List Item :=
  List.replicate n (.ok (statusUpdate (makeTask "new-task" "new-context" .working)))

/-- A send, whose executor emits `n` updates, then receives `k` times. -/
def burstRun (n k : Nat) : List Action :=
  .call (.send (.opening "m")) :: List.replicate 5 (.step 0 (.emitting [])) ++
    List.replicate (3 + 7 * n) (.step 1 (.emitting (burst n))) ++
      List.replicate k (.step 0 (.emitting []))

theorem Thread.attachedTo_eq (ht : t.attachedTo = some (x, id)) :
    ∃ call p, t = .send call (.attach p x) ∧ call.Blocking ∧ p.task.id = id := by
  unfold attachedTo at ht
  split at ht
  · next call p y =>
    split at ht
    · next hcall =>
      obtain ⟨rfl, rfl⟩ := Prod.mk.inj (Option.some.inj ht)
      exact ⟨call, p, rfl, hcall, rfl⟩
    · contradiction
  · contradiction

theorem Thread.drives_eq (ht : t.drives = some x) : ∃ d, t = .drive d ∧ d.exec = x := by
  cases t with
  | drive d => exact ⟨d, rfl, Option.some.inj ht⟩
  | _ => contradiction

theorem accepted_burst (task : Task) (n : Nat) : Accepted "new-task" task (burst n) := by
  induction n generalizing task with
  | zero => trivial
  | succ n ih =>
      refine ⟨_, _, rfl, ⟨rfl, fun status hstatus => ?_⟩, rfl, fun _ => ih _⟩
      obtain rfl := Option.some.inj hstatus
      decide

/-- A step of the send, or of the driver, disturbs nothing. -/
theorem undisturbed_step {items : List Item} (hitems : ∀ task, Accepted id task items)
    (hk : k = i ∨ ∀ t, s.threads[k]? = some t → t.drives = some x) :
    Undisturbed h id x i s (.step k (.emitting items)) where
  uncanceled call ha := by cases ha
  alone call pc task _ _ hwrites _ := by
    obtain rfl | hk := hk
    · exact .inl ⟨_, rfl⟩
    · cases ht : s.threads[k]? with
      | none =>
          simp only [Server.writes, ht] at hwrites
          contradiction
      | some t =>
          obtain ⟨d, rfl, hx⟩ := Thread.drives_eq (hk t ht)
          exact .inr ⟨d, _, k, rfl, ht, hx⟩
  accepted d inp hd hpc task htask := by
    obtain ⟨_, ha, _⟩ := hd
    obtain ⟨rfl, rfl⟩ := Action.step.inj ha
    exact hitems task
  pushed d inp hd := by
    obtain ⟨_, ha, _⟩ := hd
    obtain ⟨rfl, rfl⟩ := Action.step.inj ha
    rfl

theorem undisturbed_call : Undisturbed h id x i s (.call (.send call)) where
  uncanceled call ha := by cases ha
  alone call pc task _ _ hwrites _ := by cases hwrites
  accepted d inp hd := by
    obtain ⟨_, ha, _⟩ := hd
    contradiction
  pushed d inp hd := by
    obtain ⟨_, ha, _⟩ := hd
    contradiction

/-- The runs of the script are undisturbed, if the second thread is the driver. -/
theorem burstRun_undisturbed {n k : Nat} {s₀ : Server}
    (hexec : (serverMachine h).exec s₀ (burstRun n k) = some (tr, s))
    (hdriver : ∀ p ∈ tr, ∀ t, p.1.threads[1]? = some t → t.drives = some 0) :
    Machine.Guarded (Undisturbed h "new-task" 0 0) tr := by
  rintro ⟨s, a⟩ hp
  have hmem : a ∈ tr.map (·.2) := List.mem_map_of_mem hp
  rw [Machine.actions_of_exec hexec, burstRun] at hmem
  simp only [List.mem_append, List.mem_cons, List.mem_replicate] at hmem
  obtain ((rfl | ⟨_, rfl⟩) | ⟨_, rfl⟩) | ⟨_, rfl⟩ := hmem
  · exact undisturbed_call
  · exact undisturbed_step (fun _ => trivial) (.inl rfl)
  · exact undisturbed_step (fun task => accepted_burst task n) (.inr (hdriver _ hp))
  · exact undisturbed_step (fun _ => trivial) (.inl rfl)

/-- What a run of the script shows. -/
def shownBy (p : List (Server × Action) × Server) :
    Bool × Option (ExecId × TaskId) × Option (TaskState ⊕ Int) :=
  (p.1.all fun q => (q.1.threads[1]?.map Thread.drives).all (· == some 0),
    p.1[5]?.bind fun q => q.1.threads[0]?.bind Thread.attachedTo,
    p.2.threads[0]?.bind Thread.answer)

/-- A run of the script, and what its send answers. -/
theorem burstRun_shown {n k : Nat} {pushConfigStore : Option InMemoryPushConfigStore}
    {pushSender : Bool} {answer : TaskState ⊕ Int}
    (hx : ((serverMachine h).exec (.new (.new none) pushConfigStore pushSender)
      (burstRun n k)).map shownBy = some (true, some (0, "new-task"), some answer)) :
    ∃ tr s call result, (serverMachine h).Run (.new (.new none) pushConfigStore pushSender) tr s ∧
      SendCall.Blocking call ∧ Machine.Guarded (Undisturbed h "new-task" 0 0) tr ∧
      (∃ p ∈ tr, p.1.Attaches call "new-task" 0 0) ∧
      s.threads[0]? = some (.send call (.returned result)) ∧
      (Thread.send call (.returned result)).answer = some answer := by
  obtain ⟨⟨tr, s⟩, hexec, hp⟩ := Option.map_eq_some_iff.mp hx
  obtain ⟨hdriver, hp⟩ := Prod.mk.inj hp
  obtain ⟨hattached, hanswer⟩ := Prod.mk.inj hp
  obtain ⟨p, hp, hattached⟩ := Option.bind_eq_some_iff.mp hattached
  obtain ⟨t, ht, hattached⟩ := Option.bind_eq_some_iff.mp hattached
  obtain ⟨call, prepared, rfl, hcall, hid⟩ := Thread.attachedTo_eq hattached
  have hrun := Machine.run_of_exec hexec
  have hattach : ∃ p ∈ tr, p.1.Attaches call "new-task" 0 0 :=
    ⟨p, List.mem_of_getElem? hp, prepared, ht, hid⟩
  have hundisturbed : Machine.Guarded (Undisturbed h "new-task" 0 0) tr := by
    refine burstRun_undisturbed hexec fun q hq t ht => ?_
    have hq := List.all_eq_true.mp hdriver q hq
    rw [ht, Option.map_some, Option.all_some, beq_iff_eq] at hq
    exact hq
  -- the thread that answers is the send
  obtain ⟨t, ht, hanswer⟩ := Option.bind_eq_some_iff.mp hanswer
  obtain ⟨pc, hi, _⟩ := (run_answering hrun hcall hundisturbed (.inr hattach)).attached.awaits
  obtain rfl := Option.some.inj (ht.symm.trans hi)
  cases pc <;> try contradiction
  case returned result _ =>
    exact ⟨tr, s, call, result, hrun, hcall, hundisturbed, hattach, hi, hanswer⟩

set_option maxRecDepth 10000 in
/-- A send that keeps up with two updates answers with what is stored. -/
theorem burst_answered :
    ∃ tr s call z, (serverMachine .new).Run (.new (.new none) none false) tr s ∧
      Machine.Guarded (Undisturbed .new "new-task" 0 0) tr ∧
      (∃ p ∈ tr, p.1.Attaches call "new-task" 0 0) ∧ s.taskStore.get "new-task" = some z ∧
      s.Settled 0 ∧ s.threads[0]? = some (.send call
        (.returned (.ok (.task (applyHistoryLength z call.req.historyLength))))) := by
  have hx : ((serverMachine .new).exec (.new (.new none) none false) (burstRun 2 4)).map shownBy =
      some (true, some (0, "new-task"), some (.inl .working)) := by decide
  obtain ⟨tr, s, call, result, hrun, hcall, hundisturbed, hattach, hi, hanswer⟩ := burstRun_shown hx
  obtain ⟨z, hz, hsettled, rfl⟩ | ⟨rfl, _⟩ :=
    (blockingSend_answered hrun hcall hundisturbed hattach).1 result hi
  · exact ⟨tr, s, call, z, hrun, hundisturbed, hattach, hz, hsettled, hi⟩
  · cases hanswer

set_option maxRecDepth 10000 in
/-- A send that comes back to 33 updates is answered with an error. -/
theorem burst_overruns :
    ¬ ∀ (h : Handler) (call : SendCall) (id : TaskId) (x : ExecId) (i : Nat)
      (pushConfigStore : Option InMemoryPushConfigStore) (pushSender : Bool) tr s,
      (serverMachine h).Run (.new (.new none) pushConfigStore pushSender) tr s →
      call.Blocking → Machine.Guarded (Undisturbed h id x i) tr →
      (∃ p ∈ tr, p.1.Attaches call id x i) →
        ∀ result, s.threads[i]? = some (.send call (.returned result)) →
          ∃ z, s.taskStore.get id = some z ∧ s.Settled x ∧
            result = .ok (.task (applyHistoryLength z call.req.historyLength)) := by
  intro hagrees
  have hx : ((serverMachine .new).exec (.new (.new none) none false) (burstRun 33 1)).map shownBy =
      some (true, some (0, "new-task"), some (.inr (-32603))) := by decide
  obtain ⟨tr, s, call, result, hrun, hcall, hundisturbed, hattach, hi, hanswer⟩ := burstRun_shown hx
  obtain ⟨z, _, _, rfl⟩ := hagrees .new call "new-task" 0 0 none false tr s hrun hcall hundisturbed
    hattach result hi
  cases hanswer

end A2a
