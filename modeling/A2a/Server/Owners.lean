import A2a.Server.Links

/-!
# A2a.Server.Owners

Who publishes on an execution, and which executions threads know.

An execution belongs to the send that registered it, and then to the driver
that send spawns (`Owned`).  The executions that threads and waiters know
have been started (`Started`), and a task about to be registered is not
terminal (`Loaded`).
-/

namespace A2a

/-- The execution a thread drives, or is about to spawn the driver of. -/
def Thread.owns : Thread → Option ExecId
  | .send _ (.attach _ x) => some x
  | .drive d => some d.exec
  | _ => none

/-- The task a send is about to create or to register. -/
def Thread.prepared : Thread → Option Task
  | .send _ (.create prepared) => some prepared.task
  | .send _ (.savePush prepared) => some prepared.task
  | .send _ (.start prepared) => some prepared.task
  | _ => none

/-- The execution whose channel a thread is at. -/
def Link.on : Link → Option ExecId
  | .attaching x => some x
  | .publishing x _ _ (.count _) => some x
  | .publishing x _ _ (.send _) => some x
  | .reading receiver => some receiver.exec
  | .following _ sub => sub.receiver.map (·.exec)
  | .ended _ sub => sub.receiver.map (·.exec)
  | _ => none

/-- The snapshot of an execution. -/
def Server.snapshotOf (s : Server) (x : ExecId) : Option Task :=
  s.executions[x]?.map (·.snapshotTask)

/-- An execution that has been started has one owner. -/
structure Owned (s : Server) : Prop where
  started : ∀ (i : Nat) (t : Thread) (x : ExecId), s.threads[i]? = some t → t.owns = some x → x < s.executions.length
  unique : ∀ (i j : Nat) (t u : Thread) (x : ExecId), s.threads[i]? = some t → s.threads[j]? = some u →
    t.owns = some x → u.owns = some x → i = j

/-- The executions that threads and waiters know have been started. -/
structure Started (s : Server) : Prop where
  links : ∀ t ∈ s.threads, ∀ x, t.link.on = some x → x < s.executions.length
  handed : ∀ (w : WaiterId) (value : Resubscription), s.oneshots[w]? = some (Oneshot.full value) →
    ∀ receiver, value.receiver = some receiver → receiver.exec < s.executions.length

/-- A task about to be registered is not terminal. -/
def Loaded (s : Server) : Prop :=
  ∀ t ∈ s.threads, ∀ task, t.prepared = some task → task.isTerminal = false

variable {h : Handler} {s s' s₁ : Server} {a : Action} {id : TaskId} {x : ExecId} {t t' : Thread}
  {task : Task}

/-! ## what a step does to an owner -/

/-- An execution is attached to by the thread that registered it. -/
theorem Link.Step.attaching {l : Link} (hl : Link.Step s s₁ l (.attaching x)) :
    ∃ task, l = .registering task ∧ x = s.executions.length ∧
      s₁.executions = s.executions ++ [.new task] := by
  cases hl with
  | rest _ hrest => exact hrest.elim
  | start _ hexec => exact ⟨_, rfl, rfl, hexec⟩
  | unheard _ _ hrest => exact hrest.elim
  | send _ _ hrest => exact hrest.elim

/-- A step never forgets an execution. -/
theorem Link.Step.length_le {l l' : Link} (hl : Link.Step s s₁ l l') :
    s.executions.length ≤ s₁.executions.length := by
  cases hl with
  | rest _ _ hcalm => rw [hcalm.executions]
  | start _ hexec => simp [hexec]
  | attach _ hcalm => rw [hcalm.executions]
  | listen _ hcalm => rw [hcalm.executions]
  | read _ hcalm => rw [hcalm.executions]
  | take _ hcalm => rw [hcalm.executions]
  | poll _ _ hcalm => rw [hcalm.executions]
  | ends _ hcalm => rw [hcalm.executions]
  | publish _ hexec => simp [hexec]
  | heard _ hcalm => rw [hcalm.executions]
  | unheard _ hcalm => rw [hcalm.executions]
  | send hexec => rw [hexec]; split <;> simp

/-- A thread that owns an execution after a step owned it before, or has just
registered it. -/
theorem Thread.Continues.owns {new : List Thread} (hc : t.Continues t' new)
    (hl : Link.Step s s₁ t.link t'.link) (ho : t'.owns = some x) :
    t.owns = some x ∨
      (x = s.executions.length ∧ x < s₁.executions.length) := by
  cases t' with
  | send call pc =>
      cases pc <;> simp only [Thread.owns, reduceCtorEq, Option.some.injEq] at ho
      subst ho
      obtain ⟨task, _, hx, hexec⟩ := Link.Step.attaching hl
      refine .inr ⟨hx, ?_⟩
      rw [hexec, hx, List.length_append]
      exact Nat.lt_succ_self _
  | drive d' =>
      cases t <;> simp only [Thread.Continues] at hc
      case drive d =>
        obtain ⟨_, hexec, _⟩ := hc
        left
        rw [← ho, Thread.owns, Thread.owns, hexec]
  | _ => contradiction

/-- A step spawns one thread at most: the driver of the execution its send
owned. -/
theorem Thread.Continues.spawns {new : List Thread} (hc : t.Continues t' new)
    (hl : Link.Step s s₁ t.link t'.link) {t₂ : Thread} (hmem : t₂ ∈ new) :
    new = [t₂] ∧ t'.owns = none ∧ ∃ call p x, t = .send call (.attach p x) ∧
      t₂ = .drive (call.driver p x) := by
  obtain ⟨call, p, x, rfl, rfl⟩ := hc.spawned hmem
  cases t' with
  | send call' pc =>
      obtain ⟨_, hnil | ⟨p', x', hpc, hnew⟩⟩ := hc
      · rw [hnil] at hmem
        exact absurd hmem List.not_mem_nil
      · cases hpc
        refine ⟨hnew, ?_, call, p, x, rfl, rfl⟩
        cases pc <;> try rfl
        -- a send that is attaching was registering before
        obtain ⟨task, hreg, _⟩ := Link.Step.attaching hl
        contradiction
  | dropped =>
      rw [show new = [] from hc] at hmem
      exact absurd hmem List.not_mem_nil
  | _ => exact hc.elim

/-- Only a send that is attaching spawns. -/
theorem Thread.Continues.spawns_nothing {new : List Thread} (hc : t.Continues t' new)
    (ht : ∀ call p x, t ≠ .send call (.attach p x)) : new = [] := by
  refine List.eq_nil_iff_forall_not_mem.mpr fun u hu => ?_
  obtain ⟨call, p, x, hsend, _⟩ := hc.spawned hu
  exact ht call p x hsend

/-! ## what a step leaves of an execution -/

/-- The registration an operation ends. -/
def Op.finishes {β : Type} : Op β → Option (TaskId × ExecId)
  | .finish id x => some (id, x)
  | _ => none

@[simp] theorem saveOp_finishes (task : Task) (pc : SavePc) : (saveOp task pc).finishes = none := by
  cases pc <;> rfl

@[simp] theorem pushCmd_finishes (inp : Input) (taskId : TaskId) (event : StreamResponse)
    (pc : PushPc) (k : PushPc ⊕ Except A2AError Unit → Thread) :
    (pushCmd inp taskId event pc k).op.finishes = none := by
  obtain _ | _ | ⟨config, rest⟩ := pc <;> rfl

@[simp] theorem publishCmd_finishes (x : ExecId) (result : Item) (snapshotTask : Option Task)
    (pc : PublishPc) (k : Option PublishPc → Thread) :
    (publishCmd x result snapshotTask pc k).op.finishes = none := by
  cases pc <;> rfl

@[simp] theorem pollCmd_finishes (sub : Subscription)
    (k : Subscription → Option (Option Item) → Thread) : (pollCmd sub k).op.finishes = none := by
  obtain ⟨receiver, snapshotTask, minSequence, done, yielded⟩ := sub
  cases done <;> cases snapshotTask <;> cases receiver <;> rfl

@[simp] theorem releaseCmd_finishes (task : Task) (pc : ReleasePc)
    (k : Option ReleasePc → Thread) : (releaseCmd task pc k).op.finishes = none := by
  obtain _ | _ | ⟨w, rest⟩ := pc <;> rfl

/-- Only a driver at its end, or a cancel, ends a registration: that of its
task. -/
theorem Server.runs.finishes {i : Nat} {cmd : Cmd} (hruns : s.runs h a i t cmd) {id : TaskId}
    (hop : cmd.op.finishes = some (id, x)) :
    (∃ d, t = .drive d ∧ d.pc = .finishing ∧ d.taskId = id ∧ d.exec = x) ∨
      ∃ call pc, t = .cancel call pc ∧ call.req.id = id := by
  obtain ⟨_, ⟨inp, _, rfl⟩ | ⟨_, rfl⟩⟩ := hruns
  · cases t with
    | drive d =>
        refine .inl ⟨d, rfl, ?_⟩
        obtain ⟨taskId, y, ctx, current, stream, answered, tracked, pc⟩ := d
        cases pc <;> simp only [Thread.next, Driver.next, pushCmd_finishes, publishCmd_finishes,
          Op.andThen, saveOp_finishes, reduceCtorEq] at hop
        case finishing =>
          obtain ⟨rfl, rfl⟩ := Prod.mk.inj (Option.some.inj hop)
          exact ⟨rfl, rfl, rfl⟩
        case poll => split at hop <;> contradiction
        all_goals contradiction
    | send call pc =>
        cases pc <;> simp only [Thread.next, SendCall.next, pollCmd_finishes, reduceCtorEq] at hop
        case load => split at hop <;> contradiction
        case savePush => split at hop <;> contradiction
        all_goals contradiction
    | subscribe call pc =>
        cases pc <;>
          simp only [Thread.next, SubscribeCall.next, pollCmd_finishes, reduceCtorEq] at hop
        case register => split at hop <;> contradiction
        all_goals contradiction
    | cancel call pc =>
        refine .inr ⟨call, pc, rfl, ?_⟩
        cases pc <;> simp only [Thread.next, CancelCall.next, pushCmd_finishes, releaseCmd_finishes,
          Op.andThen, saveOp_finishes, reduceCtorEq] at hop
        case load => split at hop <;> contradiction
        case publishing c event pc =>
          split at hop
          · contradiction
          · rw [publishCmd_finishes] at hop
            contradiction
        case failPublishing c error pc =>
          split at hop
          · contradiction
          · rw [publishCmd_finishes] at hop
            contradiction
        case finishing c =>
          split at hop
          · contradiction
          · obtain ⟨rfl, _⟩ := Prod.mk.inj (Option.some.inj hop)
            rfl
        all_goals contradiction
    | dropped => contradiction
  · cases t with
    | send call pc => cases pc <;> contradiction
    | subscribe call pc => cases pc <;> contradiction
    | _ => contradiction

/-- An operation leaves a registration, unless it ends it. -/
theorem Op.Effects.stays {β : Type} {op : Op β} (he : op.Effects s s₁)
    (hx : s.manager.executions id = some x) (hop : op.finishes ≠ some (id, x)) :
    s₁.manager.executions id = some x := by
  rw [he.registered]
  cases op with
  | start task =>
      simp only [Op.registeredAfter]
      split
      · exact hx
      · next hfree =>
        have hne : id ≠ task.id := by
          rintro rfl
          simp [hx] at hfree
        rw [Function.update_of_ne hne]
        exact hx
  | finish id' y =>
      simp only [Op.registeredAfter, ExecutionManager.finish]
      split
      · next hy =>
        have hne : id ≠ id' := by
          rintro rfl
          obtain rfl := Option.some.inj (hx.symm.trans hy)
          exact hop rfl
        simp only [Function.update_of_ne hne]
        exact hx
      · exact hx
  | _ => exact hx

/-- A step leaves the snapshot of an execution, unless it publishes there. -/
theorem Link.Step.snapshotOf {l l' : Link} (hl : Link.Step s s₁ l l')
    (hx : s.snapshotOf x = some task)
    (hpub : ∀ item published, l ≠ .publishing x item published .write) :
    s₁.snapshotOf x = some task := by
  obtain ⟨active, hactive, rfl⟩ := Option.map_eq_some_iff.mp hx
  have hcalm (hc : s.Calm s₁) : s₁.snapshotOf x = some active.snapshotTask := by
    rw [Server.snapshotOf, hc.executions]
    exact hx
  cases hl with
  | rest _ _ hc => exact hcalm hc
  | attach _ hc => exact hcalm hc
  | listen _ hc => exact hcalm hc
  | read _ hc => exact hcalm hc
  | take _ hc => exact hcalm hc
  | poll _ _ hc => exact hcalm hc
  | ends _ hc => exact hcalm hc
  | heard _ hc => exact hcalm hc
  | unheard _ hc => exact hcalm hc
  | start _ hexec =>
      have hlt := (List.getElem?_eq_some_iff.mp hactive).1
      rw [Server.snapshotOf, hexec, List.getElem?_append_left hlt, hactive]
      rfl
  | @publish y item published _ _ hexec =>
      have hne : y ≠ x := by
        rintro rfl
        exact hpub item published rfl
      rw [Server.snapshotOf, hexec, List.getElem?_modify_ne _ _ hne, hactive]
      rfl
  | @send y item published sequence _ hexec =>
      rw [Server.snapshotOf, hexec]
      split
      · by_cases hy : y = x
        · subst hy
          rw [List.getElem?_modify_eq, hactive]
          rfl
        · rw [List.getElem?_modify_ne _ _ hy, hactive]
          rfl
      · rw [hactive]
        rfl

/-! ## the invariants -/

/-- The threads a step spawns stand behind the others. -/
theorem Server.Ran.spawned {i : Nat} {cmd : Cmd} {b : cmd.β} (hr : s.Ran i cmd s' s₁ b) {k : Nat}
    (hge : s.threads.length ≤ k) (hk : s'.threads[k]? = some t') :
    (cmd.resume b).2[k - s.threads.length]? = some t' := by
  rw [hr.threads, List.getElem?_append_right (by simpa using hge)] at hk
  simpa using hk

/-- Where the owner of an execution after a step is: if the execution is new
it is the thread that acted, else where its owner was before, unless that
spawned it. -/
theorem Server.Ran.owner {i : Nat} {cmd : Cmd} {b : cmd.β} (hr : s.Ran i cmd s' s₁ b)
    (hruns : s.runs h a i t cmd) {k : Nat} (hk : s'.threads[k]? = some t') (ho : t'.owns = some x) :
    (x = s.executions.length ∧ x < s'.executions.length ∧ k = i) ∨
      ∃ (o : Nat) (u : Thread), s.threads[o]? = some u ∧ u.owns = some x ∧
        k = if o = i ∧ (cmd.resume b).1.owns = none then s.threads.length else o := by
  have hcont := hr.post hruns.continues
  obtain ⟨hlink, _⟩ := hr.post hruns.link
  have hexec : s'.executions = s₁.executions := by rw [hr.eq]
  obtain ⟨rfl, rfl⟩ | ⟨hne, hold⟩ | ⟨hge, hmem⟩ := hr.thread_cases hk
  · obtain ht | ⟨hx, hlt⟩ := hcont.owns hlink ho
    · refine .inr ⟨k, t, hruns.1, ht, ?_⟩
      simp [ho]
    · exact .inl ⟨hx, by rw [hexec]; exact hlt, rfl⟩
  · exact .inr ⟨k, t', hold, ho, by rw [if_neg fun h => hne h.1]⟩
  · obtain ⟨hnew, hnone, call, p, y, rfl, rfl⟩ := hcont.spawns hlink hmem
    refine .inr ⟨i, _, hruns.1, ho, ?_⟩
    have hget := hr.spawned hge hk
    rw [hnew] at hget
    have hlt := (List.getElem?_eq_some_iff.mp hget).1
    rw [List.length_singleton] at hlt
    rw [if_pos ⟨rfl, hnone⟩]
    omega

theorem Owned.step (ho : Owned s) (hs : Server.step h s a = some s') : Owned s' := by
  obtain ⟨request, rfl, rfl⟩ | ⟨i, t, cmd, s₁, b, hruns, hran⟩ := step_cases hs
  · -- a call that arrives owns nothing
    have hcall : ∀ (k : Nat) (t : Thread) (x : ExecId),
        (s.threads ++ [request.thread])[k]? = some t → t.owns = some x →
          s.threads[k]? = some t := by
      intro k t x hk hx
      rw [List.getElem?_append] at hk
      split at hk
      · exact hk
      · obtain rfl := List.mem_singleton.mp (List.mem_of_getElem? hk)
        cases request <;> contradiction
    constructor
    · intro k t x hk hx
      exact ho.started k t x (hcall k t x hk hx) hx
    · intro j k t u x hj hk ht hu
      exact ho.unique j k t u x (hcall j t x hj ht) (hcall k u x hk hu) ht hu
  · have hlength : s.executions.length ≤ s'.executions.length := by
      rw [show s'.executions = s₁.executions by rw [hran.eq]]
      exact (hran.post hruns.link).1.length_le
    constructor
    · intro k t' x hk hx
      obtain ⟨_, hlt, _⟩ | ⟨o, u, hu, hown, _⟩ := hran.owner hruns hk hx
      · exact hlt
      · exact Nat.lt_of_lt_of_le (ho.started o u x hu hown) hlength
    · intro j k t₁ t₂ x hj hk h₁ h₂
      obtain ⟨hx, _, hj⟩ | ⟨o, u, hu, hown, hj⟩ := hran.owner hruns hj h₁
      · obtain ⟨_, _, hk⟩ | ⟨o', u', hu', hown', _⟩ := hran.owner hruns hk h₂
        · rw [hj, hk]
        · have hlt := ho.started o' u' x hu' hown'
          rw [hx] at hlt
          exact absurd hlt (Nat.lt_irrefl _)
      · obtain ⟨hx, _⟩ | ⟨o', u', hu', hown', hk⟩ := hran.owner hruns hk h₂
        · have hlt := ho.started o u x hu hown
          rw [hx] at hlt
          exact absurd hlt (Nat.lt_irrefl _)
        · rw [hj, hk, ho.unique o o' u u' x hu hu' hown hown']

/-- A thread that rests is at no channel. -/
theorem Link.Resting.on {l : Link} (hl : l.Resting) : l.on = none := by
  cases l with
  | publishing x item snapshotTask pc =>
      cases pc with
      | write => rfl
      | count sequence => exact hl.elim
      | send sequence => exact hl.elim
  | idle => rfl
  | registering task => rfl
  | _ => exact hl.elim

/-- A stream stays at its channel. -/
theorem Subscription.Polls.receiver {sub sub' : Subscription} {o : Option (Option Item)}
    (hp : sub.Polls s sub' o) : sub'.receiver.map (·.exec) = sub.receiver.map (·.exec) := by
  cases hp with
  | done hdone => rfl
  | snapshot hlive htask => rfl
  | unattached hlive htask hreceiver => rfl
  | event hlive htask hreceiver =>
      rw [hreceiver, receive]
      split <;> rfl
  | lagged hlive htask hreceiver => rfl
  | closed hlive htask hreceiver => rfl

/-- The executions a thread knows after a step have been started. -/
theorem Link.Step.started {l l' : Link} (hl : Link.Step s s₁ l l') (hn : Started s)
    (hold : ∀ y, l.on = some y → y < s.executions.length) (hon : l'.on = some x) :
    x < s₁.executions.length := by
  have hle := hl.length_le
  have hactive {y : ExecId} {active : ActiveExecution} (h : s.executions[y]? = some active) :
      y < s₁.executions.length :=
    Nat.lt_of_lt_of_le (List.getElem?_eq_some_iff.mp h).1 hle
  cases hl with
  | rest _ hrest =>
      rw [hrest.on] at hon
      contradiction
  | start _ hexec =>
      obtain rfl := Option.some.inj hon
      simp [hexec]
  | attach h _ => exact Option.some.inj hon ▸ hactive h
  | listen h _ => exact Option.some.inj hon ▸ hactive h
  | read h _ => exact Option.some.inj hon ▸ hactive h
  | take h _ =>
      obtain ⟨receiver, hreceiver, rfl⟩ := Option.map_eq_some_iff.mp hon
      exact Nat.lt_of_lt_of_le (hn.handed _ _ h receiver hreceiver) hle
  | poll hpolls =>
      refine Nat.lt_of_lt_of_le (hold x ?_) hle
      rw [← hon]
      exact hpolls.receiver.symm
  | ends hpolls =>
      refine Nat.lt_of_lt_of_le (hold x ?_) hle
      rw [← hon]
      exact hpolls.receiver.symm
  | publish h => exact Option.some.inj hon ▸ hactive h
  | heard => exact Nat.lt_of_lt_of_le (hold x hon) hle
  | unheard _ _ hrest =>
      rw [hrest.on] at hon
      contradiction
  | send _ _ hrest =>
      rw [hrest.on] at hon
      contradiction

/-- So have those that waiters are handed. -/
theorem Link.Step.handed {l l' : Link} (hl : Link.Step s s₁ l l') (hn : Started s) {w : WaiterId}
    {value : Resubscription} (hfull : s₁.oneshots[w]? = some (.full value)) {receiver : Receiver}
    (hreceiver : value.receiver = some receiver) : receiver.exec < s₁.executions.length := by
  have hold (h : s.oneshots[w]? = some (.full value)) :
      receiver.exec < s₁.executions.length :=
    Nat.lt_of_lt_of_le (hn.handed w value h receiver hreceiver) hl.length_le
  have hcalm (h : s.Calm s₁) : receiver.exec < s₁.executions.length := by
    obtain hnone | hbefore := h.oneshots w value hfull
    · rw [hnone] at hreceiver
      contradiction
    · exact hold hbefore
  cases hl with
  | start _ hexec hone =>
      obtain rfl | hbefore := hone w value hfull
      · obtain rfl := Option.some.inj hreceiver
        simp [hexec]
      · exact hold hbefore
  | publish _ _ hone => exact hold (hone ▸ hfull)
  | send _ hone => exact hold (hone ▸ hfull)
  | rest _ _ h => exact hcalm h
  | attach _ h => exact hcalm h
  | listen _ h => exact hcalm h
  | read _ h => exact hcalm h
  | take _ h => exact hcalm h
  | poll _ _ h => exact hcalm h
  | ends _ h => exact hcalm h
  | heard _ h => exact hcalm h
  | unheard _ h => exact hcalm h

theorem Started.step (hn : Started s) (hs : Server.step h s a = some s') : Started s' := by
  obtain ⟨request, rfl, rfl⟩ | ⟨i, t, cmd, s₁, b, hruns, hran⟩ := step_cases hs
  · refine ⟨fun t ht x hx => ?_, hn.handed⟩
    obtain ht | ht := List.mem_append.mp ht
    · exact hn.links t ht x hx
    · obtain rfl := List.mem_singleton.mp ht
      cases request <;> contradiction
  · obtain ⟨hlink, hnew⟩ := hran.post hruns.link
    have hexec : s'.executions = s₁.executions := by rw [hran.eq]
    have hone : s'.oneshots = s₁.oneshots := by rw [hran.eq]
    constructor
    · intro t' ht' x hx
      rw [hexec]
      obtain rfl | hold | hspawned := hran.mem_threads ht'
      · exact hlink.started hn (hn.links t (List.mem_of_getElem? hruns.1)) hx
      · exact Nat.lt_of_lt_of_le (hn.links t' hold x hx) hlink.length_le
      · rw [hnew t' hspawned] at hx
        contradiction
    · intro w value hfull receiver hreceiver
      rw [hexec]
      rw [hone] at hfull
      exact hlink.handed hn hfull hreceiver

/-! ## what is registered -/

/-- A send prepares a task that is not terminal, and keeps to it. -/
theorem SendCall.next_prepares (call : SendCall) (pc : SendPc) (inp : Input) :
    (call.next h inp pc).Post s fun _ t' _ => ∀ task, t'.prepared = some task →
      (Thread.send call pc).prepared = some task ∨ task.isTerminal = false := by
  cases pc <;> simp only [SendCall.next]
  case load =>
    split
    · simp [Thread.prepared]
    · simp only [Cmd.post_get]
      split
      · simp [Thread.prepared]
      · next prepared hp =>
          have hlive : prepared.task.isTerminal = false := by
            obtain ⟨y, _, hlive, rfl⟩ | ⟨_, _, rfl⟩ := prepare_ok hp
            · exact hlive
            · rfl
          split <;> simp [Thread.prepared, hlive]
  case create prepared =>
    refine Cmd.post_of_forall fun _ o => ?_
    cases o <;> simp [Thread.prepared]
  case savePush prepared =>
    split
    · simp [Thread.prepared]
    · refine Cmd.post_of_forall fun _ o => ?_
      cases o <;> simp [Thread.prepared]
  case start prepared =>
    refine Cmd.post_of_forall fun _ o => ?_
    cases o <;> simp [Thread.prepared]
  case attach => exact fun _ _ _ => by dsimp only; split <;> simp [Thread.prepared]
  case following =>
    refine post_pollCmd fun _ _ o => ?_
    obtain _ | _ | item := o
    · simp [Thread.prepared]
    · simp only [SendCall.finishSend]
      split <;> simp [Thread.prepared]
    · simp only [SendCall.onItem]
      split
      · simp [Thread.prepared]
      · split
        · simp [Thread.prepared]
        · split <;> simp [Thread.prepared]
  case answering => simp [Thread.prepared]
  case streaming =>
    refine post_pollCmd fun _ _ o => ?_
    obtain _ | _ | _ := o <;> simp [Thread.prepared]
  case returned => simp
  case ended => simp

theorem Loaded.step (hl : Loaded s) (hs : Server.step h s a = some s') : Loaded s' := by
  obtain ⟨request, rfl, rfl⟩ | ⟨i, t, cmd, s₁, b, hruns, hran⟩ := step_cases hs
  · intro t ht task htask
    obtain ht | ht := List.mem_append.mp ht
    · exact hl t ht task htask
    · obtain rfl := List.mem_singleton.mp ht
      cases request <;> contradiction
  · have hmem := List.mem_of_getElem? hruns.1
    have hcont := hran.post hruns.continues
    intro t' ht' task htask
    obtain rfl | hold | hspawned := hran.mem_threads ht'
    · cases t with
      | send call pc =>
          obtain ⟨_, ⟨inp, _, rfl⟩ | ⟨_, rfl⟩⟩ := hruns
          · obtain hbefore | hlive := hran.post (call.next_prepares pc inp) task htask
            · exact hl _ hmem task hbefore
            · exact hlive
          · rw [(hran.post (Thread.drop_dropped _)).1] at htask
            contradiction
      | _ =>
          cases hself : (cmd.resume b).1 with
          | send call pc =>
              rw [hself] at hcont
              exact hcont.elim
          | _ =>
              rw [hself] at htask
              contradiction
    · exact hl t' hold task htask
    · obtain ⟨_, _, _, _, rfl⟩ := hcont.spawned hspawned
      contradiction

end A2a
