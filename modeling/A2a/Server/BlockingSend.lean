import A2a.Server.Isolation
import A2a.Server.Resubscription

/-!
# A2a.Server.BlockingSend

A blocking send and the execution it waits for, in every interleaving.

The send follows the channel of its execution and answers with the last
event or with what is stored (`SendPc.Awaits`), while the driver stores,
pushes and publishes (`Driver.Serves`).  `Awaited` relates the two to the
store, in runs in which nobody else stores the task.
-/

namespace A2a

open InMemoryTaskStore

/-! ## the executor -/

/-- An event of the task that does not ask for authorization. -/
structure Agreeable (id : TaskId) (event : StreamResponse) : Prop where
  task : taskIdForEvent event = some id
  authorized : ∀ status, event.status = some status → status.state ≠ .authRequired

/-- What an executor may emit on the task: events of its id that can be
applied one after another, up to a terminal one or to the end. -/
def Accepted (id : TaskId) : Task → List Item → Prop
  | _, [] => True
  | task, item :: rest => ∃ event next, item = .ok event ∧ Agreeable id event ∧
      foldEvent task event = .ok next ∧ (isTerminalEvent event = false → Accepted id next rest)

/-! ## the domain -/

/-- The action is a step of the driver of `x`. -/
def Server.Drives (s : Server) (x : ExecId) (a : Action) (d : Driver) (inp : Input) : Prop :=
  ∃ k, a = .step k inp ∧ s.threads[k]? = some (.drive d) ∧ d.exec = x

/-- No other turn or cancel touches the task from the time the `i`-th thread, a
send, has read it; and the driver of its execution `x` is given events it can
apply, and delivers them. -/
structure Undisturbed (h : Handler) (id : TaskId) (x : ExecId) (i : Nat) (s : Server) (a : Action) :
    Prop where
  uncanceled : ∀ call, a = .call (.cancel call) → call.req.id ≠ id
  alone : ∀ call pc task, s.threads[i]? = some (.send call pc) → pc ≠ .load →
    s.writes h a = some task → task.id = id →
      (∃ inp, a = .step i inp) ∨ ∃ d inp, s.Drives x a d inp
  accepted : ∀ d inp, s.Drives x a d inp → d.pc = .start → ∀ task, s.snapshotOf x = some task →
    Accepted id task inp.stream
  pushed : ∀ d inp, s.Drives x a d inp → inp.push = .ok ()

/-- The send waits for its execution until it is over. -/
structure SendCall.Blocking (call : SendCall) : Prop where
  unstreamed : call.streaming = false
  waits : (call.req.configuration.bind (·.returnImmediately)).getD false = false

/-- The `i`-th thread is a blocking send more events behind than its channel
keeps. -/
def Server.Lags (s : Server) (i : Nat) : Prop :=
  ∃ call taskId sub lastEvent receiver active,
    s.threads[i]? = some (.send call (.following taskId sub lastEvent)) ∧
      sub.receiver = some receiver ∧ s.executions[receiver.exec]? = some active ∧
      receiver.next + executionBufferCapacity < active.sent.length

/-- The places of a driver that has stored its last event. -/
def DrivePc.Settled : DrivePc → Prop
  | .pushing event _ => isTerminalEvent event = true
  | .publishing event _ => isTerminalEvent event = true
  | .finishing => True
  | .done => True
  | _ => False

/-- The driver of `x` has stored its last event. -/
def Server.Settled (s : Server) (x : ExecId) : Prop :=
  ∃ d, .drive d ∈ s.threads ∧ d.exec = x ∧ d.pc.Settled

/-! ## the invariant -/

/-- What was last published is the stored task. -/
def LastStored (log : List (Item × Task)) (z : Task) : Prop := ∀ p, log.getLast? = some p → p.2 = z

/-- A driver that has published `log` while `z` is stored. -/
structure Driver.Serves (id : TaskId) (log : List (Item × Task)) (z : Task) (d : Driver) :
    Prop where
  unanswered : d.answered = false
  current : d.pc ≠ .start → d.current.id = id
  place : match d.pc with
    | .start => z.isTerminal = false
    | .poll => z.isTerminal = false ∧ LastStored log z ∧ Accepted id d.current d.stream
    | .saving event task pc => z.isTerminal = false ∧ pc = .update ∧ task.id = id ∧
        Agreeable id event ∧ (isTerminalEvent event = false → Accepted id task d.stream)
    | .pushing event _ => z = d.current ∧ Agreeable id event ∧
        (isTerminalEvent event = false → Accepted id d.current d.stream)
    | .publishing event _ => z = d.current ∧ Agreeable id event ∧
        (isTerminalEvent event = false → Accepted id d.current d.stream)
    | .finishing => LastStored log z
    | .done => LastStored log z
    | _ => False

/-- A blocking send of the task once it is attached to `x`. -/
def SendCall.Awaits (call : SendCall) (id : TaskId) (x : ExecId) (i : Nat)
    (tr : List (Server × Action)) (s : Server) : SendPc → Prop
  | .attach prepared y => y = x ∧ prepared.task.id = id
  | .following taskId sub lastEvent => taskId = id ∧ sub.receiver.map (·.exec) = some x ∧
      sub.yielded.getLast? = lastEvent.map .ok
  | .answering taskId => taskId = id ∧ s.Settled x
  | .returned result =>
      (∃ z, s.taskStore.get id = some z ∧ s.Settled x ∧
        result = .ok (.task (applyHistoryLength z call.req.historyLength))) ∨
      (result = .error Subscription.lagError ∧
        ∃ p ∈ tr, p.1.Lags i ∧ ∃ inp, p.2 = .step i inp)
  | _ => False

/-- The `i`-th thread is the send, attached to `x` by a task of the id. -/
def Server.Attaches (s : Server) (call : SendCall) (id : TaskId) (x : ExecId) (i : Nat) : Prop :=
  ∃ p, s.threads[i]? = some (.send call (.attach p x)) ∧ p.task.id = id

/-- The send and its execution once they are attached. -/
structure Attached (call : SendCall) (id : TaskId) (x : ExecId) (i : Nat)
    (tr : List (Server × Action)) (s : Server) : Prop where
  first : ∀ task, startedOn x tr = some task → task.id = id
  serves : ∃ z, s.taskStore.get id = some z ∧
    ((z.isTerminal = false ∧ s.Attaches call id x i) ∨
      ∃ d, .drive d ∈ s.threads ∧ d.exec = x ∧ d.Serves id (published x tr) z)
  agreeable : ∀ p ∈ published x tr, ∃ event, p.1 = .ok event ∧ Agreeable id event
  awaits : ∃ pc, s.threads[i]? = some (.send call pc) ∧ call.Awaits id x i tr s pc

/-- The invariant of undisturbed runs. -/
structure Awaited (h : Handler) (call : SendCall) (id : TaskId) (x : ExecId) (i : Nat)
    (tr : List (Server × Action)) (s : Server) : Prop where
  tracked : Tracked h x tr s
  unlimited : s.taskStore.terminalTaskLimit = none
  ready : s.executions.length ≤ x → ∀ t task, s.threads[i]? = some t →
    t.unregistered = some task → task.id = id → s.taskStore.Live id
  attached : (s.Attaches call id x i ∨ ∃ p ∈ tr, p.1.Attaches call id x i) →
    Attached call id x i tr s

variable {h : Handler} {id : TaskId} {x : ExecId} {i : Nat} {call : SendCall}
  {tr : List (Server × Action)} {s s' s₁ : Server} {a : Action} {t t' : Thread} {z task : Task}
  {f : Feed Item Task} {inp : Input} {log : List (Item × Task)}

/-! ## what an executor may emit -/

theorem Agreeable.not_message {event : StreamResponse} (he : Agreeable id event) :
    event.isMessage = false := by
  cases event with
  | message message => cases he.task
  | _ => rfl

theorem Agreeable.backfill {event : StreamResponse} (he : Agreeable id event) (now : DateTime) :
    Agreeable id (backfillStatusTimestamp now event) where
  task := by
    rw [taskIdForEvent_backfill]
    exact he.task
  authorized status hstatus := by
    cases event with
    | task next =>
        obtain rfl := Option.some.inj hstatus
        exact he.authorized next.status rfl
    | statusUpdate update =>
        obtain rfl := Option.some.inj hstatus
        exact he.authorized update.status rfl
    | artifactUpdate update => cases hstatus
    | message message => cases hstatus

/-- An event of the task makes one of its id. -/
theorem Agreeable.fold {event : StreamResponse} {next : Task} (he : Agreeable id event)
    (hid : task.id = id) (hfold : foldEvent task event = .ok next) : next.id = id := by
  cases event with
  | task given =>
      obtain rfl := Except.ok.inj hfold
      exact Option.some.inj he.task
  | statusUpdate update =>
      obtain rfl := Except.ok.inj hfold
      exact hid
  | artifactUpdate update =>
      rw [applyArtifactUpdate_frame hfold]
      exact hid
  | message message => cases he.task

/-- What an event makes of tasks with the same artifacts has the same
artifacts. -/
theorem foldEvent_congr {event : StreamResponse} {task task' next : Task}
    (hartifacts : task'.artifacts = task.artifacts) (hfold : foldEvent task event = .ok next) :
    ∃ next', foldEvent task' event = .ok next' ∧ next'.artifacts = next.artifacts := by
  cases event with
  | task given => exact ⟨next, hfold, rfl⟩
  | statusUpdate update =>
      obtain rfl := Except.ok.inj hfold
      exact ⟨_, rfl, hartifacts⟩
  | artifactUpdate update =>
      simp only [foldEvent, applyArtifactUpdate, hartifacts] at hfold ⊢
      split at hfold
      · next happend =>
        rw [if_pos happend]
        split at hfold
        · next hknown =>
          obtain rfl := Except.ok.inj hfold
          exact ⟨_, if_pos hknown, rfl⟩
        · contradiction
      · next happend =>
        rw [if_neg happend]
        split at hfold
        · next hknown =>
          obtain rfl := Except.ok.inj hfold
          exact ⟨_, if_pos hknown, rfl⟩
        · next hknown =>
          obtain rfl := Except.ok.inj hfold
          exact ⟨_, if_neg hknown, rfl⟩
  | message message =>
      obtain rfl := Except.ok.inj hfold
      exact ⟨_, rfl, hartifacts⟩

/-- A timestamp makes no difference to the artifacts. -/
theorem foldEvent_backfill {event : StreamResponse} {next : Task} (now : DateTime)
    (hfold : foldEvent task event = .ok next) :
    ∃ next', foldEvent task (backfillStatusTimestamp now event) = .ok next' ∧
      next'.artifacts = next.artifacts := by
  cases event with
  | task given =>
      obtain rfl := Except.ok.inj hfold
      exact ⟨_, rfl, rfl⟩
  | statusUpdate update =>
      obtain rfl := Except.ok.inj hfold
      exact ⟨_, rfl, rfl⟩
  | artifactUpdate update => exact ⟨next, hfold, rfl⟩
  | message message => exact ⟨next, hfold, rfl⟩

/-- What may be emitted depends on the artifacts of the task only. -/
theorem Accepted.congr {task task' : Task} {items : List Item} (hitems : Accepted id task items)
    (hartifacts : task'.artifacts = task.artifacts) : Accepted id task' items := by
  induction items generalizing task task' with
  | nil => trivial
  | cons item rest ih =>
      obtain ⟨event, next, rfl, hagreeable, hfold, hrest⟩ := hitems
      obtain ⟨next', hfold', hsame⟩ := foldEvent_congr hartifacts hfold
      exact ⟨event, next', rfl, hagreeable, hfold', fun hlive => ih (hrest hlive) hsame⟩

/-! ## the steps of the driver -/

/-- A push that is delivered does not fail. -/
theorem post_pushCmd_delivered {taskId : TaskId} {event : StreamResponse} {pc : PushPc}
    {k : PushPc ⊕ Except A2AError Unit → Thread} {Q : Server → Thread → List Thread → Prop}
    (hpush : inp.push = .ok ()) (hon : ∀ s₁ pc, Q s₁ (k (.inl pc)) [])
    (hdone : ∀ s₁, Q s₁ (k (.inr (.ok ()))) []) : (pushCmd inp taskId event pc k).Post s Q := by
  obtain _ | _ | ⟨config, rest⟩ := pc
  · exact Cmd.post_of_forall fun s₁ _ => hon s₁ _
  · exact Cmd.post_of_forall fun s₁ _ => hdone s₁
  · intro s₁ b hrun
    obtain ⟨rfl, rfl⟩ := Prod.mk.inj (Option.some.inj hrun)
    rw [hpush]
    exact hon _ _

/-- The task of an execution can be stored while it is live. -/
theorem run_update (hz : s.taskStore.get task.id = some z) (hlive : z.isTerminal = false)
    {answer : Except A2AError TaskVersion}
    (hrun : (Op.update task).run s = some (s₁, answer)) :
    (∃ version, answer = .ok version) ∧ (Op.update task).writes s = some task := by
  simp only [Op.run, Option.some.injEq, Prod.mk.injEq] at hrun
  obtain ⟨_, rfl⟩ := hrun
  obtain ⟨hnone, _⟩ | ⟨old, hold, hterm, _⟩ | ⟨_, version, _, _, _, hu, _⟩ :=
    update_cases s.taskStore task
  · rw [hz] at hnone
    contradiction
  · obtain rfl := Option.some.inj (hz.symm.trans hold)
    rw [hlive] at hterm
    contradiction
  · rw [Op.writes, hu]
    exact ⟨⟨version, rfl⟩, rfl⟩

/-- What a driver leaves that has published what is stored. -/
theorem lastStored_of_log {item : Item} {last : Task} (hlog : f.log = log ++ [(item, last)]) :
    LastStored f.log last := by
  intro p hp
  rw [hlog, List.getLast?_concat] at hp
  rw [← Option.some.inj hp]

/-- A driver given an event it can apply is about to store what it makes of its
task. -/
theorem Driver.Serves.accept {d : Driver} (hanswer : d.answered = false) (hid : d.current.id = id)
    (hlive : z.isTerminal = false) {event : StreamResponse}
    (hagreeable : Agreeable id event) {next : Task} (hfold : foldEvent d.current event = .ok next)
    (hrest : isTerminalEvent event = false → Accepted id next d.stream) :
    ∃ d', d.accept inp event = .drive d' ∧ d'.Serves id log z ∧ ¬ d'.pc.Settled := by
  obtain ⟨next', hfold', hsame⟩ := foldEvent_backfill inp.now hfold
  have hmessage := hagreeable.not_message
  simp only [Driver.accept, hanswer, hmessage, hfold', Bool.false_or, Bool.false_and,
    Bool.false_eq_true, if_false]
  have hagreeable' := hagreeable.backfill inp.now
  refine ⟨_, rfl, ⟨rfl, fun _ => hid, hlive, rfl, ?_, hagreeable', fun hends => ?_⟩, fun h => h⟩
  · rw [Task.backfill_id]
    exact hagreeable'.fold hid hfold'
  · rw [isTerminalEvent_backfill] at hends
    exact (hrest hends).congr (by rw [Task.backfill_artifacts, hsame])

/-- What a driver has stored when its event is published. -/
theorem Driver.Serves.published {d : Driver} {event : StreamResponse}
    (hanswer : d.answered = false) (hid : d.current.id = id)
    (hlog : ∃ log last, f.log = log ++ [(.ok event, d.current)] ∧ Driven f.start log last ∧
      Applies last event d.current)
    (hrest : isTerminalEvent event = false → Accepted id d.current d.stream) :
    ∃ d', d.goto (if isTerminalEvent event then .finishing else .poll) = .drive d' ∧
      d'.Serves id f.log d.current ∧ (isTerminalEvent event = true → d'.pc.Settled) := by
  obtain ⟨log, last, hlog, hdriven, happlies⟩ := hlog
  have hstored := lastStored_of_log hlog
  cases hends : isTerminalEvent event with
  | true => exact ⟨_, rfl, ⟨hanswer, fun _ => hid, hstored⟩, fun _ => trivial⟩
  | false =>
      have hlive : d.current.isTerminal = false := by
        rw [foldEvent_isTerminal hdriven.live happlies.fold, hends]
      exact ⟨_, rfl, ⟨hanswer, fun _ => hid, hlive, hstored, hrest hends⟩, fun h => by
        contradiction⟩

/-- **The steps of the driver**: what it stores is its task, and it goes on with
what is stored. -/
theorem Driver.Serves.next {d : Driver} (hd : d.Serves id f.log z) (hstage : d.Stage f)
    (hfirst : f.start.id = id) (hz : s.taskStore.get id = some z)
    (hsnapshot : s.snapshotOf d.exec = some f.last)
    (haccepted : d.pc = .start → Accepted id f.last inp.stream) (hpush : inp.push = .ok ()) :
    (d.next inp).Post s fun _ t' _ => ∃ d', t' = .drive d' ∧
      d'.Serves id (d.link.after d.exec f).log (((d.next inp).writes s).getD z) ∧
      (d.pc.Settled → d'.pc.Settled ∧ (d.next inp).writes s = none) := by
  obtain ⟨hanswer, hid, hplace⟩ := hd
  cases hpc : d.pc <;> simp only [hpc] at hplace <;> simp only [Driver.Stage, hpc] at hstage <;>
    simp only [Driver.next, Driver.link, hpc]
  case start =>
    obtain ⟨hnil, hdriven⟩ := hstage
    have hlast := hdriven.eq_last
    intro s₁ state hrun
    obtain ⟨active, hactive, heq⟩ := Option.map_eq_some_iff.mp hrun
    obtain ⟨_, rfl⟩ := Prod.mk.inj heq
    rw [Server.snapshotOf, hactive] at hsnapshot
    have hsnapshot : active.snapshotTask = f.last := Option.some.inj hsnapshot
    refine ⟨_, rfl, ⟨hanswer, fun _ => ?_, hplace, ?_, ?_⟩, fun h => h.elim⟩
    · rw [hsnapshot, hlast, hfirst]
    · show LastStored f.log z
      rw [hnil]
      intro p hp
      contradiction
    · rw [hsnapshot]
      exact haccepted hpc
  case poll =>
    have hid := hid (by simp [hpc])
    obtain ⟨hlive, hstored, hitems⟩ := hplace
    cases hstream : d.stream with
    | nil =>
        exact Cmd.post_of_forall fun _ _ =>
          ⟨_, rfl, ⟨hanswer, fun _ => hid, hstored⟩, fun h => h.elim⟩
    | cons item rest =>
        rw [hstream] at hitems
        obtain ⟨event, next, rfl, hagreeable, hfold, hrest⟩ := hitems
        refine Cmd.post_of_forall fun _ state => ?_
        dsimp only
        split
        · exact ⟨_, rfl, ⟨hanswer, fun _ => hid, hstored⟩, fun h => h.elim⟩
        · obtain ⟨d', haccept, hserves, _⟩ := Driver.Serves.accept (d := { d with stream := rest })
            hanswer hid hlive hagreeable hfold hrest
          exact ⟨d', haccept, hserves, fun h => h.elim⟩
  case saving event task pc =>
    have hid := hid (by simp [hpc])
    obtain ⟨hlive, rfl, htask, hagreeable, hrest⟩ := hplace
    subst htask
    intro s₁ answer hrun
    obtain ⟨⟨version, rfl⟩, hwrites⟩ := run_update hz hlive hrun
    refine ⟨_, rfl, ⟨hanswer, fun _ => rfl, ?_, hagreeable, hrest⟩, fun h => h.elim⟩
    show ((Op.update task).writes s).getD z = task
    rw [hwrites]
    rfl
  case pushing event pc =>
    have hid := hid (by simp [hpc])
    rw [pushCmd_writes]
    refine post_pushCmd_delivered hpush (fun _ pc => ?_) fun _ => ?_
    · exact ⟨_, rfl, ⟨hanswer, fun _ => hid, hplace⟩, fun h => ⟨h, rfl⟩⟩
    · exact ⟨_, rfl, ⟨hanswer, fun _ => hid, hplace⟩, fun h => ⟨h, rfl⟩⟩
  case publishing event pc =>
    have hid := hid (by simp [hpc])
    obtain ⟨rfl, hagreeable, hrest⟩ := hplace
    rw [publishCmd_writes]
    have hplace : d.current = d.current ∧ Agreeable id event ∧
        (isTerminalEvent event = false → Accepted id d.current d.stream) := ⟨rfl, hagreeable, hrest⟩
    cases pc with
    | write =>
        refine Cmd.post_of_forall fun _ sequence => ?_
        exact ⟨_, rfl, ⟨hanswer, fun _ => hid, hplace⟩, fun h => ⟨h, rfl⟩⟩
    | count sequence =>
        refine Cmd.post_of_forall fun _ heard => ?_
        cases heard with
        | true => exact ⟨_, rfl, ⟨hanswer, fun _ => hid, hplace⟩, fun h => ⟨h, rfl⟩⟩
        | false =>
            obtain ⟨d', hd', hserves, hsettled⟩ := Driver.Serves.published hanswer hid hstage hrest
            exact ⟨d', hd', hserves, fun h => ⟨hsettled h, rfl⟩⟩
    | send sequence =>
        refine Cmd.post_of_forall fun _ _ => ?_
        obtain ⟨d', hd', hserves, hsettled⟩ := Driver.Serves.published hanswer hid hstage hrest
        exact ⟨d', hd', hserves, fun h => ⟨hsettled h, rfl⟩⟩
  case finishing =>
    have hid := hid (by simp [hpc])
    exact Cmd.post_of_forall fun _ _ => ⟨_, rfl, ⟨hanswer, fun _ => hid, hplace⟩,
      fun _ => ⟨trivial, rfl⟩⟩
  case done => exact Cmd.post_halt

/-- What a driver publishes is an event of its task. -/
theorem Driver.Serves.publishes {d : Driver} (hd : d.Serves id log z) {p : Item × Task}
    (hp : d.link.publishes x task = some p) :
    ∃ event, p.1 = .ok event ∧ Agreeable id event := by
  obtain ⟨_, _, hplace⟩ := hd
  unfold Driver.link at hp
  split at hp
  · next event pc hpc =>
    rw [hpc] at hplace
    cases pc with
    | write =>
        simp only [Link.publishes] at hp
        split at hp
        · obtain rfl := Option.some.inj hp
          exact ⟨event, rfl, hplace.2.1⟩
        · contradiction
    | count sequence => contradiction
    | send sequence => contradiction
  · next error failed pc hpc =>
    rw [hpc] at hplace
    exact hplace.elim
  · contradiction

/-! ## the end of the stream -/

/-- A driver that is done, or published an item that ends its stream, has stored
its last event. -/
theorem Driver.Serves.over {d : Driver} (hd : d.Serves id f.log z) (hstage : d.Stage f)
    (hover : d.pc = .done ∨ ∃ p ∈ f.log, Subscription.endsStream p.1 = true) :
    d.pc.Settled ∧ LastStored f.log z := by
  obtain ⟨_, _, hplace⟩ := hd
  have hquiet {log : List (Item × Task)} {last : Task} (hlog : Driven f.start log last)
      {p : Item × Task} (hp : p ∈ log) (hends : Subscription.endsStream p.1 = true) : False := by
    rw [hlog.quiet p hp] at hends
    contradiction
  obtain hdone | ⟨p, hp, hends⟩ := hover
  · simp only [hdone] at hplace ⊢
    exact ⟨trivial, hplace⟩
  · cases hpc : d.pc <;> simp only [hpc] at hplace <;> simp only [Driver.Stage, hpc] at hstage
    case start => exact (hquiet hstage.2 hp hends).elim
    case poll => exact (hquiet hstage hp hends).elim
    case saving => exact (hquiet hstage.1 hp hends).elim
    case pushing =>
      obtain ⟨last, hlog, _⟩ := hstage
      exact (hquiet hlog hp hends).elim
    case publishing event pc =>
      obtain ⟨rfl, _, _⟩ := hplace
      have hsent (hlog : ∃ log last, f.log = log ++ [(.ok event, d.current)] ∧
          Driven f.start log last ∧ Applies last event d.current) :
          isTerminalEvent event = true ∧ LastStored f.log d.current := by
        obtain ⟨log, last, hlog, hdriven, _⟩ := hlog
        refine ⟨?_, lastStored_of_log hlog⟩
        rw [hlog] at hp
        obtain hp | hp := List.mem_append.mp hp
        · exact (hquiet hdriven hp hends).elim
        · rw [List.mem_singleton.mp hp] at hends
          exact hends
      cases pc with
      | write =>
          obtain ⟨last, hlog, _⟩ := hstage
          exact (hquiet hlog hp hends).elim
      | count sequence => exact hsent hstage
      | send sequence => exact hsent hstage
    case finishing => exact ⟨trivial, hplace⟩
    case done => exact ⟨trivial, hplace⟩

/-- A whole task that was published last is the snapshot. -/
theorem Publications.last_task {first given : Task} (hp : Publications first log)
    (hlast : log.getLast? = some (.ok (.task given), task)) : task = given := by
  have hsnoc {log : List (Item × Task)} {last next : Task} {event : StreamResponse}
      (happlies : Applies last event next)
      (hlast : (log ++ [((.ok event : Item), next)]).getLast? = some (.ok (.task given), task)) :
      task = given := by
    rw [List.getLast?_concat] at hlast
    obtain ⟨hevent, rfl⟩ := Prod.mk.inj (Option.some.inj hlast)
    obtain rfl := Except.ok.inj hevent
    exact (Except.ok.inj happlies.fold).symm
  cases hp with
  | live h =>
      cases h with
      | nil => contradiction
      | snoc _ happlies => exact hsnoc happlies hlast
  | terminal _ happlies => exact hsnoc happlies hlast
  | failed =>
      rw [List.getLast?_concat] at hlast
      obtain ⟨hevent, _⟩ := Prod.mk.inj (Option.some.inj hlast)
      contradiction

/-- What a sender's stream has yielded, while it has yielded no error: what was
published, up to some entry. -/
theorem Subscription.Reading.sender {sub : Subscription} {last : Option StreamResponse}
    (hr : sub.Reading f false) (hlast : sub.yielded.getLast? = last.map .ok) :
    sub.snapshotTask = none ∧ sub.yielded = f.between 0 sub.minSequence := by
  obtain ⟨k, hreads, hsender⟩ := hr.reads
  obtain rfl := hsender rfl
  cases hreads with
  | opening hresumed => contradiction
  | going _ htask hyielded => exact ⟨htask, hyielded⟩
  | lagged _ _ _ hyielded =>
      rw [hyielded, List.getLast?_concat] at hlast
      cases last <;> cases hlast

/-- A sender's stream that is over has yielded all there was; and if an item
ended it, that was published. -/
theorem Subscription.Over.sender {sub : Subscription} {last : Option StreamResponse}
    (hover : sub.Over f false) (hlog : Publications f.start f.log)
    (hlast : sub.yielded.getLast? = last.map .ok) :
    last.map .ok = f.log.getLast?.map (·.1) ∧
      (sub.done = true → ∃ p ∈ f.log, Subscription.endsStream p.1 = true) := by
  obtain ⟨htask, hyielded⟩ := hover.toReading.sender hlast
  have hall (hmin : sub.minSequence = f.log.length) : sub.yielded = f.log.map (·.1) := by
    rw [hyielded, hmin, Feed.between, List.take_length, List.drop_zero]
  cases hdone : sub.done with
  | false =>
      rw [← hlast, hall (hover.caughtUp hdone).2, List.getLast?_map]
      exact ⟨rfl, fun h => by contradiction⟩
  | true =>
      have hends := hover.done
      rw [hdone, eq_comm, Option.any_eq_true] at hends
      obtain ⟨item, hitem, hends⟩ := hends
      have hmem : item ∈ f.between 0 sub.minSequence := hyielded ▸ List.mem_of_getLast? hitem
      have hmin : sub.minSequence = f.log.length := by
        by_contra hne
        rw [hlog.quiet (Nat.lt_of_le_of_ne hover.bound hne) item hmem] at hends
        contradiction
      rw [hyielded, hmin, Feed.between, List.take_length, List.drop_zero] at hitem
      obtain ⟨p, hp, rfl⟩ := List.mem_map.mp (List.mem_of_getLast? hitem)
      rw [← hlast, hall hmin, List.getLast?_map]
      exact ⟨rfl, fun _ => ⟨p, hp, hends⟩⟩

/-! ## the steps of the send -/

/-- A blocking send waits on through an event of its task. -/
theorem Agreeable.uninterrupted {event : StreamResponse} (he : Agreeable id event)
    (hcall : call.Blocking) : shouldInterruptNonStreaming call.req event = none := by
  unfold shouldInterruptNonStreaming
  simp only [hcall.waits, Bool.false_eq_true, if_false]
  cases event with
  | task given => exact if_neg (he.authorized given.status rfl)
  | statusUpdate update => exact if_neg (he.authorized update.status rfl)
  | _ => rfl

/-- What the stored task is once the last event was published, or the driver is
done. -/
theorem Attached.settled (ht : Attached call id x i tr s) (hc : Channel x s f)
    (hlog : f.log = published x tr)
    (hover : s.Finished x ∨ ∃ p ∈ f.log, Subscription.endsStream p.1 = true) :
    s.Settled x ∧ ∃ z, s.taskStore.get id = some z ∧ LastStored f.log z := by
  obtain ⟨z, hz, ⟨_, p, hp, _⟩ | ⟨d, hd, hx, hserves⟩⟩ := ht.serves
  · -- the send is still to attach
    have hmem := List.mem_of_getElem? hp
    obtain hfinished | ⟨q, hq, _⟩ := hover
    · have hholds := hfinished _ hmem rfl
      contradiction
    · have hnil : f.log = [] := ((hc.threads _ hmem).link rfl).1
      rw [hnil] at hq
      exact absurd hq List.not_mem_nil
  · rw [← hlog] at hserves
    have hstage := (hc.threads _ hd).stage d rfl hx
    obtain ⟨hsettled, hstored⟩ := hserves.over hstage (hover.imp_left fun hfinished =>
      Driver.done_of_holds (hfinished _ hd (congrArg some hx)))
    exact ⟨⟨d, hd, hx, hsettled⟩, z, hz, hstored⟩

/-- What a blocking send answers once its stream is over. -/
theorem SendCall.awaits_finish {last : Option StreamResponse} (hsettled : s.Settled x)
    (hz : s.taskStore.get id = some z) (hstored : LastStored f.log z)
    (hlog : Publications f.start f.log)
    (hagreeable : ∀ p ∈ f.log, ∃ event, p.1 = .ok event ∧ Agreeable id event)
    (hlast : last.map .ok = f.log.getLast?.map (·.1)) :
    call.Awaits id x i tr s (call.finishSend id last) := by
  cases last with
  | none => exact ⟨rfl, hsettled⟩
  | some event =>
      obtain ⟨⟨item, next⟩, hp, heq⟩ := Option.map_eq_some_iff.mp hlast.symm
      obtain rfl : item = .ok event := heq
      obtain ⟨event', heq, he⟩ := hagreeable _ (List.mem_of_getLast? hp)
      obtain rfl := Except.ok.inj heq
      cases event with
      | task given =>
          obtain rfl : z = given := (hstored _ hp).symm.trans (hlog.last_task hp)
          exact .inl ⟨z, hz, hsettled, rfl⟩
      | statusUpdate update => exact ⟨Option.some.inj he.task, hsettled⟩
      | artifactUpdate update => exact ⟨Option.some.inj he.task, hsettled⟩
      | message message => cases he.task

/-- **The steps of the send**: it follows its stream until that is over, and then
answers with what is stored. -/
theorem SendCall.Awaits.next {pc : SendPc} (haw : call.Awaits id x i tr s pc)
    (hi : s.threads[i]? = some (.send call pc)) (hcall : call.Blocking)
    (ht : Attached call id x i tr s) (hc : Channel x s f) (hlog : f.log = published x tr) :
    (call.next h inp pc).Post s fun _ t' _ => ∃ pc', t' = .send call pc' ∧
      call.Awaits id x i (tr ++ [(s, .step i inp)]) s pc' := by
  have hmem := List.mem_of_getElem? hi
  have hagreeable : ∀ p ∈ f.log, ∃ event, p.1 = .ok event ∧ Agreeable id event := by
    rw [hlog]
    exact ht.agreeable
  cases pc <;> try exact haw.elim
  case attach p y =>
    obtain ⟨rfl, hid⟩ := haw
    simp only [SendCall.next]
    intro s₁ receiver hrun
    obtain ⟨active, hactive, heq⟩ := Option.map_eq_some_iff.mp hrun
    obtain ⟨_, rfl⟩ := Prod.mk.inj heq
    refine ⟨_, rfl, ?_⟩
    rw [hcall.unstreamed, if_neg Bool.false_ne_true]
    exact ⟨hid, rfl, rfl⟩
  case following taskId sub last =>
    obtain ⟨rfl, hx, hlast⟩ := haw
    simp only [SendCall.next]
    intro s₁ b hrun
    obtain ⟨_, _, sub', o, hpolls, hself⟩ := post_pollCmd_polls s₁ b hrun
    rw [hself]
    have hfollows : sub.Follows f false := (hc.threads _ hmem).link hx
    obtain ⟨receiver, hreceiver, hexec⟩ := Option.map_eq_some_iff.mp hx
    obtain ⟨active, hactive, _, _, hsent⟩ := hc.active
    have hunique {other : ActiveExecution} (hother : s.executions[receiver.exec]? = some other) :
        other = active := by
      rw [hexec] at hother
      exact Option.some.inj (hother.symm.trans hactive)
    -- the stream is over
    have hend (ho : sub.Polls s sub' (some none)) :
        call.Awaits taskId x i (tr ++ [(s, .step i inp)]) s (call.finishSend taskId last) := by
      obtain ⟨_, hover, hclosed⟩ := hfollows.ends ho hreceiver
        (fun other hother => by rw [hunique hother]; exact hsent) fun hclosed => by
          by_contra hpending
          obtain ⟨u, hu, hdel⟩ := hc.pending (by simpa using hpending)
          rw [hexec] at hclosed
          exact hc.not_finished hu hdel
            (Server.finished_of_closed (List.getElem?_eq_some_iff.mp hactive).1 hclosed)
      obtain ⟨hall, hends⟩ := hover.sender hc.log hlast
      have hsettled : s.Finished x ∨ ∃ p ∈ f.log, Subscription.endsStream p.1 = true := by
        cases hdone : sub.done with
        | true => exact .inr (hends hdone)
        | false =>
            have hclosed := hclosed hdone
            rw [hexec] at hclosed
            exact .inl
              (Server.finished_of_closed (List.getElem?_eq_some_iff.mp hactive).1 hclosed)
      obtain ⟨hsettled, z, hz, hstored⟩ := ht.settled hc hlog hsettled
      exact awaits_finish hsettled hz hstored hc.log hagreeable hall
    have hkept : sub'.receiver.map (·.exec) = some x := by rw [hpolls.receiver, hx]
    cases hpolls with
    | done hdone => exact ⟨_, rfl, hend (.done hdone)⟩
    | snapshot _ htask =>
        rw [(hfollows.toReading.sender hlast).1] at htask
        contradiction
    | unattached _ _ hnone =>
        rw [hreceiver] at hnone
        contradiction
    | closed hlive htask hother hactive' hnone hclosed =>
        exact ⟨_, rfl, hend (.closed hlive htask hother hactive' hnone hclosed)⟩
    | lagged _ _ hother hactive' hfar =>
        refine ⟨_, rfl, .inr ⟨rfl, (s, .step i inp), by simp, ?_, inp, rfl⟩⟩
        exact ⟨call, taskId, sub, last, _, _, hi, hother, hactive', hfar⟩
    | @event receiver' active' event _ _ hother hactive' _ hevent =>
        by_cases hseen : event.sequence ≤ sub.minSequence
        · rw [if_pos hseen]
          refine ⟨_, rfl, rfl, hkept, ?_⟩
          rw [Subscription.receive, if_pos hseen]
          exact hlast
        · rw [if_neg hseen]
          -- what is received was published
          rw [hreceiver] at hother
          obtain rfl := Option.some.inj hother
          rw [hunique hactive', hsent, List.getElem?_map, Option.map_eq_some_iff] at hevent
          obtain ⟨q, hq, rfl⟩ := hevent
          obtain ⟨_, hentry⟩ := hc.ok.sent q (List.mem_of_getElem? hq)
          obtain ⟨p, hp, hitem⟩ := Option.map_eq_some_iff.mp hentry
          obtain ⟨event, hpe, he⟩ := hagreeable p (List.mem_of_getElem? hp)
          have hresult : (toEvent q).result = .ok event := by rw [← hpe, hitem]; rfl
          refine ⟨.following taskId _ (some event), ?_, rfl, hkept, ?_⟩
          · have hmessage := he.not_message
            simp only [hresult, SendCall.onItem, he.uninterrupted hcall]
            cases event <;> first | rfl | contradiction
          · rw [Subscription.receive, if_neg hseen, List.getLast?_concat, hresult]
            rfl
  case answering taskId =>
    obtain ⟨rfl, hsettled⟩ := haw
    obtain ⟨z, hz, _⟩ := ht.serves
    simp only [SendCall.next, Cmd.post_get, hz]
    exact ⟨_, rfl, .inl ⟨z, hz, hsettled, rfl⟩⟩
  case returned => exact Cmd.post_halt

/-! ## the steps of the others -/

theorem SendCall.Awaits.mono {pc : SendPc} (haw : call.Awaits id x i tr s pc)
    {tr' : List (Server × Action)} (htr : ∀ p ∈ tr, p ∈ tr')
    (hsettled : s.Settled x → s'.Settled x ∧ s'.taskStore.get id = s.taskStore.get id) :
    call.Awaits id x i tr' s' pc := by
  cases pc with
  | attach p y => exact haw
  | following taskId sub last => exact haw
  | answering taskId => exact ⟨haw.1, (hsettled haw.2).1⟩
  | returned result =>
      obtain ⟨z, hz, hx, hresult⟩ | ⟨hresult, p, hp, hlags⟩ := haw
      · exact .inl ⟨z, (hsettled hx).2.trans hz, (hsettled hx).1, hresult⟩
      · exact .inr ⟨hresult, p, htr p hp, hlags⟩
  | _ => exact haw.elim

/-- A driver that does not act stays where it is. -/
theorem drive_mem_of_idle {d : Driver} (hd : .drive d ∈ s.threads) (hx : d.exec = x)
    (hs : Server.step h s a = some s') (hidle : ∀ d inp, ¬ s.Drives x a d inp) :
    .drive d ∈ s'.threads := by
  obtain ⟨k, hk⟩ := List.mem_iff_getElem?.mp hd
  obtain ⟨request, rfl, rfl⟩ | ⟨j, t, cmd, s₁, b, hruns, hran⟩ := step_cases hs
  · exact List.mem_append_left _ hd
  · refine List.mem_of_getElem? (hran.getElem_other (k := k) ?_ hk)
    rintro rfl
    obtain rfl := Option.some.inj (hk.symm.trans hruns.1)
    obtain ⟨inp, ha, _⟩ := hruns.next hran rfl
    exact hidle d inp ⟨k, ha, hk, hx⟩

/-- Only the driver of an execution publishes on it. -/
theorem OnlyDriver.publishes (honly : OnlyDriver x s a) (hidle : ∀ d inp, ¬ s.Drives x a d inp) :
    s.publishes x a = none := by
  cases a with
  | step k inp =>
      by_contra hpublishes
      obtain ⟨p, hp⟩ := Option.ne_none_iff_exists'.mp hpublishes
      have hpublishes := hp
      simp only [Server.publishes] at hp
      split at hp
      · next t active hk hactive =>
        cases hl : t.link with
        | publishing y item snapshot pc =>
            rw [hl] at hp
            cases pc <;> simp only [Link.publishes, reduceCtorEq] at hp
            case write =>
              split at hp
              · next hy =>
                obtain ⟨d, rfl, hd⟩ | ⟨call, pc, rfl⟩ := Thread.publishing hl
                · exact hidle d inp ⟨k, rfl, hk, hd.trans hy⟩
                · rw [honly k inp call pc rfl hk] at hpublishes
                  contradiction
              · contradiction
        | _ =>
            rw [hl] at hp
            contradiction
      · contradiction
  | _ => rfl

theorem published_of_idle (honly : OnlyDriver x s a) (hidle : ∀ d inp, ¬ s.Drives x a d inp) :
    published x (tr ++ [(s, a)]) = published x tr := by
  rw [published_snoc, honly.publishes hidle, Option.toList_none, List.append_nil]

/-- The driver of the execution serves it. -/
theorem Attached.serving (ht : Attached call id x i tr s) (ho : Owned s) {d : Driver}
    (hd : .drive d ∈ s.threads) (hx : d.exec = x) :
    ∃ z, s.taskStore.get id = some z ∧ d.Serves id (published x tr) z := by
  obtain ⟨k, hk⟩ := List.mem_iff_getElem?.mp hd
  have hown : (Thread.drive d).owns = some x := congrArg some hx
  obtain ⟨z, hz, ⟨_, p, hp, _⟩ | ⟨d', hd', hx', hserves⟩⟩ := ht.serves
  · obtain rfl := ho.unique k i _ _ x hk hp hown rfl
    rw [hk] at hp
    cases hp
  · obtain ⟨k', hk'⟩ := List.mem_iff_getElem?.mp hd'
    obtain rfl := ho.unique k k' _ _ x hk hk' hown (congrArg some hx')
    obtain rfl := Thread.drive.inj (Option.some.inj (hk.symm.trans hk'))
    exact ⟨z, hz, hserves⟩

theorem Attached.started (ht : Attached call id x i tr s) (ho : Owned s) :
    x < s.executions.length := by
  obtain ⟨_, _, ⟨_, p, hp, _⟩ | ⟨d, hd, hx, _⟩⟩ := ht.serves
  · exact ho.started i _ x hp rfl
  · obtain ⟨k, hk⟩ := List.mem_iff_getElem?.mp hd
    exact ho.started k _ x hk (congrArg some hx)

/-- The send acts, or stays where it is. -/
theorem SendCall.Awaits.acts {pc : SendPc} (haw : call.Awaits id x i tr s pc)
    (hi : s.threads[i]? = some (.send call pc)) (hs : Server.step h s a = some s') :
    (∃ inp s₁ b, a = .step i inp ∧ s.Ran i (call.next h inp pc) s' s₁ b) ∨
      s'.threads[i]? = some (.send call pc) := by
  obtain ⟨request, rfl, rfl⟩ | ⟨j, t, cmd, s₁, b, hruns, hran⟩ := step_cases hs
  · right
    rw [List.getElem?_append_left (List.getElem?_eq_some_iff.mp hi).1]
    exact hi
  · by_cases hij : i = j
    · subst hij
      obtain rfl := Option.some.inj (hi.symm.trans hruns.1)
      have hdrop : (Thread.send call pc).drop = ⟨.halt, Empty.elim⟩ := by
        cases pc <;> first | rfl | exact haw.elim
      obtain ⟨inp, rfl, rfl⟩ := hruns.next hran hdrop
      exact .inl ⟨inp, s₁, b, rfl, hran⟩
    · exact .inr (hran.getElem_other hij hi)

/-- Nobody stores the task but the driver of its execution. -/
theorem Attached.writes (ht : Attached call id x i tr s) (hg : Undisturbed h id x i s a)
    (hw : s.writes h a = some task) (hid : task.id = id) : ∃ d inp, s.Drives x a d inp := by
  obtain ⟨pc, hi, haw⟩ := ht.awaits
  have hpc : pc ≠ .load := by
    rintro rfl
    exact haw
  obtain ⟨inp, rfl⟩ | hdrives := hg.alone call pc task hi hpc hw hid
  · simp only [Server.writes, hi, Option.bind_some] at hw
    obtain ⟨p, rfl, _⟩ := SendCall.writes_cases hw
    exact haw.elim
  · exact hdrives

theorem Attached.stored_of_idle (ht : Attached call id x i tr s) (hg : Undisturbed h id x i s a)
    (hunlimited : s.taskStore.terminalTaskLimit = none) (hs : Server.step h s a = some s')
    (hidle : ∀ d inp, ¬ s.Drives x a d inp) : s'.taskStore.get id = s.taskStore.get id := by
  obtain ⟨_, heq⟩ | ⟨y, hy, hw, _⟩ := step_taskStore hs
  · rw [heq]
  · rw [hw.get_of_unlimited hunlimited, if_neg]
    intro hid
    obtain ⟨d, inp, hd⟩ := ht.writes hg hy hid.symm
    exact hidle d inp hd

/-! ## the invariant -/

theorem Attached.first_step (ht : Attached call id x i tr s) (hi : Tracked h x tr s) :
    ∀ task, startedOn x (tr ++ [(s, a)]) = some task → task.id = id := by
  obtain ⟨f, hstart, _⟩ := hi.channel (ht.started hi.owned)
  rw [startedOn_snoc, hstart, Option.some_or]
  rintro task heq
  exact ht.first task (hstart.trans heq)

/-- A step of the driver. -/
theorem Attached.drives (ht : Attached call id x i tr s) (hi : Tracked h x tr s)
    (hunlimited : s.taskStore.terminalTaskLimit = none) (hg : Undisturbed h id x i s a)
    {d : Driver} (hdrives : s.Drives x a d inp) (hs : Server.step h s a = some s') :
    Attached call id x i (tr ++ [(s, a)]) s' := by
  have hdrives' := hdrives
  obtain ⟨k, rfl, hk, hx⟩ := hdrives'
  have hmem := List.mem_of_getElem? hk
  obtain ⟨z, hz, hserves⟩ := ht.serving hi.owned hmem hx
  obtain ⟨f, hstart, hlog, hc⟩ := hi.channel (ht.started hi.owned)
  rw [← hlog] at hserves
  obtain ⟨active, hactive, hsnap, _⟩ := hc.active
  have hsnapshot : s.snapshotOf d.exec = some f.last := by
    rw [Server.snapshotOf, hx, hactive, Option.map_some, hsnap]
  obtain ⟨_, ha, _⟩ | ⟨j, t, cmd, s₁, b, hruns, hran⟩ := step_cases hs
  · contradiction
  · have hcont := hran.post hruns.continues
    have hpublishes := hruns.publishes hran hactive
    have hwritten := hruns.writes
    obtain ⟨hj, ⟨_, heq, rfl⟩ | ⟨heq, _⟩⟩ := hruns
    · obtain ⟨rfl, rfl⟩ := Action.step.inj heq
      obtain rfl := Option.some.inj (hk.symm.trans hj)
      have hwritten : (d.next inp).writes s = s.writes h (.step k inp) := hwritten
      have hnext := hserves.next (hc.threads _ hmem |>.stage d rfl hx) (ht.first _ hstart) hz
        hsnapshot (fun hpc => hg.accepted d inp hdrives hpc _ (hx ▸ hsnapshot))
        (hg.pushed d inp hdrives)
      obtain ⟨d', hd', hserves', hsettled⟩ := hran.post hnext
      rw [hd'] at hcont
      obtain ⟨_, hexec, _⟩ := hcont
      have hx' : d'.exec = x := hexec.trans hx
      have hmem' : .drive d' ∈ s'.threads := by
        rw [← hd']
        exact List.mem_of_getElem? (hran.getElem_self hk)
      -- what it published
      have hafter : (d.link.after d.exec f).log = published x (tr ++ [(s, .step k inp)]) := by
        rw [published_snoc, hpublishes, hsnap, ← hlog, Link.after, hx]
        show _ = f.log ++ (d.link.publishes x f.last).toList
        cases d.link.publishes x f.last with
        | none => exact (List.append_nil _).symm
        | some p => rfl
      -- what it stored
      have hstored : s'.taskStore.get id = some (((d.next inp).writes s).getD z) := by
        rw [hwritten]
        obtain ⟨hnone, heq⟩ | ⟨y, hy, hw, _⟩ := step_taskStore hs
        · rw [hnone, heq]
          exact hz
        · have hid : y.id = id := by
            obtain ⟨event, pc, hpc⟩ | ⟨error, pc, hpc⟩ := d.writes_cases (hwritten.trans hy)
            · have hplace := hserves.place
              simp only [hpc] at hplace
              exact hplace.2.2.1
            · have hplace := hserves.place
              simp only [hpc] at hplace
          rw [hy, hw.get_of_unlimited hunlimited, if_pos hid.symm]
          rfl
      refine ⟨ht.first_step hi, ⟨_, hstored, .inr ⟨d', hmem', hx', hafter ▸ hserves'⟩⟩, ?_, ?_⟩
      · rw [← hafter, Link.after]
        cases hp : d.link.publishes d.exec f.last with
        | none =>
            rw [hlog]
            exact ht.agreeable
        | some p =>
            obtain ⟨event, hevent⟩ := hserves.publishes hp
            show ∀ q ∈ f.log ++ [p], _
            rw [hlog, List.forall_mem_append, List.forall_mem_singleton]
            exact ⟨ht.agreeable, event, hevent⟩
      · obtain ⟨pc, hpc, haw⟩ := ht.awaits
        have hne : i ≠ k := by
          rintro rfl
          rw [hk] at hpc
          cases hpc
        refine ⟨pc, hran.getElem_other hne hpc, haw.mono (fun p hp => List.mem_append_left _ hp) ?_⟩
        rintro ⟨d₀, hd₀, hx₀, hpc₀⟩
        obtain ⟨k₀, hk₀⟩ := List.mem_iff_getElem?.mp hd₀
        obtain rfl := hi.owned.unique k k₀ _ _ x hk hk₀ (congrArg some hx) (congrArg some hx₀)
        obtain rfl := Thread.drive.inj (Option.some.inj (hk.symm.trans hk₀))
        obtain ⟨hsettled', hnone⟩ := hsettled hpc₀
        rw [hstored, hnone, hz]
        exact ⟨⟨d', hmem', hx', hsettled'⟩, rfl⟩
    · contradiction

/-- A step of another thread. -/
theorem Attached.idles (ht : Attached call id x i tr s) (hi : Tracked h x tr s)
    (hunlimited : s.taskStore.terminalTaskLimit = none) (hg : Undisturbed h id x i s a)
    (honly : OnlyDriver x s a) (hcall : call.Blocking) (hidle : ∀ d inp, ¬ s.Drives x a d inp)
    (hs : Server.step h s a = some s') : Attached call id x i (tr ++ [(s, a)]) s' := by
  obtain ⟨f, _, hlog, hc⟩ := hi.channel (ht.started hi.owned)
  have hpublished : published x (tr ++ [(s, a)]) = published x tr :=
    published_of_idle honly hidle
  have hstored := ht.stored_of_idle hg hunlimited hs hidle
  have hsettled : s.Settled x → s'.Settled x ∧ s'.taskStore.get id = s.taskStore.get id := by
    rintro ⟨d, hd, hx, hpc⟩
    exact ⟨⟨d, drive_mem_of_idle hd hx hs hidle, hx, hpc⟩, hstored⟩
  obtain ⟨z, hz, howner⟩ := ht.serves
  obtain ⟨pc, hpc, haw⟩ := ht.awaits
  refine ⟨ht.first_step hi, ⟨z, hstored.trans hz, ?_⟩, hpublished ▸ ht.agreeable, ?_⟩
  · rw [hpublished]
    obtain ⟨hlive, p, hp, hid⟩ | ⟨d, hd, hx, hserves⟩ := howner
    · obtain rfl : pc = .attach p x := by
        rw [hpc] at hp
        cases hp
        rfl
      obtain ⟨inp, s₁, receiver, rfl, hran⟩ | hsame := haw.acts hpc hs
      · -- it spawns the driver
        refine .inr ⟨call.driver p x, ?_, rfl, rfl, fun h => absurd rfl h, hlive⟩
        rw [hran.threads]
        exact List.mem_append_right _ (List.mem_singleton_self _)
      · exact .inl ⟨hlive, p, hsame, hid⟩
    · exact .inr ⟨d, drive_mem_of_idle hd hx hs hidle, hx, hserves⟩
  · obtain ⟨inp, s₁, b, rfl, hran⟩ | hsame := haw.acts hpc hs
    · obtain ⟨pc', hpc', haw'⟩ := hran.post (haw.next hpc hcall ht hc hlog)
      refine ⟨pc', ?_, haw'.mono (fun _ hp => hp) hsettled⟩
      rw [← hpc']
      exact hran.getElem_self hpc
    · exact ⟨pc, hsame, haw.mono (fun p hp => List.mem_append_left _ hp) hsettled⟩

theorem Attached.step (ht : Attached call id x i tr s) (hi : Tracked h x tr s)
    (hunlimited : s.taskStore.terminalTaskLimit = none) (hg : Undisturbed h id x i s a)
    (honly : OnlyDriver x s a) (hcall : call.Blocking) (hs : Server.step h s a = some s') :
    Attached call id x i (tr ++ [(s, a)]) s' := by
  by_cases hidle : ∃ d inp, s.Drives x a d inp
  · obtain ⟨d, inp, hdrives⟩ := hidle
    exact ht.drives hi hunlimited hg hdrives hs
  · exact ht.idles hi hunlimited hg honly hcall (fun d inp hd => hidle ⟨d, inp, hd⟩) hs

/-- The task of a send that is about to register stays live. -/
theorem Awaited.ready_step (hawaited : Awaited h call id x i tr s) (hg : Undisturbed h id x i s a)
    (hs : Server.step h s a = some s') (hge : s'.executions.length ≤ x) :
    ∀ t task, s'.threads[i]? = some t → t.unregistered = some task → task.id = id →
      s'.taskStore.Live id := by
  intro t' task ht' htask hid
  obtain ⟨request, rfl, rfl⟩ | ⟨j, t, cmd, s₁, b, hruns, hran⟩ := step_cases hs
  · rw [List.getElem?_append] at ht'
    split at ht'
    · exact hawaited.ready hge t' task ht' htask hid
    · obtain rfl := List.mem_singleton.mp (List.mem_of_getElem? ht')
      cases request <;> contradiction
  · have hstore : s'.taskStore = s₁.taskStore := by rw [hran.eq]
    have hge : s.executions.length ≤ x := by
      refine Nat.le_trans (hran.post hruns.link).1.length_le ?_
      rw [show s₁.executions = s'.executions by rw [hran.eq]]
      exact hge
    have hcont := hran.post hruns.continues
    obtain ⟨rfl, rfl⟩ | ⟨hne, hold⟩ | ⟨_, hmem⟩ := hran.thread_cases ht'
    · -- the send itself
      have hmem := List.mem_of_getElem? hruns.1
      have hready := hawaited.ready hge t
      cases t with
      | send call pc =>
          obtain ⟨hi, ⟨inp, _, rfl⟩ | ⟨_, rfl⟩⟩ := hruns
          · have hpost := hran.post (call.next_unregistered (· = id) pc inp
              (fun task htask hid => hid ▸ hready task hi htask hid) fun prepared hpc =>
                hawaited.tracked.loaded _ hmem prepared.task (by rw [hpc]; rfl))
            rw [hstore, ← hid]
            exact hpost.1 task htask hid
          · rw [(hran.post (Thread.drop_dropped (.send call pc))).1] at htask
            contradiction
      | _ =>
          rw [hcont.unregistered (by simp)] at htask
          contradiction
    · -- another thread, that does not store the task
      obtain ⟨z, hz, hlive⟩ := hawaited.ready hge t' task hold htask hid
      refine ⟨z, ?_, hlive⟩
      obtain ⟨_, heq⟩ | ⟨y, hy, hw, _⟩ := step_taskStore hs
      · rw [heq]
        exact hz
      · rw [hw.get_of_unlimited hawaited.unlimited, if_neg]
        · exact hz
        · intro heq
          have hpc : ∃ call pc, t' = .send call pc ∧ pc ≠ .load := by
            cases t' with
            | send call pc =>
                refine ⟨call, pc, rfl, ?_⟩
                rintro rfl
                contradiction
            | _ => contradiction
          obtain ⟨call, pc, rfl, hpc⟩ := hpc
          obtain ⟨inp, rfl⟩ | ⟨d, inp, k, _, hk, hx⟩ := hg.alone call pc y hold hpc hy heq.symm
          · obtain ⟨_, ⟨_, ha, _⟩ | ⟨ha, _⟩⟩ := hruns
            · exact hne (Action.step.inj ha).1
            · contradiction
          · have hlt := hawaited.tracked.owned.started k _ x hk (congrArg some hx)
            exact absurd hlt (Nat.not_lt.mpr hge)
    · obtain ⟨_, _, _, _, rfl⟩ := hcont.spawned hmem
      contradiction

/-- The send attaches to the execution it has registered. -/
theorem Awaited.attaches (hawaited : Awaited h call id x i tr s)
    (htracked : Tracked h x (tr ++ [(s, a)]) s') (hs : Server.step h s a = some s')
    (hnot : ¬ s.Attaches call id x i) (hattach : s'.Attaches call id x i) :
    Attached call id x i (tr ++ [(s, a)]) s' := by
  have hattach' := hattach
  obtain ⟨p, hp, hid⟩ := hattach'
  obtain ⟨request, rfl, rfl⟩ | ⟨j, t, cmd, s₁, b, hruns, hran⟩ := step_cases hs
  · rw [List.getElem?_append] at hp
    split at hp
    · exact absurd ⟨p, hp, hid⟩ hnot
    · have hthread := List.mem_singleton.mp (List.mem_of_getElem? hp)
      cases request <;> cases hthread
  · have hcont := hran.post hruns.continues
    obtain ⟨hlink, _⟩ := hran.post hruns.link
    obtain ⟨rfl, hself⟩ | ⟨_, hold⟩ | ⟨_, hmem⟩ := hran.thread_cases hp
    · rw [← hself] at hlink
      obtain ⟨task, hl, hx, hexec⟩ := Link.Step.attaching hlink
      have hfree : s.manager.executions task.id = none := by
        obtain ⟨_, hl', _, hfree, _⟩ := hlink.starts (by rw [hexec]; simp)
        rw [hl] at hl'
        obtain rfl := Link.registering.inj hl'
        exact hfree
      obtain ⟨hregisters, call', prepared, rfl, rfl⟩ := hruns.registers hran hl hfree
      -- it is the send that registered
      obtain ⟨inp, rfl, rfl⟩ := hruns.next hran rfl
      obtain ⟨rfl, rfl⟩ : call' = call ∧ prepared = p := by
        have hself' : Thread.send call (.attach p x) =
          (((call'.next h inp (.start prepared)).resume b).1) := hself
        have hrun := hran.run
        cases b with
        | error error => cases hself'
        | ok y => cases hself'; exact ⟨rfl, rfl⟩
      obtain ⟨z, hz, hlive⟩ := hawaited.ready (Nat.le_of_eq hx.symm) _ prepared.task hruns.1 rfl hid
      have hlt : x < s'.executions.length := by
        rw [show s'.executions = s₁.executions by rw [hran.eq], hexec, hx]
        simp
      obtain ⟨f, hstart, hlog, hc⟩ := htracked.channel hlt
      have hnil : published x (tr ++ [(s, .step i inp)]) = [] := by
        rw [← hlog]
        exact ((hc.threads _ (List.mem_of_getElem? hp)).link rfl).1
      refine ⟨fun task htask => ?_, ⟨z, ?_, .inl ⟨hlive, hattach⟩⟩, ?_, ⟨_, hp, rfl, hid⟩⟩
      · rw [startedOn_snoc, (hawaited.tracked.before (Nat.le_of_eq hx.symm)).2, if_pos hx.symm,
          hregisters] at htask
        obtain rfl := Option.some.inj htask
        exact hid
      · obtain ⟨_, heq⟩ | ⟨y, hy, _⟩ := step_taskStore hs
        · rw [heq]
          exact hz
        · rw [← hruns.writes] at hy
          cases hy
      · rw [hnil]
        exact fun _ h => absurd h List.not_mem_nil
    · exact absurd ⟨p, hold, hid⟩ hnot
    · obtain ⟨_, _, _, _, hd⟩ := hcont.spawned hmem
      cases hd

theorem Awaited.step (hawaited : Awaited h call id x i tr s) (hcall : call.Blocking)
    (hg : Undisturbed h id x i s a) (honly : OnlyDriver x s a)
    (hs : Server.step h s a = some s') : Awaited h call id x i (tr ++ [(s, a)]) s' := by
  have htracked := hawaited.tracked.step honly hs
  refine ⟨htracked, step_unlimited hs hawaited.unlimited, hawaited.ready_step hg hs,
    fun hattach => ?_⟩
  have hstep (ht : s.Attaches call id x i ∨ ∃ p ∈ tr, p.1.Attaches call id x i) :
      Attached call id x i (tr ++ [(s, a)]) s' :=
    (hawaited.attached ht).step hawaited.tracked hawaited.unlimited hg honly hcall hs
  by_cases hnow : s.Attaches call id x i
  · exact hstep (.inl hnow)
  · obtain hnext | ⟨p, hp, hattach⟩ := hattach
    · exact hawaited.attaches htracked hs hnow hnext
    · obtain hp | hp := List.mem_append.mp hp
      · exact hstep (.inr ⟨p, hp, hattach⟩)
      · rw [List.mem_singleton.mp hp] at hattach
        exact absurd hattach hnow

/-! ## runs -/

/-- No cancel of the task arrives. -/
def Uncanceled (id : TaskId) (_ : Server) (a : Action) : Prop :=
  ∀ call, a = .call (.cancel call) → call.req.id ≠ id

/-- An execution stays of its task, in every run. -/
theorem run_taskOf {s₀ : Server} {own : TaskId} (hr : (serverMachine h).Run s₀ tr s) :
    ∀ p ∈ tr, p.1.taskOf x = some own → s.taskOf x = some own := by
  refine hr.invariant (I := fun tr s => ∀ p ∈ tr, p.1.taskOf x = some own → s.taskOf x = some own)
    (fun p hp => absurd hp List.not_mem_nil) fun tr s a s' ih hs => ?_
  rw [List.forall_mem_append, List.forall_mem_singleton]
  exact ⟨fun p hp hx => step_taskOf hs (ih p hp hx), step_taskOf hs⟩

/-- A cancel that is not of the task stays so. -/
theorem uncanceled_step (hi : ∀ call pc, Thread.cancel call pc ∈ s.threads → call.req.id ≠ id)
    (hg : Uncanceled id s a) (hs : Server.step h s a = some s') :
    ∀ call pc, Thread.cancel call pc ∈ s'.threads → call.req.id ≠ id := by
  intro call pc hmem
  obtain ⟨request, rfl, rfl⟩ | ⟨j, t, cmd, s₁, b, hruns, hran⟩ := step_cases hs
  · obtain hmem | hmem := List.mem_append.mp hmem
    · exact hi call pc hmem
    · have hthread := List.mem_singleton.mp hmem
      cases request with
      | cancel call' =>
          cases hthread
          exact hg call rfl
      | send call' => cases hthread
      | subscribe call' => cases hthread
  · have hcont := hran.post hruns.continues
    obtain hself | hmem | hmem := hran.mem_threads hmem
    · rw [← hself] at hcont
      cases t <;> simp only [Thread.Continues] at hcont
      case cancel call' pc' =>
        rw [hcont.1]
        exact hi call' pc' (List.mem_of_getElem? hruns.1)
    · exact hi call pc hmem
    · obtain ⟨_, _, _, _, hd⟩ := hcont.spawned hmem
      cases hd

theorem run_uncanceled {taskStore : InMemoryTaskStore}
    {pushConfigStore : Option InMemoryPushConfigStore} {pushSender : Bool}
    (hr : (serverMachine h).Run (.new taskStore pushConfigStore pushSender) tr s)
    (hg : Machine.Guarded (Uncanceled id) tr) :
    ∀ call pc, Thread.cancel call pc ∈ s.threads → call.req.id ≠ id :=
  hr.guarded_state (I := fun s => ∀ call pc, Thread.cancel call pc ∈ s.threads → call.req.id ≠ id)
    (fun _ _ hmem => absurd hmem List.not_mem_nil) (fun _ _ _ hi hg hs => uncanceled_step hi hg hs)
    hg

/-- A cancel publishes on executions of its task. -/
theorem Isolated.publishes (hi : Isolated tr s) {call : CancelCall} {pc : CancelPc} {k : Nat}
    (hk : s.threads[k]? = some (.cancel call pc)) {item : Item} {snapshot : Option Task}
    {pub : PublishPc} (hl : pc.link = .publishing x item snapshot pub) :
    s.taskOf x = some call.req.id := by
  have hconfined := hi.threads _ (List.mem_of_getElem? hk)
  cases pc <;> simp only [CancelPc.link, reduceCtorEq] at hl
  case publishing c event pc =>
    have hconfined : c.Confined _ s.taskOf call.req.id := hconfined
    split at hl
    · next y hy =>
      obtain ⟨rfl, _⟩ := Link.publishing.inj hl
      exact hconfined.active _ hy
    · contradiction
  case failPublishing c error pc =>
    have hconfined : c.Confined _ s.taskOf call.req.id := hconfined
    split at hl
    · next y hy =>
      obtain ⟨rfl, _⟩ := Link.publishing.inj hl
      exact hconfined.active _ hy
    · contradiction

/-- The execution a send is attached to is of its task. -/
theorem Server.Attaches.taskOf (hattach : s.Attaches call id x i) (hi : Isolated tr s) :
    s.taskOf x = some id := by
  obtain ⟨p, hp, rfl⟩ := hattach
  exact hi.threads _ (List.mem_of_getElem? hp)

/-- A run comes through each of its states. -/
theorem run_before {s₀ : Server} (hr : (serverMachine h).Run s₀ tr s) {p : Server × Action}
    (hp : p ∈ tr) : ∃ tr₁ tr₂, tr = tr₁ ++ p :: tr₂ ∧ (serverMachine h).Run s₀ tr₁ p.1 := by
  obtain ⟨tr₁, tr₂, heq⟩ := List.append_of_mem hp
  exact ⟨tr₁, tr₂, heq, hr.prefix_of_split tr₁ p tr₂ heq⟩

/-- The execution a send was attached to is of its task. -/
theorem run_attached {taskStore : InMemoryTaskStore}
    {pushConfigStore : Option InMemoryPushConfigStore} {pushSender : Bool}
    (hr : (serverMachine h).Run (.new taskStore pushConfigStore pushSender) tr s)
    (hattach : s.Attaches call id x i ∨ ∃ p ∈ tr, p.1.Attaches call id x i) :
    s.taskOf x = some id := by
  obtain hnow | ⟨p, hp, hattach⟩ := hattach
  · exact hnow.taskOf (run_isolated hr)
  · obtain ⟨tr₁, _, _, hr₁⟩ := run_before hr hp
    exact run_taskOf hr p hp (hattach.taskOf (run_isolated hr₁))

/-- Where no cancel of its task arrives, only its driver publishes on an
execution. -/
theorem onlyDriver_of_uncanceled {taskStore : InMemoryTaskStore}
    {pushConfigStore : Option InMemoryPushConfigStore} {pushSender : Bool}
    (hr : (serverMachine h).Run (.new taskStore pushConfigStore pushSender) tr s)
    (hg : Machine.Guarded (Uncanceled id) tr)
    (hattach : s.Attaches call id x i ∨ ∃ p ∈ tr, p.1.Attaches call id x i) :
    Machine.Guarded (OnlyDriver x) tr := by
  have hx := run_attached hr hattach
  intro p hp k inp cancel pc ha hk
  obtain ⟨tr₁, tr₂, heq, hr₁⟩ := run_before hr hp
  have huncanceled := run_uncanceled hr₁ (fun q hq => hg q (heq ▸ List.mem_append_left _ hq))
  by_contra hpublishes
  obtain ⟨q, hq⟩ := Option.ne_none_iff_exists'.mp hpublishes
  rw [ha] at hq
  simp only [Server.publishes, hk] at hq
  split at hq
  · next active heq hactive =>
    obtain rfl := Option.some.inj heq
    cases hl : pc.link with
    | publishing y item snapshot pub =>
        simp only [Thread.link, hl] at hq
        cases pub <;> simp only [Link.publishes, reduceCtorEq] at hq
        case write =>
          split at hq
          · next hy =>
            have hown := run_taskOf hr p hp ((run_isolated hr₁).publishes hk (hy ▸ hl))
            exact huncanceled cancel pc (List.mem_of_getElem? hk)
              (Option.some.inj (hown.symm.trans hx))
          · contradiction
    | _ =>
        simp only [Thread.link, hl] at hq
        contradiction
  · contradiction

/-- **A blocking send and its execution**, in every undisturbed run. -/
theorem run_awaited {pushConfigStore : Option InMemoryPushConfigStore} {pushSender : Bool}
    (hr : (serverMachine h).Run (.new (.new none) pushConfigStore pushSender) tr s)
    (hcall : call.Blocking) (hg : Machine.Guarded (Undisturbed h id x i) tr)
    (hattach : s.Attaches call id x i ∨ ∃ p ∈ tr, p.1.Attaches call id x i) :
    Awaited h call id x i tr s := by
  have honly := onlyDriver_of_uncanceled hr (fun p hp => (hg p hp).uncanceled) hattach
  have hboth : Machine.Guarded (fun s a => Undisturbed h id x i s a ∧ OnlyDriver x s a) tr :=
    fun p hp => ⟨hg p hp, honly p hp⟩
  refine hr.guarded ⟨tracked_new h x none pushConfigStore pushSender, rfl, ?_, ?_⟩
    (fun _ _ _ _ hawaited hg hs => hawaited.step hcall hg.1 hg.2 hs) hboth
  · intro _ t task ht
    contradiction
  · rintro (⟨p, hp, _⟩ | ⟨p, hp, _⟩)
    · contradiction
    · exact absurd hp List.not_mem_nil

end A2a
