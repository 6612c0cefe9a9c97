import A2a.Server.Steps

/-!
# A2a.Server.Isolation

Under which ids an execution stores tasks.

No id an executor's event carries is checked.  A status or artifact update
changes the task at hand whatever task it names, and a whole task becomes
the task at hand.  So what is done for a task, by its drivers and its
cancels, is stored under its own id or under one that such a whole task
brought (`Named`).  `Confined` says so of each part of the server.
-/

namespace A2a

open InMemoryTaskStore

/-! ## what executors emitted -/

/-- The task a driver or a cancel works for. -/
def Thread.worksFor : Thread → Option TaskId
  | .drive d => some d.taskId
  | .cancel call _ => some call.req.id
  | _ => none

/-- The event of its executor a thread is about to take. -/
def Thread.takes : Thread → Option StreamResponse
  | .drive ⟨_, _, _, _, .ok event :: _, _, _, .poll⟩ => some event
  | .cancel _ (.polling ⟨_, _, _, _, .ok event :: _, _⟩) => some event
  | _ => none

/-- In the run, an executor called for the task emitted the event. -/
def Emitted (tr : List (Server × Action)) (own : TaskId) (event : StreamResponse) : Prop :=
  ∃ s i inp t, (s, .step i inp) ∈ tr ∧ s.threads[i]? = some t ∧ t.worksFor = some own ∧
    t.takes = some event

/-- What was emitted stays so, and what is named by it. -/
theorem Emitted.mono {tr : List (Server × Action)} {s : Server} {a : Action} {own : TaskId}
    {event : StreamResponse} (he : Emitted tr own event) : Emitted (tr ++ [(s, a)]) own event := by
  obtain ⟨s', i, inp, t, hmem, ht⟩ := he
  exact ⟨s', i, inp, t, List.mem_append_left _ hmem, ht⟩

/-! ## what is confined to a task -/

section Confined

variable (E : TaskId → StreamResponse → Prop) (T : ExecId → Option TaskId)

/-- The id is the task's own, or one a whole task emitted for it carries. -/
def Named (own id : TaskId) : Prop := id = own ∨ ∃ task, E own (.task task) ∧ task.id = id

/-- The task is what an emitted event makes of the task at hand. -/
def Applied (own : TaskId) (current : Task) (event : StreamResponse) (task : Task) : Prop :=
  ∃ emitted now next, E own emitted ∧ event = backfillStatusTimestamp now emitted ∧
    foldEvent current event = .ok next ∧ task = next.backfill now

def DrivePc.Confined (own : TaskId) (current : Task) : DrivePc → Prop
  | .saving event task _ => Applied E own current event task
  | .failSaving _ task _ => Named E own task.id
  | .failPushing _ task _ => Named E own task.id
  | .failPublishing _ failed _ => ∀ task, failed = some task → Named E own task.id
  | _ => True

/-- The locals of a cancel: its task, and the execution it publishes to. -/
structure Cancelling.Confined (own : TaskId) (c : Cancelling) : Prop where
  current : Named E own c.current.id
  active : ∀ x, c.active = some x → T x = some own

def CancelPc.Confined (own : TaskId) : CancelPc → Prop
  | .getActive task => task.id = own
  | .polling c => c.Confined E T own
  | .saving c event task _ => c.Confined E T own ∧ Applied E own c.current event task
  | .pushing c _ _ => c.Confined E T own
  | .publishing c _ _ => c.Confined E T own
  | .failPublishing c _ _ => c.Confined E T own
  | _ => True

def Thread.Confined : Thread → Prop
  | .drive d => T d.exec = some d.taskId ∧ Named E d.taskId d.current.id ∧
      d.pc.Confined E d.taskId d.current
  | .cancel call pc => pc.Confined E T call.req.id
  | .send _ (.attach prepared x) => T x = some prepared.task.id
  | _ => True

/-- What an operation brings to an execution. -/
def Op.Confined {β : Type} : Op β → Prop
  | .publish x snapshotTask =>
      ∀ own task, T x = some own → snapshotTask = some task → Named E own task.id
  | _ => True

/-- What an operation's answer tells of ids. -/
def Op.Tells {β : Type} : Op β → β → Prop
  | .beginCancel id _, answer => ∀ task, answer = .ok task → task.id = id
  | .start task, answer => ∀ x, answer = .ok x → T x = some task.id
  | .getActive id, answer => ∀ x, answer = some x → T x = some id
  | .readState x, answer => ∀ own, T x = some own → Named E own answer.1.id
  | _, _ => True

def Cmd.Confined (cmd : Cmd) : Prop := cmd.op.Confined E T

def Cmd.StaysConfined (cmd : Cmd) : Prop := cmd.Ends (Op.Tells E T) (Thread.Confined E T)

end Confined

/-- The task an execution was started for. -/
def Server.taskOf (s : Server) (x : ExecId) : Option TaskId := s.executions[x]?.map (·.taskId)

/-- What the threads share: a registered execution is of its task, and a
snapshot is confined to it. -/
structure Server.Confined (E : TaskId → StreamResponse → Prop) (s : Server) : Prop where
  registered : ∀ id x, s.manager.executions id = some x → s.taskOf x = some id
  snapshot : ∀ active ∈ s.executions, Named E active.taskId active.snapshotTask.id

/-! ## what stays confined -/

variable {E E' : TaskId → StreamResponse → Prop} {T T' : ExecId → Option TaskId} {h : Handler}
  {s s' s₁ : Server} {own : TaskId}

@[simp] theorem named_self (own : TaskId) : Named E own own := .inl rfl

/-- What an event makes of the task at hand has its id, or the whole task's. -/
theorem Applied.named {current task : Task} {event : StreamResponse}
    (ha : Applied E own current event task) (hc : Named E own current.id) :
    Named E own task.id := by
  obtain ⟨emitted, now, next, hemitted, rfl, hfold, rfl⟩ := ha
  rw [Task.backfill_id]
  cases emitted with
  | task task =>
      obtain rfl := Except.ok.inj hfold
      exact .inr ⟨task, hemitted, rfl⟩
  | statusUpdate update =>
      obtain rfl := Except.ok.inj hfold
      exact hc
  | artifactUpdate update =>
      have hid : next.id = current.id := by rw [applyArtifactUpdate_frame hfold]
      rw [hid]
      exact hc
  | message message =>
      obtain rfl := Except.ok.inj hfold
      exact hc

section Mono

variable (hE : ∀ own event, E own event → E' own event) (hT : ∀ x own, T x = some own → T' x = some own)

include hE

theorem Named.mono {id : TaskId} (hn : Named E own id) : Named E' own id := by
  obtain rfl | ⟨task, hemitted, hid⟩ := hn
  · exact .inl rfl
  · exact .inr ⟨task, hE own _ hemitted, hid⟩

/-- An event that was applied was one that could be. -/
theorem Applied.mono {current task : Task} {event : StreamResponse}
    (ha : Applied E own current event task) : Applied E' own current event task := by
  obtain ⟨emitted, now, next, hemitted, hrest⟩ := ha
  exact ⟨emitted, now, next, hE own _ hemitted, hrest⟩

theorem DrivePc.Confined.mono {pc : DrivePc} {current : Task} (hk : pc.Confined E own current) :
    pc.Confined E' own current := by
  cases pc with
  | saving event task pc => exact Applied.mono hE hk
  | failSaving error task pc => exact Named.mono hE hk
  | failPushing error task pc => exact Named.mono hE hk
  | failPublishing error failed pc => exact fun task htask => Named.mono hE (hk task htask)
  | _ => trivial

include hT

theorem Cancelling.Confined.mono {c : Cancelling} (hk : c.Confined E T own) :
    c.Confined E' T' own := ⟨hk.current.mono hE, fun x hx => hT x own (hk.active x hx)⟩

theorem CancelPc.Confined.mono {pc : CancelPc} (hk : pc.Confined E T own) :
    pc.Confined E' T' own := by
  cases pc with
  | getActive task => exact hk
  | polling c => exact Cancelling.Confined.mono hE hT hk
  | saving c event task pc => exact ⟨hk.1.mono hE hT, hk.2.mono hE⟩
  | pushing c event pc => exact Cancelling.Confined.mono hE hT hk
  | publishing c event pc => exact Cancelling.Confined.mono hE hT hk
  | failPublishing c error pc => exact Cancelling.Confined.mono hE hT hk
  | _ => trivial

/-- A thread stays confined as more is emitted. -/
theorem Thread.Confined.mono {t : Thread} (hk : t.Confined E T) : t.Confined E' T' := by
  cases t with
  | drive d => exact ⟨hT _ _ hk.1, hk.2.1.mono hE, hk.2.2.mono hE⟩
  | cancel call pc => exact CancelPc.Confined.mono hE hT hk
  | send call pc =>
      cases pc with
      | attach prepared x => exact hT x _ hk
      | _ => trivial
  | _ => trivial

end Mono

/-! ## a thread stays confined -/

/-- A driver that goes on keeps its execution and its task. -/
theorem Driver.goto_confined {d : Driver} {pc : DrivePc} (hx : T d.exec = some d.taskId)
    (hcurrent : Named E d.taskId d.current.id) (hpc : pc.Confined E d.taskId d.current) :
    (d.goto pc).Confined E T := ⟨hx, hcurrent, hpc⟩

/-- So does one that fails. -/
theorem Driver.fail_confined {d : Driver} (hx : T d.exec = some d.taskId)
    (hcurrent : Named E d.taskId d.current.id) (inp : Input) (error : A2AError) :
    (d.fail inp error).Confined E T := by
  simp only [Driver.fail]
  split
  · exact goto_confined hx hcurrent fun _ htask => by contradiction
  · have hfailed : Named E d.taskId (failedTask inp.now inp.messageId d.current error).id := by
      rw [failedTask_id]
      exact hcurrent
    exact goto_confined hx hcurrent hfailed

/-- One that accepts an event has the task it names. -/
theorem Driver.accept_confined {d : Driver} (hx : T d.exec = some d.taskId)
    (hcurrent : Named E d.taskId d.current.id) (inp : Input) {event : StreamResponse}
    (hevent : E d.taskId event) : (d.accept inp event).Confined E T := by
  simp only [Driver.accept]
  split
  · exact fail_confined hx hcurrent inp _
  · split
    · exact goto_confined hx hcurrent True.intro
    · split
      · next task hfold =>
          exact goto_confined hx hcurrent ⟨event, inp.now, task, hevent, rfl, hfold, rfl⟩
      · apply fail_confined
        · exact hx
        · exact hcurrent

/-- **A driver stays with its own task**, or one that its executor named. -/
theorem Driver.next_stays {d : Driver} (hd : (Thread.drive d).Confined E T) (inp : Input)
    (htakes : ∀ event, (Thread.drive d).takes = some event → E d.taskId event) :
    (d.next inp).StaysConfined E T := by
  obtain ⟨taskId, x, ctx, current, stream, answered, tracked, pc⟩ := d
  obtain ⟨hx, hcurrent, hpc⟩ := hd
  cases pc <;> simp only [Driver.next]
  case start => exact Cmd.ends_andThen fun state hstate => ⟨hx, hstate taskId hx, True.intro⟩
  case poll =>
    cases stream with
    | nil => exact Cmd.ends_andThen fun _ _ => goto_confined hx hcurrent True.intro
    | cons item rest =>
        refine Cmd.ends_andThen fun state _ => ?_
        split
        · exact goto_confined hx hcurrent True.intro
        · cases item with
          | ok event =>
              apply accept_confined
              · exact hx
              · exact hcurrent
              · exact htakes event rfl
          | error error =>
              apply fail_confined
              · exact hx
              · exact hcurrent
  case saving event task pc =>
    refine Cmd.ends_andThen fun answer _ => ?_
    cases hstep : saveStep pc task answer with
    | inl pc => exact goto_confined hx hcurrent hpc
    | inr result =>
        cases result with
        | error error => exact fail_confined hx hcurrent inp _
        | ok task' =>
            obtain ⟨rfl, _⟩ := saveStep_done hstep
            have hnamed : Named E taskId task'.id := Applied.named hpc hcurrent
            exact goto_confined hx hnamed True.intro
  case pushing event pc =>
    refine pushCmd_ends fun o => ?_
    obtain pc | _ | _ := o
    · exact goto_confined hx hcurrent hpc
    · exact fail_confined hx hcurrent inp _
    · exact goto_confined hx hcurrent True.intro
  case publishing event pc =>
    refine publishCmd_ends fun o => ?_
    cases o with
    | some pc => exact goto_confined hx hcurrent hpc
    | none => exact goto_confined hx hcurrent (by split <;> exact True.intro)
  case failSaving error task pc =>
    refine Cmd.ends_andThen fun answer _ => ?_
    cases hstep : saveStep pc task answer with
    | inl pc => exact goto_confined hx hcurrent hpc
    | inr result =>
        cases result with
        | error error => exact goto_confined hx hcurrent fun _ htask => by contradiction
        | ok task' =>
            obtain ⟨rfl, _⟩ := saveStep_done hstep
            exact goto_confined hx hcurrent hpc
  case failPushing error task pc =>
    refine pushCmd_ends fun o => ?_
    cases o with
    | inl pc => exact goto_confined hx hcurrent hpc
    | inr _ =>
        refine goto_confined hx hcurrent fun task' htask => ?_
        obtain rfl := Option.some.inj htask
        exact hpc
  case failPublishing error failed pc =>
    refine publishCmd_ends fun o => ?_
    cases o with
    | some pc => exact goto_confined hx hcurrent hpc
    | none => exact goto_confined hx hcurrent True.intro
  case finishing => exact Cmd.ends_andThen fun _ _ => goto_confined hx hcurrent True.intro
  case done => exact Cmd.ends_halt

/-- Nothing of another task comes after the loop of a cancel. -/
theorem CancelCall.afterLoop_confined (c : Cancelling) : (afterLoop c).Confined E T own := by
  simp only [afterLoop]
  split <;> exact True.intro

/-- The loop goes on with its task. -/
theorem CancelCall.afterEvent_confined {c : Cancelling} (hc : c.Confined E T own)
    (event : StreamResponse) : (afterEvent c event).Confined E T own := by
  simp only [afterEvent]
  split
  · exact afterLoop_confined _
  · exact hc

/-- An event of a cancel names the task it goes on with. -/
theorem CancelCall.accept_confined {c : Cancelling} (hc : c.Confined E T own) (inp : Input)
    {event : StreamResponse} (hevent : E own event) : (accept c inp event).Confined E T own := by
  simp only [accept]
  split
  · exact hc
  · split
    · next task hfold => exact ⟨hc, event, inp.now, task, hevent, rfl, hfold, rfl⟩
    · exact True.intro

/-- **A cancel stays with its own task**, too. -/
theorem CancelCall.next_stays {pc : CancelPc} {call : CancelCall}
    (hpc : pc.Confined E T call.req.id) (inp : Input)
    (htakes : ∀ event, (Thread.cancel call pc).takes = some event → E call.req.id event) :
    (call.next h inp pc).StaysConfined E T := by
  cases pc <;> simp only [CancelCall.next]
  case load =>
    split
    · exact Cmd.ends_andThen fun _ _ => True.intro
    · refine Cmd.ends_andThen fun answer _ => ?_
      cases answer with
      | none => exact True.intro
      | some task => dsimp only; split_ifs <;> exact True.intro
  case beginCancel =>
    refine Cmd.ends_andThen fun answer hanswer => ?_
    cases answer with
    | ok task => exact hanswer task rfl
    | error error => dsimp only; split <;> exact True.intro
  case raced error =>
    refine Cmd.ends_andThen fun answer _ => ?_
    cases answer with
    | none => exact True.intro
    | some task => dsimp only; split <;> exact True.intro
  case getActive task =>
    have hid : task.id = call.req.id := hpc
    exact Cmd.ends_andThen fun active hactive => ⟨.inl hid, hactive⟩
  case polling c =>
    obtain ⟨task, active, ctx, current, stream, terminalPushed⟩ := c
    refine Cmd.ends_andThen fun _ _ => ?_
    cases stream with
    | nil => exact afterLoop_confined _
    | cons item rest =>
        cases item with
        | ok event =>
            have hc : (⟨task, active, ctx, current, rest, terminalPushed⟩ : Cancelling).Confined
                E T call.req.id := ⟨hpc.current, hpc.active⟩
            exact accept_confined hc inp (htakes event rfl)
        | error error =>
            dsimp only
            split
            · exact ⟨hpc.current, hpc.active⟩
            · exact True.intro
  case saving c event task pc =>
    refine Cmd.ends_andThen fun answer _ => ?_
    cases hstep : saveStep pc task answer with
    | inl pc => exact hpc
    | inr result =>
        cases result with
        | error error => exact True.intro
        | ok task' =>
            obtain ⟨rfl, _⟩ := saveStep_done hstep
            exact ⟨hpc.2.named hpc.1.current, hpc.1.active⟩
  case pushing c event pc =>
    refine pushCmd_ends fun o => ?_
    obtain pc | _ | _ := o
    · exact hpc
    · exact True.intro
    · dsimp only
      split
      · exact hpc
      · exact afterEvent_confined hpc event
  case publishing c event pc =>
    split
    · exact Cmd.ends_andThen fun _ _ => afterEvent_confined hpc event
    · refine publishCmd_ends fun o => ?_
      cases o with
      | some pc => exact hpc
      | none => exact afterEvent_confined hpc event
  case failPublishing c error pc =>
    split
    · exact Cmd.ends_andThen fun _ _ => True.intro
    · refine publishCmd_ends fun o => ?_
      cases o with
      | some pc => exact hpc
      | none => exact True.intro
  case failLoad c error =>
    refine Cmd.ends_andThen fun answer _ => ?_
    cases answer <;> exact True.intro
  case failPushing c error task pc =>
    refine pushCmd_ends fun o => ?_
    cases o <;> exact True.intro
  case finishing c => split <;> exact Cmd.ends_andThen fun _ _ => True.intro
  case finalLoad c =>
    refine Cmd.ends_andThen fun answer _ => ?_
    cases answer with
    | none => exact True.intro
    | some task => dsimp only; split <;> exact True.intro
  case finalPushing c task pc =>
    refine pushCmd_ends fun o => ?_
    obtain pc | _ | _ := o <;> exact True.intro
  case releasing c task pc =>
    refine releaseCmd_ends fun o => ?_
    cases o <;> exact True.intro
  case dropping task result pc =>
    refine releaseCmd_ends fun o => ?_
    cases o <;> exact True.intro
  case returned => exact Cmd.ends_halt

/-- Whatever a poll takes, its thread goes on as said. -/
theorem pollCmd_ends_of_forall {A : ∀ {β : Type}, Op β → β → Prop} {R : Thread → Prop}
    {sub : Subscription} {k : Subscription → Option (Option Item) → Thread}
    (hk : ∀ sub o, R (k sub o)) : (pollCmd sub k).Ends A R := by
  simp only [pollCmd]
  split
  · exact Cmd.ends_andThen fun _ _ => hk _ _
  · split
    · exact Cmd.ends_andThen fun _ _ => hk _ _
    · exact Cmd.ends_andThen fun _ _ => hk _ _
    · refine Cmd.ends_andThen fun answer _ => ?_
      cases answer <;> exact hk _ _

/-- **A send stays with its own task.** -/
theorem SendCall.next_stays {pc : SendPc} {call : SendCall}
    (hpc : (Thread.send call pc).Confined E T) (inp : Input) :
    (call.next h inp pc).StaysConfined E T := by
  cases pc <;> simp only [SendCall.next]
  case load =>
    split
    · exact Cmd.ends_andThen fun _ _ => True.intro
    · refine Cmd.ends_andThen fun stored _ => ?_
      split
      · exact True.intro
      · split <;> exact True.intro
  case create prepared =>
    refine Cmd.ends_andThen fun answer _ => ?_
    cases answer <;> exact True.intro
  case savePush prepared =>
    split
    · exact Cmd.ends_andThen fun _ _ => True.intro
    · refine Cmd.ends_andThen fun answer _ => ?_
      cases answer <;> exact True.intro
  case start prepared =>
    refine Cmd.ends_andThen fun answer hanswer => ?_
    cases answer with
    | ok x => exact hanswer x rfl
    | error error => exact True.intro
  case attach prepared x =>
    intro receiver _
    constructor
    · dsimp only
      split <;> exact True.intro
    · intro t ht
      obtain rfl := List.mem_singleton.mp ht
      exact ⟨hpc, named_self _, True.intro⟩
  case following taskId sub lastEvent =>
    refine pollCmd_ends_of_forall fun sub' o => ?_
    obtain _ | _ | item := o
    · exact True.intro
    · simp only [finishSend]
      split <;> exact True.intro
    · simp only [onItem]
      split
      · exact True.intro
      · split
        · exact True.intro
        · split <;> exact True.intro
  case answering taskId => exact Cmd.ends_andThen fun _ _ => True.intro
  case streaming sub =>
    refine pollCmd_ends_of_forall fun sub' o => ?_
    split <;> exact True.intro
  case returned => exact Cmd.ends_halt
  case ended => exact Cmd.ends_halt

/-! ## what a thread brings -/

/-- A save is no publication. -/
theorem saveOp_confined (task : Task) (pc : SavePc) : (saveOp task pc).Confined E T := by
  cases pc <;> exact True.intro

/-- Nor is a push. -/
theorem pushCmd_confined (inp : Input) (taskId : TaskId) (event : StreamResponse) (pc : PushPc)
    (k : PushPc ⊕ Except A2AError Unit → Thread) :
    (pushCmd inp taskId event pc k).Confined E T := by
  obtain _ | _ | ⟨config, rest⟩ := pc <;> exact True.intro

/-- A publication goes to the execution of its own task. -/
theorem publishCmd_confined {x : ExecId} {result : Item} {snapshotTask : Option Task}
    (hx : T x = some own) (htask : ∀ task, snapshotTask = some task → Named E own task.id)
    (pc : PublishPc) (k : Option PublishPc → Thread) :
    (publishCmd x result snapshotTask pc k).Confined E T := by
  cases pc with
  | write =>
      intro own' task hx' hsome
      obtain rfl := Option.some.inj (hx.symm.trans hx')
      exact htask task hsome
  | count sequence => exact True.intro
  | send sequence => exact True.intro

/-- A release leaves the executions alone. -/
theorem releaseCmd_confined (task : Task) (pc : ReleasePc) (k : Option ReleasePc → Thread) :
    (releaseCmd task pc k).Confined E T := by
  obtain _ | _ | ⟨w, rest⟩ := pc <;> exact True.intro

/-- So does a poll. -/
theorem pollCmd_confined (sub : Subscription)
    (k : Subscription → Option (Option Item) → Thread) : (pollCmd sub k).Confined E T := by
  simp only [pollCmd]
  split
  · exact True.intro
  · split <;> exact True.intro

/-- **What a driver does is confined to its execution.** -/
theorem Driver.next_confined {d : Driver} (hd : (Thread.drive d).Confined E T) (inp : Input) :
    (d.next inp).Confined E T := by
  obtain ⟨taskId, x, ctx, current, stream, answered, tracked, pc⟩ := d
  obtain ⟨hx, hcurrent, hpc⟩ := hd
  cases pc <;> simp only [Driver.next]
  case poll => split <;> exact True.intro
  case saving event task pc => exact saveOp_confined task pc
  case pushing event pc => exact pushCmd_confined ..
  case publishing event pc =>
    refine publishCmd_confined hx (fun task htask => ?_) pc _
    obtain rfl := Option.some.inj htask
    exact hcurrent
  case failSaving error task pc => exact saveOp_confined task pc
  case failPushing error task pc => exact pushCmd_confined ..
  case failPublishing error failed pc => exact publishCmd_confined hx hpc pc _
  all_goals exact True.intro

/-- **So is what a cancel does.** -/
theorem CancelCall.next_confined {pc : CancelPc} {call : CancelCall}
    (hpc : pc.Confined E T call.req.id) (inp : Input) : (call.next h inp pc).Confined E T := by
  cases pc <;> simp only [CancelCall.next]
  case load => split <;> exact True.intro
  case saving c event task pc => exact saveOp_confined task pc
  case pushing c event pc => exact pushCmd_confined ..
  case publishing c event pc =>
    split
    · exact True.intro
    · next x hx =>
        refine publishCmd_confined (hpc.active x hx) (fun task htask => ?_) pc _
        obtain rfl := Option.some.inj htask
        exact hpc.current
  case failPublishing c error pc =>
    split
    · exact True.intro
    · next x hx =>
        refine publishCmd_confined (hpc.active x hx) (fun task htask => ?_) pc _
        contradiction
  case failPushing c error task pc => exact pushCmd_confined ..
  case finishing c => split <;> exact True.intro
  case finalPushing c task pc => exact pushCmd_confined ..
  case releasing c task pc => exact releaseCmd_confined task pc _
  case dropping task result pc => exact releaseCmd_confined task pc _
  all_goals exact True.intro

/-- A send registers under its own task. -/
theorem SendCall.next_confined (pc : SendPc) (call : SendCall) (inp : Input) :
    (call.next h inp pc).Confined E T := by
  cases pc <;> simp only [SendCall.next]
  case load => split <;> exact True.intro
  case savePush prepared => split <;> exact True.intro
  case following taskId sub lastEvent => exact pollCmd_confined sub _
  case streaming sub => exact pollCmd_confined sub _
  all_goals exact True.intro

/-- A subscription changes no execution. -/
theorem SubscribeCall.next_confined (pc : SubscribePc) (call : SubscribeCall) :
    (call.next h pc).Confined E T := by
  cases pc <;> simp only [SubscribeCall.next]
  case register => split <;> exact True.intro
  case streaming opened sub => exact pollCmd_confined sub _
  all_goals exact True.intro

/-- What any thread does is confined. -/
theorem Server.runs.confined {a : Action} {i : Nat} {t : Thread} {cmd : Cmd}
    (hr : s.runs h a i t cmd) (ht : t.Confined E T) : cmd.Confined E T := by
  obtain ⟨_, ⟨inp, _, rfl⟩ | ⟨_, rfl⟩⟩ := hr
  · cases t with
    | send call pc => exact call.next_confined pc inp
    | drive d => exact Driver.next_confined ht inp
    | cancel call pc => exact CancelCall.next_confined ht inp
    | subscribe call pc => exact call.next_confined pc
    | dropped => exact True.intro
  · cases t with
    | send call pc => cases pc <;> exact True.intro
    | subscribe call pc => cases pc <;> exact True.intro
    | _ => exact True.intro

/-! ## executions and their tasks -/

/-- The task of an execution is the one it was started for. -/
theorem taskOf_eq_some {x : ExecId} : s.taskOf x = some own ↔
    ∃ active, s.executions[x]? = some active ∧ active.taskId = own := by
  simp [Server.taskOf]

/-- An execution stays of its task. -/
theorem Op.Effects.taskOf {β : Type} {op : Op β} (he : op.Effects s s₁) {x : ExecId}
    (hx : s.taskOf x = some own) : s₁.taskOf x = some own := by
  obtain ⟨active, hactive, rfl⟩ := taskOf_eq_some.mp hx
  rw [taskOf_eq_some, he.executions]
  have hmodify : ∀ y (f : ActiveExecution → ActiveExecution), (∀ a, (f a).taskId = a.taskId) →
      ∃ active', (s.executions.modify y f)[x]? = some active' ∧ active'.taskId = active.taskId := by
    intro y f hf
    rw [List.getElem?_modify, hactive]
    refine ⟨_, rfl, ?_⟩
    split
    · exact hf active
    · rfl
  cases op with
  | start task =>
      simp only [Op.executionsAfter]
      split
      · exact ⟨active, hactive, rfl⟩
      · have hlt : x < s.executions.length := (List.getElem?_eq_some_iff.mp hactive).1
        exact ⟨active, by rw [List.getElem?_append_left hlt, hactive], rfl⟩
  | publish y snapshotTask => exact hmodify y _ fun _ => rfl
  | broadcast y event =>
      simp only [Op.executionsAfter]
      split
      · exact hmodify y _ fun _ => rfl
      · exact ⟨active, hactive, rfl⟩
  | _ => exact ⟨active, hactive, rfl⟩

/-- An answer tells what it should. -/
theorem Op.run_tells {β : Type} {op : Op β} {b : β} (hs : s.Confined E)
    (hr : op.run s = some (s₁, b)) : op.Tells E s₁.taskOf b := by
  have he := Op.effects hr
  cases op with
  | beginCancel id now =>
      obtain ⟨_, rfl⟩ := Prod.mk.inj (Option.some.inj hr)
      intro task hb
      obtain ⟨_, hb'⟩ | ⟨_, _, _, hb'⟩ | ⟨old, _, hget, _, hb', _⟩ :=
        beginCancel_cases s.taskStore id now
      · rw [hb'] at hb
        contradiction
      · rw [hb'] at hb
        contradiction
      · rw [hb'] at hb
        obtain rfl := Except.ok.inj hb
        rw [canceledTask_id, get_id hget]
  | start task =>
      intro x hb
      subst hb
      rw [taskOf_eq_some, he.executions]
      simp only [run, ExecutionManager.start] at hr
      by_cases hx : (s.manager.executions task.id).isSome
      · simp [if_pos hx] at hr
      · simp only [if_neg hx, Option.some.injEq, Prod.mk.injEq, Except.ok.injEq] at hr
        obtain ⟨_, rfl⟩ := hr
        refine ⟨.new task, ?_, rfl⟩
        simp only [executionsAfter, if_neg hx]
        exact List.getElem?_concat_length ..
  | getActive id =>
      obtain ⟨_, rfl⟩ := Prod.mk.inj (Option.some.inj hr)
      exact fun x hx => he.taskOf (hs.registered id x hx)
  | readState x =>
      obtain ⟨active, hactive, heq⟩ := Option.map_eq_some_iff.mp hr
      obtain ⟨rfl, rfl⟩ := Prod.mk.inj heq
      intro own hown
      obtain ⟨active', hactive', rfl⟩ := taskOf_eq_some.mp hown
      obtain rfl := Option.some.inj (hactive.symm.trans hactive')
      exact hs.snapshot active (List.mem_of_getElem? hactive)
  | _ => exact True.intro

/-- Finishing registers nothing. -/
theorem finish_executions {m : ExecutionManager} {id id' : TaskId} {x y : ExecId}
    (hy : (m.finish id x).executions id' = some y) : m.executions id' = some y := by
  simp only [ExecutionManager.finish] at hy
  split at hy
  · by_cases hid : id' = id
    · simp [hid] at hy
    · simpa [hid] using hy
  · exact hy

/-- What the threads share after an operation. -/
theorem Op.Effects.confined {β : Type} {op : Op β} (he : op.Effects s s₁)
    (hop : op.Confined E s.taskOf) (hs : s.Confined E) : s₁.Confined E where
  registered id x hx := by
    rw [he.registered] at hx
    cases op with
    | start task =>
        simp only [Op.registeredAfter] at hx
        split at hx
        · exact he.taskOf (hs.registered id x hx)
        · next hfree =>
            by_cases hid : id = task.id
            · subst hid
              rw [Function.update_self] at hx
              obtain rfl := Option.some.inj hx
              rw [taskOf_eq_some, he.executions]
              refine ⟨.new task, ?_, rfl⟩
              simp only [Op.executionsAfter, if_neg hfree]
              exact List.getElem?_concat_length ..
            · rw [Function.update_of_ne hid] at hx
              exact he.taskOf (hs.registered id x hx)
    | finish id' y => exact he.taskOf (hs.registered id x (finish_executions hx))
    | _ => exact he.taskOf (hs.registered id x hx)
  snapshot active hactive := by
    rw [he.executions] at hactive
    cases op with
    | start task =>
        simp only [Op.executionsAfter] at hactive
        split at hactive
        · exact hs.snapshot active hactive
        · obtain hactive | hactive := List.mem_append.mp hactive
          · exact hs.snapshot active hactive
          · obtain rfl := List.mem_singleton.mp hactive
            exact named_self task.id
    | publish x snapshotTask =>
        obtain ⟨k, hk⟩ := List.mem_iff_getElem?.mp hactive
        simp only [Op.executionsAfter, List.getElem?_modify] at hk
        obtain ⟨old, hold, rfl⟩ := Option.map_eq_some_iff.mp hk
        have hnamed := hs.snapshot old (List.mem_of_getElem? hold)
        by_cases hx : x = k
        · rw [if_pos hx]
          cases snapshotTask with
          | none => exact hnamed
          | some task => exact hop old.taskId task (taskOf_eq_some.mpr ⟨old, hx ▸ hold, rfl⟩) rfl
        · rw [if_neg hx]
          exact hnamed
    | broadcast x event =>
        simp only [Op.executionsAfter] at hactive
        split at hactive
        · obtain ⟨k, hk⟩ := List.mem_iff_getElem?.mp hactive
          rw [List.getElem?_modify] at hk
          obtain ⟨old, hold, rfl⟩ := Option.map_eq_some_iff.mp hk
          have hnamed := hs.snapshot old (List.mem_of_getElem? hold)
          split <;> exact hnamed
        · exact hs.snapshot active hactive
    | _ => exact hs.snapshot active hactive

/-! ## what is stored for a task -/

/-- What is stored for a task is under its id, or a whole task's. -/
theorem Server.runs.named {a : Action} {i : Nat} {t : Thread} {cmd : Cmd} {x : Task}
    (hr : s.runs h a i t cmd) (ht : t.Confined E T) (hown : t.worksFor = some own)
    (hw : cmd.op.writes s = some x) : Named E own x.id := by
  obtain ⟨_, ⟨inp, _, rfl⟩ | ⟨_, rfl⟩⟩ := hr
  · cases t with
    | drive d =>
        obtain rfl := Option.some.inj hown
        obtain ⟨_, hcurrent, hpc⟩ := ht
        obtain ⟨event, pc, hat⟩ | ⟨error, pc, hat⟩ := Driver.writes_cases hw
        · rw [hat] at hpc
          exact Applied.named hpc hcurrent
        · rw [hat] at hpc
          exact hpc
    | cancel call pc =>
        obtain rfl := Option.some.inj hown
        obtain ⟨_, old, hget, _, rfl⟩ | ⟨c, event, pc', rfl⟩ := CancelCall.writes_cases hw
        · rw [canceledTask_id, get_id hget]
          exact named_self call.req.id
        · exact ht.2.named ht.1.current
    | _ => contradiction
  · rw [Thread.drop_writes] at hw
    contradiction

/-! ## runs -/

/-- All that is done for a task is confined to it. -/
structure Isolated (tr : List (Server × Action)) (s : Server) : Prop where
  shared : s.Confined (Emitted tr)
  threads : ∀ t ∈ s.threads, t.Confined (Emitted tr) s.taskOf

/-- A server stays confined as more is emitted. -/
theorem Server.Confined.mono (hE : ∀ own event, E own event → E' own event)
    (hs : s.Confined E) : s.Confined E' :=
  ⟨hs.registered, fun active hactive => (hs.snapshot active hactive).mono hE⟩

/-- The threads are no part of it. -/
theorem Server.Confined.withThreads (hs : s.Confined E) (threads : List Thread) :
    ({ s with threads := threads } : Server).Confined E := ⟨hs.registered, hs.snapshot⟩

/-- A subscription has no execution. -/
theorem Thread.Continues.confined_of_subscribe {call : SubscribeCall} {pc : SubscribePc}
    {t' : Thread} {new : List Thread} (hc : (Thread.subscribe call pc).Continues t' new) :
    t'.Confined E T ∧ ∀ t ∈ new, t.Confined E T := by
  have hnone : new = [] → ∀ t ∈ new, t.Confined E T := by
    intro hnew t ht
    rw [hnew] at ht
    contradiction
  cases t' with
  | subscribe call' pc' => exact ⟨True.intro, hnone hc.2⟩
  | dropped => exact ⟨True.intro, hnone hc⟩
  | _ => exact hc.elim

/-- **A step keeps it**, whichever thread acts. -/
theorem Isolated.step {tr : List (Server × Action)} {a : Action} (hs : Isolated tr s)
    (hstep : Server.step h s a = some s') : Isolated (tr ++ [(s, a)]) s' := by
  have hE : ∀ own event, Emitted tr own event → Emitted (tr ++ [(s, a)]) own event :=
    fun _ _ => Emitted.mono
  obtain ⟨request, rfl, rfl⟩ | ⟨i, t, cmd, s₁, b, hruns, hran⟩ := step_cases hstep
  · refine ⟨(hs.shared.mono hE).withThreads _, fun t ht => ?_⟩
    obtain ht | ht := List.mem_append.mp ht
    · exact (hs.threads t ht).mono hE fun _ _ hx => hx
    · obtain rfl := List.mem_singleton.mp ht
      cases request <;> exact True.intro
  · have ht := hs.threads t (List.mem_of_getElem? hruns.1)
    have hop : cmd.op.Confined (Emitted tr) s.taskOf := hruns.confined ht
    have hshared : s₁.Confined (Emitted tr) := hran.effects.confined hop hs.shared
    have hT : ∀ x own, s.taskOf x = some own → s₁.taskOf x = some own :=
      fun x own => hran.effects.taskOf
    have htold : cmd.op.Tells (Emitted (tr ++ [(s, a)])) s₁.taskOf b :=
      Op.run_tells (hs.shared.mono hE) hran.run
    have hnext : t.Confined (Emitted (tr ++ [(s, a)])) s₁.taskOf := ht.mono hE hT
    -- an event the thread takes is emitted by this very step
    have htakes : ∀ inp own event, a = .step i inp → t.worksFor = some own →
        t.takes = some event → Emitted (tr ++ [(s, a)]) own event := by
      intro inp own event ha hown htakes
      exact ⟨s, i, inp, t, by simp [ha], hruns.1, hown, htakes⟩
    have hself : (cmd.resume b).1.Confined (Emitted (tr ++ [(s, a)])) s₁.taskOf ∧
        ∀ t' ∈ (cmd.resume b).2, t'.Confined (Emitted (tr ++ [(s, a)])) s₁.taskOf := by
      have hcont := hruns.continues s₁ b hran.run
      obtain ⟨_, ⟨inp, ha, rfl⟩ | ⟨_, rfl⟩⟩ := hruns
      · cases t with
        | send call pc => exact SendCall.next_stays hnext inp b htold
        | drive d => exact Driver.next_stays hnext inp (fun _ => htakes inp _ _ ha rfl) b htold
        | cancel call pc =>
            exact CancelCall.next_stays hnext inp (fun _ => htakes inp _ _ ha rfl) b htold
        | subscribe call pc => exact hcont.confined_of_subscribe
        | dropped => exact b.elim
      · obtain ⟨hdrop, hnew⟩ := Thread.drop_dropped t s₁ b hran.run
        rw [hdrop, hnew]
        exact ⟨True.intro, fun _ h => absurd h List.not_mem_nil⟩
    have htaskOf : s'.taskOf = s₁.taskOf := by
      rw [hran.eq]
      rfl
    constructor
    · rw [hran.eq]
      exact (hshared.mono hE).withThreads _
    · intro t' ht'
      rw [htaskOf]
      obtain rfl | ht' | ht' := hran.mem_threads ht'
      · exact hself.1
      · exact (hs.threads t' ht').mono hE hT
      · exact hself.2 t' ht'

/-- An execution stays of its task. -/
theorem step_taskOf {a : Action} {x : ExecId} (hs : Server.step h s a = some s')
    (hx : s.taskOf x = some own) : s'.taskOf x = some own := by
  obtain ⟨request, rfl, rfl⟩ | ⟨j, t, cmd, s₁, b, hruns, hran⟩ := step_cases hs
  · exact hx
  · rw [hran.eq]
    exact hran.effects.taskOf hx

/-- So it is in every run. -/
theorem run_isolated {taskStore : InMemoryTaskStore}
    {pushConfigStore : Option InMemoryPushConfigStore} {pushSender : Bool}
    {tr : List (Server × Action)}
    (hr : (serverMachine h).Run (.new taskStore pushConfigStore pushSender) tr s) :
    Isolated tr s := by
  refine hr.invariant (I := Isolated) ⟨⟨?_, ?_⟩, ?_⟩ fun _ _ _ _ hs => hs.step
  · intro id x hx
    contradiction
  · exact fun _ hactive => absurd hactive List.not_mem_nil
  · exact fun _ ht => absurd ht List.not_mem_nil

/-- The task at hand, the event and the task a thread is about to store for
it. -/
def Thread.saves : Thread → Option (Task × StreamResponse × Task)
  | .drive ⟨_, _, _, current, _, _, _, .saving event task _⟩ => some (current, event, task)
  | .cancel _ (.saving c event task _) => some (c.current, event, task)
  | _ => none

/-- **Isolation**: in every run, a step of a driver or a cancel changes the
entries of its own task and of ids that whole tasks emitted for it carry,
and no other but for what a terminal limit purges; and what it stores for an
event is what the event makes of the task at hand, whichever task it names. -/
theorem execution_isolated (h : Handler) {taskStore : InMemoryTaskStore}
    {pushConfigStore : Option InMemoryPushConfigStore} {pushSender : Bool}
    {tr : List (Server × Action)} {i : Nat} {inp : Input} {t : Thread}
    (hr : (serverMachine h).Run (.new taskStore pushConfigStore pushSender) tr s)
    (ht : s.threads[i]? = some t) (hown : t.worksFor = some own)
    (hstep : Server.step h s (.step i inp) = some s') :
    (∀ id, s'.taskStore.get id ≠ s.taskStore.get id → Named (Emitted tr) own id ∨
      (s.taskStore.terminalTaskLimit ≠ none ∧ s'.taskStore.get id = none)) ∧
    (∀ current event task, t.saves = some (current, event, task) →
      Named (Emitted tr) own current.id ∧ Applied (Emitted tr) own current event task) := by
  have hconfined := (run_isolated hr).threads t (List.mem_of_getElem? ht)
  constructor
  · intro id hchanged
    obtain ⟨_, hsame⟩ | ⟨x, hx, hwrote, _⟩ := step_taskStore hstep
    · rw [hsame] at hchanged
      contradiction
    · have hruns : s.runs h (.step i inp) i t (t.next h inp) := ⟨ht, .inl ⟨inp, rfl, rfl⟩⟩
      have hnamed : Named (Emitted tr) own x.id :=
        hruns.named hconfined hown (hruns.writes.trans hx)
      obtain hget | ⟨hlimit, _, hnone⟩ := hwrote.get id
      · by_cases hid : id = x.id
        · exact .inl (hid ▸ hnamed)
        · rw [if_neg hid] at hget
          contradiction
      · exact .inr ⟨hlimit, hnone⟩
  · intro current event task hsaves
    cases t with
    | drive d =>
        obtain ⟨taskId, x, ctx, current', stream, answered, tracked, pc⟩ := d
        obtain ⟨_, hcurrent, hpc⟩ := hconfined
        obtain rfl := Option.some.inj hown
        cases pc with
        | saving event' task' pc =>
            cases hsaves
            exact ⟨hcurrent, hpc⟩
        | _ => contradiction
    | cancel call pc =>
        obtain rfl := Option.some.inj hown
        cases pc with
        | saving c event' task' pc =>
            cases hsaves
            exact ⟨hconfined.1.current, hconfined.2⟩
        | _ => contradiction
    | _ => contradiction

/-- A server over a task that awaits input and one that does not. -/
def besideOther : Server :=
  .new ((InMemoryTaskStore.holding (makeTask "t" "c" .inputRequired)).create
    (makeTask "other" "c" .submitted)).2 none false

/-- What an executor called for `t` says of the other task: an update, then
the whole task. -/
def straying : List Item :=
  [.ok (.statusUpdate ⟨"other", "c", ⟨.working, none, none⟩, none⟩),
    .ok (.task (makeTask "other" "c" .working))]

/-- A send continues `t`; its executor strays, and its driver goes `n` steps. -/
def strayingFor (n : Nat) : List Action :=
  .call (.send (.continuing "t" "m")) ::
    List.replicate 4 (.step 0 (.emitting [])) ++ List.replicate n (.step 1 (.emitting straying))

/-- The driver of `t` stores the other task. -/
theorem strayingFor_stores : ∃ tr s t s', (serverMachine .new).Run besideOther tr s ∧
    s.threads[1]? = some t ∧ t.worksFor = some "t" ∧
    Server.step .new s (.step 1 (.emitting [])) = some s' ∧
    s'.taskStore.get "other" ≠ s.taskStore.get "other" ∧ s'.taskStore.get "other" ≠ none := by
  have hx : ((serverMachine .new).exec besideOther (strayingFor 9)).map (fun p =>
      ((p.2.threads[1]?.bind Thread.worksFor), (p.2.taskStore.get "other").map (·.status.state),
        (Server.step .new p.2 (.step 1 (.emitting []))).map fun s' =>
          (s'.taskStore.get "other").map (·.status.state))) =
      some (some "t", some .submitted, some (some .working)) := rfl
  obtain ⟨⟨tr, s⟩, hexec, hs⟩ := Option.map_eq_some_iff.mp hx
  simp only [Prod.mk.injEq] at hs
  obtain ⟨hthread, hbefore, hafter⟩ := hs
  obtain ⟨t, ht, hown⟩ := Option.bind_eq_some_iff.mp hthread
  obtain ⟨s', hstep, hstate⟩ := Option.map_eq_some_iff.mp hafter
  refine ⟨tr, s, t, s', Machine.run_of_exec hexec, ht, hown, hstep, fun he => ?_, fun he => ?_⟩
  · rw [he, hbefore] at hstate
    contradiction
  · rw [he] at hstate
    contradiction

theorem execution_isolated_straying :
    ∃ tr s s', (serverMachine .new).Run besideOther tr s ∧
      Server.step .new s (.step 1 (.emitting [])) = some s' ∧
      s'.taskStore.get "other" ≠ s.taskStore.get "other" ∧ Named (Emitted tr) "t" "other" := by
  obtain ⟨tr, s, t, s', hrun, ht, hown, hstep, hchanged, hstored⟩ := strayingFor_stores
  refine ⟨tr, s, s', hrun, hstep, hchanged, ?_⟩
  obtain hnamed | ⟨_, hnone⟩ :=
    (execution_isolated .new hrun ht hown hstep).1 "other" hchanged
  · exact hnamed
  · exact absurd hnone hstored

/-- An execution does change another task's entry, and does apply an event
that names another task. -/
theorem straying_crosses :
    (∃ tr s t s', (serverMachine .new).Run besideOther tr s ∧ s.threads[1]? = some t ∧
      t.worksFor = some "t" ∧ Server.step .new s (.step 1 (.emitting [])) = some s' ∧
      s'.taskStore.get "other" ≠ s.taskStore.get "other") ∧
    ∃ tr s t s' current event task, (serverMachine .new).Run besideOther tr s ∧
      s.threads[1]? = some t ∧ t.worksFor = some "t" ∧
      t.saves = some (current, event, task) ∧ taskIdForEvent event = some "other" ∧
      Server.step .new s (.step 1 (.emitting [])) = some s' ∧
      s'.taskStore.get "t" = some task := by
  constructor
  · obtain ⟨tr, s, t, s', hrun, ht, hown, hstep, hchanged, _⟩ := strayingFor_stores
    exact ⟨tr, s, t, s', hrun, ht, hown, hstep, hchanged⟩
  · let current := continueTask (makeTask "t" "c" .inputRequired)
      (SendCall.continuing "t" "m").req.message
    let status : TaskStatus := ⟨.working, none, some .unixEpoch⟩
    have hx : ((serverMachine .new).exec besideOther (strayingFor 2)).map (fun p =>
        (p.2.threads[1]?.map fun t => (t.worksFor, t.saves),
          (Server.step .new p.2 (.step 1 (.emitting []))).map (·.taskStore.get "t"))) =
        some (some (some "t", some (current, .statusUpdate ⟨"other", "c", status, none⟩,
          { current with status := status })), some (some { current with status := status })) := rfl
    obtain ⟨⟨tr, s⟩, hexec, hs⟩ := Option.map_eq_some_iff.mp hx
    obtain ⟨hthread, hafter⟩ := Prod.mk.inj hs
    obtain ⟨t, ht, hboth⟩ := Option.map_eq_some_iff.mp hthread
    obtain ⟨hown, hsaves⟩ := Prod.mk.inj hboth
    obtain ⟨s', hstep, hstored⟩ := Option.map_eq_some_iff.mp hafter
    exact ⟨tr, s, t, s', _, _, _, Machine.run_of_exec hexec, ht, hown, hsaves, rfl, hstep, hstored⟩

end A2a
