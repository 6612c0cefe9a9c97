import A2a.Execution
import A2a.Machine

/-!
# A2a.Server

The request handler as a system of threads: every call in progress and
every `drive_execution`, interleaved at their atomic operations on the
stores, the registry and the executions' channels.

* `Op` — the atomic operations, `Op.run` what each does to the server;
* `next` — the operation a thread is about to do, and where the answer
  takes it;
* `serverMachine` — any interleaving of any number of calls.

What comes from outside is an `Input` of each step: the clock, new ids, the
executor's streams, the answers of webhooks, the order of a listing.  A lock
held across several operations only delays others, so `resubscribe` under
the registry's read lock is two steps here.
-/

namespace A2a

/-- The whole server: the shared stores, every execution ever started, the
channels of the waiting subscriptions, what was pushed, and the threads. -/
structure Server extends Stores where
  pushSender : Bool
  executions : List ActiveExecution
  oneshots : List Oneshot
  webhooks : List (TaskPushNotificationConfig × StreamResponse)
  threads : List Thread

/-- What a step takes from outside. -/
structure Input extends Fresh where
  /-- what the executor will emit -/
  stream : List Item
  /-- the order a listing of push configurations comes in -/
  configs : List TaskPushNotificationConfig
  /-- the outcome of a delivery -/
  push : Except A2AError Unit

namespace Server

/-- Whether a live receiver follows the execution (`receiver_count`). -/
def listening (s : Server) (x : ExecId) : Bool :=
  s.threads.any (fun t => t.receiver.any (·.exec == x)) ||
    s.oneshots.any fun
      | .full value => value.receiver.any (·.exec == x)
      | _ => false

/-- Whether the last sender of the execution's channel is gone: it is not
registered, and no thread holds it. -/
def channelClosed (s : Server) (x : ExecId) : Bool :=
  match s.executions[x]? with
  | none => true
  | some active =>
      decide (s.manager.executions active.taskId ≠ some x) &&
        !s.threads.any fun t => t.holds == some x

/-- Change one execution. -/
def modifyExecution (s : Server) (x : ExecId) (f : ActiveExecution → ActiveExecution) : Server :=
  { s with executions := s.executions.modify x f }

/-- Send on a waiter's channel. -/
def hand (s : Server) (value : Resubscription) (w : WaiterId) : Server :=
  { s with oneshots := s.oneshots.modify w (Oneshot.send value) }

/-- The configurations an event of the task is pushed to. -/
def pushTargets (s : Server) (taskId : TaskId) : Multiset TaskPushNotificationConfig :=
  match s.pushConfigStore, s.pushSender with
  | some store, true => store.list taskId
  | _, _ => 0

end Server

/-! ## atomic operations -/

/-- What `recv` answers; a channel that is empty and open does not. -/
inductive Received
  | event (event : ExecutionEvent)
  | lagged
  | closed

/-- An atomic operation, by the type of its answer. -/
inductive Op : Type → Type
  | get (id : TaskId) : Op (Option Task)
  | create (task : Task) : Op (Except A2AError TaskVersion)
  | update (task : Task) : Op (Except A2AError TaskVersion)
  | beginCancel (id : TaskId) (now : DateTime) : Op (Except A2AError Task)
  | savePushConfig (h : Handler) (newId : String) (config : TaskPushNotificationConfig) :
      Op (Except A2AError TaskPushNotificationConfig)
  /-- `list`, in the order given -/
  | listPushConfigs (id : TaskId) (order : List TaskPushNotificationConfig) :
      Op (List TaskPushNotificationConfig)
  /-- `send_push`, with its outcome -/
  | sendPush (config : TaskPushNotificationConfig) (event : StreamResponse)
      (outcome : Except A2AError Unit) : Op (Except A2AError Unit)
  | start (task : Task) : Op (Except A2AError ExecId)
  | getActive (id : TaskId) : Op (Option ExecId)
  /-- `ExecutionManager::subscribe` up to the read of the state: a receiver of
  the registered execution, or a waiter -/
  | subscribe (id : TaskId) : Op (Receiver ⊕ WaiterId)
  | finish (id : TaskId) (x : ExecId) : Op Unit
  | takeWaiting (id : TaskId) : Op (List WaiterId)
  | hand (w : WaiterId) (value : Resubscription) : Op Unit
  /-- `Waiter::attached` -/
  | attached (w : WaiterId) : Op (Option Resubscription)
  /-- the `await` of a waiter's channel -/
  | await (w : WaiterId) : Op Resubscription
  | dropWaiter (id : TaskId) (w : WaiterId) : Op Unit
  /-- `ActiveExecution::subscribe` -/
  | listen (x : ExecId) : Op Receiver
  | readState (x : ExecId) : Op (Task × Nat)
  /-- the write of `publish`; answers the sequence -/
  | publish (x : ExecId) (snapshotTask : Option Task) : Op Nat
  | receiverCount (x : ExecId) : Op Bool
  /-- `broadcast::Sender::send` -/
  | broadcast (x : ExecId) (event : ExecutionEvent) : Op Unit
  | recv (receiver : Receiver) : Op Received
  /-- nothing shared -/
  | pass : Op Unit
  /-- nothing more to do -/
  | halt : Op Empty

namespace Op

/-- What an operation does to the server and answers; `none` where it has to
wait. -/
def run (s : Server) {β : Type} : Op β → Option (Server × β)
  | .get id => some (s, s.taskStore.get id)
  | .create task =>
      some ({ s with taskStore := (s.taskStore.create task).2 }, (s.taskStore.create task).1)
  | .update task =>
      some ({ s with taskStore := (s.taskStore.update task).2 }, (s.taskStore.update task).1)
  | .beginCancel id now =>
      some ({ s with taskStore := (s.taskStore.beginCancel id now).2 },
        (s.taskStore.beginCancel id now).1)
  | .savePushConfig h newId config =>
      some ({ s with pushConfigStore := (h.savePushConfig newId config s.pushConfigStore).2 },
        (h.savePushConfig newId config s.pushConfigStore).1)
  | .listPushConfigs id order =>
      if (order : Multiset TaskPushNotificationConfig) = s.pushTargets id then some (s, order)
      else none
  | .sendPush config event outcome =>
      some ({ s with webhooks := s.webhooks ++ [(config, event)] }, outcome)
  | .start task =>
      match s.manager.start task.id s.executions.length with
      | .error error => some (s, .error error)
      | .ok (waiters, manager) =>
          -- the waiters are subscribed before the executor runs
          let value := ⟨some ⟨s.executions.length, 0⟩, task, 0⟩
          some (waiters.foldl (·.hand value) { s with
            manager := manager
            executions := s.executions ++ [.new task] }, .ok s.executions.length)
  | .getActive id => some (s, s.manager.get id)
  | .subscribe id =>
      match s.manager.get id with
      | some x =>
          match s.executions[x]? with
          | some active => some (s, .inl ⟨x, active.sent.length⟩)
          | none => none
      | none =>
          some ({ s with
            manager := s.manager.enqueue id s.oneshots.length
            oneshots := s.oneshots ++ [.empty] }, .inr s.oneshots.length)
  | .finish id x => some ({ s with manager := s.manager.finish id x }, ())
  | .takeWaiting id => some ({ s with manager := s.manager.takeWaiting id }, s.manager.waiting id)
  | .hand w value => some (s.hand value w, ())
  | .attached w =>
      match s.oneshots[w]? with
      | some (.full value) => some ({ s with oneshots := s.oneshots.set w .closed }, some value)
      | _ => some (s, none)
  | .await w =>
      match s.oneshots[w]? with
      | some (.full value) => some ({ s with oneshots := s.oneshots.set w .closed }, value)
      | _ => none
  | .dropWaiter id w =>
      let oneshots := s.oneshots.set w .closed
      some ({ s with
        oneshots := oneshots
        manager := s.manager.retainOpen id fun v => oneshots[v]?.any (·.isClosed) }, ())
  | .listen x => s.executions[x]?.map fun active => (s, ⟨x, active.sent.length⟩)
  | .readState x =>
      s.executions[x]?.map fun active => (s, active.snapshotTask, active.sequence)
  | .publish x snapshotTask =>
      s.executions[x]?.map fun active =>
        (s.modifyExecution x fun active => { active with
          snapshotTask := snapshotTask.getD active.snapshotTask
          sequence := active.sequence + 1 }, active.sequence + 1)
  | .receiverCount x => some (s, s.listening x)
  | .broadcast x event =>
      -- with no receiver left the event is dropped
      some (if s.listening x then
        s.modifyExecution x fun active => { active with sent := active.sent ++ [event] }
      else s, ())
  | .recv receiver =>
      match s.executions[receiver.exec]? with
      | none => none
      | some active =>
          if receiver.next + executionBufferCapacity < active.sent.length then some (s, .lagged)
          else
            match active.sent[receiver.next]? with
            | some event => some (s, .event event)
            | none => if s.channelClosed receiver.exec then some (s, .closed) else none
  | .pass => some (s, ())
  | .halt => none

end Op

/-- The operation a thread is about to do, and what its answer makes of the
thread; the second component are the threads it spawns. -/
structure Cmd where
  {β : Type}
  op : Op β
  resume : β → Thread × List Thread

/-- An operation whose answer spawns nothing. -/
def Op.andThen {β : Type} (op : Op β) (resume : β → Thread) : Cmd := ⟨op, fun b => (resume b, [])⟩

/-! ## calls of more than one operation -/

/-- The operation of `save_task`. -/
def saveOp (task : Task) : SavePc → Op (Except A2AError TaskVersion)
  | .update => .update task
  | .create => .create task

/-- What follows in `save_task`: its `create`, or its result. -/
def saveStep (pc : SavePc) (task : Task) : Except A2AError TaskVersion → SavePc ⊕ Except A2AError Task
  | .ok _ => .inr (.ok task)
  | .error error =>
      if pc = .update ∧ error.code = ErrorCode.taskNotFound then .inl .create
      else .inr (.error error)

/-- `send_push_notifications`; `k` is where it is next, or its result. -/
def pushCmd (inp : Input) (taskId : TaskId) (event : StreamResponse) (pc : PushPc)
    (k : PushPc ⊕ Except A2AError Unit → Thread) : Cmd :=
  match pc with
  | .list => (Op.listPushConfigs taskId inp.configs).andThen fun configs => k (.inl (.send configs))
  | .send [] => Op.pass.andThen fun _ => k (.inr (.ok ()))
  | .send (config :: rest) =>
      (Op.sendPush config event inp.push).andThen fun
        | .ok _ => k (.inl (.send rest))
        | .error error => k (.inr (.error error))

/-- `ActiveExecution::publish`; `k` is where it is next, `none` when it is
done. -/
def publishCmd (x : ExecId) (result : Item) (snapshotTask : Option Task) (pc : PublishPc)
    (k : Option PublishPc → Thread) : Cmd :=
  match pc with
  | .write => (Op.publish x snapshotTask).andThen fun sequence => k (some (.count sequence))
  | .count sequence =>
      (Op.receiverCount x).andThen fun
        | true => k (some (.send sequence))
        | false => k none
  | .send sequence => (Op.broadcast x ⟨sequence, result⟩).andThen fun _ => k none

/-- `ExecutionManager::release`. -/
def releaseCmd (task : Task) (pc : ReleasePc) (k : Option ReleasePc → Thread) : Cmd :=
  match pc with
  | .take => (Op.takeWaiting task.id).andThen fun waiters => k (some (.handing waiters))
  | .handing [] => Op.pass.andThen fun _ => k none
  | .handing (w :: rest) =>
      (Op.hand w ⟨none, task, 0⟩).andThen fun _ => k (some (.handing rest))

/-- One poll of a subscription stream; `k` is the stream after it, and the
item it yielded or its end. -/
def pollCmd (sub : Subscription) (k : Subscription → Option (Option Item) → Thread) : Cmd :=
  if sub.done then Op.pass.andThen fun _ => k sub (some none)
  else
    match sub.snapshotTask, sub.receiver with
    | some task, _ =>
        Op.pass.andThen fun _ => k (sub.yieldSnapshot task) (some (some (.ok (.task task))))
    | none, none => Op.pass.andThen fun _ => k sub (some none)
    | none, some receiver =>
        (Op.recv receiver).andThen fun
          | .event event =>
              k (sub.receive { receiver with next := receiver.next + 1 } event)
                (if event.sequence ≤ sub.minSequence then none else some (some event.result))
          | .lagged => k sub.yieldLag (some (some (.error Subscription.lagError)))
          | .closed => k sub (some none)

/-! ## drive_execution -/

namespace Driver

/-- The driver at another place. -/
def goto (d : Driver) (pc : DrivePc) : Thread := .drive { d with pc := pc }

/-- The way out of the loop with a failure: `fail_task`, unless the task is
terminal, and then the error is published. -/
def fail (d : Driver) (inp : Input) (error : A2AError) : Thread :=
  if d.current.isTerminal then d.goto (.failPublishing error none .write)
  else d.goto (.failSaving error (failedTask inp.now inp.messageId d.current error) .update)

/-- An event of the executor: its place in the response is checked, then it
is applied to the task. -/
def accept (d : Driver) (inp : Input) (event : StreamResponse) : Thread :=
  let message := event.isMessage
  if d.answered || (message && d.tracked) then d.fail inp .invalidAgentResponse
  else
    let d := { d with answered := message, tracked := d.tracked || !message }
    let event := backfillStatusTimestamp inp.now event
    if message then d.goto (.pushing event .list)
    else
      match foldEvent d.current event with
      | .ok task => d.goto (.saving event (task.backfill inp.now) .update)
      | .error error => d.fail inp error

/-- `drive_execution`. -/
def next (inp : Input) (d : Driver) : Cmd :=
  match d.pc with
  | .start =>
      (Op.readState d.exec).andThen fun state =>
        .drive { d with current := state.1, stream := inp.stream, pc := .poll }
  | .poll =>
      match d.stream with
      | [] => Op.pass.andThen fun _ => d.goto .finishing
      | item :: rest =>
          (Op.readState d.exec).andThen fun state =>
            let d := { d with stream := rest }
            if state.1.isTerminal then d.goto .finishing
            else
              match item with
              | .ok event => d.accept inp event
              | .error error => d.fail inp error
  | .saving event task pc =>
      (saveOp task pc).andThen fun answer =>
        match saveStep pc task answer with
        | .inl pc => d.goto (.saving event task pc)
        | .inr (.ok task) => { d with current := task }.goto (.pushing event .list)
        | .inr (.error error) => d.fail inp error
  | .pushing event pc =>
      pushCmd inp d.taskId event pc fun
        | .inl pc => d.goto (.pushing event pc)
        | .inr (.ok _) => d.goto (.publishing event .write)
        | .inr (.error error) => d.fail inp error
  | .publishing event pc =>
      publishCmd d.exec (.ok event) (some d.current) pc fun
        | some pc => d.goto (.publishing event pc)
        | none => d.goto (if isTerminalEvent event then .finishing else .poll)
  | .failSaving error task pc =>
      (saveOp task pc).andThen fun answer =>
        match saveStep pc task answer with
        | .inl pc => d.goto (.failSaving error task pc)
        | .inr (.ok task) => d.goto (.failPushing error task .list)
        | .inr (.error _) => d.goto (.failPublishing error none .write)
  | .failPushing error task pc =>
      -- a failed push is dropped
      pushCmd inp task.id (statusUpdate task) pc fun
        | .inl pc => d.goto (.failPushing error task pc)
        | .inr _ => d.goto (.failPublishing error (some task) .write)
  | .failPublishing error failed pc =>
      publishCmd d.exec (.error error) failed pc fun
        | some pc => d.goto (.failPublishing error failed pc)
        | none => d.goto .finishing
  | .finishing => (Op.finish d.taskId d.exec).andThen fun _ => d.goto .done
  | .done => ⟨.halt, Empty.elim⟩

end Driver

/-! ## cancel_task -/

namespace CancelCall

/-- A cancel after its loop. -/
def afterLoop (c : Cancelling) : CancelPc :=
  if c.active.isSome then .finishing c else .finalLoad c

/-- A cancel after an event was pushed and published. -/
def afterEvent (c : Cancelling) (event : StreamResponse) : CancelPc :=
  if isTerminalEvent event then afterLoop { c with terminalPushed := true } else .polling c

/-- The way out with an error: the guard is dropped. -/
def fail (c : Cancelling) (error : A2AError) : CancelPc := .dropping c.task (.error error) .take

/-- An event of the executor's cancel, applied to the task. -/
def accept (c : Cancelling) (inp : Input) (event : StreamResponse) : CancelPc :=
  let event := backfillStatusTimestamp inp.now event
  if event.isMessage then .pushing c event .list
  else
    match foldEvent c.current event with
    | .ok task => .saving c event (task.backfill inp.now) .update
    | .error error => fail c error

/-- `cancel_task`. -/
def next (h : Handler) (inp : Input) (call : CancelCall) (pc : CancelPc) : Cmd :=
  let goto := Thread.cancel call
  match pc with
  | .load =>
      match h.authorize call.params (some call.req.id) with
      | .error error => Op.pass.andThen fun _ => goto (.returned (.error error))
      | .ok _ =>
          (Op.get call.req.id).andThen fun
            | none => goto (.returned (.error (.taskNotFound call.req.id)))
            | some task =>
                if task.status.state = .canceled then goto (.returned (.ok task))
                else if task.isTerminal then
                  goto (.returned (.error (.taskNotCancelable call.req.id)))
                else goto .beginCancel
  | .beginCancel =>
      (Op.beginCancel call.req.id inp.now).andThen fun
        | .ok task => goto (.getActive task)
        | .error error =>
            if error.code = ErrorCode.taskNotCancelable then goto (.raced error)
            else goto (.returned (.error error))
  | .raced error =>
      (Op.get call.req.id).andThen fun
        | none => goto (.returned (.error (.taskNotFound call.req.id)))
        | some raced =>
            if raced.status.state = .canceled then goto (.returned (.ok raced))
            else goto (.returned (.error error))
  | .getActive task =>
      (Op.getActive call.req.id).andThen fun active =>
        let ctx := ⟨none, call.req.id, some task, task.contextId, call.req.metadata, call.params,
          call.req.tenant⟩
        goto (.polling ⟨task, active, ctx, task, inp.stream, false⟩)
  | .polling c =>
      Op.pass.andThen fun _ =>
        match c.stream with
        | [] => goto (afterLoop c)
        | .ok event :: rest => goto (accept { c with stream := rest } inp event)
        | .error error :: rest =>
            let c := { c with stream := rest }
            if c.active.isSome then goto (.failPublishing c error .write)
            else goto (.failLoad c error)
  | .saving c event task pc =>
      (saveOp task pc).andThen fun answer =>
        match saveStep pc task answer with
        | .inl pc => goto (.saving c event task pc)
        | .inr (.ok task) => goto (.pushing { c with current := task } event .list)
        | .inr (.error error) => goto (fail c error)
  | .pushing c event pc =>
      pushCmd inp call.req.id event pc fun
        | .inl pc => goto (.pushing c event pc)
        | .inr (.ok _) =>
            if c.active.isSome then goto (.publishing c event .write)
            else goto (afterEvent c event)
        | .inr (.error error) => goto (fail c error)
  | .publishing c event pc =>
      match c.active with
      | none => Op.pass.andThen fun _ => goto (afterEvent c event)
      | some x =>
          publishCmd x (.ok event) (some c.current) pc fun
            | some pc => goto (.publishing c event pc)
            | none => goto (afterEvent c event)
  | .failPublishing c error pc =>
      match c.active with
      | none => Op.pass.andThen fun _ => goto (.failLoad c error)
      | some x =>
          publishCmd x (.error error) none pc fun
            | some pc => goto (.failPublishing c error pc)
            | none => goto (.failLoad c error)
  | .failLoad c error =>
      (Op.get call.req.id).andThen fun
        | none => goto (fail c error)
        | some task => goto (.failPushing c error task .list)
  | .failPushing c error task pc =>
      -- a failed push is dropped
      pushCmd inp call.req.id (statusUpdate task) pc fun
        | .inl pc => goto (.failPushing c error task pc)
        | .inr _ => goto (fail c error)
  | .finishing c =>
      match c.active with
      | none => Op.pass.andThen fun _ => goto (.finalLoad c)
      | some x => (Op.finish call.req.id x).andThen fun _ => goto (.finalLoad c)
  | .finalLoad c =>
      (Op.get call.req.id).andThen fun
        | none => goto (fail c (.taskNotFound call.req.id))
        | some task =>
            if c.terminalPushed then goto (.releasing c task .take)
            else goto (.finalPushing c task .list)
  | .finalPushing c task pc =>
      pushCmd inp call.req.id (statusUpdate task) pc fun
        | .inl pc => goto (.finalPushing c task pc)
        | .inr (.ok _) => goto (.releasing c task .take)
        | .inr (.error error) => goto (fail c error)
  | .releasing c task pc =>
      releaseCmd task pc fun
        | some pc => goto (.releasing c task pc)
        | none => goto (.dropping c.task (.ok task) .take)
  | .dropping task result pc =>
      releaseCmd task pc fun
        | some pc => goto (.dropping task result pc)
        | none => goto (.returned result)
  | .returned _ => ⟨.halt, Empty.elim⟩

end CancelCall

/-! ## send_message and send_streaming_message -/

namespace SendCall

/-- The answer of a send with the task it names, cut to the history asked
for. -/
def answer (call : SendCall) : Option Task → TaskId → Except A2AError SendMessageResponse
  | none, taskId => .error (.taskNotFound taskId)
  | some task, _ => .ok (.task (applyHistoryLength task call.req.historyLength))

/-- A blocking send after its stream ended. -/
def finishSend (call : SendCall) (taskId : TaskId) : Option StreamResponse → SendPc
  | some (.task task) =>
      .returned (.ok (.task (applyHistoryLength task call.req.historyLength)))
  | some (.statusUpdate update) => .answering update.taskId
  | some (.artifactUpdate update) => .answering update.taskId
  | some (.message message) => .returned (.ok (.message message))
  | none => .answering taskId

/-- A blocking send that received an item. -/
def onItem (call : SendCall) (taskId : TaskId) (sub : Subscription) : Item → SendPc
  | .error error => .returned (.error error)
  | .ok event =>
      match shouldInterruptNonStreaming call.req event with
      | some interrupted => .answering interrupted
      | none =>
          match event with
          | .message message => .returned (.ok (.message message))
          | event => .following taskId sub (some event)

/-- What the executor of a send is given. -/
def context (call : SendCall) (prepared : Prepared) : ExecutorContext where
  message := some call.req.message
  taskId := prepared.task.id
  storedTask := if call.streaming then prepared.stored else some prepared.task
  contextId := prepared.task.contextId
  metadata := call.req.metadata
  serviceParams := call.params
  tenant := call.req.tenant

/-- The driver a send spawns. -/
def driver (call : SendCall) (prepared : Prepared) (x : ExecId) : Driver where
  taskId := prepared.task.id
  exec := x
  ctx := call.context prepared
  current := prepared.task
  stream := []
  answered := false
  tracked := false
  pc := .start

/-- What a streaming send yields for an item of its subscription. -/
def cutItem (call : SendCall) : Item → Item
  | .ok (.task task) => .ok (.task (applyHistoryLength task call.req.historyLength))
  | item => item

/-- `send_message`, and `send_streaming_message` for a streaming call. -/
def next (h : Handler) (inp : Input) (call : SendCall) (pc : SendPc) : Cmd :=
  let goto := Thread.send call
  match pc with
  | .load =>
      match h.checkSend call.params call.streaming call.req with
      | .error error => Op.pass.andThen fun _ => goto (.returned (.error error))
      | .ok _ =>
          let taskId := requestTaskId inp.toFresh call.req
          (Op.get taskId).andThen fun stored =>
            match prepare inp.toFresh call.req taskId stored with
            | .error error => goto (.returned (.error error))
            | .ok prepared =>
                if prepared.stored.isNone then goto (.create prepared) else goto (.savePush prepared)
  | .create prepared =>
      (Op.create prepared.task).andThen fun
        | .ok _ => goto (.savePush prepared)
        | .error error => goto (.returned (.error error))
  | .savePush prepared =>
      match requestPushConfig prepared.task.id call.req with
      | none => Op.pass.andThen fun _ => goto (.start prepared)
      | some config =>
          (Op.savePushConfig h inp.configId config).andThen fun
            | .ok _ => goto (.start prepared)
            | .error error => goto (.returned (.error error))
  | .start prepared =>
      (Op.start prepared.task).andThen fun
        | .ok x => goto (.attach prepared x)
        | .error error => goto (.returned (.error error))
  | .attach prepared x =>
      ⟨.listen x, fun receiver =>
        let sub := Subscription.ofReceiver receiver
        (goto (if call.streaming then .streaming sub else .following prepared.task.id sub none),
          [.drive (call.driver prepared x)])⟩
  | .following taskId sub lastEvent =>
      pollCmd sub fun sub polled =>
        match polled with
        | none => goto (.following taskId sub lastEvent)
        | some none => goto (call.finishSend taskId lastEvent)
        | some (some item) => goto (call.onItem taskId sub item)
  | .answering taskId =>
      (Op.get taskId).andThen fun task => goto (.returned (call.answer task taskId))
  | .streaming sub =>
      pollCmd sub fun sub polled =>
        match polled with
        | some none => goto (.ended sub)
        | _ => goto (.streaming sub)
  | .returned _ => ⟨.halt, Empty.elim⟩
  | .ended _ => ⟨.halt, Empty.elim⟩

end SendCall

/-! ## subscribe_to_task -/

namespace SubscribeCall

/-- `subscribe_to_task`, and its stream. -/
def next (h : Handler) (call : SubscribeCall) (pc : SubscribePc) : Cmd :=
  let goto := Thread.subscribe call
  match pc with
  | .register =>
      match h.authorize call.params (some call.req.id), h.requireStreaming with
      | .error error, _ => Op.pass.andThen fun _ => goto (.refused error)
      | .ok _, .error error => Op.pass.andThen fun _ => goto (.refused error)
      | .ok _, .ok _ =>
          (Op.subscribe call.req.id).andThen fun
            | .inl receiver => goto (.readState receiver)
            | .inr w => goto (.attached w)
  | .readState receiver =>
      (Op.readState receiver.exec).andThen fun state =>
        goto (.streaming none (.ofResubscription ⟨some receiver, state.1, state.2⟩))
  | .attached w =>
      (Op.attached w).andThen fun
        | some value => goto (.streaming none (.ofResubscription value))
        | none => goto (.load w)
  | .load w =>
      (Op.get call.req.id).andThen fun
        | none => goto (.refusing w (.taskNotFound call.req.id))
        | some task => goto (.loaded w task)
  | .loaded w task =>
      (Op.attached w).andThen fun
        | some value => goto (.streaming none (.ofResubscription value))
        | none =>
            if task.isTerminal then
              goto (.refusing w (.unsupportedOperation
                s!"task {call.req.id} has already reached a terminal state"))
            else goto (.opening w task)
  | .refusing w error =>
      (Op.dropWaiter call.req.id w).andThen fun _ => goto (.refused error)
  | .opening w task => Op.pass.andThen fun _ => goto (.waiting w task)
  | .waiting w opened =>
      (Op.await w).andThen fun value => goto (.streaming (some opened) (.ofResubscription value))
  | .streaming opened sub =>
      pollCmd sub fun sub polled =>
        match polled with
        | some none => goto (.ended opened sub)
        | _ => goto (.streaming opened sub)
  | .refused _ => ⟨.halt, Empty.elim⟩
  | .ended _ _ => ⟨.halt, Empty.elim⟩

end SubscribeCall

/-! ## the machine -/

namespace Thread

/-- What a thread does next. -/
def next (h : Handler) (inp : Input) : Thread → Cmd
  | .send call pc => call.next h inp pc
  | .drive d => d.next inp
  | .cancel call pc => call.next h inp pc
  | .subscribe call pc => call.next h pc
  | .dropped => ⟨.halt, Empty.elim⟩

/-- The drop of a stream by its consumer, where the thread is one. -/
def drop : Thread → Cmd
  | .send _ (.streaming _) => Op.pass.andThen fun _ => .dropped
  | .subscribe call (.opening w _) => (Op.dropWaiter call.req.id w).andThen fun _ => .dropped
  | .subscribe call (.waiting w _) => (Op.dropWaiter call.req.id w).andThen fun _ => .dropped
  | .subscribe _ (.streaming _ _) => Op.pass.andThen fun _ => .dropped
  | _ => ⟨.halt, Empty.elim⟩

end Thread

/-- A call of a client. -/
inductive Request
  | send (call : SendCall)
  | cancel (call : CancelCall)
  | subscribe (call : SubscribeCall)

/-- The thread of a call that has just arrived. -/
def Request.thread : Request → Thread
  | .send call => .send call .load
  | .cancel call => .cancel call .load
  | .subscribe call => .subscribe call .register

inductive Action
  | call (request : Request)
  /-- the next operation of the `i`-th thread -/
  | step (i : Nat) (inp : Input)
  /-- the consumer of the `i`-th thread's stream drops it -/
  | drop (i : Nat)

namespace Server

/-- Run a command as the `i`-th thread. -/
def exec (s : Server) (i : Nat) (cmd : Cmd) : Option Server :=
  (cmd.op.run s).map fun (s', b) =>
    { s' with threads := s'.threads.set i (cmd.resume b).1 ++ (cmd.resume b).2 }

/-- One step of the server. -/
def step (h : Handler) (s : Server) : Action → Option Server
  | .call request => some { s with threads := s.threads ++ [request.thread] }
  | .step i inp => s.threads[i]?.bind fun thread => s.exec i (thread.next h inp)
  | .drop i => s.threads[i]?.bind fun thread => s.exec i thread.drop

end Server

/-- Every interleaving of the calls of a handler. -/
def serverMachine (h : Handler) : Machine Server Action := ⟨Server.step h⟩

/-- A server just started over the given stores. -/
def Server.new (taskStore : InMemoryTaskStore) (pushConfigStore : Option InMemoryPushConfigStore)
    (pushSender : Bool) : Server where
  taskStore := taskStore
  pushConfigStore := pushConfigStore
  manager := .empty
  pushSender := pushSender
  executions := []
  oneshots := []
  webhooks := []
  threads := []

/-! ## scripts

Calls that use nothing optional, for the runs this development exhibits. -/

/-- An input in which nothing comes from outside but the executor's stream. -/
def Input.emitting (stream : List Item) : Input where
  now := .unixEpoch
  taskId := "new-task"
  contextId := "new-context"
  messageId := "new-message"
  configId := "new-config"
  stream := stream
  configs := []
  push := .ok ()

/-- A blocking send that continues a task with the message named. -/
def SendCall.continuing (taskId : TaskId) (messageId : String) : SendCall where
  params := ∅
  req := {
    message := { Message.new messageId .user [] with taskId := some taskId }
    configuration := none
    metadata := none
    tenant := none }
  streaming := false

/-- A blocking send that opens a new task with the message named. -/
def SendCall.opening (messageId : String) : SendCall where
  params := ∅
  req := {
    message := .new messageId .user []
    configuration := none
    metadata := none
    tenant := none }
  streaming := false

/-- A cancel of a task. -/
def CancelCall.of (taskId : TaskId) : CancelCall := ⟨∅, ⟨taskId, none, none⟩⟩

/-- A subscription to a task. -/
def SubscribeCall.of (taskId : TaskId) : SubscribeCall := ⟨∅, ⟨taskId, none⟩⟩

/-- A store, without a limit, that holds one task. -/
def InMemoryTaskStore.holding (task : Task) : InMemoryTaskStore :=
  ((InMemoryTaskStore.new none).create task).2

/-- A server over one task that awaits input. -/
def awaitingInput : Server := .new (.holding (makeTask "t" "c" .inputRequired)) none false

end A2a
