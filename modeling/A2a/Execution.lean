import A2a.Handler

/-!
# A2a.Execution

A running execution as its subscribers see it (`ActiveExecution`,
`subscription_stream` in `a2a-server/src/handler.rs`), and the places a
call can be at between two of its atomic steps.

The broadcast channel of an execution is the list of all it was sent.  It
keeps only the last `executionBufferCapacity` of them: a receiver that is
further behind has lagged.
-/

namespace A2a

/-- `EXECUTION_BUFFER_CAPACITY`. -/
def executionBufferCapacity : Nat := 32

/-- What a stream of responses yields. -/
abbrev Item := Except A2AError StreamResponse

structure ExecutionEvent where
  sequence : Nat
  result : Item

/-- `ActiveExecution`, with the id it is registered under.  Its snapshot is
never absent: `new` sets it and `publish` only replaces it. -/
structure ActiveExecution where
  taskId : TaskId
  sent : List ExecutionEvent
  sequence : Nat
  snapshotTask : Task

/-- `ActiveExecution::new`. -/
def ActiveExecution.new (task : Task) : ActiveExecution := ⟨task.id, [], 0, task⟩

/-- A receiver of an execution's channel; `next` is the first event it has
not received. -/
structure Receiver where
  exec : ExecId
  next : Nat

/-- What a subscription attaches to (`Resubscription`).  The channel of a
final snapshot has no sender, and no receiver is kept for it. -/
structure Resubscription where
  receiver : Option Receiver
  snapshotTask : Task
  sequence : Nat

/-- The channel a `Waiter` is handed its execution on.  It is closed once
its value is taken or its receiver dropped. -/
inductive Oneshot
  | empty
  | full (value : Resubscription)
  | closed

/-- Send on the channel; a closed one loses the value. -/
def Oneshot.send (value : Resubscription) : Oneshot → Oneshot
  | .empty => .full value
  | channel => channel

def Oneshot.isClosed : Oneshot → Bool
  | .closed => true
  | _ => false

/-! ## subscription streams -/

/-- `SubscriptionState`, with what the stream has yielded so far. -/
structure Subscription where
  receiver : Option Receiver
  snapshotTask : Option Task
  minSequence : Nat
  done : Bool
  yielded : List Item

namespace Subscription

/-- `subscription_stream` of a resubscription. -/
def ofResubscription (r : Resubscription) : Subscription :=
  ⟨r.receiver, some r.snapshotTask, r.sequence, false, []⟩

/-- `subscription_stream` of a sender, which has no snapshot. -/
def ofReceiver (receiver : Receiver) : Subscription := ⟨some receiver, none, 0, false, []⟩

/-- Yield the snapshot; a terminal one is the last item. -/
def yieldSnapshot (sub : Subscription) (task : Task) : Subscription :=
  { sub with
    snapshotTask := none
    done := task.isTerminal
    yielded := sub.yielded ++ [.ok (.task task)] }

/-- Whether an item ends the stream it is yielded by. -/
def endsStream : Item → Bool
  | .ok event => isTerminalEvent event
  | .error _ => true

/-- An event received: one already covered is passed over, any other is
yielded. -/
def receive (sub : Subscription) (receiver : Receiver) (event : ExecutionEvent) : Subscription :=
  if event.sequence ≤ sub.minSequence then { sub with receiver := some receiver }
  else { sub with
    receiver := some receiver
    minSequence := event.sequence
    done := endsStream event.result
    yielded := sub.yielded ++ [event.result] }

/-- The error of a receiver that fell behind. -/
def lagError : A2AError := sanitizedInternalError "subscription fell behind active execution"

/-- Yield the lag error, which is the last item. -/
def yieldLag (sub : Subscription) : Subscription :=
  { sub with done := true, yielded := sub.yielded ++ [.error lagError] }

end Subscription

/-! ## calls in progress

A function that awaits more than one atomic operation is at one of these
places. -/

/-- `save_task`: before its `update`, or before its `create`. -/
inductive SavePc
  | update | create
  deriving DecidableEq

/-- `send_push_notifications`: before it lists the configurations, or with
the ones it has yet to send to. -/
inductive PushPc
  | list
  | send (remaining : List TaskPushNotificationConfig)

/-- `ActiveExecution::publish`: before the write of the state, before
`receiver_count`, or before `send`; with the sequence once it is taken. -/
inductive PublishPc
  | write
  | count (sequence : Nat)
  | send (sequence : Nat)

/-- `ExecutionManager::release`: before it takes the queue, or with the
waiters it has yet to hand the snapshot to. -/
inductive ReleasePc
  | take
  | handing (remaining : List WaiterId)

/-! ## drive_execution -/

/-- Where a `drive_execution` is.  The task after the event being delivered
is the driver's `current`. -/
inductive DrivePc
  /-- before it reads the snapshot and calls the executor -/
  | start
  /-- before `stream.next()` -/
  | poll
  | saving (event : StreamResponse) (task : Task) (pc : SavePc)
  | pushing (event : StreamResponse) (pc : PushPc)
  | publishing (event : StreamResponse) (pc : PublishPc)
  /-- `fail_task`, its `save_task` -/
  | failSaving (error : A2AError) (task : Task) (pc : SavePc)
  /-- `fail_task`, its push of the FAILED task -/
  | failPushing (error : A2AError) (task : Task) (pc : PushPc)
  | failPublishing (error : A2AError) (failed : Option Task) (pc : PublishPc)
  | finishing
  | done

/-- A `drive_execution` and its locals; `stream` is what the executor is yet
to emit. -/
structure Driver where
  taskId : TaskId
  exec : ExecId
  ctx : ExecutorContext
  current : Task
  stream : List Item
  answered : Bool
  tracked : Bool
  pc : DrivePc

/-! ## cancel_task -/

/-- The locals of a cancel once `begin_cancel` made its task CANCELED:
`task` is what its guard releases waiters with. -/
structure Cancelling where
  task : Task
  active : Option ExecId
  ctx : ExecutorContext
  current : Task
  stream : List Item
  terminalPushed : Bool

/-- Where a `cancel_task` is. -/
inductive CancelPc
  | load
  | beginCancel
  /-- `begin_cancel` was refused: before the task is read again -/
  | raced (error : A2AError)
  | getActive (task : Task)
  | polling (c : Cancelling)
  | saving (c : Cancelling) (event : StreamResponse) (task : Task) (pc : SavePc)
  | pushing (c : Cancelling) (event : StreamResponse) (pc : PushPc)
  | publishing (c : Cancelling) (event : StreamResponse) (pc : PublishPc)
  /-- the executor's cancel failed: its error is published -/
  | failPublishing (c : Cancelling) (error : A2AError) (pc : PublishPc)
  | failLoad (c : Cancelling) (error : A2AError)
  | failPushing (c : Cancelling) (error : A2AError) (task : Task) (pc : PushPc)
  | finishing (c : Cancelling)
  | finalLoad (c : Cancelling)
  | finalPushing (c : Cancelling) (task : Task) (pc : PushPc)
  | releasing (c : Cancelling) (task : Task) (pc : ReleasePc)
  /-- the drop of the guard, on every way out -/
  | dropping (task : Task) (result : Except A2AError Task) (pc : ReleasePc)
  | returned (result : Except A2AError Task)

structure CancelCall where
  params : ServiceParams
  req : CancelTaskRequest

/-! ## send_message and send_streaming_message -/

/-- A send; `streaming` tells the two methods apart. -/
structure SendCall where
  params : ServiceParams
  req : SendMessageRequest
  streaming : Bool

/-- Where a send is. -/
inductive SendPc
  | load
  | create (prepared : Prepared)
  | savePush (prepared : Prepared)
  | start (prepared : Prepared)
  /-- registered: before it subscribes and spawns the driver -/
  | attach (prepared : Prepared) (exec : ExecId)
  /-- a blocking send in its loop -/
  | following (taskId : TaskId) (sub : Subscription) (lastEvent : Option StreamResponse)
  /-- a blocking send before the `load_task` of its answer -/
  | answering (taskId : TaskId)
  | returned (result : Except A2AError SendMessageResponse)
  | streaming (sub : Subscription)
  | ended (sub : Subscription)

/-! ## subscribe_to_task -/

structure SubscribeCall where
  params : ServiceParams
  req : SubscribeToTaskRequest

/-- Where a subscription is.  `opened` is the stored task its stream opened
with, if it had to wait for an execution. -/
inductive SubscribePc
  | register
  /-- inside `resubscribe`, before it reads the state -/
  | readState (receiver : Receiver)
  /-- before the first `attached` -/
  | attached (w : WaiterId)
  | load (w : WaiterId)
  /-- before the second `attached` -/
  | loaded (w : WaiterId) (task : Task)
  /-- refused: before its waiter is dropped -/
  | refusing (w : WaiterId) (error : A2AError)
  /-- before its stream yields the stored task -/
  | opening (w : WaiterId) (task : Task)
  | waiting (w : WaiterId) (opened : Task)
  | streaming (opened : Option Task) (sub : Subscription)
  | refused (error : A2AError)
  | ended (opened : Option Task) (sub : Subscription)

/-! ## threads -/

/-- A call, or a driver, between two of its atomic steps.  A stream its
consumer dropped is `dropped`. -/
inductive Thread
  | send (call : SendCall) (pc : SendPc)
  | drive (driver : Driver)
  | cancel (call : CancelCall) (pc : CancelPc)
  | subscribe (call : SubscribeCall) (pc : SubscribePc)
  | dropped

namespace Thread

/-- The receiver a thread owns. -/
def receiver : Thread → Option Receiver
  | .send _ (.following _ sub _) => sub.receiver
  | .send _ (.streaming sub) => sub.receiver
  | .subscribe _ (.readState receiver) => some receiver
  | .subscribe _ (.streaming _ sub) => sub.receiver
  | _ => none

/-- The execution a thread holds an `Arc` to across its steps. -/
def holds : Thread → Option ExecId
  | .send _ (.attach _ exec) => some exec
  | .drive ⟨_, _, _, _, _, _, _, .done⟩ => none
  | .drive driver => some driver.exec
  | .cancel _ (.polling c) => c.active
  | .cancel _ (.saving c _ _ _) => c.active
  | .cancel _ (.pushing c _ _) => c.active
  | .cancel _ (.publishing c _ _) => c.active
  | .cancel _ (.failPublishing c _ _) => c.active
  | .cancel _ (.failLoad c _) => c.active
  | .cancel _ (.failPushing c _ _ _) => c.active
  | .cancel _ (.finishing c) => c.active
  | _ => none

end Thread

end A2a
