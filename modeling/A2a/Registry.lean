import A2a.Machine
import A2a.Types
import Mathlib.Logic.Function.Basic

/-!
# A2a.Registry

The execution registry of the handler (`ExecutionManager` in
`a2a-server/src/handler.rs`): which task has a running execution, and which
subscriptions wait for a task's next one.

`ExecutionManager` is the two maps and what each operation does to them.
`registryMachine` interleaves the operations at the granularity of their
locks: `start` holds the registry lock from its check to its last hand-over,
while `release` and the drop of a waiter touch only the queue and may run
in the middle of anything.
-/

namespace A2a

/-- An execution, by the order of its start: `Arc::ptr_eq` on executions is
equality of these. -/
abbrev ExecId := Nat

/-- A waiting subscription, by the order of its creation. -/
abbrev WaiterId := Nat

/-- The registry's two maps.  A task without waiters has no entry in the
second one; here its queue is empty. -/
structure ExecutionManager where
  executions : TaskId → Option ExecId
  waiting : TaskId → List WaiterId

namespace ExecutionManager

/-- `ExecutionManager::default`. -/
def empty : ExecutionManager := ⟨fun _ => none, fun _ => []⟩

/-- `get`. -/
def get (m : ExecutionManager) (id : TaskId) : Option ExecId := m.executions id

/-- Register an execution (first half of `start`). -/
def insert (m : ExecutionManager) (id : TaskId) (x : ExecId) : ExecutionManager :=
  { m with executions := Function.update m.executions id (some x) }

/-- Take the queue of a task, as `start` and `release` do before they hand
its waiters anything. -/
def takeWaiting (m : ExecutionManager) (id : TaskId) : ExecutionManager :=
  { m with waiting := Function.update m.waiting id [] }

/-- Queue a waiter (`subscribe` on a task with no execution). -/
def enqueue (m : ExecutionManager) (id : TaskId) (w : WaiterId) : ExecutionManager :=
  { m with waiting := Function.update m.waiting id (m.waiting id ++ [w]) }

/-- `finish`: removes the execution's own registration, and no other. -/
def finish (m : ExecutionManager) (id : TaskId) (x : ExecId) : ExecutionManager :=
  if m.executions id = some x then
    { m with executions := Function.update m.executions id none }
  else m

/-- The drop of a waiter: the queue of its task keeps the open ones. -/
def retainOpen (m : ExecutionManager) (id : TaskId) (isClosed : WaiterId → Bool) :
    ExecutionManager :=
  { m with waiting := Function.update m.waiting id ((m.waiting id).filter (!isClosed ·)) }

/-- `start` up to the hand-over: refused while an execution is registered,
otherwise the new execution is registered and the queue taken. -/
def start (m : ExecutionManager) (id : TaskId) (x : ExecId) :
    Except A2AError (List WaiterId × ExecutionManager) :=
  if (m.executions id).isSome then
    .error (.invalidRequest s!"task execution is already in progress: {id}")
  else .ok (m.waiting id, (m.insert id x).takeWaiting id)

end ExecutionManager

/-! ## the registry machine -/

/-- What a waiter is handed: a running execution to follow, or the task's
final snapshot. -/
inductive Handover
  | execution (x : ExecId)
  | final
  deriving DecidableEq

/-- The life of a `Waiter`.  Its drop first closes its receiver and then
cleans the queue. -/
inductive WaiterPhase
  | unborn | live | closing | dropped
  deriving DecidableEq

/-- Whether the receiver is closed, as the queued sender sees it. -/
def WaiterPhase.isClosed : WaiterPhase → Bool
  | .closing | .dropped => true
  | _ => false

/-- A `start` that holds the registry lock; `taken` is what is left of the
queue it took, `none` before it took it. -/
structure StartCall where
  id : TaskId
  exec : ExecId
  taken : Option (List WaiterId)

/-- The registry and the operations in progress on it.  `releasing` holds,
for each running `release`, the waiters it took and has yet to hand over;
`inbox` is what each waiter's channel was sent. -/
structure RegistryState where
  manager : ExecutionManager
  starting : Option StartCall
  releasing : List (List WaiterId)
  inbox : WaiterId → List Handover
  phase : WaiterId → WaiterPhase
  home : WaiterId → TaskId
  nextExec : ExecId
  nextWaiter : WaiterId

inductive RegistryOp
  /-- `start`: take the lock, check, register -/
  | start (id : TaskId)
  /-- `start`: take the queue -/
  | startTake
  /-- `start`: hand the next waiter its subscription -/
  | startSend
  /-- `start`: return, the lock is free again -/
  | startEnd
  | subscribe (id : TaskId)
  | finish (id : TaskId) (x : ExecId)
  /-- `release`, also when `ReleaseOnDrop` is dropped: take the queue -/
  | release (id : TaskId)
  /-- the `k`-th running `release`: hand the next waiter the snapshot -/
  | releaseSend (k : Nat)
  /-- the drop of a `Waiter`: close its receiver -/
  | dropClose (w : WaiterId)
  /-- the drop of a `Waiter`: clean the queue -/
  | dropRetain (w : WaiterId)

namespace RegistryState

/-- Send on a waiter's channel; a closed receiver loses the value. -/
def send (s : RegistryState) (w : WaiterId) (v : Handover) : RegistryState :=
  if (s.phase w).isClosed then s
  else { s with inbox := Function.update s.inbox w (s.inbox w ++ [v]) }

def setPhase (s : RegistryState) (w : WaiterId) (p : WaiterPhase) : RegistryState :=
  { s with phase := Function.update s.phase w p }

/-- A new waiter for `id`. -/
def spawnWaiter (s : RegistryState) (id : TaskId) : RegistryState :=
  { s with
    phase := Function.update s.phase s.nextWaiter .live
    home := Function.update s.home s.nextWaiter id
    nextWaiter := s.nextWaiter + 1 }

/-- `subscribe`: attached to the registered execution, or queued. -/
def subscribe (s : RegistryState) (id : TaskId) : RegistryState :=
  match s.manager.executions id with
  | some x => (s.spawnWaiter id).send s.nextWaiter (.execution x)
  | none => { s.spawnWaiter id with manager := s.manager.enqueue id s.nextWaiter }

/-- One operation, or one locked section of it. -/
def step (s : RegistryState) : RegistryOp → Option RegistryState
  | .start id =>
      match s.starting, s.manager.executions id with
      | none, none => some { s with
          manager := s.manager.insert id s.nextExec
          starting := some ⟨id, s.nextExec, none⟩
          nextExec := s.nextExec + 1 }
      | none, some _ => some s
      | some _, _ => none
  | .startTake =>
      match s.starting with
      | some ⟨id, x, none⟩ => some { s with
          manager := s.manager.takeWaiting id
          starting := some ⟨id, x, some (s.manager.waiting id)⟩ }
      | _ => none
  | .startSend =>
      match s.starting with
      | some ⟨id, x, some (w :: ws)⟩ =>
          some { s.send w (.execution x) with starting := some ⟨id, x, some ws⟩ }
      | _ => none
  | .startEnd =>
      match s.starting with
      | some ⟨_, _, some []⟩ => some { s with starting := none }
      | _ => none
  | .subscribe id =>
      match s.starting with
      | none => some (s.subscribe id)
      | some _ => none
  | .finish id x =>
      match s.starting with
      | none => some { s with manager := s.manager.finish id x }
      | some _ => none
  | .release id => some { s with
      manager := s.manager.takeWaiting id
      releasing := s.releasing ++ [s.manager.waiting id] }
  | .releaseSend k =>
      match s.releasing[k]? with
      | some (w :: ws) => some { s.send w .final with releasing := s.releasing.set k ws }
      | _ => none
  | .dropClose w => if s.phase w = .live then some (s.setPhase w .closing) else none
  | .dropRetain w =>
      if s.phase w = .closing then
        some { s.setPhase w .dropped with
          manager := s.manager.retainOpen (s.home w) fun v => (s.phase v).isClosed }
      else none

/-- No execution, no waiter, no operation in progress. -/
def empty : RegistryState :=
  ⟨.empty, none, [], fun _ => [], fun _ => .unborn, fun _ => "", 0, 0⟩

end RegistryState

/-- Every interleaving of the registry's operations. -/
def registryMachine : Machine RegistryState RegistryOp := ⟨RegistryState.step⟩

end A2a
