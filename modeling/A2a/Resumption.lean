import A2a.Execution
import A2a.Machine

/-!
# A2a.Resumption

`task subscribe` (`subscribe_with_resumption` in `a2acli/src/lib.rs`): the
events of a subscription printed and saved as they come, over as many
streams as it takes until the task settles.

The loop is a machine fed with what comes from outside, one `SubscribeInput` at each
place where it waits: an item or the end of the stream, a reading of the
clock, the outcome of a call.  Times are readings of a clock that starts
anywhere.
-/

namespace A2a

/-- `is_settled`. -/
def isSettled (state : TaskState) : Bool :=
  state.isTerminal || state = .inputRequired || state = .authRequired

/-- `stream_response_state`. -/
def streamResponseState : StreamResponse → Option TaskState
  | .task task => some task.status.state
  | .statusUpdate event => some event.status.state
  | .message _ => none
  | .artifactUpdate _ => none

/-- `is_connection_failure`. -/
def isConnectionFailure (error : A2AError) : Bool :=
  error.code = ErrorCode.internalError && error.details.isNone

/-- How a command fails here. -/
inductive CliError
  | a2a (error : A2AError)
  | timeout (taskId : TaskId) (timeout : Nat)
  | output (reason : String)

/-- What the loop is given where it waits.  An event comes with how its
printing and its saving end, if the loop gets to them. -/
inductive SubscribeInput
  | event (event : StreamResponse) (printing saving : Except String Unit)
  | error (error : A2AError)
  | ended
  | clock (now : Nat)
  | subscribed
  | refused (error : A2AError)

/-- The command: its task, `--timeout`, and how the client's `destroy`
ends. -/
structure SubscribeCommand where
  taskId : TaskId
  timeout : Nat
  destroying : Except A2AError Unit

/-- Where the loop waits: for the stream, for the clock at the start of an
outage or before another attempt, for the call; or it has returned. -/
inductive SubscribePhase
  | reading
  | interrupted
  | retrying
  | resubscribing
  | returned (result : Except CliError Unit)

/-- The loop's variables, and what it has done so far.  The count of attempts
wraps around. -/
structure SubscribeLoop where
  phase : SubscribePhase
  outageDeadline : Option Nat
  lastState : Option TaskState
  attempt : UInt32
  stateBeforeThisAttempt : Option TaskState
  firstEvent : Bool
  cause : String
  printed : List StreamResponse
  saved : List StreamResponse
  destroyed : Nat
  warnings : List String

namespace SubscribeLoop

/-- On the first stream. -/
def start : SubscribeLoop where
  phase := .reading
  outageDeadline := none
  lastState := none
  attempt := 0
  stateBeforeThisAttempt := none
  firstEvent := false
  cause := ""
  printed := []
  saved := []
  destroyed := 0
  warnings := []

/-- Destroy the client and return. -/
def leave (l : SubscribeLoop) (result : Except CliError Unit) : SubscribeLoop :=
  { l with phase := .returned result, destroyed := l.destroyed + 1 }

/-- `save_fileparts`, or destroy the client. -/
def saveOrDestroy (l : SubscribeLoop) (event : StreamResponse) (saving : Except String Unit) :
    SubscribeLoop :=
  match saving with
  | .error reason => l.leave (.error (.output reason))
  | .ok _ => { l with saved := l.saved ++ [event] }

/-- `print_or_destroy`, and the end of an outage. -/
def printOrDestroy (l : SubscribeLoop) (event : StreamResponse)
    (printing saving : Except String Unit) : SubscribeLoop :=
  match printing with
  | .error reason => l.leave (.error (.output reason))
  | .ok _ =>
      let l := { l with printed := l.printed ++ [event] }
      match saving with
      | .error reason => l.leave (.error (.output reason))
      | .ok _ => { l with saved := l.saved ++ [event], outageDeadline := none }

/-- Whether an event only says again what was known before the cut. -/
def unchanged (l : SubscribeLoop) (event : StreamResponse) : Bool :=
  l.firstEvent && (streamResponseState event).isSome &&
    streamResponseState event == l.stateBeforeThisAttempt

/-- An event of the stream. -/
def onEvent (l : SubscribeLoop) (event : StreamResponse) (printing saving : Except String Unit) :
    SubscribeLoop :=
  let unchanged := l.unchanged event
  let l := { l with lastState := (streamResponseState event).or l.lastState, firstEvent := false }
  if unchanged then l.saveOrDestroy event saving else l.printOrDestroy event printing saving

/-- The stream is over, or its connection failed. -/
def onCut (cmd : SubscribeCommand) (l : SubscribeLoop) (cause : String) : SubscribeLoop :=
  if l.lastState.any isSettled then
    match cmd.destroying with
    | .ok _ => l.leave (.ok ())
    | .error error => l.leave (.error (.a2a error))
  else
    { l with
      phase := if l.outageDeadline.isSome then .retrying else .interrupted
      cause := cause }

/-- Before an attempt: the outage is over time, or it is made. -/
def onRetry (cmd : SubscribeCommand) (l : SubscribeLoop) (now : Nat) : SubscribeLoop :=
  if l.outageDeadline.any (· ≤ now) then l.leave (.error (.timeout cmd.taskId cmd.timeout))
  else
    let attempt := l.attempt + 1
    { l with
      phase := .resubscribing
      attempt := attempt
      warnings := l.warnings ++
        [s!"warning: subscription to task {cmd.taskId} was interrupted before it settled " ++
          s!"({l.cause}); reconnecting (attempt {attempt})..."] }

/-- One step, if the loop waits for such an input. -/
def next (cmd : SubscribeCommand) (l : SubscribeLoop) (input : SubscribeInput) : Option SubscribeLoop :=
  match l.phase, input with
  | .reading, .event event printing saving => some (l.onEvent event printing saving)
  | .reading, .error error =>
      if isConnectionFailure error then some (l.onCut cmd error.message)
      else some (l.leave (.error (.a2a error)))
  | .reading, .ended => some (l.onCut cmd "the stream ended")
  | .interrupted, .clock now =>
      some { l with phase := .retrying, outageDeadline := some (now + cmd.timeout) }
  | .retrying, .clock now => some (l.onRetry cmd now)
  | .resubscribing, .subscribed =>
      some { l with
        phase := .reading
        stateBeforeThisAttempt := l.lastState
        firstEvent := decide (0 < l.attempt) }
  | .resubscribing, .refused error => some { l with phase := .retrying, cause := error.message }
  | _, _ => none

end SubscribeLoop

/-- `subscribe_with_resumption`. -/
def subscribeWithResumption (cmd : SubscribeCommand) : Machine SubscribeLoop SubscribeInput :=
  ⟨SubscribeLoop.next cmd⟩

end A2a
