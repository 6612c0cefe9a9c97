import A2a.Client
import A2a.MessageParts
import A2a.Resumption
import A2a.SignaledVersion
import A2a.TextRender

/-!
# A2a.Commands

The commands of `a2acli` (`run` in `a2acli/src/lib.rs`), as programs.

A command reads its flags, connects a client, calls it, waits for a task to
settle where it has to, destroys the client and prints the result.  All that
comes from outside is an answer to a question `CliOp`: the card and what it
declares, the agent's answers, the items of a stream, the clock, and how
printing and saving end.  Times are readings of a clock in some unit.
-/

namespace A2a

/-! ## errors -/

/-- A violation of the card schema (`card_schema::Violation`). -/
structure Violation where
  path : String
  message : String

/-- What the CLI looks at in a `reqwest::Error`. -/
structure HttpError where
  isDecode : Bool
  status : Option Nat
  message : String

/-- `CliError`, with the causes of a failure as their texts. -/
inductive CommandError
  | a2a (error : A2AError)
  | http (error : HttpError)
  | json (message : String)
  | invalidInput (message : String)
  | readFile (path : String) (source : IoErrorKind)
  | saveFilePart (path source : String)
  | timeout (taskId : TaskId) (timeout : Nat)
  | cardFile (path source : String)
  | cardInvalid (message : String)
  | cardSchemaInvalid (violations : List Violation)
  | usage (message : String)

/-- The errors of `resolve_client` and of reading the card. -/
inductive ResolveError
  | a2a (error : A2AError)
  | http (error : HttpError)
  | json (message : String)
  | invalidInput (message : String)
  | cardFile (path source : String)
  | cardInvalid (message : String)

namespace CommandError

def ofResolve : ResolveError → CommandError
  | .a2a error => .a2a error
  | .http error => .http error
  | .json message => .json message
  | .invalidInput message => .invalidInput message
  | .cardFile path source => .cardFile path source
  | .cardInvalid message => .cardInvalid message

def ofPart : PartError → CommandError
  | .invalidInput message => .invalidInput message
  | .readFile path source => .readFile path source

end CommandError

/-- `http_error_exit_code`. -/
def HttpError.exitCode (error : HttpError) : Nat :=
  if error.isDecode then 1
  else
    match error.status with
    | some status => if status = 401 ∨ status = 403 then 4 else 3
    | none => 3

/-- `exit_code`. -/
def CommandError.exitCode : CommandError → Nat
  | .a2a _ => 1
  | .http error => error.exitCode
  | .json _ => 1
  | .invalidInput _ => 2
  | .readFile _ _ => 2
  | .saveFilePart _ _ => 1
  | .timeout _ _ => 5
  | .cardFile _ _ => 3
  | .cardInvalid _ => 1
  | .cardSchemaInvalid _ => 1
  | .usage _ => 2

/-! ## capabilities -/

inductive Capability
  | streaming | pushNotifications | extendedCard

/-- What the resolved card says of capabilities; with `--endpoint` no card was
read. -/
inductive DeclaredCapabilities
  | card (capabilities : AgentCapabilities)
  | noCard

namespace Capability

/-- `declared_in`. -/
def declaredIn (capabilities : AgentCapabilities) : Capability → Bool
  | .streaming => capabilities.streaming.getD false
  | .pushNotifications => capabilities.pushNotifications.getD false
  | .extendedCard => capabilities.extendedAgentCard.getD false

def field : Capability → String
  | .streaming => "streaming"
  | .pushNotifications => "pushNotifications"
  | .extendedCard => "extendedAgentCard"

/-- `undeclared_error`. -/
def undeclaredError (capability : Capability) : A2AError :=
  let message := s!"the agent card does not declare {capability.field}"
  match capability with
  | .pushNotifications => .new ErrorCode.pushNotificationNotSupported message
  | .streaming | .extendedCard => .unsupportedOperation message

end Capability

/-- `declares`. -/
def DeclaredCapabilities.declares (declared : DeclaredCapabilities) (capability : Capability) : Bool :=
  match declared with
  | .card capabilities => capability.declaredIn capabilities
  | .noCard => true

/-! ## flags -/

inductive OutputFormat
  | text | json

/-- The flags of `send`. -/
structure SendFlags where
  line : SendLine
  contextId : Option String
  taskId : Option TaskId
  historyLength : Option Int
  acceptedOutputModes : List String
  returnImmediately : Bool
  stream : Bool
  saveFileparts : Option String

/-- The flags of `task push-config create`. -/
structure CreatePushConfigFlags where
  taskId : TaskId
  url : String
  configId : Option String
  token : Option String
  authScheme : Option String
  authCredentials : Option String

/-- The commands that talk to an agent. -/
inductive CliCommand
  | cardGet (extended validate : Bool)
  | send (flags : SendFlags)
  | taskGet (id : TaskId) (historyLength : Option Int) (saveFileparts : Option String)
  | taskList (contextId : Option String) (status : Option TaskState) (pageSize : Option Int)
      (pageToken : Option String) (historyLength : Option Int) (includeArtifacts : Bool)
  | taskCancel (id : TaskId)
  | taskSubscribe (id : TaskId) (saveFileparts : Option String)
  | pushConfigCreate (flags : CreatePushConfigFlags)
  | pushConfigGet (taskId : TaskId) (id : String)
  | pushConfigList (taskId : TaskId) (pageSize : Option Int) (pageToken : Option String)
  | pushConfigDelete (taskId : TaskId) (id : String)

/-- The flags all commands have; `tenant` is `--tenant`. -/
structure Cli extends CallFlags where
  tenant : Option String
  output : OutputFormat
  compact : Bool
  asyncMode : Bool
  wait : Bool
  pollInterval : Nat
  timeout : Nat
  command : CliCommand

/-! ## questions -/

/-- What a command asks of everything outside. -/
inductive CliOp : Type → Type 1
  /-- whether something is there that is no directory -/
  | isNoDirectory (path : String) : CliOp Bool
  /-- a new id for a message -/
  | newId : CliOp String
  /-- `resolve_client`: the client is connected -/
  | connect : CliOp (Except ResolveError DeclaredCapabilities)
  /-- `resolve_agent_card_with_raw` -/
  | resolveCard : CliOp (Except ResolveError AgentCard)
  /-- `validate_agent_card`, of the card just received -/
  | violations : CliOp (Except String (List Violation))
  | call {β : Type} (rpc : Rpc β) : CliOp (Except A2AError β)
  /-- the next item of the open stream -/
  | next : CliOp (Option (Except A2AError StreamResponse))
  | destroy : CliOp (Except A2AError Unit)
  | now : CliOp Nat
  | sleep (duration : Nat) : CliOp Unit
  /-- a text on the output -/
  | println (text : String) : CliOp Unit
  /-- a value as JSON on the output, on one line if `compact` -/
  | printJson (compact : Bool) (value : TextResponse) : CliOp (Except String Unit)
  /-- `save_to`: the files created, and the one that could not be written -/
  | save (dir : String) (value : TextResponse) :
      CliOp (List String × Except (String × String) Unit)
  /-- a line on the error output -/
  | warn (line : String) : CliOp Unit

/-- A part of a command: it may fail. -/
abbrev Step (α : Type) : Type 1 := ExceptT CommandError (Program CliOp) α

namespace Step

variable {α β σ : Type}

/-- A question that has an answer. -/
def perform (op : CliOp β) : Step β := .mk (.askThen op fun b => .done (.ok b))

/-- A question whose failure is the command's (`?`). -/
def attempt {ε : Type} (fail : ε → CommandError) (op : CliOp (Except ε β)) : Step β :=
  .mk (.askThen op fun
    | .ok b => .done (.ok b)
    | .error e => .done (.error (fail e)))

/-- The result of a step, failed or not. -/
def outcome (step : Step β) : Step (Except CommandError β) :=
  .mk (step.run.bind fun result => .done (.ok result))

/-- A loop: its body goes on, leaves, or fails. -/
def iterate (body : σ → Step (σ ⊕ β)) (s : σ) : Step β :=
  .mk (.loop (fun s => (body s).run.bind fun
    | .error error => .done (.inr (.error error))
    | .ok (.inl s) => .done (.inl s)
    | .ok (.inr b) => .done (.inr (.ok b))) s)

def ofExcept {ε : Type} (fail : ε → CommandError) : Except ε β → Step β
  | .ok b => pure b
  | .error e => throw (fail e)

variable {R I : List (Exchange CliOp) → Prop} {h : List (Exchange CliOp)}
  {Q : Except CommandError β → List (Exchange CliOp) → Prop}

theorem ensures_pure {b : β} (hI : I h) (hQ : Q (.ok b) h) :
    (pure b : Step β).run.Ensures R I h Q :=
  Program.ensures_done hI hQ

theorem ensures_throw {error : CommandError} (hI : I h) (hQ : Q (.error error) h) :
    (throw error : Step β).run.Ensures R I h Q :=
  Program.ensures_done hI hQ

theorem ensures_perform {op : CliOp β} (hI : I h)
    (hQ : ∀ b, R (⟨op, b⟩ :: h) → I (⟨op, b⟩ :: h) ∧ Q (.ok b) (⟨op, b⟩ :: h)) :
    (perform op).run.Ensures R I h Q :=
  Program.ensures_ask hI fun b hR => Program.ensures_done (hQ b hR).1 (hQ b hR).2

theorem ensures_attempt {ε : Type} {fail : ε → CommandError} {op : CliOp (Except ε β)} (hI : I h)
    (hQ : ∀ answer, R (⟨op, answer⟩ :: h) →
      I (⟨op, answer⟩ :: h) ∧ Q (answer.mapError fail) (⟨op, answer⟩ :: h)) :
    (attempt fail op).run.Ensures R I h Q := by
  refine Program.ensures_ask hI fun answer hR => ?_
  obtain ⟨hI', hQ'⟩ := hQ answer hR
  cases answer with
  | ok b => exact Program.ensures_done hI' hQ'
  | error e => exact Program.ensures_done hI' hQ'

theorem ensures_outcome {step : Step α} {Q : Except CommandError (Except CommandError α) →
      List (Exchange CliOp) → Prop}
    (hstep : step.run.Ensures R I h fun r h' => Q (.ok r) h') :
    (outcome step).run.Ensures R I h Q :=
  Program.ensures_bind (hstep.mono fun _ _ hI hQ => Program.ensures_done hI hQ)

/-- A loop keeps its invariant as long as its body goes on. -/
theorem ensures_iterate {body : σ → Step (σ ⊕ β)} {s : σ} (inv : σ → List (Exchange CliOp) → Prop)
    (hinit : inv s h)
    (hbody : ∀ s h, inv s h → (body s).run.Ensures R I h fun r h' =>
      Program.onResult (Sum.elim (fun s => inv s h') fun b => Q (.ok b) h')
        (fun error => Q (.error error) h') r) :
    (iterate body s).run.Ensures R I h Q := by
  refine Program.ensures_loop inv hinit fun s h hinv => Program.ensures_bind ?_
  refine (hbody s h hinv).mono ?_
  rintro (error | s' | b) h' hI hQ
  · exact Program.ensures_done hI (Program.ensures_done hI hQ)
  · exact Program.ensures_done hI hQ
  · exact Program.ensures_done hI (Program.ensures_done hI hQ)

end Step

open Step

/-! ## output -/

/-- `task_outcome_note`. -/
def taskOutcomeNote : TaskState → Option String
  | .failed => some "the agent reported it FAILED"
  | .rejected => some "the agent REJECTED it"
  | .inputRequired => some "it is paused at INPUT_REQUIRED and needs a reply to continue"
  | .authRequired => some "it is paused at AUTH_REQUIRED and needs credentials to continue"
  | _ => none

/-- `warn_task_outcome`. -/
def warnTaskOutcome (taskId : TaskId) (state : TaskState) : Step Unit :=
  match taskOutcomeNote state with
  | some note => perform (.warn s!"warning: task {taskId}: {note}")
  | none => pure ()

/-- `warn_outcome` of what has one. -/
def warnOutcome : TextResponse → Step Unit
  | .task task | .send (.task task) | .stream (.task task) =>
      warnTaskOutcome task.id task.status.state
  | .stream (.statusUpdate event) => warnTaskOutcome event.taskId event.status.state
  | _ => pure ()

/-- The files created, each named on a line. -/
def warnCreated : List String → Step Unit
  | [] => pure ()
  | path :: rest => do
      perform (.warn s!"saved file part: {path}")
      warnCreated rest

/-- `save_fileparts`; `saver` is the directory, if one was given. -/
def saveFileparts (saver : Option String) (value : TextResponse) : Step Unit :=
  match saver with
  | none => pure ()
  | some dir => do
      let saved ← perform (.save dir value)
      warnCreated saved.1
      ofExcept (fun cause => .saveFilePart cause.1 cause.2) saved.2

/-- `file_part_saver`. -/
def filePartSaver : Option String → Step (Option String)
  | none => pure none
  | some dir => do
      if ← perform (.isNoDirectory dir) then
        throw (.usage "--save-fileparts must point to a directory")
      else return some dir

namespace Cli

variable (floatText : UInt64 → String) (cli : Cli)

/-- `print_output`. -/
def printOutput (value : TextResponse) : Step Unit :=
  match cli.output with
  | .text => perform (.println (value.renderText floatText))
  | .json => attempt .json (.printJson cli.compact value)

/-- `print_stream_value`: JSON has a line for each value. -/
def printStreamValue (value : TextResponse) : Step Unit :=
  match cli.output with
  | .text => perform (.println (value.renderText floatText))
  | .json => attempt .json (.printJson true value)

/-- `report`. -/
def report (saver : Option String) (value : TextResponse) : Step Unit := do
  warnOutcome value
  printOutput floatText cli value
  saveFileparts saver value

/-! ## clients -/

/-- `let _ = client.destroy().await`, and the error. -/
def destroyAndFail {β : Type} (error : CommandError) : Step β := do
  let _ ← perform .destroy
  throw error

/-- `finish_client_call`. -/
def finishClientCall {β : Type} : Except A2AError β → Step β
  | .ok value => do
      attempt .a2a .destroy
      return value
  | .error error => destroyAndFail (.a2a error)

/-- A call, and `finish_client_call`. -/
def callOnce {β : Type} (rpc : Rpc β) : Step β := do
  finishClientCall (← perform (.call rpc))

/-- `wait_for_task_settled`. -/
def waitForTaskSettled (taskId : TaskId) (tenant : Option String) : Step Task := do
  let start ← perform .now
  let deadline := start + cli.timeout
  iterate (fun _ : Unit => do
    let task ← attempt .a2a (.call (.getTask ⟨taskId, none, tenant⟩))
    if isSettled task.status.state then return .inr task
    else
      let now ← perform .now
      if deadline ≤ now then throw (.timeout taskId cli.timeout)
      else
        perform (.sleep (min cli.pollInterval (deadline - now)))
        return .inl ()) ()

/-- The client destroyed after the wait, however it went. -/
def destroyAfter : Except CommandError Task → Step Task
  | .ok task => do
      attempt .a2a .destroy
      return task
  | .error error => destroyAndFail error

/-- `settle_task`. -/
def settleTask (task : Task) (wait : Bool) (tenant : Option String) : Step Task :=
  if wait && !isSettled task.status.state then do
    destroyAfter (← outcome (waitForTaskSettled cli task.id tenant))
  else destroyAfter (.ok task)

/-- `send_and_maybe_wait`. -/
def sendAndMaybeWait (request : SendMessageRequest) (tenant : Option String) :
    Step SendMessageResponse := do
  match ← perform (.call (.sendMessage request)) with
  | .error error => destroyAndFail (.a2a error)
  | .ok (.task task) => do
      let task ← settleTask cli task (!cli.asyncMode) tenant
      return .task task
  | .ok (.message message) => do
      attempt .a2a .destroy
      return .message message

/-- `print_or_destroy`. -/
def printOrDestroy (saver : Option String) (value : TextResponse) : Step Unit := do
  warnOutcome value
  let printed ← outcome do
    printStreamValue floatText cli value
    saveFileparts saver value
  match printed with
  | .ok _ => return ()
  | .error error => destroyAndFail error

/-- `consume_stream`. -/
def consumeStream (saver : Option String) : Step Unit :=
  iterate (fun _ : Unit => do
    match ← perform .next with
    | some (.ok value) => do
        printOrDestroy floatText cli saver (.stream value)
        return .inl ()
    | some (.error error) => destroyAndFail (.a2a error)
    | none => do
        attempt .a2a .destroy
        return .inr ()) ()

/-! ## task subscribe -/

/-- What the loop over one stream keeps. -/
structure StreamReading where
  lastState : Option TaskState
  firstEvent : Bool
  outageDeadline : Option Nat

/-- The loop of `subscribe_with_resumption` over one stream, up to its end or
to an interruption. -/
def readStream (saver : Option String) (stateBefore : Option TaskState) (reading : StreamReading) :
    Step (StreamReading × Option A2AError) :=
  iterate (fun r : StreamReading => do
    match ← perform .next with
    | some (.ok value) =>
        let state := streamResponseState value
        let unchanged := r.firstEvent && state.isSome && state == stateBefore
        let lastState := state.or r.lastState
        if unchanged then
          match ← outcome (saveFileparts saver (.stream value)) with
          | .ok _ => return .inl ⟨lastState, false, r.outageDeadline⟩
          | .error error => destroyAndFail error
        else do
          printOrDestroy floatText cli saver (.stream value)
          return .inl ⟨lastState, false, none⟩
    | some (.error error) =>
        if isConnectionFailure error then return .inr (r, some error)
        else destroyAndFail (.a2a error)
    | none => return .inr (r, none)) reading

/-- Its loop over the attempts to subscribe again; their count wraps around. -/
def reconnect (taskId : TaskId) (tenant : Option String) (deadline : Nat) (attempts : UInt32)
    (cause : String) : Step UInt32 :=
  iterate (fun s : UInt32 × String => do
    let now ← perform .now
    if deadline ≤ now then destroyAndFail (.timeout taskId cli.timeout)
    else
      let attempt := s.1 + 1
      perform (.warn (s!"warning: subscription to task {taskId} was interrupted before it settled " ++
        s!"({s.2}); reconnecting (attempt {attempt})..."))
      perform (.sleep (min cli.pollInterval (deadline - now)))
      match ← perform (.call (.subscribeToTask ⟨taskId, tenant⟩)) with
      | .ok _ => return .inr attempt
      | .error error => return .inl (attempt, error.message)) (attempts, cause)

/-- What `subscribe_with_resumption` keeps from stream to stream. -/
structure Resuming where
  outageDeadline : Option Nat
  lastState : Option TaskState
  attempt : UInt32

/-- The deadline of an outage, set when it begins. -/
def deadlineOf : Option Nat → Step Nat
  | some deadline => pure deadline
  | none => do
      let now ← perform .now
      return now + cli.timeout

/-- `subscribe_with_resumption`. -/
def subscribeResuming (saver : Option String) (taskId : TaskId) (tenant : Option String) : Step Unit :=
  iterate (fun s : Resuming => do
    let read ← readStream floatText cli saver s.lastState
      ⟨s.lastState, decide (0 < s.attempt), s.outageDeadline⟩
    if read.1.lastState.any isSettled then do
      attempt .a2a .destroy
      return .inr ()
    else
      let deadline ← deadlineOf cli read.1.outageDeadline
      let cause := (read.2.map (·.message)).getD "the stream ended"
      let attempts ← reconnect cli taskId tenant deadline s.attempt cause
      return .inl ⟨some deadline, read.1.lastState, attempts⟩) ⟨none, none, 0⟩

/-! ## commands -/

/-- `require`. -/
def require (declared : DeclaredCapabilities) (capability : Capability) : Step Unit :=
  if declared.declares capability then pure () else throw (.a2a capability.undeclaredError)

/-- `resolve_client`, and what the card declares. -/
def resolveClientStep : Step DeclaredCapabilities := attempt .ofResolve .connect

/-- `build_send_message_request`. -/
def buildSendMessageRequest (flags : SendFlags) (messageId : String) (parts : List Part)
    (tenant : Option String) : SendMessageRequest where
  message := { Message.new messageId .user parts with
    contextId := flags.contextId
    taskId := flags.taskId }
  configuration :=
    if flags.historyLength.isSome || !flags.acceptedOutputModes.isEmpty || flags.returnImmediately then
      some
        { acceptedOutputModes :=
            if flags.acceptedOutputModes.isEmpty then none else some flags.acceptedOutputModes
          taskPushNotificationConfig := none
          historyLength := flags.historyLength
          returnImmediately := if flags.returnImmediately then some true else none }
    else none
  metadata := none
  tenant := tenant

/-- `build_push_notification_config`, with the task and the tenant set. -/
def buildPushNotificationConfig (flags : CreatePushConfigFlags) (tenant : Option String) :
    Except CommandError TaskPushNotificationConfig :=
  if flags.authCredentials.isSome && flags.authScheme.isNone then
    .error (.invalidInput "--auth-credentials requires --auth-scheme")
  else
    .ok
      { taskId := flags.taskId
        url := flags.url
        id := flags.configId
        token := flags.token
        authentication := flags.authScheme.map fun scheme => ⟨scheme, flags.authCredentials⟩
        tenant := tenant }

/-- `validate_card_or_fail`. -/
def validateCardOrFail : Step Unit := do
  let violations ← attempt
    (fun error => .cardInvalid s!"schema could not be loaded: {error}") .violations
  if violations.isEmpty then pure () else throw (.cardSchemaInvalid violations)

/-- `card get`. -/
def runCardGet (extended validate : Bool) : Step Unit := do
  if extended then do
    let declared ← resolveClientStep
    require declared .extendedCard
    let card ← callOnce (.getExtendedAgentCard ⟨cli.tenant⟩)
    (if validate then validateCardOrFail else pure ())
    printOutput floatText cli (.card card)
  else do
    let card ← attempt .ofResolve .resolveCard
    (if validate then validateCardOrFail else pure ())
    printOutput floatText cli (.card card)

/-- `send`, of the parts its flags and the files make. -/
def runSend (flags : SendFlags) (parts : Except PartError (List Part)) : Step Unit := do
  let parts ← ofExcept .ofPart parts
  let saver ← filePartSaver flags.saveFileparts
  let declared ← resolveClientStep
  let request := buildSendMessageRequest flags (← perform .newId) parts cli.tenant
  let streaming := declared.declares .streaming
  (if flags.stream && !streaming then
    perform (.warn ("warning: the agent card does not declare streaming; " ++
      "sending without it and polling for the result instead"))
  else pure ())
  if flags.stream && streaming then do
    match ← perform (.call (.sendStreamingMessage request)) with
    | .ok _ => consumeStream floatText cli saver
    | .error error =>
        if error.code = ErrorCode.unsupportedOperation then do
          let response ← sendAndMaybeWait cli request cli.tenant
          report floatText cli saver (.send response)
        else destroyAndFail (.a2a error)
  else do
    let response ← sendAndMaybeWait cli request cli.tenant
    report floatText cli saver (.send response)

/-- `task get`. -/
def runTaskGet (id : TaskId) (historyLength : Option Int) (save : Option String) : Step Unit := do
  let saver ← filePartSaver save
  let _ ← resolveClientStep
  match ← perform (.call (.getTask ⟨id, historyLength, cli.tenant⟩)) with
  | .error error => destroyAndFail (.a2a error)
  | .ok task => do
      let task ← settleTask cli task cli.wait cli.tenant
      report floatText cli saver (.task task)

/-- `task subscribe`. -/
def runTaskSubscribe (id : TaskId) (save : Option String) : Step Unit := do
  let saver ← filePartSaver save
  let declared ← resolveClientStep
  require declared .streaming
  attempt .a2a (.call (.subscribeToTask ⟨id, cli.tenant⟩))
  subscribeResuming floatText cli saver id cli.tenant

/-- A subcommand of `push-config`: refused if the card does not declare it,
one call otherwise. -/
def runPushConfig {β : Type} (rpc : Except CommandError (Rpc β)) (response : β → TextResponse) :
    Step Unit := do
  let declared ← resolveClientStep
  require declared .pushNotifications
  let result ← callOnce (← ofExcept id rpc)
  printOutput floatText cli (response result)

/-- `run`, for the commands that talk to an agent; `io` is what files and the
standard input hold. -/
def run (parseJson : String → Except String Value) (io : Nat → Io) : Step Unit := do
  ofExcept .invalidInput (validateA2aVersion cli.a2aVersion)
  match cli.command with
  | .cardGet extended validate => runCardGet floatText cli extended validate
  | .send flags => runSend floatText cli flags (flags.line.resolve parseJson io)
  | .taskGet id historyLength save => runTaskGet floatText cli id historyLength save
  | .taskList contextId status pageSize pageToken historyLength includeArtifacts => do
      let _ ← resolveClientStep
      let response ← callOnce (.listTasks ⟨contextId, status, pageSize, pageToken, historyLength,
        none, if includeArtifacts then some true else none, cli.tenant⟩)
      printOutput floatText cli (.tasks response)
  | .taskCancel id => do
      let _ ← resolveClientStep
      let task ← callOnce (.cancelTask ⟨id, none, cli.tenant⟩)
      warnOutcome (.task task)
      printOutput floatText cli (.task task)
  | .taskSubscribe id save => runTaskSubscribe floatText cli id save
  | .pushConfigCreate flags =>
      runPushConfig floatText cli
        ((buildPushNotificationConfig flags cli.tenant).map .createPushConfig) .config
  | .pushConfigGet taskId id =>
      runPushConfig floatText cli (.ok (.getPushConfig ⟨taskId, id, cli.tenant⟩)) .config
  | .pushConfigList taskId pageSize pageToken =>
      runPushConfig floatText cli
        (.ok (.listPushConfigs ⟨taskId, pageSize, pageToken, cli.tenant⟩)) .configs
  | .pushConfigDelete taskId id =>
      runPushConfig floatText cli (.ok (.deletePushConfig ⟨taskId, id, cli.tenant⟩))
        fun _ => .deleted ⟨true, taskId, id⟩

end Cli

end A2a
