import A2a.Server.Steps
import A2a.PushSender

/-!
# A2a.Server.Webhooks

What webhooks have to do with an execution: nothing, as long as their
configurations pass the checks of `send_push` and `fail_on_error` is off.

A server `unpushed` is the server without its push configurations, what was
sent to them, and where each thread is in a push.  A step of a push leaves it
as it is; any other step is one of the unpushed server.  So two runs that
differ only in the configurations and in what the webhooks answer replay one
run of it.
-/

namespace A2a

/-! ## a thread in a push -/

/-- The push a driver is in: the task, the event, and how far. -/
def Driver.push (d : Driver) : Option (TaskId × StreamResponse × PushPc) :=
  match d.pc with
  | .pushing event pc => some (d.taskId, event, pc)
  | .failPushing _ task pc => some (task.id, statusUpdate task, pc)
  | _ => none

/-- The push a cancel is in. -/
def CancelCall.push (call : CancelCall) : CancelPc → Option (TaskId × StreamResponse × PushPc)
  | .pushing _ event pc => some (call.req.id, event, pc)
  | .failPushing _ _ task pc => some (call.req.id, statusUpdate task, pc)
  | .finalPushing _ task pc => some (call.req.id, statusUpdate task, pc)
  | _ => none

/-- The driver elsewhere in its push. -/
def Driver.atPush (d : Driver) (pc : PushPc) : Driver :=
  match d.pc with
  | .pushing event _ => { d with pc := .pushing event pc }
  | .failPushing error task _ => { d with pc := .failPushing error task pc }
  | _ => d

/-- The cancel elsewhere in its push. -/
def CancelPc.atPush (pc : PushPc) : CancelPc → CancelPc
  | .pushing c event _ => .pushing c event pc
  | .failPushing c error task _ => .failPushing c error task pc
  | .finalPushing c task _ => .finalPushing c task pc
  | place => place

namespace Thread

def push : Thread → Option (TaskId × StreamResponse × PushPc)
  | .drive d => d.push
  | .cancel call pc => call.push pc
  | _ => none

def atPush (pc : PushPc) : Thread → Thread
  | .drive d => .drive (d.atPush pc)
  | .cancel call place => .cancel call (place.atPush pc)
  | t => t

/-- The thread at the end of its push, if it is in one. -/
def unpushed (t : Thread) : Thread := t.atPush (.send [])

/-- Whether the thread is about to list configurations or to send to one. -/
def pushes (t : Thread) : Bool :=
  match t.push with
  | some (_, _, .list) => true
  | some (_, _, .send (_ :: _)) => true
  | _ => false

/-- The configuration a send is about to register. -/
def registers : Thread → Option TaskPushNotificationConfig
  | .send call (.savePush prepared) => requestPushConfig prepared.task.id call.req
  | _ => none

end Thread

namespace Server

/-- The server without all that concerns webhooks. -/
def unpushed (s : Server) : Server :=
  { s with
    pushConfigStore := none
    pushSender := false
    webhooks := []
    threads := s.threads.map Thread.unpushed }

/-- Whether an action is a step of a push. -/
def pushes (s : Server) : Action → Bool
  | .step i _ => s.threads[i]?.any Thread.pushes
  | _ => false

/-- How an action that registers a configuration ends. -/
def registered (h : Handler) (s : Server) : Action → Option (Except A2AError Unit)
  | .step i inp => (s.threads[i]?.bind Thread.registers).map fun config =>
      (h.savePushConfig inp.configId config s.pushConfigStore).1.map fun _ => ()
  | _ => none

end Server

/-- A run without the steps of its pushes: its other actions, with how those
ended that register a configuration. -/
def unpushedRun (h : Handler) (tr : List (Server × Action)) :
    List (Action × Option (Except A2AError Unit)) :=
  (tr.filter fun p => !p.1.pushes p.2).map fun p => (p.2, p.1.registered h p.2)

/-! ## what is sent -/

/-- The events one thread begins to push by a step: those it has just
applied. -/
def begun (i : Nat) (s s' : Server) : List StreamResponse :=
  match s.threads[i]?.bind Thread.push, s'.threads[i]?.bind Thread.push with
  | none, some (_, event, _) => [event]
  | _, _ => []

/-- The events one thread applies over a run. -/
def appliedBy (h : Handler) (i : Nat) (tr : List (Server × Action)) : List StreamResponse :=
  tr.flatMap fun p =>
    match Server.step h p.1 p.2 with
    | some s' => begun i p.1 s'
    | none => []

/-- What an action sends: to which configuration, what, and with what
outcome. -/
def Server.delivery (s : Server) :
    Action → Option (TaskPushNotificationConfig × StreamResponse × Except A2AError Unit)
  | .step i inp =>
      match s.threads[i]?.bind Thread.push with
      | some (_, event, .send (config :: _)) => some (config, event, inp.push)
      | _ => none
  | _ => none

/-- What one thread sends to a configuration by an action. -/
def Server.sends (s : Server) (i : Nat) (config : TaskPushNotificationConfig) (a : Action) :
    List StreamResponse :=
  match a, s.delivery a with
  | .step j _, some (next, event, _) => if j = i ∧ next = config then [event] else []
  | _, _ => []

/-- What it sends to the configuration over a run. -/
def sentTo (i : Nat) (config : TaskPushNotificationConfig) (tr : List (Server × Action)) :
    List StreamResponse :=
  tr.flatMap fun p => p.1.sends i config p.2

/-- What a thread has yet to send to a configuration of the event it is
pushing. -/
def awaiting (config : TaskPushNotificationConfig) (t : Option Thread) : List StreamResponse :=
  match t.bind Thread.push with
  | some (_, event, .list) => [event]
  | some (_, event, .send rest) => if config ∈ rest then [event] else []
  | none => []

/-- A delivery ends as `send_push` does for some answer of the webhook. -/
def Answers (sender : HttpPushSender) (urls : UrlParser)
    (toVec : StreamResponse → Except String (List UInt8)) (s : Server) (a : Action) : Prop :=
  ∀ config event outcome, s.delivery a = some (config, event, outcome) →
    ∃ answer, outcome = (sender.sendPush urls toVec config event answer).2

/-- A delivery is to a configuration that passes the checks of `send_push`. -/
def Passes (sender : HttpPushSender) (urls : UrlParser) (s : Server) (a : Action) : Prop :=
  ∀ config event outcome, s.delivery a = some (config, event, outcome) →
    sender.check urls config = .ok ()

/-- A configuration is listed, once, whenever one thread lists those of the
task it pushes for. -/
def Lists (i : Nat) (config : TaskPushNotificationConfig) (s : Server) (a : Action) : Prop :=
  ∀ inp id event, a = .step i inp →
    s.threads[i]?.bind Thread.push = some (id, event, .list) → inp.configs.count config = 1

/-! ## a thread elsewhere in its push -/

namespace Thread

/-- What a thread receives does not depend on where its push is. -/
theorem receiver_atPush (t : Thread) (pc : PushPc) : (t.atPush pc).receiver = t.receiver := by
  cases t with
  | send call place => rfl
  | drive d => rfl
  | cancel call place => rfl
  | subscribe call place => rfl
  | dropped => rfl

/-- Nor does what it holds. -/
theorem holds_atPush (t : Thread) (pc : PushPc) : (t.atPush pc).holds = t.holds := by
  cases t with
  | send call place => rfl
  | drive d =>
      obtain ⟨taskId, exec, ctx, current, stream, answered, tracked, place⟩ := d
      cases place
      all_goals rfl
  | cancel call place =>
      cases place
      all_goals rfl
  | subscribe call place => rfl
  | dropped => rfl

/-- The last place counts. -/
theorem atPush_atPush (t : Thread) (pc pc' : PushPc) : (t.atPush pc).atPush pc' = t.atPush pc' := by
  cases t with
  | send call place => rfl
  | drive d =>
      obtain ⟨taskId, exec, ctx, current, stream, answered, tracked, place⟩ := d
      cases place
      all_goals rfl
  | cancel call place =>
      cases place
      all_goals rfl
  | subscribe call place => rfl
  | dropped => rfl

/-- Only the place of a push is another. -/
theorem push_atPush (t : Thread) (pc : PushPc) :
    (t.atPush pc).push = t.push.map fun push => (push.1, push.2.1, pc) := by
  cases t with
  | send call place => rfl
  | drive d =>
      obtain ⟨taskId, exec, ctx, current, stream, answered, tracked, place⟩ := d
      cases place
      all_goals rfl
  | cancel call place =>
      cases place
      all_goals rfl
  | subscribe call place => rfl
  | dropped => rfl

/-- A thread that is in no push is nowhere else in it. -/
theorem atPush_of_none {t : Thread} (h : t.push = none) (pc : PushPc) : t.atPush pc = t := by
  cases t with
  | send call place => rfl
  | drive d =>
      obtain ⟨taskId, exec, ctx, current, stream, answered, tracked, place⟩ := d
      cases place
      case pushing => cases h
      case failPushing => cases h
      all_goals rfl
  | cancel call place =>
      cases place
      case pushing => cases h
      case failPushing => cases h
      case finalPushing => cases h
      all_goals rfl
  | subscribe call place => rfl
  | dropped => rfl

/-- A push put where it is stays as it is. -/
theorem atPush_self {t : Thread} {id : TaskId} {event : StreamResponse} {pc : PushPc}
    (h : t.push = some (id, event, pc)) : t.atPush pc = t := by
  cases t with
  | send call place => cases h
  | drive d =>
      obtain ⟨taskId, exec, ctx, current, stream, answered, tracked, place⟩ := d
      cases place
      case pushing => cases h; rfl
      case failPushing => cases h; rfl
      all_goals cases h
  | cancel call place =>
      cases place
      case pushing => cases h; rfl
      case failPushing => cases h; rfl
      case finalPushing => cases h; rfl
      all_goals cases h
  | subscribe call place => cases h
  | dropped => cases h

/-- A thread without its push has none to take away. -/
theorem unpushed_unpushed (t : Thread) : t.unpushed.unpushed = t.unpushed := t.atPush_atPush _ _

/-- Where a driver goes on after its push. -/
def afterDriverPush (inp : Input) (d : Driver) (result : Except A2AError Unit) : Thread :=
  match d.pc with
  | .pushing event _ =>
      match result with
      | .ok _ => d.goto (.publishing event .write)
      | .error error => d.fail inp error
  | .failPushing error task _ => d.goto (.failPublishing error (some task) .write)
  | _ => .drive d

/-- Where a cancel goes on after its push. -/
def afterCancelPush (place : CancelPc) (result : Except A2AError Unit) : CancelPc :=
  match place with
  | .pushing c event _ =>
      match result with
      | .ok _ =>
          if c.active.isSome then .publishing c event .write else CancelCall.afterEvent c event
      | .error error => CancelCall.fail c error
  | .failPushing c error _ _ => CancelCall.fail c error
  | .finalPushing c task _ =>
      match result with
      | .ok _ => .releasing c task .take
      | .error error => CancelCall.fail c error
  | place => place

/-- Where a thread goes on after its push. -/
def afterPush (inp : Input) (t : Thread) (result : Except A2AError Unit) : Thread :=
  match t with
  | .drive d => afterDriverPush inp d result
  | .cancel call place => .cancel call (afterCancelPush place result)
  | t => t

/-- Where it goes on within its push, or after it. -/
def inPush (inp : Input) (t : Thread) : PushPc ⊕ Except A2AError Unit → Thread
  | .inl pc => t.atPush pc
  | .inr result => t.afterPush inp result

/-- A push leads where its continuation does. -/
theorem pushCmd_congr {inp : Input} {id : TaskId} {event : StreamResponse} {pc : PushPc}
    {k k' : PushPc ⊕ Except A2AError Unit → Thread} (hk : ∀ o, k o = k' o) :
    pushCmd inp id event pc k = pushCmd inp id event pc k' := by
  rw [funext hk]

/-- What a thread does in a push is `send_push_notifications`. -/
theorem next_of_push (h : Handler) (inp : Input) {t : Thread} {id : TaskId} {event : StreamResponse}
    {pc : PushPc} (hpush : t.push = some (id, event, pc)) :
    t.next h inp = pushCmd inp id event pc (t.inPush inp) := by
  cases t with
  | send call place => cases hpush
  | drive d =>
      obtain ⟨taskId, exec, ctx, current, stream, answered, tracked, place⟩ := d
      cases place
      case pushing =>
        cases hpush
        rw [next, Driver.next]
        refine pushCmd_congr fun o => ?_
        rcases o with pc' | result
        · rfl
        · cases result with
          | ok _ => rfl
          | error error => rfl
      case failPushing =>
        cases hpush
        rw [next, Driver.next]
        refine pushCmd_congr fun o => ?_
        rcases o with pc' | result
        · rfl
        · rfl
      all_goals cases hpush
  | cancel call place =>
      cases place
      case pushing c event pc =>
        cases hpush
        rw [next, CancelCall.next]
        refine pushCmd_congr fun o => ?_
        rcases o with pc' | result
        · rfl
        · cases result with
          | ok _ =>
              exact (apply_ite (Thread.cancel call) (c.active.isSome = true) _ _).symm
          | error error => rfl
      case failPushing =>
        cases hpush
        rw [next, CancelCall.next]
        refine pushCmd_congr fun o => ?_
        rcases o with pc' | result
        · rfl
        · rfl
      case finalPushing =>
        cases hpush
        rw [next, CancelCall.next]
        refine pushCmd_congr fun o => ?_
        rcases o with pc' | result
        · rfl
        · cases result with
          | ok _ => rfl
          | error error => rfl
      all_goals cases hpush
  | subscribe call place => cases hpush
  | dropped => cases hpush

/-- After a push that succeeds a thread is in none. -/
theorem push_afterPush (inp : Input) (t : Thread) {push : TaskId × StreamResponse × PushPc}
    (hpush : t.push = some push) : (t.afterPush inp (.ok ())).push = none := by
  cases t with
  | send call place => cases hpush
  | drive d =>
      obtain ⟨taskId, exec, ctx, current, stream, answered, tracked, place⟩ := d
      cases place
      case pushing => rfl
      case failPushing => rfl
      all_goals cases hpush
  | cancel call place =>
      cases place
      case pushing c event pc =>
        change call.push (if c.active.isSome then .publishing c event .write
          else CancelCall.afterEvent c event) = none
        unfold CancelCall.afterEvent CancelCall.afterLoop
        repeat' split
        all_goals rfl
      case failPushing => rfl
      case finalPushing => rfl
      all_goals cases hpush
  | subscribe call place => cases hpush
  | dropped => cases hpush

end Thread

/-! ## operations of a push -/

/-- An operation that has nothing to do with webhooks. -/
def Op.Quiet {β : Type} : Op β → Prop
  | .savePushConfig _ _ _ => False
  | .listPushConfigs _ _ => False
  | .sendPush _ _ _ => False
  | _ => True

def Cmd.Quiet (cmd : Cmd) : Prop := cmd.op.Quiet

/-- A save tells no webhook. -/
theorem saveOp_quiet (task : Task) (pc : SavePc) : (saveOp task pc).Quiet := by
  cases pc with
  | update => exact True.intro
  | create => exact True.intro

/-- Nor does a publication. -/
theorem publishCmd_quiet (x : ExecId) (result : Item) (snapshotTask : Option Task) (pc : PublishPc)
    (k : Option PublishPc → Thread) : (publishCmd x result snapshotTask pc k).Quiet := by
  cases pc with
  | write => exact True.intro
  | count sequence => exact True.intro
  | send sequence => exact True.intro

/-- Nor does a release. -/
theorem releaseCmd_quiet (task : Task) (pc : ReleasePc) (k : Option ReleasePc → Thread) :
    (releaseCmd task pc k).Quiet := by
  obtain _ | _ | ⟨w, rest⟩ := pc
  all_goals exact True.intro

/-- Nor does a poll. -/
theorem pollCmd_quiet (sub : Subscription) (k : Subscription → Option (Option Item) → Thread) :
    (pollCmd sub k).Quiet := by
  simp only [pollCmd]
  split
  · exact True.intro
  · split
    all_goals exact True.intro

section quiet

variable {h : Handler}

/-- A driver that is at no push tells none. -/
theorem Driver.next_quiet {d : Driver} (hpush : d.push = none) (inp : Input) :
    (d.next inp).Quiet := by
  obtain ⟨taskId, exec, ctx, current, stream, answered, tracked, place⟩ := d
  cases place
  all_goals simp only [Driver.next]
  case poll =>
    split
    all_goals exact True.intro
  case saving event task pc => exact saveOp_quiet task pc
  case pushing => cases hpush
  case publishing event pc => exact publishCmd_quiet ..
  case failSaving error task pc => exact saveOp_quiet task pc
  case failPushing => cases hpush
  case failPublishing error failed pc => exact publishCmd_quiet ..
  all_goals exact True.intro

/-- Nor does such a cancel. -/
theorem CancelCall.next_quiet {call : CancelCall} {place : CancelPc} (hpush : call.push place = none)
    (inp : Input) : (call.next h inp place).Quiet := by
  cases place
  all_goals simp only [CancelCall.next]
  case load =>
    split
    all_goals exact True.intro
  case saving c event task pc => exact saveOp_quiet task pc
  case pushing => cases hpush
  case publishing c event pc =>
    split
    · exact True.intro
    · exact publishCmd_quiet ..
  case failPublishing c error pc =>
    split
    · exact True.intro
    · exact publishCmd_quiet ..
  case failPushing => cases hpush
  case finishing c =>
    split
    all_goals exact True.intro
  case finalPushing => cases hpush
  case releasing c task pc => exact releaseCmd_quiet task pc _
  case dropping task result pc => exact releaseCmd_quiet task pc _
  all_goals exact True.intro

/-- A send stores a configuration at most where it registers. -/
theorem SendCall.next_quiet {call : SendCall} {pc : SendPc}
    (hregisters : (Thread.send call pc).registers = none) (inp : Input) :
    (call.next h inp pc).Quiet := by
  cases pc
  all_goals simp only [SendCall.next]
  case load =>
    split
    all_goals exact True.intro
  case savePush prepared =>
    have hnone : requestPushConfig prepared.task.id call.req = none := hregisters
    rw [hnone]
    exact True.intro
  case following taskId sub lastEvent => exact pollCmd_quiet sub _
  case streaming sub => exact pollCmd_quiet sub _
  all_goals exact True.intro

/-- A subscription tells none. -/
theorem SubscribeCall.next_quiet (call : SubscribeCall) (pc : SubscribePc) :
    (call.next h pc).Quiet := by
  cases pc
  all_goals simp only [SubscribeCall.next]
  case register =>
    split
    all_goals exact True.intro
  case streaming opened sub => exact pollCmd_quiet sub _
  all_goals exact True.intro

/-- A thread that is in no push and registers nothing is quiet; so is one at
the end of its push. -/
theorem Thread.next_quiet {t : Thread} (hpushes : t.pushes = false) (hregisters : t.registers = none)
    (inp : Input) : (t.next h inp).Quiet := by
  cases hpush : t.push with
  | some push =>
      obtain ⟨id, event, pc⟩ := push
      rw [t.next_of_push h inp hpush]
      obtain _ | _ | ⟨config, rest⟩ := pc
      · simp only [Thread.pushes, hpush] at hpushes
        cases hpushes
      · exact True.intro
      · simp only [Thread.pushes, hpush] at hpushes
        cases hpushes
  | none =>
      cases t with
      | send call pc => exact SendCall.next_quiet hregisters inp
      | drive d => exact Driver.next_quiet hpush inp
      | cancel call pc => exact CancelCall.next_quiet hpush inp
      | subscribe call pc => exact call.next_quiet pc
      | dropped => exact True.intro

/-- Nor does a stream that is dropped. -/
theorem Thread.drop_quiet (t : Thread) : t.drop.Quiet := by
  unfold Thread.drop
  split
  all_goals exact True.intro

end quiet

/-! ## beginning a push -/

/-- A thread in a push is at its beginning. -/
def Thread.Enters (t : Thread) : Prop :=
  ∀ id event pc, t.push = some (id, event, pc) → pc = .list

/-- A thread that is at no push enters none. -/
theorem Thread.enters_of_none {t : Thread} (h : t.push = none) : t.Enters := by
  intro id event pc hpush
  rw [h] at hpush
  cases hpush

section enters

variable {h : Handler} {s : Server}

/-- A failure is stored before anyone is told. -/
theorem Driver.enters_fail (d : Driver) (inp : Input) (error : A2AError) :
    (d.fail inp error).Enters := by
  apply Thread.enters_of_none
  simp only [Driver.fail]
  split
  all_goals rfl

/-- A push is entered at its beginning. -/
theorem Driver.enters_pushing (d : Driver) (event : StreamResponse) :
    (d.goto (.pushing event .list)).Enters := by
  intro id event' pc hpush
  cases hpush
  rfl

/-- So it is after an event was accepted. -/
theorem Driver.enters_accept (d : Driver) (inp : Input) (event : StreamResponse) :
    (d.accept inp event).Enters := by
  simp only [Driver.accept]
  split
  · exact d.enters_fail inp _
  · split
    · exact Driver.enters_pushing _ _
    · split
      · exact Thread.enters_of_none rfl
      · exact Driver.enters_fail _ inp _

/-- **A driver enters a push at its beginning**, with the event just stored. -/
theorem Driver.next_enters {d : Driver} (hpush : d.push = none) (inp : Input) :
    (d.next inp).Post s fun _ t' _ => t'.Enters := by
  obtain ⟨taskId, exec, ctx, current, stream, answered, tracked, place⟩ := d
  cases place
  all_goals simp only [Driver.next]
  case start => exact Cmd.post_of_forall fun _ _ => Thread.enters_of_none rfl
  case poll =>
    split
    · exact Cmd.post_of_forall fun _ _ => Thread.enters_of_none rfl
    · refine Cmd.post_of_forall fun _ _ => ?_
      split
      · exact Thread.enters_of_none rfl
      · split
        · exact Driver.enters_accept _ inp _
        · exact Driver.enters_fail _ inp _
  case saving =>
    refine Cmd.post_of_forall fun _ _ => ?_
    split
    · exact Thread.enters_of_none rfl
    · exact Driver.enters_pushing _ _
    · exact Driver.enters_fail _ inp _
  case pushing => cases hpush
  case publishing =>
    refine post_publishCmd fun _ o => ?_
    cases o with
    | some pc => exact Thread.enters_of_none rfl
    | none =>
        apply Thread.enters_of_none
        dsimp only
        split
        all_goals rfl
  case failSaving =>
    refine Cmd.post_of_forall fun _ _ => ?_
    split
    · exact Thread.enters_of_none rfl
    · intro id event pc hnext
      cases hnext
      rfl
    · exact Thread.enters_of_none rfl
  case failPushing => cases hpush
  case failPublishing =>
    refine post_publishCmd fun _ o => ?_
    cases o with
    | some pc => exact Thread.enters_of_none rfl
    | none => exact Thread.enters_of_none rfl
  case finishing => exact Cmd.post_of_forall fun _ _ => Thread.enters_of_none rfl
  case done => exact Cmd.post_halt

/-- After the loop of a cancel there is no push. -/
theorem CancelCall.push_afterLoop (call : CancelCall) (c : Cancelling) :
    call.push (afterLoop c) = none := by
  unfold afterLoop
  split
  all_goals rfl

theorem CancelCall.push_afterEvent (call : CancelCall) (c : Cancelling) (event : StreamResponse) :
    call.push (afterEvent c event) = none := by
  unfold afterEvent
  split
  · exact call.push_afterLoop _
  · rfl

/-- An event of a cancel is stored first. -/
theorem CancelCall.enters_accept (call : CancelCall) (c : Cancelling) (inp : Input)
    (event : StreamResponse) : (Thread.cancel call (accept c inp event)).Enters := by
  simp only [accept]
  split
  · intro id event' pc hpush
    cases hpush
    rfl
  · split
    all_goals exact Thread.enters_of_none rfl

/-- **A cancel enters a push at its beginning**, too. -/
theorem CancelCall.next_enters {call : CancelCall} {place : CancelPc}
    (hpush : call.push place = none) (inp : Input) :
    (call.next h inp place).Post s fun _ t' _ => t'.Enters := by
  cases place
  all_goals simp only [CancelCall.next]
  case load =>
    split
    · exact Cmd.post_of_forall fun _ _ => Thread.enters_of_none rfl
    · refine Cmd.post_of_forall fun _ o => ?_
      split
      · exact Thread.enters_of_none rfl
      · split_ifs
        all_goals exact Thread.enters_of_none rfl
  case beginCancel =>
    refine Cmd.post_of_forall fun _ o => ?_
    split
    · exact Thread.enters_of_none rfl
    · split
      all_goals exact Thread.enters_of_none rfl
  case raced =>
    refine Cmd.post_of_forall fun _ o => ?_
    split
    · exact Thread.enters_of_none rfl
    · split
      all_goals exact Thread.enters_of_none rfl
  case getActive => exact Cmd.post_of_forall fun _ _ => Thread.enters_of_none rfl
  case polling =>
    refine Cmd.post_of_forall fun _ _ => ?_
    split
    · exact Thread.enters_of_none (call.push_afterLoop _)
    · exact call.enters_accept _ inp _
    · split
      all_goals exact Thread.enters_of_none rfl
  case saving =>
    refine Cmd.post_of_forall fun _ _ => ?_
    split
    · exact Thread.enters_of_none rfl
    · intro id event pc hnext
      cases hnext
      rfl
    · exact Thread.enters_of_none rfl
  case pushing => cases hpush
  case publishing =>
    split
    · exact Cmd.post_of_forall fun _ _ => Thread.enters_of_none (call.push_afterEvent _ _)
    · refine post_publishCmd fun _ o => ?_
      cases o with
      | some pc => exact Thread.enters_of_none rfl
      | none => exact Thread.enters_of_none (call.push_afterEvent _ _)
  case failPublishing =>
    split
    · exact Cmd.post_of_forall fun _ _ => Thread.enters_of_none rfl
    · refine post_publishCmd fun _ o => ?_
      cases o with
      | some pc => exact Thread.enters_of_none rfl
      | none => exact Thread.enters_of_none rfl
  case failLoad =>
    refine Cmd.post_of_forall fun _ o => ?_
    split
    · exact Thread.enters_of_none rfl
    · intro id event pc hnext
      cases hnext
      rfl
  case failPushing => cases hpush
  case finishing =>
    split
    all_goals exact Cmd.post_of_forall fun _ _ => Thread.enters_of_none rfl
  case finalLoad =>
    refine Cmd.post_of_forall fun _ o => ?_
    split
    · exact Thread.enters_of_none rfl
    · split
      · exact Thread.enters_of_none rfl
      · intro id event pc hnext
        cases hnext
        rfl
  case finalPushing => cases hpush
  case releasing =>
    refine post_releaseCmd fun _ o => ?_
    cases o with
    | some pc => exact Thread.enters_of_none rfl
    | none => exact Thread.enters_of_none rfl
  case dropping =>
    refine post_releaseCmd fun _ o => ?_
    cases o with
    | some pc => exact Thread.enters_of_none rfl
    | none => exact Thread.enters_of_none rfl
  case returned => exact Cmd.post_halt

/-- A thread in no push goes on in none, or begins one. -/
theorem Server.runs.enters {a : Action} {i : Nat} {t : Thread} {cmd : Cmd}
    (hr : s.runs h a i t cmd) (hpush : t.push = none) : cmd.Post s fun _ t' _ => t'.Enters := by
  have hcontinues := hr.continues
  obtain ⟨_, hrun⟩ := hr
  rcases hrun with ⟨inp, _, hcmd⟩ | ⟨_, hcmd⟩
  · rw [hcmd]
    cases t with
    | drive d => exact Driver.next_enters hpush inp
    | cancel call pc => exact CancelCall.next_enters hpush inp
    | _ =>
        intro s₁ b hb
        apply Thread.enters_of_none
        rw [hcmd] at hcontinues
        have hstays := hcontinues s₁ b hb
        revert hstays
        generalize (Cmd.resume _ b).1 = t'
        intro hstays
        cases t' with
        | drive d => exact hstays.elim
        | cancel call pc => exact hstays.elim
        | _ => rfl
  · rw [hcmd]
    intro s₁ b hb
    rw [(t.drop_dropped s₁ b hb).1]
    exact Thread.enters_of_none rfl

end enters

end A2a
