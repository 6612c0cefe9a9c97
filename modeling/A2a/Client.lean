import A2a.Bindings
import A2a.ClientFactory
import A2a.Program

/-!
# A2a.Client

The calls of a client (`a2a-client/src/client.rs`): the interceptors before
it, the declared tenant, the transport, and the interceptors after it in the
opposite order.

Interceptors and the transport are the environment of a call: an interceptor
is a value of any type, and what it does to the parameters, or to a call that
is over, is its answer.
-/

namespace A2a

/-- A request of the protocol, by the type of its answer; what a stream
yields is read from it later. -/
inductive Rpc : Type → Type
  | sendMessage (req : SendMessageRequest) : Rpc SendMessageResponse
  | sendStreamingMessage (req : SendMessageRequest) : Rpc Unit
  | getTask (req : GetTaskRequest) : Rpc Task
  | listTasks (req : ListTasksRequest) : Rpc ListTasksResponse
  | cancelTask (req : CancelTaskRequest) : Rpc Task
  | subscribeToTask (req : SubscribeToTaskRequest) : Rpc Unit
  | createPushConfig (req : TaskPushNotificationConfig) : Rpc TaskPushNotificationConfig
  | getPushConfig (req : GetTaskPushNotificationConfigRequest) : Rpc TaskPushNotificationConfig
  | listPushConfigs (req : ListTaskPushNotificationConfigsRequest) :
      Rpc ListTaskPushNotificationConfigsResponse
  | deletePushConfig (req : DeleteTaskPushNotificationConfigRequest) : Rpc Unit
  | getExtendedAgentCard (req : GetExtendedAgentCardRequest) : Rpc AgentCard

namespace Rpc

variable {β : Type}

/-- The call of the handler it is for. -/
def call : Rpc β → HandlerCall
  | .sendMessage req => .sendMessage req
  | .sendStreamingMessage req => .sendStreamingMessage req
  | .getTask req => .getTask req
  | .listTasks req => .listTasks req
  | .cancelTask req => .cancelTask req
  | .subscribeToTask req => .subscribeToTask req
  | .createPushConfig req => .createPushConfig req
  | .getPushConfig req => .getPushConfig req
  | .listPushConfigs req => .listPushConfigs req
  | .deletePushConfig req => .deletePushConfig req
  | .getExtendedAgentCard req => .getExtendedAgentCard req

def method : Rpc β → String
  | .sendMessage _ => Methods.sendMessage
  | .sendStreamingMessage _ => Methods.sendStreamingMessage
  | .getTask _ => Methods.getTask
  | .listTasks _ => Methods.listTasks
  | .cancelTask _ => Methods.cancelTask
  | .subscribeToTask _ => Methods.subscribeToTask
  | .createPushConfig _ => Methods.createPushConfig
  | .getPushConfig _ => Methods.getPushConfig
  | .listPushConfigs _ => Methods.listPushConfigs
  | .deletePushConfig _ => Methods.deletePushConfig
  | .getExtendedAgentCard _ => Methods.getExtendedAgentCard

/-- The tenant a request names. -/
def tenant : Rpc β → Option String
  | .sendMessage req => req.tenant
  | .sendStreamingMessage req => req.tenant
  | .getTask req => req.tenant
  | .listTasks req => req.tenant
  | .cancelTask req => req.tenant
  | .subscribeToTask req => req.tenant
  | .createPushConfig req => req.tenant
  | .getPushConfig req => req.tenant
  | .listPushConfigs req => req.tenant
  | .deletePushConfig req => req.tenant
  | .getExtendedAgentCard req => req.tenant

/-- `*tenant_field(&mut filled) = Some(tenant)`, for each type of request. -/
def withTenant (tenant : String) : Rpc β → Rpc β
  | .sendMessage req => .sendMessage { req with tenant := some tenant }
  | .sendStreamingMessage req => .sendStreamingMessage { req with tenant := some tenant }
  | .getTask req => .getTask { req with tenant := some tenant }
  | .listTasks req => .listTasks { req with tenant := some tenant }
  | .cancelTask req => .cancelTask { req with tenant := some tenant }
  | .subscribeToTask req => .subscribeToTask { req with tenant := some tenant }
  | .createPushConfig req => .createPushConfig { req with tenant := some tenant }
  | .getPushConfig req => .getPushConfig { req with tenant := some tenant }
  | .listPushConfigs req => .listPushConfigs { req with tenant := some tenant }
  | .deletePushConfig req => .deletePushConfig { req with tenant := some tenant }
  | .getExtendedAgentCard req => .getExtendedAgentCard { req with tenant := some tenant }

@[simp] theorem method_withTenant (tenant : String) (rpc : Rpc β) :
    (rpc.withTenant tenant).method = rpc.method := by
  cases rpc <;> rfl

@[simp] theorem tenant_withTenant (tenant : String) (rpc : Rpc β) :
    (rpc.withTenant tenant).tenant = some tenant := by
  cases rpc <;> rfl

end Rpc

/-- What a client asks of its interceptors `I` and of its transport. -/
inductive ClientOp (I : Type) : Type → Type 1
  /-- `CallInterceptor::before`: the parameters as it leaves them -/
  | before (interceptor : I) (method : String) (params : ServiceParams) :
      ClientOp I (Except A2AError ServiceParams)
  /-- `CallInterceptor::after` -/
  | after (interceptor : I) (method : String) (result : Except A2AError Unit) :
      ClientOp I (Except A2AError Unit)
  | request {β : Type} (params : ServiceParams) (rpc : Rpc β) : ClientOp I (Except A2AError β)
  | destroy : ClientOp I (Except A2AError Unit)

section client

variable {T I β : Type}

/-- The loop of `apply_before`. -/
def interceptBefore (method : String) :
    List I → ServiceParams → Program (ClientOp I) (Except A2AError ServiceParams)
  | [], params => .done (.ok params)
  | interceptor :: rest, params =>
      .askThen (.before interceptor method params) fun
        | .ok params => interceptBefore method rest params
        | .error error => .done (.error error)

/-- The loop of `apply_after`, over the interceptors as it goes through them. -/
def interceptAfter (method : String) (result : Except A2AError Unit) :
    List I → Program (ClientOp I) (Except A2AError Unit)
  | [] => .done (.ok ())
  | interceptor :: rest =>
      .askThen (.after interceptor method result) fun
        | .ok _ => interceptAfter method result rest
        | .error error => .done (.error error)

namespace A2AClient

variable (client : A2AClient T I)

/-- `apply_tenant`. -/
def applyTenant (rpc : Rpc β) : Rpc β :=
  match client.tenant with
  | none => rpc
  | some tenant => rpc.withTenant tenant

/-- `finish_call`. -/
def finishCall (method : String) (result : Except A2AError β) :
    Program (ClientOp I) (Except A2AError β) :=
  (interceptAfter method (result.map fun _ => ()) client.interceptors.reverse).bind fun afterResult =>
    match result, afterResult with
    | .ok value, .ok _ => .done (.ok value)
    | .error error, _ => .done (.error error)
    | .ok _, .error error => .done (.error error)

/-- A call: what `send_message` and the others are, each for its request. -/
def call (rpc : Rpc β) : Program (ClientOp I) (Except A2AError β) :=
  (interceptBefore rpc.method client.interceptors client.defaultParams).bind fun
    | .error error => .done (.error error)
    | .ok params =>
        .askThen (.request params (client.applyTenant rpc)) fun result =>
          client.finishCall rpc.method result

def sendMessage (req : SendMessageRequest) := client.call (.sendMessage req)
def sendStreamingMessage (req : SendMessageRequest) := client.call (.sendStreamingMessage req)
def getTask (req : GetTaskRequest) := client.call (.getTask req)
def listTasks (req : ListTasksRequest) := client.call (.listTasks req)
def cancelTask (req : CancelTaskRequest) := client.call (.cancelTask req)
def subscribeToTask (req : SubscribeToTaskRequest) := client.call (.subscribeToTask req)
def createPushConfig (req : TaskPushNotificationConfig) := client.call (.createPushConfig req)
def getPushConfig (req : GetTaskPushNotificationConfigRequest) := client.call (.getPushConfig req)
def listPushConfigs (req : ListTaskPushNotificationConfigsRequest) :=
  client.call (.listPushConfigs req)
def deletePushConfig (req : DeleteTaskPushNotificationConfigRequest) :=
  client.call (.deletePushConfig req)
def getExtendedAgentCard (req : GetExtendedAgentCardRequest) :=
  client.call (.getExtendedAgentCard req)

end A2AClient

/-! ## what interceptors see -/

/-- The exchanges of interceptors that let a call pass, the first one last:
each is given the parameters that the one before it left. -/
def passedBefore (method : String) :
    ServiceParams → List (I × ServiceParams) → List (Exchange (ClientOp I))
  | _, [] => []
  | params, (interceptor, left) :: rest =>
      passedBefore method left rest ++ [⟨.before interceptor method params, .ok left⟩]

/-- The parameters they leave. -/
def leftBy : ServiceParams → List (I × ServiceParams) → ServiceParams
  | params, [] => params
  | _, (_, left) :: rest => leftBy left rest

/-- The exchanges of interceptors that were told of a call. -/
def toldAfter (method : String) (result : Except A2AError Unit) :
    List I → List (Exchange (ClientOp I))
  | [] => []
  | interceptor :: rest =>
      toldAfter method result rest ++ [⟨.after interceptor method result, .ok ()⟩]

/-- The history of a call, and its result. -/
inductive A2AClient.CallHistory (client : A2AClient T I) (rpc : Rpc β) :
    Except A2AError β → List (Exchange (ClientOp I)) → Prop
  /-- an interceptor stopped it, and there was no request -/
  | stopped {passed : List (I × ServiceParams)} {interceptor : I} {rest : List I} (error : A2AError)
      (horder : client.interceptors = passed.map Prod.fst ++ interceptor :: rest) :
      CallHistory client rpc (.error error)
        (⟨.before interceptor rpc.method (leftBy client.defaultParams passed), .error error⟩ ::
          passedBefore rpc.method client.defaultParams passed)
  /-- one request, and all interceptors told of it -/
  | told {passed : List (I × ServiceParams)} (answer : Except A2AError β)
      (horder : client.interceptors = passed.map Prod.fst) :
      CallHistory client rpc answer
        (toldAfter rpc.method (answer.map fun _ => ()) client.interceptors.reverse ++
          ⟨.request (leftBy client.defaultParams passed) (client.applyTenant rpc), answer⟩ ::
            passedBefore rpc.method client.defaultParams passed)
  /-- one request, and an interceptor failed that was told of it: the
  transport's own error comes first -/
  | failed {passed : List (I × ServiceParams)} {told rest : List I} {interceptor : I}
      (answer : Except A2AError β) (error : A2AError)
      (horder : client.interceptors = passed.map Prod.fst)
      (hback : client.interceptors.reverse = told ++ interceptor :: rest) :
      CallHistory client rpc (answer.bind fun _ => .error error)
        (⟨.after interceptor rpc.method (answer.map fun _ => ()), .error error⟩ ::
          (toldAfter rpc.method (answer.map fun _ => ()) told ++
            ⟨.request (leftBy client.defaultParams passed) (client.applyTenant rpc), answer⟩ ::
              passedBefore rpc.method client.defaultParams passed))

variable {method : String} {h h' : List (Exchange (ClientOp I))} {result : Except A2AError Unit}

theorem runs_interceptBefore {interceptors : List I} {params : ServiceParams}
    {passing : Except A2AError ServiceParams} :
    (interceptBefore method interceptors params).Runs (fun _ => True) h (some passing) h' ↔
      (∃ passed, interceptors = passed.map Prod.fst ∧ passing = .ok (leftBy params passed) ∧
          h' = passedBefore method params passed ++ h) ∨
        ∃ passed interceptor rest error, interceptors = passed.map Prod.fst ++ interceptor :: rest ∧
          passing = .error error ∧ h' = ⟨.before interceptor method (leftBy params passed),
            .error error⟩ :: (passedBefore method params passed ++ h) := by
  induction interceptors generalizing params h with
  | nil =>
      constructor
      · intro hr
        obtain ⟨rfl, rfl⟩ := Program.runs_done_iff.mp hr
        exact .inl ⟨[], rfl, rfl, rfl⟩
      · rintro (⟨passed, hnil, rfl, rfl⟩ | ⟨passed, interceptor, rest, error, hnil, _⟩)
        · rw [List.map_eq_nil_iff.mp hnil.symm]
          exact ⟨.inr rfl, rfl⟩
        · simp at hnil
  | cons first others ih =>
      constructor
      · rintro (⟨hnone, _⟩ | ⟨answer, _, hr⟩)
        · contradiction
        cases answer with
        | error error =>
            obtain ⟨rfl, rfl⟩ := Program.runs_done_iff.mp hr
            exact .inr ⟨[], first, others, error, rfl, rfl, rfl⟩
        | ok left =>
            rcases ih.mp hr with ⟨passed, rfl, rfl, rfl⟩ | ⟨passed, interceptor, rest, error, rfl, rfl, rfl⟩
            · exact .inl ⟨(first, left) :: passed, rfl, rfl, by simp [passedBefore]⟩
            · exact .inr ⟨(first, left) :: passed, interceptor, rest, error, rfl, rfl,
                by simp [passedBefore, leftBy]⟩
      · rintro (⟨passed, horder, rfl, rfl⟩ | ⟨passed, interceptor, rest, error, horder, rfl, rfl⟩)
        · cases passed with
          | nil => contradiction
          | cons entry passed =>
              obtain ⟨rfl, rfl⟩ := List.cons.inj horder
              refine .inr ⟨.ok entry.2, trivial, ih.mpr (.inl ⟨passed, rfl, rfl, ?_⟩)⟩
              simp [passedBefore]
        · cases passed with
          | nil =>
              obtain ⟨rfl, rfl⟩ := List.cons.inj horder
              exact .inr ⟨.error error, trivial, .inr rfl, rfl⟩
          | cons entry passed =>
              obtain ⟨rfl, rfl⟩ := List.cons.inj horder
              refine .inr ⟨.ok entry.2, trivial,
                ih.mpr (.inr ⟨passed, interceptor, rest, error, rfl, rfl, ?_⟩)⟩
              simp [passedBefore, leftBy]

theorem runs_interceptAfter {interceptors : List I} {passing : Except A2AError Unit} :
    (interceptAfter method result interceptors).Runs (fun _ => True) h (some passing) h' ↔
      (passing = .ok () ∧ h' = toldAfter method result interceptors ++ h) ∨
        ∃ told interceptor rest error, interceptors = told ++ interceptor :: rest ∧
          passing = .error error ∧ h' = ⟨.after interceptor method result, .error error⟩ ::
            (toldAfter method result told ++ h) := by
  induction interceptors generalizing h with
  | nil =>
      constructor
      · exact fun hr => .inl (Program.runs_done_iff.mp hr)
      · rintro (⟨rfl, rfl⟩ | ⟨told, interceptor, rest, error, hnil, _⟩)
        · exact ⟨.inr rfl, rfl⟩
        · simp at hnil
  | cons first others ih =>
      constructor
      · rintro (⟨hnone, _⟩ | ⟨answer, _, hr⟩)
        · contradiction
        cases answer with
        | error error =>
            obtain ⟨rfl, rfl⟩ := Program.runs_done_iff.mp hr
            exact .inr ⟨[], first, others, error, rfl, rfl, rfl⟩
        | ok _ =>
            rcases ih.mp hr with ⟨rfl, rfl⟩ | ⟨told, interceptor, rest, error, rfl, rfl, rfl⟩
            · exact .inl ⟨rfl, by simp [toldAfter]⟩
            · exact .inr ⟨first :: told, interceptor, rest, error, rfl, rfl, by simp [toldAfter]⟩
      · rintro (⟨rfl, rfl⟩ | ⟨told, interceptor, rest, error, horder, rfl, rfl⟩)
        · refine .inr ⟨.ok (), trivial, ih.mpr (.inl ⟨rfl, ?_⟩)⟩
          simp [toldAfter]
        · cases told with
          | nil =>
              obtain ⟨rfl, rfl⟩ := List.cons.inj horder
              exact .inr ⟨.error error, trivial, .inr rfl, rfl⟩
          | cons interceptor' told =>
              obtain ⟨rfl, rfl⟩ := List.cons.inj horder
              refine .inr ⟨.ok (), trivial,
                ih.mpr (.inr ⟨told, interceptor, rest, error, rfl, rfl, ?_⟩)⟩
              simp [toldAfter]

namespace A2AClient

variable (client : A2AClient T I)

theorem runs_finishCall {answer value : Except A2AError β} :
    (client.finishCall method answer).Runs (fun _ => True) h (some value) h' ↔
      (value = answer ∧ h' = toldAfter method (answer.map fun _ => ()) client.interceptors.reverse ++ h) ∨
        ∃ told interceptor rest error, client.interceptors.reverse = told ++ interceptor :: rest ∧
          value = answer.bind (fun _ => .error error) ∧
          h' = ⟨.after interceptor method (answer.map fun _ => ()), .error error⟩ ::
            (toldAfter method (answer.map fun _ => ()) told ++ h) := by
  constructor
  · intro hr
    rcases Program.runs_bind hr with ⟨hnone, _⟩ | ⟨passing, h₁, hafter, hend⟩
    · contradiction
    rcases runs_interceptAfter.mp hafter with ⟨rfl, rfl⟩ | ⟨told, interceptor, rest, error, hback, rfl, rfl⟩
    · refine .inl ?_
      cases answer with
      | error failure => exact Program.runs_done_iff.mp hend
      | ok result => exact Program.runs_done_iff.mp hend
    · refine .inr ⟨told, interceptor, rest, error, hback, ?_⟩
      cases answer with
      | error failure => exact Program.runs_done_iff.mp hend
      | ok result => exact Program.runs_done_iff.mp hend
  · rintro (⟨rfl, rfl⟩ | ⟨told, interceptor, rest, error, hback, rfl, rfl⟩)
    · refine Program.Runs.bind (runs_interceptAfter.mpr (.inl ⟨rfl, rfl⟩)) ?_
      cases value with
      | error failure => exact ⟨.inr rfl, rfl⟩
      | ok result => exact ⟨.inr rfl, rfl⟩
    · refine Program.Runs.bind (runs_interceptAfter.mpr
        (.inr ⟨told, interceptor, rest, error, hback, rfl, rfl⟩)) ?_
      cases answer with
      | error failure => exact ⟨.inr rfl, rfl⟩
      | ok result => exact ⟨.inr rfl, rfl⟩

/-- **A call through its interceptors**: the runs that are over are exactly
these.  The parameters go through the interceptors in order, and the first
that fails ends the call without a request; else there is one request, for
the declared tenant, and its outcome goes through the interceptors in the
opposite order, up to the first that fails. -/
theorem call_intercepted (rpc : Rpc β) (value : Except A2AError β) (h : List (Exchange (ClientOp I))) :
    (client.call rpc).Runs (fun _ => True) [] (some value) h ↔ client.CallHistory rpc value h := by
  constructor
  · intro hr
    rcases Program.runs_bind hr with ⟨hnone, _⟩ | ⟨passing, h₁, hbefore, hend⟩
    · contradiction
    rcases runs_interceptBefore.mp hbefore with
      ⟨passed, horder, rfl, rfl⟩ | ⟨passed, interceptor, rest, error, horder, rfl, rfl⟩
    · obtain ⟨hnone, _⟩ | ⟨answer, _, hfinish⟩ := hend
      · contradiction
      rw [List.append_nil] at hfinish
      rcases client.runs_finishCall.mp hfinish with
        ⟨rfl, rfl⟩ | ⟨told, interceptor, rest, error, hback, rfl, rfl⟩
      · exact .told value horder
      · exact .failed answer error horder hback
    · obtain ⟨rfl, rfl⟩ := Program.runs_done_iff.mp hend
      rw [List.append_nil]
      exact .stopped error horder
  · intro hhistory
    cases hhistory with
    | stopped error horder =>
        refine Program.Runs.bind (runs_interceptBefore.mpr
          (.inr ⟨_, _, _, error, horder, rfl, rfl⟩)) ⟨.inr rfl, ?_⟩
        rw [List.append_nil]
    | told answer horder =>
        refine Program.Runs.bind (runs_interceptBefore.mpr (.inl ⟨_, horder, rfl, rfl⟩)) ?_
        refine .inr ⟨value, trivial, client.runs_finishCall.mpr (.inl ⟨rfl, ?_⟩)⟩
        rw [List.append_nil]
    | failed answer error horder hback =>
        refine Program.Runs.bind (runs_interceptBefore.mpr (.inl ⟨_, horder, rfl, rfl⟩)) ?_
        refine .inr ⟨answer, trivial, client.runs_finishCall.mpr
          (.inr ⟨_, _, _, error, hback, rfl, ?_⟩)⟩
        rw [List.append_nil]

end A2AClient

end client

end A2a
