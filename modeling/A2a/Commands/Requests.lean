import A2a.Commands.Kinds
import A2a.Commands.Release

/-!
# A2a.Commands.Requests

The commands with the client under them: which requests go out
(`requests_addressed`).

A call of a command is what the client makes of it, interceptors before it and
after it, and what is asked of the transport is the wire.
-/

namespace A2a

open Step Cli

/-- What a command asks through its client, and what it asks besides. -/
inductive WireOp (I : Type) : Type → Type 1
  | client {β : Type} (op : ClientOp I β) : WireOp I β
  | other {β : Type} (op : CliOp β) : WireOp I β

section wire

variable {T I : Type}

/-- A question of a command, asked through the client. -/
def onWire (client : A2AClient T I) : {β : Type} → CliOp β → Program (WireOp I) β
  | _, .call rpc => (client.call rpc).interpret fun op => .ask (.client op)
  | _, .destroy => .ask (.client .destroy)
  | _, op => .ask (.other op)

/-- A request goes out with these parameters and for this tenant. -/
def ClientOp.IsAddressed (params : ServiceParams) (tenant : Option String) {β : Type} :
    ClientOp I β → Prop
  | .request given rpc => given = params ∧ rpc.tenant = tenant
  | _ => True

def WireOp.IsAddressed (params : ServiceParams) (tenant : Option String) {β : Type} :
    WireOp I β → Prop
  | .client op => op.IsAddressed params tenant
  | .other _ => True

/-- The transport was destroyed. -/
def isDestroyed : List (Exchange (WireOp I)) → Bool
  | [] => false
  | ⟨.client .destroy, _⟩ :: _ => true
  | _ :: c => isDestroyed c

/-- The transport is asked for nothing after it was destroyed. -/
def AskedLive : List (Exchange (WireOp I)) → Prop
  | [] => True
  | ⟨.client (.request _ _), _⟩ :: c => isDestroyed c = false ∧ AskedLive c
  | ⟨.client .destroy, _⟩ :: c => isDestroyed c = false ∧ AskedLive c
  | _ :: c => AskedLive c

/-- The interceptors of `a2acli`, which never fail. -/
def Intercepts : List (Exchange (WireOp Interceptor)) → Prop
  | ⟨.client (.before interceptor _ params), answer⟩ :: _ => answer = .ok (interceptor.before params)
  | ⟨.client (.after _ _ _), answer⟩ :: _ => answer = .ok ()
  | _ => True

end wire

variable {T I : Type} {α β : Type} {floatText : UInt64 → String} {cli : Cli} {saver : Option String}
  {tenant : Option String} {params : ServiceParams}

/-! ## the tenant of a command -/

/-- A call for a tenant. -/
def CliOp.Names (tenant : Option String) : CliOp β → Prop
  | .call rpc => rpc.tenant = tenant
  | _ => True

/-- All calls of a step are for a tenant. -/
abbrev Step.Names (tenant : Option String) (step : Step α) : Prop :=
  step.Only fun e => e.op.Names tenant

/-- A step without calls names any tenant. -/
theorem Step.IsLocal.names {step : Step α} (hstep : step.IsLocal) : step.Names tenant := by
  refine Program.Asks.mono hstep fun e he => ?_
  obtain ⟨op, answer⟩ := e
  cases op <;> trivial

/-- So does one that only writes. -/
theorem Step.Writes.names {step : Step α} (hstep : step.Writes) : step.Names tenant :=
  hstep.isLocal.names

/-- A command of one call names the tenant of the call. -/
theorem callOnce_names {rpc : Rpc β} (hrpc : rpc.tenant = tenant) : (callOnce rpc).Names tenant :=
  .bind (.perform fun _ => hrpc) fun result => (finishClientCall_isLocal result).names

/-- Each poll names the tenant it was given. -/
theorem waitForTaskSettled_names (taskId : TaskId) :
    (waitForTaskSettled cli taskId tenant).Names tenant := by
  refine .bind (.perform fun _ => trivial) fun start => .iterate (fun _ => ?_) ()
  refine .bind (.attempt fun _ => rfl) fun task => ?_
  split
  · exact .pure _
  · refine .bind (.perform fun _ => trivial) fun now => ?_
    split
    · exact .throw _
    · exact .bind (.perform fun _ => trivial) fun _ => .pure _

/-- So does a wait. -/
theorem settleTask_names (task : Task) (wait : Bool) :
    (settleTask cli task wait tenant).Names tenant := by
  unfold settleTask
  split
  · exact .bind (.outcome (waitForTaskSettled_names _)) fun result =>
      (destroyAfter_isLocal result).names
  · exact (destroyAfter_isLocal _).names

/-- A send and its wait name the same tenant. -/
theorem sendAndMaybeWait_names {request : SendMessageRequest} (hrequest : request.tenant = tenant) :
    (sendAndMaybeWait cli request tenant).Names tenant := by
  refine .bind (.perform fun _ => hrequest) fun answer => ?_
  rcases answer with error | (task | message)
  · exact (destroyAndFail_isLocal _).names
  · exact .bind (settleTask_names task _) fun _ => .pure _
  · exact .bind (.attempt fun _ => trivial) fun _ => .pure _

/-- So does each try to subscribe again. -/
theorem reconnect_names (taskId : TaskId) (deadline : Nat) (attempts : UInt32) (cause : String) :
    (reconnect cli taskId tenant deadline attempts cause).Names tenant := by
  refine .iterate (fun s => .bind (.perform fun _ => trivial) fun now => ?_) _
  split
  · exact (destroyAndFail_isLocal _).names
  · refine .bind (.perform fun _ => trivial) fun _ => .bind (.perform fun _ => trivial) fun _ => ?_
    refine .bind (.perform fun _ => rfl) fun answer => ?_
    cases answer with
    | ok stream => exact .pure _
    | error error => exact .pure _

/-- A subscription names one tenant however often it is resumed. -/
theorem subscribeResuming_names (taskId : TaskId) :
    (subscribeResuming floatText cli saver taskId tenant).Names tenant := by
  refine .iterate (fun s => .bind (readStream_isLocal _ _).names fun read => ?_) _
  split
  · exact .bind (.attempt fun _ => trivial) fun _ => .pure _
  · refine .bind (deadlineOf_isLocal _).names fun deadline => ?_
    exact .bind (reconnect_names taskId _ _ _) fun _ => .pure _

theorem runCardGet_names (extended validate : Bool) :
    (runCardGet floatText cli extended validate).Names cli.tenant := by
  have hprint : ∀ card, (do
      (if validate then validateCardOrFail else pure ())
      printOutput floatText cli (.card card) : Step Unit).Names cli.tenant := by
    intro card
    refine .bind ?_ fun _ => (printOutput_writes _).names
    split
    · exact validateCardOrFail_isLocal.names
    · exact .pure _
  unfold runCardGet
  split
  · refine .bind resolveClientStep_isLocal.names fun declared => ?_
    exact .bind (require_isLocal _ _).names fun _ => .bind (callOnce_names rfl) hprint
  · exact .bind (.attempt fun _ => trivial) hprint

/-- `send` names the tenant of its flag. -/
theorem runSend_names (flags : SendFlags) (parts : Except PartError (List Part)) :
    (runSend floatText cli flags parts).Names cli.tenant := by
  refine .bind (.ofExcept _) fun parts => .bind (filePartSaver_isLocal _).names fun saver => ?_
  refine .bind resolveClientStep_isLocal.names fun declared => ?_
  refine .bind (.perform fun _ => trivial) fun messageId => ?_
  have hsend : (do
      let response ← sendAndMaybeWait cli
        (buildSendMessageRequest flags messageId parts cli.tenant) cli.tenant
      report floatText cli saver (.send response) : Step Unit).Names cli.tenant :=
    .bind (sendAndMaybeWait_names rfl) fun _ => (report_writes saver _).names
  refine .bind ?_ fun _ => ?_
  · split
    · exact .perform fun _ => trivial
    · exact .pure _
  · split
    · refine .bind (.perform fun _ => rfl) fun answer => ?_
      cases answer with
      | ok stream => exact (consumeStream_isLocal saver).names
      | error error =>
          simp only
          split
          · exact hsend
          · exact (destroyAndFail_isLocal _).names
    · exact hsend

/-- So does `task get`. -/
theorem runTaskGet_names (id : TaskId) (historyLength : Option Int) (save : Option String) :
    (runTaskGet floatText cli id historyLength save).Names cli.tenant := by
  refine .bind (filePartSaver_isLocal _).names fun saver => ?_
  refine .bind resolveClientStep_isLocal.names fun _ => .bind (.perform fun _ => rfl) fun answer => ?_
  cases answer with
  | error error => exact (destroyAndFail_isLocal _).names
  | ok task => exact .bind (settleTask_names _ _) fun _ => (report_writes saver _).names

/-- So does `task subscribe`. -/
theorem runTaskSubscribe_names (id : TaskId) (save : Option String) :
    (runTaskSubscribe floatText cli id save).Names cli.tenant := by
  refine .bind (filePartSaver_isLocal _).names fun saver => ?_
  refine .bind resolveClientStep_isLocal.names fun declared => ?_
  refine .bind (require_isLocal _ _).names fun _ => .bind (.attempt fun _ => rfl) fun _ => ?_
  exact subscribeResuming_names id

/-- So does any command of push configurations. -/
theorem runPushConfig_names {rpc : Except CommandError (Rpc β)} {response : β → TextResponse}
    (hrpc : ∀ call, rpc = .ok call → call.tenant = cli.tenant) :
    (runPushConfig floatText cli rpc response).Names cli.tenant := by
  refine .bind resolveClientStep_isLocal.names fun declared => .bind (require_isLocal _ _).names fun _ => ?_
  cases rpc with
  | error error => exact .throw error
  | ok call =>
      have hcall : (callOnce call >>= fun result =>
          printOutput floatText cli (response result)).Names cli.tenant :=
        .bind (callOnce_names (hrpc call rfl)) fun _ => (printOutput_writes _).names
      exact hcall

/-- Every call of a command is for `--tenant`. -/
theorem run_names (parseJson : String → Except String Value) (io : Nat → Io) :
    (run floatText cli parseJson io).Names cli.tenant := by
  refine .bind (.ofExcept _) fun _ => ?_
  split
  next => exact runCardGet_names _ _
  next => exact runSend_names _ _
  next => exact runTaskGet_names _ _ _
  next =>
    exact .bind resolveClientStep_isLocal.names fun _ => .bind (callOnce_names rfl) fun _ =>
      (printOutput_writes _).names
  next =>
    exact .bind resolveClientStep_isLocal.names fun _ => .bind (callOnce_names rfl) fun _ =>
      .bind (warnOutcome_writes _).names fun _ => (printOutput_writes _).names
  next => exact runTaskSubscribe_names _ _
  next flags _ =>
    refine runPushConfig_names fun call hcall => ?_
    unfold buildPushNotificationConfig at hcall
    split at hcall
    · contradiction
    · cases hcall
      rfl
  next => exact runPushConfig_names fun call hcall => by cases hcall; rfl
  next => exact runPushConfig_names fun call hcall => by cases hcall; rfl
  next => exact runPushConfig_names fun call hcall => by cases hcall; rfl

/-! ## requests on the wire -/

/-- The tenant of the client is preferred to the call's. -/
theorem tenant_applyTenant (client : A2AClient T I) (rpc : Rpc β) :
    (client.applyTenant rpc).tenant = client.tenant.or rpc.tenant := by
  unfold A2AClient.applyTenant
  cases htenant : client.tenant with
  | none => simp
  | some tenant => simp

/-- Neither a request nor the destruction. -/
def ClientOp.isInterceptor : ClientOp I β → Bool
  | .before _ _ _ | .after _ _ _ => true
  | _ => false

/-- Anything but the destruction. -/
def ClientOp.isDestroy : ClientOp I β → Bool
  | .destroy => true
  | _ => false

/-- Before a request only interceptors are asked. -/
theorem asks_interceptBefore (method : String) (interceptors : List I) (params : ServiceParams) :
    (interceptBefore method interceptors params).Asks fun e => e.op.isInterceptor = true := by
  induction interceptors generalizing params with
  | nil => trivial
  | cons interceptor rest ih =>
      intro answer
      cases answer with
      | ok left => exact ⟨rfl, ih left⟩
      | error error => exact ⟨rfl, trivial⟩

/-- So it is after it. -/
theorem asks_finishCall (client : A2AClient T I) (method : String) (result : Except A2AError β) :
    (client.finishCall method result).Asks fun e => e.op.isInterceptor = true := by
  have hafter : ∀ interceptors : List I, (interceptAfter method (result.map fun _ => ())
      interceptors).Asks fun e => e.op.isInterceptor = true := by
    intro interceptors
    induction interceptors with
    | nil => trivial
    | cons interceptor rest ih =>
        intro answer
        cases answer with
        | ok _ => exact ⟨rfl, ih⟩
        | error error => exact ⟨rfl, trivial⟩
  refine (hafter _).bind fun afterResult => ?_
  cases result <;> cases afterResult <;> trivial

/-- A client destroys nothing in a call. -/
theorem asks_call (client : A2AClient T I) (rpc : Rpc β) :
    (client.call rpc).Asks fun e => e.op.isDestroy = false := by
  have hinterceptor : ∀ e : Exchange (ClientOp I), e.op.isInterceptor = true →
      e.op.isDestroy = false := by
    rintro ⟨op, answer⟩ he
    cases op <;> first | rfl | contradiction
  refine ((asks_interceptBefore _ _ _).mono hinterceptor).bind fun passing => ?_
  cases passing with
  | error error => trivial
  | ok params => exact fun answer => ⟨rfl, (asks_finishCall client _ answer).mono hinterceptor⟩

section wire

variable {client : A2AClient T Interceptor} {c c' : List (Exchange (WireOp Interceptor))}

/-- All requests go out with these parameters and for this tenant. -/
def AllAddressed (params : ServiceParams) (tenant : Option String)
    (c : List (Exchange (WireOp Interceptor))) : Prop :=
  ∀ e ∈ c, e.op.IsAddressed params tenant

/-- The interceptors of the command line do not fail, and leave the parameters as
`before` says. -/
theorem interceptBefore_addressed (method : String) (interceptors : List Interceptor)
    (start : ServiceParams) (hc : AllAddressed params tenant c) :
    ((interceptBefore method interceptors start).interpret fun op => .ask (.client op)).Ensures
      Intercepts (AllAddressed params tenant) c fun passing _ =>
        passing = .ok (interceptors.foldl Interceptor.before start) := by
  induction interceptors generalizing start c with
  | nil => exact Program.ensures_done hc rfl
  | cons interceptor rest ih =>
      refine Program.ensures_ask hc fun answer hanswer => ?_
      cases hanswer
      exact ih _ (List.forall_mem_cons.mpr ⟨trivial, hc⟩)

/-- A call of a command puts one request on the wire, for the declared tenant
or the one it names. -/
theorem call_addressed {rpc : Rpc β} (htenant : client.tenant.or rpc.tenant = tenant)
    (hc : AllAddressed client.applyBefore tenant c) :
    (onWire client (.call rpc)).Ensures Intercepts (AllAddressed client.applyBefore tenant) c
      fun _ c' => AllAddressed client.applyBefore tenant c' := by
  rw [onWire, A2AClient.call, Program.interpret_bind]
  refine Program.ensures_bind ((interceptBefore_addressed _ _ _ hc).mono ?_)
  rintro passing c₁ hc₁ rfl
  refine Program.ensures_ask hc₁ fun answer _ => ?_
  have hc₂ : AllAddressed client.applyBefore tenant
      (⟨.client (.request client.applyBefore (client.applyTenant rpc)), answer⟩ :: c₁) :=
    List.forall_mem_cons.mpr ⟨⟨rfl, (tenant_applyTenant client rpc).trans htenant⟩, hc₁⟩
  refine (asks_finishCall client rpc.method answer).ensures_interpret ?_ hc₂
  intro γ op c hop hc
  refine Program.ensures_ask hc fun b _ => ?_
  have hcons : AllAddressed client.applyBefore tenant (⟨.client op, b⟩ :: c) := by
    refine List.forall_mem_cons.mpr ⟨?_, hc⟩
    show (WireOp.client op).IsAddressed client.applyBefore tenant
    cases op with
    | request params rpc => exact absurd (hop b) Bool.false_ne_true
    | _ => trivial
  exact Program.ensures_done hcons hcons

/-- What a command asks puts its requests on a live transport. -/
theorem onWire_live {op : CliOp β} {h : List (Exchange CliOp)} (b : β)
    (horderly : Orderly (⟨op, b⟩ :: h)) (hc : isDestroyed c = decide (clientLife h = .destroyed))
    (hlive : AskedLive c) :
    (onWire client op).Ensures Intercepts AskedLive c fun b c' =>
      isDestroyed c' = decide (clientLife (⟨op, b⟩ :: h) = .destroyed) := by
  have hother : ∀ {γ : Type} (op : CliOp γ), (Program.ask (.other op)).Ensures Intercepts AskedLive c
      fun _ c' => isDestroyed c' = decide (clientLife h = .destroyed) :=
    fun op => Program.ensures_ask hlive fun b _ => Program.ensures_done hlive hc
  cases op with
  | call rpc =>
      have hlife : clientLife h = .connected := horderly.2 _ rfl
      rw [hlife] at hc
      have hcall := (asks_call client rpc).ensures_interpret (S := Intercepts)
        (f := fun op => .ask (.client op)) (P := fun c => isDestroyed c = false ∧ AskedLive c)
        (fun γ op c hop hc => ?_) ⟨hc, hlive⟩
      · refine (hcall.weaken fun c' hc' => hc'.2).mono fun b' c' _ hc' => ?_
        show isDestroyed c' = decide (clientLife h = .destroyed)
        rw [hlife, hc'.1]
        rfl
      · refine Program.ensures_ask hc fun b _ => ?_
        cases op with
        | destroy => exact absurd (hop b).symm Bool.false_ne_true
        | request params rpc => exact Program.ensures_done ⟨hc.1, hc⟩ ⟨hc.1, hc⟩
        | _ => exact Program.ensures_done hc hc
  | destroy =>
      have hlife : clientLife h = .connected := horderly.2 _ rfl
      rw [hlife] at hc
      exact Program.ensures_ask hlive fun b _ => Program.ensures_done ⟨hc, hlive⟩ rfl
  | connect =>
      have hlife : clientLife h = .unconnected := horderly.2 _ rfl
      rw [hlife] at hc
      refine Program.ensures_ask hlive fun b _ => Program.ensures_done hlive ?_
      show isDestroyed c = _
      cases b with
      | ok declared => exact hc
      | error error => rw [hc, clientLife, ← hlife]; rfl
  | _ => exact hother _

/-- A history of a command and one of the wire below it. -/
def Below (h : List (Exchange CliOp)) (c : List (Exchange (WireOp Interceptor))) : Prop :=
  Orderly h → isDestroyed c = decide (clientLife h = .destroyed) ∧ AskedLive c

/-- Whatever a command asks, its transport is live. -/
theorem run_live {parseJson : String → Except String Value} {io : Nat → Io}
    {r : Option (Except CommandError Unit)}
    (hr : ((run floatText cli parseJson io).run.interpret (onWire client)).Runs Intercepts [] r c) :
    AskedLive c := by
  have horderly : ∀ {r h}, (run floatText cli parseJson io).run.Runs (fun _ => True) [] r h →
      Orderly h := fun hr => (run_finishes parseJson io _ [] trivial rfl rfl _ _ hr).1
  have hstep : ∀ {γ : Type} (op : CliOp γ) h c b c', Below h c →
      (onWire client op).Runs Intercepts c (some b) c' → True ∧ Below (⟨op, b⟩ :: h) c' := by
    intro γ op h c b c' hbelow hr
    refine ⟨trivial, fun hh => ?_⟩
    obtain ⟨hdestroyed, hlive⟩ := hbelow hh.1
    obtain ⟨hlive', hend⟩ := onWire_live b hh hdestroyed hlive _ _ hr
    exact ⟨hend b rfl, hlive'⟩
  have hstart : Below [] ([] : List (Exchange (WireOp Interceptor))) := fun _ => ⟨rfl, trivial⟩
  obtain ⟨h', hrun, hend⟩ := Program.runs_interpret (R := fun _ => True) hstep hstart hr
  rcases hend with hbelow | ⟨_, γ, op, c₁, hbelow, hwithin, hnext⟩
  · exact (hbelow (horderly hrun)).2
  · obtain ⟨hdestroyed, hlive⟩ := hbelow (horderly hrun)
    have hlast : ∀ b, AskedLive c := fun b =>
      (onWire_live b (horderly (hnext b trivial)) hdestroyed hlive _ _ hwithin).1
    cases op with
    | call rpc => exact hlast (.error (.internal ""))
    | connect => exact hlast (.error (.invalidInput ""))
    | resolveCard => exact hlast (.error (.invalidInput ""))
    | violations => exact hlast (.ok [])
    | isNoDirectory path => exact hlast false
    | newId => exact hlast ""
    | next => exact hlast none
    | destroy => exact hlast (.ok ())
    | now => exact hlast 0
    | sleep duration => exact hlast ()
    | println text => exact hlast ()
    | printJson compact value => exact hlast (.ok ())
    | save dir value => exact hlast ([], .ok ())
    | warn line => exact hlast ()

/-- The transport was not destroyed before any request. -/
theorem AskedLive.of_append {later earlier : List (Exchange (WireOp I))} {params : ServiceParams}
    {rpc : Rpc β} {answer : Except A2AError β}
    (hlive : AskedLive (later ++ ⟨.client (.request params rpc), answer⟩ :: earlier)) :
    isDestroyed earlier = false := by
  induction later with
  | nil => exact hlive.1
  | cons e later ih =>
      obtain ⟨op, answer'⟩ := e
      refine ih ?_
      cases op with
      | other op => exact hlive
      | client op => cases op <;> first | exact hlive | exact hlive.2

end wire

section requests

variable {F : Type} {factory : A2AClientFactory F Interceptor} {transport : T}
  {iface : AgentInterface} {parseJson : String → Except String Value} {io : Nat → Io}
  {r : Option (Except CommandError Unit)} {earlier later : List (Exchange (WireOp Interceptor))}

/-- The client's tenant is the interface's, if that is not empty. -/
theorem tenant_resolveClient (flags : CallFlags) :
    (resolveClient factory flags transport iface).1.tenant =
      iface.tenant.filter fun tenant => tenant ≠ "" := by
  show (factory.client transport iface).tenant = _
  unfold A2AClientFactory.client
  simp only
  split
  next htenant => rw [htenant]
  next htenant => rw [htenant]; rfl

/-- What a request carries: under `A2A-Version`, spelled so, the version alone, and
under any other name the values of the flags with that name, as it is spelled there. -/
theorem lookup_params {params : ServiceParams} {v : String} (flags : CallFlags)
    (hparams : params = (addHeaders (Finmap.singleton svcParamVersion [version]) flags.headers).insert
      svcParamVersion [v]) :
    params.lookup svcParamVersion = some [v] ∧ ∀ name ≠ svcParamVersion,
      (params.lookup name).getD [] =
        (flags.headers.filter fun header => header.name = name).map HeaderArg.value := by
  refine ⟨by rw [hparams, Finmap.lookup_insert], fun name hname => ?_⟩
  have hnone : Finmap.lookup name (Finmap.singleton svcParamVersion [version] : ServiceParams) =
      none := Finmap.lookup_eq_none.mpr (mt (Finmap.mem_singleton _ _ _).mp hname)
  rw [hparams, Finmap.lookup_insert_of_ne _ hname, lookup_addHeaders, hnone]
  rfl

/-- **Every request of a command, in every run**: it goes out for the tenant of
the selected interface, or for `--tenant` if that has none; under `A2A-Version`
with one version, which is 1.x, and under any other spelling of a name with the
values of the flags that spell it so; and before the transport is destroyed. -/
theorem requests_addressed {rpc : Rpc β} {answer : Except A2AError β}
    (hr : ((run floatText cli parseJson io).run.interpret
      (onWire (resolveClient factory cli.toCallFlags transport iface).1)).Runs Intercepts [] r
        (later ++ ⟨.client (.request params rpc), answer⟩ :: earlier)) :
    rpc.tenant = (iface.tenant.filter fun tenant => tenant ≠ "").or cli.tenant ∧
      (∃ minor, parseProtocolVersion
        (expectedVersion cli.a2aVersion iface.protocolVersion supportedProtocolVersion) =
          some (1, minor)) ∧
      params = (addHeaders (Finmap.singleton svcParamVersion [version]) cli.headers).insert
        svcParamVersion [expectedVersion cli.a2aVersion iface.protocolVersion
          supportedProtocolVersion] ∧
      params.lookup svcParamVersion = some [expectedVersion cli.a2aVersion iface.protocolVersion
        supportedProtocolVersion] ∧
      (∀ name ≠ svcParamVersion, (params.lookup name).getD [] =
        (cli.headers.filter fun header => header.name = name).map HeaderArg.value) ∧
      isDestroyed earlier = false := by
  cases hvalid : validateA2aVersion cli.a2aVersion with
  | error message =>
      have hthrown : (run floatText cli parseJson io).run = .done (.error (.invalidInput message)) := by
        unfold run
        rw [hvalid]
        rfl
      rw [hthrown] at hr
      exact absurd hr.2 (List.append_ne_nil_of_right_ne_nil _ (List.cons_ne_nil _ _))
  | ok _ =>
      have hnames : (run floatText cli parseJson io).Names cli.tenant := run_names parseJson io
      have haddressed := hnames.ensures_interpret
        (f := onWire (resolveClient factory cli.toCallFlags transport iface).1) (S := Intercepts)
        (P := AllAddressed (resolveClient factory cli.toCallFlags transport iface).1.applyBefore
          ((iface.tenant.filter fun tenant => tenant ≠ "").or cli.tenant)) ?_
        (c := []) (fun e he => nomatch he)
      · obtain ⟨hparams, htenant⟩ := (haddressed _ _ hr).1 _
          (List.mem_append_right _ List.mem_cons_self)
        rw [applyBefore_resolveClient] at hparams
        obtain ⟨hversion, hheaders⟩ := lookup_params cli.toCallFlags hparams
        exact ⟨htenant, expectedVersion_parse _ hvalid, hparams, hversion, hheaders,
          (run_live hr).of_append⟩
      · intro γ op c hop hc
        cases op with
        | call rpc =>
            have hrpc : rpc.tenant = cli.tenant := hop (.error (.internal ""))
            exact call_addressed (by rw [tenant_resolveClient, hrpc]) hc
        | _ =>
            refine Program.ensures_ask hc fun b _ => ?_
            exact Program.ensures_done (List.forall_mem_cons.mpr ⟨trivial, hc⟩)
              (List.forall_mem_cons.mpr ⟨trivial, hc⟩)

end requests

/-- The interceptors, and the working agent behind the transport. -/
def behindTransport : {β : Type} → WireOp Interceptor β → Nat → β × Nat
  | _, .client (.before interceptor _ params), now => (.ok (interceptor.before params), now)
  | _, .client (.after _ _ _), now => (.ok (), now)
  | _, .client (.request _ rpc), now => (workingAgent rpc, now)
  | _, .client .destroy, now => (.ok (), now)
  | _, .other op, now => besideWorkingAgent op now

/-- `task get --wait` with `--tenant`, `--a2a-version` and headers, two of one name. -/
def getForTeam : Cli :=
  { getAndWait with
    bearer := some "secret"
    svcParams := [⟨"X-Team", "a"⟩, ⟨"X-Team", "b"⟩]
    a2aVersion := some "1.3"
    tenant := some "acme" }

/-- The client of that command. -/
def teamClient : A2AClient Unit Interceptor :=
  (resolveClient noFactories getForTeam.toCallFlags () (.new "http://localhost" "JSONRPC")).1

def ClientOp.isRequest {I β : Type} : ClientOp I β → Bool
  | .request _ _ => true
  | _ => false

def WireOp.isRequest {I β : Type} : WireOp I β → Bool
  | .client op => op.isRequest
  | .other _ => false

def getForTeamOnWire : Option (Except CommandError Unit × Nat × List (Exchange (WireOp Interceptor))) :=
  Program.eval behindTransport 100
    ((run (fun _ => "") getForTeam (fun _ => .error "") noIo).run.interpret (onWire teamClient)) 0 []

theorem requests_addressed_team : ∃ β, ∃ rpc : Rpc β, ∃ params : ServiceParams,
    rpc.tenant = some "acme" ∧ params.lookup svcParamVersion = some ["1.3"] ∧
      (params.lookup "X-Team").getD [] = ["a", "b"] ∧
      (params.lookup "Authorization").getD [] = ["Bearer secret"] := by
  have heval : getForTeamOnWire.map (fun x => x.2.2.any fun e => e.op.isRequest) = some true := rfl
  obtain ⟨⟨result, w, c⟩, heval, hrequest⟩ := Option.map_eq_some_iff.mp heval
  have hr := (Program.runs_of_eval (R := Intercepts) (fun _ _ => True)
    (fun β op now c _ => ⟨?_, trivial⟩) trivial heval).1
  · obtain ⟨⟨op, answer⟩, hmem, hop⟩ := List.any_eq_true.mp hrequest
    obtain ⟨later, earlier, rfl⟩ := List.append_of_mem hmem
    cases op with
    | other op => contradiction
    | client op =>
        cases op with
        | request params rpc =>
            obtain ⟨htenant, _, _, hversion, hheaders, _⟩ := requests_addressed hr
            exact ⟨_, rpc, params, htenant, hversion,
              (hheaders "X-Team" (by decide)).trans (by decide),
              (hheaders "Authorization" (by decide)).trans (by decide)⟩
        | _ => contradiction
  · cases op with
    | other op => trivial
    | client op => cases op <;> first | rfl | trivial

end A2a
