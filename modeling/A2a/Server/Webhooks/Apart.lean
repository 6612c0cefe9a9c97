import A2a.Server.Webhooks.Replay

/-!
# A2a.Server.Webhooks.Apart

Webhooks keep apart: from the executions they are told of, and from each
other.
-/

namespace A2a

variable {h : Handler} {s s' : Server} {a : Action} {i : Nat}

/-! ## the push of one thread -/

/-- A thread in a push is not dropped. -/
theorem Thread.drop_of_push {t : Thread} {push : TaskId × StreamResponse × PushPc}
    (hpush : t.push = some push) (s : Server) (i : Nat) : s.exec i t.drop = none := by
  cases t with
  | send call pc => cases hpush
  | drive d => rfl
  | cancel call pc => rfl
  | subscribe call pc => cases hpush
  | dropped => cases hpush

/-- A thread that was just spawned is in no push. -/
theorem push_spawned {t : Thread} {cmd : Cmd} {s₁ : Server} {b : cmd.β} {j : Nat}
    (hruns : s.runs h a j t cmd) (hran : s.Ran j cmd s' s₁ b) {t' : Thread}
    (ht' : t' ∈ (cmd.resume b).2) : t'.push = none := by
  have hcontinues := hran.post hruns.continues
  obtain ⟨call, prepared, x, _, hdriver⟩ := hcontinues.spawned ht'
  rw [hdriver]
  rfl

/-- What an action that is no step of a push does to the push of a thread:
nothing, or the thread begins one, or it ends one. -/
theorem push_cases (hs : Server.step h s a = some s') (hpushes : s.pushes a = false) (i : Nat) :
    s'.threads[i]?.bind Thread.push = s.threads[i]?.bind Thread.push ∨
      (s.threads[i]?.bind Thread.push = none ∧
        ∃ id event, s'.threads[i]?.bind Thread.push = some (id, event, .list)) ∨
      ∃ id event, s.threads[i]?.bind Thread.push = some (id, event, .send []) ∧
        s'.threads[i]?.bind Thread.push = none := by
  rcases step_cases hs with ⟨request, _, hs'⟩ | ⟨j, t, cmd, s₁, b, hruns, hran⟩
  · left
    rw [hs']
    by_cases hi : i < s.threads.length
    · rw [List.getElem?_append_left hi]
    · have hnone : s.threads[i]? = none := List.getElem?_eq_none (by omega)
      rw [hnone, List.getElem?_append_right (by omega)]
      cases i - s.threads.length with
      | zero =>
          cases request with
          | send call => rfl
          | cancel call => rfl
          | subscribe call => rfl
      | succ k => rfl
  · by_cases hj : j = i
    · rw [hj] at hruns hran
      have hafter := hran.getElem_self hruns.1
      rw [hruns.1, hafter, Option.bind_some, Option.bind_some]
      cases hpush : t.push with
      | none =>
          have henters := hran.post (hruns.enters hpush)
          cases hnext : (cmd.resume b).1.push with
          | none => exact Or.inl rfl
          | some push =>
              obtain ⟨id, event, pc⟩ := push
              rw [henters id event pc hnext]
              exact Or.inr (Or.inl ⟨rfl, id, event, rfl⟩)
      | some push =>
          obtain ⟨id, event, pc⟩ := push
          obtain ⟨hi, ⟨inp, ha, hcmd⟩ | ⟨ha, hcmd⟩⟩ := hruns
          · have hquiet : t.pushes = false := by
              rw [ha] at hpushes
              simp only [Server.pushes, hi, Option.any_some] at hpushes
              exact hpushes
            obtain _ | _ | ⟨config, rest⟩ := pc
            · simp only [Thread.pushes, hpush] at hquiet
              cases hquiet
            · right
              right
              refine ⟨id, event, rfl, ?_⟩
              rw [t.next_of_push h inp hpush] at hcmd
              subst hcmd
              exact t.push_afterPush inp hpush
            · simp only [Thread.pushes, hpush] at hquiet
              cases hquiet
          · exfalso
            rw [ha] at hs
            simp only [Server.step, hi, Option.bind_some] at hs
            rw [t.drop_of_push hpush] at hs
            cases hs
    · left
      cases hi : s.threads[i]? with
      | some t' => rw [hran.getElem_other (Ne.symm hj) hi]
      | none =>
          cases hi' : s'.threads[i]? with
          | none => rfl
          | some t' =>
              rcases hran.thread_cases hi' with ⟨hk, _⟩ | ⟨_, hold⟩ | ⟨_, hnew⟩
              · exact absurd hk.symm hj
              · rw [hi] at hold
                cases hold
              · exact push_spawned hruns hran hnew

/-! ## what one configuration is sent -/

/-- Only a step of a push sends. -/
theorem sends_of_not_pushes (hpushes : s.pushes a = false) (i : Nat)
    (config : TaskPushNotificationConfig) : s.sends i config a = [] := by
  have hdelivery : s.delivery a = none := by
    cases a with
    | call request => rfl
    | drop j => rfl
    | step j inp =>
        simp only [Server.pushes] at hpushes
        simp only [Server.delivery]
        cases hj : s.threads[j]? with
        | none => rfl
        | some t =>
            rw [hj, Option.any_some] at hpushes
            rw [Option.bind_some]
            cases hpush : t.push with
            | none => rfl
            | some push =>
                obtain ⟨id, event, pc⟩ := push
                obtain _ | _ | ⟨next, rest⟩ := pc
                · rfl
                · rfl
                · simp only [Thread.pushes, hpush] at hpushes
                  cases hpushes
  cases a with
  | call request => rfl
  | drop j => rfl
  | step j inp => simp only [Server.sends, hdelivery]

/-- Where a thread is with a configuration: it has sent it all events it
applied but the one it is pushing, and has that one to send once at most. -/
structure Keeps (h : Handler) (i : Nat) (config : TaskPushNotificationConfig)
    (tr : List (Server × Action)) (s : Server) : Prop where
  applied : appliedBy h i tr = sentTo i config tr ++ awaiting config s.threads[i]?
  once : ∀ id event rest, s.threads[i]?.bind Thread.push = some (id, event, .send rest) →
    rest.count config ≤ 1

variable {config : TaskPushNotificationConfig} {tr : List (Server × Action)}

theorem appliedBy_snoc (tr : List (Server × Action)) (hs : Server.step h s a = some s') :
    appliedBy h i (tr ++ [(s, a)]) = appliedBy h i tr ++ begun i s s' := by
  rw [appliedBy, List.flatMap_append, List.flatMap_singleton, hs]
  rfl

theorem sentTo_snoc (i : Nat) (config : TaskPushNotificationConfig) (tr : List (Server × Action))
    (s : Server) (a : Action) :
    sentTo i config (tr ++ [(s, a)]) = sentTo i config tr ++ s.sends i config a := by
  rw [sentTo, List.flatMap_append, List.flatMap_singleton]
  rfl

/-- Actions that are no steps of a push keep it so. -/
theorem Keeps.other (hk : Keeps h i config tr s) (hs : Server.step h s a = some s')
    (hpushes : s.pushes a = false) : Keeps h i config (tr ++ [(s, a)]) s' := by
  have hbefore := hk.applied
  have hafter : appliedBy h i (tr ++ [(s, a)]) =
      sentTo i config tr ++ (awaiting config s.threads[i]? ++ begun i s s') := by
    rw [appliedBy_snoc tr hs, hbefore, List.append_assoc]
  have hsent : sentTo i config (tr ++ [(s, a)]) = sentTo i config tr := by
    rw [sentTo_snoc, sends_of_not_pushes hpushes, List.append_nil]
  rcases push_cases hs hpushes i with hsame | ⟨hnone, id, event, hlist⟩ | ⟨id, event, hend, hnone⟩
  · constructor
    · rw [hafter, hsent, awaiting, awaiting, begun, hsame]
      cases s.threads[i]?.bind Thread.push with
      | none => rfl
      | some push => rw [List.append_nil]
    · rw [hsame]
      exact hk.once
  · constructor
    · rw [hafter, hsent, awaiting, awaiting, begun, hnone, hlist]
      rfl
    · intro id' event' rest hsend
      rw [hlist] at hsend
      cases hsend
  · constructor
    · rw [hafter, hsent, awaiting, awaiting, begun, hend, hnone, List.append_nil]
      exact congrArg (sentTo i config tr ++ ·) (if_neg List.not_mem_nil)
    · intro id' event' rest hsend
      rw [hnone] at hsend
      cases hsend

/-- So do the steps of a push: the listing finds the configuration, and it is
sent to once. -/
theorem Keeps.push {j : Nat} {inp : Input} {t : Thread} {id : TaskId} {event : StreamResponse}
    {pc pc' : PushPc} (hk : Keeps h i config tr s) (hs : Server.step h s (.step j inp) = some s')
    (hp : PushStep s s' j inp t id event pc pc') (hlists : Lists i config s (.step j inp)) :
    Keeps h i config (tr ++ [(s, .step j inp)]) s' := by
  have hbefore := hk.applied
  have hafter : appliedBy h i (tr ++ [(s, .step j inp)]) =
      sentTo i config tr ++ awaiting config s.threads[i]? := by
    rw [appliedBy_snoc tr hs, hp.begun, List.append_nil, hbefore]
  have hpushes : s.threads[j]?.bind Thread.push = some (id, event, pc) := by
    rw [hp.thread]
    exact hp.push
  by_cases hj : j = i
  · rw [hj] at hp hpushes hlists hafter ⊢
    have hpushes' : s'.threads[i]?.bind Thread.push = some (id, event, pc') := by
      rw [hp.getElem?, if_pos rfl, Option.bind_some, t.push_atPush, hp.push]
      rfl
    rcases hp.moves with ⟨hpc, hpc'⟩ | ⟨next, rest, hpc, hpc'⟩
    · have hdelivery : s.delivery (.step i inp) = none := by
        simp only [Server.delivery, hpushes, hpc]
      have hsends : s.sends i config (.step i inp) = [] := by
        simp only [Server.sends, hdelivery]
      rw [hpc] at hpushes
      rw [hpc'] at hpushes'
      have hcount := hlists inp id event rfl hpushes
      have hmem : config ∈ inp.configs := List.count_pos_iff.mp (by omega)
      constructor
      · rw [hafter, sentTo_snoc, hsends, List.append_nil, awaiting, awaiting, hpushes, hpushes']
        exact congrArg (sentTo i config tr ++ ·) (if_pos hmem).symm
      · intro id' event' configs hsend
        rw [hpushes'] at hsend
        cases hsend
        omega
    · have hdelivery : s.delivery (.step i inp) = some (next, event, inp.push) := by
        simp only [Server.delivery, hpushes, hpc]
      rw [hpc] at hpushes
      rw [hpc'] at hpushes'
      have honce := hk.once id event (next :: rest) hpushes
      constructor
      · rw [hafter, sentTo_snoc, awaiting, awaiting, hpushes, hpushes', List.append_assoc]
        simp only [Server.sends, hdelivery, true_and]
        by_cases hnext : next = config
        · rw [hnext, List.count_cons_self] at honce
          have hrest : config ∉ rest := List.count_eq_zero.mp (by omega)
          rw [if_pos hnext, hnext, if_pos List.mem_cons_self, if_neg hrest, List.append_nil]
        · have hmem : config ∈ next :: rest ↔ config ∈ rest := by
            rw [List.mem_cons, or_iff_right (Ne.symm hnext)]
          rw [if_neg hnext, List.nil_append]
          simp only [hmem]
      · intro id' event' configs hsend
        rw [hpushes'] at hsend
        cases hsend
        exact Nat.le_trans (List.Sublist.count_le config (List.sublist_cons_self next rest)) honce
  · have hsends : s.sends i config (.step j inp) = [] := by
      simp only [Server.sends]
      cases s.delivery (.step j inp) with
      | none => rfl
      | some delivery => exact if_neg fun hboth => hj hboth.1
    have hthread : s'.threads[i]? = s.threads[i]? := by
      rw [hp.getElem?, if_neg hj]
    constructor
    · rw [hafter, sentTo_snoc, hsends, List.append_nil, hthread]
    · rw [hthread]
      exact hk.once

/-- **A configuration is sent every event its thread applies, once and in
order**, but for the one being pushed. -/
theorem keeps_run {s₀ : Server} (hr : (serverMachine h).Run s₀ tr s)
    (hok : Machine.Guarded Succeeds tr) (hlists : Machine.Guarded (Lists i config) tr)
    (hfree : s₀.threads[i]?.bind Thread.push = none) : Keeps h i config tr s := by
  have hboth : Machine.Guarded (fun s a => Succeeds s a ∧ Lists i config s a) tr :=
    fun p hp => ⟨hok p hp, hlists p hp⟩
  have hstart : Keeps h i config [] s₀ := by
    constructor
    · rw [awaiting, hfree]
      rfl
    · intro id event rest hsend
      rw [hfree] at hsend
      cases hsend
  refine hr.guarded (I := Keeps h i config) hstart ?_ hboth
  intro tr s a s' hk hstep hs
  cases hpushes : s.pushes a with
  | false => exact hk.other hs hpushes
  | true =>
      cases a with
      | step j inp =>
          obtain ⟨t, id, event, pc, pc', hp⟩ := step_pushes hpushes hstep.1 hs
          exact hk.push hs hp hstep.2
      | call request => cases hpushes
      | drop j => cases hpushes

/-! ## deliveries that do not fail -/

/-- A configuration that passes the checks fails no delivery unless failures
abort. -/
theorem sendPush_ok {sender : HttpPushSender} (hoff : sender.failOnError = false) {urls : UrlParser}
    {toVec : StreamResponse → Except String (List UInt8)} {config : TaskPushNotificationConfig}
    (hcheck : sender.check urls config = .ok ()) (event : StreamResponse) (answer : PushAnswer) :
    (sender.sendPush urls toVec config event answer).2 = .ok () := by
  have hhandled : ∀ msg, sender.handleError msg = .ok () := by
    intro msg
    rw [HttpPushSender.handleError, if_neg (by rw [hoff]; exact Bool.false_ne_true)]
  unfold HttpPushSender.sendPush
  rw [hcheck]
  dsimp only
  cases toVec event with
  | error error => exact hhandled _
  | ok body =>
      cases answer with
      | failed error => exact hhandled _
      | status code text =>
          dsimp only
          by_cases hsuccess : 200 ≤ code ∧ code < 300
          · rw [if_pos hsuccess]
          · rw [if_neg hsuccess]
            exact hhandled _

variable {sender : HttpPushSender} {urls : UrlParser}
  {toVec : StreamResponse → Except String (List UInt8)}

theorem succeeds_of_passes (hoff : sender.failOnError = false)
    (hanswers : Machine.Guarded (Answers sender urls toVec) tr)
    (hpasses : Machine.Guarded (Passes sender urls) tr) : Machine.Guarded Succeeds tr := by
  intro p hp config event outcome hdelivery
  obtain ⟨answer, houtcome⟩ := hanswers p hp config event outcome hdelivery
  rw [houtcome]
  exact sendPush_ok hoff (hpasses p hp config event outcome hdelivery) event answer

/-- **Webhooks keep apart.**  With `fail_on_error` off, take two runs that
differ only in the configurations registered, all of which pass the checks of
`send_push`, and in what the webhooks answer.  They leave the same server but
for the webhooks: the same stored tasks, events published and results.  A
thread applies the same events in both, and a configuration that is listed
throughout is sent each of them, once and in order. -/
theorem webhooks_apart {s₁ s₂ s₁' s₂' : Server} {tr₁ tr₂ : List (Server × Action)}
    (hoff : sender.failOnError = false)
    (hr₁ : (serverMachine h).Run s₁ tr₁ s₁') (hr₂ : (serverMachine h).Run s₂ tr₂ s₂')
    (ha₁ : Machine.Guarded (Answers sender urls toVec) tr₁)
    (ha₂ : Machine.Guarded (Answers sender urls toVec) tr₂)
    (hp₁ : Machine.Guarded (Passes sender urls) tr₁)
    (hp₂ : Machine.Guarded (Passes sender urls) tr₂)
    (hstart : s₁.unpushed = s₂.unpushed) (hrest : unpushedRun h tr₁ = unpushedRun h tr₂) :
    s₁'.unpushed = s₂'.unpushed ∧
      ∀ i, appliedBy h i tr₁ = appliedBy h i tr₂ ∧
        (s₁.threads[i]?.bind Thread.push = none → ∀ config, Machine.Guarded (Lists i config) tr₁ →
          appliedBy h i tr₁ = sentTo i config tr₁ ++ awaiting config s₁'.threads[i]?) := by
  have hok₁ := succeeds_of_passes hoff ha₁ hp₁
  have hok₂ := succeeds_of_passes hoff ha₂ hp₂
  have hsame : ∀ i, (s₁'.unpushed, appliedBy h i tr₁) = (s₂'.unpushed, appliedBy h i tr₂) := by
    intro i
    have hreplay₁ := replay_run i hr₁ hok₁
    have hreplay₂ := replay_run i hr₂ hok₂
    rw [hstart, hrest, hreplay₂] at hreplay₁
    exact (Option.some.inj hreplay₁).symm
  constructor
  · exact (Prod.mk.inj (hsame 0)).1
  · intro i
    refine ⟨(Prod.mk.inj (hsame i)).2, ?_⟩
    intro hfree config hlists
    exact (keeps_run hr₁ hok₁ hlists hfree).applied

/-! ## two webhooks -/

/-- A webhook that passes the checks, and one whose token does not. -/
def callback : TaskPushNotificationConfig :=
  ⟨"https://example.com/callback", some "w", "t", none, none, none⟩
def brokenCallback : TaskPushNotificationConfig := { callback with token := some "a\nb" }

def callbackUrl : UrlParser :=
  .ofUrls [⟨"https://example.com/callback", "https", some "example.com"⟩]

/-- The sender as it is by default, but for its timeout. -/
def defaultSender : HttpPushSender := ⟨false, true⟩

/-- A server over a task that awaits input, with a store of configurations. -/
def overseenBy (store : InMemoryPushConfigStore) : Server :=
  .new (.holding (makeTask "t" "c" .inputRequired)) (some store) true

/-- The store that has saved one configuration. -/
def savedOnly (config : TaskPushNotificationConfig) : InMemoryPushConfigStore :=
  ((InMemoryPushConfigStore.mk ∅).save "w" config).2

/-- A turn whose executor works and completes. -/
def turn : Input :=
  .emitting [.ok (.statusUpdate ⟨"t", "c", ⟨.working, none, none⟩, none⟩),
    .ok (.statusUpdate ⟨"t", "c", ⟨.completed, none, none⟩, none⟩)]

/-- What the listing of one configuration takes, and a delivery. -/
def Input.listing (inp : Input) (config : TaskPushNotificationConfig) : Input :=
  { inp with configs := [config] }
def Input.delivering (inp : Input) (outcome : Except A2AError Unit) : Input :=
  { inp with push := outcome }

/-- A send that starts a driver. -/
def sendTurn : List Action :=
  .call (.send (.continuing "t" "m")) :: List.replicate 4 (.step 0 turn)

/-- The driver alone: both events are applied, pushed to nobody, and
published. -/
def unheard : List Action := sendTurn ++ List.replicate 16 (.step 1 turn)

/-- The same turn with a webhook. -/
def heard : List Action :=
  let push : List Action := [.step 1 (turn.listing callback), .step 1 turn, .step 1 turn]
  sendTurn ++ List.replicate 3 (.step 1 turn) ++ push ++ List.replicate 5 (.step 1 turn) ++ push ++
    List.replicate 4 (.step 1 turn)

/-- What the two have in common. -/
def bothRuns : List Action := sendTurn ++ List.replicate 14 (.step 1 turn)

/-- The outcome of the check that fails. -/
def tokenRefused : Except A2AError Unit :=
  .error (.invalidParams "push notification token must not contain CR/LF")

/-- The same turn with the webhook that does not pass. -/
def misheard : List Action :=
  let push : List Action :=
    [.step 1 (turn.listing brokenCallback), .step 1 (turn.delivering tokenRefused)]
  sendTurn ++ List.replicate 3 (.step 1 turn) ++ push ++ [.step 1 turn] ++ push ++
    List.replicate 4 (.step 1 turn)

/-- The configurations sent to over a run. -/
def recipients (tr : List (Server × Action)) : List (TaskPushNotificationConfig × Bool) :=
  tr.filterMap fun p => (p.1.delivery p.2).map fun delivery => (delivery.1, delivery.2.2.isOk)

theorem mem_recipients {p : Server × Action} (hp : p ∈ tr) {config : TaskPushNotificationConfig}
    {event : StreamResponse} {outcome : Except A2AError Unit}
    (hdelivery : p.1.delivery p.2 = some (config, event, outcome)) :
    (config, outcome.isOk) ∈ recipients tr := by
  refine List.mem_filterMap.mpr ⟨p, hp, ?_⟩
  rw [hdelivery]
  rfl

/-- A run that sends to one configuration only, and always with success. -/
theorem answers_of_recipients {urls : UrlParser} (hcheck : defaultSender.check urls config = .ok ())
    (toVec : StreamResponse → Except String (List UInt8))
    (h : ∀ r ∈ recipients tr, r = (config, true)) :
    Machine.Guarded (Answers defaultSender urls toVec) tr ∧
      Machine.Guarded (Passes defaultSender urls) tr := by
  have hone : ∀ p ∈ tr, ∀ next event outcome, p.1.delivery p.2 = some (next, event, outcome) →
      next = config ∧ outcome = .ok () := by
    intro p hp next event outcome hdelivery
    obtain ⟨hnext, houtcome⟩ := Prod.mk.inj (h _ (mem_recipients hp hdelivery))
    refine ⟨hnext, ?_⟩
    cases outcome with
    | ok _ => rfl
    | error error => cases houtcome
  constructor
  · intro p hp next event outcome hdelivery
    obtain ⟨hnext, houtcome⟩ := hone p hp next event outcome hdelivery
    rw [hnext, houtcome]
    exact ⟨.status 200 "200 OK", (sendPush_ok rfl hcheck event _).symm⟩
  · intro p hp next event outcome hdelivery
    rw [(hone p hp next event outcome hdelivery).1]
    exact hcheck

theorem callback_passes : defaultSender.check callbackUrl callback = .ok () := rfl

/-- With a webhook, two updates are delivered to it, and the server is the
same as without. -/
theorem webhooks_apart_callback :
    ∃ tr₁ s₁ tr₂ s₂, (serverMachine .new).Run (overseenBy (savedOnly callback)) tr₁ s₁ ∧
      (serverMachine .new).Run (overseenBy ⟨∅⟩) tr₂ s₂ ∧ (sentTo 1 callback tr₁).length = 2 ∧
      s₁.unpushed = s₂.unpushed := by
  have hx₁ : ((serverMachine .new).exec (overseenBy (savedOnly callback)) heard).map (fun p =>
      (recipients p.1, (sentTo 1 callback p.1).length, unpushedRun .new p.1)) =
        some ([(callback, true), (callback, true)], 2, bothRuns.map fun a => (a, none)) := rfl
  have hx₂ : ((serverMachine .new).exec (overseenBy ⟨∅⟩) unheard).map (fun p =>
      (recipients p.1, unpushedRun .new p.1)) = some ([], bothRuns.map fun a => (a, none)) := rfl
  obtain ⟨⟨tr₁, s₁⟩, hexec₁, hrun₁⟩ := Option.map_eq_some_iff.mp hx₁
  obtain ⟨⟨tr₂, s₂⟩, hexec₂, hrun₂⟩ := Option.map_eq_some_iff.mp hx₂
  obtain ⟨hto₁, hrest⟩ := Prod.mk.inj hrun₁
  obtain ⟨hsent, hrest₁⟩ := Prod.mk.inj hrest
  obtain ⟨hto₂, hrest₂⟩ := Prod.mk.inj hrun₂
  have hr₁ := Machine.run_of_exec hexec₁
  have hr₂ := Machine.run_of_exec hexec₂
  have hall₁ : ∀ r ∈ recipients tr₁, r = (callback, true) := by
    intro r hr
    rw [hto₁] at hr
    simpa using hr
  have hall₂ : ∀ r ∈ recipients tr₂, r = (callback, true) := by
    intro r hr
    rw [hto₂] at hr
    cases hr
  have hd₁ := answers_of_recipients callback_passes (fun _ => .ok []) hall₁
  have hd₂ := answers_of_recipients callback_passes (fun _ => .ok []) hall₂
  have happart := webhooks_apart rfl hr₁ hr₂ hd₁.1 hd₂.1 hd₁.2 hd₂.2 rfl
    (hrest₁.trans hrest₂.symm)
  exact ⟨tr₁, s₁, tr₂, s₂, hr₁, hr₂, hsent, happart.1⟩

/-- The push of an event to a configuration that does not pass is refused. -/
theorem brokenCallback_refused (event : StreamResponse) (answer : PushAnswer) :
    (defaultSender.sendPush callbackUrl (fun _ => .ok []) brokenCallback event answer).2 =
      tokenRefused := rfl

/-- A webhook whose token does not pass is saved, and the same turn leaves its
task FAILED that is COMPLETED without the webhook. -/
theorem brokenCallback_fails :
    defaultSender.failOnError = false ∧
      (∃ saved, ((InMemoryPushConfigStore.mk ∅).save "w" brokenCallback).1 = .ok saved) ∧
      (overseenBy (savedOnly brokenCallback)).unpushed = (overseenBy ⟨∅⟩).unpushed ∧
      ∃ tr₁ s₁ tr₂ s₂,
        (serverMachine .new).exec (overseenBy (savedOnly brokenCallback)) misheard = some (tr₁, s₁) ∧
        (serverMachine .new).exec (overseenBy ⟨∅⟩) unheard = some (tr₂, s₂) ∧
        Machine.Guarded (Answers defaultSender callbackUrl fun _ => .ok []) tr₁ ∧
        Machine.Guarded (Answers defaultSender callbackUrl fun _ => .ok []) tr₂ ∧
        (s₁.taskStore.get "t").map (·.status.state) = some .failed ∧
        (s₂.taskStore.get "t").map (·.status.state) = some .completed ∧
        s₁.unpushed ≠ s₂.unpushed := by
  have hx₁ : ((serverMachine .new).exec (overseenBy (savedOnly brokenCallback)) misheard).map
      (fun p => ((p.1.filterMap fun p => p.1.delivery p.2).map fun d => (d.1, d.2.2),
        (p.2.taskStore.get "t").map (·.status.state))) =
        some ([(brokenCallback, tokenRefused), (brokenCallback, tokenRefused)], some .failed) := rfl
  have hx₂ : ((serverMachine .new).exec (overseenBy ⟨∅⟩) unheard).map (fun p =>
      (recipients p.1, (p.2.taskStore.get "t").map (·.status.state))) =
        some ([], some .completed) := rfl
  obtain ⟨⟨tr₁, s₁⟩, hexec₁, hrun₁⟩ := Option.map_eq_some_iff.mp hx₁
  obtain ⟨⟨tr₂, s₂⟩, hexec₂, hrun₂⟩ := Option.map_eq_some_iff.mp hx₂
  obtain ⟨hto₁, hstate₁⟩ := Prod.mk.inj hrun₁
  obtain ⟨hto₂, hstate₂⟩ := Prod.mk.inj hrun₂
  refine ⟨rfl, ⟨_, rfl⟩, rfl, tr₁, s₁, tr₂, s₂, hexec₁, hexec₂, ?_, ?_, hstate₁, hstate₂, ?_⟩
  · intro p hp config event outcome hdelivery
    have hmem : (config, outcome) ∈
        (tr₁.filterMap fun p => p.1.delivery p.2).map fun d => (d.1, d.2.2) :=
      List.mem_map.mpr ⟨_, List.mem_filterMap.mpr ⟨p, hp, hdelivery⟩, rfl⟩
    have hlist : (config, outcome) ∈
        [(brokenCallback, tokenRefused), (brokenCallback, tokenRefused)] := by
      rw [← hto₁]
      exact hmem
    have heq : (config, outcome) = (brokenCallback, tokenRefused) := by simpa using hlist
    cases heq
    exact ⟨.failed "", (brokenCallback_refused event _).symm⟩
  · intro p hp config event outcome hdelivery
    have hmem := mem_recipients hp hdelivery
    have hnone : recipients tr₂ = [] := hto₂
    rw [hnone] at hmem
    cases hmem
  · intro hsame
    have hstore : s₁.taskStore = s₂.taskStore := congrArg (fun s => s.taskStore) hsame
    have hs₁ : (s₁.taskStore.get "t").map (·.status.state) = some .failed := hstate₁
    have hs₂ : (s₂.taskStore.get "t").map (·.status.state) = some .completed := hstate₂
    rw [hstore, hs₂] at hs₁
    cases hs₁

end A2a
