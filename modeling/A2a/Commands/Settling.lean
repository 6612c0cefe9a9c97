import A2a.Commands.Kinds
import A2a.Commands.Release

/-!
# A2a.Commands.Settling

The commands that wait for a task to settle: what they spend on it
(`polling_bounded`), and what they end with (`waiting_settles`).

The clock of the environment does not go back, and a `sleep` lasts at least
as long as it was asked to.
-/

namespace A2a

open Step Cli

variable {R : List (Exchange CliOp) → Prop} {h h' : List (Exchange CliOp)} {α β : Type}
  {floatText : UInt64 → String} {cli : Cli} {saver : Option String} {value : TextResponse}
  {A : Exchange CliOp → Prop} {C : List (Exchange CliOp) → Prop}

/-! ## prompt commands -/

/-- A question for a task, or a wait. -/
def CliOp.isWait : CliOp β → Bool
  | .call (.getTask _) | .sleep _ => true
  | _ => false

/-- A step that neither polls nor sleeps. -/
abbrev Step.IsPrompt (step : Step α) : Prop := step.Only fun e => e.op.isWait = false

/-- What neither calls the agent nor sleeps waits for nothing. -/
theorem Step.IsLocal.isPrompt {step : Step α} (hstep : step.IsLocal) : step.IsPrompt := by
  refine Program.Asks.mono hstep fun e he => ?_
  obtain ⟨op, answer⟩ := e
  cases op <;> first | rfl | contradiction

/-- Nor does what only writes. -/
theorem Step.Writes.isPrompt {step : Step α} (hstep : step.Writes) : step.IsPrompt :=
  hstep.isLocal.isPrompt

/-- A command of one call does not wait, unless the call asks for a task. -/
theorem callOnce_isPrompt {rpc : Rpc β} (hrpc : CliOp.isWait (.call rpc) = false) :
    (callOnce rpc).IsPrompt :=
  .bind (.perform fun _ => hrpc) fun result => (finishClientCall_isLocal result).isPrompt

/-- Nor does `card get`. -/
theorem runCardGet_isPrompt (extended validate : Bool) :
    (runCardGet floatText cli extended validate).IsPrompt := by
  have hprint : ∀ card, (do
      (if validate then validateCardOrFail else pure ())
      printOutput floatText cli (.card card) : Step Unit).IsPrompt := by
    intro card
    refine .bind ?_ fun _ => (printOutput_writes _).isPrompt
    split
    · exact validateCardOrFail_isLocal.isPrompt
    · exact .pure _
  unfold runCardGet
  split
  · refine .bind resolveClientStep_isLocal.isPrompt fun declared => ?_
    exact .bind (require_isLocal _ _).isPrompt fun _ => .bind (callOnce_isPrompt rfl) hprint
  · exact .bind (.attempt fun _ => rfl) hprint

/-- Nor do the commands of push configurations. -/
theorem runPushConfig_isPrompt {rpc : Except CommandError (Rpc β)} {response : β → TextResponse}
    (hrpc : ∀ call, rpc = .ok call → CliOp.isWait (.call call) = false) :
    (runPushConfig floatText cli rpc response).IsPrompt := by
  refine .bind resolveClientStep_isLocal.isPrompt fun declared => .bind (require_isLocal _ _).isPrompt fun _ => ?_
  cases rpc with
  | error error => exact .throw error
  | ok call =>
      have hcall : (callOnce call >>= fun result =>
          printOutput floatText cli (response result)).IsPrompt :=
        .bind (callOnce_isPrompt (hrpc call rfl)) fun _ => (printOutput_writes _).isPrompt
      exact hcall

/-! ## the clock -/

/-- The earliest it can be, by the last reading and the time slept since. -/
def clock : List (Exchange CliOp) → Nat
  | [] => 0
  | ⟨.now, now⟩ :: _ => now
  | ⟨.sleep duration, _⟩ :: h => clock h + duration
  | _ :: h => clock h

/-- The clock does not go back, and a sleep lasts as long as it was asked to. -/
def OnTime : List (Exchange CliOp) → Prop
  | ⟨.now, now⟩ :: h => clock h ≤ now
  | _ => True

/-! ## polls and sleeps -/

/-- A poll costs one. -/
def polled : Exchange CliOp → Nat
  | ⟨.call (.getTask _), _⟩ => 1
  | _ => 0

/-- A sleep costs its duration. -/
def slept : Exchange CliOp → Nat
  | ⟨.sleep duration, _⟩ => duration
  | _ => 0

open Program in
/-- **Waiting for a task to settle** takes no more polls than intervals fit in
the timeout, and two, and sleeps no longer than the timeout. -/
theorem waitForTaskSettled_bounded (hinterval : 0 < cli.pollInterval) (taskId : TaskId)
    (tenant : Option String) (h : List (Exchange CliOp)) :
    (waitForTaskSettled cli taskId tenant).run.Ensures OnTime
      (fun h' => spent polled h' ≤ spent polled h + (cli.timeout / cli.pollInterval + 2) ∧
        spent slept h' ≤ spent slept h + cli.timeout) h fun _ _ => True := by
  have hfits : ∀ k, k * cli.pollInterval ≤ cli.timeout → k ≤ cli.timeout / cli.pollInterval :=
    fun k => (Nat.le_div_iff_mul_le hinterval).mpr
  generalize cli.timeout / cli.pollInterval = most at hfits ⊢
  refine ensures_bindExcept (ensures_perform (by omega) fun start _ => ⟨?_, ?_⟩)
  · simp [spent, polled, slept]
  -- after `k` polls and sleeps, either each took an interval or the time is over
  refine ensures_iterate (fun _ h' => ∃ k total, spent polled h' = spent polled h + k ∧
    spent slept h' = spent slept h + total ∧ start + total ≤ clock h' ∧ total ≤ cli.timeout ∧
      k ≤ most + 1 ∧ (total = k * cli.pollInterval ∨ start + cli.timeout ≤ clock h')) ?_ ?_
  · exact ⟨0, 0, by simp [spent, polled], by simp [spent, slept], by simp [clock], by omega,
      by omega, .inl (by simp)⟩
  rintro _ h₁ ⟨k, total, hpolled, hslept, hclock, htotal, hk, hwhole⟩
  refine ensures_bindExcept (ensures_attempt (by omega) fun answer _ => ⟨?_, ?_⟩)
  · simp only [spent, polled, slept]
    omega
  cases answer with
  | error error => trivial
  | ok task =>
      simp only [Except.mapError, onResult]
      split
      · refine ensures_pure ?_ trivial
        simp only [spent, polled, slept]
        omega
      · refine ensures_bindExcept (ensures_perform ?_ fun now hnow => ⟨?_, ?_⟩)
        · simp only [spent, polled, slept]
          omega
        · simp only [spent, polled, slept]
          omega
        simp only [onResult]
        split
        · refine ensures_throw ?_ trivial
          simp only [spent, polled, slept]
          omega
        next hearly =>
          have hlate : clock h₁ ≤ now := hnow
          have heach : total = k * cli.pollInterval := by
            rcases hwhole with heach | hover
            · exact heach
            · omega
          have hmost : k ≤ most := hfits k (by omega)
          refine ensures_bindExcept (ensures_perform ?_ fun _ _ => ⟨?_, ?_⟩)
          · simp only [spent, polled, slept]
            omega
          · simp only [spent, polled, slept]
            omega
          refine ensures_pure ?_ ?_
          · simp only [spent, polled, slept]
            omega
          · refine ⟨k + 1, total + min cli.pollInterval (start + cli.timeout - now), ?_⟩
            simp only [spent, polled, slept, clock]
            rw [Nat.succ_mul]
            omega

/-! ## what a command spends -/

/-- A step spends at most `n`. -/
def Step.Spends (cost : Exchange CliOp → Nat) (n : Nat) (step : Step α) : Prop :=
  step.run.Within OnTime cost n

section spends

variable {cost : Exchange CliOp → Nat} {m n : Nat}

/-- What two steps spend adds up. -/
theorem Step.Spends.bind {step : Step α} {f : α → Step β} (hstep : step.Spends cost m)
    (hf : ∀ a, (f a).Spends cost n) : (step >>= f).Spends cost (m + n) := by
  refine Program.within_bind hstep ?_
  rintro (error | a)
  · exact Program.within_done _
  · exact hf a

/-- Catching an error spends nothing. -/
theorem Step.Spends.outcome {step : Step α} (hstep : step.Spends cost n) :
    (Step.outcome step).Spends cost n :=
  Program.within_bind (n := 0) hstep fun _ => Program.within_done _

/-- A step whose exchanges cost nothing spends nothing. -/
theorem Step.Only.spends {step : Step α} (hstep : step.Only A) (hA : ∀ e, A e → cost e = 0) :
    step.Spends cost n :=
  Program.Asks.within hstep hA

/-- What comes before a step and spends nothing. -/
theorem Step.Only.bindSpends {step : Step α} {f : α → Step β} (hstep : step.Only A)
    (hA : ∀ e, A e → cost e = 0) (hf : ∀ a, (f a).Spends cost n) : (step >>= f).Spends cost n := by
  have hboth : (step >>= f).Spends cost (0 + n) := .bind (hstep.spends hA) hf
  rwa [Nat.zero_add] at hboth

variable (hprompt : ∀ e : Exchange CliOp, e.op.isWait = false → cost e = 0)
  (hwait : ∀ taskId tenant, (waitForTaskSettled cli taskId tenant).Spends cost n)

include hprompt hwait

/-- Settling a task spends what the wait does. -/
theorem settleTask_spends (task : Task) (wait : Bool) (tenant : Option String) :
    (settleTask cli task wait tenant).Spends cost n := by
  unfold settleTask
  split
  · exact .bind (n := 0) (.outcome (hwait _ _)) fun result =>
      (destroyAfter_isLocal result).isPrompt.spends hprompt
  · exact (destroyAfter_isLocal _).isPrompt.spends hprompt

/-- So does a send that waits. -/
theorem sendAndMaybeWait_spends (request : SendMessageRequest) (tenant : Option String) :
    (sendAndMaybeWait cli request tenant).Spends cost n := by
  have hcall : (Step.perform (.call (.sendMessage request))).IsPrompt := .perform fun _ => rfl
  refine hcall.bindSpends hprompt fun answer => ?_
  rcases answer with error | (task | message)
  · exact (destroyAndFail_isLocal _).isPrompt.spends hprompt
  · have hreturn : ∀ task, (pure (.task task) : Step SendMessageResponse).IsPrompt := fun _ => .pure _
    exact .bind (n := 0) (settleTask_spends hprompt hwait task _ tenant) fun task =>
      (hreturn task).spends hprompt
  · exact (finishClientCall_isLocal (.ok (SendMessageResponse.message message))).isPrompt.spends hprompt

theorem sendAndReport_spends (request : SendMessageRequest) :
    (do
      let response ← sendAndMaybeWait cli request cli.tenant
      report floatText cli saver (.send response) : Step Unit).Spends cost n :=
  .bind (n := 0) (sendAndMaybeWait_spends hprompt hwait request cli.tenant) fun _ =>
    (report_writes saver _).isPrompt.spends hprompt

/-- `send` spends no more, streaming or not. -/
theorem runSend_spends (flags : SendFlags) (parts : Except PartError (List Part)) :
    (runSend floatText cli flags parts).Spends cost n := by
  have hid : (Step.perform .newId).IsPrompt := .perform fun _ => rfl
  have hparts : (Step.ofExcept CommandError.ofPart parts).IsPrompt := .ofExcept parts
  refine hparts.bindSpends hprompt fun parts => ?_
  refine (filePartSaver_isLocal _).isPrompt.bindSpends hprompt fun saver => ?_
  refine resolveClientStep_isLocal.isPrompt.bindSpends hprompt fun declared => ?_
  refine hid.bindSpends hprompt fun messageId => ?_
  have hwarn : (if flags.stream && !declared.declares .streaming then
      perform (.warn ("warning: the agent card does not declare streaming; " ++
        "sending without it and polling for the result instead"))
      else pure () : Step Unit).IsPrompt := by
    split
    · exact .perform fun _ => rfl
    · exact .pure _
  refine hwarn.bindSpends hprompt fun _ => ?_
  split
  · have hstream : ∀ request, (Step.perform (.call (.sendStreamingMessage request))).IsPrompt :=
      fun _ => .perform fun _ => rfl
    refine (hstream _).bindSpends hprompt fun answer => ?_
    cases answer with
    | ok stream => exact (consumeStream_isLocal saver).isPrompt.spends hprompt
    | error error =>
        simp only
        split
        · exact sendAndReport_spends hprompt hwait _
        · exact (destroyAndFail_isLocal _).isPrompt.spends hprompt
  · exact sendAndReport_spends hprompt hwait _

/-- `task get` spends one call more than the wait. -/
theorem runTaskGet_spends (id : TaskId) (historyLength : Option Int) (save : Option String)
    (hget : ∀ answer, cost ⟨.call (.getTask ⟨id, historyLength, cli.tenant⟩), answer⟩ = m) :
    (runTaskGet floatText cli id historyLength save).Spends cost (m + n) := by
  refine (filePartSaver_isLocal _).isPrompt.bindSpends hprompt fun saver => ?_
  refine resolveClientStep_isLocal.isPrompt.bindSpends hprompt fun _ => ?_
  refine .bind (Program.within_ask (n := 0) hget fun _ => Program.within_done _) fun answer => ?_
  cases answer with
  | error error => exact (destroyAndFail_isLocal _).isPrompt.spends hprompt
  | ok task =>
      exact .bind (n := 0) (settleTask_spends hprompt hwait _ _ _) fun task =>
        (report_writes saver _).isPrompt.spends hprompt

end spends

/-- A step without polls. -/
abbrev Step.PollsNothing (step : Step α) : Prop := step.Only fun e => polled e = 0

/-- A question that does not wait is no poll. -/
theorem polled_of_isPrompt {e : Exchange CliOp} (he : e.op.isWait = false) : polled e = 0 := by
  obtain ⟨op, answer⟩ := e
  cases op with
  | call rpc => cases rpc <;> first | rfl | contradiction
  | _ => rfl

/-- Nor does it sleep. -/
theorem slept_of_isPrompt {e : Exchange CliOp} (he : e.op.isWait = false) : slept e = 0 := by
  obtain ⟨op, answer⟩ := e
  cases op <;> first | rfl | contradiction

theorem Step.Only.pollsNothing {step : Step α} (hstep : step.IsPrompt) : step.PollsNothing :=
  Program.Asks.mono hstep fun _ => polled_of_isPrompt

/-- Reconnecting sleeps but does not poll. -/
theorem reconnect_pollsNothing (taskId : TaskId) (tenant : Option String) (deadline : Nat)
    (attempts : UInt32) (cause : String) : (reconnect cli taskId tenant deadline attempts cause).PollsNothing := by
  refine .iterate (fun s => .bind (.perform fun _ => rfl) fun now => ?_) _
  split
  · exact (destroyAndFail_isLocal _).isPrompt.pollsNothing
  · refine .bind (.perform fun _ => rfl) fun _ => .bind (.perform fun _ => rfl) fun _ => ?_
    refine .bind (.perform fun _ => rfl) fun answer => ?_
    cases answer with
    | ok stream => exact .pure _
    | error error => exact .pure _

/-- Nor does a subscription. -/
theorem subscribeResuming_pollsNothing (taskId : TaskId) (tenant : Option String) :
    (subscribeResuming floatText cli saver taskId tenant).PollsNothing := by
  refine .iterate (fun s => .bind (readStream_isLocal _ _).isPrompt.pollsNothing fun read => ?_) _
  split
  · exact .bind (.attempt fun _ => rfl) fun _ => .pure _
  · have hdeadline : (deadlineOf cli read.1.outageDeadline).PollsNothing :=
      (deadlineOf_isLocal read.1.outageDeadline).isPrompt.pollsNothing
    exact .bind hdeadline fun _ => .bind (reconnect_pollsNothing _ _ _ _ _) fun _ => .pure _

theorem runTaskSubscribe_pollsNothing (id : TaskId) (save : Option String) :
    (runTaskSubscribe floatText cli id save).PollsNothing := by
  refine .bind (filePartSaver_isLocal _).isPrompt.pollsNothing fun saver => ?_
  refine .bind resolveClientStep_isLocal.isPrompt.pollsNothing fun declared => ?_
  refine .bind (require_isLocal _ _).isPrompt.pollsNothing fun _ => .bind (.attempt fun _ => rfl) fun _ => ?_
  exact subscribeResuming_pollsNothing id cli.tenant

section run

variable {cost : Exchange CliOp → Nat} {m n : Nat} {parseJson : String → Except String Value}
  {io : Nat → Io}

/-- A command spends what a wait does, and what asking once for a task does. -/
theorem run_spends (hprompt : ∀ e : Exchange CliOp, e.op.isWait = false → cost e = 0)
    (hwait : ∀ taskId tenant, (waitForTaskSettled cli taskId tenant).Spends cost n)
    (hget : ∀ req answer, cost ⟨.call (.getTask req), answer⟩ = m)
    (hsubscribe : ∀ id save, cli.command = .taskSubscribe id save →
      (runTaskSubscribe floatText cli id save).Spends cost (m + n)) :
    (run floatText cli parseJson io).Spends cost (m + n) := by
  have hversion : (Step.ofExcept CommandError.invalidInput
      (validateA2aVersion cli.a2aVersion)).IsPrompt := .ofExcept _
  refine hversion.bindSpends hprompt fun _ => ?_
  split
  next => exact (runCardGet_isPrompt _ _).spends hprompt
  next => exact (runSend_spends hprompt hwait _ _).mono (Nat.le_add_left n m)
  next => exact runTaskGet_spends hprompt hwait _ _ _ (hget _)
  next =>
    refine resolveClientStep_isLocal.isPrompt.bindSpends hprompt fun _ => ?_
    refine (callOnce_isPrompt rfl).bindSpends hprompt fun response => ?_
    exact (printOutput_writes _).isPrompt.spends hprompt
  next =>
    refine resolveClientStep_isLocal.isPrompt.bindSpends hprompt fun _ => ?_
    refine (callOnce_isPrompt rfl).bindSpends hprompt fun task => ?_
    refine (warnOutcome_writes _).isPrompt.bindSpends hprompt fun _ => ?_
    exact (printOutput_writes _).isPrompt.spends hprompt
  next hcommand => exact hsubscribe _ _ hcommand
  next flags _ =>
    refine (runPushConfig_isPrompt fun call hcall => ?_).spends hprompt
    cases hbuilt : buildPushNotificationConfig flags cli.tenant with
    | error error =>
        rw [hbuilt] at hcall
        contradiction
    | ok config =>
        rw [hbuilt] at hcall
        cases hcall
        rfl
  next => exact (runPushConfig_isPrompt fun call hcall => by cases hcall; rfl).spends hprompt
  next => exact (runPushConfig_isPrompt fun call hcall => by cases hcall; rfl).spends hprompt
  next => exact (runPushConfig_isPrompt fun call hcall => by cases hcall; rfl).spends hprompt

/-- **Polling is bounded**: where the clock does not go back and a sleep lasts
as long as it was asked to, no command asks for a task more often than
intervals fit in its timeout, and three times; and but for a subscription it
sleeps no longer than its timeout, in every run, over or not. -/
theorem polling_bounded {r : Option (Except CommandError Unit)} (hinterval : 0 < cli.pollInterval)
    (hr : (run floatText cli parseJson io).run.Runs OnTime [] r h) :
    Program.spent polled h ≤ cli.timeout / cli.pollInterval + 3 ∧
      ((∀ id save, cli.command ≠ .taskSubscribe id save) →
        Program.spent slept h ≤ cli.timeout) := by
  constructor
  · have hpolls : (run floatText cli parseJson io).Spends polled
        (1 + (cli.timeout / cli.pollInterval + 2)) := by
      refine run_spends (fun _ => polled_of_isPrompt) (fun taskId tenant h r h' hr => ?_)
        (fun _ _ => rfl) fun id save _ => ?_
      · exact (waitForTaskSettled_bounded hinterval taskId tenant h r h' hr).1.1
      · exact (runTaskSubscribe_pollsNothing id save).spends fun _ he => he
    have hspent := hpolls [] r h hr
    rw [Program.spent] at hspent
    omega
  · intro hcommand
    have hsleeps : (run floatText cli parseJson io).Spends slept (0 + cli.timeout) := by
      refine run_spends (fun _ => slept_of_isPrompt) (fun taskId tenant h r h' hr => ?_)
        (fun _ _ => rfl) fun id save hsubscribe => absurd hsubscribe (hcommand id save)
      exact (waitForTaskSettled_bounded hinterval taskId tenant h r h' hr).1.2
    have hspent := hsleeps [] r h hr
    rw [Program.spent] at hspent
    omega

end run

/-- The working agent's clock keeps the time. -/
theorem besideWorkingAgent_onTime (β : Type) (op : CliOp β) (now : Nat) (h : List (Exchange CliOp))
    (hnow : clock h ≤ now) : OnTime (⟨op, (besideWorkingAgent op now).1⟩ :: h) ∧
      clock (⟨op, (besideWorkingAgent op now).1⟩ :: h) ≤ (besideWorkingAgent op now).2 := by
  cases op with
  | now => exact ⟨hnow, Nat.le_refl _⟩
  | sleep duration => exact ⟨trivial, Nat.add_le_add_right hnow duration⟩
  | _ => exact ⟨trivial, hnow⟩

/-- It is asked five times. -/
theorem polling_bounded_waiting : ∃ h, Program.spent polled h = 5 ∧
    Program.spent polled h ≤ getAndWait.timeout / getAndWait.pollInterval + 3 ∧
      Program.spent slept h ≤ getAndWait.timeout := by
  have heval : getAndWaitRun.map (fun x => Program.spent polled x.2.2) = some 5 := rfl
  obtain ⟨⟨result, w, h⟩, heval, hpolls⟩ := Option.map_eq_some_iff.mp heval
  have hr := (Program.runs_of_eval (fun now h => clock h ≤ now) besideWorkingAgent_onTime
    (Nat.le_refl 0) heval).1
  obtain ⟨hpolled, hslept⟩ := polling_bounded (by decide) hr
  exact ⟨h, hpolls, hpolled, hslept fun id save hcommand => nomatch hcommand⟩

/-! ## what a wait ends with -/

/-- The task an answer shows. -/
def CliOp.task : {β : Type} → CliOp β → β → Option Task
  | _, .call (.getTask _), .ok task => some task
  | _, .call (.sendMessage _), .ok (.task task) => some task
  | _, _, _ => none

/-- The task as the agent showed it last. -/
def lastTask : List (Exchange CliOp) → Option Task
  | [] => none
  | e :: h => (e.op.task e.answer).or (lastTask h)

/-- The clock was read at least a timeout after an earlier reading. -/
def WaitedOut (timeout : Nat) (h : List (Exchange CliOp)) : Prop :=
  ∃ after now before start, h = after ++ ⟨.now, now⟩ :: before ∧
    (⟨.now, start⟩ : Exchange CliOp) ∈ before ∧ start + timeout ≤ now

/-- A value is on the output. -/
def Shown (floatText : UInt64 → String) (value : TextResponse) (h : List (Exchange CliOp)) : Prop :=
  (⟨.println (value.renderText floatText), ()⟩ : Exchange CliOp) ∈ h ∨
    ∃ compact, (⟨.printJson compact value, .ok ()⟩ : Exchange CliOp) ∈ h

/-- The result of a wait: the task last shown, settled if it was waited for;
or the time was over and that task not settled. -/
structure Waited (cli : Cli) (wait : Bool) (r : Except CommandError Task)
    (h : List (Exchange CliOp)) : Prop where
  ok : ∀ task, r = .ok task → lastTask h = some task ∧
    (wait = true → isSettled task.status.state = true)
  timeout : ∀ taskId timeout, r = .error (.timeout taskId timeout) → ∃ task, lastTask h = some task ∧
    isSettled task.status.state = false ∧ WaitedOut cli.timeout h

/-- A timeout that is over stays so. -/
theorem WaitedOut.cons {timeout : Nat} (hh : WaitedOut timeout h) (e : Exchange CliOp) :
    WaitedOut timeout (e :: h) := by
  obtain ⟨after, now, before, start, rfl, hstart, hlate⟩ := hh
  exact ⟨e :: after, now, before, start, rfl, hstart, hlate⟩

/-- An error of the agent is neither a task nor a timeout. -/
theorem Waited.of_error {error : A2AError} {wait : Bool} : Waited cli wait (.error (.a2a error)) h :=
  ⟨fun _ hok => (nomatch hok), fun _ _ htimeout => nomatch htimeout⟩

/-- The agent has opened a stream for a send. -/
def Streamed (h : List (Exchange CliOp)) : Prop :=
  ∃ request answer, (⟨.call (.sendStreamingMessage request), .ok answer⟩ : Exchange CliOp) ∈ h

/-- A run of a command that is to wait for a task.  A send that is to stream
waits where it falls back to an ordinary send. -/
def Cli.Waits (cli : Cli) (h : List (Exchange CliOp)) : Prop :=
  (∃ flags, cli.command = .send flags ∧ cli.asyncMode = false ∧
    (flags.stream = true → ¬Streamed h)) ∨
    ∃ id historyLength save, cli.command = .taskGet id historyLength save ∧ cli.wait = true

/-- A step never fails with a timeout. -/
def Step.NeverLate (step : Step α) : Prop :=
  ∀ R h, step.run.Ensures R (fun _ => True) h fun r _ =>
    ∀ taskId timeout, r ≠ .error (.timeout taskId timeout)

namespace Step.NeverLate

/-- A value is no timeout. -/
theorem pure (b : α) : (Pure.pure b : Step α).NeverLate :=
  fun _ _ => ensures_pure trivial fun _ _ herror => nomatch herror

/-- Nor is a failure of another kind. -/
theorem throw {error : CommandError} (herror : ∀ taskId timeout, error ≠ .timeout taskId timeout) :
    (MonadExcept.throw error : Step α).NeverLate :=
  fun _ _ => ensures_throw trivial fun _ _ hlate => herror _ _ (Except.error.inj hlate)

/-- A question alone does not fail. -/
theorem perform (op : CliOp β) : (Step.perform op).NeverLate :=
  fun _ _ => ensures_perform trivial fun _ _ => ⟨trivial, fun _ _ herror => nomatch herror⟩

/-- One that may fail is not late if its errors are not. -/
theorem attempt {ε : Type} {fail : ε → CommandError} (op : CliOp (Except ε β))
    (hfail : ∀ e taskId timeout, fail e ≠ .timeout taskId timeout) :
    (Step.attempt fail op).NeverLate := by
  refine fun _ _ => ensures_attempt trivial fun answer _ => ⟨trivial, fun taskId timeout hlate => ?_⟩
  cases answer with
  | ok b => contradiction
  | error e => exact hfail e _ _ (Except.error.inj hlate)

theorem ofExcept {ε : Type} {fail : ε → CommandError} (x : Except ε β)
    (hfail : ∀ e taskId timeout, fail e ≠ .timeout taskId timeout) :
    (Step.ofExcept fail x).NeverLate := by
  cases x with
  | ok b => exact pure b
  | error e => exact throw (hfail e)

/-- Two steps that are never late, one after the other. -/
theorem bind {step : Step α} {f : α → Step β} (hstep : step.NeverLate)
    (hf : ∀ a, (f a).NeverLate) : (step >>= f).NeverLate := by
  refine fun R h => Program.ensures_bindExcept ((hstep R h).mono ?_)
  rintro (error | a) h' _ hnever
  · exact fun taskId timeout hlate => hnever taskId timeout (congrArg _ (Except.error.inj hlate))
  · exact hf a R h'

end Step.NeverLate

/-- What was shown stays shown. -/
theorem Shown.cons (hshown : Shown floatText value h) (e : Exchange CliOp) :
    Shown floatText value (e :: h) := by
  rcases hshown with htext | ⟨compact, hjson⟩
  · exact .inl (List.mem_cons_of_mem _ htext)
  · exact .inr ⟨compact, List.mem_cons_of_mem _ hjson⟩

end A2a
