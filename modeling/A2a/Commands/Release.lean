import A2a.Commands

/-!
# A2a.Commands.Release

What a command does with its client, in every run (`client_released`), and
what its exit status says (`exit_status`).

`Orderly` is the protocol of a client: connected once, and called, read from
and destroyed only between its connection and its destruction.
-/

namespace A2a

open Step Cli

inductive ClientLife
  | unconnected | connected | destroyed
  deriving DecidableEq

namespace CliOp

variable {β : Type}

/-- What must have become of the client for a question. -/
def needs : CliOp β → Option ClientLife
  | .connect => some .unconnected
  | .call _ | .next | .destroy => some .connected
  | _ => none

/-- What becomes of the client. -/
def leaves : (op : CliOp β) → β → ClientLife → ClientLife
  | .connect, .ok _, _ => .connected
  | .destroy, _, _ => .destroyed
  | _, _, life => life

/-- The call that is made. -/
def called : CliOp β → List HandlerCall
  | .call rpc => [rpc.call]
  | _ => []

/-- The client is left alone. -/
structure IsQuiet (op : CliOp β) : Prop where
  needs : op.needs = none
  leaves : ∀ b life, op.leaves b life = life
  called : op.called = []

end CliOp

/-- What became of the client. -/
def clientLife : List (Exchange CliOp) → ClientLife
  | [] => .unconnected
  | e :: h => e.op.leaves e.answer (clientLife h)

/-- The calls made on the client, the last one first. -/
def calls : List (Exchange CliOp) → List HandlerCall
  | [] => []
  | e :: h => e.op.called ++ calls h

/-- The client is connected at most once, and used only in between. -/
def Orderly : List (Exchange CliOp) → Prop
  | [] => True
  | e :: h => Orderly h ∧ ∀ life, e.op.needs = some life → clientLife h = life

/-- How often the client was destroyed. -/
def destructions : List (Exchange CliOp) → Nat
  | [] => 0
  | ⟨.destroy, _⟩ :: h => destructions h + 1
  | _ :: h => destructions h

variable {R : List (Exchange CliOp) → Prop} {h h' : List (Exchange CliOp)} {α β : Type}
  {floatText : UInt64 → String} {cli : Cli} {saver : Option String} {value : TextResponse}

/-- A question that leaves the client alone keeps the protocol. -/
theorem Orderly.quiet (hh : Orderly h) {op : CliOp β} (hop : op.IsQuiet) (b : β) :
    Orderly (⟨op, b⟩ :: h) :=
  ⟨hh, fun _ hneeds => nomatch hop.needs.symm.trans hneeds⟩

/-- So does one to a client that is connected. -/
theorem Orderly.used (hh : Orderly h) {op : CliOp β} (hop : op.needs = some .connected)
    (hlife : clientLife h = .connected) (b : β) : Orderly (⟨op, b⟩ :: h) :=
  ⟨hh, fun _ hneeds => hlife.trans (Option.some.inj (hop.symm.trans hneeds))⟩

/-- The client is destroyed once. -/
theorem Orderly.destructions (hh : Orderly h) :
    destructions h = if clientLife h = .destroyed then 1 else 0 := by
  induction h with
  | nil => rfl
  | cons e h ih =>
      obtain ⟨hh, hneeds⟩ := hh
      obtain ⟨op, answer⟩ := e
      cases op with
      | destroy =>
          have hlife : clientLife h = .connected := hneeds _ rfl
          show A2a.destructions h + 1 = 1
          rw [ih hh, if_neg (by simp [hlife])]
      | connect =>
          have hlife : clientLife h = .unconnected := hneeds _ rfl
          show A2a.destructions h = _
          rw [ih hh, if_neg (by simp [hlife]), if_neg]
          cases answer with
          | ok declared => exact fun hconnected => nomatch hconnected
          | error error => exact fun hdestroyed => nomatch hlife.symm.trans hdestroyed
      | _ => exact ih hh

/-! ## steps that leave the client alone -/

/-- The client is as it was, and a failure exits with `code`. -/
structure LeavesClient (code : Nat) (h : List (Exchange CliOp)) (r : Except CommandError α)
    (h' : List (Exchange CliOp)) : Prop where
  life : clientLife h' = clientLife h
  calls : calls h' = calls h
  exits : ∀ error, r = .error error → error.exitCode = code

/-- A step that leaves the client alone. -/
def Step.IsQuiet (code : Nat) (step : Step α) : Prop :=
  ∀ R h, Orderly h → step.run.Ensures R Orderly h (LeavesClient code h)

variable {code : Nat}

/-- A result that is there already leaves the client as it is. -/
theorem LeavesClient.ok (b : α) (h : List (Exchange CliOp)) :
    LeavesClient code h (.ok b : Except CommandError α) h :=
  ⟨rfl, rfl, fun _ herror => nomatch herror⟩

/-- What two steps leave alone, both together leave alone. -/
theorem LeavesClient.after {r : Except CommandError α} {h₁ : List (Exchange CliOp)}
    {r₁ : Except CommandError β} (hfirst : LeavesClient code h r₁ h₁) (hrest : LeavesClient code h₁ r h') :
    LeavesClient code h r h' :=
  ⟨hrest.life.trans hfirst.life, hrest.calls.trans hfirst.calls, hrest.exits⟩

namespace Step.IsQuiet

/-- A value leaves the client alone. -/
theorem pure (b : α) : (Pure.pure b : Step α).IsQuiet code :=
  fun _ h hh => ensures_pure hh (.ok b h)

/-- So does a failure, with its own exit status. -/
theorem throw {error : CommandError} (herror : error.exitCode = code) :
    (MonadExcept.throw error : Step α).IsQuiet code := by
  refine fun _ h hh => ensures_throw hh ⟨rfl, rfl, ?_⟩
  intro other hother
  cases hother
  exact herror

/-- So does a question that does. -/
theorem perform {op : CliOp β} (hop : op.IsQuiet) : (Step.perform op).IsQuiet code := by
  refine fun _ h hh => ensures_perform hh fun b _ => ⟨hh.quiet hop b, hop.leaves b _, ?_, ?_⟩
  · rw [A2a.calls, hop.called, List.nil_append]
  · exact fun _ herror => nomatch herror

/-- So does one that may fail, with the status of its errors. -/
theorem attempt {ε : Type} {fail : ε → CommandError} {op : CliOp (Except ε β)} (hop : op.IsQuiet)
    (hfail : ∀ e, (fail e).exitCode = code) : (Step.attempt fail op).IsQuiet code := by
  refine fun _ h hh => ensures_attempt hh fun answer _ => ⟨hh.quiet hop answer, hop.leaves _ _, ?_, ?_⟩
  · rw [A2a.calls, hop.called, List.nil_append]
  · intro error herror
    cases answer with
    | ok b => contradiction
    | error e =>
        cases herror
        exact hfail e

theorem ofExcept {ε : Type} {fail : ε → CommandError} {x : Except ε β}
    (hfail : ∀ e, (fail e).exitCode = code) : (Step.ofExcept fail x).IsQuiet code := by
  cases x with
  | ok b => exact pure b
  | error e => exact throw (hfail e)

/-- Two quiet steps one after the other are quiet. -/
theorem bind {step : Step α} {f : α → Step β} (hstep : step.IsQuiet code)
    (hf : ∀ a, (f a).IsQuiet code) : (step >>= f).IsQuiet code := by
  refine fun R h hh => Program.ensures_bindExcept ((hstep R h hh).mono ?_)
  rintro (error | a) h' hh' hquiet
  · refine ⟨hquiet.life, hquiet.calls, fun other hother => hquiet.exits other ?_⟩
    cases hother
    rfl
  · exact (hf a R h' hh').mono fun _ _ _ hrest => hquiet.after hrest

end Step.IsQuiet

/-- A warning neither touches the client nor fails. -/
theorem warnTaskOutcome_isQuiet (taskId : TaskId) (state : TaskState) :
    (warnTaskOutcome taskId state).IsQuiet code := by
  unfold warnTaskOutcome
  split
  · exact .perform ⟨rfl, fun _ _ => rfl, rfl⟩
  · exact .pure _

theorem warnOutcome_isQuiet (value : TextResponse) : (warnOutcome value).IsQuiet code := by
  unfold warnOutcome
  split
  · exact warnTaskOutcome_isQuiet _ _
  · exact warnTaskOutcome_isQuiet _ _
  · exact warnTaskOutcome_isQuiet _ _
  · exact warnTaskOutcome_isQuiet _ _
  · exact .pure _

theorem warnCreated_isQuiet (paths : List String) : (warnCreated paths).IsQuiet code := by
  induction paths with
  | nil => exact .pure _
  | cons path rest ih => exact .bind (.perform ⟨rfl, fun _ _ => rfl, rfl⟩) fun _ => ih

/-- A file that cannot be written gives the status 1. -/
theorem saveFileparts_isQuiet (saver : Option String) (value : TextResponse) :
    (saveFileparts saver value).IsQuiet 1 := by
  cases saver with
  | none => exact .pure _
  | some dir =>
      refine .bind (.perform ⟨rfl, fun _ _ => rfl, rfl⟩) fun saved => ?_
      exact .bind (warnCreated_isQuiet saved.1) fun _ => .ofExcept fun _ => rfl

/-- So does a value that cannot be printed. -/
theorem printOutput_isQuiet (value : TextResponse) : (printOutput floatText cli value).IsQuiet 1 := by
  unfold printOutput
  split
  · exact .perform ⟨rfl, fun _ _ => rfl, rfl⟩
  · exact .attempt ⟨rfl, fun _ _ => rfl, rfl⟩ fun _ => rfl

theorem printStreamValue_isQuiet (value : TextResponse) :
    (printStreamValue floatText cli value).IsQuiet 1 := by
  unfold printStreamValue
  split
  · exact .perform ⟨rfl, fun _ _ => rfl, rfl⟩
  · exact .attempt ⟨rfl, fun _ _ => rfl, rfl⟩ fun _ => rfl

/-- Printing, warning and saving leave the client alone. -/
theorem report_isQuiet (saver : Option String) (value : TextResponse) :
    (report floatText cli saver value).IsQuiet 1 :=
  .bind (warnOutcome_isQuiet value) fun _ =>
    .bind (printOutput_isQuiet value) fun _ => saveFileparts_isQuiet saver value

/-- A card that is not valid gives the status 1. -/
theorem validateCardOrFail_isQuiet : validateCardOrFail.IsQuiet 1 := by
  refine .bind (.attempt ⟨rfl, fun _ _ => rfl, rfl⟩ fun _ => rfl) fun violations => ?_
  split
  · exact .pure _
  · exact .throw rfl

/-- A directory that is none is a usage error. -/
theorem filePartSaver_isQuiet (dir : Option String) : (filePartSaver dir).IsQuiet 2 := by
  cases dir with
  | none => exact .pure _
  | some dir =>
      refine .bind (.perform ⟨rfl, fun _ _ => rfl, rfl⟩) fun isNoDirectory => ?_
      split
      · exact .throw rfl
      · exact .pure _

/-- A capability that is missing gives the status 1. -/
theorem require_isQuiet (declared : DeclaredCapabilities) (capability : Capability) :
    (require declared capability).IsQuiet 1 := by
  unfold require
  split
  · exact .pure _
  · exact .throw rfl

/-- A deadline is found without failing. -/
theorem deadlineOf_isQuiet (deadline : Option Nat) : (deadlineOf cli deadline).IsQuiet code := by
  cases deadline with
  | some deadline => exact .pure _
  | none => exact .bind (.perform ⟨rfl, fun _ _ => rfl, rfl⟩) fun _ => .pure _

/-! ## steps that use the client -/

/-- How a command may fail once it has called the agent. -/
def FailsLate (cli : Cli) (error : CommandError) : Prop :=
  error.exitCode = 1 ∨ ∃ taskId, error = .timeout taskId cli.timeout

/-- What fails after the client was connected has the status 1 or 5. -/
theorem FailsLate.exitCode {error : CommandError} (herror : FailsLate cli error) :
    error.exitCode = 1 ∨ error.exitCode = 5 := by
  rcases herror with hone | ⟨taskId, rfl⟩
  · exact .inl hone
  · exact .inr rfl

/-- What becomes of the client is `life` of the result, `bad` of a failure. -/
structure Left (cli : Cli) (life : α → ClientLife) (bad : ClientLife) (r : Except CommandError α)
    (h : List (Exchange CliOp)) : Prop where
  ok : ∀ a, r = .ok a → clientLife h = life a
  failed : ∀ error, r = .error error → clientLife h = bad ∧ FailsLate cli error

/-- What a step makes of the client, which it finds in `start`. -/
def Step.Takes (cli : Cli) (start : ClientLife) (life : α → ClientLife) (bad : ClientLife)
    (step : Step α) : Prop :=
  ∀ R h, Orderly h → clientLife h = start → step.run.Ensures R Orderly h (Left cli life bad)

variable {start bad : ClientLife} {life : α → ClientLife}

/-- A value is left with the client it says. -/
theorem Left.of_ok {a : α} (hlife : clientLife h = life a) :
    Left cli life bad (.ok a : Except CommandError α) h := by
  refine ⟨fun b hb => ?_, fun _ herror => nomatch herror⟩
  cases hb
  exact hlife

/-- An error that comes late is left with the client of errors. -/
theorem Left.of_error {error : CommandError} (hlife : clientLife h = bad)
    (herror : FailsLate cli error) : Left cli life bad (.error error : Except CommandError α) h := by
  refine ⟨fun _ hok => (nomatch hok), fun other hother => ?_⟩
  cases hother
  exact ⟨hlife, herror⟩

namespace Step.Takes

/-- A quiet step takes the client nowhere. -/
theorem of_isQuiet {step : Step α} (hstep : step.IsQuiet 1) :
    step.Takes cli start (fun _ => start) start := by
  intro R h hh hstart
  refine (hstep R h hh).mono ?_
  rintro (error | a) h' _ hquiet
  · exact .of_error (hquiet.life.trans hstart) (.inl (hquiet.exits error rfl))
  · exact .of_ok (hquiet.life.trans hstart)

/-- What leaves the client alone and fails with no code at all. -/
theorem of_isQuiet_of_sure {step : Step α} (hstep : ∀ code, step.IsQuiet code) :
    step.Takes cli start (fun _ => start) bad := by
  intro R h hh hstart r h' hr
  obtain ⟨hh', hzero⟩ := hstep 0 R h hh r h' hr
  refine ⟨hh', fun result hresult => ?_⟩
  cases result with
  | ok a => exact .of_ok ((hzero _ hresult).life.trans hstart)
  | error error =>
      have hone := ((hstep 1 R h hh r h' hr).2 _ hresult).exits error rfl
      exact absurd ((hzero _ hresult).exits error rfl) (by omega)

/-- A value takes the client nowhere. -/
theorem pure (b : α) (hb : life b = start) : (Pure.pure b : Step α).Takes cli start life bad :=
  fun _ _ hh hstart => ensures_pure hh (.of_ok (hstart.trans hb.symm))

/-- Nor does a failure. -/
theorem throw {error : CommandError} (herror : FailsLate cli error) :
    (MonadExcept.throw error : Step α).Takes cli start life start :=
  fun _ _ hh hstart => ensures_throw hh (.of_error hstart herror)

/-- A second step goes on with the client where the first left it. -/
theorem bind {middle : ClientLife} {life : β → ClientLife} {step : Step α} {f : α → Step β}
    (hstep : step.Takes cli start (fun _ => middle) bad)
    (hf : ∀ a, (f a).Takes cli middle life bad) : (step >>= f).Takes cli start life bad := by
  refine fun R h hh hstart => Program.ensures_bindExcept ((hstep R h hh hstart).mono ?_)
  rintro (error | a) h' hh' hleft
  · obtain ⟨hlife, herror⟩ := hleft.failed error rfl
    exact .of_error hlife herror
  · exact hf a R h' hh' (hleft.ok a rfl)

/-- What leaves the client alone and cannot fail. -/
theorem perform {op : CliOp α} (hop : op.IsQuiet) :
    (Step.perform op).Takes cli start (fun _ => start) bad :=
  fun _ _ hh hstart => ensures_perform hh fun b _ =>
    ⟨hh.quiet hop b, .of_ok ((hop.leaves b _).trans hstart)⟩

/-- A question to the client. -/
theorem performUsed {op : CliOp α} (hneeds : op.needs = some .connected)
    (hleaves : ∀ b life, op.leaves b life = life) :
    (Step.perform op).Takes cli .connected (fun _ => .connected) bad :=
  fun _ _ hh hstart => ensures_perform hh fun b _ =>
    ⟨hh.used hneeds hstart b, .of_ok ((hleaves b _).trans hstart)⟩

/-- A call needs a connected client and leaves it so. -/
theorem attemptCall (rpc : Rpc α) :
    (Step.attempt .a2a (.call rpc)).Takes cli .connected (fun _ => .connected) .connected := by
  refine fun _ _ hh hstart => ensures_attempt hh fun answer _ => ⟨hh.used rfl hstart answer, ?_⟩
  cases answer with
  | ok b => exact .of_ok hstart
  | error error => exact .of_error hstart (.inl rfl)

/-- Destroying takes the client to its end, also where it fails. -/
theorem destroy :
    (Step.attempt .a2a .destroy).Takes cli .connected (fun _ => .destroyed) .destroyed := by
  refine fun _ _ hh hstart => ensures_attempt hh fun answer _ => ⟨hh.used rfl hstart answer, ?_⟩
  cases answer with
  | ok b => exact .of_ok rfl
  | error error => exact .of_error rfl (.inl rfl)

/-- A step whose failure is a value like its result. -/
theorem outcomeBind {middle : ClientLife} {life : β → ClientLife} {step : Step α}
    {f : Except CommandError α → Step β} (hstep : step.Takes cli start (fun _ => middle) middle)
    (hok : ∀ a, (f (.ok a)).Takes cli middle life bad)
    (herror : ∀ error, FailsLate cli error → (f (.error error)).Takes cli middle life bad) :
    (Step.outcome step >>= f).Takes cli start life bad := by
  refine fun R h hh hstart =>
    Program.ensures_bindExcept (ensures_outcome ((hstep R h hh hstart).mono ?_))
  rintro (error | a) h' hh' hleft
  · obtain ⟨hlife, hlate⟩ := hleft.failed error rfl
    exact herror error hlate R h' hh' hlife
  · exact hok a R h' hh' (hleft.ok a rfl)

/-- A loop whose body keeps the client until it is over. -/
theorem iterate {σ : Type} {body : σ → Step (σ ⊕ α)}
    (hbody : ∀ s, (body s).Takes cli start (Sum.elim (fun _ => start) life) bad) (s : σ) :
    (Step.iterate body s).Takes cli start life bad := by
  intro R h hh hstart
  refine ensures_iterate (fun _ h => Orderly h ∧ clientLife h = start) ⟨hh, hstart⟩ ?_
  rintro s h ⟨hh, hstart⟩
  refine (hbody s R h hh hstart).mono ?_
  rintro (error | s' | b) h' hh' hleft
  · obtain ⟨hlife, herror⟩ := hleft.failed error rfl
    exact .of_error hlife herror
  · exact ⟨hh', hleft.ok _ rfl⟩
  · exact .of_ok (hleft.ok _ rfl)

end Step.Takes

/-- An error that destroys the client first. -/
theorem destroyAndFail_takes {error : CommandError} (herror : FailsLate cli error) :
    (destroyAndFail error : Step α).Takes cli .connected life .destroyed := by
  intro R h hh hstart
  refine Program.ensures_bindExcept (ensures_perform hh fun answer _ => ⟨hh.used rfl hstart answer, ?_⟩)
  exact ensures_throw (hh.used rfl hstart answer) (.of_error rfl herror)

/-- A command of one call: it is made, and the client destroyed. -/
theorem callOnce_takes (rpc : Rpc α) :
    (callOnce rpc).Takes cli .connected (fun _ => .destroyed) .destroyed := by
  refine .bind (.performUsed rfl fun _ _ => rfl) fun result => ?_
  cases result with
  | ok value => exact .bind .destroy fun _ => .pure _ rfl
  | error error => exact destroyAndFail_takes (.inl rfl)

/-- Polling keeps the client, also where the time is over. -/
theorem waitForTaskSettled_takes (taskId : TaskId) (tenant : Option String) :
    (waitForTaskSettled cli taskId tenant).Takes cli .connected (fun _ => .connected) .connected := by
  refine .bind (.perform ⟨rfl, fun _ _ => rfl, rfl⟩) fun start => .iterate (fun _ => ?_) ()
  refine .bind (.attemptCall _) fun task => ?_
  split
  · exact .pure _ rfl
  · refine .bind (.perform ⟨rfl, fun _ _ => rfl, rfl⟩) fun now => ?_
    split
    · exact .throw (.inr ⟨taskId, rfl⟩)
    · exact .bind (.perform ⟨rfl, fun _ _ => rfl, rfl⟩) fun _ => .pure _ rfl

/-- The client is destroyed, whatever the wait came to. -/
theorem destroyAfter_takes {result : Except CommandError Task}
    (hresult : ∀ error, result = .error error → FailsLate cli error) :
    (destroyAfter result).Takes cli .connected (fun _ => .destroyed) .destroyed := by
  cases result with
  | ok task => exact .bind .destroy fun _ => .pure _ rfl
  | error error => exact destroyAndFail_takes (hresult error rfl)

/-- A task that was sent or read is waited for if asked, and the client destroyed. -/
theorem settleTask_takes (task : Task) (wait : Bool) (tenant : Option String) :
    (settleTask cli task wait tenant).Takes cli .connected (fun _ => .destroyed) .destroyed := by
  unfold settleTask
  split
  · refine .outcomeBind (waitForTaskSettled_takes _ _) (fun task => ?_) fun error herror => ?_
    · exact destroyAfter_takes fun _ herror => nomatch herror
    · exact destroyAndFail_takes herror
  · exact destroyAfter_takes fun _ herror => nomatch herror

/-- A send that waits does both. -/
theorem sendAndMaybeWait_takes (request : SendMessageRequest) (tenant : Option String) :
    (sendAndMaybeWait cli request tenant).Takes cli .connected (fun _ => .destroyed) .destroyed := by
  refine .bind (.performUsed rfl fun _ _ => rfl) fun result => ?_
  rcases result with error | (task | message)
  · exact destroyAndFail_takes (.inl rfl)
  · exact .bind (settleTask_takes _ _ _) fun _ => .pure _ rfl
  · exact .bind .destroy fun _ => .pure _ rfl

/-- A value that cannot be printed destroys the client. -/
theorem printOrDestroy_takes (saver : Option String) (value : TextResponse) :
    (printOrDestroy floatText cli saver value).Takes cli .connected (fun _ => .connected)
      .destroyed := by
  refine .bind (.of_isQuiet_of_sure fun code => warnOutcome_isQuiet value) fun _ => ?_
  refine .outcomeBind (.of_isQuiet ?_) (fun _ => .pure _ rfl) fun error herror => ?_
  · exact .bind (printStreamValue_isQuiet value) fun _ => saveFileparts_isQuiet saver value
  · exact destroyAndFail_takes herror

/-- A stream that is over destroys the client, however it ended. -/
theorem consumeStream_takes (saver : Option String) :
    (consumeStream floatText cli saver).Takes cli .connected (fun _ => .destroyed) .destroyed := by
  refine .iterate (fun _ => .bind (.performUsed rfl fun _ _ => rfl) fun item => ?_) ()
  rcases item with _ | (error | value)
  · exact .bind .destroy fun _ => .pure _ rfl
  · exact destroyAndFail_takes (.inl rfl)
  · exact .bind (printOrDestroy_takes saver _) fun _ => .pure _ rfl

/-- A stream that can be resumed keeps it. -/
theorem readStream_takes (stateBefore : Option TaskState) (reading : StreamReading) :
    (readStream floatText cli saver stateBefore reading).Takes cli .connected
      (fun _ => .connected) .destroyed := by
  refine .iterate (fun r => .bind (.performUsed rfl fun _ _ => rfl) fun item => ?_) reading
  rcases item with _ | (error | value)
  · exact .pure _ rfl
  · simp only
    split
    · exact .pure _ rfl
    · exact destroyAndFail_takes (.inl rfl)
  · simp only
    split
    · refine .outcomeBind (.of_isQuiet (saveFileparts_isQuiet saver _)) (fun _ => .pure _ rfl) ?_
      exact fun error herror => destroyAndFail_takes herror
    · exact .bind (printOrDestroy_takes saver _) fun _ => .pure _ rfl

/-- Reconnecting keeps the client unless it gives up. -/
theorem reconnect_takes (taskId : TaskId) (tenant : Option String) (deadline : Nat)
    (attempts : UInt32) (cause : String) : (reconnect cli taskId tenant deadline attempts cause).Takes cli .connected
      (fun _ => .connected) .destroyed := by
  refine .iterate (fun s => .bind (.perform ⟨rfl, fun _ _ => rfl, rfl⟩) fun now => ?_) _
  split
  · exact destroyAndFail_takes (.inr ⟨taskId, rfl⟩)
  · refine .bind (.perform ⟨rfl, fun _ _ => rfl, rfl⟩) fun _ => ?_
    refine .bind (.perform ⟨rfl, fun _ _ => rfl, rfl⟩) fun _ => ?_
    refine .bind (.performUsed rfl fun _ _ => rfl) fun answer => ?_
    cases answer with
    | ok stream => exact .pure _ rfl
    | error error => exact .pure _ rfl

/-- **A subscription** destroys its client on every way out. -/
theorem subscribeResuming_takes (taskId : TaskId) (tenant : Option String) :
    (subscribeResuming floatText cli saver taskId tenant).Takes cli .connected
      (fun _ => .destroyed) .destroyed := by
  refine .iterate (fun s => .bind (readStream_takes _ _) fun read => ?_) _
  split
  · exact .bind .destroy fun _ => .pure _ rfl
  · refine .bind (.of_isQuiet_of_sure fun code => deadlineOf_isQuiet _) fun deadline => ?_
    exact .bind (reconnect_takes _ _ _ _ _) fun _ => .pure _ rfl

/-! ## commands -/

/-- What holds of a command that is over. -/
structure Finished (cli : Cli) (r : Except CommandError Unit) (h : List (Exchange CliOp)) : Prop where
  /-- a client that was not destroyed was not called, or only to subscribe and in vain -/
  released : clientLife h = .connected → (∃ error, r = .error error) ∧
    (calls h = [] ∨ ∃ error, r = .error (.a2a error) ∧ ∃ id save,
      cli.command = .taskSubscribe id save ∧ calls h = [.subscribeToTask ⟨id, cli.tenant⟩])
  usage : ∀ error, r = .error error → error.exitCode = 2 → calls h = []
  unreached : ∀ error, r = .error error → error.exitCode = 3 ∨ error.exitCode = 4 →
    calls h = [] ∧ clientLife h = .unconnected
  timeout : ∀ error, r = .error error → error.exitCode = 5 →
    clientLife h = .destroyed ∧ ∃ taskId, error = .timeout taskId cli.timeout

/-- A command, or what is left of it, before any call. -/
def Step.Finishes (cli : Cli) (start : ClientLife) (step : Step Unit) : Prop :=
  ∀ R h, Orderly h → clientLife h = start → calls h = [] →
    step.run.Ensures R Orderly h (Finished cli)

/-- A failure before any call. -/
theorem Finished.uncalled {error : CommandError} (hcalls : calls h = [])
    (hcode : error.exitCode = 1 ∨ error.exitCode = 2 ∨
      (error.exitCode = 3 ∨ error.exitCode = 4) ∧ clientLife h = .unconnected) :
    Finished cli (.error error) h := by
  refine ⟨fun _ => ⟨⟨error, rfl⟩, .inl hcalls⟩, fun _ _ _ => hcalls, ?_, ?_⟩
  · intro other hother hunreached
    cases hother
    rcases hcode with hcode | hcode | ⟨_, hlife⟩
    · omega
    · omega
    · exact ⟨hcalls, hlife⟩
  · intro other hother htimeout
    cases hother
    omega

/-- A command that never connected. -/
theorem Finished.of_unconnected (hlife : clientLife h = .unconnected) :
    Finished cli (.ok ()) h :=
  ⟨fun hconnected => (nomatch hlife.symm.trans hconnected), fun _ herror => (nomatch herror),
    fun _ herror => (nomatch herror), fun _ herror => nomatch herror⟩

/-- A client that was connected is destroyed. -/
theorem Finished.of_left {r : Except CommandError Unit}
    (hleft : Left cli (fun _ => .destroyed) .destroyed r h) : Finished cli r h := by
  have hlife : clientLife h = .destroyed := by
    cases r with
    | ok b => exact hleft.ok b rfl
    | error error => exact (hleft.failed error rfl).1
  refine ⟨fun hconnected => (nomatch hlife.symm.trans hconnected), ?_, ?_, ?_⟩
  · intro error herror hcode
    have hlate := (hleft.failed error herror).2.exitCode
    omega
  · intro error herror hcode
    have hlate := (hleft.failed error herror).2.exitCode
    omega
  · intro error herror hcode
    rcases (hleft.failed error herror).2 with hone | hlate
    · omega
    · exact ⟨hlife, hlate⟩

namespace Step.Finishes

theorem of_takes {step : Step Unit}
    (hstep : step.Takes cli .connected (fun _ => .destroyed) .destroyed) :
    step.Finishes cli .connected :=
  fun R h hh hstart _ => (hstep R h hh hstart).mono fun _ _ _ hleft => .of_left hleft

theorem of_isQuiet {step : Step Unit} (hstep : step.IsQuiet 1) :
    step.Finishes cli .unconnected := by
  intro R h hh hstart hcalls
  refine (hstep R h hh).mono ?_
  rintro (error | _) h' _ hquiet
  · exact .uncalled (hquiet.calls.trans hcalls) (.inl (hquiet.exits error rfl))
  · exact .of_unconnected (hquiet.life.trans hstart)

/-- A step before any call. -/
theorem bindQuiet {step : Step α} {f : α → Step Unit} (hstep : step.IsQuiet code)
    (hcode : code = 1 ∨ code = 2) (hf : ∀ a, (f a).Finishes cli start) :
    (step >>= f).Finishes cli start := by
  refine fun R h hh hstart hcalls => Program.ensures_bindExcept ((hstep R h hh).mono ?_)
  rintro (error | a) h' hh' hquiet
  · have hexit := hquiet.exits error rfl
    exact .uncalled (hquiet.calls.trans hcalls) (hcode.imp hexit.trans fun h => .inl (hexit.trans h))
  · exact hf a R h' hh' (hquiet.life.trans hstart) (hquiet.calls.trans hcalls)

end Step.Finishes

/-- What `resolve_client` and the reading of the card fail with is no timeout. -/
theorem exitCode_ofResolve (error : ResolveError) :
    (CommandError.ofResolve error).exitCode = 1 ∨ (CommandError.ofResolve error).exitCode = 2 ∨
      (CommandError.ofResolve error).exitCode = 3 ∨ (CommandError.ofResolve error).exitCode = 4 := by
  cases error with
  | http error =>
      simp only [CommandError.ofResolve, CommandError.exitCode, HttpError.exitCode]
      split
      · exact .inl rfl
      · split
        · split
          · exact .inr (.inr (.inr rfl))
          · exact .inr (.inr (.inl rfl))
        · exact .inr (.inr (.inl rfl))
  | a2a error => exact .inl rfl
  | json message => exact .inl rfl
  | invalidInput message => exact .inr (.inl rfl)
  | cardFile path source => exact .inr (.inr (.inl rfl))
  | cardInvalid message => exact .inl rfl

/-- No client is connected where the agent cannot be resolved. -/
theorem Finished.unresolved {error : ResolveError} (hcalls : calls h = [])
    (hlife : clientLife h = .unconnected) : Finished cli (.error (.ofResolve error)) h := by
  refine .uncalled hcalls ?_
  rcases exitCode_ofResolve error with hone | htwo | hcard
  · exact .inl hone
  · exact .inr (.inl htwo)
  · exact .inr (.inr ⟨hcard, hlife⟩)

/-- The client is connected, or the command fails. -/
theorem Step.Finishes.connect {f : DeclaredCapabilities → Step Unit}
    (hf : ∀ declared, (f declared).Finishes cli .connected) :
    (resolveClientStep >>= f).Finishes cli .unconnected := by
  refine fun R h hh hstart hcalls => Program.ensures_bindExcept (ensures_attempt hh fun answer _ => ?_)
  have hh' : Orderly (⟨.connect, answer⟩ :: h) := by
    refine ⟨hh, fun life hneeds => ?_⟩
    cases hneeds
    exact hstart
  cases answer with
  | error error => exact ⟨hh', .unresolved hcalls hstart⟩
  | ok declared => exact ⟨hh', hf declared R _ hh' rfl hcalls⟩

/-- A call, and what is printed of its answer. -/
theorem callOnce_finishes {rpc : Rpc α} {f : α → Step Unit} (hf : ∀ a, (f a).IsQuiet 1) :
    (callOnce rpc >>= f).Finishes cli .connected :=
  .of_takes (.bind (callOnce_takes rpc) fun a => .of_isQuiet (hf a))

/-- `card get`: of the extended card over the client, else without one. -/
theorem runCardGet_finishes (extended validate : Bool) :
    (runCardGet floatText cli extended validate).Finishes cli .unconnected := by
  have hprint : ∀ card, (do
      (if validate then validateCardOrFail else pure ())
      printOutput floatText cli (.card card) : Step Unit).IsQuiet 1 := by
    intro card
    refine .bind ?_ fun _ => printOutput_isQuiet _
    split
    · exact validateCardOrFail_isQuiet
    · exact .pure _
  cases extended with
  | true =>
      refine .connect fun declared => .bindQuiet (require_isQuiet declared _) (.inl rfl) fun _ => ?_
      exact callOnce_finishes hprint
  | false =>
      refine fun R h hh hstart hcalls =>
        Program.ensures_bindExcept (ensures_attempt hh fun answer _ => ?_)
      have hop : CliOp.resolveCard.IsQuiet := ⟨rfl, fun _ _ => rfl, rfl⟩
      refine ⟨hh.quiet hop answer, ?_⟩
      cases answer with
      | error error => exact .unresolved hcalls hstart
      | ok card => exact Step.Finishes.of_isQuiet (hprint card) R _ (hh.quiet hop _) hstart hcalls

/-- A send that does not stream, and its report. -/
theorem sendAndReport_takes (request : SendMessageRequest) :
    (do
      let response ← sendAndMaybeWait cli request cli.tenant
      report floatText cli saver (.send response) : Step Unit).Takes cli .connected
        (fun _ => .destroyed) .destroyed :=
  .bind (sendAndMaybeWait_takes request cli.tenant) fun _ => .of_isQuiet (report_isQuiet saver _)

/-- `send`, streaming or not. -/
theorem runSend_finishes (flags : SendFlags) (parts : Except PartError (List Part)) :
    (runSend floatText cli flags parts).Finishes cli .unconnected := by
  refine .bindQuiet (.ofExcept fun error => by cases error <;> rfl) (.inr rfl) fun parts => ?_
  refine .bindQuiet (filePartSaver_isQuiet _) (.inr rfl) fun saver => .connect fun declared => ?_
  have hid : (Step.perform .newId).IsQuiet 1 := .perform ⟨rfl, fun _ _ => rfl, rfl⟩
  refine .bindQuiet hid (.inl rfl) fun messageId => .of_takes ?_
  refine .bind (.of_isQuiet_of_sure fun code => ?_) fun _ => ?_
  · split
    · exact .perform ⟨rfl, fun _ _ => rfl, rfl⟩
    · exact .pure _
  · split
    · refine .bind (.performUsed rfl fun _ _ => rfl) fun answer => ?_
      cases answer with
      | ok stream => exact consumeStream_takes saver
      | error error =>
          simp only
          split
          · exact sendAndReport_takes _
          · exact destroyAndFail_takes (.inl rfl)
    · exact sendAndReport_takes _

/-- `task get`, with or without the wait. -/
theorem runTaskGet_finishes (id : TaskId) (historyLength : Option Int) (save : Option String) :
    (runTaskGet floatText cli id historyLength save).Finishes cli .unconnected := by
  refine .bindQuiet (filePartSaver_isQuiet _) (.inr rfl) fun saver => .connect fun _ => .of_takes ?_
  refine .bind (.performUsed rfl fun _ _ => rfl) fun answer => ?_
  cases answer with
  | error error => exact destroyAndFail_takes (.inl rfl)
  | ok task => exact .bind (settleTask_takes _ _ _) fun _ => .of_isQuiet (report_isQuiet saver _)

/-- `task subscribe`: the one command that may fail with its client connected. -/
theorem runTaskSubscribe_finishes (id : TaskId) (save : Option String)
    (hcommand : cli.command = .taskSubscribe id save) :
    (runTaskSubscribe floatText cli id save).Finishes cli .unconnected := by
  refine .bindQuiet (filePartSaver_isQuiet _) (.inr rfl) fun saver => .connect fun declared => ?_
  refine .bindQuiet (require_isQuiet declared _) (.inl rfl) fun _ => ?_
  refine fun R h hh hstart hcalls =>
    Program.ensures_bindExcept (ensures_attempt hh fun answer _ => ?_)
  have hh' : Orderly (⟨.call (.subscribeToTask ⟨id, cli.tenant⟩), answer⟩ :: h) :=
    hh.used rfl hstart answer
  refine ⟨hh', ?_⟩
  cases answer with
  | ok stream =>
      exact (subscribeResuming_takes id cli.tenant R _ hh' hstart).mono fun _ _ _ => Finished.of_left
  | error error =>
      refine ⟨fun _ => ⟨⟨_, rfl⟩, .inr ⟨error, rfl, id, save, hcommand, ?_⟩⟩, ?_, ?_, ?_⟩
      · exact congrArg (_ :: ·) hcalls
      all_goals
        intro other hother hcode
        cases hother
        simp [CommandError.exitCode] at hcode

/-- The commands of push configurations, each a call. -/
theorem runPushConfig_finishes {rpc : Except CommandError (Rpc α)} (response : α → TextResponse)
    (hrpc : ∀ error, rpc = .error error → error.exitCode = 2) :
    (runPushConfig floatText cli rpc response).Finishes cli .unconnected := by
  refine .connect fun declared => .bindQuiet (require_isQuiet declared _) (.inl rfl) fun _ => ?_
  have hquiet : (Step.ofExcept id rpc).IsQuiet 2 := by
    cases rpc with
    | ok rpc => exact .pure _
    | error error => exact .throw (hrpc error rfl)
  exact .bindQuiet hquiet (.inr rfl) fun rpc => callOnce_finishes fun _ => printOutput_isQuiet _

/-- A configuration that cannot be built is a usage error. -/
theorem exitCode_buildPushNotificationConfig {flags : CreatePushConfigFlags} {tenant : Option String}
    {error : CommandError} (herror : (buildPushNotificationConfig flags tenant).map Rpc.createPushConfig
      = .error error) : error.exitCode = 2 := by
  unfold buildPushNotificationConfig at herror
  split at herror
  · cases herror
    rfl
  · contradiction

/-- **Every command** finishes so, one case for each. -/
theorem run_finishes (parseJson : String → Except String Value) (io : Nat → Io) :
    (run floatText cli parseJson io).Finishes cli .unconnected := by
  refine .bindQuiet (.ofExcept fun _ => rfl) (.inr rfl) fun _ => ?_
  split
  next => exact runCardGet_finishes _ _
  next flags _ => exact runSend_finishes flags _
  next => exact runTaskGet_finishes _ _ _
  next => exact .connect fun _ => callOnce_finishes fun _ => printOutput_isQuiet _
  next =>
    refine .connect fun _ => callOnce_finishes fun task => ?_
    exact .bind (warnOutcome_isQuiet _) fun _ => printOutput_isQuiet _
  next hcommand => exact runTaskSubscribe_finishes _ _ hcommand
  next => exact runPushConfig_finishes _ fun _ => exitCode_buildPushNotificationConfig
  next => exact runPushConfig_finishes _ fun _ herror => nomatch herror
  next => exact runPushConfig_finishes _ fun _ herror => nomatch herror
  next => exact runPushConfig_finishes _ fun _ herror => nomatch herror

section finished

variable {parseJson : String → Except String Value} {io : Nat → Io}
  {r : Option (Except CommandError Unit)}

/-- **The client is destroyed once, and not used after it**: in every run of a
command, however the agent, the stream, the output and the clock behave.  Only
a command that fails leaves a client behind: before any call, or because it
could not subscribe. -/
theorem client_released (hr : (run floatText cli parseJson io).run.Runs R [] r h) :
    Orderly h ∧ destructions h = (if clientLife h = .destroyed then 1 else 0) ∧
      ∀ result, r = some result → clientLife h = .connected → (∃ error, result = .error error) ∧
        (calls h = [] ∨ ∃ error, result = .error (.a2a error) ∧ ∃ id save,
          cli.command = .taskSubscribe id save ∧ calls h = [.subscribeToTask ⟨id, cli.tenant⟩]) := by
  obtain ⟨hh, hend⟩ := run_finishes parseJson io R [] trivial rfl rfl r h hr
  exact ⟨hh, hh.destructions, fun result hresult => (hend result hresult).released⟩

/-- An agent whose tasks go on working. -/
def workingAgent : {β : Type} → Rpc β → Except A2AError β
  | _, .getTask req => .ok (makeTask req.id "c" .working)
  | _, .sendMessage _ => .ok (.task (makeTask "t" "c" .working))
  | _, _ => .error (.unsupportedOperation "no")

/-- Everything outside a command that calls it; the time is the state. -/
def besideWorkingAgent : {β : Type} → CliOp β → Nat → β × Nat
  | _, .isNoDirectory _, now => (false, now)
  | _, .newId, now => ("m", now)
  | _, .connect, now => (.ok .noCard, now)
  | _, .resolveCard, now => (.error (.cardInvalid "no card"), now)
  | _, .violations, now => (.ok [], now)
  | _, .call rpc, now => (workingAgent rpc, now)
  | _, .next, now => (none, now)
  | _, .destroy, now => (.ok (), now)
  | _, .now, now => (now, now)
  | _, .sleep duration, now => ((), now + duration)
  | _, .println _, now => ((), now)
  | _, .printJson _ _, now => (.ok (), now)
  | _, .save _ _, now => (([], .ok ()), now)
  | _, .warn _, now => ((), now)

/-- `task get --wait`. -/
def getAndWait : Cli where
  bearer := none
  apiKey := none
  svcParams := []
  debug := false
  a2aVersion := none
  tenant := none
  output := .text
  compact := false
  asyncMode := false
  wait := true
  pollInterval := 1
  timeout := 3
  command := .taskGet "t" none none

/-- No files and nothing on the standard input. -/
def noIo (_ : Nat) : Io where
  read := fun _ => .error .notFound
  readToString := fun _ => .error .notFound
  readStdin := .error .notFound

/-- The command against that agent. -/
def getAndWaitRun : Option (Except CommandError Unit × Nat × List (Exchange CliOp)) :=
  Program.eval besideWorkingAgent 50
    (run (fun _ => "") getAndWait (fun _ => .error "") noIo).run 0 []

/-- That run, to its timeout. -/
theorem getAndWait_runs : ∃ h, (run (fun _ => "") getAndWait (fun _ => .error "") noIo).run.Runs
    (fun _ => True) [] (some (.error (.timeout "t" 3))) h ∧ clientLife h = .destroyed := by
  have heval : getAndWaitRun.map (fun x => (x.1, clientLife x.2.2)) =
      some (.error (.timeout "t" 3), .destroyed) := rfl
  obtain ⟨⟨result, w, h⟩, heval, hx⟩ := Option.map_eq_some_iff.mp heval
  obtain ⟨rfl, hlife⟩ := Prod.mk.inj hx
  have hr := Program.runs_of_eval (R := fun _ => True) (fun _ _ => True)
    (fun _ _ _ _ _ => ⟨trivial, trivial⟩) trivial heval
  exact ⟨h, hr.1, hlife⟩

theorem client_released_waiting : ∃ h, Orderly h ∧ destructions h = 1 := by
  obtain ⟨h, hr, hlife⟩ := getAndWait_runs
  obtain ⟨hh, honce, _⟩ := client_released hr
  exact ⟨h, hh, by rw [honce, if_pos hlife]⟩

/-- **The exit status of a failed command**: with 2, 3 or 4 the agent was not
called, with 3 or 4 no client was connected, and with 5 the time was over and
the client destroyed. -/
theorem exit_status {error : CommandError}
    (hr : (run floatText cli parseJson io).run.Runs R [] (some (.error error)) h) :
    (error.exitCode = 2 → calls h = []) ∧
      (error.exitCode = 3 ∨ error.exitCode = 4 → calls h = [] ∧ clientLife h = .unconnected) ∧
      (error.exitCode = 5 → clientLife h = .destroyed ∧
        ∃ taskId, error = .timeout taskId cli.timeout) := by
  have hend := (run_finishes parseJson io R [] trivial rfl rfl _ h hr).2 _ rfl
  exact ⟨hend.usage error rfl, hend.unreached error rfl, hend.timeout error rfl⟩

end finished

theorem exit_status_waiting : ∃ h, clientLife h = .destroyed ∧
    ∃ taskId, CommandError.timeout "t" 3 = .timeout taskId getAndWait.timeout := by
  obtain ⟨h, hr, _⟩ := getAndWait_runs
  exact ⟨h, (exit_status hr).2.2 rfl⟩

end A2a
