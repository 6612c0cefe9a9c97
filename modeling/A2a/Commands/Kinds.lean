import A2a.Commands

/-!
# A2a.Commands.Kinds

What the parts of a command ask: the ones that only write, and the ones that
neither call the agent nor wait.
-/

namespace A2a

open Step Cli

/-- All exchanges of a step are of a kind. -/
def Step.Only {α : Type} (A : Exchange CliOp → Prop) (step : Step α) : Prop := step.run.Asks A

variable {α β : Type}
  {floatText : UInt64 → String} {cli : Cli} {saver : Option String} {value : TextResponse}
  {A : Exchange CliOp → Prop}

namespace Step.Only

/-- A value asks nothing. -/
theorem pure (b : α) : (Pure.pure b : Step α).Only A := trivial

/-- A failure asks nothing. -/
theorem throw (error : CommandError) : (MonadExcept.throw error : Step α).Only A := trivial

/-- A question is of the kind if it is with every answer. -/
theorem perform {op : CliOp β} (hop : ∀ b, A ⟨op, b⟩) : (Step.perform op).Only A :=
  fun b => ⟨hop b, trivial⟩

/-- So is one whose answer may be an error. -/
theorem attempt {ε : Type} {fail : ε → CommandError} {op : CliOp (Except ε β)}
    (hop : ∀ b, A ⟨op, b⟩) : (Step.attempt fail op).Only A := by
  intro answer
  cases answer with
  | ok b => exact ⟨hop _, trivial⟩
  | error e => exact ⟨hop _, trivial⟩

/-- A result that is there already asks nothing. -/
theorem ofExcept {ε : Type} {fail : ε → CommandError} (x : Except ε β) :
    (Step.ofExcept fail x).Only A := by
  cases x <;> trivial

/-- Two steps one after the other ask what each asks. -/
theorem bind {step : Step α} {f : α → Step β} (hstep : step.Only A) (hf : ∀ a, (f a).Only A) :
    (step >>= f).Only A := by
  refine Program.Asks.bind hstep ?_
  rintro (error | a)
  · trivial
  · exact hf a

/-- Catching an error asks nothing more. -/
theorem outcome {step : Step α} (hstep : step.Only A) : (Step.outcome step).Only A :=
  Program.Asks.bind hstep fun _ => trivial

/-- A loop asks what its body asks. -/
theorem iterate {σ : Type} {body : σ → Step (σ ⊕ β)} (hbody : ∀ s, (body s).Only A) (s : σ) :
    (Step.iterate body s).Only A := by
  refine ⟨fun s => Program.Asks.bind (hbody s) ?_, fun _ => trivial⟩
  rintro (error | s | b) <;> trivial

end Step.Only

/-- Output, files written, and warnings. -/
def CliOp.isOutput : CliOp β → Bool
  | .println _ | .printJson _ _ | .save _ _ | .warn _ => true
  | _ => false

/-- Neither a call nor a wait. -/
def CliOp.isLocal : CliOp β → Bool
  | .call _ | .sleep _ => false
  | _ => true

/-- A step that only writes. -/
abbrev Step.Writes (step : Step α) : Prop := step.Only fun e => e.op.isOutput = true

/-- A step that neither calls the agent nor sleeps. -/
abbrev Step.IsLocal (step : Step α) : Prop := step.Only fun e => e.op.isLocal = true

/-- What only writes neither calls the agent nor waits. -/
theorem Step.Writes.isLocal {step : Step α} (hstep : step.Writes) : step.IsLocal := by
  refine Program.Asks.mono hstep fun e he => ?_
  obtain ⟨op, answer⟩ := e
  cases op <;> first | rfl | contradiction

/-! ## output -/

/-- Warning of a task's state only writes. -/
theorem warnTaskOutcome_writes (taskId : TaskId) (state : TaskState) :
    (warnTaskOutcome taskId state).Writes := by
  unfold warnTaskOutcome
  split
  · exact .perform fun _ => rfl
  · exact .pure _

/-- So does warning of an answer. -/
theorem warnOutcome_writes (value : TextResponse) : (warnOutcome value).Writes := by
  unfold warnOutcome
  split
  · exact warnTaskOutcome_writes _ _
  · exact warnTaskOutcome_writes _ _
  · exact warnTaskOutcome_writes _ _
  · exact warnTaskOutcome_writes _ _
  · exact .pure _

/-- So does the line for each file created. -/
theorem warnCreated_writes (paths : List String) : (warnCreated paths).Writes := by
  induction paths with
  | nil => exact .pure _
  | cons path rest ih => exact .bind (.perform fun _ => rfl) fun _ => ih

/-- Saving file parts only writes, whether there is a directory or not. -/
theorem saveFileparts_writes (saver : Option String) (value : TextResponse) :
    (saveFileparts saver value).Writes := by
  cases saver with
  | none => exact .pure _
  | some dir =>
      refine .bind (.perform fun _ => rfl) fun saved => ?_
      exact .bind (warnCreated_writes saved.1) fun _ => .ofExcept _

/-- Printing only writes, in either format. -/
theorem printOutput_writes (value : TextResponse) : (printOutput floatText cli value).Writes := by
  unfold printOutput
  split
  · exact .perform fun _ => rfl
  · exact .attempt fun _ => rfl

/-- An event is printed as an answer is. -/
theorem printStreamValue_writes (value : TextResponse) :
    (printStreamValue floatText cli value).Writes := by
  unfold printStreamValue
  split
  · exact .perform fun _ => rfl
  · exact .attempt fun _ => rfl

/-- So do printing, warning and saving together. -/
theorem report_writes (saver : Option String) (value : TextResponse) :
    (report floatText cli saver value).Writes :=
  .bind (warnOutcome_writes value) fun _ =>
    .bind (printOutput_writes value) fun _ => saveFileparts_writes saver value

/-! ## clients and streams -/

/-- The client is destroyed, which is no call of the agent. -/
theorem destroyAndFail_isLocal (error : CommandError) :
    (destroyAndFail error : Step α).IsLocal :=
  .bind (.perform fun _ => rfl) fun _ => .throw _

/-- Nor is finishing a call that was made. -/
theorem finishClientCall_isLocal (result : Except A2AError β) :
    (finishClientCall result).IsLocal := by
  cases result with
  | ok value => exact .bind (.attempt fun _ => rfl) fun _ => .pure _
  | error error => exact destroyAndFail_isLocal _

theorem destroyAfter_isLocal (result : Except CommandError Task) : (destroyAfter result).IsLocal := by
  cases result with
  | ok task => exact .bind (.attempt fun _ => rfl) fun _ => .pure _
  | error error => exact destroyAndFail_isLocal error

/-- Checking a directory is local. -/
theorem filePartSaver_isLocal (dir : Option String) : (filePartSaver dir).IsLocal := by
  cases dir with
  | none => exact .pure _
  | some dir =>
      refine .bind (.perform fun _ => rfl) fun isNoDirectory => ?_
      split
      · exact .throw _
      · exact .pure _

/-- So is connecting, with the notes on the version. -/
theorem resolveClientStep_isLocal : resolveClientStep.IsLocal := .attempt fun _ => rfl

theorem require_isLocal (declared : DeclaredCapabilities) (capability : Capability) :
    (require declared capability).IsLocal := by
  unfold require
  split
  · exact .pure _
  · exact .throw _

/-- A card is validated without calling the agent. -/
theorem validateCardOrFail_isLocal : validateCardOrFail.IsLocal := by
  refine .bind (.attempt fun _ => rfl) fun violations => ?_
  split
  · exact .pure _
  · exact .throw _

theorem printOrDestroy_isLocal (saver : Option String) (value : TextResponse) :
    (printOrDestroy floatText cli saver value).IsLocal := by
  refine .bind (warnOutcome_writes value).isLocal fun _ => .bind (.outcome ?_) fun result => ?_
  · exact .bind (printStreamValue_writes value).isLocal fun _ =>
      (saveFileparts_writes saver value).isLocal
  · cases result with
    | ok _ => exact .pure _
    | error error => exact destroyAndFail_isLocal error

/-- A stream is read without a further call. -/
theorem consumeStream_isLocal (saver : Option String) :
    (consumeStream floatText cli saver).IsLocal := by
  refine .iterate (fun _ => .bind (.perform fun _ => rfl) fun item => ?_) ()
  rcases item with _ | (error | value)
  · exact .bind (.attempt fun _ => rfl) fun _ => .pure _
  · exact destroyAndFail_isLocal _
  · exact .bind (printOrDestroy_isLocal saver _) fun _ => .pure _

/-- So is one that is resumed when it breaks. -/
theorem readStream_isLocal (stateBefore : Option TaskState) (reading : StreamReading) :
    (readStream floatText cli saver stateBefore reading).IsLocal := by
  refine .iterate (fun r => .bind (.perform fun _ => rfl) fun item => ?_) reading
  rcases item with _ | (error | value)
  · exact .pure _
  · simp only
    split
    · exact .pure _
    · exact destroyAndFail_isLocal _
  · simp only
    split
    · refine .bind (.outcome (saveFileparts_writes saver _).isLocal) fun result => ?_
      cases result with
      | ok _ => exact .pure _
      | error error => exact destroyAndFail_isLocal error
    · exact .bind (printOrDestroy_isLocal saver _) fun _ => .pure _

theorem deadlineOf_isLocal (deadline : Option Nat) : (deadlineOf cli deadline).IsLocal := by
  cases deadline with
  | some deadline => exact .pure _
  | none => exact .bind (.perform fun _ => rfl) fun _ => .pure _

end A2a
