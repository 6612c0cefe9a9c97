import A2a.DriveExecution
import A2a.Feed
import A2a.Server.LiveTask
import A2a.Server.Owners
import A2a.Server.Timestamps

/-!
# A2a.Server.Publication

What the driver of an execution publishes.

`published` are the items a run published on an execution, each with the
snapshot it left.  While its driver goes on they are events, each applied to
the task before it (`Driven`); the last one may be a terminal event or an
error (`Publications`).  `Driver.Stage` is what a driver has published at
each of its places, and what it is about to.
-/

namespace A2a

/-- What a thread publishes on `x` next, with the snapshot it leaves. -/
def Link.publishes (x : ExecId) (snapshotTask : Task) : Link → Option (Item × Task)
  | .publishing y item published .write =>
      if y = x then some (item, published.getD snapshotTask) else none
  | _ => none

/-- What an action publishes on `x`, with the snapshot it leaves. -/
def Server.publishes (s : Server) (x : ExecId) : Action → Option (Item × Task)
  | .step i _ =>
      match s.threads[i]?, s.executions[x]? with
      | some t, some active => t.link.publishes x active.snapshotTask
      | _, _ => none
  | _ => none

/-- What a run published on `x`, oldest first. -/
def published (x : ExecId) (tr : List (Server × Action)) : List (Item × Task) :=
  tr.filterMap fun p => p.1.publishes x p.2

/-- The task `x` was started on. -/
def startedOn (x : ExecId) (tr : List (Server × Action)) : Option Task :=
  tr.findSome? fun p => if p.1.executions.length = x then p.1.registers p.2 else none

/-- An event makes `task` of `last`, with a timestamp. -/
structure Applies (last : Task) (event : StreamResponse) (task : Task) : Prop where
  fold : foldEvent last event = .ok task
  stamped : task.Stamped

/-- What an execution begun on `first` published while it goes on; its task
is now the last one. -/
inductive Driven (first : Task) : List (Item × Task) → Task → Prop
  | nil (hlive : first.isTerminal = false) (hstamped : first.Stamped) : Driven first [] first
  | snoc {log : List (Item × Task)} {last task : Task} {event : StreamResponse}
      (h : Driven first log last) (happlies : Applies last event task)
      (hlive : isTerminalEvent event = false) : Driven first (log ++ [(.ok event, task)]) task

/-- All an execution begun on `first` may publish: nothing follows a terminal
event or an error. -/
inductive Publications (first : Task) : List (Item × Task) → Prop
  | live {log : List (Item × Task)} {last : Task} (h : Driven first log last) :
      Publications first log
  | terminal {log : List (Item × Task)} {last task : Task} {event : StreamResponse}
      (h : Driven first log last) (happlies : Applies last event task)
      (hends : isTerminalEvent event = true) : Publications first (log ++ [(.ok event, task)])
  | failed {log : List (Item × Task)} {last task : Task} {error : A2AError}
      (h : Driven first log last) (htask : task = last ∨ task.status.state = .failed) :
      Publications first (log ++ [(.error error, task)])

/-- What a driver has published, and is about to. -/
def Driver.Stage (f : Feed Item Task) (d : Driver) : Prop :=
  match d.pc with
  | .start => f.log = [] ∧ Driven f.start f.log f.start
  | .poll => Driven f.start f.log d.current
  | .saving event task _ => Driven f.start f.log d.current ∧ Applies d.current event task
  | .pushing event _ => ∃ last, Driven f.start f.log last ∧ Applies last event d.current
  | .publishing event .write => ∃ last, Driven f.start f.log last ∧ Applies last event d.current
  | .publishing event _ =>
      ∃ log last, f.log = log ++ [(.ok event, d.current)] ∧ Driven f.start log last ∧
        Applies last event d.current
  | .failSaving _ task _ => (∃ last, Driven f.start f.log last) ∧ task.status.state = .failed
  | .failPushing _ task _ => (∃ last, Driven f.start f.log last) ∧ task.status.state = .failed
  | .failPublishing _ failed .write =>
      (∃ last, Driven f.start f.log last) ∧ ∀ task, failed = some task → task.status.state = .failed
  | .failPublishing _ _ _ => Publications f.start f.log
  | .finishing => Publications f.start f.log
  | .done => Publications f.start f.log

/-- The channel once a thread published what it is about to. -/
def Link.after (x : ExecId) (f : Feed Item Task) (l : Link) : Feed Item Task :=
  match l.publishes x f.last with
  | some (item, task) => f.publish item task
  | none => f

variable {h : Handler} {s s' s₁ : Server} {a : Action} {x : ExecId} {f : Feed Item Task}

/-! ## a driver's log -/

theorem Driven.stamped {first last : Task} {log : List (Item × Task)} (hd : Driven first log last) :
    last.Stamped := by
  cases hd with
  | nil _ hstamped => exact hstamped
  | snoc _ happlies => exact happlies.stamped

theorem Driven.live {first last : Task} {log : List (Item × Task)} (hd : Driven first log last) :
    last.isTerminal = false := by
  induction hd with
  | nil hlive => exact hlive
  | snoc _ happlies hlive ih => rw [foldEvent_isTerminal ih happlies.fold, hlive]

/-- The task of a driven execution is its snapshot. -/
theorem Driven.eq_last {last : Task} (hd : Driven f.start f.log last) : f.last = last := by
  obtain ⟨start, log, sent, pending⟩ := f
  cases hd with
  | nil => rfl
  | snoc =>
      simp [Feed.last, Feed.snapshotAt]

/-- An event applied to a stamped task is stamped with it. -/
theorem applies_of_fold {current task : Task} {event : StreamResponse} {now : DateTime}
    (hstamped : current.Stamped)
    (hfold : foldEvent current (backfillStatusTimestamp now event) = .ok task) :
    Applies current (backfillStatusTimestamp now event) task := by
  refine ⟨hfold, ?_⟩
  cases event with
  | task next =>
      obtain rfl := Except.ok.inj hfold
      exact Task.backfill_stamped now next
  | statusUpdate update =>
      obtain rfl := Except.ok.inj hfold
      exact Task.backfill_stamped now { current with status := update.status }
  | artifactUpdate update =>
      have hstatus : task.status = current.status := by
        rw [applyArtifactUpdate_frame hfold]
      show task.status.timestamp ≠ none
      rw [hstatus]
      exact hstamped
  | message message =>
      obtain rfl := Except.ok.inj hfold
      exact hstamped

/-! ## the steps of a driver -/

/-- A driver that fails. -/
theorem Driver.fail_stage {last : Task} (hlog : Driven f.start f.log last) (d : Driver)
    (inp : Input) (error : A2AError) : ∃ d', d.fail inp error = .drive d' ∧ d'.Stage f := by
  rw [fail]
  split
  · exact ⟨_, rfl, ⟨last, hlog⟩, fun _ hnone => by contradiction⟩
  · exact ⟨_, rfl, ⟨last, hlog⟩, rfl⟩

/-- A driver that was given an event. -/
theorem Driver.accept_stage {d : Driver} (hlog : Driven f.start f.log d.current) (inp : Input)
    (event : StreamResponse) : ∃ d', d.accept inp event = .drive d' ∧ d'.Stage f := by
  simp only [accept]
  split
  · exact fail_stage hlog d inp _
  · split
    · next hmessage =>
        refine ⟨_, rfl, d.current, hlog, ?_, hlog.stamped⟩
        cases event <;> first | rfl | contradiction
    · split
      · next task hfold =>
          have happlies := applies_of_fold hlog.stamped hfold
          refine ⟨_, rfl, hlog, ?_⟩
          rw [Task.backfill_of_stamped happlies.stamped]
          exact happlies
      · exact fail_stage hlog _ inp _

/-- A driver once its event is published. -/
theorem Driver.published_stage {d : Driver} {event : StreamResponse}
    (hd : ∃ log last, f.log = log ++ [(.ok event, d.current)] ∧ Driven f.start log last ∧
      Applies last event d.current) :
    ∃ d', d.goto (if isTerminalEvent event then .finishing else .poll) = .drive d' ∧
      d'.Stage f := by
  obtain ⟨log, last, hlog, hdriven, happlies⟩ := hd
  refine ⟨_, rfl, ?_⟩
  cases hends : isTerminalEvent event with
  | true =>
      show Publications f.start f.log
      rw [hlog]
      exact .terminal hdriven happlies hends
  | false =>
      show Driven f.start f.log d.current
      rw [hlog]
      exact .snoc hdriven happlies hends

/-- **The steps of a driver**: what it published, it published on its task. -/
theorem Driver.next_stage {d : Driver} (hd : d.Stage f)
    (hlast : ∀ active, s.executions[d.exec]? = some active → active.snapshotTask = f.last)
    (inp : Input) :
    (d.next inp).Post s fun _ t' _ => ∃ d', t' = .drive d' ∧ d'.Stage (d.link.after d.exec f) := by
  cases hpc : d.pc <;> simp only [Stage, hpc] at hd <;> simp only [next, link, hpc]
  case start =>
    intro s₁ b hrun
    simp only [Op.andThen, Op.run, Option.map_eq_some_iff] at hrun
    obtain ⟨active, hactive, rfl, rfl⟩ := hrun
    obtain ⟨hnil, hlog⟩ := hd
    refine ⟨_, rfl, ?_⟩
    show Driven f.start f.log active.snapshotTask
    rw [hlast active hactive, hlog.eq_last]
    exact hlog
  case poll =>
    split
    · simp only [Cmd.post_pass]
      exact ⟨_, rfl, .live hd⟩
    · refine Cmd.post_of_forall fun _ state => ?_
      split
      · exact ⟨_, rfl, .live hd⟩
      · split
        · exact accept_stage (by exact hd) inp _
        · exact fail_stage hd _ inp _
  case saving event task pc =>
    obtain ⟨hlog, happlies⟩ := hd
    refine Cmd.post_of_forall fun _ answer => ?_
    split
    · exact ⟨_, rfl, hlog, happlies⟩
    · next hdone =>
        obtain ⟨rfl, _⟩ := saveStep_done hdone
        exact ⟨_, rfl, _, hlog, happlies⟩
    · exact fail_stage hlog d inp _
  case pushing event pc =>
    obtain ⟨last, hlog, happlies⟩ := hd
    refine post_pushCmd fun _ o => ?_
    obtain _ | _ | _ := o
    · exact ⟨_, rfl, last, hlog, happlies⟩
    · exact fail_stage hlog d inp _
    · exact ⟨_, rfl, last, hlog, happlies⟩
  case publishing event pc =>
    cases pc with
    | write =>
        obtain ⟨last, hlog, happlies⟩ := hd
        refine Cmd.post_of_forall fun _ sequence => ⟨_, rfl, ?_⟩
        simp only [Link.after, Link.publishes, if_pos]
        exact ⟨f.log, last, rfl, hlog, happlies⟩
    | count sequence =>
        refine Cmd.post_of_forall fun _ heard => ?_
        cases heard with
        | true => exact ⟨_, rfl, hd⟩
        | false => exact published_stage hd
    | send sequence => exact Cmd.post_of_forall fun _ _ => published_stage hd
  case failSaving error task pc =>
    refine Cmd.post_of_forall fun _ answer => ?_
    split
    · exact ⟨_, rfl, hd⟩
    · next hdone =>
        obtain ⟨rfl, _⟩ := saveStep_done hdone
        exact ⟨_, rfl, hd⟩
    · exact ⟨_, rfl, hd.1, fun _ hnone => by contradiction⟩
  case failPushing error task pc =>
    refine post_pushCmd fun _ o => ?_
    cases o with
    | inl pc => exact ⟨_, rfl, hd⟩
    | inr result =>
        refine ⟨_, rfl, hd.1, fun task hsome => ?_⟩
        obtain rfl := Option.some.inj hsome
        exact hd.2
  case failPublishing error failed pc =>
    cases pc with
    | write =>
        obtain ⟨⟨last, hlog⟩, hfailed⟩ := hd
        refine Cmd.post_of_forall fun _ sequence => ⟨_, rfl, ?_⟩
        simp only [Link.after, Link.publishes, if_pos]
        refine .failed hlog ?_
        cases failed with
        | none => exact .inl hlog.eq_last
        | some task => exact .inr (hfailed task rfl)
    | count sequence =>
        refine Cmd.post_of_forall fun _ heard => ?_
        cases heard <;> exact ⟨_, rfl, hd⟩
    | send sequence => exact Cmd.post_of_forall fun _ _ => ⟨_, rfl, hd⟩
  case finishing => exact Cmd.post_of_forall fun _ _ => ⟨_, rfl, hd⟩
  case done => exact Cmd.post_halt

end A2a
