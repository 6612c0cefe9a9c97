import A2a.Server.Webhooks

/-!
# A2a.Server.Webhooks.Replay

A run, without the steps of its pushes, is a run of the unpushed server.
-/

namespace A2a

variable {h : Handler} {s s' : Server} {a : Action}

/-! ## the unpushed server -/

theorem getElem?_unpushed (s : Server) (i : Nat) :
    s.unpushed.threads[i]? = s.threads[i]?.map Thread.unpushed := List.getElem?_map

theorem push_unpushed (s : Server) (i : Nat) :
    s.unpushed.threads[i]?.bind Thread.push =
      (s.threads[i]?.bind Thread.push).map fun push => (push.1, push.2.1, .send []) := by
  rw [getElem?_unpushed]
  cases s.threads[i]? with
  | none => rfl
  | some t => exact t.push_atPush _

theorem listening_unpushed (s : Server) (x : ExecId) : s.unpushed.listening x = s.listening x := by
  have hreceiver : ∀ t : Thread, t.unpushed.receiver = t.receiver := fun t => t.receiver_atPush _
  simp only [Server.listening, Server.unpushed, List.any_map, Function.comp_def, hreceiver]

theorem channelClosed_unpushed (s : Server) (x : ExecId) :
    s.unpushed.channelClosed x = s.channelClosed x := by
  have hholds : ∀ t : Thread, t.unpushed.holds = t.holds := fun t => t.holds_atPush _
  simp only [Server.channelClosed, Server.unpushed, List.any_map, Function.comp_def, hholds]
  rfl

theorem foldl_hand_unpushed (value : Resubscription) (waiters : List WaiterId) (s : Server) :
    waiters.foldl (·.hand value) s.unpushed = (waiters.foldl (·.hand value) s).unpushed := by
  rw [foldl_hand, foldl_hand]
  rfl

/-- What a quiet operation does to the unpushed server. -/
theorem Op.run_unpushed {β : Type} {op : Op β} (hop : op.Quiet) (s : Server) :
    op.run s.unpushed = (op.run s).map fun p => (p.1.unpushed, p.2) := by
  cases op with
  | get id => rfl
  | create task => rfl
  | update task => rfl
  | beginCancel id now => rfl
  | savePushConfig h newId config => exact hop.elim
  | listPushConfigs id order => exact hop.elim
  | sendPush config event outcome => exact hop.elim
  | start task =>
      have hmanager : s.unpushed.manager.start task.id s.unpushed.executions.length =
          s.manager.start task.id s.executions.length := rfl
      simp only [Op.run, hmanager]
      split
      · rfl
      · next waiters manager hstart =>
          have hfold := foldl_hand_unpushed ⟨some ⟨s.executions.length, 0⟩, task, 0⟩ waiters
            { s with manager := manager, executions := s.executions ++ [.new task] }
          exact congrArg (fun s' => some (s', Except.ok s.executions.length)) hfold
  | getActive id => rfl
  | subscribe id =>
      have hmanager : s.unpushed.manager = s.manager := rfl
      have hexecutions : s.unpushed.executions = s.executions := rfl
      simp only [Op.run, hmanager, hexecutions]
      split
      · split
        all_goals rfl
      · rfl
  | finish id x => rfl
  | takeWaiting id => rfl
  | hand w value => rfl
  | attached w =>
      have honeshots : s.unpushed.oneshots = s.oneshots := rfl
      simp only [Op.run, honeshots]
      split
      all_goals rfl
  | await w =>
      have honeshots : s.unpushed.oneshots = s.oneshots := rfl
      simp only [Op.run, honeshots]
      split
      all_goals rfl
  | dropWaiter id w => rfl
  | listen x =>
      have hexecutions : s.unpushed.executions = s.executions := rfl
      simp only [Op.run, hexecutions, Option.map_map]
      rfl
  | readState x =>
      have hexecutions : s.unpushed.executions = s.executions := rfl
      simp only [Op.run, hexecutions, Option.map_map]
      rfl
  | publish x snapshotTask =>
      have hexecutions : s.unpushed.executions = s.executions := rfl
      simp only [Op.run, hexecutions, Option.map_map]
      rfl
  | receiverCount x =>
      simp only [Op.run, listening_unpushed]
      rfl
  | broadcast x event =>
      simp only [Op.run, listening_unpushed]
      cases s.listening x with
      | true => rfl
      | false => rfl
  | recv receiver =>
      have hexecutions : s.unpushed.executions = s.executions := rfl
      simp only [Op.run, hexecutions, channelClosed_unpushed]
      cases s.executions[receiver.exec]? with
      | none => rfl
      | some active =>
          dsimp only
          by_cases hlag : receiver.next + executionBufferCapacity < active.sent.length
          · rw [if_pos hlag, if_pos hlag]
            rfl
          · rw [if_neg hlag, if_neg hlag]
            cases active.sent[receiver.next]? with
            | some event => rfl
            | none =>
                cases s.channelClosed receiver.exec with
                | true => rfl
                | false => rfl
  | pass => rfl
  | halt => rfl

theorem map_unpushed_unpushed (threads : List Thread) :
    (threads.map Thread.unpushed).map Thread.unpushed = threads.map Thread.unpushed := by
  rw [List.map_map]
  exact List.map_congr_left fun t _ => t.unpushed_unpushed

theorem Server.exec_unpushed {cmd : Cmd} (hcmd : cmd.Quiet) (s : Server) (i : Nat) :
    (s.unpushed.exec i cmd).map Server.unpushed = (s.exec i cmd).map Server.unpushed := by
  rw [Server.exec, Server.exec, Op.run_unpushed hcmd, Option.map_map, Option.map_map, Option.map_map]
  apply congrArg (fun f => Option.map f (cmd.op.run s))
  funext p
  have hthreads : (((p.1.threads.map Thread.unpushed).set i (cmd.resume p.2).1) ++
      (cmd.resume p.2).2).map Thread.unpushed =
        ((p.1.threads.set i (cmd.resume p.2).1) ++ (cmd.resume p.2).2).map Thread.unpushed := by
    rw [List.map_append, List.map_append, List.map_set, List.map_set, map_unpushed_unpushed]
  simp only [Function.comp_apply, Server.unpushed, hthreads]

theorem Thread.drop_unpushed (t : Thread) : t.unpushed.drop = t.drop := by
  cases t with
  | send call pc => rfl
  | drive d => rfl
  | cancel call pc => rfl
  | subscribe call pc => rfl
  | dropped => rfl

/-- A thread that is not about to push is no other in the unpushed server. -/
theorem Thread.unpushed_of_not_pushes {t : Thread} (hpushes : t.pushes = false) :
    t.unpushed = t := by
  cases hpush : t.push with
  | none => exact t.atPush_of_none hpush _
  | some push =>
      obtain ⟨id, event, pc⟩ := push
      obtain _ | _ | ⟨config, rest⟩ := pc
      · simp only [Thread.pushes, hpush] at hpushes
        cases hpushes
      · exact t.atPush_self hpush
      · simp only [Thread.pushes, hpush] at hpushes
        cases hpushes

/-- **A step that neither pushes nor registers is one of the unpushed
server.** -/
theorem step_unpushed (hpushes : s.pushes a = false) (hregistered : s.registered h a = none) :
    (Server.step h s.unpushed a).map Server.unpushed = (Server.step h s a).map Server.unpushed := by
  cases a with
  | call request =>
      have hthreads : (s.threads.map Thread.unpushed ++ [request.thread]).map Thread.unpushed =
          (s.threads ++ [request.thread]).map Thread.unpushed := by
        rw [List.map_append, List.map_append, map_unpushed_unpushed]
      simp only [Server.step, Server.unpushed, Option.map_some, hthreads]
  | step i inp =>
      simp only [Server.step, getElem?_unpushed]
      simp only [Server.pushes] at hpushes
      simp only [Server.registered] at hregistered
      cases hi : s.threads[i]? with
      | none => rfl
      | some t =>
          rw [hi, Option.any_some] at hpushes
          rw [hi, Option.bind_some, Option.map_eq_none_iff] at hregistered
          rw [Option.map_some, Option.bind_some, Option.bind_some, t.unpushed_of_not_pushes hpushes]
          exact Server.exec_unpushed (t.next_quiet hpushes hregistered inp) s i
  | drop i =>
      simp only [Server.step, getElem?_unpushed]
      cases s.threads[i]? with
      | none => rfl
      | some t =>
          rw [Option.map_some, Option.bind_some, Option.bind_some, t.drop_unpushed]
          exact Server.exec_unpushed t.drop_quiet s i

/-! ## registering -/

/-- Where a send goes on after its configuration was registered, or not. -/
def SendCall.afterRegistering (prepared : Prepared) : Except A2AError Unit → SendPc
  | .ok _ => .start prepared
  | .error error => .returned (.error error)

/-- What a registration makes of the unpushed server. -/
theorem step_registered {i : Nat} {inp : Input} {answer : Except A2AError Unit}
    (hregistered : s.registered h (.step i inp) = some answer)
    (hs : Server.step h s (.step i inp) = some s') :
    ∃ call prepared, s.threads[i]? = some (.send call (.savePush prepared)) ∧
      s'.unpushed = { s.unpushed with
        threads := s.unpushed.threads.set i
          (.send call (SendCall.afterRegistering prepared answer)) } := by
  simp only [Server.registered] at hregistered
  obtain ⟨config, hconfig, hanswer⟩ := Option.map_eq_some_iff.mp hregistered
  obtain ⟨t, hi, hregisters⟩ := Option.bind_eq_some_iff.mp hconfig
  cases t with
  | send call pc =>
      cases pc with
      | savePush prepared =>
          refine ⟨call, prepared, hi, ?_⟩
          have hrequest : requestPushConfig prepared.task.id call.req = some config := hregisters
          have hnext : Thread.next h inp (.send call (.savePush prepared)) =
              (Op.savePushConfig h inp.configId config).andThen fun saved =>
                .send call (SendCall.afterRegistering prepared (saved.map fun _ => ())) := by
            simp only [Thread.next, SendCall.next, hrequest]
            refine congrArg (Op.andThen _) (funext fun saved => ?_)
            cases saved with
            | ok config => rfl
            | error error => rfl
          simp only [Server.step, hi, Option.bind_some, hnext] at hs
          cases hs
          rw [← hanswer]
          cases (h.savePushConfig inp.configId config s.pushConfigStore).1 with
          | ok saved =>
              simp only [Server.unpushed, Op.andThen, List.append_nil, List.map_set]
              rfl
          | error error =>
              simp only [Server.unpushed, Op.andThen, List.append_nil, List.map_set]
              rfl
      | _ => cases hregisters
  | _ => cases hregisters

/-! ## steps of a push -/

/-- A delivery succeeds. -/
def Succeeds (s : Server) (a : Action) : Prop :=
  ∀ config event outcome, s.delivery a = some (config, event, outcome) → outcome = .ok ()

/-- What a step of a push is. -/
structure PushStep (s s' : Server) (i : Nat) (inp : Input) (t : Thread) (id : TaskId)
    (event : StreamResponse) (pc pc' : PushPc) : Prop where
  thread : s.threads[i]? = some t
  push : t.push = some (id, event, pc)
  server : s'.unpushed = s.unpushed
  threads : s'.threads = s.threads.set i (t.atPush pc')
  moves : (pc = .list ∧ pc' = .send inp.configs) ∨
    ∃ config rest, pc = .send (config :: rest) ∧ pc' = .send rest

/-- Elsewhere in its push, a thread is the same unpushed. -/
theorem map_unpushed_set {i : Nat} {t : Thread} {threads : List Thread} (hi : threads[i]? = some t)
    (pc : PushPc) : (threads.set i (t.atPush pc)).map Thread.unpushed =
      threads.map Thread.unpushed := by
  have hunpushed : (t.atPush pc).unpushed = t.unpushed := t.atPush_atPush _ _
  have hi' : (threads.map Thread.unpushed)[i]? = some t.unpushed := by
    rw [List.getElem?_map, hi]
    rfl
  rw [List.map_set, hunpushed]
  obtain ⟨hlt, hget⟩ := List.getElem?_eq_some_iff.mp hi'
  rw [← hget, List.set_getElem_self]

/-- **A step of a push leaves the unpushed server as it is**, if the delivery
succeeds. -/
theorem step_pushes {i : Nat} {inp : Input} (hpushes : s.pushes (.step i inp) = true)
    (hok : Succeeds s (.step i inp)) (hs : Server.step h s (.step i inp) = some s') :
    ∃ t id event pc pc', PushStep s s' i inp t id event pc pc' := by
  simp only [Server.pushes] at hpushes
  cases hi : s.threads[i]? with
  | none =>
      rw [hi] at hpushes
      cases hpushes
  | some t =>
      rw [hi, Option.any_some] at hpushes
      simp only [Server.step, hi, Option.bind_some] at hs
      cases hpush : t.push with
      | none =>
          simp only [Thread.pushes, hpush] at hpushes
          cases hpushes
      | some push =>
          obtain ⟨id, event, pc⟩ := push
          rw [t.next_of_push h inp hpush] at hs
          obtain _ | _ | ⟨config, rest⟩ := pc
          · refine ⟨t, id, event, .list, .send inp.configs, hi, hpush, ?_, ?_, Or.inl ⟨rfl, rfl⟩⟩
            all_goals
              simp only [Server.exec, pushCmd, Op.andThen, Op.run] at hs
              split at hs
              · cases hs
                simp only [Server.unpushed, Thread.inPush, List.append_nil, map_unpushed_set hi]
              · cases hs
          · simp only [Thread.pushes, hpush] at hpushes
            cases hpushes
          · have hdelivered : inp.push = .ok () := by
              apply hok config event inp.push
              simp only [Server.delivery, hi, Option.bind_some, hpush]
            refine ⟨t, id, event, .send (config :: rest), .send rest, hi, hpush, ?_, ?_,
              Or.inr ⟨config, rest, rfl, rfl⟩⟩
            all_goals
              simp only [Server.exec, pushCmd, Op.andThen, Op.run, hdelivered] at hs
              cases hs
              simp only [Server.unpushed, Thread.inPush, List.append_nil, map_unpushed_set hi]

/-- Nothing else changes the threads that a step of a push leaves. -/
theorem PushStep.getElem? {i : Nat} {inp : Input} {t : Thread} {id : TaskId}
    {event : StreamResponse} {pc pc' : PushPc} (hp : PushStep s s' i inp t id event pc pc') (j : Nat) :
    s'.threads[j]? = if i = j then some (t.atPush pc') else s.threads[j]? := by
  have hlt := (List.getElem?_eq_some_iff.mp hp.thread).1
  rw [hp.threads]
  by_cases hij : i = j
  · rw [if_pos hij, ← hij, List.getElem?_set_self hlt]
  · rw [if_neg hij, List.getElem?_set_ne hij]

/-- No event is begun by a step of a push. -/
theorem PushStep.begun {i : Nat} {inp : Input} {t : Thread} {id : TaskId}
    {event : StreamResponse} {pc pc' : PushPc} (hp : PushStep s s' i inp t id event pc pc') (j : Nat) :
    begun j s s' = [] := by
  rw [A2a.begun, hp.getElem? j]
  by_cases hij : i = j
  · rw [← hij, hp.thread, Option.bind_some, hp.push]
  · rw [if_neg hij]
    cases s.threads[j]?.bind Thread.push with
    | none => rfl
    | some push => rfl

theorem begun_unpushed (i : Nat) (s s' : Server) :
    begun i s.unpushed s'.unpushed = begun i s s' := by
  rw [begun, begun, push_unpushed, push_unpushed]
  cases s.threads[i]?.bind Thread.push with
  | none =>
      cases s'.threads[i]?.bind Thread.push with
      | none => rfl
      | some push => rfl
  | some push => rfl

/-! ## replaying a run -/

/-- An action of a run without its pushes, on the unpushed server. -/
def replayStep (h : Handler) (s : Server) (entry : Action × Option (Except A2AError Unit)) :
    Option Server :=
  match entry.2, entry.1 with
  | none, a => (Server.step h s a).map Server.unpushed
  | some answer, .step i _ =>
      match s.threads[i]? with
      | some (.send call (.savePush prepared)) =>
          some { s with
            threads := s.threads.set i (.send call (SendCall.afterRegistering prepared answer)) }
      | _ => none
  | _, _ => none

/-- The same, with the events one thread has applied. -/
def replayBy (h : Handler) (i : Nat) (p : Server × List StreamResponse)
    (entry : Action × Option (Except A2AError Unit)) : Option (Server × List StreamResponse) :=
  (replayStep h p.1 entry).map fun s' => (s', p.2 ++ begun i p.1 s')

theorem replayStep_of_step (hpushes : s.pushes a = false) (hs : Server.step h s a = some s') :
    replayStep h s.unpushed (a, s.registered h a) = some s'.unpushed := by
  cases hregistered : s.registered h a with
  | none =>
      have hstep := step_unpushed hpushes hregistered
      rw [hs] at hstep
      exact hstep
  | some answer =>
      cases a with
      | step i inp =>
          obtain ⟨call, prepared, hi, hs'⟩ := step_registered hregistered hs
          have hi' : s.unpushed.threads[i]? = some (.send call (.savePush prepared)) := by
            rw [getElem?_unpushed, hi]
            rfl
          simp only [replayStep, hi', hs']
      | call request => cases hregistered
      | drop i => cases hregistered

/-- **A run replays without its pushes** on the unpushed server, and each
thread applies the same events. -/
theorem replay_run (i : Nat) {s₀ : Server} {tr : List (Server × Action)}
    (hr : (serverMachine h).Run s₀ tr s) (hok : Machine.Guarded Succeeds tr) :
    (unpushedRun h tr).foldlM (replayBy h i) (s₀.unpushed, []) =
      some (s.unpushed, appliedBy h i tr) := by
  refine hr.guarded (I := fun tr s => (unpushedRun h tr).foldlM (replayBy h i) (s₀.unpushed, []) =
    some (s.unpushed, appliedBy h i tr)) rfl ?_ hok
  intro tr s a s' hreplay hok hs
  have hstep : Server.step h s a = some s' := hs
  have happlied : appliedBy h i (tr ++ [(s, a)]) = appliedBy h i tr ++ begun i s s' := by
    rw [appliedBy, List.flatMap_append, List.flatMap_singleton, hstep]
    rfl
  cases hpushes : s.pushes a with
  | true =>
      have hsame : unpushedRun h (tr ++ [(s, a)]) = unpushedRun h tr := by
        rw [unpushedRun, List.filter_append, List.filter_cons_of_neg (by simp [hpushes]),
          List.filter_nil, List.append_nil]
        rfl
      cases a with
      | step j inp =>
          obtain ⟨t, id, event, pc, pc', hpush⟩ := step_pushes hpushes hok hstep
          rw [hsame, happlied, hpush.begun, List.append_nil, hpush.server]
          exact hreplay
      | call request => cases hpushes
      | drop j => cases hpushes
  | false =>
      have hnext : unpushedRun h (tr ++ [(s, a)]) = unpushedRun h tr ++ [(a, s.registered h a)] := by
        rw [unpushedRun, List.filter_append, List.filter_cons_of_pos (by simp [hpushes]),
          List.filter_nil, List.map_append]
        rfl
      rw [hnext, List.foldlM_append, hreplay, happlied]
      change (replayBy h i (s.unpushed, appliedBy h i tr) (a, s.registered h a)).bind some = _
      rw [replayBy, replayStep_of_step hpushes hstep, Option.map_some, begun_unpushed]
      rfl

end A2a
