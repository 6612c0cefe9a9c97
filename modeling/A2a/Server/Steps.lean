import A2a.Server

/-!
# A2a.Server.Steps

What a step of the server can do.

`step_cases` names the thread that acts, the operation it runs and the
thread it becomes.  The other lemmas say, for each part of the shared
state, which operations change it and how, so that no later proof unfolds
`Op.run` for a part it does not care about.
-/

namespace A2a

open InMemoryTaskStore

/-! ## the acting thread -/

/-- `a` lets the `i`-th thread `t` run the command. -/
def Server.runs (h : Handler) (s : Server) (a : Action) (i : Nat) (t : Thread) (cmd : Cmd) : Prop :=
  s.threads[i]? = some t ∧
    ((∃ inp, a = .step i inp ∧ cmd = t.next h inp) ∨ (a = .drop i ∧ cmd = t.drop))

/-- What a command makes of the server, and of the thread that runs it. -/
structure Server.Ran (s : Server) (i : Nat) (cmd : Cmd) (s' : Server) (s₁ : Server) (b : cmd.β) :
    Prop where
  run : cmd.op.run s = some (s₁, b)
  eq : s' = { s₁ with threads := s₁.threads.set i (cmd.resume b).1 ++ (cmd.resume b).2 }

/-- **The steps of the server**: a call arrives, or a thread runs its next
operation. -/
theorem step_cases {h : Handler} {s s' : Server} {a : Action} (hs : Server.step h s a = some s') :
    (∃ request, a = .call request ∧ s' = { s with threads := s.threads ++ [request.thread] }) ∨
      ∃ i t cmd s₁ b, s.runs h a i t cmd ∧ s.Ran i cmd s' s₁ b := by
  have hexec : ∀ i t cmd, s.threads[i]? = some t → s.exec i cmd = some s' →
      ∃ s₁ b, s.Ran i cmd s' s₁ b := by
    intro i t cmd _ he
    simp only [Server.exec, Option.map_eq_some_iff, Prod.exists] at he
    obtain ⟨s₁, b, hrun, rfl⟩ := he
    exact ⟨s₁, b, hrun, rfl⟩
  cases a with
  | call request => exact .inl ⟨request, rfl, (Option.some.inj hs).symm⟩
  | step i inp =>
      obtain ⟨t, ht, he⟩ := Option.bind_eq_some_iff.mp hs
      obtain ⟨s₁, b, hran⟩ := hexec i t _ ht he
      exact .inr ⟨i, t, _, s₁, b, ⟨ht, .inl ⟨inp, rfl, rfl⟩⟩, hran⟩
  | drop i =>
      obtain ⟨t, ht, he⟩ := Option.bind_eq_some_iff.mp hs
      obtain ⟨s₁, b, hran⟩ := hexec i t _ ht he
      exact .inr ⟨i, t, _, s₁, b, ⟨ht, .inr ⟨rfl, rfl⟩⟩, hran⟩

/-! ## the parts an operation leaves alone -/

/-- Handing a value to waiters changes their channels only. -/
theorem foldl_hand (value : Resubscription) (waiters : List WaiterId) (s : Server) :
    waiters.foldl (·.hand value) s = { s with
      oneshots := waiters.foldl (fun o w => o.modify w (Oneshot.send value)) s.oneshots } := by
  induction waiters generalizing s with
  | nil => rfl
  | cons w ws ih => rw [List.foldl_cons, ih]; rfl

namespace Op

/-- The task store an operation leaves. -/
def taskStoreAfter (s : Server) {β : Type} : Op β → InMemoryTaskStore
  | .create task => (s.taskStore.create task).2
  | .update task => (s.taskStore.update task).2
  | .beginCancel id now => (s.taskStore.beginCancel id now).2
  | _ => s.taskStore

/-- The executions an operation leaves. -/
def executionsAfter (s : Server) {β : Type} : Op β → List ActiveExecution
  | .start task =>
      if (s.manager.executions task.id).isSome then s.executions else s.executions ++ [.new task]
  | .publish x snapshotTask =>
      s.executions.modify x fun active => { active with
        snapshotTask := snapshotTask.getD active.snapshotTask
        sequence := active.sequence + 1 }
  | .broadcast x event =>
      if s.listening x then
        s.executions.modify x fun active => { active with sent := active.sent ++ [event] }
      else s.executions
  | _ => s.executions

/-- The registered executions an operation leaves. -/
def registeredAfter (s : Server) {β : Type} : Op β → TaskId → Option ExecId
  | .start task =>
      if (s.manager.executions task.id).isSome then s.manager.executions
      else Function.update s.manager.executions task.id (some s.executions.length)
  | .finish id x => (s.manager.finish id x).executions
  | _ => s.manager.executions

/-- The queues of waiting subscriptions an operation leaves. -/
def waitingAfter (s : Server) {β : Type} : Op β → TaskId → List WaiterId
  | .start task =>
      if (s.manager.executions task.id).isSome then s.manager.waiting
      else Function.update s.manager.waiting task.id []
  | .subscribe id =>
      if (s.manager.executions id).isSome then s.manager.waiting
      else Function.update s.manager.waiting id (s.manager.waiting id ++ [s.oneshots.length])
  | .takeWaiting id => Function.update s.manager.waiting id []
  | .dropWaiter id w =>
      Function.update s.manager.waiting id ((s.manager.waiting id).filter fun v =>
        !(s.oneshots.set w .closed)[v]?.any (·.isClosed))
  | _ => s.manager.waiting

/-- The waiters' channels an operation leaves. -/
def oneshotsAfter (s : Server) {β : Type} : Op β → List Oneshot
  | .start task =>
      if (s.manager.executions task.id).isSome then s.oneshots
      else (s.manager.waiting task.id).foldl
        (fun o w => o.modify w (Oneshot.send ⟨some ⟨s.executions.length, 0⟩, task, 0⟩)) s.oneshots
  | .subscribe id =>
      if (s.manager.executions id).isSome then s.oneshots else s.oneshots ++ [.empty]
  | .hand w value => s.oneshots.modify w (Oneshot.send value)
  | .attached w =>
      match s.oneshots[w]? with
      | some (.full _) => s.oneshots.set w .closed
      | _ => s.oneshots
  | .await w => s.oneshots.set w .closed
  | .dropWaiter _ w => s.oneshots.set w .closed
  | _ => s.oneshots

/-- What was pushed after an operation. -/
def webhooksAfter (s : Server) {β : Type} : Op β → List (TaskPushNotificationConfig × StreamResponse)
  | .sendPush config event _ => s.webhooks ++ [(config, event)]
  | _ => s.webhooks

/-- Each part of the server after an operation. -/
structure Effects {β : Type} (s : Server) (op : Op β) (s₁ : Server) : Prop where
  threads : s₁.threads = s.threads
  taskStore : s₁.taskStore = op.taskStoreAfter s
  executions : s₁.executions = op.executionsAfter s
  registered : s₁.manager.executions = op.registeredAfter s
  waiting : s₁.manager.waiting = op.waitingAfter s
  oneshots : s₁.oneshots = op.oneshotsAfter s
  webhooks : s₁.webhooks = op.webhooksAfter s

variable {β : Type} {op : Op β} {s s₁ : Server} {b : β}

/-- **What an operation does**, part by part. -/
theorem effects (hr : op.run s = some (s₁, b)) : op.Effects s s₁ := by
  cases op with
  | start task =>
      simp only [run, ExecutionManager.start] at hr
      by_cases hx : (s.manager.executions task.id).isSome
      · simp only [if_pos hx, Option.some.injEq, Prod.mk.injEq] at hr
        obtain ⟨rfl, _⟩ := hr
        constructor <;> simp [taskStoreAfter, executionsAfter, registeredAfter, waitingAfter,
          oneshotsAfter, webhooksAfter, hx]
      · simp only [if_neg hx, foldl_hand, Option.some.injEq, Prod.mk.injEq] at hr
        obtain ⟨rfl, _⟩ := hr
        constructor <;> simp [taskStoreAfter, executionsAfter, registeredAfter, waitingAfter,
          oneshotsAfter, webhooksAfter, hx, ExecutionManager.insert, ExecutionManager.takeWaiting]
  | subscribe id =>
      simp only [run, ExecutionManager.get] at hr
      cases hx : s.manager.executions id with
      | some x =>
          simp only [hx] at hr
          split at hr <;> cases hr
          constructor <;> simp [taskStoreAfter, executionsAfter, registeredAfter, waitingAfter,
            oneshotsAfter, webhooksAfter, hx]
      | none =>
          simp only [hx, Option.some.injEq, Prod.mk.injEq] at hr
          obtain ⟨rfl, _⟩ := hr
          constructor <;> simp [taskStoreAfter, executionsAfter, registeredAfter, waitingAfter,
            oneshotsAfter, webhooksAfter, hx, ExecutionManager.enqueue]
  | listPushConfigs id order => simp only [run] at hr; split at hr <;> cases hr; constructor <;> rfl
  | attached w =>
      simp only [run] at hr
      split at hr
      · next hw => cases hr; constructor <;> simp [taskStoreAfter, executionsAfter, registeredAfter,
          waitingAfter, oneshotsAfter, webhooksAfter, hw]
      · next hw =>
          cases hr
          refine ⟨rfl, rfl, rfl, rfl, rfl, ?_, rfl⟩
          simp only [oneshotsAfter]
  | await w => simp only [run] at hr; split at hr <;> cases hr; constructor <;> rfl
  | broadcast x event =>
      simp only [run, Option.some.injEq, Prod.mk.injEq] at hr
      obtain ⟨rfl, _⟩ := hr
      cases hl : s.listening x <;> constructor <;>
        simp [taskStoreAfter, executionsAfter, registeredAfter, waitingAfter, oneshotsAfter,
          webhooksAfter, hl, Server.modifyExecution]
  | recv receiver =>
      simp only [run] at hr
      split at hr
      · contradiction
      · split at hr
        · cases hr; constructor <;> rfl
        · split at hr
          · cases hr; constructor <;> rfl
          · split at hr <;> cases hr; constructor <;> rfl
  | listen x =>
      simp only [run, Option.map_eq_some_iff, Prod.mk.injEq] at hr
      obtain ⟨_, _, rfl, _⟩ := hr; constructor <;> rfl
  | readState x =>
      simp only [run, Option.map_eq_some_iff, Prod.mk.injEq] at hr
      obtain ⟨_, _, rfl, _⟩ := hr; constructor <;> rfl
  | publish x snapshotTask =>
      simp only [run, Option.map_eq_some_iff, Prod.mk.injEq] at hr
      obtain ⟨_, _, rfl, _⟩ := hr; constructor <;> rfl
  | finish id x =>
      simp only [run, Option.some.injEq, Prod.mk.injEq] at hr
      obtain ⟨rfl, _⟩ := hr
      refine ⟨rfl, rfl, rfl, rfl, ?_, rfl, rfl⟩
      simp only [waitingAfter, ExecutionManager.finish]
      split <;> rfl
  | halt => contradiction
  | _ =>
      simp only [run, Option.some.injEq, Prod.mk.injEq] at hr
      obtain ⟨rfl, _⟩ := hr
      constructor <;> rfl

/-! ### the task store -/

/-- The task an operation stores, if it succeeds. -/
def writes {β : Type} (s : Server) : Op β → Option Task
  | .create task => if s.taskStore.get task.id = none then some task else none
  | .update task =>
      match (s.taskStore.update task).1 with
      | .ok _ => some task
      | .error _ => none
  | .beginCancel id now =>
      match (s.taskStore.beginCancel id now).1 with
      | .ok task => some task
      | .error _ => none
  | _ => none

/-- An operation leaves the task store alone, or writes one task: under a
free id, or over a task whose terminal state it keeps. -/
theorem taskStoreAfter_cases (s : Server) (op : Op β) :
    (op.writes s = none ∧ op.taskStoreAfter s = s.taskStore) ∨
      ∃ x, op.writes s = some x ∧ Wrote s.taskStore x (op.taskStoreAfter s) ∧
        ∀ old, s.taskStore.get x.id = some old → old.isTerminal = true →
          old.status.state = x.status.state := by
  cases op with
  | create task =>
      rcases create_cases s.taskStore task with ⟨hne, hc⟩ | ⟨hfree, store, hc, hw⟩
      · exact .inl ⟨by simp [writes, hne], by simp [taskStoreAfter, hc]⟩
      · refine .inr ⟨task, by simp [writes, hfree], by simpa [taskStoreAfter, hc] using hw, ?_⟩
        intro old hold
        rw [hfree] at hold
        contradiction
  | update task =>
      rcases update_cases s.taskStore task with ⟨_, hu⟩ | ⟨_, _, _, _, hu⟩ | ⟨old, v, st, hg, hk, hu, hw⟩
      · exact .inl ⟨by simp [writes, hu], by simp [taskStoreAfter, hu]⟩
      · exact .inl ⟨by simp [writes, hu], by simp [taskStoreAfter, hu]⟩
      · refine .inr ⟨task, by simp [writes, hu], by simpa [taskStoreAfter, hu] using hw, ?_⟩
        intro old' hold' hterm
        obtain rfl := Option.some.inj (hg.symm.trans hold')
        exact hk hterm
  | beginCancel id now =>
      rcases beginCancel_cases s.taskStore id now with
        ⟨_, hb⟩ | ⟨_, _, _, hb⟩ | ⟨old, st, hg, hlive, hb, hw⟩
      · exact .inl ⟨by simp [writes, hb], by simp [taskStoreAfter, hb]⟩
      · exact .inl ⟨by simp [writes, hb], by simp [taskStoreAfter, hb]⟩
      · refine .inr ⟨canceledTask old now, by simp [writes, hb],
          by simpa [taskStoreAfter, hb] using hw, ?_⟩
        intro old' hold' hterm
        rw [canceledTask_id, get_id hg] at hold'
        obtain rfl := Option.some.inj (hg.symm.trans hold')
        rw [hlive] at hterm
        contradiction
  | _ => exact .inl ⟨rfl, rfl⟩

end Op

/-! ## the server after a step -/

namespace Server.Ran

variable {s s' s₁ : Server} {i : Nat} {cmd : Cmd} {b : cmd.β} {t t' : Thread}

theorem effects (hr : s.Ran i cmd s' s₁ b) : cmd.op.Effects s s₁ := Op.effects hr.run

/-- The task store after the step. -/
theorem taskStore (hr : s.Ran i cmd s' s₁ b) : s'.taskStore = cmd.op.taskStoreAfter s := by
  rw [hr.eq]
  exact hr.effects.taskStore

/-- The executions after it. -/
theorem executions (hr : s.Ran i cmd s' s₁ b) : s'.executions = cmd.op.executionsAfter s := by
  rw [hr.eq]
  exact hr.effects.executions

/-- What is registered then. -/
theorem registered (hr : s.Ran i cmd s' s₁ b) :
    s'.manager.executions = cmd.op.registeredAfter s := by
  rw [hr.eq]
  exact hr.effects.registered

/-- Who waits then. -/
theorem waiting (hr : s.Ran i cmd s' s₁ b) : s'.manager.waiting = cmd.op.waitingAfter s := by
  rw [hr.eq]
  exact hr.effects.waiting

/-- What was handed over. -/
theorem oneshots (hr : s.Ran i cmd s' s₁ b) : s'.oneshots = cmd.op.oneshotsAfter s := by
  rw [hr.eq]
  exact hr.effects.oneshots

/-- What was pushed. -/
theorem webhooks (hr : s.Ran i cmd s' s₁ b) : s'.webhooks = cmd.op.webhooksAfter s := by
  rw [hr.eq]
  exact hr.effects.webhooks

/-- The threads after the step: the one that acted, and those it spawned. -/
theorem threads (hr : s.Ran i cmd s' s₁ b) :
    s'.threads = s.threads.set i (cmd.resume b).1 ++ (cmd.resume b).2 := by
  rw [hr.eq, ← hr.effects.threads]

/-- Every thread after a step is the one that acted, one that did not, or
one it spawned. -/
theorem thread_cases (hr : s.Ran i cmd s' s₁ b) (hk : s'.threads[k]? = some t') :
    (k = i ∧ t' = (cmd.resume b).1) ∨ (k ≠ i ∧ s.threads[k]? = some t') ∨
      (s.threads.length ≤ k ∧ t' ∈ (cmd.resume b).2) := by
  rw [hr.threads] at hk
  by_cases hlt : k < s.threads.length
  · rw [List.getElem?_append_left (by simpa using hlt)] at hk
    by_cases hki : k = i
    · subst hki
      rw [List.getElem?_set_self hlt] at hk
      exact .inl ⟨rfl, (Option.some.inj hk).symm⟩
    · rw [List.getElem?_set_ne (Ne.symm hki)] at hk
      exact .inr (.inl ⟨hki, hk⟩)
  · rw [List.getElem?_append_right (by simpa using hlt)] at hk
    exact .inr (.inr ⟨by omega, List.mem_of_getElem? hk⟩)

/-- A thread is the one that acted, or was there, or was spawned. -/
theorem mem_threads (hr : s.Ran i cmd s' s₁ b) (ht : t' ∈ s'.threads) :
    t' = (cmd.resume b).1 ∨ t' ∈ s.threads ∨ t' ∈ (cmd.resume b).2 := by
  obtain ⟨k, hk⟩ := List.mem_iff_getElem?.mp ht
  rcases hr.thread_cases hk with ⟨_, h⟩ | ⟨_, h⟩ | ⟨_, h⟩
  · exact .inl h
  · exact .inr (.inl (List.mem_of_getElem? h))
  · exact .inr (.inr h)

/-- The thread that acted, after the step. -/
theorem getElem_self (hr : s.Ran i cmd s' s₁ b) (hi : s.threads[i]? = some t) :
    s'.threads[i]? = some (cmd.resume b).1 := by
  have hlt : i < s.threads.length := (List.getElem?_eq_some_iff.mp hi).1
  rw [hr.threads, List.getElem?_append_left (by simpa using hlt), List.getElem?_set_self hlt]

/-- The other threads, after the step. -/
theorem getElem_other (hr : s.Ran i cmd s' s₁ b) (hne : k ≠ i) (hk : s.threads[k]? = some t) :
    s'.threads[k]? = some t := by
  have hlt : k < s.threads.length := (List.getElem?_eq_some_iff.mp hk).1
  rw [hr.threads, List.getElem?_append_left (by simpa using hlt),
    List.getElem?_set_ne (Ne.symm hne), hk]

end Server.Ran

/-- What `f` sees of each thread; `d` where there is none. -/
def Server.view (s : Server) {γ : Type} (d : γ) (f : Thread → γ) (i : Nat) : γ :=
  match s.threads[i]? with
  | some t => f t
  | none => d

section view

variable {γ : Type} {d : γ} {f : Thread → γ} {s s' s₁ : Server} {i : Nat} {t : Thread}

theorem Server.view_of_getElem (hi : s.threads[i]? = some t) : s.view d f i = f t := by
  simp [view, hi]

/-- A thread that looks the same. -/
theorem Server.view_same (s : Server) (d : γ) (f : Thread → γ) (t' : Thread)
    (hi : s.threads[i]? = some t) (hf : f t' = f t) :
    Function.update (s.view d f) i (f t') = s.view d f := by
  rw [Function.update_eq_self_iff, hf, Server.view_of_getElem hi]

/-- A call that arrives is not seen. -/
theorem Server.view_call (hd : f t = d) :
    ({ s with threads := s.threads ++ [t] } : Server).view d f = s.view d f := by
  funext k
  simp only [view, List.getElem?_append, List.getElem?_singleton]
  split_ifs with hlt hk
  · rfl
  · simp [hd, List.getElem?_eq_none (Nat.le_of_not_lt hlt)]
  · simp [List.getElem?_eq_none (Nat.le_of_not_lt hlt)]

/-- A step changes what is seen of the thread that acts. -/
theorem Server.Ran.view {cmd : Cmd} {b : cmd.β} (hr : s.Ran i cmd s' s₁ b)
    (hi : s.threads[i]? = some t) (hnew : ∀ t₂ ∈ (cmd.resume b).2, f t₂ = d) :
    s'.view d f = Function.update (s.view d f) i (f (cmd.resume b).1) := by
  funext k
  by_cases hki : k = i
  · subst hki
    rw [Function.update_self, Server.view_of_getElem (hr.getElem_self hi)]
  · rw [Function.update_of_ne hki]
    cases hk : s.threads[k]? with
    | some t₁ =>
        rw [Server.view_of_getElem hk, Server.view_of_getElem (hr.getElem_other hki hk)]
    | none =>
        have hd : s.view d f k = d := by simp [Server.view, hk]
        rw [hd]
        cases hk' : s'.threads[k]? with
        | none => simp [Server.view, hk']
        | some t' =>
            rw [Server.view_of_getElem hk']
            obtain ⟨rfl, _⟩ | ⟨_, h⟩ | ⟨_, h⟩ := hr.thread_cases hk'
            · contradiction
            · rw [hk] at h
              contradiction
            · exact hnew t' h

end view

/-! ## reasoning about a command -/

/-- What holds of the server and the threads after a command, however its
operation is answered. -/
def Cmd.Post (cmd : Cmd) (s : Server) (Q : Server → Thread → List Thread → Prop) : Prop :=
  ∀ s₁ b, cmd.op.run s = some (s₁, b) → Q s₁ (cmd.resume b).1 (cmd.resume b).2

variable {s : Server} {Q : Server → Thread → List Thread → Prop}

/-- What every outcome of a command has, the one of the step has. -/
theorem Server.Ran.post {s' s₁ : Server} {cmd : Cmd} {b : cmd.β} (hr : s.Ran i cmd s' s₁ b)
    (hp : cmd.Post s Q) : Q s₁ (cmd.resume b).1 (cmd.resume b).2 := hp s₁ b hr.run

/-- What a thread's step leaves, from what its command leaves. -/
theorem step_post {h : Handler} {s s' : Server} {i : Nat} {inp : Input} {t : Thread}
    {Q : Server → Thread → List Thread → Prop} (hs : Server.step h s (.step i inp) = some s')
    (hi : s.threads[i]? = some t) (hp : (t.next h inp).Post s Q) :
    ∃ s₁ t' new, Q s₁ t' new ∧ s'.threads[i]? = some t' ∧ s'.taskStore = s₁.taskStore := by
  obtain ⟨request, he, _⟩ | ⟨k, t₀, cmd, s₁, b, hruns, hran⟩ := step_cases hs
  · contradiction
  · obtain ⟨hk, ⟨inp', he, rfl⟩ | ⟨he, _⟩⟩ := hruns
    · cases he
      obtain rfl := Option.some.inj (hi.symm.trans hk)
      exact ⟨s₁, _, _, hran.post hp, hran.getElem_self hi, by rw [hran.eq]⟩
    · contradiction

/-- A command whose answer does not matter. -/
theorem Cmd.post_of_forall {β : Type} {op : Op β} {k : β → Thread}
    (hk : ∀ s₁ b, Q s₁ (k b) []) : (op.andThen k).Post s Q := fun s₁ b _ => hk s₁ b

/-- A command whose operation is answered. -/
theorem Cmd.post_of_run {β : Type} {op : Op β} {k : β → Thread} {s₁ : Server} {b : β}
    (hr : op.run s = some (s₁, b)) : (op.andThen k).Post s Q ↔ Q s₁ (k b) [] := by
  constructor
  · exact fun hp => hp s₁ b hr
  · intro hq s₂ b₂ hr₂
    have he : (s₁, b) = (s₂, b₂) := Option.some.inj (hr.symm.trans hr₂)
    cases he
    exact hq

@[simp] theorem Cmd.post_halt {k : Empty → Thread × List Thread} : Cmd.Post ⟨.halt, k⟩ s Q :=
  fun _ _ hr => by contradiction

@[simp] theorem Cmd.post_pass {k : Unit → Thread} :
    (Op.pass.andThen k).Post s Q ↔ Q s (k ()) [] := Cmd.post_of_run rfl

@[simp] theorem Cmd.post_get {k : Option Task → Thread} {taskId : TaskId} :
    ((Op.get taskId).andThen k).Post s Q ↔ Q s (k (s.taskStore.get taskId)) [] :=
  Cmd.post_of_run rfl

@[simp] theorem Cmd.post_create {k : Except A2AError TaskVersion → Thread} {task : Task} :
    ((Op.create task).andThen k).Post s Q ↔
      Q { s with taskStore := (s.taskStore.create task).2 } (k (s.taskStore.create task).1) [] :=
  Cmd.post_of_run rfl

@[simp] theorem Cmd.post_beginCancel {k : Except A2AError Task → Thread} {taskId : TaskId}
    {now : DateTime} :
    ((Op.beginCancel taskId now).andThen k).Post s Q ↔
      Q { s with taskStore := (s.taskStore.beginCancel taskId now).2 }
        (k (s.taskStore.beginCancel taskId now).1) [] :=
  Cmd.post_of_run rfl

@[simp] theorem Cmd.post_savePushConfig
    {k : Except A2AError TaskPushNotificationConfig → Thread} {newId : String}
    {config : TaskPushNotificationConfig} :
    ((Op.savePushConfig h newId config).andThen k).Post s Q ↔
      Q { s with pushConfigStore := (h.savePushConfig newId config s.pushConfigStore).2 }
        (k (h.savePushConfig newId config s.pushConfigStore).1) [] :=
  Cmd.post_of_run rfl

/-- A push leads to its continuation. -/
theorem post_pushCmd {k : PushPc ⊕ Except A2AError Unit → Thread} (hk : ∀ s₁ o, Q s₁ (k o) []) :
    (pushCmd inp taskId event pc k).Post s Q := by
  rcases pc with _ | ⟨_ | ⟨config, rest⟩⟩
  · exact Cmd.post_of_forall fun s₁ _ => hk s₁ _
  · exact Cmd.post_of_forall fun s₁ _ => hk s₁ _
  · refine Cmd.post_of_forall fun s₁ o => ?_
    cases o <;> exact hk s₁ _

/-- A publication leads to its continuation. -/
theorem post_publishCmd {k : Option PublishPc → Thread} (hk : ∀ s₁ o, Q s₁ (k o) []) :
    (publishCmd x result snapshotTask pc k).Post s Q := by
  cases pc with
  | write => exact Cmd.post_of_forall fun s₁ _ => hk s₁ _
  | count sequence =>
      refine Cmd.post_of_forall fun s₁ o => ?_
      cases o <;> exact hk s₁ _
  | send sequence => exact Cmd.post_of_forall fun s₁ _ => hk s₁ _

/-- So does a release. -/
theorem post_releaseCmd {k : Option ReleasePc → Thread} (hk : ∀ s₁ o, Q s₁ (k o) []) :
    (releaseCmd task pc k).Post s Q := by
  rcases pc with _ | ⟨_ | ⟨w, rest⟩⟩ <;> exact Cmd.post_of_forall fun s₁ _ => hk s₁ _

/-- So does a poll. -/
theorem post_pollCmd {k : Subscription → Option (Option Item) → Thread}
    (hk : ∀ s₁ sub o, Q s₁ (k sub o) []) : (pollCmd sub k).Post s Q := by
  simp only [pollCmd]
  split
  · exact Cmd.post_of_forall fun s₁ _ => hk s₁ _ _
  · split
    · exact Cmd.post_of_forall fun s₁ _ => hk s₁ _ _
    · exact Cmd.post_of_forall fun s₁ _ => hk s₁ _ _
    · refine Cmd.post_of_forall fun s₁ o => ?_
      cases o <;> exact hk s₁ _ _

/-- What holds of every thread a command leaves, whatever answer to its
operation is one of `A`. -/
def Cmd.Ends (cmd : Cmd) (A : ∀ {β : Type}, Op β → β → Prop) (R : Thread → Prop) : Prop :=
  ∀ b, A cmd.op b → R (cmd.resume b).1 ∧ ∀ t ∈ (cmd.resume b).2, R t

section Ends

variable {A : ∀ {β : Type}, Op β → β → Prop} {R : Thread → Prop}

/-- A command ends as each answer's continuation does. -/
theorem Cmd.ends_andThen {β : Type} {op : Op β} {k : β → Thread}
    (hk : ∀ b, A op b → R (k b)) : (op.andThen k).Ends A R := fun b hb =>
  ⟨hk b hb, fun _ ht => absurd ht List.not_mem_nil⟩

/-- One that halts does not. -/
theorem Cmd.ends_halt {k : Empty → Thread × List Thread} : Cmd.Ends ⟨.halt, k⟩ A R :=
  fun b => b.elim

/-- A save that is over stored its task. -/
theorem saveStep_done {task task' : Task} {pc : SavePc} {answer : Except A2AError TaskVersion}
    (h : saveStep pc task answer = .inr (.ok task')) :
    task' = task ∧ ∃ version, answer = .ok version := by
  cases answer with
  | ok version =>
      obtain rfl := Except.ok.inj (Sum.inr.inj h)
      exact ⟨rfl, version, rfl⟩
  | error error =>
      simp only [saveStep] at h
      split at h <;> cases h

/-- A push ends so if its continuation does. -/
theorem pushCmd_ends {inp : Input} {taskId : TaskId} {event : StreamResponse} {pc : PushPc}
    {k : PushPc ⊕ Except A2AError Unit → Thread} (hk : ∀ o, R (k o)) :
    (pushCmd inp taskId event pc k).Ends A R := by
  obtain _ | _ | ⟨config, rest⟩ := pc
  · exact Cmd.ends_andThen fun _ _ => hk _
  · exact Cmd.ends_andThen fun _ _ => hk _
  · refine Cmd.ends_andThen fun o _ => ?_
    cases o <;> exact hk _

/-- So does a publication. -/
theorem publishCmd_ends {x : ExecId} {result : Item} {snapshotTask : Option Task}
    {pc : PublishPc} {k : Option PublishPc → Thread} (hk : ∀ o, R (k o)) :
    (publishCmd x result snapshotTask pc k).Ends A R := by
  cases pc with
  | write => exact Cmd.ends_andThen fun _ _ => hk _
  | count sequence =>
      refine Cmd.ends_andThen fun o _ => ?_
      cases o <;> exact hk _
  | send sequence => exact Cmd.ends_andThen fun _ _ => hk _

/-- So does a release. -/
theorem releaseCmd_ends {task : Task} {pc : ReleasePc} {k : Option ReleasePc → Thread}
    (hk : ∀ o, R (k o)) : (releaseCmd task pc k).Ends A R := by
  obtain _ | _ | ⟨w, rest⟩ := pc <;> exact Cmd.ends_andThen fun _ _ => hk _

end Ends

/-! ## a thread stays the call it is -/

/-- `t'` is `t` some steps later, having spawned `new`. -/
def Thread.Continues (t t' : Thread) (new : List Thread) : Prop :=
  match t, t' with
  | .send call pc, .send call' _ =>
      call' = call ∧ (new = [] ∨ ∃ p x, pc = .attach p x ∧ new = [.drive (call.driver p x)])
  | .drive d, .drive d' => d'.taskId = d.taskId ∧ d'.exec = d.exec ∧ d'.ctx = d.ctx ∧ new = []
  | .cancel call _, .cancel call' _ => call' = call ∧ new = []
  | .subscribe call _, .subscribe call' _ => call' = call ∧ new = []
  | _, .dropped => new = []
  | _, _ => False

@[simp] theorem Driver.continues_goto (d : Driver) (pc : DrivePc) :
    (Thread.drive d).Continues (d.goto pc) [] := ⟨rfl, rfl, rfl, rfl⟩

/-- A driver that fails is the same driver. -/
theorem Driver.continues_fail {d d' : Driver} (hid : d'.taskId = d.taskId)
    (hx : d'.exec = d.exec) (hc : d'.ctx = d.ctx) (inp : Input) (error : A2AError) :
    (Thread.drive d).Continues (d'.fail inp error) [] := by
  simp only [Driver.fail]
  split <;> exact ⟨hid, hx, hc, rfl⟩

/-- So is one that accepts an event. -/
theorem Driver.continues_accept {d d' : Driver} (hid : d'.taskId = d.taskId)
    (hx : d'.exec = d.exec) (hc : d'.ctx = d.ctx) (inp : Input) (event : StreamResponse) :
    (Thread.drive d).Continues (d'.accept inp event) [] := by
  simp only [Driver.accept]
  split
  · exact Driver.continues_fail hid hx hc _ _
  · split
    · exact ⟨hid, hx, hc, rfl⟩
    · split
      · exact ⟨hid, hx, hc, rfl⟩
      · exact Driver.continues_fail (by exact hid) (by exact hx) (by exact hc) _ _

/-- **A driver keeps its task, its execution and its context.** -/
theorem Driver.next_continues (d : Driver) (inp : Input) :
    (d.next inp).Post s fun _ t' new => (Thread.drive d).Continues t' new := by
  cases hpc : d.pc <;> simp only [Driver.next, hpc]
  case start => exact Cmd.post_of_forall fun _ _ => ⟨rfl, rfl, rfl, rfl⟩
  case poll =>
    split
    · simp
    · refine Cmd.post_of_forall fun _ _ => ?_
      split
      · exact ⟨rfl, rfl, rfl, rfl⟩
      · split
        · exact Driver.continues_accept (by rfl) (by rfl) (by rfl) _ _
        · exact Driver.continues_fail (by rfl) (by rfl) (by rfl) _ _
  case saving =>
    refine Cmd.post_of_forall fun _ _ => ?_
    split
    · simp
    · exact ⟨rfl, rfl, rfl, rfl⟩
    · exact Driver.continues_fail rfl rfl rfl _ _
  case pushing =>
    refine post_pushCmd fun _ o => ?_
    rcases o with _ | _ | _
    · simp
    · exact Driver.continues_fail rfl rfl rfl _ _
    · simp
  case publishing =>
    refine post_publishCmd fun _ o => ?_
    cases o <;> simp
  case failSaving =>
    refine Cmd.post_of_forall fun _ _ => ?_
    split <;> simp
  case failPushing =>
    refine post_pushCmd fun _ o => ?_
    cases o <;> simp
  case failPublishing =>
    refine post_publishCmd fun _ o => ?_
    cases o <;> simp
  case finishing => exact Cmd.post_of_forall fun _ _ => by simp
  case done => simp

@[simp] theorem cancel_continues (call : CancelCall) (pc pc' : CancelPc) :
    (Thread.cancel call pc).Continues (.cancel call pc') [] := ⟨rfl, rfl⟩

/-- **A cancel keeps its call.** -/
theorem CancelCall.next_continues (call : CancelCall) (pc : CancelPc) (inp : Input) :
    (call.next h inp pc).Post s fun _ t' new => (Thread.cancel call pc).Continues t' new := by
  cases pc <;> simp only [CancelCall.next]
  case load =>
    split
    · simp
    · simp only [Cmd.post_get]
      split
      · simp
      · split_ifs <;> simp
  case beginCancel =>
    refine Cmd.post_of_forall fun _ o => ?_
    cases o with
    | ok task => simp
    | error error => dsimp only; split <;> simp
  case raced =>
    simp only [Cmd.post_get]
    split
    · simp
    · split <;> simp
  case getActive => exact Cmd.post_of_forall fun _ _ => by simp
  case polling =>
    simp only [Cmd.post_pass]
    split
    · simp
    · simp
    · split <;> simp
  case saving =>
    refine Cmd.post_of_forall fun _ _ => ?_
    split <;> simp
  case pushing =>
    refine post_pushCmd fun _ o => ?_
    rcases o with _ | _ | _
    · simp
    · simp
    · dsimp only; split <;> simp
  case publishing =>
    split
    · simp
    · refine post_publishCmd fun _ o => ?_
      cases o <;> simp
  case failPublishing =>
    split
    · simp
    · refine post_publishCmd fun _ o => ?_
      cases o <;> simp
  case failLoad =>
    simp only [Cmd.post_get]
    split <;> simp
  case failPushing =>
    refine post_pushCmd fun _ o => ?_
    cases o <;> simp
  case finishing =>
    split
    · simp
    · exact Cmd.post_of_forall fun _ _ => by simp
  case finalLoad =>
    simp only [Cmd.post_get]
    split
    · simp
    · split <;> simp
  case finalPushing =>
    refine post_pushCmd fun _ o => ?_
    rcases o with _ | _ | _ <;> simp
  case releasing =>
    refine post_releaseCmd fun _ o => ?_
    cases o <;> simp
  case dropping =>
    refine post_releaseCmd fun _ o => ?_
    cases o <;> simp
  case returned => simp

@[simp] theorem send_continues (call : SendCall) (pc pc' : SendPc) :
    (Thread.send call pc).Continues (.send call pc') [] := ⟨rfl, .inl rfl⟩

/-- **A send keeps its call**, and spawns at most its driver. -/
theorem SendCall.next_continues (call : SendCall) (pc : SendPc) (inp : Input) :
    (call.next h inp pc).Post s fun _ t' new => (Thread.send call pc).Continues t' new := by
  cases pc <;> simp only [SendCall.next]
  case load =>
    split
    · simp
    · simp only [Cmd.post_get]
      split
      · simp
      · split <;> simp
  case create =>
    refine Cmd.post_of_forall fun _ o => ?_
    cases o <;> simp
  case savePush =>
    split
    · simp
    · refine Cmd.post_of_forall fun _ o => ?_
      cases o <;> simp
  case start =>
    refine Cmd.post_of_forall fun _ o => ?_
    cases o <;> simp
  case attach prepared x => exact fun _ _ _ => ⟨rfl, .inr ⟨prepared, x, rfl, rfl⟩⟩
  case following =>
    refine post_pollCmd fun _ _ o => ?_
    rcases o with _ | _ | _ <;> simp
  case answering => simp
  case streaming =>
    refine post_pollCmd fun _ _ o => ?_
    rcases o with _ | _ | _ <;> simp
  case returned => simp
  case ended => simp

@[simp] theorem subscribe_continues (call : SubscribeCall) (pc pc' : SubscribePc) :
    (Thread.subscribe call pc).Continues (.subscribe call pc') [] := ⟨rfl, rfl⟩

/-- **A subscription keeps its call.** -/
theorem SubscribeCall.next_continues (call : SubscribeCall) (pc : SubscribePc) :
    (call.next h pc).Post s fun _ t' new => (Thread.subscribe call pc).Continues t' new := by
  cases pc <;> simp only [SubscribeCall.next]
  case register =>
    split
    · simp
    · simp
    · refine Cmd.post_of_forall fun _ o => ?_
      cases o <;> simp
  case readState => exact Cmd.post_of_forall fun _ _ => by simp
  case attached =>
    refine Cmd.post_of_forall fun _ o => ?_
    cases o <;> simp
  case load =>
    simp only [Cmd.post_get]
    split <;> simp
  case loaded =>
    refine Cmd.post_of_forall fun _ o => ?_
    cases o with
    | none => dsimp only; split <;> simp
    | some value => simp
  case refusing => exact Cmd.post_of_forall fun _ _ => by simp
  case opening => simp
  case waiting => exact Cmd.post_of_forall fun _ _ => by simp
  case streaming =>
    refine post_pollCmd fun _ _ o => ?_
    rcases o with _ | _ | _ <;> simp
  case refused => simp
  case ended => simp

/-- A stream that is dropped leaves a thread that is done. -/
theorem Thread.drop_dropped (t : Thread) :
    t.drop.Post s fun _ t' new => t' = .dropped ∧ new = [] := by
  unfold Thread.drop
  split
  · simp
  · exact Cmd.post_of_forall fun _ _ => ⟨rfl, rfl⟩
  · exact Cmd.post_of_forall fun _ _ => ⟨rfl, rfl⟩
  · simp
  · simp

/-- **A thread stays the call it is**: it goes on, spawns the driver of its
execution, or is dropped. -/
theorem Server.runs.continues {a : Action} {t : Thread} {cmd : Cmd} (hr : s.runs h a i t cmd) :
    cmd.Post s fun _ t' new => t.Continues t' new := by
  obtain ⟨_, ⟨inp, _, rfl⟩ | ⟨_, rfl⟩⟩ := hr
  · cases t with
    | send call pc => exact call.next_continues pc inp
    | drive d => exact d.next_continues inp
    | cancel call pc => exact call.next_continues pc inp
    | subscribe call pc => exact call.next_continues pc
    | dropped => exact Cmd.post_halt
  · intro s₁ b hrun
    obtain ⟨ht', hnew⟩ := Thread.drop_dropped t s₁ b hrun
    rw [ht', hnew]
    cases t <;> rfl

/-- A step spawns nothing but the driver of a registered send. -/
theorem Thread.Continues.spawned {t t' t₂ : Thread} {new : List Thread}
    (hc : t.Continues t' new) (hmem : t₂ ∈ new) :
    ∃ call p x, t = .send call (.attach p x) ∧ t₂ = .drive (call.driver p x) := by
  cases t with
  | send call pc =>
      cases t' <;> simp only [Thread.Continues] at hc
      case send =>
        obtain ⟨_, h | ⟨p, x, rfl, h⟩⟩ := hc <;> rw [h] at hmem
        · simp at hmem
        · exact ⟨call, p, x, rfl, List.mem_singleton.mp hmem⟩
      case dropped => simp [hc] at hmem
  | _ => cases t' <;> simp_all [Thread.Continues]

/-! ## what a step stores -/

/-- The task an action stores. -/
def Server.writes (h : Handler) (s : Server) : Action → Option Task
  | .step i inp => s.threads[i]?.bind fun t => (t.next h inp).op.writes s
  | _ => none

/-- The task a command stores. -/
def Cmd.writes (cmd : Cmd) (s : Server) : Option Task := cmd.op.writes s

/-- A save writes its own task. -/
theorem saveOp_writes {task x : Task} {pc : SavePc} (hw : (saveOp task pc).writes s = some x) :
    x = task := by
  cases pc with
  | update =>
      simp only [saveOp, Op.writes] at hw
      split at hw
      · exact (Option.some.inj hw).symm
      · contradiction
  | create =>
      simp only [saveOp, Op.writes] at hw
      split at hw
      · exact (Option.some.inj hw).symm
      · contradiction

@[simp] theorem pushCmd_writes (inp : Input) (taskId : TaskId) (event : StreamResponse)
    (pc : PushPc) (k : PushPc ⊕ Except A2AError Unit → Thread) :
    (pushCmd inp taskId event pc k).writes s = none := by
  obtain _ | _ | ⟨config, rest⟩ := pc <;> rfl

@[simp] theorem publishCmd_writes (x : ExecId) (result : Item) (snapshotTask : Option Task)
    (pc : PublishPc) (k : Option PublishPc → Thread) :
    (publishCmd x result snapshotTask pc k).writes s = none := by
  cases pc <;> rfl

@[simp] theorem releaseCmd_writes (task : Task) (pc : ReleasePc)
    (k : Option ReleasePc → Thread) : (releaseCmd task pc k).writes s = none := by
  obtain _ | _ | ⟨w, rest⟩ := pc <;> rfl

@[simp] theorem pollCmd_writes (sub : Subscription)
    (k : Subscription → Option (Option Item) → Thread) : (pollCmd sub k).writes s = none := by
  obtain ⟨receiver, snapshotTask, minSequence, done, yielded⟩ := sub
  cases done <;> cases snapshotTask <;> cases receiver <;> rfl

/-- What is refused is not stored. -/
theorem saveOp_refused {task : Task} {pc : SavePc} {s₁ : Server} {error : A2AError}
    (hr : (saveOp task pc).run s = some (s₁, .error error)) : (saveOp task pc).writes s = none := by
  cases pc with
  | update =>
      simp only [saveOp, Op.run, Option.some.injEq, Prod.mk.injEq] at hr
      simp only [saveOp, Op.writes, hr.2]
  | create =>
      simp only [saveOp, Op.run, Option.some.injEq, Prod.mk.injEq] at hr
      obtain ⟨hget, _⟩ | ⟨_, store', hcreate, _⟩ := create_cases s.taskStore task
      · simp only [saveOp, Op.writes, if_neg hget]
      · rw [hcreate] at hr
        cases hr.2

/-- A driver stores what an event makes of its task, or its failed task. -/
theorem Driver.writes_cases {d : Driver} {inp : Input} {x : Task}
    (hw : (d.next inp).writes s = some x) :
    (∃ event pc, d.pc = .saving event x pc) ∨ ∃ error pc, d.pc = .failSaving error x pc := by
  obtain ⟨taskId, y, ctx, current, stream, answered, tracked, pc⟩ := d
  cases pc <;> simp only [Driver.next, pushCmd_writes, publishCmd_writes, reduceCtorEq] at hw
  case poll => split at hw <;> contradiction
  case saving event task pc =>
    obtain rfl := saveOp_writes hw
    exact .inl ⟨event, pc, rfl⟩
  case failSaving error task pc =>
    obtain rfl := saveOp_writes hw
    exact .inr ⟨error, pc, rfl⟩
  all_goals contradiction

/-- A cancel stores the canceled task, or what an event makes of its task. -/
theorem CancelCall.writes_cases {call : CancelCall} {pc : CancelPc} {inp : Input} {x : Task}
    (hw : (call.next h inp pc).writes s = some x) :
    (pc = .beginCancel ∧ ∃ old, s.taskStore.get call.req.id = some old ∧
        old.isTerminal = false ∧ x = canceledTask old inp.now) ∨
      ∃ c event pc', pc = .saving c event x pc' := by
  cases pc <;> simp only [CancelCall.next, pushCmd_writes, releaseCmd_writes, reduceCtorEq] at hw
  case load => split at hw <;> contradiction
  case beginCancel =>
    simp only [Op.andThen, Cmd.writes, Op.writes] at hw
    obtain ⟨_, hb⟩ | ⟨_, _, _, hb⟩ | ⟨old, _, hget, hlive, hb, _⟩ :=
      beginCancel_cases s.taskStore call.req.id inp.now
    · simp [hb] at hw
    · simp [hb] at hw
    · simp only [hb, Option.some.injEq] at hw
      exact .inl ⟨rfl, old, hget, hlive, hw.symm⟩
  case saving c event task pc =>
    obtain rfl := saveOp_writes hw
    exact .inr ⟨c, event, pc, rfl⟩
  case publishing c event pc =>
    split at hw
    · contradiction
    · rw [publishCmd_writes] at hw
      contradiction
  case failPublishing c error pc =>
    split at hw
    · contradiction
    · rw [publishCmd_writes] at hw
      contradiction
  case finishing c => split at hw <;> contradiction
  all_goals contradiction

/-- A send stores the task it creates. -/
theorem SendCall.writes_cases {call : SendCall} {pc : SendPc} {inp : Input} {y : Task}
    (hw : (call.next h inp pc).writes s = some y) :
    ∃ p, pc = .create p ∧ y = p.task ∧ s.taskStore.get p.task.id = none := by
  cases pc <;> simp only [SendCall.next, pollCmd_writes, reduceCtorEq] at hw
  case load => split at hw <;> contradiction
  case create p =>
    simp only [Cmd.writes, Op.andThen, Op.writes] at hw
    split at hw
    · next hget => exact ⟨p, rfl, (Option.some.inj hw).symm, hget⟩
    · contradiction
  case savePush p => split at hw <;> contradiction
  all_goals contradiction

/-- A subscription writes nothing. -/
theorem SubscribeCall.writes_none (call : SubscribeCall) (pc : SubscribePc) :
    (call.next h pc).writes s = none := by
  cases pc <;> simp only [SubscribeCall.next, pollCmd_writes]
  case register => split <;> rfl
  all_goals rfl

@[simp] theorem Thread.drop_writes (t : Thread) : t.drop.op.writes s = none := by
  cases t with
  | send call pc => cases pc <;> rfl
  | subscribe call pc => cases pc <;> rfl
  | _ => rfl

/-- A thread that is no stream is not dropped. -/
theorem Server.runs.next {a : Action} {t : Thread} {cmd : Cmd} {s' s₁ : Server} {b : cmd.β}
    (hr : s.runs h a i t cmd) (hran : s.Ran i cmd s' s₁ b) (ht : t.drop = ⟨.halt, Empty.elim⟩) :
    ∃ inp, a = .step i inp ∧ cmd = t.next h inp := by
  obtain ⟨_, hnext | ⟨_, rfl⟩⟩ := hr
  · exact hnext
  · have hpost : t.drop.Post s fun _ _ _ => False := by
      rw [ht]
      exact Cmd.post_halt
    exact (hran.post hpost).elim

/-- What an action writes is what its command does. -/
theorem Server.runs.writes {a : Action} {t : Thread} {cmd : Cmd} (hr : s.runs h a i t cmd) :
    cmd.op.writes s = s.writes h a := by
  obtain ⟨ht, ⟨inp, rfl, rfl⟩ | ⟨rfl, rfl⟩⟩ := hr
  · simp [Server.writes, ht]
  · simp [Server.writes]

/-- A step leaves the task store alone, or writes the task it stores: under a
free id, or over a task whose terminal state it keeps. -/
theorem step_taskStore {a : Action} {s' : Server} (hs : Server.step h s a = some s') :
    (s.writes h a = none ∧ s'.taskStore = s.taskStore) ∨
      ∃ x, s.writes h a = some x ∧ Wrote s.taskStore x s'.taskStore ∧
        ∀ old, s.taskStore.get x.id = some old → old.isTerminal = true →
          old.status.state = x.status.state := by
  rcases step_cases hs with ⟨request, rfl, rfl⟩ | ⟨i, t, cmd, s₁, b, hruns, hran⟩
  · exact .inl ⟨rfl, rfl⟩
  · rw [hran.taskStore, ← hruns.writes]
    exact cmd.op.taskStoreAfter_cases s

/-- With unlimited retention what is stored stays stored, and a terminal
state stays as it is. -/
theorem step_stored {a : Action} {s' : Server} {y : Task} {taskId : TaskId}
    (hs : Server.step h s a = some s') (hunlimited : s.taskStore.terminalTaskLimit = none)
    (hy : s.taskStore.get taskId = some y) :
    ∃ y', s'.taskStore.get taskId = some y' ∧
      (y.isTerminal = true → y'.status.state = y.status.state) := by
  obtain ⟨_, he⟩ | ⟨x, _, hw, hkeep⟩ := step_taskStore hs
  · rw [he]
    exact ⟨y, hy, fun _ => rfl⟩
  · have hget := hw.get_of_unlimited hunlimited taskId
    by_cases hid : taskId = x.id
    · rw [if_pos hid] at hget
      exact ⟨x, hget, fun hterm => (hkeep y (hid ▸ hy) hterm).symm⟩
    · rw [if_neg hid] at hget
      exact ⟨y, hget.trans hy, fun _ => rfl⟩

/-- A store without a limit keeps none. -/
theorem step_unlimited {a : Action} {s' : Server} (hs : Server.step h s a = some s')
    (hunlimited : s.taskStore.terminalTaskLimit = none) :
    s'.taskStore.terminalTaskLimit = none := by
  obtain ⟨_, he⟩ | ⟨x, _, hw, _⟩ := step_taskStore hs
  · rw [he]
    exact hunlimited
  · exact hw.limit.trans hunlimited

end A2a
