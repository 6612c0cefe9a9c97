import A2a.Server.Steps
import A2a.TaskStore.Retention

/-!
# A2a.Server.Retention

The task store of a server, over whole runs.

A step of the server is at most one operation on the store, so that a run of
the server is, for the store, a run of `taskMachine` (`run_storeRun`), however
calls and drivers are interleaved.  What a client can rely on follows:

* the finished tasks that are kept are the last `limit` that finished;
* a task in progress is never lost;
* a finished task keeps its state for as long as it is kept.
-/

namespace A2a

open InMemoryTaskStore

variable {h : Handler} {s₀ s s' : Server} {a : Action} {tr tr' : List (Server × Action)}
  {limit : Nat} {id : TaskId} {task : Task}

/-! ## what a run does to the store -/

/-- The operation on the task store that an operation is. -/
def Op.taskOp {β : Type} : Op β → Option TaskOp
  | .create task => some (.create task)
  | .update task => some (.update task)
  | .beginCancel id now => some (.beginCancel id now)
  | _ => none

/-- The operation on the task store that a step makes. -/
def Server.taskOp (h : Handler) (s : Server) : Action → Option TaskOp
  | .call _ => none
  | .step i inp => s.threads[i]?.bind fun thread => (thread.next h inp).op.taskOp
  | .drop i => s.threads[i]?.bind fun thread => thread.drop.op.taskOp

/-- What a run does to the task store. -/
def storeRun (h : Handler) (tr : List (Server × Action)) : List (InMemoryTaskStore × TaskOp) :=
  tr.filterMap fun p => (p.1.taskOp h p.2).map fun op => (p.1.taskStore, op)

/-- The ids of the tasks that became terminal in a run, in this order. -/
def finishedIn (h : Handler) (tr : List (Server × Action)) : List TaskId :=
  finishedLog (storeRun h tr)

theorem Op.taskStoreAfter_eq {β : Type} (s : Server) (op : Op β) :
    op.taskStoreAfter s = op.taskOp.elim s.taskStore (TaskOp.next s.taskStore) := by
  cases op <;> rfl

theorem step_taskOp (hs : Server.step h s a = some s') :
    s'.taskStore = (s.taskOp h a).elim s.taskStore (TaskOp.next s.taskStore) := by
  rcases step_cases hs with ⟨request, rfl, rfl⟩ | ⟨i, t, cmd, s₁, b, ⟨ht, hcmd⟩, hran⟩
  · rfl
  · have hop : s.taskOp h a = cmd.op.taskOp := by
      rcases hcmd with ⟨inp, rfl, rfl⟩ | ⟨rfl, rfl⟩
      · rw [Server.taskOp, ht, Option.bind_some]
      · rw [Server.taskOp, ht, Option.bind_some]
    rw [hran.taskStore, hop, Op.taskStoreAfter_eq]

theorem storeRun_snoc (tr : List (Server × Action)) : storeRun h (tr ++ [(s, a)]) =
    storeRun h tr ++ ((s.taskOp h a).map fun op => (s.taskStore, op)).toList := by
  rw [storeRun, List.filterMap_append, ← storeRun]
  cases hop : s.taskOp h a with
  | none => rw [List.filterMap_cons_none (by rw [hop]; rfl)]; rfl
  | some op => rw [List.filterMap_cons_some (by rw [hop]; rfl)]; rfl

/-- **For the store, a run of the server is a sequence of operations.** -/
theorem run_storeRun (hr : (serverMachine h).Run s₀ tr s) :
    taskMachine.Run s₀.taskStore (storeRun h tr) s.taskStore := by
  induction hr with
  | nil => exact .nil
  | @snoc tr s s' a _ hs ih =>
      have hstore := step_taskOp hs
      rw [storeRun_snoc]
      cases hop : s.taskOp h a with
      | none =>
          rw [hop] at hstore
          rw [hstore, Option.map_none, Option.toList_none, List.append_nil]
          exact ih
      | some op =>
          rw [hop] at hstore
          rw [hstore, Option.map_some, Option.toList_some]
          exact ih.snoc rfl

theorem finishedIn_snoc (tr : List (Server × Action)) : finishedIn h (tr ++ [(s, a)]) =
    finishedIn h tr ++ ((s.taskOp h a).bind (TaskOp.finishes s.taskStore)).toList := by
  show finishedLog (storeRun h (tr ++ [(s, a)])) = finishedLog (storeRun h tr) ++ _
  rw [storeRun_snoc]
  cases s.taskOp h a with
  | none => rw [Option.map_none, Option.toList_none, List.append_nil, Option.bind_none,
      Option.toList_none, List.append_nil]
  | some op => rw [Option.map_some, Option.toList_some, finishedLog_snoc, Option.bind_some]

/-! ## one step -/

/-- A task in progress stays stored, unless it becomes terminal. -/
theorem Retained.next_live {store : InMemoryTaskStore} {log : List (InMemoryTaskStore × TaskOp)}
    (hret : Retained limit log store) (op : TaskOp) (hget : store.get id = some task)
    (hlive : task.isTerminal = false) :
    (∃ task', (op.next store).get id = some task' ∧ task'.isTerminal = false) ∨
      op.finishes store = some id := by
  have hkeeps := hret.keeps op
  cases hx : op.task store with
  | none =>
      have hstored : op.stored store id = some task := by rw [TaskOp.stored, hx]; exact hget
      exact .inl ⟨task, hkeeps.live id task hstored hlive, hlive⟩
  | some x =>
      by_cases hid : x.id = id
      · have hstored : op.stored store id = some x := by rw [TaskOp.stored, hx]; exact if_pos hid
        cases hterm : x.isTerminal with
        | false => exact .inl ⟨x, hkeeps.live id x hstored hterm, hterm⟩
        | true =>
            have hunfinished : store.finished x.id = false := by
              rw [hid, finished, hget]
              exact hlive
            have hdue : (!store.finished x.id && x.isTerminal) = true := by
              rw [hunfinished, hterm]
              rfl
            rw [TaskOp.finishes_of_task hx hdue, if_pos rfl, hid]
            exact .inr rfl
      · have hstored : op.stored store id = some task := by
          rw [TaskOp.stored, hx]
          exact (if_neg hid).trans hget
        exact .inl ⟨task, hkeeps.live id task hstored hlive, hlive⟩

/-- A step does not change a terminal state, though it may purge the task. -/
theorem step_keepsState (hs : Server.step h s a = some s') {task' : Task}
    (hget : s.taskStore.get id = some task) (hterm : task.isTerminal = true)
    (hget' : s'.taskStore.get id = some task') : task'.status.state = task.status.state := by
  rcases step_taskStore hs with ⟨_, hsame⟩ | ⟨x, _, hwrote, hkept⟩
  · rw [hsame] at hget'
    rw [Option.some.inj (hget'.symm.trans hget)]
  · rcases hwrote.of_get hget' with ⟨rfl, rfl⟩ | ⟨_, hother⟩
    · exact (hkept task hget hterm).symm
    · rw [Option.some.inj (hother.symm.trans hget)]

/-! ## whole runs -/

theorem retained_storeRun (hnew : s₀.taskStore = .new (some limit))
    (hr : (serverMachine h).Run s₀ tr s) : Retained limit (storeRun h tr) s.taskStore := by
  have hstore := run_storeRun hr
  rw [hnew] at hstore
  exact retained_of_run hstore

/-- The finished tasks kept are the last that finished. -/
theorem finished_iff_last (hnew : s₀.taskStore = .new (some limit))
    (hr : (serverMachine h).Run s₀ tr s) (id : TaskId) :
    (∃ task, s.taskStore.get id = some task ∧ task.isTerminal = true) ↔
      id ∈ (finishedIn h tr).rtake limit := by
  have hret := retained_storeRun hnew hr
  rw [← hret.terminal, hret.queue]
  rfl

/-- A task in progress stays stored, or becomes terminal. -/
theorem live_kept (hnew : s₀.taskStore = .new (some limit)) (hr : (serverMachine h).Run s₀ tr s)
    (hget : s.taskStore.get id = some task) (hlive : task.isTerminal = false)
    (hr' : (serverMachine h).Run s tr' s') :
    (∃ task', s'.taskStore.get id = some task' ∧ task'.isTerminal = false) ∨
      id ∈ finishedIn h tr' := by
  induction hr' with
  | nil => exact .inl ⟨task, hget, hlive⟩
  | @snoc tr' s₁ s₂ a hr' hs ih =>
      rw [finishedIn_snoc, List.mem_append]
      rcases ih with ⟨task₁, hget₁, hlive₁⟩ | hfinished
      · have hret := retained_storeRun hnew (hr.append hr')
        have hstore := step_taskOp hs
        cases hop : s₁.taskOp h a with
        | none =>
            rw [hop] at hstore
            rw [hstore]
            exact .inl ⟨task₁, hget₁, hlive₁⟩
        | some op =>
            rw [hop] at hstore
            rw [hstore]
            rcases hret.next_live op hget₁ hlive₁ with hstays | hfinishes
            · exact .inl hstays
            · rw [Option.bind_some, hfinishes]
              exact .inr (.inr (List.mem_singleton_self id))
      · exact .inr (.inl hfinished)

/-- A finished task keeps its state, as long as it is among the last. -/
theorem finished_keepsState (hnew : s₀.taskStore = .new (some limit))
    (hr : (serverMachine h).Run s₀ tr s) (hget : s.taskStore.get id = some task)
    (hterm : task.isTerminal = true) (hr' : (serverMachine h).Run s tr' s') :
    (∃ task', s'.taskStore.get id = some task' ∧ task'.status.state = task.status.state) ∨
      ∃ seen, seen <+: tr' ∧ id ∉ (finishedIn h (tr ++ seen)).rtake limit := by
  induction hr' with
  | nil => exact .inl ⟨task, hget, rfl⟩
  | @snoc tr' s₁ s₂ a hr' hs ih =>
      rcases ih with ⟨task₁, hget₁, hstate₁⟩ | ⟨seen, hseen, hlost⟩
      · have hterm₁ : task₁.isTerminal = true := by
          rw [Task.isTerminal, hstate₁]
          exact hterm
        cases hget₂ : s₂.taskStore.get id with
        | some task₂ =>
            exact .inl ⟨task₂, rfl, (step_keepsState hs hget₁ hterm₁ hget₂).trans hstate₁⟩
        | none =>
            have hr₂ : (serverMachine h).Run s₀ (tr ++ (tr' ++ [(s₁, a)])) s₂ :=
              hr.append (hr'.snoc hs)
            refine .inr ⟨_, List.prefix_rfl, fun hmem => ?_⟩
            obtain ⟨task₂, hget, _⟩ := (finished_iff_last hnew hr₂ id).mpr hmem
            rw [hget₂] at hget
            contradiction
      · exact .inr ⟨seen, hseen.trans (List.prefix_append _ _), hlost⟩

/-- **What a server keeps**, in whatever order its calls and drivers take
their steps: the finished tasks it stores are the last `limit` that finished;
a task in progress is stored until it finishes; and a finished task keeps
its state for as long as it is among the last. -/
theorem tasks_kept (hnew : s₀.taskStore = .new (some limit))
    (hr : (serverMachine h).Run s₀ tr s) :
    (∀ id, (∃ task, s.taskStore.get id = some task ∧ task.isTerminal = true) ↔
        id ∈ (finishedIn h tr).rtake limit) ∧
      ∀ tr' s', (serverMachine h).Run s tr' s' → ∀ id task, s.taskStore.get id = some task →
        (task.isTerminal = false →
          (∃ task', s'.taskStore.get id = some task' ∧ task'.isTerminal = false) ∨
            id ∈ finishedIn h tr') ∧
        (task.isTerminal = true →
          (∃ task', s'.taskStore.get id = some task' ∧
              task'.status.state = task.status.state) ∨
            ∃ seen, seen <+: tr' ∧ id ∉ (finishedIn h (tr ++ seen)).rtake limit) := by
  refine ⟨finished_iff_last hnew hr, fun tr' s' hr' id task hget => ⟨fun hlive => ?_, fun hterm => ?_⟩⟩
  · exact live_kept hnew hr hget hlive hr'
  · exact finished_keepsState hnew hr hget hterm hr'

/-- Two sends that open tasks, and a cancel of each. -/
def twoCancels : List Action :=
  .call (.send (.opening "m")) :: .call (.send (.opening "m")) ::
    List.replicate 2 (.step 0 (.emitting [])) ++
    List.replicate 2 (.step 1 { Input.emitting [] with taskId := "other-task" }) ++
    .call (.cancel (.of "new-task")) :: List.replicate 2 (.step 2 (.emitting [])) ++
    .call (.cancel (.of "other-task")) :: List.replicate 2 (.step 3 (.emitting []))

theorem tasks_kept_canceled : ∃ tr s,
    (serverMachine .new).Run (.new (.new (some 1)) none false) tr s ∧
      finishedIn .new tr = ["new-task", "other-task"] ∧
      ∀ id, (∃ task, s.taskStore.get id = some task ∧ task.isTerminal = true) ↔
        id = "other-task" := by
  have hx : ((serverMachine .new).exec (.new (.new (some 1)) none false) twoCancels).map
      (fun p => finishedIn .new p.1) = some ["new-task", "other-task"] := rfl
  obtain ⟨⟨tr, s⟩, hexec, hfinished⟩ := Option.map_eq_some_iff.mp hx
  have hr := Machine.run_of_exec hexec
  refine ⟨tr, s, hr, hfinished, fun id => ?_⟩
  have hlast : (finishedIn .new tr).rtake 1 = ["other-task"] := by
    rw [show finishedIn .new tr = ["new-task", "other-task"] from hfinished]
    rfl
  rw [(tasks_kept rfl hr).1 id, hlast, List.mem_singleton]

end A2a
