import A2a.Server.Steps

/-!
# A2a.Server.LiveTask

No execution over a finished task.

A send checks that its task is not terminal when it reads the store, and
registers its execution later; `start` itself looks only at the registry.
`registers_over_live` is what holds of runs in which no task is finished in
between, `lateCancel_registers` a run in which one is.
-/

namespace A2a

open InMemoryTaskStore

/-- The task a send has read or created and not yet registered. -/
def Thread.unregistered : Thread → Option Task
  | .send _ (.savePush prepared) => some prepared.task
  | .send _ (.start prepared) => some prepared.task
  | _ => none

namespace Server

/-- The task an action registers a new execution for. -/
def registers (s : Server) : Action → Option Task
  | .step i _ =>
      match s.threads[i]? with
      | some (.send _ (.start prepared)) =>
          if s.manager.executions prepared.task.id = none then some prepared.task else none
      | _ => none
  | _ => none

/-- The action finishes no task that a send has read and not yet
registered. -/
def FinishesNoUnregistered (h : Handler) (s : Server) (a : Action) : Prop :=
  ∀ x, s.writes h a = some x → x.isTerminal = true →
    ∀ t ∈ s.threads, ∀ task, t.unregistered = some task → task.id ≠ x.id

end Server

/-- The store holds the task, and not in a terminal state. -/
def InMemoryTaskStore.Live (store : InMemoryTaskStore) (id : TaskId) : Prop :=
  ∃ x, store.get id = some x ∧ x.isTerminal = false

/-- Every task about to be registered is stored and not terminal, and every
task about to be created is not terminal. -/
structure UnregisteredLive (s : Server) : Prop where
  unlimited : s.taskStore.terminalTaskLimit = none
  live : ∀ t ∈ s.threads, ∀ task, t.unregistered = some task → s.taskStore.Live task.id
  fresh : ∀ call prepared, Thread.send call (.create prepared) ∈ s.threads →
    prepared.task.isTerminal = false

variable {h : Handler} {s s' : Server} {store store' : InMemoryTaskStore} {x : Task} {id : TaskId}

/-- A write keeps a task live, unless it finishes it. -/
theorem InMemoryTaskStore.Wrote.live (hw : Wrote store x store')
    (hunlimited : store.terminalTaskLimit = none) (hlive : store.Live id)
    (hx : x.isTerminal = true → id ≠ x.id) : store'.Live id := by
  obtain ⟨y, hy, hlive⟩ := hlive
  have hget := hw.get_of_unlimited hunlimited id
  by_cases hid : id = x.id
  · rw [if_pos hid] at hget
    refine ⟨x, hget, ?_⟩
    cases hterm : x.isTerminal with
    | false => rfl
    | true => exact absurd hid (hx hterm)
  · rw [if_neg hid] at hget
    exact ⟨y, hget.trans hy, hlive⟩

/-- A thread other than a send is never about to register. -/
theorem Thread.Continues.unregistered {t t' : Thread} {new : List Thread}
    (hc : t.Continues t' new)
    (hs : ∀ call pc, t ≠ .send call pc) : t'.unregistered = none := by
  cases t <;> cases t' <;> first | rfl | exact absurd rfl (hs _ _) | exact hc.elim

/-- A send that is about to register leaves the task live behind it, if it is
one of those that stay live. -/
theorem SendCall.next_unregistered (P : TaskId → Prop) (call : SendCall) (pc : SendPc) (inp : Input)
    (hlive : ∀ task, (Thread.send call pc).unregistered = some task → P task.id →
      s.taskStore.Live task.id)
    (hfresh : ∀ prepared, pc = .create prepared → prepared.task.isTerminal = false) :
    (call.next h inp pc).Post s fun s₁ t' _ =>
      (∀ task, t'.unregistered = some task → P task.id → s₁.taskStore.Live task.id) ∧
      (∀ call' prepared, t' = .send call' (.create prepared) →
        prepared.task.isTerminal = false) := by
  cases pc <;> simp only [SendCall.next]
  case load =>
    split
    · simp [Thread.unregistered]
    · simp only [Cmd.post_get]
      split
      · simp [Thread.unregistered]
      · next prepared hp =>
          rcases prepare_ok hp with ⟨x, hx, hlive, rfl⟩ | ⟨_, _, rfl⟩
          · have hlive : s.taskStore.Live (requestTaskId inp.toFresh call.req) := ⟨x, hx, hlive⟩
            have hid := get_id hx
            simp [Thread.unregistered, hid, hlive]
          · simp [Thread.unregistered, newTask, Task.isTerminal, TaskState.isTerminal]
  case create prepared =>
    have hfresh := hfresh prepared rfl
    rw [Cmd.post_create]
    rcases create_cases s.taskStore prepared.task with ⟨_, hc⟩ | ⟨_, store', hc, hw⟩
    · simp [hc, Thread.unregistered]
    · have hlive : store'.Live prepared.task.id := ⟨prepared.task, hw.get_self hfresh, hfresh⟩
      simp [hc, Thread.unregistered, hlive]
  case savePush prepared =>
    have hlive := hlive prepared.task rfl
    split
    · simpa [Thread.unregistered] using hlive
    · rw [Cmd.post_savePushConfig]
      split
      · simpa [Thread.unregistered] using hlive
      · simp [Thread.unregistered]
  case start =>
    refine Cmd.post_of_forall fun _ o => ?_
    cases o <;> simp [Thread.unregistered]
  case attach => exact fun _ _ _ => by dsimp only; split <;> simp [Thread.unregistered]
  case following =>
    refine post_pollCmd fun _ _ o => ?_
    rcases o with _ | _ | item
    · simp [Thread.unregistered]
    · simp only [SendCall.finishSend]
      split <;> simp [Thread.unregistered]
    · simp only [SendCall.onItem]
      split
      · simp [Thread.unregistered]
      · split
        · simp [Thread.unregistered]
        · split <;> simp [Thread.unregistered]
  case answering => simp [Thread.unregistered]
  case streaming =>
    refine post_pollCmd fun _ _ o => ?_
    rcases o with _ | _ | _ <;> simp [Thread.unregistered]
  case returned => simp
  case ended => simp

/-- The threads a step leaves, about to register, leave their tasks live. -/
theorem UnregisteredLive.step {a : Action} (hs : UnregisteredLive s)
    (hc : s.FinishesNoUnregistered h a) (hstep : Server.step h s a = some s') :
    UnregisteredLive s' := by
  rcases step_cases hstep with ⟨request, rfl, rfl⟩ | ⟨i, t, cmd, s₁, b, hruns, hran⟩
  · refine ⟨hs.unlimited, fun t ht task htask => ?_, fun call prepared hmem => ?_⟩
    · rcases List.mem_append.mp ht with ht | ht
      · exact hs.live t ht task htask
      · obtain rfl := List.mem_singleton.mp ht
        cases request <;> simp [Request.thread, Thread.unregistered] at htask
    · rcases List.mem_append.mp hmem with hmem | hmem
      · exact hs.fresh call prepared hmem
      · cases request <;> simp [Request.thread] at hmem
  · -- what the write, if any, does to the tasks of the other threads
    have hkeep : s'.taskStore.terminalTaskLimit = none ∧
        ∀ t ∈ s.threads, ∀ task, t.unregistered = some task → s'.taskStore.Live task.id := by
      rcases step_taskStore hstep with ⟨_, he⟩ | ⟨x, hx, hw, _⟩
      · rw [he]
        exact ⟨hs.unlimited, hs.live⟩
      · refine ⟨hw.limit.trans hs.unlimited, fun t₁ ht₁ task htask => ?_⟩
        exact hw.live hs.unlimited (hs.live t₁ ht₁ task htask) fun hterm =>
          hc x hx hterm t₁ ht₁ task htask
    have hstore : s₁.taskStore = s'.taskStore := by rw [hran.eq]
    have hmem : t ∈ s.threads := List.mem_of_getElem? hruns.1
    have hcont := hran.post hruns.continues
    -- what the acting thread becomes
    have hself : (∀ task, (cmd.resume b).1.unregistered = some task →
          s'.taskStore.Live task.id) ∧
        (∀ call prepared, (cmd.resume b).1 = .send call (.create prepared) →
          prepared.task.isTerminal = false) := by
      cases t with
      | send call pc =>
          obtain ⟨_, ⟨inp, _, rfl⟩ | ⟨_, rfl⟩⟩ := hruns
          · rw [← hstore]
            have hpost := hran.post (call.next_unregistered (fun _ => True) pc inp
              (fun task htask _ => hs.live _ hmem task htask)
              fun prepared hpc => hs.fresh call prepared (hpc ▸ hmem))
            exact ⟨fun task htask => hpost.1 task htask trivial, hpost.2⟩
          · obtain ⟨hdrop, _⟩ := hran.post (Thread.drop_dropped (.send call pc))
            rw [hdrop]
            simp [Thread.unregistered]
      | _ =>
          refine ⟨fun task htask => ?_, fun call prepared he => ?_⟩
          · rw [hcont.unregistered (by simp)] at htask
            contradiction
          · rw [he] at hcont
            exact hcont.elim
    refine ⟨hkeep.1, fun t' ht' task htask => ?_, fun call prepared ht' => ?_⟩
    · rcases hran.mem_threads ht' with rfl | ht' | ht'
      · exact hself.1 task htask
      · exact hkeep.2 t' ht' task htask
      · obtain ⟨_, _, _, _, rfl⟩ := hcont.spawned ht'
        simp [Thread.unregistered] at htask
    · rcases hran.mem_threads ht' with he | ht' | ht'
      · exact hself.2 call prepared he.symm
      · exact hs.fresh call prepared ht'
      · obtain ⟨_, _, _, _, hd⟩ := hcont.spawned ht'
        contradiction

/-- **No execution over a finished task**: with unlimited retention, in every
run in which no task is finished between a send's read of it and the
registration of its execution, every task that gets an execution registered
is stored at that moment and not terminal. -/
theorem registers_over_live (h : Handler) {taskStore : InMemoryTaskStore}
    {pushConfigStore : Option InMemoryPushConfigStore} {pushSender : Bool}
    (hunlimited : taskStore.terminalTaskLimit = none)
    (hr : (serverMachine h).Run (.new taskStore pushConfigStore pushSender) tr s)
    (hg : Machine.Guarded (Server.FinishesNoUnregistered h) tr) :
    ∀ p ∈ tr, ∀ task, p.1.registers p.2 = some task → p.1.taskStore.Live task.id := by
  have hinv : UnregisteredLive s ∧
      ∀ p ∈ tr, ∀ task, p.1.registers p.2 = some task → p.1.taskStore.Live task.id := by
    refine hr.guarded (I := fun tr s => UnregisteredLive s ∧
      ∀ p ∈ tr, ∀ task, p.1.registers p.2 = some task → p.1.taskStore.Live task.id) ?_ ?_ hg
    · refine ⟨⟨hunlimited, ?_, ?_⟩, fun p hp => (List.not_mem_nil hp).elim⟩
      · intro t ht
        simp [Server.new] at ht
      · intro call prepared hmem
        simp [Server.new] at hmem
    · rintro tr s a s' ⟨hs, hreg⟩ hc hstep
      refine ⟨hs.step hc hstep, fun p hp task htask => ?_⟩
      rcases List.mem_append.mp hp with hp | hp
      · exact hreg p hp task htask
      · obtain rfl := List.mem_singleton.mp hp
        -- the send was about to register
        cases a with
        | step i inp =>
            simp only [Server.registers] at htask
            split at htask
            · next call prepared hi =>
                split at htask
                · obtain rfl := Option.some.inj htask
                  exact hs.live _ (List.mem_of_getElem? hi) _ rfl
                · contradiction
            · contradiction
        | _ => contradiction
  exact hinv.2

/-- A send continues that task. -/
theorem registers_over_live_continuing :
    ∃ tr s, (serverMachine .new).Run awaitingInput tr s ∧
      Machine.Guarded (Server.FinishesNoUnregistered .new) tr ∧
      (∀ p ∈ tr, ∀ task, p.1.registers p.2 = some task → p.1.taskStore.Live task.id) ∧
      ∃ p ∈ tr, (p.1.registers p.2).map (·.id) = some "t" := by
  have hx : ∃ tr s, (serverMachine .new).exec awaitingInput
      (.call (.send (.continuing "t" "m")) :: List.replicate 4 (.step 0 (.emitting []))) =
        some (tr, s) ∧ (∀ p ∈ tr, (p.1.writes .new p.2).isNone) ∧
      ∃ p ∈ tr, (p.1.registers p.2).map (·.id) = some "t" :=
    ⟨_, _, rfl, by decide, by decide⟩
  obtain ⟨tr, s, hexec, hnone, hreg⟩ := hx
  have hrun := Machine.run_of_exec hexec
  have hg : Machine.Guarded (Server.FinishesNoUnregistered .new) tr := by
    intro p hp x hw
    have hn := hnone p hp
    rw [hw] at hn
    contradiction
  exact ⟨tr, s, hrun, hg, registers_over_live .new rfl hrun hg, hreg⟩

/-- A send reads the task, a cancel finishes it, and the send goes on. -/
def lateCancel : List Action :=
  [.call (.send (.continuing "t" "m")), .call (.cancel (.of "t")), .step 0 (.emitting [])] ++
    List.replicate 11 (.step 1 (.emitting [])) ++ List.replicate 2 (.step 0 (.emitting []))

/-- An execution can be registered over a canceled task. -/
theorem lateCancel_registers :
    ∃ tr s, (serverMachine .new).exec awaitingInput lateCancel = some (tr, s) ∧
      (serverMachine .new).Run awaitingInput tr s ∧
      ¬ ∀ p ∈ tr, ∀ task, p.1.registers p.2 = some task → p.1.taskStore.Live task.id := by
  refine ⟨_, _, rfl, Machine.run_of_exec (show Machine.exec _ _ lateCancel = some _ from rfl), fun hlive => ?_⟩
  obtain ⟨x, hx, hlive⟩ := hlive _ (List.mem_of_getElem? (i := 15) rfl) _ rfl
  obtain rfl := Option.some.inj hx
  exact absurd hlive (by decide)

end A2a
