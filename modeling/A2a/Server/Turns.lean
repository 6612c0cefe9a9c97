import A2a.Server.Channel
import A2a.Server.LiveTask

/-!
# A2a.Server.Turns

Turns on one task, in every interleaving of their sends and drivers.

A send reads its task before its execution is registered, and the driver
then stores its own copy of the task, whatever the store holds by then.
`turns_keep` is what holds of runs in which every execution is registered
with a task that has all the stored one has; `staleTurn_loses` a run in which
one is not.
-/

namespace A2a

open InMemoryTaskStore

/-- `new` has the artifacts and the messages of `old`. -/
structure Task.Extends (new old : Task) : Prop where
  id : new.id = old.id
  artifacts : ∀ a ∈ old.artifactIds, a ∈ new.artifactIds
  messages : ∀ m ∈ old.messages, m ∈ new.messages

/-- The task a driver stores in a step, with the driver. -/
def Server.saved (h : Handler) (s : Server) (a : Action) : Option (Driver × Task) :=
  match a with
  | .step i _ =>
      match s.threads[i]? with
      | some (.drive d) => (s.writes h a).map (d, ·)
      | _ => none
  | _ => none

/-- The task has what the executions of `id` stored, and the messages they
were started for. -/
def HasSaved (h : Handler) (id : TaskId) (tr : List (Server × Action)) (task : Task) : Prop :=
  ∀ p ∈ tr, ∀ d y, p.1.saved h p.2 = some (d, y) → d.taskId = id →
    task.Extends y ∧ ∀ m, d.ctx.message = some m → m ∈ task.messages

/-- No cancel arrives, and no executor emits a whole task. -/
def OnlyTurns (_ : Server) : Action → Prop
  | .call (.cancel _) => False
  | .step _ inp => ∀ event, .ok event ∈ inp.stream → isDelta event = true
  | _ => True

/-- To finish the task now purges the one of the id: it is among the finished
ones that are oldest, beyond the limit. -/
def InMemoryTaskStore.Purges (store : InMemoryTaskStore) (task : Task) (id : TaskId) : Prop :=
  ∃ limit, store.terminalTaskLimit = some limit ∧
    id ∈ (store.tasks.terminal ++ [task.id]).take (store.tasks.terminal.length + 1 - limit)

/-- The step registers no execution of the task with one that lacks what is
stored, and finishes no task that purges it. -/
structure KeepsTurns (h : Handler) (id : TaskId) (s : Server) (a : Action) : Prop where
  fresh : ∀ task, s.registers a = some task → task.id = id →
    ∀ stored, s.taskStore.get id = some stored → task.Extends stored
  kept : ∀ x, s.writes h a = some x → x.isTerminal = true →
    (∀ old, s.taskStore.get x.id = some old → old.isTerminal = false) → ¬ s.taskStore.Purges x id

variable {h : Handler} {id : TaskId} {tr : List (Server × Action)} {s s' s₁ : Server} {a : Action}
  {t t' : Thread} {x : ExecId} {task : Task}

/-! ## tasks that extend others -/

theorem Task.Extends.refl (task : Task) : task.Extends task := ⟨rfl, fun _ h => h, fun _ h => h⟩

theorem Task.Extends.trans {new mid old : Task} (h : new.Extends mid) (h' : mid.Extends old) :
    new.Extends old where
  id := h.id.trans h'.id
  artifacts a ha := h.artifacts a (h'.artifacts a ha)
  messages m hm := h.messages m (h'.messages m hm)

theorem Task.Extends.backfill (task : Task) (now : DateTime) : (task.backfill now).Extends task :=
  ⟨rfl, fun _ h => h, fun _ h => h⟩

theorem Task.Extends.continueTask (task : Task) (message : Message) :
    (continueTask task message).Extends task where
  id := rfl
  artifacts _ ha := ha
  messages m hm := by
    simp only [Task.messages, A2a.continueTask, Option.getD_some]
    exact List.mem_append_left _ (List.mem_append_left _ hm)

theorem Task.Extends.failed (now : DateTime) (messageId : String) (task : Task) (error : A2AError) :
    (failedTask now messageId task error).Extends task ∧
      task.Extends (failedTask now messageId task error) :=
  ⟨⟨rfl, fun _ h => h, fun _ h => h⟩, ⟨rfl, fun _ h => h, fun _ h => h⟩⟩

/-- An update applied to a task extends it. -/
theorem Task.Extends.fold {task task' : Task} {event : StreamResponse} {now : DateTime}
    (hevent : isDelta event = true)
    (hfold : foldEvent task (backfillStatusTimestamp now event) = .ok task') :
    task'.Extends task := by
  have hdelta : isDelta (backfillStatusTimestamp now event) = true := by
    cases event with
    | task t => contradiction
    | _ => rfl
  obtain ⟨hid, hartifacts, hmessages⟩ := foldEvent_keeps hdelta hfold
  exact ⟨hid, hartifacts, fun m hm => hmessages ▸ hm⟩

theorem HasSaved.extends {task task' : Task} (h₁ : HasSaved h id tr task)
    (h₂ : task'.Extends task) : HasSaved h id tr task' := by
  intro p hp d y hy hd
  obtain ⟨hextends, hmessage⟩ := h₁ p hp d y hy hd
  exact ⟨h₂.trans hextends, fun m hm => h₂.messages m (hmessage m hm)⟩

/-- What a step stores is to be had from then on. -/
theorem hasSaved_snoc : HasSaved h id (tr ++ [(s, a)]) task ↔ HasSaved h id tr task ∧
    ∀ d y, s.saved h a = some (d, y) → d.taskId = id →
      task.Extends y ∧ ∀ m, d.ctx.message = some m → m ∈ task.messages := by
  rw [HasSaved, List.forall_mem_append, List.forall_mem_singleton]
  exact Iff.rfl

/-! ## what a purge leaves -/

/-- A purge leaves what is not among the oldest. -/
theorem Tasks.lookup_purge_of_not_mem {limit : Nat} {queue : List TaskId} (entries : Entries)
    (hid : id ∉ queue.take (queue.length - limit)) :
    (purge limit queue entries).2.lookup id = entries.lookup id := by
  induction queue generalizing entries with
  | nil => rfl
  | cons q rest ih =>
      simp only [purge]
      split
      · next hlt =>
        have hlength : (q :: rest).length - limit = rest.length - limit + 1 := by
          rw [List.length_cons] at hlt ⊢
          omega
        rw [hlength, List.take_succ_cons, List.mem_cons, not_or] at hid
        rw [ih _ hid.2, Finmap.lookup_erase_ne hid.1]
      · rfl

/-- A task stays stored when another is, and stays when that is retired. -/
theorem InMemoryTaskStore.stays_put {store : InMemoryTaskStore} {version : TaskVersion} (due : Bool)
    (hstored : (store.get id).isSome) (hkept : due = true → ¬ store.Purges task id) :
    (get { store with
      tasks := if due then (store.tasks.put task version).retire task.id store.terminalTaskLimit
        else store.tasks.put task version } id).isSome := by
  have hput : ((store.tasks.put task version).entries.lookup id).isSome := by
    by_cases hid : id = task.id
    · subst hid
      simp [Tasks.put]
    · simpa [Tasks.put, hid, Finmap.lookup_insert_of_ne, get] using hstored
  cases due with
  | false => simpa [get] using hput
  | true =>
      have hkept := hkept rfl
      cases hlimit : store.terminalTaskLimit with
      | none => simpa [get] using hput
      | some limit =>
          have hid : id ∉ (store.tasks.terminal ++ [task.id]).take
              ((store.tasks.terminal ++ [task.id]).length - limit) := by
            rw [List.length_append, List.length_singleton]
            exact fun hmem => hkept ⟨limit, hlimit, hmem⟩
          have hpurge := Tasks.lookup_purge_of_not_mem (store.tasks.put task version).entries hid
          rw [← hpurge] at hput
          rw [if_pos rfl, get, Option.isSome_map]
          exact hput

theorem InMemoryTaskStore.stays_create {store : InMemoryTaskStore} (hstored : (store.get id).isSome)
    (hkept : store.get task.id = none → task.isTerminal = true → ¬ store.Purges task id) :
    ((store.create task).2.get id).isSome := by
  cases hl : store.tasks.entries.lookup task.id with
  | some entry => simpa only [create, hl] using hstored
  | none =>
      simp only [create, hl]
      exact stays_put task.isTerminal hstored (hkept (get_eq_none.mpr hl))

theorem InMemoryTaskStore.stays_update {store : InMemoryTaskStore} (hstored : (store.get id).isSome)
    (hkept : ∀ old, store.get task.id = some old → old.isTerminal = false →
      task.isTerminal = true → ¬ store.Purges task id) :
    ((store.update task).2.get id).isSome := by
  cases hl : store.tasks.entries.lookup task.id with
  | none => simpa only [update, hl] using hstored
  | some entry =>
      simp only [update, hl]
      split
      · exact hstored
      · refine stays_put (!entry.task.isTerminal && task.isTerminal) hstored fun hdue => ?_
        rw [Bool.and_eq_true, Bool.not_eq_true'] at hdue
        exact hkept entry.task (by rw [get, hl]; rfl) hdue.1 hdue.2

theorem InMemoryTaskStore.stays_beginCancel {store : InMemoryTaskStore} {taskId : TaskId}
    {now : DateTime} (hstored : (store.get id).isSome)
    (hkept : ∀ old, store.get taskId = some old → old.isTerminal = false →
      ¬ store.Purges (canceledTask old now) id) :
    ((store.beginCancel taskId now).2.get id).isSome := by
  cases hl : store.tasks.entries.lookup taskId with
  | none => simpa only [beginCancel, hl] using hstored
  | some entry =>
      simp only [beginCancel, hl]
      split
      · exact hstored
      · next hlive =>
        have hget : store.get taskId = some entry.task := by rw [get, hl]; rfl
        have hid : (canceledTask entry.task now).id = taskId := by
          rw [canceledTask_id, get_id hget]
        have hkept : ¬ store.Purges (canceledTask entry.task now) id :=
          hkept entry.task hget (by simpa using hlive)
        have hstays := @stays_put id (canceledTask entry.task now) store (entry.version + 1) true
          hstored fun _ => hkept
        rw [if_pos rfl, hid] at hstays
        exact hstays

/-- An operation keeps a task stored, unless it finishes one that purges
it. -/
theorem Op.keeps {β : Type} {op : Op β} (hstored : (s.taskStore.get id).isSome)
    (hkept : ∀ x, op.writes s = some x → x.isTerminal = true →
      (∀ old, s.taskStore.get x.id = some old → old.isTerminal = false) →
        ¬ s.taskStore.Purges x id) : ((op.taskStoreAfter s).get id).isSome := by
  cases op with
  | create task =>
      refine stays_create hstored fun hfree hterm => hkept task ?_ hterm ?_
      · rw [writes, if_pos hfree]
      · simp [hfree]
  | update task =>
      refine stays_update hstored fun old hold hlive hterm => hkept task ?_ hterm ?_
      · obtain ⟨hnone, _⟩ | ⟨old', hold', hdone, _⟩ | ⟨_, _, _, _, _, hu, _⟩ :=
          update_cases s.taskStore task
        · rw [hold] at hnone
          contradiction
        · obtain rfl := Option.some.inj (hold.symm.trans hold')
          rw [hlive] at hdone
          contradiction
        · simp only [writes, hu]
      · intro old' hold'
        obtain rfl := Option.some.inj (hold.symm.trans hold')
        exact hlive
  | beginCancel taskId now =>
      refine stays_beginCancel hstored fun old hold hlive => hkept (canceledTask old now) ?_ rfl ?_
      · obtain ⟨hnone, _⟩ | ⟨old', hold', hdone, _⟩ | ⟨old', _, hold', _, hb, _⟩ :=
          beginCancel_cases s.taskStore taskId now
        · rw [hold] at hnone
          contradiction
        · obtain rfl := Option.some.inj (hold.symm.trans hold')
          rw [hlive] at hdone
          contradiction
        · obtain rfl := Option.some.inj (hold.symm.trans hold')
          simp only [writes, hb]
      · intro old' hold'
        rw [canceledTask_id, get_id hold] at hold'
        obtain rfl := Option.some.inj (hold.symm.trans hold')
        exact hlive
  | _ => exact hstored

/-- A step keeps a task stored, unless it finishes one that purges it. -/
theorem KeepsTurns.stays (hkeeps : KeepsTurns h id s a) (hs : Server.step h s a = some s')
    (hstored : (s.taskStore.get id).isSome) : (s'.taskStore.get id).isSome := by
  obtain ⟨request, rfl, rfl⟩ | ⟨i, t, cmd, s₁, b, hruns, hran⟩ := step_cases hs
  · exact hstored
  · rw [hran.taskStore]
    exact Op.keeps hstored fun x hx => hkeeps.kept x (hruns.writes ▸ hx)

/-- Without a limit nothing is purged. -/
theorem keepsTurns_of_unlimited (hfresh : ∀ task, s.registers a = some task → task.id = id →
    ∀ stored, s.taskStore.get id = some stored → task.Extends stored)
    (hunlimited : s.taskStore.terminalTaskLimit = none) : KeepsTurns h id s a := by
  refine ⟨hfresh, ?_⟩
  rintro x _ _ _ ⟨limit, hlimit, _⟩
  rw [hunlimited] at hlimit
  contradiction

/-! ## what an execution holds -/

/-- The execution is the one registered for the stored task, and the task it
works on has all that was stored. -/
structure Holds (h : Handler) (id : TaskId) (tr : List (Server × Action)) (s : Server) (x : ExecId)
    (task : Task) : Prop where
  registered : s.manager.executions id = some x
  stored : (s.taskStore.get id).isSome
  saved : HasSaved h id tr task

/-- What a driver keeps to by itself. -/
structure Driver.Steady (d : Driver) : Prop where
  stream : ∀ event, .ok event ∈ d.stream → isDelta event = true
  id : d.current.id = d.taskId
  message : ∀ m, d.ctx.message = some m → m ∈ d.current.messages
  saving : ∀ event task pc, d.pc = .saving event task pc → task.Extends d.current
  failing : ∀ error task pc, d.pc = .failSaving error task pc →
    task.Extends d.current ∧ d.current.Extends task

/-- What a thread keeps to in runs of turns. -/
def Thread.Keeps (h : Handler) (id : TaskId) (tr : List (Server × Action)) (s : Server) :
    Thread → Prop
  | .cancel _ _ => False
  | .send call (.create p) => call.req.message ∈ p.task.messages
  | .send call (.savePush p) =>
      call.req.message ∈ p.task.messages ∧ (p.task.id = id → (s.taskStore.get id).isSome)
  | .send call (.start p) =>
      call.req.message ∈ p.task.messages ∧ (p.task.id = id → (s.taskStore.get id).isSome)
  | .send call (.attach p x) =>
      call.req.message ∈ p.task.messages ∧ s.snapshotOf x = some p.task ∧
        (p.task.id = id → Holds h id tr s x p.task)
  | .drive d =>
      d.Steady ∧ (d.pc = .start → s.snapshotOf d.exec = some d.current) ∧
        (d.pc ≠ .done → d.taskId = id → Holds h id tr s d.exec d.current)
  | _ => True

/-- The invariant of runs of turns. -/
structure Turns (h : Handler) (id : TaskId) (tr : List (Server × Action)) (s : Server) : Prop where
  owned : Owned s
  loaded : Loaded s
  threads : ∀ t ∈ s.threads, t.Keeps h id tr s
  stored : ∀ z, s.taskStore.get id = some z → HasSaved h id tr z
  saved : ∀ p ∈ tr, ∀ d y, p.1.saved h p.2 = some (d, y) → d.taskId = id →
    (s.taskStore.get id).isSome

/-! ## the steps of a driver -/

/-- The places a driver comes to with nothing to store. -/
def DrivePc.Bare : DrivePc → Prop
  | .start | .saving _ _ _ | .failSaving _ _ _ => False
  | _ => True

/-- Where a step leads a driver: its task has what it had, and what the step
stored. -/
structure Driver.Leads (d d' : Driver) (written : Option Task) : Prop where
  steady : d'.Steady
  started : d'.pc ≠ .start
  current : d'.current.Extends d.current
  written : ∀ y, written = some y → d'.current.Extends y

/-- A step that stored its task at most, to a place with nothing to store. -/
theorem Driver.Steady.leads {d : Driver} (hd : d.Steady) {pc : DrivePc} (hpc : pc.Bare)
    (hextends : task.Extends d.current) {written : Option Task}
    (hwritten : ∀ y, written = some y → task.Extends y) :
    d.Leads { d with current := task, pc := pc } written where
  steady := {
    stream := hd.stream
    id := hextends.id.trans hd.id
    message := fun m hm => hextends.messages m (hd.message m hm)
    saving := by
      rintro _ _ _ rfl
      exact hpc.elim
    failing := by
      rintro _ _ _ rfl
      exact hpc.elim }
  started := by
    rintro rfl
    exact hpc.elim
  current := hextends
  written := hwritten

/-- A step that stores nothing, to such a place. -/
theorem Driver.Steady.goes {d : Driver} (hd : d.Steady) {pc : DrivePc} (hpc : pc.Bare) :
    d.Leads { d with pc := pc } none :=
  hd.leads hpc (.refl _) (by simp)

theorem Driver.Leads.of_current {d d₁ d' : Driver} {written : Option Task}
    (h : d₁.Leads d' written) (hcurrent : d₁.current = d.current) : d.Leads d' written :=
  ⟨h.steady, h.started, hcurrent ▸ h.current, h.written⟩

/-- A driver that fails stores its task as FAILED, or has stored its end. -/
theorem Driver.Steady.fail {d : Driver} (hd : d.Steady) (inp : Input) (error : A2AError) :
    ∃ d', d.fail inp error = .drive d' ∧ d.Leads d' none := by
  rw [Driver.fail]
  split
  · exact ⟨_, rfl, hd.goes trivial⟩
  · have hfailed := Task.Extends.failed inp.now inp.messageId d.current error
    refine ⟨_, rfl, ⟨hd.stream, hd.id, hd.message, ?_, ?_⟩, by simp, .refl _, by simp⟩
    · simp
    · rintro _ _ _ heq
      cases heq
      exact hfailed

/-- An update the driver takes makes a task that extends its own. -/
theorem Driver.Steady.accept {d : Driver} (hd : d.Steady) (inp : Input) {event : StreamResponse}
    (hevent : isDelta event = true) :
    ∃ d', d.accept inp event = .drive d' ∧ d.Leads d' none := by
  simp only [Driver.accept]
  split
  · exact hd.fail inp _
  · generalize (d.tracked || !event.isMessage) = tracked
    have hsteady : ({ d with answered := event.isMessage, tracked := tracked } : Driver).Steady :=
      ⟨hd.stream, hd.id, hd.message, hd.saving, hd.failing⟩
    split
    · refine ⟨_, rfl, Driver.Leads.of_current (hsteady.goes ?_) rfl⟩
      trivial
    · split
      · next task hfold =>
        have hextends := (Task.Extends.backfill task inp.now).trans (.fold hevent hfold)
        refine ⟨_, rfl, ⟨hd.stream, hd.id, hd.message, ?_, ?_⟩, by simp, .refl _, by simp⟩
        · rintro _ _ _ heq
          cases heq
          exact hextends
        · simp
      · next error _ =>
        obtain ⟨d', hfail, hleads⟩ := hsteady.fail inp error
        exact ⟨d', hfail, hleads.of_current rfl⟩

/-- **The steps of a driver**: the task it works on has what it had, and what
the step stored. -/
theorem Driver.Steady.next {d : Driver} (hd : d.Steady)
    (hstart : d.pc = .start → s.snapshotOf d.exec = some d.current) {inp : Input}
    (hinp : ∀ event, .ok event ∈ inp.stream → isDelta event = true) :
    (d.next inp).Post s fun _ t' _ => ∃ d', t' = .drive d' ∧
      d.Leads d' ((d.next inp).writes s) := by
  cases hpc : d.pc <;> simp only [Driver.next, hpc]
  case start =>
    intro s₁ state hrun
    simp only [Op.andThen, Op.run, Option.map_eq_some_iff] at hrun
    obtain ⟨active, hactive, heq⟩ := hrun
    obtain ⟨_, rfl⟩ := Prod.mk.inj heq
    have hsnapshot := hstart hpc
    rw [Server.snapshotOf, hactive] at hsnapshot
    refine ⟨_, rfl, ⟨hinp, ?_, ?_, by simp, by simp⟩, by simp, ?_,
      by simp [Cmd.writes, Op.andThen, Op.writes]⟩
    all_goals rw [show active.snapshotTask = d.current from Option.some.inj hsnapshot]
    · exact hd.id
    · exact hd.message
    · exact .refl _
  case poll =>
    cases hstream : d.stream with
    | nil => exact Cmd.post_of_forall fun _ _ => ⟨_, rfl, hd.goes trivial⟩
    | cons item rest =>
        have hrest : ({ d with stream := rest } : Driver).Steady :=
          ⟨fun event hevent => hd.stream event (by rw [hstream]; exact .tail _ hevent), hd.id,
            hd.message, hd.saving, hd.failing⟩
        refine Cmd.post_of_forall fun _ state => ?_
        dsimp only
        split
        · refine ⟨_, rfl, Driver.Leads.of_current (hrest.goes ?_) rfl⟩
          trivial
        · cases item with
          | ok event =>
              obtain ⟨d', haccept, hleads⟩ :=
                hrest.accept inp (hd.stream event (by rw [hstream]; exact .head _))
              exact ⟨d', haccept, hleads.of_current rfl⟩
          | error error =>
              obtain ⟨d', hfail, hleads⟩ := hrest.fail inp error
              exact ⟨d', hfail, hleads.of_current rfl⟩
  case saving event task pc =>
    have hextends := hd.saving event task pc hpc
    intro s₁ answer hrun
    cases answer with
    | ok version =>
        refine ⟨_, rfl, hd.leads ?_ hextends fun y hy => saveOp_writes hy ▸ .refl _⟩
        trivial
    | error error =>
        have hnone := saveOp_refused hrun
        show ∃ d', _ ∧ d.Leads d' ((saveOp task pc).writes s)
        rw [hnone]
        by_cases hcode : pc = .update ∧ error.code = ErrorCode.taskNotFound
        · simp only [Op.andThen, saveStep, if_pos hcode]
          refine ⟨_, rfl, ⟨hd.stream, hd.id, hd.message, ?_, by simp⟩, by simp, .refl _, by simp⟩
          rintro _ _ _ heq
          cases heq
          exact hextends
        · simp only [Op.andThen, saveStep, if_neg hcode]
          exact hd.fail inp error
  case pushing event pc =>
    rw [pushCmd_writes]
    refine post_pushCmd fun _ o => ?_
    obtain pc | _ | error := o
    · exact ⟨_, rfl, hd.goes trivial⟩
    · exact hd.fail inp _
    · exact ⟨_, rfl, hd.goes trivial⟩
  case publishing event pc =>
    rw [publishCmd_writes]
    refine post_publishCmd fun _ o => ?_
    cases o with
    | some pc => exact ⟨_, rfl, hd.goes trivial⟩
    | none =>
        dsimp only
        split
        · exact ⟨_, rfl, hd.goes trivial⟩
        · exact ⟨_, rfl, hd.goes trivial⟩
  case failSaving error task pc =>
    obtain ⟨hextends, hextended⟩ := hd.failing error task pc hpc
    intro s₁ answer hrun
    cases answer with
    | ok version =>
        refine ⟨_, rfl, hd.leads ?_ (.refl _) fun y hy => saveOp_writes hy ▸ hextended⟩
        trivial
    | error cause =>
        have hnone := saveOp_refused hrun
        show ∃ d', _ ∧ d.Leads d' ((saveOp task pc).writes s)
        rw [hnone]
        by_cases hcode : pc = .update ∧ cause.code = ErrorCode.taskNotFound
        · simp only [Op.andThen, saveStep, if_pos hcode]
          refine ⟨_, rfl, ⟨hd.stream, hd.id, hd.message, by simp, ?_⟩, by simp, .refl _, by simp⟩
          rintro _ _ _ heq
          cases heq
          exact ⟨hextends, hextended⟩
        · simp only [Op.andThen, saveStep, if_neg hcode]
          exact ⟨_, rfl, hd.goes trivial⟩
  case failPushing error task pc =>
    rw [pushCmd_writes]
    refine post_pushCmd fun _ o => ?_
    cases o with
    | inl pc => exact ⟨_, rfl, hd.goes trivial⟩
    | inr result => exact ⟨_, rfl, hd.goes trivial⟩
  case failPublishing error failed pc =>
    rw [publishCmd_writes]
    refine post_publishCmd fun _ o => ?_
    cases o with
    | some pc => exact ⟨_, rfl, hd.goes trivial⟩
    | none => exact ⟨_, rfl, hd.goes trivial⟩
  case finishing => exact Cmd.post_of_forall fun _ _ => ⟨_, rfl, hd.goes trivial⟩
  case done => exact Cmd.post_halt

/-! ## the steps of a send -/

/-- What a request is prepared with has its message. -/
theorem prepare_message {fresh : Fresh} {req : SendMessageRequest} {taskId : TaskId}
    {stored : Option Task} {p : Prepared} (hp : prepare fresh req taskId stored = .ok p) :
    req.message ∈ p.task.messages := by
  obtain ⟨y, _, _, rfl⟩ | ⟨_, _, rfl⟩ := prepare_ok hp
  · exact mem_messages_continueTask y req.message
  · exact List.mem_singleton_self _

/-- What `start` registers. -/
theorem Op.start_registers (hrun : (Op.start task).run s = some (s₁, .ok x)) :
    s.manager.executions task.id = none ∧ s₁.snapshotOf x = some task ∧
      s₁.manager.executions task.id = some x := by
  have heffects := Op.effects hrun
  simp only [Op.run, ExecutionManager.start] at hrun
  by_cases hx : (s.manager.executions task.id).isSome
  · simp [if_pos hx] at hrun
  · simp only [if_neg hx, Option.some.injEq, Prod.mk.injEq, Except.ok.injEq] at hrun
    refine ⟨by simpa using hx, ?_, ?_⟩
    · rw [Server.snapshotOf, heffects.executions, Op.executionsAfter, if_neg hx, ← hrun.2,
        List.getElem?_concat_length]
      rfl
    · rw [heffects.registered, Op.registeredAfter, if_neg hx, Function.update_self, hrun.2]

/-- A send that is to register has read or stored its task, and registers it
with all that is stored. -/
theorem SendCall.next_turn {call : SendCall} {pc : SendPc} {inp : Input}
    {tr' : List (Server × Action)} (hs : Turns h id tr s) (hmem : Thread.send call pc ∈ s.threads)
    (htr : ∀ task, HasSaved h id tr task → HasSaved h id tr' task)
    (hfresh : ∀ p, pc = .start p → s.manager.executions p.task.id = none → p.task.id = id →
      ∀ stored, s.taskStore.get id = some stored → p.task.Extends stored) :
    (call.next h inp pc).Post s fun s₁ t' new =>
      ((s.taskStore.get id).isSome → (s₁.taskStore.get id).isSome) →
        t'.Keeps h id tr' s₁ ∧ ∀ u ∈ new, u.Keeps h id tr' s₁ := by
  have hkeeps := hs.threads _ hmem
  have hnil {s₁ : Server} : ∀ u ∈ ([] : List Thread), u.Keeps h id tr' s₁ := List.forall_mem_nil _
  cases pc <;> simp only [SendCall.next]
  case load =>
    split
    · exact Cmd.post_pass.mpr fun _ => ⟨trivial, hnil⟩
    · rw [Cmd.post_get]
      intro _
      refine ⟨?_, hnil⟩
      split
      · trivial
      · next p hp =>
        have hmessage := prepare_message hp
        split
        · exact hmessage
        · next hstored =>
          refine ⟨hmessage, fun hid => ?_⟩
          obtain ⟨y, hy, _, rfl⟩ | ⟨_, _, rfl⟩ := prepare_ok hp
          · have hrequest : requestTaskId inp.toFresh call.req = id := (get_id hy).symm.trans hid
            rw [← hrequest, hy]
            rfl
          · exact absurd rfl hstored
  case create p =>
    rw [Cmd.post_create]
    intro _
    have hlive := hs.loaded _ hmem p.task rfl
    obtain ⟨_, hc⟩ | ⟨_, store', hc, hw⟩ := create_cases s.taskStore p.task
    · rw [hc]
      exact ⟨trivial, hnil⟩
    · rw [hc]
      refine ⟨⟨hkeeps, ?_⟩, hnil⟩
      rintro rfl
      show (store'.get p.task.id).isSome
      rw [hw.get_self hlive]
      rfl
  case savePush p =>
    obtain ⟨hmessage, hstored⟩ := hkeeps
    split
    · exact Cmd.post_pass.mpr fun _ => ⟨⟨hmessage, hstored⟩, hnil⟩
    · rw [Cmd.post_savePushConfig]
      intro _
      split
      · exact ⟨⟨hmessage, hstored⟩, hnil⟩
      · exact ⟨trivial, hnil⟩
  case start p =>
    obtain ⟨hmessage, hstored⟩ := hkeeps
    intro s₁ b hrun hkept
    refine ⟨?_, hnil⟩
    cases b with
    | error error => trivial
    | ok x =>
        obtain ⟨hfree, hsnapshot, hregistered⟩ :=
          Op.start_registers (show (Op.start p.task).run s = some (s₁, .ok x) from hrun)
        refine ⟨hmessage, hsnapshot, fun hid => ⟨hid ▸ hregistered, hkept (hstored hid), ?_⟩⟩
        obtain ⟨z, hz⟩ := Option.isSome_iff_exists.mp (hstored hid)
        exact htr _ ((hs.stored z hz).extends (hfresh p rfl hfree hid z hz))
  case attach p x =>
    obtain ⟨hmessage, hsnapshot, hholds⟩ := hkeeps
    intro s₁ receiver hrun hkept
    obtain ⟨active, _, heq⟩ := Option.map_eq_some_iff.mp hrun
    obtain ⟨rfl, _⟩ := Prod.mk.inj heq
    refine ⟨?_, fun u hu => ?_⟩
    · dsimp only
      split <;> trivial
    · obtain rfl := List.mem_singleton.mp hu
      refine ⟨⟨?_, rfl, ?_, ?_, ?_⟩, fun _ => hsnapshot, fun _ hid => ?_⟩
      · simp [SendCall.driver]
      · rintro m hm
        obtain rfl := Option.some.inj hm
        exact hmessage
      · simp [SendCall.driver]
      · simp [SendCall.driver]
      · obtain ⟨hregistered, hstored, hsaved⟩ := hholds hid
        exact ⟨hregistered, hstored, htr _ hsaved⟩
  case following taskId sub lastEvent =>
    refine post_pollCmd fun _ _ o _ => ⟨?_, hnil⟩
    obtain _ | _ | item := o
    · trivial
    · simp only [SendCall.finishSend]
      split <;> trivial
    · simp only [SendCall.onItem]
      split
      · trivial
      · split
        · trivial
        · split <;> trivial
  case answering taskId => exact Cmd.post_get.mpr fun _ => ⟨trivial, hnil⟩
  case streaming sub =>
    refine post_pollCmd fun _ _ o _ => ⟨?_, hnil⟩
    obtain _ | _ | item := o <;> trivial
  case returned => exact Cmd.post_halt
  case ended => exact Cmd.post_halt

/-! ## what is stored -/

/-- What a step of a driver stores, it stores. -/
theorem Server.saved_eq_some {d : Driver} {y : Task} (hs : s.saved h a = some (d, y)) :
    ∃ i inp, a = .step i inp ∧ s.threads[i]? = some (.drive d) ∧ s.writes h a = some y := by
  unfold Server.saved at hs
  split at hs
  · next i inp =>
    split at hs
    · next d' hi =>
      obtain ⟨y', hy, heq⟩ := Option.map_eq_some_iff.mp hs
      obtain ⟨rfl, rfl⟩ := Prod.mk.inj heq
      exact ⟨i, inp, rfl, hi, hy⟩
    · contradiction
  · contradiction

/-- A driver that stores is not done. -/
theorem Driver.not_done {d : Driver} {inp : Input} {y : Task}
    (hw : (d.next inp).writes s = some y) : d.pc ≠ .done := by
  intro hpc
  obtain ⟨event, pc, h⟩ | ⟨error, pc, h⟩ := d.writes_cases hw
  · rw [hpc] at h
    contradiction
  · rw [hpc] at h
    contradiction

/-- What is stored for the task of a driver is of that task. -/
theorem Driver.Steady.written {d : Driver} (hd : d.Steady) {inp : Input} {y : Task}
    (hw : (d.next inp).writes s = some y) : y.Extends d.current := by
  obtain ⟨event, pc, hpc⟩ | ⟨error, pc, hpc⟩ := d.writes_cases hw
  · exact hd.saving event y pc hpc
  · exact (hd.failing error y pc hpc).1

/-! ## the invariant -/

/-- A thread keeps to what it kept to, where the step of another leaves what
it holds. -/
theorem Thread.Keeps.other {tr' : List (Server × Action)} (hk : t.Keeps h id tr s)
    (hsnapshot : ∀ x task, t.owns = some x → s.snapshotOf x = some task →
      s'.snapshotOf x = some task)
    (hstored : (s.taskStore.get id).isSome → (s'.taskStore.get id).isSome)
    (hholds : ∀ x task, t.owns = some x → Holds h id tr s x task → Holds h id tr' s' x task) :
    t.Keeps h id tr' s' := by
  cases t with
  | send call pc =>
      cases pc with
      | create p => exact hk
      | savePush p => exact ⟨hk.1, fun hid => hstored (hk.2 hid)⟩
      | start p => exact ⟨hk.1, fun hid => hstored (hk.2 hid)⟩
      | attach p x =>
          exact ⟨hk.1, hsnapshot x _ rfl hk.2.1, fun hid => hholds x _ rfl (hk.2.2 hid)⟩
      | _ => trivial
  | drive d =>
      exact ⟨hk.1, fun hpc => hsnapshot _ _ rfl (hk.2.1 hpc),
        fun hpc hid => hholds _ _ rfl (hk.2.2 hpc hid)⟩
  | cancel call pc => exact hk
  | subscribe call pc => trivial
  | dropped => trivial

/-- The task of a driver that stores was stored before. -/
theorem Turns.saves (ht : Turns h id tr s) {d : Driver} {y : Task}
    (hsaved : s.saved h a = some (d, y)) (hid : d.taskId = id) :
    ∃ i inp, a = .step i inp ∧ s.threads[i]? = some (.drive d) ∧ (d.next inp).writes s = some y ∧
      d.Steady ∧ Holds h id tr s d.exec d.current := by
  obtain ⟨i, inp, rfl, hi, hw⟩ := Server.saved_eq_some hsaved
  simp only [Server.writes, hi, Option.bind_some] at hw
  obtain ⟨hsteady, _, hholds⟩ := ht.threads _ (List.mem_of_getElem? hi)
  exact ⟨i, inp, rfl, hi, hw, hsteady, hholds (Driver.not_done hw) hid⟩

/-- A thread sees of the others no more than the stores and the executions. -/
theorem Thread.Keeps.of_eq (hk : t.Keeps h id tr s₁)
    (heq : s' = { s₁ with threads := s'.threads }) : t.Keeps h id tr s' := by
  rw [heq]
  exact hk.other (fun _ _ _ hx => hx) (fun hx => hx)
    fun _ _ _ hx => ⟨hx.registered, hx.stored, hx.saved⟩

/-- A driver at its end is done next. -/
theorem Driver.next_done {d : Driver} (hd : d.pc = .finishing ∨ d.pc = .done) (inp : Input) :
    (d.next inp).Post s fun _ t' _ => ∀ d', t' = .drive d' → d'.pc = .done := by
  obtain hpc | hpc := hd
  · simp only [Driver.next, hpc]
    refine Cmd.post_of_forall fun _ _ d' hd' => ?_
    rw [← Thread.drive.inj hd']
  · simp only [Driver.next, hpc]
    exact Cmd.post_halt

/-- What is stored after a step has what the executions stored. -/
theorem Turns.stores (ht : Turns h id tr s) (hs : Server.step h s a = some s') {z : Task}
    (hz : s'.taskStore.get id = some z) : HasSaved h id (tr ++ [(s, a)]) z := by
  rw [hasSaved_snoc]
  obtain ⟨hnone, hsame⟩ | ⟨x, hx, hw, _⟩ := step_taskStore hs
  · refine ⟨ht.stored z (hsame ▸ hz), fun d y hsaved _ => ?_⟩
    obtain ⟨_, _, _, _, hy⟩ := Server.saved_eq_some hsaved
    rw [hnone] at hy
    contradiction
  · obtain ⟨hid, rfl⟩ | ⟨hne, hold⟩ := hw.of_get hz
    · cases a with
      | call request => contradiction
      | drop i => contradiction
      | step i inp =>
          obtain ⟨t, hi, hwrites⟩ := Option.bind_eq_some_iff.mp hx
          have hkeeps := ht.threads t (List.mem_of_getElem? hi)
          cases t with
          | send call pc =>
              -- a task just created, so no execution stored it before
              obtain ⟨p, rfl, rfl, hfree⟩ := SendCall.writes_cases hwrites
              refine ⟨fun q hq d y hy hd => ?_, fun d y hsaved _ => ?_⟩
              · have hstored := ht.saved q hq d y hy hd
                rw [hid, hfree] at hstored
                contradiction
              · simp [Server.saved, hi] at hsaved
          | drive d =>
              obtain ⟨hsteady, _, hholds⟩ := hkeeps
              have hextends := hsteady.written hwrites
              have hholds := hholds (Driver.not_done hwrites)
                (hsteady.id.symm.trans (hextends.id.symm.trans hid.symm))
              refine ⟨hholds.saved.extends hextends, fun d' y hsaved _ => ?_⟩
              obtain ⟨_, _, heq, hi', hy⟩ := Server.saved_eq_some hsaved
              obtain ⟨rfl, rfl⟩ := Action.step.inj heq
              obtain rfl := Thread.drive.inj (Option.some.inj (hi.symm.trans hi'))
              obtain rfl := Option.some.inj (hx.symm.trans hy)
              exact ⟨.refl _, fun m hm => hextends.messages m (hsteady.message m hm)⟩
          | cancel call pc => exact hkeeps.elim
          | subscribe call pc =>
              have hnone := SubscribeCall.writes_none (s := s) (h := h) call pc
              rw [show (call.next h pc).writes s = some z from hwrites] at hnone
              contradiction
          | dropped => contradiction
    · refine ⟨ht.stored z hold, fun d y hsaved hd => ?_⟩
      obtain ⟨_, _, _, _, hwrites, hsteady, _⟩ := ht.saves hsaved hd
      obtain ⟨_, _, _, _, hy⟩ := Server.saved_eq_some hsaved
      obtain rfl := Option.some.inj (hx.symm.trans hy)
      exact absurd ((hsteady.written hwrites).id.trans (hsteady.id.trans hd)).symm hne

/-- Where the task was stored once it is stored after a step. -/
theorem Turns.stays (ht : Turns h id tr s) (hkeeps : KeepsTurns h id s a)
    (hs : Server.step h s a = some s') : ∀ p ∈ tr ++ [(s, a)], ∀ d y,
      p.1.saved h p.2 = some (d, y) → d.taskId = id → (s'.taskStore.get id).isSome := by
  rw [List.forall_mem_append, List.forall_mem_singleton]
  refine ⟨fun p hp d y hy hd => hkeeps.stays hs (ht.saved p hp d y hy hd), fun d y hy hd => ?_⟩
  obtain ⟨_, _, _, _, _, _, hholds⟩ := ht.saves hy hd
  exact hkeeps.stays hs hholds.stored

section Step

variable {i : Nat} {cmd : Cmd} {b : cmd.β}

/-- What a step leaves of the execution of another thread. -/
theorem Turns.others (ht : Turns h id tr s) (hkeeps : KeepsTurns h id s a)
    (hs : Server.step h s a = some s') (hruns : s.runs h a i t cmd) (hran : s.Ran i cmd s' s₁ b)
    {k : Nat} {u : Thread} (hne : k ≠ i) (hk : s.threads[k]? = some u) :
    u.Keeps h id (tr ++ [(s, a)]) s' := by
  have hacts := ht.threads t (List.mem_of_getElem? hruns.1)
  have hcancel : ∀ call pc, t ≠ .cancel call pc := by
    rintro call pc rfl
    exact hacts.elim
  have hfree : ∀ x, u.owns = some x → ∀ d, t = .drive d → d.exec ≠ x := by
    rintro x hown d rfl rfl
    exact ht.owned.other hruns.1 rfl hne hk hown
  refine (ht.threads u (List.mem_of_getElem? hk)).other (fun x task hown hx => ?_)
    (hkeeps.stays hs) fun x task hown hx => ⟨?_, hkeeps.stays hs hx.stored, ?_⟩
  · have hsnapshot := (hran.post hruns.link).1.snapshotOf hx fun item published hl => ?_
    · rw [hran.eq]
      exact hsnapshot
    · obtain ⟨d, hd, hexec⟩ | ⟨call, pc, hc⟩ := Thread.publishing hl
      · exact hfree x hown d hd hexec
      · exact hcancel call pc hc
  · rw [hran.eq]
    refine hran.effects.stays hx.registered fun hop => ?_
    obtain ⟨d, hd, _, _, hexec⟩ | ⟨call, pc, hc, _⟩ := hruns.finishes hop
    · exact hfree x hown d hd hexec
    · exact hcancel call pc hc
  · refine hasSaved_snoc.mpr ⟨hx.saved, fun d y hsaved hd => ?_⟩
    obtain ⟨j, inp, rfl, hj, _, _, hholds⟩ := ht.saves hsaved hd
    obtain ⟨hi, ⟨_, heq, _⟩ | ⟨heq, _⟩⟩ := hruns
    · obtain ⟨rfl, _⟩ := Action.step.inj heq
      obtain rfl := Option.some.inj (hi.symm.trans hj)
      exact absurd (Option.some.inj (hholds.registered.symm.trans hx.registered))
        (hfree x hown d rfl)
    · contradiction

/-- What a step makes of the driver that takes it. -/
theorem Turns.drives (ht : Turns h id tr s) (honly : OnlyTurns s a) (hkeeps : KeepsTurns h id s a)
    (hs : Server.step h s a = some s') {d : Driver} (hruns : s.runs h a i (.drive d) cmd)
    (hran : s.Ran i cmd s' s₁ b) : (cmd.resume b).1.Keeps h id (tr ++ [(s, a)]) s' := by
  obtain ⟨hsteady, hstart, hholds⟩ := ht.threads _ (List.mem_of_getElem? hruns.1)
  have hcont := hran.post hruns.continues
  have hwrites := hruns.writes
  have hi := hruns.1
  have hends : ∀ x, cmd.op.finishes = some (id, x) → d.pc = .finishing := by
    intro x hop
    obtain ⟨d₁, hd₁, hpc, _⟩ | ⟨_, _, hc, _⟩ := hruns.finishes hop
    · rw [Thread.drive.inj hd₁]
      exact hpc
    · contradiction
  obtain ⟨inp, rfl, rfl⟩ := hruns.next hran rfl
  obtain ⟨d', hd', hleads⟩ := hran.post (hsteady.next hstart honly)
  have hdone := fun hpc => hran.post (Driver.next_done (d := d) hpc inp)
  rw [hd'] at hcont ⊢
  obtain ⟨hid, hexec, hctx, _⟩ := hcont
  refine ⟨hleads.steady, fun hpc => absurd hpc hleads.started, fun hpc htask => ?_⟩
  have hlive : d.pc ≠ .finishing ∧ d.pc ≠ .done := by
    constructor
    · exact fun h => hpc (hdone (.inl h) d' hd')
    · exact fun h => hpc (hdone (.inr h) d' hd')
  obtain ⟨hregistered, hstored, hsaved⟩ := hholds hlive.2 (hid.symm.trans htask)
  refine ⟨?_, hkeeps.stays hs hstored, hasSaved_snoc.mpr ⟨hsaved.extends hleads.current, ?_⟩⟩
  · rw [hran.eq, hexec]
    exact hran.effects.stays hregistered fun hop => hlive.1 (hends _ hop)
  · intro e y hsaved _
    obtain ⟨_, _, heq, he, hy⟩ := Server.saved_eq_some hsaved
    obtain ⟨rfl, rfl⟩ := Action.step.inj heq
    obtain rfl := Thread.drive.inj (Option.some.inj (hi.symm.trans he))
    refine ⟨hleads.written y (hwrites.trans hy), fun m hm => hleads.steady.message m ?_⟩
    rw [hctx, hm]

/-- What a step makes of the thread that takes it. -/
theorem Turns.acts (ht : Turns h id tr s) (honly : OnlyTurns s a) (hkeeps : KeepsTurns h id s a)
    (hs : Server.step h s a = some s') (hruns : s.runs h a i t cmd) (hran : s.Ran i cmd s' s₁ b) :
    (cmd.resume b).1.Keeps h id (tr ++ [(s, a)]) s' ∧
      ∀ u ∈ (cmd.resume b).2, u.Keeps h id (tr ++ [(s, a)]) s' := by
  have hmem := List.mem_of_getElem? hruns.1
  have hcont := hran.post hruns.continues
  cases t with
  | send call pc =>
      obtain ⟨hi, ⟨inp, rfl, rfl⟩ | ⟨rfl, rfl⟩⟩ := hruns
      · have hnone : s.saved h (.step i inp) = none := by simp [Server.saved, hi]
        have htr : ∀ task, HasSaved h id tr task →
            HasSaved h id (tr ++ [(s, .step i inp)]) task := by
          intro task hsaved
          rw [hasSaved_snoc, hnone]
          exact ⟨hsaved, by simp⟩
        have hfresh : ∀ p, pc = .start p → s.manager.executions p.task.id = none → p.task.id = id →
            ∀ stored, s.taskStore.get id = some stored → p.task.Extends stored := by
          rintro p rfl hfree hid
          exact hkeeps.fresh p.task (by simp [Server.registers, hi, hfree]) hid
        have hpost : (call.next h inp pc).Post s _ := SendCall.next_turn ht hmem htr hfresh
        have heq : s' = { s₁ with threads := s'.threads } := by rw [hran.eq]
        have hstays := hkeeps.stays hs
        rw [heq] at hstays
        obtain ⟨hself, hnew⟩ := hran.post hpost hstays
        exact ⟨hself.of_eq heq, fun u hu => (hnew u hu).of_eq heq⟩
      · obtain ⟨hdrop, hnew⟩ := hran.post (Thread.drop_dropped (.send call pc))
        rw [hdrop, hnew]
        exact ⟨trivial, List.forall_mem_nil _⟩
  | drive d =>
      refine ⟨ht.drives honly hkeeps hs hruns hran, ?_⟩
      rw [hcont.spawns_nothing (by simp)]
      exact List.forall_mem_nil _
  | cancel call pc => exact (ht.threads _ hmem).elim
  | subscribe call pc =>
      rw [hcont.spawns_nothing (by simp)]
      refine ⟨?_, List.forall_mem_nil _⟩
      generalize (cmd.resume b).1 = t' at hcont
      cases t' <;> trivial
  | dropped =>
      rw [hcont.spawns_nothing (by simp)]
      refine ⟨?_, List.forall_mem_nil _⟩
      generalize (cmd.resume b).1 = t' at hcont
      cases t' <;> trivial

end Step

theorem Turns.step (ht : Turns h id tr s) (honly : OnlyTurns s a) (hkeeps : KeepsTurns h id s a)
    (hs : Server.step h s a = some s') : Turns h id (tr ++ [(s, a)]) s' := by
  refine ⟨ht.owned.step hs, ht.loaded.step hs, fun u hu => ?_, fun z hz => ht.stores hs hz,
    ht.stays hkeeps hs⟩
  obtain ⟨request, rfl, rfl⟩ | ⟨i, t, cmd, s₁, b, hruns, hran⟩ := step_cases hs
  · obtain hu | hu := List.mem_append.mp hu
    · exact ((ht.threads u hu).other (fun _ _ _ hx => hx) (fun hx => hx) fun _ _ _ hx =>
        ⟨hx.registered, hx.stored, hasSaved_snoc.mpr ⟨hx.saved, by simp [Server.saved]⟩⟩)
    · obtain rfl := List.mem_singleton.mp hu
      cases request with
      | cancel call => exact honly.elim
      | send call => trivial
      | subscribe call => trivial
  · have hacts := ht.acts honly hkeeps hs hruns hran
    obtain ⟨k, hk⟩ := List.mem_iff_getElem?.mp hu
    obtain ⟨_, rfl⟩ | ⟨hne, hk⟩ | ⟨_, hnew⟩ := hran.thread_cases hk
    · exact hacts.1
    · exact ht.others hkeeps hs hruns hran hne hk
    · exact hacts.2 u hnew

/-- **No turn loses what another stored**: in every run of sends and
subscriptions, whose executors emit updates of their tasks, and in which no
execution of the task is registered with one that lacks what is stored and no
limit purges it, the stored task has every artifact any execution stored, and
the message of every execution that stored. -/
theorem turns_keep (h : Handler) (id : TaskId) {taskStore : InMemoryTaskStore}
    {pushConfigStore : Option InMemoryPushConfigStore} {pushSender : Bool}
    (hr : (serverMachine h).Run (.new taskStore pushConfigStore pushSender) tr s)
    (honly : Machine.Guarded OnlyTurns tr) (hkeeps : Machine.Guarded (KeepsTurns h id) tr) :
    ∀ p ∈ tr, ∀ d y, p.1.saved h p.2 = some (d, y) → d.taskId = id →
      ∃ z, s.taskStore.get id = some z ∧ (∀ a ∈ y.artifactIds, a ∈ z.artifactIds) ∧
        ∀ m, d.ctx.message = some m → m ∈ z.messages := by
  have hboth : Machine.Guarded (fun s a => OnlyTurns s a ∧ KeepsTurns h id s a) tr :=
    fun p hp => ⟨honly p hp, hkeeps p hp⟩
  have hturns : Turns h id tr s := by
    refine hr.guarded ⟨⟨?_, ?_⟩, ?_, ?_, ?_, ?_⟩ (fun _ _ _ _ ht hg => ht.step hg.1 hg.2) hboth
    · simp [Server.new]
    · simp [Server.new]
    · simp [Server.new, Loaded]
    · simp [Server.new]
    · intro z _ p hp
      exact absurd hp List.not_mem_nil
    · intro p hp
      exact absurd hp List.not_mem_nil
  intro p hp d y hy hd
  obtain ⟨z, hz⟩ := Option.isSome_iff_exists.mp (hturns.saved p hp d y hy hd)
  obtain ⟨hextends, hmessage⟩ := hturns.stored z hz p hp d y hy hd
  exact ⟨z, hz, hextends.artifacts, hmessage⟩

/-! ## two turns -/

/-- An update of the task "t" with an artifact. -/
def draftUpdate : StreamResponse :=
  .artifactUpdate ⟨"t", "c", ⟨"a", none, none, [], none, none⟩, none, none, none⟩

/-- An update of its status. -/
def workingUpdate : StreamResponse := .statusUpdate ⟨"t", "c", ⟨.working, none, none⟩, none⟩

/-- One turn after the other. -/
def freshTurns : List Action :=
  [.call (.send (.continuing "t" "m1")), .call (.send (.continuing "t" "m2"))] ++
    List.replicate 4 (.step 0 (.emitting [])) ++
    List.replicate 10 (.step 2 (.emitting [.ok draftUpdate])) ++
    List.replicate 4 (.step 1 (.emitting [])) ++
    List.replicate 10 (.step 3 (.emitting [.ok workingUpdate]))

/-- A script of calls and steps whose executors emit updates. -/
theorem onlyTurns_of_exec {as : List Action} {s₀ : Server}
    (hexec : (serverMachine h).exec s₀ as = some (tr, s)) (has : ∀ a ∈ as, ∀ s, OnlyTurns s a) :
    Machine.Guarded OnlyTurns tr := by
  intro p hp
  have hmem : p.2 ∈ tr.map (·.2) := List.mem_map_of_mem hp
  rw [Machine.actions_of_exec hexec] at hmem
  exact has p.2 hmem p.1

theorem freshTurns_only : ∀ a ∈ freshTurns, ∀ s, OnlyTurns s a := by
  simp [freshTurns, OnlyTurns, Input.emitting, draftUpdate, workingUpdate, isDelta, or_imp,
    forall_and]

/-- Two turns keep what they stored. -/
theorem freshTurns_keep :
    ∃ tr s, (serverMachine .new).Run awaitingInput tr s ∧ Machine.Guarded OnlyTurns tr ∧
      Machine.Guarded (KeepsTurns .new "t") tr ∧
      (∀ p ∈ tr, ∀ d y, p.1.saved .new p.2 = some (d, y) → d.taskId = "t" →
        ∃ z, s.taskStore.get "t" = some z ∧ (∀ a ∈ y.artifactIds, a ∈ z.artifactIds) ∧
          ∀ m, d.ctx.message = some m → m ∈ z.messages) ∧
      ∃ p ∈ tr, (p.1.saved .new p.2).map (·.2.artifactIds) = some ["a"] := by
  have hx : ∃ tr s z, (serverMachine .new).exec awaitingInput freshTurns = some (tr, s) ∧
      (∀ p ∈ tr, p.1.taskStore.terminalTaskLimit = none) ∧
      (tr.filterMap fun p => (p.1.registers p.2).map fun task => (p.1.taskStore.get "t", task)) =
        [(some (makeTask "t" "c" .inputRequired), continueTask (makeTask "t" "c" .inputRequired)
          (SendCall.continuing "t" "m1").req.message),
          (some z, continueTask z (SendCall.continuing "t" "m2").req.message)] ∧
      ∃ p ∈ tr, (p.1.saved .new p.2).map (·.2.artifactIds) = some ["a"] :=
    ⟨_, _, _, rfl, by decide, rfl, by decide⟩
  obtain ⟨tr, s, z, hexec, hunlimited, hregisters, hsaved⟩ := hx
  have hrun := Machine.run_of_exec hexec
  have honly := onlyTurns_of_exec hexec freshTurns_only
  have hkeeps : Machine.Guarded (KeepsTurns .new "t") tr := by
    intro p hp
    refine keepsTurns_of_unlimited (fun task htask _ stored hstored => ?_) (hunlimited p hp)
    have hmem : (some stored, task) ∈ tr.filterMap fun p =>
        (p.1.registers p.2).map fun task => (p.1.taskStore.get "t", task) :=
      List.mem_filterMap.mpr ⟨p, hp, by rw [htask, hstored]; rfl⟩
    rw [hregisters] at hmem
    obtain ⟨message, rfl⟩ : ∃ message, task = continueTask stored message := by
      simp only [List.mem_cons, Prod.mk.injEq, Option.some.injEq, List.not_mem_nil,
        or_false] at hmem
      obtain ⟨rfl, rfl⟩ | ⟨rfl, rfl⟩ := hmem <;> exact ⟨_, rfl⟩
    exact .continueTask stored message
  exact ⟨tr, s, hrun, honly, hkeeps, turns_keep .new "t" hrun honly hkeeps, hsaved⟩

/-- Two sends read the task; one goes first, and its executor adds an
artifact; then the other. -/
def staleTurn : List Action :=
  [.call (.send (.continuing "t" "m1")), .call (.send (.continuing "t" "m2")),
      .step 0 (.emitting [])] ++
    List.replicate 4 (.step 1 (.emitting [])) ++
    List.replicate 10 (.step 2 (.emitting [.ok draftUpdate])) ++
    List.replicate 3 (.step 0 (.emitting [])) ++
    List.replicate 10 (.step 3 (.emitting [.ok workingUpdate]))

theorem staleTurn_only : ∀ a ∈ staleTurn, ∀ s, OnlyTurns s a := by
  simp [staleTurn, OnlyTurns, Input.emitting, draftUpdate, workingUpdate, isDelta, or_imp,
    forall_and]

/-- The second turn loses what the first stored. -/
theorem staleTurn_loses :
    ¬ ∀ (h : Handler) (id : TaskId) (taskStore : InMemoryTaskStore)
      (pushConfigStore : Option InMemoryPushConfigStore) (pushSender : Bool) tr s,
      (serverMachine h).Run (.new taskStore pushConfigStore pushSender) tr s →
      Machine.Guarded OnlyTurns tr → (∀ t ∈ s.threads, t.holds = none) →
        ∀ p ∈ tr, ∀ d y, p.1.saved h p.2 = some (d, y) → d.taskId = id →
          ∃ z, s.taskStore.get id = some z ∧ (∀ a ∈ y.artifactIds, a ∈ z.artifactIds) ∧
            ∀ m, d.ctx.message = some m → m ∈ z.messages := by
  intro hkeep
  have hx : ((serverMachine .new).exec awaitingInput staleTurn).map (fun p =>
      (p.2.threads.map (·.holds), (p.1[9]?.bind fun q => q.1.saved .new q.2).map
        fun q => (q.1.taskId, q.2.artifactIds), (p.2.taskStore.get "t").map (·.artifactIds))) =
      some ([none, none, none, none], some ("t", ["a"]), some []) := rfl
  obtain ⟨⟨tr, s⟩, hexec, hp⟩ := Option.map_eq_some_iff.mp hx
  obtain ⟨hholds, hp⟩ := Prod.mk.inj hp
  obtain ⟨hsaved, hstored⟩ := Prod.mk.inj hp
  obtain ⟨⟨d, y⟩, hsaved, hdy⟩ := Option.map_eq_some_iff.mp hsaved
  obtain ⟨hid, hy⟩ := Prod.mk.inj hdy
  obtain ⟨p, hp, hsaved⟩ := Option.bind_eq_some_iff.mp hsaved
  have hdone : ∀ t ∈ s.threads, t.holds = none := by
    intro t ht
    have hmem : t.holds ∈ s.threads.map (·.holds) := List.mem_map_of_mem ht
    rw [hholds] at hmem
    simpa using hmem
  obtain ⟨z, hz, hartifacts, _⟩ := hkeep .new "t" _ none false tr s (Machine.run_of_exec hexec)
    (onlyTurns_of_exec hexec staleTurn_only) hdone p (List.mem_of_getElem? hp) d y hsaved hid
  have ha := hartifacts "a" (by rw [show y.artifactIds = ["a"] from hy]; simp)
  rw [hz, Option.map_some, Option.some.injEq] at hstored
  rw [hstored] at ha
  contradiction

end A2a
