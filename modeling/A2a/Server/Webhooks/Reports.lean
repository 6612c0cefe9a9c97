import A2a.Server.Observers
import A2a.Server.Webhooks
import A2a.PushStore.History

/-!
# A2a.Server.Webhooks.Reports

What webhooks are told.

A configuration stays with the task it was saved for, and a thread pushes to
the configurations of one task what it observes of that task.  So a webhook is
sent the events that executors called for its task emitted, and statuses of
that task (`webhook_told`).
-/

namespace A2a

/-- What a webhook of the task may be sent. -/
def Reportable (E : TaskId → StreamResponse → Prop) (own : TaskId) (event : StreamResponse) : Prop :=
  Relayed E own event ∨ ∃ task, event = statusUpdate task ∧ task.id = own

variable {E E' : TaskId → StreamResponse → Prop} {T : ExecId → Option TaskId} {W : List TaskId}
  {h : Handler} {s s' s₁ : Server} {a : Action} {i : Nat} {t : Thread} {id : TaskId}
  {event : StreamResponse} {tr : List (Server × Action)} {taskStore : InMemoryTaskStore}
  {pushConfigStore : Option InMemoryPushConfigStore} {pushSender : Bool}

/-- The configurations a thread has yet to send to are of the task it pushes
for. -/
def Thread.Addresses (t : Thread) : Prop :=
  ∀ id event configs, t.push = some (id, event, .send configs) → ∀ config ∈ configs, config.taskId = id

/-- What holds of pushes in every run. -/
structure Addressing (tr : List (Server × Action)) (s : Server) : Prop extends Observing tr s where
  placed : ∀ store, s.pushConfigStore = some store → store.Placed
  addresses : ∀ t ∈ s.threads, t.Addresses
  webhooks : ∀ config event, (config, event) ∈ s.webhooks → Reportable (Emitted tr) config.taskId event

theorem Reportable.mono (hE : ∀ own event, E own event → E' own event) {event : StreamResponse}
    (hr : Reportable E own event) : Reportable E' own event := hr.imp_left (·.mono hE)

/-- What a thread pushes is of the task it pushes for. -/
theorem Thread.Observed.reported {id : TaskId} {event : StreamResponse} {pc : PushPc}
    (ht : t.Observed E T W) (hpush : t.push = some (id, event, pc)) : Reportable E id event := by
  cases t with
  | drive d =>
      obtain ⟨taskId, exec, ctx, current, stream, answered, tracked, place⟩ := d
      cases place <;> cases hpush
      case pushing.refl => exact .inl ht
      case failPushing.refl task => exact .inr ⟨task, rfl, rfl⟩
  | cancel call place =>
      cases place <;> cases hpush
      case pushing.refl => exact .inl ht.2
      case failPushing.refl task => exact .inr ⟨task, rfl, ht.2⟩
      case finalPushing.refl task => exact .inr ⟨task, rfl, ht.2⟩
  | _ => contradiction

theorem Handler.savePushConfig_placed (h : Handler) (newId : String)
    (config : TaskPushNotificationConfig) {stored : Option InMemoryPushConfigStore}
    (hp : ∀ store, stored = some store → store.Placed) :
    ∀ store, (h.savePushConfig newId config stored).2 = some store → store.Placed := by
  intro store hstore
  cases stored with
  | none =>
      simp only [savePushConfig] at hstore
      split at hstore <;> contradiction
  | some old =>
      simp only [savePushConfig] at hstore
      split at hstore <;> obtain rfl := Option.some.inj hstore
      · exact hp _ rfl
      · exact (hp old rfl).next (.save newId config)

/-- A push configuration is saved under its task whoever saves it. -/
theorem Op.run_placed {β : Type} {op : Op β} {b : β} (hr : op.run s = some (s₁, b))
    (hp : ∀ store, s.pushConfigStore = some store → store.Placed) :
    ∀ store, s₁.pushConfigStore = some store → store.Placed := by
  cases op with
  | savePushConfig h newId config =>
      obtain ⟨rfl, _⟩ := Prod.mk.inj (Option.some.inj hr)
      exact h.savePushConfig_placed newId config hp
  | start task =>
      simp only [run, ExecutionManager.start, foldl_hand] at hr
      split at hr <;> cases hr <;> exact hp
  | subscribe id =>
      simp only [run] at hr
      split at hr
      · split at hr <;> cases hr
        exact hp
      · cases hr
        exact hp
  | listPushConfigs id order => simp only [run] at hr; split at hr <;> cases hr; exact hp
  | attached w => simp only [run] at hr; split at hr <;> cases hr <;> exact hp
  | await w => simp only [run] at hr; split at hr <;> cases hr; exact hp
  | listen x =>
      obtain ⟨_, _, heq⟩ := Option.map_eq_some_iff.mp hr
      cases heq
      exact hp
  | readState x =>
      obtain ⟨_, _, heq⟩ := Option.map_eq_some_iff.mp hr
      cases heq
      exact hp
  | publish x snapshotTask =>
      obtain ⟨_, _, heq⟩ := Option.map_eq_some_iff.mp hr
      cases heq
      exact hp
  | broadcast x event =>
      obtain ⟨rfl, _⟩ := Prod.mk.inj (Option.some.inj hr)
      split <;> exact hp
  | recv receiver =>
      simp only [run] at hr
      split at hr
      · contradiction
      · split at hr
        · cases hr
          exact hp
        · split at hr
          · cases hr
            exact hp
          · split at hr <;> cases hr
            exact hp
  | halt => contradiction
  | _ =>
      obtain ⟨rfl, _⟩ := Prod.mk.inj (Option.some.inj hr)
      exact hp

/-- A push that failed is over. -/
theorem Thread.push_afterFailedPush (inp : Input) (t : Thread) (error : A2AError)
    {push : TaskId × StreamResponse × PushPc} (hpush : t.push = some push) :
    (t.afterPush inp (.error error)).push = none := by
  cases t with
  | drive d =>
      obtain ⟨taskId, exec, ctx, current, stream, answered, tracked, place⟩ := d
      cases place
      case pushing event pc =>
        show (Driver.fail _ inp error).push = none
        simp only [Driver.fail]
        split <;> rfl
      case failPushing => rfl
      all_goals cases hpush
  | cancel call place =>
      cases place
      case pushing => rfl
      case failPushing => rfl
      case finalPushing => rfl
      all_goals cases hpush
  | _ => cases hpush

theorem Thread.Addresses.of_none (hpush : t.push = none) : t.Addresses := by
  intro id event configs hsome
  rw [hpush] at hsome
  contradiction

/-- **A push goes** to the configurations of its task. -/
theorem Server.runs.addresses {cmd : Cmd} (hr : s.runs h a i t cmd) (ht : t.Addresses)
    (hp : ∀ store, s.pushConfigStore = some store → store.Placed) :
    cmd.Post s fun _ t' _ => t'.Addresses := by
  cases hpush : t.push with
  | none =>
      intro s₁ b hrun id event configs hsome
      have henters := hr.enters hpush s₁ b hrun id event _ hsome
      contradiction
  | some push =>
      obtain ⟨id, event, pc⟩ := push
      obtain ⟨_, ⟨inp, _, rfl⟩ | ⟨_, rfl⟩⟩ := hr
      · rw [t.next_of_push h inp hpush]
        have hat (configs : List TaskPushNotificationConfig)
            (hconfigs : ∀ config ∈ configs, config.taskId = id) :
            (t.atPush (.send configs)).Addresses := by
          intro id' event' configs' hsome
          rw [Thread.push_atPush, hpush] at hsome
          cases hsome
          exact hconfigs
        obtain _ | _ | ⟨config, rest⟩ := pc
        · intro s₁ configs hrun
          simp only [pushCmd, Op.andThen, Op.run] at hrun
          split at hrun
          · next hlisted =>
              cases hrun
              refine hat _ fun config hmem => ?_
              have hmem' : config ∈ s.pushTargets id := hlisted ▸ hmem
              simp only [Server.pushTargets] at hmem'
              split at hmem'
              · next store hstore _ =>
                  obtain ⟨configId, hlookup⟩ := InMemoryPushConfigStore.mem_list.mp hmem'
                  exact ((hp store hstore).own id configId config hlookup).1
              · contradiction
          · contradiction
        · exact Cmd.post_pass.mpr (.of_none (t.push_afterPush inp hpush))
        · refine Cmd.post_of_forall fun _ outcome => ?_
          have hrest : ∀ config ∈ rest, config.taskId = id :=
            fun config hmem => ht id event _ hpush config (List.mem_cons_of_mem _ hmem)
          cases outcome with
          | ok _ => exact hat rest hrest
          | error error => exact .of_none (t.push_afterFailedPush inp error hpush)
      · intro s₁ b hrun
        rw [(t.drop_dropped s₁ b hrun).1]
        exact .of_none rfl

/-- What a step sends to webhooks. -/
theorem Server.runs.webhooks {cmd : Cmd} (hr : s.runs h a i t cmd) :
    cmd.Post s fun s₁ _ _ => s₁.webhooks = s.webhooks ∨ ∃ id event config rest,
      t.push = some (id, event, .send (config :: rest)) ∧
        s₁.webhooks = s.webhooks ++ [(config, event)] := by
  intro s₁ b hrun
  have he := Op.effects hrun
  rw [he.webhooks]
  have hquiet {β : Type} {op : Op β} (hop : op.Quiet) : op.webhooksAfter s = s.webhooks := by
    cases op <;> first | rfl | exact hop.elim
  obtain ⟨_, ⟨inp, _, rfl⟩ | ⟨_, rfl⟩⟩ := hr
  · by_cases hregisters : t.registers = none
    · cases hpushes : t.pushes with
      | false => exact .inl (hquiet (Thread.next_quiet hpushes hregisters inp))
      | true =>
          cases hpush : t.push with
          | none =>
              simp only [Thread.pushes, hpush] at hpushes
              contradiction
          | some push =>
              obtain ⟨id, event, pc⟩ := push
              rw [t.next_of_push h inp hpush]
              obtain _ | _ | ⟨config, rest⟩ := pc
              · exact .inl rfl
              · exact .inl rfl
              · exact .inr ⟨id, event, config, rest, rfl, rfl⟩
    · left
      cases t with
      | send call pc =>
          cases pc with
          | savePush prepared =>
              simp only [Thread.next, SendCall.next]
              split <;> rfl
          | _ => exact absurd rfl hregisters
      | _ => exact absurd rfl hregisters
  · exact .inl (hquiet (Thread.drop_quiet t))

theorem Addressing.step (ha : Addressing tr s) (hs : Server.step h s a = some s') :
    Addressing (tr ++ [(s, a)]) s' := by
  have hE : ∀ own event, Emitted tr own event → Emitted (tr ++ [(s, a)]) own event :=
    fun _ _ => Emitted.mono
  have hobserving := ha.toObserving.step hs
  obtain ⟨request, rfl, rfl⟩ | ⟨i, t, cmd, s₁, b, hruns, hran⟩ := step_cases hs
  · refine ⟨hobserving, ha.placed, fun t ht => ?_, fun config event hmem => ?_⟩
    · obtain ht | ht := List.mem_append.mp ht
      · exact ha.addresses t ht
      · obtain rfl := List.mem_singleton.mp ht
        cases request <;> exact .of_none rfl
    · exact (ha.webhooks config event hmem).mono hE
  · have hmem := List.mem_of_getElem? hruns.1
    have haddresses := ha.addresses t hmem
    refine ⟨hobserving, ?_, fun t' ht' => ?_, fun config event hsent => ?_⟩
    · have hsame : s'.pushConfigStore = s₁.pushConfigStore := by rw [hran.eq]
      rw [hsame]
      exact Op.run_placed hran.run ha.placed
    · obtain rfl | hold | hspawned := hran.mem_threads ht'
      · exact hran.post (hruns.addresses haddresses ha.placed)
      · exact ha.addresses t' hold
      · have hcont := hran.post hruns.continues
        obtain ⟨call, p, x, _, rfl⟩ := hcont.spawned hspawned
        exact .of_none rfl
    · rw [hran.eq] at hsent
      obtain hsame | ⟨id, event', config', rest, hpush, hsends⟩ := hran.post hruns.webhooks
      · rw [hsame] at hsent
        exact (ha.webhooks config event hsent).mono hE
      · rw [hsends] at hsent
        obtain hsent | hsent := List.mem_append.mp hsent
        · exact (ha.webhooks config event hsent).mono hE
        · cases List.mem_singleton.mp hsent
          obtain ⟨W, _, hthreads⟩ := ha.observed
          rw [haddresses id event _ hpush config List.mem_cons_self]
          exact ((hthreads t hmem).reported hpush).mono hE

end A2a
