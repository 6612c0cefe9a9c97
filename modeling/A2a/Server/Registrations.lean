import A2a.Server.Isolation
import A2a.Server.Owners

/-!
# A2a.Server.Registrations

When the channel of an execution is closed.

It is open while the execution is registered or some thread holds it.  A
cancel holds executions of its own task (`CancelsOwn`), and the owner of a
registered execution holds it (`OwnersHold`); so where no cancel is of the
task, the channel is closed once the driver is done (`Registering.closed`).
-/

namespace A2a

variable {h : Handler} {id : TaskId} {x : ExecId} {k : Nat} {tr : List (Server × Action)}
  {s s' s₁ : Server} {a : Action} {inp : Input} {d : Driver}

/-! ## what a cancel holds -/

/-- A cancel holds executions of its task. -/
def CancelsOwn (s : Server) : Prop :=
  ∀ call pc, .cancel call pc ∈ s.threads → ∀ x, (Thread.cancel call pc).holds = some x →
    s.taskOf x = some call.req.id

theorem CancelCall.afterLoop_holds {cancel : CancelCall} {c : Cancelling}
    (hx : (Thread.cancel cancel (afterLoop c)).holds = some x) : c.active = some x := by
  unfold afterLoop at hx
  split at hx
  · exact hx
  · contradiction

theorem CancelCall.afterEvent_holds {cancel : CancelCall} {c : Cancelling} {event : StreamResponse}
    (hx : (Thread.cancel cancel (afterEvent c event)).holds = some x) : c.active = some x := by
  unfold afterEvent at hx
  split at hx
  · exact afterLoop_holds (c := { c with terminalPushed := true }) hx
  · exact hx

theorem CancelCall.accept_holds {cancel : CancelCall} {c : Cancelling} {event : StreamResponse}
    (hx : (Thread.cancel cancel (accept c inp event)).holds = some x) : c.active = some x := by
  simp only [accept] at hx
  split at hx
  · exact hx
  · split at hx
    · exact hx
    · contradiction

/-- A cancel holds what it held, or has just found registered. -/
theorem CancelCall.next_holds (cancel : CancelCall) (pc : CancelPc) :
    (cancel.next h inp pc).Post s fun _ t' _ => ∀ x, t'.holds = some x →
      (Thread.cancel cancel pc).holds = some x ∨ s.manager.executions cancel.req.id = some x := by
  have hnone {pc' : CancelPc} (hpc' : (Thread.cancel cancel pc').holds = none) :
      ∀ x, (Thread.cancel cancel pc').holds = some x →
        (Thread.cancel cancel pc).holds = some x ∨
          s.manager.executions cancel.req.id = some x := by
    intro x hx
    rw [hpc'] at hx
    contradiction
  cases pc <;> simp only [next]
  case load =>
    split
    · exact Cmd.post_of_forall fun _ _ => hnone rfl
    · refine Cmd.post_of_forall fun _ o => ?_
      cases o with
      | none => exact hnone rfl
      | some task => dsimp only; split_ifs <;> exact hnone rfl
  case beginCancel =>
    refine Cmd.post_of_forall fun _ o => ?_
    cases o with
    | ok task => exact hnone rfl
    | error error => dsimp only; split <;> exact hnone rfl
  case raced error =>
    refine Cmd.post_of_forall fun _ o => ?_
    cases o with
    | none => exact hnone rfl
    | some task => dsimp only; split <;> exact hnone rfl
  case getActive task =>
    intro s₁ active hrun x hx
    obtain ⟨_, rfl⟩ := Prod.mk.inj (Option.some.inj hrun)
    exact .inr hx
  case polling c =>
    refine Cmd.post_of_forall fun _ _ x hx => .inl ?_
    obtain ⟨task, active, ctx, current, stream, terminalPushed⟩ := c
    cases stream with
    | nil => exact afterLoop_holds hx
    | cons item rest =>
        cases item with
        | ok event =>
            exact accept_holds (c := ⟨task, active, ctx, current, rest, terminalPushed⟩) hx
        | error error =>
            dsimp only at hx
            split at hx <;> exact hx
  case saving c event task pc =>
    refine Cmd.post_of_forall fun _ answer x hx => .inl ?_
    split at hx
    · exact hx
    · exact hx
    · contradiction
  case pushing c event pc =>
    refine post_pushCmd fun _ o x hx => .inl ?_
    obtain pc' | _ | _ := o
    · exact hx
    · contradiction
    · dsimp only at hx
      split at hx
      · exact hx
      · exact afterEvent_holds hx
  case publishing c event pc =>
    split
    · exact Cmd.post_of_forall fun _ _ x hx => .inl (afterEvent_holds hx)
    · refine post_publishCmd fun _ o x hx => .inl ?_
      cases o with
      | some pc' => exact hx
      | none => exact afterEvent_holds hx
  case failPublishing c error pc =>
    split
    · exact Cmd.post_of_forall fun _ _ x hx => .inl hx
    · refine post_publishCmd fun _ o x hx => .inl ?_
      cases o <;> exact hx
  case failLoad c error =>
    refine Cmd.post_of_forall fun _ o x hx => ?_
    cases o with
    | none => contradiction
    | some task => exact .inl hx
  case failPushing c error task pc =>
    refine post_pushCmd fun _ o x hx => ?_
    cases o with
    | inl pc' => exact .inl hx
    | inr result => contradiction
  case finishing c => split <;> exact Cmd.post_of_forall fun _ _ => hnone rfl
  case finalLoad c =>
    refine Cmd.post_of_forall fun _ o => ?_
    cases o with
    | none => exact hnone rfl
    | some task => dsimp only; split <;> exact hnone rfl
  case finalPushing c task pc =>
    refine post_pushCmd fun _ o => ?_
    obtain pc' | _ | _ := o <;> exact hnone rfl
  case releasing c task pc =>
    refine post_releaseCmd fun _ o => ?_
    cases o <;> exact hnone rfl
  case dropping task result pc =>
    refine post_releaseCmd fun _ o => ?_
    cases o <;> exact hnone rfl
  case returned => exact Cmd.post_halt

theorem CancelsOwn.step (hc : CancelsOwn s) (hi : Isolated tr s)
    (hs : Server.step h s a = some s') : CancelsOwn s' := by
  intro cancel pc hmem x hx
  refine step_taskOf hs ?_
  obtain ⟨request, rfl, rfl⟩ | ⟨j, t, cmd, s₁, b, hruns, hran⟩ := step_cases hs
  · obtain hmem | hmem := List.mem_append.mp hmem
    · exact hc cancel pc hmem x hx
    · have hthread := List.mem_singleton.mp hmem
      cases request <;> cases hthread
      contradiction
  · have hcont := hran.post hruns.continues
    obtain hself | hmem | hmem := hran.mem_threads hmem
    · rw [← hself] at hcont
      cases t <;> simp only [Thread.Continues] at hcont
      case cancel cancel' pc' =>
        obtain ⟨rfl, _⟩ := hcont
        have hmem := List.mem_of_getElem? hruns.1
        obtain ⟨inp, _, rfl⟩ := hruns.next hran rfl
        obtain hheld | hfound := hran.post (cancel.next_holds pc') x (hself ▸ hx)
        · exact hc cancel pc' hmem x hheld
        · exact hi.shared.registered _ _ hfound
    · exact hc cancel pc hmem x hx
    · obtain ⟨_, _, _, _, hd⟩ := hcont.spawned hmem
      cases hd

/-! ## what is registered -/

/-- The owner of a registered execution holds it. -/
def OwnersHold (s : Server) : Prop :=
  ∀ id x, s.manager.executions id = some x → ∀ t ∈ s.threads, t.owns = some x → t.holds = some x

theorem Driver.fail_holds (d : Driver) (inp : Input) (error : A2AError) :
    (d.fail inp error).holds = some d.exec := by
  rw [fail]
  split <;> rfl

theorem Driver.accept_holds (d : Driver) (inp : Input) (event : StreamResponse) :
    (d.accept inp event).holds = some d.exec := by
  simp only [accept]
  split
  · exact d.fail_holds inp _
  · split
    · rfl
    · split
      · rfl
      · exact fail_holds _ inp _

/-- A driver holds its execution until it has ended its registration. -/
theorem Driver.next_holds (d : Driver) (inp : Input) :
    (d.next inp).Post s fun _ t' _ => d.pc = .finishing ∨ t'.holds = some d.exec := by
  cases hpc : d.pc <;> simp only [next, hpc]
  case start => exact Cmd.post_of_forall fun _ _ => .inr rfl
  case poll =>
    split
    · exact Cmd.post_of_forall fun _ _ => .inr rfl
    · refine Cmd.post_of_forall fun _ state => .inr ?_
      split
      · rfl
      · split
        · exact accept_holds _ inp _
        · exact fail_holds _ inp _
  case saving event task pc =>
    refine Cmd.post_of_forall fun _ answer => .inr ?_
    split
    · rfl
    · rfl
    · exact fail_holds _ inp _
  case pushing event pc =>
    refine post_pushCmd fun _ o => .inr ?_
    obtain pc' | _ | _ := o
    · rfl
    · exact fail_holds _ inp _
    · rfl
  case publishing event pc =>
    refine post_publishCmd fun _ o => .inr ?_
    cases o with
    | some pc' => rfl
    | none => dsimp only; split <;> rfl
  case failSaving error task pc =>
    refine Cmd.post_of_forall fun _ answer => .inr ?_
    split <;> rfl
  case failPushing error task pc =>
    refine post_pushCmd fun _ o => .inr ?_
    cases o <;> rfl
  case failPublishing error failed pc =>
    refine post_publishCmd fun _ o => .inr ?_
    cases o <;> rfl
  case finishing => exact Cmd.post_of_forall fun _ _ => .inl trivial
  case done => exact Cmd.post_halt

theorem Driver.next_finishes (d : Driver) (inp : Input) (hd : d.pc = .finishing) :
    (d.next inp).op.finishes = some (d.taskId, d.exec) := by
  obtain ⟨taskId, y, ctx, current, stream, answered, tracked, pc⟩ := d
  cases hd
  rfl

/-- What is registered after an operation was registered before, and is not what
it ends; or it is new. -/
theorem Op.registeredAfter_some {β : Type} {op : Op β} (hx : op.registeredAfter s id = some x) :
    x = s.executions.length ∨ (s.manager.executions id = some x ∧ op.finishes ≠ some (id, x)) := by
  cases op with
  | start task =>
      simp only [registeredAfter] at hx
      split at hx
      · exact .inr ⟨hx, by simp [finishes]⟩
      · by_cases hid : id = task.id
        · subst hid
          rw [Function.update_self] at hx
          exact .inl (Option.some.inj hx).symm
        · rw [Function.update_of_ne hid] at hx
          exact .inr ⟨hx, by simp [finishes]⟩
  | finish id' y =>
      refine .inr ⟨finish_executions hx, ?_⟩
      rintro heq
      obtain ⟨rfl, rfl⟩ := Prod.mk.inj (Option.some.inj heq)
      have hbefore : s.manager.executions id' = some y := finish_executions hx
      simp [registeredAfter, ExecutionManager.finish, hbefore] at hx
  | _ => exact .inr ⟨hx, by simp [finishes]⟩

theorem OwnersHold.step (hr : OwnersHold s) (ho : Owned s) (hi : Isolated tr s)
    (hs : Server.step h s a = some s') : OwnersHold s' := by
  intro id x hx t' ht' hown
  obtain ⟨request, rfl, rfl⟩ | ⟨j, t, cmd, s₁, b, hruns, hran⟩ := step_cases hs
  · obtain ht' | ht' := List.mem_append.mp ht'
    · exact hr id x hx t' ht' hown
    · obtain rfl := List.mem_singleton.mp ht'
      cases request <;> contradiction
  · have hcont := hran.post hruns.continues
    obtain ⟨k, hk⟩ := List.mem_iff_getElem?.mp ht'
    obtain ⟨hnew, _, rfl⟩ | ⟨o, u, hu, hown', hk'⟩ := hran.owner hruns hk hown
    · -- it has just been registered
      rw [← Option.some.inj (hk.symm.trans (hran.getElem_self hruns.1))] at hcont
      cases t' with
      | send call pc => cases pc <;> exact hown
      | drive d =>
          cases t <;> simp only [Thread.Continues] at hcont
          case drive d₀ =>
            have hexec : d₀.exec = x := hcont.2.1.symm.trans (Option.some.inj hown)
            have hlt := ho.started k _ x hruns.1 (congrArg some hexec)
            exact absurd hlt (hnew ▸ Nat.lt_irrefl _)
      | _ => contradiction
    · have hlt := ho.started o u x hu hown'
      rw [hran.registered] at hx
      obtain heq | ⟨hbefore, hstays⟩ := Op.registeredAfter_some hx
      · exact absurd hlt (heq ▸ Nat.lt_irrefl _)
      · have hheld := hr id x hbefore u (List.mem_of_getElem? hu) hown'
        split at hk'
        · next hspawns =>
          -- it is the driver that has just been spawned
          obtain ⟨hlink, _⟩ := hran.post hruns.link
          have hmem := List.mem_of_getElem? (hran.spawned (Nat.le_of_eq hk'.symm) hk)
          obtain ⟨_, _, call, p, y, _, rfl⟩ := hcont.spawns hlink hmem
          exact hown
        · subst hk'
          by_cases hkj : k = j
          · subst hkj
            obtain rfl := Option.some.inj (hu.symm.trans hruns.1)
            obtain rfl := Option.some.inj (hk.symm.trans (hran.getElem_self hruns.1))
            cases u with
            | send call pc =>
                generalize (cmd.resume b).1 = t' at *
                cases t' with
                | send call' pc' => cases pc' <;> exact hown
                | drive d => exact hcont.elim
                | _ => contradiction
            | drive d =>
                obtain rfl := Option.some.inj hown'
                obtain ⟨inp, rfl, rfl⟩ := hruns.next hran rfl
                obtain hpc | hholds := hran.post (d.next_holds inp)
                · have hid := hi.shared.registered id _ hbefore
                  obtain ⟨hd, _⟩ : s.taskOf d.exec = some d.taskId ∧ _ :=
                    hi.threads _ (List.mem_of_getElem? hu)
                  obtain rfl := Option.some.inj (hid.symm.trans hd)
                  exact absurd (d.next_finishes inp hpc) hstays
                · exact hholds
            | _ => contradiction
          · obtain rfl := Option.some.inj (hk.symm.trans (hran.getElem_other hkj hu))
            exact hheld

/-- What holds of registrations in every run. -/
structure Registering (tr : List (Server × Action)) (s : Server) : Prop where
  isolated : Isolated tr s
  owned : Owned s
  registered : OwnersHold s
  cancels : CancelsOwn s

theorem run_registering {taskStore : InMemoryTaskStore}
    {pushConfigStore : Option InMemoryPushConfigStore} {pushSender : Bool}
    (hr : (serverMachine h).Run (.new taskStore pushConfigStore pushSender) tr s) :
    Registering tr s := by
  refine hr.invariant (I := Registering) ⟨run_isolated (h := h) .nil, ?_, ?_, ?_⟩
    fun _ _ _ _ hi hs => ⟨hi.isolated.step hs, hi.owned.step hs,
      hi.registered.step hi.owned hi.isolated hs, hi.cancels.step hi.isolated hs⟩
  · exact ⟨fun _ _ _ h => by contradiction, fun _ _ _ _ _ h => by contradiction⟩
  · exact fun _ _ h => by contradiction
  · exact fun _ _ h => absurd h List.not_mem_nil

/-- **The channel is closed** once the driver is done, where no cancel is of its
task. -/
theorem Registering.closed (hi : Registering tr s)
    (huncanceled : ∀ call pc, Thread.cancel call pc ∈ s.threads → call.req.id ≠ id)
    (hown : s.taskOf x = some id) (hk : s.threads[k]? = some (.drive d)) (hx : d.exec = x)
    (hd : d.pc = .done) : s.channelClosed x = true := by
  have hmem := List.mem_of_getElem? hk
  have hholds : (Thread.drive d).holds = none := by
    obtain ⟨taskId, y, ctx, current, stream, answered, tracked, pc⟩ := d
    cases hd
    rfl
  obtain ⟨active, hactive, htask⟩ := taskOf_eq_some.mp hown
  have hunregistered : s.manager.executions active.taskId ≠ some x := by
    intro hregistered
    have hheld := hi.registered _ x hregistered _ hmem (congrArg some hx)
    rw [hholds] at hheld
    contradiction
  rw [Server.channelClosed, hactive]
  simp only [hunregistered, not_false_eq_true, decide_true, Bool.true_and, ne_eq, Bool.not_eq_true',
    List.any_eq_false, ne_eq, beq_iff_eq]
  intro t ht hheld
  obtain ⟨j, hj⟩ := List.mem_iff_getElem?.mp ht
  -- its owner is the driver
  have howner (ho : t.owns = some x) : False := by
    obtain rfl := hi.owned.unique j k t _ x hj hk ho (congrArg some hx)
    obtain rfl := Option.some.inj (hj.symm.trans hk)
    rw [hholds] at hheld
    contradiction
  cases t with
  | send call pc => cases pc <;> exact howner hheld
  | drive d' =>
      refine howner ?_
      obtain ⟨taskId, y, ctx, current, stream, answered, tracked, pc⟩ := d'
      cases pc <;> first | exact hheld | contradiction
  | cancel cancel pc =>
      have hcancels := hi.cancels cancel pc ht x hheld
      exact huncanceled cancel pc ht (Option.some.inj (hcancels.symm.trans hown))
  | _ => contradiction

end A2a
