import A2a.Server.Answers

/-!
# A2a.Server.Closing

When an execution is over.

An execution that was started always has an owner, and one only (`Led`,
`execution_owned`).  Who holds it got it from its registration or from its
owner (`step_holds`); so a channel that is closed stays closed, and nothing
changes behind it (`channel_stays_closed`).
-/

namespace A2a

variable {h : Handler} {id : TaskId} {x : ExecId} {i k : Nat} {tr : List (Server × Action)}
  {s s' s₁ : Server} {a : Action} {t t' : Thread} {cmd : Cmd} {b : cmd.β}
  {taskStore : InMemoryTaskStore} {pushConfigStore : Option InMemoryPushConfigStore}
  {pushSender : Bool}

/-! ## every execution has an owner -/

/-- Who owns an execution. -/
def Server.OwnedBy (s : Server) (x : ExecId) (k : Nat) : Prop :=
  ∃ t, s.threads[k]? = some t ∧ t.owns = some x

/-- An execution that was started has an owner. -/
def Led (s : Server) : Prop := ∀ x, x < s.executions.length → ∃ k, s.OwnedBy x k

/-- A step starts an execution only for the thread that is to attach to it. -/
theorem Link.Step.opens {l l' : Link} (hl : Link.Step s s₁ l l') :
    s₁.executions.length = s.executions.length ∨
      (l' = .attaching s.executions.length ∧ s₁.executions.length = s.executions.length + 1) := by
  cases hl with
  | start _ hexec => exact .inr ⟨rfl, by rw [hexec, List.length_append, List.length_singleton]⟩
  | publish _ hexec => exact .inl (by rw [hexec, List.length_modify])
  | send hexec =>
      left
      rw [hexec]
      split
      · exact List.length_modify _ _ _
      · rfl
  | rest _ _ hc => exact .inl (by rw [hc.executions])
  | attach _ hc => exact .inl (by rw [hc.executions])
  | listen _ hc => exact .inl (by rw [hc.executions])
  | read _ hc => exact .inl (by rw [hc.executions])
  | take _ hc => exact .inl (by rw [hc.executions])
  | poll _ _ hc => exact .inl (by rw [hc.executions])
  | ends _ hc => exact .inl (by rw [hc.executions])
  | heard _ hc => exact .inl (by rw [hc.executions])
  | unheard _ hc => exact .inl (by rw [hc.executions])

/-- An owner stays one, or spawns the next. -/
theorem Server.runs.passes (hruns : s.runs h a i t cmd) (hran : s.Ran i cmd s' s₁ b)
    (ho : t.owns = some x) :
    (cmd.resume b).1.owns = some x ∨ ∃ u ∈ (cmd.resume b).2, u.owns = some x := by
  have hcont := hran.post hruns.continues
  cases t with
  | send call pc =>
      cases pc with
      | attach p y =>
          obtain ⟨inp, _, rfl⟩ := hruns.next hran rfl
          exact .inr ⟨_, List.mem_singleton_self _, ho⟩
      | _ => contradiction
  | drive d =>
      obtain ⟨inp, _, rfl⟩ := hruns.next hran rfl
      obtain ⟨d', hd', _⟩ := hran.post (d.next_left inp)
      left
      rw [hd'] at hcont ⊢
      rw [Thread.owns, hcont.2.1]
      exact ho
  | _ => contradiction

theorem Led.step (hl : Led s) (hs : Server.step h s a = some s') : Led s' := by
  intro x hx
  obtain ⟨request, rfl, rfl⟩ | ⟨i, t, cmd, s₁, b, hruns, hran⟩ := step_cases hs
  · obtain ⟨k, t, hk, hown⟩ := hl x hx
    refine ⟨k, t, ?_, hown⟩
    rw [List.getElem?_append_left (List.getElem?_eq_some_iff.mp hk).1]
    exact hk
  · have hold (hx : x < s.executions.length) : ∃ k, s'.OwnedBy x k := by
      obtain ⟨k, u, hk, hown⟩ := hl x hx
      by_cases hki : k = i
      · subst hki
        obtain rfl := Option.some.inj (hruns.1.symm.trans hk)
        obtain hself | ⟨u, hu, hown⟩ := hruns.passes hran hown
        · exact ⟨k, _, hran.getElem_self hk, hself⟩
        · have hmem : u ∈ s'.threads := by
            rw [hran.threads]
            exact List.mem_append_right _ hu
          obtain ⟨j, hj⟩ := List.mem_iff_getElem?.mp hmem
          exact ⟨j, u, hj, hown⟩
      · exact ⟨k, u, hran.getElem_other hki hk, hown⟩
    obtain ⟨hlink, _⟩ := hran.post hruns.link
    have hexec : s'.executions = s₁.executions := by rw [hran.eq]
    rw [hexec] at hx
    obtain hsame | ⟨hattach, hlength⟩ := hlink.opens
    · exact hold (hsame ▸ hx)
    · by_cases hlt : x < s.executions.length
      · exact hold hlt
      · have heq : x = s.executions.length := by omega
        subst heq
        exact ⟨i, _, hran.getElem_self hruns.1, Thread.owns_of_attaching hattach⟩

theorem Registering.step (hi : Registering tr s) (hs : Server.step h s a = some s') :
    Registering (tr ++ [(s, a)]) s' :=
  ⟨hi.isolated.step hs, hi.owned.step hs, hi.registered.step hi.owned hi.isolated hs,
    hi.cancels.step hi.isolated hs⟩

/-- What holds of executions in every run. -/
structure Closing (tr : List (Server × Action)) (s : Server) : Prop extends Registering tr s where
  started : Started s
  led : Led s

theorem Closing.step (hc : Closing tr s) (hs : Server.step h s a = some s') :
    Closing (tr ++ [(s, a)]) s' :=
  ⟨hc.toRegistering.step hs, hc.started.step hs, hc.led.step hs⟩

theorem run_closing (hr : (serverMachine h).Run (.new taskStore pushConfigStore pushSender) tr s) :
    Closing tr s := by
  refine hr.invariant (I := Closing) ⟨run_registering (h := h) .nil, ?_, ?_⟩
    fun _ _ _ _ hc hs => hc.step hs
  · exact ⟨fun _ h => absurd h List.not_mem_nil, fun _ _ h => by contradiction⟩
  · exact fun x hx => absurd hx (Nat.not_lt_zero x)

/-- **One owner for each execution**: in every interleaving, every execution
that was started is owned by one thread, the send that registered it or the
driver that send spawned; while it is registered, it is so under its task
only, and its owner still holds it. -/
theorem execution_owned
    (hr : (serverMachine h).Run (.new taskStore pushConfigStore pushSender) tr s) :
    (∀ x, x < s.executions.length → ∃! k, s.OwnedBy x k) ∧
      ∀ id x, s.manager.executions id = some x → s.taskOf x = some id ∧
        ∃! k : Nat, ∃ t : Thread, s.threads[k]? = some t ∧ t.owns = some x ∧ t.holds = some x := by
  have hclosing := run_closing hr
  constructor
  · intro x hx
    obtain ⟨k, t, hk, hown⟩ := hclosing.led x hx
    refine ⟨k, ⟨t, hk, hown⟩, ?_⟩
    rintro j ⟨u, hj, hown'⟩
    exact hclosing.owned.unique j k u t x hj hk hown' hown
  · intro id x hregistered
    have htask := hclosing.isolated.shared.registered id x hregistered
    obtain ⟨active, hactive, _⟩ := taskOf_eq_some.mp htask
    obtain ⟨k, t, hk, hown⟩ := hclosing.led x (List.getElem?_eq_some_iff.mp hactive).1
    have hholds := hclosing.registered id x hregistered t (List.mem_of_getElem? hk) hown
    refine ⟨htask, k, ⟨t, hk, hown, hholds⟩, ?_⟩
    rintro j ⟨u, hj, hown', _⟩
    exact hclosing.owned.unique j k u t x hj hk hown' hown

/-- The script of a send to a task that awaits input, whose driver goes `n`
steps. -/
def startedFor (n : Nat) : List Action :=
  .call (.send (.continuing "t" "m")) ::
    List.replicate 4 (.step 0 (.emitting [])) ++ List.replicate n (.step 1 (.emitting []))

/-- Its execution is the driver's. -/
theorem execution_owned_started : ∃ tr s, (serverMachine .new).Run awaitingInput tr s ∧
    (∃! k, s.OwnedBy 0 k) ∧ s.taskOf 0 = some "t" := by
  have hx : ((serverMachine .new).exec awaitingInput (startedFor 0)).map (fun p =>
      (p.2.executions.length, p.2.manager.executions "t")) = some (1, some 0) := rfl
  obtain ⟨⟨tr, s⟩, hexec, hs⟩ := Option.map_eq_some_iff.mp hx
  obtain ⟨hlength, hregistered⟩ := Prod.mk.inj hs
  obtain ⟨hunique, htask⟩ := execution_owned (Machine.run_of_exec hexec)
  refine ⟨tr, s, Machine.run_of_exec hexec, hunique 0 ?_, (htask "t" 0 hregistered).1⟩
  rw [hlength]
  exact Nat.one_pos

/-! ## a closed channel -/

theorem channelClosed_iff {active : ActiveExecution} (hactive : s.executions[x]? = some active) :
    s.channelClosed x = true ↔
      s.manager.executions active.taskId ≠ some x ∧ ∀ t ∈ s.threads, t.holds ≠ some x := by
  rw [Server.channelClosed, hactive]
  simp only [Bool.and_eq_true, decide_eq_true_eq, Bool.not_eq_true', List.any_eq_false, beq_iff_eq]

/-- What a driver that goes on holds, it held. -/
theorem Server.runs.holds_drive {d : Driver} (hruns : s.runs h a i (.drive d) cmd)
    (hran : s.Ran i cmd s' s₁ b) : (Thread.drive d).holds = some d.exec := by
  obtain ⟨inp, _, rfl⟩ := hruns.next hran rfl
  cases hholds : (Thread.drive d).holds with
  | none =>
      have hhalt : ((Thread.drive d).next h inp).Post s fun _ _ _ => False := by
        simp only [Thread.next, Driver.next, Driver.done_of_holds hholds]
        exact Cmd.post_halt
      exact (hran.post hhalt).elim
  | some y =>
      obtain ⟨taskId, z, ctx, current, stream, answered, tracked, pc⟩ := d
      cases pc <;> first | exact hholds.symm | contradiction

/-- **Who holds an execution** after a step held it before, is the driver its
send spawned, found it registered, or has just started it. -/
theorem step_holds (hs : Server.step h s a = some s') (hk : s'.threads[k]? = some t')
    (hx : t'.holds = some x) :
    (∃ t, s.threads[k]? = some t ∧ t.holds = some x) ∨
      (∃ (j : Nat) (call : SendCall) (p : Prepared),
        s.threads[j]? = some (.send call (.attach p x))) ∨
      (∃ id, s.manager.executions id = some x) ∨ x = s.executions.length := by
  obtain ⟨request, rfl, rfl⟩ | ⟨i, t, cmd, s₁, b, hruns, hran⟩ := step_cases hs
  · rw [List.getElem?_append] at hk
    split at hk
    · exact .inl ⟨t', hk, hx⟩
    · obtain rfl := List.mem_singleton.mp (List.mem_of_getElem? hk)
      cases request <;> contradiction
  · have hi := hruns.1
    have hcont := hran.post hruns.continues
    obtain ⟨hlink, _⟩ := hran.post hruns.link
    obtain ⟨rfl, rfl⟩ | ⟨_, hold⟩ | ⟨_, hspawned⟩ := hran.thread_cases hk
    · cases t with
      | send call pc =>
          generalize hp : (cmd.resume b).1 = t' at *
          cases t' with
          | send call' pc' =>
              cases pc' <;> try contradiction
              case attach p y =>
                obtain ⟨_, _, rfl, _⟩ := Link.Step.attaching hlink
                exact .inr (.inr (.inr (Option.some.inj hx).symm))
          | dropped => contradiction
          | _ => exact hcont.elim
      | drive d =>
          have hholds := hruns.holds_drive hran
          obtain ⟨inp, _, rfl⟩ := hruns.next hran rfl
          obtain ⟨d', hd', _⟩ := hran.post (d.next_left inp)
          rw [hd'] at hcont hx
          have hexec : d'.exec = d.exec := hcont.2.1
          refine .inl ⟨_, hi, hholds.trans ?_⟩
          rw [← hexec]
          obtain ⟨taskId, y, ctx, current, stream, answered, tracked, pc⟩ := d'
          cases pc <;> first | exact hx | contradiction
      | cancel call pc =>
          obtain ⟨inp, _, rfl⟩ := hruns.next hran rfl
          obtain hheld | hfound := hran.post (call.next_holds pc) x hx
          · exact .inl ⟨_, hi, hheld⟩
          · exact .inr (.inr (.inl ⟨_, hfound⟩))
      | subscribe call pc =>
          generalize hp : (cmd.resume b).1 = t' at *
          cases t' <;> contradiction
      | dropped =>
          obtain ⟨inp, _, rfl⟩ := hruns.next hran rfl
          exact b.elim
    · exact .inl ⟨t', hold, hx⟩
    · obtain ⟨call, p, y, rfl, rfl⟩ := hcont.spawned hspawned
      obtain rfl := Option.some.inj hx
      exact .inr (.inl ⟨i, call, p, hi⟩)

/-- An execution as it was left by a step that neither publishes nor sends on
it. -/
theorem Link.Step.executions {l l' : Link} (hl : Link.Step s s₁ l l')
    (hx : x < s.executions.length) (hnot : ∀ item task pc, l ≠ .publishing x item task pc) :
    s₁.executions[x]? = s.executions[x]? := by
  cases hl with
  | start _ hexec => rw [hexec, List.getElem?_append_left hx]
  | @publish y item task _ _ hexec =>
      have hne : y ≠ x := fun hy => hnot item task .write (hy ▸ rfl)
      rw [hexec, List.getElem?_modify_ne _ _ hne]
  | @send y item task sequence _ hexec =>
      have hne : y ≠ x := fun hy => hnot item task (.send sequence) (hy ▸ rfl)
      rw [hexec]
      split
      · rw [List.getElem?_modify_ne _ _ hne]
      · rfl
  | rest _ _ hc => rw [hc.executions]
  | attach _ hc => rw [hc.executions]
  | listen _ hc => rw [hc.executions]
  | read _ hc => rw [hc.executions]
  | take _ hc => rw [hc.executions]
  | poll _ _ hc => rw [hc.executions]
  | ends _ hc => rw [hc.executions]
  | heard _ hc => rw [hc.executions]
  | unheard _ hc => rw [hc.executions]

/-- Who publishes on an execution holds it. -/
theorem Thread.holds_of_publishing {item : Item} {task : Option Task} {pc : PublishPc}
    (hl : t.link = .publishing x item task pc) : t.holds = some x := by
  cases t with
  | send call pc => cases pc <;> contradiction
  | subscribe call pc => cases pc <;> contradiction
  | drive d =>
      obtain ⟨taskId, y, ctx, current, stream, answered, tracked, pc⟩ := d
      cases pc <;> first | contradiction | exact congrArg some (Link.publishing.inj hl).1
  | cancel call pc =>
      simp only [Thread.link, CancelPc.link] at hl
      split at hl
      · split at hl
        · next hactive => exact hactive.trans (congrArg some (Link.publishing.inj hl).1)
        · contradiction
      · split at hl
        · next hactive => exact hactive.trans (congrArg some (Link.publishing.inj hl).1)
        · contradiction
      · contradiction
  | dropped => contradiction

/-- **A step leaves a closed channel** closed, and the execution as it is. -/
theorem Closing.step_closed (hc : Closing tr s) (hx : x < s.executions.length)
    (hclosed : s.channelClosed x = true) (hs : Server.step h s a = some s') :
    s'.channelClosed x = true ∧ s'.executions[x]? = s.executions[x]? := by
  have hactive := List.getElem?_eq_getElem hx
  obtain ⟨hunregistered, hunheld⟩ := (channelClosed_iff hactive).mp hclosed
  have htask : s.taskOf x = some s.executions[x].taskId := taskOf_eq_some.mpr ⟨_, hactive, rfl⟩
  have hsame : s'.executions[x]? = s.executions[x]? := by
    obtain ⟨request, rfl, rfl⟩ | ⟨i, t, cmd, s₁, b, hruns, hran⟩ := step_cases hs
    · rfl
    · have hexec : s'.executions = s₁.executions := by rw [hran.eq]
      rw [hexec]
      refine (hran.post hruns.link).1.executions hx fun item task pc hl => ?_
      exact hunheld t (List.mem_of_getElem? hruns.1) (Thread.holds_of_publishing hl)
  refine ⟨?_, hsame⟩
  refine (channelClosed_iff (hsame.trans hactive)).mpr ⟨fun hregistered => ?_, fun t' ht' hholds => ?_⟩
  · obtain ⟨request, rfl, rfl⟩ | ⟨i, t, cmd, s₁, b, hruns, hran⟩ := step_cases hs
    · exact hunregistered hregistered
    · rw [hran.registered] at hregistered
      obtain rfl | ⟨hbefore, _⟩ := Op.registeredAfter_some hregistered
      · exact absurd hx (Nat.lt_irrefl _)
      · exact hunregistered hbefore
  · obtain ⟨k, hk⟩ := List.mem_iff_getElem?.mp ht'
    obtain ⟨t, ht, hheld⟩ | ⟨j, call, p, hj⟩ | ⟨id, hregistered⟩ | rfl := step_holds hs hk hholds
    · exact hunheld t (List.mem_of_getElem? ht) hheld
    · exact hunheld _ (List.mem_of_getElem? hj) rfl
    · obtain rfl := Option.some.inj ((hc.isolated.shared.registered id x hregistered).symm.trans htask)
      exact hunregistered hregistered
    · exact absurd hx (Nat.lt_irrefl _)

/-- An execution whose channel is closed is registered under no task. -/
theorem Closing.unregistered (hc : Closing tr s) (hx : x < s.executions.length)
    (hclosed : s.channelClosed x = true) (id : TaskId) : s.manager.executions id ≠ some x := by
  intro hregistered
  have hactive := List.getElem?_eq_getElem hx
  have htask : s.taskOf x = some s.executions[x].taskId := taskOf_eq_some.mpr ⟨_, hactive, rfl⟩
  have htask' := hc.isolated.shared.registered id x hregistered
  obtain rfl := Option.some.inj (htask'.symm.trans htask)
  exact ((channelClosed_iff hactive).mp hclosed).1 hregistered

/-- **A closed channel stays closed**: in every interleaving, once the channel
of an execution is closed it is so for good, the execution is registered under
no task, and no event, sequence or snapshot of it changes any more. -/
theorem channel_stays_closed {tr' : List (Server × Action)}
    (hr : (serverMachine h).Run (.new taskStore pushConfigStore pushSender) tr s)
    (hx : x < s.executions.length) (hclosed : s.channelClosed x = true)
    (hr' : (serverMachine h).Run s tr' s') :
    s'.channelClosed x = true ∧ (∀ id, s'.manager.executions id ≠ some x) ∧
      s'.executions[x]? = s.executions[x]? := by
  have hkept : Closing (tr ++ tr') s' ∧ s'.channelClosed x = true ∧
      s'.executions[x]? = s.executions[x]? := by
    refine hr'.invariant (I := fun tr' s' => Closing (tr ++ tr') s' ∧ s'.channelClosed x = true ∧
      s'.executions[x]? = s.executions[x]?) ?_ fun tr₁ s₁ a s₂ hI hs => ?_
    · rw [List.append_nil]
      exact ⟨run_closing hr, hclosed, rfl⟩
    · obtain ⟨hclosing, hclosed₁, hsame⟩ := hI
      have hx₁ : x < s₁.executions.length := by
        rw [List.getElem?_eq_getElem hx] at hsame
        exact (List.getElem?_eq_some_iff.mp hsame).1
      obtain ⟨hclosed₂, hsame₂⟩ := hclosing.step_closed hx₁ hclosed₁ hs
      rw [← List.append_assoc]
      exact ⟨hclosing.step hs, hclosed₂, hsame₂.trans hsame⟩
  obtain ⟨hclosing, hclosed', hsame⟩ := hkept
  have hx' : x < s'.executions.length := by
    rw [List.getElem?_eq_getElem hx] at hsame
    exact (List.getElem?_eq_some_iff.mp hsame).1
  exact ⟨hclosed', hclosing.unregistered hx' hclosed', hsame⟩

/-- The channel of a driver that is done, and a cancel that comes after it. -/
theorem channel_stays_closed_done : ∃ tr s s', (serverMachine .new).Run awaitingInput tr s ∧
    s.channelClosed 0 = true ∧ (serverMachine .new).step s (.call (.cancel (.of "t"))) = some s' ∧
    s'.channelClosed 0 = true ∧ s'.executions[0]? = s.executions[0]? := by
  have hx : ((serverMachine .new).exec awaitingInput (startedFor 3)).map (fun p =>
      (p.2.executions.length, p.2.channelClosed 0)) = some (1, true) := rfl
  obtain ⟨⟨tr, s⟩, hexec, hs⟩ := Option.map_eq_some_iff.mp hx
  obtain ⟨hlength, hclosed⟩ := Prod.mk.inj hs
  have hlt : 0 < s.executions.length := by
    rw [hlength]
    exact Nat.one_pos
  have hrun := Machine.run_of_exec hexec
  obtain ⟨hclosed', _, hsame⟩ := channel_stays_closed hrun hlt hclosed
    (.snoc .nil (show (serverMachine .new).step s (.call (.cancel (.of "t"))) = some _ from rfl))
  exact ⟨tr, s, _, hrun, hclosed, rfl, hclosed', hsame⟩

end A2a
