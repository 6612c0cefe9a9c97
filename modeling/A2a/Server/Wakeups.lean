import A2a.Server.Returns
import A2a.Server.Waiting

/-!
# A2a.Server.Wakeups

A subscription is not left waiting while its task runs.

A waiter that is full stays so until its subscription takes it
(`step_full`), and a waiter that a release took is handed its value by the
end of that release (`Closing.hands`).  So a subscription that waits for ever
stands in the queue of its task, and with somebody in the queue no execution
is registered (`Unqueued`).
-/

namespace A2a

open InMemoryTaskStore

variable {h : Handler} {id : TaskId} {i k n : Nat} {w : WaiterId} {tr : List (Server × Action)}
  {s s' s₁ : Server} {a : Action} {taskStore : InMemoryTaskStore}
  {pushConfigStore : Option InMemoryPushConfigStore} {pushSender : Bool}
  {r : (serverMachine h).Unending}

/-! ## the queue of a task that runs -/

/-- Nobody is queued for a task that has an execution registered. -/
def Unqueued (s : Server) : Prop := ∀ id, s.manager.executions id ≠ none → s.manager.waiting id = []

theorem Op.Effects.unqueued {β : Type} {op : Op β} (he : op.Effects s s₁) (hu : Unqueued s) :
    Unqueued s₁ := by
  intro id hid
  rw [he.registered] at hid
  rw [he.waiting]
  cases op with
  | start task =>
      simp only [registeredAfter, waitingAfter] at hid ⊢
      split at hid
      · next hregistered =>
        rw [if_pos hregistered]
        exact hu id hid
      · next hfree =>
        rw [if_neg hfree]
        by_cases heq : id = task.id
        · rw [heq, Function.update_self]
        · rw [Function.update_of_ne heq] at hid ⊢
          exact hu id hid
  | subscribe id' =>
      simp only [waitingAfter]
      split
      · exact hu id hid
      · next hfree =>
        have hne : id ≠ id' := by
          rintro rfl
          exact hfree (Option.isSome_iff_ne_none.mpr hid)
        rw [Function.update_of_ne hne]
        exact hu id hid
  | finish id' y =>
      refine hu id fun hnone => hid ?_
      cases hfinish : (s.manager.finish id' y).executions id with
      | none => exact hfinish
      | some x => rw [finish_executions hfinish] at hnone; contradiction
  | takeWaiting id' =>
      simp only [waitingAfter]
      by_cases heq : id = id'
      · rw [heq, Function.update_self]
      · rw [Function.update_of_ne heq]
        exact hu id hid
  | dropWaiter id' v =>
      simp only [waitingAfter]
      by_cases heq : id = id'
      · rw [heq, Function.update_self, ← heq, hu id hid]
        rfl
      · rw [Function.update_of_ne heq]
        exact hu id hid
  | _ => exact hu id hid

theorem Unqueued.step (hu : Unqueued s) (hs : Server.step h s a = some s') : Unqueued s' := by
  obtain ⟨request, rfl, rfl⟩ | ⟨i, t, cmd, s₁, b, hruns, hran⟩ := step_cases hs
  · exact hu
  · have hafter := hran.effects.unqueued hu
    rw [hran.eq]
    exact hafter

/-! ## a waiter that was handed something -/

/-- A waiter's channel that is full stays so, or is closed. -/
theorem Op.Effects.full {β : Type} {op : Op β} (he : op.Effects s s₁) {value : Resubscription}
    (hfull : s.oneshots[w]? = some (.full value)) :
    s₁.oneshots[w]? = some (.full value) ∨ s₁.oneshots[w]? = some .closed := by
  have hset (v : WaiterId) : (s.oneshots.set v .closed)[w]? = some (.full value) ∨
      (s.oneshots.set v .closed)[w]? = some .closed := by
    by_cases hv : v = w
    · subst hv
      rw [List.getElem?_set_self (List.getElem?_eq_some_iff.mp hfull).1]
      exact .inr rfl
    · rw [List.getElem?_set_ne hv]
      exact .inl hfull
  have hsend (v : WaiterId) (handed : Resubscription) {channels : List Oneshot}
      (hfull : channels[w]? = some (.full value)) :
      (channels.modify v (Oneshot.send handed))[w]? = some (.full value) :=
    (Waits.modify_send_full _ _ _ _ _).mpr (.inr hfull)
  rw [he.oneshots]
  cases op with
  | start task =>
      simp only [oneshotsAfter]
      split
      · exact .inl hfull
      · left
        generalize s.manager.waiting task.id = ws
        generalize s.oneshots = channels at hfull
        induction ws generalizing channels with
        | nil => exact hfull
        | cons u us ih => exact ih _ (hsend u _ hfull)
  | subscribe id' =>
      simp only [oneshotsAfter]
      split
      · exact .inl hfull
      · left
        rw [List.getElem?_append_left (List.getElem?_eq_some_iff.mp hfull).1]
        exact hfull
  | hand v handed => exact .inl (hsend v handed hfull)
  | attached v =>
      simp only [oneshotsAfter]
      split
      · exact hset v
      · exact .inl hfull
  | await v => exact hset v
  | dropWaiter id' v => exact hset v
  | _ => exact .inl hfull

theorem step_full {value : Resubscription} (hs : Server.step h s a = some s')
    (hfull : s.oneshots[w]? = some (.full value)) :
    s'.oneshots[w]? = some (.full value) ∨ s'.oneshots[w]? = some .closed := by
  obtain ⟨request, rfl, rfl⟩ | ⟨i, t, cmd, s₁, b, hruns, hran⟩ := step_cases hs
  · exact .inl hfull
  · have hafter := hran.effects.full hfull
    rw [hran.eq]
    exact hafter

/-! ## a release -/

/-- A cancel is about to hand its task to the waiter. -/
def CancelPc.hands (w : WaiterId) (pc : CancelPc) : Prop :=
  ∃ task ws, pc.release = some (task, .handing ws) ∧ w ∈ ws

/-- What a cancel that is to hand a waiter its task does: it hands it, or goes
on. -/
theorem CancelCall.next_hands (call : CancelCall) {pc : CancelPc} (hpc : pc.hands w)
    (hempty : s.oneshots[w]? = some .empty) (inp : Input) :
    (call.next h inp pc).Post s fun s₁ t' _ => ∃ pc', t' = .cancel call pc' ∧
      ((∃ value, s₁.oneshots[w]? = some (.full value)) ∨ (pc'.hands w ∧ pc'.left < pc.left)) := by
  obtain ⟨task, ws, hrelease, hmem⟩ := hpc
  have hhand {u : WaiterId} {rest : List WaiterId} (hmem : w ∈ u :: rest) {pc' : CancelPc}
      (hpc' : pc'.release = some (task, .handing rest)) (hlt : pc'.left < pc.left) :
      ∃ pc₁, Thread.cancel call pc' = .cancel call pc₁ ∧
        ((∃ value, (s.hand ⟨none, task, 0⟩ u).oneshots[w]? = some (.full value)) ∨
          (pc₁.hands w ∧ pc₁.left < pc.left)) := by
    refine ⟨pc', rfl, ?_⟩
    obtain rfl | hrest := List.mem_cons.mp hmem
    · exact .inl ⟨_, (Waits.modify_send_full _ _ _ _ _).mpr (.inl ⟨rfl, hempty, rfl⟩)⟩
    · exact .inr ⟨⟨task, rest, hpc', hrest⟩, hlt⟩
  cases pc <;> try contradiction
  case releasing c task' rpc =>
    obtain ⟨rfl, rfl⟩ := Prod.mk.inj (Option.some.inj hrelease)
    obtain _ | ⟨u, rest⟩ := ws
    · exact absurd hmem List.not_mem_nil
    · refine (Cmd.post_of_run rfl).mpr (hhand hmem rfl ?_)
      exact CancelPc.left_lt bot_le (.inr ⟨rfl, Nat.lt_succ_self _⟩)
  case dropping task' result rpc =>
    obtain ⟨rfl, rfl⟩ := Prod.mk.inj (Option.some.inj hrelease)
    obtain _ | ⟨u, rest⟩ := ws
    · exact absurd hmem List.not_mem_nil
    · refine (Cmd.post_of_run rfl).mpr (hhand hmem rfl ?_)
      exact CancelPc.left_lt bot_le (.inr ⟨rfl, Nat.lt_succ_self _⟩)

/-- What a step of another thread leaves of a cancel's release, and what its own
makes of it. -/
theorem step_hands {call : CancelCall} {pc : CancelPc} (hs : Server.step h s a = some s')
    (hk : s.threads[k]? = some (.cancel call pc)) (hpc : pc.hands w)
    (hempty : s.oneshots[w]? = some .empty) :
    (¬ StepsOf k a ∧ s'.threads[k]? = some (.cancel call pc)) ∨
      (∃ value, s'.oneshots[w]? = some (.full value)) ∨
      ∃ pc', s'.threads[k]? = some (.cancel call pc') ∧ pc'.hands w ∧ pc'.left < pc.left := by
  obtain hidle | ⟨inp, s₁, b, _, _, hran⟩ := step_thread hk rfl hs
  · exact .inl hidle
  · right
    obtain ⟨pc', hpc', hfull | hgoes⟩ := hran.post (call.next_hands hpc hempty inp)
    · left
      rw [hran.eq]
      exact hfull
    · have hself := hran.getElem_self hk
      rw [hpc'] at hself
      exact .inr ⟨pc', hself, hgoes⟩

/-! ## a subscription that waits -/

section Waits

variable {call : SubscribeCall} {opened : Task}

/-- A waiter whose subscription waits for ever is never handed anything. -/
theorem waits_empty
    (hok : ∀ m, (Server.waits (tr ++ r.trace m) (r.state m)).Ok) (hfair : r.Fair (StepsOf k))
    (hwaits : ∀ m, n ≤ m → (r.state m).threads[k]? = some (.subscribe call (.waiting w opened)))
    {m : Nat} (hle : n ≤ m) : (r.state m).oneshots[w]? = some .empty := by
  have hwaiter {m : Nat} (hle : n ≤ m) :
      (Server.waits (tr ++ r.trace m) (r.state m)).waiter k = some (call.req.id, w) := by
    show (r.state m).view none (·.waiter) k = _
    rw [Server.view_of_getElem (hwaits m hle)]
    rfl
  obtain ⟨o, ho, hopen⟩ := (hok m).unclosed k _ w (hwaiter hle)
  have ho : (r.state m).oneshots[w]? = some o := ho
  cases o with
  | empty => exact ho
  | closed => exact absurd rfl hopen
  | full value =>
      -- then it stays full, and the subscription takes it
      have hfull {m' : Nat} (hle' : m ≤ m') : (r.state m').oneshots[w]? = some (.full value) := by
        induction hle' with
        | refl => exact ho
        | @step m' hle' ih =>
            refine (step_full (r.step m') ih).resolve_right fun hclosed => ?_
            have hle₂ := Nat.le_succ_of_le (Nat.le_trans hle hle')
            obtain ⟨o', ho', hopen'⟩ := (hok (m' + 1)).unclosed k _ w (hwaiter hle₂)
            have hsame := hclosed.symm.trans ho'
            exact hopen' (Option.some.inj hsame).symm
      obtain ⟨m', hle', hacts⟩ := hfair m fun m' hle' => by
        have hready : ((Thread.subscribe call (.waiting w opened)).next h (.emitting [])).Ready
            (r.state m') := by
          show (Op.run (r.state m') (.await w)).isSome = true
          rw [Op.run, hfull hle']
          rfl
        exact enabled_of_ready (hwaits m' (Nat.le_trans hle hle')) hready
      have hthere := hwaits m' (Nat.le_trans hle hle')
      obtain ⟨hidle, _⟩ | ⟨inp, s₁, b, hran⟩ | ⟨s₁, b, hran⟩ := step_at hthere (r.step m')
      · exact absurd hacts hidle
      · have hself := hran.getElem_self hthere
        have hnext := hwaits (m' + 1) (Nat.le_succ_of_le (Nat.le_trans hle hle'))
        cases hself.symm.trans hnext
      · have hself := hran.getElem_self hthere
        rw [(hran.post (Thread.drop_dropped _)).1] at hself
        have hnext := hwaits (m' + 1) (Nat.le_succ_of_le (Nat.le_trans hle hle'))
        cases hself.symm.trans hnext

/-- No release is about to hand it anything, either. -/
theorem waits_unhanded (hfair : r.Fair (StepsOf k))
    (hempty : ∀ m, n ≤ m → (r.state m).oneshots[w]? = some .empty) {m : Nat} (hle : n ≤ m)
    {cancel : CancelCall} {pc : CancelPc} (hk : (r.state m).threads[k]? = some (.cancel cancel pc)) :
    ¬ pc.hands w := by
  intro hpc
  let handing (m' : Nat) : Prop := n ≤ m' ∧ ∃ pc, (r.state m').threads[k]? =
    some (.cancel cancel pc) ∧ pc.hands w
  let handed (m' : Nat) : Prop := n ≤ m' ∧ ∃ value, (r.state m').oneshots[w]? = some (.full value)
  suffices hreaches : ∃ m', m ≤ m' ∧ handed m' by
    obtain ⟨m', _, hle', value, hfull⟩ := hreaches
    cases (hempty m' hle').symm.trans hfull
  refine hfair.reaches (P := handing) (Q := handed)
    (fun m' => (r.state m').view pc.left Thread.toReturn k) (fun m' hm => ?_) (fun m' hm => ?_)
    ⟨hle, pc, hk, hpc⟩
  · obtain ⟨_, pc', hk', task, ws, hrelease, _⟩ := hm
    have hready : ((Thread.cancel cancel pc').next h (.emitting [])).Ready (r.state m') := by
      cases pc' <;> try contradiction
      case releasing c task' rpc => obtain _ | _ | ⟨u, rest⟩ := rpc <;> rfl
      case dropping task' result rpc => obtain _ | _ | ⟨u, rest⟩ := rpc <;> rfl
    exact enabled_of_ready hk' hready
  · obtain ⟨hle', pc', hk', hpc'⟩ := hm
    have hle₂ := Nat.le_succ_of_le hle'
    obtain ⟨hidle, hsame⟩ | hfull | ⟨pc₂, hk₂, hpc₂, hlt⟩ :=
      step_hands (r.step m') hk' hpc' (hempty m' hle')
    · refine .inr ⟨⟨hle₂, pc', hsame, hpc'⟩, le_of_eq ?_, fun hacts => absurd hacts hidle⟩
      rw [Server.view_of_getElem hk', Server.view_of_getElem hsame]
    · exact .inl ⟨hle₂, hfull⟩
    · have hlower : (r.state (m' + 1)).view pc.left Thread.toReturn k <
          (r.state m').view pc.left Thread.toReturn k := by
        rw [Server.view_of_getElem hk', Server.view_of_getElem hk₂]
        exact hlt
      exact .inr ⟨⟨hle₂, pc₂, hk₂, hpc₂⟩, le_of_lt hlower, fun _ => hlower⟩

/-- Who waits for ever stands in the queue, and no execution is registered. -/
theorem waits_queued
    (hr : (serverMachine h).Run (.new taskStore pushConfigStore pushSender) tr (r.state 0))
    (hunlimited : taskStore.terminalTaskLimit = none) (hfair : ∀ j, r.Fair (StepsOf j))
    (hwaits : ∀ m, n ≤ m → (r.state m).threads[k]? = some (.subscribe call (.waiting w opened)))
    {m : Nat} (hle : n ≤ m) :
    (r.state m).manager.executions call.req.id = none ∧
      w ∈ (r.state m).manager.waiting call.req.id := by
  have hok (m : Nat) : (Server.waits (tr ++ r.trace m) (r.state m)).Ok :=
    (waits_ok (r.run hr m) (keepsCanceled_of_unlimited (r.run hr m) hunlimited)).2.1
  have hempty {m : Nat} (hle : n ≤ m) := waits_empty hok (hfair k) hwaits hle
  have hqueued : w ∈ (r.state m).manager.waiting call.req.id := by
    have hwaiter : (Server.waits (tr ++ r.trace m) (r.state m)).waiter k = some (call.req.id, w) := by
      show (r.state m).view none (·.waiter) k = _
      rw [Server.view_of_getElem (hwaits m hle)]
      rfl
    obtain hqueued | ⟨j, task, ws, hrelease, _, hmem⟩ := (hok m).reached k _ w hwaiter (hempty hle)
    · exact hqueued
    · have hrelease : (r.state m).view none (·.release) j = some (task, .handing ws) := hrelease
      cases hj : (r.state m).threads[j]? with
      | none =>
          rw [Server.view, hj] at hrelease
          contradiction
      | some t =>
          rw [Server.view_of_getElem hj] at hrelease
          cases t with
          | cancel cancel pc =>
              exact absurd ⟨task, ws, hrelease, hmem⟩
                (waits_unhanded (hfair j) (fun _ hle => hempty hle) hle hj)
          | _ => contradiction
  have hunqueued : Unqueued (r.state m) := by
    refine (r.run hr m).invariant (I := fun _ s => Unqueued s) ?_ fun _ _ _ _ hu hs => hu.step hs
    exact fun _ _ => rfl
  refine ⟨?_, hqueued⟩
  by_contra hregistered
  rw [hunqueued _ hregistered] at hqueued
  exact List.not_mem_nil hqueued

/-- **No wakeup is lost**: without a limit on what is retained, and under a fair
scheduler, a subscription that waits while an execution of its task is
registered comes to its stream, unless its consumer drops it. -/
theorem no_lost_wakeup
    (hr : (serverMachine h).Run (.new taskStore pushConfigStore pushSender) tr (r.state 0))
    (hunlimited : taskStore.terminalTaskLimit = none) (hfair : ∀ j, r.Fair (StepsOf j))
    (hk : (r.state n).threads[k]? = some (.subscribe call (.waiting w opened)))
    (hregistered : (r.state n).manager.executions call.req.id ≠ none) :
    ∃ m, n ≤ m ∧
      ((∃ sub, (r.state m).threads[k]? = some (.subscribe call (.streaming (some opened) sub))) ∨
        (r.state m).threads[k]? = some .dropped) := by
  by_contra hnever
  have hwaits (m : Nat) (hle : n ≤ m) :
      (r.state m).threads[k]? = some (.subscribe call (.waiting w opened)) := by
    induction hle with
    | refl => exact hk
    | @step m hle ih =>
        have hle' := Nat.le_succ_of_le hle
        obtain ⟨_, hsame⟩ | ⟨inp, s₁, b, hran⟩ | ⟨s₁, b, hran⟩ := step_at ih (r.step m)
        · exact hsame
        · exact absurd ⟨m + 1, hle', .inl ⟨_, hran.getElem_self ih⟩⟩ hnever
        · have hself := hran.getElem_self ih
          rw [(hran.post (Thread.drop_dropped _)).1] at hself
          exact absurd ⟨m + 1, hle', .inr hself⟩ hnever
  exact hregistered (waits_queued hr hunlimited hfair hwaits (Nat.le_refl n)).1

end Waits

/-- A subscription that waits, and a send to its task that has registered. -/
def wakingUp : List Action :=
  .call (.subscribe (.of "t")) :: List.replicate 5 (.step 0 (.emitting [])) ++
    .call (.send (.continuing "t" "m")) :: List.replicate 3 (.step 1 (.emitting []))

/-- What the first thread of a server waits for, if it does. -/
def Thread.awaits : Thread → Option (TaskId × WaiterId × Task)
  | .subscribe call (.waiting w opened) => some (call.req.id, w, opened)
  | _ => none

theorem Thread.awaits_eq {t : Thread} {opened : Task} (ht : t.awaits = some (id, w, opened)) :
    ∃ call, t = .subscribe call (.waiting w opened) ∧ call.req.id = id := by
  unfold awaits at ht
  split at ht
  · obtain ⟨rfl, hrest⟩ := Prod.mk.inj (Option.some.inj ht)
    obtain ⟨rfl, rfl⟩ := Prod.mk.inj hrest
    exact ⟨_, rfl, rfl⟩
  · contradiction

theorem no_lost_wakeup_registered : ∃ (r : (serverMachine .new).Unending) (m : Nat),
    (r.state 0).manager.executions "t" = some 0 ∧
      ((∃ call opened sub, (r.state m).threads[0]? =
          some (.subscribe call (.streaming opened sub))) ∨
        (r.state m).threads[0]? = some .dropped) := by
  have hx : ((serverMachine .new).exec awaitingInput wakingUp).map (fun p =>
      (p.2.manager.executions "t", p.2.threads[0]?.bind Thread.awaits)) =
        some (some 0, some ("t", 0, makeTask "t" "c" .inputRequired)) := rfl
  obtain ⟨⟨tr, s⟩, hexec, hs⟩ := Option.map_eq_some_iff.mp hx
  obtain ⟨hregistered, hthread⟩ := Prod.mk.inj hs
  obtain ⟨t, ht, hawaits⟩ := Option.bind_eq_some_iff.mp hthread
  obtain ⟨call, rfl, hid⟩ := Thread.awaits_eq hawaits
  obtain ⟨r, rfl, hfair⟩ := fair_from (h := .new) s
  have hne : (r.state 0).manager.executions call.req.id ≠ none := by
    rw [hid, hregistered]
    exact Option.some_ne_none 0
  obtain ⟨m, _, hwoken⟩ := no_lost_wakeup (Machine.run_of_exec hexec) rfl hfair ht hne
  refine ⟨r, m, hregistered, hwoken.imp_left ?_⟩
  rintro ⟨sub, hsub⟩
  exact ⟨call, _, sub, hsub⟩

end A2a
