import A2a.Server.Timestamps
import A2a.Server.Winners

/-!
# A2a.Server.CancelRace

Any number of cancels of one task, with unlimited retention.

At most one makes the task CANCELED and calls the executor's cancel.  The
others answer what the store says: a task that is terminal keeps its state.
`Progress` counts what the winner has done so far: the calls of the
executor, and to whom it has pushed the CANCELED status.
-/

namespace A2a

open InMemoryTaskStore

variable {h : Handler} {s s' s₁ : Server} {tr : List (Server × Action)} {a : Action} {i : Nat}

/-! ## the cancels that did not win -/

/-- What a cancel that did not win answered: why it was refused, or what the
store says of the task. -/
inductive CancelCall.Lost (h : Handler) (tr : List (Server × Action)) (s : Server)
    (call : CancelCall) : Except A2AError Task → Prop
  | refused {error : A2AError} (hr : h.authorize call.params (some call.req.id) = .error error) :
      Lost h tr s call (.error error)
  /-- the task was not stored yet -/
  | unknown (hm : ∃ p ∈ tr, p.1.taskStore.get call.req.id = none) :
      Lost h tr s call (.error (.taskNotFound call.req.id))
  /-- the task it read was CANCELED, and what is stored is still -/
  | canceled {y z : Task} (hm : ∃ p ∈ tr, p.1.taskStore.get call.req.id = some z)
      (hz : z.status.state = .canceled) (hy : s.taskStore.get call.req.id = some y)
      (hc : y.status.state = .canceled) : Lost h tr s call (.ok z)
  /-- another terminal state is stored -/
  | notCancelable {y : Task} (hy : s.taskStore.get call.req.id = some y)
      (ht : y.isTerminal = true) (hc : y.status.state ≠ .canceled) :
      Lost h tr s call (.error (.taskNotCancelable call.req.id))

/-- What a cancel without a guard has found out. -/
def CancelPc.Losing (h : Handler) (tr : List (Server × Action)) (s : Server) (call : CancelCall) :
    CancelPc → Prop
  | .beginCancel => s.taskStore.get call.req.id ≠ none
  | .raced error => error = .taskNotCancelable call.req.id ∧
      ∃ y, s.taskStore.get call.req.id = some y ∧ y.isTerminal = true
  | .returned r => call.Lost h tr s r
  | _ => True

theorem Task.isTerminal_of_state {y y' : Task} (hst : y'.status.state = y.status.state)
    (ht : y.isTerminal = true) : y'.isTerminal = true := by
  rw [Task.isTerminal, hst]
  exact ht

theorem Task.isTerminal_of_canceled {y : Task} (hst : y.status.state = .canceled) :
    y.isTerminal = true := by
  rw [Task.isTerminal, hst]
  rfl

/-- What was found out stays true. -/
theorem CancelPc.Losing.step {call : CancelCall} {pc : CancelPc}
    (hunlimited : s.taskStore.terminalTaskLimit = none) (hs : Server.step h s a = some s')
    (hp : pc.Losing h tr s call) : pc.Losing h (tr ++ [(s, a)]) s' call := by
  cases pc with
  | beginCancel =>
      obtain ⟨y, hy⟩ := Option.ne_none_iff_exists'.mp hp
      obtain ⟨y', hy', _⟩ := step_stored hs hunlimited hy
      simp [Losing, hy']
  | raced error =>
      obtain ⟨herror, y, hy, ht⟩ := hp
      obtain ⟨y', hy', hst⟩ := step_stored hs hunlimited hy
      exact ⟨herror, y', hy', Task.isTerminal_of_state (hst ht) ht⟩
  | returned r =>
      cases hp with
      | refused hr => exact .refused hr
      | unknown hm =>
          obtain ⟨p, hmem, hnone⟩ := hm
          exact .unknown ⟨p, List.mem_append_left _ hmem, hnone⟩
      | canceled hm hz hy hc =>
          obtain ⟨p, hmem, hget⟩ := hm
          obtain ⟨y', hy', hst⟩ := step_stored hs hunlimited hy
          have hc' := (hst (Task.isTerminal_of_canceled hc)).trans hc
          exact .canceled ⟨p, List.mem_append_left _ hmem, hget⟩ hz hy' hc'
      | notCancelable hy ht hc =>
          obtain ⟨y', hy', hst⟩ := step_stored hs hunlimited hy
          exact .notCancelable hy' (Task.isTerminal_of_state (hst ht) ht)
            fun he => hc ((hst ht).symm.trans he)
  | _ => exact True.intro

/-- Only the task store is looked at. -/
theorem CancelPc.Losing.congr {call : CancelCall} {pc : CancelPc}
    (hstore : s'.taskStore = s₁.taskStore) (hp : pc.Losing h tr s₁ call) :
    pc.Losing h tr s' call := by
  cases pc with
  | beginCancel =>
      rw [Losing, hstore]
      exact hp
  | raced error =>
      rw [Losing, hstore]
      exact hp
  | returned r =>
      cases hp with
      | refused hr => exact .refused hr
      | unknown hm => exact .unknown hm
      | canceled hm hz hy hc => exact .canceled hm hz (hstore ▸ hy) hc
      | notCancelable hy ht hc => exact .notCancelable (hstore ▸ hy) ht hc
  | _ => exact True.intro

/-- A cancel without a guard finds out what the store says. -/
theorem CancelCall.next_losing {call : CancelCall} {pc : CancelPc} (hguard : pc.guard = none)
    (hp : pc.Losing h tr s call) (inp : Input) (a : Action) :
    (call.next h inp pc).Post s fun s₁ t' _ => ∀ pc', t' = .cancel call pc' → pc'.guard = none →
      pc'.Losing h (tr ++ [(s, a)]) s₁ call := by
  have hnow : ∀ o, s.taskStore.get call.req.id = o →
      ∃ p ∈ tr ++ [(s, a)], p.1.taskStore.get call.req.id = o :=
    fun o ho => ⟨(s, a), by simp, ho⟩
  -- what is answered of a stored task
  have hanswer : ∀ y, s.taskStore.get call.req.id = some y →
      (y.status.state = .canceled → call.Lost h (tr ++ [(s, a)]) s (.ok y)) ∧
      (y.isTerminal = true → y.status.state ≠ .canceled →
        call.Lost h (tr ++ [(s, a)]) s (.error (.taskNotCancelable call.req.id))) :=
    fun y hy => ⟨fun hc => .canceled (hnow _ hy) hc hy hc, .notCancelable hy⟩
  cases pc <;> simp only [CancelCall.next]
  case load =>
    split
    · next error hr =>
        refine Cmd.post_pass.mpr fun pc' he _ => ?_
        cases he
        exact .refused hr
    · rw [Cmd.post_get]
      intro pc' he hpc'
      cases hget : s.taskStore.get call.req.id with
      | none =>
          rw [hget] at he
          cases he
          exact .unknown (hnow _ hget)
      | some y =>
          rw [hget] at he
          dsimp only at he
          split_ifs at he with hc ht
          · cases he
            exact (hanswer y hget).1 hc
          · cases he
            exact (hanswer y hget).2 ht hc
          · cases he
            simp [CancelPc.Losing, hget]
  case beginCancel =>
    rw [Cmd.post_beginCancel]
    intro pc' he hpc'
    obtain ⟨hnone, _⟩ | ⟨y, hy, ht, hb⟩ | ⟨_, _, _, _, hb, _⟩ :=
      beginCancel_cases s.taskStore call.req.id inp.now
    · exact absurd hnone hp
    · rw [hb] at he
      dsimp only at he
      rw [if_pos (by rfl)] at he
      cases he
      rw [hb]
      exact ⟨rfl, y, hy, ht⟩
    · rw [hb] at he
      cases he
      contradiction
  case raced error =>
    obtain ⟨rfl, y, hy, ht⟩ := hp
    rw [Cmd.post_get]
    intro pc' he hpc'
    rw [hy] at he
    dsimp only at he
    split_ifs at he with hc
    · cases he
      exact (hanswer y hy).1 hc
    · cases he
      exact (hanswer y hy).2 ht hc
  case returned r => exact Cmd.post_halt
  all_goals simp [CancelPc.guard] at hguard

/-- What the cancels that have not won have found out. -/
def Losers (h : Handler) (tr : List (Server × Action)) (s : Server) : Prop :=
  ∀ i call pc, s.threads[i]? = some (.cancel call pc) → pc.guard = none →
    (∀ x, (i, x) ∉ winners tr) → pc.Losing h tr s call

theorem Losers.step (hl : Losers h tr s) (hw : Winners tr s)
    (hunlimited : s.taskStore.terminalTaskLimit = none) (hs : Server.step h s a = some s') :
    Losers h (tr ++ [(s, a)]) s' := by
  intro k call pc' hk hguard hno
  have hno' : ∀ x, (k, x) ∉ winners tr := fun x hx => hno x (mem_winners_snoc.mpr (.inl hx))
  obtain hk | rfl | ⟨pc, inp, rfl, hk₀, hgoes⟩ := cancel_before hs hk
  · exact (hl k call pc' hk hguard hno').step hunlimited hs
  · exact True.intro
  · cases hgoes with
    | idle hpc _ _ _ =>
        have hpost := call.next_losing hpc (hl k call pc hk₀ hpc hno') inp (.step k inp)
        obtain ⟨s₁, t', _, hq, hk', hstore⟩ := step_post (t := .cancel call pc) hs hk₀ hpost
        obtain rfl := Option.some.inj (hk.symm.trans hk')
        exact (hq pc' rfl hguard).congr hstore
    | wins => simp [CancelPc.guard] at hguard
    | on _ hx =>
        rw [hguard] at hx
        contradiction
    | @out x r => exact absurd (hw.won k call _ x hk₀ rfl) (hno' x)

/-! ## what the winner does -/

/-- The event tells that a task is CANCELED. -/
def StreamResponse.isCanceled (event : StreamResponse) : Bool :=
  event.status.any (·.state = .canceled)

theorem isTerminalEvent_of_isCanceled {event : StreamResponse} (hc : event.isCanceled = true) :
    isTerminalEvent event = true := by
  cases event with
  | task next =>
      have hst : next.status.state = .canceled := of_decide_eq_true hc
      simp [isTerminalEvent, hst, TaskState.isTerminal]
  | statusUpdate update =>
      have hst : update.status.state = .canceled := of_decide_eq_true hc
      simp [isTerminalEvent, hst, TaskState.isTerminal]
  | artifactUpdate update => contradiction
  | message message => contradiction

/-- To whom an operation pushes the CANCELED status. -/
def Op.pushesCanceled {β : Type} : Op β → List TaskPushNotificationConfig
  | .sendPush config event _ => if event.isCanceled then [config] else []
  | _ => []

def Cmd.pushesCanceled (cmd : Cmd) : List TaskPushNotificationConfig := cmd.op.pushesCanceled

/-- Whether a cancel is about to call the executor's cancel. -/
def CancelPc.invokes : CancelPc → Nat
  | .getActive _ => 1
  | _ => 0

section Progress

variable (L : Multiset TaskPushNotificationConfig → Prop) (n : Nat)
  (sent : List TaskPushNotificationConfig)

/-- The CANCELED status went to no one, or to some of one listing. -/
def SentOnce : Prop := sent = [] ∨ ∃ targets, L targets ∧ (sent : Multiset _) ≤ targets

/-- A push of an event; if it tells of the CANCELED status, to one listing. -/
def Pushing (event : StreamResponse) : PushPc → Prop
  | .list => sent = []
  | .send rest =>
      if event.isCanceled then ∃ targets, L targets ∧ ((sent ++ rest : List _) : Multiset _) = targets
      else sent = []

/-- A winner that called the executor `n` times and pushed the CANCELED
status to `sent`. -/
def CancelPc.Progress : CancelPc → Prop
  | .getActive _ => n = 0 ∧ sent = []
  | .polling _ => n = 1 ∧ sent = []
  | .saving _ _ _ _ => n = 1 ∧ sent = []
  | .pushing _ event pc => n = 1 ∧ Pushing L sent event pc
  | .publishing _ event _ => n = 1 ∧ SentOnce L sent ∧ (event.isCanceled = false → sent = [])
  | .failPublishing _ _ _ => n = 1 ∧ sent = []
  | .failLoad _ _ => n = 1 ∧ sent = []
  | .failPushing _ _ task pc => n = 1 ∧ Pushing L sent (statusUpdate task) pc
  | .finishing c => n = 1 ∧ SentOnce L sent ∧ (c.terminalPushed = false → sent = [])
  | .finalLoad c => n = 1 ∧ SentOnce L sent ∧ (c.terminalPushed = false → sent = [])
  | .finalPushing _ task pc => n = 1 ∧ Pushing L sent (statusUpdate task) pc
  | .releasing _ _ _ => n = 1 ∧ SentOnce L sent
  | .dropping _ _ _ => n = 1 ∧ SentOnce L sent
  | .returned _ => n = 1 ∧ SentOnce L sent
  | _ => False

end Progress

variable {L L' : Multiset TaskPushNotificationConfig → Prop} {n : Nat}
  {sent : List TaskPushNotificationConfig}

theorem SentOnce.nil : SentOnce L [] := .inl rfl

/-- A push that is over sent to one listing at most. -/
theorem Pushing.over {event : StreamResponse} {pc : PushPc} (hp : Pushing L sent event pc) :
    SentOnce L sent ∧ (event.isCanceled = false → sent = []) := by
  cases pc with
  | list =>
      obtain rfl : sent = [] := hp
      exact ⟨.nil, fun _ => rfl⟩
  | send rest =>
      simp only [Pushing] at hp
      split at hp
      · next hc =>
          obtain ⟨targets, htargets, heq⟩ := hp
          refine ⟨.inr ⟨targets, htargets, ?_⟩, fun hn => ?_⟩
          · rw [← heq, ← Multiset.coe_add]
            exact Multiset.le_add_right _ _
          · rw [hc] at hn
            contradiction
      · obtain rfl := hp
        exact ⟨.nil, fun _ => rfl⟩

/-- A command whose thread meets `R` with what was pushed before and by it. -/
def Cmd.Tallies (cmd : Cmd) (s : Server) (sent : List TaskPushNotificationConfig)
    (R : List TaskPushNotificationConfig → Thread → Prop) : Prop :=
  cmd.Post s fun _ t' _ => R (sent ++ cmd.pushesCanceled) t'

variable {R : List TaskPushNotificationConfig → Thread → Prop}

theorem tallies_of_post {cmd : Cmd} (hnone : cmd.pushesCanceled = [])
    (hp : cmd.Post s fun _ t' _ => R sent t') : cmd.Tallies s sent R := by
  rw [Cmd.Tallies, hnone, List.append_nil]
  exact hp

theorem tallies_andThen {β : Type} {op : Op β} {k : β → Thread} (hnone : op.pushesCanceled = [])
    (hk : ∀ b, R sent (k b)) : (op.andThen k).Tallies s sent R :=
  tallies_of_post hnone (Cmd.post_of_forall fun _ b => hk b)

theorem tallies_publishCmd {x : ExecId} {result : Item} {snapshotTask : Option Task}
    {pc : PublishPc} {k : Option PublishPc → Thread} (hk : ∀ o, R sent (k o)) :
    (publishCmd x result snapshotTask pc k).Tallies s sent R :=
  tallies_of_post (by cases pc <;> rfl) (post_publishCmd fun _ o => hk o)

theorem tallies_releaseCmd {task : Task} {pc : ReleasePc} {k : Option ReleasePc → Thread}
    (hk : ∀ o, R sent (k o)) : (releaseCmd task pc k).Tallies s sent R :=
  tallies_of_post (by obtain _ | _ | ⟨w, rest⟩ := pc <;> rfl) (post_releaseCmd fun _ o => hk o)

/-- A push goes on to the rest of its listing. -/
theorem tallies_pushCmd {inp : Input} {taskId : TaskId} {event : StreamResponse} {pc : PushPc}
    {k : PushPc ⊕ Except A2AError Unit → Thread} (hL : L (s.pushTargets taskId))
    (hp : Pushing L sent event pc)
    (hon : ∀ sent pc, Pushing L sent event pc → R sent (k (.inl pc)))
    (hover : ∀ sent o, SentOnce L sent → (event.isCanceled = false → sent = []) →
      R sent (k (.inr o))) :
    (pushCmd inp taskId event pc k).Tallies s sent R := by
  obtain _ | _ | ⟨config, rest⟩ := pc
  · refine tallies_of_post rfl ?_
    intro s₁ configs hrun
    obtain rfl : sent = [] := hp
    simp only [Op.andThen, pushCmd, Op.run] at hrun
    split at hrun
    · next hlist =>
        obtain ⟨_, rfl⟩ := Prod.mk.inj (Option.some.inj hrun)
        refine hon [] (.send inp.configs) ?_
        simp only [Pushing, List.nil_append]
        split
        · exact ⟨_, hL, hlist⟩
        · exact True.intro
    · contradiction
  · obtain ⟨honce, hnone⟩ := hp.over
    exact tallies_andThen rfl fun _ => hover sent _ honce hnone
  · -- one more configuration of the listing
    have hnext : Pushing L (sent ++ (pushCmd inp taskId event (.send (config :: rest)) k).pushesCanceled)
        event (.send rest) := by
      simp only [Pushing, Cmd.pushesCanceled, pushCmd, Op.andThen, Op.pushesCanceled] at hp ⊢
      split at hp
      · next hc =>
          obtain ⟨targets, htargets, heq⟩ := hp
          rw [if_pos hc, if_pos hc]
          refine ⟨targets, htargets, ?_⟩
          rw [List.append_assoc]
          exact heq
      · next hc =>
          rw [if_neg hc, if_neg hc, hp]
          rfl
    intro s₁ o hrun
    have hrun' : (Op.sendPush config event inp.push).run s = some (s₁, o) := hrun
    cases o with
    | ok _ => exact hon _ _ hnext
    | error error =>
        obtain ⟨honce, hnone⟩ := hnext.over
        exact hover _ _ honce hnone

/-- The thread is this cancel, having done so much. -/
def CancelCall.At (call : CancelCall) (L : Multiset TaskPushNotificationConfig → Prop) (n : Nat)
    (sent : List TaskPushNotificationConfig) (t : Thread) : Prop :=
  ∃ pc, t = .cancel call pc ∧ pc.Progress L n sent

theorem CancelCall.afterLoop_progress {c : Cancelling} (honce : SentOnce L sent)
    (hnone : c.terminalPushed = false → sent = []) : (afterLoop c).Progress L 1 sent := by
  simp only [afterLoop]
  split <;> exact ⟨rfl, honce, hnone⟩

theorem CancelCall.afterEvent_progress {c : Cancelling} {event : StreamResponse}
    (honce : SentOnce L sent) (hnone : event.isCanceled = false → sent = []) :
    (afterEvent c event).Progress L 1 sent := by
  simp only [afterEvent]
  split
  · refine afterLoop_progress honce fun hpushed => ?_
    contradiction
  · next hlive =>
      refine ⟨rfl, hnone ?_⟩
      cases hc : event.isCanceled with
      | false => rfl
      | true => exact absurd (isTerminalEvent_of_isCanceled hc) hlive

/-- What a winner does in a step. -/
theorem CancelCall.next_progress {call : CancelCall} {pc : CancelPc} {x : Task}
    (hguard : pc.guard = some x) (hL : L (s.pushTargets call.req.id))
    (hp : pc.Progress L n sent) (inp : Input) :
    (call.next h inp pc).Tallies s sent (call.At L (n + pc.invokes)) := by
  cases pc <;> simp only [CancelCall.next]
  case getActive task =>
    obtain ⟨rfl, rfl⟩ := hp
    exact tallies_andThen rfl fun _ => ⟨_, rfl, rfl, rfl⟩
  case polling c =>
    obtain ⟨rfl, rfl⟩ := hp
    refine tallies_andThen rfl fun _ => ?_
    split
    · exact ⟨_, rfl, afterLoop_progress .nil fun _ => rfl⟩
    · simp only [accept]
      split
      · exact ⟨_, rfl, rfl, rfl⟩
      · split
        · exact ⟨_, rfl, rfl, rfl⟩
        · exact ⟨_, rfl, rfl, .nil⟩
    · split <;> exact ⟨_, rfl, rfl, rfl⟩
  case saving c event task pc =>
    obtain ⟨rfl, rfl⟩ := hp
    refine tallies_andThen (by cases pc <;> rfl) fun _ => ?_
    split
    · exact ⟨_, rfl, rfl, rfl⟩
    · exact ⟨_, rfl, rfl, rfl⟩
    · exact ⟨_, rfl, rfl, .nil⟩
  case pushing c event pc =>
    obtain ⟨rfl, hp⟩ := hp
    refine tallies_pushCmd hL hp (fun sent pc hp => ⟨_, rfl, rfl, hp⟩) fun sent o honce hnone => ?_
    cases o with
    | ok _ =>
        dsimp only
        split
        · exact ⟨_, rfl, rfl, honce, hnone⟩
        · exact ⟨_, rfl, afterEvent_progress honce hnone⟩
    | error error => exact ⟨_, rfl, rfl, honce⟩
  case publishing c event pc =>
    obtain ⟨rfl, honce, hnone⟩ := hp
    split
    · exact tallies_andThen rfl fun _ => ⟨_, rfl, afterEvent_progress honce hnone⟩
    · refine tallies_publishCmd fun o => ?_
      cases o with
      | some pc => exact ⟨_, rfl, rfl, honce, hnone⟩
      | none => exact ⟨_, rfl, afterEvent_progress honce hnone⟩
  case failPublishing c error pc =>
    obtain ⟨rfl, rfl⟩ := hp
    split
    · exact tallies_andThen rfl fun _ => ⟨_, rfl, rfl, rfl⟩
    · refine tallies_publishCmd fun o => ?_
      cases o <;> exact ⟨_, rfl, rfl, rfl⟩
  case failLoad c error =>
    obtain ⟨rfl, rfl⟩ := hp
    refine tallies_andThen rfl fun answer => ?_
    cases answer with
    | none => exact ⟨_, rfl, rfl, .nil⟩
    | some task => exact ⟨_, rfl, rfl, rfl⟩
  case failPushing c error task pc =>
    obtain ⟨rfl, hp⟩ := hp
    exact tallies_pushCmd hL hp (fun sent pc hp => ⟨_, rfl, rfl, hp⟩)
      fun sent o honce _ => ⟨_, rfl, rfl, honce⟩
  case finishing c =>
    obtain ⟨rfl, honce, hnone⟩ := hp
    split <;> exact tallies_andThen rfl fun _ => ⟨_, rfl, rfl, honce, hnone⟩
  case finalLoad c =>
    obtain ⟨rfl, honce, hnone⟩ := hp
    refine tallies_andThen rfl fun answer => ?_
    cases answer with
    | none => exact ⟨_, rfl, rfl, honce⟩
    | some task =>
        dsimp only
        split
        · exact ⟨_, rfl, rfl, honce⟩
        · next hpushed => exact ⟨_, rfl, rfl, hnone (by simpa using hpushed)⟩
  case finalPushing c task pc =>
    obtain ⟨rfl, hp⟩ := hp
    refine tallies_pushCmd hL hp (fun sent pc hp => ⟨_, rfl, rfl, hp⟩) fun sent o honce _ => ?_
    cases o <;> exact ⟨_, rfl, rfl, honce⟩
  case releasing c task pc =>
    obtain ⟨rfl, honce⟩ := hp
    refine tallies_releaseCmd fun o => ?_
    cases o <;> exact ⟨_, rfl, rfl, honce⟩
  case dropping task result pc =>
    obtain ⟨rfl, honce⟩ := hp
    refine tallies_releaseCmd fun o => ?_
    cases o <;> exact ⟨_, rfl, rfl, honce⟩
  all_goals simp [CancelPc.guard] at hguard

/-! ## what the cancels of a task do in a run -/

/-- The cancel of the task that calls the executor's cancel. -/
def Server.invokesCancel (s : Server) (taskId : TaskId) : Action → List Nat
  | .step i _ =>
      match s.threads[i]? with
      | some (.cancel call (.getActive _)) => if call.req.id = taskId then [i] else []
      | _ => []
  | _ => []

/-- To whom a cancel of the task pushes the CANCELED status. -/
def Server.pushesCanceled (h : Handler) (s : Server) (taskId : TaskId) :
    Action → List TaskPushNotificationConfig
  | .step i inp =>
      match s.threads[i]? with
      | some (.cancel call pc) =>
          if call.req.id = taskId then (call.next h inp pc).pushesCanceled else []
      | _ => []
  | _ => []

/-- The cancels of the task that called the executor's cancel. -/
def cancelCalls (taskId : TaskId) (tr : List (Server × Action)) : List Nat :=
  tr.flatMap fun p => p.1.invokesCancel taskId p.2

/-- To whom the cancels of the task pushed the CANCELED status. -/
def canceledPushes (h : Handler) (taskId : TaskId) (tr : List (Server × Action)) :
    List TaskPushNotificationConfig :=
  tr.flatMap fun p => p.1.pushesCanceled h taskId p.2

/-- What a listing of the task's configurations showed at some time. -/
def Listed (taskId : TaskId) (tr : List (Server × Action))
    (targets : Multiset TaskPushNotificationConfig) : Prop :=
  ∃ p ∈ tr, p.1.pushTargets taskId = targets

variable {taskId : TaskId}

theorem cancelCalls_snoc : cancelCalls taskId (tr ++ [(s, a)]) =
    cancelCalls taskId tr ++ s.invokesCancel taskId a := by
  simp [cancelCalls]

theorem canceledPushes_snoc : canceledPushes h taskId (tr ++ [(s, a)]) =
    canceledPushes h taskId tr ++ s.pushesCanceled h taskId a := by
  simp [canceledPushes]

theorem CancelPc.Progress.mono {pc : CancelPc} (hL : ∀ targets, L targets → L' targets)
    (hp : pc.Progress L n sent) : pc.Progress L' n sent := by
  have honce : SentOnce L sent → SentOnce L' sent := by
    intro ho
    obtain ho | ⟨targets, htargets, hle⟩ := ho
    · exact .inl ho
    · exact .inr ⟨targets, hL _ htargets, hle⟩
  have hpushing : ∀ event pc, Pushing L sent event pc → Pushing L' sent event pc := by
    intro event pc hpc
    cases pc with
    | list => exact hpc
    | send rest =>
        simp only [Pushing] at hpc ⊢
        split
        · next hc =>
            rw [if_pos hc] at hpc
            obtain ⟨targets, htargets, heq⟩ := hpc
            exact ⟨targets, hL _ htargets, heq⟩
        · next hc =>
            rw [if_neg hc] at hpc
            exact hpc
  cases pc with
  | pushing c event pc => exact ⟨hp.1, hpushing _ _ hp.2⟩
  | publishing c event pc => exact ⟨hp.1, honce hp.2.1, hp.2.2⟩
  | failPushing c error task pc => exact ⟨hp.1, hpushing _ _ hp.2⟩
  | finishing c => exact ⟨hp.1, honce hp.2.1, hp.2.2⟩
  | finalLoad c => exact ⟨hp.1, honce hp.2.1, hp.2.2⟩
  | finalPushing c task pc => exact ⟨hp.1, hpushing _ _ hp.2⟩
  | releasing c task pc => exact ⟨hp.1, honce hp.2⟩
  | dropping task r pc => exact ⟨hp.1, honce hp.2⟩
  | returned r => exact ⟨hp.1, honce hp.2⟩
  | _ => exact hp

/-- A cancel without a guard calls and pushes nothing. -/
theorem CancelCall.idle_of_guard {call : CancelCall} {pc : CancelPc} (hguard : pc.guard = none)
    (inp : Input) : pc.invokes = 0 ∧ (call.next h inp pc).pushesCanceled = [] := by
  cases pc <;> simp only [CancelCall.next]
  case load => split <;> exact ⟨rfl, rfl⟩
  case beginCancel => exact ⟨rfl, rfl⟩
  case raced error => exact ⟨rfl, rfl⟩
  case returned r => exact ⟨rfl, rfl⟩
  all_goals simp [CancelPc.guard] at hguard

theorem Server.invokesCancel_of_thread {call : CancelCall} {pc : CancelPc} {inp : Input}
    (hi : s.threads[i]? = some (.cancel call pc)) (hid : call.req.id = taskId) :
    s.invokesCancel taskId (.step i inp) = if pc.invokes = 0 then [] else [i] := by
  cases pc <;> simp [Server.invokesCancel, hi, hid, CancelPc.invokes]

theorem Server.pushesCanceled_of_thread {call : CancelCall} {pc : CancelPc} {inp : Input}
    (hi : s.threads[i]? = some (.cancel call pc)) (hid : call.req.id = taskId) :
    s.pushesCanceled h taskId (.step i inp) = (call.next h inp pc).pushesCanceled := by
  simp [Server.pushesCanceled, hi, hid]

/-- Only a cancel that won the task calls or pushes. -/
theorem Winners.idle (hw : Winners tr s) (taskId : TaskId) (ha : ∀ i inp x, a = .step i inp → (i, x) ∈ winners tr →
    x.id ≠ taskId) : s.invokesCancel taskId a = [] ∧ s.pushesCanceled h taskId a = [] := by
  cases a with
  | step i inp =>
      cases hi : s.threads[i]? with
      | none => simp [Server.invokesCancel, Server.pushesCanceled, hi]
      | some t =>
          cases t with
          | cancel call pc =>
              by_cases hid : call.req.id = taskId
              · rw [Server.invokesCancel_of_thread hi hid, Server.pushesCanceled_of_thread hi hid]
                cases hguard : pc.guard with
                | none =>
                    obtain ⟨hinvokes, hpushes⟩ := call.idle_of_guard (h := h) hguard inp
                    exact ⟨if_pos hinvokes, hpushes⟩
                | some x =>
                    have hwon := hw.won i call pc x hi hguard
                    obtain ⟨call', _, hi', hid', _⟩ := hw.thread _ hwon
                    cases hi.symm.trans hi'
                    exact absurd (hid'.symm.trans hid) (ha i inp x rfl hwon)
              · cases pc <;> simp [Server.invokesCancel, Server.pushesCanceled, hi, hid]
          | _ => simp [Server.invokesCancel, Server.pushesCanceled, hi]
  | _ => exact ⟨rfl, rfl⟩

/-- What the cancel that won a task has done for it, and that no other has
done anything. -/
structure Race (h : Handler) (taskId : TaskId) (tr : List (Server × Action)) (s : Server) :
    Prop where
  winner : ∀ i x, (i, x) ∈ winners tr → x.id = taskId → ∃ call pc,
    s.threads[i]? = some (.cancel call pc) ∧ call.req.id = taskId ∧
      (∀ j ∈ cancelCalls taskId tr, j = i) ∧
      pc.Progress (Listed taskId tr) (cancelCalls taskId tr).length (canceledPushes h taskId tr)
  nobody : (∀ p ∈ winners tr, p.2.id ≠ taskId) →
    cancelCalls taskId tr = [] ∧ canceledPushes h taskId tr = []

theorem Race.step (hr : Race h taskId tr s) (hw : Winners tr s)
    (hw' : Winners (tr ++ [(s, a)]) s') (hs : Server.step h s a = some s') :
    Race h taskId (tr ++ [(s, a)]) s' := by
  have hmono : ∀ targets, Listed taskId tr targets → Listed taskId (tr ++ [(s, a)]) targets := by
    intro targets hm
    obtain ⟨p, hmem, htargets⟩ := hm
    exact ⟨p, List.mem_append_left _ hmem, htargets⟩
  constructor
  · intro k x hx hid
    rw [cancelCalls_snoc, canceledPushes_snoc]
    obtain hold | hnew := mem_winners_snoc.mp hx
    · obtain ⟨call, pc, hk, hcall, hself, hp⟩ := hr.winner k x hold hid
      obtain ⟨hk', hother⟩ | ⟨pc', inp, rfl, hk', _⟩ := cancel_after hs hk
      · -- another thread acts
        obtain ⟨hinvokes, hpushes⟩ := hw.idle (h := h) (a := a) taskId (by
          intro j inp y ha hy hyid
          have he := hw.unique _ hold _ hy (hid.trans hyid.symm)
          exact hother inp (by rw [ha, (Prod.mk.inj he).1]))
        rw [hinvokes, hpushes, List.append_nil, List.append_nil]
        exact ⟨call, pc, hk', hcall, hself, hp.mono hmono⟩
      · obtain ⟨call', pc₀, hk₀, _, hguard, _⟩ := hw.thread _ hold
        cases hk.symm.trans hk₀
        obtain hguard | ⟨r, rfl⟩ := hguard
        · have hL : Listed taskId (tr ++ [(s, .step k inp)]) (s.pushTargets call.req.id) :=
            ⟨(s, .step k inp), by simp, by rw [hcall]⟩
          have hpost := call.next_progress (h := h) hguard hL (hp.mono hmono) inp
          obtain ⟨s₁, t', _, ⟨pc'', ht', hp'⟩, hk'', _⟩ := step_post (t := .cancel call pc) hs hk hpost
          refine ⟨call, pc'', ht' ▸ hk'', hcall, fun j hj => ?_, ?_⟩
          · obtain hj | hj := List.mem_append.mp hj
            · exact hself j hj
            · rw [Server.invokesCancel_of_thread hk hcall] at hj
              split at hj
              · contradiction
              · exact List.mem_singleton.mp hj
          rw [Server.invokesCancel_of_thread hk hcall, Server.pushesCanceled_of_thread hk hcall,
            List.length_append]
          have hlength : (if pc.invokes = 0 then [] else [k] : List Nat).length = pc.invokes := by
            cases pc <;> rfl
          rw [hlength]
          exact hp'
        · obtain ⟨s₁, t', _, hfalse, _⟩ := step_post (t := .cancel call (.returned r))
            (Q := fun _ _ _ => False) hs hk Cmd.post_halt
          exact hfalse.elim
    · -- the cancel that wins: nobody had won the task
      obtain ⟨call, hk', hcall⟩ := wins_thread hs hnew
      have hfirst : ∀ p ∈ winners tr, p.2.id ≠ taskId := by
        intro p hp hpid
        have he := hw'.unique _ (mem_winners_snoc.mpr (.inl hp)) _ hx (hpid.trans hid.symm)
        obtain ⟨_, _, old, _, _, _, _, hget, hlive, _⟩ := wins_cases hnew
        have hst := (hw.canceled p hp).2 old (by rw [hpid, ← hid]; exact hget)
        rw [Task.isTerminal_of_canceled hst] at hlive
        contradiction
      obtain ⟨hcalls, hpushes⟩ := hr.nobody hfirst
      obtain ⟨hinvokes, hnone⟩ := hw.idle (h := h) (a := a) taskId fun _ _ y _ hy => hfirst (_, y) hy
      rw [hcalls, hpushes, hinvokes, hnone]
      exact ⟨call, _, hk', hcall.trans hid, fun _ hj => absurd hj List.not_mem_nil, rfl, rfl⟩
  · intro hno
    have hno' : ∀ p ∈ winners tr, p.2.id ≠ taskId :=
      fun p hp => hno p (mem_winners_snoc.mpr (.inl hp))
    obtain ⟨hcalls, hpushes⟩ := hr.nobody hno'
    obtain ⟨hinvokes, hnone⟩ := hw.idle (h := h) (a := a) taskId fun _ _ y _ hy => hno' (_, y) hy
    rw [cancelCalls_snoc, canceledPushes_snoc, hcalls, hpushes, hinvokes, hnone]
    exact ⟨rfl, rfl⟩

/-- A winner called the executor at most once. -/
theorem CancelPc.Progress.tally {pc : CancelPc} (hp : pc.Progress L n sent) :
    n ≤ 1 ∧ SentOnce L sent := by
  cases pc with
  | getActive task => exact ⟨by rw [hp.1]; omega, .inl hp.2⟩
  | polling c => exact ⟨hp.1.le, .inl hp.2⟩
  | saving c event task pc => exact ⟨hp.1.le, .inl hp.2⟩
  | pushing c event pc => exact ⟨hp.1.le, hp.2.over.1⟩
  | publishing c event pc => exact ⟨hp.1.le, hp.2.1⟩
  | failPublishing c error pc => exact ⟨hp.1.le, .inl hp.2⟩
  | failLoad c error => exact ⟨hp.1.le, .inl hp.2⟩
  | failPushing c error task pc => exact ⟨hp.1.le, hp.2.over.1⟩
  | finishing c => exact ⟨hp.1.le, hp.2.1⟩
  | finalLoad c => exact ⟨hp.1.le, hp.2.1⟩
  | finalPushing c task pc => exact ⟨hp.1.le, hp.2.over.1⟩
  | releasing c task pc => exact ⟨hp.1.le, hp.2⟩
  | dropping task r pc => exact ⟨hp.1.le, hp.2⟩
  | returned r => exact ⟨hp.1.le, hp.2⟩
  | _ => exact hp.elim

/-- **Concurrent cancels**: with unlimited retention, in every interleaving
of any number of calls, at most one cancel of a task wins it and calls the
executor's cancel; a cancel that answers with a task answers with a CANCELED
one; one that did not win answers what is stored; and the cancels push the
CANCELED status to each configuration of one listing at most once. -/
theorem cancel_race (h : Handler) {taskStore : InMemoryTaskStore}
    {pushConfigStore : Option InMemoryPushConfigStore} {pushSender : Bool}
    (hunlimited : taskStore.terminalTaskLimit = none)
    (hr : (serverMachine h).Run (.new taskStore pushConfigStore pushSender) tr s)
    (taskId : TaskId) :
    (∀ p ∈ winners tr, ∀ q ∈ winners tr, p.2.id = taskId → q.2.id = taskId → p = q) ∧
    ((cancelCalls taskId tr).length ≤ 1 ∧
      ∀ i ∈ cancelCalls taskId tr, ∃ x, (i, x) ∈ winners tr ∧ x.id = taskId) ∧
    (∀ (i : Nat) call task, s.threads[i]? = some (.cancel call (.returned (.ok task))) →
      task.status.state = .canceled) ∧
    (∀ (i : Nat) call r, s.threads[i]? = some (.cancel call (.returned r)) →
      (∀ x, (i, x) ∉ winners tr) → call.Lost h tr s r) ∧
    SentOnce (Listed taskId tr) (canceledPushes h taskId tr) := by
  have hinv : s.taskStore.terminalTaskLimit = none ∧ Winners tr s ∧ Losers h tr s ∧
      Race h taskId tr s := by
    refine hr.guardedBy (I := fun tr s => s.taskStore.terminalTaskLimit = none ∧ Winners tr s ∧
      Losers h tr s ∧ Race h taskId tr s) ?_ ?_ (keepsCanceled_of_unlimited hr hunlimited)
    · refine ⟨hunlimited, .start taskStore pushConfigStore pushSender, fun i call pc hi => ?_, ?_, ?_⟩
      · simp [Server.new] at hi
      · intro i x hx
        simp [winners] at hx
      · exact fun _ => ⟨rfl, rfl⟩
    · intro tr s a s' hinv hkeep hs
      obtain ⟨hl, hw, hlose, hrace⟩ := hinv
      have hw' := hw.step hkeep hs
      exact ⟨step_unlimited hs hl, hw', hlose.step hw hl hs, hrace.step hw hw' hs⟩
  obtain ⟨_, hw, hlose, hrace⟩ := hinv
  have htally : (cancelCalls taskId tr).length ≤ 1 ∧
      (∀ i ∈ cancelCalls taskId tr, ∃ x, (i, x) ∈ winners tr ∧ x.id = taskId) ∧
      SentOnce (Listed taskId tr) (canceledPushes h taskId tr) := by
    by_cases hsome : ∃ p ∈ winners tr, p.2.id = taskId
    · obtain ⟨⟨i, x⟩, hx, hid⟩ := hsome
      obtain ⟨_, pc, _, _, hself, hp⟩ := hrace.winner i x hx hid
      refine ⟨hp.tally.1, fun j hj => ?_, hp.tally.2⟩
      rw [hself j hj]
      exact ⟨x, hx, hid⟩
    · obtain ⟨hcalls, hpushes⟩ := hrace.nobody fun p hp hid => hsome ⟨p, hp, hid⟩
      rw [hcalls, hpushes]
      exact ⟨Nat.zero_le 1, fun _ hj => absurd hj List.not_mem_nil, .nil⟩
  refine ⟨fun p hp q hq hpid hqid => hw.unique p hp q hq (hpid.trans hqid.symm),
    ⟨htally.1, htally.2.1⟩, ?_, ?_, htally.2.2⟩
  · intro i call task hi
    by_cases hwon : ∃ x, (i, x) ∈ winners tr
    · obtain ⟨x, hx⟩ := hwon
      obtain ⟨_, _, hi', _, _, hanswer⟩ := hw.thread _ hx
      cases hi.symm.trans hi'
      exact (hanswer task rfl).2
    · have hlost := hlose i call _ hi rfl fun x hx => hwon ⟨x, hx⟩
      cases hlost with
      | canceled _ hz _ _ => exact hz
  · exact fun i call r hi hno => hlose i call _ hi rfl hno

/-- Two cancels read the task live; the first wins it. -/
def racingCancels : List Action :=
  [.call (.cancel (.of "t")), .call (.cancel (.of "t")), .step 0 (.emitting []),
    .step 1 (.emitting []), .step 0 (.emitting []), .step 1 (.emitting []), .step 1 (.emitting [])]

/-- The second answers with the CANCELED task. -/
theorem cancel_race_second :
    ∃ tr s call r, (serverMachine .new).Run awaitingInput tr s ∧
      s.threads[1]? = some (.cancel call (.returned r)) ∧ call.Lost .new tr s r ∧
      (cancelCalls "t" tr).length ≤ 1 := by
  have hx : ((serverMachine .new).exec awaitingInput racingCancels).map (fun p =>
      (p.2.threads[1]?, (winners p.1).map (·.1))) = some (some (.cancel (.of "t") (.returned (.ok
        (canceledTask (makeTask "t" "c" .inputRequired) .unixEpoch)))), [0]) := rfl
  obtain ⟨⟨tr, s⟩, hexec, hs⟩ := Option.map_eq_some_iff.mp hx
  obtain ⟨hi, hwinners⟩ := Prod.mk.inj hs
  have hrun := Machine.run_of_exec hexec
  obtain ⟨_, ⟨hcalls, _⟩, _, hlost, _⟩ := cancel_race .new rfl hrun "t"
  refine ⟨tr, s, _, _, hrun, hi, hlost 1 _ _ hi fun x hx => ?_, hcalls⟩
  have hmem : 1 ∈ (winners tr).map (·.1) := List.mem_map_of_mem hx
  rw [hwinners] at hmem
  simp at hmem

/-- A webhook of the task. -/
def webhook : TaskPushNotificationConfig := ⟨"http://w", some "w", "t", none, none, none⟩

/-- A server over a task that awaits input and has a webhook. -/
def watched : Server :=
  .new (.holding (makeTask "t" "c" .inputRequired)) (some ((InMemoryPushConfigStore.mk ∅).save "w" webhook).2)
    true

/-- What a driver's executor emits once it is told to stop. -/
def stopping : Input :=
  { Input.emitting [.ok (.statusUpdate ⟨"t", "c", ⟨.canceled, none, none⟩, none⟩)] with
    configs := [webhook] }

/-- The driver's executor reports CANCELED; a cancel runs before that is
stored, and then the driver goes on. -/
def bothPush : List Action :=
  .call (.send (.continuing "t" "m")) :: List.replicate 4 (.step 0 stopping) ++
    List.replicate 2 (.step 1 stopping) ++
    .call (.cancel (.of "t")) :: List.replicate 13 (.step 2 { stopping with stream := [] }) ++
    List.replicate 3 (.step 1 stopping)

/-- The webhook gets the CANCELED status of the one cancel twice. -/
theorem bothPush_twice :
    ∃ tr s, (serverMachine .new).Run watched tr s ∧
      (s.webhooks.filter fun push => push.2.isCanceled).map (·.1) = [webhook, webhook] := by
  have hx : ((serverMachine .new).exec watched bothPush).map (fun p =>
      (p.2.webhooks.filter fun push => push.2.isCanceled).map (·.1)) =
        some [webhook, webhook] := rfl
  obtain ⟨⟨tr, s⟩, hexec, hs⟩ := Option.map_eq_some_iff.mp hx
  exact ⟨tr, s, Machine.run_of_exec hexec, hs⟩

end A2a
