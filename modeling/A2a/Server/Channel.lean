import A2a.Server.Streams

/-!
# A2a.Server.Channel

The channel of an execution, in every interleaving.

`Channel` relates an execution of the server to a feed: what its driver
published and what was sent of it.  `Channel.ran` says what a step of any
thread does there, as long as the driver is the only one that publishes: the
feed grows by what the step publishes, and every stream stays in step.
-/

namespace A2a

/-! ## the channel of an execution -/

/-- The thread publishes the last entry, and has it yet to send. -/
def Feed.Carries (f : Feed Item Task) (sequence : Nat) (item : Item) : Prop :=
  f.pending = true ∧ sequence = f.log.length ∧ f.log.getLast?.map (·.1) = some item

/-- What a thread at a link has to do with the channel of `x`. -/
def Link.Fits (x : ExecId) (f : Feed Item Task) : Link → Prop
  | .attaching y => y = x → f.log = [] ∧ Driven f.start f.log f.start
  | .publishing y item _ (.count sequence) => y = x → f.Carries sequence item
  | .publishing y item _ (.send sequence) => y = x → f.Carries sequence item
  | .reading receiver => receiver.exec = x → f.Synced receiver.next f.log.length
  | .following resumed sub => sub.receiver.map (·.exec) = some x → sub.Follows f resumed
  | .ended resumed sub => sub.receiver.map (·.exec) = some x → sub.Over f resumed
  | _ => True

/-- What a thread has to do with the channel of `x`. -/
structure Thread.Fits (x : ExecId) (f : Feed Item Task) (t : Thread) : Prop where
  link : t.link.Fits x f
  stage : ∀ d, t = .drive d → d.exec = x → d.Stage f

/-- The driver of `x` is done. -/
def Server.Finished (s : Server) (x : ExecId) : Prop :=
  ∀ t ∈ s.threads, t.owns = some x → t.holds = none

/-- `f` is the channel of the execution `x`. -/
structure Channel (x : ExecId) (s : Server) (f : Feed Item Task) : Prop where
  ok : f.Ok
  log : Publications f.start f.log
  active : ∃ active, s.executions[x]? = some active ∧ active.snapshotTask = f.last ∧
    active.sequence = f.log.length ∧ active.sent = f.sent.map toEvent
  threads : ∀ t ∈ s.threads, t.Fits x f
  owner : ∀ t ∈ s.threads, t.link.delivers = some x → t.owns = some x
  pending : f.pending = true → ∃ t ∈ s.threads, t.link.delivers = some x
  handed : ∀ (w : WaiterId) (value : Resubscription) (receiver : Receiver),
    s.oneshots[w]? = some (.full value) → value.receiver = some receiver → receiver.exec = x →
      f.Synced receiver.next value.sequence ∧ value.snapshotTask = f.snapshotAt value.sequence
  ended : ∀ t ∈ s.threads, ∀ resumed sub, t.link = .ended resumed sub →
    sub.receiver.map (·.exec) = some x → sub.done = false → s.Finished x

/-- Of all threads only a driver publishes on `x`. -/
def OnlyDriver (x : ExecId) (s : Server) (a : Action) : Prop :=
  ∀ (i : Nat) (inp : Input) (call : CancelCall) (pc : CancelPc),
    a = .step i inp → s.threads[i]? = some (.cancel call pc) → s.publishes x a = none

variable {h : Handler} {s s' s₁ : Server} {a : Action} {x : ExecId} {f f' : Feed Item Task}
  {t t' : Thread}

/-- A driver's stage is one of its channel's log. -/
theorem Driver.Stage.of_log {d : Driver} (hd : d.Stage f) (hstart : f'.start = f.start)
    (hlog : f'.log = f.log) : d.Stage f' := by
  unfold Stage at hd ⊢
  rw [hstart, hlog]
  exact hd

/-- What a driver published is what an execution may publish. -/
theorem Driver.Stage.publications {d : Driver} (hd : d.Stage f) : Publications f.start f.log := by
  unfold Stage at hd
  split at hd
  · exact .live hd.2
  · exact .live hd
  · exact .live hd.1
  · obtain ⟨last, hlog, _⟩ := hd
    exact .live hlog
  · obtain ⟨last, hlog, _⟩ := hd
    exact .live hlog
  · next event _ _ _ =>
    obtain ⟨log, last, hlog, hdriven, happlies⟩ := hd
    rw [hlog]
    cases hends : isTerminalEvent event with
    | true => exact .terminal hdriven happlies hends
    | false => exact .live (.snoc hdriven happlies hends)
  · obtain ⟨⟨last, hlog⟩, _⟩ := hd
    exact .live hlog
  · obtain ⟨⟨last, hlog⟩, _⟩ := hd
    exact .live hlog
  · obtain ⟨⟨last, hlog⟩, _⟩ := hd
    exact .live hlog
  · exact hd
  · exact hd
  · exact hd

/-- A thread at rest fits any channel. -/
theorem Link.Resting.fits {l : Link} (hl : l.Resting) : l.Fits x f := by
  cases l with
  | publishing y item task pc =>
      cases pc with
      | write => trivial
      | count sequence => exact hl.elim
      | send sequence => exact hl.elim
  | idle => trivial
  | registering task => trivial
  | _ => exact hl.elim

theorem Link.Resting.delivers {l : Link} (hl : l.Resting) : l.delivers = none := by
  cases l with
  | publishing y item task pc => cases pc <;> first | rfl | exact hl.elim
  | _ => rfl

/-- Only drivers and cancels publish. -/
theorem Thread.publishing {y : ExecId} {item : Item} {task : Option Task} {pc : PublishPc}
    (hl : t.link = .publishing y item task pc) :
    (∃ d, t = .drive d ∧ d.exec = y) ∨ ∃ call pc', t = .cancel call pc' := by
  cases t with
  | drive d =>
      refine .inl ⟨d, rfl, ?_⟩
      simp only [Thread.link, Driver.link] at hl
      split at hl <;> cases hl <;> rfl
  | cancel call pc' => exact .inr ⟨call, pc', rfl⟩
  | send call pc' => cases pc' <;> cases hl
  | subscribe call pc' => cases pc' <;> cases hl
  | dropped => cases hl

/-- The receiver that a thread at the link owns. -/
def Link.receiver : Link → Option Receiver
  | .reading receiver => some receiver
  | .following _ sub => sub.receiver
  | _ => none

theorem Thread.receiver_eq_link (t : Thread) : t.receiver = t.link.receiver := by
  cases t with
  | send call pc => cases pc <;> rfl
  | subscribe call pc => cases pc <;> rfl
  | drive d =>
      show none = d.link.receiver
      unfold Driver.link
      split <;> rfl
  | cancel call pc =>
      show none = pc.link.receiver
      unfold CancelPc.link
      split
      · split <;> rfl
      · split <;> rfl
      · rfl
  | dropped => rfl

/-- Nobody listens to an execution, so no thread receives from it. -/
theorem Server.listening_false (hl : s.listening x = false) (ht : t ∈ s.threads)
    {receiver : Receiver} (hreceiver : t.link.receiver = some receiver) : receiver.exec ≠ x := by
  intro hx
  rw [listening, Bool.or_eq_false_iff] at hl
  have hnone := List.any_eq_false.mp hl.1 t ht
  rw [Thread.receiver_eq_link, hreceiver, Option.any_some, hx] at hnone
  simp at hnone

/-- Nor is a waiter about to. -/
theorem Server.unhanded_of_listening (hl : s.listening x = false) {w : WaiterId}
    {value : Resubscription} (hfull : s.oneshots[w]? = some (.full value)) {receiver : Receiver}
    (hreceiver : value.receiver = some receiver) : receiver.exec ≠ x := by
  intro hx
  rw [listening, Bool.or_eq_false_iff] at hl
  have hnone := List.any_eq_false.mp hl.2 _ (List.mem_of_getElem? hfull)
  simp [hreceiver, hx] at hnone

/-- A thread that publishes is not dropped. -/
theorem Server.runs.publishes {i : Nat} {cmd : Cmd} {b : cmd.β} (hruns : s.runs h a i t cmd)
    (hran : s.Ran i cmd s' s₁ b) {active : ActiveExecution}
    (hactive : s.executions[x]? = some active) :
    s.publishes x a = t.link.publishes x active.snapshotTask := by
  obtain ⟨hi, ⟨inp, rfl, rfl⟩ | ⟨rfl, rfl⟩⟩ := hruns
  · simp only [Server.publishes, hi, hactive]
  · have hpost : ∀ (Q : Server → Thread → List Thread → Prop), t.drop.Post s Q →
        Q s₁ (t.drop.resume b).1 (t.drop.resume b).2 := fun Q hp => hran.post hp
    show none = _
    cases hl : t.link with
    | publishing y item task pc =>
        obtain ⟨d, rfl, _⟩ | ⟨call, pc', rfl⟩ := Thread.publishing hl
        · exact (hpost (fun _ _ _ => False) Cmd.post_halt).elim
        · exact (hpost (fun _ _ _ => False) Cmd.post_halt).elim
    | _ => rfl

/-! ## the driver that is done -/

/-- A driver that holds nothing is done. -/
theorem Driver.done_of_holds {d : Driver} (hd : (Thread.drive d).holds = none) : d.pc = .done := by
  obtain ⟨taskId, y, ctx, current, stream, answered, tracked, pc⟩ := d
  cases pc <;> first | rfl | contradiction

theorem Server.Finished.step {i : Nat} {cmd : Cmd} {b : cmd.β} (hf : s.Finished x)
    (hlt : x < s.executions.length) (hruns : s.runs h a i t cmd) (hran : s.Ran i cmd s' s₁ b) :
    s'.Finished x := by
  intro t' ht' hown
  obtain ⟨k, hk⟩ := List.mem_iff_getElem?.mp ht'
  obtain ⟨hx, _⟩ | ⟨o, u, hu, hown', hk'⟩ := hran.owner hruns hk hown
  · rw [hx] at hlt
    exact absurd hlt (Nat.lt_irrefl _)
  · have hholds := hf u (List.mem_of_getElem? hu) hown'
    by_cases hoi : o = i
    · -- its driver takes no step
      subst hoi
      obtain rfl := Option.some.inj (hruns.1.symm.trans hu)
      cases t with
      | send call pc => cases pc <;> contradiction
      | drive d =>
          obtain ⟨inp, _, rfl⟩ := hruns.next hran rfl
          have hpost : (d.next inp).Post s fun _ _ _ => False := by
            simp only [Driver.next, Driver.done_of_holds hholds]
            exact Cmd.post_halt
          exact (hran.post hpost).elim
      | _ => cases hown'
    · rw [if_neg fun hand => hoi hand.1] at hk'
      subst hk'
      rw [hran.getElem_other hoi hu] at hk
      obtain rfl := Option.some.inj hk
      exact hholds

/-! ## a step at the channel -/

section Step

variable {i : Nat} {cmd : Cmd} {b : cmd.β}

/-- The channel after a step, from what the step made of each part. -/
theorem Channel.of_parts (hc : Channel x s f) (hruns : s.runs h a i t cmd)
    (hran : s.Ran i cmd s' s₁ b) (hok : f'.Ok) (hlog : Publications f'.start f'.log)
    (hactive : ∃ active, s₁.executions[x]? = some active ∧ active.snapshotTask = f'.last ∧
      active.sequence = f'.log.length ∧ active.sent = f'.sent.map toEvent)
    (hself : (cmd.resume b).1.Fits x f')
    (hothers : ∀ k u, k ≠ i → s.threads[k]? = some u → u.Fits x f')
    (hnew : ∀ u ∈ (cmd.resume b).2, u.Fits x f')
    (howner : (cmd.resume b).1.link.delivers = some x → (cmd.resume b).1.owns = some x)
    (hpending : f'.pending = true → ∃ u ∈ s'.threads, u.link.delivers = some x)
    (hhanded : ∀ (w : WaiterId) (value : Resubscription) (receiver : Receiver),
      s₁.oneshots[w]? = some (.full value) → value.receiver = some receiver → receiver.exec = x →
        f'.Synced receiver.next value.sequence ∧
          value.snapshotTask = f'.snapshotAt value.sequence)
    (hended : ∀ resumed sub, (cmd.resume b).1.link = .ended resumed sub →
      sub.receiver.map (·.exec) = some x → sub.done = false → s.Finished x) :
    Channel x s' f' := by
  have hexec : s'.executions = s₁.executions := by rw [hran.eq]
  have hone : s'.oneshots = s₁.oneshots := by rw [hran.eq]
  obtain ⟨_, hidle⟩ := hran.post hruns.link
  have hlt : x < s.executions.length := by
    obtain ⟨active, hactive, _⟩ := hc.active
    exact (List.getElem?_eq_some_iff.mp hactive).1
  refine ⟨hok, hlog, hexec ▸ hactive, fun u hu => ?_, fun u hu hdel => ?_, hpending,
    hone ▸ hhanded, fun u hu resumed sub hl hx hlive => ?_⟩
  · obtain ⟨k, hk⟩ := List.mem_iff_getElem?.mp hu
    obtain ⟨_, rfl⟩ | ⟨hne, hold⟩ | ⟨_, hmem⟩ := hran.thread_cases hk
    · exact hself
    · exact hothers k u hne hold
    · exact hnew u hmem
  · obtain rfl | hold | hmem := hran.mem_threads hu
    · exact howner hdel
    · exact hc.owner u hold hdel
    · rw [hidle u hmem] at hdel
      contradiction
  · refine Server.Finished.step ?_ hlt hruns hran
    obtain rfl | hold | hmem := hran.mem_threads hu
    · exact hended resumed sub hl hx hlive
    · exact hc.ended u hold resumed sub hl hx hlive
    · rw [hidle u hmem] at hl
      contradiction

/-- What the driver of the channel has published after a step. -/
theorem Channel.stage (hc : Channel x s f) (hruns : s.runs h a i t cmd)
    (hran : s.Ran i cmd s' s₁ b) {d : Driver} (hd : (cmd.resume b).1 = .drive d)
    (hx : d.exec = x) : d.Stage (t.link.after x f) := by
  have hcont := hran.post hruns.continues
  rw [hd] at hcont
  cases t with
  | drive d₀ =>
      obtain ⟨_, hexec, _⟩ := hcont
      have hx₀ : d₀.exec = x := hexec.symm.trans hx
      have hfits := hc.threads _ (List.mem_of_getElem? hruns.1)
      obtain ⟨inp, _, rfl⟩ := hruns.next hran rfl
      obtain ⟨active, hactive, hsnap, _⟩ := hc.active
      have hlast : ∀ active, s.executions[d₀.exec]? = some active →
          active.snapshotTask = f.last := by
        intro active' hactive'
        rw [hx₀, hactive] at hactive'
        obtain rfl := Option.some.inj hactive'
        exact hsnap
      obtain ⟨d', hd', hstage⟩ := hran.post (Driver.next_stage (hfits.stage d₀ rfl hx₀) hlast inp)
      rw [hd] at hd'
      cases hd'
      rw [hx₀] at hstage
      exact hstage
  | _ => exact hcont.elim

/-- The driver a step spawns has published nothing. -/
theorem Channel.spawned (hc : Channel x s f) (hruns : s.runs h a i t cmd)
    (hran : s.Ran i cmd s' s₁ b) : ∀ u ∈ (cmd.resume b).2, u.Fits x f := by
  intro u hu
  obtain ⟨hlink, hidle⟩ := hran.post hruns.link
  obtain ⟨_, _, call, p, y, rfl, rfl⟩ := (hran.post hruns.continues).spawns hlink hu
  have hfits := hc.threads _ (List.mem_of_getElem? hruns.1)
  refine ⟨?_, fun d hd hx => ?_⟩
  · rw [hidle _ hu]
    trivial
  · obtain rfl := Thread.drive.inj hd
    exact hfits.link hx

/-- An owner that publishes goes on to own its execution. -/
theorem Thread.Continues.still_owns {new : List Thread} (hc : t.Continues t' new)
    (ho : t.owns = some x) {y : ExecId} (hdel : t'.link.delivers = some y) :
    t'.owns = some x := by
  cases t' with
  | drive d' =>
      cases t <;> simp only [Thread.Continues] at hc
      case drive d =>
        rw [Thread.owns, hc.2.1]
        exact ho
  | cancel call' pc' =>
      cases t <;> simp only [Thread.Continues] at hc
      case cancel => contradiction
  | send call' pc' => cases pc' <;> contradiction
  | subscribe call' pc' => cases pc' <;> contradiction
  | dropped => contradiction

/-- What waiters were handed of an execution they were handed before. -/
theorem Server.Calm.handed (hcalm : s.Calm s₁) {w : WaiterId} {value : Resubscription}
    {receiver : Receiver} (hfull : s₁.oneshots[w]? = some (.full value))
    (hreceiver : value.receiver = some receiver) : s.oneshots[w]? = some (.full value) := by
  obtain hnone | hbefore := hcalm.oneshots w value hfull
  · rw [hnone] at hreceiver
    contradiction
  · exact hbefore

/-- A step that does nothing at the channel of `x`. -/
theorem Channel.unchanged (hc : Channel x s f) (hruns : s.runs h a i t cmd)
    (hran : s.Ran i cmd s' s₁ b) (hexec : s₁.executions[x]? = s.executions[x]?)
    (hhanded : ∀ (w : WaiterId) (value : Resubscription) (receiver : Receiver),
      s₁.oneshots[w]? = some (.full value) → value.receiver = some receiver → receiver.exec = x →
        s.oneshots[w]? = some (.full value))
    (hafter : t.link.after x f = f) (hself : (cmd.resume b).1.link.Fits x f)
    (hdel : (cmd.resume b).1.link.delivers = some x ↔ t.link.delivers = some x)
    (hended : ∀ resumed sub, (cmd.resume b).1.link = .ended resumed sub →
      sub.receiver.map (·.exec) = some x → sub.done = false → s.Finished x) :
    Channel x s' f := by
  have hmem := List.mem_of_getElem? hruns.1
  refine hc.of_parts hruns hran hc.ok hc.log (hexec ▸ hc.active) ⟨hself, fun d hd hx => ?_⟩
    (fun k u _ hu => hc.threads u (List.mem_of_getElem? hu)) (hc.spawned hruns hran) (fun hd => ?_)
    (fun hpending => ?_) (fun w value receiver hfull hreceiver hx => ?_) hended
  · exact hafter ▸ hc.stage hruns hran hd hx
  · exact (hran.post hruns.continues).still_owns (hc.owner t hmem (hdel.mp hd)) hd
  · obtain ⟨u, hu, hudel⟩ := hc.pending hpending
    obtain ⟨k, hk⟩ := List.mem_iff_getElem?.mp hu
    by_cases hki : k = i
    · subst hki
      obtain rfl := Option.some.inj (hruns.1.symm.trans hk)
      exact ⟨_, List.mem_of_getElem? (hran.getElem_self hk), hdel.mpr hudel⟩
    · exact ⟨u, List.mem_of_getElem? (hran.getElem_other hki hk), hudel⟩
  · exact hc.handed w value receiver (hhanded w value receiver hfull hreceiver hx) hreceiver hx

/-- A step that leaves all channels calm. -/
theorem Channel.calm (hc : Channel x s f) (hruns : s.runs h a i t cmd)
    (hran : s.Ran i cmd s' s₁ b) (hcalm : s.Calm s₁) (hafter : t.link.after x f = f)
    (hself : (cmd.resume b).1.link.Fits x f)
    (hdel : (cmd.resume b).1.link.delivers = some x ↔ t.link.delivers = some x)
    (hended : ∀ resumed sub, (cmd.resume b).1.link = .ended resumed sub →
      sub.receiver.map (·.exec) = some x → sub.done = false → s.Finished x) :
    Channel x s' f := by
  exact hc.unchanged hruns hran (by rw [hcalm.executions])
    (fun w value receiver hfull hreceiver _ => hcalm.handed hfull hreceiver) hafter hself hdel hended

/-- No other thread owns the execution of the one that acts. -/
theorem Owned.other (ho : Owned s) (hi : s.threads[i]? = some t) (hown : t.owns = some x) {k : Nat}
    {u : Thread} (hne : k ≠ i) (hk : s.threads[k]? = some u) : u.owns ≠ some x :=
  fun hu => hne (ho.unique k i u t x hk hi hu hown)

/-- A thread that does not own an execution has no entry of it to send. -/
theorem Channel.not_delivers (hc : Channel x s f) {u : Thread} (hu : u ∈ s.threads)
    (hown : u.owns ≠ some x) : u.link.delivers ≠ some x := fun hdel => hown (hc.owner u hu hdel)

/-- A thread that is attaching owns its execution. -/
theorem Thread.owns_of_attaching (hl : t.link = .attaching x) : t.owns = some x := by
  cases t with
  | send call pc =>
      cases pc <;> cases hl
      rfl
  | subscribe call pc => cases pc <;> cases hl
  | drive d =>
      simp only [Thread.link, Driver.link] at hl
      split at hl <;> cases hl
  | cancel call pc =>
      simp only [Thread.link, CancelPc.link] at hl
      split at hl
      · split at hl <;> cases hl
      · split at hl <;> cases hl
      · cases hl
  | dropped => cases hl

/-- What the other threads have to do with a channel whose log or receipts
grow. -/
theorem Thread.Fits.other {u : Thread} (hu : u.Fits x f) (hown : u.owns ≠ some x)
    (hdel : u.link.delivers ≠ some x)
    (hreading : ∀ receiver, receiver.exec = x → u.link = .reading receiver →
      f.Synced receiver.next f.log.length → f'.Synced receiver.next f'.log.length)
    (hfollowing : ∀ resumed sub, sub.receiver.map (·.exec) = some x →
      u.link = .following resumed sub → sub.Follows f resumed → sub.Follows f' resumed)
    (hended : ∀ resumed sub, sub.receiver.map (·.exec) = some x →
      u.link = .ended resumed sub → sub.Over f resumed → sub.Over f' resumed) : u.Fits x f' := by
  refine ⟨?_, fun d hd hx => ?_⟩
  · have hfits := hu.link
    generalize hl : u.link = l at hfits hdel
    cases l with
    | idle => trivial
    | registering task => trivial
    | attaching y =>
        rintro rfl
        exact absurd (Thread.owns_of_attaching hl) hown
    | publishing y item task pc =>
        cases pc with
        | write => trivial
        | count sequence =>
            rintro rfl
            exact absurd rfl hdel
        | send sequence =>
            rintro rfl
            exact absurd rfl hdel
    | reading receiver => exact fun hx => hreading receiver hx hl (hfits hx)
    | following resumed sub => exact fun hx => hfollowing resumed sub hx hl (hfits hx)
    | ended resumed sub => exact fun hx => hended resumed sub hx hl (hfits hx)
  · subst hd
    exact absurd (congrArg some hx) hown

/-- The driver of `x` publishes an entry. -/
theorem Channel.publish (hc : Channel x s f) (ho : Owned s) (hruns : s.runs h a i t cmd)
    (hran : s.Ran i cmd s' s₁ b) {d : Driver} (hd : t = .drive d) (hx : d.exec = x) {item : Item}
    {task : Option Task} (hl : t.link = .publishing x item task .write)
    {active : ActiveExecution} (hactive : s.executions[x]? = some active)
    (hexec : s₁.executions = s.executions.modify x fun active => { active with
      snapshotTask := task.getD active.snapshotTask
      sequence := active.sequence + 1 })
    (hone : s₁.oneshots = s.oneshots)
    (hl' : (cmd.resume b).1.link = .publishing x item task (.count (active.sequence + 1))) :
    Channel x s' (f.publish item (task.getD f.last)) := by
  have hmem := List.mem_of_getElem? hruns.1
  have hown : t.owns = some x := by rw [hd, Thread.owns, hx]
  obtain ⟨active', hactive', hsnap, hsequence, hsent⟩ := hc.active
  obtain rfl := Option.some.inj (hactive.symm.trans hactive')
  have hidle : f.pending = false := by
    by_contra hpending
    obtain ⟨u, hu, hudel⟩ := hc.pending (by simpa using hpending)
    obtain ⟨k, hk⟩ := List.mem_iff_getElem?.mp hu
    have hki := ho.unique k i u t x hk hruns.1 (hc.owner u hu hudel) hown
    subst hki
    obtain rfl := Option.some.inj (hruns.1.symm.trans hk)
    rw [hl] at hudel
    contradiction
  -- the driver still has its channel, so no stream of it is over by itself
  have hopen : ¬ s.Finished x := by
    intro hfinished
    have hholds := hfinished t hmem hown
    subst hd
    rw [Thread.link, Driver.link, Driver.done_of_holds hholds] at hl
    contradiction
  have hafter : t.link.after x f = f.publish item (task.getD f.last) := by
    rw [hl]
    simp only [Link.after, Link.publishes, if_pos]
  have hown' : (cmd.resume b).1.owns = some x :=
    (hran.post hruns.continues).still_owns hown (y := x) (by rw [hl']; rfl)
  have hnew : (cmd.resume b).2 = [] :=
    (hran.post hruns.continues).spawns_nothing fun call p y => by rw [hd]; simp
  have hstage (d' : Driver) (hd' : (cmd.resume b).1 = .drive d') (hx' : d'.exec = x) :
      d'.Stage (f.publish item (task.getD f.last)) := hafter ▸ hc.stage hruns hran hd' hx'
  refine hc.of_parts hruns hran (hc.ok.publish _ _) ?_ ?_ ⟨?_, hstage⟩ (fun k u hne hk => ?_)
    (fun u hu => ?_) (fun _ => hown') (fun _ => ?_) (fun w value receiver hfull hreceiver hex => ?_)
    (fun resumed sub hended => ?_)
  · obtain ⟨d', hd', hx'⟩ : ∃ d', (cmd.resume b).1 = .drive d' ∧ d'.exec = x := by
      obtain ⟨d', hd', hx'⟩ | ⟨call, pc', hcancel⟩ := Thread.publishing hl'
      · exact ⟨d', hd', hx'⟩
      · rw [hcancel] at hown'
        contradiction
    exact (hstage d' hd' hx').publications
  · refine ⟨_, by rw [hexec, List.getElem?_modify_eq, hactive]; rfl, ?_, ?_, ?_⟩
    · rw [Feed.last_publish]
      show task.getD active.snapshotTask = _
      rw [hsnap]
    · show active.sequence + 1 = _
      rw [Feed.publish, List.length_append, hsequence]
      rfl
    · exact hsent
  · rw [hl']
    intro _
    refine ⟨rfl, ?_, ?_⟩
    · rw [Feed.publish, List.length_append, hsequence]
      rfl
    · rw [Feed.publish, List.getLast?_concat]
      rfl
  · have humem := List.mem_of_getElem? hk
    have huown := ho.other hruns.1 hown hne hk
    refine (hc.threads u humem).other huown (hc.not_delivers humem huown)
      (fun receiver _ _ hsynced => ?_) (fun resumed sub _ _ hfollows => hfollows.publish hidle)
      (fun resumed sub hex hul hover => ⟨hover.toReading.publish, fun hlive => ?_⟩)
    · refine (hsynced.publish hidle).mono ?_ (Nat.le_refl _)
      rw [Feed.publish, List.length_append]
      omega
    · exact absurd (hc.ended u humem resumed sub hul hex hlive) hopen
  · rw [hnew] at hu
    exact absurd hu List.not_mem_nil
  · exact ⟨_, List.mem_of_getElem? (hran.getElem_self hruns.1), by rw [hl']; rfl⟩
  · rw [hone] at hfull
    obtain ⟨hsynced, hsnapshot⟩ := hc.handed w value receiver hfull hreceiver hex
    refine ⟨hsynced.publish hidle, ?_⟩
    rw [Feed.snapshotAt_publish hsynced.2.1]
    exact hsnapshot
  · rw [hl'] at hended
    contradiction

/-- The driver of `x` is done with an entry: it was sent, or there is nobody to
receive it. -/
theorem Channel.settle (hc : Channel x s f) (ho : Owned s) (hruns : s.runs h a i t cmd)
    (hran : s.Ran i cmd s' s₁ b) (hdel : t.link.delivers = some x)
    (hrest : (cmd.resume b).1.link.Resting) (hpublishes : t.link.publishes x f.last = none)
    (hstart : f'.start = f.start) (hlog : f'.log = f.log) (hidle : f'.pending = false)
    (hok : f'.Ok)
    (hhanded : ∀ (w : WaiterId) (value : Resubscription) (receiver : Receiver),
      s₁.oneshots[w]? = some (.full value) → value.receiver = some receiver →
        s.oneshots[w]? = some (.full value))
    (hsent : ∀ active, s.executions[x]? = some active → active.sent = f.sent.map toEvent →
      ∃ active', s₁.executions[x]? = some active' ∧ active'.snapshotTask = active.snapshotTask ∧
        active'.sequence = active.sequence ∧ active'.sent = f'.sent.map toEvent)
    (hsynced : s.listening x = true → ∀ next min, f.Synced next min → f'.Synced next min) :
    Channel x s' f' := by
  have hmem := List.mem_of_getElem? hruns.1
  have hown := hc.owner t hmem hdel
  have hsnapshot (k : Nat) : f'.snapshotAt k = f.snapshotAt k := by
    cases k with
    | zero => exact hstart
    | succ k => rw [Feed.snapshotAt, Feed.snapshotAt, hstart, hlog]
  have hreceived (u : Thread) (hu : u ∈ s.threads) (receiver : Receiver)
      (hul : u.link.receiver = some receiver) (hx : receiver.exec = x) :
      s.listening x = true := by
    by_contra hnone
    exact Server.listening_false (by simpa using hnone) hu hul hx
  have hafter : t.link.after x f = f := by rw [Link.after, hpublishes]
  have hstage (d' : Driver) (hd' : (cmd.resume b).1 = .drive d') (hx' : d'.exec = x) :
      d'.Stage f' := Driver.Stage.of_log (hafter ▸ hc.stage hruns hran hd' hx') hstart hlog
  refine hc.of_parts hruns hran hok (by rw [hstart, hlog]; exact hc.log) ?_ ⟨hrest.fits, hstage⟩
    (fun k u hne hk => ?_) (fun u hu => ?_) (fun hdel' => ?_) (fun hpending => ?_)
    (fun w value receiver hfull hreceiver hex => ?_) (fun resumed sub hended => ?_)
  · obtain ⟨active, hactive, hsnap, hsequence, hactiveSent⟩ := hc.active
    obtain ⟨active', hactive', hsnap', hsequence', hsent'⟩ := hsent active hactive hactiveSent
    refine ⟨active', hactive', ?_, ?_, hsent'⟩
    · rw [hsnap', hsnap, Feed.last, Feed.last, hsnapshot, hlog]
    · rw [hsequence', hsequence, hlog]
  · have humem := List.mem_of_getElem? hk
    have huown := ho.other hruns.1 hown hne hk
    refine (hc.threads u humem).other huown (hc.not_delivers humem huown)
      (fun receiver hex hul h => ?_) (fun resumed sub hex hul hfollows => ?_)
      (fun resumed sub _ _ hover => ⟨hover.toReading.of_log hstart hlog, ?_⟩)
    · rw [hlog]
      exact hsynced (hreceived u humem receiver (by rw [hul]; rfl) hex) _ _ h
    · refine ⟨hfollows.toReading.of_log hstart hlog, fun receiver hreceiver hlive => ?_⟩
      have hexec : receiver.exec = x := by
        rw [hreceiver] at hex
        exact Option.some.inj hex
      exact hsynced (hreceived u humem receiver (by rw [hul]; exact hreceiver) hexec) _ _
        (hfollows.synced receiver hreceiver hlive)
    · rw [hlog]
      exact hover.caughtUp
  · obtain ⟨_, _, call, p, y, rfl, _⟩ := (hran.post hruns.continues).spawns
      (hran.post hruns.link).1 hu
    contradiction
  · rw [hrest.delivers] at hdel'
    contradiction
  · rw [hidle] at hpending
    contradiction
  · have hfull := hhanded w value receiver hfull hreceiver
    obtain ⟨h, hvalue⟩ := hc.handed w value receiver hfull hreceiver hex
    refine ⟨?_, by rw [hsnapshot]; exact hvalue⟩
    have hlisten : s.listening x = true := by
      by_contra hnone
      exact Server.unhanded_of_listening (by simpa using hnone) hfull hreceiver hex
    exact hsynced hlisten _ _ h
  · rw [hended] at hrest
    exact hrest.elim

/-- The channel of an execution stays open while its owner is not done. -/
theorem Server.finished_of_closed (hlt : x < s.executions.length)
    (hclosed : s.channelClosed x = true) : s.Finished x := by
  intro u hu hown
  rw [channelClosed, List.getElem?_eq_getElem hlt] at hclosed
  simp only [Bool.and_eq_true, Bool.not_eq_true', List.any_eq_false] at hclosed
  have hholds := hclosed.2 u hu
  cases u with
  | send call pc =>
      cases pc <;> try contradiction
      obtain rfl := Option.some.inj hown
      simp [Thread.holds] at hholds
  | drive d =>
      obtain rfl := Option.some.inj hown
      obtain ⟨taskId, y, ctx, current, stream, answered, tracked, pc⟩ := d
      cases pc <;> first | rfl | simp [Thread.holds] at hholds
  | _ => contradiction

/-- A thread that publishes on its execution is not done. -/
theorem Channel.not_finished (hc : Channel x s f) {u : Thread} (hu : u ∈ s.threads)
    (hdel : u.link.delivers = some x) : ¬ s.Finished x := by
  intro hfinished
  have hown := hc.owner u hu hdel
  have hholds := hfinished u hu hown
  cases u with
  | send call pc => cases pc <;> contradiction
  | drive d =>
      rw [Thread.link, Driver.link, Driver.done_of_holds hholds] at hdel
      contradiction
  | _ => contradiction

/-- **A step at a channel**: it grows by what the step publishes. -/
theorem Channel.ran (hc : Channel x s f) (ho : Owned s) (hg : OnlyDriver x s a)
    (hruns : s.runs h a i t cmd) (hran : s.Ran i cmd s' s₁ b) :
    ∃ f', Channel x s' f' ∧ f'.start = f.start ∧ f'.log = f.log ++ (s.publishes x a).toList := by
  obtain ⟨active, hactive, hsnap, hsequence, hsent⟩ := hc.active
  have hmem := List.mem_of_getElem? hruns.1
  have hlt : x < s.executions.length := (List.getElem?_eq_some_iff.mp hactive).1
  have hpublishes := hruns.publishes hran hactive
  rw [hsnap] at hpublishes
  have hfits := (hc.threads t hmem).link
  obtain ⟨hlink, _⟩ := hran.post hruns.link
  have hunique {other : ActiveExecution} (hother : s.executions[x]? = some other) :
      other = active := Option.some.inj (hother.symm.trans hactive)
  -- a step that publishes nothing, and leaves the feed as it is
  have hsame (hnone : t.link.publishes x f.last = none) (hc' : Channel x s' f) :
      ∃ f', Channel x s' f' ∧ f'.start = f.start ∧ f'.log = f.log ++ (s.publishes x a).toList := by
    refine ⟨f, hc', rfl, ?_⟩
    rw [hpublishes, hnone, Option.toList_none, List.append_nil]
  have hafter (hnone : t.link.publishes x f.last = none) : t.link.after x f = f := by
    rw [Link.after, hnone]
  generalize hl : t.link = l at hlink hfits
  generalize hl' : (cmd.resume b).1.link = l' at hlink
  have hcalmly (hcalm : s.Calm s₁) (hquiet : l.quiet = true) (hfits' : l'.Fits x f)
      (hdel' : l'.delivers = none) (hended : ∀ resumed sub, l' = .ended resumed sub →
        sub.receiver.map (·.exec) = some x → sub.done = false → s.Finished x) :
      ∃ f', Channel x s' f' ∧ f'.start = f.start ∧ f'.log = f.log ++ (s.publishes x a).toList := by
    have hnone : t.link.publishes x f.last = none := by
      rw [hl]
      cases l <;> first | rfl | contradiction
    have hdel : l.delivers = none := by cases l <;> first | rfl | contradiction
    refine hsame hnone (hc.calm hruns hran hcalm (hafter hnone) (hl' ▸ hfits') ?_ (hl' ▸ hended))
    rw [hl', hl, hdel', hdel]
  cases hlink with
  | rest hquiet hrest hcalm =>
      refine hcalmly hcalm hquiet hrest.fits hrest.delivers fun resumed sub hended => ?_
      rw [hended] at hrest
      exact hrest.elim
  | start hfree hexec hone =>
      have hnone : t.link.publishes x f.last = none := by rw [hl]; rfl
      refine hsame hnone (hc.unchanged hruns hran ?_ (fun w value receiver hfull hreceiver hx => ?_)
        (hafter hnone) ?_ ?_ fun resumed sub hended => ?_)
      · rw [hexec, List.getElem?_append_left hlt]
      · obtain rfl | hbefore := hone w value hfull
        · obtain rfl := Option.some.inj hreceiver
          rw [← hx] at hlt
          exact absurd hlt (Nat.lt_irrefl _)
        · exact hbefore
      · rw [hl']
        rintro rfl
        exact absurd hlt (Nat.lt_irrefl _)
      · rw [hl', hl]
        exact Iff.rfl
      · rw [hl'] at hended
        contradiction
  | attach h hcalm =>
      refine hcalmly hcalm rfl (fun hx => ?_) rfl fun _ _ hended => by contradiction
      obtain rfl := Option.some.inj hx
      have hlog := (hfits rfl).1
      refine Subscription.follows_ofReceiver ?_
      have hlisten := Feed.Synced.listen f
      rw [hlog, List.length_nil] at hlisten
      rw [hunique h, hsent, List.length_map]
      exact hlisten
  | listen h hcalm =>
      refine hcalmly hcalm rfl (fun hx => ?_) rfl fun _ _ hended => by contradiction
      obtain rfl := hx
      rw [hunique h, hsent, List.length_map]
      exact Feed.Synced.listen f
  | read h hcalm =>
      refine hcalmly hcalm rfl (fun hx => ?_) rfl fun _ _ hended => by contradiction
      obtain rfl := Option.some.inj hx
      rw [hunique h, hsnap, hsequence]
      exact Subscription.follows_ofResubscription (hfits rfl)
  | @take w value hfull hcalm =>
      refine hcalmly hcalm rfl (fun hx => ?_) rfl fun _ _ hended => by contradiction
      obtain ⟨receiver, hreceiver, hx⟩ := Option.map_eq_some_iff.mp hx
      obtain ⟨hsynced, hsnapshot⟩ := hc.handed w value receiver hfull hreceiver hx
      obtain ⟨receiver', task, sequence⟩ := value
      obtain rfl : receiver' = some receiver := hreceiver
      obtain rfl : task = f.snapshotAt sequence := hsnapshot
      exact Subscription.follows_ofResubscription hsynced
  | poll hpolls _ hcalm =>
      refine hcalmly hcalm rfl (fun hx => ?_) rfl fun _ _ hended => by contradiction
      rw [hpolls.receiver] at hx
      refine (hfits hx).polls hc.ok hpolls fun receiver other hreceiver hother => ?_
      rw [hreceiver] at hx
      obtain rfl := Option.some.inj hx
      rw [hunique hother]
      exact hsent
  | @ends resumed sub sub' hpolls hcalm =>
      -- the stream is over, and if its channel is, then so is the driver
      have hover (hx : sub'.receiver.map (·.exec) = some x) :
          sub'.Over f resumed ∧ (sub'.done = false → s.Finished x) := by
        rw [hpolls.receiver] at hx
        obtain ⟨receiver, hreceiver, rfl⟩ := Option.map_eq_some_iff.mp hx
        obtain ⟨rfl, hover, hclosed⟩ := (hfits hx).ends hpolls hreceiver
          (fun other hother => by rw [hunique hother]; exact hsent) fun hclosed => by
            by_contra hpending
            obtain ⟨u, hu, hdel⟩ := hc.pending (by simpa using hpending)
            exact hc.not_finished hu hdel (Server.finished_of_closed hlt hclosed)
        exact ⟨hover, fun hlive => Server.finished_of_closed hlt (hclosed hlive)⟩
      refine hcalmly hcalm rfl (fun hx => (hover hx).1) rfl fun resumed' sub₂ hended hx hlive => ?_
      obtain ⟨rfl, rfl⟩ := Link.ended.inj hended
      exact (hover hx).2 hlive
  | @publish y item task other h hexec hone =>
      by_cases hyx : y = x
      · subst hyx
        obtain rfl := hunique h
        have hsome : t.link.publishes y f.last = some (item, task.getD f.last) := by
          rw [hl]
          exact if_pos rfl
        obtain ⟨d, hd, hx⟩ | ⟨call, pc, rfl⟩ := Thread.publishing hl
        · refine ⟨_, hc.publish ho hruns hran hd hx hl h hexec hone hl', rfl, ?_⟩
          rw [hpublishes, hsome]
          rfl
        · obtain ⟨inp, ha, _⟩ := hruns.next hran rfl
          have hnone := hg i inp call pc ha hruns.1
          rw [hpublishes, hsome] at hnone
          contradiction
      · have hnone : t.link.publishes x f.last = none := by
          rw [hl]
          exact if_neg hyx
        refine hsame hnone (hc.unchanged hruns hran ?_ (fun _ _ _ hfull _ _ => hone ▸ hfull)
          (hafter hnone) ?_ ?_ fun resumed sub hended => ?_)
        · rw [hexec, List.getElem?_modify_ne _ _ hyx]
        · rw [hl']
          exact fun hx => absurd hx hyx
        · rw [hl', hl]
          simp [Link.delivers, hyx]
        · rw [hl'] at hended
          contradiction
  | heard hheard hcalm =>
      have hnone : t.link.publishes x f.last = none := by rw [hl]; rfl
      refine hsame hnone (hc.calm hruns hran hcalm (hafter hnone) (hl' ▸ hfits) ?_ ?_)
      · rw [hl', hl]
        exact Iff.rfl
      · intro resumed sub hended
        rw [hl'] at hended
        contradiction
  | @unheard y item task sequence _ hheard hcalm hrest =>
      have hnone : t.link.publishes x f.last = none := by rw [hl]; rfl
      by_cases hyx : y = x
      · subst hyx
        refine ⟨f.drop, hc.settle ho hruns hran (by rw [hl]; rfl) (hl' ▸ hrest) hnone rfl rfl rfl
          hc.ok.drop ?_ (fun other hother hsent' => ?_) (fun hlisten => ?_), rfl, ?_⟩
        · exact fun _ _ _ hfull hreceiver => hcalm.handed hfull hreceiver
        · exact ⟨other, by rw [hcalm.executions]; exact hother, rfl, rfl, hsent'⟩
        · rw [hheard] at hlisten
          contradiction
        · rw [hpublishes, hnone, Option.toList_none, List.append_nil]
          rfl
      · refine hsame hnone (hc.calm hruns hran hcalm (hafter hnone) (hl' ▸ hrest.fits) ?_ ?_)
        · rw [hl', hl, hrest.delivers]
          show none = some x ↔ some y = some x
          simp [hyx]
        · intro resumed sub hended
          rw [hl'] at hended
          rw [hended] at hrest
          exact hrest.elim
  | @send y item task sequence _ hexec hone hrest =>
      have hnone : t.link.publishes x f.last = none := by rw [hl]; rfl
      by_cases hyx : y = x
      · subst hyx
        obtain ⟨hpending, hnumber, hentry⟩ := hfits rfl
        refine ⟨if s.listening y then f.send item else f.drop, ?_, by split <;> rfl, ?_⟩
        · refine hc.settle ho hruns hran (by rw [hl]; rfl) (hl' ▸ hrest) hnone (by split <;> rfl)
            (by split <;> rfl) (by split <;> rfl) ?_ (fun _ _ _ hfull _ => hone ▸ hfull)
            (fun other hother hsent' => ?_) (fun hlisten _ _ hsynced => ?_)
          · split
            · exact hc.ok.send hentry
            · exact hc.ok.drop
          · rw [hexec]
            split
            · refine ⟨{ other with sent := other.sent ++ [⟨sequence, item⟩] },
                by rw [List.getElem?_modify_eq, hother]; rfl, rfl, rfl, ?_⟩
              show other.sent ++ _ = (f.send item).sent.map toEvent
              rw [hsent', Feed.send, List.map_append, hnumber]
              rfl
            · exact ⟨other, hother, rfl, rfl, hsent'⟩
          · rw [if_pos hlisten]
            exact hsynced.send hc.ok hpending
        · rw [hpublishes, hnone, Option.toList_none, List.append_nil]
          split <;> rfl
      · refine hsame hnone (hc.unchanged hruns hran ?_ (fun _ _ _ hfull _ _ => hone ▸ hfull)
          (hafter hnone) (hl' ▸ hrest.fits) ?_ fun resumed sub hended => ?_)
        · rw [hexec]
          split
          · rw [List.getElem?_modify_ne _ _ hyx]
          · rfl
        · rw [hl', hl, hrest.delivers]
          show none = some x ↔ some y = some x
          simp [hyx]
        · rw [hl'] at hended
          rw [hended] at hrest
          exact hrest.elim

end Step

end A2a
