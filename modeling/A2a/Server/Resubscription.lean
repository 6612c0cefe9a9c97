import A2a.Server.Channel

/-!
# A2a.Server.Resubscription

What a resubscriber receives, in every run.

`Tracked` follows one execution through a run: before it is started nothing
knows it, and from then on it has a `Channel` that holds what the run
published on it.  `resubscription_exact` reads off what every stream of a
resubscriber has yielded; `lateFailure` is a run in which the snapshot it
opens with is no task that events made.
-/

namespace A2a

/-- A run up to `s`, as the execution `x` sees it. -/
structure Tracked (h : Handler) (x : ExecId) (tr : List (Server × Action)) (s : Server) :
    Prop where
  stored : Stored h tr s
  owned : Owned s
  started : Started s
  loaded : Loaded s
  before : s.executions.length ≤ x → published x tr = [] ∧ startedOn x tr = none
  channel : x < s.executions.length →
    ∃ f, startedOn x tr = some f.start ∧ f.log = published x tr ∧ Channel x s f

variable {h : Handler} {s s' s₁ : Server} {a : Action} {x : ExecId} {f : Feed Item Task}
  {t : Thread} {tr : List (Server × Action)}

/-! ## the run -/

theorem published_snoc :
    published x (tr ++ [(s, a)]) = published x tr ++ (s.publishes x a).toList := by
  rw [published, published, List.filterMap_append]
  cases hp : s.publishes x a <;> simp [hp]

theorem startedOn_snoc : startedOn x (tr ++ [(s, a)]) =
    (startedOn x tr).or (if s.executions.length = x then s.registers a else none) := by
  rw [startedOn, startedOn, List.findSome?_append]
  congr 1
  simp only [List.findSome?_cons, List.findSome?_nil]
  split <;> simp_all

/-- A call that arrives is at no channel. -/
theorem Channel.call (hc : Channel x s f) (request : Request) :
    Channel x { s with threads := s.threads ++ [request.thread] } f := by
  have hidle : request.thread.link = .idle := by cases request <;> rfl
  have hnew {u : Thread} (hu : u ∈ s.threads ++ [request.thread]) (hne : u.link ≠ .idle) :
      u ∈ s.threads := by
    obtain hu | hu := List.mem_append.mp hu
    · exact hu
    · obtain rfl := List.mem_singleton.mp hu
      exact absurd hidle hne
  refine ⟨hc.ok, hc.log, hc.active, fun u hu => ?_, fun u hu hdel => ?_, fun hpending => ?_,
    hc.handed, fun u hu resumed sub hl hx hlive => ?_⟩
  · obtain hu | hu := List.mem_append.mp hu
    · exact hc.threads u hu
    · obtain rfl := List.mem_singleton.mp hu
      refine ⟨by rw [hidle]; trivial, fun d hd _ => ?_⟩
      cases request <;> contradiction
  · exact hc.owner u (hnew hu (by rintro hnone; rw [hnone] at hdel; contradiction)) hdel
  · obtain ⟨u, hu, hdel⟩ := hc.pending hpending
    exact ⟨u, List.mem_append_left _ hu, hdel⟩
  · have hfinished := hc.ended u (hnew hu (by rw [hl]; simp)) resumed sub hl hx hlive
    intro v hv hown
    obtain hv | hv := List.mem_append.mp hv
    · exact hfinished v hv hown
    · obtain rfl := List.mem_singleton.mp hv
      cases request <;> contradiction

/-- A link that is at another channel, or at none, fits. -/
theorem Link.fits_of_on {l : Link} (hon : l.on ≠ some x) : l.Fits x f := by
  cases l with
  | idle => trivial
  | registering task => trivial
  | attaching y => exact fun hx => absurd (congrArg some hx) hon
  | publishing y item task pc =>
      cases pc with
      | write => trivial
      | count sequence => exact fun hx => absurd (congrArg some hx) hon
      | send sequence => exact fun hx => absurd (congrArg some hx) hon
  | reading receiver => exact fun hx => absurd (congrArg some hx) hon
  | following resumed sub => exact fun hx => absurd hx hon
  | ended resumed sub => exact fun hx => absurd hx hon

theorem Link.on_of_delivers {l : Link} (hdel : l.delivers = some x) : l.on = some x := by
  cases l with
  | publishing y item task pc =>
      cases pc with
      | write => contradiction
      | count sequence => exact hdel
      | send sequence => exact hdel
  | _ => contradiction

section Begin

variable {i : Nat} {cmd : Cmd} {b : cmd.β}

/-- An execution registers the task it then begins on. -/
theorem Server.runs.registers (hruns : s.runs h a i t cmd) (hran : s.Ran i cmd s' s₁ b) {task : Task}
    (hl : t.link = .registering task) (hfree : s.manager.executions task.id = none) :
    s.registers a = some task ∧
      ∃ call prepared, t = .send call (.start prepared) ∧ prepared.task = task := by
  cases t with
  | send call pc =>
      cases pc <;> simp only [Thread.link, reduceCtorEq, Link.registering.injEq] at hl
      case start prepared =>
        subst hl
        obtain ⟨inp, rfl, _⟩ := hruns.next hran rfl
        simp only [Server.registers, hruns.1, hfree, if_pos]
        exact ⟨trivial, call, prepared, rfl, rfl⟩
  | subscribe call pc => cases pc <;> cases hl
  | drive d =>
      simp only [Thread.link, Driver.link] at hl
      split at hl <;> cases hl
  | cancel call pc =>
      simp only [Thread.link, CancelPc.link] at hl
      split at hl
      · split at hl <;> cases hl
      · split at hl <;> cases hl
      · cases hl
  | dropped => cases hl

/-- A registration adds an execution. -/
theorem Server.runs.length_of_registers (hruns : s.runs h a i t cmd)
    (hran : s.Ran i cmd s' s₁ b) {task : Task} (hreg : s.registers a = some task) :
    s'.executions.length = s.executions.length + 1 := by
  obtain ⟨hi, ⟨inp, rfl, rfl⟩ | ⟨rfl, rfl⟩⟩ := hruns
  · simp only [Server.registers, hi] at hreg
    split at hreg
    · next call prepared ht =>
        obtain rfl := Option.some.inj ht
        split at hreg
        · next hfree =>
            rw [hran.executions]
            simp [Thread.next, SendCall.next, Op.andThen, Op.executionsAfter, hfree]
        · contradiction
    · contradiction
  · contradiction

/-- A step that adds an execution registers it. -/
theorem Link.Step.starts {l l' : Link} (hl : Link.Step s s₁ l l')
    (hlt : s.executions.length < s₁.executions.length) :
    ∃ task, l = .registering task ∧ l' = .attaching s.executions.length ∧
      s.manager.executions task.id = none ∧ s₁.executions = s.executions ++ [.new task] ∧
      ∀ (w : WaiterId) (value : Resubscription), s₁.oneshots[w]? = some (Oneshot.full value) →
        value = ⟨some ⟨s.executions.length, 0⟩, task, 0⟩ ∨
          s.oneshots[w]? = some (Oneshot.full value) := by
  have hcalm (h : s.Calm s₁) : False := by
    rw [h.executions] at hlt
    exact Nat.lt_irrefl _ hlt
  cases hl with
  | start hfree hexec hone => exact ⟨_, rfl, rfl, hfree, hexec, hone⟩
  | publish _ hexec => simp [hexec] at hlt
  | send hexec =>
      rw [hexec] at hlt
      split at hlt <;> simp at hlt
  | rest _ _ h => exact (hcalm h).elim
  | attach _ h => exact (hcalm h).elim
  | listen _ h => exact (hcalm h).elim
  | read _ h => exact (hcalm h).elim
  | take _ h => exact (hcalm h).elim
  | poll _ _ h => exact (hcalm h).elim
  | ends _ h => exact (hcalm h).elim
  | heard _ h => exact (hcalm h).elim
  | unheard _ h => exact (hcalm h).elim

/-- An execution that has just been started. -/
theorem Channel.begin (hs : Started s) (ho : Owned s) (hruns : s.runs h a i t cmd)
    (hran : s.Ran i cmd s' s₁ b) {task : Task} (hlive : task.isTerminal = false)
    (hstamped : task.Stamped) (hl : t.link = .registering task)
    (hl' : (cmd.resume b).1.link = .attaching s.executions.length)
    (hexec : s₁.executions = s.executions ++ [.new task])
    (hone : ∀ (w : WaiterId) (value : Resubscription), s₁.oneshots[w]? = some (Oneshot.full value) →
      value = ⟨some ⟨s.executions.length, 0⟩, task, 0⟩ ∨
        s.oneshots[w]? = some (Oneshot.full value)) :
    Channel s.executions.length s' (.fresh task) := by
  have hdriven : Driven task [] task := .nil hlive hstamped
  have hnew : (cmd.resume b).2 = [] := by
    refine (hran.post hruns.continues).spawns_nothing fun call p y hsend => ?_
    rw [hsend] at hl
    contradiction
  -- nothing else knows the execution yet
  have hold {u : Thread} (hu : u ∈ s'.threads) :
      u = (cmd.resume b).1 ∨ (u ∈ s.threads ∧ u.link.on ≠ some s.executions.length) := by
    obtain rfl | hu | hu := hran.mem_threads hu
    · exact .inl rfl
    · exact .inr ⟨hu, fun hon => absurd (hs.links u hu _ hon) (Nat.lt_irrefl _)⟩
    · rw [hnew] at hu
      exact absurd hu List.not_mem_nil
  have hself : ∀ d, (cmd.resume b).1 ≠ .drive d := by
    intro d hd
    rw [hd, Thread.link, Driver.link] at hl'
    split at hl' <;> cases hl'
  refine ⟨.fresh task, .live hdriven, ⟨.new task, ?_, rfl, rfl, rfl⟩, fun u hu => ?_,
    fun u hu hdel => ?_, fun hpending => by contradiction,
    fun w value receiver hfull hreceiver hx => ?_, fun u hu resumed sub hended hx _ => ?_⟩
  · rw [hran.eq]
    simp [hexec]
  · obtain rfl | ⟨hu, hon⟩ := hold hu
    · refine ⟨?_, fun d hd => absurd hd (hself d)⟩
      rw [hl']
      exact fun _ => ⟨rfl, hdriven⟩
    · refine ⟨Link.fits_of_on hon, fun d hd hx => ?_⟩
      obtain ⟨k, hk⟩ := List.mem_iff_getElem?.mp hu
      have hlt := ho.started k u _ hk (by rw [hd]; exact congrArg some hx)
      exact absurd hlt (Nat.lt_irrefl _)
  · obtain rfl | ⟨hu, hon⟩ := hold hu
    · rw [hl'] at hdel
      contradiction
    · exact absurd (Link.on_of_delivers hdel) hon
  · rw [hran.eq] at hfull
    obtain rfl | hbefore := hone w value hfull
    · obtain rfl := Option.some.inj hreceiver
      exact ⟨Feed.Synced.listen _, rfl⟩
    · have hlt := hs.handed w value hbefore receiver hreceiver
      rw [hx] at hlt
      exact absurd hlt (Nat.lt_irrefl _)
  · obtain rfl | ⟨hu, hon⟩ := hold hu
    · rw [hl'] at hended
      contradiction
    · rw [hended] at hon
      exact absurd hx hon

end Begin

theorem Tracked.step (hi : Tracked h x tr s) (hg : OnlyDriver x s a)
    (hs : Server.step h s a = some s') : Tracked h x (tr ++ [(s, a)]) s' := by
  have hstored := hi.stored.step hs
  have howned := hi.owned.step hs
  have hstarted := hi.started.step hs
  have hloaded := hi.loaded.step hs
  obtain ⟨request, rfl, rfl⟩ | ⟨i, t, cmd, s₁, b, hruns, hran⟩ := step_cases hs
  · have hnone : s.registers (.call request) = none := rfl
    have hor : startedOn x (tr ++ [(s, .call request)]) = startedOn x tr := by
      rw [startedOn_snoc, hnone, ite_self, Option.or_none]
    have hsame : published x (tr ++ [(s, .call request)]) = published x tr := by
      rw [published_snoc]
      exact List.append_nil _
    refine ⟨hstored, howned, hstarted, hloaded, fun hlt => ?_, fun hlt => ?_⟩
    · rw [hor, hsame]
      exact hi.before hlt
    · obtain ⟨f, hstart, hlog, hc⟩ := hi.channel hlt
      exact ⟨f, by rw [hor]; exact hstart, by rw [hsame]; exact hlog, hc.call request⟩
  · by_cases hlt : x < s.executions.length
    · obtain ⟨f, hstart, hlog, hc⟩ := hi.channel hlt
      obtain ⟨f', hc', hstart', hlog'⟩ := hc.ran hi.owned hg hruns hran
      have hle := (hran.post hruns.link).1.length_le
      have hexec : s'.executions = s₁.executions := by rw [hran.eq]
      refine ⟨hstored, howned, hstarted, hloaded, fun hge => ?_, fun _ => ⟨f', ?_, ?_, hc'⟩⟩
      · rw [hexec] at hge
        exact absurd hlt (Nat.not_lt.mpr (Nat.le_trans hle hge))
      · rw [startedOn_snoc, if_neg (Nat.ne_of_gt hlt), Option.or_none, hstart']
        exact hstart
      · rw [published_snoc, hlog', hlog]
    · have hge : s.executions.length ≤ x := Nat.le_of_not_lt hlt
      obtain ⟨hpublished, hstart⟩ := hi.before hge
      have hnone : s.publishes x a = none := by
        have hactive : s.executions[x]? = none := List.getElem?_eq_none hge
        cases a with
        | step k inp =>
            simp only [Server.publishes, hactive]
            split <;> first | rfl | contradiction
        | _ => rfl
      have hpublished' : published x (tr ++ [(s, a)]) = [] := by
        rw [published_snoc, hpublished, hnone]
        rfl
      have hstart' : startedOn x (tr ++ [(s, a)]) =
          if s.executions.length = x then s.registers a else none := by
        rw [startedOn_snoc, hstart, Option.none_or]
      refine ⟨hstored, howned, hstarted, hloaded, fun hge' => ⟨hpublished', ?_⟩, fun hlt' => ?_⟩
      · rw [hstart']
        split
        · next hx =>
            cases hreg : s.registers a with
            | none => rfl
            | some task =>
                have hlength := hruns.length_of_registers hran hreg
                rw [hx] at hlength
                rw [hlength] at hge'
                exact absurd hge' (Nat.not_succ_le_self _)
        · rfl
      · -- the step that starts the execution
        obtain ⟨hlink, _⟩ := hran.post hruns.link
        have hexec : s'.executions = s₁.executions := by rw [hran.eq]
        obtain ⟨task, hl, hl', hfree, happend, hone⟩ := hlink.starts (by
          rw [← hexec]
          exact Nat.lt_of_le_of_lt hge hlt')
        obtain rfl : x = s.executions.length := by
          rw [hexec, happend, List.length_append, List.length_singleton] at hlt'
          exact Nat.le_antisymm (Nat.le_of_lt_succ hlt') hge
        obtain ⟨hreg, call, prepared, ht, rfl⟩ := hruns.registers hran hl hfree
        have hmem := List.mem_of_getElem? hruns.1
        have hknown := hi.stored.threads t hmem
        rw [ht] at hknown
        obtain ⟨stored, hstored', hstatus⟩ := hknown
        refine ⟨.fresh prepared.task, ?_, hpublished'.symm, .begin hi.started hi.owned hruns hran
          (hi.loaded t hmem _ (by rw [ht]; rfl)) ?_ hl hl' happend hone⟩
        · rw [hstart', if_pos rfl, hreg]
          rfl
        · rw [Task.Stamped, ← hstatus]
          exact hi.stored.stamped stored hstored'

theorem tracked_new (h : Handler) (x : ExecId) (limit : Option Nat)
    (pushConfigStore : Option InMemoryPushConfigStore) (pushSender : Bool) :
    Tracked h x [] (.new (.new limit) pushConfigStore pushSender) where
  stored := stored_new h limit pushConfigStore pushSender
  owned := ⟨fun _ _ _ ht => by contradiction, fun _ _ _ _ _ ht => by contradiction⟩
  started := ⟨fun _ ht => absurd ht List.not_mem_nil, fun _ _ hfull => by contradiction⟩
  loaded _ ht := absurd ht List.not_mem_nil
  before _ := ⟨rfl, rfl⟩
  channel hlt := absurd hlt (Nat.not_lt_zero x)

/-- **Every execution has a channel**, in every run in which only its driver
publishes on it. -/
theorem run_tracked {limit : Option Nat} {pushConfigStore : Option InMemoryPushConfigStore}
    {pushSender : Bool}
    (hr : (serverMachine h).Run (.new (.new limit) pushConfigStore pushSender) tr s)
    (hg : Machine.Guarded (OnlyDriver x) tr) : Tracked h x tr s :=
  hr.guarded (tracked_new h x limit pushConfigStore pushSender)
    (fun _ _ _ _ hi hc hs => hi.step hc hs) hg

/-! ## what was published -/

/-- What items make of a task, one after another. -/
def applyItems (task : Task) (items : List Item) : Except A2AError Task :=
  items.foldlM (fun task item => item.bind (foldEvent task)) task

theorem applyItems_append (task : Task) (items items' : List Item) :
    applyItems task (items ++ items') = (applyItems task items).bind (applyItems · items') := by
  rw [applyItems, List.foldlM_append]
  rfl

theorem applyItems_concat {first task last : Task} {items : List Item} {event : StreamResponse}
    (h : applyItems first items = .ok last) (hfold : foldEvent last event = .ok task) :
    applyItems first (items ++ [.ok event]) = .ok task := by
  rw [applyItems_append, h]
  show (foldEvent last event).bind (applyItems · []) = .ok task
  rw [hfold]
  rfl

/-- What a driven execution published makes its task. -/
theorem Driven.applies {first last : Task} {log : List (Item × Task)} (hd : Driven first log last) :
    applyItems first (log.map (·.1)) = .ok last := by
  induction hd with
  | nil => rfl
  | snoc _ happlies _ ih =>
      rw [List.map_append]
      exact applyItems_concat ih happlies.fold

/-- No item of a driven execution ends a stream. -/
theorem Driven.quiet {first last : Task} {log : List (Item × Task)} (hd : Driven first log last) :
    ∀ p ∈ log, Subscription.endsStream p.1 = false := by
  induction hd with
  | nil => exact fun _ hp => absurd hp List.not_mem_nil
  | snoc _ _ hlive ih =>
      intro p hp
      obtain hp | hp := List.mem_append.mp hp
      · exact ih p hp
      · obtain rfl := List.mem_singleton.mp hp
        exact hlive

theorem Driven.take {first last : Task} {log : List (Item × Task)} (hd : Driven first log last)
    {k : Nat} (hk : k ≤ log.length) : ∃ mid, Driven first (log.take k) mid := by
  induction hd with
  | nil hlive hstamped => exact ⟨first, by rw [List.take_nil]; exact .nil hlive hstamped⟩
  | @snoc log last task event h happlies hlive ih =>
      by_cases hle : k ≤ log.length
      · rw [List.take_append_of_le_length hle]
        exact ih hle
      · rw [List.take_of_length_le (by rw [List.length_append] at hk ⊢; simp at hk ⊢; omega)]
        exact ⟨task, .snoc h happlies hlive⟩

/-- Before its last item an execution is driven. -/
theorem Publications.take {first : Task} {log : List (Item × Task)} (hp : Publications first log)
    {k : Nat} (hk : k < log.length) : ∃ mid, Driven first (log.take k) mid := by
  have hlast {log : List (Item × Task)} {last : Task} {p : Item × Task} (h : Driven first log last)
      (hk : k < (log ++ [p]).length) : ∃ mid, Driven first ((log ++ [p]).take k) mid := by
    rw [List.length_append, List.length_singleton] at hk
    rw [List.take_append_of_le_length (Nat.le_of_lt_succ hk)]
    exact h.take (Nat.le_of_lt_succ hk)
  cases hp with
  | live h => exact h.take (Nat.le_of_lt hk)
  | terminal h => exact hlast h hk
  | failed h => exact hlast h hk

/-- The snapshot before the last item is the task then. -/
theorem Publications.driven (hp : Publications f.start f.log) {k : Nat} (hk : k < f.log.length) :
    Driven f.start (f.log.take k) (f.snapshotAt k) := by
  obtain ⟨mid, hd⟩ := hp.take hk
  have heq : f.snapshotAt k = mid := by
    have hlast := Driven.eq_last (f := { f with log := f.log.take k }) hd
    rw [← hlast, Feed.last]
    show _ = Feed.snapshotAt { f with log := f.log.take k } (f.log.take k).length
    rw [List.length_take, Nat.min_eq_left (Nat.le_of_lt hk)]
    cases k with
    | zero => rfl
    | succ k => rw [Feed.snapshotAt, Feed.snapshotAt, List.getElem?_take_of_lt (Nat.lt_succ_self k)]
  rw [heq]
  exact hd

theorem Feed.last_of_log {task : Task} {log : List (Item × Task)} {item : Item}
    (hlog : f.log = log ++ [(item, task)]) : f.last = task := by
  rw [last, hlog]
  simp [snapshotAt, hlog]

/-- `task` is a snapshot after `items`: what they make of `first`, or, if the
last one is an error, FAILED or what the others make of `first`. -/
inductive SnapshotAfter (first : Task) (items : List Item) (task : Task) : Prop
  | events (h : applyItems first items = .ok task)
  | failure {before : List Item} {error : A2AError} (hitems : items = before ++ [.error error])
      (h : task.status.state = .failed ∨ applyItems first before = .ok task)

/-- Every snapshot of an execution is one after what it published. -/
theorem Publications.snapshotAfter (hp : Publications f.start f.log) {k : Nat}
    (hk : k ≤ f.log.length) :
    SnapshotAfter f.start ((f.log.map (·.1)).take k) (f.snapshotAt k) := by
  rw [← List.map_take]
  by_cases hlt : k < f.log.length
  · exact .events (hp.driven hlt).applies
  · obtain rfl : k = f.log.length := Nat.le_antisymm hk (Nat.le_of_not_lt hlt)
    rw [List.take_length]
    show SnapshotAfter f.start _ f.last
    generalize hlog : f.log = log at hp
    cases hp with
    | live h =>
        rw [Driven.eq_last (hlog ▸ h)]
        exact .events h.applies
    | terminal h happlies hends =>
        rw [Feed.last_of_log hlog, List.map_append]
        exact .events (applyItems_concat h.applies happlies.fold)
    | failed h htask =>
        rw [Feed.last_of_log hlog, List.map_append]
        obtain rfl | hfailed := htask
        · exact .failure rfl (.inr h.applies)
        · exact .failure rfl (.inl hfailed)

/-- Before the last item nothing ends a stream. -/
theorem Publications.quiet (hp : Publications f.start f.log) {k m : Nat} (hm : m < f.log.length) :
    ∀ item ∈ f.between k m, Subscription.endsStream item = false := by
  intro item hitem
  obtain ⟨p, hmem, rfl⟩ := List.mem_map.mp hitem
  exact (hp.driven hm).quiet p (List.mem_of_mem_drop hmem)

/-! ## what a resubscriber receives -/

/-- The stream of a thread that resubscribed. -/
def Thread.resubscription : Thread → Option Subscription
  | .subscribe _ (.streaming _ sub) => some sub
  | .subscribe _ (.ended _ sub) => some sub
  | _ => none

/-- The stream of a thread that resubscribed is over. -/
def Thread.resubscriptionEnded : Thread → Bool
  | .subscribe _ (.ended _ _) => true
  | _ => false

/-- `received` is what a stream of an execution that began on `first` and
published `items` may have yielded: nothing yet, or a snapshot after the first
`k` items and then every item up to the `m`-th, perhaps with the lag error at
the end. -/
structure Resubscribed (first : Task) (items : List Item) (closed : Bool) (received : List Item)
    (snapshot : Task) (k m : Nat) : Prop where
  order : k ≤ m ∧ m ≤ items.length
  after : SnapshotAfter first (items.take k) snapshot
  received : (received = [] ∧ closed = false) ∨
    (received = .ok (.task snapshot) :: (items.take m).drop k ∧ (closed = true → m = items.length)) ∨
      (received = .ok (.task snapshot) :: (items.take m).drop k ++ [.error Subscription.lagError] ∧
        snapshot.isTerminal = false)
  /-- nothing follows a terminal snapshot, a terminal event or an error -/
  terminal : snapshot.isTerminal = true → k = items.length
  last : ∀ item ∈ items.dropLast, Subscription.endsStream item = false
  /-- without an error what was received makes of the snapshot what was
  published makes of the first task -/
  fold : (∀ item ∈ items, ∃ event, item = .ok event) →
    applyItems snapshot ((items.take m).drop k) = applyItems first (items.take m)

/-- The entries of a channel, as items. -/
theorem Feed.between_eq (f : Feed Item Task) (k m : Nat) :
    f.between k m = ((f.log.map (·.1)).take m).drop k := by
  rw [between, List.map_drop, List.map_take]

/-- A terminal snapshot is the last one. -/
theorem Publications.eq_length (hp : Publications f.start f.log) {k : Nat} (hk : k ≤ f.log.length)
    (hterm : (f.snapshotAt k).isTerminal = true) : k = f.log.length := by
  by_contra hne
  rw [(hp.driven (Nat.lt_of_le_of_ne hk hne)).live] at hterm
  contradiction

/-- What a stream that opened with the snapshot after `k` entries and went up
to the `m`-th may have yielded. -/
theorem Publications.resubscribed (hp : Publications f.start f.log) {closed : Bool}
    {received : List Item} {k m : Nat} (hk : k ≤ m) (hm : m ≤ f.log.length)
    (hreceived : (received = [] ∧ closed = false) ∨
      (received = .ok (.task (f.snapshotAt k)) :: f.between k m ∧
        (closed = true → m = f.log.length)) ∨
      (received = .ok (.task (f.snapshotAt k)) :: f.between k m ++ [.error Subscription.lagError] ∧
        (f.snapshotAt k).isTerminal = false)) :
    Resubscribed f.start (f.log.map (·.1)) closed received (f.snapshotAt k) k m := by
  have hlength : (f.log.map (·.1)).length = f.log.length := List.length_map _
  have hafter := hp.snapshotAfter (Nat.le_trans hk hm)
  refine ⟨⟨hk, hlength ▸ hm⟩, hafter, ?_, fun hterm => ?_, fun item hitem => ?_, fun hevents => ?_⟩
  · rw [← Feed.between_eq, hlength]
    exact hreceived
  · rw [hlength]
    exact hp.eq_length (Nat.le_trans hk hm) hterm
  · have hpos : 0 < f.log.length := by
      rw [← hlength]
      exact List.length_pos_of_mem (List.mem_of_mem_dropLast hitem)
    refine hp.quiet (k := 0) (m := f.log.length - 1) (by omega) item ?_
    rw [Feed.between_eq, List.drop_zero]
    rw [List.dropLast_eq_take, hlength] at hitem
    exact hitem
  · have hsnapshot : applyItems f.start ((f.log.map (·.1)).take k) = .ok (f.snapshotAt k) := by
      cases hafter with
      | events h => exact h
      | @failure before error hitems _ =>
          have hmem : (.error error : Item) ∈ (f.log.map (·.1)).take k := by simp [hitems]
          obtain ⟨event, hevent⟩ := hevents _ (List.mem_of_mem_take hmem)
          contradiction
    have hsplit : (f.log.map (·.1)).take m =
        (f.log.map (·.1)).take k ++ ((f.log.map (·.1)).take m).drop k := by
      conv => lhs; rw [← List.take_append_drop k ((f.log.map (·.1)).take m)]
      rw [List.take_take, Nat.min_eq_left hk]
    conv => rhs; rw [hsplit, applyItems_append, hsnapshot]
    rfl

/-- What a stream in step with its channel has yielded. -/
theorem Subscription.Reading.resubscribed {sub : Subscription} {closed : Bool}
    (hr : sub.Reading f true) (hp : Publications f.start f.log)
    (hover : closed = true → sub.done = false → sub.snapshotTask = none ∧
      sub.minSequence = f.log.length) :
    ∃ snapshot k m, Resubscribed f.start (f.log.map (·.1)) closed sub.yielded snapshot k m := by
  obtain ⟨k, hreads, _⟩ := hr.reads
  have hbound := hr.bound
  cases hreads with
  | opening _ hmin htask hyielded =>
      refine ⟨_, _, _, hp.resubscribed (Nat.le_of_eq hmin.symm) hbound (.inl ⟨hyielded, ?_⟩)⟩
      cases hb : closed with
      | false => rfl
      | true =>
          have hdone : sub.done = false := by
            rw [hr.done, hyielded]
            rfl
          rw [(hover hb hdone).1] at htask
          contradiction
  | going hk htask hyielded =>
      have hyielded : sub.yielded =
          .ok (.task (f.snapshotAt k)) :: f.between k sub.minSequence := hyielded
      refine ⟨_, _, _, hp.resubscribed hk hbound (.inr (.inl ⟨hyielded, fun hb => ?_⟩))⟩
      cases hdone : sub.done with
      | false => exact (hover hb hdone).2
      | true =>
          -- the item that ended the stream is the last one published
          rw [hr.done, hyielded] at hdone
          by_contra hne
          have hlt := Nat.lt_of_le_of_ne hbound hne
          obtain hnil | ⟨items, item, hitems⟩ := List.eq_nil_or_concat (f.between k sub.minSequence)
          · rw [hnil] at hdone
            have hlength := hp.eq_length (Nat.le_trans hk hbound) hdone
            omega
          · have hmem : item ∈ f.between k sub.minSequence := by simp [hitems]
            rw [hitems, List.concat_eq_append, ← List.cons_append, List.getLast?_concat,
              Option.any_some, hp.quiet hlt item hmem] at hdone
            contradiction
  | lagged hk htask hlive hyielded =>
      refine ⟨_, _, _, hp.resubscribed hk hbound (.inr (.inr ⟨hyielded, ?_⟩))⟩
      by_contra hterm
      have hlength := hp.eq_length (Nat.le_trans hk hbound) (by simpa using hterm)
      have hsame : sub.minSequence = k := by omega
      rw [hsame, Feed.between_self, List.append_nil] at hlive
      exact hterm hlive

/-- **Exactly-once resubscription**: in every run in which only its driver
publishes on an execution, every stream of a resubscriber has yielded a
snapshot after some number of the published items and then each later one
once and in order, up to the last or to the lag error, which the run's start
and the items make sense of. -/
theorem resubscription_exact (h : Handler) {limit : Option Nat}
    {pushConfigStore : Option InMemoryPushConfigStore} {pushSender : Bool} {x : ExecId}
    (hr : (serverMachine h).Run (.new (.new limit) pushConfigStore pushSender) tr s)
    (hg : Machine.Guarded (OnlyDriver x) tr) :
    ∀ t ∈ s.threads, ∀ sub, t.resubscription = some sub → sub.receiver.map (·.exec) = some x →
      ∃ first, startedOn x tr = some first ∧ ∃ snapshot k m,
        Resubscribed first ((published x tr).map (·.1)) t.resubscriptionEnded sub.yielded
          snapshot k m := by
  intro t ht sub hsub hx
  have htracked := run_tracked hr hg
  have hlink : t.link = .following true sub ∧ t.resubscriptionEnded = false ∨
      t.link = .ended true sub ∧ t.resubscriptionEnded = true := by
    cases t with
    | subscribe call pc =>
        cases pc <;> simp only [Thread.resubscription, reduceCtorEq, Option.some.injEq] at hsub
        case streaming opened sub' => exact .inl ⟨by rw [← hsub]; rfl, rfl⟩
        case ended opened sub' => exact .inr ⟨by rw [← hsub]; rfl, rfl⟩
    | _ => contradiction
  have hlt : x < s.executions.length := by
    refine htracked.started.links t ht x ?_
    obtain ⟨hl, _⟩ | ⟨hl, _⟩ := hlink <;>
    · rw [hl]
      exact hx
  obtain ⟨f, hstart, hlog, hc⟩ := htracked.channel hlt
  refine ⟨f.start, hstart, ?_⟩
  have hfits := (hc.threads t ht).link
  rw [← hlog]
  obtain ⟨hl, hover⟩ | ⟨hl, hover⟩ := hlink <;> rw [hl] at hfits <;> rw [hover]
  · exact (hfits hx).toReading.resubscribed hc.log fun hb => by contradiction
  · exact (hfits hx).toReading.resubscribed hc.log fun _ => (hfits hx).caughtUp

/-! ## runs -/

/-- The call is a cancel. -/
def Thread.isCancel : Thread → Bool
  | .cancel _ _ => true
  | _ => false

/-- Without a cancel only drivers publish. -/
theorem guarded_of_no_cancel (htr : ∀ p ∈ tr, (p.1.threads.all (!·.isCancel)) = true) :
    Machine.Guarded (OnlyDriver x) tr := by
  intro p hp i inp call pc _ hi
  have hnone := List.all_eq_true.mp (htr p hp) _ (List.mem_of_getElem? hi)
  contradiction

/-- A client subscribes between the write of an event and its broadcast, and
then receives the next event. -/
def midway : List Action :=
  [.call (.send (.opening "m")), .call (.subscribe (.of "new-task"))] ++
    List.replicate 5 (.step 0 (.emitting [])) ++
    [.step 2 (.emitting [.ok (statusUpdate (makeTask "new-task" "new-context" .working)),
      .ok (statusUpdate (makeTask "new-task" "new-context" .completed))])] ++
    List.replicate 5 (.step 2 (.emitting [])) ++ List.replicate 2 (.step 1 (.emitting [])) ++
    List.replicate 9 (.step 2 (.emitting [])) ++ List.replicate 4 (.step 1 (.emitting []))

/-- It has the snapshot and the event after it. -/
theorem resubscription_exact_midway :
    ∃ tr s, (serverMachine .new).Run (.new (.new none) none false) tr s ∧
      Machine.Guarded (OnlyDriver 0) tr ∧ (published 0 tr).length = 2 ∧
      ∃ t ∈ s.threads, ∃ sub, t.resubscription = some sub ∧ t.resubscriptionEnded = true ∧
        sub.receiver.map (·.exec) = some 0 ∧ sub.yielded.length = 2 ∧
        ∃ first, startedOn 0 tr = some first ∧ ∃ snapshot k m,
          Resubscribed first ((published 0 tr).map (·.1)) t.resubscriptionEnded sub.yielded
            snapshot k m := by
  have hx : ∃ tr s, (serverMachine .new).exec (.new (.new none) none false) midway = some (tr, s) ∧
      (∀ p ∈ tr, (p.1.threads.all (!·.isCancel)) = true) ∧ (published 0 tr).length = 2 ∧
      ∃ t, s.threads[1]? = some t ∧ ∃ sub, t.resubscription = some sub ∧
        t.resubscriptionEnded = true ∧ sub.receiver.map (·.exec) = some 0 ∧
        sub.yielded.length = 2 :=
    ⟨_, _, rfl, by decide, rfl, _, rfl, _, rfl, rfl, rfl, rfl⟩
  obtain ⟨tr, s, hexec, hnone, hlength, t, ht, sub, hsub, hover, hexec', hyielded⟩ := hx
  have hrun := Machine.run_of_exec hexec
  have hmem := List.mem_of_getElem? ht
  have hg := guarded_of_no_cancel (x := 0) hnone
  exact ⟨tr, s, hrun, hg, hlength, t, hmem, sub, hsub, hover, hexec', hyielded,
    resubscription_exact .new hrun hg t hmem sub hsub hexec'⟩

/-- What a stream that is over yielded, had the items before it made every
snapshot. -/
def Resubscribed.Claimed (first : Task) (items received : List Item) : Prop :=
  ∃ snapshot k, applyItems first (items.take k) = .ok snapshot ∧
    (received = .ok (.task snapshot) :: items.drop k ∨
      ∃ m, received = .ok (.task snapshot) :: (items.take m).drop k ++
        [.error Subscription.lagError])

/-- An executor fails, and a client subscribes between the write of the
failure and its broadcast. -/
def lateFailure : List Action :=
  [.call (.send (.opening "m")), .call (.subscribe (.of "new-task"))] ++
    List.replicate 5 (.step 0 (.emitting [])) ++
    List.replicate 6 (.step 2 (.emitting [.error (.internal "no model")])) ++
    List.replicate 4 (.step 1 (.emitting []))

/-- It is given the FAILED task alone, which no event made. -/
theorem lateFailure_snapshot :
    ∃ tr s, (serverMachine .new).Run (.new (.new none) none false) tr s ∧
      Machine.Guarded (OnlyDriver 0) tr ∧
      ∃ t ∈ s.threads, ∃ sub first, t.resubscription = some sub ∧ t.resubscriptionEnded = true ∧
        sub.receiver.map (·.exec) = some 0 ∧ startedOn 0 tr = some first ∧
        ¬ Resubscribed.Claimed first ((published 0 tr).map (·.1)) sub.yielded := by
  have hx : ∃ tr s, (serverMachine .new).exec (.new (.new none) none false) lateFailure =
        some (tr, s) ∧ (∀ p ∈ tr, (p.1.threads.all (!·.isCancel)) = true) ∧
      (∃ error, (published 0 tr).map (·.1) = [.error error]) ∧
      ∃ t, s.threads[1]? = some t ∧ ∃ sub first, t.resubscription = some sub ∧
        t.resubscriptionEnded = true ∧ sub.receiver.map (·.exec) = some 0 ∧
        startedOn 0 tr = some first ∧ sub.yielded.length = 1 :=
    ⟨_, _, rfl, by decide, ⟨_, rfl⟩, _, rfl, _, _, rfl, rfl, rfl, rfl, rfl⟩
  obtain ⟨tr, s, hexec, hnone, ⟨error, hitems⟩, t, ht, sub, first, hsub, hover, hexec', hstart,
    hyielded⟩ := hx
  refine ⟨tr, s, Machine.run_of_exec hexec, guarded_of_no_cancel hnone, t,
    List.mem_of_getElem? ht, sub, first, hsub, hover, hexec', hstart, ?_⟩
  rintro ⟨snapshot, k, hsnapshot, hreceived⟩
  rw [hitems] at hsnapshot hreceived
  cases k with
  | zero =>
      obtain hreceived | ⟨m, hreceived⟩ := hreceived
      · rw [hreceived] at hyielded
        cases hyielded
      · rw [hreceived] at hyielded
        simp at hyielded
  | succ k => contradiction

end A2a
