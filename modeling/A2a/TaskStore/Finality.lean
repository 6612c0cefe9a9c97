import A2a.Machine
import A2a.TaskStore

/-!
# A2a.TaskStore.Finality

Terminal finality of the task store under the handler's operations.

The handler reaches the store through `create`, `update`, `begin_cancel`
and `save_task`.  The last is two operations with anything in between: an
`update`, and a `create` of the same task where the update reported
TASK_NOT_FOUND.  `storeMachine` interleaves any number of them.

A stored terminal state is guarded by `update` and `begin_cancel`, but a
purge takes the task out of their sight: `create` sees only that the id is
free.  `final_of_noRevival` is the guarantee that remains.
-/

namespace A2a

/-- The store, and the `save_task` calls whose update found no task and
whose create is still to come. -/
structure StoreState where
  store : InMemoryTaskStore
  pending : List Task

/-- An operation of the handler on the store. -/
inductive StoreOp
  | create (task : Task)
  | update (task : Task)
  | beginCancel (id : TaskId) (now : DateTime)
  /-- `save_task`, its update -/
  | save (task : Task)
  /-- `save_task`, the create of the `i`-th pending call -/
  | fallback (i : Nat)

namespace StoreOp

/-- The store and the pending calls after an operation. -/
def step (s : StoreState) : StoreOp → Option StoreState
  | .create task => some { s with store := (s.store.create task).2 }
  | .update task => some { s with store := (s.store.update task).2 }
  | .beginCancel id now => some { s with store := (s.store.beginCancel id now).2 }
  | .save task =>
      match s.store.update task with
      | (.ok _, store) => some { s with store := store }
      | (.error error, store) =>
          if error.code = ErrorCode.taskNotFound then
            some { store := store, pending := s.pending ++ [task] }
          else some { s with store := store }
  | .fallback i =>
      match s.pending[i]? with
      | none => none
      | some task =>
          some { store := (s.store.create task).2, pending := s.pending.eraseIdx i }

/-- The task an operation stores, if it succeeds. -/
def stored (s : StoreState) : StoreOp → Option Task
  | .create task => if s.store.get task.id = none then some task else none
  | .update task | .save task =>
      match (s.store.update task).1 with
      | .ok _ => some task
      | .error _ => none
  | .beginCancel id now =>
      match (s.store.beginCancel id now).1 with
      | .ok task => some task
      | .error _ => none
  | .fallback i =>
      s.pending[i]?.bind fun task => if s.store.get task.id = none then some task else none

/-- The task an operation stores under an id that is free. -/
def created (s : StoreState) : StoreOp → Option Task
  | .create task => stored s (.create task)
  | .fallback i => stored s (.fallback i)
  | _ => none

end StoreOp

open StoreOp InMemoryTaskStore

/-- Any interleaving of the handler's store operations. -/
def storeMachine : Machine StoreState StoreOp := ⟨StoreOp.step⟩

/-- A new store with the given limit, and no call pending. -/
def StoreState.new (limit : Option Nat) : StoreState := ⟨.new limit, []⟩

/-! ## what a step does -/

theorem created_of_free {s : StoreState} {task : Task}
    (hs : (s.store.create task).2 = store')
    (hfree : s.store.get task.id = none) : Wrote s.store task store' := by
  rcases create_cases s.store task with ⟨hne, _⟩ | ⟨_, store'', hc, hw⟩
  · exact absurd hfree hne
  · rw [hc] at hs
    obtain rfl : store'' = store' := hs
    exact hw

theorem create_of_taken {s : StoreState} {task : Task}
    (htaken : s.store.get task.id ≠ none) : (s.store.create task).2 = s.store := by
  rcases create_cases s.store task with ⟨_, hc⟩ | ⟨hfree, _⟩
  · rw [hc]
  · exact absurd hfree htaken

/-- A step leaves the store alone, or writes the task it stores: under a free
id, or over a task whose terminal state it keeps. -/
theorem step_effect {s s' : StoreState} {op : StoreOp} (h : StoreOp.step s op = some s') :
    (stored s op = none ∧ s'.store = s.store) ∨
      ∃ z, stored s op = some z ∧ Wrote s.store z s'.store ∧
        (created s op = some z ∨ ∃ old, s.store.get z.id = some old ∧
          (old.isTerminal = true → old.status.state = z.status.state)) := by
  cases op with
  | create task =>
      obtain rfl := Option.some.inj h
      by_cases hfree : s.store.get task.id = none
      · exact .inr ⟨task, by simp [stored, hfree], created_of_free rfl hfree,
          .inl (by simp [created, stored, hfree])⟩
      · exact .inl ⟨by simp [stored, hfree], create_of_taken hfree⟩
  | update task =>
      obtain rfl := Option.some.inj h
      rcases update_cases s.store task with ⟨_, hu⟩ | ⟨_, _, _, _, hu⟩ | ⟨old, v, st, hg, hk, hu, hw⟩
      · exact .inl (by simp [stored, hu])
      · exact .inl (by simp [stored, hu])
      · exact .inr ⟨task, by simp [stored, hu], by simpa [hu] using hw, .inr ⟨old, hg, hk⟩⟩
  | save task =>
      rcases update_cases s.store task with ⟨_, hu⟩ | ⟨_, _, _, _, hu⟩ | ⟨old, v, st, hg, hk, hu, hw⟩
      · simp only [StoreOp.step, hu] at h
        left
        refine ⟨by simp [stored, hu], ?_⟩
        split at h <;> (obtain rfl := Option.some.inj h; rfl)
      · simp only [StoreOp.step, hu] at h
        left
        refine ⟨by simp [stored, hu], ?_⟩
        split at h <;> (obtain rfl := Option.some.inj h; rfl)
      · simp only [StoreOp.step, hu, Option.some.injEq] at h
        subst h
        exact .inr ⟨task, by simp [stored, hu], hw, .inr ⟨old, hg, hk⟩⟩
  | beginCancel id now =>
      obtain rfl := Option.some.inj h
      rcases beginCancel_cases s.store id now with
        ⟨_, hb⟩ | ⟨_, _, _, hb⟩ | ⟨old, st, hg, hlive, hb, hw⟩
      · exact .inl (by simp [stored, hb])
      · exact .inl (by simp [stored, hb])
      · refine .inr ⟨canceledTask old now, by simp [stored, hb], by simpa [hb] using hw,
          .inr ⟨old, ?_, by simp [hlive]⟩⟩
        rw [canceledTask_id, get_id hg]
        exact hg
  | fallback i =>
      simp only [StoreOp.step] at h
      cases hp : s.pending[i]? with
      | none => rw [hp] at h; contradiction
      | some task =>
          rw [hp] at h
          obtain rfl := Option.some.inj h
          by_cases hfree : s.store.get task.id = none
          · exact .inr ⟨task, by simp [stored, hp, hfree], created_of_free rfl hfree,
              .inl (by simp [created, stored, hp, hfree])⟩
          · exact .inl ⟨by simp [stored, hp, hfree], create_of_taken hfree⟩

/-! ## finality -/

/-- Every terminal state the run has stored is final in `s`: the task is
gone, or `get` and `list` show it in that very state. -/
def Final (tr : List (StoreState × StoreOp)) (s : StoreState) : Prop :=
  ∀ p ∈ tr, ∀ x, stored p.1 p.2 = some x → x.isTerminal = true →
    (∀ y, s.store.get x.id = some y → y.status.state = x.status.state) ∧
    (∀ req resp y, s.store.list req = .ok resp → y ∈ resp.tasks → y.id = x.id →
      y.status.state = x.status.state)

/-- The operation does not bring a finished and purged task back in another
state: if it stores a task under a free id, every terminal state the run
stored that id in is the state it stores now. -/
def NoRevival (tr : List (StoreState × StoreOp)) (s : StoreState) (op : StoreOp) : Prop :=
  ∀ y, created s op = some y → ∀ p ∈ tr, ∀ x, stored p.1 p.2 = some x →
    x.isTerminal = true → x.id = y.id → x.status.state = y.status.state

/-- Finality as `get` alone sees it; `list` shows stored tasks only. -/
def FinalGet (tr : List (StoreState × StoreOp)) (s : StoreState) : Prop :=
  ∀ p ∈ tr, ∀ x, stored p.1 p.2 = some x → x.isTerminal = true →
    ∀ y, s.store.get x.id = some y → y.status.state = x.status.state

theorem FinalGet.final (h : FinalGet tr s) : Final tr s := by
  intro p hp x hx hterm
  refine ⟨h p hp x hx hterm, fun req resp y hlist hy hid => ?_⟩
  obtain ⟨z, hz, rfl⟩ := mem_list hlist hy
  rw [hid] at hz
  simpa using h p hp x hx hterm z hz

/-- One step keeps the terminal states final, unless it revives a task. -/
theorem FinalGet.step {s s' : StoreState} {op : StoreOp} (h : FinalGet tr s)
    (hno : NoRevival tr s op) (hs : StoreOp.step s op = some s') :
    FinalGet (tr ++ [(s, op)]) s' := by
  intro p hp x hx hterm y hy
  rcases step_effect hs with ⟨hnone, hsame⟩ | ⟨z, hz, hw, horigin⟩
  · rw [hsame] at hy
    rcases List.mem_append.mp hp with hp | hp
    · exact h p hp x hx hterm y hy
    · obtain rfl := List.mem_singleton.mp hp
      rw [hnone] at hx
      contradiction
  · rcases List.mem_append.mp hp with hp | hp
    · rcases hw.of_get hy with ⟨hid, rfl⟩ | ⟨_, hold⟩
      · rcases horigin with hc | ⟨old, hold, hkeep⟩
        · exact (hno y hc p hp x hx hterm hid).symm
        · -- the old task was final already, and the write kept its state
          have hfin := h p hp x hx hterm old (by rw [hid]; exact hold)
          have hterm' : old.isTerminal = true := by
            simpa [Task.isTerminal, hfin] using hterm
          rw [← hkeep hterm', hfin]
      · exact h p hp x hx hterm y hold
    · obtain rfl := List.mem_singleton.mp hp
      obtain rfl : z = x := Option.some.inj (hz.symm.trans hx)
      rcases hw.of_get hy with ⟨_, rfl⟩ | ⟨hne, _⟩
      · rfl
      · exact absurd rfl hne

/-- **Terminal finality**: in every run from a new store, under any limit, in
which no create brings a finished and purged task back in another state, a
terminal state once stored is the only one `get` and `list` ever show. -/
theorem final_of_noRevival (limit : Option Nat)
    (hr : storeMachine.Run (.new limit) tr s) (hg : Machine.GuardedBy NoRevival tr) :
    Final tr s :=
  (hr.guardedBy (I := FinalGet) (fun _ hp => (List.not_mem_nil hp).elim)
    (fun _ _ _ _ h hc hs => h.step hc hs) hg).final

/-- The run of one task to its end, with a second write of the same state. -/
theorem final_of_noRevival_completed :
    ∃ tr s, storeMachine.Run (.new (some 1)) tr s ∧ Machine.GuardedBy NoRevival tr ∧
      Final tr s ∧ tr.length = 3 := by
  have hr : ∃ tr s, storeMachine.exec (.new (some 1))
      [.create (makeTask "t" "c" .working), .save (makeTask "t" "c" .completed),
        .update (makeTask "t" "c" .completed)] = some (tr, s) ∧ tr.length = 3 ∧
        ∀ p ∈ tr.tail, created p.1 p.2 = none := ⟨_, _, rfl, rfl, by decide⟩
  obtain ⟨tr, s, hx, hlen, hnew⟩ := hr
  have hg : Machine.GuardedBy NoRevival tr := by
    intro tr₁ s₁ op tr₂ he y hy
    cases tr₁ with
    | nil => exact fun p hp => (List.not_mem_nil hp).elim
    | cons q tr₁ =>
        have hmem : (s₁, op) ∈ tr.tail := by simp [he]
        rw [hnew _ hmem] at hy
        contradiction
  have hrun := Machine.run_of_exec hx
  exact ⟨tr, s, hrun, hg, final_of_noRevival (some 1) hrun hg, hlen⟩

/-- A late event of a task that was canceled and purged: the driver's
`save_task` finds no task and creates it anew. -/
def lateSave : List StoreOp :=
  [.create (makeTask "t" "c" .working), .create (makeTask "u" "c" .working),
    .beginCancel "t" .unixEpoch, .update (makeTask "u" "c" .completed),
    .save (makeTask "t" "c" .working), .fallback 0]

/-- Finality fails in general: a canceled task is WORKING again. -/
theorem lateSave_revives :
    ∃ tr s, storeMachine.exec (.new (some 1)) lateSave = some (tr, s) ∧
      storeMachine.Run (.new (some 1)) tr s ∧ ¬ Final tr s := by
  refine ⟨_, _, rfl, Machine.run_of_exec (show Machine.exec _ _ lateSave = some _ from rfl), fun h => ?_⟩
  have hp := h _ (List.mem_of_getElem? (i := 2) rfl) _ rfl rfl
  have hs := hp.1 (makeTask "t" "c" .working) rfl
  exact absurd hs (by decide)

end A2a
