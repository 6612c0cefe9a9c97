import A2a.Server.Steps

/-!
# A2a.Server.Winners

The cancels that made their task CANCELED.

Of the cancels of one task at most one wins its `begin_cancel`.  From there
on it holds a guard, until it has released the waiting subscriptions on its
way out, and the task it won is stored CANCELED or not at all.  `Winners` is
that invariant, for runs that store no canceled task again in another state.
-/

namespace A2a

open InMemoryTaskStore

/-! ## the guard of a cancel -/

namespace CancelPc

/-- The task of a cancel's guard. -/
def guard : CancelPc → Option Task
  | .getActive task => some task
  | .polling c => some c.task
  | .saving c _ _ _ => some c.task
  | .pushing c _ _ => some c.task
  | .publishing c _ _ => some c.task
  | .failPublishing c _ _ => some c.task
  | .failLoad c _ => some c.task
  | .failPushing c _ _ _ => some c.task
  | .finishing c => some c.task
  | .finalLoad c => some c.task
  | .finalPushing c _ _ => some c.task
  | .releasing c _ _ => some c.task
  | .dropping task _ _ => some task
  | _ => none

/-- The task a cancel is about to answer with. -/
def answer : CancelPc → Option Task
  | .finalPushing _ task _ => some task
  | .releasing _ task _ => some task
  | .dropping _ (.ok task) _ => some task
  | .returned (.ok task) => some task
  | _ => none

/-- The release a cancel is at, with the task it hands out. -/
def release : CancelPc → Option (Task × ReleasePc)
  | .releasing _ task pc => some (task, pc)
  | .dropping task _ pc => some (task, pc)
  | _ => none

/-- The task of the first release of a cancel with this guard, once it took
the queue. -/
def released (guard : Task) : CancelPc → Option Task
  | .releasing _ task (.handing _) => some task
  | .dropping _ (.ok task) _ => some task
  | .dropping task (.error _) (.handing _) => some task
  | .returned (.ok task) => some task
  | .returned (.error _) => some guard
  | _ => none

end CancelPc

/-! ## the cancels that won -/

/-- The task a `begin_cancel` makes CANCELED, with the thread that does. -/
def Server.wins (s : Server) : Action → Option (Nat × Task)
  | .step i inp =>
      match s.threads[i]? with
      | some (.cancel call .beginCancel) =>
          (s.taskStore.beginCancel call.req.id inp.now).1.toOption.map (i, ·)
      | _ => none
  | _ => none

/-- The cancels that won so far, each with the task it made CANCELED. -/
def winners (tr : List (Server × Action)) : List (Nat × Task) := tr.filterMap fun p => p.1.wins p.2

theorem mem_winners_snoc {s : Server} {a : Action} {p : Nat × Task} :
    p ∈ winners (tr ++ [(s, a)]) ↔ p ∈ winners tr ∨ s.wins a = some p := by
  simp [winners, List.filterMap_append, List.mem_filterMap]

/-- No step stores a canceled task again in another state.  Over a stored
task none can; it takes a purge in between. -/
def KeepsCanceled (h : Handler) (tr : List (Server × Action)) (s : Server) (a : Action) : Prop :=
  ∀ x, s.writes h a = some x → ∀ p ∈ winners tr, x.id = p.2.id → x.status.state = .canceled

/-- What the cancels that won have to do with the server. -/
structure Winners (tr : List (Server × Action)) (s : Server) : Prop where
  /-- such a cancel is past its `begin_cancel`, and answers with a canceled
  task if it answers -/
  thread : ∀ p ∈ winners tr, ∃ call pc, s.threads[p.1]? = some (.cancel call pc) ∧
    call.req.id = p.2.id ∧ (pc.guard = some p.2 ∨ ∃ r, pc = .returned r) ∧
    ∀ y, pc.answer = some y → y.id = p.2.id ∧ y.status.state = .canceled
  /-- no other cancel has a guard -/
  won : ∀ i call pc x, s.threads[i]? = some (.cancel call pc) → pc.guard = some x →
    (i, x) ∈ winners tr
  canceled : ∀ p ∈ winners tr, p.2.status.state = .canceled ∧
    ∀ y, s.taskStore.get p.2.id = some y → y.status.state = .canceled
  unique : ∀ p ∈ winners tr, ∀ q ∈ winners tr, p.2.id = q.2.id → p = q

/-- A cancel wins one task. -/
theorem Winners.thread_unique {tr : List (Server × Action)} {s : Server} (hw : Winners tr s)
    (hx : (i, x) ∈ winners tr) (hy : (i, y) ∈ winners tr) : x = y := by
  obtain ⟨_, _, hi, hidx, _⟩ := hw.thread _ hx
  obtain ⟨_, _, hi', hidy, _⟩ := hw.thread _ hy
  cases hi.symm.trans hi'
  have he := hw.unique _ hx _ hy (hidx.symm.trans hidy)
  exact (Prod.mk.inj he).2

/-! ## a cancel keeps its guard -/

variable {h : Handler} {s s' s₁ : Server} {tr : List (Server × Action)} {a : Action} {i : Nat}

/-- The cancel has released no waiter. -/
def CancelPc.unreleased : CancelPc → Bool
  | .releasing _ _ (.handing _) => false
  | .dropping _ (.ok _) _ => false
  | .dropping _ (.error _) (.handing _) => false
  | .returned _ => false
  | _ => true

theorem CancelPc.released_of_unreleased {pc : CancelPc} (hpc : pc.unreleased = true) (x : Task) :
    pc.released x = none := by
  cases pc with
  | releasing c task pc => cases pc <;> first | rfl | contradiction
  | dropping task r pc => cases r <;> cases pc <;> first | rfl | contradiction
  | returned => contradiction
  | _ => rfl

theorem CancelPc.release_of_unreleased {pc : CancelPc} (hpc : pc.unreleased = true) (task : Task)
    (ws : List WaiterId) : pc.release ≠ some (task, .handing ws) := by
  cases pc with
  | releasing c task pc => cases pc <;> first | contradiction | simp [release]
  | dropping task r pc => cases r <;> cases pc <;> first | contradiction | simp [release]
  | _ => simp [release]

/-- On with the guard, with nothing to answer or release yet. -/
structure CancelPc.Silent (pc : CancelPc) (x : Task) : Prop where
  guard : pc.guard = some x
  answer : pc.answer = none
  unreleased : pc.unreleased = true

/-- Where a cancel goes in a step. -/
inductive CancelCall.Goes (s : Server) (call : CancelCall) (inp : Input) :
    CancelPc → CancelPc → Prop
  | idle {pc pc' : CancelPc} (hpc : pc.guard = none) (hpc' : pc'.guard = none)
      (hlive : ∀ r, pc ≠ .returned r)
      (hno : pc = .beginCancel → ∀ x, (s.taskStore.beginCancel call.req.id inp.now).1 ≠ .ok x) :
      Goes s call inp pc pc'
  | wins {x : Task} (hx : (s.taskStore.beginCancel call.req.id inp.now).1 = .ok x) :
      Goes s call inp .beginCancel (.getActive x)
  | on {pc pc' : CancelPc} {x : Task} (hpc : pc.guard = some x) (hpc' : pc'.guard = some x)
      (hrelease : pc.release = none → pc'.unreleased = true) (hanswer : ∀ y, pc'.answer = some y →
        pc.answer = some y ∨ s.taskStore.get call.req.id = some y) :
      Goes s call inp pc pc'
  | out {x : Task} {r : Except A2AError Task} :
      Goes s call inp (.dropping x r (.handing [])) (.returned r)

/-- A cancel's event takes it on with its guard. -/
theorem CancelCall.silent_accept (c : Cancelling) (inp : Input) (event : StreamResponse) :
    (accept c inp event).Silent c.task := by
  simp only [accept]
  split
  · exact ⟨rfl, rfl, rfl⟩
  · split <;> exact ⟨rfl, rfl, rfl⟩

theorem CancelCall.silent_afterEvent (c : Cancelling) (event : StreamResponse) :
    (afterEvent c event).Silent c.task := by
  simp only [afterEvent, afterLoop]
  split_ifs <;> exact ⟨rfl, rfl, rfl⟩

theorem CancelCall.silent_afterLoop (c : Cancelling) : (afterLoop c).Silent c.task := by
  simp only [afterLoop]
  split <;> exact ⟨rfl, rfl, rfl⟩

theorem CancelCall.Goes.silent {call : CancelCall} {inp : Input} {pc pc' : CancelPc} {x : Task}
    (hpc : pc.guard = some x) (hpc' : pc'.Silent x) : Goes s call inp pc pc' := by
  obtain ⟨hguard, hanswer, hrelease⟩ := hpc'
  refine .on hpc hguard (fun _ => hrelease) fun y hy => ?_
  rw [hanswer] at hy
  contradiction

theorem CancelCall.next_goes (call : CancelCall) (pc : CancelPc) (inp : Input) :
    (call.next h inp pc).Post s fun _ t' _ => ∃ pc', t' = .cancel call pc' ∧
      Goes s call inp pc pc' := by
  cases pc <;> simp only [CancelCall.next]
  case load =>
    split
    · exact Cmd.post_pass.mpr ⟨_, rfl, .idle rfl rfl (by simp) (by simp)⟩
    · simp only [Cmd.post_get]
      split
      · exact ⟨_, rfl, .idle rfl rfl (by simp) (by simp)⟩
      · split_ifs <;> exact ⟨_, rfl, .idle rfl rfl (by simp) (by simp)⟩
  case beginCancel =>
    simp only [Cmd.post_beginCancel]
    split
    · next x hx => exact ⟨_, rfl, .wins hx⟩
    · next error hx =>
        have hno : ∀ x, (s.taskStore.beginCancel call.req.id inp.now).1 ≠ .ok x := by simp [hx]
        split <;> exact ⟨_, rfl, .idle rfl rfl (by simp) fun _ => hno⟩
  case raced =>
    simp only [Cmd.post_get]
    split
    · exact ⟨_, rfl, .idle rfl rfl (by simp) (by simp)⟩
    · split <;> exact ⟨_, rfl, .idle rfl rfl (by simp) (by simp)⟩
  case getActive => exact Cmd.post_of_forall fun _ _ => ⟨_, rfl, .silent rfl ⟨rfl, rfl, rfl⟩⟩
  case polling c =>
    simp only [Cmd.post_pass]
    split
    · exact ⟨_, rfl, .silent rfl (silent_afterLoop c)⟩
    · exact ⟨_, rfl, .silent rfl (silent_accept _ _ _)⟩
    · split <;> exact ⟨_, rfl, .silent rfl ⟨rfl, rfl, rfl⟩⟩
  case saving =>
    refine Cmd.post_of_forall fun _ _ => ?_
    split <;> exact ⟨_, rfl, .silent rfl ⟨rfl, rfl, rfl⟩⟩
  case pushing c event pc =>
    refine post_pushCmd fun _ o => ?_
    rcases o with _ | _ | _
    · exact ⟨_, rfl, .silent rfl ⟨rfl, rfl, rfl⟩⟩
    · exact ⟨_, rfl, .silent rfl ⟨rfl, rfl, rfl⟩⟩
    · dsimp only
      split
      · exact ⟨_, rfl, .silent rfl ⟨rfl, rfl, rfl⟩⟩
      · exact ⟨_, rfl, .silent rfl (silent_afterEvent c event)⟩
  case publishing c event pc =>
    split
    · exact Cmd.post_pass.mpr ⟨_, rfl, .silent rfl (silent_afterEvent c event)⟩
    · refine post_publishCmd fun _ o => ?_
      cases o with
      | none => exact ⟨_, rfl, .silent rfl (silent_afterEvent c event)⟩
      | some pc => exact ⟨_, rfl, .silent rfl ⟨rfl, rfl, rfl⟩⟩
  case failPublishing =>
    split
    · exact Cmd.post_pass.mpr ⟨_, rfl, .silent rfl ⟨rfl, rfl, rfl⟩⟩
    · refine post_publishCmd fun _ o => ?_
      cases o <;> exact ⟨_, rfl, .silent rfl ⟨rfl, rfl, rfl⟩⟩
  case failLoad =>
    simp only [Cmd.post_get]
    split <;> exact ⟨_, rfl, .silent rfl ⟨rfl, rfl, rfl⟩⟩
  case failPushing =>
    refine post_pushCmd fun _ o => ?_
    cases o <;> exact ⟨_, rfl, .silent rfl ⟨rfl, rfl, rfl⟩⟩
  case finishing =>
    split
    · exact Cmd.post_pass.mpr ⟨_, rfl, .silent rfl ⟨rfl, rfl, rfl⟩⟩
    · exact Cmd.post_of_forall fun _ _ => ⟨_, rfl, .silent rfl ⟨rfl, rfl, rfl⟩⟩
  case finalLoad =>
    simp only [Cmd.post_get]
    split
    · exact ⟨_, rfl, .silent rfl ⟨rfl, rfl, rfl⟩⟩
    · next y hy =>
        split <;> exact ⟨_, rfl, .on rfl rfl (fun _ => rfl) fun z hz => .inr (hy.trans hz)⟩
  case finalPushing =>
    refine post_pushCmd fun _ o => ?_
    rcases o with _ | _ | _
    · exact ⟨_, rfl, .on rfl rfl (fun _ => rfl) fun _ hz => .inl hz⟩
    · exact ⟨_, rfl, .silent rfl ⟨rfl, rfl, rfl⟩⟩
    · exact ⟨_, rfl, .on rfl rfl (fun _ => rfl) fun _ hz => .inl hz⟩
  case releasing =>
    refine post_releaseCmd fun _ o => ?_
    cases o <;> exact ⟨_, rfl, .on rfl rfl (by simp [CancelPc.release]) fun _ hz => .inl hz⟩
  case dropping task r pc =>
    rcases pc with _ | _ | _
    · refine Cmd.post_of_forall fun _ _ => ⟨_, rfl, .on rfl rfl (by simp [CancelPc.release]) fun _ hz => .inl ?_⟩
      cases r <;> exact hz
    · exact Cmd.post_pass.mpr ⟨_, rfl, .out⟩
    · refine Cmd.post_of_forall fun _ _ => ⟨_, rfl, .on rfl rfl (by simp [CancelPc.release]) fun _ hz => .inl ?_⟩
      cases r <;> exact hz
  case returned => simp

/-- A cancel after a step, from before it. -/
theorem cancel_before (hs : Server.step h s a = some s')
    (hk : s'.threads[k]? = some (.cancel call pc')) :
    s.threads[k]? = some (.cancel call pc') ∨ pc' = .load ∨
      ∃ pc inp, a = .step k inp ∧ s.threads[k]? = some (.cancel call pc) ∧
        CancelCall.Goes s call inp pc pc' := by
  rcases step_cases hs with ⟨request, rfl, rfl⟩ | ⟨i, t, cmd, s₁, b, hruns, hran⟩
  · rw [List.getElem?_append] at hk
    split at hk
    · exact .inl hk
    · rw [List.getElem?_singleton] at hk
      split at hk
      · cases request <;> simp [Request.thread] at hk
        exact .inr (.inl hk.2.symm)
      · contradiction
  · have hcont := hran.post hruns.continues
    obtain ⟨rfl, he⟩ | ⟨_, hk⟩ | ⟨_, hmem⟩ := hran.thread_cases hk
    · rw [← he] at hcont
      obtain ⟨hi, ⟨inp, rfl, rfl⟩ | ⟨rfl, rfl⟩⟩ := hruns
      · cases t with
        | cancel call₀ pc =>
            obtain ⟨rfl, _⟩ := hcont
            obtain ⟨pc'', he', hgoes⟩ := hran.post (CancelCall.next_goes call pc inp)
            obtain rfl : pc' = pc'' := by simpa using he.trans he'
            exact .inr (.inr ⟨pc, inp, rfl, hi, hgoes⟩)
        | _ => exact hcont.elim
      · obtain ⟨hdrop, _⟩ := hran.post (Thread.drop_dropped t)
        rw [hdrop] at he
        contradiction
    · exact .inl hk
    · obtain ⟨_, _, _, _, hd⟩ := hcont.spawned hmem
      contradiction

/-- A cancel before a step, after it. -/
theorem cancel_after (hs : Server.step h s a = some s')
    (hk : s.threads[k]? = some (.cancel call pc)) :
    (s'.threads[k]? = some (.cancel call pc) ∧ ∀ inp, a ≠ .step k inp) ∨
      ∃ pc' inp, a = .step k inp ∧ s'.threads[k]? = some (.cancel call pc') ∧
        CancelCall.Goes s call inp pc pc' := by
  have hlt : k < s.threads.length := (List.getElem?_eq_some_iff.mp hk).1
  rcases step_cases hs with ⟨request, rfl, rfl⟩ | ⟨i, t, cmd, s₁, b, hruns, hran⟩
  · exact .inl ⟨(List.getElem?_append_left hlt).trans hk, fun _ he => by contradiction⟩
  · by_cases hki : k = i
    · subst hki
      obtain ⟨hi, ⟨inp, rfl, rfl⟩ | ⟨rfl, rfl⟩⟩ := hruns
      · obtain rfl := Option.some.inj (hk.symm.trans hi)
        obtain ⟨pc', he, hgoes⟩ := hran.post (CancelCall.next_goes call pc inp)
        exact .inr ⟨pc', inp, rfl, he ▸ hran.getElem_self hi, hgoes⟩
      · obtain rfl := Option.some.inj (hk.symm.trans hi)
        exact absurd hran.run (by simp [Thread.drop, Op.run])
    · refine .inl ⟨hran.getElem_other hki hk, fun inp he => ?_⟩
      obtain ⟨_, ⟨inp', he', _⟩ | ⟨he', _⟩⟩ := hruns
      · rw [he] at he'
        cases he'
        contradiction
      · rw [he] at he'
        contradiction

/-- A cancel that wins finds its task stored and live. -/
theorem wins_cases (hw : s.wins a = some (i, x)) :
    ∃ call inp old, a = .step i inp ∧ s.threads[i]? = some (.cancel call .beginCancel) ∧
      (s.taskStore.beginCancel call.req.id inp.now).1 = .ok x ∧ call.req.id = x.id ∧
      s.taskStore.get x.id = some old ∧ old.isTerminal = false ∧ x.status.state = .canceled := by
  cases a with
  | step k inp =>
      simp only [Server.wins] at hw
      split at hw
      · next call hk =>
          obtain ⟨y, hy, he⟩ := Option.map_eq_some_iff.mp hw
          obtain ⟨rfl, rfl⟩ : k = i ∧ y = x := by simpa using he
          rcases beginCancel_cases s.taskStore call.req.id inp.now with
            ⟨_, hb⟩ | ⟨_, _, _, hb⟩ | ⟨old, st, hg, hlive, hb, _⟩
          · simp [hb, Except.toOption] at hy
          · simp [hb, Except.toOption] at hy
          · obtain rfl : canceledTask old inp.now = y := by
              simpa [hb, Except.toOption] using hy
            have hid : old.id = call.req.id := get_id hg
            exact ⟨call, inp, old, rfl, hk, by rw [hb], hid.symm, by simpa [hid] using hg, hlive,
              rfl⟩
      · contradiction
  | _ => contradiction

theorem wins_writes (hw : s.wins a = some (i, x)) : s.writes h a = some x := by
  obtain ⟨call, inp, old, rfl, hi, hx, _⟩ := wins_cases hw
  simp only [Server.writes, hi, Option.bind_some, Thread.next, CancelCall.next, Op.andThen,
    Op.writes, hx]

/-- A cancel that won stays past its `begin_cancel`. -/
theorem Winners.thread_step (hw : Winners tr s) (hs : Server.step h s a = some s')
    (hp : p ∈ winners tr) :
    ∃ call pc, s'.threads[p.1]? = some (.cancel call pc) ∧ call.req.id = p.2.id ∧
      (pc.guard = some p.2 ∨ ∃ r, pc = .returned r) ∧
      ∀ y, pc.answer = some y → y.id = p.2.id ∧ y.status.state = .canceled := by
  obtain ⟨call, pc, hk, hid, hpc, hans⟩ := hw.thread p hp
  obtain ⟨hk', _⟩ | ⟨pc', inp, _, hk', hgoes⟩ := cancel_after hs hk
  · exact ⟨call, pc, hk', hid, hpc, hans⟩
  · refine ⟨call, pc', hk', hid, ?_⟩
    cases hgoes with
    | idle hnone _ hlive =>
        obtain hpc | ⟨r, hpc⟩ := hpc
        · rw [hnone] at hpc
          contradiction
        · exact absurd hpc (hlive r)
    | wins => simp [CancelPc.guard] at hpc
    | on hx hx' _ hans' =>
        obtain hpc | ⟨r, rfl⟩ := hpc
        · rw [hx] at hpc
          refine ⟨.inl (hx'.trans hpc), fun y hy => ?_⟩
          obtain hy | hy := hans' y hy
          · exact hans y hy
          · rw [hid] at hy
            exact ⟨get_id hy, (hw.canceled p hp).2 y hy⟩
        · simp [CancelPc.guard] at hx
    | @out x r =>
        refine ⟨.inr ⟨r, rfl⟩, fun y hy => hans y ?_⟩
        cases r <;> exact hy

/-- The cancel that wins gets its guard. -/
theorem wins_thread (hs : Server.step h s a = some s') (hw : s.wins a = some (i, x)) :
    ∃ call, s'.threads[i]? = some (.cancel call (.getActive x)) ∧ call.req.id = x.id := by
  obtain ⟨call, inp, old, rfl, hi, hx, hid, _⟩ := wins_cases hw
  obtain ⟨_, hne⟩ | ⟨pc', inp', he, hi', hgoes⟩ := cancel_after hs hi
  · exact absurd rfl (hne inp)
  · obtain rfl : inp = inp' := by simpa using he
    cases hgoes with
    | idle _ _ _ hno => exact absurd hx (hno rfl x)
    | wins hx' =>
        obtain rfl := Except.ok.inj (hx.symm.trans hx')
        exact ⟨call, hi', hid⟩
    | on hx' => simp [CancelPc.guard] at hx'

/-- What the cancels that won have to do with the server, a step preserves. -/
theorem Winners.step (hw : Winners tr s) (hkeep : KeepsCanceled h tr s a)
    (hs : Server.step h s a = some s') : Winners (tr ++ [(s, a)]) s' where
  thread p hp := by
    obtain hp | hp := mem_winners_snoc.mp hp
    · exact hw.thread_step hs hp
    · obtain ⟨call, hi, hid⟩ := wins_thread hs hp
      exact ⟨call, _, hi, hid, .inl rfl, by simp [CancelPc.answer]⟩
  won k call pc x hk hx := by
    rw [mem_winners_snoc]
    obtain hk | rfl | ⟨pc₀, inp, rfl, hk₀, hgoes⟩ := cancel_before hs hk
    · exact .inl (hw.won k call pc x hk hx)
    · simp [CancelPc.guard] at hx
    · cases hgoes with
      | idle _ hnone =>
          rw [hnone] at hx
          contradiction
      | wins hok =>
          obtain rfl := Option.some.inj hx
          exact .inr (by simp [Server.wins, hk₀, hok, Except.toOption])
      | on hx₀ hx' =>
          rw [hx] at hx'
          obtain rfl := Option.some.inj hx'
          exact .inl (hw.won k call pc₀ x hk₀ hx₀)
      | out => simp [CancelPc.guard] at hx
  canceled p hp := by
    have hp' := mem_winners_snoc.mp hp
    have hstate : p.2.status.state = .canceled := by
      obtain hp | hp := hp'
      · exact (hw.canceled p hp).1
      · obtain ⟨_, _, _, _, _, _, _, _, _, hst⟩ := wins_cases hp
        exact hst
    refine ⟨hstate, fun y hy => ?_⟩
    obtain ⟨hnone, he⟩ | ⟨x, hx, hwrote, _⟩ := step_taskStore hs
    · obtain hp | hp := hp'
      · rw [he] at hy
        exact (hw.canceled p hp).2 y hy
      · rw [wins_writes hp] at hnone
        contradiction
    · obtain ⟨hid, rfl⟩ | ⟨hid, hy⟩ := hwrote.of_get hy
      · obtain hp | hp := hp'
        · exact hkeep y hx p hp hid.symm
        · rw [wins_writes hp] at hx
          obtain rfl := Option.some.inj hx
          exact hstate
      · obtain hp | hp := hp'
        · exact (hw.canceled p hp).2 y hy
        · rw [wins_writes hp] at hx
          obtain rfl := Option.some.inj hx
          exact absurd rfl hid
  unique p hp q hq he := by
    -- a task that one cancel won is not live for another
    have hdead : ∀ p ∈ winners tr, ∀ q, s.wins a = some q → p.2.id ≠ q.2.id := by
      intro p hp q hq he
      obtain ⟨_, _, old, _, _, _, _, hold, hlive, _⟩ := wins_cases hq
      rw [← he] at hold
      have hst := (hw.canceled p hp).2 old hold
      simp [Task.isTerminal, hst, TaskState.isTerminal] at hlive
    obtain hp | hp := mem_winners_snoc.mp hp <;> obtain hq | hq := mem_winners_snoc.mp hq
    · exact hw.unique p hp q hq he
    · exact absurd he (hdead p hp q hq)
    · exact absurd he.symm (hdead q hq p hp)
    · exact Option.some.inj (hp.symm.trans hq)

theorem Winners.start (taskStore : InMemoryTaskStore)
    (pushConfigStore : Option InMemoryPushConfigStore) (pushSender : Bool) :
    Winners [] (.new taskStore pushConfigStore pushSender) := by
  constructor <;> simp [winners, Server.new]

/-- Without a limit nothing is purged, and a canceled task stays so. -/
theorem keepsCanceled_of_unlimited
    (hr : (serverMachine h).Run (.new taskStore pushConfigStore pushSender) tr s)
    (hunlimited : taskStore.terminalTaskLimit = none) :
    Machine.GuardedBy (KeepsCanceled h) tr := by
  have hinv : s.taskStore.terminalTaskLimit = none ∧
      Machine.GuardedBy (KeepsCanceled h) tr ∧
      ∀ p ∈ winners tr, ∃ y, s.taskStore.get p.2.id = some y ∧ y.status.state = .canceled := by
    refine hr.invariant (I := fun tr s => s.taskStore.terminalTaskLimit = none ∧
      Machine.GuardedBy (KeepsCanceled h) tr ∧
      ∀ p ∈ winners tr, ∃ y, s.taskStore.get p.2.id = some y ∧ y.status.state = .canceled) ?_ ?_
    · exact ⟨hunlimited, fun _ _ _ _ he => by simp at he, by simp [winners]⟩
    · rintro tr s a s' ⟨hl, hg, hstored⟩ hs
      obtain ⟨hnone, he⟩ | ⟨x, hx, hwrote, hfinal⟩ := step_taskStore hs
      · refine ⟨he ▸ hl, hg.snoc fun x hx => ?_, fun p hp => ?_⟩
        · rw [hnone] at hx
          contradiction
        · obtain hp | hp := mem_winners_snoc.mp hp
          · rw [he]
            exact hstored p hp
          · rw [wins_writes hp] at hnone
            contradiction
      · -- the write keeps the state of the canceled tasks
        have hkeep : ∀ p ∈ winners tr, x.id = p.2.id → x.status.state = .canceled := by
          intro p hp hid
          obtain ⟨y, hy, hst⟩ := hstored p hp
          rw [← hfinal y (hid ▸ hy) (by simp [Task.isTerminal, hst, TaskState.isTerminal])]
          exact hst
        refine ⟨hwrote.limit.trans hl, hg.snoc fun y hy p hp hid => ?_, fun p hp => ?_⟩
        · obtain rfl := Option.some.inj (hx.symm.trans hy)
          exact hkeep p hp hid
        · have hget := hwrote.get_of_unlimited hl p.2.id
          by_cases hid : p.2.id = x.id
          · rw [if_pos hid] at hget
            refine ⟨x, hget, ?_⟩
            obtain hp | hp := mem_winners_snoc.mp hp
            · exact hkeep p hp hid.symm
            · obtain ⟨_, _, _, _, _, _, _, _, _, hst⟩ := wins_cases hp
              rw [wins_writes hp] at hx
              obtain rfl := Option.some.inj hx
              exact hst
          · rw [if_neg hid] at hget
            obtain hp | hp := mem_winners_snoc.mp hp
            · obtain ⟨y, hy, hst⟩ := hstored p hp
              exact ⟨y, hget.trans hy, hst⟩
            · rw [wins_writes hp] at hx
              obtain rfl := Option.some.inj hx
              exact absurd rfl hid
  exact hinv.2.1

end A2a
