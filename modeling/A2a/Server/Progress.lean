import A2a.Fairness
import A2a.Server.Owners
import Mathlib.Data.Prod.Lex
import Mathlib.Order.WithBot

/-!
# A2a.Server.Progress

A driver comes to its end.

Every step of a driver brings it nearer (`Driver.next_left`), and at no place
but its end does it wait for anybody (`Driver.ready`); so a scheduler that is
fair to it takes it there (`driver_ends`).
-/

namespace A2a

variable {h : Handler} {x : ExecId} {k : Nat} {s s' s₁ : Server} {a : Action} {t : Thread}
  {task : Task} {inp : Input} {d d' : Driver}

/-! ## how far a driver is from its end -/

/-- The places of a driver, counted from its end. -/
def DrivePc.place : DrivePc → Nat
  | .done => 0
  | .finishing => 1
  | .failPublishing _ _ (.send _) => 2
  | .failPublishing _ _ (.count _) => 3
  | .failPublishing _ _ .write => 4
  | .failPushing _ _ (.send _) => 5
  | .failPushing _ _ .list => 6
  | .failSaving _ _ .create => 7
  | .failSaving _ _ .update => 8
  | .poll => 9
  | .publishing _ (.send _) => 10
  | .publishing _ (.count _) => 11
  | .publishing _ .write => 12
  | .pushing _ (.send _) => 13
  | .pushing _ .list => 14
  | .saving _ _ .create => 15
  | .saving _ _ .update => 16
  | .start => 17

/-- The configurations a push has yet to send to. -/
def DrivePc.pushes : DrivePc → Nat
  | .pushing _ (.send remaining) => remaining.length
  | .failPushing _ _ (.send remaining) => remaining.length
  | _ => 0

/-- The events a driver may yet take. -/
def Driver.events (d : Driver) : WithTop Nat :=
  match d.pc with
  | .start => ⊤
  | _ => WithTop.some d.stream.length

/-- How far a driver is from its end: by events, then by places, then by
pushes. -/
def Driver.left (d : Driver) : WithTop Nat ×ₗ Nat ×ₗ Nat :=
  toLex (d.events, toLex (d.pc.place, d.pc.pushes))

theorem Driver.events_eq (hd : d.pc ≠ .start) : d.events = WithTop.some d.stream.length := by
  unfold events
  split
  · next hpc => exact absurd hpc hd
  · rfl

/-- A driver that took an event, or began. -/
theorem Driver.left_lt_of_events (hd' : d'.pc ≠ .start)
    (hlt : d.pc = .start ∨ d'.stream.length < d.stream.length) : d'.left < d.left := by
  refine Prod.Lex.toLex_lt_toLex.mpr (.inl ?_)
  show d'.events < d.events
  rw [events_eq hd']
  by_cases hpc : d.pc = .start
  · unfold events
    rw [hpc]
    exact WithTop.coe_lt_top _
  · rw [events_eq hpc]
    exact WithTop.coe_lt_coe.mpr (hlt.resolve_left hpc)

/-- A driver with the same event. -/
theorem Driver.left_lt_of_place (hd' : d'.pc ≠ .start) (hd : d.pc ≠ .start)
    (hstream : d'.stream = d.stream)
    (hlt : d'.pc.place < d.pc.place ∨ d'.pc.place = d.pc.place ∧ d'.pc.pushes < d.pc.pushes) :
    d'.left < d.left := by
  refine Prod.Lex.toLex_lt_toLex.mpr (.inr ⟨?_, ?_⟩)
  · show d'.events = d.events
    rw [events_eq hd', events_eq hd, hstream]
  · exact Prod.Lex.toLex_lt_toLex.mpr hlt

theorem Driver.fail_place (d : Driver) (inp : Input) (error : A2AError) :
    ∃ d', d.fail inp error = .drive d' ∧ d'.stream = d.stream ∧ d'.pc.place ≤ 8 ∧
      d'.pc ≠ .start := by
  rw [fail]
  split
  · exact ⟨_, rfl, rfl, by simp [DrivePc.place], by simp⟩
  · exact ⟨_, rfl, rfl, by simp [DrivePc.place], by simp⟩

/-- A driver that fails is nearer its end. -/
theorem Driver.fail_left (hd : 8 < d.pc.place) (hpc : d.pc ≠ .start) (inp : Input)
    (error : A2AError) : ∃ d', d.fail inp error = .drive d' ∧ d'.left < d.left := by
  obtain ⟨d', hfail, hstream, hplace, hpc'⟩ := d.fail_place inp error
  exact ⟨d', hfail, left_lt_of_place hpc' hpc hstream (.inl (Nat.lt_of_le_of_lt hplace hd))⟩

theorem Driver.accept_stream (d : Driver) (inp : Input) (event : StreamResponse) :
    ∃ d', d.accept inp event = .drive d' ∧ d'.stream = d.stream ∧ d'.pc ≠ .start := by
  have hfail (d₁ : Driver) (hstream : d₁.stream = d.stream) (error : A2AError) :
      ∃ d', d₁.fail inp error = .drive d' ∧ d'.stream = d.stream ∧ d'.pc ≠ .start := by
    obtain ⟨d', hfail, hstream', _, hpc⟩ := d₁.fail_place inp error
    exact ⟨d', hfail, hstream'.trans hstream, hpc⟩
  simp only [accept]
  split
  · exact hfail d rfl _
  · split
    · exact ⟨_, rfl, rfl, by simp⟩
    · split
      · exact ⟨_, rfl, rfl, by simp⟩
      · exact hfail _ (by rfl) _

/-- A save that goes on creates the task it could not update. -/
theorem saveStep_again {pc pc' : SavePc} {answer : Except A2AError TaskVersion}
    (h : saveStep pc task answer = .inl pc') : pc = .update ∧ pc' = .create := by
  unfold saveStep at h
  split at h
  · contradiction
  · split at h
    · next hupdate => exact ⟨hupdate.1, (Sum.inl.inj h).symm⟩
    · contradiction

/-- **Every step of a driver** brings it nearer its end. -/
theorem Driver.next_left (d : Driver) (inp : Input) :
    (d.next inp).Post s fun _ t' _ => ∃ d', t' = .drive d' ∧ d'.left < d.left := by
  have hon {pc pc' : DrivePc} {task : Task} (hpc : d.pc = pc) (hstart : pc ≠ .start)
      (hstart' : pc' ≠ .start)
      (hlt : pc'.place < pc.place ∨ pc'.place = pc.place ∧ pc'.pushes < pc.pushes) :
      ∃ d', Thread.drive { d with current := task, pc := pc' } = .drive d' ∧ d'.left < d.left := by
    subst hpc
    exact ⟨_, rfl, left_lt_of_place hstart' hstart rfl hlt⟩
  cases hpc : d.pc <;> simp only [next, hpc]
  case start =>
    exact Cmd.post_of_forall fun _ _ => ⟨_, rfl, left_lt_of_events (by simp) (.inl hpc)⟩
  case poll =>
    cases hstream : d.stream with
    | nil =>
        refine Cmd.post_of_forall fun _ _ => hon hpc (by simp) (by simp) (.inl ?_)
        simp [DrivePc.place]
    | cons item rest =>
        have hlt {d' : Driver} (hrest : d'.stream = rest) (hpc' : d'.pc ≠ .start) :
            d'.left < d.left := by
          refine left_lt_of_events hpc' (.inr ?_)
          rw [hrest, hstream]
          exact Nat.lt_succ_self _
        refine Cmd.post_of_forall fun _ state => ?_
        split
        · exact ⟨_, rfl, hlt rfl (by simp)⟩
        · cases item with
          | ok event =>
              obtain ⟨d', haccept, hrest, hpc'⟩ := accept_stream { d with stream := rest } inp event
              exact ⟨d', haccept, hlt hrest hpc'⟩
          | error error =>
              obtain ⟨d', hfail, hrest, _, hpc'⟩ := fail_place { d with stream := rest } inp error
              exact ⟨d', hfail, hlt hrest hpc'⟩
  case saving event task pc =>
    refine Cmd.post_of_forall fun _ answer => ?_
    split
    · next pc' hstep =>
      obtain ⟨rfl, rfl⟩ := saveStep_again hstep
      exact hon hpc (by simp) (by simp) (.inl (by simp [DrivePc.place]))
    · exact hon hpc (by simp) (by simp) (.inl (by cases pc <;> simp [DrivePc.place]))
    · exact fail_left (by rw [hpc]; cases pc <;> simp [DrivePc.place]) (by simp [hpc]) inp _
  case pushing event pc =>
    obtain _ | _ | ⟨config, rest⟩ := pc
    · refine Cmd.post_of_forall fun _ configs => hon hpc (by simp) (by simp) (.inl ?_)
      simp [DrivePc.place]
    · refine Cmd.post_of_forall fun _ _ => hon hpc (by simp) (by simp) (.inl ?_)
      simp [DrivePc.place]
    · refine Cmd.post_of_forall fun _ o => ?_
      cases o with
      | ok _ =>
          refine hon hpc (by simp) (by simp) (.inr ?_)
          simp [DrivePc.place, DrivePc.pushes]
      | error error => exact fail_left (by simp [hpc, DrivePc.place]) (by simp [hpc]) inp _
  case publishing event pc =>
    have hover (hplace : 9 < (DrivePc.publishing event pc).place) :
        ∃ d', d.goto (if isTerminalEvent event then .finishing else .poll) = .drive d' ∧
          d'.left < d.left := by
      split
      · exact hon hpc (by simp) (by simp) (.inl (Nat.lt_trans (by simp [DrivePc.place]) hplace))
      · exact hon hpc (by simp) (by simp) (.inl hplace)
    cases pc with
    | write =>
        refine Cmd.post_of_forall fun _ _ => hon hpc (by simp) (by simp) (.inl ?_)
        simp [DrivePc.place]
    | count sequence =>
        refine Cmd.post_of_forall fun _ heard => ?_
        cases heard with
        | true => exact hon hpc (by simp) (by simp) (.inl (by simp [DrivePc.place]))
        | false => exact hover (by simp [DrivePc.place])
    | send sequence => exact Cmd.post_of_forall fun _ _ => hover (by simp [DrivePc.place])
  case failSaving error task pc =>
    refine Cmd.post_of_forall fun _ answer => ?_
    split
    · next pc' hstep =>
      obtain ⟨rfl, rfl⟩ := saveStep_again hstep
      exact hon hpc (by simp) (by simp) (.inl (by simp [DrivePc.place]))
    · exact hon hpc (by simp) (by simp) (.inl (by cases pc <;> simp [DrivePc.place]))
    · exact hon hpc (by simp) (by simp) (.inl (by cases pc <;> simp [DrivePc.place]))
  case failPushing error task pc =>
    obtain _ | _ | ⟨config, rest⟩ := pc
    · refine Cmd.post_of_forall fun _ configs => hon hpc (by simp) (by simp) (.inl ?_)
      simp [DrivePc.place]
    · refine Cmd.post_of_forall fun _ _ => hon hpc (by simp) (by simp) (.inl ?_)
      simp [DrivePc.place]
    · refine Cmd.post_of_forall fun _ o => ?_
      cases o with
      | ok _ =>
          refine hon hpc (by simp) (by simp) (.inr ?_)
          simp [DrivePc.place, DrivePc.pushes]
      | error _ => exact hon hpc (by simp) (by simp) (.inl (by simp [DrivePc.place]))
  case failPublishing error failed pc =>
    cases pc with
    | write =>
        refine Cmd.post_of_forall fun _ _ => hon hpc (by simp) (by simp) (.inl ?_)
        simp [DrivePc.place]
    | count sequence =>
        refine Cmd.post_of_forall fun _ heard => ?_
        cases heard <;> exact hon hpc (by simp) (by simp) (.inl (by simp [DrivePc.place]))
    | send sequence =>
        refine Cmd.post_of_forall fun _ _ => hon hpc (by simp) (by simp) (.inl ?_)
        simp [DrivePc.place]
  case finishing =>
    refine Cmd.post_of_forall fun _ _ => hon hpc (by simp) (by simp) (.inl ?_)
    simp [DrivePc.place]
  case done => exact Cmd.post_halt

/-! ## a driver comes to its end -/

/-- The steps of a thread. -/
def StepsOf (k : Nat) (a : Action) : Prop := ∃ inp, a = .step k inp

/-- The operation of a command does not have to wait. -/
def Cmd.Ready (cmd : Cmd) (s : Server) : Prop := (cmd.op.run s).isSome = true

theorem enabled_of_ready (hk : s.threads[k]? = some t) (hready : (t.next h inp).Ready s) :
    (serverMachine h).Enabled (StepsOf k) s := by
  have hstep : (Server.step h s (.step k inp)).isSome = true := by
    simp only [Server.step, hk, Option.bind_some, Server.exec, Option.isSome_map]
    exact hready
  obtain ⟨s', hs'⟩ := Option.isSome_iff_exists.mp hstep
  exact ⟨.step k inp, s', ⟨inp, rfl⟩, hs'⟩

theorem saveOp_ready {pc : SavePc} {k : Except A2AError TaskVersion → Thread} :
    ((saveOp task pc).andThen k).Ready s := by
  cases pc <;> rfl

theorem pushCmd_ready {taskId : TaskId} {event : StreamResponse} {pc : PushPc}
    {k : PushPc ⊕ Except A2AError Unit → Thread}
    (hconfigs : (↑inp.configs : Multiset TaskPushNotificationConfig) = s.pushTargets taskId) :
    (pushCmd inp taskId event pc k).Ready s := by
  obtain _ | _ | ⟨config, rest⟩ := pc
  · show (Op.run s (.listPushConfigs taskId inp.configs)).isSome = true
    rw [Op.run, if_pos hconfigs]
    rfl
  · rfl
  · rfl

theorem publishCmd_ready {item : Item} {snapshot : Option Task} {pc : PublishPc}
    {k : Option PublishPc → Thread} (hx : x < s.executions.length) :
    (publishCmd x item snapshot pc k).Ready s := by
  cases pc with
  | write =>
      show (Op.run s (.publish x snapshot)).isSome = true
      rw [Op.run, List.getElem?_eq_getElem hx]
      rfl
  | count sequence => rfl
  | send sequence => rfl

/-- A driver that is not done can go on. -/
theorem Driver.ready (hx : d.exec < s.executions.length) (hd : d.pc ≠ .done) :
    ∃ inp, (d.next inp).Ready s := by
  have hread (k : Task × Nat → Thread) : ((Op.readState d.exec).andThen k).Ready s := by
    show (Op.run s (.readState d.exec)).isSome = true
    rw [Op.run, List.getElem?_eq_getElem hx]
    rfl
  let listing (taskId : TaskId) : Input :=
    { Input.emitting [] with configs := (s.pushTargets taskId).toList }
  have hlisting (taskId : TaskId) : (↑(listing taskId).configs :
      Multiset TaskPushNotificationConfig) = s.pushTargets taskId := Multiset.coe_toList _
  cases hpc : d.pc with
  | start => exact ⟨.emitting [], by simp only [next, hpc]; exact hread _⟩
  | poll =>
      refine ⟨.emitting [], ?_⟩
      simp only [next, hpc]
      split
      · rfl
      · exact hread _
  | saving event task pc => exact ⟨.emitting [], by simp only [next, hpc]; exact saveOp_ready⟩
  | pushing event pc =>
      exact ⟨listing d.taskId, by simp only [next, hpc]; exact pushCmd_ready (hlisting _)⟩
  | publishing event pc =>
      exact ⟨.emitting [], by simp only [next, hpc]; exact publishCmd_ready hx⟩
  | failSaving error task pc => exact ⟨.emitting [], by simp only [next, hpc]; exact saveOp_ready⟩
  | failPushing error task pc =>
      exact ⟨listing task.id, by simp only [next, hpc]; exact pushCmd_ready (hlisting _)⟩
  | failPublishing error failed pc =>
      exact ⟨.emitting [], by simp only [next, hpc]; exact publishCmd_ready hx⟩
  | finishing => exact ⟨.emitting [], by simp only [next, hpc]; rfl⟩
  | done => exact absurd hpc hd

/-- A thread that is no stream does not act, or takes its next step. -/
theorem step_thread (hk : s.threads[k]? = some t) (hdrop : t.drop = ⟨.halt, Empty.elim⟩)
    (hs : Server.step h s a = some s') : (¬ StepsOf k a ∧ s'.threads[k]? = some t) ∨
      ∃ inp s₁ b, a = .step k inp ∧ s.runs h a k t (t.next h inp) ∧
        s.Ran k (t.next h inp) s' s₁ b := by
  obtain ⟨request, rfl, rfl⟩ | ⟨j, u, cmd, s₁, b, hruns, hran⟩ := step_cases hs
  · left
    rw [List.getElem?_append_left (List.getElem?_eq_some_iff.mp hk).1]
    exact ⟨by rintro ⟨_, ha⟩; contradiction, hk⟩
  · by_cases hkj : k = j
    · subst hkj
      right
      obtain rfl := Option.some.inj (hk.symm.trans hruns.1)
      obtain ⟨inp, rfl, rfl⟩ := hruns.next hran hdrop
      exact ⟨inp, s₁, b, rfl, hruns, hran⟩
    · left
      refine ⟨?_, hran.getElem_other hkj hk⟩
      rintro ⟨inp, rfl⟩
      obtain ⟨_, ⟨_, ha, _⟩ | ⟨ha, _⟩⟩ := hruns
      · exact hkj (Action.step.inj ha).1
      · contradiction

/-- What a step makes of a driver. -/
theorem step_driver (hk : s.threads[k]? = some (.drive d)) (hs : Server.step h s a = some s') :
    (¬ StepsOf k a ∧ s'.threads[k]? = some (.drive d)) ∨
      (d.pc ≠ .done ∧ ∃ d', s'.threads[k]? = some (.drive d') ∧ d'.exec = d.exec ∧
        d'.left < d.left) := by
  obtain hidle | ⟨inp, s₁, b, rfl, hruns, hran⟩ := step_thread hk rfl hs
  · exact .inl hidle
  · have hcont := hran.post hruns.continues
    have hself := hran.getElem_self hk
    obtain ⟨d', hd', hleft⟩ := hran.post (d.next_left inp)
    rw [hd'] at hcont hself
    refine .inr ⟨fun hdone => ?_, d', hself, hcont.2.1, hleft⟩
    have hhalt : ((Thread.drive d).next h inp).Post s fun _ _ _ => False := by
      simp only [Thread.next, Driver.next, hdone]
      exact Cmd.post_halt
    exact hran.post hhalt

/-- How far a thread is from its end, if it is a driver. -/
def Thread.left : Thread → WithTop Nat ×ₗ Nat ×ₗ Nat
  | .drive d => d.left
  | _ => toLex (⊤, toLex (0, 0))

/-- **A driver comes to its end** under a scheduler that is fair to it. -/
theorem driver_ends {r : (serverMachine h).Unending} (hfair : r.Fair (StepsOf k))
    (howned : ∀ n, Owned (r.state n)) {n : Nat} (hk : (r.state n).threads[k]? = some (.drive d))
    (hx : d.exec = x) : ∃ m, n ≤ m ∧ ∃ d', (r.state m).threads[k]? = some (.drive d') ∧
      d'.exec = x ∧ d'.pc = .done := by
  by_cases hdone : d.pc = .done
  · exact ⟨n, Nat.le_refl n, d, hk, hx, hdone⟩
  · let going (m : Nat) : Prop := ∃ d, (r.state m).threads[k]? = some (.drive d) ∧ d.exec = x ∧
      d.pc ≠ .done
    let ended (m : Nat) : Prop := ∃ d, (r.state m).threads[k]? = some (.drive d) ∧ d.exec = x ∧
      d.pc = .done
    refine hfair.reaches (P := going) (Q := ended)
      (fun m => (r.state m).view (toLex (⊤, toLex (0, 0))) Thread.left k) (fun m hm => ?_)
      (fun m hm => ?_) ⟨d, hk, hx, hdone⟩
    · obtain ⟨d, hk, rfl, hd⟩ := hm
      obtain ⟨inp, hready⟩ := Driver.ready ((howned m).started k _ _ hk rfl) hd
      exact enabled_of_ready hk hready
    · obtain ⟨d, hk, hx, hd⟩ := hm
      obtain ⟨hidle, hsame⟩ | ⟨_, d', hk', hexec, hleft⟩ := step_driver hk (r.step m)
      · refine .inr ⟨⟨d, hsame, hx, hd⟩, le_of_eq ?_, fun hA => absurd hA hidle⟩
        rw [Server.view_of_getElem hk, Server.view_of_getElem hsame]
      · by_cases hd' : d'.pc = .done
        · exact .inl ⟨d', hk', hexec.trans hx, hd'⟩
        · have hlt : (r.state (m + 1)).view (toLex (⊤, toLex (0, 0))) Thread.left k <
              (r.state m).view (toLex (⊤, toLex (0, 0))) Thread.left k := by
            rw [Server.view_of_getElem hk, Server.view_of_getElem hk']
            exact hleft
          exact .inr ⟨⟨d', hk', hexec.trans hx, hd'⟩, le_of_lt hlt, fun _ => hlt⟩

end A2a
