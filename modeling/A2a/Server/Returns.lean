import A2a.Server.Closing

/-!
# A2a.Server.Returns

What every call comes to, under a fair scheduler.

A cancel returns whatever the others do: no step of it waits, and each brings
it nearer its answer (`CancelCall.next_left`).  So every channel is closed in
the end (`execution_ends`), and then who follows it comes to an end too
(`send_returns`).
-/

namespace A2a

variable {h : Handler} {id : TaskId} {x : ExecId} {i k n : Nat} {tr : List (Server × Action)}
  {s s' s₁ : Server} {a : Action} {t t' : Thread} {inp : Input} {task : Task}
  {taskStore : InMemoryTaskStore} {pushConfigStore : Option InMemoryPushConfigStore}
  {pushSender : Bool} {r : (serverMachine h).Unending}

/-! ## one thread -/

/-- What a step makes of a thread: nothing, its next step, or its drop. -/
theorem step_at (hk : s.threads[k]? = some t) (hs : Server.step h s a = some s') :
    (¬ StepsOf k a ∧ s'.threads[k]? = some t) ∨
      (∃ inp s₁ b, s.Ran k (t.next h inp) s' s₁ b) ∨ ∃ s₁ b, s.Ran k t.drop s' s₁ b := by
  obtain ⟨request, rfl, rfl⟩ | ⟨j, u, cmd, s₁, b, hruns, hran⟩ := step_cases hs
  · left
    rw [List.getElem?_append_left (List.getElem?_eq_some_iff.mp hk).1]
    exact ⟨by rintro ⟨_, ha⟩; contradiction, hk⟩
  · by_cases hkj : k = j
    · subst hkj
      right
      obtain rfl := Option.some.inj (hk.symm.trans hruns.1)
      obtain ⟨_, ⟨inp, _, rfl⟩ | ⟨_, rfl⟩⟩ := hruns
      · exact .inl ⟨inp, s₁, b, hran⟩
      · exact .inr ⟨s₁, b, hran⟩
    · left
      refine ⟨?_, hran.getElem_other hkj hk⟩
      rintro ⟨inp, rfl⟩
      obtain ⟨_, ⟨_, ha, _⟩ | ⟨ha, _⟩⟩ := hruns
      · exact hkj (Action.step.inj ha).1
      · contradiction

/-- **A thread comes to `Q`** under a scheduler that is fair to it, if from `P`
it can go on, and with each step lowers its rank. -/
theorem thread_comes {β : Type} [PartialOrder β] [WellFoundedLT β] (hfair : r.Fair (StepsOf k))
    {P Q : Thread → Prop} (rank : Thread → β)
    (hready : ∀ m t, n ≤ m → (r.state m).threads[k]? = some t → P t →
      ∃ inp, (t.next h inp).Ready (r.state m))
    (hnext : ∀ m t inp, n ≤ m → (r.state m).threads[k]? = some t → P t →
      (t.next h inp).Post (r.state m) fun _ t' _ => Q t' ∨ (P t' ∧ rank t' < rank t))
    (hdrop : ∀ t, P t → t.drop = ⟨.halt, Empty.elim⟩ ∨ Q .dropped)
    (hk : (r.state n).threads[k]? = some t) (ht : P t) :
    ∃ m, n ≤ m ∧ ∃ t', (r.state m).threads[k]? = some t' ∧ Q t' := by
  let going (m : Nat) : Prop := n ≤ m ∧ ∃ t, (r.state m).threads[k]? = some t ∧ P t
  let come (m : Nat) : Prop := ∃ t, (r.state m).threads[k]? = some t ∧ Q t
  refine hfair.reaches (P := going) (Q := come) (fun m => (r.state m).view (rank t) rank k)
    (fun m hm => ?_) (fun m hm => ?_) ⟨Nat.le_refl n, t, hk, ht⟩
  · obtain ⟨hle, u, hu, hP⟩ := hm
    obtain ⟨inp, hready⟩ := hready m u hle hu hP
    exact enabled_of_ready hu hready
  · obtain ⟨hle, u, hu, hP⟩ := hm
    have hle' : n ≤ m + 1 := Nat.le_succ_of_le hle
    obtain ⟨hidle, hsame⟩ | ⟨inp, s₁, b, hran⟩ | ⟨s₁, b, hran⟩ := step_at hu (r.step m)
    · refine .inr ⟨⟨hle', u, hsame, hP⟩, le_of_eq ?_, fun hacts => absurd hacts hidle⟩
      rw [Server.view_of_getElem hu, Server.view_of_getElem hsame]
    · have hself := hran.getElem_self hu
      obtain hQ | ⟨hP', hlt⟩ := hran.post (hnext m u inp hle hu hP)
      · exact .inl ⟨_, hself, hQ⟩
      · rw [← Server.view_of_getElem (d := rank t) (f := rank) hu,
          ← Server.view_of_getElem (d := rank t) (f := rank) hself] at hlt
        exact .inr ⟨⟨hle', _, hself, hP'⟩, le_of_lt hlt, fun _ => hlt⟩
    · have hself := hran.getElem_self hu
      obtain hhalt | hQ := hdrop u hP
      · have hnever : u.drop.Post (r.state m) fun _ _ _ => False := by
          rw [hhalt]
          exact Cmd.post_halt
        exact (hran.post hnever).elim
      · rw [(hran.post (Thread.drop_dropped u)).1] at hself
        exact .inl ⟨_, hself, hQ⟩

/-- A server that a call has just arrived at. -/
def calledOn (request : Request) : Server := { awaitingInput with threads := [request.thread] }

/-- It is reached, and from every state a fair scheduler goes on. -/
theorem fair_from (s : Server) :
    ∃ r : (serverMachine h).Unending, r.state 0 = s ∧ ∀ j, r.Fair (StepsOf j) :=
  Machine.exists_fair StepsOf (fun _ => ⟨.call (.cancel (.of "t")), _, rfl⟩) s

theorem run_calledOn (request : Request) :
    (serverMachine .new).Run awaitingInput [(awaitingInput, .call request)] (calledOn request) :=
  .snoc .nil rfl

/-! ## a cancel -/

/-- The places of a cancel, counted from its end. -/
def CancelPc.place : CancelPc → Nat
  | .returned _ => 0
  | .dropping _ _ (.handing _) => 1
  | .dropping _ _ .take => 2
  | .releasing _ _ (.handing _) => 3
  | .releasing _ _ .take => 4
  | .finalPushing _ _ (.send _) => 5
  | .finalPushing _ _ .list => 6
  | .finalLoad _ => 7
  | .finishing _ => 8
  | .failPushing _ _ _ (.send _) => 9
  | .failPushing _ _ _ .list => 10
  | .failLoad _ _ => 11
  | .failPublishing _ _ (.send _) => 12
  | .failPublishing _ _ (.count _) => 13
  | .failPublishing _ _ .write => 14
  | .polling _ => 15
  | .publishing _ _ (.send _) => 16
  | .publishing _ _ (.count _) => 17
  | .publishing _ _ .write => 18
  | .pushing _ _ (.send _) => 19
  | .pushing _ _ .list => 20
  | .saving _ _ _ .create => 21
  | .saving _ _ _ .update => 22
  | .getActive _ => 23
  | .raced _ => 24
  | .beginCancel => 25
  | .load => 26

/-- What a cancel has yet to send to, or to hand out, where it is. -/
def CancelPc.pushes : CancelPc → Nat
  | .dropping _ _ (.handing remaining) => remaining.length
  | .releasing _ _ (.handing remaining) => remaining.length
  | .finalPushing _ _ (.send remaining) => remaining.length
  | .failPushing _ _ _ (.send remaining) => remaining.length
  | .pushing _ _ (.send remaining) => remaining.length
  | _ => 0

/-- The events of its executor a cancel may yet take. -/
def CancelPc.events : CancelPc → WithTop Nat
  | .load => ⊤
  | .beginCancel => ⊤
  | .raced _ => ⊤
  | .getActive _ => ⊤
  | .polling c => WithTop.some c.stream.length
  | .saving c _ _ _ => WithTop.some c.stream.length
  | .pushing c _ _ => WithTop.some c.stream.length
  | .publishing c _ _ => WithTop.some c.stream.length
  | _ => ⊥

/-- How far a cancel is from its answer: by events, then by places, then by
pushes. -/
def CancelPc.left (pc : CancelPc) : WithTop Nat ×ₗ Nat ×ₗ Nat :=
  toLex (pc.events, toLex (pc.place, pc.pushes))

theorem CancelPc.left_lt {pc pc' : CancelPc} (hevents : pc'.events ≤ pc.events)
    (hlt : pc'.place < pc.place ∨ pc'.place = pc.place ∧ pc'.pushes < pc.pushes) :
    pc'.left < pc.left := by
  refine Prod.Lex.toLex_lt_toLex.mpr ?_
  obtain hlower | hsame := lt_or_eq_of_le hevents
  · exact .inl hlower
  · exact .inr ⟨hsame, Prod.Lex.toLex_lt_toLex.mpr hlt⟩

theorem CancelPc.left_lt_of_events {pc pc' : CancelPc} (hevents : pc'.events < pc.events) :
    pc'.left < pc.left := Prod.Lex.toLex_lt_toLex.mpr (.inl hevents)

/-- A cancel after its loop is nearer its answer. -/
theorem CancelCall.afterLoop_left {c : Cancelling} {pc : CancelPc} (hplace : 8 < pc.place) :
    (afterLoop c).left < pc.left := by
  unfold afterLoop
  split
  · exact CancelPc.left_lt bot_le (.inl hplace)
  · exact CancelPc.left_lt bot_le (.inl (Nat.lt_of_succ_lt hplace))

theorem CancelCall.fail_left {c : Cancelling} {error : A2AError} {pc : CancelPc}
    (hplace : 2 < pc.place) : (fail c error).left < pc.left :=
  CancelPc.left_lt bot_le (.inl hplace)

theorem CancelCall.afterEvent_left {c : Cancelling} {event : StreamResponse} {pc : CancelPc}
    (hevents : WithTop.some c.stream.length ≤ pc.events) (hplace : 15 < pc.place) :
    (afterEvent c event).left < pc.left := by
  unfold afterEvent
  split
  · exact afterLoop_left (Nat.lt_of_le_of_lt (by decide) hplace)
  · exact CancelPc.left_lt hevents (.inl hplace)

/-- A cancel that took an event. -/
theorem CancelCall.accept_left {c : Cancelling} {event : StreamResponse} {pc : CancelPc}
    (hevents : WithTop.some c.stream.length < pc.events) (hplace : 2 < pc.place) :
    (accept c inp event).left < pc.left := by
  simp only [accept]
  split
  · exact CancelPc.left_lt_of_events hevents
  · split
    · exact CancelPc.left_lt_of_events hevents
    · exact fail_left hplace

/-- **Every step of a cancel** brings it nearer its answer. -/
theorem CancelCall.next_left (call : CancelCall) (pc : CancelPc) (inp : Input) :
    (call.next h inp pc).Post s fun _ t' _ => ∃ pc', t' = .cancel call pc' ∧ pc'.left < pc.left := by
  have hreturn {result : Except A2AError Task} (hplace : 0 < pc.place) :
      ∃ pc', Thread.cancel call (.returned result) = .cancel call pc' ∧ pc'.left < pc.left :=
    ⟨_, rfl, CancelPc.left_lt bot_le (.inl hplace)⟩
  cases pc <;> simp only [next]
  case load =>
    have hto {pc' : CancelPc} (hplace : pc'.place < 26) :
        ∃ pc₁, Thread.cancel call pc' = .cancel call pc₁ ∧ pc₁.left < CancelPc.load.left :=
      ⟨pc', rfl, CancelPc.left_lt le_top (.inl hplace)⟩
    split
    · exact Cmd.post_of_forall fun _ _ => hto (by simp [CancelPc.place])
    · refine Cmd.post_of_forall fun _ o => ?_
      cases o with
      | none => exact hto (by simp [CancelPc.place])
      | some task => dsimp only; split_ifs <;> exact hto (by simp [CancelPc.place])
  case beginCancel =>
    refine Cmd.post_of_forall fun _ o => ?_
    cases o with
    | ok task => exact ⟨_, rfl, CancelPc.left_lt le_top (.inl (by simp [CancelPc.place]))⟩
    | error error =>
        dsimp only
        split
        · exact ⟨_, rfl, CancelPc.left_lt le_top (.inl (by simp [CancelPc.place]))⟩
        · exact hreturn (by simp [CancelPc.place])
  case raced error =>
    refine Cmd.post_of_forall fun _ o => ?_
    cases o with
    | none => exact hreturn (by simp [CancelPc.place])
    | some task => dsimp only; split <;> exact hreturn (by simp [CancelPc.place])
  case getActive task =>
    exact Cmd.post_of_forall fun _ active =>
      ⟨_, rfl, CancelPc.left_lt_of_events (WithTop.coe_lt_top _)⟩
  case polling c =>
    refine Cmd.post_of_forall fun _ _ => ?_
    obtain ⟨task, active, ctx, current, stream, terminalPushed⟩ := c
    cases stream with
    | nil => exact ⟨_, rfl, afterLoop_left (by simp [CancelPc.place])⟩
    | cons item rest =>
        cases item with
        | ok event =>
            refine ⟨_, rfl, accept_left ?_ (by simp [CancelPc.place])⟩
            exact WithTop.coe_lt_coe.mpr (Nat.lt_succ_self _)
        | error error =>
            dsimp only
            split
            · exact ⟨_, rfl, CancelPc.left_lt bot_le (.inl (by simp [CancelPc.place]))⟩
            · exact ⟨_, rfl, CancelPc.left_lt bot_le (.inl (by simp [CancelPc.place]))⟩
  case saving c event task pc =>
    refine Cmd.post_of_forall fun _ answer => ?_
    split
    · next pc' hstep =>
      obtain ⟨rfl, rfl⟩ := saveStep_again hstep
      exact ⟨_, rfl, CancelPc.left_lt (le_refl _) (.inl (by simp [CancelPc.place]))⟩
    · exact ⟨_, rfl, CancelPc.left_lt (le_refl _) (.inl (by cases pc <;> simp [CancelPc.place]))⟩
    · exact ⟨_, rfl, fail_left (by cases pc <;> simp [CancelPc.place])⟩
  case pushing c event pc =>
    have hover : ∃ pc', Thread.cancel call (if c.active.isSome then .publishing c event .write
        else afterEvent c event) = .cancel call pc' ∧
          pc'.left < (CancelPc.pushing c event pc).left := by
      refine ⟨_, rfl, ?_⟩
      split
      · exact CancelPc.left_lt (le_refl _) (.inl (by cases pc <;> simp [CancelPc.place]))
      · exact afterEvent_left (le_refl _) (by cases pc <;> simp [CancelPc.place])
    obtain _ | _ | ⟨config, rest⟩ := pc
    · exact Cmd.post_of_forall fun _ _ =>
        ⟨_, rfl, CancelPc.left_lt (le_refl _) (.inl (by simp [CancelPc.place]))⟩
    · refine Cmd.post_of_forall fun _ _ => ?_
      dsimp only
      split
      · next hactive => rw [if_pos hactive] at hover; exact hover
      · next hactive => rw [if_neg hactive] at hover; exact hover
    · refine Cmd.post_of_forall fun _ o => ?_
      cases o with
      | ok _ =>
          exact ⟨_, rfl, CancelPc.left_lt (le_refl _) (.inr ⟨rfl, Nat.lt_succ_self _⟩)⟩
      | error error => exact ⟨_, rfl, fail_left (by simp [CancelPc.place])⟩
  case publishing c event pc =>
    have hover : (afterEvent c event).left < (CancelPc.publishing c event pc).left :=
      afterEvent_left (le_refl _) (by cases pc <;> simp [CancelPc.place])
    split
    · exact Cmd.post_of_forall fun _ _ => ⟨_, rfl, hover⟩
    · cases pc with
      | write =>
          exact Cmd.post_of_forall fun _ _ =>
            ⟨_, rfl, CancelPc.left_lt (le_refl _) (.inl (by simp [CancelPc.place]))⟩
      | count sequence =>
          refine Cmd.post_of_forall fun _ heard => ?_
          cases heard with
          | true => exact ⟨_, rfl, CancelPc.left_lt (le_refl _) (.inl (by simp [CancelPc.place]))⟩
          | false => exact ⟨_, rfl, hover⟩
      | send sequence => exact Cmd.post_of_forall fun _ _ => ⟨_, rfl, hover⟩
  case failPublishing c error pc =>
    have hover : (CancelPc.failLoad c error).left < (CancelPc.failPublishing c error pc).left :=
      CancelPc.left_lt bot_le (.inl (by cases pc <;> simp [CancelPc.place]))
    split
    · exact Cmd.post_of_forall fun _ _ => ⟨_, rfl, hover⟩
    · cases pc with
      | write =>
          exact Cmd.post_of_forall fun _ _ =>
            ⟨_, rfl, CancelPc.left_lt bot_le (.inl (by simp [CancelPc.place]))⟩
      | count sequence =>
          refine Cmd.post_of_forall fun _ heard => ?_
          cases heard with
          | true => exact ⟨_, rfl, CancelPc.left_lt bot_le (.inl (by simp [CancelPc.place]))⟩
          | false => exact ⟨_, rfl, hover⟩
      | send sequence => exact Cmd.post_of_forall fun _ _ => ⟨_, rfl, hover⟩
  case failLoad c error =>
    refine Cmd.post_of_forall fun _ o => ?_
    cases o with
    | none => exact ⟨_, rfl, fail_left (by simp [CancelPc.place])⟩
    | some task => exact ⟨_, rfl, CancelPc.left_lt bot_le (.inl (by simp [CancelPc.place]))⟩
  case failPushing c error task pc =>
    obtain _ | _ | ⟨config, rest⟩ := pc
    · exact Cmd.post_of_forall fun _ _ =>
        ⟨_, rfl, CancelPc.left_lt bot_le (.inl (by simp [CancelPc.place]))⟩
    · exact Cmd.post_of_forall fun _ _ => ⟨_, rfl, fail_left (by simp [CancelPc.place])⟩
    · refine Cmd.post_of_forall fun _ o => ?_
      cases o with
      | ok _ =>
          exact ⟨_, rfl, CancelPc.left_lt bot_le (.inr ⟨rfl, Nat.lt_succ_self _⟩)⟩
      | error _ => exact ⟨_, rfl, fail_left (by simp [CancelPc.place])⟩
  case finishing c =>
    split
    · exact Cmd.post_of_forall fun _ _ =>
        ⟨_, rfl, CancelPc.left_lt bot_le (.inl (by simp [CancelPc.place]))⟩
    · exact Cmd.post_of_forall fun _ _ =>
        ⟨_, rfl, CancelPc.left_lt bot_le (.inl (by simp [CancelPc.place]))⟩
  case finalLoad c =>
    refine Cmd.post_of_forall fun _ o => ?_
    cases o with
    | none => exact ⟨_, rfl, fail_left (by simp [CancelPc.place])⟩
    | some task =>
        dsimp only
        split
        · exact ⟨_, rfl, CancelPc.left_lt bot_le (.inl (by simp [CancelPc.place]))⟩
        · exact ⟨_, rfl, CancelPc.left_lt bot_le (.inl (by simp [CancelPc.place]))⟩
  case finalPushing c task pc =>
    obtain _ | _ | ⟨config, rest⟩ := pc
    · exact Cmd.post_of_forall fun _ _ =>
        ⟨_, rfl, CancelPc.left_lt bot_le (.inl (by simp [CancelPc.place]))⟩
    · exact Cmd.post_of_forall fun _ _ =>
        ⟨_, rfl, CancelPc.left_lt bot_le (.inl (by simp [CancelPc.place]))⟩
    · refine Cmd.post_of_forall fun _ o => ?_
      cases o with
      | ok _ =>
          exact ⟨_, rfl, CancelPc.left_lt bot_le (.inr ⟨rfl, Nat.lt_succ_self _⟩)⟩
      | error _ => exact ⟨_, rfl, fail_left (by simp [CancelPc.place])⟩
  case releasing c task pc =>
    obtain _ | _ | ⟨w, rest⟩ := pc
    · exact Cmd.post_of_forall fun _ _ =>
        ⟨_, rfl, CancelPc.left_lt bot_le (.inl (by simp [CancelPc.place]))⟩
    · exact Cmd.post_of_forall fun _ _ =>
        ⟨_, rfl, CancelPc.left_lt bot_le (.inl (by simp [CancelPc.place]))⟩
    · exact Cmd.post_of_forall fun _ _ =>
        ⟨_, rfl, CancelPc.left_lt bot_le (.inr ⟨rfl, Nat.lt_succ_self _⟩)⟩
  case dropping task result pc =>
    obtain _ | _ | ⟨w, rest⟩ := pc
    · exact Cmd.post_of_forall fun _ _ =>
        ⟨_, rfl, CancelPc.left_lt bot_le (.inl (by simp [CancelPc.place]))⟩
    · exact Cmd.post_of_forall fun _ _ => hreturn (by simp [CancelPc.place])
    · exact Cmd.post_of_forall fun _ _ =>
        ⟨_, rfl, CancelPc.left_lt bot_le (.inr ⟨rfl, Nat.lt_succ_self _⟩)⟩
  case returned => exact Cmd.post_halt

/-- A cancel that has not returned can go on. -/
theorem CancelCall.ready {call : CancelCall} {pc : CancelPc}
    (hheld : ∀ x, (Thread.cancel call pc).holds = some x → x < s.executions.length)
    (hpc : ∀ result, pc ≠ .returned result) : ∃ inp, (call.next h inp pc).Ready s := by
  let listing : Input :=
    { Input.emitting [] with configs := (s.pushTargets call.req.id).toList }
  have hlisting : (↑listing.configs : Multiset TaskPushNotificationConfig) =
      s.pushTargets call.req.id := Multiset.coe_toList _
  cases pc with
  | load =>
      refine ⟨listing, ?_⟩
      simp only [next]
      split <;> rfl
  | saving c event task pc => exact ⟨listing, saveOp_ready⟩
  | pushing c event pc => exact ⟨listing, pushCmd_ready hlisting⟩
  | failPushing c error task pc => exact ⟨listing, pushCmd_ready hlisting⟩
  | finalPushing c task pc => exact ⟨listing, pushCmd_ready hlisting⟩
  | publishing c event pc =>
      refine ⟨listing, ?_⟩
      simp only [next]
      split
      · rfl
      · next hactive => exact publishCmd_ready (hheld _ hactive)
  | failPublishing c error pc =>
      refine ⟨listing, ?_⟩
      simp only [next]
      split
      · rfl
      · next hactive => exact publishCmd_ready (hheld _ hactive)
  | finishing c =>
      refine ⟨listing, ?_⟩
      simp only [next]
      split <;> rfl
  | releasing c task pc => obtain _ | _ | ⟨w, rest⟩ := pc <;> exact ⟨listing, rfl⟩
  | dropping task result pc => obtain _ | _ | ⟨w, rest⟩ := pc <;> exact ⟨listing, rfl⟩
  | returned result => exact absurd rfl (hpc result)
  | _ => exact ⟨listing, rfl⟩

/-- What is held was started. -/
theorem Closing.held (hc : Closing tr s) (ht : t ∈ s.threads) (hx : t.holds = some x) :
    x < s.executions.length := by
  have hown (ho : t.owns = some x) : x < s.executions.length := by
    obtain ⟨k, hk⟩ := List.mem_iff_getElem?.mp ht
    exact hc.owned.started k t x hk ho
  cases t with
  | send call pc => cases pc <;> first | contradiction | exact hown hx
  | drive d =>
      refine hown ?_
      obtain ⟨taskId, y, ctx, current, stream, answered, tracked, pc⟩ := d
      cases pc <;> first | exact hx | contradiction
  | cancel call pc =>
      obtain ⟨active, hactive, _⟩ := taskOf_eq_some.mp (hc.cancels call pc ht x hx)
      exact (List.getElem?_eq_some_iff.mp hactive).1
  | _ => contradiction

/-- What holds at the start of a run that never ends holds in all of it. -/
theorem Closing.unending (hc : Closing tr (r.state 0)) (n : Nat) :
    Closing (tr ++ r.trace n) (r.state n) := by
  induction n with
  | zero =>
      rw [Machine.Unending.trace, List.append_nil]
      exact hc
  | succ n ih =>
      rw [Machine.Unending.trace, ← List.append_assoc]
      exact ih.step (r.step n)

/-- How far a thread is from its end, if it is a cancel. -/
def Thread.toReturn : Thread → WithTop Nat ×ₗ Nat ×ₗ Nat
  | .cancel _ pc => pc.left
  | _ => toLex (⊤, toLex (0, 0))

theorem Closing.cancel_over (hc : Closing tr (r.state 0)) (hfair : r.Fair (StepsOf k))
    {call : CancelCall} {pc : CancelPc} (hk : (r.state n).threads[k]? = some (.cancel call pc)) :
    ∃ m, n ≤ m ∧ ∃ result, (r.state m).threads[k]? = some (.cancel call (.returned result)) := by
  by_cases hpc : ∃ result, pc = .returned result
  · obtain ⟨result, rfl⟩ := hpc
    exact ⟨n, Nat.le_refl n, result, hk⟩
  let going (t : Thread) : Prop := ∃ pc, t = .cancel call pc ∧ ∀ result, pc ≠ .returned result
  let come (t : Thread) : Prop := ∃ result, t = .cancel call (.returned result)
  suffices hcomes : ∃ m, n ≤ m ∧ ∃ t, (r.state m).threads[k]? = some t ∧ come t by
    obtain ⟨m, hm, t, ht, result, rfl⟩ := hcomes
    exact ⟨m, hm, result, ht⟩
  refine thread_comes hfair (P := going) Thread.toReturn (fun m t _ ht hP => ?_)
    (fun m t inp _ ht hP => ?_) (fun t hP => ?_) hk ⟨pc, rfl, fun result h => hpc ⟨result, h⟩⟩
  · obtain ⟨pc, rfl, hpc⟩ := hP
    exact CancelCall.ready (fun x hx => (hc.unending m).held (List.mem_of_getElem? ht) hx) hpc
  · obtain ⟨pc, rfl, hpc⟩ := hP
    intro s₁ b hrun
    obtain ⟨pc', hpc', hlt⟩ : ∃ pc', (((Thread.cancel call pc).next h inp).resume b).1 =
      .cancel call pc' ∧ pc'.left < pc.left := call.next_left pc inp s₁ b hrun
    rw [hpc']
    by_cases hreturned : ∃ result, pc' = .returned result
    · obtain ⟨result, rfl⟩ := hreturned
      exact .inl ⟨result, rfl⟩
    · exact .inr ⟨⟨pc', rfl, fun result h => hreturned ⟨result, h⟩⟩, hlt⟩
  · obtain ⟨pc, rfl, _⟩ := hP
    exact .inl rfl

/-- **A cancel returns**, whatever the others do, under a scheduler that is
fair to it: no step of it waits for anybody. -/
theorem cancel_returns
    (hr : (serverMachine h).Run (.new taskStore pushConfigStore pushSender) tr (r.state 0))
    (hfair : r.Fair (StepsOf k)) {call : CancelCall} {pc : CancelPc}
    (hk : (r.state n).threads[k]? = some (.cancel call pc)) :
    ∃ m, n ≤ m ∧ ∃ result, (r.state m).threads[k]? = some (.cancel call (.returned result)) :=
  (run_closing hr).cancel_over hfair hk

theorem cancel_returns_called : ∃ (r : (serverMachine .new).Unending) (m : Nat) (result : _),
    r.state 0 = calledOn (.cancel (.of "t")) ∧
      (r.state m).threads[0]? = some (.cancel (.of "t") (.returned result)) := by
  obtain ⟨r, hstart, hfair⟩ := fair_from (h := .new) (calledOn (.cancel (.of "t")))
  have hr : (serverMachine .new).Run awaitingInput _ (r.state 0) := hstart ▸ run_calledOn _
  have hk : (r.state 0).threads[0]? = some (.cancel (.of "t") .load) := by
    rw [hstart]
    rfl
  obtain ⟨m, _, result, hm⟩ := cancel_returns hr (hfair 0) hk
  exact ⟨r, m, result, hstart, hm⟩

/-! ## an execution -/

/-- A send that has registered its execution spawns the driver. -/
theorem Closing.spawns (hc : Closing tr (r.state 0)) (hfair : r.Fair (StepsOf k))
    {call : SendCall} {p : Prepared} (hk : (r.state n).threads[k]? = some (.send call (.attach p x))) :
    ∃ m, n ≤ m ∧ ∃ (j : Nat) (d : Driver), (r.state m).threads[j]? = some (.drive d) ∧ d.exec = x := by
  let driven (m : Nat) : Prop :=
    ∃ (j : Nat) (d : Driver), (r.state m).threads[j]? = some (.drive d) ∧ d.exec = x
  refine hfair.reaches (P := fun m => (r.state m).threads[k]? = some (.send call (.attach p x)))
    (Q := driven) (fun _ => 0) (fun m hm => ?_) (fun m hm => ?_) hk
  · have hlt := (hc.unending m).owned.started k _ x hm rfl
    have hready : ((Thread.send call (.attach p x)).next h (.emitting [])).Ready (r.state m) := by
      show (Op.run (r.state m) (.listen x)).isSome = true
      rw [Op.run, List.getElem?_eq_getElem hlt]
      rfl
    exact enabled_of_ready hm hready
  · obtain ⟨hidle, hsame⟩ | ⟨inp, s₁, receiver, _, _, hran⟩ := step_thread hm rfl (r.step m)
    · exact .inr ⟨hsame, Nat.le_refl 0, fun hacts => absurd hacts hidle⟩
    · have hmem : Thread.drive (call.driver p x) ∈ (r.state (m + 1)).threads := by
        rw [hran.threads]
        exact List.mem_append_right _ (List.mem_singleton_self _)
      obtain ⟨j, hj⟩ := List.mem_iff_getElem?.mp hmem
      exact .inl ⟨j, _, hj, rfl⟩

/-- The driver of the execution is done. -/
def Server.Driven (s : Server) (x : ExecId) : Prop :=
  ∃ (k : Nat) (d : Driver), s.threads[k]? = some (.drive d) ∧ d.exec = x ∧ d.pc = .done

/-- The `j`-th thread does not hold the execution. -/
def Server.Unheld (s : Server) (x : ExecId) (j : Nat) : Prop :=
  ∀ t : Thread, s.threads[j]? = some t → t.holds ≠ some x

theorem Server.Driven.step (hd : s.Driven x) (hs : Server.step h s a = some s') : s'.Driven x := by
  obtain ⟨k, d, hk, hx, hpc⟩ := hd
  exact ⟨k, d, step_done hk hpc hs, hx, hpc⟩

/-- An execution whose driver is done is held by nobody new. -/
theorem Closing.step_unheld {j : Nat} (hc : Closing tr s) (hd : s.Driven x) (hj : s.Unheld x j)
    (hs : Server.step h s a = some s') : s'.Unheld x j := by
  obtain ⟨k, d, hk, hx, hpc⟩ := hd
  intro t' ht' hholds
  obtain ⟨t, ht, hheld⟩ | ⟨i, call, p, hi⟩ | ⟨id, hregistered⟩ | heq := step_holds hs ht' hholds
  · exact hj t ht hheld
  · -- it has one owner
    obtain rfl := hc.owned.unique i k _ _ x hi hk rfl (congrArg some hx)
    cases hi.symm.trans hk
  · have hheld := hc.registered id x hregistered _ (List.mem_of_getElem? hk) (congrArg some hx)
    obtain ⟨taskId, y, ctx, current, stream, answered, tracked, pc⟩ := d
    cases hpc
    contradiction
  · have hlt := hc.owned.started k _ x hk (congrArg some hx)
    exact absurd hlt (heq ▸ Nat.lt_irrefl _)

/-- An execution whose driver is done, and that nobody holds, is over. -/
theorem Closing.closed_of_unheld (hc : Closing tr s) (hd : s.Driven x)
    (hunheld : ∀ j, s.Unheld x j) : s.channelClosed x = true := by
  obtain ⟨k, d, hk, hx, hpc⟩ := hd
  have hlt := hc.owned.started k _ x hk (congrArg some hx)
  refine (channelClosed_iff (List.getElem?_eq_getElem hlt)).mpr ⟨fun hregistered => ?_, ?_⟩
  · have hheld := hc.registered _ x hregistered _ (List.mem_of_getElem? hk) (congrArg some hx)
    exact hunheld k _ hk hheld
  · intro t ht
    obtain ⟨j, hj⟩ := List.mem_iff_getElem?.mp ht
    exact hunheld j t hj

section Ends

variable (hc : Closing tr (r.state 0)) (hfair : ∀ j, r.Fair (StepsOf j))

theorem Server.Driven.from {m : Nat} (hd : (r.state n).Driven x) (hle : n ≤ m) :
    (r.state m).Driven x := by
  induction hle with
  | refl => exact hd
  | @step m _ ih => exact ih.step (r.step m)

include hc in
theorem Closing.unheld_from {m j : Nat} (hd : (r.state n).Driven x)
    (hj : (r.state n).Unheld x j) (hle : n ≤ m) : (r.state m).Unheld x j := by
  induction hle with
  | refl => exact hj
  | @step m hle ih => exact (hc.unending m).step_unheld (hd.from hle) ih (r.step m)

include hc hfair

/-- The driver of an execution comes to its end. -/
theorem Closing.driven (hx : x < (r.state n).executions.length) :
    ∃ m, n ≤ m ∧ (r.state m).Driven x := by
  have hends {m j : Nat} {d : Driver} (hj : (r.state m).threads[j]? = some (.drive d))
      (hx : d.exec = x) (hle : n ≤ m) : ∃ m, n ≤ m ∧ (r.state m).Driven x := by
    obtain ⟨m', hle', d', hd', hexec, hpc⟩ :=
      driver_ends (hfair j) (fun m => (hc.unending m).owned) hj hx
    exact ⟨m', Nat.le_trans hle hle', j, d', hd', hexec, hpc⟩
  obtain ⟨k, t, hk, hown⟩ := (hc.unending n).led x hx
  cases t with
  | send call pc =>
      cases pc <;> try contradiction
      case attach p y =>
        obtain rfl := Option.some.inj hown
        obtain ⟨m, hle, j, d, hj, hexec⟩ := hc.spawns (hfair k) hk
        exact hends hj hexec hle
  | drive d => exact hends hk (Option.some.inj hown) (Nat.le_refl n)
  | _ => contradiction

/-- A thread gives up an execution whose driver is done. -/
theorem Closing.releases (hd : (r.state n).Driven x) (j : Nat) :
    ∃ m, n ≤ m ∧ (r.state m).Unheld x j := by
  by_cases hj : (r.state n).Unheld x j
  · exact ⟨n, Nat.le_refl n, hj⟩
  · simp only [Server.Unheld, not_forall, not_not] at hj
    obtain ⟨t, ht, hholds⟩ := hj
    obtain ⟨k, d, hk, hx, hpc⟩ := hd
    have howner (hown : t.owns = some x) : False := by
      obtain rfl := (hc.unending n).owned.unique j k t _ x ht hk hown (congrArg some hx)
      obtain rfl := Option.some.inj (ht.symm.trans hk)
      obtain ⟨taskId, y, ctx, current, stream, answered, tracked, pc⟩ := d
      cases hpc
      contradiction
    cases t with
    | send call pc => cases pc <;> exact (howner hholds).elim
    | drive d' =>
        refine (howner ?_).elim
        obtain ⟨taskId, y, ctx, current, stream, answered, tracked, pc⟩ := d'
        cases pc <;> first | exact hholds | contradiction
    | cancel call pc =>
        obtain ⟨m, hle, result, hm⟩ := hc.cancel_over (hfair j) ht
        refine ⟨m, hle, fun t ht => ?_⟩
        obtain rfl := Option.some.inj (ht.symm.trans hm)
        simp [Thread.holds]
    | _ => contradiction

theorem Closing.closes (hx : x < (r.state n).executions.length) :
    ∃ m, n ≤ m ∧ (r.state m).Driven x ∧ (r.state m).channelClosed x = true := by
  obtain ⟨m₁, hle₁, hd⟩ := hc.driven hfair hx
  -- the threads of this moment give it up, one after another
  have hall (l : Nat) : ∃ m, m₁ ≤ m ∧ ∀ j, j < l → (r.state m).Unheld x j := by
    induction l with
    | zero => exact ⟨m₁, Nat.le_refl m₁, fun j hj => absurd hj (Nat.not_lt_zero j)⟩
    | succ l ih =>
        obtain ⟨m, hle, hbelow⟩ := ih
        obtain ⟨m', hle', hl⟩ := hc.releases hfair (hd.from hle) l
        refine ⟨m', Nat.le_trans hle hle', fun j hj => ?_⟩
        obtain hlt | rfl := Nat.lt_succ_iff_lt_or_eq.mp hj
        · exact hc.unheld_from (hd.from hle) (hbelow j hlt) hle'
        · exact hl
  obtain ⟨m, hle, hbelow⟩ := hall (r.state m₁).threads.length
  refine ⟨m, Nat.le_trans hle₁ hle, hd.from hle, ?_⟩
  refine (hc.unending m).closed_of_unheld (hd.from hle) fun j => ?_
  by_cases hj : j < (r.state m₁).threads.length
  · exact hbelow j hj
  · -- it was no thread then
    refine hc.unheld_from hd (fun t ht => ?_) hle
    exact absurd (List.getElem?_eq_some_iff.mp ht).1 hj

omit hfair in
/-- From then on it is over. -/
theorem Closing.closed_from {m : Nat} (hx : x < (r.state n).executions.length)
    (hclosed : (r.state n).channelClosed x = true) (hle : n ≤ m) :
    (r.state m).channelClosed x = true ∧
      (r.state m).executions[x]? = (r.state n).executions[x]? := by
  induction hle with
  | refl => exact ⟨hclosed, rfl⟩
  | @step m _ ih =>
      obtain ⟨hclosed, hsame⟩ := ih
      have hx' : x < (r.state m).executions.length := by
        rw [List.getElem?_eq_getElem hx] at hsame
        exact (List.getElem?_eq_some_iff.mp hsame).1
      obtain ⟨hclosed', hsame'⟩ := (hc.unending m).step_closed hx' hclosed (r.step m)
      exact ⟨hclosed', hsame'.trans hsame⟩

end Ends

/-- **Every execution ends**: under a fair scheduler, for every execution ever
started there comes a time from which on its driver is done, it is registered
under no task, its channel is closed, and nothing changes there any more. -/
theorem execution_ends
    (hr : (serverMachine h).Run (.new taskStore pushConfigStore pushSender) tr (r.state 0))
    (hfair : ∀ j, r.Fair (StepsOf j)) (hx : x < (r.state n).executions.length) :
    ∃ m, n ≤ m ∧ ∀ m', m ≤ m' → (r.state m').Driven x ∧ (r.state m').channelClosed x = true ∧
      (∀ id, (r.state m').manager.executions id ≠ some x) ∧
      (r.state m').executions[x]? = (r.state m).executions[x]? := by
  have hc := run_closing hr
  obtain ⟨m, hle, hd, hclosed⟩ := hc.closes hfair hx
  obtain ⟨k, d, hk, hdx, _⟩ := hd
  have hxm := (hc.unending m).owned.started k _ x hk (congrArg some hdx)
  refine ⟨m, hle, fun m' hle' => ?_⟩
  obtain ⟨hclosed', hsame⟩ := hc.closed_from hxm hclosed hle'
  have hd' : (r.state m').Driven x := Server.Driven.from ⟨k, d, hk, hdx, by assumption⟩ hle'
  obtain ⟨j, d', hj, hdx', _⟩ := id hd'
  have hxm' := (hc.unending m').owned.started j _ x hj (congrArg some hdx')
  exact ⟨hd', hclosed', (hc.unending m').unregistered hxm' hclosed', hsame⟩

/-- The execution of a send to a task that awaits input. -/
theorem execution_ends_started : ∃ (r : (serverMachine .new).Unending) (m : Nat),
    (r.state m).Driven 0 ∧ (r.state m).channelClosed 0 = true := by
  have hx : ((serverMachine .new).exec awaitingInput
      (.call (.send (.continuing "t" "m")) :: List.replicate 3 (.step 0 (.emitting [])))).map
        (·.2.executions.length) = some 1 := rfl
  obtain ⟨⟨tr, s⟩, hexec, hlength⟩ := Option.map_eq_some_iff.mp hx
  obtain ⟨r, hstart, hfair⟩ := fair_from (h := .new) s
  have hr : (serverMachine .new).Run awaitingInput tr (r.state 0) :=
    hstart ▸ Machine.run_of_exec hexec
  have hlt : 0 < (r.state 0).executions.length := by
    rw [hstart, hlength]
    exact Nat.one_pos
  obtain ⟨m, _, hends⟩ := execution_ends hr hfair hlt
  obtain ⟨hd, hclosed, _⟩ := hends m (Nat.le_refl m)
  exact ⟨r, m, hd, hclosed⟩

/-! ## a stream -/

/-- A poll that goes on brings a stream nearer its end, where what was sent to
it is known. -/
theorem Subscription.Polls.lowers {sub sub' : Subscription} {o : Option (Option Item)} {sent : Nat}
    (hp : sub.Polls s sub' o) (ho : o ≠ some none)
    (hsent : ∀ receiver, sub.receiver = some receiver → (s.sentOn receiver.exec).length = sent) :
    sub'.left sent < sub.left sent := by
  cases hreceiver : sub.receiver with
  | some receiver =>
      rw [← hsent receiver hreceiver]
      exact hp.left ho (by rw [hreceiver, Option.map_some])
  | none =>
      have hnot {receiver : Receiver} (hsome : sub.receiver = some receiver) : False := by
        rw [hreceiver] at hsome
        contradiction
      cases hp with
      | done => exact absurd rfl ho
      | unattached => exact absurd rfl ho
      | closed => exact absurd rfl ho
      | event _ _ hsome => exact (hnot hsome).elim
      | lagged _ _ hsome => exact (hnot hsome).elim
      | @snapshot task hdone htask =>
          cases hterminal : task.isTerminal with
          | true => simp [Subscription.left, yieldSnapshot, hterminal, hdone]
          | false => simp [Subscription.left, yieldSnapshot, hterminal, hdone, htask]

/-- A stream whose channel is closed does not wait. -/
theorem pollCmd_ready_of_closed {sub : Subscription}
    {k : Subscription → Option (Option Item) → Thread}
    (hclosed : ∀ receiver, sub.receiver = some receiver →
      receiver.exec < s.executions.length ∧ s.channelClosed receiver.exec = true) :
    (pollCmd sub k).Ready s := by
  cases hreceiver : sub.receiver with
  | some receiver =>
      obtain ⟨hlt, hclosed⟩ := hclosed receiver hreceiver
      exact pollCmd_ready (by rw [hreceiver, Option.map_some]) hlt hclosed
  | none =>
      obtain ⟨_, snapshotTask, minSequence, done, yielded⟩ := sub
      subst hreceiver
      cases done <;> cases snapshotTask <;> rfl

/-- The stream a thread has open. -/
def Thread.stream : Thread → Option Subscription
  | .send _ (.following _ sub _) => some sub
  | .send _ (.streaming sub) => some sub
  | .subscribe _ (.streaming _ sub) => some sub
  | _ => none

/-- How far a thread is from the end of its stream. -/
def Thread.toEnd (sent : Nat) (t : Thread) : Nat := (t.stream.map (·.left sent)).getD 0

/-- A stream that is open is polled. -/
theorem Thread.next_polls {sub : Subscription} (ht : t.stream = some sub) (inp : Input) :
    ∃ k, t.next h inp = pollCmd sub k := by
  cases t with
  | send call pc =>
      cases pc <;> try contradiction
      all_goals
        obtain rfl := Option.some.inj ht
        simp only [next, SendCall.next]
        exact ⟨_, rfl⟩
  | subscribe call pc =>
      cases pc <;> try contradiction
      case streaming =>
        obtain rfl := Option.some.inj ht
        simp only [next, SubscribeCall.next]
        exact ⟨_, rfl⟩
  | _ => contradiction

/-- An open stream follows its channel. -/
theorem Thread.link_of_stream {sub : Subscription} (ht : t.stream = some sub) :
    ∃ resumed, t.link = .following resumed sub := by
  cases t with
  | send call pc =>
      cases pc <;> try contradiction
      all_goals
        obtain rfl := Option.some.inj ht
        exact ⟨_, rfl⟩
  | subscribe call pc =>
      cases pc <;> try contradiction
      case streaming =>
        obtain rfl := Option.some.inj ht
        exact ⟨_, rfl⟩
  | _ => contradiction

/-- A step of an open stream leaves it open, or over. -/
theorem Thread.next_streams {sub : Subscription} (ht : t.stream = some sub) (inp : Input) :
    (t.next h inp).Post s fun s₁ t' _ => s₁ = s ∧ ∃ sub' o, sub.Polls s sub' o ∧
      (t'.stream = none ∨ (o ≠ some none ∧ t'.stream = some sub')) := by
  cases t with
  | send call pc =>
      cases pc <;> try contradiction
      case following taskId sub₁ last =>
        obtain rfl := Option.some.inj ht
        intro s₁ b hrun
        obtain ⟨hs, _, sub', o, hpolls, hself⟩ := post_pollCmd_polls s₁ b hrun
        refine ⟨hs, sub', o, hpolls, ?_⟩
        simp only [Thread.next, SendCall.next]
        rw [hself]
        obtain _ | _ | item := o
        · exact .inr ⟨by simp, rfl⟩
        · left
          simp only [SendCall.finishSend]
          split <;> rfl
        · simp only [SendCall.onItem]
          split
          · exact .inl rfl
          · split
            · exact .inl rfl
            · split
              · exact .inl rfl
              · exact .inr ⟨by simp, rfl⟩
      case streaming sub₁ =>
        obtain rfl := Option.some.inj ht
        intro s₁ b hrun
        obtain ⟨hs, _, sub', o, hpolls, hself⟩ := post_pollCmd_polls s₁ b hrun
        refine ⟨hs, sub', o, hpolls, ?_⟩
        simp only [Thread.next, SendCall.next]
        rw [hself]
        obtain _ | _ | item := o
        · exact .inr ⟨by simp, rfl⟩
        · exact .inl rfl
        · exact .inr ⟨by simp, rfl⟩
  | subscribe call pc =>
      cases pc <;> try contradiction
      case streaming opened sub₁ =>
        obtain rfl := Option.some.inj ht
        intro s₁ b hrun
        obtain ⟨hs, _, sub', o, hpolls, hself⟩ := post_pollCmd_polls s₁ b hrun
        refine ⟨hs, sub', o, hpolls, ?_⟩
        simp only [Thread.next, SubscribeCall.next]
        rw [hself]
        obtain _ | _ | item := o
        · exact .inr ⟨by simp, rfl⟩
        · exact .inl rfl
        · exact .inr ⟨by simp, rfl⟩
  | _ => contradiction

/-- What a thread keeps to. -/
theorem thread_keeps {K : Thread → Prop}
    (hnext : ∀ m t inp, n ≤ m → (r.state m).threads[k]? = some t → K t →
      (t.next h inp).Post (r.state m) fun _ t' _ => K t')
    (hdrop : ∀ m t, n ≤ m → (r.state m).threads[k]? = some t → K t →
      t.drop = ⟨.halt, Empty.elim⟩ ∨ K .dropped)
    (hk : (r.state n).threads[k]? = some t) (ht : K t) {m : Nat} (hle : n ≤ m) :
    ∃ t', (r.state m).threads[k]? = some t' ∧ K t' := by
  induction hle with
  | refl => exact ⟨t, hk, ht⟩
  | @step m hle ih =>
      obtain ⟨u, hu, hK⟩ := ih
      obtain ⟨_, hsame⟩ | ⟨inp, s₁, b, hran⟩ | ⟨s₁, b, hran⟩ := step_at hu (r.step m)
      · exact ⟨u, hsame, hK⟩
      · exact ⟨_, hran.getElem_self hu, hran.post (hnext m u inp hle hu hK)⟩
      · obtain hhalt | hdropped := hdrop m u hle hu hK
        · have hnever : u.drop.Post (r.state m) fun _ _ _ => False := by
            rw [hhalt]
            exact Cmd.post_halt
          exact (hran.post hnever).elim
        · refine ⟨_, hran.getElem_self hu, ?_⟩
          rw [(hran.post (Thread.drop_dropped u)).1]
          exact hdropped

/-- **A stream comes to an end**: its channel is closed in the end, and then
every poll brings it nearer. -/
theorem Closing.stream_ends (hc : Closing tr (r.state 0)) (hfair : ∀ j, r.Fair (StepsOf j))
    {sub : Subscription} (hk : (r.state n).threads[k]? = some t) (ht : t.stream = some sub) :
    ∃ m, n ≤ m ∧ ∃ t', (r.state m).threads[k]? = some t' ∧ t'.stream = none := by
  -- the channel of the stream is closed from `m₁` on
  obtain ⟨m₁, hle₁, hclosed⟩ : ∃ m₁, n ≤ m₁ ∧ ∀ receiver, sub.receiver = some receiver →
      receiver.exec < (r.state m₁).executions.length ∧
        (r.state m₁).channelClosed receiver.exec = true := by
    cases hreceiver : sub.receiver with
    | none => exact ⟨n, Nat.le_refl n, fun _ h => by contradiction⟩
    | some receiver =>
        have hlt : receiver.exec < (r.state n).executions.length := by
          obtain ⟨resumed, hlink⟩ := Thread.link_of_stream ht
          refine (hc.unending n).started.links t (List.mem_of_getElem? hk) receiver.exec ?_
          rw [hlink, Link.on, hreceiver, Option.map_some]
        obtain ⟨m, hle, ⟨j, d, hj, hdx, _⟩, hclosed⟩ := hc.closes hfair hlt
        have hlt' := (hc.unending m).owned.started j _ _ hj (congrArg some hdx)
        refine ⟨m, hle, fun receiver' h => ?_⟩
        obtain rfl := Option.some.inj h
        exact ⟨hlt', hclosed⟩
  let on (t : Thread) : Prop := ∃ sub', t.stream = some sub' ∧
    sub'.receiver.map (·.exec) = sub.receiver.map (·.exec)
  have hnext (m : Nat) (t : Thread) (inp : Input) (hon : on t) :
      (t.next h inp).Post (r.state m) fun _ t' _ => t'.stream = none ∨ on t' := by
    obtain ⟨sub', hsub', hsame⟩ := hon
    intro s₁ b hrun
    obtain ⟨_, sub₂, o, hpolls, hover | ⟨_, hsub₂⟩⟩ := Thread.next_streams hsub' inp s₁ b hrun
    · exact .inl hover
    · exact .inr ⟨sub₂, hsub₂, hpolls.receiver.trans hsame⟩
  -- until then it may be over already
  by_cases hover : ∃ m, n ≤ m ∧ ∃ t', (r.state m).threads[k]? = some t' ∧ t'.stream = none
  · exact hover
  have hopen (m : Nat) (hle : n ≤ m) : ∃ t', (r.state m).threads[k]? = some t' ∧ on t' := by
    induction hle with
    | refl => exact ⟨t, hk, sub, ht, rfl⟩
    | @step m hle ih =>
        obtain ⟨u, hu, hon⟩ := ih
        obtain ⟨_, hsame⟩ | ⟨inp, s₁, b, hran⟩ | ⟨s₁, b, hran⟩ := step_at hu (r.step m)
        · exact ⟨u, hsame, hon⟩
        · obtain hnone | hon' := hran.post (hnext m u inp hon)
          · exact absurd ⟨m + 1, Nat.le_succ_of_le hle, _, hran.getElem_self hu, hnone⟩ hover
          · exact ⟨_, hran.getElem_self hu, hon'⟩
        · refine absurd ⟨m + 1, Nat.le_succ_of_le hle, _, hran.getElem_self hu, ?_⟩ hover
          rw [(hran.post (Thread.drop_dropped u)).1]
          rfl
  obtain ⟨t₁, ht₁, hon⟩ := hopen m₁ hle₁
  let sent : Nat := ((sub.receiver.map fun receiver =>
    ((r.state m₁).sentOn receiver.exec).length)).getD 0
  have hfrom {m : Nat} {receiver : Receiver} {sub' : Subscription} (hle : m₁ ≤ m)
      (hsame : sub'.receiver.map (·.exec) = sub.receiver.map (·.exec))
      (hreceiver : sub'.receiver = some receiver) :
      receiver.exec < (r.state m).executions.length ∧
        (r.state m).channelClosed receiver.exec = true ∧
        ((r.state m).sentOn receiver.exec).length = sent := by
    rw [hreceiver, Option.map_some] at hsame
    obtain ⟨receiver₀, hreceiver₀, hexec⟩ := Option.map_eq_some_iff.mp hsame.symm
    obtain ⟨hlt, hclosed⟩ := hclosed receiver₀ hreceiver₀
    obtain ⟨hclosed', hsame'⟩ := hc.closed_from hlt hclosed hle
    rw [← hexec]
    refine ⟨?_, hclosed', ?_⟩
    · rw [List.getElem?_eq_getElem hlt] at hsame'
      exact (List.getElem?_eq_some_iff.mp hsame').1
    · simp only [sent, hreceiver₀, Option.map_some, Option.getD_some]
      rw [Server.sentOn, hsame', ← Server.sentOn]
  suffices hcomes : ∃ m, m₁ ≤ m ∧ ∃ t', (r.state m).threads[k]? = some t' ∧ t'.stream = none by
    obtain ⟨m, hle, hcome⟩ := hcomes
    exact ⟨m, Nat.le_trans hle₁ hle, hcome⟩
  refine thread_comes (hfair k) (P := on) (Q := fun t => t.stream = none) (Thread.toEnd sent)
    (fun m t hle _ hon => ?_) (fun m t inp hle _ hon => ?_) (fun _ _ => .inr rfl) ht₁ hon
  · obtain ⟨sub', hsub', hsame⟩ := hon
    obtain ⟨poll, hpoll⟩ := Thread.next_polls (h := h) hsub' (.emitting [])
    refine ⟨.emitting [], ?_⟩
    rw [hpoll]
    refine pollCmd_ready_of_closed fun receiver hreceiver => ?_
    obtain ⟨hlt, hclosed, _⟩ := hfrom hle hsame hreceiver
    exact ⟨hlt, hclosed⟩
  · obtain ⟨sub', hsub', hsame⟩ := hon
    intro s₁ b hrun
    obtain ⟨_, sub₂, o, hpolls, hover | ⟨ho, hsub₂⟩⟩ := Thread.next_streams hsub' inp s₁ b hrun
    · exact .inl hover
    · refine .inr ⟨⟨sub₂, hsub₂, hpolls.receiver.trans hsame⟩, ?_⟩
      simp only [Thread.toEnd, hsub₂, hsub', Option.map_some, Option.getD_some]
      exact hpolls.lowers ho fun receiver hreceiver => (hfrom hle hsame hreceiver).2.2

/-! ## a send -/

/-- The places of a send before its stream, counted from there. -/
def SendPc.place : SendPc → Nat
  | .load => 5
  | .create _ => 4
  | .savePush _ => 3
  | .start _ => 2
  | .attach _ _ => 1
  | _ => 0

/-- The places of a subscription before it waits or streams, counted from
there. -/
def SubscribePc.place : SubscribePc → Nat
  | .register => 7
  | .attached _ => 6
  | .load _ => 5
  | .loaded _ _ => 4
  | .readState _ => 1
  | .refusing _ _ => 1
  | .opening _ _ => 1
  | _ => 0

/-- How far a call is from its stream. -/
def Thread.toStream : Thread → Nat
  | .send _ pc => pc.place
  | .subscribe _ pc => pc.place
  | _ => 0

/-- A send at a place of its method: a streaming one returns nothing but its
refusal. -/
def SendCall.Fits (call : SendCall) : SendPc → Prop
  | .following _ _ _ => call.streaming = false
  | .answering _ => call.streaming = false
  | .streaming _ => call.streaming = true
  | .ended _ => call.streaming = true
  | .returned result => call.streaming = true → ∃ error, result = .error error
  | _ => True

/-- A blocking send that received an item answers, or goes on. -/
theorem SendCall.onItem_cases (call : SendCall) (taskId : TaskId) (sub : Subscription) (item : Item) :
    ((∃ result, call.onItem taskId sub item = .returned result) ∨
      ∃ taskId', call.onItem taskId sub item = .answering taskId') ∨
      ∃ last, call.onItem taskId sub item = .following taskId sub last := by
  unfold onItem
  split
  · exact .inl (.inl ⟨_, rfl⟩)
  · split
    · exact .inl (.inr ⟨_, rfl⟩)
    · split
      · exact .inl (.inl ⟨_, rfl⟩)
      · exact .inr ⟨_, rfl⟩

/-- Every step of a send before its stream brings it nearer, and from then on it
stays behind that. -/
theorem SendCall.next_place (call : SendCall) (pc : SendPc) (inp : Input) :
    (call.next h inp pc).Post s fun _ t' _ => ∃ pc', t' = .send call pc' ∧
      (pc'.place < pc.place ∨ (pc.place = 0 ∧ pc'.place = 0)) ∧ (call.Fits pc → call.Fits pc') := by
  have hbefore {pc' : SendPc} (hlt : pc'.place < pc.place) (hfits : call.Fits pc') :
      ∃ pc₁, Thread.send call pc' = .send call pc₁ ∧
        (pc₁.place < pc.place ∨ (pc.place = 0 ∧ pc₁.place = 0)) ∧
          (call.Fits pc → call.Fits pc₁) := ⟨pc', rfl, .inl hlt, fun _ => hfits⟩
  have hrefuse {error : A2AError} : call.Fits (.returned (.error error)) := fun _ => ⟨error, rfl⟩
  have hblocking {pc' : SendPc} (hplace : pc.place = 0)
      (hfits : call.Fits pc → call.streaming = false)
      (hpc' : (∃ result, pc' = .returned result) ∨ ∃ taskId, pc' = .answering taskId) :
      ∃ pc₁, Thread.send call pc' = .send call pc₁ ∧
        (pc₁.place < pc.place ∨ (pc.place = 0 ∧ pc₁.place = 0)) ∧
          (call.Fits pc → call.Fits pc₁) := by
    refine ⟨pc', rfl, .inr ⟨hplace, ?_⟩, fun hpc => ?_⟩
    · obtain ⟨_, rfl⟩ | ⟨_, rfl⟩ := hpc' <;> rfl
    · have hfalse := hfits hpc
      obtain ⟨_, rfl⟩ | ⟨_, rfl⟩ := hpc'
      · exact fun htrue => absurd (hfalse.symm.trans htrue) Bool.false_ne_true
      · exact hfalse
  cases pc <;> simp only [next]
  case load =>
    split
    · exact Cmd.post_of_forall fun _ _ => hbefore (by simp [SendPc.place]) hrefuse
    · refine Cmd.post_of_forall fun _ stored => ?_
      split
      · exact hbefore (by simp [SendPc.place]) hrefuse
      · split <;> exact hbefore (by simp [SendPc.place]) trivial
  case create prepared =>
    refine Cmd.post_of_forall fun _ o => ?_
    cases o with
    | ok _ => exact hbefore (by simp [SendPc.place]) trivial
    | error error => exact hbefore (by simp [SendPc.place]) hrefuse
  case savePush prepared =>
    split
    · exact Cmd.post_of_forall fun _ _ => hbefore (by simp [SendPc.place]) trivial
    · refine Cmd.post_of_forall fun _ o => ?_
      cases o with
      | ok _ => exact hbefore (by simp [SendPc.place]) trivial
      | error error => exact hbefore (by simp [SendPc.place]) hrefuse
  case start prepared =>
    refine Cmd.post_of_forall fun _ o => ?_
    cases o with
    | ok x => exact hbefore (by simp [SendPc.place]) trivial
    | error error => exact hbefore (by simp [SendPc.place]) hrefuse
  case attach prepared x =>
    intro s₁ b _
    dsimp only
    split
    · next hstreaming => exact hbefore (by simp [SendPc.place]) hstreaming
    · next hstreaming => exact hbefore (by simp [SendPc.place]) (by simpa [Fits] using hstreaming)
  case following taskId sub last =>
    refine post_pollCmd fun _ sub' o => ?_
    obtain _ | _ | item := o
    · exact ⟨_, rfl, .inr ⟨rfl, rfl⟩, fun hfits => hfits⟩
    · refine hblocking rfl (fun hfits => hfits) ?_
      unfold finishSend
      split <;> simp
    · obtain hover | ⟨last', hgoes⟩ := call.onItem_cases taskId sub' item
      · exact hblocking rfl (fun hfits => hfits) hover
      · refine ⟨_, rfl, ?_⟩
        rw [hgoes]
        exact ⟨.inr ⟨rfl, rfl⟩, fun hfits => hfits⟩
  case answering taskId =>
    exact Cmd.post_of_forall fun _ _ => hblocking rfl (fun hfits => hfits) (.inl ⟨_, rfl⟩)
  case streaming sub =>
    refine post_pollCmd fun _ _ o => ?_
    obtain _ | _ | item := o <;> exact ⟨_, rfl, .inr ⟨rfl, rfl⟩, fun hfits => hfits⟩
  case returned => exact Cmd.post_halt
  case ended => exact Cmd.post_halt

/-- Every send is at a place of its method. -/
def Fitting (s : Server) : Prop :=
  ∀ t ∈ s.threads, ∀ call pc, t = .send call pc → call.Fits pc

theorem Fitting.step (hf : Fitting s) (hs : Server.step h s a = some s') : Fitting s' := by
  rintro t' ht' call pc' rfl
  obtain ⟨request, rfl, rfl⟩ | ⟨i, t, cmd, s₁, b, hruns, hran⟩ := step_cases hs
  · obtain ht' | ht' := List.mem_append.mp ht'
    · exact hf _ ht' call pc' rfl
    · have hthread := List.mem_singleton.mp ht'
      cases request <;> cases hthread
      trivial
  · have hcont := hran.post hruns.continues
    obtain hself | hold | hspawned := hran.mem_threads ht'
    · rw [← hself] at hcont
      cases t <;> simp only [Thread.Continues] at hcont
      case send call₀ pc =>
        obtain ⟨_, ⟨inp, _, rfl⟩ | ⟨_, rfl⟩⟩ := hruns
        · obtain ⟨pc₁, hpc₁, _, hfits⟩ := hran.post (call₀.next_place pc inp)
          obtain ⟨rfl, rfl⟩ := Thread.send.inj (hself.trans hpc₁)
          exact hfits (hf _ (List.mem_of_getElem? ‹_›) _ pc rfl)
        · rw [(hran.post (Thread.drop_dropped _)).1] at hself
          contradiction
    · exact hf _ hold call pc' rfl
    · obtain ⟨_, _, _, _, hd⟩ := hcont.spawned hspawned
      cases hd

/-- A send before its stream can go on. -/
theorem SendCall.ready {call : SendCall} {pc : SendPc} (hpc : 0 < pc.place)
    (hstarted : ∀ x, (Thread.send call pc).owns = some x → x < s.executions.length) (inp : Input) :
    (call.next h inp pc).Ready s := by
  cases pc with
  | load =>
      simp only [next]
      split <;> rfl
  | create prepared => rfl
  | savePush prepared =>
      simp only [next]
      split <;> rfl
  | start prepared =>
      simp only [next, Cmd.Ready, Op.andThen, Op.run]
      split <;> rfl
  | attach prepared x =>
      show (Op.run s (.listen x)).isSome = true
      rw [Op.run, List.getElem?_eq_getElem (hstarted x rfl)]
      rfl
  | _ => exact absurd hpc (Nat.lt_irrefl 0)

/-- **A send comes to its end** under a fair scheduler: a blocking one returns;
a streaming one is refused, or its stream ends or is dropped. -/
theorem send_returns
    (hr : (serverMachine h).Run (.new taskStore pushConfigStore pushSender) tr (r.state 0))
    (hfair : ∀ j, r.Fair (StepsOf j)) {call : SendCall} {pc : SendPc}
    (hk : (r.state n).threads[k]? = some (.send call pc)) :
    ∃ m, n ≤ m ∧
      ((call.streaming = false ∧
        ∃ result, (r.state m).threads[k]? = some (.send call (.returned result))) ∨
      (call.streaming = true ∧
        ((∃ error, (r.state m).threads[k]? = some (.send call (.returned (.error error)))) ∨
          (∃ sub, (r.state m).threads[k]? = some (.send call (.ended sub))) ∨
          (r.state m).threads[k]? = some .dropped))) := by
  have hc := run_closing hr
  have hfitting (m : Nat) : Fitting (r.state m) := by
    refine (r.run hr m).invariant (I := fun _ s => Fitting s) ?_ fun _ _ _ _ hf hs => hf.step hs
    exact fun _ ht => absurd ht List.not_mem_nil
  -- it comes to its stream, or is refused before
  obtain ⟨m₁, hle₁, pc₁, hk₁, hpc₁⟩ : ∃ m, n ≤ m ∧ ∃ pc, (r.state m).threads[k]? =
      some (.send call pc) ∧ pc.place = 0 := by
    by_cases hplace : pc.place = 0
    · exact ⟨n, Nat.le_refl n, pc, hk, hplace⟩
    let before (t : Thread) : Prop := ∃ pc, t = .send call pc ∧ 0 < pc.place
    let there (t : Thread) : Prop := ∃ pc, t = .send call pc ∧ pc.place = 0
    suffices hcomes : ∃ m, n ≤ m ∧ ∃ t, (r.state m).threads[k]? = some t ∧ there t by
      obtain ⟨m, hle, _, ht, pc, rfl, hpc⟩ := hcomes
      exact ⟨m, hle, pc, ht, hpc⟩
    refine thread_comes (hfair k) (P := before) Thread.toStream
      (fun m t _ ht hP => ?_) (fun m t inp _ ht hP => ?_) (fun t hP => ?_) hk
      ⟨pc, rfl, Nat.pos_of_ne_zero hplace⟩
    · obtain ⟨pc, rfl, hpc⟩ := hP
      exact ⟨.emitting [], SendCall.ready hpc
        (fun x hx => (hc.unending m).owned.started k _ x ht hx) _⟩
    · obtain ⟨pc, rfl, hpc⟩ := hP
      intro s₁ b hrun
      obtain ⟨pc', hpc', hplace, _⟩ : ∃ pc', (((Thread.send call pc).next h inp).resume b).1 =
        .send call pc' ∧ _ := call.next_place pc inp s₁ b hrun
      rw [hpc']
      by_cases hzero : pc'.place = 0
      · exact .inl ⟨pc', rfl, hzero⟩
      · refine .inr ⟨⟨pc', rfl, Nat.pos_of_ne_zero hzero⟩, hplace.resolve_right fun hboth => ?_⟩
        exact hzero hboth.2
    · obtain ⟨pc, rfl, hpc⟩ := hP
      cases pc <;> first | exact .inl rfl | exact absurd hpc (Nat.lt_irrefl 0)
  -- from then on it is behind it, or dropped
  let behind (t : Thread) : Prop := (call.streaming = true ∧ t = .dropped) ∨
    ∃ pc, t = .send call pc ∧ pc.place = 0
  have hbehind {m : Nat} (hle : m₁ ≤ m) :
      ∃ t, (r.state m).threads[k]? = some t ∧ behind t := by
    refine thread_keeps (fun m t inp _ _ hK => ?_) (fun m t _ ht hK => ?_) hk₁
      (.inr ⟨pc₁, rfl, hpc₁⟩) hle
    · obtain ⟨_, rfl⟩ | ⟨pc, rfl, hpc⟩ := hK
      · exact Cmd.post_halt
      · intro s₁ b hrun
        obtain ⟨pc', hpc', hplace, _⟩ := call.next_place pc inp s₁ b hrun
        refine .inr ⟨pc', hpc', ?_⟩
        obtain hlt | ⟨_, hzero⟩ := hplace
        · exact absurd hlt (hpc ▸ Nat.not_lt_zero _)
        · exact hzero
    · obtain ⟨_, rfl⟩ | ⟨pc, rfl, _⟩ := hK
      · exact .inl rfl
      · cases pc <;> try exact .inl rfl
        exact .inr (.inl ⟨hfitting m _ (List.mem_of_getElem? ht) call _ rfl, rfl⟩)
  obtain ⟨m₂, hle₂, t₂, hk₂, hstream⟩ : ∃ m, m₁ ≤ m ∧ ∃ t, (r.state m).threads[k]? = some t ∧
      t.stream = none := by
    cases hstream : (Thread.send call pc₁).stream with
    | none => exact ⟨m₁, Nat.le_refl m₁, _, hk₁, hstream⟩
    | some sub => exact hc.stream_ends hfair hk₁ hstream
  obtain ⟨t, ht, hover⟩ := hbehind hle₂
  obtain rfl := Option.some.inj (hk₂.symm.trans ht)
  have hle := Nat.le_trans hle₁ hle₂
  obtain ⟨hstreaming, rfl⟩ | ⟨pc, rfl, hpc⟩ := hover
  · exact ⟨m₂, hle, .inr ⟨hstreaming, .inr (.inr ht)⟩⟩
  · have hfits := hfitting m₂ _ (List.mem_of_getElem? ht) call pc rfl
    cases pc <;> try contradiction
    case returned result =>
      refine ⟨m₂, hle, ?_⟩
      cases hstreaming : call.streaming with
      | false => exact .inl ⟨rfl, result, ht⟩
      | true =>
          obtain ⟨error, rfl⟩ := hfits hstreaming
          exact .inr ⟨rfl, .inl ⟨error, ht⟩⟩
    case ended sub => exact ⟨m₂, hle, .inr ⟨hfits, .inr (.inl ⟨sub, ht⟩)⟩⟩
    case answering taskId =>
      suffices hcomes : ∃ m, m₂ ≤ m ∧ ∃ t, (r.state m).threads[k]? = some t ∧
          ∃ result, t = .send call (.returned result) by
        obtain ⟨m, hle', _, ht, result, rfl⟩ := hcomes
        exact ⟨m, Nat.le_trans hle hle', .inl ⟨hfits, result, ht⟩⟩
      refine thread_comes (hfair k) (P := fun t => t = .send call (.answering taskId))
        (fun _ => 0) (fun m t _ ht hP => ?_) (fun m t inp _ ht hP => ?_) (fun t hP => ?_) ht rfl
      · subst hP
        exact ⟨.emitting [], rfl⟩
      · subst hP
        exact Cmd.post_of_forall fun _ _ => .inl ⟨_, rfl⟩
      · subst hP
        exact .inl rfl

theorem send_returns_called : ∃ (r : (serverMachine .new).Unending) (m : Nat) (result : _),
    r.state 0 = calledOn (.send (.continuing "t" "m")) ∧
      (r.state m).threads[0]? = some (.send (.continuing "t" "m") (.returned result)) := by
  obtain ⟨r, hstart, hfair⟩ := fair_from (h := .new) (calledOn (.send (.continuing "t" "m")))
  have hr : (serverMachine .new).Run awaitingInput _ (r.state 0) := hstart ▸ run_calledOn _
  have hk : (r.state 0).threads[0]? = some (.send (.continuing "t" "m") .load) := by
    rw [hstart]
    rfl
  obtain ⟨m, _, ⟨_, result, hm⟩ | ⟨hstreaming, _⟩⟩ := send_returns hr hfair hk
  · exact ⟨r, m, result, hstart, hm⟩
  · cases hstreaming

/-! ## a subscription -/

/-- Every step of a subscription before it waits or streams brings it nearer,
and from then on it stays behind that. -/
theorem SubscribeCall.next_place (call : SubscribeCall) (pc : SubscribePc) :
    (call.next h pc).Post s fun _ t' _ => ∃ pc', t' = .subscribe call pc' ∧
      (pc'.place < pc.place ∨ (pc.place = 0 ∧ pc'.place = 0)) := by
  have hbefore {pc' : SubscribePc} (hlt : pc'.place < pc.place) :
      ∃ pc₁, Thread.subscribe call pc' = .subscribe call pc₁ ∧
        (pc₁.place < pc.place ∨ (pc.place = 0 ∧ pc₁.place = 0)) := ⟨pc', rfl, .inl hlt⟩
  cases pc <;> simp only [next]
  case register =>
    split
    · exact Cmd.post_of_forall fun _ _ => hbefore (by simp [SubscribePc.place])
    · exact Cmd.post_of_forall fun _ _ => hbefore (by simp [SubscribePc.place])
    · refine Cmd.post_of_forall fun _ o => ?_
      cases o <;> exact hbefore (by simp [SubscribePc.place])
  case readState receiver =>
    exact Cmd.post_of_forall fun _ _ => hbefore (by simp [SubscribePc.place])
  case attached w =>
    refine Cmd.post_of_forall fun _ o => ?_
    cases o <;> exact hbefore (by simp [SubscribePc.place])
  case load w =>
    refine Cmd.post_of_forall fun _ o => ?_
    cases o <;> exact hbefore (by simp [SubscribePc.place])
  case loaded w task =>
    refine Cmd.post_of_forall fun _ o => ?_
    cases o with
    | none => dsimp only; split <;> exact hbefore (by simp [SubscribePc.place])
    | some value => exact hbefore (by simp [SubscribePc.place])
  case refusing w error =>
    exact Cmd.post_of_forall fun _ _ => hbefore (by simp [SubscribePc.place])
  case opening w task =>
    exact Cmd.post_of_forall fun _ _ => hbefore (by simp [SubscribePc.place])
  case waiting w opened => exact Cmd.post_of_forall fun _ _ => ⟨_, rfl, .inr ⟨rfl, rfl⟩⟩
  case streaming opened sub =>
    refine post_pollCmd fun _ _ o => ?_
    obtain _ | _ | item := o <;> exact ⟨_, rfl, .inr ⟨rfl, rfl⟩⟩
  case refused => exact Cmd.post_halt
  case ended => exact Cmd.post_halt

/-- A subscription before it waits or streams can go on. -/
theorem Closing.subscribe_ready (hc : Closing tr s) {call : SubscribeCall} {pc : SubscribePc}
    (ht : .subscribe call pc ∈ s.threads) (hpc : 0 < pc.place) : (call.next h pc).Ready s := by
  cases pc with
  | register =>
      simp only [SubscribeCall.next]
      split
      · rfl
      · rfl
      · simp only [Cmd.Ready, Op.andThen, Op.run, ExecutionManager.get]
        cases hregistered : s.manager.executions call.req.id with
        | none => rfl
        | some x =>
            obtain ⟨active, hactive, _⟩ :=
              taskOf_eq_some.mp (hc.isolated.shared.registered _ x hregistered)
            simp only [hactive]
            rfl
  | readState receiver =>
      have hlt := hc.started.links _ ht receiver.exec rfl
      show (Op.run s (.readState receiver.exec)).isSome = true
      rw [Op.run, List.getElem?_eq_getElem hlt]
      rfl
  | attached w =>
      simp only [SubscribeCall.next, Cmd.Ready, Op.andThen, Op.run]
      split <;> rfl
  | load w => rfl
  | loaded w task =>
      simp only [SubscribeCall.next, Cmd.Ready, Op.andThen, Op.run]
      split <;> rfl
  | refusing w error => rfl
  | opening w task => rfl
  | _ => exact absurd hpc (Nat.lt_irrefl 0)

/-- Where a subscription that streams, or is over, goes on to be. -/
def SubscribePc.Behind : SubscribePc → Prop
  | .streaming _ _ => True
  | .refused _ => True
  | .ended _ _ => True
  | _ => False

theorem SubscribeCall.next_behind (call : SubscribeCall) {pc : SubscribePc} (hpc : pc.Behind) :
    (call.next h pc).Post s fun _ t' _ => ∃ pc', t' = .subscribe call pc' ∧ pc'.Behind := by
  cases pc <;> try exact hpc.elim
  case streaming opened sub =>
    simp only [next]
    refine post_pollCmd fun _ _ o => ?_
    obtain _ | _ | item := o <;> exact ⟨_, rfl, trivial⟩
  case refused => exact Cmd.post_halt
  case ended => exact Cmd.post_halt

/-- A subscription at its end: refused, over, or dropped. -/
def SubscribeCall.Over (call : SubscribeCall) (t : Thread) : Prop :=
  (∃ error, t = .subscribe call (.refused error)) ∨
    (∃ opened sub, t = .subscribe call (.ended opened sub)) ∨ t = .dropped

/-- A subscription that streams comes to its end. -/
theorem Closing.subscription_ends (hc : Closing tr (r.state 0)) (hfair : ∀ j, r.Fair (StepsOf j))
    {call : SubscribeCall} (hk : (r.state n).threads[k]? = some t)
    (ht : t = .dropped ∨ ∃ pc, t = .subscribe call pc ∧ pc.Behind) :
    ∃ m, n ≤ m ∧ ∃ t', (r.state m).threads[k]? = some t' ∧ call.Over t' := by
  obtain ⟨m, hle, t', ht', hstream⟩ : ∃ m, n ≤ m ∧ ∃ t', (r.state m).threads[k]? = some t' ∧
      t'.stream = none := by
    cases hstream : t.stream with
    | none => exact ⟨n, Nat.le_refl n, t, hk, hstream⟩
    | some sub => exact hc.stream_ends hfair hk hstream
  obtain ⟨u, hu, hbehind⟩ : ∃ u, (r.state m).threads[k]? = some u ∧
      (u = .dropped ∨ ∃ pc, u = .subscribe call pc ∧ pc.Behind) := by
    refine thread_keeps (fun m t inp _ _ hK => ?_) (fun _ _ _ _ _ => .inr (.inl rfl)) hk ht hle
    obtain rfl | ⟨pc, rfl, hpc⟩ := hK
    · exact Cmd.post_halt
    · exact fun s₁ b hrun => .inr (call.next_behind hpc s₁ b hrun)
  obtain rfl := Option.some.inj (ht'.symm.trans hu)
  refine ⟨m, hle, t', ht', ?_⟩
  obtain rfl | ⟨pc, rfl, hpc⟩ := hbehind
  · exact .inr (.inr rfl)
  · cases pc <;> try exact hpc.elim
    case streaming => contradiction
    case refused error => exact .inl ⟨error, rfl⟩
    case ended opened sub => exact .inr (.inl ⟨opened, sub, rfl⟩)

/-- **A subscription settles** under a fair scheduler: it is refused, its stream
ends, it is dropped, or it waits for an execution for ever. -/
theorem subscription_settles
    (hr : (serverMachine h).Run (.new taskStore pushConfigStore pushSender) tr (r.state 0))
    (hfair : ∀ j, r.Fair (StepsOf j)) {call : SubscribeCall} {pc : SubscribePc}
    (hk : (r.state n).threads[k]? = some (.subscribe call pc)) :
    ∃ m, n ≤ m ∧ ((∃ t, (r.state m).threads[k]? = some t ∧ call.Over t) ∨
      ∃ w opened, ∀ m', m ≤ m' →
        (r.state m').threads[k]? = some (.subscribe call (.waiting w opened))) := by
  have hc := run_closing hr
  -- it comes to wait, or to its stream, or is over before
  obtain ⟨m₁, hle₁, t₁, ht₁, hthere⟩ : ∃ m, n ≤ m ∧ ∃ t, (r.state m).threads[k]? = some t ∧
      (t = .dropped ∨ ∃ pc, t = .subscribe call pc ∧ pc.place = 0) := by
    by_cases hplace : pc.place = 0
    · exact ⟨n, Nat.le_refl n, _, hk, .inr ⟨pc, rfl, hplace⟩⟩
    refine thread_comes (hfair k) (P := fun t => ∃ pc, t = .subscribe call pc ∧ 0 < pc.place)
      Thread.toStream (fun m t _ ht hP => ?_) (fun m t inp _ _ hP => ?_) (fun _ _ => .inr (.inl rfl)) hk
      ⟨pc, rfl, Nat.pos_of_ne_zero hplace⟩
    · obtain ⟨pc, rfl, hpc⟩ := hP
      exact ⟨.emitting [], (hc.unending m).subscribe_ready (List.mem_of_getElem? ht) hpc⟩
    · obtain ⟨pc, rfl, hpc⟩ := hP
      intro s₁ b hrun
      obtain ⟨pc', hpc', hplace⟩ : ∃ pc', (((Thread.subscribe call pc).next h inp).resume b).1 =
        .subscribe call pc' ∧ _ := call.next_place pc s₁ b hrun
      rw [hpc']
      by_cases hzero : pc'.place = 0
      · exact .inl (.inr ⟨pc', rfl, hzero⟩)
      · refine .inr ⟨⟨pc', rfl, Nat.pos_of_ne_zero hzero⟩, hplace.resolve_right fun hboth => ?_⟩
        exact hzero hboth.2
  have hends {m : Nat} {t : Thread} (hle : n ≤ m) (ht : (r.state m).threads[k]? = some t)
      (hbehind : t = .dropped ∨ ∃ pc, t = .subscribe call pc ∧ pc.Behind) :
      ∃ m, n ≤ m ∧ ((∃ t, (r.state m).threads[k]? = some t ∧ call.Over t) ∨
        ∃ w opened, ∀ m', m ≤ m' →
          (r.state m').threads[k]? = some (.subscribe call (.waiting w opened))) := by
    obtain ⟨m', hle', hover⟩ := hc.subscription_ends hfair ht hbehind
    exact ⟨m', Nat.le_trans hle hle', .inl hover⟩
  obtain rfl | ⟨pc₁, rfl, hpc₁⟩ := hthere
  · exact hends hle₁ ht₁ (.inl rfl)
  · cases pc₁ <;> try contradiction
    case refused error => exact hends hle₁ ht₁ (.inr ⟨_, rfl, trivial⟩)
    case ended opened sub => exact hends hle₁ ht₁ (.inr ⟨_, rfl, trivial⟩)
    case streaming opened sub => exact hends hle₁ ht₁ (.inr ⟨_, rfl, trivial⟩)
    case waiting w opened =>
      by_cases hforever : ∀ m', m₁ ≤ m' →
          (r.state m').threads[k]? = some (.subscribe call (.waiting w opened))
      · exact ⟨m₁, hle₁, .inr ⟨w, opened, hforever⟩⟩
      · simp only [not_forall] at hforever
        obtain ⟨m₂, hle₂, hleft⟩ := hforever
        -- it has left, to a stream or for good
        obtain ⟨t, ht, hthere | hbehind⟩ : ∃ t, (r.state m₂).threads[k]? = some t ∧
            (t = .subscribe call (.waiting w opened) ∨
              (t = .dropped ∨ ∃ pc, t = .subscribe call pc ∧ pc.Behind)) := by
          refine thread_keeps (fun m t inp _ _ hK => ?_) (fun _ _ _ _ _ => .inr (.inr (.inl rfl)))
            ht₁ (.inl rfl) hle₂
          obtain rfl | rfl | ⟨pc, rfl, hpc⟩ := hK
          · exact Cmd.post_of_forall fun _ _ => .inr (.inr ⟨_, rfl, trivial⟩)
          · exact Cmd.post_halt
          · exact fun s₁ b hrun => .inr (.inr (call.next_behind hpc s₁ b hrun))
        · exact absurd (hthere ▸ ht) hleft
        · exact hends (Nat.le_trans hle₁ hle₂) ht hbehind

theorem subscription_settles_called :
    ∃ (r : (serverMachine .new).Unending) (m : Nat),
      r.state 0 = calledOn (.subscribe (.of "t")) ∧
        ((∃ t, (r.state m).threads[0]? = some t ∧ SubscribeCall.Over (.of "t") t) ∨
          ∃ w opened, ∀ m', m ≤ m' →
            (r.state m').threads[0]? = some (.subscribe (.of "t") (.waiting w opened))) := by
  obtain ⟨r, hstart, hfair⟩ := fair_from (h := .new) (calledOn (.subscribe (.of "t")))
  have hr : (serverMachine .new).Run awaitingInput _ (r.state 0) := hstart ▸ run_calledOn _
  have hk : (r.state 0).threads[0]? = some (.subscribe (.of "t") .register) := by
    rw [hstart]
    rfl
  obtain ⟨m, _, hsettles⟩ := subscription_settles hr hfair hk
  exact ⟨r, m, hstart, hsettles⟩

end A2a
