import A2a.Server.Closing
import A2a.Server.Waiting
import A2a.Skim

/-!
# A2a.Server.Delivery

What a stream yields of what is sent on its channel, whoever publishes there.

Every publication takes a sequence of its own, so no two events that are sent
have the same one (`Ticketed`).  A stream opens at a place of its channel, with
the snapshot it read or was handed there (`Opens`).  It has the window of the
channel from that place behind it, and has yielded what a reader takes of it
that only goes forward (`Subscription.Shows`).
-/

namespace A2a

variable {h : Handler} {x : ExecId} {i k n : Nat} {tr : List (Server × Action)}
  {s s' s₁ : Server} {a : Action} {t t' : Thread} {cmd : Cmd} {b : cmd.β}
  {taskStore : InMemoryTaskStore} {pushConfigStore : Option InMemoryPushConfigStore}
  {pushSender : Bool}

/-! ## what a step sends -/

/-- How many sequences of an execution were taken. -/
def Server.sequenceOf (s : Server) (x : ExecId) : Nat :=
  (s.executions[x]?.map (·.sequence)).getD 0

/-- The sequence a thread has taken on an execution and not sent yet. -/
def Link.ticket (x : ExecId) : Link → Option Nat
  | .publishing y _ _ (.count sequence) => if y = x then some sequence else none
  | .publishing y _ _ (.send sequence) => if y = x then some sequence else none
  | _ => none

/-- A thread that publishes nothing has no sequence to send. -/
theorem Link.Resting.ticket {l : Link} (hl : l.Resting) (x : ExecId) : l.ticket x = none := by
  cases l with
  | publishing y item task pc => cases pc <;> first | rfl | exact hl.elim
  | _ => rfl

/-- What was sent and taken is as it was. -/
def Server.Silent (s s₁ : Server) : Prop := s₁.sentOn = s.sentOn ∧ s₁.sequenceOf = s.sequenceOf

/-- A step that leaves the executions alone sends nothing. -/
theorem Server.Silent.of_executions (hexec : s₁.executions = s.executions) : s.Silent s₁ := by
  constructor <;> funext x
  · rw [sentOn, hexec, sentOn]
  · rw [sequenceOf, hexec, sequenceOf]

/-- Nor does one that starts an execution: its channel is empty. -/
theorem Server.Silent.of_started {task : Task}
    (hexec : s₁.executions = s.executions ++ [.new task]) : s.Silent s₁ := by
  have hlast (x : ExecId) : s₁.executions[x]? = s.executions[x]? ∨
      (s.executions[x]? = none ∧ ∀ active, s₁.executions[x]? = some active →
        active.sent = [] ∧ active.sequence = 0) := by
    rw [hexec, List.getElem?_append]
    split
    · exact .inl rfl
    · next hge =>
      refine .inr ⟨List.getElem?_eq_none (Nat.le_of_not_lt hge), fun active hactive => ?_⟩
      obtain rfl := List.mem_singleton.mp (List.mem_of_getElem? hactive)
      exact ⟨rfl, rfl⟩
  constructor <;> funext x
  · obtain hsame | ⟨hnone, hnew⟩ := hlast x
    · rw [sentOn, hsame, sentOn]
    · rw [sentOn, sentOn, hnone]
      cases hactive : s₁.executions[x]? with
      | none => rfl
      | some active => exact (hnew active hactive).1
  · obtain hsame | ⟨hnone, hnew⟩ := hlast x
    · rw [sequenceOf, hsame, sequenceOf]
    · rw [sequenceOf, sequenceOf, hnone]
      cases hactive : s₁.executions[x]? with
      | none => rfl
      | some active => exact (hnew active hactive).2

theorem Server.sequenceOf_of_getElem {active : ActiveExecution}
    (hactive : s.executions[x]? = some active) : s.sequenceOf x = active.sequence := by
  rw [sequenceOf, hactive]
  rfl

/-- A change of one execution changes what was sent there and taken, and nothing
elsewhere. -/
theorem Server.sent_of_modify {f : ActiveExecution → ActiveExecution} {active : ActiveExecution}
    (hactive : s.executions[x]? = some active)
    (hexec : s₁.executions = s.executions.modify x f) :
    s₁.sentOn = Function.update s.sentOn x (f active).sent ∧
      s₁.sequenceOf = Function.update s.sequenceOf x (f active).sequence := by
  have hself : s₁.executions[x]? = some (f active) := by
    rw [hexec, List.getElem?_modify_eq, hactive]
    rfl
  have hother {y : ExecId} (hy : y ≠ x) : s₁.executions[y]? = s.executions[y]? := by
    rw [hexec, List.getElem?_modify_ne _ _ (Ne.symm hy)]
  constructor <;> funext y <;> by_cases hy : y = x
  · rw [hy, Function.update_self, sentOn_of_getElem hself]
  · rw [Function.update_of_ne hy, sentOn, hother hy, sentOn]
  · rw [hy, Function.update_self, sequenceOf_of_getElem hself]
  · rw [Function.update_of_ne hy, sequenceOf, hother hy, sequenceOf]

/-- What a step of a thread sends: nothing; or it takes the next sequence of an
execution; or it sends the one it has. -/
inductive Link.Sends (s s₁ : Server) (l l' : Link) : Prop
  | nothing (hsilent : s.Silent s₁) (hticket : ∀ y n, l'.ticket y = some n → l.ticket y = some n)
  | takes {x : ExecId} (hsent : s₁.sentOn = s.sentOn)
      (hsequence : s₁.sequenceOf = Function.update s.sequenceOf x (s.sequenceOf x + 1))
      (hticket : ∀ y n, l'.ticket y = some n → y = x ∧ n = s.sequenceOf x + 1)
  | sends {x : ExecId} {event : ExecutionEvent} (hsequence : s₁.sequenceOf = s.sequenceOf)
      (hsent : s₁.sentOn = Function.update s.sentOn x (s.sentOn x ++ [event]))
      (hticket : l.ticket x = some event.sequence) (hnone : ∀ y, l'.ticket y = none)

/-- **What a step sends.** -/
theorem Link.Step.sends {l l' : Link} (hl : Link.Step s s₁ l l') : Link.Sends s s₁ l l' := by
  have hrests {l l' : Link} (hexec : s₁.executions = s.executions)
      (hnone : ∀ y, l'.ticket y = none) : Link.Sends s s₁ l l' :=
    .nothing (.of_executions hexec) fun y n hn => by rw [hnone y] at hn; contradiction
  cases hl with
  | rest _ hrest hc => exact hrests hc.executions hrest.ticket
  | start _ hexec => exact .nothing (.of_started hexec) fun _ _ hn => by contradiction
  | attach _ hc => exact hrests hc.executions fun _ => rfl
  | listen _ hc => exact hrests hc.executions fun _ => rfl
  | read _ hc => exact hrests hc.executions fun _ => rfl
  | take _ hc => exact hrests hc.executions fun _ => rfl
  | poll _ _ hc => exact hrests hc.executions fun _ => rfl
  | ends _ hc => exact hrests hc.executions fun _ => rfl
  | heard _ hc => exact .nothing (.of_executions hc.executions) fun _ _ hn => hn
  | unheard _ hc hrest => exact hrests hc.executions hrest.ticket
  | @publish x item task active hactive hexec =>
      obtain ⟨hsent, hsequence⟩ := Server.sent_of_modify hactive hexec
      have htaken := Server.sequenceOf_of_getElem hactive
      refine .takes (x := x) ?_ ?_ ?_
      · rw [hsent, ← Server.sentOn_of_getElem hactive, Function.update_eq_self]
      · rw [hsequence, htaken]
      · intro y n hn
        simp only [ticket] at hn
        split at hn
        · next hy => exact ⟨hy.symm, by rw [htaken]; exact (Option.some.inj hn).symm⟩
        · contradiction
  | @send x item task sequence _ hexec _ hrest =>
      split at hexec
      · cases hactive : s.executions[x]? with
        | none =>
            refine hrests ?_ hrest.ticket
            rw [hexec, List.modify_eq_self]
            exact List.getElem?_eq_none_iff.mp hactive
        | some active =>
            obtain ⟨hsent, hsequence⟩ := Server.sent_of_modify hactive hexec
            have hgrown : s₁.sentOn =
                Function.update s.sentOn x (s.sentOn x ++ [⟨sequence, item⟩]) := by
              rw [hsent, Server.sentOn_of_getElem hactive]
            have hkept : s₁.sequenceOf = s.sequenceOf := by
              rw [hsequence, ← Server.sequenceOf_of_getElem hactive, Function.update_eq_self]
            exact .sends hkept hgrown (if_pos rfl) hrest.ticket
      · exact hrests hexec hrest.ticket

/-! ## sequences -/

/-- The sequences of an execution: those of what was sent are distinct, and none
of them is one that a thread has yet to send. -/
structure Ticketed (s : Server) : Prop where
  nodup : ∀ x, ((s.sentOn x).map (·.sequence)).Nodup
  sent : ∀ x, ∀ n ∈ (s.sentOn x).map (·.sequence), 1 ≤ n ∧ n ≤ s.sequenceOf x
  pending : ∀ (k : Nat) (t : Thread) (x : ExecId) (n : Nat), s.threads[k]? = some t →
    t.link.ticket x = some n →
      1 ≤ n ∧ n ≤ s.sequenceOf x ∧ n ∉ (s.sentOn x).map (·.sequence)
  unique : ∀ (j k : Nat) (t u : Thread) (x : ExecId) (n : Nat), s.threads[j]? = some t →
    s.threads[k]? = some u → t.link.ticket x = some n → u.link.ticket x = some n → j = k

/-- Who has a sequence to send after a step is the thread that acted, or had it
before. -/
theorem Server.Ran.ticket (hran : s.Ran i cmd s' s₁ b) (hruns : s.runs h a i t cmd)
    (hk : s'.threads[k]? = some t') (hn : t'.link.ticket x = some n) :
    (k = i ∧ t' = (cmd.resume b).1) ∨ (k ≠ i ∧ s.threads[k]? = some t') := by
  obtain hself | hold | ⟨_, hspawned⟩ := hran.thread_cases hk
  · exact .inl hself
  · exact .inr hold
  · rw [(hran.post hruns.link).2 t' hspawned] at hn
    contradiction

/-- Sequences stay apart where nothing is sent and none is taken. -/
theorem Ticketed.nothing (ht : Ticketed s) (hsent : s'.sentOn = s.sentOn)
    (hsequence : s'.sequenceOf = s.sequenceOf)
    (hbefore : ∀ (k : Nat) (t' : Thread) (x : ExecId) (n : Nat), s'.threads[k]? = some t' →
      t'.link.ticket x = some n → ∃ u, s.threads[k]? = some u ∧ u.link.ticket x = some n) :
    Ticketed s' := by
  refine ⟨?_, ?_, ?_, ?_⟩
  · rw [hsent]
    exact ht.nodup
  · rw [hsent, hsequence]
    exact ht.sent
  · intro k t' x n hk hn
    obtain ⟨u, hu, hn⟩ := hbefore k t' x n hk hn
    rw [hsent, hsequence]
    exact ht.pending k u x n hu hn
  · intro j k t₁ t₂ x n hj hk h₁ h₂
    obtain ⟨u₁, hu₁, h₁⟩ := hbefore j t₁ x n hj h₁
    obtain ⟨u₂, hu₂, h₂⟩ := hbefore k t₂ x n hk h₂
    exact ht.unique j k u₁ u₂ x n hu₁ hu₂ h₁ h₂

/-- A sequence that is taken is above all that were. -/
theorem Ticketed.takes (ht : Ticketed s) (hsent : s'.sentOn = s.sentOn)
    (hsequence : s'.sequenceOf = Function.update s.sequenceOf x (s.sequenceOf x + 1))
    (hbefore : ∀ (k : Nat) (t' : Thread) (y : ExecId) (n : Nat), s'.threads[k]? = some t' →
      t'.link.ticket y = some n →
        (k = i ∧ y = x ∧ n = s.sequenceOf x + 1) ∨ (k ≠ i ∧ s.threads[k]? = some t')) :
    Ticketed s' := by
  have hle (y : ExecId) : s.sequenceOf y ≤ s'.sequenceOf y := by
    rw [hsequence]
    by_cases hy : y = x
    · subst hy
      rw [Function.update_self]
      exact Nat.le_succ _
    · rw [Function.update_of_ne hy]
  have hnew {k : Nat} {u : Thread} (hk : s.threads[k]? = some u) :
      u.link.ticket x ≠ some (s.sequenceOf x + 1) := by
    intro hu
    exact absurd (ht.pending k u x _ hk hu).2.1 (Nat.not_succ_le_self _)
  refine ⟨?_, ?_, ?_, ?_⟩
  · rw [hsent]
    exact ht.nodup
  · intro y n hn
    rw [hsent] at hn
    exact ⟨(ht.sent y n hn).1, Nat.le_trans (ht.sent y n hn).2 (hle y)⟩
  · intro k t' y n hk hn
    rw [hsent]
    obtain ⟨_, rfl, rfl⟩ | ⟨_, hold⟩ := hbefore k t' y n hk hn
    · refine ⟨Nat.le_add_left 1 _, ?_, fun hmem => ?_⟩
      · rw [hsequence, Function.update_self]
      · exact absurd (ht.sent y _ hmem).2 (Nat.not_succ_le_self _)
    · obtain ⟨hpos, hbound, hnot⟩ := ht.pending k t' y n hold hn
      exact ⟨hpos, Nat.le_trans hbound (hle y), hnot⟩
  · intro j k t₁ t₂ y n hj hk h₁ h₂
    obtain ⟨rfl, rfl, rfl⟩ | ⟨_, hold₁⟩ := hbefore j t₁ y n hj h₁
    · obtain ⟨rfl, _⟩ | ⟨_, hold₂⟩ := hbefore k t₂ y _ hk h₂
      · rfl
      · exact absurd h₂ (hnew hold₂)
    · obtain ⟨_, rfl, rfl⟩ | ⟨_, hold₂⟩ := hbefore k t₂ y n hk h₂
      · exact absurd h₁ (hnew hold₁)
      · exact ht.unique j k t₁ t₂ y n hold₁ hold₂ h₁ h₂

/-- A sequence that is sent is no longer one to send. -/
theorem Ticketed.sends {event : ExecutionEvent} (ht : Ticketed s)
    (hsequence : s'.sequenceOf = s.sequenceOf)
    (hsent : s'.sentOn = Function.update s.sentOn x (s.sentOn x ++ [event]))
    (hi : s.threads[i]? = some t) (hticket : t.link.ticket x = some event.sequence)
    (hbefore : ∀ (k : Nat) (t' : Thread) (y : ExecId) (n : Nat), s'.threads[k]? = some t' →
      t'.link.ticket y = some n → k ≠ i ∧ s.threads[k]? = some t') : Ticketed s' := by
  obtain ⟨hpos, hbound, hnot⟩ := ht.pending i t x _ hi hticket
  have hself : s'.sentOn x = s.sentOn x ++ [event] := by rw [hsent, Function.update_self]
  have hother {y : ExecId} (hy : y ≠ x) : s'.sentOn y = s.sentOn y := by
    rw [hsent, Function.update_of_ne hy]
  refine ⟨?_, ?_, ?_, ?_⟩
  · intro y
    by_cases hy : y = x
    · subst hy
      rw [hself, List.map_append, List.nodup_append]
      refine ⟨ht.nodup y, List.nodup_singleton _, fun n hn m hm heq => ?_⟩
      obtain rfl := List.mem_singleton.mp hm
      rw [heq] at hn
      exact hnot hn
    · rw [hother hy]
      exact ht.nodup y
  · intro y n hn
    rw [hsequence]
    by_cases hy : y = x
    · subst hy
      rw [hself, List.map_append] at hn
      obtain hn | hn := List.mem_append.mp hn
      · exact ht.sent y n hn
      · obtain rfl := List.mem_singleton.mp hn
        exact ⟨hpos, hbound⟩
    · rw [hother hy] at hn
      exact ht.sent y n hn
  · intro k t' y n hk hn
    obtain ⟨hki, hold⟩ := hbefore k t' y n hk hn
    obtain ⟨hpos', hbound', hnot'⟩ := ht.pending k t' y n hold hn
    rw [hsequence]
    refine ⟨hpos', hbound', ?_⟩
    by_cases hy : y = x
    · subst hy
      rw [hself, List.map_append, List.mem_append, not_or]
      refine ⟨hnot', fun hmem => ?_⟩
      obtain rfl := List.mem_singleton.mp hmem
      exact hki (ht.unique k i t' t y _ hold hi hn hticket)
    · rw [hother hy]
      exact hnot'
  · intro j k t₁ t₂ y n hj hk h₁ h₂
    exact ht.unique j k t₁ t₂ y n (hbefore j t₁ y n hj h₁).2 (hbefore k t₂ y n hk h₂).2 h₁ h₂

/-- **A step keeps sequences apart.** -/
theorem Ticketed.step (ht : Ticketed s) (hs : Server.step h s a = some s') : Ticketed s' := by
  obtain ⟨request, rfl, rfl⟩ | ⟨i, t, cmd, s₁, b, hruns, hran⟩ := step_cases hs
  · refine ht.nothing rfl rfl fun k t x n hk hn => ?_
    change (s.threads ++ [request.thread])[k]? = some t at hk
    rw [List.getElem?_append] at hk
    split at hk
    · exact ⟨t, hk, hn⟩
    · obtain rfl := List.mem_singleton.mp (List.mem_of_getElem? hk)
      cases request <;> contradiction
  · have hi := hruns.1
    have hsentOn : s'.sentOn = s₁.sentOn := by rw [hran.eq]; rfl
    have hsequenceOf : s'.sequenceOf = s₁.sequenceOf := by rw [hran.eq]; rfl
    have hlink := (hran.post hruns.link).1.sends
    cases hlink with
    | nothing hsilent hticket =>
        refine ht.nothing (hsentOn.trans hsilent.1) (hsequenceOf.trans hsilent.2) ?_
        intro k t' x n hk hn
        obtain ⟨rfl, rfl⟩ | ⟨_, hold⟩ := hran.ticket hruns hk hn
        · exact ⟨t, hi, hticket x n hn⟩
        · exact ⟨t', hold, hn⟩
    | @takes x hsent hsequence hticket =>
        refine ht.takes (hsentOn.trans hsent) (hsequenceOf.trans hsequence) (i := i) ?_
        intro k t' y n hk hn
        obtain ⟨rfl, rfl⟩ | hold := hran.ticket hruns hk hn
        · exact .inl ⟨rfl, hticket y n hn⟩
        · exact .inr hold
    | @sends x event hsequence hsent hticket hnone =>
        refine ht.sends (hsequenceOf.trans hsequence) (hsentOn.trans hsent) hi hticket ?_
        intro k t' y n hk hn
        obtain ⟨rfl, rfl⟩ | hold := hran.ticket hruns hk hn
        · rw [hnone y] at hn
          contradiction
        · exact hold

/-- So they are in every run. -/
theorem run_ticketed
    (hr : (serverMachine h).Run (.new taskStore pushConfigStore pushSender) tr s) : Ticketed s := by
  refine hr.invariant (I := fun _ s => Ticketed s) ?_ fun _ _ _ _ ht hs => ht.step hs
  refine ⟨fun _ => .nil, fun _ _ hn => absurd hn List.not_mem_nil, fun _ _ _ _ hk => ?_,
    fun _ _ _ _ _ _ hj => ?_⟩ <;> contradiction

/-- **No two events sent on a channel have the same sequence**, whoever
publishes there, drivers or cancels, and in every interleaving; none has one
that was not taken, or that a publisher has yet to send. -/
theorem sequences_distinct
    (hr : (serverMachine h).Run (.new taskStore pushConfigStore pushSender) tr s) (x : ExecId) :
    ((s.sentOn x).map (·.sequence)).Nodup ∧
      (∀ n ∈ (s.sentOn x).map (·.sequence), 1 ≤ n ∧ n ≤ s.sequenceOf x) ∧
      ∀ t ∈ s.threads, ∀ n, t.link.ticket x = some n →
        1 ≤ n ∧ n ≤ s.sequenceOf x ∧ n ∉ (s.sentOn x).map (·.sequence) := by
  have ht := run_ticketed hr
  refine ⟨ht.nodup x, ht.sent x, fun t hmem n hn => ?_⟩
  obtain ⟨k, hk⟩ := List.mem_iff_getElem?.mp hmem
  exact ht.pending k t x n hk hn

/-- A send to a task that awaits input, whose executor updates the task once;
the sender then polls its stream. -/
def updatedOnce : List Action :=
  .call (.send (.continuing "t" "m")) :: List.replicate 4 (.step 0 (.emitting [])) ++
    List.replicate 9 (.step 1 (.emitting [.ok (statusUpdate (makeTask "t" "c" .working))])) ++
      [.step 0 (.emitting [])]

/-- The one event of its channel. -/
theorem sequences_distinct_published : ∃ tr s, (serverMachine .new).Run awaitingInput tr s ∧
    s.sequenceOf 0 = 1 ∧ ∀ n ∈ (s.sentOn 0).map (·.sequence), n = 1 := by
  have hx : ((serverMachine .new).exec awaitingInput updatedOnce).map (fun p =>
      p.2.sequenceOf 0) = some 1 := rfl
  obtain ⟨⟨tr, s⟩, hexec, hs⟩ := Option.map_eq_some_iff.mp hx
  have hrun := Machine.run_of_exec hexec
  refine ⟨tr, s, hrun, hs, fun n hn => ?_⟩
  obtain ⟨hpos, hle⟩ := (sequences_distinct hrun 0).2.1 n hn
  rw [hs] at hle
  exact Nat.le_antisymm hle hpos

/-! ## how a stream opens -/

/-- In the run, the `k`-th thread took a step out of `s`, where it stood at `l`. -/
def StepsAt (tr : List (Server × Action)) (k : Nat) (l : Link) (s : Server) : Prop :=
  ∃ inp t, (s, Action.step k inp) ∈ tr ∧ s.threads[k]? = some t ∧ t.link = l

/-- What a waiting subscription was handed in a run. -/
inductive Handed (tr : List (Server × Action)) : Resubscription → Prop
  /-- the execution a send has just registered, from its first event on -/
  | started {j : Nat} {s : Server} {task : Task} (hstep : StepsAt tr j (.registering task) s)
      (hfree : s.manager.executions task.id = none) :
      Handed tr ⟨some ⟨s.executions.length, 0⟩, task, 0⟩
  /-- no execution, but the task a cancel releases the waiters with -/
  | released {j : Nat} {s : Server} {inp : Input} {call : CancelCall} {pc : CancelPc} {task : Task}
      {ws : List WaiterId} (hstep : (s, Action.step j inp) ∈ tr)
      (hcancel : s.threads[j]? = some (.cancel call pc))
      (hrelease : pc.release = some (task, .handing ws)) : Handed tr ⟨none, task, 0⟩

/-- How the stream of the `k`-th thread opened in a run. -/
inductive Opens (tr : List (Server × Action)) (k : Nat) : Subscription → Prop
  /-- a send attaches to its execution, at the end of what was sent by then -/
  | attached {s : Server} {x : ExecId} (hattach : StepsAt tr k (.attaching x) s) :
      Opens tr k (.ofReceiver ⟨x, (s.sentOn x).length⟩)
  /-- a subscription attaches to the execution it finds, and then reads the
  snapshot and its sequence -/
  | resubscribed {s s₁ : Server} {x : ExecId} {active : ActiveExecution}
      (hlisten : StepsAt tr k .idle s)
      (hread : StepsAt tr k (.reading ⟨x, (s.sentOn x).length⟩) s₁)
      (hactive : s₁.executions[x]? = some active) :
      Opens tr k (.ofResubscription
        ⟨some ⟨x, (s.sentOn x).length⟩, active.snapshotTask, active.sequence⟩)
  | handed {value : Resubscription} (hhanded : Handed tr value) :
      Opens tr k (.ofResubscription value)

variable {tr' : List (Server × Action)} {first sub sub' : Subscription} {w : WaiterId}
  {value : Resubscription}

/-- A step of the history stays one, and so does all that is read off it. -/
theorem StepsAt.mono {l : Link} (htr : tr ⊆ tr') (hl : StepsAt tr k l s) : StepsAt tr' k l s := by
  obtain ⟨inp, t, hmem, ht, hlink⟩ := hl
  exact ⟨inp, t, htr hmem, ht, hlink⟩

theorem Handed.mono (htr : tr ⊆ tr') (hv : Handed tr value) : Handed tr' value := by
  cases hv with
  | started hstep hfree => exact .started (hstep.mono htr) hfree
  | released hstep hcancel hrelease => exact .released (htr hstep) hcancel hrelease

theorem Opens.mono (htr : tr ⊆ tr') (ho : Opens tr k first) : Opens tr' k first := by
  cases ho with
  | attached hattach => exact .attached (hattach.mono htr)
  | resubscribed hlisten hread hactive =>
      exact .resubscribed (hlisten.mono htr) (hread.mono htr) hactive
  | handed hhanded => exact .handed (hhanded.mono htr)

/-- A stream that has just opened has yielded nothing. -/
theorem Opens.fresh (ho : Opens tr k first) : first.yielded = [] ∧ first.done = false := by
  cases ho <;> exact ⟨rfl, rfl⟩

/-- A thread that comes to the channels has not dropped its stream. -/
theorem StepsAt.of_ran (hruns : s.runs h a i t cmd) (hran : s.Ran i cmd s' s₁ b)
    (hlink : (cmd.resume b).1.link ≠ .idle) : StepsAt (tr ++ [(s, a)]) i t.link s := by
  obtain ⟨hi, ⟨inp, rfl, _⟩ | ⟨_, rfl⟩⟩ := hruns
  · exact ⟨inp, t, List.mem_append_right _ (List.mem_singleton_self _), hi, rfl⟩
  · obtain ⟨hdrop, _⟩ := Thread.drop_dropped t s₁ b hran.run
    rw [hdrop] at hlink
    exact absurd rfl hlink

/-- An operation that leaves the waiters alone hands nothing on. -/
theorem Op.hands_of_keepsWaiting {β : Type} {op : Op β} (hop : op.keepsWaiting = true) :
    op.hands s = none := by
  cases op <;> first | rfl | contradiction

/-- Dropping a stream hands nothing on. -/
theorem Thread.drop_hands (t : Thread) : t.drop.op.hands s = none := by
  cases t with
  | send call pc => cases pc <;> rfl
  | subscribe call pc => cases pc <;> rfl
  | _ => rfl

/-- **Who hands out**: a send its execution, and a cancel that releases its
task. -/
theorem Thread.next_hands {inp : Input} (hhands : (t.next h inp).op.hands s = some value) :
    (∃ call prepared, t = .send call (.start prepared) ∧
      s.manager.executions prepared.task.id = none ∧
      value = ⟨some ⟨s.executions.length, 0⟩, prepared.task, 0⟩) ∨
    ∃ call pc task ws, t = .cancel call pc ∧ pc.release = some (task, .handing ws) ∧
      value = ⟨none, task, 0⟩ := by
  have hkeeps (hop : (t.next h inp).op.keepsWaiting = true) : False := by
    rw [Op.hands_of_keepsWaiting hop] at hhands
    contradiction
  cases t with
  | drive d => exact (hkeeps (d.next_keepsWaiting inp)).elim
  | send call pc =>
      by_cases hstart : ∃ prepared, pc = .start prepared
      · obtain ⟨prepared, rfl⟩ := hstart
        simp only [Thread.next, SendCall.next, Op.andThen, Op.hands] at hhands
        split at hhands
        · contradiction
        · next hfree =>
          exact .inl ⟨call, prepared, rfl, Option.not_isSome_iff_eq_none.mp hfree,
            (Option.some.inj hhands).symm⟩
      · exact (hkeeps (call.next_keepsWaiting pc inp fun p hp => hstart ⟨p, hp⟩)).elim
  | cancel call pc =>
      right
      cases hrelease : pc.release with
      | none => exact (hkeeps (call.next_keepsWaiting pc inp hrelease)).elim
      | some p =>
          cases pc <;> try contradiction
          case releasing c task pc =>
            obtain _ | _ | ⟨u, rest⟩ := pc <;> try contradiction
            exact ⟨call, _, task, u :: rest, rfl, rfl, (Option.some.inj hhands).symm⟩
          case dropping task result pc =>
            obtain _ | _ | ⟨u, rest⟩ := pc <;> try contradiction
            exact ⟨call, _, task, u :: rest, rfl, rfl, (Option.some.inj hhands).symm⟩
  | subscribe call pc =>
      cases pc <;> try contradiction
      case register =>
        simp only [Thread.next, SubscribeCall.next] at hhands
        split at hhands <;> contradiction
      case streaming opened sub => exact (hkeeps (pollCmd_keepsWaiting sub _)).elim
  | dropped => contradiction

/-- **What waiters are handed** in a step. -/
theorem Server.runs.hands (hruns : s.runs h a i t cmd) (hran : s.Ran i cmd s' s₁ b)
    (hfull : s₁.oneshots[w]? = some (.full value)) :
    s.oneshots[w]? = some (.full value) ∨ Handed (tr ++ [(s, a)]) value := by
  refine (hran.effects.full_cases hfull).imp_right fun hhands => ?_
  obtain ⟨hi, ⟨inp, rfl, rfl⟩ | ⟨_, rfl⟩⟩ := hruns
  · have hmem : (s, Action.step i inp) ∈ tr ++ [(s, .step i inp)] :=
      List.mem_append_right _ (List.mem_singleton_self _)
    obtain ⟨call, prepared, rfl, hfree, rfl⟩ | ⟨call, pc, task, ws, rfl, hrelease, rfl⟩ :=
      Thread.next_hands hhands
    · exact .started ⟨inp, _, hmem, hi, rfl⟩ hfree
    · exact .released hmem hi hrelease
  · rw [Thread.drop_hands] at hhands
    contradiction

/-! ## what a stream has behind it -/

/-- What a stream yields first. -/
def Subscription.opening (first : Subscription) : List Item :=
  first.snapshotTask.toList.map fun task => .ok (.task task)

/-- What a stream has behind it of its channel, between the receiver it opened
with and the one it has. -/
def Server.window (s : Server) : Option Receiver → Option Receiver → List ExecutionEvent
  | some first, some receiver => ((s.sentOn receiver.exec).take receiver.next).drop first.next
  | _, _ => []

/-- A receiver that has gone on from another. -/
def Receiver.From (first receiver : Option Receiver) : Prop :=
  receiver.map (·.exec) = first.map (·.exec) ∧
    ∀ r r', first = some r → receiver = some r' → r.next ≤ r'.next

/-- What a stream has yielded that opened as `first`: nothing before its
snapshot; then that, what a reader takes of its window, and at the end perhaps
the lag error. -/
inductive Subscription.Shows (s : Server) (sub first : Subscription) : Prop
  | opening (htask : first.snapshotTask ≠ none) (hsame : sub = first)
  | going (lag : List Item) (htask : sub.snapshotTask = none)
      (hfrom : Receiver.From first.receiver sub.receiver)
      (hyielded : sub.yielded = first.opening ++
        (skim (·.sequence) first.minSequence (s.window first.receiver sub.receiver)).map
          (·.result) ++ lag)
      (hmark : sub.minSequence =
        skimmed (·.sequence) first.minSequence (s.window first.receiver sub.receiver))
      (hlag : lag = [] ∨ (lag = [.error lagError] ∧ sub.done = true))

/-- A receiver is at its own place. -/
theorem Receiver.From.refl (receiver : Option Receiver) : From receiver receiver := by
  refine ⟨rfl, fun r r' hr hr' => ?_⟩
  obtain rfl := Option.some.inj (hr.symm.trans hr')
  exact Nat.le_refl _

/-- There is nothing between a place and itself. -/
theorem Server.window_self (s : Server) (receiver : Option Receiver) :
    s.window receiver receiver = [] := by
  cases receiver with
  | none => rfl
  | some receiver =>
      rw [window, List.drop_eq_nil_iff]
      exact List.length_take_le _ _

/-- A channel grows at its end. -/
def Server.Grows (s s₁ : Server) : Prop := ∀ x, s.sentOn x <+: s₁.sentOn x

/-- Channels only grow. -/
theorem Link.Sends.grows {l l' : Link} (hl : Link.Sends s s₁ l l') : s.Grows s₁ := by
  intro x
  cases hl with
  | nothing hsilent => rw [hsilent.1]
  | takes hsent => rw [hsent]
  | @sends y event _ hsent =>
      rw [hsent]
      by_cases hx : x = y
      · subst hx
        rw [Function.update_self]
        exact List.prefix_append _ _
      · rw [Function.update_of_ne hx]

/-- A receiver has not received more than was sent. -/
def Server.Bounds (s : Server) (receiver : Option Receiver) : Prop :=
  ∀ r, receiver = some r → r.next ≤ (s.sentOn r.exec).length

/-- A receiver stays within a channel that grows. -/
theorem Server.Bounds.grows {receiver : Option Receiver} (hb : s.Bounds receiver)
    (hg : s.Grows s₁) : s₁.Bounds receiver :=
  fun r hr => Nat.le_trans (hb r hr) (hg r.exec).length_le

/-- A waiter has all of its execution to receive. -/
theorem Handed.bounds (hv : Handed tr value) (s : Server) : s.Bounds value.receiver := by
  intro r hr
  cases hv with
  | started =>
      obtain rfl := Option.some.inj hr
      exact Nat.zero_le _
  | released => contradiction

/-- What a stream has behind it does not change. -/
theorem Server.window_grows {receiver : Option Receiver} (hb : s.Bounds receiver)
    (hg : s.Grows s₁) (first : Option Receiver) :
    s₁.window first receiver = s.window first receiver := by
  cases first with
  | none => rfl
  | some r₀ =>
      cases receiver with
      | none => rfl
      | some r =>
          obtain ⟨rest, hrest⟩ := hg r.exec
          simp only [window]
          rw [← hrest, List.take_append_of_le_length (hb r rfl)]

/-- What a stream shows does not change as its channel grows. -/
theorem Subscription.Shows.grows (hsub : sub.Shows s first) (hb : s.Bounds sub.receiver)
    (hg : s.Grows s₁) : sub.Shows s₁ first := by
  cases hsub with
  | opening htask hsame => exact .opening htask hsame
  | going lag htask hfrom hyielded hmark hlag =>
      rw [← s.window_grows hb hg] at hyielded hmark
      exact .going lag htask hfrom hyielded hmark hlag

/-- A stream that has just opened shows its opening. -/
theorem Subscription.shows_ofReceiver (receiver : Receiver) :
    (ofReceiver receiver).Shows s (ofReceiver receiver) := by
  refine .going [] rfl (.refl _) ?_ ?_ (.inl rfl)
  · rw [s.window_self]
    rfl
  · rw [s.window_self]
    rfl

/-- One more event is received. -/
theorem Receiver.From.next {receiver : Receiver} {first : Option Receiver}
    (hfrom : From first (some receiver)) :
    From first (some { receiver with next := receiver.next + 1 }) := by
  refine ⟨hfrom.1, fun r r' hr hr' => ?_⟩
  obtain rfl := Option.some.inj hr'
  exact Nat.le_succ_of_le (hfrom.2 r receiver hr rfl)

/-- A receiver that moves on has one event more behind it. -/
theorem Server.window_next {receiver : Receiver} {first : Option Receiver} {event : ExecutionEvent}
    (hfrom : Receiver.From first (some receiver))
    (hevent : (s.sentOn receiver.exec)[receiver.next]? = some event) :
    s.window first (some { receiver with next := receiver.next + 1 }) =
      s.window first (some receiver) ++ [event] := by
  obtain ⟨hlt, hget⟩ := List.getElem?_eq_some_iff.mp hevent
  obtain ⟨hon, hle⟩ := hfrom
  cases first with
  | none => contradiction
  | some r₀ =>
      have hstart := hle r₀ receiver rfl rfl
      simp only [window]
      rw [List.take_add_one, hevent, Option.toList_some, List.drop_append_of_le_length]
      rw [List.length_take]
      omega

/-- **A poll** yields what a reader takes of one more event. -/
theorem Subscription.Shows.polls {o : Option (Option Item)} (hsub : sub.Shows s first)
    (hfresh : first.yielded = [] ∧ first.done = false) (hp : sub.Polls s sub' o) :
    sub'.Shows s first := by
  cases hp with
  | done => exact hsub
  | unattached => exact hsub
  | closed => exact hsub
  | @snapshot task hlive htask =>
      cases hsub with
      | going _ hnone => rw [hnone] at htask; contradiction
      | opening _ hsame =>
          subst hsame
          have hopening : sub.opening = [.ok (.task task)] := by
            rw [Subscription.opening, htask]
            rfl
          refine .going [] rfl (.refl _) ?_ ?_ (.inl rfl)
          · simp only [yieldSnapshot]
            rw [s.window_self, hfresh.1, hopening]
            rfl
          · simp only [yieldSnapshot]
            rw [s.window_self]
            rfl
  | @lagged receiver active hlive htask =>
      cases hsub with
      | opening hsome hsame => exact absurd (hsame ▸ htask) hsome
      | going lag _ hfrom hyielded hmark hlag =>
          obtain rfl | ⟨_, hdone⟩ := hlag
          · refine .going [.error lagError] htask hfrom ?_ hmark (.inr ⟨rfl, rfl⟩)
            show sub.yielded ++ _ = _
            rw [hyielded, List.append_nil]
            rfl
          · rw [hlive] at hdone
            contradiction
  | @event receiver active event hlive htask hreceiver hactive _ hevent =>
      cases hsub with
      | opening hsome hsame => exact absurd (hsame ▸ htask) hsome
      | going lag _ hfrom hyielded hmark hlag =>
          obtain rfl | ⟨_, hdone⟩ := hlag
          · rw [← Server.sentOn_of_getElem hactive] at hevent
            rw [hreceiver] at hfrom hyielded hmark
            have hwindow := s.window_next hfrom hevent
            unfold receive
            split
            · next hle =>
              refine .going [] htask hfrom.next ?_ ?_ (.inl rfl)
              · show sub.yielded = _
                rw [hwindow, skim_concat, ← hmark, if_pos hle, hyielded]
                simp
              · show sub.minSequence = _
                rw [hwindow, skimmed_concat, ← hmark, if_pos hle]
            · next hlt =>
              refine .going [] htask hfrom.next ?_ ?_ (.inl rfl)
              · show sub.yielded ++ [event.result] = _
                rw [hwindow, skim_concat, ← hmark, if_neg hlt, hyielded]
                simp
              · show event.sequence = _
                rw [hwindow, skimmed_concat, ← hmark, if_neg hlt]
          · rw [hlive] at hdone
            contradiction

/-! ## the streams of a server -/

/-- What holds of the stream of the `k`-th thread. -/
structure Link.Delivers (tr : List (Server × Action)) (k : Nat) (s : Server) (l : Link) : Prop where
  bounds : s.Bounds l.receiver
  listened : ∀ receiver, l = .reading receiver →
    ∃ s₀, StepsAt tr k .idle s₀ ∧ receiver.next = (s₀.sentOn receiver.exec).length
  shows : ∀ resumed sub, l = .following resumed sub ∨ l = .ended resumed sub →
    ∃ first, Opens tr k first ∧ sub.Shows s first
  /-- a stream that is over though it yielded no last item has received all -/
  complete : ∀ resumed sub, l = .ended resumed sub → sub.done = false →
    sub.snapshotTask = none ∧
      ∀ receiver, sub.receiver = some receiver → receiver.exec < s.executions.length ∧
        s.channelClosed receiver.exec = true ∧ receiver.next = (s.sentOn receiver.exec).length
  /-- nor has it received more -/
  ended : ∀ resumed sub, l = .ended resumed sub → s.Bounds sub.receiver

/-- The streams of a server, and what its waiters were handed. -/
structure Delivering (tr : List (Server × Action)) (s : Server) : Prop where
  links : ∀ (k : Nat) (t : Thread), s.threads[k]? = some t → t.link.Delivers tr k s
  handed : ∀ (w : WaiterId) (value : Resubscription), s.oneshots[w]? = some (.full value) →
    Handed tr value

/-- There is nothing to say of a thread without a stream. -/
theorem Link.Delivers.of_other {l : Link} (hreceiver : l.receiver = none)
    (hreading : ∀ receiver, l ≠ .reading receiver)
    (hended : ∀ resumed sub, l ≠ .ended resumed sub)
    (hfollowing : ∀ resumed sub, l ≠ .following resumed sub) : l.Delivers tr k s where
  bounds r hr := by rw [hreceiver] at hr; contradiction
  listened receiver hl := absurd hl (hreading receiver)
  shows resumed sub hl := by
    obtain hl | hl := hl
    · exact absurd hl (hfollowing resumed sub)
    · exact absurd hl (hended resumed sub)
  complete resumed sub hl := absurd hl (hended resumed sub)
  ended resumed sub hl := absurd hl (hended resumed sub)

theorem Link.Resting.delivers_nothing {l : Link} (hl : l.Resting) : l.Delivers tr k s := by
  cases l with
  | following => exact hl.elim
  | ended => exact hl.elim
  | reading => exact hl.elim
  | _ => exact .of_other rfl (by simp) (by simp) (by simp)

/-- The thread of a stream that did not act. -/
theorem Link.Delivers.grows {l : Link} (hl : l.Delivers tr k s) (htr : tr ⊆ tr') (hg : s.Grows s₁)
    (hclosed : ∀ x, x < s.executions.length → s.channelClosed x = true →
      x < s₁.executions.length ∧ s₁.channelClosed x = true ∧ s₁.sentOn x = s.sentOn x) :
    l.Delivers tr' k s₁ where
  bounds := hl.bounds.grows hg
  listened receiver hlink := by
    obtain ⟨s₀, hstep, hnext⟩ := hl.listened receiver hlink
    exact ⟨s₀, hstep.mono htr, hnext⟩
  shows resumed sub hlink := by
    obtain ⟨first, hopens, hshows⟩ := hl.shows resumed sub hlink
    refine ⟨first, hopens.mono htr, hshows.grows ?_ hg⟩
    obtain rfl | rfl := hlink
    · exact hl.bounds
    · exact hl.ended resumed sub rfl
  complete resumed sub hlink hdone := by
    obtain ⟨htask, hall⟩ := hl.complete resumed sub hlink hdone
    refine ⟨htask, fun receiver hreceiver => ?_⟩
    obtain ⟨hlt, hc, hnext⟩ := hall receiver hreceiver
    obtain ⟨hlt', hc', hsame⟩ := hclosed receiver.exec hlt hc
    exact ⟨hlt', hc', hsame ▸ hnext⟩
  ended resumed sub hlink := (hl.ended resumed sub hlink).grows hg

/-- A poll does not go past the end of the channel. -/
theorem Subscription.Polls.bounds {o : Option (Option Item)} (hp : sub.Polls s sub' o)
    (hb : s.Bounds sub.receiver) : s.Bounds sub'.receiver := by
  cases hp with
  | done => exact hb
  | unattached => exact hb
  | closed => exact hb
  | snapshot => exact hb
  | lagged => exact hb
  | @event receiver active event _ _ _ hactive _ hevent =>
      have hnext : (sub.receive { receiver with next := receiver.next + 1 } event).receiver =
          some { receiver with next := receiver.next + 1 } := by
        unfold receive
        split <;> rfl
      intro r hr
      rw [hnext] at hr
      obtain rfl := Option.some.inj hr
      show receiver.next + 1 ≤ (s.sentOn receiver.exec).length
      rw [Server.sentOn_of_getElem hactive]
      exact (List.getElem?_eq_some_iff.mp hevent).1

/-- A stream that is over though it yielded no last item. -/
theorem Subscription.Polls.over (hp : sub.Polls s sub' (some none)) (hb : s.Bounds sub.receiver)
    (hdone : sub'.done = false) :
    sub'.snapshotTask = none ∧
      ∀ receiver, sub'.receiver = some receiver → receiver.exec < s.executions.length ∧
        s.channelClosed receiver.exec = true ∧ receiver.next = (s.sentOn receiver.exec).length := by
  generalize ho : some none = o at hp
  cases hp with
  | done h => rw [h] at hdone; contradiction
  | unattached _ htask hnone =>
      refine ⟨htask, fun receiver hreceiver => ?_⟩
      rw [hnone] at hreceiver
      contradiction
  | event => split at ho <;> cases ho
  | snapshot => cases ho
  | lagged => cases ho
  | @closed receiver' active _ htask hsome hactive hend hclosed =>
      refine ⟨htask, fun receiver hreceiver => ?_⟩
      obtain rfl := Option.some.inj (hsome.symm.trans hreceiver)
      refine ⟨(List.getElem?_eq_some_iff.mp hactive).1, hclosed, ?_⟩
      have hle := hb receiver' hsome
      rw [Server.sentOn_of_getElem hactive] at hle ⊢
      exact Nat.le_antisymm hle (List.getElem?_eq_none_iff.mp hend)

/-- **What a step makes of a stream.** -/
theorem Link.Step.delivers {l l' : Link} (hl : Link.Step s s₁ l l') (hd : l.Delivers tr k s)
    (hsteps : l' ≠ .idle → StepsAt tr k l s)
    (hhanded : ∀ (w : WaiterId) (value : Resubscription), s.oneshots[w]? = some (.full value) →
      Handed tr value) : l'.Delivers tr k s := by
  have hlength {y : ExecId} {active : ActiveExecution} (hactive : s.executions[y]? = some active) :
      s.Bounds (some ⟨y, active.sent.length⟩) := by
    intro r hr
    obtain rfl := Option.some.inj hr
    exact Nat.le_of_eq (congrArg _ (Server.sentOn_of_getElem hactive).symm)
  cases hl with
  | rest _ hrest => exact hrest.delivers_nothing
  | unheard _ _ hrest => exact hrest.delivers_nothing
  | send _ _ hrest => exact hrest.delivers_nothing
  | start => exact .of_other rfl (by simp) (by simp) (by simp)
  | publish => exact .of_other rfl (by simp) (by simp) (by simp)
  | heard => exact .of_other rfl (by simp) (by simp) (by simp)
  | listen hactive =>
      refine ⟨hlength hactive, fun receiver hlink => ?_, by simp, by simp, by simp⟩
      cases hlink
      exact ⟨s, hsteps (by simp), congrArg _ (Server.sentOn_of_getElem hactive).symm⟩
  | @attach x active hactive =>
      refine ⟨hlength hactive, by simp, fun resumed sub hlink => ?_, by simp, by simp⟩
      obtain hlink | hlink := hlink <;> cases hlink
      refine ⟨_, ?_, Subscription.shows_ofReceiver _⟩
      rw [← Server.sentOn_of_getElem hactive]
      exact .attached (hsteps (by simp))
  | @read receiver active hactive =>
      refine ⟨hd.bounds, by simp, fun resumed sub hlink => ?_, by simp, by simp⟩
      obtain hlink | hlink := hlink <;> cases hlink
      refine ⟨_, ?_, .opening (Option.some_ne_none _) rfl⟩
      obtain ⟨s₀, hlisten, hnext⟩ := hd.listened receiver rfl
      obtain ⟨x, n⟩ := receiver
      obtain rfl : n = (s₀.sentOn x).length := hnext
      exact .resubscribed hlisten (hsteps (by simp)) hactive
  | take hfull =>
      have hvalue := hhanded _ _ hfull
      refine ⟨hvalue.bounds s, by simp, fun resumed sub hlink => ?_, by simp, by simp⟩
      obtain hlink | hlink := hlink <;> cases hlink
      exact ⟨_, .handed hvalue, .opening (Option.some_ne_none _) rfl⟩
  | poll hpolls =>
      refine ⟨hpolls.bounds hd.bounds, by simp, fun resumed sub hlink => ?_, by simp, by simp⟩
      obtain hlink | hlink := hlink <;> cases hlink
      obtain ⟨first, hopens, hshows⟩ := hd.shows _ _ (.inl rfl)
      exact ⟨first, hopens, hshows.polls hopens.fresh hpolls⟩
  | ends hpolls =>
      refine ⟨fun r hr => by contradiction, by simp, fun resumed sub hlink => ?_,
        fun resumed sub hlink hdone => ?_, fun resumed sub hlink => ?_⟩
      · obtain hlink | hlink := hlink <;> cases hlink
        obtain ⟨first, hopens, hshows⟩ := hd.shows _ _ (.inl rfl)
        exact ⟨first, hopens, hshows.polls hopens.fresh hpolls⟩
      · cases hlink
        exact hpolls.over hd.bounds hdone
      · cases hlink
        exact hpolls.bounds hd.bounds

/-- **A step keeps it**, whichever thread acts. -/
theorem Delivering.step (hd : Delivering tr s) (hc : Closing tr s)
    (hs : Server.step h s a = some s') : Delivering (tr ++ [(s, a)]) s' := by
  have htr : tr ⊆ tr ++ [(s, a)] := List.subset_append_left _ _
  have hclosed (x : ExecId) (hlt : x < s.executions.length) (hx : s.channelClosed x = true) :
      x < s'.executions.length ∧ s'.channelClosed x = true ∧ s'.sentOn x = s.sentOn x := by
    obtain ⟨hx', hsame⟩ := hc.step_closed hlt hx hs
    refine ⟨?_, hx', by rw [Server.sentOn, hsame, Server.sentOn]⟩
    rw [List.getElem?_eq_getElem hlt] at hsame
    exact (List.getElem?_eq_some_iff.mp hsame).1
  obtain ⟨request, rfl, rfl⟩ | ⟨i, t, cmd, s₁, b, hruns, hran⟩ := step_cases hs
  · have hg : s.Grows { s with threads := s.threads ++ [request.thread] } := fun x =>
      List.prefix_refl _
    refine ⟨fun k t ht => ?_, fun w value hfull => (hd.handed w value hfull).mono htr⟩
    rw [List.getElem?_append] at ht
    split at ht
    · exact (hd.links k t ht).grows htr hg hclosed
    · obtain rfl := List.mem_singleton.mp (List.mem_of_getElem? ht)
      cases request <;> exact Link.Resting.delivers_nothing trivial
  · obtain ⟨hlink, hnew⟩ := hran.post hruns.link
    have hg : s.Grows s' := by
      rw [hran.eq]
      exact hlink.sends.grows
    constructor
    · intro k t' hk
      obtain ⟨rfl, rfl⟩ | ⟨_, hold⟩ | ⟨_, hspawned⟩ := hran.thread_cases hk
      · have hbefore := (hd.links k t hruns.1).grows htr (fun x => List.prefix_refl _)
          fun x hlt hx => ⟨hlt, hx, rfl⟩
        have hself := hlink.delivers hbefore (StepsAt.of_ran hruns hran) fun w value hfull =>
          (hd.handed w value hfull).mono htr
        exact hself.grows (List.Subset.refl _) hg hclosed
      · exact (hd.links k t' hold).grows htr hg hclosed
      · rw [hnew t' hspawned]
        exact Link.Resting.delivers_nothing trivial
    · intro w value hfull
      rw [hran.eq] at hfull
      obtain hold | hhanded := hruns.hands hran hfull
      · exact (hd.handed w value hold).mono htr
      · exact hhanded

/-- What a thread makes of an item of its stream: a streaming send cuts tasks to
the history asked for. -/
def Thread.cut : Thread → Item → Item
  | .send call (.streaming _) => call.cutItem
  | .send call (.ended _) => call.cutItem
  | _ => id

/-- What a thread's consumer has received before the stream: the task that a
subscription opened with that waited for its execution. -/
def Thread.opened : Thread → List Item
  | .subscribe _ pc => pc.opened.toList.map fun task => .ok (.task task)
  | _ => []

/-- What the consumer of a thread's stream has received. -/
def Thread.received (t : Thread) : List Item :=
  t.opened ++ (t.subscription.toList.flatMap (·.yielded)).map t.cut

end A2a
