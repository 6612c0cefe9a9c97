import A2a.DriveExecution

/-!
# A2a.DriveExecution.Agreement

What is stored is what is seen.  After a `drive_execution` the snapshot of
its execution should be the stored task, and a subscriber that was there
from the start and keeps up should have received the end of the task if an
event of the executor ended it.

`drive_agrees` says for which streams and outcomes of pushes this is so.  It
is not where the push of a terminal event fails: the task is stored as it
ended, and neither the snapshot nor the subscriber learns of it.  Nor is it
where a continuing send's executor says nothing: the snapshot has the new
message and the store has not.
-/

namespace A2a

open InMemoryTaskStore

/-! ## a subscriber from the start -/

/-- Receive one event after another, until one ends the stream. -/
def Subscription.receiveAll (sub : Subscription) (receiver : Receiver) :
    List ExecutionEvent → Subscription
  | [] => sub
  | event :: rest =>
      let receiver := { receiver with next := receiver.next + 1 }
      if sub.done then sub else (sub.receive receiver event).receiveAll receiver rest

namespace Drive

/-- The stream of the sender, which attached before the loop and has
received all there is; `x` is the execution. -/
def subscription (d : Drive) (x : ExecId) : Subscription :=
  (Subscription.ofReceiver ⟨x, 0⟩).receiveAll ⟨x, 0⟩ d.active.sent

/-- The subscriber has received an event that ends the task. -/
def Received (d : Drive) (x : ExecId) (taskId : TaskId) : Prop :=
  ∃ event, .ok event ∈ (d.subscription x).yielded ∧
    isTerminalEvent event = true ∧ taskIdForEvent event = some taskId

end Drive

/-- What comes in the order of its sequence numbers is yielded, if nothing
but its last item ends the stream. -/
theorem Subscription.yielded_receiveAll {events : List ExecutionEvent} {sub : Subscription}
    {receiver : Receiver} (hdone : sub.done = false)
    (hnew : ∀ event ∈ events, sub.minSequence < event.sequence)
    (hsorted : events.Pairwise fun a b => a.sequence < b.sequence)
    (hlive : ∀ event ∈ events.dropLast, endsStream event.result = false) :
    (sub.receiveAll receiver events).yielded = sub.yielded ++ events.map (·.result) := by
  induction events generalizing sub receiver with
  | nil => simp [receiveAll]
  | cons event rest ih =>
      have hlt := hnew event (by simp)
      obtain ⟨hfirst, hrest⟩ := List.pairwise_cons.mp hsorted
      rw [receiveAll, hdone, if_neg Bool.false_ne_true, receive, if_neg (Nat.not_le.mpr hlt)]
      cases rest with
      | nil => simp [receiveAll]
      | cons event' rest =>
          have hends : endsStream event.result = false := hlive event (by simp)
          have hlive' : ∀ e ∈ (event' :: rest).dropLast, endsStream e.result = false := by
            intro e he
            exact hlive e (by simpa using .inr he)
          rw [ih hends hfirst hrest hlive']
          simp

/-! ## agreement -/

variable {store : InMemoryTaskStore} {task first : Task} {limit : Option Nat}
  {tracked created : Bool} {d last : Drive} {fresh : Fresh} {x : ExecId}

/-- A subscriber from the start yields all that was sent. -/
theorem Drive.mem_yielded {d : Drive} (ho : d.active.Ordered)
    (hquiet : ∀ message ∈ d.active.sent.dropLast, Subscription.endsStream message.result = false)
    (x : ExecId) (item : Item) :
    item ∈ (d.subscription x).yielded ↔ ∃ message ∈ d.active.sent, message.result = item := by
  rw [Drive.subscription, Subscription.yielded_receiveAll rfl ho.positive ho.sorted hquiet]
  simp [Subscription.ofReceiver]

/-- What is stored is what is seen: the snapshot is the stored task, and the
subscriber has received its end exactly where an event of the executor
ended it. -/
def Drive.Agrees (d : Drive) (x : ExecId) (taskId : TaskId) : Prop :=
  d.store.get taskId = some d.active.snapshotTask ∧
    (d.Received x taskId ↔ ∃ task, d.store.get taskId = some task ∧ task.isTerminal = true ∧
      ∃ event ∈ d.applied, event.status = some task.status)

/-- The endings that leave them in agreement, for a send that has `created`
the task or continues it: the loop's task is still the one it was started
for, and

* a loop that drained its stream has stored an event or need not have;
* a delivered terminal event names the task, and finished tasks are kept;
* a terminal event whose push failed is that of another task;
* a task that was failed is kept. -/
def Ending.Sound (limit : Option Nat) (taskId : TaskId) (created : Bool) : Ending → Prop
  | .drained hand tracked => hand.id = taskId ∧ (tracked = true ∨ created = true)
  | .delivered task event =>
      task.id = taskId ∧ taskIdForEvent event = some taskId ∧ limit ≠ some 0
  | .lost hand tracked task =>
      hand.id = taskId ∧ task.id ≠ taskId ∧ (tracked = true ∨ created = true)
  | .failed task => task.id = taskId ∧ limit ≠ some 0

/-- What the subscriber has received once a last item was published. -/
theorem received_publish {last : Drive} {result : Item} {snapshotTask : Option Task}
    (h : d.Working limit store first tracked)
    (hp : last.active = d.active.publish result snapshotTask) (x : ExecId) (taskId : TaskId) :
    last.Received x taskId ↔ ∃ event, result = .ok event ∧ isTerminalEvent event = true ∧
      taskIdForEvent event = some taskId := by
  have hordered : last.active.Ordered := by
    rw [hp]
    exact h.ordered.publish result snapshotTask
  have hsent : last.active.sent = d.active.sent ++ [⟨d.active.sequence + 1, result⟩] := by
    rw [hp]
    rfl
  have hquiet : ∀ message ∈ last.active.sent.dropLast,
      Subscription.endsStream message.result = false := by
    rw [hsent, List.dropLast_concat]
    exact h.quiet
  constructor
  · rintro ⟨event, hm, hterm, hid⟩
    obtain ⟨message, hmem, hresult⟩ := (Drive.mem_yielded hordered hquiet x _).mp hm
    rw [hsent] at hmem
    rcases List.mem_append.mp hmem with hmem | hmem
    · have hlive := h.quiet message hmem
      rw [hresult, Subscription.endsStream, hterm] at hlive
      contradiction
    · obtain rfl := List.mem_singleton.mp hmem
      exact ⟨event, hresult, hterm, hid⟩
  · rintro ⟨event, rfl, hterm, hid⟩
    refine ⟨event, (Drive.mem_yielded hordered hquiet x _).mpr ?_, hterm, hid⟩
    exact ⟨⟨d.active.sequence + 1, .ok event⟩, by simp [hsent], rfl⟩

/-- A loop at its head has sent nothing that ends the task. -/
theorem Drive.Working.not_received (h : d.Working limit store first tracked) (x : ExecId)
    (taskId : TaskId) : ¬ d.Received x taskId := by
  rintro ⟨event, hm, hterm, _⟩
  have hquiet : ∀ message ∈ d.active.sent.dropLast,
      Subscription.endsStream message.result = false :=
    fun message hmem => h.quiet message (List.mem_of_mem_dropLast hmem)
  obtain ⟨message, hmem, hresult⟩ := (Drive.mem_yielded h.ordered hquiet x _).mp hm
  have hlive := h.quiet message hmem
  rw [hresult, Subscription.endsStream, hterm] at hlive
  contradiction

/-- No event that is not terminal leaves a terminal status. -/
theorem not_applied_terminal {events : List StreamResponse}
    (hquiet : ∀ event ∈ events, isTerminalEvent event = false) (hterm : task.isTerminal = true) :
    ¬ ∃ event ∈ events, event.status = some task.status := by
  rintro ⟨event, hm, hstatus⟩
  have hlive := hquiet event hm
  cases event with
  | task next =>
      have hs : next.status = task.status := Option.some.inj hstatus
      rw [isTerminalEvent, hs, ← Task.isTerminal, hterm] at hlive
      contradiction
  | statusUpdate update =>
      have hs : update.status = task.status := Option.some.inj hstatus
      rw [isTerminalEvent, hs, ← Task.isTerminal, hterm] at hlive
      contradiction
  | message message => contradiction
  | artifactUpdate update => contradiction

/-- Where the store and the snapshot agree on a task that is not terminal,
nothing else is to be shown. -/
theorem agrees_of_live {taskId : TaskId} (hs : last.active.snapshotTask = task)
    (hlive : task.isTerminal = false) (hno : ¬ last.Received x taskId) :
    last.Agrees x taskId ↔ last.store.get taskId = some task := by
  rw [Drive.Agrees, hs]
  constructor
  · intro h
    exact h.1
  · intro hget
    refine ⟨hget, fun hr => absurd hr hno, ?_⟩
    rintro ⟨y, hy, hterm, _⟩
    obtain rfl := Option.some.inj (hget.symm.trans hy)
    rw [hlive] at hterm
    contradiction

/-- A terminal task written over the loop's task, or elsewhere. -/
theorem Drive.Working.get_next_terminal {op : TaskOp} (h : d.Working limit store first tracked)
    (hx : op.task d.store = some task) (hterm : task.isTerminal = true) :
    (op.next d.store).get first.id = some task ↔ task.id = first.id ∧ limit ≠ some 0 := by
  by_cases hid : task.id = first.id
  · have hget := h.reached.get_next_of_terminal hx (by rw [hid]; exact h.unfinished) hterm
    rw [← hid, hget]
    by_cases hl : limit = some 0
    · simp [hl]
    · simp [hl]
  · constructor
    · intro hget
      exact absurd (get_id hget) hid
    · intro hand
      exact absurd hand.1 hid

/-- A delivered terminal event. -/
theorem agrees_delivered {event : StreamResponse} (h : d.Working limit store first tracked)
    (hc : d.Closes task event last) (hp : last.active = d.active.publish (.ok event) (some task)) :
    last.Agrees x first.id ↔
      task.id = first.id ∧ taskIdForEvent event = some first.id ∧ limit ≠ some 0 := by
  obtain ⟨op, hx, hn⟩ := hc.store
  have hsnap : last.active.snapshotTask = task := by rw [hp]; rfl
  have hget : last.store.get first.id = some task ↔ task.id = first.id ∧ limit ≠ some 0 := by
    rw [hn]
    exact h.get_next_terminal hx hc.terminal
  have hreceived : last.Received x first.id ↔ taskIdForEvent event = some first.id := by
    rw [received_publish h hp]
    simp [hc.ends]
  have happlied : ∃ event ∈ last.applied, event.status = some task.status :=
    ⟨event, by rw [hc.applied]; simp, hc.status⟩
  rw [Drive.Agrees, hsnap, hreceived]
  constructor
  · rintro ⟨hstored, hiff⟩
    obtain ⟨hid, hl⟩ := hget.mp hstored
    exact ⟨hid, hiff.mpr ⟨task, hstored, hc.terminal, happlied⟩, hl⟩
  · rintro ⟨hid, hnamed, hl⟩
    have hstored := hget.mpr ⟨hid, hl⟩
    exact ⟨hstored, fun _ => ⟨task, hstored, hc.terminal, happlied⟩, fun _ => hnamed⟩

/-- A terminal event whose push failed. -/
theorem agrees_lost {event : StreamResponse} {error : A2AError}
    (h : d.Working limit store first tracked) (hb : Begun store first created)
    (hs : d.active.snapshotTask = d.current) (hc : d.Closes task event last)
    (hp : last.active = d.active.publish (.error error) none) :
    last.Agrees x first.id ↔
      d.current.id = first.id ∧ task.id ≠ first.id ∧ (tracked = true ∨ created = true) := by
  obtain ⟨op, hx, hn⟩ := hc.store
  have hsnap : last.active.snapshotTask = d.current := by rw [hp]; exact hs
  have hno : ¬ last.Received x first.id := by
    rw [received_publish h hp]
    simp
  rw [agrees_of_live hsnap h.live hno, hn]
  constructor
  · intro hget
    rcases (op.wrote hx).of_get hget with ⟨_, hsame⟩ | ⟨hne, hbefore⟩
    · -- the task after the event is terminal, the one before it is not
      have hterm := hc.terminal
      rw [← hsame, h.live] at hterm
      contradiction
    · obtain ⟨hid, hstored⟩ := (h.get_iff hb).mp hbefore
      exact ⟨hid, Ne.symm hne, hstored⟩
  · rintro ⟨hid, hne, hstored⟩
    have hbefore := (h.get_iff hb).mpr ⟨hid, hstored⟩
    exact h.reached.get_next_of_ne hx (Ne.symm hne) hbefore h.live

/-- Any other failure. -/
theorem agrees_failed {op : TaskOp} {error : A2AError} (h : d.Working limit store first tracked)
    (hx : op.task d.store = some task) (hterm : task.isTerminal = true)
    (hn : last.store = op.next d.store)
    (hp : last.active = d.active.publish (.error error) (some task))
    (ha : last.applied = d.applied) :
    last.Agrees x first.id ↔ task.id = first.id ∧ limit ≠ some 0 := by
  have hsnap : last.active.snapshotTask = task := by rw [hp]; rfl
  have hno : ¬ last.Received x first.id := by
    rw [received_publish h hp]
    simp
  rw [← h.get_next_terminal hx hterm, Drive.Agrees, hsnap, hn, ha]
  constructor
  · intro hagrees
    exact hagrees.1
  · intro hget
    refine ⟨hget, fun hr => absurd hr hno, ?_⟩
    rintro ⟨y, hy, _, happlied⟩
    obtain rfl := Option.some.inj (hget.symm.trans hy)
    exact absurd happlied (not_applied_terminal h.applied hterm)

/-- A run leaves store and snapshot in agreement exactly if its ending is
sound. -/
theorem Drive.Ended.agrees_iff {e : Ending} (he : last.Ended limit store first fresh e)
    (hb : Begun store first created) (x : ExecId) :
    last.Agrees x first.id ↔ e.Sound limit first.id created := by
  cases he with
  | drained h hs hc =>
      rw [agrees_of_live (hs.trans hc.symm) h.live (h.not_received x first.id), h.get_iff hb, hc]
      rfl
  | delivered h hc hp => exact agrees_delivered h hc hp
  | lost h hh hs hc hp =>
      rw [agrees_lost h hb (hs.trans hh.symm) hc hp, hh]
      rfl
  | failed h hh hx hn hp ha =>
      rw [agrees_failed h hx (failedTask_isTerminal _ _ _ _) hn hp ha]
      rfl

/-- **What is stored is what is seen**: after the `drive_execution` of any
started send, on any stream and with any outcome of each push, the snapshot
is the stored task and the subscriber knows of its end, exactly if the
stream ends soundly. -/
theorem drive_agrees (h : Handler) (params : ServiceParams) (fresh failure : Fresh) (x : ExecId)
    (streaming : Bool) (req : SendMessageRequest) (s s' : Stores) (prepared : Prepared)
    (arrivals : List Arrival) (hr : Reached limit s.taskStore)
    (hs : (Call.startExecution h params fresh x streaming req).exec s = (.ok prepared, s')) :
    ((Drive.start s'.taskStore prepared.task).run failure arrivals).Agrees x prepared.task.id ↔
      (ending s'.taskStore prepared.task false false arrivals).Sound limit prepared.task.id
        prepared.stored.isNone := by
  obtain ⟨_, _, hb⟩ := begun_of_started hr hs
  exact (started_ends hr hs failure arrivals).agrees_iff hb x

/-- A send that creates the task "t", with a webhook. -/
def helloRequest : SendMessageRequest where
  message := .new "m" .user [.text "hello"]
  configuration := some ⟨none, some ⟨"https://hook", none, "", none, none, none⟩, none, none⟩
  metadata := none
  tenant := none

/-- What it is prepared from: the clock and new ids. -/
def helloFresh : Fresh := ⟨.unixEpoch, "t", "c", "a", "p"⟩

/-- The executor completes the task; its push ends as given. -/
def completion (push : Except A2AError Unit) : Arrival where
  item := .ok (.statusUpdate ⟨"t", "c", ⟨.completed, none, none⟩, none⟩)
  now := .unixEpoch
  push := push

/-- The task of the send, as it is created. -/
def helloTask : Task := newTask helloFresh "t" helloRequest.message

/-- The store and the snapshot agree on a task completed and pushed. -/
theorem drive_agrees_completed :
    ∃ s', (Call.startExecution .new ∅ helloFresh 0 false helloRequest).exec emptyStores =
        (.ok ⟨helloTask, none⟩, s') ∧
      ((Drive.start s'.taskStore helloTask).run helloFresh [completion (.ok ())]).Agrees 0 "t" := by
  refine ⟨_, rfl, ?_⟩
  exact (drive_agrees .new ∅ helloFresh helloFresh 0 false helloRequest emptyStores _
    ⟨helloTask, none⟩ [completion (.ok ())] (reached_new none) rfl).mpr ⟨rfl, rfl, by simp⟩

/-- **They can disagree**: the task is stored COMPLETED, its push fails, and
neither the snapshot nor the subscriber learns of it. -/
theorem completion_push_fails :
    ∃ s', (Call.startExecution .new ∅ helloFresh 0 false helloRequest).exec emptyStores =
        (.ok ⟨helloTask, none⟩, s') ∧
      ¬ ((Drive.start s'.taskStore helloTask).run helloFresh
        [completion (.error (.internal "push failed"))]).Agrees 0 "t" := by
  refine ⟨_, rfl, fun h => ?_⟩
  have hstate := congrArg (Option.map (·.status.state)) h.1
  exact absurd hstate (by decide)

end A2a
