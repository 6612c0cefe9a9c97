import A2a.Execution
import A2a.StartExecution
import A2a.TaskStore.Retention

/-!
# A2a.DriveExecution

A `drive_execution` from its start to its end, with no other party at work
(`a2a-server/src/handler.rs`).

`Drive.take` is one turn of its loop and `Drive.run` the whole of it, with
`fail_task` where the loop ends in a failure.  What comes from outside with
an item of the executor's stream is its `Arrival`: the clock, and how the
push of its event ends.

How the loop ends depends on the items and on what the store held when it
began, not on what it stores meanwhile: `ending` says so without running it,
and `run_ends` is what the loop leaves behind in each case.
-/

namespace A2a

open InMemoryTaskStore

/-! ## the loop -/

/-- An item of the executor's stream, the clock when it is taken, and the
outcome of the push of its event. -/
structure Arrival where
  item : Item
  now : DateTime
  push : Except A2AError Unit

/-- `ActiveExecution::publish`, with a subscriber listening. -/
def ActiveExecution.publish (active : ActiveExecution) (result : Item)
    (snapshotTask : Option Task) : ActiveExecution :=
  { active with
    snapshotTask := snapshotTask.getD active.snapshotTask
    sequence := active.sequence + 1
    sent := active.sent ++ [⟨active.sequence + 1, result⟩] }

/-- `fail_task`; its push is dropped when it fails. -/
def failTask (store : InMemoryTaskStore) (fresh : Fresh) (task : Task) (error : A2AError) :
    Option Task × InMemoryTaskStore :=
  if task.isTerminal then (none, store)
  else
    match saveTask store fresh.now (failedTask fresh.now fresh.messageId task error) with
    | (.ok task, store) => (some task, store)
    | (.error _, store) => (none, store)

/-- A `drive_execution` at the head of its loop, with the store it works on.
`applied` are the executor's events it has stored, in order; the code does
not keep them. -/
structure Drive where
  store : InMemoryTaskStore
  active : ActiveExecution
  current : Task
  answered : Bool
  tracked : Bool
  applied : List StreamResponse

/-- How a turn of the loop ends: it goes on, is left, or is left with a
failure. -/
inductive LoopStep
  | next (d : Drive)
  | stop (d : Drive)
  | fail (d : Drive) (error : A2AError)

namespace Drive

/-- Before the first turn. -/
def start (store : InMemoryTaskStore) (task : Task) : Drive where
  store := store
  active := .new task
  current := task
  answered := false
  tracked := false
  applied := []

/-- One turn of the loop. -/
def take (d : Drive) (a : Arrival) : LoopStep :=
  if d.active.snapshotTask.isTerminal then .stop d
  else
    match a.item with
    | .error error => .fail d error
    | .ok event =>
        let message := event.isMessage
        -- a response is one message, or a task and its updates, not both
        if d.answered || (message && d.tracked) then .fail d .invalidAgentResponse
        else
          let d := { d with answered := message, tracked := d.tracked || !message }
          let event := backfillStatusTimestamp a.now event
          match applyEventToTask d.store a.now (some d.current) event with
          | (.error error, store) => .fail { d with store := store } error
          | (.ok updated, store) =>
              let d := { d with
                store := store
                current := updated.getD d.current
                applied := if message then d.applied else d.applied ++ [event] }
              match a.push with
              | .error error => .fail d error
              | .ok _ =>
                  let d := { d with active := d.active.publish (.ok event) updated }
                  if isTerminalEvent event then .stop d else .next d

/-- The way out with a failure. -/
def fail (d : Drive) (fresh : Fresh) (error : A2AError) : Drive :=
  { d with
    store := (failTask d.store fresh d.current error).2
    active := d.active.publish (.error error) (failTask d.store fresh d.current error).1 }

/-- `drive_execution`, over all the executor's stream yields; `fresh` is
what `fail_task` takes from outside. -/
def run (fresh : Fresh) (d : Drive) : List Arrival → Drive
  | [] => d
  | a :: rest =>
      match d.take a with
      | .next d => run fresh d rest
      | .stop d => d
      | .fail d error => d.fail fresh error

end Drive

/-! ## storing one task -/

variable {store store' : InMemoryTaskStore} {task x hand first : Task} {taskId : TaskId}

/-- Whether the store refuses to write the task: another terminal state is
stored. -/
def InMemoryTaskStore.refuses (store : InMemoryTaskStore) (task : Task) : Bool :=
  (store.get task.id).any fun old => old.isTerminal && old.status.state != task.status.state

theorem refuses_of_finished (h : store.finished task.id = false) : store.refuses task = false := by
  rw [finished] at h
  rw [refuses]
  cases hget : store.get task.id with
  | none => rfl
  | some old =>
      rw [hget, Option.any_some] at h
      rw [Option.any_some, h, Bool.false_and]

/-- `save_task` is refused and writes nothing, or is one operation that
writes the task with its timestamp. -/
theorem saveTask_cases (store : InMemoryTaskStore) (now : DateTime) (task : Task) :
    (store.refuses (task.backfill now) = true ∧
      ∃ error, saveTask store now task = (.error error, store)) ∨
    (store.refuses (task.backfill now) = false ∧
      ∃ op : TaskOp, op.task store = some (task.backfill now) ∧
        saveTask store now task = (.ok (task.backfill now), op.next store)) := by
  rcases update_cases store (task.backfill now) with ⟨hnone, hu⟩ | ⟨old, hold, hterm, hne, hu⟩ |
    ⟨old, version, store', hold, hkeep, hu, _⟩
  · right
    have hfin : store.finished (task.backfill now).id = false := by rw [finished, hnone]; rfl
    refine ⟨refuses_of_finished hfin, ?_⟩
    rcases create_cases store (task.backfill now) with ⟨hsome, _⟩ | ⟨_, store', hc, _⟩
    · exact absurd hnone hsome
    · refine ⟨.create (task.backfill now), by simp [TaskOp.task, hc, Except.toOption], ?_⟩
      simp [saveTask, hu, hc, TaskOp.next, A2AError.taskNotFound, A2AError.new]
  · left
    have hcode : (terminalTransition old (task.backfill now)).code ≠ ErrorCode.taskNotFound := by
      simp [terminalTransition, A2AError.invalidRequest, A2AError.new, ErrorCode.invalidRequest,
        ErrorCode.taskNotFound]
    constructor
    · rw [refuses, hold, Option.any_some, hterm]
      simpa using hne
    · refine ⟨terminalTransition old (task.backfill now), ?_⟩
      simp only [saveTask, hu]
      rw [if_neg hcode]
  · right
    constructor
    · rw [refuses, hold, Option.any_some]
      cases hterm : old.isTerminal with
      | false => rfl
      | true => simp [hkeep hterm]
    · refine ⟨.update (task.backfill now), by simp [TaskOp.task, hu, Except.toOption], ?_⟩
      simp [saveTask, hu, TaskOp.next]

/-! ## one event -/

/-- An event that leaves a live task live is one that is not terminal. -/
theorem foldEvent_isTerminal {event : StreamResponse} (hlive : hand.isTerminal = false)
    (h : foldEvent hand event = .ok task) : task.isTerminal = isTerminalEvent event := by
  cases event with
  | task next =>
      obtain rfl := Except.ok.inj h
      rfl
  | message message =>
      obtain rfl := Except.ok.inj h
      exact hlive
  | statusUpdate update =>
      obtain rfl := Except.ok.inj h
      rfl
  | artifactUpdate update =>
      rw [applyArtifactUpdate_frame h]
      exact hlive

/-- The task after a terminal event has the status of that event. -/
theorem foldEvent_status {event : StreamResponse} {now : DateTime}
    (hterm : isTerminalEvent event = true)
    (h : foldEvent hand (backfillStatusTimestamp now event) = .ok task) :
    (backfillStatusTimestamp now event).status = some (task.backfill now).status := by
  cases event with
  | task next =>
      obtain rfl := Except.ok.inj h
      rw [Task.backfill_of_stamped (Task.backfill_stamped now next)]
      rfl
  | statusUpdate update =>
      obtain rfl := Except.ok.inj h
      have hstamped : (update.status.backfill now).timestamp ≠ none :=
        Task.backfill_stamped now { hand with status := update.status }
      rw [Task.backfill_of_stamped (by exact hstamped)]
      rfl
  | message message => simp [isTerminalEvent] at hterm
  | artifactUpdate update => simp [isTerminalEvent] at hterm

/-- `apply_event_to_task` on the task at hand: a message is only passed on,
any other event is applied and the result saved. -/
theorem applyEventToTask_current (store : InMemoryTaskStore) (now : DateTime) (hand : Task)
    (event : StreamResponse) :
    applyEventToTask store now (some hand) event =
      if event.isMessage then (.ok (some hand), store)
      else match foldEvent hand event with
        | .error error => (.error error, store)
        | .ok task =>
            match saveTask store now task with
            | (.ok task, store) => (.ok (some task), store)
            | (.error error, store) => (.error error, store) := by
  cases event <;> rfl

/-! ## how the loop ends -/

/-- What an item of the stream does to the loop: a message is delivered, an
event is stored and delivered and the loop goes on or is over, a terminal
event is stored and its push fails, or the loop is left with a failure on
the task it then has. -/
inductive Outcome
  | answers
  | tracks (task : Task)
  | delivers (task : Task) (event : StreamResponse)
  | loses (task : Task) (event : StreamResponse)
  | fails (task : Task)

/-- The outcome of an item, for a loop that works on `hand` and began with
`store`. -/
def Arrival.outcome (store : InMemoryTaskStore) (hand : Task) (answered tracked : Bool)
    (a : Arrival) : Outcome :=
  match a.item with
  | .error _ => .fails hand
  | .ok event =>
      if answered || (event.isMessage && tracked) then .fails hand
      else if event.isMessage then
        match a.push with
        | .error _ => .fails hand
        | .ok _ => .answers
      else
        match foldEvent hand (backfillStatusTimestamp a.now event) with
        | .error _ => .fails hand
        | .ok task =>
            let task := task.backfill a.now
            let event := backfillStatusTimestamp a.now event
            if store.refuses task then .fails hand
            else match a.push with
              | .error _ => if task.isTerminal then .loses task event else .fails task
              | .ok _ => if task.isTerminal then .delivers task event else .tracks task

/-- How the loop ends: the stream is over, with whether any event was
stored; a terminal event was delivered; the push of a terminal event failed,
with the task before it and whether any event was stored then; or another
failure. -/
inductive Ending
  | drained (hand : Task) (tracked : Bool)
  | delivered (task : Task) (event : StreamResponse)
  | lost (hand : Task) (tracked : Bool) (task : Task)
  | failed (task : Task)

/-- The ending of a loop that works on `hand` and began with `store`. -/
def ending (store : InMemoryTaskStore) (hand : Task) (answered tracked : Bool) :
    List Arrival → Ending
  | [] => .drained hand tracked
  | a :: rest =>
      match a.outcome store hand answered tracked with
      | .answers => ending store hand true tracked rest
      | .tracks task => ending store task answered true rest
      | .delivers task event => .delivered task event
      | .loses task _ => .lost hand tracked task
      | .fails task => .failed task

/-! ## the events sent -/

/-- The events sent are numbered from one, in the order of their sending. -/
structure ActiveExecution.Ordered (active : ActiveExecution) : Prop where
  positive : ∀ message ∈ active.sent, 0 < message.sequence
  bounded : ∀ message ∈ active.sent, message.sequence ≤ active.sequence
  sorted : active.sent.Pairwise fun a b => a.sequence < b.sequence

theorem ActiveExecution.Ordered.publish {active : ActiveExecution} (h : active.Ordered)
    (result : Item) (snapshotTask : Option Task) :
    (active.publish result snapshotTask).Ordered where
  positive message hm := by
    rcases List.mem_append.mp hm with hm | hm
    · exact h.positive message hm
    · obtain rfl := List.mem_singleton.mp hm
      exact Nat.succ_pos _
  bounded message hm := by
    rcases List.mem_append.mp hm with hm | hm
    · exact Nat.le_succ_of_le (h.bounded message hm)
    · obtain rfl := List.mem_singleton.mp hm
      exact Nat.le_refl _
  sorted := by
    refine List.pairwise_append.mpr ⟨h.sorted, List.pairwise_singleton _ _, ?_⟩
    intro a ha b hb
    obtain rfl := List.mem_singleton.mp hb
    exact Nat.lt_succ_of_le (h.bounded a ha)

/-! ## the loop at its head -/

variable {limit : Option Nat} {tracked : Bool} {d d' : Drive}

/-- A loop that began on the task `first` with `store`: it works on a task
that is not terminal and, once it has stored an event (`tracked`), is the
stored one; and it has neither stored nor sent anything terminal. -/
structure Drive.Working (limit : Option Nat) (store : InMemoryTaskStore) (first : Task)
    (tracked : Bool) (d : Drive) : Prop where
  live : d.current.isTerminal = false
  reached : Reached limit d.store
  refuses : ∀ x, d.store.refuses x = store.refuses x
  unfinished : d.store.finished first.id = false
  stored : tracked = true → d.store.get d.current.id = some d.current
  untouched : tracked = false → d.store = store ∧ d.current = first
  ordered : d.active.Ordered
  quiet : ∀ message ∈ d.active.sent, Subscription.endsStream message.result = false
  applied : ∀ event ∈ d.applied, isTerminalEvent event = false

theorem working_start (hr : Reached limit store) (hlive : task.isTerminal = false)
    (hfree : store.finished task.id = false) :
    (Drive.start store task).Working limit store task false where
  live := hlive
  reached := hr
  refuses _ := rfl
  unfinished := hfree
  stored h := by contradiction
  untouched _ := ⟨rfl, rfl⟩
  ordered := ⟨by simp [Drive.start, ActiveExecution.new], by simp [Drive.start, ActiveExecution.new],
    List.Pairwise.nil⟩
  quiet := by simp [Drive.start, ActiveExecution.new]
  applied := by simp [Drive.start]

/-- The task a loop works on has no terminal state stored. -/
theorem Drive.Working.finished_current (h : d.Working limit store first tracked) :
    d.store.finished d.current.id = false := by
  cases ht : tracked with
  | true => rw [finished, h.stored ht, Option.any_some, h.live]
  | false =>
      rw [(h.untouched ht).2]
      exact h.unfinished

/-- A task that is not refused and not terminal is written over one that is
not terminal. -/
theorem finished_of_not_refuses (hlive : x.isTerminal = false) (h : store.refuses x = false) :
    store.finished x.id = false := by
  rw [finished]
  rw [refuses] at h
  cases hget : store.get x.id with
  | none => rfl
  | some old =>
      rw [hget, Option.any_some] at h
      rw [Option.any_some]
      cases hterm : old.isTerminal with
      | false => rfl
      | true =>
          have hsame : old.status.state = x.status.state := by simpa [hterm] using h
          rw [Task.isTerminal, hsame] at hterm
          rw [Task.isTerminal, hterm] at hlive
          contradiction

/-- Storing a task that is not terminal finishes no task. -/
theorem finished_next_of_live {op : TaskOp} (hx : op.task store = some x)
    (hlive : x.isTerminal = false) (hfree : store.finished x.id = false) (id : TaskId) :
    (op.next store).finished id = store.finished id := by
  rw [finished, TaskOp.get_next_of_live hx hlive]
  by_cases hid : id = x.id
  · rw [if_pos hid, hid, hfree, Option.any_some, hlive]
  · rw [if_neg hid, finished]

theorem refuses_next_of_live {op : TaskOp} (hx : op.task store = some x)
    (hlive : x.isTerminal = false) (hfree : store.finished x.id = false) (y : Task) :
    (op.next store).refuses y = store.refuses y := by
  by_cases hid : y.id = x.id
  · have hfree' : (op.next store).finished y.id = false := by
      rw [finished_next_of_live hx hlive hfree, hid, hfree]
    rw [refuses_of_finished hfree', refuses_of_finished (by rw [hid]; exact hfree)]
  · rw [refuses, TaskOp.get_next_of_live hx hlive, if_neg hid, refuses]

/-- The loop after it stored a task that is not terminal. -/
theorem Drive.Working.store_live {op : TaskOp} {event : StreamResponse}
    (h : d.Working limit store first tracked) (hx : op.task d.store = some x)
    (hlive : x.isTerminal = false) (hok : d.store.refuses x = false)
    (hevent : isTerminalEvent event = false) :
    { d with
      store := op.next d.store
      current := x
      answered := false
      tracked := true
      applied := d.applied ++ [event] : Drive }.Working limit store first true where
  live := hlive
  reached := h.reached.next op
  refuses y := by
    rw [← h.refuses y]
    exact refuses_next_of_live hx hlive (finished_of_not_refuses hlive hok) y
  unfinished := by
    rw [← h.unfinished]
    exact finished_next_of_live hx hlive (finished_of_not_refuses hlive hok) first.id
  stored _ := by
    have hget := TaskOp.get_next_of_live hx hlive x.id
    rw [if_pos rfl] at hget
    exact hget
  untouched hno := by contradiction
  ordered := h.ordered
  quiet := h.quiet
  applied event' hm := by
    rcases List.mem_append.mp hm with hm | hm
    · exact h.applied event' hm
    · obtain rfl := List.mem_singleton.mp hm
      exact hevent

/-- The loop after it published an event that is not terminal. -/
theorem Drive.Working.publish {event : StreamResponse} (h : d.Working limit store first tracked)
    (hevent : isTerminalEvent event = false) (snapshotTask : Option Task) :
    { d with active := d.active.publish (.ok event) snapshotTask : Drive }.Working
      limit store first tracked where
  live := h.live
  reached := h.reached
  refuses := h.refuses
  unfinished := h.unfinished
  stored := h.stored
  untouched := h.untouched
  ordered := h.ordered.publish _ _
  quiet message hm := by
    rcases List.mem_append.mp hm with hm | hm
    · exact h.quiet message hm
    · obtain rfl := List.mem_singleton.mp hm
      exact hevent
  applied := h.applied

/-! ## one turn -/

/-- `d'` is the loop `d` after it stored a terminal task for a terminal
event. -/
structure Drive.Closes (d : Drive) (task : Task) (event : StreamResponse) (d' : Drive) : Prop where
  terminal : task.isTerminal = true
  ends : isTerminalEvent event = true
  status : event.status = some task.status
  store : ∃ op : TaskOp, op.task d.store = some task ∧ d'.store = op.next d.store
  current : d'.current = task
  applied : d'.applied = d.applied ++ [event]

/-- What a turn with the given outcome makes of a loop at its head. -/
inductive Drive.Took (limit : Option Nat) (store : InMemoryTaskStore) (first : Task)
    (d : Drive) : Outcome → LoopStep → Prop
  | answers {next : Drive} (h : next.Working limit store first next.tracked)
      (hs : next.active.snapshotTask = next.current) (hc : next.current = d.current)
      (ha : next.answered = true) (ht : next.tracked = d.tracked) :
      Took limit store first d .answers (.next next)
  | tracks {next : Drive} {task : Task} (h : next.Working limit store first next.tracked)
      (hs : next.active.snapshotTask = next.current) (hc : next.current = task)
      (ha : next.answered = d.answered) (ht : next.tracked = true) :
      Took limit store first d (.tracks task) (.next next)
  | delivers {last : Drive} {final : Task} {event : StreamResponse}
      (hc : d.Closes final event last)
      (hp : last.active = d.active.publish (.ok event) (some final)) :
      Took limit store first d (.delivers final event) (.stop last)
  | loses {last : Drive} {final : Task} {event : StreamResponse} {error : A2AError}
      (hc : d.Closes final event last) (hp : last.active = d.active) :
      Took limit store first d (.loses final event) (.fail last error)
  | fails {last : Drive} {error : A2AError} {tracked : Bool}
      (h : last.Working limit store first tracked) :
      Took limit store first d (.fails last.current) (.fail last error)

/-- A turn on a message. -/
theorem Drive.Working.took_message (h : d.Working limit store first d.tracked)
    (hs : d.active.snapshotTask = d.current) {a : Arrival} {event : StreamResponse}
    (hitem : a.item = .ok event) (hm : event.isMessage = true) :
    d.Took limit store first (a.outcome store d.current d.answered d.tracked) (d.take a) := by
  have hlive : d.active.snapshotTask.isTerminal = false := by rw [hs]; exact h.live
  have hquiet : isTerminalEvent (backfillStatusTimestamp a.now event) = false := by
    cases event <;> first | rfl | contradiction
  simp only [Arrival.outcome, take, hlive, hitem, hm, Bool.true_and, Bool.false_eq_true, if_false]
  split
  · exact .fails h
  · rw [applyEventToTask_current, isMessage_backfill, hm]
    simp only [if_true, Option.getD_some, hquiet, Bool.false_eq_true, if_false, Bool.not_true,
      Bool.or_false]
    have hanswered : { d with answered := true : Drive }.Working limit store first d.tracked :=
      ⟨h.live, h.reached, h.refuses, h.unfinished, h.stored, h.untouched, h.ordered, h.quiet,
        h.applied⟩
    cases a.push with
    | error error => exact .fails hanswered
    | ok _ => exact .answers (hanswered.publish hquiet (some d.current)) rfl rfl rfl rfl

/-- A turn on an event of the task. -/
theorem Drive.Working.took_event (h : d.Working limit store first d.tracked)
    (hs : d.active.snapshotTask = d.current) {a : Arrival} {event : StreamResponse}
    (hitem : a.item = .ok event) (hm : event.isMessage = false) :
    d.Took limit store first (a.outcome store d.current d.answered d.tracked) (d.take a) := by
  have hlive : d.active.snapshotTask.isTerminal = false := by rw [hs]; exact h.live
  simp only [Arrival.outcome, take, hlive, hitem, hm, Bool.false_and, Bool.or_false,
    Bool.false_eq_true, if_false, Bool.not_false, Bool.or_true]
  cases ha : d.answered with
  | true => exact .fails h
  | false =>
      -- what is stored of a refused event is what was stored before it
      have hrefused : { d with answered := false, tracked := true : Drive }.Working
          limit store first d.tracked :=
        ⟨h.live, h.reached, h.refuses, h.unfinished, h.stored, h.untouched, h.ordered, h.quiet,
          h.applied⟩
      simp only [Bool.false_eq_true, if_false]
      rw [applyEventToTask_current, isMessage_backfill, hm, if_neg Bool.false_ne_true]
      cases hf : foldEvent d.current (backfillStatusTimestamp a.now event) with
      | error error => exact .fails hrefused
      | ok task =>
          have hterm := foldEvent_isTerminal h.live hf
          rcases saveTask_cases d.store a.now task with
            ⟨hno, error, hsave⟩ | ⟨hyes, op, hx, hsave⟩
          · simp only [hsave]
            rw [← h.refuses, hno, if_pos rfl]
            exact .fails hrefused
          · simp only [hsave, Option.getD_some]
            rw [← h.refuses, hyes, if_neg Bool.false_ne_true, Task.backfill_isTerminal, hterm]
            cases he : isTerminalEvent (backfillStatusTimestamp a.now event) with
            | true =>
                have hcloses (active : ActiveExecution) : d.Closes (task.backfill a.now)
                    (backfillStatusTimestamp a.now event)
                    { store := op.next d.store
                      active := active
                      current := task.backfill a.now
                      answered := false
                      tracked := true
                      applied := d.applied ++ [backfillStatusTimestamp a.now event] } :=
                  ⟨by rw [Task.backfill_isTerminal, hterm, he], he,
                    foldEvent_status (by simpa using he) hf, ⟨op, hx, rfl⟩, rfl, rfl⟩
                cases a.push with
                | error error => exact .loses (hcloses _) rfl
                | ok _ => exact .delivers (hcloses _) rfl
            | false =>
                have hstored := h.store_live hx
                  (by rw [Task.backfill_isTerminal, hterm, he]) hyes he
                cases a.push with
                | error error => exact .fails hstored
                | ok _ =>
                    have hnext := hstored.publish he (some (task.backfill a.now))
                    rw [if_neg Bool.false_ne_true, if_neg Bool.false_ne_true]
                    exact Took.tracks (by exact hnext) rfl rfl ha.symm rfl

/-- **One turn of the loop** does what its outcome says. -/
theorem Drive.Working.took (h : d.Working limit store first d.tracked)
    (hs : d.active.snapshotTask = d.current) (a : Arrival) :
    d.Took limit store first (a.outcome store d.current d.answered d.tracked) (d.take a) := by
  cases hitem : a.item with
  | error error =>
      have hlive : d.active.snapshotTask.isTerminal = false := by rw [hs]; exact h.live
      simp only [Arrival.outcome, take, hlive, hitem, Bool.false_eq_true, if_false]
      exact .fails h
  | ok event =>
      cases hm : event.isMessage with
      | true => exact h.took_message hs hitem hm
      | false => exact h.took_event hs hitem hm

/-! ## the whole run -/

/-- The FAILED task is already stamped. -/
theorem backfill_failedTask (now : DateTime) (messageId : String) (task : Task)
    (error : A2AError) :
    (failedTask now messageId task error).backfill now = failedTask now messageId task error :=
  Task.backfill_of_stamped (by simp [failedTask]) now

/-- `fail_task` on a task that is not terminal stores it FAILED. -/
theorem failTask_live (fresh : Fresh) (error : A2AError) (hlive : task.isTerminal = false)
    (hfree : store.finished task.id = false) :
    ∃ op : TaskOp, op.task store = some (failedTask fresh.now fresh.messageId task error) ∧
      failTask store fresh task error =
        (some (failedTask fresh.now fresh.messageId task error), op.next store) := by
  have hok : store.refuses (failedTask fresh.now fresh.messageId task error) = false :=
    refuses_of_finished hfree
  have hsave := saveTask_cases store fresh.now (failedTask fresh.now fresh.messageId task error)
  rw [backfill_failedTask, hok] at hsave
  rcases hsave with ⟨hno, _⟩ | ⟨_, op, hx, hsave⟩
  · contradiction
  · refine ⟨op, hx, ?_⟩
    rw [failTask, hlive, if_neg Bool.false_ne_true, hsave]

/-- `fail_task` leaves a terminal task alone. -/
theorem failTask_terminal (store : InMemoryTaskStore) (fresh : Fresh) (error : A2AError)
    (hterm : task.isTerminal = true) : failTask store fresh task error = (none, store) := by
  rw [failTask, if_pos hterm]

/-- What the loop that began on `first` with `store` leaves behind. -/
inductive Drive.Ended (limit : Option Nat) (store : InMemoryTaskStore) (first : Task)
    (fresh : Fresh) (last : Drive) : Ending → Prop
  | drained {hand : Task} {tracked : Bool} (h : last.Working limit store first tracked)
      (hs : last.active.snapshotTask = hand) (hc : last.current = hand) :
      Ended limit store first fresh last (.drained hand tracked)
  | delivered {d : Drive} {final : Task} {event : StreamResponse}
      (h : d.Working limit store first d.tracked) (hc : d.Closes final event last)
      (hp : last.active = d.active.publish (.ok event) (some final)) :
      Ended limit store first fresh last (.delivered final event)
  | lost {d : Drive} {hand final : Task} {tracked : Bool} {event : StreamResponse}
      {error : A2AError} (h : d.Working limit store first tracked) (hh : d.current = hand)
      (hs : d.active.snapshotTask = hand) (hc : d.Closes final event last)
      (hp : last.active = d.active.publish (.error error) none) :
      Ended limit store first fresh last (.lost hand tracked final)
  | failed {d : Drive} {hand : Task} {tracked : Bool} {error : A2AError} {op : TaskOp}
      (h : d.Working limit store first tracked) (hh : d.current = hand)
      (hx : op.task d.store = some (failedTask fresh.now fresh.messageId hand error))
      (hn : last.store = op.next d.store)
      (hp : last.active = d.active.publish (.error error)
        (some (failedTask fresh.now fresh.messageId hand error)))
      (ha : last.applied = d.applied) :
      Ended limit store first fresh last (.failed hand)

/-- A failure on a task that is not terminal. -/
theorem Drive.Working.fail (h : d.Working limit store first tracked) (fresh : Fresh)
    (error : A2AError) :
    (d.fail fresh error).Ended limit store first fresh (.failed d.current) := by
  obtain ⟨op, hx, hfail⟩ := failTask_live fresh error h.live h.finished_current
  refine .failed h rfl hx ?_ ?_ rfl
  · rw [Drive.fail, hfail]
  · rw [Drive.fail, hfail]

/-- **How a run ends**: as `ending` says. -/
theorem Drive.Working.run_ends (fresh : Fresh) (arrivals : List Arrival)
    (h : d.Working limit store first d.tracked) (hs : d.active.snapshotTask = d.current) :
    (d.run fresh arrivals).Ended limit store first fresh
      (ending store d.current d.answered d.tracked arrivals) := by
  induction arrivals generalizing d with
  | nil => exact .drained h hs rfl
  | cons a rest ih =>
      have htook := h.took hs a
      simp only [ending, Drive.run]
      generalize a.outcome store d.current d.answered d.tracked = outcome at htook
      generalize d.take a = step at htook
      cases htook with
      | answers h' hs' hc ha ht =>
          rw [← hc, ← ha, ← ht]
          exact ih h' hs'
      | tracks h' hs' hc ha ht =>
          rw [← hc, ← ha, ← ht]
          exact ih h' hs'
      | delivers hc hp => exact .delivered h hc hp
      | @loses last final event error hc hp =>
          have hterm : last.current.isTerminal = true := by rw [hc.current, hc.terminal]
          have hfail := failTask_terminal last.store fresh error hterm
          have hc' : d.Closes final event (last.fail fresh error) :=
            ⟨hc.terminal, hc.ends, hc.status, by rw [Drive.fail, hfail]; exact hc.store,
              hc.current, hc.applied⟩
          have hp' : (last.fail fresh error).active = d.active.publish (.error error) none := by
            rw [Drive.fail, hfail, hp]
          exact .lost h rfl hs hc' hp'
      | @fails last error tracked h' => exact h'.fail fresh error

/-! ## from the send to the end of its execution -/

/-- What the store holds of the task a loop begins on: an earlier version,
or, if the send has `created` it, just that task. -/
def Begun (store : InMemoryTaskStore) (first : Task) (created : Bool) : Prop :=
  ∃ old, store.get first.id = some old ∧ old.isTerminal = false ∧ (created = true ↔ old = first)

variable {created : Bool}

/-- When a loop at its head works on what is stored. -/
theorem Drive.Working.get_iff (h : d.Working limit store first tracked)
    (hb : Begun store first created) :
    d.store.get first.id = some d.current ↔
      d.current.id = first.id ∧ (tracked = true ∨ created = true) := by
  obtain ⟨old, hold, _, hcreated⟩ := hb
  cases ht : tracked with
  | true =>
      constructor
      · intro hget
        exact ⟨get_id hget, .inl rfl⟩
      · rintro ⟨hid, _⟩
        rw [← hid]
        exact h.stored ht
  | false =>
      obtain ⟨hstore, hcurrent⟩ := h.untouched ht
      rw [hstore, hcurrent, hold, Option.some.injEq, ← hcreated]
      simp

/-- A started send: what the store then holds of its task. -/
theorem begun_of_started {h : Handler} {s s' : Stores} {x : ExecId} {prepared : Prepared}
    (hr : Reached limit s.taskStore)
    (hs : (Call.startExecution h params fresh x streaming req).exec s = (.ok prepared, s')) :
    Reached limit s'.taskStore ∧ prepared.task.isTerminal = false ∧
      Begun s'.taskStore prepared.task prepared.stored.isNone := by
  rcases (startExecution_ok hs).2 with ⟨old, hstored, hget, hlive, htask, hsame⟩ |
    ⟨hnone, _, _, htask, hcreate⟩
  · rw [hsame]
    refine ⟨hr, by rw [htask]; exact hlive, old, hget, hlive, ?_⟩
    rw [hstored, Option.isNone_some]
    constructor
    · intro hno
      contradiction
    · intro hold
      -- the message makes the history longer
      have hlen := congrArg (fun task : Task => task.messages.length) (hold.trans htask)
      simp [Task.messages, continueTask] at hlen
  · have hlive : prepared.task.isTerminal = false := by rw [htask]; rfl
    have hget := get_of_create hcreate hlive
    refine ⟨hr.create hcreate, hlive, prepared.task, hget, hlive, ?_⟩
    rw [hnone]
    simp

/-- The `drive_execution` of a started send, on any stream. -/
theorem started_ends {h : Handler} {s s' : Stores} {x : ExecId} {prepared : Prepared}
    (hr : Reached limit s.taskStore)
    (hs : (Call.startExecution h params fresh x streaming req).exec s = (.ok prepared, s'))
    (failure : Fresh) (arrivals : List Arrival) :
    ((Drive.start s'.taskStore prepared.task).run failure arrivals).Ended limit s'.taskStore
      prepared.task failure (ending s'.taskStore prepared.task false false arrivals) := by
  obtain ⟨hr', hlive, old, hold, hlive', _⟩ := begun_of_started hr hs
  have hfree : s'.taskStore.finished prepared.task.id = false := by
    rw [finished, hold, Option.any_some, hlive']
  have hworking := working_start hr' hlive hfree
  exact Drive.Working.run_ends (d := Drive.start s'.taskStore prepared.task) failure arrivals
    hworking rfl

end A2a
