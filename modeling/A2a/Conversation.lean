import A2a.DriveExecution
import A2a.Machine

/-!
# A2a.Conversation

A conversation on one task: turns one after another, each a send and its
`drive_execution` to the end (`a2a-server/src/handler.rs`).

A send that continues a task appends its message, and the agent's message in
the task's status, to the snapshot its execution is started on, not to the
stored task.  Both reach the store with the first event that is saved, or
with the FAILED task.

`history_recorded` says what becomes of the history.  It holds every
accepted message, once and in the order of the turns, exactly while no
executor stays silent on a continued task.
-/

namespace A2a

open InMemoryTaskStore

/-! ## turns -/

/-- A turn: a send, the execution it starts and what that is given, with
what either takes from outside. -/
structure Turn where
  params : ServiceParams
  streaming : Bool
  req : SendMessageRequest
  fresh : Fresh
  exec : ExecId
  arrivals : List Arrival
  failure : Fresh

/-- What an accepted turn adds to the conversation: the user's message, and
the agent's that was in the task's status when the turn began. -/
structure Said where
  asked : Option Message
  message : Message

namespace Turn

/-- The send, up to the registration of its execution. -/
def start (h : Handler) (s : Stores) (turn : Turn) : Except A2AError Prepared × Stores :=
  (Call.startExecution h turn.params turn.fresh turn.exec turn.streaming turn.req).exec s

/-- The stores after the turn. -/
def take (h : Handler) (s : Stores) (turn : Turn) : Stores :=
  match turn.start h s with
  | (.error _, s) => s
  | (.ok prepared, s) =>
      let last := (Drive.start s.taskStore prepared.task).run turn.failure turn.arrivals
      { s with
        taskStore := last.store
        manager := s.manager.finish prepared.task.id turn.exec }

/-- What the turn adds to the conversation, if it is accepted. -/
def said (h : Handler) (s : Stores) (turn : Turn) : Option Said :=
  match (turn.start h s).1 with
  | .error _ => none
  | .ok prepared => some ⟨prepared.stored.bind (·.status.message), turn.req.message⟩

/-- An accepted turn on a stored task is answered: its executor emits an
event or an error. -/
def Answered (h : Handler) (s : Stores) (turn : Turn) : Prop :=
  (turn.said h s).isSome → (s.taskStore.get (requestTaskId turn.fresh turn.req)).isSome →
    turn.arrivals ≠ []

end Turn

/-- Turns one after another. -/
def conversation (h : Handler) : Machine Stores Turn := ⟨fun s turn => some (turn.take h s)⟩

/-- What was said, turn by turn. -/
def said (h : Handler) (tr : List (Stores × Turn)) : List Said :=
  tr.filterMap fun p => p.2.said h p.1

/-- The history of the task has what was said: each user's message once, in
the order of the turns, the agent's message a turn began with before the
message of that turn, and no message twice. -/
structure Recorded (said : List Said) (task : Task) : Prop where
  nodup : (task.messages.map (·.messageId)).Nodup
  order : (said.map (·.message)).Sublist task.messages
  asked : ∀ p ∈ said, ∀ m, p.asked = some m → [m, p.message].Sublist task.messages

/-! ## what an update keeps -/

/-- A status or artifact update. -/
def isUpdate : StreamResponse → Bool
  | .statusUpdate _ => true
  | .artifactUpdate _ => true
  | _ => false

/-- The message in the status an item brings. -/
def Arrival.statusMessage (a : Arrival) : Option Message :=
  match a.item with
  | .ok (.statusUpdate update) => update.status.message
  | _ => none

/-- The executor emits updates only. -/
def Turn.Updates (turn : Turn) : Prop :=
  ∀ a ∈ turn.arrivals, ∀ event, a.item = .ok event → isUpdate event = true

/-- The agent's messages of a turn. -/
def Turn.agentMessages (turn : Turn) : List Message := turn.arrivals.filterMap (·.statusMessage)

/-- `task` is `hand` after updates that brought the messages `heard`. -/
structure Task.Follows (hand : Task) (heard : List Message) (task : Task) : Prop where
  id : task.id = hand.id
  messages : task.messages = hand.messages
  status : ∀ m, task.status.message = some m → hand.status.message = some m ∨ m ∈ heard

variable {store : InMemoryTaskStore} {hand task task' first : Task} {heard heard' : List Message}
  {a : Arrival} {answered tracked : Bool}

theorem Task.Follows.refl (hand : Task) (heard : List Message) : hand.Follows heard hand :=
  ⟨rfl, rfl, fun _ h => .inl h⟩

theorem Task.Follows.trans (h : hand.Follows heard task) (h' : task.Follows heard' task') :
    hand.Follows (heard ++ heard') task' where
  id := h'.id.trans h.id
  messages := h'.messages.trans h.messages
  status m hm := by
    rcases h'.status m hm with hm | hm
    · rcases h.status m hm with hm | hm
      · exact .inl hm
      · exact .inr (List.mem_append_left _ hm)
    · exact .inr (List.mem_append_right _ hm)

/-- An update leaves id and history and may bring a message. -/
theorem foldEvent_follows {event : StreamResponse} (hitem : a.item = .ok event)
    (hu : isUpdate event = true)
    (h : foldEvent hand (backfillStatusTimestamp a.now event) = .ok task) :
    hand.Follows a.statusMessage.toList (task.backfill a.now) := by
  cases event with
  | task next => contradiction
  | message message => contradiction
  | statusUpdate update =>
      obtain rfl := Except.ok.inj h
      refine ⟨rfl, rfl, fun m hm => .inr ?_⟩
      have hmessage : update.status.message = some m := hm
      simp [Arrival.statusMessage, hitem, hmessage]
  | artifactUpdate update =>
      have hframe := applyArtifactUpdate_frame h
      exact ⟨by rw [hframe]; rfl, by rw [hframe]; rfl, fun m hm => .inl (by rw [hframe] at hm; exact hm)⟩

/-- The task an outcome leaves at hand, unless it leaves the one there was. -/
def Outcome.left : Outcome → Option Task
  | .answers => none
  | .tracks task => some task
  | .delivers task _ => some task
  | .loses task _ => some task
  | .fails task => some task

theorem outcome_follows (store : InMemoryTaskStore) (hand : Task) (answered tracked : Bool)
    (hu : ∀ event, a.item = .ok event → isUpdate event = true) :
    ∃ task, (a.outcome store hand answered tracked).left = some task ∧
      hand.Follows a.statusMessage.toList task := by
  simp only [Arrival.outcome]
  split
  · exact ⟨hand, rfl, .refl hand _⟩
  · next event hitem =>
    have hm : event.isMessage = false := by
      have hevent := hu event hitem
      cases event <;> first | rfl | contradiction
    simp only [hm, Bool.false_and, Bool.or_false, Bool.false_eq_true, if_false]
    split
    · exact ⟨hand, rfl, .refl hand _⟩
    · split
      · exact ⟨hand, rfl, .refl hand _⟩
      · next task hf =>
        have hfollows := foldEvent_follows hitem (hu event hitem) hf
        split
        · exact ⟨hand, rfl, .refl hand _⟩
        · split <;> split <;> exact ⟨task.backfill a.now, rfl, hfollows⟩

/-- The task at hand when the loop ends. -/
def Ending.final : Ending → Task
  | .drained hand _ => hand
  | .delivered task _ => task
  | .lost _ _ task => task
  | .failed task => task

/-- An item that leaves a task at hand is followed by the others, or ends
the loop with that task. -/
theorem ending_cons (rest : List Arrival)
    (hleft : (a.outcome store hand answered tracked).left = some task) :
    ending store hand answered tracked (a :: rest) = ending store task answered true rest ∨
      ((ending store hand answered tracked (a :: rest)).final = task ∧
        ∀ final, ending store hand answered tracked (a :: rest) ≠ .drained final false) := by
  rw [ending]
  cases ho : a.outcome store hand answered tracked with
  | answers =>
      rw [ho] at hleft
      contradiction
  | tracks final =>
      rw [ho] at hleft
      obtain rfl := Option.some.inj hleft
      exact .inl rfl
  | delivers final event =>
      rw [ho] at hleft
      exact .inr ⟨Option.some.inj hleft, by simp⟩
  | loses final event =>
      rw [ho] at hleft
      exact .inr ⟨Option.some.inj hleft, by simp⟩
  | fails final =>
      rw [ho] at hleft
      exact .inr ⟨Option.some.inj hleft, by simp⟩

/-- Updates leave id and history of the task to the end of the loop. -/
theorem ending_follows (store : InMemoryTaskStore) (arrivals : List Arrival) (hand : Task)
    (answered tracked : Bool)
    (hu : ∀ a ∈ arrivals, ∀ event, a.item = .ok event → isUpdate event = true) :
    hand.Follows (arrivals.filterMap (·.statusMessage))
      (ending store hand answered tracked arrivals).final := by
  induction arrivals generalizing hand answered tracked with
  | nil => exact .refl hand _
  | cons a rest ih =>
      obtain ⟨task, hleft, hfollows⟩ :=
        outcome_follows store hand answered tracked (hu a (by simp))
      have hsplit : (a :: rest).filterMap (·.statusMessage) =
          a.statusMessage.toList ++ rest.filterMap (·.statusMessage) := by
        cases hm : a.statusMessage <;> simp [hm]
      rw [hsplit]
      rcases ending_cons rest hleft with he | ⟨he, _⟩
      · rw [he]
        exact hfollows.trans
          (ih task answered true fun b hb => hu b (List.mem_cons_of_mem a hb))
      · rw [he]
        exact hfollows.trans (.refl task _)

/-- A loop on updates that has stored nothing was given nothing. -/
theorem ending_drained (store : InMemoryTaskStore) (arrivals : List Arrival) (hand final : Task)
    (answered tracked : Bool)
    (hu : ∀ a ∈ arrivals, ∀ event, a.item = .ok event → isUpdate event = true)
    (he : ending store hand answered tracked arrivals = .drained final false) :
    tracked = false ∧ arrivals = [] := by
  induction arrivals generalizing hand answered tracked with
  | nil =>
      obtain ⟨_, ht⟩ := Ending.drained.inj he
      exact ⟨ht, rfl⟩
  | cons a rest ih =>
      obtain ⟨task, hleft, _⟩ := outcome_follows store hand answered tracked (hu a (by simp))
      rcases ending_cons rest hleft with hnext | ⟨_, hne⟩
      · have hrest := ih task answered true (fun b hb => hu b (List.mem_cons_of_mem a hb))
          (hnext.symm.trans he)
        exact absurd hrest.1 (by simp)
      · exact absurd he (hne final)

/-! ## what a turn stores -/

variable {limit : Option Nat} {last : Drive} {fresh : Fresh} {e : Ending} {created : Bool}
  {h : Handler} {s s' : Stores} {turn : Turn} {prepared : Prepared} {y : Task}

theorem Drive.Ended.reached (he : last.Ended limit store first fresh e) :
    Reached limit last.store := by
  cases he with
  | drained h hs hc => exact h.reached
  | delivered h hc hp =>
      obtain ⟨op, _, hn⟩ := hc.store
      rw [hn]
      exact h.reached.next op
  | lost h hh hs hc hp =>
      obtain ⟨op, _, hn⟩ := hc.store
      rw [hn]
      exact h.reached.next op
  | failed h hh hx hn hp ha =>
      rw [hn]
      exact h.reached.next _

/-- What is stored of the first task at the end of a loop that had it at
hand then: the task at hand, or that task FAILED. -/
theorem Drive.Ended.get_first (he : last.Ended limit store first fresh e)
    (hb : Begun store first created) (hid : e.final.id = first.id)
    (hsaid : ∀ hand, e = .drained hand false → created = true)
    (hget : last.store.get first.id = some y) :
    y.messages = e.final.messages ∧ (y.isTerminal = false → y.status = e.final.status) := by
  have hwritten {d : Drive} {op : TaskOp} {x : Task} (hx : op.task d.store = some x)
      (hn : last.store = op.next d.store) (hxid : x.id = first.id) : y = x := by
    rw [hn] at hget
    rcases (op.wrote hx).of_get hget with ⟨_, hy⟩ | ⟨hne, _⟩
    · exact hy
    · exact absurd hxid.symm hne
  cases he with
  | @drained hand tracked h hs hc =>
      have hstored : tracked = true ∨ created = true := by
        cases tracked with
        | true => exact .inl rfl
        | false => exact .inr (hsaid hand rfl)
      have hcurrent := (h.get_iff hb).mpr ⟨by rw [hc]; exact hid, hstored⟩
      rw [hcurrent, hc] at hget
      obtain rfl := Option.some.inj hget
      exact ⟨rfl, fun _ => rfl⟩
  | delivered h hc hp =>
      obtain ⟨op, hx, hn⟩ := hc.store
      obtain rfl := hwritten hx hn hid
      exact ⟨rfl, fun _ => rfl⟩
  | lost h hh hs hc hp =>
      obtain ⟨op, hx, hn⟩ := hc.store
      obtain rfl := hwritten hx hn hid
      exact ⟨rfl, fun _ => rfl⟩
  | failed h hh hx hn hp ha =>
      obtain rfl := hwritten hx hn hid
      exact ⟨rfl, fun hlive => by contradiction⟩

namespace Turn

theorem take_of_started (hs : turn.start h s = (.ok prepared, s')) :
    (turn.take h s).taskStore =
      ((Drive.start s'.taskStore prepared.task).run turn.failure turn.arrivals).store := by
  rw [take, hs]

theorem take_of_refused (hs : turn.start h s = (.error error, s')) :
    turn.take h s = s' := by
  rw [take, hs]

/-- A refused turn leaves the tasks, or the new task it was refused for. -/
theorem start_refused (hs : turn.start h s = (.error error, s')) :
    s'.taskStore = s.taskStore ∨
      (turn.req.message.taskId = none ∧
        s.taskStore.get (requestTaskId turn.fresh turn.req) = none ∧
        s.taskStore.create (newTask turn.fresh (requestTaskId turn.fresh turn.req)
          turn.req.message) = (.ok 1, s'.taskStore)) := by
  have hcases := exec_startExecution_taskStore h turn.params turn.fresh turn.exec turn.streaming
    turn.req s
  rw [start] at hs
  rw [hs] at hcases
  rcases hcases with ⟨hsame, _⟩ | ⟨p, hp, hnone, hcreate, _⟩
  · exact .inl hsame
  · rcases prepare_ok hp with ⟨old, _, _, rfl⟩ | ⟨hget, hid, rfl⟩
    · contradiction
    · exact .inr ⟨hid, hget, hcreate⟩

/-- An answered turn leaves the history its execution was started with, if
it leaves the task stored, and no other messages of the agent than its own. -/
theorem take_stored (hr : Reached limit s.taskStore) (hs : turn.start h s = (.ok prepared, s'))
    (hu : turn.Updates) (ha : turn.Answered h s)
    (hget : (turn.take h s).taskStore.get prepared.task.id = some y) :
    y.messages = prepared.task.messages ∧ (y.isTerminal = false → ∀ m, y.status.message = some m →
      prepared.task.status.message = some m ∨ m ∈ turn.agentMessages) := by
  obtain ⟨_, _, hb⟩ := begun_of_started hr hs
  have hends := started_ends hr hs turn.failure turn.arrivals
  have hfollows := ending_follows s'.taskStore turn.arrivals prepared.task false false hu
  rw [take_of_started hs] at hget
  have hsaid : ∀ hand, ending s'.taskStore prepared.task false false turn.arrivals =
      .drained hand false → prepared.stored.isNone = true := by
    intro hand he
    obtain ⟨_, hnil⟩ := ending_drained s'.taskStore turn.arrivals prepared.task hand false false hu he
    obtain ⟨hid, ⟨old, _, hold, _⟩ | ⟨hnone, _⟩⟩ := startExecution_ok hs
    · rw [hid] at hold
      exact absurd hnil (ha (by rw [said, hs]; rfl) (by rw [hold]; rfl))
    · rw [hnone]
      rfl
  obtain ⟨hmessages, hstatus⟩ := hends.get_first hb hfollows.id hsaid hget
  refine ⟨hmessages.trans hfollows.messages, fun hlive m hm => ?_⟩
  rw [hstatus hlive] at hm
  exact hfollows.status m hm

theorem take_reached (hr : Reached limit s.taskStore) (turn : Turn) :
    Reached limit (turn.take h s).taskStore := by
  cases hs : turn.start h s with
  | mk result s' =>
      cases result with
      | ok prepared =>
          rw [take_of_started hs]
          exact (started_ends hr hs turn.failure turn.arrivals).reached
      | error error =>
          rw [take_of_refused hs]
          rcases start_refused hs with hsame | ⟨_, _, hcreate⟩
          · rw [hsame]
            exact hr
          · exact hr.create hcreate

end Turn

/-! ## what a turn adds to the history -/

theorem newTask_id (fresh : Fresh) (taskId : TaskId) (message : Message) :
    (newTask fresh taskId message).id = taskId := rfl

variable {said₀ : List Said} {message : Message}

/-- The agent's message a continuing send appends before its own: the one in
the task's status, unless the history has it. -/
def Task.asked (task : Task) : List Message :=
  (task.status.message.filter fun asked =>
    task.messages.all (·.messageId != asked.messageId)).toList

theorem messages_continueTask_eq (task : Task) (message : Message) :
    (continueTask task message).messages = task.messages ++ task.asked ++ [message] := rfl

/-- What is appended is the message in the status. -/
theorem Task.status_of_mem_asked {m : Message} (hm : m ∈ task.asked) :
    task.status.message = some m ∧ ∀ m' ∈ task.messages, m'.messageId ≠ m.messageId := by
  rw [asked, Option.mem_toList, Option.filter_eq_some_iff] at hm
  obtain ⟨hstatus, hall⟩ := hm
  refine ⟨hstatus, fun m' hm' => ?_⟩
  simpa using List.all_eq_true.mp hall m' hm'

/-- The message in the status is in the history then, if an id stands for
one message. -/
theorem Task.mem_asked {m : Message} (hm : task.status.message = some m)
    (hsame : ∀ m' ∈ task.messages, m'.messageId = m.messageId → m' = m) :
    m ∈ task.messages ++ task.asked := by
  rw [List.mem_append]
  by_cases hnew : task.messages.all (·.messageId != m.messageId) = true
  · right
    rw [asked, hm, Option.filter_some, if_pos hnew]
    simp
  · left
    obtain ⟨m', hm', hid⟩ : ∃ m' ∈ task.messages, m'.messageId = m.messageId := by
      simpa using hnew
    rw [← hsame m' hm' hid]
    exact hm'

/-- **A continuing turn is recorded**, once its messages reach the store. -/
theorem Recorded.continued (hr : Recorded said₀ task)
    (hnew : ∀ m ∈ task.messages, m.messageId ≠ message.messageId)
    (hnew' : ∀ m, task.status.message = some m → m.messageId ≠ message.messageId)
    (hsame : ∀ m, task.status.message = some m →
      ∀ m' ∈ task.messages, m'.messageId = m.messageId → m' = m)
    (hy : y.messages = (continueTask task message).messages) :
    Recorded (said₀ ++ [⟨task.status.message, message⟩]) y where
  nodup := by
    rw [hy, messages_continueTask_eq, List.map_append, List.map_append, List.nodup_append,
      List.nodup_append]
    refine ⟨⟨hr.nodup, ?_, ?_⟩, by simp, ?_⟩
    · rw [Task.asked]
      cases task.status.message.filter _ <;> simp
    · intro a ha b hb hab
      obtain ⟨m, hm, rfl⟩ := List.mem_map.mp ha
      obtain ⟨m', hm', rfl⟩ := List.mem_map.mp hb
      exact (Task.status_of_mem_asked hm').2 m hm hab
    · intro a ha b hb hab
      obtain rfl : b = message.messageId := by simpa using hb
      rcases List.mem_append.mp ha with ha | ha
      · obtain ⟨m, hm, rfl⟩ := List.mem_map.mp ha
        exact hnew m hm hab
      · obtain ⟨m, hm, rfl⟩ := List.mem_map.mp ha
        exact hnew' m (Task.status_of_mem_asked hm).1 hab
  order := by
    rw [hy, messages_continueTask_eq, List.map_append]
    have hbefore : (said₀.map (·.message)).Sublist (task.messages ++ task.asked) :=
      hr.order.trans (List.sublist_append_left _ _)
    exact hbefore.append (List.Sublist.refl [message])
  asked p hp m hm := by
    rw [hy, messages_continueTask_eq]
    rcases List.mem_append.mp hp with hp | hp
    · rw [List.append_assoc]
      exact (hr.asked p hp m hm).trans (List.sublist_append_left _ _)
    · obtain rfl := List.mem_singleton.mp hp
      have hasked := Task.mem_asked hm (hsame m hm)
      have hfirst : [m].Sublist (task.messages ++ task.asked) := List.singleton_sublist.mpr hasked
      exact hfirst.append (List.Sublist.refl [message])

/-- The turn that creates the task is recorded. -/
theorem recorded_new (hy : y.messages = [message]) : Recorded [⟨none, message⟩] y where
  nodup := by simp [hy]
  order := by rw [hy]; exact List.Sublist.refl _
  asked p hp m hm := by
    obtain rfl := List.mem_singleton.mp hp
    contradiction

/-! ## whole conversations -/

variable {s₀ : Stores} {taskId : TaskId} {tr : List (Stores × Turn)}

/-- The agent's messages there are: those stored with the task before, and
those the executors send. -/
def agentMessages (s₀ : Stores) (taskId : TaskId) (tr : List (Stores × Turn)) : List Message :=
  ((s₀.taskStore.get taskId).elim [] fun task => task.messages ++ task.status.message.toList) ++
    tr.flatMap fun p => p.2.agentMessages

/-- Messages have distinct ids: those of the users among themselves and from
all others, and the agent's unless they are one message. -/
structure Distinct (s₀ : Stores) (taskId : TaskId) (tr : List (Stores × Turn)) : Prop where
  users : (tr.map fun p => p.2.req.message.messageId).Nodup
  apart : ∀ m ∈ agentMessages s₀ taskId tr, ∀ p ∈ tr, m.messageId ≠ p.2.req.message.messageId
  agents : ∀ m ∈ agentMessages s₀ taskId tr, ∀ m' ∈ agentMessages s₀ taskId tr,
    m.messageId = m'.messageId → m = m'
  history : ∀ task, s₀.taskStore.get taskId = some task →
    (task.messages.map (·.messageId)).Nodup

/-- The turn is on the task: its request names it, or opens the conversation
and is given its id. -/
def OneTask (taskId : TaskId) (tr : List (Stores × Turn)) (_ : Stores) (turn : Turn) : Prop :=
  requestTaskId turn.fresh turn.req = taskId ∧ (turn.req.message.taskId = none → tr = [])

/-- A conversation on one task, of updates, with distinct messages. -/
structure Conversation (taskId : TaskId) (s₀ : Stores) (tr : List (Stores × Turn)) : Prop where
  task : Machine.GuardedBy (OneTask taskId) tr
  updates : ∀ p ∈ tr, p.2.Updates
  distinct : Distinct s₀ taskId tr

theorem mem_agentMessages_snoc {m : Message} :
    m ∈ agentMessages s₀ taskId (tr ++ [(s, turn)]) ↔
      m ∈ agentMessages s₀ taskId tr ∨ m ∈ turn.agentMessages := by
  simp [agentMessages, or_assoc]

theorem said_snoc (h : Handler) (tr : List (Stores × Turn)) (s : Stores) (turn : Turn) :
    said h (tr ++ [(s, turn)]) = said h tr ++ (turn.said h s).toList := by
  rw [said, List.filterMap_append, said]
  cases hsaid : turn.said h s <;> simp [hsaid]

theorem Distinct.of_snoc (hd : Distinct s₀ taskId (tr ++ [(s, turn)])) : Distinct s₀ taskId tr where
  users := by
    have hu := hd.users
    rw [List.map_append, List.nodup_append] at hu
    exact hu.1
  apart m hm p hp :=
    hd.apart m (mem_agentMessages_snoc.mpr (.inl hm)) p (List.mem_append_left _ hp)
  agents m hm m' hm' :=
    hd.agents m (mem_agentMessages_snoc.mpr (.inl hm)) m' (mem_agentMessages_snoc.mpr (.inl hm'))
  history := hd.history

theorem Distinct.user_new (hd : Distinct s₀ taskId (tr ++ [(s, turn)])) :
    (∀ m ∈ agentMessages s₀ taskId tr, m.messageId ≠ turn.req.message.messageId) ∧
      ∀ p ∈ tr, p.2.req.message.messageId ≠ turn.req.message.messageId := by
  constructor
  · intro m hm
    exact hd.apart m (mem_agentMessages_snoc.mpr (.inl hm)) (s, turn) (by simp)
  · intro p hp
    have hu := hd.users
    rw [List.map_append, List.nodup_append] at hu
    exact hu.2.2 _ (List.mem_map_of_mem hp) _ (by simp)

/-- What the store holds of a conversation whose continuing turns were all
answered. -/
structure Told (h : Handler) (taskId : TaskId) (s₀ : Stores) (tr : List (Stores × Turn))
    (task : Task) : Prop where
  recorded : Recorded (said h tr) task
  known : ∀ m ∈ task.messages,
    m ∈ agentMessages s₀ taskId tr ∨ ∃ p ∈ tr, m = p.2.req.message
  status : task.isTerminal = false → ∀ m, task.status.message = some m →
    m ∈ agentMessages s₀ taskId tr

theorem told_nil (h : Handler) (hd : Distinct s₀ taskId [])
    (hget : s₀.taskStore.get taskId = some task) : Told h taskId s₀ [] task where
  recorded := ⟨hd.history task hget, by simp [said], by simp [said]⟩
  known m hm := by simp [agentMessages, hget, hm]
  status _ m hm := by simp [agentMessages, hget, hm]

/-- No message in the history has the id of the next user's message. -/
theorem Told.user_new (ht : Told h taskId s₀ tr task)
    (hd : Distinct s₀ taskId (tr ++ [(s, turn)])) :
    ∀ m ∈ task.messages, m.messageId ≠ turn.req.message.messageId := by
  intro m hm
  rcases ht.known m hm with hm | ⟨p, hp, rfl⟩
  · exact hd.user_new.1 m hm
  · exact hd.user_new.2 p hp

/-- A turn that was refused and left the tasks alone. -/
theorem Told.refused (ht : Told h taskId s₀ tr task) (hsaid : turn.said h s = none) :
    Told h taskId s₀ (tr ++ [(s, turn)]) task where
  recorded := by
    rw [said_snoc, hsaid, Option.toList_none, List.append_nil]
    exact ht.recorded
  known m hm := by
    rcases ht.known m hm with hm | ⟨p, hp, rfl⟩
    · exact .inl (mem_agentMessages_snoc.mpr (.inl hm))
    · exact .inr ⟨p, List.mem_append_left _ hp, rfl⟩
  status hlive m hm := mem_agentMessages_snoc.mpr (.inl (ht.status hlive m hm))

/-- An answered turn that continued the task. -/
theorem Told.continued (ht : Told h taskId s₀ tr task)
    (hd : Distinct s₀ taskId (tr ++ [(s, turn)])) (hlive : task.isTerminal = false)
    (hsaid : turn.said h s = some ⟨task.status.message, turn.req.message⟩)
    (hy : y.messages = (continueTask task turn.req.message).messages)
    (hstatus : y.isTerminal = false → ∀ m, y.status.message = some m →
      task.status.message = some m ∨ m ∈ turn.agentMessages) :
    Told h taskId s₀ (tr ++ [(s, turn)]) y where
  recorded := by
    have hagent : ∀ m, task.status.message = some m → m ∈ agentMessages s₀ taskId tr :=
      ht.status hlive
    rw [said_snoc, hsaid]
    refine ht.recorded.continued (ht.user_new hd) ?_ ?_ hy
    · intro m hm
      exact hd.user_new.1 m (hagent m hm)
    · intro m hm m' hm' hid
      rcases ht.known m' hm' with hm' | ⟨p, hp, rfl⟩
      · exact hd.of_snoc.agents m' hm' m (hagent m hm) hid
      · exact absurd hid.symm (hd.of_snoc.apart m (hagent m hm) p hp)
  known m hm := by
    rw [hy, messages_continueTask_eq] at hm
    rcases List.mem_append.mp hm with hm | hm
    · rcases List.mem_append.mp hm with hm | hm
      · rcases ht.known m hm with hm | ⟨p, hp, rfl⟩
        · exact .inl (mem_agentMessages_snoc.mpr (.inl hm))
        · exact .inr ⟨p, List.mem_append_left _ hp, rfl⟩
      · have hm' := ht.status hlive m (Task.status_of_mem_asked hm).1
        exact .inl (mem_agentMessages_snoc.mpr (.inl hm'))
    · obtain rfl := List.mem_singleton.mp hm
      exact .inr ⟨(s, turn), by simp, rfl⟩
  status hy' m hm := by
    rcases hstatus hy' m hm with hm | hm
    · exact mem_agentMessages_snoc.mpr (.inl (ht.status hlive m hm))
    · exact mem_agentMessages_snoc.mpr (.inr hm)

theorem Conversation.of_snoc (hc : Conversation taskId s₀ (tr ++ [(s, turn)])) :
    Conversation taskId s₀ tr :=
  ⟨hc.task.of_snoc.1, fun p hp => hc.updates p (List.mem_append_left _ hp), hc.distinct.of_snoc⟩

theorem Conversation.of_prefix {tr₁ : List (Stores × Turn)} (hp : tr₁ <+: tr)
    (hc : Conversation taskId s₀ tr) : Conversation taskId s₀ tr₁ := by
  obtain ⟨rest, rfl⟩ := hp
  induction rest using List.reverseRecOn with
  | nil => rwa [List.append_nil] at hc
  | append_singleton rest p ih =>
      rw [← List.append_assoc] at hc
      exact ih hc.of_snoc

theorem Turn.said_of_started (hs : turn.start h s = (.ok prepared, s')) :
    turn.said h s = some ⟨prepared.stored.bind (·.status.message), turn.req.message⟩ := by
  rw [said, hs]

theorem Turn.said_of_refused (hs : turn.start h s = (.error error, s')) :
    turn.said h s = none := by
  rw [said, hs]

/-- The turn that opens a conversation creates the task: it has the user's
message and no other. -/
theorem told_new (hmessages : y.messages = [turn.req.message])
    (hstatus : y.isTerminal = false → ∀ m, y.status.message = some m → m ∈ turn.agentMessages)
    (hsaid : ∀ spoken, turn.said h s = some spoken → spoken = ⟨none, turn.req.message⟩) :
    Told h taskId s₀ [(s, turn)] y where
  recorded := by
    have hone := said_snoc h [] s turn
    rw [List.nil_append] at hone
    rw [hone]
    cases hs : turn.said h s with
    | none => exact ⟨by simp [hmessages], by simp [said], by simp [said]⟩
    | some spoken =>
        rw [hsaid spoken hs]
        exact recorded_new hmessages
  known m hm := by
    rw [hmessages] at hm
    exact .inr ⟨(s, turn), by simp, List.mem_singleton.mp hm⟩
  status hlive m hm := by
    rw [← List.nil_append [(s, turn)]]
    exact mem_agentMessages_snoc.mpr (.inr (hstatus hlive m hm))

/-- **One answered turn** keeps what the store holds of the conversation. -/
theorem told_step (hr : Reached limit s.taskStore)
    (hc : Conversation taskId s₀ (tr ++ [(s, turn)]))
    (ht : ∀ task, s.taskStore.get taskId = some task → Told h taskId s₀ tr task)
    (ha : turn.Answered h s) :
    ∀ y, (turn.take h s).taskStore.get taskId = some y →
      Told h taskId s₀ (tr ++ [(s, turn)]) y := by
  intro y hy
  obtain ⟨hid, hopen⟩ := hc.task.of_snoc.2
  have hu := hc.updates (s, turn) (by simp)
  cases hs : turn.start h s with
  | mk result s' =>
      cases result with
      | error error =>
          have hsaid := Turn.said_of_refused hs
          rw [Turn.take_of_refused hs] at hy
          rcases Turn.start_refused hs with hsame | ⟨hnone, hget, hcreate⟩
          · rw [hsame] at hy
            exact (ht y hy).refused hsaid
          · -- the new task of a refused turn is all there is
            obtain rfl := hopen hnone
            have hnew := get_of_create hcreate rfl
            rw [newTask_id, hid, hy] at hnew
            obtain rfl := Option.some.inj hnew
            refine told_new rfl (fun _ m hm => ?_) (fun spoken hspoken => ?_)
            · contradiction
            · rw [hsaid] at hspoken
              contradiction
      | ok prepared =>
          have hsaid := Turn.said_of_started hs
          obtain ⟨hpid, hcases⟩ := startExecution_ok hs
          rw [← hid, ← hpid] at hy
          obtain ⟨hmessages, hstatus⟩ := Turn.take_stored hr hs hu ha hy
          rcases hcases with ⟨old, hstored, hget, hlive, htask, _⟩ |
            ⟨hnone, hreq, hget, htask, _⟩
          · rw [hpid, hid] at hget
            rw [hstored] at hsaid
            rw [htask] at hmessages hstatus
            exact (ht old hget).continued hc.distinct hlive hsaid hmessages hstatus
          · obtain rfl := hopen hreq
            rw [hnone] at hsaid
            rw [htask] at hmessages hstatus
            refine told_new hmessages (fun hlive m hm => ?_) (fun spoken hspoken => ?_)
            · rcases hstatus hlive m hm with hm | hm
              · contradiction
              · exact hm
            · rw [hsaid] at hspoken
              exact (Option.some.inj hspoken).symm

/-- A conversation whose accepted turns on the stored task were answered is
told by the history. -/
theorem told_of_run (hr : Reached limit s₀.taskStore) (hrun : (conversation h).Run s₀ tr s)
    (hc : Conversation taskId s₀ tr) (hg : Machine.Guarded (Turn.Answered h) tr) :
    Reached limit s.taskStore ∧
      ∀ task, s.taskStore.get taskId = some task → Told h taskId s₀ tr task := by
  induction hrun with
  | nil => exact ⟨hr, fun task hget => told_nil h hc.distinct hget⟩
  | snoc hrun hs ih =>
      obtain rfl := Option.some.inj hs
      obtain ⟨hg', ha⟩ := Machine.guarded_snoc.mp hg
      obtain ⟨hr', ht⟩ := ih hc.of_snoc hg'
      exact ⟨Turn.take_reached hr' _, told_step hr' hc ht ha⟩

/-- A turn that its history records was answered: a silent executor leaves
the store as it was. -/
theorem answered_of_recorded (hc : Conversation taskId s₀ (tr ++ [(s, turn)]))
    (ht : ∀ task, s.taskStore.get taskId = some task → Told h taskId s₀ tr task)
    (hrec : ∀ task, (turn.take h s).taskStore.get taskId = some task →
      Recorded (said h (tr ++ [(s, turn)])) task) :
    turn.Answered h s := by
  intro hsome hstored hnil
  obtain ⟨hid, _⟩ := hc.task.of_snoc.2
  rw [hid] at hstored
  cases hs : turn.start h s with
  | mk result s' =>
      cases result with
      | error error =>
          rw [Turn.said_of_refused hs] at hsome
          contradiction
      | ok prepared =>
          obtain ⟨hpid, hcases⟩ := startExecution_ok hs
          rcases hcases with ⟨old, _, hget, _, _, hsame⟩ | ⟨_, _, hget, _⟩
          · rw [hpid, hid] at hget
            have hafter : (turn.take h s).taskStore.get taskId = some old := by
              rw [Turn.take_of_started hs, hnil, hsame]
              exact hget
            have horder := (hrec old hafter).order
            rw [said_snoc, Turn.said_of_started hs] at horder
            have hmem : turn.req.message ∈ old.messages := horder.subset (by simp)
            exact (ht old hget).user_new hc.distinct turn.req.message hmem rfl
          · rw [hpid, hid] at hget
            rw [hget] at hstored
            contradiction

/-- **The history of a conversation**: in any run of turns on one task with
distinct messages, in which executors emit updates and end with or without
an error, the stored history has after every turn what was said, exactly if
every accepted turn on the stored task is answered. -/
theorem history_recorded (hr : Reached limit s₀.taskStore)
    (hrun : (conversation h).Run s₀ tr s) (hc : Conversation taskId s₀ tr) :
    (∀ tr₁ s₁, tr₁ <+: tr → (conversation h).Run s₀ tr₁ s₁ →
      ∀ task, s₁.taskStore.get taskId = some task → Recorded (said h tr₁) task) ↔
    Machine.Guarded (Turn.Answered h) tr := by
  constructor
  · intro hrec
    induction hrun with
    | nil => exact Machine.guarded_nil _
    | @snoc tr s s' turn hrun hs ih =>
        have hg := ih hc.of_snoc fun tr₁ s₁ hp hrun₁ =>
          hrec tr₁ s₁ (hp.trans (List.prefix_append _ _)) hrun₁
        obtain ⟨_, ht⟩ := told_of_run hr hrun hc.of_snoc hg
        have hlast := hrec (tr ++ [(s, turn)]) s' List.prefix_rfl (hrun.snoc hs)
        obtain rfl := Option.some.inj hs
        exact Machine.guarded_snoc.mpr ⟨hg, answered_of_recorded hc ht hlast⟩
  · intro hg tr₁ s₁ hp hrun₁ task hget
    have hg₁ : Machine.Guarded (Turn.Answered h) tr₁ := fun p hmem => hg p (hp.subset hmem)
    exact ((told_of_run hr hrun₁ (hc.of_prefix hp) hg₁).2 task hget).recorded

/-- The agent asks the user back. -/
def question : Message := .new "q" .agent [.text "where to?"]

/-- A turn that creates the task "t" and is answered by the question. -/
def openingTurn : Turn where
  params := ∅
  streaming := false
  req := ⟨.new "m" .user [.text "a ticket"], none, none, none⟩
  fresh := ⟨.unixEpoch, "t", "c", "x", "p"⟩
  exec := 0
  arrivals := [⟨.ok (.statusUpdate ⟨"t", "c", ⟨.inputRequired, some question, none⟩, none⟩),
    .unixEpoch, .ok ()⟩]
  failure := ⟨.unixEpoch, "t", "c", "x", "p"⟩

/-- The turn after it, with what the executor emits then. -/
def answerTurn (arrivals : List Arrival) : Turn where
  params := ∅
  streaming := false
  req := ⟨⟨"n", none, some "t", .user, [.text "home"], none, none, none⟩, none, none, none⟩
  fresh := ⟨.unixEpoch, "u", "d", "y", "r"⟩
  exec := 1
  arrivals := arrivals
  failure := ⟨.unixEpoch, "u", "d", "y", "r"⟩

/-- The two turns, from empty stores. -/
def ticket (arrivals : List Arrival) : List (Stores × Turn) :=
  [] ++ [(emptyStores, openingTurn)] ++
    [(openingTurn.take .new emptyStores, answerTurn arrivals)]

/-- The stores after them. -/
def ticketStores (arrivals : List Arrival) : Stores :=
  (answerTurn arrivals).take .new (openingTurn.take .new emptyStores)

theorem ticket_run (arrivals : List Arrival) :
    (conversation .new).Run emptyStores (ticket arrivals) (ticketStores arrivals) :=
  (Machine.Run.nil.snoc rfl).snoc rfl

theorem ticket_conversation {arrivals : List Arrival} (hu : (answerTurn arrivals).Updates)
    (hquiet : (answerTurn arrivals).agentMessages = []) :
    Conversation "t" emptyStores (ticket arrivals) where
  task := by
    have hnil : Machine.GuardedBy (OneTask "t") ([] : List (Stores × Turn)) :=
      fun tr₁ s turn tr₂ he => absurd he (by simp)
    refine (hnil.snoc ?_).snoc ?_
    · exact ⟨rfl, fun _ => rfl⟩
    · exact ⟨rfl, fun hno => by contradiction⟩
  updates p hp := by
    rcases List.mem_cons.mp hp with rfl | hp
    · intro a ha event hevent
      obtain rfl := List.mem_singleton.mp ha
      obtain rfl := Except.ok.inj hevent
      rfl
    · obtain rfl := List.mem_singleton.mp hp
      exact hu
  distinct := by
    have hagents : agentMessages emptyStores "t" (ticket arrivals) = [question] := by
      have hone : openingTurn.agentMessages = [question] := rfl
      have hnone : emptyStores.taskStore.get "t" = none := rfl
      simp [agentMessages, ticket, hone, hquiet, hnone]
    refine ⟨(by decide : (["m", "n"] : List String).Nodup), ?_, ?_, ?_⟩
    · rw [hagents]
      intro m hm p hp
      obtain rfl := List.mem_singleton.mp hm
      rcases List.mem_cons.mp hp with rfl | hp
      · decide
      · obtain rfl := List.mem_singleton.mp hp
        exact (by decide : "q" ≠ "n")
    · rw [hagents]
      intro m hm m' hm' _
      rw [List.mem_singleton.mp hm, List.mem_singleton.mp hm']
    · intro task hget
      contradiction

/-- The executor goes to work. -/
def working : Arrival :=
  ⟨.ok (.statusUpdate ⟨"t", "c", ⟨.working, none, none⟩, none⟩), .unixEpoch, .ok ()⟩

/-- With an executor that goes to work, the history has all of it. -/
theorem history_recorded_working :
    ∃ task, (ticketStores [working]).taskStore.get "t" = some task ∧
      Recorded (said .new (ticket [working])) task := by
  have hu : (answerTurn [working]).Updates := by
    intro a ha event hevent
    obtain rfl := List.mem_singleton.mp ha
    obtain rfl := Except.ok.inj hevent
    rfl
  have hanswered : Machine.Guarded (Turn.Answered .new) (ticket [working]) := by
    intro p hp _ _
    rcases List.mem_cons.mp hp with rfl | hp
    · simp [openingTurn]
    · obtain rfl := List.mem_singleton.mp hp
      simp [answerTurn]
  have hrec := (history_recorded (reached_new none) (ticket_run [working])
    (ticket_conversation hu rfl)).mpr hanswered
  exact ⟨_, rfl, hrec _ _ List.prefix_rfl (ticket_run [working]) _ rfl⟩

/-- **A silent executor loses the message**: the turn is accepted, and its
message is not in the history. -/
theorem silent_turn_lost :
    (conversation .new).Run emptyStores (ticket []) (ticketStores []) ∧
      Conversation "t" emptyStores (ticket []) ∧
      ∃ task, (ticketStores []).taskStore.get "t" = some task ∧
        ¬ Recorded (said .new (ticket [])) task := by
  have hu : (answerTurn []).Updates := fun a ha => (List.not_mem_nil ha).elim
  refine ⟨ticket_run [], ticket_conversation hu rfl, _, rfl, fun hrec => ?_⟩
  have hlen := hrec.order.length_le
  exact absurd hlen (by decide)

end A2a
