import A2a.DriveExecution.Agreement
import A2a.Events.Artifacts

/-!
# A2a.DriveExecution.Response

The shape of a response (§3.1.2): one message, or a task and its updates up
to a terminal one.  `Legal` says so of a list of arrivals, without the
loop's flags; it is closed under prefixes (`Legal.of_append`).

`response_shape` is that a `drive_execution` whose pushes succeed publishes
the longest legal prefix of the stream, and after it one error, if the
stream does not stop there and the prefix has no terminal event.
-/

namespace A2a

open InMemoryTaskStore

/-! ## legal responses -/

namespace Arrival

/-- The event of an arrival, its status stamped. -/
def event (a : Arrival) : Option StreamResponse :=
  match a.item with
  | .ok event => some (backfillStatusTimestamp a.now event)
  | .error _ => none

/-- The error for an arrival that a response cannot go on with: the executor's
own, else that its response is invalid. -/
def refusal (a : Arrival) : A2AError :=
  match a.item with
  | .ok _ => .invalidAgentResponse
  | .error error => error

def isAnswer (a : Arrival) : Bool := a.event.any (·.isMessage)

def isTerminal (a : Arrival) : Bool := a.event.any isTerminalEvent

/-- What an arrival makes of a task, none if it is an error or cannot be
applied. -/
def onto (task : Task) (a : Arrival) : Option Task :=
  match a.event with
  | none => none
  | some event =>
      if event.isMessage then some task
      else (foldEvent task event).toOption.map (·.backfill a.now)

/-- The arrival is about no other task. -/
def Owns (taskId : TaskId) (a : Arrival) : Prop :=
  ∀ event, a.event = some event → ∀ other, taskIdForEvent event = some other → other = taskId

end Arrival

/-- The task after the arrivals. -/
def applyAll (task : Task) : List Arrival → Option Task
  | [] => some task
  | a :: rest => (a.onto task).bind (applyAll · rest)

/-- A response, up to some point: one message and nothing else, or no
message and no event after a terminal one; and every event can be applied. -/
structure Legal (task : Task) (response : List Arrival) : Prop where
  shape : (∃ a, response = [a] ∧ a.isAnswer = true) ∨ ∀ a ∈ response, a.isAnswer = false
  ends : ∀ a ∈ response.dropLast, a.isTerminal = false
  applies : (applyAll task response).isSome

variable {task first : Task} {a : Arrival} {done rest : List Arrival}

theorem applyAll_append (task : Task) (done rest : List Arrival) :
    applyAll task (done ++ rest) = (applyAll task done).bind (applyAll · rest) := by
  induction done generalizing task with
  | nil => rfl
  | cons a done ih =>
      rw [List.cons_append, applyAll, applyAll]
      cases a.onto task with
      | none => rfl
      | some next => exact ih next

theorem applyAll_singleton (task : Task) (a : Arrival) : applyAll task [a] = a.onto task := by
  rw [applyAll]
  cases a.onto task <;> rfl

/-- A response is legal up to any point. -/
theorem Legal.of_append (h : Legal task (done ++ rest)) : Legal task done where
  shape := by
    cases h.shape with
    | inl hone =>
        obtain ⟨a, hsingle, hanswer⟩ := hone
        cases List.append_eq_singleton_iff.mp hsingle with
        | inl hnil => simp [hnil.1]
        | inr hself => exact .inl ⟨a, hself.1, hanswer⟩
    | inr hnone => exact .inr fun a ha => hnone a (List.mem_append_left rest ha)
  ends a ha := by
    refine h.ends a ?_
    cases rest with
    | nil => simpa using ha
    | cons b rest =>
        rw [List.dropLast_append_of_ne_nil (by simp)]
        exact List.mem_append_left _ (List.mem_of_mem_dropLast ha)
  applies := by
    have happlies := h.applies
    rw [applyAll_append] at happlies
    cases hdone : applyAll task done with
    | none => simp [hdone] at happlies
    | some next => rfl

theorem Legal.of_take_le {arrivals : List Arrival} {n m : Nat} (hle : n ≤ m)
    (h : Legal task (arrivals.take m)) : Legal task (arrivals.take n) := by
  have hfirst : (arrivals.take m).take n = arrivals.take n := by
    rw [List.take_take, Nat.min_eq_left hle]
  rw [← List.take_append_drop n (arrivals.take m), hfirst] at h
  exact h.of_append

/-! ## one turn -/

variable {store : InMemoryTaskStore} {limit : Option Nat} {tracked : Bool} {d d' last : Drive}
  {fresh : Fresh} {event : StreamResponse} {error : A2AError}

/-- Only an append to an unknown artifact cannot be applied. -/
theorem foldEvent_error (h : foldEvent task event = .error error) :
    error = .invalidAgentResponse := by
  cases event with
  | artifactUpdate update =>
      rw [foldEvent, applyArtifactUpdate_eq] at h
      cases hu : updateArtifacts (task.artifacts.getD []) update with
      | none =>
          rw [hu] at h
          exact (Except.error.inj h).symm
      | some artifacts => simp [hu] at h
  | task _ => contradiction
  | statusUpdate _ => contradiction
  | message _ => contradiction

/-- An event about one task leaves that task. -/
theorem foldEvent_id {taskId : TaskId} (hid : task.id = taskId)
    (howns : ∀ other, taskIdForEvent event = some other → other = taskId) {next : Task}
    (h : foldEvent task event = .ok next) : next.id = taskId := by
  cases event with
  | task given =>
      obtain rfl := Except.ok.inj h
      exact howns given.id rfl
  | statusUpdate update =>
      obtain rfl := Except.ok.inj h
      exact hid
  | artifactUpdate update =>
      rw [applyArtifactUpdate_frame h]
      exact hid
  | message message =>
      obtain rfl := Except.ok.inj h
      exact hid

/-- What the loop publishes for an arrival. -/
structure Drive.Hears (d : Drive) (a : Arrival) (event : StreamResponse) (d' : Drive) : Prop where
  heard : a.event = some event
  fits : d.answered = false ∧ (event.isMessage = true → d.tracked = false)
  sent : d'.active.sent = d.active.sent ++ [⟨d.active.sequence + 1, .ok event⟩]
  answered : d'.answered = event.isMessage
  tracked : d'.tracked = (d.tracked || !event.isMessage)
  current : a.onto d.current = some d'.current

/-- Why the loop is left with a failure: an error of the executor, or one
of the loop's own for an event that does not fit or cannot be applied. -/
inductive Drive.Rejects (d : Drive) (a : Arrival) : A2AError → Prop
  | failed {error : A2AError} (h : a.item = .error error) : Rejects d a error
  | misfit {event : StreamResponse} (h : a.event = some event)
      (hbad : d.answered = true ∨ (event.isMessage = true ∧ d.tracked = true)) :
      Rejects d a .invalidAgentResponse
  | inapplicable {event : StreamResponse} (h : a.event = some event) (hm : event.isMessage = false)
      (hnone : a.onto d.current = none) : Rejects d a .invalidAgentResponse

/-- What the loop is left with is the error for its arrival. -/
theorem Drive.Rejects.eq_refusal (hr : d.Rejects a error) : error = a.refusal := by
  have hown {event : StreamResponse} (hevent : a.event = some event) :
      a.refusal = .invalidAgentResponse := by
    unfold Arrival.event at hevent
    unfold Arrival.refusal
    cases hitem : a.item with
    | ok given => rfl
    | error error => simp [hitem] at hevent
  cases hr with
  | failed hitem => rw [Arrival.refusal, hitem]
  | misfit hevent _ => exact (hown hevent).symm
  | inapplicable hevent _ _ => exact (hown hevent).symm

/-- A turn whose event is stored. -/
theorem Drive.take_of_stored (hlive : d.active.snapshotTask.isTerminal = false)
    (hpush : a.push = .ok ()) {given : StreamResponse} (hitem : a.item = .ok given)
    (hfits : (d.answered || (given.isMessage && d.tracked)) = false) {updated : Task}
    {store' : InMemoryTaskStore}
    (happly : applyEventToTask d.store a.now (some d.current) (backfillStatusTimestamp a.now given) =
      (.ok (some updated), store'))
    (honto : a.onto d.current = some updated) :
    ∃ d', d.Hears a (backfillStatusTimestamp a.now given) d' ∧
      d.take a = if isTerminalEvent (backfillStatusTimestamp a.now given) then .stop d'
        else .next d' := by
  have hevent : a.event = some (backfillStatusTimestamp a.now given) := by
    rw [Arrival.event, hitem]
  simp only [take, hlive, hitem, hfits, happly, hpush, Bool.false_eq_true, if_false,
    Option.getD_some]
  refine ⟨_, ⟨hevent, ?_, rfl, ?_, ?_, honto⟩, rfl⟩
  · rw [isMessage_backfill]
    simpa using hfits
  · rw [isMessage_backfill]
  · rw [isMessage_backfill]

theorem Arrival.outcome_ne_loses (hpush : a.push = .ok ()) (store : InMemoryTaskStore) (hand : Task)
    (answered tracked : Bool) (task : Task) (event : StreamResponse) :
    a.outcome store hand answered tracked ≠ .loses task event := by
  unfold Arrival.outcome
  rw [hpush]
  cases a.item with
  | error error => simp
  | ok given =>
      cases hfold : foldEvent hand (backfillStatusTimestamp a.now given) with
      | error error =>
          simp only [hfold]
          split_ifs <;> simp
      | ok next =>
          simp only [hfold]
          split_ifs <;> simp

/-- What a turn of a loop at its head does, with a push that succeeds. -/
inductive Drive.Turned (limit : Option Nat) (store : InMemoryTaskStore) (first : Task) (d : Drive)
    (a : Arrival) : LoopStep → Prop
  | next {d' : Drive} {event : StreamResponse} (h : d.Hears a event d')
      (hlive : isTerminalEvent event = false) (hw : d'.Working limit store first d'.tracked)
      (hs : d'.active.snapshotTask = d'.current) : Turned limit store first d a (.next d')
  | stop {d' : Drive} {event : StreamResponse} (h : d.Hears a event d')
      (hterm : isTerminalEvent event = true) : Turned limit store first d a (.stop d')
  | fail {d' : Drive} {error : A2AError} {tracked : Bool} (h : d.Rejects a error)
      (hactive : d'.active = d.active) (hcurrent : d'.current = d.current)
      (hw : d'.Working limit store first tracked) : Turned limit store first d a (.fail d' error)

/-- A turn that stores an event. -/
theorem Drive.Working.turned_of_hears (h : d.Working limit store first d.tracked)
    (hs : d.active.snapshotTask = d.current) (hh : d.Hears a event d')
    (htake : d.take a = if isTerminalEvent event then .stop d' else .next d') :
    d.Turned limit store first a (d.take a) := by
  have htook := h.took hs a
  cases hterm : isTerminalEvent event with
  | true =>
      rw [htake, hterm]
      exact .stop hh hterm
  | false =>
      rw [hterm] at htake
      rw [htake] at htook ⊢
      generalize a.outcome store d.current d.answered d.tracked = outcome at htook
      cases htook with
      | answers hw hsnap _ _ _ => exact .next hh hterm hw hsnap
      | tracks hw hsnap _ _ _ => exact .next hh hterm hw hsnap

/-- A turn that leaves the loop with a failure. -/
theorem Drive.Working.turned_of_rejects (h : d.Working limit store first d.tracked)
    (hs : d.active.snapshotTask = d.current) (hpush : a.push = .ok ()) (hr : d.Rejects a error)
    (htake : d.take a = .fail d' error) (hactive : d'.active = d.active)
    (hcurrent : d'.current = d.current) : d.Turned limit store first a (d.take a) := by
  have htook := h.took hs a
  have hnot := Arrival.outcome_ne_loses hpush store d.current d.answered d.tracked
  rw [htake] at htook ⊢
  generalize a.outcome store d.current d.answered d.tracked = outcome at htook hnot
  cases htook with
  | loses _ _ => exact absurd rfl (hnot _ _)
  | fails hw => exact .fail hr hactive hcurrent hw

/-- **One turn**, for an arrival about the loop's own task. -/
theorem Drive.Working.turned (h : d.Working limit store first d.tracked)
    (hs : d.active.snapshotTask = d.current) (hid : d.current.id = first.id)
    (hpush : a.push = .ok ()) (howns : a.Owns first.id) :
    d.Turned limit store first a (d.take a) := by
  have hlive : d.active.snapshotTask.isTerminal = false := by rw [hs]; exact h.live
  cases hitem : a.item with
  | error error =>
      exact h.turned_of_rejects hs hpush (.failed hitem)
        (by simp only [take, hlive, hitem, Bool.false_eq_true, if_false]) rfl rfl
  | ok given =>
      have hevent : a.event = some (backfillStatusTimestamp a.now given) := by
        rw [Arrival.event, hitem]
      cases hfits : d.answered || (given.isMessage && d.tracked) with
      | true =>
          have hbad : d.answered = true ∨ ((backfillStatusTimestamp a.now given).isMessage = true ∧
              d.tracked = true) := by
            rw [isMessage_backfill]
            simpa using hfits
          exact h.turned_of_rejects hs hpush (.misfit hevent hbad)
            (by simp only [take, hlive, hitem, hfits, Bool.false_eq_true, if_false, if_true]) rfl rfl
      | false =>
          have hcurrent := applyEventToTask_current d.store a.now d.current
            (backfillStatusTimestamp a.now given)
          rw [isMessage_backfill] at hcurrent
          cases hm : given.isMessage with
          | true =>
              rw [hm, if_pos rfl] at hcurrent
              have honto : a.onto d.current = some d.current := by
                simp only [Arrival.onto, hevent, isMessage_backfill, hm, if_true]
              obtain ⟨d', hh, htake⟩ := take_of_stored hlive hpush hitem hfits hcurrent honto
              exact h.turned_of_hears hs hh htake
          | false =>
              rw [hm, if_neg Bool.false_ne_true] at hcurrent
              have honto : a.onto d.current =
                  (foldEvent d.current (backfillStatusTimestamp a.now given)).toOption.map
                    (·.backfill a.now) := by
                simp only [Arrival.onto, hevent, isMessage_backfill, hm, Bool.false_eq_true, if_false]
              cases hfold : foldEvent d.current (backfillStatusTimestamp a.now given) with
              | error error =>
                  rw [hfold] at hcurrent honto
                  have herror := foldEvent_error hfold
                  subst herror
                  have htake : d.take a = .fail { d with
                      answered := given.isMessage
                      tracked := d.tracked || !given.isMessage } .invalidAgentResponse := by
                    simp only [take, hlive, hitem, hfits, hcurrent, Bool.false_eq_true, if_false]
                  exact h.turned_of_rejects hs hpush
                    (.inapplicable hevent (by rw [isMessage_backfill, hm]) honto) htake rfl rfl
              | ok task =>
                  have htask := foldEvent_id hid (howns _ hevent) hfold
                  rcases saveTask_cases d.store a.now task with ⟨hno, _⟩ | ⟨_, op, _, hsave⟩
                  · -- no terminal state of the loop's own task is stored
                    have hfree : d.store.finished (task.backfill a.now).id = false := by
                      rw [Task.backfill_id, htask]
                      exact h.unfinished
                    rw [refuses_of_finished hfree] at hno
                    contradiction
                  · rw [hfold] at hcurrent honto
                    simp only [hsave] at hcurrent
                    obtain ⟨d', hh, htake⟩ := take_of_stored hlive hpush hitem hfits hcurrent honto
                    exact h.turned_of_hears hs hh htake

/-! ## the whole stream -/

/-- A loop at its head after the arrivals `done`. -/
structure Drive.Heard (limit : Option Nat) (store : InMemoryTaskStore) (first : Task)
    (done : List Arrival) (d : Drive) : Prop where
  working : d.Working limit store first d.tracked
  snapshot : d.active.snapshotTask = d.current
  owns : d.current.id = first.id
  shape : (∃ a, done = [a] ∧ a.isAnswer = true) ∨ ∀ a ∈ done, a.isAnswer = false
  ends : ∀ a ∈ done, a.isTerminal = false
  applied : applyAll first done = some d.current
  sent : d.active.sent.map (·.result) = (done.filterMap Arrival.event).map .ok
  answered : d.answered = done.any (·.isAnswer)
  tracked : d.tracked = done.any (!·.isAnswer)

/-- The response `d` gave to the arrivals: the first `n` of them are the
longest legal prefix, their events are published, and the error for the next
one if the stream goes on after them. -/
structure Drive.Responds (limit : Option Nat) (fresh : Fresh) (first : Task)
    (arrivals : List Arrival) (n : Nat) (d : Drive) : Prop where
  le : n ≤ arrivals.length
  legal : Legal first (arrivals.take n)
  longest : ∀ m ≤ arrivals.length, Legal first (arrivals.take m) → m ≤ n
  complete : n = arrivals.length ∨ (∃ a ∈ arrivals.take n, a.isTerminal = true) →
    d.active.sent.map (·.result) = ((arrivals.take n).filterMap Arrival.event).map .ok
  failed : n < arrivals.length → (∀ a ∈ arrivals.take n, a.isTerminal = false) →
    ∃ a hand, arrivals[n]? = some a ∧
      d.active.sent.map (·.result) =
        ((arrivals.take n).filterMap Arrival.event).map .ok ++ [.error a.refusal] ∧
      applyAll first (arrivals.take n) = some hand ∧
      d.store.get first.id = if limit = some 0 then none
        else some (failedTask fresh.now fresh.messageId hand a.refusal)

theorem Drive.Heard.legal (h : d.Heard limit store first done) : Legal first done where
  shape := h.shape
  ends a ha := h.ends a (List.mem_of_mem_dropLast ha)
  applies := by rw [h.applied]; rfl

theorem Drive.Hears.isAnswer (hh : d.Hears a event d') : a.isAnswer = event.isMessage := by
  rw [Arrival.isAnswer, hh.heard]
  rfl

theorem Drive.Hears.isTerminal (hh : d.Hears a event d') : a.isTerminal = isTerminalEvent event := by
  rw [Arrival.isTerminal, hh.heard]
  rfl

/-- Nothing comes after a message, and a message after nothing. -/
theorem Drive.Heard.shape_append (h : d.Heard limit store first done) (hh : d.Hears a event d') :
    (∃ b, done ++ [a] = [b] ∧ b.isAnswer = true) ∨ ∀ b ∈ done ++ [a], b.isAnswer = false := by
  obtain ⟨hanswered, htracked⟩ := hh.fits
  rw [h.answered, List.any_eq_false] at hanswered
  cases hm : event.isMessage with
  | true =>
      have hnone := htracked hm
      rw [h.tracked, List.any_eq_false] at hnone
      have hnil : done = [] := List.eq_nil_iff_forall_not_mem.mpr fun b hb => by
        have hyes := hnone b hb
        have hno := hanswered b hb
        simp [hno] at hyes
      exact .inl ⟨a, by rw [hnil]; rfl, by rw [hh.isAnswer, hm]⟩
  | false =>
      right
      intro b hb
      cases List.mem_append.mp hb with
      | inl hdone => simpa using hanswered b hdone
      | inr hself => rw [List.mem_singleton.mp hself, hh.isAnswer, hm]

theorem Drive.Heard.applied_append (h : d.Heard limit store first done) (a : Arrival) :
    applyAll first (done ++ [a]) = a.onto d.current := by
  rw [applyAll_append, h.applied, Option.bind_some, applyAll_singleton]

theorem Drive.Heard.sent_append (h : d.Heard limit store first done) (hh : d.Hears a event d') :
    d'.active.sent.map (·.result) = ((done ++ [a]).filterMap Arrival.event).map .ok := by
  rw [hh.sent, List.map_append, h.sent, List.filterMap_append, List.map_append]
  simp [hh.heard]

theorem Drive.Heard.legal_append (h : d.Heard limit store first done) (hh : d.Hears a event d') :
    Legal first (done ++ [a]) where
  shape := h.shape_append hh
  ends b hb := by
    rw [List.dropLast_concat] at hb
    exact h.ends b hb
  applies := by
    rw [h.applied_append, hh.current]
    rfl

/-- The loop goes on. -/
theorem Drive.Heard.next (h : d.Heard limit store first done) (hh : d.Hears a event d')
    (howns : a.Owns first.id) (hlive : isTerminalEvent event = false)
    (hw : d'.Working limit store first d'.tracked)
    (hs : d'.active.snapshotTask = d'.current) : d'.Heard limit store first (done ++ [a]) where
  working := hw
  snapshot := hs
  owns := by
    have honto := hh.current
    rw [Arrival.onto, hh.heard] at honto
    cases hm : event.isMessage with
    | true =>
        simp only [hm, if_true] at honto
        rw [← Option.some.inj honto]
        exact h.owns
    | false =>
        simp only [hm, Bool.false_eq_true, if_false] at honto
        cases hfold : foldEvent d.current event with
        | error error => simp [hfold, Except.toOption] at honto
        | ok task =>
            rw [hfold] at honto
            rw [← Option.some.inj honto]
            show task.id = first.id
            exact foldEvent_id h.owns (howns _ hh.heard) hfold
  shape := h.shape_append hh
  ends b hb := by
    cases List.mem_append.mp hb with
    | inl hdone => exact h.ends b hdone
    | inr hself => rw [List.mem_singleton.mp hself, hh.isTerminal, hlive]
  applied := by rw [h.applied_append, hh.current]
  sent := h.sent_append hh
  answered := by
    have hnone := hh.fits.1
    rw [h.answered] at hnone
    rw [hh.answered, List.any_append, hnone]
    simp [hh.isAnswer]
  tracked := by
    rw [hh.tracked, List.any_append, h.tracked]
    simp [hh.isAnswer]

/-- With what the loop rejects, the response is not legal. -/
theorem Drive.Heard.not_legal_append (h : d.Heard limit store first done) (hr : d.Rejects a error) :
    ¬Legal first (done ++ [a]) := by
  intro hlegal
  have happlies := hlegal.applies
  rw [h.applied_append] at happlies
  cases hr with
  | failed hitem => simp [Arrival.onto, Arrival.event, hitem] at happlies
  | inapplicable _ _ hnone => simp [hnone] at happlies
  | @misfit event hevent hbad =>
      have hanswer : a.isAnswer = event.isMessage := by
        rw [Arrival.isAnswer, hevent]
        rfl
      -- one that came before `a` does not go with it
      have hmixed : ∃ b ∈ done, b.isAnswer = true ∨ a.isAnswer = true := by
        cases hbad with
        | inl hanswered =>
            rw [h.answered, List.any_eq_true] at hanswered
            obtain ⟨b, hb, hyes⟩ := hanswered
            exact ⟨b, hb, .inl hyes⟩
        | inr hboth =>
            obtain ⟨hm, htracked⟩ := hboth
            rw [h.tracked, List.any_eq_true] at htracked
            obtain ⟨b, hb, _⟩ := htracked
            exact ⟨b, hb, .inr (by rw [hanswer, hm])⟩
      obtain ⟨b, hb, hyes⟩ := hmixed
      cases hlegal.shape with
      | inl hone =>
          obtain ⟨c, hsingle, _⟩ := hone
          have hlength := congrArg List.length hsingle
          have hpos := List.length_pos_of_mem hb
          rw [List.length_append, List.length_singleton, List.length_singleton] at hlength
          omega
      | inr hnone =>
          have hb' := hnone b (List.mem_append_left _ hb)
          have ha' := hnone a (List.mem_append_right _ (List.mem_singleton_self a))
          simp [hb', ha'] at hyes

theorem take_append_length (done rest : List Arrival) : (done ++ rest).take done.length = done := by
  rw [List.take_append_of_le_length (Nat.le_refl _), List.take_length]

theorem take_append_succ (done : List Arrival) (a : Arrival) (rest : List Arrival) :
    (done ++ a :: rest).take (done.length + 1) = done ++ [a] := by
  have hsplit : done ++ a :: rest = (done ++ [a]) ++ rest := by simp
  rw [hsplit, ← take_append_length (done ++ [a]) rest, List.length_append, List.length_singleton]
  simp

/-- The stream is over, with the response legal. -/
theorem Drive.Heard.drained (h : d.Heard limit store first done) (fresh : Fresh) :
    d.Responds limit fresh first done done.length where
  le := Nat.le_refl _
  legal := by
    rw [List.take_length]
    exact h.legal
  longest m hm _ := hm
  complete _ := by rw [List.take_length, h.sent]
  failed hlt := absurd hlt (Nat.lt_irrefl _)

/-- A terminal event ends the response. -/
theorem Drive.Heard.stopped (h : d.Heard limit store first done) (fresh : Fresh)
    (hh : d.Hears a event d') (hterm : isTerminalEvent event = true) (rest : List Arrival) :
    d'.Responds limit fresh first (done ++ a :: rest) (done.length + 1) where
  le := by simp
  legal := by
    rw [take_append_succ]
    exact h.legal_append hh
  longest m hm hlegal := by
    by_contra hgt
    have hlong := hlegal.of_take_le (Nat.lt_of_not_le hgt)
    cases rest with
    | nil =>
        rw [List.length_append, List.length_singleton] at hm
        omega
    | cons b rest =>
        have htake := take_append_succ (done ++ [a]) b rest
        rw [List.length_append, List.length_singleton, List.append_assoc, List.singleton_append]
          at htake
        rw [Nat.succ_eq_add_one, htake] at hlong
        -- `a` is not the last of a longer prefix
        have hmem : a ∈ (done ++ [a] ++ [b]).dropLast := by
          rw [List.dropLast_concat]
          exact List.mem_append_right _ (List.mem_singleton_self a)
        have hlive := hlong.ends a hmem
        rw [hh.isTerminal, hterm] at hlive
        contradiction
  complete _ := by rw [take_append_succ, h.sent_append hh]
  failed _ hlive := by
    have hlive' := hlive a (by rw [take_append_succ]; simp)
    rw [hh.isTerminal, hterm] at hlive'
    contradiction

/-- What the loop rejects ends the response with a failure. -/
theorem Drive.Heard.rejected (h : d.Heard limit store first done) (fresh : Fresh)
    (hr : d.Rejects a error) (hactive : d'.active = d.active) (hcurrent : d'.current = d.current)
    (hw : d'.Working limit store first tracked) (rest : List Arrival) :
    (d'.fail fresh error).Responds limit fresh first (done ++ a :: rest) done.length where
  le := by simp
  legal := by
    rw [take_append_length]
    exact h.legal
  longest m hm hlegal := by
    by_contra hgt
    have hlong := hlegal.of_take_le (Nat.lt_of_not_le hgt)
    rw [Nat.succ_eq_add_one, take_append_succ] at hlong
    exact h.not_legal_append hr hlong
  complete hcomplete := by
    cases hcomplete with
    | inl hall => simp at hall
    | inr hterm =>
        obtain ⟨b, hb, hterm⟩ := hterm
        rw [take_append_length] at hb
        rw [h.ends b hb] at hterm
        contradiction
  failed _ _ := by
    obtain ⟨op, hx, hfail⟩ := failTask_live fresh error hw.live hw.finished_current
    have hid : (failedTask fresh.now fresh.messageId d'.current error).id = first.id := by
      rw [hcurrent]
      exact h.owns
    have hget := hw.reached.get_next_of_terminal hx (by rw [hid]; exact hw.unfinished)
      (failedTask_isTerminal _ _ _ _)
    rw [hid, hcurrent] at hget
    rw [hr.eq_refusal] at hget hfail
    refine ⟨a, d.current, ?_, ?_, by rw [take_append_length, h.applied], ?_⟩
    · rw [List.getElem?_append_right (Nat.le_refl _), Nat.sub_self]
      rfl
    · rw [take_append_length, ← h.sent, Drive.fail, hactive, hr.eq_refusal,
        ActiveExecution.publish, List.map_append]
      rfl
    · rw [Drive.fail, hr.eq_refusal, hfail]
      exact hget

/-- **The loop from its head**, on any stream about its own task. -/
theorem Drive.Heard.run_responds (fresh : Fresh) (rest : List Arrival)
    (h : d.Heard limit store first done) (hpush : ∀ a ∈ rest, a.push = .ok ())
    (howns : ∀ a ∈ rest, a.Owns first.id) :
    ∃ n, (d.run fresh rest).Responds limit fresh first (done ++ rest) n := by
  induction rest generalizing done d with
  | nil =>
      rw [List.append_nil]
      exact ⟨done.length, h.drained fresh⟩
  | cons a rest ih =>
      obtain ⟨hpush_a, hpush⟩ := List.forall_mem_cons.mp hpush
      obtain ⟨howns_a, howns⟩ := List.forall_mem_cons.mp howns
      have hturned := h.working.turned h.snapshot h.owns hpush_a howns_a
      rw [Drive.run]
      generalize d.take a = step at hturned
      cases hturned with
      | next hh hlive hw hs =>
          have hsplit : done ++ a :: rest = (done ++ [a]) ++ rest := by simp
          rw [hsplit]
          exact ih (h.next hh howns_a hlive hw hs) hpush howns
      | stop hh hterm => exact ⟨_, h.stopped fresh hh hterm rest⟩
      | fail hr hactive hcurrent hw => exact ⟨_, h.rejected fresh hr hactive hcurrent hw rest⟩

/-- **The shape of a response.**  The `drive_execution` of any started send,
on any stream about its task whose pushes succeed, publishes the longest
legal prefix of the stream; if the stream goes on and the prefix has no
terminal event, it publishes one error after it, that of the next arrival, and
leaves the task FAILED. -/
theorem response_shape (h : Handler) (params : ServiceParams) (fresh failure : Fresh) (x : ExecId)
    (streaming : Bool) (req : SendMessageRequest) (s s' : Stores) (prepared : Prepared)
    (arrivals : List Arrival) (hr : Reached limit s.taskStore)
    (hs : (Call.startExecution h params fresh x streaming req).exec s = (.ok prepared, s'))
    (hpush : ∀ a ∈ arrivals, a.push = .ok ()) (howns : ∀ a ∈ arrivals, a.Owns prepared.task.id) :
    ∃ n, ((Drive.start s'.taskStore prepared.task).run failure arrivals).Responds limit failure
      prepared.task arrivals n := by
  obtain ⟨hr', hlive, old, hold, hlive', _⟩ := begun_of_started hr hs
  have hfree : s'.taskStore.finished prepared.task.id = false := by
    rw [finished, hold, Option.any_some, hlive']
  have hheard : (Drive.start s'.taskStore prepared.task).Heard limit s'.taskStore prepared.task [] :=
    { working := working_start hr' hlive hfree
      snapshot := rfl
      owns := rfl
      shape := .inr (by simp)
      ends := by simp
      applied := rfl
      sent := rfl
      answered := rfl
      tracked := rfl }
  exact hheard.run_responds failure arrivals hpush howns

/-- The executor fails. -/
def crash : Arrival where
  item := .error (.internal "crash")
  now := .unixEpoch
  push := .ok ()

theorem owns_completion : (completion (.ok ())).Owns "t" := by
  intro event hevent other hother
  rw [← Option.some.inj hevent] at hother
  exact (Option.some.inj hother).symm

theorem owns_crash (taskId : TaskId) : crash.Owns taskId := by
  intro event hevent
  contradiction

theorem response_shape_completed :
    ∃ s', (Call.startExecution .new ∅ helloFresh 0 false helloRequest).exec emptyStores =
        (.ok ⟨helloTask, none⟩, s') ∧
      ∃ n, ((Drive.start s'.taskStore helloTask).run helloFresh
        [completion (.ok ()), crash]).Responds none helloFresh helloTask
          [completion (.ok ()), crash] n := by
  refine ⟨_, rfl, ?_⟩
  refine response_shape .new ∅ helloFresh helloFresh 0 false helloRequest emptyStores _
    ⟨helloTask, none⟩ [completion (.ok ()), crash] (reached_new none) rfl ?_ ?_
  · exact List.forall_mem_cons.mpr ⟨rfl, List.forall_mem_singleton.mpr rfl⟩
  · exact List.forall_mem_cons.mpr ⟨owns_completion, List.forall_mem_singleton.mpr (owns_crash _)⟩

/-- No error is published for one that comes after a terminal event, and a
store that keeps no finished task has none that is FAILED. -/
theorem crash_unseen :
    (∃ s', (Call.startExecution .new ∅ helloFresh 0 false helloRequest).exec emptyStores =
        (.ok ⟨helloTask, none⟩, s') ∧
      ((Drive.start s'.taskStore helloTask).run helloFresh
        [completion (.ok ()), crash]).active.sent.all (·.result.toOption.isSome) = true) ∧
    ∃ s', (Call.startExecution .new ∅ helloFresh 0 false helloRequest).exec
        { emptyStores with taskStore := .new (some 0) } = (.ok ⟨helloTask, none⟩, s') ∧
      ((Drive.start s'.taskStore helloTask).run helloFresh [crash]).store.get "t" = none := by
  exact ⟨⟨_, rfl, by decide⟩, _, rfl, by decide⟩

end A2a
