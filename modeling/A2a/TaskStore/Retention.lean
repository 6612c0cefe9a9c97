import A2a.Machine
import A2a.TaskStore
import Mathlib.Data.List.DropRight

/-!
# A2a.TaskStore.Retention

What the store keeps under a terminal limit.  The map of entries and the
queue of finished ids stay in step over any sequence of `create`, `update`
and `begin_cancel`:

* the queue is the last `limit` ids of the log of tasks in the order they
  became terminal (`finishedLog`);
* a purge takes exactly the ids in front of those, and no task that is not
  terminal;
* the version of an entry counts the writes since it was stored.
-/

namespace A2a

/-! ## the last ids of a log -/

theorem rtake_rtake_of_le {α : Type} (l : List α) {m n : Nat} (h : m ≤ n) :
    (l.rtake n).rtake m = l.rtake m := by
  simp only [List.rtake, List.length_drop, List.drop_drop]
  congr 1
  omega

/-- Appending to the last `n` and cutting again is cutting the longer log. -/
theorem rtake_rtake_concat {α : Type} (l : List α) (x : α) (n : Nat) :
    (l.rtake n ++ [x]).rtake n = (l ++ [x]).rtake n := by
  cases n with
  | zero => simp only [List.rtake_zero]
  | succ n =>
      rw [List.rtake_concat_succ, List.rtake_concat_succ, rtake_rtake_of_le l (Nat.le_succ n)]

theorem length_rtake_le {α : Type} (l : List α) (n : Nat) : (l.rtake n).length ≤ n := by
  rw [List.rtake, List.length_drop]
  omega

theorem rdrop_append_rtake {α : Type} (l : List α) (n : Nat) : l.rdrop n ++ l.rtake n = l :=
  List.take_append_drop _ l

/-! ## purging -/

namespace Tasks

theorem purge_queue (limit : Nat) (queue : List TaskId) (entries : Entries) :
    (purge limit queue entries).1 = queue.rtake limit := by
  induction queue generalizing entries with
  | nil => simp [purge]
  | cons q rest ih =>
      simp only [purge]
      split
      · next h =>
        have hlen : (q :: rest).length - limit = (rest.length - limit) + 1 := by
          simp only [List.length_cons] at h ⊢
          omega
        rw [ih, List.rtake, List.rtake, hlen, List.drop_succ_cons]
      · next h =>
        have hlen : (q :: rest).length - limit = 0 := by omega
        rw [List.rtake, hlen, List.drop_zero]

/-- **A purge removes what it takes off the queue** and nothing else. -/
theorem purge_entries (limit : Nat) (queue : List TaskId) (entries : Entries) (id : TaskId) :
    (purge limit queue entries).2.lookup id =
      if id ∈ queue.rdrop limit then none else entries.lookup id := by
  induction queue generalizing entries with
  | nil => simp [purge]
  | cons q rest ih =>
      simp only [purge]
      split
      · next h =>
        have hlen : (q :: rest).length - limit = (rest.length - limit) + 1 := by
          simp only [List.length_cons] at h ⊢
          omega
        have hcut : (q :: rest).rdrop limit = q :: rest.rdrop limit := by
          rw [List.rdrop, List.rdrop, hlen, List.take_succ_cons]
        rw [ih, hcut]
        by_cases hid : id = q
        · subst hid
          simp
        · rw [Finmap.lookup_erase_ne hid]
          simp [hid]
      · next h =>
        have hlen : (q :: rest).length - limit = 0 := by omega
        rw [List.rdrop, hlen, List.take_zero]
        simp

end Tasks

/-! ## the operations -/

namespace InMemoryTaskStore

/-- The version of the entry of `id`; 0 where there is none. -/
def version (store : InMemoryTaskStore) (id : TaskId) : TaskVersion :=
  (store.tasks.entries.lookup id).elim 0 (·.version)

/-- Whether a terminal task is stored under `id`. -/
def finished (store : InMemoryTaskStore) (id : TaskId) : Bool :=
  (store.get id).any (·.isTerminal)

/-- The store after `task` was written over the entry of its id, with the
task retired if that made it terminal. -/
def written (store : InMemoryTaskStore) (task : Task) : InMemoryTaskStore :=
  { store with
    tasks :=
      if !store.finished task.id && task.isTerminal then
        (store.tasks.put task (store.version task.id + 1)).retire task.id store.terminalTaskLimit
      else store.tasks.put task (store.version task.id + 1) }

variable {store : InMemoryTaskStore}

theorem create_written (store : InMemoryTaskStore) (task : Task) :
    (∃ error, store.create task = (.error error, store)) ∨
      (store.finished task.id = false ∧ store.create task = (.ok 1, store.written task)) := by
  cases hl : store.tasks.entries.lookup task.id with
  | some entry =>
      exact .inl ⟨sanitizedInternalError "task already exists", by simp only [create, hl]⟩
  | none =>
      have hfree : store.finished task.id = false := by
        simp [finished, InMemoryTaskStore.get, hl]
      have hversion : store.version task.id = 0 := by simp [version, hl]
      refine .inr ⟨hfree, ?_⟩
      simp only [create, hl, written, hfree, hversion, Bool.not_false, Bool.true_and, Nat.zero_add]

theorem update_written (store : InMemoryTaskStore) (task : Task) :
    (∃ error, store.update task = (.error error, store)) ∨
      ((store.finished task.id = true → task.isTerminal = true) ∧
        store.update task = (.ok (store.version task.id + 1), store.written task)) := by
  cases hl : store.tasks.entries.lookup task.id with
  | none => exact .inl ⟨.taskNotFound task.id, by simp only [update, hl]⟩
  | some entry =>
      have hold : store.finished task.id = entry.task.isTerminal := by
        simp [finished, InMemoryTaskStore.get, hl]
      have hversion : store.version task.id = entry.version := by simp [version, hl]
      by_cases hc : entry.task.isTerminal ∧ entry.task.status.state ≠ task.status.state
      · left
        refine ⟨terminalTransition entry.task task, ?_⟩
        simp only [update, hl]
        rw [if_pos hc]
      · right
        constructor
        · intro ht
          rw [hold] at ht
          have hsame : entry.task.status.state = task.status.state := by
            by_contra hne
            exact hc ⟨ht, hne⟩
          rw [Task.isTerminal, ← hsame]
          exact ht
        · simp only [update, hl, written, hold, hversion]
          rw [if_neg hc]

theorem beginCancel_written (store : InMemoryTaskStore) (id : TaskId) (now : DateTime) :
    (∃ error, store.beginCancel id now = (.error error, store)) ∨
      ∃ x, x.isTerminal = true ∧ store.beginCancel id now = (.ok x, store.written x) := by
  cases hl : store.tasks.entries.lookup id with
  | none => exact .inl ⟨.taskNotFound id, by simp only [beginCancel, hl]⟩
  | some entry =>
      have hid : entry.task.id = id := store.tasks.keyed id entry hl
      cases ht : entry.task.isTerminal with
      | true =>
          left
          refine ⟨.taskNotCancelable id, ?_⟩
          simp only [beginCancel, hl, ht, if_true]
      | false =>
          have hlive : store.finished id = false := by
            simp [finished, InMemoryTaskStore.get, hl, ht]
          have hversion : store.version id = entry.version := by simp [version, hl]
          refine .inr ⟨canceledTask entry.task now, canceledTask_isTerminal _ _, ?_⟩
          simp [beginCancel, hl, ht, written, hid, hlive, hversion]

end InMemoryTaskStore

open InMemoryTaskStore

/-- An operation on the store. -/
inductive TaskOp
  | create (task : Task)
  | update (task : Task)
  | beginCancel (id : TaskId) (now : DateTime)

namespace TaskOp

/-- The error an answer is, if it is one. -/
def errorOf {α : Type} : Except A2AError α → Option A2AError
  | .ok _ => none
  | .error error => some error

/-- The error the operation answers with, if it does. -/
def error (store : InMemoryTaskStore) : TaskOp → Option A2AError
  | .create task => errorOf (store.create task).1
  | .update task => errorOf (store.update task).1
  | .beginCancel id now => errorOf (store.beginCancel id now).1

/-- The store the operation leaves. -/
def next (store : InMemoryTaskStore) : TaskOp → InMemoryTaskStore
  | .create task => (store.create task).2
  | .update task => (store.update task).2
  | .beginCancel id now => (store.beginCancel id now).2

/-- The task the operation writes, if it succeeds. -/
def task (store : InMemoryTaskStore) : TaskOp → Option Task
  | .create task => (store.create task).1.toOption.map fun _ => task
  | .update task => (store.update task).1.toOption.map fun _ => task
  | .beginCancel id now => (store.beginCancel id now).1.toOption

/-- The id the operation makes terminal: it writes a terminal task where
none was stored. -/
def finishes (store : InMemoryTaskStore) (op : TaskOp) : Option TaskId :=
  (op.task store).bind fun task =>
    if !store.finished task.id && task.isTerminal then some task.id else none

/-- The task of an id once the operation has written, before any purge. -/
def stored (store : InMemoryTaskStore) (op : TaskOp) (id : TaskId) : Option Task :=
  match op.task store with
  | some task => if task.id = id then some task else store.get id
  | none => store.get id

/-- Whether the operation writes the entry of `id`. -/
def writes (store : InMemoryTaskStore) (op : TaskOp) (id : TaskId) : Bool :=
  (op.task store).any (·.id == id)

end TaskOp

open TaskOp

/-- Any sequence of operations on one store. -/
def taskMachine : Machine InMemoryTaskStore TaskOp := ⟨fun store op => some (op.next store)⟩

variable {store store' : InMemoryTaskStore} {op : TaskOp} {limit : Nat} {id : TaskId}

/-- **What an operation does**: it answers with an error and leaves the
store, or it writes one task, which is terminal if the task there was. -/
theorem TaskOp.cases (store : InMemoryTaskStore) (op : TaskOp) :
    (op.error store ≠ none ∧ op.task store = none ∧ op.next store = store) ∨
      ∃ x, op.error store = none ∧ op.task store = some x ∧
        (store.finished x.id = true → x.isTerminal = true) ∧ op.next store = store.written x := by
  cases op with
  | create task =>
      simp only [TaskOp.error, TaskOp.task, TaskOp.next]
      rcases create_written store task with ⟨error, hc⟩ | ⟨hfree, hc⟩
      · rw [hc]
        exact .inl ⟨by simp [errorOf], rfl, rfl⟩
      · rw [hc]
        exact .inr ⟨task, rfl, rfl, by simp [hfree], rfl⟩
  | update task =>
      simp only [TaskOp.error, TaskOp.task, TaskOp.next]
      rcases update_written store task with ⟨error, hu⟩ | ⟨hkeep, hu⟩
      · rw [hu]
        exact .inl ⟨by simp [errorOf], rfl, rfl⟩
      · rw [hu]
        exact .inr ⟨task, rfl, rfl, hkeep, rfl⟩
  | beginCancel id now =>
      simp only [TaskOp.error, TaskOp.task, TaskOp.next]
      rcases beginCancel_written store id now with ⟨error, hb⟩ | ⟨x, hx, hb⟩
      · rw [hb]
        exact .inl ⟨by simp [errorOf], rfl, rfl⟩
      · rw [hb]
        exact .inr ⟨x, rfl, rfl, fun _ => hx, rfl⟩

theorem TaskOp.finishes_of_failed (h : op.task store = none) : op.finishes store = none := by
  rw [TaskOp.finishes, h, Option.bind_none]

theorem TaskOp.finishes_of_task {x : Task} {due : Bool} (h : op.task store = some x)
    (hd : (!store.finished x.id && x.isTerminal) = due) :
    op.finishes store = if due then some x.id else none := by
  rw [TaskOp.finishes, h, Option.bind_some, hd]

/-! ## queue and entries in step -/

/-- The ids in the order in which their tasks became terminal. -/
def finishedLog (tr : List (InMemoryTaskStore × TaskOp)) : List TaskId :=
  tr.filterMap fun p => p.2.finishes p.1

theorem finishedLog_snoc (tr : List (InMemoryTaskStore × TaskOp)) :
    finishedLog (tr ++ [(store, op)]) = finishedLog tr ++ (op.finishes store).toList := by
  rw [finishedLog, List.filterMap_append, finishedLog]
  cases hf : op.finishes store <;> simp [hf]

/-- The queue and the entries agree: the queue holds the last finished ids,
and exactly the ids of the stored terminal tasks. -/
structure Retained (limit : Nat) (tr : List (InMemoryTaskStore × TaskOp))
    (store : InMemoryTaskStore) : Prop where
  bound : store.terminalTaskLimit = some limit
  queue : store.tasks.terminal = (finishedLog tr).rtake limit
  nodup : store.tasks.terminal.Nodup
  terminal : ∀ id, id ∈ store.tasks.terminal ↔
    ∃ task, store.get id = some task ∧ task.isTerminal = true

theorem Retained.length_le (h : Retained limit tr store) : store.tasks.terminal.length ≤ limit := by
  rw [h.queue]
  exact length_rtake_le _ _

theorem Retained.mem_iff_finished (h : Retained limit tr store) (id : TaskId) :
    id ∈ store.tasks.terminal ↔ store.finished id = true := by
  rw [h.terminal, InMemoryTaskStore.finished, Option.any_eq_true]

theorem retained_new (limit : Nat) : Retained limit [] (.new (some limit)) where
  bound := rfl
  queue := (List.rtake_nil _).symm
  nodup := List.nodup_nil
  terminal id := by simp [InMemoryTaskStore.new, InMemoryTaskStore.get, Tasks.empty]

/-- The ids the operation purges: those in front of the last `limit` of the
queue and the id it finishes. -/
def TaskOp.purged (limit : Nat) (store : InMemoryTaskStore) (op : TaskOp) : List TaskId :=
  (store.tasks.terminal ++ (op.finishes store).toList).rdrop limit

theorem not_mem_rdrop_of_length_le {α : Type} {l : List α} {x : α} {n : Nat} (h : l.length ≤ n) :
    x ∉ l.rdrop n := by
  rw [List.rdrop, Nat.sub_eq_zero_of_le h, List.take_zero]
  exact List.not_mem_nil

theorem rtake_of_length_le {α : Type} {l : List α} {n : Nat} (h : l.length ≤ n) :
    l.rtake n = l := by
  rw [List.rtake, Nat.sub_eq_zero_of_le h, List.drop_zero]

/-- The entries after an operation: what it wrote and what was there, less
what it purged. -/
theorem Retained.next_lookup (h : Retained limit tr store) (op : TaskOp) (id : TaskId) :
    (op.next store).tasks.entries.lookup id =
      if id ∈ op.purged limit store then none
      else match op.task store with
        | some x =>
            if x.id = id then some ⟨x, store.version id + 1⟩ else store.tasks.entries.lookup id
        | none => store.tasks.entries.lookup id := by
  rcases op.cases store with ⟨_, hx, hn⟩ | ⟨x, _, hx, _, hn⟩
  · have hf : op.finishes store = none := TaskOp.finishes_of_failed hx
    have hno : id ∉ op.purged limit store := by
      rw [TaskOp.purged, hf]
      exact not_mem_rdrop_of_length_le (by simpa using h.length_le)
    rw [hn, if_neg hno, hx]
  · have hput : (store.tasks.put x (store.version x.id + 1)).entries.lookup id =
        if x.id = id then some ⟨x, store.version id + 1⟩ else store.tasks.entries.lookup id := by
      by_cases hid : x.id = id
      · subst hid
        simp [Tasks.put]
      · rw [if_neg hid]
        exact Finmap.lookup_insert_of_ne _ (Ne.symm hid)
    rw [hn, InMemoryTaskStore.written, hx]
    cases hd : (!store.finished x.id && x.isTerminal) with
    | false =>
        have hf : op.finishes store = none := TaskOp.finishes_of_task hx hd
        have hno : id ∉ op.purged limit store := by
          rw [TaskOp.purged, hf]
          exact not_mem_rdrop_of_length_le (by simpa using h.length_le)
        rw [if_neg hno]
        exact hput
    | true =>
        have hf : op.finishes store = some x.id := TaskOp.finishes_of_task hx hd
        rw [TaskOp.purged, hf, h.bound]
        simp only [if_true, Tasks.retire, Option.toList_some]
        rw [Tasks.purge_entries, hput]
        rfl

/-- The queue after an operation. -/
theorem Retained.next_queue (h : Retained limit tr store) (op : TaskOp) :
    (op.next store).tasks.terminal =
      (store.tasks.terminal ++ (op.finishes store).toList).rtake limit := by
  rcases op.cases store with ⟨_, hx, hn⟩ | ⟨x, _, hx, _, hn⟩
  · have hf : op.finishes store = none := TaskOp.finishes_of_failed hx
    rw [hn, hf, Option.toList_none, List.append_nil, rtake_of_length_le h.length_le]
  · rw [hn, InMemoryTaskStore.written]
    cases hd : (!store.finished x.id && x.isTerminal) with
    | false =>
        have hf : op.finishes store = none := TaskOp.finishes_of_task hx hd
        rw [hf, Option.toList_none, List.append_nil, rtake_of_length_le h.length_le]
        rfl
    | true =>
        have hf : op.finishes store = some x.id := TaskOp.finishes_of_task hx hd
        rw [hf, h.bound]
        simp only [if_true, Tasks.retire, Option.toList_some]
        rw [Tasks.purge_queue]
        rfl

/-- The tasks after an operation. -/
theorem Retained.next_get (h : Retained limit tr store) (op : TaskOp) (id : TaskId) :
    (op.next store).get id =
      if id ∈ op.purged limit store then none else op.stored store id := by
  rw [InMemoryTaskStore.get, h.next_lookup op id]
  split
  · rfl
  · cases hx : op.task store with
    | none => simp only [TaskOp.stored, hx, InMemoryTaskStore.get]
    | some x =>
        simp only [TaskOp.stored, hx]
        split <;> rfl

/-- Queue and finished id together are the ids of the terminal tasks there
are before the purge. -/
theorem Retained.mem_before (h : Retained limit tr store) (op : TaskOp) (id : TaskId) :
    id ∈ store.tasks.terminal ++ (op.finishes store).toList ↔
      ∃ task, op.stored store id = some task ∧ task.isTerminal = true := by
  rw [List.mem_append]
  rcases op.cases store with ⟨_, hx, _⟩ | ⟨x, _, hx, hkeep, _⟩
  · rw [TaskOp.finishes_of_failed hx, h.terminal]
    simp [TaskOp.stored, hx]
  · have hf := TaskOp.finishes_of_task hx rfl
    rw [hf, h.mem_iff_finished]
    by_cases hid : x.id = id
    · subst hid
      simp only [TaskOp.stored, hx, if_true, Option.some.injEq, exists_eq_left']
      cases hfin : store.finished x.id with
      | true => simp [hkeep hfin]
      | false => cases x.isTerminal <;> simp
    · have hne : id ∉ (if (!store.finished x.id && x.isTerminal) = true then some x.id
          else none : Option TaskId).toList := by
        split <;> simp [Ne.symm hid]
      simp only [TaskOp.stored, hx, if_neg hid, hne, or_false]
      rw [InMemoryTaskStore.finished, Option.any_eq_true]

theorem Retained.nodup_before (h : Retained limit tr store) (op : TaskOp) :
    (store.tasks.terminal ++ (op.finishes store).toList).Nodup := by
  rcases op.cases store with ⟨_, hx, _⟩ | ⟨x, _, hx, _, _⟩
  · rw [TaskOp.finishes_of_failed hx, Option.toList_none, List.append_nil]
    exact h.nodup
  · cases hd : (!store.finished x.id && x.isTerminal) with
    | false =>
        rw [TaskOp.finishes_of_task hx hd]
        simpa using h.nodup
    | true =>
        have hnew : x.id ∉ store.tasks.terminal := by
          rw [h.mem_iff_finished]
          cases hfin : store.finished x.id <;> simp [hfin] at hd ⊢
        rw [TaskOp.finishes_of_task hx hd]
        exact List.nodup_append.mpr ⟨h.nodup, by simp, by
          intro a ha b hb hab
          rw [if_pos rfl, Option.toList_some, List.mem_singleton] at hb
          rw [hab, hb] at ha
          exact hnew ha⟩

/-- One operation keeps queue and entries in step. -/
theorem Retained.step (h : Retained limit tr store) (op : TaskOp) :
    Retained limit (tr ++ [(store, op)]) (op.next store) where
  bound := by
    rcases op.cases store with ⟨_, _, hn⟩ | ⟨x, _, _, _, hn⟩
    · rw [hn, h.bound]
    · rw [hn]
      exact h.bound
  queue := by
    rw [h.next_queue, finishedLog_snoc, h.queue]
    cases op.finishes store with
    | none => simp only [Option.toList_none, List.append_nil, rtake_rtake_of_le _ (Nat.le_refl _)]
    | some id => exact rtake_rtake_concat _ id limit
  nodup := by
    rw [h.next_queue]
    exact (h.nodup_before op).sublist (List.drop_sublist _ _)
  terminal id := by
    have hsplit := rdrop_append_rtake (store.tasks.terminal ++ (op.finishes store).toList) limit
    have hnd := h.nodup_before op
    rw [← hsplit, List.nodup_append] at hnd
    have hmem := h.mem_before op id
    rw [← hsplit, List.mem_append] at hmem
    rw [h.next_queue, h.next_get]
    by_cases hp : id ∈ op.purged limit store
    · rw [if_pos hp]
      constructor
      · intro hq
        exact absurd rfl (hnd.2.2 id hp id hq)
      · rintro ⟨task, ht, _⟩
        contradiction
    · rw [if_neg hp, ← hmem]
      exact ⟨.inr, fun hor => hor.resolve_left hp⟩

/-- Queue and entries are in step after any sequence of operations. -/
theorem retained_of_run (hr : taskMachine.Run (.new (some limit)) tr store) :
    Retained limit tr store := by
  refine hr.invariant (I := Retained limit) (retained_new limit) ?_
  intro tr store op store' h hs
  obtain rfl := Option.some.inj hs
  exact h.step op

/-- What one operation does to a store that has queue and entries in step. -/
structure TaskOp.Keeps (limit : Nat) (store : InMemoryTaskStore) (op : TaskOp) : Prop where
  failed : op.error store ≠ none → op.next store = store
  purged : ∀ id, id ∈ op.purged limit store ↔
    op.stored store id ≠ none ∧ (op.next store).get id = none
  live : ∀ id task, op.stored store id = some task → task.isTerminal = false →
    (op.next store).get id = some task
  get : ∀ id task, (op.next store).get id = some task → op.stored store id = some task

theorem Retained.terminal_of_purged (h : Retained limit tr store)
    (hp : id ∈ op.purged limit store) :
    ∃ task, op.stored store id = some task ∧ task.isTerminal = true :=
  (h.mem_before op id).mp (List.mem_of_mem_take hp)

theorem Retained.keeps (h : Retained limit tr store) (op : TaskOp) : op.Keeps limit store where
  failed herr := by
    rcases op.cases store with ⟨_, _, hn⟩ | ⟨x, hok, _, _, _⟩
    · exact hn
    · exact absurd hok herr
  purged id := by
    rw [h.next_get]
    constructor
    · intro hp
      obtain ⟨task, ht, _⟩ := h.terminal_of_purged hp
      exact ⟨by simp [ht], if_pos hp⟩
    · rintro ⟨hstored, hgone⟩
      by_contra hp
      rw [if_neg hp] at hgone
      exact hstored hgone
  live id task ht hlive := by
    rw [h.next_get, if_neg, ht]
    intro hp
    obtain ⟨x, hx, hterm⟩ := h.terminal_of_purged hp
    obtain rfl := Option.some.inj (ht.symm.trans hx)
    rw [hlive] at hterm
    contradiction
  get id task hg := by
    rw [h.next_get] at hg
    split at hg
    · contradiction
    · exact hg

/-! ## versions -/

/-- The writes to the entry of `id`. -/
def writesTo (id : TaskId) (tr : List (InMemoryTaskStore × TaskOp)) : Nat :=
  tr.countP fun p => p.2.writes p.1 id

/-- An entry that one operation leaves stored is the entry it wrote, with the
next version, or untouched. -/
theorem Retained.next_entry {e e' : StoredEntry} (h : Retained limit tr store) (op : TaskOp)
    (he : store.tasks.entries.lookup id = some e)
    (he' : (op.next store).tasks.entries.lookup id = some e') :
    (op.writes store id = true ∧ e'.version = e.version + 1) ∨
      (op.writes store id = false ∧ e' = e) := by
  have hversion : store.version id = e.version := by simp [InMemoryTaskStore.version, he]
  rw [h.next_lookup op id] at he'
  split at he'
  · contradiction
  · cases hx : op.task store with
    | none =>
        right
        rw [hx, he] at he'
        exact ⟨by simp [TaskOp.writes, hx], (Option.some.inj he').symm⟩
    | some x =>
        simp only [hx] at he'
        by_cases hid : x.id = id
        · left
          rw [if_pos hid] at he'
          obtain rfl := Option.some.inj he'
          exact ⟨by simp [TaskOp.writes, hx, hid], by rw [hversion]⟩
        · right
          rw [if_neg hid, he] at he'
          exact ⟨by simp [TaskOp.writes, hx, hid], (Option.some.inj he').symm⟩

/-- While `id` stays stored, its version counts the writes. -/
theorem Retained.version_of_run {e : StoredEntry} (h : Retained limit tr store)
    (he : store.tasks.entries.lookup id = some e) (hr : taskMachine.Run store tr' store') :
    (∀ p ∈ tr', p.1.tasks.entries.lookup id ≠ none) →
      ∀ e', store'.tasks.entries.lookup id = some e' →
        e'.version = e.version + writesTo id tr' ∧ (writesTo id tr' = 0 → e' = e) := by
  have hinv : (∃ log, Retained limit log store') ∧
      ((∀ p ∈ tr', p.1.tasks.entries.lookup id ≠ none) →
        ∀ e', store'.tasks.entries.lookup id = some e' →
          e'.version = e.version + writesTo id tr' ∧ (writesTo id tr' = 0 → e' = e)) := by
    refine hr.invariant (I := fun tr' store' => (∃ log, Retained limit log store') ∧
      ((∀ p ∈ tr', p.1.tasks.entries.lookup id ≠ none) →
        ∀ e', store'.tasks.entries.lookup id = some e' →
          e'.version = e.version + writesTo id tr' ∧ (writesTo id tr' = 0 → e' = e))) ?_ ?_
    · refine ⟨⟨tr, h⟩, fun _ e' he' => ?_⟩
      obtain rfl := Option.some.inj (he.symm.trans he')
      exact ⟨rfl, fun _ => rfl⟩
    · rintro tr₁ s op s' ⟨⟨log, hlog⟩, ih⟩ hs
      obtain rfl := Option.some.inj hs
      refine ⟨⟨_, hlog.step op⟩, fun hstay e' he' => ?_⟩
      obtain ⟨e₁, he₁⟩ := Option.ne_none_iff_exists'.mp (hstay (s, op) (by simp))
      obtain ⟨hver, hsame⟩ := ih (fun p hp => hstay p (List.mem_append_left _ hp)) e₁ he₁
      have hcount : writesTo id (tr₁ ++ [(s, op)]) =
          writesTo id tr₁ + if op.writes s id then 1 else 0 := by
        rw [writesTo, List.countP_append, List.countP_singleton, writesTo]
      rcases hlog.next_entry op he₁ he' with ⟨hw, hnext⟩ | ⟨hw, rfl⟩
      · have hone : writesTo id (tr₁ ++ [(s, op)]) = writesTo id tr₁ + 1 := by
          rw [hcount, if_pos hw]
        rw [hone, hnext, hver]
        exact ⟨Nat.add_assoc _ _ 1, fun hzero => absurd hzero (Nat.succ_ne_zero _)⟩
      · have hnone : writesTo id (tr₁ ++ [(s, op)]) = writesTo id tr₁ := by
          rw [hcount, hw]
          rfl
        rw [hnone]
        exact ⟨hver, hsame⟩
  exact hinv.2

/-- **The store under a terminal limit**: after any sequence of operations,
failing ones included, the queue holds exactly the stored terminal tasks, the
earliest first, and at most `limit` of them; the next operation purges just
the tasks that no longer fit and leaves the store as it is if it fails; and
while an entry stays stored its version grows by one with each write. -/
theorem retention (limit : Nat) (hr : taskMachine.Run (.new (some limit)) tr store) :
    Retained limit tr store ∧ store.tasks.terminal.length ≤ limit ∧
      (∀ op : TaskOp, op.Keeps limit store) ∧
      ∀ tr' store', taskMachine.Run store tr' store' → ∀ id e e',
        store.tasks.entries.lookup id = some e →
        (∀ p ∈ tr', p.1.tasks.entries.lookup id ≠ none) →
        store'.tasks.entries.lookup id = some e' →
        e'.version = e.version + writesTo id tr' ∧ (writesTo id tr' = 0 → e' = e) := by
  have h := retained_of_run hr
  refine ⟨h, h.length_le, h.keeps, ?_⟩
  intro tr' store' hr' id e e' he hstay he'
  exact h.version_of_run he hr' hstay e' he'

/-- Two finished tasks are kept; a third takes the place of the first, whose
id can then be used again. -/
theorem retention_two :
    ∃ tr store, taskMachine.Run (.new (some 2)) tr store ∧ Retained 2 tr store ∧
      finishedLog tr = ["t", "u", "v", "t"] ∧ store.tasks.terminal = ["v", "t"] := by
  have hx : ∃ tr store, taskMachine.exec (.new (some 2))
      [.create (makeTask "t" "c" .working), .create (makeTask "w" "c" .working),
        .update (makeTask "t" "c" .completed), .update (makeTask "t" "c" .completed),
        .create (makeTask "u" "c" .failed), .create (makeTask "v" "c" .working),
        .update (makeTask "x" "c" .working), .beginCancel "v" .unixEpoch,
        .create (makeTask "t" "c" .rejected)] = some (tr, store) ∧
      finishedLog tr = ["t", "u", "v", "t"] ∧ store.tasks.terminal = ["v", "t"] :=
    ⟨_, _, rfl, by decide, rfl⟩
  obtain ⟨tr, store, hexec, hlog, hqueue⟩ := hx
  have hrun := Machine.run_of_exec hexec
  exact ⟨tr, store, hrun, (retention 2 hrun).1, hlog, hqueue⟩

/-! ## one write to a store in use -/

/-- A store that operations have left. -/
def Reached (limit : Option Nat) (store : InMemoryTaskStore) : Prop :=
  ∃ tr, taskMachine.Run (.new limit) tr store

section

variable {limit : Option Nat} {x y : Task}

theorem reached_new (limit : Option Nat) : Reached limit (.new limit) := ⟨[], .nil⟩

theorem Reached.next (h : Reached limit store) (op : TaskOp) : Reached limit (op.next store) := by
  obtain ⟨tr, hr⟩ := h
  exact ⟨_, hr.snoc rfl⟩

theorem Reached.create (h : Reached limit store) (hc : store.create x = (result, store')) :
    Reached limit store' := by
  have hnext := h.next (.create x)
  rw [TaskOp.next, hc] at hnext
  exact hnext

/-- What `create` stores, unless it is terminal. -/
theorem get_of_create (hc : store.create x = (.ok v, store')) (hlive : x.isTerminal = false) :
    store'.get x.id = some x := by
  rcases create_cases store x with ⟨_, hno⟩ | ⟨_, store₁, hyes, hw⟩
  · rw [hc] at hno
    exact absurd (congrArg Prod.fst hno) (by simp)
  · obtain rfl : store' = store₁ := congrArg Prod.snd (hc.symm.trans hyes)
    exact hw.get_self hlive

theorem Reached.limit_eq (h : Reached limit store) : store.terminalTaskLimit = limit := by
  obtain ⟨tr, hr⟩ := h
  refine hr.invariant (I := fun _ store => store.terminalTaskLimit = limit) rfl ?_
  intro _ store op store' ih hs
  obtain rfl := Option.some.inj hs
  rcases op.cases store with ⟨_, _, hn⟩ | ⟨x, _, _, _, hn⟩
  · rw [hn, ih]
  · rw [hn]
    exact ih

/-- What an operation writes, and how that leaves the store. -/
theorem TaskOp.wrote (hx : op.task store = some x) : Wrote store x (op.next store) := by
  rcases op.cases store with ⟨_, hnone, _⟩ | ⟨z, _, hz, _, hn⟩
  · rw [hx] at hnone
    contradiction
  · obtain rfl := Option.some.inj (hz.symm.trans hx)
    rw [hn]
    exact wrote_put store z _ _ (by simp)

/-- A task that is not terminal purges nothing. -/
theorem TaskOp.get_next_of_live (hx : op.task store = some x) (hlive : x.isTerminal = false)
    (id : TaskId) : (op.next store).get id = if id = x.id then some x else store.get id := by
  rcases (op.wrote hx).get id with hg | ⟨_, hterm, _⟩
  · exact hg
  · rw [hlive] at hterm
    contradiction

/-- A task that becomes terminal stays stored, unless none may. -/
theorem Reached.get_next_of_terminal (h : Reached limit store) (hx : op.task store = some x)
    (hnew : store.finished x.id = false) (hterm : x.isTerminal = true) :
    (op.next store).get x.id = if limit = some 0 then none else some x := by
  cases limit with
  | none =>
      rw [(op.wrote hx).get_of_unlimited h.limit_eq, if_pos rfl]
      simp
  | some n =>
      obtain ⟨tr, hr⟩ := h
      have hret := retained_of_run hr
      have hfin : op.finishes store = some x.id := by
        rw [TaskOp.finishes_of_task hx rfl, hnew, hterm]
        rfl
      have hstored : op.stored store x.id = some x := by simp [TaskOp.stored, hx]
      rw [hret.next_get, hstored, TaskOp.purged, hfin, Option.toList_some]
      cases n with
      | zero => simp
      | succ n =>
          have hnd := hret.nodup_before op
          rw [hfin, Option.toList_some, ← rdrop_append_rtake (store.tasks.terminal ++ [x.id]) (n + 1),
            List.rtake_concat_succ, List.nodup_append] at hnd
          have hkept : x.id ∉ (store.tasks.terminal ++ [x.id]).rdrop (n + 1) :=
            fun hmem => hnd.2.2 _ hmem x.id (by simp) rfl
          rw [if_neg hkept, if_neg (by simp)]

/-- A write leaves the tasks of other ids that are not terminal. -/
theorem Reached.get_next_of_ne (h : Reached limit store) (hx : op.task store = some x)
    (hne : id ≠ x.id) (hget : store.get id = some y) (hlive : y.isTerminal = false) :
    (op.next store).get id = some y := by
  cases limit with
  | none => rw [(op.wrote hx).get_of_unlimited h.limit_eq, if_neg hne, hget]
  | some n =>
      obtain ⟨tr, hr⟩ := h
      have hstored : op.stored store id = some y := by
        simp [TaskOp.stored, hx, Ne.symm hne, hget]
      exact ((retained_of_run hr).keeps op).live id y hstored hlive

end

end A2a
