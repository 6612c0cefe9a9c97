import A2a.Types
import Mathlib.Data.Finset.Sort
import Mathlib.Data.Int.Init

/-!
# A2a.TaskStore

The in-memory task store (`a2a-server/src/task_store/inmemory.rs`): a map
of versioned tasks, the queue of finished ones, and an optional limit on
how many finished tasks are kept.

Each operation holds the store's lock from its first read to its last
write, so it is one function from store to answer and store.  What an
operation did to the stored tasks is said once, by `Wrote`; the `_cases`
theorem of each operation lists everything it can answer.
-/

namespace A2a

abbrev TaskVersion := Nat

structure StoredEntry where
  task : Task
  version : TaskVersion

abbrev Entries := Finmap fun _ : TaskId => StoredEntry

/-- The stored tasks and the queue of terminal ones, oldest first.  Every
task is stored under its own id. -/
structure Tasks where
  entries : Entries
  terminal : List TaskId
  keyed : ∀ id e, entries.lookup id = some e → e.task.id = id

namespace Tasks

def empty : Tasks := ⟨∅, [], by simp⟩

/-- Store `task` under its id. -/
def put (s : Tasks) (task : Task) (version : TaskVersion) : Tasks where
  entries := s.entries.insert task.id ⟨task, version⟩
  terminal := s.terminal
  keyed := by
    intro id e h
    by_cases hid : id = task.id
    · subst hid
      rw [Finmap.lookup_insert] at h
      obtain rfl := Option.some.inj h
      rfl
    · rw [Finmap.lookup_insert_of_ne _ hid] at h
      exact s.keyed id e h

/-- The loop of `retire`: while more than `limit` ids are queued, the oldest
is taken off and its task removed. -/
def purge (limit : Nat) : List TaskId → Entries → List TaskId × Entries
  | [], entries => ([], entries)
  | id :: rest, entries =>
      if limit < (id :: rest).length then purge limit rest (entries.erase id)
      else (id :: rest, entries)

/-- A purge removes tasks and changes none. -/
theorem lookup_purge (limit : Nat) (queue : List TaskId) (entries : Entries) (id : TaskId) :
    (purge limit queue entries).2.lookup id = entries.lookup id ∨
      (purge limit queue entries).2.lookup id = none := by
  induction queue generalizing entries with
  | nil => exact .inl rfl
  | cons q rest ih =>
      simp only [purge]
      split
      · by_cases hq : id = q
        · subst hq
          rcases ih (entries.erase id) with h | h
          · exact .inr (h.trans (Finmap.lookup_erase id entries))
          · exact .inr h
        · rw [← Finmap.lookup_erase_ne (s := entries) hq]
          exact ih (entries.erase q)
      · exact .inl rfl

/-- Records that `id` reached a terminal state, then purges the tasks that
reached one earliest until at most `limit` remain. -/
def retire (s : Tasks) (id : TaskId) : Option Nat → Tasks
  | none => s
  | some limit =>
      { entries := (purge limit (s.terminal ++ [id]) s.entries).2
        terminal := (purge limit (s.terminal ++ [id]) s.entries).1
        keyed := by
          intro k e h
          rcases lookup_purge limit (s.terminal ++ [id]) s.entries k with hk | hk
          · exact s.keyed k e (hk ▸ h)
          · rw [hk] at h; contradiction }

@[simp] theorem retire_none (s : Tasks) (id : TaskId) : s.retire id none = s := rfl

theorem lookup_retire (s : Tasks) (id k : TaskId) (limit : Option Nat) :
    (s.retire id limit).entries.lookup k = s.entries.lookup k ∨
      (limit ≠ none ∧ (s.retire id limit).entries.lookup k = none) := by
  cases limit with
  | none => exact .inl rfl
  | some n =>
      rcases lookup_purge n (s.terminal ++ [id]) s.entries k with h | h
      · exact .inl h
      · exact .inr ⟨by simp, h⟩

end Tasks

/-! ## the store -/

/-- The in-memory task store and the limit it was built with. -/
structure InMemoryTaskStore where
  tasks : Tasks
  terminalTaskLimit : Option Nat

namespace InMemoryTaskStore

/-- An empty store; `with_terminal_task_limit` sets the limit. -/
def new (limit : Option Nat) : InMemoryTaskStore := ⟨.empty, limit⟩

/-- `TaskStore::get`. -/
def get (store : InMemoryTaskStore) (id : TaskId) : Option Task :=
  (store.tasks.entries.lookup id).map (·.task)

/-- `TaskStore::create`. -/
def create (store : InMemoryTaskStore) (task : Task) :
    Except A2AError TaskVersion × InMemoryTaskStore :=
  match store.tasks.entries.lookup task.id with
  | some _ => (.error (sanitizedInternalError "task already exists"), store)
  | none =>
      let tasks := store.tasks.put task 1
      (.ok 1, { store with
        tasks := if task.isTerminal then tasks.retire task.id store.terminalTaskLimit else tasks })

/-- The refusal of a write that would leave a terminal state. -/
def terminalTransition (old task : Task) : A2AError :=
  .invalidRequest (s!"task {task.id} is in terminal state {old.status.state.debugName} " ++
    s!"and cannot transition to {task.status.state.debugName}")

/-- `TaskStore::update`. -/
def update (store : InMemoryTaskStore) (task : Task) :
    Except A2AError TaskVersion × InMemoryTaskStore :=
  match store.tasks.entries.lookup task.id with
  | none => (.error (.taskNotFound task.id), store)
  | some entry =>
      -- a terminal state may be written again, never replaced by another
      if entry.task.isTerminal ∧ entry.task.status.state ≠ task.status.state then
        (.error (terminalTransition entry.task task), store)
      else
        let retired := !entry.task.isTerminal && task.isTerminal
        let tasks := store.tasks.put task (entry.version + 1)
        (.ok (entry.version + 1), { store with
          tasks := if retired then tasks.retire task.id store.terminalTaskLimit else tasks })

/-- The task `begin_cancel` leaves: CANCELED, stamped `now`. -/
def canceledTask (task : Task) (now : DateTime) : Task :=
  { task with status := { task.status with state := .canceled, timestamp := some now } }

/-- `TaskStore::begin_cancel`. -/
def beginCancel (store : InMemoryTaskStore) (taskId : TaskId) (now : DateTime) :
    Except A2AError Task × InMemoryTaskStore :=
  match store.tasks.entries.lookup taskId with
  | none => (.error (.taskNotFound taskId), store)
  | some entry =>
      if entry.task.isTerminal then (.error (.taskNotCancelable taskId), store)
      else
        let task := canceledTask entry.task now
        (.ok task, { store with
          tasks := (store.tasks.put task (entry.version + 1)).retire taskId
            store.terminalTaskLimit })

end InMemoryTaskStore

/-! ## listing -/

def defaultPageSize : Nat := 50

def maxPageSize : Nat := 100

/-- `resolve_page_size`: an absent or non-positive request gets the default,
and no page is longer than the maximum. -/
def resolvePageSize : Option Int → Nat
  | some size => if 0 < size then min size.toNat maxPageSize else defaultPageSize
  | none => defaultPageSize

/-- `apply_history_length`: keep the last `historyLength` messages. -/
def applyHistoryLength (task : Task) (historyLength : Option Int) : Task :=
  match historyLength with
  | none => task
  | some requested =>
      { task with history := task.history.map fun history =>
          history.drop (history.length - requested.toNat) }

/-- `str::parse::<usize>`: an optional sign, decimal digits, 64 bits. -/
def parseUsize (s : String) : Option Nat :=
  let digits := match s.toList with
    | '+' :: cs => cs
    | cs => cs
  if digits ≠ [] ∧ digits.all Char.isDigit then
    let n := digits.foldl (fun n c => 10 * n + (c.toNat - '0'.toNat)) 0
    if n < 2 ^ 64 then some n else none
  else none

/-- **A number is read back** from its decimal digits. -/
theorem parseUsize_toString {n : Nat} (h : n < 2 ^ 64) : parseUsize (toString n) = some n := by
  have hlist : (toString n).toList = Nat.toDigits 10 n := by
    rw [Nat.toString_eq_repr, Nat.toList_repr]
  have hdigit : ∀ c ∈ Nat.toDigits 10 n, c.isDigit = true := fun c hc =>
    Nat.isDigit_of_mem_toDigits (by decide) (by decide) hc
  have hvalue : (Nat.toDigits 10 n).foldl (fun n c => 10 * n + (c.toNat - '0'.toNat)) 0 = n := by
    rw [← Nat.ofDigitChars_eq_foldl]
    exact Nat.ofDigitChars_ten_toDigits
  cases hd : Nat.toDigits 10 n with
  | nil => exact absurd hd Nat.toDigits_ne_nil
  | cons c cs =>
      have hsign : c ≠ '+' := by
        intro hc
        have hplus := hdigit c (by rw [hd]; exact List.mem_cons_self)
        rw [hc] at hplus
        contradiction
      have hall : (c :: cs).all Char.isDigit = true := by
        rw [List.all_eq_true, ← hd]
        exact hdigit
      rw [hd] at hvalue
      unfold parseUsize
      rw [hlist, hd]
      split
      · next heq => exact absurd (List.cons.inj heq).1 hsign
      · simp only [hvalue]
        exact (if_pos ⟨List.cons_ne_nil c cs, hall⟩).trans (if_pos h)

namespace InMemoryTaskStore

/-- Every stored task, in the order of the ids. -/
def values (store : InMemoryTaskStore) : List Task :=
  (store.tasks.entries.keys.sort (· ≤ ·)).filterMap store.get

/-- The filter of `list`.  A task without a timestamp never satisfies an
"after" filter, one stamped at the bound does. -/
def listed (req : ListTasksRequest) (task : Task) : Bool :=
  req.contextId.all (task.contextId == ·) &&
    req.status.all (task.status.state == ·) &&
    req.statusTimestampAfter.all fun after =>
      task.status.timestamp.any fun timestamp => !decide (timestamp < after)

/-- `TaskStore::list`. -/
def list (store : InMemoryTaskStore) (req : ListTasksRequest) :
    Except A2AError ListTasksResponse :=
  let tasks := store.values.filter (listed req)
  let pageSize := resolvePageSize req.pageSize
  let start := match req.pageToken with
    | some token => parseUsize token
    | none => some 0
  match start with
  | none => .error (.invalidParams "invalid page token")
  | some start =>
      let totalSize := tasks.length
      let start := min start totalSize
      let stop := min (start + pageSize) totalSize
      .ok {
        tasks := ((tasks.take stop).drop start).map (applyHistoryLength · req.historyLength)
        nextPageToken := if stop < totalSize then toString stop else ""
        pageSize := asI32 pageSize
        totalSize := asI32 totalSize }

/-! ## what the operations do -/

variable {store store' : InMemoryTaskStore} {task x : Task} {id : TaskId}

theorem get_id (h : store.get id = some task) : task.id = id := by
  simp only [get, Option.map_eq_some_iff] at h
  obtain ⟨entry, he, rfl⟩ := h
  exact store.tasks.keyed id entry he

theorem get_eq_none :
    store.get id = none ↔ store.tasks.entries.lookup id = none := by
  simp [get]

@[simp] theorem get_new (limit : Option Nat) (id : TaskId) : (new limit).get id = none := by
  simp [get, new, Tasks.empty]

/-- `store'` is `store` after `task` was written, with some tasks purged if
that made a task terminal under a limit. -/
structure Wrote (store : InMemoryTaskStore) (task : Task) (store' : InMemoryTaskStore) : Prop where
  limit : store'.terminalTaskLimit = store.terminalTaskLimit
  get : ∀ id, store'.get id = (if id = task.id then some task else store.get id) ∨
    (store.terminalTaskLimit ≠ none ∧ task.isTerminal = true ∧ store'.get id = none)

/-- Storing a task and retiring it if that is due writes it. -/
theorem wrote_put (store : InMemoryTaskStore) (task : Task) (version : TaskVersion)
    (due : Bool) (hdue : due = true → task.isTerminal = true) :
    Wrote store task { store with
      tasks := if due then (store.tasks.put task version).retire task.id store.terminalTaskLimit
        else store.tasks.put task version } where
  limit := rfl
  get id := by
    have hput : ((store.tasks.put task version).entries.lookup id).map (·.task) =
        if id = task.id then some task else store.get id := by
      by_cases hid : id = task.id
      · subst hid; simp [Tasks.put]
      · simp [Tasks.put, hid, Finmap.lookup_insert_of_ne, InMemoryTaskStore.get]
    cases due with
    | false => exact .inl hput
    | true =>
        rcases Tasks.lookup_retire (store.tasks.put task version) task.id id
          store.terminalTaskLimit with h | ⟨hl, h⟩
        · left
          rw [← hput, ← h]
          rfl
        · exact .inr ⟨hl, hdue rfl, get_eq_none.mpr h⟩

theorem Wrote.get_self (h : Wrote store task store') (hlive : task.isTerminal = false) :
    store'.get task.id = some task := by
  rcases h.get task.id with hg | ⟨_, ht, _⟩
  · simpa using hg
  · rw [hlive] at ht; contradiction

/-- What is stored after a write is the task written or was stored before. -/
theorem Wrote.of_get (h : Wrote store task store') (hg : store'.get id = some x) :
    (id = task.id ∧ x = task) ∨ (id ≠ task.id ∧ store.get id = some x) := by
  rcases h.get id with h' | ⟨_, _, h'⟩
  · rw [hg] at h'
    by_cases hid : id = task.id
    · rw [if_pos hid] at h'
      exact .inl ⟨hid, Option.some.inj h'⟩
    · rw [if_neg hid] at h'
      exact .inr ⟨hid, h'.symm⟩
  · rw [hg] at h'; contradiction

/-- Without a limit nothing is purged. -/
theorem Wrote.get_of_unlimited (h : Wrote store task store')
    (hl : store.terminalTaskLimit = none) (id : TaskId) :
    store'.get id = if id = task.id then some task else store.get id := by
  rcases h.get id with h' | ⟨hne, _, _⟩
  · exact h'
  · exact absurd hl hne

/-- `create` refuses a stored id and writes a new one. -/
theorem create_cases (store : InMemoryTaskStore) (task : Task) :
    (store.get task.id ≠ none ∧
      store.create task = (.error (sanitizedInternalError "task already exists"), store)) ∨
    (store.get task.id = none ∧ ∃ store', store.create task = (.ok 1, store') ∧
      Wrote store task store') := by
  cases hl : store.tasks.entries.lookup task.id with
  | some entry =>
      left
      refine ⟨?_, by simp [create, hl]⟩
      rw [ne_eq, get_eq_none, hl]
      simp
  | none =>
      right
      exact ⟨get_eq_none.mpr hl, _, by simp only [create, hl],
        wrote_put store task 1 task.isTerminal fun h => h⟩

/-- `update` reports an unknown id, refuses to replace a terminal state by
another, and otherwise writes. -/
theorem update_cases (store : InMemoryTaskStore) (task : Task) :
    (store.get task.id = none ∧ store.update task = (.error (.taskNotFound task.id), store)) ∨
    (∃ old, store.get task.id = some old ∧ old.isTerminal = true ∧
      old.status.state ≠ task.status.state ∧
      store.update task = (.error (terminalTransition old task), store)) ∨
    (∃ old version store', store.get task.id = some old ∧
      (old.isTerminal = true → old.status.state = task.status.state) ∧
      store.update task = (.ok version, store') ∧ Wrote store task store') := by
  cases hl : store.tasks.entries.lookup task.id with
  | none => exact .inl ⟨get_eq_none.mpr hl, by simp [update, hl]⟩
  | some entry =>
      have hget : store.get task.id = some entry.task := by simp [get, hl]
      by_cases hc : entry.task.isTerminal ∧ entry.task.status.state ≠ task.status.state
      · refine .inr (.inl ⟨entry.task, hget, hc.1, hc.2, ?_⟩)
        simp only [update, hl]
        rw [if_pos hc]
      · have hw := wrote_put store task (entry.version + 1)
          (!entry.task.isTerminal && task.isTerminal) (by simp)
        refine .inr (.inr ⟨entry.task, entry.version + 1, _, hget, ?_, ?_, hw⟩)
        · intro ht
          by_contra hne
          exact hc ⟨ht, hne⟩
        · simp only [update, hl]
          rw [if_neg hc]

@[simp] theorem canceledTask_id (task : Task) (now : DateTime) :
    (canceledTask task now).id = task.id := rfl

@[simp] theorem canceledTask_state (task : Task) (now : DateTime) :
    (canceledTask task now).status.state = .canceled := rfl

@[simp] theorem canceledTask_isTerminal (task : Task) (now : DateTime) :
    (canceledTask task now).isTerminal = true := rfl

/-- `begin_cancel` reports an unknown id, refuses a terminal task, and
otherwise writes the task CANCELED. -/
theorem beginCancel_cases (store : InMemoryTaskStore) (taskId : TaskId) (now : DateTime) :
    (store.get taskId = none ∧
      store.beginCancel taskId now = (.error (.taskNotFound taskId), store)) ∨
    (∃ old, store.get taskId = some old ∧ old.isTerminal = true ∧
      store.beginCancel taskId now = (.error (.taskNotCancelable taskId), store)) ∨
    (∃ old store', store.get taskId = some old ∧ old.isTerminal = false ∧
      store.beginCancel taskId now = (.ok (canceledTask old now), store') ∧
      Wrote store (canceledTask old now) store') := by
  cases hl : store.tasks.entries.lookup taskId with
  | none => exact .inl ⟨get_eq_none.mpr hl, by simp [beginCancel, hl]⟩
  | some entry =>
      have hget : store.get taskId = some entry.task := by simp [get, hl]
      have hid : (canceledTask entry.task now).id = taskId := store.tasks.keyed taskId entry hl
      cases ht : entry.task.isTerminal with
      | true => exact .inr (.inl ⟨entry.task, hget, ht, by simp [beginCancel, hl, ht]⟩)
      | false =>
          have hw := wrote_put store (canceledTask entry.task now) (entry.version + 1) true
            fun _ => rfl
          rw [hid] at hw
          exact .inr (.inr ⟨entry.task, _, hget, ht, by simp [beginCancel, hl, ht], hw⟩)

@[simp] theorem applyHistoryLength_id (task : Task) (n : Option Int) :
    (applyHistoryLength task n).id = task.id := by
  cases n <;> rfl

@[simp] theorem applyHistoryLength_status (task : Task) (n : Option Int) :
    (applyHistoryLength task n).status = task.status := by
  cases n <;> rfl

/-- A listed task is a stored one with its history cut. -/
theorem mem_list (h : store.list req = .ok resp)
    (hm : task ∈ resp.tasks) :
    ∃ x, store.get task.id = some x ∧ task = applyHistoryLength x req.historyLength := by
  simp only [list] at h
  split at h
  · contradiction
  · next start _ =>
      obtain rfl := Except.ok.inj h
      obtain ⟨x, hx, rfl⟩ := List.mem_map.mp hm
      have hv : x ∈ store.values :=
        (List.mem_filter.mp (List.mem_of_mem_take (List.mem_of_mem_drop hx))).1
      obtain ⟨id, _, hid⟩ := List.mem_filterMap.mp hv
      exact ⟨x, by rw [applyHistoryLength_id, get_id hid]; exact hid, rfl⟩

end InMemoryTaskStore

end A2a
