import A2a.Types
import Mathlib.Data.Multiset.MapFold

/-!
# A2a.PushStore

The in-memory push-configuration store (`a2a-server/src/push/store.rs`):
per task, the configurations by their id, at most `maxPushConfigsPerTask`.
-/

namespace A2a

def maxPushConfigsPerTask : Nat := 50

abbrev PushConfigs := Finmap fun _ : String => TaskPushNotificationConfig

structure InMemoryPushConfigStore where
  configs : Finmap fun _ : TaskId => PushConfigs

namespace InMemoryPushConfigStore

/-- The configurations of a task. -/
def configsOf (store : InMemoryPushConfigStore) (taskId : TaskId) : PushConfigs :=
  (store.configs.lookup taskId).getD ∅

/-- `save`; `newId` is the id generated for a configuration that has none. -/
def save (store : InMemoryPushConfigStore) (newId : String) (config : TaskPushNotificationConfig) :
    Except A2AError TaskPushNotificationConfig × InMemoryPushConfigStore :=
  if config.url = "" then (.error (.invalidParams "push config URL cannot be empty"), store)
  else if config.taskId = "" then
    (.error (.invalidParams "push config task_id cannot be empty"), store)
  else
    let configId := config.id.getD newId
    let config := { config with id := some configId }
    let taskConfigs := store.configsOf config.taskId
    if (taskConfigs.lookup configId).isNone ∧ maxPushConfigsPerTask ≤ taskConfigs.keys.card then
      -- the task's entry exists by now, as `entry().or_default()` leaves it
      (.error (.invalidParams
        s!"too many push notification configs for task (max {maxPushConfigsPerTask})"),
        ⟨store.configs.insert config.taskId taskConfigs⟩)
    else
      (.ok config, ⟨store.configs.insert config.taskId (taskConfigs.insert configId config)⟩)

/-- `list`: the configurations of a task, in no particular order. -/
def list (store : InMemoryPushConfigStore) (taskId : TaskId) :
    Multiset TaskPushNotificationConfig :=
  (store.configsOf taskId).entries.map (·.2)

/-- Whether `save` takes the configuration. -/
def accepts (store : InMemoryPushConfigStore) (newId : String)
    (config : TaskPushNotificationConfig) : Prop :=
  config.url ≠ "" ∧ config.taskId ≠ "" ∧
    (((store.configsOf config.taskId).lookup (config.id.getD newId)).isSome ∨
      (store.configsOf config.taskId).keys.card < maxPushConfigsPerTask)

/-- Whether the store holds exactly this configuration already. -/
def holds (store : InMemoryPushConfigStore) (newId : String)
    (config : TaskPushNotificationConfig) : Prop :=
  (store.configsOf config.taskId).lookup (config.id.getD newId) =
    some { config with id := some (config.id.getD newId) }

/-! ## what a save does -/

/-- Inserting what is there already changes nothing. -/
theorem insert_eq_self {α : Type} {β : α → Type} [DecidableEq α] {a : α} {b : β a}
    {s : Finmap β} (h : s.lookup a = some b) : s.insert a b = s := by
  refine Finmap.ext_lookup fun a' => ?_
  by_cases ha : a' = a
  · subst ha
    rw [Finmap.lookup_insert, h]
  · rw [Finmap.lookup_insert_of_ne _ ha]

variable {store : InMemoryPushConfigStore} {newId : String} {config : TaskPushNotificationConfig}

/-- A refused save leaves the store as it was. -/
theorem save_of_not_accepts (h : ¬ store.accepts newId config) :
    ∃ error, store.save newId config = (.error error, store) := by
  by_cases hurl : config.url = ""
  · exact ⟨_, by rw [save, if_pos hurl]⟩
  by_cases hid : config.taskId = ""
  · exact ⟨_, by rw [save, if_neg hurl, if_pos hid]⟩
  have hfull : ((store.configsOf config.taskId).lookup (config.id.getD newId)).isNone ∧
      maxPushConfigsPerTask ≤ (store.configsOf config.taskId).keys.card := by
    simp only [accepts, not_and, not_or, not_lt] at h
    have := h hurl hid
    exact ⟨by simpa using this.1, this.2⟩
  -- a full task has an entry, which is put back
  have hsame : store.configs.insert config.taskId (store.configsOf config.taskId) =
      store.configs := by
    cases hl : store.configs.lookup config.taskId with
    | none =>
        have hempty : (store.configsOf config.taskId).keys.card = 0 := by simp [configsOf, hl]
        have hle := hfull.2
        rw [hempty] at hle
        exact absurd hle (by decide)
    | some configs =>
        have hof : store.configsOf config.taskId = configs := by simp [configsOf, hl]
        rw [hof, insert_eq_self hl]
  refine ⟨.invalidParams
    s!"too many push notification configs for task (max {maxPushConfigsPerTask})", ?_⟩
  rw [save, if_neg hurl, if_neg hid]
  simp only [if_pos hfull, hsame]

/-- An accepted save changes the store unless it holds the configuration. -/
theorem save_of_accepts (h : store.accepts newId config) :
    ∃ saved store', store.save newId config = (.ok saved, store') ∧
      (store' = store ↔ store.holds newId config) := by
  obtain ⟨hurl, hid, hroom⟩ := h
  have hfull : ¬ (((store.configsOf config.taskId).lookup (config.id.getD newId)).isNone ∧
      maxPushConfigsPerTask ≤ (store.configsOf config.taskId).keys.card) := by
    rintro ⟨hnone, hle⟩
    rcases hroom with hs | hlt
    · rw [Option.isNone_iff_eq_none] at hnone
      simp [hnone] at hs
    · omega
  refine ⟨_, _, by rw [save, if_neg hurl, if_neg hid]; simp only [if_neg hfull]; rfl, ?_⟩
  constructor
  · intro he
    have hlook := congrArg (fun s => (s.configsOf config.taskId).lookup (config.id.getD newId)) he
    simp only [configsOf, Finmap.lookup_insert, Option.getD_some] at hlook
    rw [holds, configsOf]
    exact hlook.symm
  · intro hheld
    cases hl : store.configs.lookup config.taskId with
    | none => simp [holds, configsOf, hl] at hheld
    | some configs =>
        have hof : store.configsOf config.taskId = configs := by simp [configsOf, hl]
        rw [holds, hof] at hheld
        rw [hof, insert_eq_self hheld, insert_eq_self hl]

end InMemoryPushConfigStore

end A2a
