import A2a.PushStore

/-!
# A2a.PushStore.History

What the push-configuration store answers after any sequence of calls
(`a2a-server/src/push/store.rs`).

`lastSaved` reads the calls alone: the configuration last saved under a task
and an id and not deleted since.  `lookup_storeAfter` is that the store holds
exactly that, and `pushConfigs_tracked` what `get` and `list` show of it.
-/

namespace A2a

namespace InMemoryPushConfigStore

/-! ## the other operations -/

/-- `new`. -/
def new : InMemoryPushConfigStore := ⟨∅⟩

/-- `get`. -/
def get (store : InMemoryPushConfigStore) (taskId : TaskId) (configId : String) :
    Except A2AError TaskPushNotificationConfig :=
  match (store.configs.lookup taskId).bind fun configs => configs.lookup configId with
  | some config => .ok config
  | none =>
      .error (.new ErrorCode.taskNotFound s!"push notification config not found: {configId}")

/-- `delete`. -/
def delete (store : InMemoryPushConfigStore) (taskId : TaskId) (configId : String) :
    InMemoryPushConfigStore :=
  match store.configs.lookup taskId with
  | some configs => ⟨store.configs.insert taskId (configs.erase configId)⟩
  | none => store

/-- `delete_all`. -/
def deleteAll (store : InMemoryPushConfigStore) (taskId : TaskId) : InMemoryPushConfigStore :=
  ⟨store.configs.erase taskId⟩

/-! ## calls -/

/-- A call that may change the store; `newId` is the id generated for a
configuration that has none. -/
inductive Call
  | save (newId : String) (config : TaskPushNotificationConfig)
  | delete (taskId : TaskId) (configId : String)
  | deleteAll (taskId : TaskId)

/-- The task a call works on. -/
def Call.taskId : Call → TaskId
  | .save _ config => config.taskId
  | .delete taskId _ => taskId
  | .deleteAll taskId => taskId

/-- The store after a call. -/
def Call.next (store : InMemoryPushConfigStore) : Call → InMemoryPushConfigStore
  | .save newId config => (store.save newId config).2
  | .delete taskId configId => store.delete taskId configId
  | .deleteAll taskId => store.deleteAll taskId

/-- The store after the calls, which are listed newest first. -/
def storeAfter : List Call → InMemoryPushConfigStore
  | [] => new
  | call :: earlier => call.next (storeAfter earlier)

/-- The configuration last saved under the task and the id, and not deleted
since.  What a save saved is what it returned; a failed one saved nothing. -/
def lastSaved (taskId : TaskId) (configId : String) :
    List Call → Option TaskPushNotificationConfig
  | [] => none
  | .save newId config :: earlier =>
      match ((storeAfter earlier).save newId config).1 with
      | .ok saved =>
          if saved.taskId = taskId ∧ saved.id = some configId then some saved
          else lastSaved taskId configId earlier
      | .error _ => lastSaved taskId configId earlier
  | .delete taskId' configId' :: earlier =>
      if taskId' = taskId ∧ configId' = configId then none else lastSaved taskId configId earlier
  | .deleteAll taskId' :: earlier =>
      if taskId' = taskId then none else lastSaved taskId configId earlier

/-! ## what a call does to what is held -/

variable {store : InMemoryPushConfigStore} {newId configId : String} {taskId : TaskId}
  {config saved : TaskPushNotificationConfig}

theorem get_eq (store : InMemoryPushConfigStore) (taskId : TaskId) (configId : String) :
    store.get taskId configId =
      match (store.configsOf taskId).lookup configId with
      | some config => .ok config
      | none =>
          .error (.new ErrorCode.taskNotFound
            s!"push notification config not found: {configId}") := by
  unfold get configsOf
  cases hl : store.configs.lookup taskId with
  | none => simp
  | some configs => simp

theorem configsOf_insert_self (configs : PushConfigs) :
    (⟨store.configs.insert taskId configs⟩ : InMemoryPushConfigStore).configsOf taskId = configs := by
  simp [configsOf]

theorem configsOf_insert_ne {other : TaskId} (configs : PushConfigs) (h : other ≠ taskId) :
    (⟨store.configs.insert taskId configs⟩ : InMemoryPushConfigStore).configsOf other =
      store.configsOf other := by
  simp [configsOf, Finmap.lookup_insert_of_ne _ h]

/-- A save is refused and leaves every task's configurations as they were,
or puts the configuration, with its id, under its own task and id. -/
theorem save_cases (store : InMemoryPushConfigStore) (newId : String)
    (config : TaskPushNotificationConfig) :
    (∃ error, (store.save newId config).1 = .error error ∧
      ∀ taskId, (store.save newId config).2.configsOf taskId = store.configsOf taskId) ∨
    (store.accepts newId config ∧
      (store.save newId config).1 = .ok { config with id := some (config.id.getD newId) } ∧
      (store.save newId config).2 = ⟨store.configs.insert config.taskId
        ((store.configsOf config.taskId).insert (config.id.getD newId)
          { config with id := some (config.id.getD newId) })⟩) := by
  by_cases h : store.accepts newId config
  · right
    obtain ⟨hurl, hid, hroom⟩ := h
    have hfull : ¬ (((store.configsOf config.taskId).lookup (config.id.getD newId)).isNone ∧
        maxPushConfigsPerTask ≤ (store.configsOf config.taskId).keys.card) := by
      rw [Option.isNone_iff_eq_none, ← Option.not_isSome_iff_eq_none]
      intro hle
      cases hroom with
      | inl hsome => exact hle.1 hsome
      | inr hlt => exact absurd hlt (Nat.not_lt.mpr hle.2)
    refine ⟨⟨hurl, hid, hroom⟩, ?_⟩
    rw [save, if_neg hurl, if_neg hid]
    simp only [if_neg hfull]
    exact ⟨trivial, trivial⟩
  · left
    obtain ⟨error, he⟩ := save_of_not_accepts h
    exact ⟨error, by rw [he], fun taskId => by rw [he]⟩

theorem configsOf_delete (store : InMemoryPushConfigStore) (taskId : TaskId) (configId : String) :
    (store.delete taskId configId).configsOf taskId = (store.configsOf taskId).erase configId := by
  unfold delete
  cases hl : store.configs.lookup taskId with
  | none =>
      have hnone : store.configsOf taskId = ∅ := by simp [configsOf, hl]
      simp only [hnone]
      refine Finmap.ext_lookup fun id => ?_
      by_cases hid : id = configId
      · subst hid
        rw [Finmap.lookup_erase, Finmap.lookup_empty]
      · rw [Finmap.lookup_erase_ne hid]
  | some configs =>
      simp only [configsOf_insert_self]
      simp [configsOf, hl]

theorem configsOf_delete_ne {other : TaskId} (h : other ≠ taskId) :
    (store.delete taskId configId).configsOf other = store.configsOf other := by
  unfold delete
  cases hl : store.configs.lookup taskId with
  | none => rfl
  | some configs => simp only [configsOf_insert_ne _ h]

theorem configsOf_deleteAll (store : InMemoryPushConfigStore) (taskId : TaskId) :
    (store.deleteAll taskId).configsOf taskId = ∅ := by
  simp [deleteAll, configsOf]

theorem configsOf_deleteAll_ne {other : TaskId} (h : other ≠ taskId) :
    (store.deleteAll taskId).configsOf other = store.configsOf other := by
  simp [deleteAll, configsOf, Finmap.lookup_erase_ne h]

/-- **A call works on its own task**: what every other task holds stays. -/
theorem configsOf_next_ne (call : Call) (h : taskId ≠ call.taskId) :
    (call.next store).configsOf taskId = store.configsOf taskId := by
  cases call with
  | save newId config =>
      rcases save_cases store newId config with ⟨_, _, hsame⟩ | ⟨_, _, hnext⟩
      · exact hsame taskId
      · simp only [Call.next, hnext]
        exact configsOf_insert_ne _ h
  | delete taskId' configId => exact configsOf_delete_ne h
  | deleteAll taskId' => exact configsOf_deleteAll_ne h

/-! ## the invariant -/

/-- No task holds more configurations than the cap, and each is held under
its own task and id. -/
structure Placed (store : InMemoryPushConfigStore) : Prop where
  bounded : ∀ taskId, (store.configsOf taskId).keys.card ≤ maxPushConfigsPerTask
  own : ∀ taskId configId config, (store.configsOf taskId).lookup configId = some config →
    config.taskId = taskId ∧ config.id = some configId

theorem keys_card_insert_le (configs : PushConfigs) (configId : String)
    (config : TaskPushNotificationConfig) (cap : Nat) (hcap : configs.keys.card ≤ cap)
    (hroom : (configs.lookup configId).isSome ∨ configs.keys.card < cap) :
    (configs.insert configId config).keys.card ≤ cap := by
  have hkeys : (configs.insert configId config).keys = insert configId configs.keys := by
    ext id
    simp [Finmap.mem_keys]
  rw [hkeys]
  by_cases hmem : configId ∈ configs.keys
  · rw [Finset.insert_eq_of_mem hmem]
    exact hcap
  · rw [Finset.card_insert_of_notMem hmem]
    rcases hroom with hsome | hlt
    · rw [Finmap.mem_keys] at hmem
      rw [Finmap.lookup_eq_none.mpr hmem] at hsome
      contradiction
    · omega

theorem keys_card_erase_le (configs : PushConfigs) (configId : String) :
    (configs.erase configId).keys.card ≤ configs.keys.card := by
  rw [Finmap.keys_erase]
  exact Finset.card_erase_le

theorem placed_new : Placed new where
  bounded taskId := by simp [configsOf, new]
  own taskId configId config h := by simp [configsOf, new] at h

theorem Placed.next (hp : Placed store) (call : Call) : Placed (call.next store) := by
  -- a task the call does not work on holds what it held
  have hother : ∀ taskId, taskId ≠ call.taskId →
      (call.next store).configsOf taskId = store.configsOf taskId :=
    fun taskId h => configsOf_next_ne call h
  suffices hself : ((call.next store).configsOf call.taskId).keys.card ≤ maxPushConfigsPerTask ∧
      ∀ configId config, ((call.next store).configsOf call.taskId).lookup configId = some config →
        config.taskId = call.taskId ∧ config.id = some configId by
    constructor
    · intro taskId
      by_cases h : taskId = call.taskId
      · rw [h]
        exact hself.1
      · rw [hother taskId h]
        exact hp.bounded taskId
    · intro taskId configId config hlook
      by_cases h : taskId = call.taskId
      · rw [h] at hlook ⊢
        exact hself.2 configId config hlook
      · rw [hother taskId h] at hlook
        exact hp.own taskId configId config hlook
  cases call with
  | save newId config =>
      rcases save_cases store newId config with ⟨_, _, hsame⟩ | ⟨haccepts, _, hnext⟩
      · simp only [Call.next, hsame]
        exact ⟨hp.bounded _, hp.own _⟩
      · simp only [Call.next, Call.taskId, hnext, configsOf_insert_self]
        refine ⟨keys_card_insert_le _ _ _ _ (hp.bounded _) haccepts.2.2, fun id c hlook => ?_⟩
        by_cases hid : id = config.id.getD newId
        · subst hid
          rw [Finmap.lookup_insert, Option.some.injEq] at hlook
          subst hlook
          exact ⟨rfl, rfl⟩
        · rw [Finmap.lookup_insert_of_ne _ hid] at hlook
          exact hp.own _ _ _ hlook
  | delete taskId configId =>
      simp only [Call.next, Call.taskId, configsOf_delete]
      refine ⟨(keys_card_erase_le _ _).trans (hp.bounded _), fun id c hlook => ?_⟩
      by_cases hid : id = configId
      · rw [hid, Finmap.lookup_erase] at hlook
        contradiction
      · rw [Finmap.lookup_erase_ne hid] at hlook
        exact hp.own _ _ _ hlook
  | deleteAll taskId =>
      simp only [Call.next, Call.taskId, configsOf_deleteAll]
      exact ⟨by simp, fun id c hlook => by simp at hlook⟩

theorem placed_storeAfter (calls : List Call) : Placed (storeAfter calls) := by
  induction calls with
  | nil => exact placed_new
  | cons call earlier ih => exact ih.next call

/-! ## the last save -/

/-- The store holds what was last saved and not deleted since. -/
theorem lookup_storeAfter (calls : List Call) (taskId : TaskId) (configId : String) :
    ((storeAfter calls).configsOf taskId).lookup configId = lastSaved taskId configId calls := by
  induction calls with
  | nil => simp [storeAfter, new, configsOf, lastSaved]
  | cons call earlier ih =>
      cases call with
      | save newId config =>
          simp only [storeAfter, Call.next, lastSaved]
          rcases save_cases (storeAfter earlier) newId config with
            ⟨error, hanswer, hsame⟩ | ⟨_, hanswer, hnext⟩
          · rw [hanswer, hsame, ih]
          · rw [hanswer, hnext]
            by_cases ht : config.taskId = taskId
            · subst ht
              rw [configsOf_insert_self]
              by_cases hid : config.id.getD newId = configId
              · subst hid
                simp
              · rw [Finmap.lookup_insert_of_ne _ (Ne.symm hid), ih]
                simp [hid]
            · rw [configsOf_insert_ne _ (Ne.symm ht), ih]
              simp [ht]
      | delete taskId' configId' =>
          simp only [storeAfter, Call.next, lastSaved]
          by_cases ht : taskId' = taskId
          · subst ht
            rw [configsOf_delete]
            by_cases hid : configId' = configId
            · subst hid
              simp
            · rw [Finmap.lookup_erase_ne (Ne.symm hid), ih]
              simp [hid]
          · rw [configsOf_delete_ne (Ne.symm ht), ih]
            simp [ht]
      | deleteAll taskId' =>
          simp only [storeAfter, Call.next, lastSaved]
          by_cases ht : taskId' = taskId
          · subst ht
            simp [configsOf_deleteAll]
          · rw [configsOf_deleteAll_ne (Ne.symm ht), ih]
            simp [ht]

/-! ## what `list` shows -/

theorem mem_list {taskId : TaskId} :
    config ∈ store.list taskId ↔
      ∃ configId, (store.configsOf taskId).lookup configId = some config := by
  simp only [list, Multiset.mem_map]
  constructor
  · rintro ⟨⟨configId, _⟩, hmem, rfl⟩
    exact ⟨configId, Finmap.mem_lookup_iff.mpr hmem⟩
  · rintro ⟨configId, h⟩
    exact ⟨⟨configId, config⟩, Finmap.mem_lookup_iff.mp h, rfl⟩

/-- No configuration is listed twice: its id is the key it is held under. -/
theorem Placed.nodup_list (hp : Placed store) (taskId : TaskId) : (store.list taskId).Nodup := by
  refine Multiset.Nodup.map_on ?_ (store.configsOf taskId).nodup_entries
  intro a ha b hb hab
  have hida : a.2.id = some a.1 := (hp.own taskId a.1 a.2 (Finmap.mem_lookup_iff.mpr ha)).2
  have hidb : b.2.id = some b.1 := (hp.own taskId b.1 b.2 (Finmap.mem_lookup_iff.mpr hb)).2
  have hkey : a.1 = b.1 := by
    rw [hab, hidb, Option.some.injEq] at hida
    exact hida.symm
  exact Sigma.ext hkey (heq_of_eq hab)

theorem card_list (store : InMemoryPushConfigStore) (taskId : TaskId) :
    (store.list taskId).card = (store.configsOf taskId).keys.card := by
  rw [list, Multiset.card_map, Finmap.keys, Finset.card_mk, Multiset.keys, Multiset.card_map]

/-! ## the store after any calls -/

/-- What `get` and `list` show of a store after the calls. -/
structure Tracks (store : InMemoryPushConfigStore) (calls : List Call) : Prop where
  /-- no task has more configurations than the cap -/
  bounded : ∀ taskId, (store.list taskId).card ≤ maxPushConfigsPerTask
  /-- each is under its own task and id -/
  own : ∀ taskId configId config, store.get taskId configId = .ok config →
    config.taskId = taskId ∧ config.id = some configId
  /-- `get` returns what was last saved and not deleted since -/
  last : ∀ taskId configId, store.get taskId configId =
    match lastSaved taskId configId calls with
    | some config => .ok config
    | none =>
        .error (.new ErrorCode.taskNotFound s!"push notification config not found: {configId}")
  /-- `list` has each of these once -/
  once : ∀ taskId, (store.list taskId).Nodup
  listed : ∀ taskId config, config ∈ store.list taskId ↔
    ∃ configId, lastSaved taskId configId calls = some config
  /-- a save that succeeds saves what it was given, with an id -/
  saved : ∀ newId config saved, (store.save newId config).1 = .ok saved →
    saved = { config with id := some (config.id.getD newId) }
  /-- a save that fails changes nothing that is shown -/
  refused : ∀ newId config error, (store.save newId config).1 = .error error → ∀ taskId,
    (store.save newId config).2.list taskId = store.list taskId ∧
      ∀ configId, (store.save newId config).2.get taskId configId = store.get taskId configId
  /-- a call changes nothing that is shown of another task -/
  apart : ∀ (call : Call) (taskId : TaskId), taskId ≠ call.taskId →
    (call.next store).list taskId = store.list taskId ∧
      ∀ configId, (call.next store).get taskId configId = store.get taskId configId

/-- `get` and `list` show no more of a store than what each task holds. -/
theorem shown_of_configsOf {a b : InMemoryPushConfigStore}
    (h : a.configsOf taskId = b.configsOf taskId) :
    a.list taskId = b.list taskId ∧
      ∀ configId, a.get taskId configId = b.get taskId configId := by
  constructor
  · rw [list, list, h]
  · intro configId
    rw [get_eq, get_eq, h]

/-- **The push-configuration store after any calls** shows of each task what
was last saved for it and not deleted since. -/
theorem pushConfigs_tracked (calls : List Call) : Tracks (storeAfter calls) calls where
  bounded taskId := by
    rw [card_list]
    exact (placed_storeAfter calls).bounded taskId
  own taskId configId config h := by
    rw [get_eq] at h
    cases hl : ((storeAfter calls).configsOf taskId).lookup configId with
    | none => simp [hl] at h
    | some held =>
        simp only [hl, Except.ok.injEq] at h
        subst h
        exact (placed_storeAfter calls).own _ _ _ hl
  last taskId configId := by rw [get_eq, lookup_storeAfter]
  once taskId := (placed_storeAfter calls).nodup_list taskId
  listed taskId config := by
    rw [mem_list]
    simp only [lookup_storeAfter]
  saved newId config saved h := by
    rcases save_cases (storeAfter calls) newId config with ⟨_, herr, _⟩ | ⟨_, hok, _⟩
    · rw [herr] at h
      contradiction
    · rw [hok, Except.ok.injEq] at h
      exact h.symm
  refused newId config error h taskId := by
    rcases save_cases (storeAfter calls) newId config with ⟨_, _, hsame⟩ | ⟨_, hok, _⟩
    · exact shown_of_configsOf (hsame taskId)
    · rw [hok] at h
      contradiction
  apart call taskId h := shown_of_configsOf (configsOf_next_ne call h)

end InMemoryPushConfigStore

end A2a
