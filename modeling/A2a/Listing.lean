import A2a.Handler
import A2a.Paging
import Mathlib.Data.List.Sort

/-!
# A2a.Listing

The two list endpoints of the handler, `list_tasks` and
`list_push_configs`.  Both cut their pages at offsets; the first leaves the
cutting to the store and bounds the result again, the second sorts and cuts
what the store lists.

Both serve offsets (`Paging.Offsets`), so `paging_complete` follows from
`Paging.follow_offsets`.
-/

namespace A2a

/-- A push-configuration store as `list_push_configs` sees it: what its
`list` answers for a task. -/
abbrev PushConfigLister := TaskId → Except A2AError (List TaskPushNotificationConfig)

/-- `Option<String>` in its derived order: `None` comes first. -/
def idLe : Option String → Option String → Bool
  | none, _ => true
  | some _, none => false
  | some a, some b => decide (a ≤ b)

/-- A listed task as the handler shows it: history cut, artifacts only on
request. -/
def shown (req : ListTasksRequest) (task : Task) : Task :=
  let task := applyHistoryLength task req.historyLength
  if req.includeArtifacts = some true then task else { task with artifacts := none }

namespace Handler

/-- `list_tasks`. -/
def listTasks (h : Handler) (params : ServiceParams) (store : InMemoryTaskStore)
    (req : ListTasksRequest) : Except A2AError ListTasksResponse :=
  match h.authorize params none with
  | .error error => .error error
  | .ok _ =>
      let pageSize := resolvePageSize req.pageSize
      match store.list { req with pageSize := some (asI32 pageSize) } with
      | .error error => .error error
      | .ok response =>
          .ok { response with tasks := (response.tasks.take pageSize).map (shown req) }

/-- `push_config_store_checked`. -/
def pushConfigStoreChecked (h : Handler) (store : Option PushConfigLister) :
    Except A2AError PushConfigLister :=
  match h.requirePushNotifications with
  | .error error => .error error
  | .ok _ =>
      match store with
      | none => .error .pushNotificationNotSupported
      | some store => .ok store

/-- `list_push_configs`. -/
def listPushConfigs (h : Handler) (params : ServiceParams) (store : Option PushConfigLister)
    (req : ListTaskPushNotificationConfigsRequest) :
    Except A2AError ListTaskPushNotificationConfigsResponse :=
  match h.authorize params (some req.taskId) with
  | .error error => .error error
  | .ok _ =>
      match h.pushConfigStoreChecked store with
      | .error error => .error error
      | .ok store =>
          match store req.taskId with
          | .error error => .error error
          | .ok configs =>
              let configs := configs.mergeSort fun left right => idLe left.id right.id
              let pageSize := resolvePageSize req.pageSize
              let start := match req.pageToken with
                | some token => parseUsize token
                | none => some 0
              match start with
              | none => .error (.invalidParams "invalid page token")
              | some start =>
                  let start := min start configs.length
                  let stop := min (start + pageSize) configs.length
                  .ok {
                    configs := (configs.take stop).drop start
                    nextPageToken := if stop < configs.length then some (toString stop) else none }

end Handler

/-- The token a page of tasks names: the empty string is none. -/
def ListTasksResponse.next (response : ListTasksResponse) : Option String :=
  if response.nextPageToken = "" then none else some response.nextPageToken

/-! ## tokens -/

theorem toString_ne_empty (n : Nat) : toString n ≠ "" := by
  rw [Nat.toString_eq_repr]
  exact Nat.repr_ne_empty

theorem resolvePageSize_pos (size : Option Int) : 0 < resolvePageSize size := by
  cases size with
  | none => decide
  | some size =>
      simp only [resolvePageSize]
      split
      · simp only [maxPageSize]
        omega
      · decide

theorem resolvePageSize_le (size : Option Int) : resolvePageSize size ≤ maxPageSize := by
  cases size with
  | none => decide
  | some size =>
      simp only [resolvePageSize]
      split
      · exact Nat.min_le_right _ _
      · decide

/-- Resolving a resolved size changes nothing, so the store cuts the pages
the handler asked for. -/
theorem resolvePageSize_resolved (size : Option Int) :
    resolvePageSize (some (asI32 (resolvePageSize size))) = resolvePageSize size := by
  have hpos := resolvePageSize_pos size
  have hle : resolvePageSize size ≤ maxPageSize := resolvePageSize_le size
  generalize resolvePageSize size = n at hpos hle
  have hn : n < 2 ^ 31 := Nat.lt_of_le_of_lt hle (by decide)
  rw [asI32_of_lt hn, resolvePageSize, if_pos (Int.natCast_pos.mpr hpos), Int.toNat_natCast]
  exact Nat.min_eq_left hle

/-! ## pages -/

/-- A page between two bounded offsets is a cut of the list. -/
theorem take_drop_eq_cut {α : Type} (xs : List α) (start size : Nat) :
    (xs.take (min (min start xs.length + size) xs.length)).drop (min start xs.length) =
      Paging.cut xs start size := by
  rw [Paging.cut, List.drop_take]
  by_cases hstart : start ≤ xs.length
  · rw [Nat.min_eq_left hstart, List.take_eq_take_iff, List.length_drop]
    omega
  · have hend : xs.length ≤ start := Nat.le_of_not_le hstart
    rw [Nat.min_eq_right hend, List.drop_of_length_le hend, List.drop_length, List.take_nil,
      List.take_nil]

/-- More items follow a page just when they follow its cut, and its token
then names the end of the cut. -/
theorem stop_lt_iff (length start size : Nat) (hsize : 0 < size) :
    (min (min start length + size) length < length ↔ start + size < length) ∧
      (start + size < length → min (min start length + size) length = start + size) := by
  constructor <;> omega

/-- The offset a page token stands for. -/
def readToken : Option String → Option Nat
  | some token => parseUsize token
  | none => some 0

/-! ## tasks -/

/-- **Capping a history twice is capping it once.** -/
theorem applyHistoryLength_twice (task : Task) (n : Option Int) :
    applyHistoryLength (applyHistoryLength task n) n = applyHistoryLength task n := by
  cases n with
  | none => rfl
  | some n =>
      simp only [applyHistoryLength, Option.map_map, Task.mk.injEq, true_and, and_true]
      congr 1
      funext history
      simp only [Function.comp_apply, List.drop_drop, List.length_drop]
      congr 1
      omega

/-- The cap of the store is not noticed by the handler's. -/
theorem shown_capped (req : ListTasksRequest) (task : Task) :
    shown req (applyHistoryLength task req.historyLength) = shown req task := by
  simp only [shown, applyHistoryLength_twice]

variable {h : Handler} {params : ServiceParams} {store : InMemoryTaskStore}
  {req : ListTasksRequest} {start : Nat}

/-- The tasks a request asks for, in the store's order. -/
def InMemoryTaskStore.filtered (store : InMemoryTaskStore) (req : ListTasksRequest) : List Task :=
  store.values.filter (InMemoryTaskStore.listed req)

/-- The page of `tasks` at an offset, each shown as `display` says. -/
def taskPage (tasks : List Task) (display : Task → Task) (size start : Nat) : ListTasksResponse where
  tasks := (Paging.cut tasks start size).map display
  nextPageToken := if start + size < tasks.length then toString (start + size) else ""
  pageSize := asI32 size
  totalSize := asI32 tasks.length

@[simp] theorem taskPage_tasks (tasks : List Task) (display : Task → Task) (size start : Nat) :
    (taskPage tasks display size start).tasks = (Paging.cut tasks start size).map display := rfl

theorem taskPage_totalSize (tasks : List Task) (display : Task → Task) (size start : Nat) :
    (taskPage tasks display size start).totalSize = asI32 tasks.length := by rw [taskPage]

/-- What `list` answers once the token is read. -/
theorem list_of_readToken (req : ListTasksRequest) (hread : readToken req.pageToken = some start) :
    store.list req = .ok (taskPage (store.filtered req) (applyHistoryLength · req.historyLength)
      (resolvePageSize req.pageSize) start) := by
  obtain ⟨hlt, hstop⟩ := stop_lt_iff (store.filtered req).length start
    (resolvePageSize req.pageSize) (resolvePageSize_pos _)
  have hlist : store.list req = .ok {
      tasks := (((store.filtered req).take (min (min start (store.filtered req).length +
        resolvePageSize req.pageSize) (store.filtered req).length)).drop
          (min start (store.filtered req).length)).map (applyHistoryLength · req.historyLength)
      nextPageToken := if min (min start (store.filtered req).length +
          resolvePageSize req.pageSize) (store.filtered req).length < (store.filtered req).length
        then toString (min (min start (store.filtered req).length +
          resolvePageSize req.pageSize) (store.filtered req).length) else ""
      pageSize := asI32 (resolvePageSize req.pageSize)
      totalSize := asI32 (store.filtered req).length } := by
    cases ht : req.pageToken with
    | none =>
        rw [ht] at hread
        obtain rfl := Option.some.inj hread
        simp only [InMemoryTaskStore.list, ht]
        rfl
    | some token =>
        rw [ht, readToken] at hread
        simp only [InMemoryTaskStore.list, ht, hread]
        rfl
  rw [hlist, take_drop_eq_cut, taskPage]
  by_cases hmore : start + resolvePageSize req.pageSize < (store.filtered req).length
  · rw [if_pos (hlt.mpr hmore), if_pos hmore, hstop hmore]
  · rw [if_neg (fun hc => hmore (hlt.mp hc)), if_neg hmore]

/-- What `list_tasks` answers an allowed caller. -/
theorem listTasks_of_readToken (req : ListTasksRequest) (token : Option String)
    (hauth : h.authorize params none = .ok ()) (hread : readToken token = some start) :
    h.listTasks params store { req with pageToken := token } =
      .ok (taskPage (store.filtered req) (shown req) (resolvePageSize req.pageSize) start) := by
  have hlist : store.list { req with
      pageToken := token, pageSize := some (asI32 (resolvePageSize req.pageSize)) } =
        .ok (taskPage (store.filtered req) (applyHistoryLength · req.historyLength)
          (resolvePageSize (some (asI32 (resolvePageSize req.pageSize)))) start) :=
    list_of_readToken { req with
      pageToken := token, pageSize := some (asI32 (resolvePageSize req.pageSize)) } hread
  rw [resolvePageSize_resolved] at hlist
  have hlen : ((Paging.cut (store.filtered req) start (resolvePageSize req.pageSize)).map
      (applyHistoryLength · req.historyLength)).length ≤ resolvePageSize req.pageSize := by
    rw [List.length_map, Paging.cut]
    exact List.length_take_le _ _
  simp only [Handler.listTasks, hauth, hlist, taskPage]
  rw [List.take_of_length_le hlen, List.map_map]
  congr 3
  funext task
  exact shown_capped req task

theorem map_cut {α β : Type} (f : α → β) (xs : List α) (start size : Nat) :
    (Paging.cut xs start size).map f = Paging.cut (xs.map f) start size := by
  rw [Paging.cut, List.map_take, List.map_drop, Paging.cut]

theorem length_cut_le {α : Type} (xs : List α) (start size : Nat) :
    (Paging.cut xs start size).length ≤ size := List.length_take_le _ _

/-- `list_tasks` serves the filtered tasks at offsets. -/
theorem offsets_tasks (hauth : h.authorize params none = .ok ())
    (hsmall : (store.filtered req).length < 2 ^ 31) :
    Paging.Offsets (fun token => h.listTasks params store { req with pageToken := token })
      ListTasksResponse.next (·.tasks) ((store.filtered req).map (shown req))
      (resolvePageSize req.pageSize) (fun token start => readToken token = some start) where
  page token start hread := by
    refine ⟨_, listTasks_of_readToken req token hauth hread, map_cut (shown req) _ start _, ?_⟩
    rw [List.length_map]
    by_cases hmore : start + resolvePageSize req.pageSize < (store.filtered req).length
    · right
      refine ⟨toString (start + resolvePageSize req.pageSize), ?_, ?_, hmore⟩
      · rw [ListTasksResponse.next, taskPage, if_pos hmore, if_neg (toString_ne_empty _)]
      · exact parseUsize_toString (by omega)
    · left
      rw [ListTasksResponse.next, taskPage, if_neg hmore]
      exact ⟨if_pos rfl, Nat.le_of_not_lt hmore⟩

theorem length_filtered_le (store : InMemoryTaskStore) (req : ListTasksRequest) :
    (store.filtered req).length ≤ store.tasks.entries.keys.card :=
  calc (store.filtered req).length
      ≤ store.values.length := List.length_filter_le _ _
    _ ≤ (store.tasks.entries.keys.sort (· ≤ ·)).length := List.length_filterMap_le _ _
    _ = store.tasks.entries.keys.card := Finset.length_sort _

/-- The stored tasks are the values in the order of their ids, each once. -/
theorem values_sorted (store : InMemoryTaskStore) : store.values.Pairwise (·.id < ·.id) := by
  have hkeys : (store.tasks.entries.keys.sort (· ≤ ·)).Pairwise (· < ·) :=
    (store.tasks.entries.keys.sortedLT_sort).pairwise
  rw [InMemoryTaskStore.values, List.pairwise_filterMap]
  refine hkeys.imp ?_
  intro a b hab x hx y hy
  rw [InMemoryTaskStore.get_id hx, InMemoryTaskStore.get_id hy]
  exact hab

theorem mem_filtered {task : Task} :
    task ∈ store.filtered req ↔
      store.get task.id = some task ∧ InMemoryTaskStore.listed req task = true := by
  rw [InMemoryTaskStore.filtered, List.mem_filter, InMemoryTaskStore.values, List.mem_filterMap]
  constructor
  · rintro ⟨⟨id, _, hid⟩, hlisted⟩
    rw [InMemoryTaskStore.get_id hid]
    exact ⟨hid, hlisted⟩
  · rintro ⟨hget, hlisted⟩
    have hkey : task.id ∈ store.tasks.entries.keys := by
      rw [Finmap.mem_keys, ← Finmap.lookup_isSome]
      cases hl : store.tasks.entries.lookup task.id with
      | none => rw [InMemoryTaskStore.get_eq_none.mpr hl] at hget; contradiction
      | some entry => rfl
    exact ⟨⟨task.id, (Finset.mem_sort _).mpr hkey, hget⟩, hlisted⟩

@[simp] theorem shown_id (req : ListTasksRequest) (task : Task) : (shown req task).id = task.id := by
  simp only [shown]
  split <;> simp

/-! ## push configurations -/

variable {preq : ListTaskPushNotificationConfigsRequest} {lister : PushConfigLister}
  {configs : List TaskPushNotificationConfig}

/-- The configurations in the order of their ids. -/
def sortedConfigs (configs : List TaskPushNotificationConfig) : List TaskPushNotificationConfig :=
  configs.mergeSort fun left right => idLe left.id right.id

/-- The page of `configs` at an offset. -/
def pushConfigPage (configs : List TaskPushNotificationConfig) (size start : Nat) :
    ListTaskPushNotificationConfigsResponse where
  configs := Paging.cut configs start size
  nextPageToken := if start + size < configs.length then some (toString (start + size)) else none

/-- What `list_push_configs` answers an allowed caller. -/
theorem listPushConfigs_of_readToken (preq : ListTaskPushNotificationConfigsRequest)
    (hauth : h.authorize params (some preq.taskId) = .ok ())
    (hpush : h.requirePushNotifications = .ok ()) (hlist : lister preq.taskId = .ok configs)
    (hread : readToken preq.pageToken = some start) :
    h.listPushConfigs params (some lister) preq =
      .ok (pushConfigPage (sortedConfigs configs) (resolvePageSize preq.pageSize) start) := by
  obtain ⟨hlt, hstop⟩ := stop_lt_iff (sortedConfigs configs).length start
    (resolvePageSize preq.pageSize) (resolvePageSize_pos _)
  have hpage : h.listPushConfigs params (some lister) preq = .ok {
      configs := ((sortedConfigs configs).take (min (min start (sortedConfigs configs).length +
        resolvePageSize preq.pageSize) (sortedConfigs configs).length)).drop
          (min start (sortedConfigs configs).length)
      nextPageToken := if min (min start (sortedConfigs configs).length +
          resolvePageSize preq.pageSize) (sortedConfigs configs).length <
            (sortedConfigs configs).length
        then some (toString (min (min start (sortedConfigs configs).length +
          resolvePageSize preq.pageSize) (sortedConfigs configs).length)) else none } := by
    cases ht : preq.pageToken with
    | none =>
        rw [ht] at hread
        obtain rfl := Option.some.inj hread
        simp only [Handler.listPushConfigs, Handler.pushConfigStoreChecked, hauth, hpush, hlist, ht]
        rfl
    | some token =>
        rw [ht, readToken] at hread
        simp only [Handler.listPushConfigs, Handler.pushConfigStoreChecked, hauth, hpush, hlist, ht,
          hread]
        rfl
  rw [hpage, take_drop_eq_cut, pushConfigPage]
  by_cases hmore : start + resolvePageSize preq.pageSize < (sortedConfigs configs).length
  · rw [if_pos (hlt.mpr hmore), if_pos hmore, hstop hmore]
  · rw [if_neg (fun hc => hmore (hlt.mp hc)), if_neg hmore]

/-- `list_push_configs` serves the sorted configurations at offsets. -/
theorem offsets_pushConfigs (hauth : h.authorize params (some preq.taskId) = .ok ())
    (hpush : h.requirePushNotifications = .ok ()) (hlist : lister preq.taskId = .ok configs)
    (hsmall : configs.length < 2 ^ 64) :
    Paging.Offsets
      (fun token => h.listPushConfigs params (some lister) { preq with pageToken := token })
      (·.nextPageToken) (·.configs) (sortedConfigs configs) (resolvePageSize preq.pageSize)
      (fun token start => readToken token = some start) where
  page token start hread := by
    have hpage := listPushConfigs_of_readToken { preq with pageToken := token }
      hauth hpush hlist hread
    refine ⟨_, hpage, rfl, ?_⟩
    by_cases hmore : start + resolvePageSize preq.pageSize < (sortedConfigs configs).length
    · right
      refine ⟨toString (start + resolvePageSize preq.pageSize), if_pos hmore, ?_, hmore⟩
      have hlen : (sortedConfigs configs).length = configs.length := List.length_mergeSort _
      exact parseUsize_toString (by omega)
    · left
      exact ⟨if_neg hmore, Nat.le_of_not_lt hmore⟩

theorem idLe_trans (a b c : Option String) (hab : idLe a b = true) (hbc : idLe b c = true) :
    idLe a c = true := by
  cases a with
  | none => rfl
  | some a =>
      cases b with
      | none => contradiction
      | some b =>
          cases c with
          | none => contradiction
          | some c =>
              simp only [idLe, decide_eq_true_eq] at hab hbc ⊢
              exact le_trans hab hbc

theorem idLe_total (a b : Option String) : (idLe a b || idLe b a) = true := by
  cases a with
  | none => rfl
  | some a =>
      cases b with
      | none => rfl
      | some b =>
          simp only [idLe, Bool.or_eq_true, decide_eq_true_eq]
          exact le_total a b

theorem sortedConfigs_pairwise (configs : List TaskPushNotificationConfig) :
    (sortedConfigs configs).Pairwise fun left right => idLe left.id right.id = true := by
  apply List.pairwise_mergeSort
  · intro a b c
    exact idLe_trans a.id b.id c.id
  · intro a b
    exact idLe_total a.id b.id

/-! ## completeness -/

/-- The pages of `list_tasks` that follow from the first one. -/
def Handler.taskPages (h : Handler) (params : ServiceParams) (store : InMemoryTaskStore)
    (req : ListTasksRequest) (fuel : Nat) : Option (List ListTasksResponse) :=
  Paging.follow (fun token => h.listTasks params store { req with pageToken := token })
    ListTasksResponse.next fuel none

/-- The pages of `list_push_configs` that follow from the first one. -/
def Handler.pushConfigPages (h : Handler) (params : ServiceParams) (lister : PushConfigLister)
    (req : ListTaskPushNotificationConfigsRequest) (fuel : Nat) :
    Option (List ListTaskPushNotificationConfigsResponse) :=
  Paging.follow (fun token => h.listPushConfigs params (some lister) { req with pageToken := token })
    (·.nextPageToken) fuel none

/-- The pages of an unchanged store show each filtered task once, in order. -/
theorem taskPages_complete (req : ListTasksRequest)
    (hauth : h.authorize params none = .ok ())
    (hsmall : store.tasks.entries.keys.card < 2 ^ 31) :
    ∃ fuel pages, h.taskPages params store req fuel = some pages ∧
      pages.flatMap (·.tasks) = (store.filtered req).map (shown req) ∧
      ∀ page ∈ pages, page.tasks.length ≤ resolvePageSize req.pageSize ∧
        page.totalSize = (store.filtered req).length := by
  have hlen : (store.filtered req).length < 2 ^ 31 :=
    Nat.lt_of_le_of_lt (length_filtered_le store req) hsmall
  have hoffsets := offsets_tasks hauth hlen
  obtain ⟨pages, hfollow, hconcat, hserved⟩ := Paging.follow_offsets hoffsets
    (resolvePageSize_pos _) (((store.filtered req).map (shown req)).length + 1) none 0 rfl (by omega)
  refine ⟨_, pages, hfollow, hconcat, ?_⟩
  intro page hp
  obtain ⟨token, start, hread, hserve⟩ := hserved page hp
  obtain rfl := Except.ok.inj (hserve.symm.trans (listTasks_of_readToken req token hauth hread))
  rw [taskPage_tasks, taskPage_totalSize, List.length_map, asI32_of_lt hlen]
  exact ⟨length_cut_le _ _ _, rfl⟩

/-- The pages of an unchanged list show each configuration once, in order. -/
theorem pushConfigPages_complete (hauth : h.authorize params (some preq.taskId) = .ok ())
    (hpush : h.requirePushNotifications = .ok ()) (hlist : lister preq.taskId = .ok configs)
    (hsmall : configs.length < 2 ^ 64) :
    ∃ fuel pages, h.pushConfigPages params lister preq fuel = some pages ∧
      pages.flatMap (·.configs) = sortedConfigs configs ∧
      ∀ page ∈ pages, page.configs.length ≤ resolvePageSize preq.pageSize := by
  have hoffsets := offsets_pushConfigs hauth hpush hlist hsmall
  obtain ⟨pages, hfollow, hconcat, hserved⟩ := Paging.follow_offsets hoffsets
    (resolvePageSize_pos _) ((sortedConfigs configs).length + 1) none 0 rfl (by omega)
  refine ⟨_, pages, hfollow, hconcat, ?_⟩
  intro page hp
  obtain ⟨token, start, hread, hserve⟩ := hserved page hp
  have hpage := listPushConfigs_of_readToken { preq with pageToken := token }
    hauth hpush hlist hread
  obtain rfl := Except.ok.inj (hserve.symm.trans hpage)
  exact length_cut_le _ _ _

/-- **Pagination is complete and repeats nothing.**  Following the tokens of
an unchanged store of fewer than 2^31 tasks, or of an unchanged list of push
configurations (a `Vec`, so shorter than 2^64), ends, and the pages are the
filtered tasks in the order of their ids, the configurations in the order of
theirs; no page is longer than the resolved size, which is at most the
maximum, and each page of tasks reports the size of the whole.  The handler's
second cap of the histories changes nothing. -/
theorem paging_complete (h : Handler) (params : ServiceParams) :
    (∀ (store : InMemoryTaskStore) (req : ListTasksRequest), h.authorize params none = .ok () →
      store.tasks.entries.keys.card < 2 ^ 31 →
      ∃ fuel pages, h.taskPages params store req fuel = some pages ∧
        pages.flatMap (·.tasks) = (store.filtered req).map (shown req) ∧
        (∀ task, task ∈ store.filtered req ↔
          store.get task.id = some task ∧ InMemoryTaskStore.listed req task = true) ∧
        (pages.flatMap (·.tasks)).Pairwise (·.id < ·.id) ∧
        ∀ page ∈ pages, page.tasks.length ≤ resolvePageSize req.pageSize ∧
          page.totalSize = (store.filtered req).length) ∧
    (∀ (lister : PushConfigLister) (req : ListTaskPushNotificationConfigsRequest)
      (configs : List TaskPushNotificationConfig),
      h.authorize params (some req.taskId) = .ok () → h.requirePushNotifications = .ok () →
      lister req.taskId = .ok configs → configs.length < 2 ^ 64 →
      ∃ fuel pages, h.pushConfigPages params lister req fuel = some pages ∧
        (pages.flatMap (·.configs)).Perm configs ∧
        (pages.flatMap (·.configs)).Pairwise (fun left right => idLe left.id right.id = true) ∧
        ∀ page ∈ pages, page.configs.length ≤ resolvePageSize req.pageSize) ∧
    (∀ size : Option Int, resolvePageSize size ≤ 100) ∧
    ∀ (task : Task) (n : Option Int),
      applyHistoryLength (applyHistoryLength task n) n = applyHistoryLength task n := by
  refine ⟨?_, ?_, resolvePageSize_le, applyHistoryLength_twice⟩
  · intro store req hauth hsmall
    obtain ⟨fuel, pages, hfollow, hconcat, hpages⟩ :=
      taskPages_complete req hauth hsmall
    refine ⟨fuel, pages, hfollow, hconcat, fun _ => mem_filtered, ?_, hpages⟩
    rw [hconcat, List.pairwise_map]
    simp only [shown_id]
    exact (values_sorted store).filter _
  · intro lister req configs hauth hpush hlist hsmall
    obtain ⟨fuel, pages, hfollow, hconcat, hpages⟩ :=
      pushConfigPages_complete hauth hpush hlist hsmall
    refine ⟨fuel, pages, hfollow, ?_, ?_, hpages⟩
    · rw [hconcat]
      exact List.mergeSort_perm configs _
    · rw [hconcat]
      exact sortedConfigs_pairwise configs

/-- Three tasks, two of them in the context asked for. -/
def threeTasks : InMemoryTaskStore :=
  (((InMemoryTaskStore.new none).create (makeTask "t" "c" .working)).2.create
    (makeTask "u" "d" .working)).2.create (makeTask "v" "c" .completed) |>.2

/-- A page holds one of the two tasks. -/
theorem paging_complete_three :
    ∃ fuel pages, Handler.new.taskPages ∅ threeTasks
        ⟨some "c", none, some 1, none, none, none, none, none⟩ fuel = some pages ∧
      (∀ page ∈ pages, page.tasks.length ≤ 1) ∧
      makeTask "t" "c" .working ∈ pages.flatMap (·.tasks) ∧
      makeTask "v" "c" .completed ∈ pages.flatMap (·.tasks) := by
  have hpages := (paging_complete Handler.new ∅).1 threeTasks
    ⟨some "c", none, some 1, none, none, none, none, none⟩ rfl (by decide)
  obtain ⟨fuel, pages, hfollow, hconcat, hmem, _, hpage⟩ := hpages
  refine ⟨fuel, pages, hfollow, fun page hp => (hpage page hp).1, ?_, ?_⟩
  · rw [hconcat]
    exact List.mem_map.mpr ⟨_, (hmem (makeTask "t" "c" .working)).mpr ⟨rfl, by decide⟩, rfl⟩
  · rw [hconcat]
    exact List.mem_map.mpr ⟨_, (hmem (makeTask "v" "c" .completed)).mpr ⟨rfl, by decide⟩, rfl⟩

end A2a
