import A2a.Listing
import A2a.Pbconv.RoundTrip

/-!
# A2a.Pbconv.Listing

A listing asked for over a transport.  JSON-RPC and gRPC carry the request
as protobuf (`ListTasksRequest.transported`), a REST query is read into a
request as it stands (`listTasksRequest`).

Protobuf cannot say everything a request can: `ListTasksRequest.plain` is
the request with what it cannot say read as absent, and that is the request
that is answered (`listTasks_transported`).
-/

namespace A2a

namespace ListTasksRequest

/-- The request as the other end of a transport receives it. -/
def transported (r : ListTasksRequest) : ListTasksRequest :=
  fromProtoListTasksRequest (toProtoListTasksRequest r)

/-- The request without the filters protobuf has no way to say: an empty
context or token, the state UNSPECIFIED, and a time it has no timestamp
for. -/
def plain (r : ListTasksRequest) : ListTasksRequest :=
  { r with
    contextId := r.contextId.filter (· ≠ "")
    status := r.status.filter (· ≠ .unspecified)
    pageToken := r.pageToken.filter (· ≠ "")
    statusTimestampAfter := r.statusTimestampAfter.filter DateTime.Canonical }

end ListTasksRequest

/-! ## what arrives -/

/-- A string without presence arrives unless it is empty. -/
theorem emptyToNone_getD (x : Option String) : emptyToNone (x.getD "") = x.filter (· ≠ "") := by
  cases x with
  | none => rfl
  | some s =>
      rw [Option.getD_some, emptyToNone]
      by_cases hs : s = ""
      · rw [if_pos hs, Option.filter_some_neg (by simp [hs])]
      · rw [if_neg hs, Option.filter_some_pos (by simp [hs])]

/-- A state arrives unless it is UNSPECIFIED. -/
theorem optTaskState_norm (x : Option TaskState) :
    optTaskState.norm x = x.filter (· ≠ .unspecified) := by
  cases x with
  | none => rfl
  | some s => cases s <;> rfl

/-- A time arrives if there is a timestamp for it. -/
theorem optTimestamp_norm (x : Option DateTime) :
    optTimestamp.norm x = x.filter DateTime.Canonical := by
  cases x with
  | none => rfl
  | some dt =>
      have hback : optTimestamp.norm (some dt) = if dt.Canonical then some dt else none :=
        DateTime.fromProto_toProto dt
      rw [hback]
      by_cases hc : dt.Canonical
      · rw [if_pos hc, Option.filter_some_pos (by simp [hc])]
      · rw [if_neg hc, Option.filter_some_neg (by simp [hc])]

/-- A size that does not arrive asks for pages of the same size. -/
theorem resolvePageSize_nonPositiveToNone (size : Option Int) :
    resolvePageSize (nonPositiveToNone size) = resolvePageSize size := by
  cases size with
  | none => rfl
  | some n =>
      rw [nonPositiveToNone]
      by_cases hn : 0 < n
      · rw [Option.filter_some_pos (by simp [hn])]
      · rw [Option.filter_some_neg (by simp [hn]), resolvePageSize, resolvePageSize, if_neg hn]

/-- What arrives is the request as protobuf can say it, up to the page size
and the tenant, which a listing does not read. -/
theorem ListTasksRequest.transported_eq (r : ListTasksRequest) :
    r.transported =
      { r.plain with
        pageSize := nonPositiveToNone r.pageSize
        tenant := emptyToNone (r.tenant.getD "") } :=
  ListTasksRequest.ext (emptyToNone_getD r.contextId) (optTaskState_norm r.status) rfl
    (emptyToNone_getD r.pageToken) rfl (optTimestamp_norm r.statusTimestampAfter) rfl rfl

/-- A listing reads the page size as resolved, and no tenant. -/
theorem listTasks_congr {h : Handler} {params : ServiceParams} {store : InMemoryTaskStore}
    (r : ListTasksRequest) {pageSize : Option Int} (tenant : Option String)
    (hsize : resolvePageSize pageSize = resolvePageSize r.pageSize) :
    h.listTasks params store { r with pageSize := pageSize, tenant := tenant } =
      h.listTasks params store r := by
  simp only [Handler.listTasks, hsize]
  rfl

/-! ## REST -/

/-- The query of a listing, its numbers, flags and times read. -/
structure ListTasksQuery where
  contextId : Option String
  status : Option String
  pageSize : Option Int
  pageToken : Option String
  historyLength : Option Int
  statusTimestampAfter : Option DateTime
  includeArtifacts : Option Bool

/-- `TaskState::deserialize`. -/
def TaskState.deserialize (s : String) : Option TaskState :=
  if s = "TASK_STATE_SUBMITTED" then some .submitted
  else if s = "TASK_STATE_WORKING" then some .working
  else if s = "TASK_STATE_COMPLETED" then some .completed
  else if s = "TASK_STATE_FAILED" then some .failed
  else if s = "TASK_STATE_CANCELED" then some .canceled
  else if s = "TASK_STATE_INPUT_REQUIRED" then some .inputRequired
  else if s = "TASK_STATE_REJECTED" then some .rejected
  else if s = "TASK_STATE_AUTH_REQUIRED" then some .authRequired
  else if s = "TASK_STATE_UNSPECIFIED" ∨ s = "" then some .unspecified
  else none

/-- The state a query filters by. -/
def ListTasksQuery.statusFilter (query : ListTasksQuery) : Except A2AError (Option TaskState) :=
  match query.status with
  | some s => match TaskState.deserialize s with
    | some .unspecified => .ok none
    | some state => .ok (some state)
    | none => .error (.invalidParams "invalid status filter")
  | none => .ok none

/-- The request `handle_list_tasks` makes of a query. -/
def listTasksRequest (tenant : Option String) (query : ListTasksQuery) :
    Except A2AError ListTasksRequest :=
  match query.statusFilter with
  | .error error => .error error
  | .ok status =>
      .ok {
        contextId := query.contextId
        status := status
        pageSize := query.pageSize
        pageToken := query.pageToken
        historyLength := query.historyLength
        statusTimestampAfter := query.statusTimestampAfter
        includeArtifacts := query.includeArtifacts
        tenant := tenant }

theorem statusFilter_ne_unspecified {query : ListTasksQuery} {status : Option TaskState}
    (h : query.statusFilter = .ok status) : status ≠ some .unspecified := by
  rw [ListTasksQuery.statusFilter] at h
  split at h
  · split at h
    · obtain rfl := Except.ok.inj h
      exact nofun
    · next hne _ =>
      obtain rfl := Except.ok.inj h
      exact fun hst => hne (Option.some.inj hst)
    · contradiction
  · obtain rfl := Except.ok.inj h
    exact nofun

/-- A query is never read as a filter for UNSPECIFIED. -/
theorem listTasksRequest_status {tenant : Option String} {query : ListTasksQuery}
    {r : ListTasksRequest} (h : listTasksRequest tenant query = .ok r) :
    r.status ≠ some .unspecified := by
  rw [listTasksRequest] at h
  split at h
  · contradiction
  · next hstatus =>
    obtain rfl := Except.ok.inj h
    exact statusFilter_ne_unspecified hstatus

/-! ## what is answered -/

theorem filter_eq_self_iff {α : Type} {p : α → Bool} {x : Option α} :
    x.filter p = x ↔ ∀ a, x = some a → p a = true := by
  cases x with
  | none => simp
  | some a =>
      cases hp : p a with
      | true => simp [Option.filter_some_pos hp, hp]
      | false => simp [Option.filter_some_neg hp, hp]

/-- The requests protobuf can say in full. -/
theorem ListTasksRequest.plain_eq_self_iff {r : ListTasksRequest} :
    r.plain = r ↔ r.contextId ≠ some "" ∧ r.status ≠ some .unspecified ∧ r.pageToken ≠ some "" ∧
      ∀ after, r.statusTimestampAfter = some after → after.Canonical := by
  constructor
  · intro h
    have hcontext := filter_eq_self_iff.mp (congrArg ListTasksRequest.contextId h)
    have hstatus := filter_eq_self_iff.mp (congrArg ListTasksRequest.status h)
    have htoken := filter_eq_self_iff.mp (congrArg ListTasksRequest.pageToken h)
    have hafter := filter_eq_self_iff.mp (congrArg ListTasksRequest.statusTimestampAfter h)
    exact ⟨fun hc => absurd (hcontext _ hc) (by simp), fun hs => absurd (hstatus _ hs) (by simp),
      fun ht => absurd (htoken _ ht) (by simp), fun after ha => by simpa using hafter after ha⟩
  · rintro ⟨hcontext, hstatus, htoken, hafter⟩
    have hc : r.contextId.filter (· ≠ "") = r.contextId :=
      filter_eq_self_iff.mpr fun a ha => by
        rw [ha] at hcontext
        simpa using hcontext
    have hs : r.status.filter (· ≠ .unspecified) = r.status :=
      filter_eq_self_iff.mpr fun a ha => by
        rw [ha] at hstatus
        simpa using hstatus
    have ht : r.pageToken.filter (· ≠ "") = r.pageToken :=
      filter_eq_self_iff.mpr fun a ha => by
        rw [ha] at htoken
        simpa using htoken
    have ha : r.statusTimestampAfter.filter DateTime.Canonical = r.statusTimestampAfter :=
      filter_eq_self_iff.mpr fun a ha => by simpa using hafter a ha
    exact ListTasksRequest.ext hc hs rfl ht rfl ha rfl rfl

/-- **A transport answers the request as protobuf can say it**: the request
itself, unless it filters by an empty context or token, by UNSPECIFIED or
by a time no timestamp has.  A REST query never filters by UNSPECIFIED. -/
theorem listTasks_transported :
    (∀ (h : Handler) (params : ServiceParams) (store : InMemoryTaskStore) (r : ListTasksRequest),
      h.listTasks params store r.transported = h.listTasks params store r.plain) ∧
    (∀ r : ListTasksRequest, r.plain = r ↔
      r.contextId ≠ some "" ∧ r.status ≠ some .unspecified ∧ r.pageToken ≠ some "" ∧
        ∀ after, r.statusTimestampAfter = some after → after.Canonical) ∧
    ∀ (tenant : Option String) (query : ListTasksQuery) (r : ListTasksRequest),
      listTasksRequest tenant query = .ok r → r.status ≠ some .unspecified := by
  refine ⟨?_, fun _ => ListTasksRequest.plain_eq_self_iff, fun _ _ _ => listTasksRequest_status⟩
  intro h params store r
  rw [ListTasksRequest.transported_eq]
  exact listTasks_congr r.plain _ (resolvePageSize_nonPositiveToNone r.pageSize)

/-- A query for all tasks that names the state UNSPECIFIED. -/
def unspecifiedQuery : ListTasksQuery :=
  ⟨none, some "TASK_STATE_UNSPECIFIED", none, none, none, none, none⟩

/-- It filters by no state, and protobuf says it in full. -/
theorem listTasks_transported_query : ∃ r, listTasksRequest none unspecifiedQuery = .ok r ∧
    r.status ≠ some .unspecified ∧ r.plain = r ∧
      Handler.new.listTasks ∅ (.new none) r.transported = Handler.new.listTasks ∅ (.new none) r := by
  have hread : listTasksRequest none unspecifiedQuery =
      .ok ⟨none, none, none, none, none, none, none, none⟩ := rfl
  have hplain := (listTasks_transported.2.1 ⟨none, none, none, none, none, none, none, none⟩).mpr
    ⟨by simp, by simp, by simp, by simp⟩
  refine ⟨_, hread, listTasks_transported.2.2 none unspecifiedQuery _ hread, hplain, ?_⟩
  rw [listTasks_transported.1, hplain]

/-- A listing of the empty context. -/
def emptyContext : ListTasksRequest := ⟨some "", none, none, none, none, none, none, none⟩

/-- One task, in the context "c". -/
def oneTask : InMemoryTaskStore :=
  ((InMemoryTaskStore.new none).create (makeTask "t" "c" .working)).2

theorem get_oneTask {id : TaskId} {task : Task} (h : oneTask.get id = some task) :
    task = makeTask "t" "c" .working := by
  obtain ⟨hstored, _⟩ | ⟨_, store', hcreate, hwrote⟩ :=
    InMemoryTaskStore.create_cases (.new none) (makeTask "t" "c" .working)
  · exact absurd (InMemoryTaskStore.get_new none _) hstored
  · have hone : oneTask = store' := congrArg Prod.snd hcreate
    rw [hone] at h
    obtain ⟨_, htask⟩ | ⟨_, hold⟩ := hwrote.of_get h
    · exact htask
    · rw [InMemoryTaskStore.get_new] at hold
      contradiction

/-- No task is in that context, and none is listed; over a transport the
one there is, is. -/
theorem emptyContext_widened :
    (∃ page, Handler.new.listTasks ∅ oneTask emptyContext = .ok page ∧ page.tasks = []) ∧
      ∃ page, Handler.new.listTasks ∅ oneTask emptyContext.transported = .ok page ∧
        makeTask "t" "c" .working ∈ page.tasks := by
  constructor
  · have hnone : oneTask.filtered emptyContext = [] := by
      rw [List.eq_nil_iff_forall_not_mem]
      intro task hmem
      obtain ⟨hget, hlisted⟩ := mem_filtered.mp hmem
      rw [get_oneTask hget] at hlisted
      exact absurd hlisted (by decide)
    have hpage : Handler.new.listTasks ∅ oneTask emptyContext =
        .ok (taskPage (oneTask.filtered emptyContext) (shown emptyContext)
          (resolvePageSize emptyContext.pageSize) 0) :=
      listTasks_of_readToken emptyContext none rfl rfl
    refine ⟨_, hpage, ?_⟩
    rw [hnone]
    rfl
  · have hmem : makeTask "t" "c" .working ∈ oneTask.filtered emptyContext.transported :=
      mem_filtered.mpr ⟨rfl, by decide⟩
    have hpage : Handler.new.listTasks ∅ oneTask emptyContext.transported =
        .ok (taskPage (oneTask.filtered emptyContext.transported) (shown emptyContext.transported)
          (resolvePageSize emptyContext.transported.pageSize) 0) :=
      listTasks_of_readToken emptyContext.transported none rfl rfl
    refine ⟨_, hpage, ?_⟩
    have hshort : (oneTask.filtered emptyContext.transported).length ≤
        resolvePageSize emptyContext.transported.pageSize :=
      (length_filtered_le _ _).trans (by decide)
    rw [taskPage_tasks, Paging.cut, List.drop_zero, List.take_of_length_le hshort]
    exact List.mem_map.mpr ⟨_, hmem, rfl⟩

end A2a
