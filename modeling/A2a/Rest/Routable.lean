import A2a.Rest.Dispatch

/-!
# A2a.Rest.Routable

Which requests of the client arrive: a `Routable` one does, and no other.

A call that arrives is `Addressed`, so its ids are no dots and not empty.
What remains is a tenant `tasks`, whose paths some routes spell out; where
they do, another operation is called, or none.
-/

namespace A2a

/-! ## the ids of a call that arrives -/

theorem addressed_of_dispatch {request : RestRequest} {call : RestCall}
    (h : dispatch request = .ok call) : Addressed (urlSegments request.path) call :=
  addressed_of_dispatchSegments h

theorem pathId_of_captured {path id : String} (h : Captured (urlSegments path) id) : PathId id :=
  h.removeDots

theorem pathTenant_of_captured {path : String} {tenant : Option String}
    (h : ∀ t, tenant.bind emptyToNone = some t → Captured (urlSegments path) t) :
    PathTenant tenant := by
  have hdot : ∀ dot, dot ≠ "" → tenant = some dot → Captured (urlSegments path) dot :=
    fun dot hne htenant => h dot (bind_emptyToNone_eq_some.mpr ⟨htenant, hne⟩)
  constructor
  · intro htenant
    exact (hdot "." (by decide) htenant).removeDots.2.1 rfl
  · intro htenant
    exact (hdot ".." (by decide) htenant).removeDots.2.2 rfl

/-- The path of the second request ends in `subscribe`. -/
theorem getLast_legacySubscribe (tenant : Option String) (id : TaskId) :
    (urlSegments (RestTransport.legacySubscribeRequest tenant id).path).getLast? =
      some "subscribe" := by
  have hliteral : "/subscribe" = slashed ["subscribe"] := by decide
  have hpath : (RestTransport.legacySubscribeRequest tenant id).path =
      tenantPath tenant (slashed ["tasks", segment id, "subscribe"]) := by
    rw [slashed_task, ← hliteral]
    rfl
  have hplain : Plain "subscribe" "subscribe" :=
    plain_literal (by decide)
  have hslash : ∀ s ∈ tenantSegs (tenant.bind emptyToNone) ++ ["tasks", segment id, "subscribe"],
      '/' ∉ s.toList := by
    intro s hs
    rcases List.mem_append.mp hs with h | h
    · exact slash_not_mem_tenantSegs h
    · simp only [List.mem_cons, List.not_mem_nil, or_false] at h
      rcases h with h | h | h
      · rw [h]
        exact plain_tasks.1
      · rw [h]
        exact slash_not_mem_segment id
      · rw [h]
        exact hplain.1
  have hsplit : tenantSegs (tenant.bind emptyToNone) ++ ["tasks", segment id, "subscribe"] =
      (tenantSegs (tenant.bind emptyToNone) ++ ["tasks", segment id]) ++ ["subscribe"] := by
    rw [List.append_assoc]
    rfl
  obtain ⟨kept, hkept⟩ := removeDots_append_singleton []
    (tenantSegs (tenant.bind emptyToNone) ++ ["tasks", segment id]) hplain.undotted
  rw [hpath, tenantPath_slashed, urlSegments_slashed hslash, hsplit, hkept,
    List.getLast?_concat]

/-! ## the paths under a tenant `tasks` -/

section tasks

/-- Under the tenant `tasks` a path of literals begins with one more. -/
theorem dispatch_tasks (method : RestMethod) (body : RestBody) {path seg : String}
    {segs : List String} (hpath : path = slashed (seg :: segs))
    (hplain : (seg :: segs).all isPlainLiteral = true) :
    dispatch ⟨method, tenantPath (some "tasks") path, body⟩ =
      dispatchSegments method ("tasks" :: seg :: segs) body := by
  have hall := List.all_eq_true.mp hplain
  have htenant : tenantSegs (pathTenant (some "tasks")) = ["tasks"] := by decide
  have hsegs := urlSegments_tenantPath (some "tasks") (plain_literal (hall seg List.mem_cons_self))
    fun s hs => ⟨s, plain_literal (hall s (List.mem_cons_of_mem _ hs))⟩
  rw [← hpath, htenant] at hsegs
  rw [dispatch, hsegs]
  rfl

/-- Where the path belongs to a route with one id. -/
theorem dispatch_tasks_id (method : RestMethod) (body : RestBody) (id : String) {path seg : String}
    {segs : List String} {router : MethodRouter} {handler : RestHandler}
    (hpath : path = slashed (seg :: segs)) (hplain : (seg :: segs).all isPlainLiteral = true)
    (hid : isPlainLiteral id = true)
    (hresolve : resolve ("tasks" :: seg :: segs) restRouter = some ([("id", id)], router))
    (hhandler : router.handler method = some handler) :
    dispatch ⟨method, tenantPath (some "tasks") path, body⟩ = handler [("id", id)] body := by
  rw [dispatch_tasks method body hpath hplain]
  exact dispatchSegments_of hresolve hhandler (decodeCaptures_id (plain_literal hid).2.1)

theorem send_not_arrives (taskId : Option TaskId) (call : RestCall) :
    dispatch (RestTransport.request (.sendMessage (some "tasks") taskId)) ≠ .ok call := by
  have hpath : restSendMessagePath = slashed ["message:send"] := by decide
  have hdispatch := dispatch_tasks_id .post ⟨some "tasks", taskId.getD "", none⟩ "message:send"
    hpath (by decide) (by decide) rfl rfl
  rw [RestTransport.request, hdispatch]
  intro h
  cases h

theorem stream_not_arrives (taskId : Option TaskId) (call : RestCall) :
    dispatch (RestTransport.request (.sendStreamingMessage (some "tasks") taskId)) ≠ .ok call := by
  have hpath : restStreamMessagePath = slashed ["message:stream"] := by decide
  have hdispatch := dispatch_tasks_id .post ⟨some "tasks", taskId.getD "", none⟩ "message:stream"
    hpath (by decide) (by decide) rfl rfl
  rw [RestTransport.request, hdispatch]
  intro h
  cases h

/-- Its tasks are taken for one of that name. -/
theorem dispatch_tasks_list :
    dispatch (RestTransport.request (.listTasks (some "tasks"))) = .ok (.getTask none "tasks") := by
  have hpath : "/tasks" = slashed ["tasks"] := by decide
  exact dispatch_tasks_id .get .empty "tasks" hpath (by decide) (by decide) rfl rfl

/-- So is its card. -/
theorem dispatch_tasks_card :
    dispatch (RestTransport.request (.getExtendedAgentCard (some "tasks"))) =
      .ok (.getTask none "extendedAgentCard") := by
  have hpath : restExtendedAgentCardPath = slashed ["extendedAgentCard"] := by decide
  exact dispatch_tasks_id .get .empty "extendedAgentCard" hpath (by decide) (by decide) rfl rfl

/-- A task whose id is an action is the action on `tasks`. -/
theorem getTask_not_arrives {id : TaskId} (hid : id ∈ taskActions) (call : RestCall)
    (hcall : call = .getTask (some "tasks") id) :
    dispatch (RestTransport.request (.getTask (some "tasks") id)) ≠ .ok call := by
  rw [hcall, RestTransport.request]
  simp only [taskActions, List.mem_cons, List.not_mem_nil, or_false] at hid
  rcases hid with h | h | h | h
  · have hpath : "/tasks/" ++ segment "cancel" = slashed ["tasks", "cancel"] := by decide
    rw [h, dispatch_tasks .get .empty hpath (by decide)]
    intro hok
    cases hok
  · have hpath : "/tasks/" ++ segment "subscribe" = slashed ["tasks", "subscribe"] := by decide
    rw [h, dispatch_tasks_id .get .empty "tasks" hpath (by decide) (by decide) rfl rfl]
    intro hok
    cases hok
  · have hpath : "/tasks/" ++ segment "pushNotificationConfigs" =
        slashed ["tasks", "pushNotificationConfigs"] := by decide
    rw [h, dispatch_tasks_id .get .empty "tasks" hpath (by decide) (by decide) rfl rfl]
    intro hok
    cases hok
  · have hpath : "/tasks/" ++ segment "push-configs" = slashed ["tasks", "push-configs"] := by decide
    rw [h, dispatch_tasks_id .get .empty "tasks" hpath (by decide) (by decide) rfl rfl]
    intro hok
    cases hok

/-- The configurations of a task whose id is a collection are one
configuration of `tasks`. -/
theorem dispatch_tasks_configs (method : RestMethod) (body : RestBody) {taskId : TaskId}
    (hid : taskId ∈ taskCollections) :
    dispatch ⟨method, tenantPath (some "tasks")
        ("/tasks/" ++ segment taskId ++ "/pushNotificationConfigs"), body⟩ =
      match method with
      | .get => .ok (.getPushConfig none "tasks" "pushNotificationConfigs")
      | .post => .error .methodNotAllowed
      | .delete => .ok (.deletePushConfig none "tasks" "pushNotificationConfigs") := by
  have hkey : ∀ literal ∈ taskCollections,
      "/tasks/" ++ segment literal ++ "/pushNotificationConfigs" =
          slashed ["tasks", literal, "pushNotificationConfigs"] ∧
        ["tasks", literal, "pushNotificationConfigs"].all isPlainLiteral = true := by
    decide
  have hresolve : resolve ["tasks", "tasks", taskId, "pushNotificationConfigs"] restRouter =
      some ([("id", "tasks"), ("config_id", "pushNotificationConfigs")],
        { get := handleGetPushConfig, delete := handleDeletePushConfig }) := by
    rcases List.mem_pair.mp hid with h | h
    · rw [h]
      rfl
    · rw [h]
      rfl
  have hparams := decodeCaptures_config plain_tasks.2.1 plain_configs.2.1
  rw [dispatch_tasks method body (hkey taskId hid).1 (hkey taskId hid).2]
  cases method with
  | get =>
      have hhandler : MethodRouter.handler
          { get := handleGetPushConfig, delete := handleDeletePushConfig } .get =
        some handleGetPushConfig := rfl
      exact dispatchSegments_of hresolve hhandler hparams
  | post =>
      rw [dispatchSegments, hresolve]
      rfl
  | delete =>
      have hhandler : MethodRouter.handler
          { get := handleGetPushConfig, delete := handleDeletePushConfig } .delete =
        some handleDeletePushConfig := rfl
      exact dispatchSegments_of hresolve hhandler hparams

end tasks

/-! ## the requests that arrive -/

/-- A request that arrives is routable. -/
theorem routable_of_dispatch (attempt : RestAttempt)
    (h : dispatch attempt.request = .ok attempt.call.asRead) : attempt.Routable := by
  have haddressed := addressed_of_dispatch h
  cases attempt with
  | legacySubscribe tenant id =>
      obtain ⟨-, hlast | ⟨htenant, hid⟩⟩ := haddressed
      · -- the last segment is `subscribe`, which has no such action
        exfalso
        obtain ⟨text, htext, hstrip⟩ := hlast
        have hlegacy := getLast_legacySubscribe tenant id
        have hplain : Plain "subscribe" "subscribe" := plain_literal (by decide)
        rw [RestAttempt.request, hlegacy, Option.bind_some, hplain.2.1] at htext
        have hnone : stripSuffix ":subscribe" "subscribe" = none := by decide
        rw [← Option.some.inj htext, hnone] at hstrip
        exact absurd hstrip.symm (Option.some_ne_none id)
      · exact ⟨htenant, pathId_of_captured hid⟩
  | operation call =>
      cases call with
      | sendMessage tenant taskId =>
          intro htenant
          rw [htenant] at h
          exact send_not_arrives taskId _ h
      | sendStreamingMessage tenant taskId =>
          intro htenant
          rw [htenant] at h
          exact stream_not_arrives taskId _ h
      | getTask tenant id =>
          refine ⟨pathTenant_of_captured haddressed.1, pathId_of_captured haddressed.2.1,
            haddressed.2.2, ?_⟩
          intro htenant hid
          rw [htenant] at h
          exact getTask_not_arrives hid _ rfl h
      | listTasks tenant =>
          refine ⟨pathTenant_of_captured haddressed, ?_⟩
          intro htenant
          rw [htenant, RestAttempt.request, dispatch_tasks_list] at h
          cases h
      | cancelTask tenant id => trivial
      | subscribeToTask tenant id => exact pathTenant_of_captured haddressed.1
      | createPushConfig tenant taskId id =>
          refine ⟨pathId_of_captured haddressed, ?_⟩
          intro htenant hid
          have hlost := dispatch_tasks_configs .post ⟨some "tasks", taskId, id⟩ hid
          rw [htenant, RestAttempt.request, RestTransport.request, hlost] at h
          cases h
      | getPushConfig tenant taskId id =>
          exact ⟨pathTenant_of_captured haddressed.1, pathId_of_captured haddressed.2.1,
            pathId_of_captured haddressed.2.2⟩
      | listPushConfigs tenant taskId =>
          refine ⟨pathTenant_of_captured haddressed.1, pathId_of_captured haddressed.2, ?_⟩
          intro htenant hid
          have hlost := dispatch_tasks_configs .get .empty hid
          rw [htenant, RestAttempt.request, RestTransport.request, hlost] at h
          cases h
      | deletePushConfig tenant taskId id =>
          exact ⟨pathTenant_of_captured haddressed.1, pathId_of_captured haddressed.2.1,
            pathId_of_captured haddressed.2.2⟩
      | getExtendedAgentCard tenant =>
          refine ⟨pathTenant_of_captured haddressed, ?_⟩
          intro htenant
          rw [htenant, RestAttempt.request, dispatch_tasks_card] at h
          cases h

/-- **Which requests arrive.**  The router hands a request to the operation
it was built for, with its tenant and ids, exactly when it is routable. -/
theorem dispatch_request_iff (attempt : RestAttempt) :
    dispatch attempt.request = .ok attempt.call.asRead ↔ attempt.Routable :=
  ⟨routable_of_dispatch attempt, dispatch_of_routable attempt⟩

/-- **A task is taken for an action on another**: to get `t:subscribe` is to
subscribe to `t`. -/
theorem getTask_subscribes :
    dispatch (RestTransport.request (.getTask none "t:subscribe")) =
        .ok (.subscribeToTask none "t") ∧
      ¬ ∀ attempt : RestAttempt, dispatch attempt.request = .ok attempt.call.asRead := by
  have hpath : "/tasks/" ++ segment "t:subscribe" = slashed ["tasks", segment "t:subscribe"] := by
    decide
  have hplain : Plain (segment "t:subscribe") "t:subscribe" :=
    plain_segment (by decide) (by decide)
  have hresolve : resolve (tenantSegs (pathTenant none) ++ ["tasks", segment "t:subscribe"])
      restRouter = some (tenantCaptures (pathTenant none) ++ [("id", segment "t:subscribe")],
        { get := handleGetTaskOrSubscribe, post := handlePostTaskAction }) :=
    resolve_task (by decide) (by decide) fun h => absurd h (by decide)
  have hdispatch := dispatch_task .get .empty hpath hplain noSegs hresolve rfl
    (decodeCaptures_id hplain.2.1)
  have hcall : dispatch (RestTransport.request (.getTask none "t:subscribe")) =
      .ok (.subscribeToTask none "t") := hdispatch
  refine ⟨hcall, ?_⟩
  intro h
  have hgot := h (.operation (.getTask none "t:subscribe"))
  rw [RestAttempt.request, hcall] at hgot
  cases hgot

end A2a
