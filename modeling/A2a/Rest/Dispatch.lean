import A2a.Rest

/-!
# A2a.Rest.Dispatch

When the router hands a request to the operation it was built for.

1. `Addressed`: what a dispatched call says is in the segments, and how.
   From it, no call reaches an id that is empty, a dot or, for `get_task`,
   ends in an action.
2. `resolve_…`: the route of each path the client builds, under a tenant or
   not.  A tenant `tasks` is the one that some route spells out.
3. The main result puts the two together: a request arrives exactly when it
   is `Routable`.
-/

namespace A2a

/-! ## what a client asks for -/

/-- A call as a body or a path carries it: an empty text is an absent one. -/
def RestCall.asRead : RestCall → RestCall
  | .sendMessage tenant taskId =>
      .sendMessage (tenant.bind emptyToNone) (taskId.bind emptyToNone)
  | .sendStreamingMessage tenant taskId =>
      .sendStreamingMessage (tenant.bind emptyToNone) (taskId.bind emptyToNone)
  | .getTask tenant id => .getTask (tenant.bind emptyToNone) id
  | .listTasks tenant => .listTasks (tenant.bind emptyToNone)
  | .cancelTask tenant id => .cancelTask (tenant.bind emptyToNone) id
  | .subscribeToTask tenant id => .subscribeToTask (tenant.bind emptyToNone) id
  | .createPushConfig tenant taskId id =>
      .createPushConfig (tenant.bind emptyToNone) taskId (id.bind emptyToNone)
  | .getPushConfig tenant taskId id => .getPushConfig (tenant.bind emptyToNone) taskId id
  | .listPushConfigs tenant taskId => .listPushConfigs (tenant.bind emptyToNone) taskId
  | .deletePushConfig tenant taskId id => .deletePushConfig (tenant.bind emptyToNone) taskId id
  | .getExtendedAgentCard tenant => .getExtendedAgentCard (tenant.bind emptyToNone)

/-- A request the client makes: that of an operation, or the second that
`subscribe_to_task` makes. -/
inductive RestAttempt
  | operation (call : RestCall)
  | legacySubscribe (tenant : Option String) (id : TaskId)

namespace RestAttempt

def request : RestAttempt → RestRequest
  | operation call => RestTransport.request call
  | legacySubscribe tenant id => RestTransport.legacySubscribeRequest tenant id

/-- The call a request is made for. -/
def call : RestAttempt → RestCall
  | operation call => call
  | legacySubscribe tenant id => .subscribeToTask tenant id

end RestAttempt

/-- An id that a segment of a path can stand for. -/
def PathId (id : String) : Prop := id ≠ "" ∧ id ≠ "." ∧ id ≠ ".."

/-- A tenant that a segment of a path can stand for, or none. -/
def PathTenant (tenant : Option String) : Prop := tenant ≠ some "." ∧ tenant ≠ some ".."

/-- The requests that arrive. -/
def RestAttempt.Routable : RestAttempt → Prop
  | operation (.sendMessage tenant _) => tenant ≠ some "tasks"
  | operation (.sendStreamingMessage tenant _) => tenant ≠ some "tasks"
  | operation (.getTask tenant id) =>
      PathTenant tenant ∧ PathId id ∧ stripSuffix ":subscribe" id = none ∧
        (tenant = some "tasks" →
          id ∉ ["cancel", "subscribe", "pushNotificationConfigs", "push-configs"])
  | operation (.listTasks tenant) => PathTenant tenant ∧ tenant ≠ some "tasks"
  | operation (.cancelTask _ _) => True
  | operation (.subscribeToTask tenant _) => PathTenant tenant
  | operation (.createPushConfig tenant taskId _) =>
      PathId taskId ∧ (tenant = some "tasks" → taskId ∉ ["pushNotificationConfigs", "push-configs"])
  | operation (.getPushConfig tenant taskId id) => PathTenant tenant ∧ PathId taskId ∧ PathId id
  | operation (.listPushConfigs tenant taskId) =>
      PathTenant tenant ∧ PathId taskId ∧
        (tenant = some "tasks" → taskId ∉ ["pushNotificationConfigs", "push-configs"])
  | operation (.deletePushConfig tenant taskId id) => PathTenant tenant ∧ PathId taskId ∧ PathId id
  | operation (.getExtendedAgentCard tenant) => PathTenant tenant ∧ tenant ≠ some "tasks"
  | legacySubscribe tenant id => tenant.bind emptyToNone = none ∧ PathId id

/-! ## what a dispatched call says of the segments -/

/-- Every text of a call is some segment's; of what is only ever in a body
nothing is said. -/
def Addressed (segs : List String) : RestCall → Prop
  | .sendMessage _ _ => True
  | .sendStreamingMessage _ _ => True
  | .getTask tenant id =>
      (∀ t, tenant = some t → Captured segs t) ∧ Captured segs id ∧
        stripSuffix ":subscribe" id = none
  | .listTasks tenant => ∀ t, tenant = some t → Captured segs t
  | .cancelTask _ _ => True
  | .subscribeToTask tenant id =>
      (∀ t, tenant = some t → Captured segs t) ∧
        ((∃ text ∈ segs.getLast?.bind percentDecode, stripSuffix ":subscribe" text = some id) ∨
          tenant = none ∧ Captured segs id)
  | .createPushConfig _ taskId _ => Captured segs taskId
  | .getPushConfig tenant taskId id =>
      (∀ t, tenant = some t → Captured segs t) ∧ Captured segs taskId ∧ Captured segs id
  | .listPushConfigs tenant taskId =>
      (∀ t, tenant = some t → Captured segs t) ∧ Captured segs taskId
  | .deletePushConfig tenant taskId id =>
      (∀ t, tenant = some t → Captured segs t) ∧ Captured segs taskId ∧ Captured segs id
  | .getExtendedAgentCard tenant => ∀ t, tenant = some t → Captured segs t

/-- The text of a path comes from a capture. -/
theorem mem_of_pathString {params : Captures} {text : String} (h : pathString params = some text) :
    ∃ name, (name, text) ∈ params := by
  cases params with
  | nil => exact absurd h.symm (Option.some_ne_none _)
  | cons param rest =>
      refine ⟨param.1, ?_⟩
      rw [← Option.some.inj h]
      exact List.mem_cons_self

/-- Every parameter is some segment's. -/
def CapturedParams (segs : List String) (params : Captures) : Prop :=
  ∀ name text, (name, text) ∈ params → Captured segs text

theorem decodeCaptures_cons (name seg : String) (rest : Captures) :
    decodeCaptures ((name, seg) :: rest) =
      (percentDecode seg).bind fun text => (decodeCaptures rest).map ((name, text) :: ·) := by
  rw [decodeCaptures, List.mapM_cons]
  change ((percentDecode seg).map (name, ·)).bind
    (fun first => (decodeCaptures rest).bind fun others => some (first :: others)) = _
  cases percentDecode seg with
  | none => rfl
  | some text =>
      cases decodeCaptures rest with
      | none => rfl
      | some params => rfl

/-- A parameter is a capture, decoded. -/
theorem capture_of_mem {captures params : Captures} (h : decodeCaptures captures = some params)
    {name text : String} (hmem : (name, text) ∈ params) :
    ∃ seg, (name, seg) ∈ captures ∧ percentDecode seg = some text := by
  induction captures generalizing params with
  | nil =>
      have hnil : [] = params := Option.some.inj h
      rw [← hnil] at hmem
      exact absurd hmem List.not_mem_nil
  | cons capture rest ih =>
      obtain ⟨name', seg⟩ := capture
      rw [decodeCaptures_cons] at h
      obtain ⟨text', htext, h⟩ := Option.bind_eq_some_iff.mp h
      obtain ⟨params', hparams, heq⟩ := Option.map_eq_some_iff.mp h
      rw [← heq] at hmem
      rcases List.mem_cons.mp hmem with hhead | htail
      · rw [Prod.mk.injEq] at hhead
        rw [hhead.1, hhead.2]
        exact ⟨seg, List.mem_cons_self, htext⟩
      · obtain ⟨seg', hin, hdecode⟩ := ih hparams htail
        exact ⟨seg', List.mem_cons_of_mem _ hin, hdecode⟩

/-- Every parameter of a route that fits is a segment of the path, decoded. -/
theorem capturedParams_of_fits {parts : List PathPart} {segs : List String}
    {captures params : Captures} (hfits : Fits parts segs captures)
    (hparams : decodeCaptures captures = some params) : CapturedParams segs params := by
  intro name text hmem
  obtain ⟨seg, hin, hdecode⟩ := capture_of_mem hparams hmem
  have hseg := hfits.captured hin
  exact ⟨seg, hseg.1, hseg.2, hdecode⟩

namespace CapturedParams

variable {segs : List String} {params : Captures}

/-- A parameter that is looked up by its name is one of them. -/
theorem lookup (h : CapturedParams segs params) (name : String) :
    ∀ text, params.lookup name = some text → Captured segs text :=
  fun text htext => h name text (mem_of_lookup htext)

/-- So is the text of a path of one. -/
theorem pathString (h : CapturedParams segs params) :
    ∀ text, A2a.pathString params = some text → Captured segs text := by
  intro text htext
  obtain ⟨name, hmem⟩ := mem_of_pathString htext
  exact h name text hmem

/-- So are the tenant and the id of a task's path. -/
theorem taskPath (h : CapturedParams segs params) {path : TaskPath}
    (hread : TaskPath.read params = .ok path) :
    (∀ t, path.tenant = some t → Captured segs t) ∧ Captured segs path.id := by
  unfold TaskPath.read at hread
  split at hread
  · rename_i id hid
    rw [← Except.ok.inj hread]
    exact ⟨h.lookup "tenant", h.lookup "id" id hid⟩
  · cases hread

/-- And those of a configuration's path. -/
theorem pushConfigPath (h : CapturedParams segs params) {path : PushConfigPath}
    (hread : PushConfigPath.read params = .ok path) :
    (∀ t, path.tenant = some t → Captured segs t) ∧ Captured segs path.id ∧
      Captured segs path.configId := by
  unfold PushConfigPath.read at hread
  split at hread
  · rename_i id configId hid hconfigId
    rw [← Except.ok.inj hread]
    exact ⟨h.lookup "tenant", h.lookup "id" id hid, h.lookup "config_id" configId hconfigId⟩
  · cases hread

end CapturedParams

/-- A handler, on the routes with these parts, calls what the segments
say. -/
def Sound (parts : List PathPart) (handler : RestHandler) : Prop :=
  ∀ segs captures params body call, Fits parts segs captures →
    decodeCaptures captures = some params → handler params body = .ok call → Addressed segs call

section sound

variable (parts : List PathPart)

/-- The handlers of messages take the tenant from the path. -/
theorem sound_handleSendMessage : Sound parts handleSendMessage := by
  intro segs captures params body call _ _ h
  obtain ⟨tenant, _, h⟩ := Except.bind_ok h
  rw [← Except.ok.inj h]
  trivial

theorem sound_handleStreamMessage : Sound parts handleStreamMessage := by
  intro segs captures params body call _ _ h
  obtain ⟨tenant, _, h⟩ := Except.bind_ok h
  rw [← Except.ok.inj h]
  trivial

/-- A list of tasks takes the tenant only. -/
theorem sound_handleListTasks : Sound parts handleListTasks := by
  intro segs captures params body call hfits hparams h
  rw [← Except.ok.inj h]
  exact (capturedParams_of_fits hfits hparams).pathString

/-- So does the extended card. -/
theorem sound_handleGetExtendedAgentCard : Sound parts handleGetExtendedAgentCard := by
  intro segs captures params body call hfits hparams h
  rw [← Except.ok.inj h]
  exact (capturedParams_of_fits hfits hparams).pathString

/-- The id of a cancel is the one its route gives it. -/
theorem addressed_handleCancelTaskInner {segs : List String} {id : TaskId}
    {tenant : Option String} {body : RestBody} {call : RestCall}
    (h : handleCancelTaskInner id tenant body = .ok call) : Addressed segs call := by
  obtain ⟨tenant, _, h⟩ := Except.bind_ok h
  rw [← Except.ok.inj h]
  trivial

/-- A route that spells `cancel` out has the id as a segment. -/
theorem sound_handleCancelTaskLegacy : Sound parts handleCancelTaskLegacy := by
  intro segs captures params body call _ _ h
  unfold handleCancelTaskLegacy at h
  split at h
  · exact addressed_handleCancelTaskInner h
  · cases h

/-- So has one that spells `subscribe` out. -/
theorem sound_handleSubscribeToTaskLegacy : Sound parts handleSubscribeToTaskLegacy := by
  intro segs captures params body call hfits hparams h
  unfold handleSubscribeToTaskLegacy at h
  split at h
  · rename_i id hid
    rw [← Except.ok.inj h]
    have hcaptured := (capturedParams_of_fits hfits hparams).pathString id hid
    exact ⟨fun t ht => absurd ht.symm (Option.some_ne_none t), Or.inr ⟨rfl, hcaptured⟩⟩
  · cases h

/-- A new configuration is one of the task in the path. -/
theorem sound_handleCreatePushConfig : Sound parts handleCreatePushConfig := by
  intro segs captures params body call hfits hparams h
  obtain ⟨path, hpath, h⟩ := Except.bind_ok h
  obtain ⟨config, hconfig, h⟩ := Except.bind_ok h
  obtain ⟨tenant, _, h⟩ := Except.bind_ok h
  rw [← Except.ok.inj h]
  unfold parseCreatePushConfigRequest at hconfig
  split at hconfig
  · cases hconfig
  · rw [← Except.ok.inj hconfig]
    exact ((capturedParams_of_fits hfits hparams).taskPath hpath).2

/-- A list of configurations is of the task in the path. -/
theorem sound_handleListPushConfigs : Sound parts handleListPushConfigs := by
  intro segs captures params body call hfits hparams h
  obtain ⟨path, hpath, h⟩ := Except.bind_ok h
  rw [← Except.ok.inj h]
  exact (capturedParams_of_fits hfits hparams).taskPath hpath

/-- A configuration that is read is named by the path, with its task. -/
theorem sound_handleGetPushConfig : Sound parts handleGetPushConfig := by
  intro segs captures params body call hfits hparams h
  obtain ⟨path, hpath, h⟩ := Except.bind_ok h
  rw [← Except.ok.inj h]
  exact (capturedParams_of_fits hfits hparams).pushConfigPath hpath

/-- So is one that is deleted. -/
theorem sound_handleDeletePushConfig : Sound parts handleDeletePushConfig := by
  intro segs captures params body call hfits hparams h
  obtain ⟨path, hpath, h⟩ := Except.bind_ok h
  rw [← Except.ok.inj h]
  exact (capturedParams_of_fits hfits hparams).pushConfigPath hpath

end sound

/-- The routes of a task. -/
def taskRoutes : List (List PathPart) :=
  [[.lit "tasks", .param "id"], [.param "tenant", .lit "tasks", .param "id"]]

/-- On them the last segment is the task's. -/
theorem last_of_taskRoutes {parts : List PathPart} (hparts : parts ∈ taskRoutes)
    {segs : List String} {captures params : Captures} (hfits : Fits parts segs captures)
    (hparams : decodeCaptures captures = some params) {path : TaskPath}
    (hread : TaskPath.read params = .ok path) :
    segs.getLast?.bind percentDecode = some path.id := by
  rcases List.mem_pair.mp hparts with h | h
  · rw [h] at hfits
    cases hfits with
    | lit hfits =>
      cases hfits with
      | param _ hfits =>
        cases hfits
        rw [decodeCaptures_cons] at hparams
        obtain ⟨text, htext, hparams⟩ := Option.bind_eq_some_iff.mp hparams
        rw [← Option.some.inj hparams] at hread
        rw [← Except.ok.inj hread]
        exact htext
  · rw [h] at hfits
    cases hfits with
    | param _ hfits =>
      cases hfits with
      | lit hfits =>
        cases hfits with
        | param _ hfits =>
          cases hfits
          rw [decodeCaptures_cons] at hparams
          obtain ⟨tenant, _, hparams⟩ := Option.bind_eq_some_iff.mp hparams
          obtain ⟨params', hparams', heq⟩ := Option.map_eq_some_iff.mp hparams
          rw [decodeCaptures_cons] at hparams'
          obtain ⟨text, htext, hparams'⟩ := Option.bind_eq_some_iff.mp hparams'
          rw [← heq, ← Option.some.inj hparams'] at hread
          rw [← Except.ok.inj hread]
          exact htext

/-- A segment with `:subscribe` at its end is a subscription, and any other a task's id. -/
theorem sound_handleGetTaskOrSubscribe {parts : List PathPart} (hparts : parts ∈ taskRoutes) :
    Sound parts handleGetTaskOrSubscribe := by
  intro segs captures params body call hfits hparams h
  obtain ⟨path, hpath, h⟩ := Except.bind_ok h
  have hcaptured := (capturedParams_of_fits hfits hparams).taskPath hpath
  split at h
  · rename_i id hid
    have hlast := last_of_taskRoutes hparts hfits hparams hpath
    rw [← Except.ok.inj h]
    exact ⟨hcaptured.1, Or.inl ⟨path.id, hlast, hid⟩⟩
  · rename_i hid
    rw [← Except.ok.inj h]
    exact ⟨hcaptured.1, hcaptured.2, hid⟩

/-- A segment of an action is the id before it. -/
theorem sound_handlePostTaskAction {parts : List PathPart} (hparts : parts ∈ taskRoutes) :
    Sound parts handlePostTaskAction := by
  intro segs captures params body call hfits hparams h
  obtain ⟨path, hpath, h⟩ := Except.bind_ok h
  have hcaptured := (capturedParams_of_fits hfits hparams).taskPath hpath
  split at h
  · exact addressed_handleCancelTaskInner h
  · split at h
    · rename_i id hid
      have hlast := last_of_taskRoutes hparts hfits hparams hpath
      rw [← Except.ok.inj h]
      exact ⟨hcaptured.1, Or.inl ⟨path.id, hlast, hid⟩⟩
    · cases h

/-- Each handler of a router is sound on its routes. -/
def MethodRouter.SoundOn (parts : List PathPart) (router : MethodRouter) : Prop :=
  ∀ method handler, router.handler method = some handler → Sound parts handler

/-- A route is sound if the handler of each method is. -/
theorem MethodRouter.soundOn {parts : List PathPart} {get post delete : Option RestHandler}
    (hget : ∀ handler ∈ get, Sound parts handler) (hpost : ∀ handler ∈ post, Sound parts handler)
    (hdelete : ∀ handler ∈ delete, Sound parts handler) :
    MethodRouter.SoundOn parts ⟨get, post, delete⟩ := by
  intro method handler h
  cases method with
  | get => exact hget handler h
  | post => exact hpost handler h
  | delete => exact hdelete handler h

/-- Every route is sound. -/
theorem restRouter_sound : ∀ r ∈ restRouter, r.2.1 = [] ∧ r.2.2.SoundOn r.1 := by
  have hlegacy : [PathPart.lit "tasks", .param "id"] ∈ taskRoutes := by decide
  have htenant : [PathPart.param "tenant", .lit "tasks", .param "id"] ∈ taskRoutes := by decide
  have hnil : ∀ r ∈ ([] : List (List PathPart × Captures × MethodRouter)),
      r.2.1 = [] ∧ r.2.2.SoundOn r.1 := fun r hr => absurd hr List.not_mem_nil
  simp only [restRouter, route, List.forall_mem_cons, true_and]
  refine ⟨?_, ?_, ?_, ?_, ?_, ?_, ?_, ?_, ?_, ?_, ?_, ?_, ?_, ?_, ?_, ?_, ?_, ?_, ?_, ?_, ?_, hnil⟩
  all_goals refine MethodRouter.soundOn ?_ ?_ ?_
  all_goals simp [sound_handleSendMessage, sound_handleStreamMessage, sound_handleListTasks,
    sound_handleGetExtendedAgentCard, sound_handleCancelTaskLegacy,
    sound_handleSubscribeToTaskLegacy, sound_handleCreatePushConfig, sound_handleListPushConfigs,
    sound_handleGetPushConfig, sound_handleDeletePushConfig,
    sound_handleGetTaskOrSubscribe hlegacy, sound_handleGetTaskOrSubscribe htenant,
    sound_handlePostTaskAction hlegacy, sound_handlePostTaskAction htenant]

/-- **A dispatched call is in the segments of its path.** -/
theorem addressed_of_dispatchSegments {method : RestMethod} {segs : List String} {body : RestBody}
    {call : RestCall} (h : dispatchSegments method segs body = .ok call) : Addressed segs call := by
  unfold dispatchSegments at h
  split at h
  · cases h
  · rename_i captures router hresolve
    split at h
    · cases h
    · rename_i handler hhandler
      split at h
      · cases h
      · rename_i params hparams
        obtain ⟨parts, before, after, hmem, hfits, hcaptures⟩ :=
          resolve_sound segs restRouter captures router hresolve
        have hsound := restRouter_sound _ hmem
        have hbefore : before = [] := hsound.1
        rw [hbefore, List.nil_append] at hcaptures
        rw [hcaptures] at hparams
        exact hsound.2 method handler hhandler segs after params body call hfits hparams h

/-! ## the routes of the client's paths -/

/-- The segments a tenant puts before a path. -/
def tenantSegs (tenant : Option String) : List String := (tenant.map segment).toList

/-- The parameter of a path under a tenant, as it is captured. -/
def tenantCaptures (tenant : Option String) : Captures :=
  (tenant.map fun tenant => ("tenant", segment tenant)).toList

/-- The parameter, decoded. -/
def tenantParams (tenant : Option String) : Captures :=
  (tenant.map fun tenant => ("tenant", tenant)).toList

/-- The routes that go on after `tasks` and the id of a task. -/
def afterTask (id : String) : List (List PathPart × Captures × MethodRouter) :=
  [([], [("id", id)], { get := handleGetTaskOrSubscribe, post := handlePostTaskAction }),
    ([.lit "cancel"], [("id", id)], { post := handleCancelTaskLegacy }),
    ([.lit "subscribe"], [("id", id)],
      { get := handleSubscribeToTaskLegacy, post := handleSubscribeToTaskLegacy }),
    ([.lit "pushNotificationConfigs"], [("id", id)],
      { post := handleCreatePushConfig, get := handleListPushConfigs }),
    ([.lit "push-configs"], [("id", id)],
      { post := handleCreatePushConfig, get := handleListPushConfigs }),
    ([.lit "pushNotificationConfigs", .param "config_id"], [("id", id)],
      { get := handleGetPushConfig, delete := handleDeletePushConfig }),
    ([.lit "push-configs", .param "config_id"], [("id", id)],
      { get := handleGetPushConfig, delete := handleDeletePushConfig })]

/-- The routes that go on after a tenant. -/
def afterTenant (tenant : String) : List (List PathPart × Captures × MethodRouter) :=
  [([.lit "message:send"], [("tenant", tenant)], { post := handleSendMessage }),
    ([.lit "message:stream"], [("tenant", tenant)], { post := handleStreamMessage }),
    ([.lit "tasks", .param "id"], [("tenant", tenant)],
      { get := handleGetTaskOrSubscribe, post := handlePostTaskAction }),
    ([.lit "tasks"], [("tenant", tenant)], { get := handleListTasks }),
    ([.lit "tasks", .param "id", .lit "pushNotificationConfigs"], [("tenant", tenant)],
      { post := handleCreatePushConfig, get := handleListPushConfigs }),
    ([.lit "tasks", .param "id", .lit "pushNotificationConfigs", .param "config_id"],
      [("tenant", tenant)], { get := handleGetPushConfig, delete := handleDeletePushConfig }),
    ([.lit "extendedAgentCard"], [("tenant", tenant)], { get := handleGetExtendedAgentCard })]

/-- The routes that go on after a tenant, `tasks` and the id of a task. -/
def afterTenantTask (tenant id : String) : List (List PathPart × Captures × MethodRouter) :=
  [([], [("tenant", tenant), ("id", id)],
      { get := handleGetTaskOrSubscribe, post := handlePostTaskAction }),
    ([.lit "pushNotificationConfigs"], [("tenant", tenant), ("id", id)],
      { post := handleCreatePushConfig, get := handleListPushConfigs }),
    ([.lit "pushNotificationConfigs", .param "config_id"], [("tenant", tenant), ("id", id)],
      { get := handleGetPushConfig, delete := handleDeletePushConfig })]

/-- The routes left after `/tasks/{id}`. -/
theorem paramStep_tasks {id : String} (h : id ≠ "") :
    (restRouter.filterMap (literalStep "tasks")).filterMap (paramStep id) = afterTask id := by
  rw [paramStep_of_ne h]
  rfl

/-- The routes left after a tenant. -/
theorem paramStep_restRouter {tenant : String} (h : tenant ≠ "") :
    restRouter.filterMap (paramStep tenant) = afterTenant tenant := by
  rw [paramStep_of_ne h]
  rfl

/-- The routes left after a tenant's task. -/
theorem paramStep_afterTenant {tenant id : String} (h : id ≠ "") :
    ((afterTenant tenant).filterMap (literalStep "tasks")).filterMap (paramStep id) =
      afterTenantTask tenant id := by
  rw [paramStep_of_ne h]
  rfl

/-- The rest of a path that a task's id begins. -/
theorem resolve_afterTask {id : String} (segs : List String) (h : id ≠ "")
    {found : Captures × MethodRouter} (hfound : resolve segs (afterTask id) = some found) :
    resolve ("tasks" :: id :: segs) restRouter = some found := by
  apply resolve_of_literal_some
  rw [← hfound, ← paramStep_tasks h]
  apply resolve_of_literal_none
  exact resolve_eq_none fun r hr => absurd hr List.not_mem_nil

/-- No route that spells a tenant out goes on as a tenant's path does, unless
the tenant is `tasks`. -/
theorem literal_of_fits {tenant seg : String} {segs : List String} {captures : Captures}
    {r : List PathPart × Captures × MethodRouter}
    (hr : r ∈ restRouter.filterMap (literalStep tenant)) (hfits : Fits r.1 (seg :: segs) captures)
    (hseg : seg ∉ ["send", "stream", "extended"]) : tenant = "tasks" := by
  have key : ∀ r ∈ restRouter, ∀ text parts, r.1 = .lit text :: parts →
      text = "tasks" ∨ parts ∈ [[], [.lit "send"], [.lit "stream"], [.lit "extended"]] := by
    simp [restRouter, route]
  obtain ⟨r', hr', hstep⟩ := List.mem_filterMap.mp hr
  rw [literalStep_eq_some hstep] at hr'
  rcases key _ hr' tenant r.1 rfl with h | h
  · exact h
  · exfalso
    simp only [List.mem_cons, List.not_mem_nil, or_false] at h hseg
    rcases h with h | h | h | h
    all_goals rw [h] at hfits
    all_goals cases hfits
    all_goals simp at hseg

/-- A tenant that is not `tasks` is a parameter. -/
theorem resolve_tenant {tenant seg : String} {segs : List String} (hne : tenant ≠ "")
    (htasks : tenant ≠ "tasks") (hseg : seg ∉ ["send", "stream", "extended"]) :
    resolve (tenant :: seg :: segs) restRouter = resolve (seg :: segs) (afterTenant tenant) := by
  rw [← paramStep_restRouter hne]
  apply resolve_of_literal_none
  exact resolve_eq_none fun r hr captures hfits => htasks (literal_of_fits hr hfits hseg)

/-- So is `tasks`, where no route of a task fits. -/
theorem resolve_tenant_tasks {id : String} {segs : List String}
    (h : ∀ r ∈ afterTask "tasks", ∀ captures, ¬ Fits r.1 (id :: segs) captures) :
    resolve ("tasks" :: "tasks" :: id :: segs) restRouter =
      resolve ("tasks" :: id :: segs) (afterTenant "tasks") := by
  have htasks : "tasks" ≠ "" := by decide
  rw [← paramStep_restRouter htasks]
  apply resolve_of_literal_none
  have hskip : resolve ("tasks" :: id :: segs) (restRouter.filterMap (literalStep "tasks")) =
      resolve (id :: segs) ((restRouter.filterMap (literalStep "tasks")).filterMap
        (paramStep "tasks")) :=
    resolve_of_literal_none (resolve_eq_none fun r hr => absurd hr List.not_mem_nil)
  rw [hskip, paramStep_tasks htasks]
  exact resolve_eq_none h

/-- The rest of a path that a tenant and a task's id begin. -/
theorem resolve_afterTenant {tenant id : String} (segs : List String) (h : id ≠ "")
    {found : Captures × MethodRouter}
    (hfound : resolve segs (afterTenantTask tenant id) = some found) :
    resolve ("tasks" :: id :: segs) (afterTenant tenant) = some found := by
  apply resolve_of_literal_some
  rw [← hfound, ← paramStep_afterTenant h]
  apply resolve_of_literal_none
  exact resolve_eq_none fun r hr => absurd hr List.not_mem_nil

/-- No other id is encoded as `tasks`. -/
theorem segment_ne_tasks {s : String} (h : s ≠ "tasks") : segment s ≠ "tasks" := by
  intro heq
  have hdecode := percentDecode_percentEncode s
  have htasks : "tasks" = percentEncode "tasks" := by decide
  rw [segment] at heq
  rw [heq, htasks, percentDecode_percentEncode] at hdecode
  exact h (Option.some.inj hdecode).symm

/-- Nor is one that is not empty encoded as nothing. -/
theorem segment_ne_empty {s : String} (h : s ≠ "") : segment s ≠ "" := percentEncode_ne_empty h

section routes

variable {tenant : Option String}

/-- A path of one segment, under a tenant or not. -/
theorem resolve_single {seg : String} {router : MethodRouter}
    (hseg : seg ∉ ["send", "stream", "extended"])
    (hplain : resolve [seg] restRouter = some ([], router))
    (hparam : ∀ t, resolve [seg] (afterTenant t) = some ([("tenant", t)], router))
    (hempty : tenant ≠ some "") (htasks : tenant ≠ some "tasks") :
    resolve (tenantSegs tenant ++ [seg]) restRouter = some (tenantCaptures tenant, router) := by
  cases tenant with
  | none => exact hplain
  | some t =>
      have ht : t ≠ "" := fun h => hempty (congrArg some h)
      have htne : t ≠ "tasks" := fun h => htasks (congrArg some h)
      have hresolve : resolve [segment t, seg] restRouter = resolve [seg] (afterTenant (segment t)) :=
        resolve_tenant (segment_ne_empty ht) (segment_ne_tasks htne) hseg
      exact hresolve.trans (hparam _)

/-- A path of a task, under a tenant or not. -/
theorem resolve_under {seg : String} {segs : List String} {captures : Captures}
    {router : MethodRouter} (hseg : seg ≠ "")
    (hplain : resolve segs (afterTask seg) = some (captures, router))
    (hparam : ∀ t, resolve segs (afterTenantTask t seg) = some (("tenant", t) :: captures, router))
    (hempty : tenant ≠ some "")
    (htasks : tenant = some "tasks" →
      ∀ r ∈ afterTask "tasks", ∀ captures, ¬ Fits r.1 (seg :: segs) captures) :
    resolve (tenantSegs tenant ++ "tasks" :: seg :: segs) restRouter =
      some (tenantCaptures tenant ++ captures, router) := by
  cases tenant with
  | none => exact resolve_afterTask segs hseg hplain
  | some t =>
      have ht : t ≠ "" := fun h => hempty (congrArg some h)
      have hafter := resolve_afterTenant segs hseg (hparam (segment t))
      have hresolve : resolve (segment t :: "tasks" :: seg :: segs) restRouter =
          resolve ("tasks" :: seg :: segs) (afterTenant (segment t)) := by
        by_cases htne : t = "tasks"
        · have hsegment : segment t = "tasks" := by
            rw [htne]
            decide
          rw [hsegment]
          exact resolve_tenant_tasks (htasks (congrArg some htne))
        · exact resolve_tenant (segment_ne_empty ht) (segment_ne_tasks htne) (by decide)
      exact hresolve.trans hafter

/-- The route of `message:send`, under a tenant or not. -/
theorem resolve_send (hempty : tenant ≠ some "") (htasks : tenant ≠ some "tasks") :
    resolve (tenantSegs tenant ++ ["message:send"]) restRouter =
      some (tenantCaptures tenant, { post := handleSendMessage }) :=
  resolve_single (by decide) rfl (fun _ => rfl) hempty htasks

/-- The route of `message:stream`. -/
theorem resolve_stream (hempty : tenant ≠ some "") (htasks : tenant ≠ some "tasks") :
    resolve (tenantSegs tenant ++ ["message:stream"]) restRouter =
      some (tenantCaptures tenant, { post := handleStreamMessage }) :=
  resolve_single (by decide) rfl (fun _ => rfl) hempty htasks

/-- The route of the list of tasks. -/
theorem resolve_list (hempty : tenant ≠ some "") (htasks : tenant ≠ some "tasks") :
    resolve (tenantSegs tenant ++ ["tasks"]) restRouter =
      some (tenantCaptures tenant, { get := handleListTasks }) :=
  resolve_single (by decide) rfl (fun _ => rfl) hempty htasks

/-- The route of the extended card. -/
theorem resolve_card (hempty : tenant ≠ some "") (htasks : tenant ≠ some "tasks") :
    resolve (tenantSegs tenant ++ ["extendedAgentCard"]) restRouter =
      some (tenantCaptures tenant, { get := handleGetExtendedAgentCard }) :=
  resolve_single (by decide) rfl (fun _ => rfl) hempty htasks

/-- What goes on after a task's id. -/
theorem mem_afterTask {id : String} {r : List PathPart × Captures × MethodRouter}
    (h : r ∈ afterTask id) :
    r.1 ∈ [[], [.lit "cancel"], [.lit "subscribe"], [.lit "pushNotificationConfigs"],
      [.lit "push-configs"], [.lit "pushNotificationConfigs", .param "config_id"],
      [.lit "push-configs", .param "config_id"]] := by
  simp only [afterTask, List.mem_cons, List.not_mem_nil, or_false] at h
  rcases h with h | h | h | h | h | h | h
  all_goals rw [h]
  all_goals simp

/-- The literals that may follow a task's id. -/
def taskActions : List String := ["cancel", "subscribe", "pushNotificationConfigs", "push-configs"]

/-- Those that another id may follow. -/
def taskCollections : List String := ["pushNotificationConfigs", "push-configs"]

/-- The routes of a task spell out an action or a collection after it. -/
theorem fits_afterTask {id seg : String} {segs : List String} {captures : Captures}
    {r : List PathPart × Captures × MethodRouter} (hr : r ∈ afterTask id)
    (hfits : Fits r.1 (seg :: segs) captures) :
    segs = [] ∧ seg ∈ taskActions ∨ ∃ config, segs = [config] ∧ seg ∈ taskCollections := by
  have hparts := mem_afterTask hr
  simp only [List.mem_cons, List.not_mem_nil, or_false] at hparts
  rcases hparts with h | h | h | h | h | h | h
  all_goals rw [h] at hfits
  all_goals cases hfits
  all_goals rename_i hfits
  all_goals cases hfits
  · exact Or.inl ⟨rfl, by decide⟩
  · exact Or.inl ⟨rfl, by decide⟩
  · exact Or.inl ⟨rfl, by decide⟩
  · exact Or.inl ⟨rfl, by decide⟩
  · rename_i hfits
    cases hfits
    exact Or.inr ⟨_, rfl, by decide⟩
  · rename_i hfits
    cases hfits
    exact Or.inr ⟨_, rfl, by decide⟩

/-- The route of a task, unless a tenant `tasks` makes an action of it. -/
theorem resolve_task {seg : String} (hempty : tenant ≠ some "") (hseg : seg ≠ "")
    (htasks : tenant = some "tasks" → seg ∉ taskActions) :
    resolve (tenantSegs tenant ++ ["tasks", seg]) restRouter =
      some (tenantCaptures tenant ++ [("id", seg)],
        { get := handleGetTaskOrSubscribe, post := handlePostTaskAction }) := by
  refine resolve_under hseg rfl (fun _ => rfl) hempty ?_
  intro htenant r hr captures hfits
  rcases fits_afterTask hr hfits with h | ⟨config, h, -⟩
  · exact htasks htenant h.2
  · cases h

/-- The route of a task's configurations, with the like exception. -/
theorem resolve_configs {seg : String} (hempty : tenant ≠ some "") (hseg : seg ≠ "")
    (htasks : tenant = some "tasks" → seg ∉ taskCollections) :
    resolve (tenantSegs tenant ++ ["tasks", seg, "pushNotificationConfigs"]) restRouter =
      some (tenantCaptures tenant ++ [("id", seg)],
        { post := handleCreatePushConfig, get := handleListPushConfigs }) := by
  refine resolve_under hseg rfl (fun _ => rfl) hempty ?_
  intro htenant r hr captures hfits
  rcases fits_afterTask hr hfits with h | ⟨config, -, h⟩
  · cases h.1
  · exact htasks htenant h

/-- The route of one of them, which has none. -/
theorem resolve_config {seg config : String} (hempty : tenant ≠ some "") (hseg : seg ≠ "")
    (hconfig : config ≠ "") :
    resolve (tenantSegs tenant ++ ["tasks", seg, "pushNotificationConfigs", config]) restRouter =
      some (tenantCaptures tenant ++ [("id", seg), ("config_id", config)],
        { get := handleGetPushConfig, delete := handleDeletePushConfig }) := by
  refine resolve_under hseg ?_ ?_ hempty ?_
  · simp [resolve, afterTask, literalStep, paramStep, hconfig]
  · intro t
    simp [resolve, afterTenantTask, literalStep, paramStep, hconfig]
  · intro htenant r hr captures hfits
    rcases fits_afterTask hr hfits with h | ⟨config', h, -⟩
    · cases h.1
    · cases h

/-- The older route of a subscription. -/
theorem resolve_legacySubscribe {seg : String} (hseg : seg ≠ "") :
    resolve ["tasks", seg, "subscribe"] restRouter =
      some ([("id", seg)],
        { get := handleSubscribeToTaskLegacy, post := handleSubscribeToTaskLegacy }) :=
  resolve_afterTask ["subscribe"] hseg rfl

end routes

/-! ## the segments of the client's paths -/

/-- The tenant as the segments of a path have it: a dot leaves none. -/
def pathTenant (tenant : Option String) : Option String :=
  (tenant.bind emptyToNone).filter fun tenant => tenant ≠ "." ∧ tenant ≠ ".."

theorem emptyToNone_of_ne {s : String} (h : s ≠ "") : emptyToNone s = some s := if_neg h

/-- The path a client builds, as segments. -/
theorem tenantPath_slashed (tenant : Option String) (segs : List String) :
    tenantPath tenant (slashed segs) = slashed (tenantSegs (tenant.bind emptyToNone) ++ segs) := by
  cases tenant with
  | none => rfl
  | some t =>
      by_cases ht : t = ""
      · rw [ht]
        rfl
      · rw [Option.bind_some, emptyToNone_of_ne ht, tenantPath, if_pos ht]
        rfl

/-- A segment the client writes: it has no slash, and stands for a text that
is no dot. -/
def Plain (seg text : String) : Prop :=
  '/' ∉ seg.toList ∧ percentDecode seg = some text ∧ text ≠ "." ∧ text ≠ ".."

/-- An encoded id has no slash. -/
theorem slash_not_mem_segment (id : String) : '/' ∉ (segment id).toList :=
  fun h => slash_not_isSegmentChar (isSegmentChar_of_mem_percentEncode h)

/-- Nor has an encoded tenant. -/
theorem slash_not_mem_tenantSegs {tenant : Option String} {seg : String}
    (h : seg ∈ tenantSegs tenant) : '/' ∉ seg.toList := by
  cases tenant with
  | none => exact absurd h List.not_mem_nil
  | some t =>
      rw [List.mem_singleton.mp h]
      exact slash_not_mem_segment t

/-- An id is one segment that decodes to it, unless it is one or two dots. -/
theorem plain_segment {id : String} (hsingle : id ≠ ".") (hdouble : id ≠ "..") :
    Plain (segment id) id :=
  ⟨slash_not_mem_segment id, percentDecode_percentEncode id, hsingle, hdouble⟩

/-- Whether a literal stands for itself. -/
def isPlainLiteral (text : String) : Bool :=
  '/' ∉ text.toList ∧ 0x25 ∉ utf8 text ∧ text ≠ "." ∧ text ≠ ".."

/-- So is a literal of the routes. -/
theorem plain_literal {text : String} (h : isPlainLiteral text = true) : Plain text text := by
  have hplain := of_decide_eq_true h
  exact ⟨hplain.1, percentDecode_of_not_mem hplain.2.1, hplain.2.2⟩

theorem plain_tasks : Plain "tasks" "tasks" := plain_literal (by decide)

theorem plain_configs : Plain "pushNotificationConfigs" "pushNotificationConfigs" :=
  plain_literal (by decide)

/-- A task's id with an action. -/
theorem plain_action (id : String) {action : String} (hslash : '/' ∉ action.toList)
    (hpercent : 0x25 ∉ utf8 action) (hlen : 2 < action.length) :
    Plain (segment id ++ action) (id ++ action) := by
  have hlong : 2 < (id ++ action).length := by
    rw [String.length_append]
    omega
  refine ⟨?_, percentDecode_append id hpercent, ?_, ?_⟩
  · rw [String.toList_append, List.mem_append]
    exact not_or.mpr ⟨slash_not_mem_segment id, hslash⟩
  · intro h
    rw [h] at hlong
    exact absurd hlong (by decide)
  · intro h
    rw [h] at hlong
    exact absurd hlong (by decide)

/-- A segment that stands for a text is not taken for dots. -/
theorem Plain.undotted {seg text : String} (h : Plain seg text) : Undotted seg :=
  undotted_of_decode h.2.1 h.2.2.1 h.2.2.2

/-- **The segments a server sees of a path the client builds.** -/
theorem urlSegments_tenantPath (tenant : Option String) {seg text : String} {segs : List String}
    (hseg : Plain seg text) (hsegs : ∀ s ∈ segs, ∃ text, Plain s text) :
    urlSegments (tenantPath tenant (slashed (seg :: segs))) =
      tenantSegs (pathTenant tenant) ++ seg :: segs := by
  have hplain : ∀ s ∈ seg :: segs, '/' ∉ s.toList ∧ Undotted s := by
    intro s hs
    rcases List.mem_cons.mp hs with h | h
    · rw [h]
      exact ⟨hseg.1, hseg.undotted⟩
    · obtain ⟨text', htext⟩ := hsegs s h
      exact ⟨htext.1, htext.undotted⟩
  have hundotted : ∀ before, removeDots before (seg :: segs) = before.reverse ++ seg :: segs :=
    fun before => removeDots_of_undotted fun s hs => (hplain s hs).2
  rw [tenantPath_slashed, urlSegments_slashed]
  · rw [pathTenant]
    cases tenant.bind emptyToNone with
    | none => exact hundotted []
    | some t =>
        have hdecode : percentDecode (segment t) = some t := percentDecode_percentEncode t
        have hcons : tenantSegs (some t) ++ seg :: segs = segment t :: seg :: segs := rfl
        have hdouble : isDoubleDot (segment t) ↔ t = ".." := by
          rw [isDoubleDot, hdecode, Option.some_inj]
        have hsingle : isSingleDot (segment t) ↔ t = "." := by
          rw [isSingleDot, hdecode, Option.some_inj]
        rw [hcons, removeDots]
        by_cases hd : t = ".."
        · rw [if_pos (hdouble.mpr hd), if_neg (List.cons_ne_nil _ _), hd]
          exact hundotted []
        · by_cases hs : t = "."
          · rw [if_neg (mt hdouble.mp hd), if_pos (hsingle.mpr hs),
              if_neg (List.cons_ne_nil _ _), hs]
            exact hundotted []
          · have hkept : (some t).filter (fun t => t ≠ "." ∧ t ≠ "..") = some t := by
              simp [hs, hd]
            rw [if_neg (mt hdouble.mp hd), if_neg (mt hsingle.mp hs), hkept]
            exact hundotted [segment t]
  · intro s hs
    rcases List.mem_append.mp hs with h | h
    · exact slash_not_mem_tenantSegs h
    · exact (hplain s h).1

/-! ## from the request to the call -/

theorem slashed_task (seg : String) (rest : List String) :
    slashed ("tasks" :: seg :: rest) = "/tasks/" ++ seg ++ slashed rest := by
  apply String.toList_injective
  simp [slashed]

/-- The captures of a tenant decode to it. -/
theorem decodeCaptures_tenant (tenant : Option String) {rest params : Captures}
    (h : decodeCaptures rest = some params) :
    decodeCaptures (tenantCaptures tenant ++ rest) = some (tenantParams tenant ++ params) := by
  cases tenant with
  | none => exact h
  | some t =>
      have hdecode : percentDecode (segment t) = some t := percentDecode_percentEncode t
      have hcons : tenantCaptures (some t) ++ rest = ("tenant", segment t) :: rest := rfl
      rw [hcons, decodeCaptures_cons, hdecode, h]
      rfl

/-- The capture of an id decodes to it. -/
theorem decodeCaptures_id {seg id : String} (h : percentDecode seg = some id) :
    decodeCaptures [("id", seg)] = some [("id", id)] := by
  rw [decodeCaptures_cons, h]
  rfl

/-- So do those of a task and its configuration. -/
theorem decodeCaptures_config {seg id config configId : String} (h : percentDecode seg = some id)
    (hconfig : percentDecode config = some configId) :
    decodeCaptures [("id", seg), ("config_id", config)] =
      some [("id", id), ("config_id", configId)] := by
  rw [decodeCaptures_cons, decodeCaptures_cons, h, hconfig]
  rfl

/-- A request reaches the handler of its route, with the captures decoded. -/
theorem dispatchSegments_of {method : RestMethod} {segs : List String} {body : RestBody}
    {captures params : Captures} {router : MethodRouter} {handler : RestHandler}
    (hresolve : resolve segs restRouter = some (captures, router))
    (hhandler : router.handler method = some handler)
    (hparams : decodeCaptures captures = some params) :
    dispatchSegments method segs body = handler params body := by
  rw [dispatchSegments, hresolve]
  dsimp only
  rw [hhandler]
  dsimp only
  rw [hparams]

/-- So does one that is given by its path. -/
theorem dispatch_of {request : RestRequest} {segs : List String} {captures params : Captures}
    {router : MethodRouter} {handler : RestHandler} (hsegs : urlSegments request.path = segs)
    (hresolve : resolve segs restRouter = some (captures, router))
    (hhandler : router.handler request.method = some handler)
    (hparams : decodeCaptures captures = some params) :
    dispatch request = handler params request.body := by
  rw [dispatch, hsegs]
  exact dispatchSegments_of hresolve hhandler hparams

section handlers

variable (tenant : Option String)

/-- The tenant is read back from the parameters. -/
theorem pathString_tenantParams : pathString (tenantParams tenant) = tenant := by
  cases tenant with
  | none => rfl
  | some t => rfl

/-- So are a tenant and an id. -/
theorem taskPath_tenantParams (id : TaskId) :
    TaskPath.read (tenantParams tenant ++ [("id", id)]) = .ok ⟨tenant, id⟩ := by
  cases tenant with
  | none => rfl
  | some t => rfl

/-- So is a configuration's id with them. -/
theorem pushConfigPath_tenantParams (id : TaskId) (configId : String) :
    PushConfigPath.read (tenantParams tenant ++ [("id", id), ("config_id", configId)]) =
      .ok ⟨tenant, id, configId⟩ := by
  cases tenant with
  | none => rfl
  | some t => rfl

theorem bind_emptyToNone_eq_some {tenant : Option String} {t : String} :
    tenant.bind emptyToNone = some t ↔ tenant = some t ∧ t ≠ "" := by
  rw [Option.bind_eq_some_iff]
  constructor
  · rintro ⟨t', ht', h⟩
    unfold emptyToNone at h
    split at h
    · exact absurd h.symm (Option.some_ne_none t)
    · rename_i hne
      rw [← Option.some.inj h]
      exact ⟨ht', hne⟩
  · rintro ⟨h, hne⟩
    exact ⟨t, h, emptyToNone_of_ne hne⟩

/-- A tenant in the path is neither empty nor dots. -/
theorem pathTenant_eq_some {tenant : Option String} {t : String} (h : pathTenant tenant = some t) :
    tenant = some t ∧ t ≠ "" ∧ t ≠ "." ∧ t ≠ ".." := by
  rw [pathTenant, Option.filter_eq_some_iff] at h
  have htenant := bind_emptyToNone_eq_some.mp h.1
  have hdots := of_decide_eq_true h.2
  exact ⟨htenant.1, htenant.2, hdots.1, hdots.2⟩

theorem pathTenant_ne_empty : pathTenant tenant ≠ some "" :=
  fun h => (pathTenant_eq_some h).2.1 rfl

variable {tenant} in
/-- It is not `tasks` if that is not the tenant. -/
theorem pathTenant_ne_tasks (h : tenant ≠ some "tasks") : pathTenant tenant ≠ some "tasks" :=
  fun heq => h (pathTenant_eq_some heq).1

variable {tenant} in
/-- A tenant that is no dots stands in the path. -/
theorem pathTenant_of_pathTenant (h : PathTenant tenant) :
    pathTenant tenant = tenant.bind emptyToNone := by
  rw [pathTenant]
  cases hread : tenant.bind emptyToNone with
  | none => rfl
  | some t =>
      have htenant := bind_emptyToNone_eq_some.mp hread
      have hkept : t ≠ "." ∧ t ≠ ".." := by
        constructor
        · intro hdot
          rw [hdot] at htenant
          exact h.1 htenant.1
        · intro hdot
          rw [hdot] at htenant
          exact h.2 htenant.1
      exact if_pos (decide_eq_true hkept)

/-- The tenant of the body is the path's, or the path has lost it. -/
theorem reconcileTenant_pathTenant :
    reconcileTenant (pathTenant tenant) (tenant.bind emptyToNone) =
      .ok (tenant.bind emptyToNone) := by
  cases hpath : pathTenant tenant with
  | none => rfl
  | some t =>
      have htenant := pathTenant_eq_some hpath
      rw [bind_emptyToNone_eq_some.mpr ⟨htenant.1, htenant.2.1⟩, reconcileTenant, if_neg]
      exact not_not_intro rfl

theorem emptyToNone_getD_eq_bind (text : Option String) :
    emptyToNone (text.getD "") = text.bind emptyToNone := by
  cases text with
  | none => rfl
  | some t => rfl

/-- An action at the end is stripped. -/
theorem stripSuffix_append (s action : String) : stripSuffix action (s ++ action) = some s := by
  have hends : action.toList.isSuffixOf (s ++ action).toList = true := by
    rw [String.toList_append, List.isSuffixOf_iff_suffix]
    exact List.suffix_append _ _
  rw [stripSuffix, if_pos hends, String.toList_append, List.length_append, Nat.add_sub_cancel,
    List.take_left, String.ofList_toList]

end handlers

/-! ## what arrives -/

section arrives

variable (tenant : Option String)

theorem noSegs : ∀ s ∈ ([] : List String), ∃ text, Plain s text :=
  fun _ hs => absurd hs List.not_mem_nil

/-- A path of one literal, under a tenant or not, reaches its handler. -/
theorem dispatch_single {tenant : Option String} {path literal : String} {router : MethodRouter}
    (method : RestMethod) {handler : RestHandler} (body : RestBody)
    (hpath : path = slashed [literal]) (hplain : Plain literal literal)
    (hresolve : resolve (tenantSegs (pathTenant tenant) ++ [literal]) restRouter =
      some (tenantCaptures (pathTenant tenant), router))
    (hhandler : router.handler method = some handler) :
    dispatch ⟨method, tenantPath tenant path, body⟩ =
      handler (tenantParams (pathTenant tenant)) body := by
  have hsegs := urlSegments_tenantPath tenant hplain noSegs
  have hparams : decodeCaptures [] = some [] := rfl
  have hdecode := decodeCaptures_tenant (pathTenant tenant) hparams
  rw [List.append_nil, List.append_nil] at hdecode
  rw [← hpath] at hsegs
  exact dispatch_of hsegs hresolve hhandler hdecode

/-- So does a path of a task. -/
theorem dispatch_task {tenant : Option String} {path seg id : String} {rest : List String}
    {captures params : Captures} {router : MethodRouter} (method : RestMethod)
    {handler : RestHandler} (body : RestBody) (hpath : path = slashed ("tasks" :: seg :: rest))
    (hplain : Plain seg id) (hrest : ∀ s ∈ rest, ∃ text, Plain s text)
    (hresolve : resolve (tenantSegs (pathTenant tenant) ++ "tasks" :: seg :: rest) restRouter =
      some (tenantCaptures (pathTenant tenant) ++ captures, router))
    (hhandler : router.handler method = some handler)
    (hparams : decodeCaptures captures = some params) :
    dispatch ⟨method, tenantPath tenant path, body⟩ =
      handler (tenantParams (pathTenant tenant) ++ params) body := by
  have hall : ∀ s ∈ seg :: rest, ∃ text, Plain s text := by
    intro s hs
    rcases List.mem_cons.mp hs with h | h
    · rw [h]
      exact ⟨id, hplain⟩
    · exact hrest s h
  have hsegs := urlSegments_tenantPath tenant plain_tasks hall
  rw [← hpath] at hsegs
  exact dispatch_of hsegs hresolve hhandler (decodeCaptures_tenant _ hparams)

/-- **`send_message` arrives** unless its tenant is `tasks`. -/
theorem arrives_send (taskId : Option TaskId) (htasks : tenant ≠ some "tasks") :
    dispatch (RestTransport.request (.sendMessage tenant taskId)) =
      .ok (RestCall.asRead (.sendMessage tenant taskId)) := by
  have hplain : Plain "message:send" "message:send" :=
    plain_literal (by decide)
  have hresolve := resolve_send (pathTenant_ne_empty tenant) (pathTenant_ne_tasks htasks)
  have hpath : restSendMessagePath = slashed ["message:send"] := by decide
  have hdispatch := dispatch_single .post ⟨tenant, taskId.getD "", none⟩ hpath hplain hresolve rfl
  rw [RestTransport.request, hdispatch, handleSendMessage, pathString_tenantParams]
  simp only [reconcileTenant_pathTenant, emptyToNone_getD_eq_bind]
  rfl

/-- **`send_streaming_message` arrives** unless its tenant is `tasks`. -/
theorem arrives_stream (taskId : Option TaskId) (htasks : tenant ≠ some "tasks") :
    dispatch (RestTransport.request (.sendStreamingMessage tenant taskId)) =
      .ok (RestCall.asRead (.sendStreamingMessage tenant taskId)) := by
  have hplain : Plain "message:stream" "message:stream" :=
    plain_literal (by decide)
  have hresolve := resolve_stream (pathTenant_ne_empty tenant) (pathTenant_ne_tasks htasks)
  have hpath : restStreamMessagePath = slashed ["message:stream"] := by decide
  have hdispatch := dispatch_single .post ⟨tenant, taskId.getD "", none⟩ hpath hplain hresolve rfl
  rw [RestTransport.request, hdispatch, handleStreamMessage, pathString_tenantParams]
  simp only [reconcileTenant_pathTenant, emptyToNone_getD_eq_bind]
  rfl

/-- **`list_tasks` arrives** unless its tenant is dots or `tasks`. -/
theorem arrives_list (hdots : PathTenant tenant) (htasks : tenant ≠ some "tasks") :
    dispatch (RestTransport.request (.listTasks tenant)) =
      .ok (RestCall.asRead (.listTasks tenant)) := by
  have hresolve := resolve_list (pathTenant_ne_empty tenant) (pathTenant_ne_tasks htasks)
  have hpath : "/tasks" = slashed ["tasks"] := by decide
  have hdispatch := dispatch_single .get .empty hpath plain_tasks hresolve rfl
  rw [RestTransport.request, hdispatch, handleListTasks, pathString_tenantParams,
    pathTenant_of_pathTenant hdots, RestCall.asRead]

/-- **`get_extended_agent_card` arrives** likewise. -/
theorem arrives_card (hdots : PathTenant tenant) (htasks : tenant ≠ some "tasks") :
    dispatch (RestTransport.request (.getExtendedAgentCard tenant)) =
      .ok (RestCall.asRead (.getExtendedAgentCard tenant)) := by
  have hplain : Plain "extendedAgentCard" "extendedAgentCard" :=
    plain_literal (by decide)
  have hresolve := resolve_card (pathTenant_ne_empty tenant) (pathTenant_ne_tasks htasks)
  have hpath : restExtendedAgentCardPath = slashed ["extendedAgentCard"] := by decide
  have hdispatch := dispatch_single .get .empty hpath hplain hresolve rfl
  rw [RestTransport.request, hdispatch, handleGetExtendedAgentCard, pathString_tenantParams,
    pathTenant_of_pathTenant hdots, RestCall.asRead]

/-- A segment with a colon is no literal of a task's routes. -/
theorem not_mem_taskActions {seg : String} (h : ':' ∈ seg.toList) : seg ∉ taskActions := by
  intro hmem
  simp only [taskActions, List.mem_cons, List.not_mem_nil, or_false] at hmem
  rcases hmem with heq | heq | heq | heq
  all_goals rw [heq] at h
  all_goals exact absurd h (by decide)

/-- The paths with an action arrive where a task's do. -/
theorem dispatch_action (method : RestMethod) {handler : RestHandler} (id : TaskId)
    (action : String) (body : RestBody) (hslash : '/' ∉ action.toList)
    (hpercent : 0x25 ∉ utf8 action) (hlen : 2 < action.length) (hcolon : ':' ∈ action.toList)
    (hhandler : MethodRouter.handler { get := handleGetTaskOrSubscribe, post := handlePostTaskAction }
      method = some handler) :
    dispatch ⟨method, tenantPath tenant ("/tasks/" ++ segment id ++ action), body⟩ =
      handler (tenantParams (pathTenant tenant) ++ [("id", id ++ action)]) body := by
  have hplain := plain_action id hslash hpercent hlen
  have hpath : "/tasks/" ++ segment id ++ action = slashed ["tasks", segment id ++ action] := by
    rw [slashed_task, ← String.append_assoc]
    exact String.append_empty.symm
  have hin : ':' ∈ (segment id ++ action).toList := by
    rw [String.toList_append]
    exact List.mem_append_right _ hcolon
  have hne : segment id ++ action ≠ "" := by
    intro h
    rw [h] at hin
    exact absurd hin (by decide)
  have hresolve := resolve_task (pathTenant_ne_empty tenant) hne fun _ => not_mem_taskActions hin
  exact dispatch_task method body hpath hplain noSegs hresolve hhandler
    (decodeCaptures_id hplain.2.1)

/-- **`cancel_task` arrives** always: the body says the tenant again. -/
theorem arrives_cancel (id : TaskId) :
    dispatch (RestTransport.request (.cancelTask tenant id)) =
      .ok (RestCall.asRead (.cancelTask tenant id)) := by
  have hdispatch := dispatch_action tenant .post id ":cancel" ⟨tenant, id, none⟩
    (by decide) (by decide) (by decide) (by decide) rfl
  rw [RestTransport.request, hdispatch, handlePostTaskAction, taskPath_tenantParams]
  simp only [bind, Except.bind, stripSuffix_append, handleCancelTaskInner,
    reconcileTenant_pathTenant]
  rfl

/-- **`subscribe_to_task` arrives** for any id, if its tenant is no dots. -/
theorem arrives_subscribe (id : TaskId) (hdots : PathTenant tenant) :
    dispatch (RestTransport.request (.subscribeToTask tenant id)) =
      .ok (RestCall.asRead (.subscribeToTask tenant id)) := by
  have hdispatch := dispatch_action tenant .get id ":subscribe" .empty
    (by decide) (by decide) (by decide) (by decide) rfl
  rw [RestTransport.request, hdispatch, handleGetTaskOrSubscribe, taskPath_tenantParams]
  simp only [bind, Except.bind, stripSuffix_append, pathTenant_of_pathTenant hdots]
  rfl

/-- An id that is no literal is not encoded as one. -/
theorem segment_not_mem {literals : List String} (hlits : ∀ s ∈ literals, percentEncode s = s)
    {id : String} (h : id ∉ literals) : segment id ∉ literals := by
  intro hmem
  have hdecode := percentDecode_percentEncode (segment id)
  rw [hlits _ hmem, segment, percentDecode_percentEncode] at hdecode
  have hid : id = segment id := Option.some.inj hdecode
  rw [← hid] at hmem
  exact h hmem

theorem segment_not_mem_taskActions {id : String} (h : id ∉ taskActions) :
    segment id ∉ taskActions := by
  apply segment_not_mem _ h
  simp only [taskActions, List.forall_mem_cons]
  exact ⟨by decide, by decide, by decide, by decide, fun _ hs => absurd hs List.not_mem_nil⟩

theorem segment_not_mem_taskCollections {id : String} (h : id ∉ taskCollections) :
    segment id ∉ taskCollections := by
  apply segment_not_mem _ h
  simp only [taskCollections, List.forall_mem_cons]
  exact ⟨by decide, by decide, fun _ hs => absurd hs List.not_mem_nil⟩

/-- **`get_task` arrives** unless its id passes for an action. -/
theorem arrives_getTask (id : TaskId) (hdots : PathTenant tenant) (hid : PathId id)
    (haction : stripSuffix ":subscribe" id = none)
    (htasks : tenant = some "tasks" → id ∉ taskActions) :
    dispatch (RestTransport.request (.getTask tenant id)) =
      .ok (RestCall.asRead (.getTask tenant id)) := by
  have hplain := plain_segment hid.2.1 hid.2.2
  have hpath : "/tasks/" ++ segment id = slashed ["tasks", segment id] := by
    rw [slashed_task]
    exact String.append_empty.symm
  have hresolve := resolve_task (pathTenant_ne_empty tenant) (segment_ne_empty hid.1) fun h =>
    segment_not_mem_taskActions (htasks (pathTenant_eq_some h).1)
  have hdispatch := dispatch_task .get .empty hpath hplain noSegs hresolve rfl
    (decodeCaptures_id hplain.2.1)
  rw [RestTransport.request, hdispatch, handleGetTaskOrSubscribe, taskPath_tenantParams]
  simp only [bind, Except.bind, haction, pathTenant_of_pathTenant hdots]
  rfl

/-- The paths of a task's configurations. -/
theorem dispatch_configs (method : RestMethod) {handler : RestHandler} (taskId : TaskId)
    (body : RestBody) (hid : PathId taskId)
    (htasks : tenant = some "tasks" → taskId ∉ taskCollections)
    (hhandler : MethodRouter.handler { post := handleCreatePushConfig, get := handleListPushConfigs }
      method = some handler) :
    dispatch ⟨method,
        tenantPath tenant ("/tasks/" ++ segment taskId ++ "/pushNotificationConfigs"), body⟩ =
      handler (tenantParams (pathTenant tenant) ++ [("id", taskId)]) body := by
  have hplain := plain_segment hid.2.1 hid.2.2
  have hliteral : "/pushNotificationConfigs" = slashed ["pushNotificationConfigs"] := by decide
  have hpath : "/tasks/" ++ segment taskId ++ "/pushNotificationConfigs" =
      slashed ["tasks", segment taskId, "pushNotificationConfigs"] := by
    rw [slashed_task, ← hliteral]
  have hrest : ∀ s ∈ ["pushNotificationConfigs"], ∃ text, Plain s text := by
    intro s hs
    rw [List.mem_singleton.mp hs]
    exact ⟨_, plain_configs⟩
  have hresolve := resolve_configs (pathTenant_ne_empty tenant) (segment_ne_empty hid.1) fun h =>
    segment_not_mem_taskCollections (htasks (pathTenant_eq_some h).1)
  exact dispatch_task method body hpath hplain hrest hresolve hhandler
    (decodeCaptures_id hplain.2.1)

/-- **`create_push_config` arrives** unless its task passes for a collection. -/
theorem arrives_createPushConfig (taskId : TaskId) (id : Option String) (hid : PathId taskId)
    (htasks : tenant = some "tasks" → taskId ∉ taskCollections) :
    dispatch (RestTransport.request (.createPushConfig tenant taskId id)) =
      .ok (RestCall.asRead (.createPushConfig tenant taskId id)) := by
  have hdispatch := dispatch_configs tenant .post taskId ⟨tenant, taskId, id⟩ hid htasks rfl
  have hparse : parseCreatePushConfigRequest taskId ⟨tenant, taskId, id⟩ =
      .ok (taskId, id.bind emptyToNone) := if_neg fun h => h.2 rfl
  rw [RestTransport.request, hdispatch, handleCreatePushConfig, taskPath_tenantParams]
  simp only [bind, Except.bind, hparse, reconcileTenant_pathTenant]
  rfl

/-- **`list_push_configs` arrives** likewise. -/
theorem arrives_listPushConfigs (taskId : TaskId) (hdots : PathTenant tenant) (hid : PathId taskId)
    (htasks : tenant = some "tasks" → taskId ∉ taskCollections) :
    dispatch (RestTransport.request (.listPushConfigs tenant taskId)) =
      .ok (RestCall.asRead (.listPushConfigs tenant taskId)) := by
  have hdispatch := dispatch_configs tenant .get taskId .empty hid htasks rfl
  rw [RestTransport.request, hdispatch, handleListPushConfigs, taskPath_tenantParams,
    pathTenant_of_pathTenant hdots]
  rfl

/-- The path of one configuration. -/
theorem dispatch_config (method : RestMethod) {handler : RestHandler} (taskId : TaskId)
    (id : String) (body : RestBody) (htaskId : PathId taskId) (hid : PathId id)
    (hhandler : MethodRouter.handler { get := handleGetPushConfig, delete := handleDeletePushConfig }
      method = some handler) :
    dispatch ⟨method, tenantPath tenant
        ("/tasks/" ++ segment taskId ++ "/pushNotificationConfigs/" ++ segment id), body⟩ =
      handler (tenantParams (pathTenant tenant) ++ [("id", taskId), ("config_id", id)]) body := by
  have hplain := plain_segment htaskId.2.1 htaskId.2.2
  have hconfig := plain_segment hid.2.1 hid.2.2
  have hpath : "/tasks/" ++ segment taskId ++ "/pushNotificationConfigs/" ++ segment id =
      slashed ["tasks", segment taskId, "pushNotificationConfigs", segment id] := by
    apply String.toList_injective
    simp [slashed]
  have hrest : ∀ s ∈ ["pushNotificationConfigs", segment id], ∃ text, Plain s text := by
    intro s hs
    rcases List.mem_pair.mp hs with h | h
    · rw [h]
      exact ⟨_, plain_configs⟩
    · rw [h]
      exact ⟨_, hconfig⟩
  have hresolve := resolve_config (pathTenant_ne_empty tenant) (segment_ne_empty htaskId.1)
    (segment_ne_empty hid.1)
  exact dispatch_task method body hpath hplain hrest hresolve hhandler
    (decodeCaptures_config hplain.2.1 hconfig.2.1)

/-- **`get_push_config` arrives** for ids that are no dots. -/
theorem arrives_getPushConfig (taskId : TaskId) (id : String) (hdots : PathTenant tenant)
    (htaskId : PathId taskId) (hid : PathId id) :
    dispatch (RestTransport.request (.getPushConfig tenant taskId id)) =
      .ok (RestCall.asRead (.getPushConfig tenant taskId id)) := by
  have hdispatch := dispatch_config tenant .get taskId id .empty htaskId hid rfl
  rw [RestTransport.request, hdispatch, handleGetPushConfig, pushConfigPath_tenantParams,
    pathTenant_of_pathTenant hdots]
  rfl

/-- **`delete_push_config` arrives** likewise. -/
theorem arrives_deletePushConfig (taskId : TaskId) (id : String) (hdots : PathTenant tenant)
    (htaskId : PathId taskId) (hid : PathId id) :
    dispatch (RestTransport.request (.deletePushConfig tenant taskId id)) =
      .ok (RestCall.asRead (.deletePushConfig tenant taskId id)) := by
  have hdispatch := dispatch_config tenant .delete taskId id .empty htaskId hid rfl
  rw [RestTransport.request, hdispatch, handleDeletePushConfig, pushConfigPath_tenantParams,
    pathTenant_of_pathTenant hdots]
  rfl

/-- The older path of a subscription arrives, if there is no tenant. -/
theorem arrives_legacySubscribe (id : TaskId) (htenant : tenant.bind emptyToNone = none)
    (hid : PathId id) :
    dispatch (RestTransport.legacySubscribeRequest tenant id) =
      .ok (RestCall.asRead (.subscribeToTask tenant id)) := by
  have hplain := plain_segment hid.2.1 hid.2.2
  have hliteral : "/subscribe" = slashed ["subscribe"] := by decide
  have hpath : "/tasks/" ++ segment id ++ "/subscribe" =
      slashed ["tasks", segment id, "subscribe"] := by
    rw [slashed_task, ← hliteral]
  have hrest : ∀ s ∈ ["subscribe"], ∃ text, Plain s text := by
    intro s hs
    rw [List.mem_singleton.mp hs]
    exact ⟨_, plain_literal (by decide)⟩
  have hnone : pathTenant tenant = none := by
    rw [pathTenant, htenant]
    rfl
  have hresolve := resolve_legacySubscribe (segment_ne_empty hid.1)
  have hplace : resolve (tenantSegs (pathTenant tenant) ++ "tasks" :: segment id :: ["subscribe"])
      restRouter = some (tenantCaptures (pathTenant tenant) ++ [("id", segment id)],
        { get := handleSubscribeToTaskLegacy, post := handleSubscribeToTaskLegacy }) := by
    rw [hnone]
    exact hresolve
  have hdispatch := dispatch_task .get .empty hpath hplain hrest hplace rfl
    (decodeCaptures_id hplain.2.1)
  rw [RestTransport.legacySubscribeRequest, hdispatch, hnone, RestCall.asRead, htenant]
  rfl

end arrives

/-- **A routable request arrives.** -/
theorem dispatch_of_routable (attempt : RestAttempt) (h : attempt.Routable) :
    dispatch attempt.request = .ok attempt.call.asRead := by
  cases attempt with
  | legacySubscribe tenant id => exact arrives_legacySubscribe tenant id h.1 h.2
  | operation call =>
      cases call with
      | sendMessage tenant taskId => exact arrives_send tenant taskId h
      | sendStreamingMessage tenant taskId => exact arrives_stream tenant taskId h
      | getTask tenant id => exact arrives_getTask tenant id h.1 h.2.1 h.2.2.1 h.2.2.2
      | listTasks tenant => exact arrives_list tenant h.1 h.2
      | cancelTask tenant id => exact arrives_cancel tenant id
      | subscribeToTask tenant id => exact arrives_subscribe tenant id h
      | createPushConfig tenant taskId id => exact arrives_createPushConfig tenant taskId id h.1 h.2
      | getPushConfig tenant taskId id =>
          exact arrives_getPushConfig tenant taskId id h.1 h.2.1 h.2.2
      | listPushConfigs tenant taskId =>
          exact arrives_listPushConfigs tenant taskId h.1 h.2.1 h.2.2
      | deletePushConfig tenant taskId id =>
          exact arrives_deletePushConfig tenant taskId id h.1 h.2.1 h.2.2
      | getExtendedAgentCard tenant => exact arrives_card tenant h.1 h.2

end A2a
