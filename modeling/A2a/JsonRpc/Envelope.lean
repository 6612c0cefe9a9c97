import A2a.JsonRpc

/-!
# A2a.JsonRpc.Envelope

How the JSON-RPC server classifies a request (`jsonrpc_classified`).

The reference tells what a body is from its members alone: `MembersFit` is
that each field is there at most once and has what it takes, whatever the
order, and `Reading.Shaped` what request they make.  A body that is no JSON
has a first flaw; `Reading.FlawMet` is that what stands before it fits.
-/

namespace A2a

/-! ## the shape of a request -/

/-- The fields of a request, in the order of the struct. -/
def requestKeys : List String := ["jsonrpc", "id", "method", "params"]

namespace Content

def string? (content : Content) : Option String := content.value?.bind Value.asStr

def id? (content : Content) : Option JsonRpcId := content.value?.bind JsonRpcId.read

/-- `null` stands for no parameters. -/
def params? (content : Content) : Option (Option Value) :=
  content.value?.map fun v => optionalField (some v)

/-- Whether an unknown member is passed over. -/
def skipped? : Content → Bool
  | .value _ => true
  | .flawed _ skipped _ => skipped

/-- Whether a field takes what stands there. -/
def fits (key : String) (content : Content) : Bool :=
  if key = "jsonrpc" then content.string?.isSome
  else if key = "id" then content.id?.isSome
  else if key = "method" then content.string?.isSome
  else if key = "params" then content.params?.isSome
  else content.skipped?

end Content

/-- Each field is there at most once, and has what it takes. -/
def MembersFit (members : List (String × Content)) : Prop :=
  (∀ key ∈ requestKeys, (members.map (·.1)).count key ≤ 1) ∧
    ∀ member ∈ members, member.2.fits member.1 = true

/-- The fields among some members. -/
def fieldsOf (members : List (String × Content)) : RequestFields where
  jsonrpc := (members.lookup "jsonrpc").bind Content.string?
  id := (members.lookup "id").bind Content.id?
  method := (members.lookup "method").bind Content.string?
  params := (members.lookup "params").bind Content.params?

/-- The request that fields make. -/
def RequestFields.Makes (fields : RequestFields) (q : JsonRpcRequest) : Prop :=
  fields.jsonrpc = some q.jsonrpc ∧ fields.id = some q.id ∧ fields.method = some q.method ∧
    fields.params.join = q.params

/-- An array stands for the fields in order. -/
def positional (elements : List Content) : List (String × Content) := requestKeys.zip elements

namespace Reading

/-- The request a body is the shape of. -/
def Shaped (q : JsonRpcRequest) : Reading → Prop
  | .object members _ => MembersFit members ∧ (fieldsOf members).Makes q
  | .array elements _ =>
      elements.length ≤ requestKeys.length ∧ MembersFit (positional elements) ∧
        (fieldsOf (positional elements)).Makes q
  | _ => False

/-- An array of more than the fields. -/
def Overlong : Reading → Prop
  | .array elements _ => requestKeys.length < elements.length
  | _ => False

end Reading

/-- Whether a flaw is met where a member is read: a bracket where a text is
expected, or an ignored value, is not read so far. -/
def Content.stops (key : String) : Content → Bool
  | .value _ => false
  | .flawed opens skipped _ =>
      if key = "jsonrpc" ∨ key = "method" then !opens
      else if key = "id" ∨ key = "params" then true
      else !skipped

/-- A flaw is met, and what stands before it fits. -/
inductive Reading.FlawMet : Reading → Prop
  | unread {flaw : String} : FlawMet (.unread flaw)
  | member {before after : List (String × Content)} {key : String} {content : Content}
      {ending : JsonEnding} (hfit : MembersFit before)
      (hnew : key ∈ requestKeys → key ∉ before.map (·.1)) (hstops : content.stops key = true) :
      FlawMet (.object (before ++ (key, content) :: after) ending)
  | unclosed {members : List (String × Content)} {flaw : String} (hfit : MembersFit members) :
      FlawMet (.object members (.unclosed flaw))
  | trailing {members : List (String × Content)} {flaw : String} {q : JsonRpcRequest}
      (hshaped : (Reading.object members (.trailing flaw)).Shaped q) :
      FlawMet (.object members (.trailing flaw))
  | array {elements : List Content} {ending : JsonEnding}
      (hlength : elements.length ≤ requestKeys.length)
      (hmet : FlawMet (.object (positional elements) ending)) : FlawMet (.array elements ending)

/-! ## the methods -/

/-- How the parameters of each method are decoded. -/
def methodTable (json : ProtoJson) : List (String × (Value → Except String HandlerCall)) :=
  [(Methods.sendMessage, fun v => (json.sendMessageRequest v).map .sendMessage),
    (Methods.sendStreamingMessage, fun v => (json.sendMessageRequest v).map .sendStreamingMessage),
    (Methods.getTask, fun v => (json.getTaskRequest v).map .getTask),
    (Methods.listTasks, fun v => (json.listTasksRequest v).map .listTasks),
    (Methods.cancelTask, fun v => (json.cancelTaskRequest v).map .cancelTask),
    (Methods.subscribeToTask, fun v => (json.subscribeToTaskRequest v).map .subscribeToTask),
    (Methods.createPushConfig, fun v => (json.taskPushNotificationConfig v).map .createPushConfig),
    (Methods.getPushConfig,
      fun v => (json.getTaskPushNotificationConfigRequest v).map .getPushConfig),
    (Methods.listPushConfigs,
      fun v => (json.listTaskPushNotificationConfigsRequest v).map .listPushConfigs),
    (Methods.deletePushConfig,
      fun v => (json.deleteTaskPushNotificationConfigRequest v).map .deletePushConfig),
    (Methods.getExtendedAgentCard,
      fun v => (json.getExtendedAgentCardRequest v).map .getExtendedAgentCard)]

/-- The name of the method that makes a call. -/
def HandlerCall.method : HandlerCall → String
  | .sendMessage _ => Methods.sendMessage
  | .sendStreamingMessage _ => Methods.sendStreamingMessage
  | .getTask _ => Methods.getTask
  | .listTasks _ => Methods.listTasks
  | .cancelTask _ => Methods.cancelTask
  | .subscribeToTask _ => Methods.subscribeToTask
  | .createPushConfig _ => Methods.createPushConfig
  | .getPushConfig _ => Methods.getPushConfig
  | .listPushConfigs _ => Methods.listPushConfigs
  | .deletePushConfig _ => Methods.deletePushConfig
  | .getExtendedAgentCard _ => Methods.getExtendedAgentCard

variable {members before : List (String × Content)} {member : String × Content}
  {fields fields' : RequestFields} {key : String} {content : Content}

/-! ## one member -/

theorem once_ok_iff {α : Type} {found found' : Option α} {read : Except JsonError α} :
    RequestFields.once key found read = .ok found' ↔
      found = none ∧ ∃ a, read = .ok a ∧ found' = some a := by
  unfold RequestFields.once
  cases found with
  | some a => simp
  | none => cases read <;> simp [Except.map, eq_comm]

theorem Content.readString_ok_iff {s : String} :
    content.readString = .ok s ↔ content.string? = some s := by
  cases content with
  | value v => cases v <;> simp [readString, string?, value?, Value.asStr]
  | flawed opens skipped flaw => cases opens <;> simp [readString, string?, value?]

theorem deserialize_ok_iff {id : JsonRpcId} :
    JsonRpcId.deserialize content = .ok id ↔ content.id? = some id := by
  cases content with
  | flawed opens skipped flaw =>
      simp [JsonRpcId.deserialize, Content.readValue, Content.id?, Content.value?, bind, Except.bind]
  | value v =>
      show JsonRpcId.deserialize (.value v) = .ok id ↔ JsonRpcId.read v = some id
      simp only [JsonRpcId.deserialize, Content.readValue, bind, Except.bind]
      cases hread : JsonRpcId.read v with
      | some id' => simp
      | none => cases v <;> simp

theorem Content.readParams_ok_iff {params : Option Value} :
    (content.readValue.map fun v => optionalField (some v)) = .ok params ↔
      content.params? = some params := by
  cases content <;> simp [readValue, params?, value?, Except.map]

theorem Content.ignore_ok_iff : content.ignore = .ok () ↔ content.skipped? = true := by
  cases content with
  | value v => simp [ignore, skipped?]
  | flawed opens skipped flaw => cases skipped <;> simp [ignore, skipped?]

theorem lookup_snoc (before : List (String × Content)) (key k : String) (content : Content) :
    (before ++ [(key, content)]).lookup k =
      (before.lookup k).or (if k = key then some content else none) := by
  rw [List.lookup_append]
  by_cases hk : k = key
  · subst hk
    simp
  · have hfalse : (k == key) = false := beq_false_of_ne hk
    simp [List.lookup_cons, hfalse, hk]

theorem lookup_eq_none_of_new (hnew : key ∉ before.map (·.1)) : before.lookup key = none := by
  rw [List.lookup_eq_none_iff]
  intro member hmember
  have hne : key ≠ member.1 := fun heq => hnew (heq ▸ List.mem_map_of_mem hmember)
  exact bne_iff_ne.mpr hne

/-- A field is found exactly if a member has its key. -/
theorem MembersFit.lookup_eq_none_iff (h : MembersFit before) {α : Type}
    (read? : Content → Option α) (hfits : ∀ content, content.fits key = (read? content).isSome) :
    (before.lookup key).bind read? = none ↔ key ∉ before.map (·.1) := by
  constructor
  · intro hnone hmem
    obtain ⟨member, hmember, hkey⟩ := List.mem_map.mp hmem
    cases hlookup : before.lookup key with
    | none =>
        have hne := List.lookup_eq_none_iff.mp hlookup member hmember
        simp [hkey] at hne
    | some content =>
        obtain ⟨l₁, l₂, rfl, -⟩ := List.lookup_eq_some_iff.mp hlookup
        have hsome := hfits content ▸ h.2 (key, content) (by simp)
        rw [hlookup, Option.bind_some] at hnone
        rw [hnone] at hsome
        contradiction
  · intro hnew
    rw [lookup_eq_none_of_new hnew, Option.bind_none]

/-- A field of a request is taken exactly if it is new and fits. -/
theorem MembersFit.visit_known (h : MembersFit before) {α : Type} (read? : Content → Option α)
    (hfits : ∀ content, content.fits key = (read? content).isSome) {read : Except JsonError α}
    (hread : ∀ a, read = .ok a ↔ read? content = some a) {set : Option α → RequestFields}
    (hset : key ∉ before.map (·.1) →
      fieldsOf (before ++ [(key, content)]) = set (read? content)) :
    (RequestFields.once key ((before.lookup key).bind read?) read).map set = .ok fields' ↔
      key ∉ before.map (·.1) ∧ content.fits key = true ∧
        fields' = fieldsOf (before ++ [(key, content)]) := by
  have hnew := h.lookup_eq_none_iff read? hfits
  have hmap : (RequestFields.once key ((before.lookup key).bind read?) read).map set = .ok fields' ↔
      ∃ found, RequestFields.once key ((before.lookup key).bind read?) read = .ok found ∧
        fields' = set found := by
    cases RequestFields.once key ((before.lookup key).bind read?) read <;>
      simp [Except.map, eq_comm]
  rw [hmap, hfits]
  simp only [once_ok_iff, hnew, hread]
  constructor
  · rintro ⟨found, ⟨hkey, a, ha, rfl⟩, rfl⟩
    rw [hset hkey, ha]
    exact ⟨hkey, rfl, rfl⟩
  · rintro ⟨hkey, hsome, rfl⟩
    obtain ⟨a, ha⟩ := Option.isSome_iff_exists.mp hsome
    rw [hset hkey, ha]
    exact ⟨some a, ⟨hkey, a, rfl, rfl⟩, rfl⟩

/-- An unknown member adds no field. -/
theorem fieldsOf_unknown (hkey : key ∉ requestKeys) :
    fieldsOf (before ++ [(key, content)]) = fieldsOf before := by
  have hne (k : String) (hk : k ∈ requestKeys) :
      (before ++ [(key, content)]).lookup k = before.lookup k := by
    have hne : k ≠ key := by
      rintro rfl
      exact hkey hk
    rw [lookup_snoc, if_neg hne, Option.or_none]
  unfold fieldsOf
  rw [hne _ (by decide), hne _ (by decide), hne _ (by decide), hne _ (by decide)]

/-- **One member**: it is taken exactly if its field is new and it fits. -/
theorem visit_ok_iff (h : MembersFit before) (key : String) (content : Content) :
    (fieldsOf before).visit (key, content) = .ok fields' ↔
      (key ∈ requestKeys → key ∉ before.map (·.1)) ∧ content.fits key = true ∧
        fields' = fieldsOf (before ++ [(key, content)]) := by
  by_cases hkey : key ∈ requestKeys
  · have hcases : key = "jsonrpc" ∨ key = "id" ∨ key = "method" ∨ key = "params" := by
      simpa [requestKeys] using hkey
    simp only [hkey, true_implies]
    obtain rfl | rfl | rfl | rfl := hcases
    · exact h.visit_known Content.string? (fun _ => rfl) (fun _ => Content.readString_ok_iff)
        fun hnew => by simp [fieldsOf, lookup_snoc, lookup_eq_none_of_new hnew]
    · exact h.visit_known Content.id? (fun _ => rfl) (fun _ => deserialize_ok_iff)
        fun hnew => by simp [fieldsOf, lookup_snoc, lookup_eq_none_of_new hnew]
    · exact h.visit_known Content.string? (fun _ => rfl) (fun _ => Content.readString_ok_iff)
        fun hnew => by simp [fieldsOf, lookup_snoc, lookup_eq_none_of_new hnew]
    · exact h.visit_known Content.params? (fun _ => rfl) (fun _ => Content.readParams_ok_iff)
        fun hnew => by simp [fieldsOf, lookup_snoc, lookup_eq_none_of_new hnew]
  · have hne : key ≠ "jsonrpc" ∧ key ≠ "id" ∧ key ≠ "method" ∧ key ≠ "params" := by
      simpa [requestKeys] using hkey
    rw [fieldsOf_unknown hkey]
    simp only [RequestFields.visit, hne, if_false, hkey, false_implies, true_and, Content.fits]
    rw [← Content.ignore_ok_iff]
    cases content.ignore <;> simp [Except.map, eq_comm]

/-! ## all members -/

theorem membersFit_snoc : MembersFit (before ++ [(key, content)]) ↔
    MembersFit before ∧ (key ∈ requestKeys → key ∉ before.map (·.1)) ∧ content.fits key = true := by
  unfold MembersFit
  simp only [List.map_append, List.map_cons, List.map_nil, List.count_append, List.mem_append,
    List.mem_singleton]
  constructor
  · rintro ⟨hcount, hfits⟩
    refine ⟨⟨fun k hk => by have := hcount k hk; omega, fun m hm => hfits m (.inl hm)⟩, ?_,
      hfits (key, content) (.inr rfl)⟩
    intro hkey hmem
    have hone := hcount key hkey
    have hpos := List.count_pos_iff.mpr hmem
    simp at hone
    omega
  · rintro ⟨⟨hcount, hfits⟩, hnew, hfit⟩
    constructor
    · intro k hk
      by_cases heq : k = key
      · subst heq
        simp [List.count_eq_zero.mpr (hnew hk)]
      · have hzero : [key].count k = 0 := List.count_eq_zero.mpr (by simpa using heq)
        have hle := hcount k hk
        omega
    · rintro m (hm | rfl)
      · exact hfits m hm
      · exact hfit

theorem foldlM_visit_snoc (fields : RequestFields) (before : List (String × Content))
    (member : String × Content) :
    (before ++ [member]).foldlM RequestFields.visit fields =
      before.foldlM RequestFields.visit fields >>= fun fields => fields.visit member := by
  rw [List.foldlM_append]
  simp

/-- **All members**: they are taken exactly if they fit. -/
theorem foldlM_visit_ok_iff (members : List (String × Content)) (fields : RequestFields) :
    members.foldlM RequestFields.visit .empty = .ok fields ↔
      MembersFit members ∧ fields = fieldsOf members := by
  induction members using List.reverseRecOn generalizing fields with
  | nil =>
      have hfit : MembersFit [] := ⟨by simp, by simp⟩
      simp only [List.foldlM_nil, hfit, true_and]
      show Except.ok RequestFields.empty = .ok fields ↔ fields = RequestFields.empty
      rw [Except.ok.injEq, eq_comm]
  | append_singleton before member ih =>
      obtain ⟨key, content⟩ := member
      rw [foldlM_visit_snoc, membersFit_snoc]
      cases hbefore : before.foldlM RequestFields.visit .empty with
      | error e =>
          have hnot : ¬ MembersFit before := by
            intro hfit
            have hok := (ih (fieldsOf before)).mpr ⟨hfit, rfl⟩
            rw [hbefore] at hok
            contradiction
          simp [hnot, bind, Except.bind]
      | ok found =>
          obtain ⟨hfit, rfl⟩ := (ih found).mp hbefore
          show (fieldsOf before).visit (key, content) = .ok fields ↔ _
          rw [visit_ok_iff hfit]
          simp [hfit, and_assoc]

/-! ## what a reader stops at -/

theorem once_flaw {α : Type} {found : Option α} {read : Except JsonError α} {flaw : String}
    {set : Option α → RequestFields} (hfound : found = none) (hread : read = .error (.flaw flaw)) :
    (RequestFields.once key found read).map set = .error (.flaw flaw) := by
  rw [hfound, hread]
  rfl

theorem visit_stops (hnew : key ∈ requestKeys → key ∉ before.map (·.1))
    (hstops : content.stops key = true) :
    ∃ flaw, (fieldsOf before).visit (key, content) = .error (.flaw flaw) := by
  cases content with
  | value v => contradiction
  | flawed opens skipped flaw =>
      have hnone {α : Type} (read? : Content → Option α) (hkey : key ∈ requestKeys) :
          (before.lookup key).bind read? = none := by
        rw [lookup_eq_none_of_new (hnew hkey), Option.bind_none]
      refine ⟨flaw, ?_⟩
      simp only [RequestFields.visit]
      by_cases hjsonrpc : key = "jsonrpc"
      · subst hjsonrpc
        obtain rfl : opens = false := by simpa [Content.stops] using hstops
        exact once_flaw (hnone _ (by decide)) rfl
      by_cases hid : key = "id"
      · subst hid
        exact once_flaw (hnone _ (by decide)) rfl
      by_cases hmethod : key = "method"
      · subst hmethod
        obtain rfl : opens = false := by simpa [Content.stops] using hstops
        exact once_flaw (hnone _ (by decide)) rfl
      by_cases hparams : key = "params"
      · subst hparams
        exact once_flaw (hnone _ (by decide)) rfl
      · obtain rfl : skipped = false := by
          simpa [Content.stops, hjsonrpc, hid, hmethod, hparams] using hstops
        rw [if_neg hjsonrpc, if_neg hid, if_neg hmethod, if_neg hparams]
        rfl

/-- A value is refused for what it is, not for a flaw. -/
theorem visit_value_isData {v : Value} {e : JsonError}
    (h : fields.visit (key, .value v) = .error e) : e.isData = true := by
  have honce {α : Type} {found : Option α} {read : Except JsonError α}
      {set : Option α → RequestFields} (hread : ∀ e, read = .error e → e.isData = true)
      (he : (RequestFields.once key found read).map set = .error e) : e.isData = true := by
    unfold RequestFields.once at he
    split at he
    · obtain rfl := Except.error.inj he
      rfl
    · cases hr : read with
      | ok a =>
          rw [hr] at he
          contradiction
      | error e' =>
          rw [hr] at he
          obtain rfl := Except.error.inj he
          exact hread e' hr
  have hstring (e : JsonError) (he : (Content.value v).readString = .error e) : e.isData = true := by
    cases v
    all_goals first
      | contradiction
      | (obtain rfl := Except.error.inj he; rfl)
  simp only [RequestFields.visit] at h
  split at h
  · exact honce hstring h
  split at h
  · refine honce ?_ h
    intro e he
    simp only [JsonRpcId.deserialize, Content.readValue, bind, Except.bind] at he
    split at he
    · contradiction
    · obtain rfl := Except.error.inj he
      rfl
    · obtain rfl := Except.error.inj he
      rfl
  split at h
  · exact honce hstring h
  split at h
  · exact honce (fun e he => by contradiction) h
  · contradiction

theorem foldlM_value_isData {e : JsonError} (hvalues : ∀ member ∈ members, ∃ v, member.2 = .value v)
    (h : members.foldlM RequestFields.visit fields = .error e) : e.isData = true := by
  induction members generalizing fields with
  | nil => contradiction
  | cons member members ih =>
      obtain ⟨key, content⟩ := member
      obtain ⟨v, hv⟩ := hvalues (key, content) (.head _)
      obtain rfl : content = .value v := hv
      rw [List.foldlM_cons] at h
      cases hvisit : fields.visit (key, .value v) with
      | error e' =>
          rw [hvisit] at h
          obtain rfl := Except.error.inj h
          exact visit_value_isData hvisit
      | ok found =>
          rw [hvisit] at h
          exact ih (fun member hmember => hvalues member (.tail _ hmember)) h

/-! ## readings -/

variable {q : JsonRpcRequest} {ending : JsonEnding} {elements : List Content} {R : Reading}

theorem finish_ok_iff : fields.finish = .ok q ↔ fields.Makes q := by
  obtain ⟨jsonrpc, id, method, params⟩ := fields
  obtain ⟨jsonrpc', id', method', params'⟩ := q
  cases jsonrpc <;> cases id <;> cases method <;>
    simp [RequestFields.finish, RequestFields.Makes]

theorem finish_isData {e : JsonError} (h : fields.finish = .error e) : e.isData = true := by
  unfold RequestFields.finish at h
  split at h
  all_goals first
    | contradiction
    | (obtain rfl := Except.error.inj h; rfl)

theorem request_object (members : List (String × Content)) (ending : JsonEnding) :
    (Reading.object members ending).request =
      (members.foldlM RequestFields.visit .empty).bind fun fields =>
        ending.close.bind fun _ => fields.finish.bind fun request =>
          ending.finish.map fun _ => request := by
  simp only [Reading.request, bind, pure, Except.pure]
  rfl

/-- **An object** is read as a request exactly if it is the shape of one
and nothing follows it. -/
theorem request_object_ok_iff :
    (Reading.object members ending).request = .ok q ↔
      (Reading.object members ending).Shaped q ∧ ending = .closed := by
  have hvisit := foldlM_visit_ok_iff members
  rw [request_object, Reading.Shaped]
  cases hfold : members.foldlM RequestFields.visit .empty with
  | error e =>
      have hnot : ¬ MembersFit members := by
        intro hfit
        have hok := (hvisit (fieldsOf members)).mpr ⟨hfit, rfl⟩
        rw [hfold] at hok
        contradiction
      simp [hnot, Except.bind]
  | ok fields =>
      obtain ⟨hfit, rfl⟩ := (hvisit fields).mp hfold
      simp only [hfit, true_and, ← finish_ok_iff]
      cases hfinish : (fieldsOf members).finish <;> cases ending <;>
        simp [Except.bind, Except.map, JsonEnding.close, JsonEnding.finish, hfinish]

/-- Where a flaw is met, it is what is reported. -/
theorem request_object_flaw (h : (Reading.object members ending).FlawMet) :
    ∃ flaw, (Reading.object members ending).request = .error (.flaw flaw) := by
  rw [request_object]
  cases h with
  | @member before after key content _ hfit hnew hstops =>
      have hbefore := (foldlM_visit_ok_iff before _).mpr ⟨hfit, rfl⟩
      obtain ⟨flaw, hflaw⟩ := visit_stops hnew hstops
      refine ⟨flaw, ?_⟩
      rw [List.foldlM_append, hbefore]
      show ((fieldsOf before).visit (key, content) >>= _).bind _ = _
      rw [hflaw]
      rfl
  | unclosed hfit =>
      rw [(foldlM_visit_ok_iff members _).mpr ⟨hfit, rfl⟩]
      exact ⟨_, rfl⟩
  | @trailing _ flaw q hshaped =>
      rw [(foldlM_visit_ok_iff members _).mpr ⟨hshaped.1, rfl⟩]
      refine ⟨flaw, ?_⟩
      show (fieldsOf members).finish.bind _ = _
      rw [finish_ok_iff.mpr hshaped.2]
      rfl

/-! ## arrays -/

@[simp] theorem requiredElement_cons (content : Content) (rest : List Content) (n : Nat) :
    requiredElement (content :: rest) ending n = .ok (content, rest) := rfl

@[simp] theorem requiredElement_nil (n : Nat) :
    requiredElement [] ending n = ending.close.bind fun _ => .error (.invalidLength n) := by
  cases ending <;> rfl

@[simp] theorem visit_jsonrpc (content : Content) (id : Option JsonRpcId) (method : Option String)
    (params : Option (Option Value)) :
    RequestFields.visit ⟨none, id, method, params⟩ ("jsonrpc", content) =
      content.readString.map fun s => ⟨some s, id, method, params⟩ := by
  simp only [RequestFields.visit, RequestFields.once]
  cases content.readString <;> rfl

@[simp] theorem visit_id (content : Content) (jsonrpc method : Option String)
    (params : Option (Option Value)) :
    RequestFields.visit ⟨jsonrpc, none, method, params⟩ ("id", content) =
      (JsonRpcId.deserialize content).map fun id => ⟨jsonrpc, some id, method, params⟩ := by
  simp only [RequestFields.visit, RequestFields.once]
  cases JsonRpcId.deserialize content <;> rfl

@[simp] theorem visit_method (content : Content) (jsonrpc : Option String) (id : Option JsonRpcId)
    (params : Option (Option Value)) :
    RequestFields.visit ⟨jsonrpc, id, none, params⟩ ("method", content) =
      content.readString.map fun s => ⟨jsonrpc, id, some s, params⟩ := by
  simp only [RequestFields.visit, RequestFields.once]
  cases content.readString <;> rfl

@[simp] theorem visit_params (content : Content) (jsonrpc method : Option String)
    (id : Option JsonRpcId) :
    RequestFields.visit ⟨jsonrpc, id, method, none⟩ ("params", content) =
      content.readValue.map fun v => ⟨jsonrpc, id, method, some (optionalField (some v))⟩ := by
  simp only [RequestFields.visit, RequestFields.once]
  cases content.readValue <;> rfl

/-- An array of at most the fields is read as they are in order, but for the
wording of what is missing. -/
theorem request_array (hlength : elements.length ≤ requestKeys.length) (ending : JsonEnding) :
    (Reading.array elements ending).request.mapError JsonError.isData =
      (Reading.object (positional elements) ending).request.mapError JsonError.isData := by
  rw [request_object, Reading.request, RequestFields.empty, positional]
  match elements, hlength with
  | [], _ => cases ending <;> rfl
  | [a], _ =>
      cases ha : a.readString <;> cases ending <;>
        simp [visitSeq, requestKeys, bind, Except.bind, Except.map, JsonEnding.close, ha] <;> rfl
  | [a, b], _ =>
      cases ha : a.readString <;> cases hb : JsonRpcId.deserialize b <;> cases ending <;>
        simp [visitSeq, requestKeys, bind, Except.bind, Except.map, JsonEnding.close, ha, hb] <;> rfl
  | [a, b, c], _ =>
      cases ha : a.readString <;> cases hb : JsonRpcId.deserialize b <;>
        cases hc : c.readString <;> cases ending <;>
        simp [visitSeq, nextElement, requestKeys, bind, Except.bind, Except.map, JsonEnding.close,
          ha, hb, hc] <;> rfl
  | [a, b, c, d], _ =>
      cases ha : a.readString <;> cases hb : JsonRpcId.deserialize b <;>
        cases hc : c.readString <;> cases hd : d.readValue <;> cases ending <;>
        simp [visitSeq, nextElement, requestKeys, bind, Except.bind, Except.map, JsonEnding.close,
          ha, hb, hc, hd] <;> rfl

/-- Two readings that differ in the wording of an error alone. -/
theorem ok_iff_of_mapError {x y : Except JsonError JsonRpcRequest}
    (h : x.mapError JsonError.isData = y.mapError JsonError.isData) : x = .ok q ↔ y = .ok q := by
  cases x <;> cases y <;> simp_all [Except.mapError]

theorem isData_of_mapError {x y : Except JsonError JsonRpcRequest} {e : JsonError}
    (h : x.mapError JsonError.isData = y.mapError JsonError.isData) (hx : x = .error e) :
    ∃ e', y = .error e' ∧ e.isData = e'.isData := by
  subst hx
  cases y with
  | ok q => simp [Except.mapError] at h
  | error e' => exact ⟨e', rfl, Except.error.inj h⟩

/-! ## bodies that are JSON -/

theorem memberValue?_eq_some {field : String × Value} :
    memberValue? member = some field ↔ member = (field.1, .value field.2) := by
  obtain ⟨key, content⟩ := member
  obtain ⟨key', v⟩ := field
  cases content <;> simp [memberValue?, Content.value?]

theorem mapM_memberValue? {fields : List (String × Value)}
    (h : members.mapM memberValue? = some fields) :
    members = fields.map fun field => (field.1, Content.value field.2) := by
  induction members generalizing fields with
  | nil =>
      obtain rfl : fields = [] := by simpa using h.symm
      rfl
  | cons member members ih =>
      rw [List.mapM_cons] at h
      cases hmember : memberValue? member with
      | none => simp [hmember] at h
      | some field =>
          cases hrest : members.mapM memberValue? with
          | none => simp [hmember, hrest] at h
          | some rest =>
              obtain rfl : fields = field :: rest := by simpa [hmember, hrest, eq_comm] using h
              rw [List.map_cons, ← ih hrest, memberValue?_eq_some.mp hmember]

theorem mapM_value? {vs : List Value} (h : elements.mapM Content.value? = some vs) :
    elements = vs.map .value := by
  induction elements generalizing vs with
  | nil =>
      obtain rfl : vs = [] := by simpa using h.symm
      rfl
  | cons content elements ih =>
      rw [List.mapM_cons] at h
      cases content with
      | flawed opens skipped flaw => simp [Content.value?] at h
      | value v =>
          cases hrest : elements.mapM Content.value? with
          | none => simp [hrest] at h
          | some rest =>
              obtain rfl : vs = v :: rest := by
                simpa [Content.value?, hrest, eq_comm] using h
              rw [List.map_cons, ← ih hrest]

/-- A body that is an object. -/
theorem value?_object {v : Value} (h : (Reading.object members ending).value? = some v) :
    ending = .closed ∧ ∃ fields : List (String × Value),
      members = (fields.map fun field => (field.1, Content.value field.2)) ∧
        v = .object (sortedFields (mapOfFields fields)) := by
  cases ending with
  | closed =>
      obtain ⟨fields, hfields, hv⟩ := Option.map_eq_some_iff.mp h
      exact ⟨rfl, fields, mapM_memberValue? hfields, hv.symm⟩
  | trailing flaw => contradiction
  | unclosed flaw => contradiction

/-- A body that is an array. -/
theorem value?_array {v : Value} (h : (Reading.array elements ending).value? = some v) :
    ending = .closed ∧ ∃ vs : List Value, elements = vs.map .value ∧ v = .array vs := by
  cases ending with
  | closed =>
      obtain ⟨vs, hvs, hv⟩ := Option.map_eq_some_iff.mp h
      exact ⟨rfl, vs, mapM_value? hvs, hv.symm⟩
  | trailing flaw => contradiction
  | unclosed flaw => contradiction

theorem request_object_isData (hvalues : ∀ member ∈ members, ∃ v, member.2 = .value v)
    {e : JsonError} (h : (Reading.object members .closed).request = .error e) :
    e.isData = true := by
  rw [request_object] at h
  cases hfold : members.foldlM RequestFields.visit .empty with
  | error e' =>
      rw [hfold] at h
      obtain rfl := Except.error.inj h
      exact foldlM_value_isData hvalues hfold
  | ok fields =>
      rw [hfold] at h
      cases hfinish : fields.finish with
      | error e' =>
          obtain rfl : e' = e := by simpa [Except.bind, JsonEnding.close, hfinish] using h
          exact finish_isData hfinish
      | ok q => simp [Except.bind, JsonEnding.close, JsonEnding.finish, Except.map, hfinish] at h

/-- **A body that is JSON** is read as the request it is the shape of, or
refused for its shape. -/
theorem request_valid {v : Value} (hv : R.value? = some v) (hlength : ¬ R.Overlong) :
    (∀ q, R.request = .ok q ↔ R.Shaped q) ∧ ∀ e, R.request = .error e → e.isData = true := by
  cases R with
  | object members ending =>
      obtain ⟨rfl, fields, rfl, -⟩ := value?_object hv
      refine ⟨fun q => by simp [request_object_ok_iff], fun e he => request_object_isData ?_ he⟩
      intro member hmember
      obtain ⟨field, -, rfl⟩ := List.mem_map.mp hmember
      exact ⟨field.2, rfl⟩
  | array elements ending =>
      obtain ⟨rfl, vs, rfl, -⟩ := value?_array hv
      have hlength : (vs.map Content.value).length ≤ requestKeys.length := Nat.le_of_not_lt hlength
      have hsame := request_array hlength .closed
      constructor
      · intro q
        rw [ok_iff_of_mapError hsame, request_object_ok_iff]
        simp only [Reading.Shaped, hlength, true_and, and_true]
      · intro e he
        obtain ⟨e', he', hdata⟩ := isData_of_mapError hsame he
        rw [hdata]
        refine request_object_isData ?_ he'
        intro member hmember
        obtain ⟨w, -, hw⟩ := List.mem_map.mp (List.of_mem_zip hmember).2
        exact ⟨w, hw.symm⟩
  | scalar w ending =>
      constructor
      · intro q
        simp [Reading.request, Reading.Shaped]
      · intro e he
        obtain rfl := Except.error.inj he
        rfl
  | unread flaw => contradiction

theorem not_overlong (h : R.Shaped q) : ¬ R.Overlong := by
  cases R with
  | array elements ending => exact Nat.not_lt.mpr h.1
  | object members ending => exact id
  | scalar v ending => exact id
  | unread flaw => exact id

/-- What is read as a request is the shape of it. -/
theorem shaped_of_request (h : R.request = .ok q) : R.Shaped q := by
  cases R with
  | object members ending => exact (request_object_ok_iff.mp h).1
  | array elements ending =>
      by_cases hlength : elements.length ≤ requestKeys.length
      · have hobject := (ok_iff_of_mapError (request_array hlength ending)).mp h
        exact ⟨hlength, (request_object_ok_iff.mp hobject).1⟩
      · -- what is left of it is a flaw
        rw [Reading.request] at h
        rcases elements with _ | ⟨a, _ | ⟨b, _ | ⟨c, _ | ⟨d, _ | ⟨e, rest⟩⟩⟩⟩⟩
        all_goals try simp [requestKeys] at hlength
        cases ha : a.readString <;> cases hb : JsonRpcId.deserialize b <;>
          cases hc : c.readString <;> cases hd : d.readValue <;>
          simp [visitSeq, nextElement, bind, Except.bind, Except.map, throw, throwThe,
            MonadExceptOf.throw, ha, hb, hc, hd] at h
  | scalar v ending => contradiction
  | unread flaw => contradiction

/-- **A body that is no JSON** is refused for the flaw that is met. -/
theorem request_flawMet (h : R.FlawMet) :
    R.value? = none ∧ ∃ e, R.request = .error e ∧ e.isData = false := by
  have hrequest : ¬ R.Overlong ∧ ∃ e, R.request = .error e ∧ e.isData = false := by
    cases h with
    | @unread flaw => exact ⟨id, .flaw flaw, rfl, rfl⟩
    | member hfit hnew hstops =>
        obtain ⟨flaw, hflaw⟩ := request_object_flaw (.member hfit hnew hstops)
        exact ⟨id, .flaw flaw, hflaw, rfl⟩
    | unclosed hfit =>
        obtain ⟨flaw, hflaw⟩ := request_object_flaw (.unclosed hfit)
        exact ⟨id, .flaw flaw, hflaw, rfl⟩
    | trailing hshaped =>
        obtain ⟨flaw, hflaw⟩ := request_object_flaw (.trailing hshaped)
        exact ⟨id, .flaw flaw, hflaw, rfl⟩
    | @array elements ending hlength hmet =>
        obtain ⟨flaw, hflaw⟩ := request_object_flaw hmet
        obtain ⟨e, he, hdata⟩ := isData_of_mapError (request_array hlength ending).symm hflaw
        exact ⟨Nat.not_lt.mpr hlength, e, he, hdata.symm⟩
  obtain ⟨hlength, e, he, hdata⟩ := hrequest
  refine ⟨?_, e, he, hdata⟩
  by_contra hsome
  obtain ⟨v, hv⟩ := Option.ne_none_iff_exists'.mp hsome
  have hyes := (request_valid hv hlength).2 e he
  rw [hdata] at hyes
  contradiction

/-! ## the id of a body -/

/-- The id of a body, where it has a valid one. -/
def bodyId (v : Value) : JsonRpcId := ((v.get "id").bind JsonRpcId.read).getD .null

theorem lookup_reverse_of_count {fields : List (String × Value)} {k : String}
    (h : (fields.map (·.1)).count k ≤ 1) : fields.reverse.lookup k = fields.lookup k := by
  induction fields with
  | nil => rfl
  | cons field fields ih =>
      rw [List.reverse_cons, List.lookup_append, List.lookup_cons]
      rw [List.map_cons, List.count_cons] at h
      by_cases hk : field.1 = k
      · have hbeq : (k == field.1) = true := by simp [hk]
        have hzero : (fields.map (·.1)).count k = 0 := by
          simp only [hk, beq_self_eq_true, if_true] at h
          omega
        have hnone : fields.reverse.lookup k = none := by
          rw [List.lookup_eq_none_iff]
          intro other hother
          have hnot := List.count_eq_zero.mp hzero
          have hne : k ≠ other.1 := fun heq =>
            hnot (heq ▸ List.mem_map_of_mem (List.mem_reverse.mp hother))
          exact bne_iff_ne.mpr hne
        rw [hnone, Option.none_or, List.lookup_cons, hbeq]
      · have hbeq : (k == field.1) = false := beq_false_of_ne (Ne.symm hk)
        have hle : (fields.map (·.1)).count k ≤ 1 := by omega
        rw [ih hle, List.lookup_cons, hbeq]
        simp

theorem lookup_values (fields : List (String × Value)) (k : String) :
    (fields.map fun field => (field.1, Content.value field.2)).lookup k =
      (fields.lookup k).map .value := by
  induction fields with
  | nil => rfl
  | cons field fields ih =>
      rw [List.map_cons, List.lookup_cons, List.lookup_cons]
      cases k == field.1
      · exact ih
      · rfl

/-- The id of a request that is an object is the body's. -/
theorem id_of_shaped {v : Value} (hv : (Reading.object members ending).value? = some v)
    (hshaped : (Reading.object members ending).Shaped q) : q.id = bodyId v := by
  obtain ⟨-, fields, rfl, rfl⟩ := value?_object hv
  obtain ⟨⟨hcount, -⟩, -, hid, -⟩ := hshaped
  have hkeys : (fields.map fun field => (field.1, Content.value field.2)).map (·.1) =
      fields.map (·.1) := by
    rw [List.map_map]
    rfl
  have hone := hcount "id" (by decide)
  rw [hkeys] at hone
  have hget : (Value.object (sortedFields (mapOfFields fields))).get "id" = fields.lookup "id" := by
    rw [Value.get, lookup_sortedFields, lookup_mapOfFields, lookup_reverse_of_count hone]
  have hfound : (fields.lookup "id").bind JsonRpcId.read = some q.id := by
    change ((fields.map fun field => (field.1, Content.value field.2)).lookup "id").bind Content.id? =
      some q.id at hid
    rw [← hid, lookup_values]
    cases fields.lookup "id" <;> rfl
  rw [bodyId, hget, hfound]
  rfl

/-! ## the method of a request -/

variable {json : ProtoJson}

/-- **The two dispatch tables** are one. -/
theorem dispatch_eq (json : ProtoJson) (q : JsonRpcRequest) :
    (if Methods.isStreaming q.method then handleStreamingRequest json q
      else handleUnaryRequest json q) =
      ((methodTable json).lookup q.method).elim
        (.error (if q.method = "" then .invalidRequest "method is required"
          else .methodNotFound q.method))
        fun decode => callOf id (decode q.paramsOrEmpty) := by
  have hcall {α : Type} (call : α → HandlerCall) (r : Except String α) :
      callOf id (r.map call) = callOf call r := by
    cases r <;> rfl
  by_cases hmethod : q.method ∈ (methodTable json).map (·.1)
  · simp only [methodTable, List.map_cons, List.map_nil, List.mem_cons, List.not_mem_nil,
      or_false] at hmethod
    rcases hmethod with h | h | h | h | h | h | h | h | h | h | h
    all_goals
      rw [h]
      simp [handleUnaryRequest, handleStreamingRequest, Methods.isStreaming, methodTable, h, hcall,
        List.lookup_cons, Methods.sendMessage, Methods.sendStreamingMessage, Methods.getTask,
        Methods.listTasks, Methods.cancelTask, Methods.subscribeToTask, Methods.createPushConfig,
        Methods.getPushConfig, Methods.listPushConfigs, Methods.deletePushConfig,
        Methods.getExtendedAgentCard]
  · have hnone : (methodTable json).lookup q.method = none := by
      rw [List.lookup_eq_none_iff]
      intro entry hentry
      have hne : q.method ≠ entry.1 := fun heq => hmethod (heq ▸ List.mem_map_of_mem hentry)
      exact bne_iff_ne.mpr hne
    simp only [methodTable, List.map_cons, List.map_nil, List.mem_cons, List.not_mem_nil, or_false,
      not_or] at hmethod
    rw [hnone]
    simp only [Methods.isStreaming, handleUnaryRequest, hmethod, decide_false, Bool.or_self,
      Bool.false_eq_true, if_false, Option.elim_none]
    split <;> rfl

/-- A decoded call is of the method it was decoded for. -/
theorem method_of_decode {method : String} {decode : Value → Except String HandlerCall} {v : Value}
    {call : HandlerCall} (h : (methodTable json).lookup method = some decode)
    (hcall : decode v = .ok call) : call.method = method := by
  have hmap {α : Type} {make : α → HandlerCall} {r : Except String α} (name : String)
      (hname : ∀ req, (make req).method = name) (hr : r.map make = .ok call) : call.method = name := by
    cases r with
    | error e => contradiction
    | ok req =>
        obtain rfl := Except.ok.inj hr
        exact hname req
  obtain ⟨l₁, l₂, htable, -⟩ := List.lookup_eq_some_iff.mp h
  have hmem : (method, decode) ∈ methodTable json := by
    rw [htable]
    simp
  simp only [methodTable, List.mem_cons, List.not_mem_nil, or_false, Prod.mk.injEq] at hmem
  rcases hmem with ⟨rfl, rfl⟩ | ⟨rfl, rfl⟩ | ⟨rfl, rfl⟩ | ⟨rfl, rfl⟩ | ⟨rfl, rfl⟩ | ⟨rfl, rfl⟩ |
    ⟨rfl, rfl⟩ | ⟨rfl, rfl⟩ | ⟨rfl, rfl⟩ | ⟨rfl, rfl⟩ | ⟨rfl, rfl⟩
  all_goals exact hmap _ (fun _ => rfl) hcall

/-! ## the answers -/

/-- The handler is not called, and the answer is an error. -/
def Served.Refuses (served : Served) (id : JsonRpcId) (code : Int) : Prop :=
  served.calls = [] ∧ ∃ err, served.answer = .envelope (.failure id err) ∧ err.code = code

/-- What a request that was read is answered. -/
structure Answered (json : ProtoJson) (params : ServiceParams) (q : JsonRpcRequest)
    (served : Served) : Prop where
  id : ∀ r, served.answer = .envelope r → r.id = q.id
  jsonrpc : q.jsonrpc ≠ "2.0" → served.Refuses q.id ErrorCode.invalidRequest
  version : q.jsonrpc = "2.0" → ∀ err, checkA2aVersion params = .error err →
    served.Refuses q.id err.code
  method : q.jsonrpc = "2.0" → checkA2aVersion params = .ok () → q.method = "" →
    served.Refuses q.id ErrorCode.invalidRequest
  unknown : q.jsonrpc = "2.0" → checkA2aVersion params = .ok () → q.method ≠ "" →
    (methodTable json).lookup q.method = none → served.Refuses q.id ErrorCode.methodNotFound
  undecoded : q.jsonrpc = "2.0" → checkA2aVersion params = .ok () → ∀ decode e,
    (methodTable json).lookup q.method = some decode → decode q.paramsOrEmpty = .error e →
    served.Refuses q.id ErrorCode.invalidParams
  called : q.jsonrpc = "2.0" → checkA2aVersion params = .ok () → ∀ decode call,
    (methodTable json).lookup q.method = some decode → decode q.paramsOrEmpty = .ok call →
    served.calls = [(params, call)] ∧ call.method = q.method

/-- How a body is classified. -/
structure Classified (json : ProtoJson) (params : ServiceParams) (R : Reading) (served : Served) :
    Prop where
  envelope : ∀ r, served.answer = .envelope r →
    r.jsonrpc = "2.0" ∧ r.result.isSome = r.error.isNone
  stream : ∀ id items, served.answer = .stream id items →
    ∃ q, R.Shaped q ∧ Methods.isStreaming q.method = true
  flawed : R.FlawMet → R.value? = none ∧ served.Refuses .null ErrorCode.parseError
  misshapen : ∀ v, R.value? = some v → ¬ R.Overlong → (∀ q, ¬ R.Shaped q) →
    served.Refuses (bodyId v) ErrorCode.invalidRequest
  shaped : ∀ v q, R.value? = some v → R.Shaped q → Answered json params q served
  id : ∀ members ending v q, R = .object members ending → R.value? = some v → R.Shaped q →
    q.id = bodyId v

variable {server : JsonRpcServer} {headers : HeaderMap} {query : Option (List (String × String))}
  {body : List UInt8}

/-- The handler is called for what is decoded of a request. -/
theorem handleJsonrpc_ok (json : ProtoJson) (headers : HeaderMap)
    (query : Option (List (String × String))) (q : JsonRpcRequest) :
    handleJsonrpc json headers query (.ok q) =
      if q.jsonrpc ≠ "2.0" then .error (.invalidRequest "invalid jsonrpc version")
      else
        (checkA2aVersion (httpParams headers query)).bind fun _ =>
          (((methodTable json).lookup q.method).elim
            (.error (if q.method = "" then .invalidRequest "method is required"
              else .methodNotFound q.method))
            fun decode => callOf id (decode q.paramsOrEmpty)).map
              fun call => (httpParams headers query, call) := by
  rw [← dispatch_eq]
  simp only [handleJsonrpc]
  cases checkA2aVersion (httpParams headers query) <;> rfl

/-- A request that was read and is refused. -/
theorem serve_refused {q : JsonRpcRequest} {err : A2AError}
    (hread : (server.reader.read body).request = .ok q)
    (h : handleJsonrpc server.json headers query (.ok q) = .error err) :
    server.serve headers query body =
      ⟨[], .envelope (errorResponse server.timestamp q.id err)⟩ := by
  simp only [JsonRpcServer.serve, hread, h]

/-- A request that was read and calls the handler. -/
theorem serve_called {q : JsonRpcRequest} {call : ServiceParams × HandlerCall}
    (hread : (server.reader.read body).request = .ok q)
    (h : handleJsonrpc server.json headers query (.ok q) = .ok call) :
    (server.serve headers query body).calls = [call] ∧
      ((∃ r, (server.serve headers query body).answer = .envelope r ∧ r.id = q.id ∧
          r.jsonrpc = "2.0" ∧ r.result.isSome = r.error.isNone) ∨
        ∃ items, (server.serve headers query body).answer = .stream q.id items ∧
          Methods.isStreaming q.method = true) := by
  simp only [JsonRpcServer.serve, hread, h, true_and]
  split
  · next hstreaming =>
      cases server.handler.streaming call.1 call.2 with
      | ok items => exact .inr ⟨items, rfl, hstreaming⟩
      | error err => exact .inl ⟨_, rfl, rfl, rfl, rfl⟩
  · cases unaryResult call.2 (server.handler.unary call.1 call.2) with
    | ok value => exact .inl ⟨_, rfl, rfl, rfl, rfl⟩
    | error err => exact .inl ⟨_, rfl, rfl, rfl, rfl⟩

theorem refuses_error {id : JsonRpcId} {err : A2AError} :
    Served.Refuses ⟨[], .envelope (errorResponse server.timestamp id err)⟩ id err.code :=
  ⟨rfl, _, rfl, rfl⟩

/-- **A request that was read** is answered for its version, its method and
its parameters, in this order. -/
theorem serve_answered {q : JsonRpcRequest} (hread : (server.reader.read body).request = .ok q) :
    Answered server.json (httpParams headers query) q (server.serve headers query body) := by
  have hhandle := handleJsonrpc_ok server.json headers query q
  have hrefuses (err : A2AError) (h : handleJsonrpc server.json headers query (.ok q) = .error err) :
      (server.serve headers query body).Refuses q.id err.code := by
    rw [serve_refused hread h]
    exact refuses_error
  have haccepted (hjsonrpc : q.jsonrpc = "2.0")
      (hversion : checkA2aVersion (httpParams headers query) = .ok ()) :
      handleJsonrpc server.json headers query (.ok q) =
        (((methodTable server.json).lookup q.method).elim
          (.error (if q.method = "" then .invalidRequest "method is required"
            else .methodNotFound q.method))
          fun decode => callOf id (decode q.paramsOrEmpty)).map
            fun call => (httpParams headers query, call) := by
    rw [hhandle, if_neg (not_not_intro hjsonrpc), hversion]
    rfl
  exact {
    id := fun r hr => by
      cases h : handleJsonrpc server.json headers query (.ok q) with
      | error err =>
          rw [serve_refused hread h] at hr
          obtain rfl := JsonRpcAnswer.envelope.inj hr
          rfl
      | ok call =>
          obtain ⟨r', hr', hid, -⟩ | ⟨items, hitems, -⟩ := (serve_called hread h).2
          · rw [hr'] at hr
            obtain rfl := JsonRpcAnswer.envelope.inj hr
            exact hid
          · rw [hitems] at hr
            contradiction
    jsonrpc := fun hjsonrpc => hrefuses _ (by rw [hhandle, if_pos hjsonrpc])
    version := fun hjsonrpc err herr => hrefuses err (by
      rw [hhandle, if_neg (not_not_intro hjsonrpc), herr]
      rfl)
    method := fun hjsonrpc hversion hmethod => by
      have hnone : (methodTable server.json).lookup q.method = none := by
        rw [hmethod]
        rfl
      refine hrefuses (.invalidRequest "method is required") ?_
      rw [haccepted hjsonrpc hversion, hnone, hmethod]
      rfl
    unknown := fun hjsonrpc hversion hmethod hnone => by
      refine hrefuses (.methodNotFound q.method) ?_
      rw [haccepted hjsonrpc hversion, hnone, if_neg hmethod]
      rfl
    undecoded := fun hjsonrpc hversion decode e hdecode he => by
      refine hrefuses (.invalidParams s!"invalid params: {e}") ?_
      rw [haccepted hjsonrpc hversion, hdecode, Option.elim_some, he]
      rfl
    called := fun hjsonrpc hversion decode call hdecode hcall => by
      have hok : handleJsonrpc server.json headers query (.ok q) =
          .ok (httpParams headers query, call) := by
        rw [haccepted hjsonrpc hversion, hdecode, Option.elim_some, hcall]
        rfl
      exact ⟨(serve_called hread hok).1, method_of_decode hdecode hcall⟩ }

/-- A body that is not read as a request. -/
theorem serve_malformed {e : JsonError} (hread : (server.reader.read body).request = .error e) :
    server.serve headers query body =
      ⟨[], .envelope (malformedRequestResponse server.reader server.timestamp body e)⟩ := by
  simp only [JsonRpcServer.serve, hread]

theorem malformed_shape (reader : JsonReader) (timestamp : String) (body : List UInt8)
    (e : JsonError) :
    ∃ id err, malformedRequestResponse reader timestamp body e = .failure id err := by
  unfold malformedRequestResponse
  split
  · exact ⟨_, _, rfl⟩
  · exact ⟨_, _, rfl⟩

/-- **The JSON-RPC server**: every body is classified. -/
theorem jsonrpc_classified (server : JsonRpcServer) (headers : HeaderMap)
    (query : Option (List (String × String))) (body : List UInt8) :
    Classified server.json (httpParams headers query) (server.reader.read body)
      (server.serve headers query body) where
  envelope r hr := by
    cases hread : (server.reader.read body).request with
    | error e =>
        obtain ⟨id, err, hshape⟩ := malformed_shape server.reader server.timestamp body e
        rw [serve_malformed hread, hshape] at hr
        obtain rfl := JsonRpcAnswer.envelope.inj hr
        exact ⟨rfl, rfl⟩
    | ok q =>
        cases h : handleJsonrpc server.json headers query (.ok q) with
        | error err =>
            rw [serve_refused hread h] at hr
            obtain rfl := JsonRpcAnswer.envelope.inj hr
            exact ⟨rfl, rfl⟩
        | ok call =>
            obtain ⟨r', hr', -, hshape⟩ | ⟨items, hitems, -⟩ := (serve_called hread h).2
            · rw [hr'] at hr
              obtain rfl := JsonRpcAnswer.envelope.inj hr
              exact hshape
            · rw [hitems] at hr
              contradiction
  stream id items hstream := by
    cases hread : (server.reader.read body).request with
    | error e =>
        rw [serve_malformed hread] at hstream
        contradiction
    | ok q =>
        cases h : handleJsonrpc server.json headers query (.ok q) with
        | error err =>
            rw [serve_refused hread h] at hstream
            contradiction
        | ok call =>
            obtain ⟨r', hr', -⟩ | ⟨items', -, hstreaming⟩ := (serve_called hread h).2
            · rw [hr'] at hstream
              contradiction
            · exact ⟨q, shaped_of_request hread, hstreaming⟩
  flawed hmet := by
    obtain ⟨hnone, e, hread, hdata⟩ := request_flawMet hmet
    rw [serve_malformed hread, malformedRequestResponse, hdata]
    exact ⟨hnone, rfl, _, rfl, rfl⟩
  misshapen v hv hlength hshape := by
    obtain ⟨hshaped, hdata⟩ := request_valid hv hlength
    cases hread : (server.reader.read body).request with
    | ok q => exact absurd ((hshaped q).mp hread) (hshape q)
    | error e =>
        rw [serve_malformed hread, malformedRequestResponse, hdata e hread, hv]
        exact ⟨rfl, _, rfl, rfl⟩
  shaped v q hv hshaped :=
    serve_answered (((request_valid hv (not_overlong hshaped)).1 q).mpr hshaped)
  id members ending v q hobject hv hshaped := by
    rw [hobject] at hv hshaped
    exact id_of_shaped hv hshaped

/-! ## where it departs -/

/-- A server over one reading, which decodes nothing. -/
def serverReading (R : Reading) : JsonRpcServer where
  reader := ⟨fun _ => R, fun _ _ => ""⟩
  json := {
    sendMessageRequest := fun _ => .error ""
    getTaskRequest := fun _ => .error ""
    listTasksRequest := fun _ => .error ""
    cancelTaskRequest := fun _ => .error ""
    subscribeToTaskRequest := fun _ => .error ""
    taskPushNotificationConfig := fun _ => .error ""
    getTaskPushNotificationConfigRequest := fun _ => .error ""
    listTaskPushNotificationConfigsRequest := fun _ => .error ""
    deleteTaskPushNotificationConfigRequest := fun _ => .error ""
    getExtendedAgentCardRequest := fun _ => .error "" }
  handler := ⟨fun _ _ => .ok (.ok .null), fun _ _ => .ok []⟩
  timestamp := ""

/-- A request without a method, as it is read. -/
def unnamedReading : Reading :=
  .object [("jsonrpc", .value (.string "2.0")), ("id", .value (.number (.int 1))),
    ("method", .value (.string ""))] .closed

/-- A body that ends after the number in `jsonrpc`, as it is read. -/
def truncatedReading : Reading :=
  .object [("jsonrpc", .value (.number (.int 2)))] (.unclosed "EOF while parsing an object")

/-- An empty method is reported after the version, and a body that is no
JSON may be reported for its shape. -/
theorem unnamed_and_truncated :
    (∃ q, unnamedReading.Shaped q ∧ q.method = "" ∧
      ¬ ((serverReading unnamedReading).serve [] none
        (utf8 "\x7b\"jsonrpc\":\"2.0\",\"id\":1,\"method\":\"\"\x7d")).Refuses q.id
          ErrorCode.invalidRequest) ∧
    truncatedReading.value? = none ∧
      ((serverReading truncatedReading).serve [] none (utf8 "\x7b\"jsonrpc\":2")).Refuses .null
        ErrorCode.invalidRequest := by
  have hread : unnamedReading.request = .ok ⟨"2.0", .number 1, "", none⟩ := by rfl
  refine ⟨⟨_, shaped_of_request hread, rfl, ?_⟩, rfl, rfl, _, rfl, rfl⟩
  rintro ⟨-, err, hanswer, hcode⟩
  have hversion : checkA2aVersion (httpParams [] none) = .error (.versionNotSupported "0.3") := by
    apply if_neg
    decide
  have hread' : ((serverReading unnamedReading).reader.read
      (utf8 "\x7b\"jsonrpc\":\"2.0\",\"id\":1,\"method\":\"\"\x7d")).request =
        .ok ⟨"2.0", .number 1, "", none⟩ := hread
  obtain ⟨-, err', hanswer', hcode'⟩ := (serve_answered hread').version rfl _ hversion
  rw [hanswer'] at hanswer
  have herr := (JsonRpcResponse.mk.inj (JsonRpcAnswer.envelope.inj hanswer)).2.2.2
  rw [← Option.some.inj herr, hcode'] at hcode
  contradiction

end A2a
