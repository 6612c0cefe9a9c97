import A2a.Pbconv.AgentCard

/-!
# A2a.Pbconv.RoundTrip

What survives the conversion to protobuf and back, for every type that is
converted.  Each type has a `Format` of its two conversions, assembled from
the formats of its fields: `Canonical` says which values come back as they
are, and what comes back always is one of them.  `A2a.Pbconv.CardRoundTrip`
has the agent card, where that last is not always so.
-/

namespace A2a

/-! ## fields -/

/-- An optional string. -/
abbrev optString : Format (Option String) String := .defaulted ""

/-- An optional list of values written as they are. -/
abbrev optStrings : Format (Option (List String)) (List String) where
  encode x := x.getD []
  decode := emptyListToNone
  Canonical x := x ≠ some []
  roundTrip x h := by
    cases x with
    | none => rfl
    | some xs =>
        cases xs with
        | nil => exact absurd rfl h
        | cons a as => rfl
  normal x := by
    rw [emptyListToNone]
    split
    · exact nofun
    · next hne =>
      intro h
      rw [Option.some.inj h] at hne
      exact hne rfl

/-- An optional flag. -/
abbrev optBool : Format (Option Bool) Bool where
  encode x := x.getD false
  decode := falseToNone
  Canonical x := x ≠ some false
  roundTrip x h := by
    cases x with
    | none => rfl
    | some b =>
        cases b with
        | false => exact absurd rfl h
        | true => rfl
  normal x := by
    rw [falseToNone]
    split <;> simp

/-! ## values -/

/-- The numbers that survive: integers of at most 2^53, and finite doubles
that are no such integer. -/
def Number.Canonical : Number → Prop
  | .int n => n.natAbs ≤ F64.maxExactInteger
  | .float bits => F64.toExactInt? bits = none ∧ F64.isFinite bits = true

theorem Number.jsonNumber_of_canonical {n : Number} (h : n.Canonical) :
    jsonNumber n.asF64 = some n := by
  cases n with
  | int n => simp only [jsonNumber, Number.asF64, F64.toExactInt?_ofInt h]
  | float bits =>
      obtain ⟨hnot, hfin⟩ := h
      simp only [jsonNumber, Number.asF64, hnot, hfin, if_true]

theorem Number.canonical_jsonNumber {x : F64} {n : Number} (h : jsonNumber x = some n) :
    n.Canonical := by
  simp only [jsonNumber] at h
  split at h
  · next k hk =>
    obtain rfl := Option.some.inj h
    exact F64.natAbs_le_of_toExactInt? hk
  · next hnot =>
    split at h
    · next hfin =>
      obtain rfl := Option.some.inj h
      exact ⟨hnot, hfin⟩
    · contradiction

mutual

/-- The values whose numbers all survive. -/
def Value.Canonical : Value → Prop
  | .number n => n.Canonical
  | .array vs => Values.Canonical vs
  | .object fields => Fields.Canonical fields
  | .null | .bool _ | .string _ => True

def Values.Canonical : List Value → Prop
  | [] => True
  | v :: vs => v.Canonical ∧ Values.Canonical vs

def Fields.Canonical : List (String × Value) → Prop
  | [] => True
  | (_, v) :: fields => v.Canonical ∧ Fields.Canonical fields

end

mutual

theorem Value.roundTrip (v : Value) (h : v.Canonical) :
    protoValueToJsonValue (jsonValueToProtoValue v) = v := by
  cases v with
  | null => rfl
  | bool b => rfl
  | number n =>
      simp only [jsonValueToProtoValue, protoValueToJsonValue,
        Number.jsonNumber_of_canonical (by simpa only [Value.Canonical] using h)]
  | string s => rfl
  | array vs =>
      simp only [jsonValueToProtoValue, protoValueToJsonValue,
        Values.roundTrip vs (by simpa only [Value.Canonical] using h)]
  | object fields =>
      simp only [jsonValueToProtoValue, protoValueToJsonValue,
        Fields.roundTrip fields (by simpa only [Value.Canonical] using h)]

theorem Values.roundTrip (vs : List Value) (h : Values.Canonical vs) :
    protoValuesToJsonValues (jsonValuesToProtoValues vs) = vs := by
  cases vs with
  | nil => rfl
  | cons v vs =>
      simp only [Values.Canonical] at h
      simp only [jsonValuesToProtoValues, protoValuesToJsonValues, Value.roundTrip v h.1,
        Values.roundTrip vs h.2]

theorem Fields.roundTrip (fields : List (String × Value)) (h : Fields.Canonical fields) :
    protoFieldsToJsonFields (jsonFieldsToProtoFields fields) = fields := by
  cases fields with
  | nil => rfl
  | cons field fields =>
      obtain ⟨k, v⟩ := field
      simp only [Fields.Canonical] at h
      simp only [jsonFieldsToProtoFields, protoFieldsToJsonFields, Value.roundTrip v h.1,
        Fields.roundTrip fields h.2]

end

mutual

theorem Value.canonical_decoded (v : Proto.Value) : (protoValueToJsonValue v).Canonical := by
  cases v with
  | numberValue x =>
      simp only [protoValueToJsonValue]
      split
      · next hn =>
        simp only [Value.Canonical]
        exact Number.canonical_jsonNumber hn
      · simp only [Value.Canonical]
  | listValue vs =>
      simp only [protoValueToJsonValue, Value.Canonical]
      exact Values.canonical_decoded vs
  | structValue fields =>
      simp only [protoValueToJsonValue, Value.Canonical]
      exact Fields.canonical_decoded fields
  | _ => simp only [protoValueToJsonValue, Value.Canonical]

theorem Values.canonical_decoded (vs : List Proto.Value) :
    Values.Canonical (protoValuesToJsonValues vs) := by
  cases vs with
  | nil => simp only [protoValuesToJsonValues, Values.Canonical]
  | cons v vs =>
      simp only [protoValuesToJsonValues, Values.Canonical]
      exact ⟨Value.canonical_decoded v, Values.canonical_decoded vs⟩

theorem Fields.canonical_decoded (fields : List (String × Proto.Value)) :
    Fields.Canonical (protoFieldsToJsonFields fields) := by
  cases fields with
  | nil => simp only [protoFieldsToJsonFields, Fields.Canonical]
  | cons field fields =>
      obtain ⟨k, v⟩ := field
      simp only [protoFieldsToJsonFields, Fields.Canonical]
      exact ⟨Value.canonical_decoded v, Fields.canonical_decoded fields⟩

end

/-- A JSON value. -/
def valueFormat : Format Value Proto.Value where
  encode := jsonValueToProtoValue
  decode := protoValueToJsonValue
  Canonical := Value.Canonical
  roundTrip := Value.roundTrip
  normal v := Value.canonical_decoded (jsonValueToProtoValue v)

/-- A metadata map. -/
abbrev structFormat : Format Metadata Proto.Struct := valueFormat.map String

/-- Optional metadata. -/
abbrev optMetadata : Format (Option Metadata) (Option Proto.Struct) := structFormat.option

/-! ## timestamps -/

/-- The instants that survive: those of a protobuf timestamp.  A leap second
does too where it is the last of its minute. -/
def DateTime.Canonical (dt : DateTime) : Prop :=
  protoTimestampMinSeconds ≤ dt.seconds ∧ dt.seconds ≤ protoTimestampMaxSeconds ∧
    (dt.nanos < 1000000000 ∨ dt.seconds % 60 = 59)

instance : DecidablePred DateTime.Canonical := fun dt =>
  inferInstanceAs (Decidable (protoTimestampMinSeconds ≤ dt.seconds ∧
    dt.seconds ≤ protoTimestampMaxSeconds ∧ (dt.nanos < 1000000000 ∨ dt.seconds % 60 = 59)))

/-- An instant is read back just when it is one that survives, and then as
it was. -/
theorem DateTime.fromTimestamp_of_range {dt : DateTime}
    (hmin : protoTimestampMinSeconds ≤ dt.seconds) (hmax : dt.seconds ≤ protoTimestampMaxSeconds) :
    DateTime.fromTimestamp dt.seconds dt.nanos =
      if dt.nanos < 1000000000 ∨ dt.seconds % 60 = 59 then some dt else none := by
  have hlt := dt.nanos_lt
  rw [protoTimestampMinSeconds] at hmin
  rw [protoTimestampMaxSeconds] at hmax
  rw [DateTime.fromTimestamp]
  by_cases hnanos : dt.nanos < 1000000000 ∨ dt.seconds % 60 = 59
  · rw [if_pos hnanos, dif_pos (by omega)]
  · rw [if_neg hnanos, dif_neg (by omega)]

theorem DateTime.fromProto_toProto (dt : DateTime) :
    (toProtoTimestamp dt).bind fromProtoTimestamp = if dt.Canonical then some dt else none := by
  have hlt := dt.nanos_lt
  have hcast : ((dt.nanos : Int) % 2 ^ 32).toNat = dt.nanos := by omega
  rw [toProtoTimestamp]
  by_cases hrange : protoTimestampMinSeconds ≤ dt.seconds ∧ dt.seconds ≤ protoTimestampMaxSeconds
  · rw [if_pos hrange, Option.bind_some, fromProtoTimestamp, asI32_of_lt (by omega), hcast,
      DateTime.fromTimestamp_of_range hrange.1 hrange.2]
    simp only [DateTime.Canonical, hrange, true_and]
  · rw [if_neg hrange, Option.bind_none,
      if_neg fun hc : dt.Canonical => hrange ⟨hc.1, hc.2.1⟩]

/-- What a `google.protobuf.Timestamp` may carry. -/
structure Proto.Timestamp.Valid (ts : Proto.Timestamp) : Prop where
  seconds : protoTimestampMinSeconds ≤ ts.seconds ∧ ts.seconds ≤ protoTimestampMaxSeconds
  nanos : 0 ≤ ts.nanos ∧ ts.nanos ≤ 999999999

/-- The two fields are an `i64` and an `i32`. -/
structure Proto.Timestamp.Sized (ts : Proto.Timestamp) : Prop where
  seconds : -2 ^ 63 ≤ ts.seconds ∧ ts.seconds < 2 ^ 63
  nanos : -2 ^ 31 ≤ ts.nanos ∧ ts.nanos < 2 ^ 31

/-- Timestamps are ordered by second, then by nanosecond. -/
instance : LT Proto.Timestamp where
  lt a b := a.seconds < b.seconds ∨ (a.seconds = b.seconds ∧ a.nanos < b.nanos)

/-- What is accepted has its second in range, and is written field by field. -/
theorem toProtoTimestamp_eq_some {dt : DateTime} {ts : Proto.Timestamp} :
    toProtoTimestamp dt = some ts ↔
      (protoTimestampMinSeconds ≤ dt.seconds ∧ dt.seconds ≤ protoTimestampMaxSeconds) ∧
        ts = ⟨dt.seconds, dt.nanos⟩ := by
  have hlt := dt.nanos_lt
  rw [toProtoTimestamp, asI32_of_lt (by omega)]
  by_cases hrange : protoTimestampMinSeconds ≤ dt.seconds ∧ dt.seconds ≤ protoTimestampMaxSeconds
  · simp [hrange, eq_comm]
  · simp [hrange]

/-- The order of two accepted instants is that of their timestamps. -/
theorem toProtoTimestamp_lt_iff {a b : DateTime} {s t : Proto.Timestamp}
    (ha : toProtoTimestamp a = some s) (hb : toProtoTimestamp b = some t) : s < t ↔ a < b := by
  obtain ⟨-, rfl⟩ := toProtoTimestamp_eq_some.mp ha
  obtain ⟨-, rfl⟩ := toProtoTimestamp_eq_some.mp hb
  show (a.seconds < b.seconds ∨ a.seconds = b.seconds ∧ (a.nanos : Int) < b.nanos) ↔
    (a.seconds < b.seconds ∨ a.seconds = b.seconds ∧ a.nanos < b.nanos)
  omega

/-- What is read has the fields it was read from. -/
theorem fromProtoTimestamp_fields {ts : Proto.Timestamp} {dt : DateTime} (hsized : ts.Sized)
    (h : fromProtoTimestamp ts = some dt) : dt.seconds = ts.seconds ∧ (dt.nanos : Int) = ts.nanos := by
  have hnanos := hsized.nanos
  rw [fromProtoTimestamp, DateTime.fromTimestamp] at h
  split at h
  · next hchrono =>
    rw [← Option.some.inj h]
    -- a negative count of nanoseconds is far beyond two seconds `as u32`
    exact ⟨rfl, by show ((ts.nanos % 2 ^ 32).toNat : Int) = ts.nanos; omega⟩
  · contradiction

/-- **Timestamps keep their instants.**  What `to_proto_timestamp` accepts
lies in protobuf's range, is valid and comes back outside of leap seconds (a
leap second at the end of its minute comes back too), and keeps its order.
What `from_proto_timestamp` reads goes back to the pair it was read from when
that is in protobuf's range, and is refused when only chrono has it. -/
theorem timestamps_keep_instants :
    (∀ (dt : DateTime) (ts : Proto.Timestamp), toProtoTimestamp dt = some ts →
      (dt.nanos < 1000000000 → ts.Valid) ∧
        (dt.nanos < 1000000000 ∨ dt.seconds % 60 = 59 → fromProtoTimestamp ts = some dt)) ∧
    (∀ (a b : DateTime) (s t : Proto.Timestamp),
      toProtoTimestamp a = some s → toProtoTimestamp b = some t → (s < t ↔ a < b)) ∧
    (∀ (ts : Proto.Timestamp) (dt : DateTime), ts.Sized → fromProtoTimestamp ts = some dt →
      (dt.seconds = ts.seconds ∧ (dt.nanos : Int) = ts.nanos) ∧
        toProtoTimestamp dt =
          if protoTimestampMinSeconds ≤ ts.seconds ∧ ts.seconds ≤ protoTimestampMaxSeconds then
            some ts
          else none) := by
  refine ⟨fun dt ts h => ⟨fun hnanos => ?_, fun hleap => ?_⟩,
    fun a b s t ha hb => toProtoTimestamp_lt_iff ha hb, fun ts dt hsized h => ?_⟩
  · obtain ⟨hrange, rfl⟩ := toProtoTimestamp_eq_some.mp h
    have hlast : (dt.nanos : Int) ≤ 999999999 := by omega
    exact ⟨hrange, Int.natCast_nonneg _, hlast⟩
  · obtain ⟨hrange, -⟩ := toProtoTimestamp_eq_some.mp h
    have hback := DateTime.fromProto_toProto dt
    rw [h, Option.bind_some, if_pos ⟨hrange.1, hrange.2, hleap⟩] at hback
    exact hback
  · obtain ⟨hseconds, hnanos⟩ := fromProtoTimestamp_fields hsized h
    have hlt := dt.nanos_lt
    refine ⟨⟨hseconds, hnanos⟩, ?_⟩
    rw [toProtoTimestamp, asI32_of_lt (by omega), hseconds, hnanos]

/-- The epoch, and both ways from it. -/
theorem timestamps_keep_epoch :
    (Proto.Timestamp.mk 0 0).Valid ∧ fromProtoTimestamp ⟨0, 0⟩ = some DateTime.unixEpoch ∧
      (Proto.Timestamp.mk 0 0 < Proto.Timestamp.mk 0 0 ↔ DateTime.unixEpoch < DateTime.unixEpoch) ∧
      toProtoTimestamp DateTime.unixEpoch = some ⟨0, 0⟩ := by
  have hto : toProtoTimestamp DateTime.unixEpoch = some ⟨0, 0⟩ :=
    toProtoTimestamp_eq_some.mpr ⟨by decide, rfl⟩
  obtain ⟨hvalid, hback⟩ := timestamps_keep_instants.1 DateTime.unixEpoch ⟨0, 0⟩ hto
  have hfrom : fromProtoTimestamp ⟨0, 0⟩ = some DateTime.unixEpoch := hback (Or.inl (by decide))
  obtain ⟨-, hagain⟩ := timestamps_keep_instants.2.2 ⟨0, 0⟩ DateTime.unixEpoch
    ⟨by decide, by decide⟩ hfrom
  exact ⟨hvalid (by decide), hfrom, timestamps_keep_instants.2.1 _ _ _ _ hto hto,
    hagain.trans (if_pos (by decide))⟩

/-- The last leap second of the year 9999 is accepted with a nanosecond count
that no timestamp may carry, and the first second of the year 10000 is read
but not written. -/
theorem leapSecond_not_valid :
    (∃ ts, toProtoTimestamp ⟨253402300799, 1500000000, by decide⟩ = some ts ∧ ¬ ts.Valid) ∧
      (∃ dt, fromProtoTimestamp ⟨253402300800, 0⟩ = some dt ∧ toProtoTimestamp dt = none) := by
  constructor
  · refine ⟨⟨253402300799, 1500000000⟩, toProtoTimestamp_eq_some.mpr ⟨by decide, rfl⟩, ?_⟩
    intro hvalid
    exact absurd hvalid.nanos.2 (by decide)
  · exact ⟨⟨253402300800, 0, by decide⟩, by decide, by simp [toProtoTimestamp, protoTimestampMaxSeconds]⟩

/-- An optional timestamp. -/
def optTimestamp : Format (Option DateTime) (Option Proto.Timestamp) where
  encode x := x.bind toProtoTimestamp
  decode b := b.bind fromProtoTimestamp
  Canonical x := ∀ dt, x = some dt → dt.Canonical
  roundTrip x h := by
    cases x with
    | none => rfl
    | some dt => exact (DateTime.fromProto_toProto dt).trans (if_pos (h dt rfl))
  normal x := by
    intro dt' hdt
    cases x with
    | none => contradiction
    | some dt =>
        have hback := (DateTime.fromProto_toProto dt).symm.trans hdt
        split at hback
        · next hc =>
          obtain rfl := Option.some.inj hback
          exact hc
        · contradiction

/-! ## enumerations -/

theorem fromProtoRole_toProtoRole (r : Role) : fromProtoRole (toProtoRole r) = r := by
  cases r <;> rfl

theorem fromProtoTaskState_toProtoTaskState (s : TaskState) :
    fromProtoTaskState (toProtoTaskState s) = s := by
  cases s <;> rfl

/-- An optional state: UNSPECIFIED stands for absence. -/
def optTaskState : Format (Option TaskState) Int where
  encode x := (x.map toProtoTaskState).getD 0
  decode v := if v = 0 then none else some (fromProtoTaskState v)
  Canonical x := x ≠ some .unspecified
  roundTrip x h := by
    cases x with
    | none => rfl
    | some s =>
        cases s with
        | unspecified => exact absurd rfl h
        | _ => rfl
  normal x := by
    cases x with
    | none => exact nofun
    | some s => cases s <;> exact nofun

/-- An optional size: what is not positive is read as absent. -/
def optSize : Format (Option Int) (Option Int) where
  encode x := x
  decode := nonPositiveToNone
  Canonical x := ∀ n, x = some n → 0 < n
  roundTrip x h := by
    cases x with
    | none => rfl
    | some n => simp [nonPositiveToNone, Option.filter, h n rfl]
  normal x := by
    intro n hn
    rw [nonPositiveToNone, Option.filter_eq_some_iff] at hn
    simpa using hn.2

/-! ## messages and tasks -/

attribute [ext] Part Message TaskStatus Artifact Task

/-- The values that survive, in the content of a part. -/
def PartContent.Canonical : PartContent → Prop
  | .data d => d.Canonical
  | _ => True

structure Part.Canonical (p : Part) : Prop where
  content : p.content.Canonical
  filename : optString.Canonical p.filename
  mediaType : optString.Canonical p.mediaType
  metadata : optMetadata.Canonical p.metadata

theorem fromProtoPart_content (p : Part) (h : p.content.Canonical) :
    (fromProtoPart (toProtoPart p)).content = p.content := by
  simp only [fromProtoPart, toProtoPart]
  cases hc : p.content with
  | data d =>
      rw [hc] at h
      exact congrArg PartContent.data (Value.roundTrip d h)
  | _ => rfl

theorem canonical_fromProtoPart_content (p : Proto.Part) :
    (fromProtoPart p).content.Canonical := by
  simp only [fromProtoPart]
  split
  · trivial
  · trivial
  · trivial
  · exact Value.canonical_decoded _
  · trivial

def partFormat : Format Part Proto.Part where
  encode := toProtoPart
  decode := fromProtoPart
  Canonical := Part.Canonical
  roundTrip p h := Part.ext (fromProtoPart_content p h.content) (optString.roundTrip _ h.filename)
    (optString.roundTrip _ h.mediaType) (optMetadata.roundTrip _ h.metadata)
  normal p :=
    { content := canonical_fromProtoPart_content _
      filename := optString.normal p.filename
      mediaType := optString.normal p.mediaType
      metadata := optMetadata.normal p.metadata }

structure Message.Canonical (m : Message) : Prop where
  contextId : optString.Canonical m.contextId
  taskId : optString.Canonical m.taskId
  parts : partFormat.list.Canonical m.parts
  metadata : optMetadata.Canonical m.metadata
  extensions : optStrings.Canonical m.extensions
  referenceTaskIds : optStrings.Canonical m.referenceTaskIds

def messageFormat : Format Message Proto.Message where
  encode := toProtoMessage
  decode := fromProtoMessage
  Canonical := Message.Canonical
  roundTrip m h := Message.ext rfl (optString.roundTrip _ h.contextId)
    (optString.roundTrip _ h.taskId) (fromProtoRole_toProtoRole m.role)
    (partFormat.list.roundTrip _ h.parts) (optMetadata.roundTrip _ h.metadata)
    (optStrings.roundTrip _ h.extensions) (optStrings.roundTrip _ h.referenceTaskIds)
  normal m :=
    { contextId := optString.normal m.contextId
      taskId := optString.normal m.taskId
      parts := partFormat.list.normal m.parts
      metadata := optMetadata.normal m.metadata
      extensions := optStrings.normal m.extensions
      referenceTaskIds := optStrings.normal m.referenceTaskIds }

structure TaskStatus.Canonical (s : TaskStatus) : Prop where
  message : messageFormat.option.Canonical s.message
  timestamp : optTimestamp.Canonical s.timestamp

def taskStatusFormat : Format TaskStatus Proto.TaskStatus where
  encode := toProtoTaskStatus
  decode := fromProtoTaskStatus
  Canonical := TaskStatus.Canonical
  roundTrip s h := TaskStatus.ext (fromProtoTaskState_toProtoTaskState s.state)
    (messageFormat.option.roundTrip _ h.message) (optTimestamp.roundTrip _ h.timestamp)
  normal s :=
    { message := messageFormat.option.normal s.message
      timestamp := optTimestamp.normal s.timestamp }

structure Artifact.Canonical (a : Artifact) : Prop where
  name : optString.Canonical a.name
  description : optString.Canonical a.description
  parts : partFormat.list.Canonical a.parts
  metadata : optMetadata.Canonical a.metadata
  extensions : optStrings.Canonical a.extensions

def artifactFormat : Format Artifact Proto.Artifact where
  encode := toProtoArtifact
  decode := fromProtoArtifact
  Canonical := Artifact.Canonical
  roundTrip _ h := Artifact.ext rfl (optString.roundTrip _ h.name)
    (optString.roundTrip _ h.description) (partFormat.list.roundTrip _ h.parts)
    (optMetadata.roundTrip _ h.metadata) (optStrings.roundTrip _ h.extensions)
  normal a :=
    { name := optString.normal a.name
      description := optString.normal a.description
      parts := partFormat.list.normal a.parts
      metadata := optMetadata.normal a.metadata
      extensions := optStrings.normal a.extensions }

structure Task.Canonical (t : Task) : Prop where
  status : t.status.Canonical
  artifacts : artifactFormat.items.Canonical t.artifacts
  history : messageFormat.items.Canonical t.history
  metadata : optMetadata.Canonical t.metadata

def taskFormat : Format Task Proto.Task where
  encode := toProtoTask
  decode := fromProtoTask
  Canonical := Task.Canonical
  roundTrip _ h := Task.ext rfl rfl (taskStatusFormat.roundTrip _ h.status)
    (artifactFormat.items.roundTrip _ h.artifacts) (messageFormat.items.roundTrip _ h.history)
    (optMetadata.roundTrip _ h.metadata)
  normal t :=
    { status := taskStatusFormat.normal t.status
      artifacts := artifactFormat.items.normal t.artifacts
      history := messageFormat.items.normal t.history
      metadata := optMetadata.normal t.metadata }

/-! ## push configurations -/

attribute [ext] AuthenticationInfo TaskPushNotificationConfig

structure AuthenticationInfo.Canonical (a : AuthenticationInfo) : Prop where
  credentials : optString.Canonical a.credentials

def authenticationInfoFormat : Format AuthenticationInfo Proto.AuthenticationInfo where
  encode := toProtoAuthenticationInfo
  decode := fromProtoAuthenticationInfo
  Canonical := AuthenticationInfo.Canonical
  roundTrip _ h := AuthenticationInfo.ext rfl (optString.roundTrip _ h.credentials)
  normal a := { credentials := optString.normal a.credentials }

structure TaskPushNotificationConfig.Canonical (c : TaskPushNotificationConfig) : Prop where
  id : optString.Canonical c.id
  token : optString.Canonical c.token
  authentication : authenticationInfoFormat.option.Canonical c.authentication
  tenant : optString.Canonical c.tenant

def taskPushNotificationConfigFormat :
    Format TaskPushNotificationConfig Proto.TaskPushNotificationConfig where
  encode := toProtoTaskPushNotificationConfig
  decode := fromProtoTaskPushNotificationConfig
  Canonical := TaskPushNotificationConfig.Canonical
  roundTrip _ h := TaskPushNotificationConfig.ext rfl (optString.roundTrip _ h.id) rfl
    (optString.roundTrip _ h.token) (authenticationInfoFormat.option.roundTrip _ h.authentication)
    (optString.roundTrip _ h.tenant)
  normal c :=
    { id := optString.normal c.id
      token := optString.normal c.token
      authentication := authenticationInfoFormat.option.normal c.authentication
      tenant := optString.normal c.tenant }

/-! ## requests -/

attribute [ext] SendMessageConfiguration SendMessageRequest GetTaskRequest ListTasksRequest
  CancelTaskRequest SubscribeToTaskRequest GetExtendedAgentCardRequest
  GetTaskPushNotificationConfigRequest DeleteTaskPushNotificationConfigRequest
  ListTaskPushNotificationConfigsRequest

structure SendMessageConfiguration.Canonical (c : SendMessageConfiguration) : Prop where
  acceptedOutputModes : optStrings.Canonical c.acceptedOutputModes
  taskPushNotificationConfig :
    taskPushNotificationConfigFormat.option.Canonical c.taskPushNotificationConfig
  returnImmediately : optBool.Canonical c.returnImmediately

def sendMessageConfigurationFormat :
    Format SendMessageConfiguration Proto.SendMessageConfiguration where
  encode := toProtoSendMessageConfiguration
  decode := fromProtoSendMessageConfiguration
  Canonical := SendMessageConfiguration.Canonical
  roundTrip _ h := SendMessageConfiguration.ext (optStrings.roundTrip _ h.acceptedOutputModes)
    (taskPushNotificationConfigFormat.option.roundTrip _ h.taskPushNotificationConfig) rfl
    (optBool.roundTrip _ h.returnImmediately)
  normal c :=
    { acceptedOutputModes := optStrings.normal c.acceptedOutputModes
      taskPushNotificationConfig :=
        taskPushNotificationConfigFormat.option.normal c.taskPushNotificationConfig
      returnImmediately := optBool.normal c.returnImmediately }

structure SendMessageRequest.Canonical (r : SendMessageRequest) : Prop where
  message : r.message.Canonical
  configuration : sendMessageConfigurationFormat.option.Canonical r.configuration
  metadata : optMetadata.Canonical r.metadata
  tenant : optString.Canonical r.tenant

/-- The message is always there, so no id is generated. -/
def sendMessageRequestFormat (newId : String) :
    Format SendMessageRequest Proto.SendMessageRequest where
  encode := toProtoSendMessageRequest
  decode := fromProtoSendMessageRequest newId
  Canonical := SendMessageRequest.Canonical
  roundTrip _ h := SendMessageRequest.ext (messageFormat.roundTrip _ h.message)
    (sendMessageConfigurationFormat.option.roundTrip _ h.configuration)
    (optMetadata.roundTrip _ h.metadata) (optString.roundTrip _ h.tenant)
  normal r :=
    { message := messageFormat.normal r.message
      configuration := sendMessageConfigurationFormat.option.normal r.configuration
      metadata := optMetadata.normal r.metadata
      tenant := optString.normal r.tenant }

structure GetTaskRequest.Canonical (r : GetTaskRequest) : Prop where
  tenant : optString.Canonical r.tenant

def getTaskRequestFormat : Format GetTaskRequest Proto.GetTaskRequest where
  encode := toProtoGetTaskRequest
  decode := fromProtoGetTaskRequest
  Canonical := GetTaskRequest.Canonical
  roundTrip _ h := GetTaskRequest.ext rfl rfl (optString.roundTrip _ h.tenant)
  normal r := { tenant := optString.normal r.tenant }

structure ListTasksRequest.Canonical (r : ListTasksRequest) : Prop where
  contextId : optString.Canonical r.contextId
  status : optTaskState.Canonical r.status
  pageSize : optSize.Canonical r.pageSize
  pageToken : optString.Canonical r.pageToken
  statusTimestampAfter : optTimestamp.Canonical r.statusTimestampAfter
  tenant : optString.Canonical r.tenant

def listTasksRequestFormat : Format ListTasksRequest Proto.ListTasksRequest where
  encode := toProtoListTasksRequest
  decode := fromProtoListTasksRequest
  Canonical := ListTasksRequest.Canonical
  roundTrip _ h := ListTasksRequest.ext (optString.roundTrip _ h.contextId)
    (optTaskState.roundTrip _ h.status) (optSize.roundTrip _ h.pageSize)
    (optString.roundTrip _ h.pageToken) rfl (optTimestamp.roundTrip _ h.statusTimestampAfter) rfl
    (optString.roundTrip _ h.tenant)
  normal r :=
    { contextId := optString.normal r.contextId
      status := optTaskState.normal r.status
      pageSize := optSize.normal r.pageSize
      pageToken := optString.normal r.pageToken
      statusTimestampAfter := optTimestamp.normal r.statusTimestampAfter
      tenant := optString.normal r.tenant }

structure CancelTaskRequest.Canonical (r : CancelTaskRequest) : Prop where
  metadata : optMetadata.Canonical r.metadata
  tenant : optString.Canonical r.tenant

def cancelTaskRequestFormat : Format CancelTaskRequest Proto.CancelTaskRequest where
  encode := toProtoCancelTaskRequest
  decode := fromProtoCancelTaskRequest
  Canonical := CancelTaskRequest.Canonical
  roundTrip _ h := CancelTaskRequest.ext rfl (optMetadata.roundTrip _ h.metadata)
    (optString.roundTrip _ h.tenant)
  normal r :=
    { metadata := optMetadata.normal r.metadata
      tenant := optString.normal r.tenant }

structure SubscribeToTaskRequest.Canonical (r : SubscribeToTaskRequest) : Prop where
  tenant : optString.Canonical r.tenant

def subscribeToTaskRequestFormat :
    Format SubscribeToTaskRequest Proto.SubscribeToTaskRequest where
  encode := toProtoSubscribeToTaskRequest
  decode := fromProtoSubscribeToTaskRequest
  Canonical := SubscribeToTaskRequest.Canonical
  roundTrip _ h := SubscribeToTaskRequest.ext rfl (optString.roundTrip _ h.tenant)
  normal r := { tenant := optString.normal r.tenant }

structure GetExtendedAgentCardRequest.Canonical (r : GetExtendedAgentCardRequest) : Prop where
  tenant : optString.Canonical r.tenant

def getExtendedAgentCardRequestFormat :
    Format GetExtendedAgentCardRequest Proto.GetExtendedAgentCardRequest where
  encode := toProtoGetExtendedAgentCardRequest
  decode := fromProtoGetExtendedAgentCardRequest
  Canonical := GetExtendedAgentCardRequest.Canonical
  roundTrip _ h := GetExtendedAgentCardRequest.ext (optString.roundTrip _ h.tenant)
  normal r := { tenant := optString.normal r.tenant }

structure GetTaskPushNotificationConfigRequest.Canonical
    (r : GetTaskPushNotificationConfigRequest) : Prop where
  tenant : optString.Canonical r.tenant

def getTaskPushNotificationConfigRequestFormat :
    Format GetTaskPushNotificationConfigRequest Proto.GetTaskPushNotificationConfigRequest where
  encode := toProtoGetTaskPushNotificationConfigRequest
  decode := fromProtoGetTaskPushNotificationConfigRequest
  Canonical := GetTaskPushNotificationConfigRequest.Canonical
  roundTrip _ h :=
    GetTaskPushNotificationConfigRequest.ext rfl rfl (optString.roundTrip _ h.tenant)
  normal r := { tenant := optString.normal r.tenant }

structure DeleteTaskPushNotificationConfigRequest.Canonical
    (r : DeleteTaskPushNotificationConfigRequest) : Prop where
  tenant : optString.Canonical r.tenant

def deleteTaskPushNotificationConfigRequestFormat :
    Format DeleteTaskPushNotificationConfigRequest
      Proto.DeleteTaskPushNotificationConfigRequest where
  encode := toProtoDeleteTaskPushNotificationConfigRequest
  decode := fromProtoDeleteTaskPushNotificationConfigRequest
  Canonical := DeleteTaskPushNotificationConfigRequest.Canonical
  roundTrip _ h :=
    DeleteTaskPushNotificationConfigRequest.ext rfl rfl (optString.roundTrip _ h.tenant)
  normal r := { tenant := optString.normal r.tenant }

/-- Here a negative page size survives: only zero stands for absence. -/
structure ListTaskPushNotificationConfigsRequest.Canonical
    (r : ListTaskPushNotificationConfigsRequest) : Prop where
  pageSize : (Format.defaulted (0 : Int)).Canonical r.pageSize
  pageToken : optString.Canonical r.pageToken
  tenant : optString.Canonical r.tenant

def listTaskPushNotificationConfigsRequestFormat :
    Format ListTaskPushNotificationConfigsRequest
      Proto.ListTaskPushNotificationConfigsRequest where
  encode := toProtoListTaskPushNotificationConfigsRequest
  decode := fromProtoListTaskPushNotificationConfigsRequest
  Canonical := ListTaskPushNotificationConfigsRequest.Canonical
  roundTrip _ h := ListTaskPushNotificationConfigsRequest.ext rfl
    ((Format.defaulted (0 : Int)).roundTrip _ h.pageSize) (optString.roundTrip _ h.pageToken)
    (optString.roundTrip _ h.tenant)
  normal r :=
    { pageSize := (Format.defaulted (0 : Int)).normal r.pageSize
      pageToken := optString.normal r.pageToken
      tenant := optString.normal r.tenant }

/-! ## responses and events -/

attribute [ext] ListTasksResponse ListTaskPushNotificationConfigsResponse TaskStatusUpdateEvent
  TaskArtifactUpdateEvent

structure ListTasksResponse.Canonical (r : ListTasksResponse) : Prop where
  tasks : taskFormat.list.Canonical r.tasks

def listTasksResponseFormat : Format ListTasksResponse Proto.ListTasksResponse where
  encode := toProtoListTasksResponse
  decode := fromProtoListTasksResponse
  Canonical := ListTasksResponse.Canonical
  roundTrip _ h := ListTasksResponse.ext (taskFormat.list.roundTrip _ h.tasks) rfl rfl rfl
  normal r := { tasks := taskFormat.list.normal r.tasks }

structure ListTaskPushNotificationConfigsResponse.Canonical
    (r : ListTaskPushNotificationConfigsResponse) : Prop where
  configs : taskPushNotificationConfigFormat.list.Canonical r.configs
  nextPageToken : optString.Canonical r.nextPageToken

def listTaskPushNotificationConfigsResponseFormat :
    Format ListTaskPushNotificationConfigsResponse
      Proto.ListTaskPushNotificationConfigsResponse where
  encode := toProtoListTaskPushNotificationConfigsResponse
  decode := fromProtoListTaskPushNotificationConfigsResponse
  Canonical := ListTaskPushNotificationConfigsResponse.Canonical
  roundTrip _ h := ListTaskPushNotificationConfigsResponse.ext
    (taskPushNotificationConfigFormat.list.roundTrip _ h.configs)
    (optString.roundTrip _ h.nextPageToken)
  normal r :=
    { configs := taskPushNotificationConfigFormat.list.normal r.configs
      nextPageToken := optString.normal r.nextPageToken }

structure TaskStatusUpdateEvent.Canonical (e : TaskStatusUpdateEvent) : Prop where
  status : e.status.Canonical
  metadata : optMetadata.Canonical e.metadata

def taskStatusUpdateEventFormat :
    Format TaskStatusUpdateEvent Proto.TaskStatusUpdateEvent where
  encode := toProtoTaskStatusUpdateEvent
  decode := fromProtoTaskStatusUpdateEvent
  Canonical := TaskStatusUpdateEvent.Canonical
  roundTrip _ h := TaskStatusUpdateEvent.ext rfl rfl (taskStatusFormat.roundTrip _ h.status)
    (optMetadata.roundTrip _ h.metadata)
  normal e :=
    { status := taskStatusFormat.normal e.status
      metadata := optMetadata.normal e.metadata }

structure TaskArtifactUpdateEvent.Canonical (e : TaskArtifactUpdateEvent) : Prop where
  artifact : e.artifact.Canonical
  append : optBool.Canonical e.append
  lastChunk : optBool.Canonical e.lastChunk
  metadata : optMetadata.Canonical e.metadata

def taskArtifactUpdateEventFormat :
    Format TaskArtifactUpdateEvent Proto.TaskArtifactUpdateEvent where
  encode := toProtoTaskArtifactUpdateEvent
  decode := fromProtoTaskArtifactUpdateEvent
  Canonical := TaskArtifactUpdateEvent.Canonical
  roundTrip _ h := TaskArtifactUpdateEvent.ext rfl rfl (artifactFormat.roundTrip _ h.artifact)
    (optBool.roundTrip _ h.append) (optBool.roundTrip _ h.lastChunk)
    (optMetadata.roundTrip _ h.metadata)
  normal e :=
    { artifact := artifactFormat.normal e.artifact
      append := optBool.normal e.append
      lastChunk := optBool.normal e.lastChunk
      metadata := optMetadata.normal e.metadata }

/-- The values that survive, of either kind of response. -/
def SendMessageResponse.Canonical : SendMessageResponse → Prop
  | .task t => t.Canonical
  | .message m => m.Canonical

def sendMessageResponseFormat : PartialFormat SendMessageResponse Proto.SendMessageResponse where
  encode := toProtoSendMessageResponse
  decode := fromProtoSendMessageResponse
  norm
    | .task t => .task (taskFormat.norm t)
    | .message m => .message (messageFormat.norm m)
  Canonical := SendMessageResponse.Canonical
  decode_encode r := by cases r <;> rfl
  roundTrip r h := by
    cases r with
    | task t => exact congrArg SendMessageResponse.task (taskFormat.roundTrip t h)
    | message m => exact congrArg SendMessageResponse.message (messageFormat.roundTrip m h)
  normal r := by
    cases r with
    | task t => exact taskFormat.normal t
    | message m => exact messageFormat.normal m

/-- The values that survive, of any kind of event. -/
def StreamResponse.Canonical : StreamResponse → Prop
  | .task t => t.Canonical
  | .message m => m.Canonical
  | .statusUpdate e => e.Canonical
  | .artifactUpdate e => e.Canonical

def streamResponseFormat : PartialFormat StreamResponse Proto.StreamResponse where
  encode := toProtoStreamResponse
  decode := fromProtoStreamResponse
  norm
    | .task t => .task (taskFormat.norm t)
    | .message m => .message (messageFormat.norm m)
    | .statusUpdate e => .statusUpdate (taskStatusUpdateEventFormat.norm e)
    | .artifactUpdate e => .artifactUpdate (taskArtifactUpdateEventFormat.norm e)
  Canonical := StreamResponse.Canonical
  decode_encode r := by cases r <;> rfl
  roundTrip r h := by
    cases r with
    | task t => exact congrArg StreamResponse.task (taskFormat.roundTrip t h)
    | message m => exact congrArg StreamResponse.message (messageFormat.roundTrip m h)
    | statusUpdate e =>
        exact congrArg StreamResponse.statusUpdate (taskStatusUpdateEventFormat.roundTrip e h)
    | artifactUpdate e =>
        exact congrArg StreamResponse.artifactUpdate (taskArtifactUpdateEventFormat.roundTrip e h)
  normal r := by
    cases r with
    | task t => exact taskFormat.normal t
    | message m => exact messageFormat.normal m
    | statusUpdate e => exact taskStatusUpdateEventFormat.normal e
    | artifactUpdate e => exact taskArtifactUpdateEventFormat.normal e

end A2a
