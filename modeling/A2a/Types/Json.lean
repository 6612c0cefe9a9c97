import A2a.Json

/-!
# A2a.Types.Json

Tasks, messages, parts and events as JSON (`a2a/src/types.rs`, `event.rs`).

The union types are told apart by the key that is there.  What is sent comes
back as it was, but for two things (`resent`): a part's empty metadata are
left out, and a leap second within a minute is written as the second after
it.
-/

namespace A2a

/-! ## the texts of bytes and instants -/

/-- The alphabet of `base64`: what it encodes it decodes. -/
structure Base64 where
  encode : List UInt8 → String
  decode : String → Except String (List UInt8)
  decode_encode (bytes : List UInt8) : decode (encode bytes) = .ok bytes

/-- An instant once it was sent: a leap second has a text of its own only at
the end of a minute, elsewhere it is written as the second after it. -/
def DateTime.resent (t : DateTime) : DateTime :=
  if 1000000000 ≤ t.nanos ∧ t.seconds % 60 ≠ 59 then
    ⟨t.seconds + 1, t.nanos - 1000000000, lt_of_le_of_lt (Nat.sub_le _ _) t.nanos_lt⟩
  else t

/-- The texts `chrono` writes for instants and reads them from. -/
structure Chrono where
  write : DateTime → String
  read : String → Except String DateTime
  read_write (t : DateTime) : read (write t) = .ok t.resent

variable (base64 : Base64) (chrono : Chrono)

namespace Chrono

def readValue : Value → Except String DateTime
  | .string s => chrono.read s
  | _ => .error "invalid type, expected an RFC 3339 formatted date and time string"

/-- An instant as JSON. -/
def json : NormalJson DateTime where
  write t := .string (chrono.write t)
  read := chrono.readValue
  normal := DateTime.resent
  read_write := chrono.read_write
  write_ne_null _ h := by contradiction

@[simp] theorem json_normal : chrono.json.normal = DateTime.resent := rfl

end Chrono

/-! ## enumerations -/

/-- `serde::de::Error::unknown_variant`. -/
def unknownVariant (other : String) (expected : List String) : String :=
  let names := ", ".intercalate (expected.map fun name => s!"`{name}`")
  s!"unknown variant `{other}`, expected one of {names}"

namespace Role

def name : Role → String
  | .unspecified => "ROLE_UNSPECIFIED"
  | .user => "ROLE_USER"
  | .agent => "ROLE_AGENT"

def ofName (s : String) : Except String Role :=
  match s with
  | "ROLE_USER" => .ok .user
  | "ROLE_AGENT" => .ok .agent
  | "ROLE_UNSPECIFIED" | "" => .ok .unspecified
  | other => .error (unknownVariant other ["ROLE_USER", "ROLE_AGENT", "ROLE_UNSPECIFIED"])

def json : Json Role where
  write r := .string r.name
  read v := (Json.string.read v).bind ofName
  read_write r := by cases r <;> rfl

end Role

namespace TaskState

def name : TaskState → String
  | .unspecified => "TASK_STATE_UNSPECIFIED"
  | .submitted => "TASK_STATE_SUBMITTED"
  | .working => "TASK_STATE_WORKING"
  | .completed => "TASK_STATE_COMPLETED"
  | .failed => "TASK_STATE_FAILED"
  | .canceled => "TASK_STATE_CANCELED"
  | .inputRequired => "TASK_STATE_INPUT_REQUIRED"
  | .rejected => "TASK_STATE_REJECTED"
  | .authRequired => "TASK_STATE_AUTH_REQUIRED"

def ofName (s : String) : Except String TaskState :=
  match s with
  | "TASK_STATE_SUBMITTED" => .ok .submitted
  | "TASK_STATE_WORKING" => .ok .working
  | "TASK_STATE_COMPLETED" => .ok .completed
  | "TASK_STATE_FAILED" => .ok .failed
  | "TASK_STATE_CANCELED" => .ok .canceled
  | "TASK_STATE_INPUT_REQUIRED" => .ok .inputRequired
  | "TASK_STATE_REJECTED" => .ok .rejected
  | "TASK_STATE_AUTH_REQUIRED" => .ok .authRequired
  | "TASK_STATE_UNSPECIFIED" | "" => .ok .unspecified
  | other => .error (unknownVariant other
      ["TASK_STATE_SUBMITTED", "TASK_STATE_WORKING", "TASK_STATE_COMPLETED", "TASK_STATE_FAILED",
        "TASK_STATE_CANCELED", "TASK_STATE_INPUT_REQUIRED", "TASK_STATE_REJECTED",
        "TASK_STATE_AUTH_REQUIRED", "TASK_STATE_UNSPECIFIED"])

def json : Json TaskState where
  write s := .string s.name
  read v := (Json.string.read v).bind ofName
  read_write s := by cases s <;> rfl

end TaskState

/-! ## parts -/

/-- `HashMap::is_empty`. -/
def Metadata.isEmpty (m : Metadata) : Bool := m.keys = ∅

namespace PartContent

/-- The key a part's content is under. -/
def key : PartContent → String
  | .text _ => "text"
  | .raw _ => "raw"
  | .url _ => "url"
  | .data _ => "data"

def toValue : PartContent → Value
  | .text t => .string t
  | .raw r => .string (base64.encode r)
  | .url u => .string u
  | .data d => d

/-- The content is what the first of the keys has; the first three are passed
over when what they have is no string. -/
def read (fields : List (String × Value)) : Except String PartContent :=
  match (fields.lookup "text").bind Value.asStr, (fields.lookup "raw").bind Value.asStr,
    (fields.lookup "url").bind Value.asStr, fields.lookup "data" with
  | some t, _, _, _ => .ok (.text t)
  | none, some r, _, _ => (base64.decode r).map .raw
  | none, none, some u, _ => .ok (.url u)
  | none, none, none, some d => .ok (.data d)
  | none, none, none, none => .error "Part must have one of: text, raw, url, data"

end PartContent

namespace Part

def keys (content : PartContent) : List String :=
  [content.key, "filename", "mediaType", "metadata"]

/-- The entries `serialize` writes; empty metadata are not. -/
def entries (p : Part) : List (String × Option Value) :=
  [(p.content.key, some (p.content.toValue base64)),
    ("filename", p.filename.map Json.string.write),
    ("mediaType", p.mediaType.map Json.string.write),
    ("metadata", (p.metadata.filter (!·.isEmpty)).map Json.value.map.write)]

/-- Fields other than the content are passed over when they do not fit. -/
def fromValue : Value → Except String Part
  | .object fields => do
    return {
      content := ← PartContent.read base64 fields
      filename := (fields.lookup "filename").bind Value.asStr
      mediaType := (fields.lookup "mediaType").bind Value.asStr
      metadata := (fields.lookup "metadata").bind fun v => (Json.value.map.read v).toOption }
  | _ => .error "invalid type, expected a map"

/-- A part once it was sent. -/
def resent (p : Part) : Part := { p with metadata := p.metadata.filter (!·.isEmpty) }

/-- No key of a part's content is said twice. -/
theorem keys_nodup (content : PartContent) : (keys content).Nodup := by
  cases content <;> simp [keys, PartContent.key]

variable (p : Part)

/-- The content reads as it was written. -/
theorem read_content : PartContent.read base64 (written (p.entries base64)) = .ok p.content := by
  have hkeys : ((p.entries base64).map (·.1)).Nodup := keys_nodup p.content
  obtain ⟨content, filename, mediaType, metadata⟩ := p
  rw [PartContent.read]
  simp only [lookup_written hkeys]
  cases content with
  | text t => simp [entries, PartContent.key, PartContent.toValue, List.lookup_cons, Value.asStr]
  | raw r =>
      have hdecode := base64.decode_encode r
      simp [entries, PartContent.key, PartContent.toValue, List.lookup_cons, Value.asStr, hdecode,
        Except.map]
  | url u => simp [entries, PartContent.key, PartContent.toValue, List.lookup_cons, Value.asStr]
  | data d => simp [entries, PartContent.key, PartContent.toValue, List.lookup_cons]

/-- An optional text is read as it was written. -/
theorem bind_asStr (o : Option String) : (o.map Json.string.write).bind Value.asStr = o := by
  cases o <;> rfl

/-- So is optional metadata. -/
theorem bind_readMetadata (o : Option Metadata) :
    ((o.map Json.value.map.write).bind fun v => (Json.value.map.read v).toOption) = o := by
  cases o with
  | none => rfl
  | some m =>
      rw [Option.map_some, Option.bind_some, Json.read_write]
      rfl

/-- **A part comes back**, without its metadata when they are empty. -/
theorem fromValue_struct : fromValue base64 (.struct (p.entries base64)) = .ok p.resent := by
  have hkeys : ((p.entries base64).map (·.1)).Nodup := keys_nodup p.content
  have hother (key : String) (h : key ∈ ["filename", "mediaType", "metadata"]) :
      (p.entries base64).lookup key = (p.entries base64).tail.lookup key := by
    have hne : key ≠ p.content.key := fun heq => (List.nodup_cons.mp hkeys).1 (heq ▸ h)
    rw [entries, List.lookup_cons, beq_false_of_ne hne]
    rfl
  have hfilename : ((written (p.entries base64)).lookup "filename").bind Value.asStr =
      p.filename := by
    rw [lookup_written hkeys, hother _ (by decide)]
    exact bind_asStr p.filename
  have hmediaType : ((written (p.entries base64)).lookup "mediaType").bind Value.asStr =
      p.mediaType := by
    rw [lookup_written hkeys, hother _ (by decide)]
    exact bind_asStr p.mediaType
  have hmetadata : (((written (p.entries base64)).lookup "metadata").bind fun v =>
      (Json.value.map.read v).toOption) = p.resent.metadata := by
    rw [lookup_written hkeys, hother _ (by decide)]
    exact bind_readMetadata p.resent.metadata
  show (PartContent.read base64 (written (p.entries base64)) >>= fun content => pure _) = _
  rw [read_content, hfilename, hmediaType, hmetadata]
  rfl

/-- A part as JSON. -/
def json : NormalJson Part where
  write p := .struct (p.entries base64)
  read := fromValue base64
  normal := resent
  read_write := fromValue_struct base64
  write_ne_null _ h := by contradiction

@[simp] theorem json_normal : (json base64).normal = resent := rfl

end Part

/-! ## messages, artifacts and tasks -/

namespace Message

def keys : List String :=
  ["messageId", "contextId", "taskId", "role", "parts", "metadata", "extensions",
   "referenceTaskIds"]

def entries (s : Message) : List (String × Option Value) :=
  [("messageId", some (Json.string.write s.messageId)),
    ("contextId", s.contextId.map Json.string.write),
    ("taskId", s.taskId.map Json.string.write),
    ("role", some (Role.json.write s.role)),
    ("parts", some ((Part.json base64).list.write s.parts)),
    ("metadata", s.metadata.map Json.value.map.write),
    ("extensions", s.extensions.map Json.string.list.write),
    ("referenceTaskIds", s.referenceTaskIds.map Json.string.list.write)]

def fromValue : Value → Except String Message := readStruct keys fun fields => do
  return {
    messageId := ← readRequired Json.string.read "messageId" fields
    contextId := ← readOptional Json.string.read "contextId" fields
    taskId := ← readOptional Json.string.read "taskId" fields
    role := ← readRequired Role.json.read "role" fields
    parts := ← readRequired ((Part.json base64).list.read) "parts" fields
    metadata := ← readOptional Json.value.map.read "metadata" fields
    extensions := ← readOptional Json.string.list.read "extensions" fields
    referenceTaskIds := ← readOptional Json.string.list.read "referenceTaskIds" fields }

/-- A message once it was sent. -/
def resent (s : Message) : Message :=
  { s with parts := s.parts.map Part.resent }

/-- **A message is read as it was sent.** -/
theorem fromValue_struct (s : Message) :
    fromValue base64 (.struct (s.entries base64)) = .ok s.resent := by
  have hkeys : ((s.entries base64).map (·.1)).Nodup := (by decide : keys.Nodup)
  rw [fromValue, readStruct_struct]
  simp only [readRequired_written hkeys, readOptional_written hkeys]
  simp [entries, resent, List.lookup_cons, bind, Except.bind, pure, Except.pure]

/-- A message as JSON. -/
def json : NormalJson Message where
  write s := .struct (s.entries base64)
  read := fromValue base64
  normal := resent
  read_write := fromValue_struct base64
  write_ne_null _ h := by contradiction

@[simp] theorem json_normal : (json base64).normal = resent := rfl

end Message

namespace TaskStatus

def keys : List String := ["state", "message", "timestamp"]

def entries (s : TaskStatus) : List (String × Option Value) :=
  [("state", some (TaskState.json.write s.state)),
    ("message", s.message.map ((Message.json base64).write)),
    ("timestamp", s.timestamp.map chrono.json.write)]

def fromValue : Value → Except String TaskStatus := readStruct keys fun fields => do
  return {
    state := ← readRequired TaskState.json.read "state" fields
    message := ← readOptional ((Message.json base64).read) "message" fields
    timestamp := ← readOptional chrono.json.read "timestamp" fields }

/-- A status once it was sent. -/
def resent (s : TaskStatus) : TaskStatus :=
  { s with
    message := s.message.map Message.resent
    timestamp := s.timestamp.map DateTime.resent }

/-- So is a status, to the instant it is sent with. -/
theorem fromValue_struct (s : TaskStatus) :
    fromValue base64 chrono (.struct (s.entries base64 chrono)) = .ok s.resent := by
  have hkeys : ((s.entries base64 chrono).map (·.1)).Nodup := (by decide : keys.Nodup)
  rw [fromValue, readStruct_struct]
  simp only [readRequired_written hkeys, readOptional_written hkeys]
  simp [entries, resent, List.lookup_cons, bind, Except.bind, pure, Except.pure]

/-- A status as JSON. -/
def json : NormalJson TaskStatus where
  write s := .struct (s.entries base64 chrono)
  read := fromValue base64 chrono
  normal := resent
  read_write := fromValue_struct base64 chrono
  write_ne_null _ h := by contradiction

@[simp] theorem json_normal : (json base64 chrono).normal = resent := rfl

end TaskStatus

namespace Artifact

def keys : List String := ["artifactId", "name", "description", "parts", "metadata", "extensions"]

def entries (s : Artifact) : List (String × Option Value) :=
  [("artifactId", some (Json.string.write s.artifactId)),
    ("name", s.name.map Json.string.write),
    ("description", s.description.map Json.string.write),
    ("parts", some ((Part.json base64).list.write s.parts)),
    ("metadata", s.metadata.map Json.value.map.write),
    ("extensions", s.extensions.map Json.string.list.write)]

def fromValue : Value → Except String Artifact := readStruct keys fun fields => do
  return {
    artifactId := ← readRequired Json.string.read "artifactId" fields
    name := ← readOptional Json.string.read "name" fields
    description := ← readOptional Json.string.read "description" fields
    parts := ← readRequired ((Part.json base64).list.read) "parts" fields
    metadata := ← readOptional Json.value.map.read "metadata" fields
    extensions := ← readOptional Json.string.list.read "extensions" fields }

/-- An artifact once it was sent. -/
def resent (s : Artifact) : Artifact :=
  { s with parts := s.parts.map Part.resent }

/-- So is an artifact. -/
theorem fromValue_struct (s : Artifact) :
    fromValue base64 (.struct (s.entries base64)) = .ok s.resent := by
  have hkeys : ((s.entries base64).map (·.1)).Nodup := (by decide : keys.Nodup)
  rw [fromValue, readStruct_struct]
  simp only [readRequired_written hkeys, readOptional_written hkeys]
  simp [entries, resent, List.lookup_cons, bind, Except.bind, pure, Except.pure]

/-- An artifact as JSON. -/
def json : NormalJson Artifact where
  write s := .struct (s.entries base64)
  read := fromValue base64
  normal := resent
  read_write := fromValue_struct base64
  write_ne_null _ h := by contradiction

@[simp] theorem json_normal : (json base64).normal = resent := rfl

end Artifact

namespace Task

def keys : List String := ["id", "contextId", "status", "artifacts", "history", "metadata"]

def entries (s : Task) : List (String × Option Value) :=
  [("id", some (Json.string.write s.id)),
    ("contextId", some (Json.string.write s.contextId)),
    ("status", some ((TaskStatus.json base64 chrono).write s.status)),
    ("artifacts", s.artifacts.map ((Artifact.json base64).list.write)),
    ("history", s.history.map ((Message.json base64).list.write)),
    ("metadata", s.metadata.map Json.value.map.write)]

def fromValue : Value → Except String Task := readStruct keys fun fields => do
  return {
    id := ← readRequired Json.string.read "id" fields
    contextId := ← readRequired Json.string.read "contextId" fields
    status := ← readRequired ((TaskStatus.json base64 chrono).read) "status" fields
    artifacts := ← readOptional ((Artifact.json base64).list.read) "artifacts" fields
    history := ← readOptional ((Message.json base64).list.read) "history" fields
    metadata := ← readOptional Json.value.map.read "metadata" fields }

/-- A task once it was sent. -/
def resent (s : Task) : Task :=
  { s with
    status := s.status.resent
    artifacts := s.artifacts.map (List.map Artifact.resent)
    history := s.history.map (List.map Message.resent) }

/-- **So is a task.** -/
theorem fromValue_struct (s : Task) :
    fromValue base64 chrono (.struct (s.entries base64 chrono)) = .ok s.resent := by
  have hkeys : ((s.entries base64 chrono).map (·.1)).Nodup := (by decide : keys.Nodup)
  rw [fromValue, readStruct_struct]
  simp only [readRequired_written hkeys, readOptional_written hkeys]
  simp [entries, resent, List.lookup_cons, bind, Except.bind, pure, Except.pure]

/-- A task as JSON. -/
def json : NormalJson Task where
  write s := .struct (s.entries base64 chrono)
  read := fromValue base64 chrono
  normal := resent
  read_write := fromValue_struct base64 chrono
  write_ne_null _ h := by contradiction

@[simp] theorem json_normal : (json base64 chrono).normal = resent := rfl

end Task

/-! ## events -/

namespace TaskStatusUpdateEvent

def keys : List String := ["taskId", "contextId", "status", "metadata"]

def entries (s : TaskStatusUpdateEvent) : List (String × Option Value) :=
  [("taskId", some (Json.string.write s.taskId)),
    ("contextId", some (Json.string.write s.contextId)),
    ("status", some ((TaskStatus.json base64 chrono).write s.status)),
    ("metadata", s.metadata.map Json.value.map.write)]

def fromValue : Value → Except String TaskStatusUpdateEvent := readStruct keys fun fields => do
  return {
    taskId := ← readRequired Json.string.read "taskId" fields
    contextId := ← readRequired Json.string.read "contextId" fields
    status := ← readRequired ((TaskStatus.json base64 chrono).read) "status" fields
    metadata := ← readOptional Json.value.map.read "metadata" fields }

/-- An update once it was sent. -/
def resent (s : TaskStatusUpdateEvent) : TaskStatusUpdateEvent :=
  { s with status := s.status.resent }

/-- So is a status update. -/
theorem fromValue_struct (s : TaskStatusUpdateEvent) :
    fromValue base64 chrono (.struct (s.entries base64 chrono)) = .ok s.resent := by
  have hkeys : ((s.entries base64 chrono).map (·.1)).Nodup := (by decide : keys.Nodup)
  rw [fromValue, readStruct_struct]
  simp only [readRequired_written hkeys, readOptional_written hkeys]
  simp [entries, resent, List.lookup_cons, bind, Except.bind, pure, Except.pure]

/-- A status update as JSON. -/
def json : NormalJson TaskStatusUpdateEvent where
  write s := .struct (s.entries base64 chrono)
  read := fromValue base64 chrono
  normal := resent
  read_write := fromValue_struct base64 chrono
  write_ne_null _ h := by contradiction

@[simp] theorem json_normal : (json base64 chrono).normal = resent := rfl

end TaskStatusUpdateEvent

namespace TaskArtifactUpdateEvent

def keys : List String := ["taskId", "contextId", "artifact", "append", "lastChunk", "metadata"]

def entries (s : TaskArtifactUpdateEvent) : List (String × Option Value) :=
  [("taskId", some (Json.string.write s.taskId)),
    ("contextId", some (Json.string.write s.contextId)),
    ("artifact", some ((Artifact.json base64).write s.artifact)),
    ("append", s.append.map Json.bool.write),
    ("lastChunk", s.lastChunk.map Json.bool.write),
    ("metadata", s.metadata.map Json.value.map.write)]

def fromValue : Value → Except String TaskArtifactUpdateEvent := readStruct keys fun fields => do
  return {
    taskId := ← readRequired Json.string.read "taskId" fields
    contextId := ← readRequired Json.string.read "contextId" fields
    artifact := ← readRequired ((Artifact.json base64).read) "artifact" fields
    append := ← readOptional Json.bool.read "append" fields
    lastChunk := ← readOptional Json.bool.read "lastChunk" fields
    metadata := ← readOptional Json.value.map.read "metadata" fields }

/-- An update once it was sent. -/
def resent (s : TaskArtifactUpdateEvent) : TaskArtifactUpdateEvent :=
  { s with artifact := s.artifact.resent }

/-- So is an artifact update. -/
theorem fromValue_struct (s : TaskArtifactUpdateEvent) :
    fromValue base64 (.struct (s.entries base64)) = .ok s.resent := by
  have hkeys : ((s.entries base64).map (·.1)).Nodup := (by decide : keys.Nodup)
  rw [fromValue, readStruct_struct]
  simp only [readRequired_written hkeys, readOptional_written hkeys]
  simp [entries, resent, List.lookup_cons, bind, Except.bind, pure, Except.pure]

/-- An artifact update as JSON. -/
def json : NormalJson TaskArtifactUpdateEvent where
  write s := .struct (s.entries base64)
  read := fromValue base64
  normal := resent
  read_write := fromValue_struct base64
  write_ne_null _ h := by contradiction

@[simp] theorem json_normal : (json base64).normal = resent := rfl

end TaskArtifactUpdateEvent

/-! ## unions -/

namespace SendMessageResponse

/-- The key a response is under. -/
def key : SendMessageResponse → String
  | .task _ => "task"
  | .message _ => "message"

def toValue : SendMessageResponse → Value
  | .task t => .object [("task", (Task.json base64 chrono).write t)]
  | .message m => .object [("message", (Message.json base64).write m)]

/-- The alternatives, in the order they are looked for. -/
def alternatives : List (String × (Value → Except String SendMessageResponse)) :=
  [("task", fun v => ((Task.json base64 chrono).read v).map .task),
    ("message", fun v => ((Message.json base64).read v).map .message)]

def fromValue : Value → Except String SendMessageResponse
  | .object fields =>
      readUnion "SendMessageResponse must have 'task' or 'message'" fields
        (alternatives base64 chrono)
  | _ => .error "invalid type, expected a map"

/-- A response once it was sent. -/
def resent : SendMessageResponse → SendMessageResponse
  | .task t => .task t.resent
  | .message m => .message m.resent

/-- An answer to a send is read by its one key. -/
theorem fromValue_toValue (r : SendMessageResponse) :
    fromValue base64 chrono (r.toValue base64 chrono) = .ok r.resent := by
  cases r
  all_goals
    rw [toValue, fromValue, readUnion_single rfl, NormalJson.read_write]
    rfl

/-- The key says what kind of answer it is. -/
theorem key_resent (r : SendMessageResponse) : r.resent.key = r.key := by cases r <;> rfl

end SendMessageResponse

namespace StreamResponse

/-- The key an event is under. -/
def key : StreamResponse → String
  | .task _ => "task"
  | .message _ => "message"
  | .statusUpdate _ => "statusUpdate"
  | .artifactUpdate _ => "artifactUpdate"

def toValue : StreamResponse → Value
  | .task t => .object [("task", (Task.json base64 chrono).write t)]
  | .message m => .object [("message", (Message.json base64).write m)]
  | .statusUpdate s => .object [("statusUpdate", (TaskStatusUpdateEvent.json base64 chrono).write s)]
  | .artifactUpdate a => .object [("artifactUpdate", (TaskArtifactUpdateEvent.json base64).write a)]

/-- The alternatives, in the order they are looked for. -/
def alternatives : List (String × (Value → Except String StreamResponse)) :=
  [("message", fun v => ((Message.json base64).read v).map .message),
    ("task", fun v => ((Task.json base64 chrono).read v).map .task),
    ("statusUpdate", fun v =>
      ((TaskStatusUpdateEvent.json base64 chrono).read v).map .statusUpdate),
    ("artifactUpdate", fun v => ((TaskArtifactUpdateEvent.json base64).read v).map .artifactUpdate)]

def fromValue : Value → Except String StreamResponse
  | .object fields =>
      readUnion "unknown StreamResponse variant" fields (alternatives base64 chrono)
  | _ => .error "invalid type, expected a map"

/-- An event once it was sent. -/
def resent : StreamResponse → StreamResponse
  | .task t => .task t.resent
  | .message m => .message m.resent
  | .statusUpdate s => .statusUpdate s.resent
  | .artifactUpdate a => .artifactUpdate a.resent

/-- So is an event of a stream. -/
theorem fromValue_toValue (r : StreamResponse) :
    fromValue base64 chrono (r.toValue base64 chrono) = .ok r.resent := by
  cases r
  all_goals
    rw [toValue, fromValue, readUnion_single rfl, NormalJson.read_write]
    rfl

/-- The key says what kind of event it is. -/
theorem key_resent (r : StreamResponse) : r.resent.key = r.key := by cases r <;> rfl

end StreamResponse

/-! ## the round trip -/

/-- **The JSON round trip.**  Every part, message, task, response and event
comes back as `resent` has it, however nested and whatever its data, and none
as another alternative. -/
theorem json_roundTrip :
    (∀ p : Part, Part.fromValue base64 (.struct (p.entries base64)) = .ok p.resent) ∧
    (∀ m : Message, Message.fromValue base64 (.struct (m.entries base64)) = .ok m.resent) ∧
    (∀ t : Task,
      Task.fromValue base64 chrono (.struct (t.entries base64 chrono)) = .ok t.resent) ∧
    (∀ r : SendMessageResponse,
      SendMessageResponse.fromValue base64 chrono (r.toValue base64 chrono) = .ok r.resent) ∧
    (∀ r : StreamResponse,
      StreamResponse.fromValue base64 chrono (r.toValue base64 chrono) = .ok r.resent) ∧
    (∀ p back : Part, Part.fromValue base64 (.struct (p.entries base64)) = .ok back →
      back.content = p.content) ∧
    (∀ r back : SendMessageResponse,
      SendMessageResponse.fromValue base64 chrono (r.toValue base64 chrono) = .ok back →
        back.key = r.key) ∧
    ∀ r back : StreamResponse,
      StreamResponse.fromValue base64 chrono (r.toValue base64 chrono) = .ok back →
        back.key = r.key := by
  refine ⟨Part.fromValue_struct base64, Message.fromValue_struct base64,
    Task.fromValue_struct base64 chrono, SendMessageResponse.fromValue_toValue base64 chrono,
    StreamResponse.fromValue_toValue base64 chrono, ?_, ?_, ?_⟩
  · intro p back h
    rw [Part.fromValue_struct] at h
    obtain rfl := Except.ok.inj h
    rfl
  · intro r back h
    rw [SendMessageResponse.fromValue_toValue] at h
    obtain rfl := Except.ok.inj h
    exact r.key_resent
  · intro r back h
    rw [StreamResponse.fromValue_toValue] at h
    obtain rfl := Except.ok.inj h
    exact r.key_resent

/-! ## a leap second within a minute -/

/-- Bytes as the characters of their numbers; nothing is encoded as nothing. -/
def Base64.plain : Base64 where
  encode bytes := String.ofList (bytes.map fun b => Char.ofNat b.toNat)
  decode s := .ok (s.toList.map fun c => UInt8.ofNat c.toNat)
  decode_encode bytes := by
    have hbyte (b : UInt8) : UInt8.ofNat (Char.ofNat b.toNat).toNat = b := by
      have hvalid : b.toNat.isValidChar := Or.inl (lt_trans b.toNat_lt (by decide))
      have hchar : (Char.ofNat b.toNat).toNat = b.toNat := by
        rw [Char.ofNat, dif_pos hvalid]
        rfl
      rw [hchar, UInt8.ofNat_toNat]
    rw [String.toList_ofList, List.map_map]
    exact congrArg Except.ok (List.map_id'' hbyte bytes)

/-- The text of the second after the epoch. -/
def secondText : String := "1970-01-01T00:00:01Z"

/-- An instant as a tally of its seconds and nanoseconds. -/
def tallyOf (t : DateTime) : String :=
  String.ofList ((if t.seconds < 0 then '-' else '+') ::
    (List.replicate t.seconds.natAbs 's' ++ List.replicate t.nanos 'n'))

def readTally (s : String) : Except String DateTime :=
  if h : s.toList.count 'n' < 2000000000 then
    .ok ⟨if s.toList.head? = some '-' then -(s.toList.count 's' : Int) else s.toList.count 's',
      s.toList.count 'n', h⟩
  else .error "input contains invalid characters"

/-- A time as a count of seconds is read back. -/
theorem readTally_tallyOf (t : DateTime) : readTally (tallyOf t) = .ok t := by
  obtain ⟨seconds, nanos, hnanos⟩ := t
  have hsign : (tallyOf ⟨seconds, nanos, hnanos⟩).toList.head? = some '-' ↔ seconds < 0 := by
    simp [tallyOf]
  have hs : (tallyOf ⟨seconds, nanos, hnanos⟩).toList.count 's' = seconds.natAbs := by
    by_cases hneg : seconds < 0 <;> simp [tallyOf, hneg, List.count_replicate]
  have hn : (tallyOf ⟨seconds, nanos, hnanos⟩).toList.count 'n' = nanos := by
    by_cases hneg : seconds < 0 <;> simp [tallyOf, hneg, List.count_replicate]
  have hseconds : (if seconds < 0 then -(seconds.natAbs : Int) else seconds.natAbs) = seconds := by
    split <;> omega
  have hlt : (tallyOf ⟨seconds, nanos, hnanos⟩).toList.count 'n' < 2000000000 := by
    rw [hn]
    exact hnanos
  rw [readTally, dif_pos hlt]
  simp only [hsign, hs, hn, hseconds]

/-- A tally is not the text of an instant. -/
theorem tallyOf_ne (t : DateTime) : tallyOf t ≠ secondText := by
  intro h
  have hhead := congrArg (fun s : String => s.toList.head?) h
  simp only [tallyOf, String.toList_ofList, List.head?_cons] at hhead
  split at hhead
  all_goals
    revert hhead
    decide

/-- The second after the epoch. -/
def secondAfter : DateTime := ⟨1, 0, DateTime.unixEpoch.nanos_lt⟩

/-- The second after the epoch as its text, any other instant as a tally. -/
def instantText (t : DateTime) : String := if t = secondAfter then secondText else tallyOf t

def readInstant (s : String) : Except String DateTime :=
  if s = secondText then .ok secondAfter else readTally s

/-- So is one as the text of an instant. -/
theorem readInstant_instantText (t : DateTime) : readInstant (instantText t) = .ok t := by
  rw [readInstant, instantText]
  by_cases hsecond : t = secondAfter
  · rw [if_pos hsecond, if_pos rfl, hsecond]
  · rw [if_neg hsecond, if_neg (tallyOf_ne t), readTally_tallyOf]

def Chrono.tally : Chrono where
  write t := instantText t.resent
  read := readInstant
  read_write t := readInstant_instantText t.resent

/-- A task whose status is of a leap second within a minute. -/
def leapTask : Task where
  id := "t1"
  contextId := "c1"
  status := ⟨.working, none, some ⟨0, 1000000000, by decide⟩⟩
  artifacts := none
  history := none
  metadata := none

/-- It comes back with the second after. -/
theorem leapTask_moves :
    Task.fromValue .plain .tally (.struct (leapTask.entries .plain .tally)) ≠ .ok leapTask := by
  intro h
  rw [Task.fromValue_struct, Except.ok.injEq] at h
  have htimes := congrArg (fun task : Task => task.status.timestamp) h
  revert htimes
  decide

end A2a
