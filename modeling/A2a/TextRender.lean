import A2a.AgentCard
import A2a.JsonText

/-!
# A2a.TextRender

What the CLI prints in `text` mode: the `TextRender` of every response
(`a2acli/src/lib.rs`).

Each renderer puts out the items of its response (`TextResponse.sections`),
a listing those of its entries as records, so `inert_output` applies: the
strings that must have no control characters, and the texts that must have
no line after a blank one, are gathered in `Plain` of each type.
-/

namespace A2a

/-! ## the renderers -/

def taskStateLabel : TaskState → String
  | .unspecified => "UNSPECIFIED"
  | .submitted => "SUBMITTED"
  | .working => "WORKING"
  | .completed => "COMPLETED"
  | .failed => "FAILED"
  | .canceled => "CANCELED"
  | .inputRequired => "INPUT_REQUIRED"
  | .rejected => "REJECTED"
  | .authRequired => "AUTH_REQUIRED"

/-- What is said of a file whose bytes are in the part. -/
def rawFile (part : Part) (bytes : List UInt8) : String :=
  let name := part.filename.getD "(unnamed)"
  match part.mediaType with
  | some mediaType => name ++ " (" ++ mediaType ++ ", " ++ toString bytes.length ++ " bytes)"
  | none => name ++ " (" ++ toString bytes.length ++ " bytes)"

/-- What is said of a file elsewhere. -/
def urlFile (part : Part) (url : String) : String :=
  match part.mediaType with
  | some mediaType => url ++ " (" ++ mediaType ++ ")"
  | none => url

section Renderers

variable (floatText : UInt64 → String)

def renderPart (out : TextOutput) (part : Part) : TextOutput :=
  match part.content with
  | .text text => out.block "Text" text
  | .data value => out.block "Data" (toStringPretty floatText value)
  | .raw bytes => out.field "File" (rawFile part bytes)
  | .url url => out.field "File" (urlFile part url)

def renderMessageParts (out : TextOutput) (message : Message) : TextOutput :=
  if message.parts.isEmpty then out.field "Parts" "(none)"
  else message.parts.foldl (renderPart floatText) out

/-- An artifact's line and its parts. -/
def renderArtifact (out : TextOutput) (artifact : Artifact) : TextOutput :=
  artifact.parts.foldl (renderPart floatText)
    (out.raw ("Artifact: " ++ artifact.name.getD artifact.artifactId))

/-- How a task that waits is resumed. -/
def renderResume (out : TextOutput) (state : TaskState) (taskId : TaskId) : TextOutput :=
  if state = .inputRequired ∨ state = .authRequired then
    out.field "Resume with" ("a2acli send --task-id " ++ taskId ++ " \"<reply>\"")
  else out

/-- The entry of an interface in its card's listing. -/
def interfaceLine (i : AgentInterface) : String :=
  "  - " ++ i.protocolBinding ++ " " ++ i.url ++ " (v" ++ i.protocolVersion ++ ")"

def AgentCard.renderText (card : AgentCard) : String :=
  let out := TextOutput.empty
    |>.field "Name" card.name
    |>.field "Description" card.description
    |>.field "Version" card.version
    |>.field "Streaming" (toString (card.capabilities.streaming.getD false))
    |>.field "Push Notifications" (toString (card.capabilities.pushNotifications.getD false))
    |>.field "Extended Card" (toString (card.capabilities.extendedAgentCard.getD false))
  let interfaces :=
    if card.supportedInterfaces.isEmpty then "  (none)"
    else String.intercalate "\n" (card.supportedInterfaces.map interfaceLine)
  (out.block "Interfaces" interfaces |>.field "Skills" (toString card.skills.length)).finish

def Task.renderText (task : Task) : String :=
  let out := TextOutput.empty
    |>.field "Task ID" task.id
    |>.field "Context ID" task.contextId
    |>.field "State" (taskStateLabel task.status.state)
  let out := match task.status.message with
    | some message => renderMessageParts floatText out message
    | none => out
  let out := match task.artifacts with
    | some artifacts => artifacts.foldl (renderArtifact floatText) out
    | none => out
  (renderResume out task.status.state task.id).finish

/-- A field for a value that may be absent. -/
def TextOutput.fieldOption (out : TextOutput) (label : String) : Option String → TextOutput
  | some value => out.field label value
  | none => out

def Message.renderText (message : Message) : String :=
  let out := TextOutput.empty
    |>.fieldOption "Context ID" message.contextId
    |>.fieldOption "Task ID" message.taskId
  (renderMessageParts floatText out message).finish

def SendMessageResponse.renderText : SendMessageResponse → String
  | .task t => t.renderText floatText
  | .message m => m.renderText floatText

def ListTasksResponse.renderText (response : ListTasksResponse) : String :=
  let out := TextOutput.empty
    |>.field "Total" (toString response.totalSize)
    |>.field "Page Size" (toString response.pageSize)
  let out := if response.nextPageToken.isEmpty then out
    else out.field "Next Page Token" response.nextPageToken
  let out := if response.tasks.isEmpty then out.field "Tasks" "(none)"
    else response.tasks.foldl (fun out task => out.block "Task" (task.renderText floatText)) out
  out.finish

def TaskPushNotificationConfig.renderText (config : TaskPushNotificationConfig) : String :=
  (TextOutput.empty
    |>.fieldOption "Config ID" config.id
    |>.field "Task ID" config.taskId
    |>.field "URL" config.url
    |>.fieldOption "Token" config.token
    |>.fieldOption "Auth Scheme" (config.authentication.map (·.scheme))).finish

def ListTaskPushNotificationConfigsResponse.renderText
    (response : ListTaskPushNotificationConfigsResponse) : String :=
  let out := TextOutput.empty.fieldOption "Next Page Token" response.nextPageToken
  let out := if response.configs.isEmpty then out.field "Configs" "(none)"
    else response.configs.foldl (fun out config => out.block "Push Config" config.renderText) out
  out.finish

/-- `PushConfigDeleted`. -/
structure PushConfigDeleted where
  deleted : Bool
  taskId : TaskId
  id : String

def PushConfigDeleted.renderText (response : PushConfigDeleted) : String :=
  (TextOutput.empty
    |>.field "Deleted" (toString response.deleted)
    |>.field "Task ID" response.taskId
    |>.field "Config ID" response.id).finish

def StreamResponse.renderText : StreamResponse → String
  | .task t => t.renderText floatText
  | .message m => m.renderText floatText
  | .statusUpdate event =>
      let out := TextOutput.empty
        |>.field "Task ID" event.taskId
        |>.field "Context ID" event.contextId
        |>.field "State" (taskStateLabel event.status.state)
      (renderResume out event.status.state event.taskId).finish
  | .artifactUpdate event =>
      let out := TextOutput.empty
        |>.field "Task ID" event.taskId
        |>.field "Context ID" event.contextId
      (renderArtifact floatText out event.artifact).finish

/-- The responses the CLI prints. -/
inductive TextResponse
  | card (card : AgentCard)
  | task (task : Task)
  | message (message : Message)
  | send (response : SendMessageResponse)
  | tasks (response : ListTasksResponse)
  | config (config : TaskPushNotificationConfig)
  | configs (response : ListTaskPushNotificationConfigsResponse)
  | deleted (response : PushConfigDeleted)
  | stream (event : StreamResponse)

/-- `render_text` of each. -/
def TextResponse.renderText : TextResponse → String
  | .card c => c.renderText
  | .task t => t.renderText floatText
  | .message m => m.renderText floatText
  | .send r => r.renderText floatText
  | .tasks r => r.renderText floatText
  | .config c => c.renderText
  | .configs r => r.renderText
  | .deleted r => r.renderText
  | .stream e => e.renderText floatText

/-! ## their items -/

def Part.item (part : Part) : TextItem :=
  match part.content with
  | .text text => .block "Text" text
  | .data value => .block "Data" (toStringPretty floatText value)
  | .raw bytes => .field "File" (rawFile part bytes)
  | .url url => .field "File" (urlFile part url)

def Message.partItems (message : Message) : List TextItem :=
  if message.parts.isEmpty then [.field "Parts" "(none)"] else message.parts.map (·.item floatText)

def Artifact.items (artifact : Artifact) : List TextItem :=
  .field "Artifact" (artifact.name.getD artifact.artifactId) ::
    artifact.parts.map (·.item floatText)

def resumeItems (state : TaskState) (taskId : TaskId) : List TextItem :=
  if state = .inputRequired ∨ state = .authRequired then
    [.field "Resume with" ("a2acli send --task-id " ++ taskId ++ " \"<reply>\"")]
  else []

def AgentCard.interfaceLines (card : AgentCard) : List String :=
  if card.supportedInterfaces.isEmpty then ["  (none)"]
  else card.supportedInterfaces.map interfaceLine

def AgentCard.items (card : AgentCard) : List TextItem :=
  [.field "Name" card.name, .field "Description" card.description, .field "Version" card.version,
    .field "Streaming" (toString (card.capabilities.streaming.getD false)),
    .field "Push Notifications" (toString (card.capabilities.pushNotifications.getD false)),
    .field "Extended Card" (toString (card.capabilities.extendedAgentCard.getD false)),
    .listing "Interfaces" card.interfaceLines,
    .field "Skills" (toString card.skills.length)]

def Task.items (task : Task) : List TextItem :=
  [.field "Task ID" task.id, .field "Context ID" task.contextId,
    .field "State" (taskStateLabel task.status.state)] ++
  task.status.message.toList.flatMap (·.partItems floatText) ++
  (task.artifacts.getD []).flatMap (·.items floatText) ++
  resumeItems task.status.state task.id

def optionItems (label : String) (value : Option String) : List TextItem :=
  value.toList.map (.field label)

def Message.items (message : Message) : List TextItem :=
  optionItems "Context ID" message.contextId ++ optionItems "Task ID" message.taskId ++
  message.partItems floatText

def TaskPushNotificationConfig.items (config : TaskPushNotificationConfig) : List TextItem :=
  optionItems "Config ID" config.id ++ [.field "Task ID" config.taskId, .field "URL" config.url] ++
  optionItems "Token" config.token ++
  optionItems "Auth Scheme" (config.authentication.map (·.scheme))

def PushConfigDeleted.items (response : PushConfigDeleted) : List TextItem :=
  [.field "Deleted" (toString response.deleted), .field "Task ID" response.taskId,
    .field "Config ID" response.id]

def StreamResponse.items : StreamResponse → List TextItem
  | .task t => t.items floatText
  | .message m => m.items floatText
  | .statusUpdate event =>
      [.field "Task ID" event.taskId, .field "Context ID" event.contextId,
        .field "State" (taskStateLabel event.status.state)] ++
      resumeItems event.status.state event.taskId
  | .artifactUpdate event =>
      [.field "Task ID" event.taskId, .field "Context ID" event.contextId] ++
      event.artifact.items floatText

/-- The sections of a listing of tasks. -/
def ListTasksResponse.sections (response : ListTasksResponse) : List TextSection :=
  [.item (.field "Total" (toString response.totalSize)),
    .item (.field "Page Size" (toString response.pageSize))] ++
  (if response.nextPageToken.isEmpty then []
    else [.item (.field "Next Page Token" response.nextPageToken)]) ++
  (if response.tasks.isEmpty then [.item (.field "Tasks" "(none)")]
    else response.tasks.map fun task => .record "Task" (task.items floatText))

def ListTaskPushNotificationConfigsResponse.sections
    (response : ListTaskPushNotificationConfigsResponse) : List TextSection :=
  (optionItems "Next Page Token" response.nextPageToken).map .item ++
  (if response.configs.isEmpty then [.item (.field "Configs" "(none)")]
    else response.configs.map fun config => .record "Push Config" config.items)

/-- What a response's text is made of. -/
def TextResponse.sections : TextResponse → List TextSection
  | .card c => c.items.map .item
  | .task t => (t.items floatText).map .item
  | .message m => (m.items floatText).map .item
  | .send (.task t) => (t.items floatText).map .item
  | .send (.message m) => (m.items floatText).map .item
  | .tasks r => r.sections floatText
  | .config c => c.items.map .item
  | .configs r => r.sections
  | .deleted r => r.items.map .item
  | .stream e => (e.items floatText).map .item

end Renderers

variable {floatText : UInt64 → String} {out : TextOutput}

/-! ## the lines of a rendering -/

/-- A field adds its line. -/
@[simp] theorem TextOutput.lines_field (label value : String) :
    (out.field label value).lines = out.lines ++ (TextItem.field label value).lines := rfl

/-- A block adds its lines. -/
@[simp] theorem TextOutput.lines_block (label content : String) :
    (out.block label content).lines = out.lines ++ (TextItem.block label content).lines := rfl

/-- A value that is absent adds nothing. -/
@[simp] theorem TextOutput.lines_fieldOption (label : String) (value : Option String) :
    (out.fieldOption label value).lines =
      out.lines ++ (optionItems label value).flatMap (·.lines) := by
  cases value with
  | none => simp [TextOutput.fieldOption, optionItems]
  | some value => simp [TextOutput.fieldOption, optionItems]

/-- What is printed depends on the lines only. -/
theorem TextOutput.finish_of_lines {ls : List String} (h : out.lines = ls) :
    out.finish = TextOutput.finish ⟨ls⟩ := by
  rw [← h]

/-- What each step puts out, a loop puts out. -/
theorem lines_foldl {α : Type} {f : TextOutput → α → TextOutput} {g : α → List String}
    (h : ∀ out a, (f out a).lines = out.lines ++ g a) (as : List α) (out : TextOutput) :
    (as.foldl f out).lines = out.lines ++ as.flatMap g := by
  induction as generalizing out with
  | nil => simp
  | cons a as ih => rw [List.foldl_cons, ih, h, List.append_assoc, List.flatMap_cons]

/-- A part adds its item. -/
@[simp] theorem lines_renderPart (part : Part) :
    (renderPart floatText out part).lines = out.lines ++ (part.item floatText).lines := by
  unfold renderPart Part.item
  cases part.content <;> rfl

/-- Parts add their items in order. -/
theorem lines_foldl_renderPart (parts : List Part) :
    (parts.foldl (renderPart floatText) out).lines =
      out.lines ++ (parts.map (·.item floatText)).flatMap (·.lines) := by
  rw [List.flatMap_map]
  exact lines_foldl (fun _ part => lines_renderPart part) parts out

/-- So do the parts of a message. -/
@[simp] theorem lines_renderMessageParts (message : Message) :
    (renderMessageParts floatText out message).lines =
      out.lines ++ (message.partItems floatText).flatMap (·.lines) := by
  unfold renderMessageParts Message.partItems
  split
  · simp
  · exact lines_foldl_renderPart _

/-- So does an artifact. -/
@[simp] theorem lines_renderArtifact (artifact : Artifact) :
    (renderArtifact floatText out artifact).lines =
      out.lines ++ (artifact.items floatText).flatMap (·.lines) := by
  rw [renderArtifact, lines_foldl_renderPart, Artifact.items, List.flatMap_cons,
    ← List.append_assoc]
  rfl

/-- The line on how to go on comes where the state asks for it. -/
@[simp] theorem lines_renderResume (state : TaskState) (taskId : TaskId) :
    (renderResume out state taskId).lines =
      out.lines ++ (resumeItems state taskId).flatMap (·.lines) := by
  unfold renderResume resumeItems
  split
  · simp
  · simp

/-- **A card is printed item by item.** -/
theorem AgentCard.renderText_eq (card : AgentCard) :
    card.renderText = TextOutput.finish ⟨card.items.flatMap (·.lines)⟩ := by
  refine TextOutput.finish_of_lines ?_
  have hinterfaces :
      (if card.supportedInterfaces.isEmpty then "  (none)"
        else String.intercalate "\n" (card.supportedInterfaces.map interfaceLine)) =
      String.intercalate "\n" card.interfaceLines := by
    unfold AgentCard.interfaceLines
    split
    · rfl
    · rfl
  rw [hinterfaces]
  rfl

/-- So is a task. -/
theorem Task.renderText_eq (task : Task) :
    task.renderText floatText = TextOutput.finish ⟨(task.items floatText).flatMap (·.lines)⟩ := by
  refine TextOutput.finish_of_lines ?_
  have hartifacts (out : TextOutput) (artifacts : List Artifact) :
      (artifacts.foldl (renderArtifact floatText) out).lines =
        out.lines ++ (artifacts.flatMap (·.items floatText)).flatMap (·.lines) := by
    rw [List.flatMap_assoc]
    exact lines_foldl (fun _ artifact => lines_renderArtifact artifact) artifacts out
  rw [lines_renderResume, Task.items]
  cases task.status.message <;> cases task.artifacts <;> simp [hartifacts, TextOutput.empty]

/-- So is a message. -/
theorem Message.renderText_eq (message : Message) :
    message.renderText floatText =
      TextOutput.finish ⟨(message.items floatText).flatMap (·.lines)⟩ := by
  refine TextOutput.finish_of_lines ?_
  simp [Message.items, TextOutput.empty]

/-- So is a push configuration. -/
theorem TaskPushNotificationConfig.renderText_eq (config : TaskPushNotificationConfig) :
    config.renderText = TextOutput.finish ⟨config.items.flatMap (·.lines)⟩ := by
  refine TextOutput.finish_of_lines ?_
  simp [TaskPushNotificationConfig.items, TextOutput.empty]

/-- So is an event. -/
theorem StreamResponse.renderText_eq (event : StreamResponse) :
    event.renderText floatText =
      TextOutput.finish ⟨(event.items floatText).flatMap (·.lines)⟩ := by
  cases event with
  | task t => exact t.renderText_eq
  | message m => exact m.renderText_eq
  | statusUpdate event =>
      refine TextOutput.finish_of_lines ?_
      simp [StreamResponse.items, TextOutput.empty]
  | artifactUpdate event =>
      refine TextOutput.finish_of_lines ?_
      simp [StreamResponse.items, TextOutput.empty]

/-- A loop over records puts out the sections. -/
theorem lines_records {α : Type} {f : α → String} {g : α → List TextItem} (label : String)
    (h : ∀ a, f a = TextOutput.finish ⟨(g a).flatMap (·.lines)⟩) (as : List α) (out : TextOutput) :
    (as.foldl (fun out a => out.block label (f a)) out).lines =
      out.lines ++ (as.map fun a => TextSection.record label (g a)).flatMap (·.lines) := by
  rw [List.flatMap_map]
  refine lines_foldl (fun out a => ?_) as out
  rw [h a]
  rfl

/-- A list of tasks is printed section by section. -/
theorem ListTasksResponse.renderText_eq (response : ListTasksResponse) :
    response.renderText floatText =
      TextOutput.finish ⟨(response.sections floatText).flatMap (·.lines)⟩ := by
  refine TextOutput.finish_of_lines ?_
  have hrecords := lines_records (f := (·.renderText floatText)) "Task" Task.renderText_eq
    response.tasks
  rw [ListTasksResponse.sections]
  split <;> split <;> simp [hrecords, TextOutput.empty, TextSection.lines]

/-- So is a list of configurations. -/
theorem ListTaskPushNotificationConfigsResponse.renderText_eq
    (response : ListTaskPushNotificationConfigsResponse) :
    response.renderText = TextOutput.finish ⟨response.sections.flatMap (·.lines)⟩ := by
  refine TextOutput.finish_of_lines ?_
  have hrecords := lines_records "Push Config" TaskPushNotificationConfig.renderText_eq
    response.configs
  rw [ListTaskPushNotificationConfigsResponse.sections]
  split <;> simp [hrecords, TextOutput.empty, TextSection.lines, List.flatMap_map]

/-- **Every response's text is that of its sections.** -/
theorem TextResponse.renderText_eq (r : TextResponse) :
    r.renderText floatText = TextOutput.finish ⟨(r.sections floatText).flatMap (·.lines)⟩ := by
  have hitems (items : List TextItem) :
      (items.map TextSection.item).flatMap (·.lines) = items.flatMap (·.lines) := by
    rw [List.flatMap_map]
    rfl
  cases r with
  | card c => rw [sections, hitems, renderText, c.renderText_eq]
  | task t => rw [sections, hitems, renderText, t.renderText_eq]
  | message m => rw [sections, hitems, renderText, m.renderText_eq]
  | send response =>
      cases response with
      | task t => rw [sections, hitems, renderText, SendMessageResponse.renderText, t.renderText_eq]
      | message m =>
          rw [sections, hitems, renderText, SendMessageResponse.renderText, m.renderText_eq]
  | tasks response => exact response.renderText_eq
  | config c => rw [sections, hitems, renderText, c.renderText_eq]
  | configs response => exact response.renderText_eq
  | deleted response => rfl
  | stream e => rw [sections, hitems, renderText, e.renderText_eq]

/-! ## which responses are plain -/

/-- What is shown of the part does not break the form. -/
def Part.Plain (part : Part) : Prop :=
  match part.content with
  | .text text =>
      (∀ l ∈ linesFrom [] text.toList, Uncontrolled l) ∧ Unparted (linesFrom [] text.toList)
  | .data value => ∀ s ∈ value.strings, ∀ c ∈ s.toList, isControl c = true → c.toNat < 0x20
  | .raw _ =>
      (∀ name ∈ part.filename, Uncontrolled name.toList) ∧
        ∀ mediaType ∈ part.mediaType, Uncontrolled mediaType.toList
  | .url url =>
      Uncontrolled url.toList ∧ ∀ mediaType ∈ part.mediaType, Uncontrolled mediaType.toList

structure Artifact.Plain (artifact : Artifact) : Prop where
  label : Uncontrolled (artifact.name.getD artifact.artifactId).toList
  parts : ∀ part ∈ artifact.parts, part.Plain

structure AgentInterface.Plain (i : AgentInterface) : Prop where
  protocolBinding : Uncontrolled i.protocolBinding.toList
  url : Uncontrolled i.url.toList
  protocolVersion : Uncontrolled i.protocolVersion.toList

structure AgentCard.Plain (card : AgentCard) : Prop where
  name : Uncontrolled card.name.toList
  description : Uncontrolled card.description.toList
  version : Uncontrolled card.version.toList
  interfaces : ∀ i ∈ card.supportedInterfaces, i.Plain

structure Task.Plain (task : Task) : Prop where
  id : Uncontrolled task.id.toList
  contextId : Uncontrolled task.contextId.toList
  message : ∀ message ∈ task.status.message, ∀ part ∈ message.parts, part.Plain
  artifacts : ∀ artifacts ∈ task.artifacts, ∀ artifact ∈ artifacts, artifact.Plain

structure Message.Plain (message : Message) : Prop where
  contextId : ∀ id ∈ message.contextId, Uncontrolled id.toList
  taskId : ∀ id ∈ message.taskId, Uncontrolled id.toList
  parts : ∀ part ∈ message.parts, part.Plain

structure ListTasksResponse.Plain (response : ListTasksResponse) : Prop where
  nextPageToken : Uncontrolled response.nextPageToken.toList
  tasks : ∀ task ∈ response.tasks, task.Plain

structure TaskPushNotificationConfig.Plain (config : TaskPushNotificationConfig) : Prop where
  id : ∀ id ∈ config.id, Uncontrolled id.toList
  taskId : Uncontrolled config.taskId.toList
  url : Uncontrolled config.url.toList
  token : ∀ token ∈ config.token, Uncontrolled token.toList
  scheme : ∀ auth ∈ config.authentication, Uncontrolled auth.scheme.toList

structure ListTaskPushNotificationConfigsResponse.Plain
    (response : ListTaskPushNotificationConfigsResponse) : Prop where
  nextPageToken : ∀ token ∈ response.nextPageToken, Uncontrolled token.toList
  configs : ∀ config ∈ response.configs, config.Plain

structure PushConfigDeleted.Plain (response : PushConfigDeleted) : Prop where
  taskId : Uncontrolled response.taskId.toList
  id : Uncontrolled response.id.toList

structure TaskStatusUpdateEvent.Plain (event : TaskStatusUpdateEvent) : Prop where
  taskId : Uncontrolled event.taskId.toList
  contextId : Uncontrolled event.contextId.toList

structure TaskArtifactUpdateEvent.Plain (event : TaskArtifactUpdateEvent) : Prop where
  taskId : Uncontrolled event.taskId.toList
  contextId : Uncontrolled event.contextId.toList
  artifact : event.artifact.Plain

/-- Every string the response shows is plain. -/
def TextResponse.Plain : TextResponse → Prop
  | .card c => c.Plain
  | .task t | .send (.task t) | .stream (.task t) => t.Plain
  | .message m | .send (.message m) | .stream (.message m) => m.Plain
  | .tasks r => r.Plain
  | .config c => c.Plain
  | .configs r => r.Plain
  | .deleted r => r.Plain
  | .stream (.statusUpdate e) => e.Plain
  | .stream (.artifactUpdate e) => e.Plain

/-! ## labels -/

/-- A label without controls, before items that have such. -/
theorem labelled_cons {label value : String} {items : List TextItem}
    (h : Uncontrolled label.toList) (hitems : ∀ i ∈ items, i.Labelled) :
    ∀ i ∈ TextItem.field label value :: items, i.Labelled :=
  List.forall_mem_cons.mpr ⟨h, hitems⟩

/-- The label of a part is one of three. -/
theorem Part.labelled_item (part : Part) : (part.item floatText).Labelled := by
  unfold Part.item
  cases part.content <;> simp only [TextItem.Labelled] <;> decide

theorem labelled_parts (parts : List Part) : ∀ i ∈ parts.map (·.item floatText), i.Labelled := by
  intro i hi
  obtain ⟨part, -, rfl⟩ := List.mem_map.mp hi
  exact part.labelled_item

theorem Message.labelled_partItems (message : Message) :
    ∀ i ∈ message.partItems floatText, i.Labelled := by
  unfold Message.partItems
  split
  · exact labelled_cons (by decide) (List.forall_mem_nil _)
  · exact labelled_parts _

theorem Artifact.labelled_items (artifact : Artifact) :
    ∀ i ∈ artifact.items floatText, i.Labelled := by
  exact labelled_cons (by decide) (labelled_parts _)

theorem labelled_resumeItems (state : TaskState) (taskId : TaskId) :
    ∀ i ∈ resumeItems state taskId, i.Labelled := by
  unfold resumeItems
  split
  · exact labelled_cons (by decide) (List.forall_mem_nil _)
  · exact List.forall_mem_nil _

theorem labelled_optionItems {label : String} (h : Uncontrolled label.toList)
    (value : Option String) : ∀ i ∈ optionItems label value, i.Labelled := by
  intro i hi
  obtain ⟨value, -, rfl⟩ := List.mem_map.mp hi
  exact h

theorem interfaceLine_ne_nil (i : AgentInterface) : (interfaceLine i).toList ≠ [] := by
  simp [interfaceLine]

/-- **Every label of a card is a text of the program.** -/
theorem AgentCard.labelled_items (card : AgentCard) : ∀ i ∈ card.items, i.Labelled := by
  have hlisting : (TextItem.listing "Interfaces" card.interfaceLines).Labelled := by
    refine ⟨by decide, ?_⟩
    unfold AgentCard.interfaceLines
    split
    · decide
    · next hne =>
      have hmap : card.supportedInterfaces ≠ [] := by simpa using hne
      refine ⟨by simpa using hmap, fun e he => ?_⟩
      obtain ⟨i, -, rfl⟩ := List.mem_map.mp he
      exact interfaceLine_ne_nil i
  refine labelled_cons (by decide) (labelled_cons (by decide) (labelled_cons (by decide) ?_))
  refine labelled_cons (by decide) (labelled_cons (by decide) (labelled_cons (by decide) ?_))
  refine List.forall_mem_cons.mpr ⟨hlisting, ?_⟩
  exact labelled_cons (by decide) (List.forall_mem_nil _)

/-- So is every label of a task. -/
theorem Task.labelled_items (task : Task) : ∀ i ∈ task.items floatText, i.Labelled := by
  simp only [Task.items, List.forall_mem_append, List.forall_mem_flatMap]
  refine ⟨⟨⟨?_, fun m _ => m.labelled_partItems⟩, fun a _ => a.labelled_items⟩,
    labelled_resumeItems _ _⟩
  refine labelled_cons (by decide) (labelled_cons (by decide) ?_)
  exact labelled_cons (by decide) (List.forall_mem_nil _)

/-- So is every label of a message. -/
theorem Message.labelled_items (message : Message) : ∀ i ∈ message.items floatText, i.Labelled := by
  simp only [Message.items, List.forall_mem_append]
  exact ⟨⟨labelled_optionItems (by decide) _, labelled_optionItems (by decide) _⟩,
    message.labelled_partItems⟩

/-- So is every label of a configuration. -/
theorem TaskPushNotificationConfig.labelled_items (config : TaskPushNotificationConfig) :
    ∀ i ∈ config.items, i.Labelled := by
  simp only [TaskPushNotificationConfig.items, List.forall_mem_append]
  refine ⟨⟨⟨labelled_optionItems (by decide) _, ?_⟩, labelled_optionItems (by decide) _⟩,
    labelled_optionItems (by decide) _⟩
  exact labelled_cons (by decide) (labelled_cons (by decide) (List.forall_mem_nil _))

/-- So is every label of an event. -/
theorem StreamResponse.labelled_items (event : StreamResponse) :
    ∀ i ∈ event.items floatText, i.Labelled := by
  cases event with
  | task t => exact t.labelled_items
  | message m => exact m.labelled_items
  | statusUpdate e =>
      refine List.forall_mem_append.mpr ⟨?_, labelled_resumeItems _ _⟩
      refine labelled_cons (by decide) (labelled_cons (by decide) ?_)
      exact labelled_cons (by decide) (List.forall_mem_nil _)
  | artifactUpdate e =>
      refine List.forall_mem_append.mpr ⟨?_, e.artifact.labelled_items⟩
      exact labelled_cons (by decide) (labelled_cons (by decide) (List.forall_mem_nil _))

theorem forall_item {P : TextItem → Prop} {item : TextItem} :
    (∀ i ∈ (TextSection.item item).items, P i) ↔ P item := List.forall_mem_singleton

/-- What holds of all items holds of all sections that are one each. -/
theorem forall_items {P : TextItem → Prop} {items : List TextItem} :
    (∀ s ∈ items.map TextSection.item, ∀ i ∈ s.items, P i) ↔ ∀ i ∈ items, P i := by
  simp [TextSection.items]

/-- A record has its heading besides its items. -/
theorem forall_records {α : Type} {P : TextItem → Prop} (label : String) (g : α → List TextItem)
    (as : List α) :
    (∀ s ∈ as.map fun a => TextSection.record label (g a), ∀ i ∈ s.items, P i) ↔
      ∀ a ∈ as, P (.heading label) ∧ ∀ i ∈ g a, P i := by
  simp [TextSection.items]

theorem ListTasksResponse.labelled_sections (response : ListTasksResponse) :
    ∀ s ∈ response.sections floatText, ∀ i ∈ s.items, i.Labelled := by
  have hitem {label value : String} (h : Uncontrolled label.toList) :
      ∀ i ∈ (TextSection.item (.field label value)).items, i.Labelled := forall_item.mpr h
  simp only [ListTasksResponse.sections, List.forall_mem_append]
  refine ⟨⟨?_, ?_⟩, ?_⟩
  · rw [List.forall_mem_cons, List.forall_mem_singleton]
    exact ⟨hitem (by decide), hitem (by decide)⟩
  · split
    · exact List.forall_mem_nil _
    · exact List.forall_mem_singleton.mpr (hitem (by decide))
  · split
    · exact List.forall_mem_singleton.mpr (hitem (by decide))
    · exact (forall_records _ _ _).mpr fun t _ => ⟨⟨by decide, by decide⟩, t.labelled_items⟩

theorem ListTaskPushNotificationConfigsResponse.labelled_sections
    (response : ListTaskPushNotificationConfigsResponse) :
    ∀ s ∈ response.sections, ∀ i ∈ s.items, i.Labelled := by
  refine List.forall_mem_append.mpr ⟨forall_items.mpr (labelled_optionItems (by decide) _), ?_⟩
  split
  · rw [List.forall_mem_singleton, forall_item]
    exact (by decide : Uncontrolled "Configs".toList)
  · exact (forall_records _ _ _).mpr fun c _ => ⟨⟨by decide, by decide⟩, c.labelled_items⟩

/-- The labels of every response are what they are taken for. -/
theorem TextResponse.labelled_sections (r : TextResponse) :
    ∀ s ∈ r.sections floatText, ∀ i ∈ s.items, i.Labelled := by
  cases r with
  | card c => exact forall_items.mpr c.labelled_items
  | task t => exact forall_items.mpr t.labelled_items
  | message m => exact forall_items.mpr m.labelled_items
  | send response =>
      cases response with
      | task t => exact forall_items.mpr t.labelled_items
      | message m => exact forall_items.mpr m.labelled_items
  | tasks response => exact response.labelled_sections
  | config c => exact forall_items.mpr c.labelled_items
  | configs response => exact response.labelled_sections
  | deleted response =>
      refine forall_items.mpr (labelled_cons (by decide) (labelled_cons (by decide) ?_))
      exact labelled_cons (by decide) (List.forall_mem_nil _)
  | stream e => exact forall_items.mpr e.labelled_items

/-! ## what is inert -/

/-- A field is inert if its value has no control. -/
theorem inert_field (label value : String) :
    (TextItem.field label value).Inert ↔ Uncontrolled value.toList := and_iff_left trivial

/-- A listing is if its entries have none. -/
theorem inert_listing (label : String) (entries : List String) :
    (TextItem.listing label entries).Inert ↔ ∀ e ∈ entries, Uncontrolled e.toList :=
  and_iff_left trivial

/-- A heading is always. -/
theorem inert_heading (label : String) : (TextItem.heading label).Inert := ⟨trivial, trivial⟩

/-- The text of a number has no control. -/
theorem NumberText.uncontrolled {s : String} (h : NumberText s) : Uncontrolled s.toList :=
  uncontrolled_of_printable h.printable

theorem uncontrolled_bool (b : Bool) : Uncontrolled (toString b).toList := by
  cases b <;> decide

/-- Nor has the name of a state. -/
theorem uncontrolled_stateLabel (state : TaskState) :
    Uncontrolled (taskStateLabel state).toList := by
  cases state <;> decide

theorem forall_mem_none {P : String → Prop} : (∀ s ∈ (none : Option String), P s) ↔ True := by simp

theorem forall_mem_some {P : String → Prop} (s : String) : (∀ s' ∈ some s, P s') ↔ P s := by simp

/-- What is printed of a file is its name and its type. -/
theorem uncontrolled_rawFile_iff (part : Part) (bytes : List UInt8) :
    Uncontrolled (rawFile part bytes).toList ↔
      (∀ name ∈ part.filename, Uncontrolled name.toList) ∧
        ∀ mediaType ∈ part.mediaType, Uncontrolled mediaType.toList := by
  have hlength := (numberText_toString_nat bytes.length).uncontrolled
  have hname : Uncontrolled (part.filename.getD "(unnamed)").toList ↔
      ∀ name ∈ part.filename, Uncontrolled name.toList := by
    cases part.filename with
    | none =>
        rw [forall_mem_none, iff_true]
        decide
    | some name => rw [forall_mem_some, Option.getD_some]
  have hopening : Uncontrolled " (".toList := by decide
  have hcomma : Uncontrolled ", ".toList := by decide
  have hclosing : Uncontrolled " bytes)".toList := by decide
  rw [rawFile, ← hname]
  cases part.mediaType with
  | none =>
      simp only [String.toList_append, uncontrolled_append, hlength, hopening, hclosing, and_true,
        forall_mem_none]
  | some mediaType =>
      simp only [String.toList_append, uncontrolled_append, hlength, hopening, hcomma, hclosing,
        and_true, forall_mem_some]

/-- Of a file that is elsewhere it is its address and its type. -/
theorem uncontrolled_urlFile_iff (part : Part) (url : String) :
    Uncontrolled (urlFile part url).toList ↔
      Uncontrolled url.toList ∧ ∀ mediaType ∈ part.mediaType, Uncontrolled mediaType.toList := by
  have hopening : Uncontrolled " (".toList := by decide
  have hclosing : Uncontrolled ")".toList := by decide
  rw [urlFile]
  cases part.mediaType with
  | none => simp only [forall_mem_none, and_true]
  | some mediaType =>
      simp only [String.toList_append, uncontrolled_append, hopening, hclosing, and_true,
        forall_mem_some]

/-- **A part is inert exactly if it is plain.** -/
theorem Part.inert_item_iff (hfloat : ∀ bits, NumberText (floatText bits)) (part : Part) :
    (part.item floatText).Inert ↔ part.Plain := by
  unfold Part.item Part.Plain
  cases part.content with
  | text text => exact Iff.rfl
  | raw bytes => exact (inert_field _ _).trans (uncontrolled_rawFile_iff part bytes)
  | url url => exact (inert_field _ _).trans (uncontrolled_urlFile_iff part url)
  | data value =>
      exact (and_iff_left (whole_pretty hfloat _ value)).trans (clean_pretty_iff hfloat _ value)

/-- So are many parts. -/
theorem inert_parts_iff (hfloat : ∀ bits, NumberText (floatText bits)) (parts : List Part) :
    (∀ i ∈ parts.map (·.item floatText), i.Inert) ↔ ∀ part ∈ parts, part.Plain := by
  rw [List.forall_mem_map]
  exact forall₂_congr fun part _ => part.inert_item_iff hfloat

theorem Message.inert_partItems_iff (hfloat : ∀ bits, NumberText (floatText bits))
    (message : Message) :
    (∀ i ∈ message.partItems floatText, i.Inert) ↔ ∀ part ∈ message.parts, part.Plain := by
  unfold Message.partItems
  split
  · next hempty =>
    rw [List.isEmpty_iff.mp hempty, List.forall_mem_singleton, inert_field]
    exact iff_of_true (by decide) (List.forall_mem_nil _)
  · exact inert_parts_iff hfloat _

/-- So is an artifact. -/
theorem Artifact.inert_items_iff (hfloat : ∀ bits, NumberText (floatText bits))
    (artifact : Artifact) : (∀ i ∈ artifact.items floatText, i.Inert) ↔ artifact.Plain := by
  rw [Artifact.items, List.forall_mem_cons, inert_field, inert_parts_iff hfloat]
  exact ⟨fun h => ⟨h.1, h.2⟩, fun h => ⟨h.label, h.parts⟩⟩

/-- A value is inert if it is absent or has no control. -/
theorem inert_optionItems_iff (label : String) (value : Option String) :
    (∀ i ∈ optionItems label value, i.Inert) ↔ ∀ s ∈ value, Uncontrolled s.toList := by
  simp [optionItems, inert_field]

/-- The line on how to go on prints the task's id. -/
theorem inert_resumeItems (state : TaskState) {taskId : TaskId} (h : Uncontrolled taskId.toList) :
    ∀ i ∈ resumeItems state taskId, i.Inert := by
  have hcommand : Uncontrolled "a2acli send --task-id ".toList := by decide
  have hreply : Uncontrolled " \"<reply>\"".toList := by decide
  unfold resumeItems
  split
  · rw [List.forall_mem_singleton, inert_field, String.toList_append, String.toList_append,
      uncontrolled_append, uncontrolled_append]
    exact ⟨⟨hcommand, h⟩, hreply⟩
  · exact List.forall_mem_nil _

/-- The line of an interface prints all it says. -/
theorem uncontrolled_interfaceLine_iff (i : AgentInterface) :
    Uncontrolled (interfaceLine i).toList ↔ i.Plain := by
  have hdash : Uncontrolled "  - ".toList := by decide
  have hspace : Uncontrolled " ".toList := by decide
  have hopening : Uncontrolled " (v".toList := by decide
  have hclosing : Uncontrolled ")".toList := by decide
  simp only [interfaceLine, String.toList_append, uncontrolled_append, hdash, hspace, hopening,
    hclosing, true_and, and_true]
  exact ⟨fun ⟨⟨hbinding, hurl⟩, hversion⟩ => ⟨hbinding, hurl, hversion⟩,
    fun h => ⟨⟨h.protocolBinding, h.url⟩, h.protocolVersion⟩⟩

/-- **A card is inert exactly if it is plain.** -/
theorem AgentCard.inert_items_iff (card : AgentCard) :
    (∀ i ∈ card.items, i.Inert) ↔ card.Plain := by
  have hlisting : (TextItem.listing "Interfaces" card.interfaceLines).Inert ↔
      ∀ i ∈ card.supportedInterfaces, i.Plain := by
    rw [inert_listing, AgentCard.interfaceLines]
    split
    · next hempty =>
      rw [List.isEmpty_iff.mp hempty, List.forall_mem_singleton]
      exact iff_of_true (by decide) (List.forall_mem_nil _)
    · rw [List.forall_mem_map]
      exact forall₂_congr fun i _ => uncontrolled_interfaceLine_iff i
  simp only [AgentCard.items, List.forall_mem_cons, inert_field, hlisting, uncontrolled_bool,
    (numberText_toString_nat _).uncontrolled, true_and]
  constructor
  · rintro ⟨hname, hdescription, hversion, hinterfaces, -⟩
    exact ⟨hname, hdescription, hversion, hinterfaces⟩
  · intro h
    exact ⟨h.name, h.description, h.version, h.interfaces, List.forall_mem_nil _⟩

/-- **So is a task.** -/
theorem Task.inert_items_iff (hfloat : ∀ bits, NumberText (floatText bits)) (task : Task) :
    (∀ i ∈ task.items floatText, i.Inert) ↔ task.Plain := by
  have hstate := uncontrolled_stateLabel task.status.state
  simp only [Task.items, List.forall_mem_append, List.forall_mem_cons, List.forall_mem_flatMap,
    inert_field, Message.inert_partItems_iff hfloat, Artifact.inert_items_iff hfloat]
  constructor
  · rintro ⟨⟨⟨⟨hid, hcontext, -⟩, hmessage⟩, hartifacts⟩, -⟩
    refine ⟨hid, hcontext, fun m hm => hmessage m (Option.mem_toList.mpr hm), ?_⟩
    intro artifacts has
    rw [Option.mem_def.mp has] at hartifacts
    exact hartifacts
  · intro h
    refine ⟨⟨⟨⟨h.id, h.contextId, hstate, ?_⟩, ?_⟩, ?_⟩, inert_resumeItems _ h.id⟩
    · exact List.forall_mem_nil _
    · exact fun m hm => h.message m (Option.mem_toList.mp hm)
    · cases hartifacts : task.artifacts with
      | none => exact List.forall_mem_nil _
      | some artifacts => exact h.artifacts artifacts hartifacts

/-- **So is a message.** -/
theorem Message.inert_items_iff (hfloat : ∀ bits, NumberText (floatText bits)) (message : Message) :
    (∀ i ∈ message.items floatText, i.Inert) ↔ message.Plain := by
  simp only [Message.items, List.forall_mem_append, inert_optionItems_iff,
    Message.inert_partItems_iff hfloat]
  exact ⟨fun ⟨⟨hcontext, htask⟩, hparts⟩ => ⟨hcontext, htask, hparts⟩,
    fun h => ⟨⟨h.contextId, h.taskId⟩, h.parts⟩⟩

/-- **So is a push configuration.** -/
theorem TaskPushNotificationConfig.inert_items_iff (config : TaskPushNotificationConfig) :
    (∀ i ∈ config.items, i.Inert) ↔ config.Plain := by
  simp only [TaskPushNotificationConfig.items, List.forall_mem_append, List.forall_mem_cons,
    inert_optionItems_iff, inert_field]
  constructor
  · rintro ⟨⟨⟨hid, htask, hurl, -⟩, htoken⟩, hscheme⟩
    refine ⟨hid, htask, hurl, htoken, fun auth hauth => hscheme auth.scheme ?_⟩
    rw [Option.mem_def.mp hauth]
    rfl
  · intro h
    refine ⟨⟨⟨h.id, h.taskId, h.url, ?_⟩, h.token⟩, fun s hs => ?_⟩
    · exact List.forall_mem_nil _
    · obtain ⟨auth, hauth, rfl⟩ := Option.map_eq_some_iff.mp hs
      exact h.scheme auth hauth

/-- So is a list of tasks. -/
theorem ListTasksResponse.inert_sections_iff (hfloat : ∀ bits, NumberText (floatText bits))
    (response : ListTasksResponse) :
    (∀ s ∈ response.sections floatText, ∀ i ∈ s.items, i.Inert) ↔ response.Plain := by
  have hitem (label value : String) :
      (∀ i ∈ (TextSection.item (.field label value)).items, i.Inert) ↔
        Uncontrolled value.toList := forall_item.trans (inert_field _ _)
  have hcounts : ∀ s ∈ [TextSection.item (.field "Total" (toString response.totalSize)),
      .item (.field "Page Size" (toString response.pageSize))], ∀ i ∈ s.items, i.Inert := by
    rw [List.forall_mem_cons, List.forall_mem_singleton, hitem, hitem]
    exact ⟨(numberText_toString _).uncontrolled, (numberText_toString _).uncontrolled⟩
  have htoken : (∀ s ∈ (if response.nextPageToken.isEmpty then []
      else [TextSection.item (.field "Next Page Token" response.nextPageToken)]),
        ∀ i ∈ s.items, i.Inert) ↔ Uncontrolled response.nextPageToken.toList := by
    split
    · next hempty =>
      rw [String.isEmpty_iff.mp hempty]
      exact iff_of_true (List.forall_mem_nil _) (by decide)
    · rw [List.forall_mem_singleton, hitem]
  have htasks : (∀ s ∈ (if response.tasks.isEmpty then [TextSection.item (.field "Tasks" "(none)")]
      else response.tasks.map fun task => .record "Task" (task.items floatText)),
        ∀ i ∈ s.items, i.Inert) ↔ ∀ task ∈ response.tasks, task.Plain := by
    split
    · next hempty =>
      rw [List.isEmpty_iff.mp hempty, List.forall_mem_singleton, hitem]
      exact iff_of_true (by decide) (List.forall_mem_nil _)
    · rw [forall_records]
      exact forall₂_congr fun t _ =>
        (and_iff_right (inert_heading _)).trans (t.inert_items_iff hfloat)
  rw [ListTasksResponse.sections, List.forall_mem_append, List.forall_mem_append, htoken, htasks]
  exact ⟨fun ⟨⟨_, htoken⟩, htasks⟩ => ⟨htoken, htasks⟩,
    fun h => ⟨⟨hcounts, h.nextPageToken⟩, h.tasks⟩⟩

/-- So is a list of configurations. -/
theorem ListTaskPushNotificationConfigsResponse.inert_sections_iff
    (response : ListTaskPushNotificationConfigsResponse) :
    (∀ s ∈ response.sections, ∀ i ∈ s.items, i.Inert) ↔ response.Plain := by
  have hconfigs : (∀ s ∈ (if response.configs.isEmpty then
      [TextSection.item (.field "Configs" "(none)")]
      else response.configs.map fun config => .record "Push Config" config.items),
        ∀ i ∈ s.items, i.Inert) ↔ ∀ config ∈ response.configs, config.Plain := by
    split
    · next hempty =>
      rw [List.isEmpty_iff.mp hempty]
      refine iff_of_true ?_ (List.forall_mem_nil _)
      rw [List.forall_mem_singleton, forall_item, inert_field]
      decide
    · rw [forall_records]
      exact forall₂_congr fun c _ => (and_iff_right (inert_heading _)).trans c.inert_items_iff
  rw [ListTaskPushNotificationConfigsResponse.sections, List.forall_mem_append, hconfigs,
    forall_items, inert_optionItems_iff]
  exact ⟨fun h => ⟨h.1, h.2⟩, fun h => ⟨h.nextPageToken, h.configs⟩⟩

/-- **Any answer is inert exactly if it is plain.** -/
theorem TextResponse.inert_sections_iff (hfloat : ∀ bits, NumberText (floatText bits))
    (r : TextResponse) :
    (∀ s ∈ r.sections floatText, ∀ i ∈ s.items, i.Inert) ↔ r.Plain := by
  cases r with
  | card c => exact forall_items.trans c.inert_items_iff
  | task t => exact forall_items.trans (t.inert_items_iff hfloat)
  | message m => exact forall_items.trans (m.inert_items_iff hfloat)
  | send response =>
      cases response with
      | task t => exact forall_items.trans (t.inert_items_iff hfloat)
      | message m => exact forall_items.trans (m.inert_items_iff hfloat)
  | tasks response => exact response.inert_sections_iff hfloat
  | config c => exact forall_items.trans c.inert_items_iff
  | configs response => exact response.inert_sections_iff
  | deleted response =>
      refine forall_items.trans ?_
      simp only [PushConfigDeleted.items, List.forall_mem_cons, inert_field, uncontrolled_bool,
        true_and]
      exact ⟨fun h => ⟨h.1, h.2.1⟩, fun h => ⟨h.taskId, h.id, List.forall_mem_nil _⟩⟩
  | stream event =>
      cases event with
      | task t => exact forall_items.trans (t.inert_items_iff hfloat)
      | message m => exact forall_items.trans (m.inert_items_iff hfloat)
      | statusUpdate e =>
          refine forall_items.trans ?_
          simp only [StreamResponse.items, List.forall_mem_append, List.forall_mem_cons,
            inert_field]
          constructor
          · rintro ⟨⟨htask, hcontext, -⟩, -⟩
            exact ⟨htask, hcontext⟩
          · intro h
            refine ⟨⟨h.taskId, h.contextId, uncontrolled_stateLabel _, ?_⟩,
              inert_resumeItems _ h.taskId⟩
            exact List.forall_mem_nil _
      | artifactUpdate e =>
          refine forall_items.trans ?_
          simp only [StreamResponse.items, List.forall_mem_append, List.forall_mem_cons,
            inert_field, Artifact.inert_items_iff hfloat]
          constructor
          · rintro ⟨⟨htask, hcontext, -⟩, hartifact⟩
            exact ⟨htask, hcontext, hartifact⟩
          · intro h
            refine ⟨⟨h.taskId, h.contextId, ?_⟩, h.artifact⟩
            exact List.forall_mem_nil _

/-! ## the output -/

/-- What a response is to be read as. -/
def TextResponse.entries (floatText : UInt64 → String) (r : TextResponse) : List TextEntry :=
  ((r.sections floatText).flatMap (·.items)).map (·.entry)

/-- **A response's text is inert exactly if what it shows is plain**: then it
has no control characters but the line feeds between its lines, and each of
its fields and blocks is read back, and nothing else. -/
theorem TextResponse.inert_iff_plain (hfloat : ∀ bits, NumberText (floatText bits))
    (r : TextResponse) :
    InertText (r.renderText floatText) (r.entries floatText) ↔ r.Plain := by
  rw [renderText_eq]
  exact (inert_output r.labelled_sections).trans (r.inert_sections_iff hfloat)

/-- An answer of two parts, one a document that holds the double 0.5. -/
def quotedRate : TextResponse :=
  .message (.new "m" .agent [.text "The rate is:",
    ⟨.data (.object [("rate", .number (.float 0x3FE0000000000000))]), none, none, none⟩])

theorem TextResponse.quotedRate_inert :
    InertText (quotedRate.renderText fun _ => "0.5") (quotedRate.entries fun _ => "0.5") := by
  have hdigits : ∀ c ∈ ['0', '.', '5'], c.isDigit = true ∨ c ∈ ['+', '-', '.', 'e', 'E'] := by simp
  have hhalf : NumberText "0.5" := ⟨by decide, hdigits⟩
  have htext : (Part.text "The rate is:").Plain := And.intro (by decide) (by decide)
  have hdata : (⟨.data (.object [("rate", .number (.float 0x3FE0000000000000))]), none, none,
      none⟩ : Part).Plain := by
    intro s hs c hc hcontrol
    have hkey : Uncontrolled "rate".toList := by decide
    rw [List.mem_singleton.mp hs] at hc
    exact Bool.noConfusion (hcontrol.symm.trans (hkey c hc))
  refine (TextResponse.inert_iff_plain (fun _ => hhalf) quotedRate).mpr ⟨?_, ?_, ?_⟩
  · exact forall_mem_none.mpr trivial
  · exact forall_mem_none.mpr trivial
  · exact List.forall_mem_cons.mpr ⟨htext, List.forall_mem_singleton.mpr hdata⟩

/-- A context that ends its field and starts another. -/
def forgedState : TextResponse :=
  .stream (.statusUpdate ⟨"t", "c\nState: COMPLETED", ⟨.working, none, none⟩, none⟩)

theorem TextResponse.forgedState_not_inert :
    forgedState.renderText (fun _ => "0.5") =
        "Task ID: t\nContext ID: c\nState: COMPLETED\nState: WORKING" ∧
      ¬ InertText (forgedState.renderText fun _ => "0.5") (forgedState.entries fun _ => "0.5") := by
  have htext : forgedState.renderText (fun _ => "0.5") =
      "Task ID: t\nContext ID: c\nState: COMPLETED\nState: WORKING" := by decide
  refine ⟨htext, fun h => ?_⟩
  have hlines := congrArg List.length h.read
  rw [htext] at hlines
  exact absurd hlines (by decide)

end A2a
