import A2a.Bindings
import A2a.Sse.Wire

/-!
# A2a.JsonRpc

The JSON-RPC server from the bytes of a request to its answer
(`handle_jsonrpc` in `a2a-server/src/jsonrpc.rs`).

`serde_json` is a parameter: how far it gets with a body is a `Reading`.
What `#[derive(Deserialize)]` makes of it for a `JsonRpcRequest` is
`Reading.request`, member by member as it reads, and what a `Value` is read
as is `Reading.value?`.
-/

namespace A2a

/-! ## reading -/

/-- What stands where a value is expected, or the flaw it is read up to:
`opens` if it begins as an array or an object, `skipped` if a reader that
ignores the value passes over it. -/
inductive Content
  | value (v : Value)
  | flawed (opens skipped : Bool) (flaw : String)

/-- What stands after the last member or element. -/
inductive JsonEnding
  | closed
  | trailing (flaw : String)
  | unclosed (flaw : String)

/-- How far a body is read. -/
inductive Reading
  | object (members : List (String × Content)) (ending : JsonEnding)
  | array (elements : List Content) (ending : JsonEnding)
  | scalar (v : Value) (ending : JsonEnding)
  | unread (flaw : String)

/-- `serde_json::Error`. -/
inductive JsonError
  | flaw (message : String)
  | invalidType (expected : String)
  | custom (message : String)
  | duplicateField (key : String)
  | missingField (key : String)
  | invalidLength (n : Nat)

/-- `Error::is_data`. -/
def JsonError.isData : JsonError → Bool
  | .flaw _ => false
  | _ => true

/-- `serde_json` on a body, and how it words an error there. -/
structure JsonReader where
  read : List UInt8 → Reading
  display : List UInt8 → JsonError → String

namespace Content

def value? : Content → Option Value
  | .value v => some v
  | .flawed _ _ _ => none

/-- Read as any value. -/
def readValue : Content → Except JsonError Value
  | .value v => .ok v
  | .flawed _ _ flaw => .error (.flaw flaw)

/-- Read as a `String`.  A bracket is of the wrong type already. -/
def readString : Content → Except JsonError String
  | .value (.string s) => .ok s
  | .value _ => .error (.invalidType "a string")
  | .flawed true _ _ => .error (.invalidType "a string")
  | .flawed false _ flaw => .error (.flaw flaw)

/-- Read as an ignored value. -/
def ignore : Content → Except JsonError Unit
  | .value _ => .ok ()
  | .flawed _ true _ => .ok ()
  | .flawed _ false flaw => .error (.flaw flaw)

end Content

/-- `JsonRpcId::deserialize`, of what stands there. -/
def JsonRpcId.deserialize (content : Content) : Except JsonError JsonRpcId := do
  let v ← content.readValue
  match v, JsonRpcId.read v with
  | _, some id => .ok id
  | .number _, none => .error (.custom "JSON-RPC id must be a non-fractional number")
  | _, none => .error (.custom "JSON-RPC id must be string, integer, or null")

/-- A member read as any value. -/
def memberValue? (member : String × Content) : Option (String × Value) :=
  member.2.value?.map (member.1, ·)

/-- `from_slice::<Value>`, where it succeeds; the last of a key wins. -/
def Reading.value? : Reading → Option Value
  | .object members .closed =>
      (members.mapM memberValue?).map fun fields => .object (sortedFields (mapOfFields fields))
  | .array elements .closed => (elements.mapM Content.value?).map .array
  | .scalar v .closed => some v
  | _ => none

/-! ## `JsonRpcRequest::deserialize` -/

/-- The fields found so far. -/
structure RequestFields where
  jsonrpc : Option String
  id : Option JsonRpcId
  method : Option String
  params : Option (Option Value)

namespace RequestFields

def empty : RequestFields := ⟨none, none, none, none⟩

/-- A field, which is found at most once. -/
def once {α : Type} (key : String) (found : Option α) (read : Except JsonError α) :
    Except JsonError (Option α) :=
  if found.isSome then .error (.duplicateField key) else read.map some

/-- One more member. -/
def visit (fields : RequestFields) (member : String × Content) : Except JsonError RequestFields :=
  let (key, content) := member
  if key = "jsonrpc" then
    (once key fields.jsonrpc content.readString).map fun v => { fields with jsonrpc := v }
  else if key = "id" then
    (once key fields.id (JsonRpcId.deserialize content)).map fun v => { fields with id := v }
  else if key = "method" then
    (once key fields.method content.readString).map fun v => { fields with method := v }
  else if key = "params" then
    (once key fields.params (content.readValue.map fun v => optionalField (some v))).map fun v =>
      { fields with params := v }
  else content.ignore.map fun _ => fields

/-- The request, once the object is closed. -/
def finish (fields : RequestFields) : Except JsonError JsonRpcRequest :=
  match fields.jsonrpc, fields.id, fields.method with
  | none, _, _ => .error (.missingField "jsonrpc")
  | _, none, _ => .error (.missingField "id")
  | _, _, none => .error (.missingField "method")
  | some jsonrpc, some id, some method => .ok ⟨jsonrpc, id, method, fields.params.join⟩

end RequestFields

namespace JsonEnding

/-- The flaw before the bracket. -/
def close : JsonEnding → Except JsonError Unit
  | .unclosed flaw => .error (.flaw flaw)
  | _ => .ok ()

/-- The flaw after it. -/
def finish : JsonEnding → Except JsonError Unit
  | .trailing flaw => .error (.flaw flaw)
  | _ => .ok ()

end JsonEnding

/-- `next_element`: what is left is none only at the end. -/
def nextElement (elements : List Content) (ending : JsonEnding) :
    Except JsonError (Option Content × List Content) :=
  match elements with
  | content :: rest => .ok (some content, rest)
  | [] => ending.close.map fun _ => (none, [])

/-- `next_element` of a field that has no default. -/
def requiredElement (elements : List Content) (ending : JsonEnding) (n : Nat) :
    Except JsonError (Content × List Content) := do
  match ← nextElement elements ending with
  | (some content, rest) => return (content, rest)
  | (none, _) => throw (.invalidLength n)

/-- An array is read as the fields in order. -/
def visitSeq (elements : List Content) (ending : JsonEnding) : Except JsonError JsonRpcRequest := do
  let (content, elements) ← requiredElement elements ending 0
  let jsonrpc ← content.readString
  let (content, elements) ← requiredElement elements ending 1
  let id ← JsonRpcId.deserialize content
  let (content, elements) ← requiredElement elements ending 2
  let method ← content.readString
  let (content, elements) ← nextElement elements ending
  let params ← match content with
    | some content => content.readValue.map fun v => optionalField (some v)
    | none => pure none
  -- `end_seq`
  if elements.isEmpty then ending.close else throw (.flaw "trailing characters")
  return ⟨jsonrpc, id, method, params⟩

/-- `from_slice::<JsonRpcRequest>`. -/
def Reading.request : Reading → Except JsonError JsonRpcRequest
  | .object members ending => do
      let fields ← members.foldlM RequestFields.visit .empty
      ending.close
      let request ← fields.finish
      ending.finish
      return request
  | .array elements ending => do
      let request ← visitSeq elements ending
      ending.finish
      return request
  | .scalar _ _ => .error (.invalidType "struct JsonRpcRequest")
  | .unread flaw => .error (.flaw flaw)

/-! ## the answer -/

/-- `error_response`. -/
def errorResponse (timestamp : String) (id : JsonRpcId) (err : A2AError) : JsonRpcResponse :=
  .failure id (err.toJsonrpcError timestamp)

def A2AError.parseError (error : String) : A2AError :=
  .new ErrorCode.parseError s!"parse error: {error}"

/-- `malformed_request_response`. -/
def malformedRequestResponse (reader : JsonReader) (timestamp : String) (body : List UInt8)
    (error : JsonError) : JsonRpcResponse :=
  if !error.isData then errorResponse timestamp .null (.parseError (reader.display body error))
  else
    let id := (((reader.read body).value?.bind (·.get "id")).bind JsonRpcId.read).getD .null
    errorResponse timestamp id (.invalidRequest s!"invalid request: {reader.display body error}")

/-- A `RequestHandler`: what a method answers, as ProtoJSON writes it, or
the stream it opens. -/
structure RequestHandler where
  unary : ServiceParams → HandlerCall → Except A2AError (Except String Value)
  streaming : ServiceParams → HandlerCall → Except A2AError (List SseItem)

/-- The result of a method: `protojson_value` of what it answers, of which
`delete_push_config` has none. -/
def unaryResult (call : HandlerCall) (answer : Except A2AError (Except String Value)) :
    Except A2AError Value :=
  match call, answer with
  | _, .error err => .error err
  | .deletePushConfig _, .ok _ => .ok .null
  | _, .ok (.ok value) => .ok value
  | _, .ok (.error e) => .error (.internal s!"failed to serialize ProtoJSON payload: {e}")

/-- What is sent back. -/
inductive JsonRpcAnswer
  | envelope (response : JsonRpcResponse)
  | stream (id : JsonRpcId) (items : List SseItem)

/-- A request answered, and the calls of the handler that were made. -/
structure Served where
  calls : List (ServiceParams × HandlerCall)
  answer : JsonRpcAnswer

/-- A JSON-RPC server, at some time. -/
structure JsonRpcServer where
  reader : JsonReader
  json : ProtoJson
  handler : RequestHandler
  timestamp : String

/-- `handle_jsonrpc` on a body. -/
def JsonRpcServer.serve (server : JsonRpcServer) (headers : HeaderMap)
    (query : Option (List (String × String))) (body : List UInt8) : Served :=
  match (server.reader.read body).request with
  | .error error =>
      ⟨[], .envelope (malformedRequestResponse server.reader server.timestamp body error)⟩
  | .ok request =>
      match handleJsonrpc server.json headers query (.ok request) with
      | .error err => ⟨[], .envelope (errorResponse server.timestamp request.id err)⟩
      | .ok (params, call) =>
          ⟨[(params, call)],
            if Methods.isStreaming request.method then
              match server.handler.streaming params call with
              | .ok items => .stream request.id items
              | .error err => .envelope (errorResponse server.timestamp request.id err)
            else
              match unaryResult call (server.handler.unary params call) with
              | .ok value => .envelope (.success request.id value)
              | .error err => .envelope (errorResponse server.timestamp request.id err)⟩

end A2a
