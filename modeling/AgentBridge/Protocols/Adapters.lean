import AgentBridge.Protocols.Value

/-!
# Protocol adapters

Every adapter maps the wire form of its protocol to the canonical call and back; the registry
translates between any two protocols by way of it.

Only calls are modelled, not results.
-/

namespace AgentBridge.Protocols

open Value

/-- The six adapters of the default registry. -/
inductive Protocol
  | mcp
  | a2a
  | acp
  | openai
  | gemini
  | agntcy
  deriving DecidableEq

/-- `ProtocolAdapter.name`. -/
def Protocol.name : Protocol → String
  | .mcp => "mcp"
  | .a2a => "a2a"
  | .acp => "acp"
  | .openai => "openai"
  | .gemini => "gemini"
  | .agntcy => "agntcy"

/-- What the adapters take from the language: `json.dumps`, `json.loads`, which has no value where it
raises, and `str`. -/
structure Runtime where
  dumps : Value → PyString
  loads : PyString → Option Value
  str : Value → PyString

/-- The identifiers that one translation generates. -/
structure Fresh where
  callId : PyString
  contextId : PyString
  messageId : PyString

/-- A call, in no protocol. `metadata` is left out: no adapter sets or reads it. -/
structure CanonicalCall where
  capability : PyString
  arguments : List (PyString × Value)
  text : Option PyString
  callId : PyString
  sourceProtocol : Protocol

/-- `CanonicalCall(...)`, which checks the types of its fields. -/
def canonicalCall (capability arguments text : Value) (callId : PyString) (source : Protocol) :
    Except Raised CanonicalCall :=
  match capability, arguments, text with
  | .str capability, .dict arguments, .null =>
    .ok ⟨capability, arguments, none, callId, source⟩
  | .str capability, .dict arguments, .str text =>
    .ok ⟨capability, arguments, some text, callId, source⟩
  | .str _, .dict _, _ => .error (.valueError "canonical text must be a string")
  | .str _, _, _ => .error (.valueError "canonical arguments must be a JSON object")
  | _, _, _ => .error (.valueError "canonical capability must be a string")

section Adapters

variable (R : Runtime) (fresh : Fresh)

/-- `json.loads(value)`, which raises on anything but a text. -/
def Runtime.loadsValue : Value → Option Value
  | .str s => R.loads s
  | _ => none

/-! ### MCP -/

namespace Mcp

def toCanonicalCall (wire : Value) : Except Raised CanonicalCall := do
  wire.requireMapping "mcp" "request"
  require ((wire.find "method").all (·.isText "tools/call"))
    (.valueError "only MCP tools/call has an explicitly supported canonical action")
  let params := (wire.find "params").getD .empty
  params.requireMapping "mcp" "params"
  let arguments := (params.find "arguments").getD ((params.find "input").getD .empty)
  let arguments := if arguments.isNone then .empty else arguments
  let capability := (((params.find "name").getD .null).or ((params.find "tool").getD .null)).or
    (.text "")
  let id := (wire.find "id").getD .null
  canonicalCall capability arguments .null (if id.isNone then fresh.callId else R.str id) .mcp

def fromCanonicalCall (call : CanonicalCall) : Value :=
  .object [("jsonrpc", .text "2.0"), ("id", .str call.callId), ("method", .text "tools/call"),
    ("params", .object [("name", .str call.capability), ("arguments", .dict call.arguments)])]

end Mcp

/-- The variables of a loop over messages or parts. -/
@[ext]
structure Scan where
  capability : Value := .text ""
  arguments : Value := .empty
  text : Value := .null

/-! ### A2A -/

namespace A2a

/-- `_messages`. -/
def messages (task : Value) : Except Raised (List Value) :=
  let history := (task.find "history").getD .null
  match if history.isNone then (task.find "messages").getD (.list []) else history with
  | .list items => .ok items
  | _ => .error (.valueError "A2A task history must be a list")

def scanData (scan : Scan) (data : Value) : Except Raised Scan := do
  data.requireMapping "a2a" "data part"
  let name := ((data.find "name").getD .null).or ((data.find "tool_name").getD .null)
  require (!(name.isTruthy && scan.capability.isTruthy))
    (.valueError "multiple tool actions cannot be represented as one call")
  return { scan with
    capability := name.or scan.capability
    arguments := (data.find "arguments").getD scan.arguments }

def scanPart (scan : Scan) (part : Value) : Except Raised Scan := do
  part.requireMapping "a2a" "part"
  let kind := (part.find "kind").getD .null
  if kind.isText "data" then
    scanData scan ((part.find "data").getD .empty)
  else if kind.isText "text" && scan.text.isNone then
    return { scan with text := (part.find "text").getD .null }
  else
    return scan

def scanMessage (scan : Scan) (msg : Value) : Except Raised Scan := do
  msg.requireMapping "a2a" "message"
  match (msg.find "parts").getD (.list []) with
  | .list parts => parts.foldlM scanPart scan
  | _ => .error (.valueError "A2A message parts must be a list")

/-- The task: the request itself, or that of a JSON-RPC envelope. -/
def taskOf (wire : Value) : Value :=
  (((wire.find "params").bind (·.find "task"))).getD wire

def toCanonicalCall (wire : Value) : Except Raised CanonicalCall := do
  wire.requireMapping "a2a" "request"
  let method := (wire.find "method").getD .null
  require (!(method.isText "tasks/cancel" || method.isText "tasks/resubscribe" ||
      method.isText "tasks/get"))
    (.valueError "A2A lifecycle methods are not canonical action calls")
  require (method.isNone || method.isText "tasks/send")
    (.valueError "unsupported A2A method: only tasks/send tool actions")
  let task := taskOf wire
  require task.isDict (.valueError "A2A task must be an object")
  require ((task.find "status").all (·.isDict))
    (.valueError "A2A lifecycle status must be an object")
  let state := (((task.find "status").getD .null).find "state").getD .null
  require (state.isNone || state.isText "submitted")
    (.valueError "A2A lifecycle state not supported as new action")
  let messages ← messages task
  let scan ← messages.foldlM scanMessage {}
  let id := (wire.find "id").getD .null
  canonicalCall scan.capability scan.arguments scan.text
    (if id.isNone then fresh.callId else R.str id) .a2a

/-- `call.text or f"call: \x7bcall.capability\x7d"`. -/
def textOf (call : CanonicalCall) : PyString :=
  match call.text with
  | some text => if text.codes.isEmpty then (PyString.ofString "call: ").append call.capability
    else text
  | none => (PyString.ofString "call: ").append call.capability

def fromCanonicalCall (call : CanonicalCall) : Value :=
  let text := Value.object [("kind", .text "text"), ("text", .str (textOf call))]
  let data := Value.object [("kind", .text "data"),
    ("data", .object [("name", .str call.capability), ("arguments", .dict call.arguments)])]
  let parts := if call.capability.codes.isEmpty then [text] else [text, data]
  .object [("id", .str call.callId), ("contextId", .str fresh.contextId), ("kind", .text "task"),
    ("status", .object [("state", .text "submitted")]),
    ("history", .list [.object [("kind", .text "message"), ("messageId", .str fresh.messageId),
      ("role", .text "agent"), ("parts", .list parts)]]),
    ("metadata", .object [("source_protocol", .text call.sourceProtocol.name)])]

end A2a

/-- `json.dumps(\x7b"name": ..., "arguments": ...\x7d)`. -/
def CanonicalCall.envelope (call : CanonicalCall) : Value :=
  .object [("name", .str call.capability), ("arguments", .dict call.arguments)]

/-- `call.capability or "agent"`. -/
def CanonicalCall.agentName (call : CanonicalCall) : Value :=
  (Value.str call.capability).or (.text "agent")

/-- `capability` and `arguments` of an envelope. -/
def Scan.read (scan : Scan) (data : Value) : Scan :=
  { scan with
    capability := (data.find "name").getD scan.capability
    arguments := (data.find "arguments").getD scan.arguments }

/-! ### ACP -/

namespace Acp

/-- `value.startswith("text/")`. -/
def startsWithText : Value → Except Raised Bool
  | .str s => .ok ((PyString.ofString "text/").codes.isPrefixOf s.codes)
  | _ => .error .attributeError

/-- One part. An error inside of `try` leaves everything as it is. -/
def scanPart (scan : Scan) (part : Value) : Except Raised Scan := do
  let ctype ← part.get "content_type" (.text "")
  let content ← part.get "content" (.text "")
  if ctype.isText "application/json" then
    match R.loadsValue content with
    | some data => return if data.isDict then scan.read data else scan
    | none => return scan
  else
    let prose ← startsWithText ctype
    return if prose && scan.text.isNone then { scan with text := content } else scan

/-- `_iter_parts`. -/
def iterParts (msg : Value) : Except Raised (List Value) :=
  if msg.isDict then ((msg.find "parts").getD (.list [])).iterate else .ok []

def scanMessage (scan : Scan) (msg : Value) : Except Raised Scan := do
  let parts ← iterParts msg
  parts.foldlM (scanPart R) scan

/-- The messages of the request: a run, or a single message. -/
def messagesOf (wire : Value) : Value :=
  (wire.find "input").getD (.list (if (wire.find "parts").isSome then [wire] else []))

def toCanonicalCall (wire : Value) : Except Raised CanonicalCall := do
  wire.requireMapping "acp" "request"
  let messages ← (messagesOf wire).iterate
  let scan ← messages.foldlM (scanMessage R)
    { capability := (wire.find "agent_name").getD (.text "") }
  canonicalCall scan.capability scan.arguments scan.text fresh.callId .acp

def fromCanonicalCall (call : CanonicalCall) : Value :=
  let json := Value.object [("content_type", .text "application/json"),
    ("content", .str (R.dumps call.envelope))]
  let prose := match call.text with
    | some text => if text.codes.isEmpty then [] else
      [Value.object [("content_type", .text "text/plain"), ("content", .str text)]]
    | none => []
  let message := Value.object [("role", .text "user"), ("parts", .list (json :: prose))]
  .object [("agent_name", call.agentName), ("input", .list [message])]

end Acp

/-! ### OpenAI -/

namespace Openai

/-- The arguments: a JSON text, or an object. -/
def argumentsOf (raw : Value) : Value :=
  match raw with
  | .str s => (R.loads s).getD .empty
  | raw => raw.or .empty

def toCanonicalCall (wire : Value) : Except Raised CanonicalCall := do
  wire.requireMapping "openai" "request"
  let fn := ((wire.find "function").getD .empty).or .empty
  let raw ← fn.get "arguments" (.text "\x7b\x7d")
  let capability ← fn.get "name" (.text "")
  let id := (wire.find "id").getD .null
  canonicalCall capability (argumentsOf R raw) .null
    (if id.isTruthy then R.str id else fresh.callId) .openai

def fromCanonicalCall (call : CanonicalCall) : Value :=
  .object [("id", .str call.callId), ("type", .text "function"),
    ("function", .object [("name", .str call.capability),
      ("arguments", .str (R.dumps (.dict call.arguments)))])]

end Openai

/-! ### Gemini -/

namespace Gemini

def toCanonicalCall (wire : Value) : Except Raised CanonicalCall := do
  wire.requireMapping "gemini" "request"
  let id := (wire.find "id").getD .null
  canonicalCall ((wire.find "name").getD (.text "")) (((wire.find "args").getD .empty).or .empty)
    .null (if id.isTruthy then R.str id else fresh.callId) .gemini

def fromCanonicalCall (call : CanonicalCall) : Value :=
  .object [("name", .str call.capability), ("args", .dict call.arguments)]

end Gemini

/-! ### AGNTCY -/

namespace Agntcy

/-- `_messages`. -/
def messages (wire : Value) : Value :=
  match ((wire.find "input").getD .empty).find "messages" with
  | some messages => messages
  | none => (wire.find "messages").getD (.list (if (wire.find "role").isSome then [wire] else []))

/-- `_text_of`. -/
def textOf : Value → Value
  | .dict items => ((Value.dict items).find "text").getD (.text "")
  | .str s => .str s
  | _ => .text ""

/-- One message: an envelope, or a text. -/
def scanMessage (scan : Scan) (msg : Value) : Except Raised Scan := do
  let content ← msg.get "content" .null
  let raw := textOf content
  let prose := if raw.isTruthy && scan.text.isNone then { scan with text := raw } else scan
  match R.loadsValue raw with
  | some data => return if (data.find "name").isSome then scan.read data else prose
  | none => return prose

def toCanonicalCall (wire : Value) : Except Raised CanonicalCall := do
  wire.requireMapping "agntcy" "request"
  let messages ← (messages wire).iterate
  let scan ← messages.foldlM (scanMessage R)
    { capability := (wire.find "agent_id").getD (.text "") }
  canonicalCall scan.capability scan.arguments scan.text fresh.callId .agntcy

def fromCanonicalCall (call : CanonicalCall) : Value :=
  let block := Value.object [("type", .text "text"), ("text", .str (R.dumps call.envelope))]
  let message := Value.object [("role", .text "user"), ("content", block)]
  .object [("agent_id", call.agentName), ("input", .object [("messages", .list [message])])]

end Agntcy

/-! ### The registry -/

/-- `to_canonical_call` of an adapter. -/
def Protocol.toCanonicalCall : Protocol → Value → Except Raised CanonicalCall
  | .mcp => Mcp.toCanonicalCall R fresh
  | .a2a => A2a.toCanonicalCall R fresh
  | .acp => Acp.toCanonicalCall R fresh
  | .openai => Openai.toCanonicalCall R fresh
  | .gemini => Gemini.toCanonicalCall R fresh
  | .agntcy => Agntcy.toCanonicalCall R fresh

/-- `from_canonical_call` of an adapter. -/
def Protocol.fromCanonicalCall : Protocol → CanonicalCall → Value
  | .mcp => Mcp.fromCanonicalCall
  | .a2a => A2a.fromCanonicalCall fresh
  | .acp => Acp.fromCanonicalCall R
  | .openai => Openai.fromCanonicalCall R
  | .gemini => Gemini.fromCanonicalCall
  | .agntcy => Agntcy.fromCanonicalCall R

/-- There is something to route. -/
def CanonicalCall.isRoutable (call : CanonicalCall) : Bool :=
  !call.capability.codes.isEmpty || call.text.any (fun text => !text.codes.isEmpty) ||
    !call.arguments.isEmpty

/-- `ProtocolRegistry.translate_call`. -/
def translateCall (wire : Value) (src dst : Protocol) : Except Raised Value := do
  let canonical ← src.toCanonicalCall R fresh wire
  require canonical.isRoutable (.malformedWireError
    s!"{src.name}: could not extract a capability, arguments, or text from the request")
  return dst.fromCanonicalCall R fresh canonical

end Adapters

end AgentBridge.Protocols
