import Tename.Harness.Compaction

/-!
# Framework adapters

An adapter turns the event log into the messages of a model request and the
chunks of a model stream into events. `VanillaAdapter` and `DeepAgentsAdapter`
share one fold and one chunk translation; they differ in the tools they
surface.

The fold keeps four buffers: the messages so far, the text of the last closer,
the tool uses of the turn being read, and the results that answer the last
assistant message. An event of another kind flushes what has to stand before
its own message.
-/

namespace Tename

/-- An event ready to be emitted but not yet persisted. -/
structure PendingEvent where
  id : EventId
  type : EventType
  payload : Payload

/-- The content of a `tool_result` payload, its `error` where there is none. -/
def resultContent (payload : Payload) : ResultContent :=
  match payload.getD "content" .null with
  | .null => .text (((payload.get? "error").bind Json.str?).getD "")
  | .str s => .text s
  | .arr xs => .blocks xs
  | other => .strOf other

/-- `_tool_result_block`. -/
def toolResultBlock (toolUseId : String) (payload : Payload) : ContentBlock :=
  .toolResult toolUseId (resultContent payload)
    (match payload.getD "is_error" .null with
      | .null => none
      | other => some other.truthy)

/-- The buffers of `build_context`. -/
structure ContextFold where
  messages : List Message
  pendingText : String
  pendingToolUses : List ContentBlock
  pendingToolResults : List ContentBlock

namespace ContextFold

def empty : ContextFold := ⟨[], "", [], []⟩

def push (st : ContextFold) (m : Message) : ContextFold :=
  { st with messages := st.messages ++ [m] }

/-- The assistant message of buffered text and tool uses. -/
def assistantMessage (text : String) (uses : List ContentBlock) : Message :=
  ⟨.assistant, .blocks ((if text = "" then [] else [.text text]) ++ uses)⟩

/-- `_flush_assistant`. -/
def flushAssistant (st : ContextFold) : ContextFold :=
  if st.pendingText = "" ∧ st.pendingToolUses.isEmpty then st
  else
    { st.push (assistantMessage st.pendingText st.pendingToolUses) with
      pendingText := ""
      pendingToolUses := [] }

/-- `_flush_tool_results`. -/
def flushToolResults (st : ContextFold) : ContextFold :=
  if st.pendingToolResults.isEmpty then st
  else { st.push ⟨.tool, .blocks st.pendingToolResults⟩ with pendingToolResults := [] }

def flush (st : ContextFold) : ContextFold :=
  st.flushAssistant.flushToolResults

end ContextFold

/-- `tool_call_ids`: the model's id of each tool call, by event id. -/
def toolCallIds (events : List Event) : List (EventId × String) :=
  (events.filterMap fun e =>
    if e.type = .toolCall then ((e.payload.get? "tool_id").bind Json.str?).map fun id => (e.id, id)
    else none).reverse

/-- The tool use a `tool_result` payload answers, if its call is known. -/
def toolUseIdOf (ids : List (EventId × String)) (payload : Payload) : Option String :=
  match payload.get? "tool_call_id" with
  | some (.uuid call) => ids.lookup call
  | _ => none

/-- One event of the log, as `build_context` folds it. -/
def foldEvent (ids : List (EventId × String)) (st : ContextFold) (e : Event) : ContextFold :=
  match e.type with
  | .systemEvent =>
      if (e.payload.get? "type").bind Json.str? = some "system_prompt" then
        match (e.payload.getD "content" (.str "")).str? with
        | some content =>
            if content = "" then st.flush else st.flush.push ⟨.system, .text content⟩
        | none => st.flush
      else st
  | .userMessage =>
      match (e.payload.getD "content" (.str "")).str? with
      | some content => st.flush.push ⟨.user, .text content⟩
      | none => st.flush
  | .assistantMessage =>
      if (e.payload.getD "is_complete" (.bool false)).truthy then
        match (e.payload.getD "content" (.str "")).str? with
        | some text => { st.flushToolResults with pendingText := text }
        | none => st.flushToolResults
      else st
  | .toolCall =>
      match (e.payload.get? "tool_id").bind Json.str?,
        (e.payload.get? "tool_name").bind Json.str? with
      | some toolId, some toolName =>
          let input := match e.payload.getD "input" (.obj []) with
            | .obj fields => fields
            | _ => []
          let st := if st.pendingToolResults.isEmpty then st else st.flush
          { st with pendingToolUses := st.pendingToolUses ++ [.toolUse toolId toolName input] }
      | _, _ => st
  | .toolResult =>
      match toolUseIdOf ids e.payload with
      | none => st.flushAssistant
      | some toolUseId =>
          { st.flushAssistant with
            pendingToolResults := st.flushAssistant.pendingToolResults ++
              [toolResultBlock toolUseId e.payload] }
  | .harnessEvent | .error => st

/-- Fold the event log into an Anthropic-shaped message list. -/
def foldContext (events : List Event) : List Message :=
  (events.foldl (foldEvent (toolCallIds events)) .empty).flush.messages

/-- The payload of an incremental assistant message. -/
def deltaPayload (text : String) : Payload :=
  [("content", .str text), ("is_complete", .bool false)]

def toolCallPayload (toolId toolName : String) (input : Payload) : Payload :=
  [("tool_id", .str toolId), ("tool_name", .str toolName), ("input", .obj input)]

/-- The event of a stream chunk, up to the id drawn for it. -/
def chunkEvent : ModelChunk → Option (EventType × Payload)
  | .textDelta text => some (.assistantMessage, deltaPayload text)
  | .toolCallEnd toolId toolName input _ =>
      some (.toolCall, toolCallPayload toolId toolName input)
  | .error message retryable statusCode =>
      some (.error, [("message", .str message), ("retryable", .bool retryable),
        ("status_code", (statusCode.map Json.int).getD .null)])
  | .toolCallStart .. | .toolCallDelta .. | .usage _ | .done => none

/-- The definitions of the tools an agent asked for: known names, in order, once each. -/
def selectTools (schemas : String → Option ToolDef) (agent : Agent) : List ToolDef :=
  agent.tools.eraseDups.filterMap schemas

/-- What the loop calls an adapter through. -/
structure FrameworkAdapter where
  buildContext : List Event → Profile → List Message
  /-- The event of a chunk, for the id that `uuid4()` draws. -/
  chunkToEvent : ModelChunk → Option (EventId → PendingEvent)
  getTools : Agent → List ToolDef

/-- `VanillaAdapter`, for the sandbox built-ins and the registered proxy tools. -/
def vanillaAdapter (builtin proxy : String → Option ToolDef) : FrameworkAdapter where
  buildContext events _ := foldContext events
  chunkToEvent chunk := (chunkEvent chunk).map fun p id => ⟨id, p.1, p.2⟩
  getTools := selectTools fun name => (builtin name).or (proxy name)

/-- `DeepAgentsAdapter`, for the framework's own tools. -/
def deepAgentsAdapter (builtin : String → Option ToolDef) : FrameworkAdapter where
  buildContext events _ := foldContext events
  chunkToEvent chunk := (chunkEvent chunk).map fun p id => ⟨id, p.1, p.2⟩
  getTools := selectTools builtin

end Tename
