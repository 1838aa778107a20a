import Mathlib.Data.Rat.Defs
import Tename.Harness.Adapters
import Tename.Program.Basic
import Tename.Sandbox.Types
import Tename.Sessions.Service

/-!
# The stateless brain loop

`runSession` and its helpers, as programs over the operations they await: the
session service, the model stream, the sandbox, the proxy, the clock and
random ids. The set of provisioned sandbox ids, which the source passes down by
reference and reads again in `finally`, is process memory behind two
operations of its own.

The definitions follow `harness/service.py` function by function. A model
stream is read to its end or to its first error chunk; `failure` is the
exception it ends in, if any.
-/

namespace Tename

/-- The chunks a completion yields, and the exception it ends in, if any. -/
structure ModelStream where
  chunks : List ModelChunk
  failure : Option Exn

/-- What a runtime is constructed with, and the registries it reads. -/
structure Runtime where
  sandbox : Bool
  toolProxy : Bool
  proxyToolNames : List String
  loadProfile : String → Except Exn Profile
  builtinSchemas : String → Option ToolDef
  proxySchemas : String → Option ToolDef
  deepAgentsSchemas : String → Option ToolDef
  /-- `SandboxRecipe.model_validate`. -/
  validateRecipe : Payload → Except Exn SandboxRecipe

/-- `get_adapter`. -/
def Runtime.getAdapter (rt : Runtime) (name : String) : Except Exn FrameworkAdapter :=
  if name = "vanilla" then .ok (vanillaAdapter rt.builtinSchemas rt.proxySchemas)
  else if name = "deep_agents" then .ok (deepAgentsAdapter rt.deepAgentsSchemas)
  else .error (.other s!"no adapter registered for '{name}'")

/-- The operations the loop awaits. -/
inductive Op where
  | wake
  | getAgent (id : AgentId)
  | emitEvent (id : EventId) (type : EventType) (payload : Payload)
  | getEvents
  | markComplete
  | monotonic
  | uuid4
  | complete (messages : List Message) (tools : Option (List ToolDef))
  | sandboxStatus (id : String)
  | sandboxProvision (recipe : SandboxRecipe)
  | sandboxExecute (id tool : String) (input : Payload)
  | sandboxDestroy (id : String)
  | proxyExecute (tool : String) (input : Payload)
  | addProvisioned (id : String)
  | provisionedIds

/-- What each operation returns. -/
@[reducible] def Op.Res : Op → Type
  | .wake => Session
  | .getAgent _ => Agent
  | .emitEvent .. => Event
  | .getEvents => List Event
  | .markComplete => SessionStatus
  | .monotonic => ℚ
  | .uuid4 => EventId
  | .complete .. => ModelStream
  | .sandboxStatus _ => SandboxStatus
  | .sandboxProvision _ => String
  | .sandboxExecute .. => ToolResult
  | .sandboxDestroy _ => Unit
  | .proxyExecute .. => ToolResult
  | .addProvisioned _ => Unit
  | .provisionedIds => List String

/-- A coroutine of the runtime. -/
abbrev Harness (α : Type) := Program Op Op.Res Exn α

namespace Harness

open Program (perform)

def wake : Harness Session := perform Op.wake
def getAgent (id : AgentId) : Harness Agent := perform (Op.getAgent id)
def emitEvent (id : EventId) (type : EventType) (payload : Payload) : Harness Event :=
  perform (Op.emitEvent id type payload)
def readPage : Harness (List Event) := perform Op.getEvents
def markComplete : Harness SessionStatus := perform Op.markComplete
def monotonic : Harness ℚ := perform Op.monotonic
def uuid4 : Harness EventId := perform Op.uuid4
def complete (messages : List Message) (tools : Option (List ToolDef)) : Harness ModelStream :=
  perform (Op.complete messages tools)
def sandboxStatus (id : String) : Harness SandboxStatus := perform (Op.sandboxStatus id)
def sandboxProvision (recipe : SandboxRecipe) : Harness String :=
  perform (Op.sandboxProvision recipe)
def sandboxExecute (id tool : String) (input : Payload) : Harness ToolResult :=
  perform (Op.sandboxExecute id tool input)
def sandboxDestroy (id : String) : Harness Unit := perform (Op.sandboxDestroy id)
def proxyExecute (tool : String) (input : Payload) : Harness ToolResult :=
  perform (Op.proxyExecute tool input)
def addProvisioned (id : String) : Harness Unit := perform (Op.addProvisioned id)
def provisionedIds : Harness (List String) := perform Op.provisionedIds

end Harness

open Harness
open Program (settle forEach)

variable (rt : Runtime) (sid : SessionId)

/-- The payload of the event that carries the agent's system prompt. -/
def systemPromptPayload (prompt : String) : Payload :=
  [("type", .str "system_prompt"), ("content", .str prompt)]

/-- `_seed_system_prompt_if_needed`. -/
def seedSystemPromptIfNeeded (agent : Agent) : Harness Unit :=
  match agent.systemPrompt with
  | none => pure ()
  | some prompt =>
      if prompt = "" then pure ()
      else do
        let _ ← emitEvent (.systemPrompt sid) .systemEvent (systemPromptPayload prompt)

/-- `_emit_compaction`. -/
def emitCompaction (events : List Event) (profile : Profile) : Harness Unit :=
  match planTruncate (applyCompactionView events) profile with
  | none => pure ()
  | some decision => do
      let _ ← emitEvent (.compaction sid decision.droppedSequences) .harnessEvent
        decision.toPayload

/-- The accumulators of `_run_turn`. -/
structure TurnState where
  textParts : List String
  toolCalls : List PendingEvent
  latestUsage : Option Usage
  errored : Bool

namespace TurnState

def start : TurnState := ⟨[], [], none, false⟩

/-- Take note of a chunk's text or usage. -/
def note (st : TurnState) : ModelChunk → TurnState
  | .textDelta text => { st with textParts := st.textParts ++ [text] }
  | .usage usage => { st with latestUsage := some usage }
  | _ => st

end TurnState

/-- The payload of the consolidated closer of a turn. -/
def closerPayload (textParts : List String) (latestUsage : Option Usage) : Payload :=
  [("content", .str (String.join textParts)), ("is_complete", .bool true)] ++
    match latestUsage with
    | some usage => [("usage", .obj usage.modelDump)]
    | none => []

/-- The `async for` of `_run_turn`: emit the event of each chunk, up to an error. -/
def streamChunks (adapter : FrameworkAdapter) (failure : Option Exn) :
    List ModelChunk → TurnState → Harness TurnState
  | [], st =>
      match failure with
      | some e => .throw e
      | none => pure st
  | chunk :: chunks, st =>
      match adapter.chunkToEvent chunk with
      | none => streamChunks adapter failure chunks (st.note chunk)
      | some pendingOf => do
          let id ← uuid4
          let pending := pendingOf id
          let _ ← emitEvent pending.id pending.type pending.payload
          if pending.type = .toolCall then
            streamChunks adapter failure chunks
              { st.note chunk with toolCalls := st.toolCalls ++ [pending] }
          else if pending.type = .error then pure { st.note chunk with errored := true }
          else streamChunks adapter failure chunks (st.note chunk)

/-- `_run_turn`: stream one completion, then its closer. -/
def runTurn (adapter : FrameworkAdapter) (messages : List Message) (tools : List ToolDef) :
    Harness TurnState := do
  let stream ← complete messages (if tools.isEmpty then none else some tools)
  let st ← streamChunks adapter stream.failure stream.chunks .start
  if st.textParts ≠ [] ∧ st.errored = false then do
    let id ← uuid4
    let _ ← emitEvent id .assistantMessage (closerPayload st.textParts st.latestUsage)
    pure st
  else pure st

/-- Names of the built-in sandbox tools. -/
def builtinToolNames : List String :=
  ["bash", "python", "file_read", "file_write", "file_edit", "file_list"]

/-- The payload of a `tool_result` the runtime makes up for a call it cannot run. -/
def errorPayload (call : PendingEvent) (toolName error : String) : Payload :=
  [("tool_call_id", .uuid call.id), ("tool_name", .str toolName), ("is_error", .bool true),
    ("error", .str error), ("content", .str error)]

/-- `_stub_payload`: three failure modes, kept distinct. -/
def stubPayload (call : PendingEvent) (toolName : String) : Payload :=
  errorPayload call toolName <|
    if toolName ∈ builtinToolNames ∧ rt.sandbox = false then
      s!"tool '{toolName}' is a sandbox tool but no sandbox is configured for this runtime"
    else if toolName ∈ rt.proxyToolNames ∧ rt.toolProxy = false then
      s!"tool '{toolName}' is a proxy tool but no tool proxy is configured for this runtime"
    else s!"tool '{toolName}' is not a registered sandbox or proxy tool"

/-- `_latest_sandbox_id`: the most recent recorded sandbox. -/
def latestSandboxId (events : List Event) : Option String :=
  events.reverse.findSome? fun e =>
    if e.type = .systemEvent ∧
        (e.payload.get? "type").bind Json.str? = some "sandbox_provisioned" then
      ((e.payload.get? "sandbox_id").bind Json.str?).filter (· ≠ "")
    else none

/-- A sandbox in one of these states is reused. -/
def SandboxStatus.live (s : SandboxStatus) : Bool :=
  s = .ready ∨ s = .idle ∨ s = .running

def provisionedPayload (sandboxId runtime : String) : Payload :=
  [("type", .str "sandbox_provisioned"), ("sandbox_id", .str sandboxId),
    ("runtime", .str runtime)]

/-- Provision a fresh sandbox and record it. -/
def provisionSandbox (agent : Agent) : Harness String := do
  let recipe ← settle (rt.validateRecipe (agent.sandboxRecipe.getD []))
  let newId ← sandboxProvision recipe
  addProvisioned newId
  let _ ← emitEvent (.sandboxProvisioned sid newId) .systemEvent
    (provisionedPayload newId recipe.runtime)
  pure newId

/-- `_get_or_provision_sandbox`. -/
def getOrProvisionSandbox (agent : Agent) : Harness String := do
  let events ← readPage
  match latestSandboxId events with
  | none => provisionSandbox rt sid agent
  | some existingId => do
      let status ← sandboxStatus existingId
      if status.live then do
        addProvisioned existingId
        pure existingId
      else provisionSandbox rt sid agent

/-- The payload of a sandbox tool's result. -/
def sandboxResultPayload (call : PendingEvent) (toolName sandboxId : String) (r : ToolResult) :
    Payload :=
  [("tool_call_id", .uuid call.id), ("tool_name", .str toolName), ("is_error", .bool r.isError),
    ("content", .str r.content), ("stdout", .str r.stdout), ("stderr", .str r.stderr),
    ("exit_code", (r.exitCode.map Json.int).getD .null),
    ("error", (r.error.map Json.str).getD .null), ("sandbox_id", .str sandboxId)]

/-- `_run_sandbox_tool`: failures of the sandbox become error payloads. -/
def runSandboxTool (agent : Agent) (call : PendingEvent) (toolName : String) (input : Payload) :
    Harness Payload := do
  match ← (getOrProvisionSandbox rt sid agent).attempt with
  | .error e =>
      if e.isException then
        pure (errorPayload call toolName s!"sandbox provisioning failed: {e.message}")
      else .throw e
  | .ok sandboxId =>
      match ← (sandboxExecute sandboxId toolName input).attempt with
      | .error e =>
          if e.isException then
            pure (errorPayload call toolName s!"sandbox execute failed: {e.message}" ++
              [("sandbox_id", .str sandboxId)])
          else .throw e
      | .ok result => pure (sandboxResultPayload call toolName sandboxId result)

/-- `_run_proxy_tool`. -/
def runProxyTool (call : PendingEvent) (toolName : String) (input : Payload) :
    Harness Payload := do
  let result ← proxyExecute toolName input
  pure [("tool_call_id", .uuid call.id), ("tool_name", .str toolName),
    ("is_error", .bool result.isError), ("content", .str result.content),
    ("error", (result.error.map Json.str).getD .null)]

/-- The result payload of one tool call, by the kind of its tool. -/
def toolPayload (agent : Agent) (call : PendingEvent) : Harness Payload :=
  let toolName := ((call.payload.get? "tool_name").bind Json.str?).getD ""
  let input := match call.payload.getD "input" (.obj []) with
    | .obj fields => fields
    | _ => []
  if toolName ∈ builtinToolNames ∧ rt.sandbox then
    runSandboxTool rt sid agent call toolName input
  else if toolName ∈ rt.proxyToolNames ∧ rt.toolProxy then
    runProxyTool call toolName input
  else pure (stubPayload rt call toolName)

/-- `_execute_tool_calls`: one result for each call, in order. -/
def executeToolCalls (agent : Agent) (calls : List PendingEvent) : Harness Unit :=
  forEach calls fun call => do
    let payload ← toolPayload rt sid agent call
    let _ ← emitEvent (.toolResult call.id) .toolResult payload

/-- `_destroy_sandboxes`. -/
def destroySandboxes : Harness Unit :=
  if rt.sandbox = false then pure ()
  else do
    let ids ← provisionedIds
    forEach ids fun id => do
      match ← (sandboxDestroy id).attempt with
      | .ok () => pure ()
      | .error e => if e.isException then pure () else .throw e

/-- The check of `max_duration_seconds` at the top of an iteration. -/
def overDuration (profile : Profile) (startedAt : ℚ) : Harness Bool :=
  match profile.stopConditions.maxDurationSeconds with
  | none => pure false
  | some maxDuration => do
      let now ← monotonic
      pure (now - startedAt > maxDuration)

/-- The read of an iteration, compacting first if the active view is too large. -/
def readEvents (profile : Profile) : Harness (List Event) := do
  let events ← readPage
  if shouldCompact (applyCompactionView events) profile then do
    emitCompaction sid events profile
    readPage
  else pure events

inductive StopReason where
  | maxTurns
  | maxDuration
  | noUserTurn
  | modelError
  | noToolCalls

/-- The `while` loop of `run_session`, for the turns that are left. -/
def runTurns (agent : Agent) (profile : Profile) (adapter : FrameworkAdapter) (startedAt : ℚ) :
    Nat → Harness StopReason
  | 0 => pure .maxTurns
  | turns + 1 => do
      if ← overDuration profile startedAt then pure .maxDuration
      else do
        let events ← readEvents sid profile
        let messages := adapter.buildContext (applyCompactionView events) profile
        if messages.any (·.role = .user) = false then pure .noUserTurn
        else do
          let result ← runTurn adapter messages (adapter.getTools agent)
          if result.errored then pure .modelError
          else if result.toolCalls.isEmpty then pure .noToolCalls
          else do
            executeToolCalls rt sid agent result.toolCalls
            runTurns agent profile adapter startedAt turns

/-- `run_session`: drive the agent loop for a session to completion. -/
def runSession : Harness Unit := do
  let session ← wake
  let agent ← getAgent session.agentId
  let profile ← settle (rt.loadProfile agent.model)
  let adapter ← settle (rt.getAdapter agent.framework)
  seedSystemPromptIfNeeded sid agent
  let startedAt ← monotonic
  let _ ← (runTurns rt sid agent profile adapter startedAt
    profile.stopConditions.maxTurns).tryFinally
    (destroySandboxes rt)
  let _ ← markComplete

end Tename
