import Tename.Harness.Run
import Tename.Program.Monitor

/-!
# The protocol of the log

What the runtime does to a session's log, without the program that does it:
the phases of a turn and, for each phase, the events that may be appended in
it. `Emits` is the whole of it. A turn streams the deltas and tool calls of the
model's chunks, closes with one consolidated message if it had text, and then
answers its calls one by one; between turns the log may gain the system prompt
and compaction records. A model request is made between turns, from the active
view of the page that was read last, and the session is completed between turns
or after the last one.

`loopMonitor` makes this a monitor of the runtime process.
-/

namespace Tename

/-- Where a run stands, as far as the log is concerned. -/
inductive Phase where
  /-- No run in progress. -/
  | idle
  /-- Between turns. -/
  | resting
  /-- In a model stream, with the texts and the calls of the turn so far and the
  chunks to come. -/
  | streaming (texts : List String) (calls : List PendingEvent) (rest : List ModelChunk)
  /-- Executing tools, with the calls that are left. -/
  | answering (calls : List PendingEvent)
  /-- Past the last turn of the run. -/
  | stopped

/-- A chunk without an event of its own. -/
def ModelChunk.silent (chunk : ModelChunk) : Bool :=
  (chunkEvent chunk).isNone

/-- The calls to be answered next, once the stream is over; a turn with text has
to close first. -/
def Phase.toAnswer : Phase → List PendingEvent
  | .answering calls => calls
  | .streaming [] calls rest => if rest.all ModelChunk.silent then calls else []
  | _ => []

/-- Not in the middle of a turn. -/
def Phase.ended : Phase → Bool
  | .resting | .stopped => true
  | .streaming [] [] rest => rest.all ModelChunk.silent
  | _ => false

/-- The phase once the calls before `rest` are answered. -/
def Phase.afterResult (rest : List PendingEvent) : Phase :=
  if rest.isEmpty then .resting else .answering rest

/-- The phase after the closer of a turn. -/
def Phase.afterCloser (calls : List PendingEvent) : Phase :=
  if calls.isEmpty then .stopped else .answering calls

/-- The ghost state of the monitor. -/
structure Stage where
  phase : Phase
  /-- An id drawn and not yet used. -/
  drawn : Option EventId
  /-- Nothing has been emitted since the latest read. -/
  current : Bool

variable (rt : Runtime) (agents : AgentId → Option Agent) (sid : SessionId)

/-- The events a run may append, by phase, and the phase that follows. `agent`
is the session's, `page` what the loop read last, and `heard` the streams the
model has answered in the run. -/
inductive Emits (agent : Option Agent) (page : List Event) (heard : List ModelStream) :
    Stage → EventId → EventType → Payload → Phase → Prop where
  | seed {drawn : Option EventId} {current : Bool} {a : Agent} {prompt : String}
      (owner : agent = some a) (carries : a.systemPrompt = some prompt) (nonempty : prompt ≠ "")
      (first : heard = []) :
      Emits agent page heard ⟨.resting, drawn, current⟩ (.systemPrompt sid) .systemEvent
        (systemPromptPayload prompt) .resting
  | compaction {drawn : Option EventId} {a : Agent} {profile : Profile}
      {decision : CompactionDecision} (owner : agent = some a)
      (loaded : rt.loadProfile a.model = .ok profile)
      (planned : planTruncate (applyCompactionView page) profile = some decision) :
      Emits agent page heard ⟨.resting, drawn, true⟩ (.compaction sid decision.droppedSequences)
        .harnessEvent decision.toPayload .resting
  | delta {texts : List String} {calls : List PendingEvent} {skipped rest : List ModelChunk}
      {current : Bool} {id : EventId} {text : String} (silent : skipped.all ModelChunk.silent) :
      Emits agent page heard
        ⟨.streaming texts calls (skipped ++ .textDelta text :: rest), some id, current⟩
        id .assistantMessage (deltaPayload text) (.streaming (texts ++ [text]) calls rest)
  | toolCall {texts : List String} {calls : List PendingEvent} {skipped rest : List ModelChunk}
      {current : Bool} {id : EventId} {toolId toolName : String} {input : Payload} {index : Int}
      (silent : skipped.all ModelChunk.silent) :
      Emits agent page heard
        ⟨.streaming texts calls (skipped ++ .toolCallEnd toolId toolName input index :: rest),
          some id, current⟩
        id .toolCall (toolCallPayload toolId toolName input)
        (.streaming texts (calls ++ [⟨id, .toolCall, toolCallPayload toolId toolName input⟩]) rest)
  | error {texts : List String} {calls : List PendingEvent} {skipped rest : List ModelChunk}
      {current : Bool} {id : EventId} {message : String} {retryable : Bool}
      {statusCode : Option Int}
      {payload : Payload} (silent : skipped.all ModelChunk.silent) :
      Emits agent page heard
        ⟨.streaming texts calls (skipped ++ .error message retryable statusCode :: rest),
          some id, current⟩ id .error payload .stopped
  | closer {texts : List String} {calls : List PendingEvent} {rest : List ModelChunk}
      {current : Bool} {id : EventId} {usage : Option Usage} (spoken : texts ≠ [])
      (drained : rest.all ModelChunk.silent) :
      Emits agent page heard ⟨.streaming texts calls rest, some id, current⟩ id .assistantMessage
        (closerPayload texts usage) (.afterCloser calls)
  | provisioned {phase : Phase} {drawn : Option EventId} {current : Bool}
      {sandbox runtime : String} (working : phase.toAnswer ≠ []) :
      Emits agent page heard ⟨phase, drawn, current⟩ (.sandboxProvisioned sid sandbox) .systemEvent
        (provisionedPayload sandbox runtime) phase
  | result {phase : Phase} {drawn : Option EventId} {current : Bool} {call : PendingEvent}
      {rest : List PendingEvent} {payload : Payload} (working : phase.toAnswer = call :: rest)
      (answers : payload.get? "tool_call_id" = some (.uuid call.id)) :
      Emits agent page heard ⟨phase, drawn, current⟩ (.toolResult call.id) .toolResult payload
        (.afterResult rest)

/-- `Emits` in a state of the world. -/
def EmitsIn (w : World) : Stage → EventId → EventType → Payload → Phase → Prop :=
  Emits rt sid (agents w.session.row.agentId) w.lastRead.page w.streams

/-- The messages of a model request, from the page read last. -/
def World.requestMessages (w : World) : List Message :=
  foldContext (applyCompactionView w.lastRead.page)

/-- The protocol as a monitor of the runtime process. -/
def loopMonitor : Monitor (runtimeProcess rt agents sid) Stage where
  permits w g
    | .emitEvent id type payload => ∃ phase, EmitsIn rt agents sid w g id type payload phase
    | .complete messages _ =>
        g.phase = .resting ∧ g.current = true ∧ messages = w.requestMessages ∧
          messages.any (·.role = .user) = true
    | .markComplete => g.phase.ended = true
    | _ => True
  moves w g o r _ g' :=
    match o, r with
    | .emitEvent id type payload, .ok _ =>
        ∃ phase, EmitsIn rt agents sid w g id type payload phase ∧ g' = ⟨phase, none, false⟩
    | .complete .., .ok stream => g' = ⟨.streaming [] [] stream.chunks, none, false⟩
    | .uuid4, .ok id => g' = ⟨g.phase, some id, g.current⟩
    | .getEvents, .ok _ => g' = ⟨g.phase, g.drawn, true⟩
    | _, _ => g' = g
  begun := ⟨.resting, none, false⟩
  stopped := ⟨.idle, none, false⟩

/-- Operations the protocol does not look at. -/
def Op.quiet : Op → Bool
  | .emitEvent .. | .getEvents | .uuid4 | .complete .. | .markComplete => false
  | _ => true

theorem permits_of_quiet {w : World} {g : Stage} {o : Op} (quiet : o.quiet = true) :
    (loopMonitor rt agents sid).permits w g o := by
  cases o with
  | emitEvent id type payload => cases quiet
  | complete messages tools => cases quiet
  | markComplete => cases quiet
  | _ => trivial

theorem moves_of_quiet {w w' : World} {g g' : Stage} {o : Op} {r : Except Exn o.Res}
    (quiet : o.quiet = true) : (loopMonitor rt agents sid).moves w g o r w' g' ↔ g' = g := by
  cases o with
  | emitEvent id type payload => cases quiet
  | complete messages tools => cases quiet
  | markComplete => cases quiet
  | uuid4 => cases quiet
  | getEvents => cases quiet
  | _ => exact Iff.rfl

@[simp] theorem Phase.toAnswer_answering (calls : List PendingEvent) :
    (Phase.answering calls).toAnswer = calls := rfl

theorem Phase.toAnswer_afterResult (rest : List PendingEvent) :
    (Phase.afterResult rest).toAnswer = rest := by
  cases rest <;> rfl

theorem Phase.toAnswer_afterCloser (calls : List PendingEvent) :
    (Phase.afterCloser calls).toAnswer = calls := by
  cases calls <;> rfl

end Tename
