import Tename.Harness.Service
import Tename.Program.Process

/-!
# Runs of the loop against a session

The environment that performs the loop's operations: the session service on
one session, random ids by draw number, and answers of the model, the sandbox,
the proxy and the clock that the label of a step chooses freely. Any operation
may raise instead, without an effect. The runtime process may be killed and
restarted, and clients of the session may send user messages or complete it.

Two fields of the world record history for the statements about it. `lastRead`
is the log at the moment of the loop's latest read, with the page it got;
`streams` is what the model has answered in the running process.
-/

namespace Tename

/-- What a `get_events` call of the loop saw: the committed log, and its page of it. -/
structure Read where
  log : List Event
  page : List Event

structure World where
  session : SessionState
  /-- The number of ids drawn by `uuid4()`. -/
  draws : Nat
  /-- `provisioned_sandbox_ids` of the running process. -/
  provisioned : List String
  lastRead : Read
  streams : List ModelStream

/-- What the environment answers to an operation. -/
inductive Answer where
  /-- The session service, or the process itself, does what it does. -/
  | done
  | raises (error : Exn)
  | reads (clock : ℚ)
  | streams (stream : ModelStream)
  | reports (status : SandboxStatus)
  | provisions (id : String)
  | results (result : ToolResult)

/-- What other clients of the session do. -/
inductive ClientAction where
  /-- `send(content)` up to the user message: `emit_event` under a fresh random id. -/
  | say (content : String)
  /-- `complete()`. -/
  | complete

namespace World

/-- `emit_event` on the session. -/
def emit (w : World) (id : EventId) (type : EventType) (payload : Payload) :
    World × Except Exn Event :=
  ({ w with session := (w.session.emitEvent id type payload).1 },
    (w.session.emitEvent id type payload).2)

/-- `get_events(session_id)`. -/
def read (w : World) : World × Except Exn (List Event) :=
  match w.session.page with
  | .ok page => ({ w with lastRead := ⟨w.session.events, page⟩ }, .ok page)
  | .error e => (w, .error e)

/-- `uuid4()`. -/
def draw (w : World) : World × EventId :=
  ({ w with draws := w.draws + 1 }, .uuid4 w.draws)

/-- The process's own set of sandbox ids. -/
def addProvisioned (w : World) (id : String) : World :=
  { w with provisioned := if id ∈ w.provisioned then w.provisioned else w.provisioned ++ [id] }

def hear (w : World) (stream : ModelStream) : World :=
  { w with streams := w.streams ++ [stream] }

/-- The effect and outcome of an operation for an answer of the environment. -/
def perform (agents : AgentId → Option Agent) (w : World) :
    (o : Op) → Answer → Option (World × Except Exn o.Res)
  | .uuid4, .done => some (w.draw.1, .ok w.draw.2)
  | .uuid4, _ => none
  | .addProvisioned id, .done => some (w.addProvisioned id, .ok ())
  | .addProvisioned _, _ => none
  | .provisionedIds, .done => some (w, .ok w.provisioned)
  | .provisionedIds, _ => none
  | .monotonic, .reads clock => some (w, .ok clock)
  | .monotonic, _ => none
  | _, .raises e => some (w, .error e)
  | .wake, .done => some (w, w.session.wake)
  | .getAgent id, .done =>
      some (w, match agents id with
        | some agent => .ok agent
        | none => .error (.notFoundError s!"agent {id} does not exist"))
  | .emitEvent id type payload, .done => some (w.emit id type payload)
  | .getEvents, .done => some w.read
  | .markComplete, .done =>
      some ({ w with session := w.session.markComplete.1 }, w.session.markComplete.2)
  | .complete .., .streams stream => some (w.hear stream, .ok stream)
  | .sandboxStatus _, .reports status => some (w, .ok status)
  | .sandboxProvision _, .provisions id => some (w, .ok id)
  | .sandboxExecute .., .results r => some (w, .ok r)
  | .sandboxDestroy _, .done => some (w, .ok ())
  | .proxyExecute .., .results r => some (w, .ok r)
  | _, _ => none

/-- The memory of a fresh process. -/
def boot (w : World) : World :=
  { w with provisioned := [], streams := [] }

/-- A step of another client. -/
def disturb (w : World) : ClientAction → Option World
  | .say content =>
      some (w.draw.1.emit w.draw.2 .userMessage [("content", .str content)]).1
  | .complete => some { w with session := w.session.markComplete.1 }

/-- A new session of an agent. -/
def create (sid : SessionId) (agentId : AgentId) : World :=
  ⟨.create sid agentId [], 0, [], ⟨[], []⟩, []⟩

end World

/-- A read with default arguments sees the first thousand events. -/
theorem World.read_eq (w : World) : w.read =
    ({ w with lastRead := ⟨w.session.events, w.session.events.take 1000⟩ },
      .ok (w.session.events.take 1000)) := by
  simp only [World.read, SessionState.page_eq]

/-- The runtime as a process on the session. -/
def runtimeProcess (rt : Runtime) (agents : AgentId → Option Agent) (sid : SessionId) :
    Process Op Op.Res Exn World Answer ClientAction where
  main := runSession rt sid
  boot w := w.boot
  perform := World.perform agents
  disturb := World.disturb

abbrev RunConfig := Process.Config Op Op.Res Exn World
abbrev RunAction := Process.Action Answer ClientAction

/-- All histories of a new session under one runtime. -/
def sessionSystem (rt : Runtime) (agents : AgentId → Option Agent) (sid : SessionId)
    (agentId : AgentId) : Transition.System RunConfig RunAction :=
  (runtimeProcess rt agents sid).system (· = .create sid agentId)

section Pending

/-- What a pending emission asks for, and what it does. -/
def emission? (c : RunConfig) : Option (EventId × EventType × World × Except Exn Event) :=
  match c.program with
  | some (.op (.emitEvent id type payload) _) => some (id, type, c.state.emit id type payload)
  | _ => none

/-- The messages of a pending request. -/
def requesting? (c : RunConfig) : Option (List Message) :=
  match c.program with
  | some (.op (.complete messages _) _) => some messages
  | _ => none

theorem emission?_eq_some {c : RunConfig} {id : EventId} {type : EventType} {w : World}
    {r : Except Exn Event} (h : emission? c = some (id, type, w, r)) :
    ∃ payload k, c.program = some (.op (.emitEvent id type payload) k) ∧
      c.state.emit id type payload = (w, r) := by
  unfold emission? at h
  split at h
  · rename_i payload k pending
    obtain ⟨rfl, rfl, emitted⟩ := by simpa using h
    exact ⟨payload, k, pending, emitted⟩
  · cases h

theorem requesting?_eq_some {c : RunConfig} {messages : List Message}
    (h : requesting? c = some messages) :
    ∃ tools k, c.program = some (.op (.complete messages tools) k) := by
  unfold requesting? at h
  split at h
  · rename_i pending
    cases h
    exact ⟨_, _, pending⟩
  · cases h

end Pending

section Steps

variable {rt : Runtime} {agents : AgentId → Option Agent} {sid : SessionId} {agentId : AgentId}
variable {w w' : World}

theorem sessionSystem_start (w : World) :
    (sessionSystem rt agents sid agentId).step ⟨w, none⟩ .start =
      some ⟨w.boot, some (runSession rt sid)⟩ := rfl

theorem sessionSystem_respond {o : Op} {r : Except Exn o.Res} (answer : Answer)
    (k : Except Exn o.Res → Harness Unit) (performed : w.perform agents o answer = some (w', r)) :
    (sessionSystem rt agents sid agentId).step ⟨w, some (.op o k)⟩ (.respond answer) =
      some ⟨w', some (k r)⟩ :=
  Process.step_respond k performed

theorem sessionSystem_disturb {a : ClientAction} (program : Option (Harness Unit))
    (disturbed : w.disturb a = some w') :
    (sessionSystem rt agents sid agentId).step ⟨w, program⟩ (.disturb a) = some ⟨w', program⟩ :=
  Process.step_disturb program disturbed

end Steps

end Tename
