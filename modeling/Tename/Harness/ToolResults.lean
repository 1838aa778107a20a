import Mathlib.Data.List.TakeWhile
import Tename.Harness.Grammar

/-!
# The results of tool calls

What comes of a call at the sandbox or the proxy, and the payload that reports it. The
runtime means to report every failure of a tool to the model. It builds the payload
from whatever the tool returns and appends it like any other event, so the report is
subject to what `emit_event` and the payload column take.
-/

namespace Tename

/-- What comes of a call. -/
inductive ToolOutcome where
  /-- Nothing runs the tool. -/
  | refused
  | unprovisioned (error : Exn)
  | failed (sandbox : String) (error : Exn)
  | executed (sandbox : String) (result : ToolResult)
  /-- The proxy itself raised. -/
  | unanswered (error : Exn)
  | proxied (result : ToolResult)

/-- The tool a call names. -/
def PendingEvent.toolName (call : PendingEvent) : String :=
  ((call.payload.get? "tool_name").bind Json.str?).getD ""

def PendingEvent.input (call : PendingEvent) : Payload :=
  match call.payload.getD "input" (.obj []) with
  | .obj fields => fields
  | _ => []

/-- An exception that `except Exception` catches is reported. -/
def caught (e : Exn) (payload : Payload) : Except Exn Payload :=
  if e.isException then .ok payload else .error e

/-- The payload that reports an outcome, or the exception that leaves the run. -/
def ToolOutcome.result (rt : Runtime) (call : PendingEvent) : ToolOutcome → Except Exn Payload
  | .refused => .ok (stubPayload rt call call.toolName)
  | .unprovisioned e =>
      caught e (errorPayload call call.toolName s!"sandbox provisioning failed: {e.message}")
  | .failed sandbox e =>
      caught e (errorPayload call call.toolName s!"sandbox execute failed: {e.message}" ++
        [("sandbox_id", .str sandbox)])
  | .executed sandbox r => .ok (sandboxResultPayload call call.toolName sandbox r)
  | .unanswered e => .error e
  | .proxied r => .ok [("tool_call_id", .uuid call.id), ("tool_name", .str call.toolName),
      ("is_error", .bool r.isError), ("content", .str r.content),
      ("error", (r.error.map Json.str).getD .null)]

section Asking

variable (rt : Runtime) (sid : SessionId) (agent : Agent)

/-- `toolPayload` up to its payload. -/
def toolOutcome (call : PendingEvent) : Harness ToolOutcome :=
  if call.toolName ∈ builtinToolNames ∧ rt.sandbox then do
    match ← (getOrProvisionSandbox rt sid agent).attempt with
    | .error e => pure (.unprovisioned e)
    | .ok sandbox =>
        match ← (Harness.sandboxExecute sandbox call.toolName call.input).attempt with
        | .error e => pure (.failed sandbox e)
        | .ok r => pure (.executed sandbox r)
  else if call.toolName ∈ rt.proxyToolNames ∧ rt.toolProxy then do
    match ← (Harness.proxyExecute call.toolName call.input).attempt with
    | .error e => pure (.unanswered e)
    | .ok r => pure (.proxied r)
  else pure .refused

theorem settle_caught (e : Exn) (payload : Payload) :
    (Program.settle (caught e payload) : Harness Payload) =
      if e.isException then .pure payload else .throw e := by
  unfold caught
  split <;> rfl

theorem toolPayload_eq (call : PendingEvent) : toolPayload rt sid agent call =
    (toolOutcome rt sid agent call).bind fun o => Program.settle (o.result rt call) := by
  change (if call.toolName ∈ builtinToolNames ∧ rt.sandbox then
      runSandboxTool rt sid agent call call.toolName call.input
    else if call.toolName ∈ rt.proxyToolNames ∧ rt.toolProxy then
      runProxyTool call call.toolName call.input
    else pure (stubPayload rt call call.toolName)) = _
  unfold toolOutcome
  split
  · unfold runSandboxTool
    simp only [Program.monad_bind_eq, Program.monad_pure_eq, Program.bind_assoc]
    refine congrArg _ (funext fun found => ?_)
    cases found with
    | error e => exact (settle_caught e _).symm
    | ok sandbox =>
        simp only [Program.bind_assoc]
        refine congrArg _ (funext fun executed => ?_)
        cases executed with
        | error e => exact (settle_caught e _).symm
        | ok r => rfl
  · split
    · unfold runProxyTool
      simp only [Program.monad_bind_eq, Program.monad_pure_eq, Program.bind_assoc]
      refine congrArg (Program.op _) (funext fun answered => ?_)
      cases answered <;> rfl
    · rfl

end Asking

section Met

/-- The append of a result. -/
def answersCall (x : Performed) : Bool :=
  match x.op with
  | .emitEvent _ .toolResult _ => true
  | _ => false

def executions (x : Performed) : Option (String × Except Exn ToolResult) :=
  match x with
  | ⟨.sandboxExecute sandbox _ _, _, r⟩ => some (sandbox, r)
  | _ => none

def proxied (x : Performed) : Option (Except Exn ToolResult) :=
  match x with
  | ⟨.proxyExecute _ _, _, r⟩ => some r
  | _ => none

variable (rt : Runtime) (agent : Agent)

/-- What is wrong with the agent's recipe. -/
def recipeError : Option Exn :=
  match rt.validateRecipe (agent.sandboxRecipe.getD []) with
  | .ok _ => none
  | .error e => some e

/-- The outcome of a call, from what was performed for it. -/
def outcomeOf (call : PendingEvent) (mine : List Performed) : ToolOutcome :=
  if call.toolName ∈ builtinToolNames ∧ rt.sandbox then
    match mine.findSome? executions with
    | some (sandbox, .ok r) => .executed sandbox r
    | some (sandbox, .error e) => .failed sandbox e
    | none =>
        match (mine.findSome? raised).or (recipeError rt agent) with
        | some e => .unprovisioned e
        | none => .refused
  else if call.toolName ∈ rt.proxyToolNames ∧ rt.toolProxy then
    match mine.findSome? proxied with
    | some (.ok r) => .proxied r
    | some (.error e) => .unanswered e
    | none => .refused
  else .refused

/-- The calls that were begun, with their outcomes: what is performed for a call ends in the
append of its result. -/
def met : List PendingEvent → List Performed → List (PendingEvent × ToolOutcome)
  | [], _ => []
  | call :: calls, h =>
      (call, outcomeOf rt agent call (h.takeWhile (!answersCall ·))) ::
        match h.dropWhile (!answersCall ·) with
        | [] => []
        | x :: rest => if (raised x).isSome then [] else met calls rest

variable {rt agent} {P : Process Op Op.Res Exn World Answer ClientAction}
variable {sid : SessionId} {w w' : World} {h : List Performed}

/-- The operations on the way to a sandbox. -/
def Op.provisions : Op → Bool
  | .getEvents | .sandboxStatus _ | .sandboxProvision _ | .addProvisioned _ => true
  | .emitEvent _ type _ => type ≠ .toolResult
  | _ => false

/-- A part without handlers: it returns if none of its operations raises, and raises what
the first of them does, or else `cause`. -/
def Trail (P : Process Op Op.Res Exn World Answer ClientAction) (cause : Option Exn) {α : Type}
    (p : Harness α) : Prop :=
  ∀ w h out w', P.Evaluates p w h out w' → (∀ x ∈ h, x.op.provisions = true) ∧
    match out with
    | .ok _ => h.findSome? raised = none
    | .error e => (h.findSome? raised).or cause = some e

section Trail

variable {cause : Option Exn} {α β : Type}

theorem Trail.pure (a : α) : Trail P cause (.pure a : Harness α) := by
  intro w h out w' ran
  obtain ⟨rfl, rfl, -⟩ := Process.evaluates_pure.mp ran
  exact ⟨by simp, rfl⟩

theorem Trail.settle {r : Except Exn α} (given : ∀ e, r = .error e → cause = some e) :
    Trail P cause (Program.settle r) := by
  intro w h out w' ran
  obtain ⟨rfl, rfl, -⟩ := Process.evaluates_settle.mp ran
  cases out with
  | ok a => exact ⟨by simp, rfl⟩
  | error e => exact ⟨by simp, given e rfl⟩

theorem Trail.perform {o : Op} (provisions : o.provisions = true) :
    Trail P cause (Program.perform o) := by
  intro w h out w' ran
  obtain ⟨w₁, answer, -, -, rfl⟩ := Process.evaluates_perform.mp ran
  refine ⟨by simpa using provisions, ?_⟩
  cases out <;> rfl

theorem Trail.bind {p : Harness β} {f : β → Harness α} (first : Trail P cause p)
    (second : ∀ b, Trail P cause (f b)) : Trail P cause (p.bind f) := by
  intro w h out w' ran
  rcases Process.evaluates_bind.mp ran with ⟨e, rfl, broke⟩ | ⟨b, h₁, h₂, w₁, rfl, ran₁, ran₂⟩
  · exact first w h _ w' broke
  · obtain ⟨ops₁, quiet⟩ := first w h₁ _ w₁ ran₁
    obtain ⟨ops₂, ends⟩ := second b w₁ h₂ out w' ran₂
    refine ⟨fun x mem => (List.mem_append.mp mem).elim (ops₁ x) (ops₂ x), ?_⟩
    have quiet : h₁.findSome? raised = none := quiet
    rw [List.findSome?_append, quiet, Option.none_or]
    exact ends

end Trail

section MetCons

variable {call : PendingEvent} {calls : List PendingEvent} {mine rest : List Performed}
variable {x : Performed}

end MetCons

end Met

section Working

variable {rt : Runtime} {agents : AgentId → Option Agent} {sid : SessionId} {agent : Agent}
variable {w w' : World} {h : List Performed}

section Called

/-- A session whose log ends in a call of `bash` and one of a tool nobody knows. -/
def World.called : World :=
  ((World.asked.draw.1.emit (.uuid4 1) .toolCall (toolCallPayload "t1" "bash" [])).1.draw.1.emit
    (.uuid4 2) .toolCall (toolCallPayload "t2" "teleport" [])).1

/-- What `bash_tool` returns for a command that prints to its standard output and succeeds. -/
def bashPrints (stdout : String) : ToolResult :=
  ⟨false, stdout, stdout, "", some 0, none⟩

end Called

end Working

end Tename
