import Tename.Sandbox.Service
import Tename.Sandbox.Tools

/-!
# The docker backend

A container is created and set up in one go, and tracked when that has succeeded. A tool
runs in a thread of its own, and the backend waits for it up to the recipe's timeout; when
the wait ends early, the tool has done some of its operations. Whether a wait ends with the
tool, by the timeout or by a cancellation is not the program's choice.
-/

namespace Tename

open Docker

/-- The two dictionaries of a `DockerBackend`: they have the same keys. -/
structure DockerBackend where
  containers : SandboxId → Option Container
  recipes : SandboxId → Option SandboxRecipe
  agree : ∀ id, (containers id).isSome = (recipes id).isSome

/-- How the wait for a tool ends. -/
inductive CallEnding where
  | finishes
  | exceeds (done : Nat)
  | cancelled (done : Nat)

variable (repr : String → String)

/-- The options of `client.containers.run`. -/
def runOptions (recipe : SandboxRecipe) : RunOptions :=
  let limit := recipe.memoryLimitMb
  { image := recipe.runtime
    -- Keeps the container alive between tool calls.
    command := ["tail", "-f", "/dev/null"]
    nanoCpus := recipe.cpuLimit * 1000000000
    memLimit := s!"{limit}m"
    pidsLimit := 512
    workingDir := "/workspace"
    environment := recipe.env
    labels := [("tename.sandbox", "1")]
    securityOpt := ["no-new-privileges:true"]
    networkMode := "bridge" }

/-- Pull an image that is not there. -/
def ensureImage (image : String) : Docker Unit := do
  match ← Docker.except (imagesGet image) with
  | .ok () => return ()
  | .error _ => imagesPull image

/-- There are packages, and a runtime to install them in. -/
def Installs (recipe : SandboxRecipe) : Prop :=
  recipe.packages ≠ [] ∧ "python:".toList <+: recipe.runtime.toList

instance (recipe : SandboxRecipe) : Decidable (Installs recipe) :=
  inferInstanceAs (Decidable (_ ∧ _))

/-- Install the packages, whatever `pip` makes of it. -/
def installPackages (c : Container) (recipe : SandboxRecipe) : Docker Unit :=
  if Installs recipe then do
    let _ ← runExec c (["pip", "install", "--no-cache-dir", "--quiet"] ++ recipe.packages)
    return ()
  else return ()

/-- What a new container is given before its first tool. -/
def setUp (c : Container) (recipe : SandboxRecipe) : Docker Unit := do
  let _ ← runExec c ["mkdir", "-p", "/workspace"]
  Program.forEach recipe.files fun (path, content) => putFile repr c path content
  installPackages c recipe

/-- The container of a recipe, with its image at hand. -/
def startContainer (recipe : SandboxRecipe) : Docker Container := do
  client
  ensureImage recipe.runtime
  containersRun (runOptions recipe)

/-- `_provision_sync`. -/
def provisionSync (recipe : SandboxRecipe) : Docker Container := do
  let container ← startContainer recipe
  setUp repr container recipe
  return container

/-- `_short_id`. -/
def shortId (fullId : Option String) : Except DockerExn SandboxId :=
  match fullId.filter (· ≠ "") with
  | none => .error (.other (.other "docker returned a container without an id"))
  | some full => .ok (.ofList (full.toList.take 12))

/-- `_safe_kill`. -/
def safeKill (c : Container) : Docker Unit := do
  let _ ← Docker.except (kill c)
  return ()

/-- The error of a tool that is not in the registry. -/
def unknownTool (name : String) : String :=
  s!"sandbox: unknown tool '{name}'"

/-- The error of a tool that took too long. -/
def exceededTimeout (name : String) (recipe : SandboxRecipe) : String :=
  let limit := recipe.timeoutSeconds
  s!"tool '{name}' exceeded {limit}s timeout"

namespace DockerBackend

variable (b : DockerBackend)

/-- The backend of a new process. -/
def empty : DockerBackend :=
  ⟨fun _ => none, fun _ => none, fun _ => rfl⟩

/-- Enter a container and its recipe into the dictionaries. -/
def track (id : SandboxId) (c : Container) (recipe : SandboxRecipe) : DockerBackend where
  containers := Function.update b.containers id (some c)
  recipes := Function.update b.recipes id (some recipe)
  agree id' := by
    by_cases here : id' = id
    · simp [here]
    · simpa [here] using b.agree id'

/-- `DockerBackend.provision`: the id, and the backend with it. The thread of a call that is
cancelled runs to its end, and its container is dropped. -/
def provision (recipe : SandboxRecipe) (cancelled : Bool) : Docker (SandboxId × DockerBackend) := do
  let outcome ← (provisionSync repr recipe).attempt
  if cancelled then Program.throw (.other .cancelledError)
  else do
    let container ← Program.settle outcome
    let id ← Program.settle (shortId container.id)
    return (id, b.track id container recipe)

/-- The kill, and the result that reports the timeout. -/
def timeOut (c : Container) (name : String) (recipe : SandboxRecipe) : Docker ToolResult := do
  safeKill c
  return failedResult (exceededTimeout name recipe)

/-- `await asyncio.wait_for(...)` and its handler, which also takes a `TimeoutError` that the
tool itself raises. -/
def await (c : Container) (name : String) (recipe : SandboxRecipe) (call : Docker ToolResult) :
    CallEnding → Docker ToolResult
  | .finishes => do
      match ← call.attempt with
      | .error (.timeout _) => timeOut c name recipe
      | outcome => Program.settle outcome
  | .exceeds done => do
      call.firstOps done
      timeOut c name recipe
  | .cancelled done => do
      call.firstOps done
      Program.throw (.other .cancelledError)

/-- `DockerBackend.execute`. -/
def execute (id : SandboxId) (name : String) (input : Payload) (ending : CallEnding) :
    Docker ToolResult :=
  match getTool name with
  | none => return failedResult (unknownTool name)
  | some tool =>
      match b.containers id, b.recipes id with
      | some c, some recipe => await c name recipe (tool.call repr c input) ending
      | _, _ => Program.throw (.other (.other s!"unknown sandbox_id '{id}'"))

/-- What the service sees of an outcome. -/
def answer : Except DockerExn ToolResult → BackendAnswer
  | .ok r => .results r
  | .error (.timeout m) => .raises (.timeoutError m)
  | .error (.other e) => .raises e

end DockerBackend

end Tename
