import Mathlib.Data.List.Sort

/-!
# Sandbox types and the lifecycle table

The table says which states may follow which, and `assertTransition` is the check the
service makes against it. A state may always be followed by itself.
-/

namespace Tename

inductive SandboxStatus where
  | provisioning
  | ready
  | running
  | idle
  | destroyed
  | error
  deriving DecidableEq, Repr

/-- Return value from a single tool invocation. -/
structure ToolResult where
  isError : Bool
  content : String
  stdout : String
  stderr : String
  exitCode : Option Int
  error : Option String
  deriving DecidableEq

structure SandboxRecipe where
  runtime : String
  packages : List String
  files : List (String × String)
  env : List (String × String)
  cpuLimit : Nat
  memoryLimitMb : Nat
  timeoutSeconds : Nat
  networkPolicy : String

/-- Every field at its default. -/
def SandboxRecipe.default : SandboxRecipe :=
  ⟨"python:3.12-slim", [], [], [], 2, 4096, 600, "open"⟩

/-- The result says that the tool ran out of time: `"timeout" in result.error.lower()`. -/
def ToolResult.timedOut (r : ToolResult) : Bool :=
  r.isError && r.error.any fun e =>
    (e.toList.map Char.toLower).tails.any "timeout".toList.isPrefixOf

def SandboxStatus.value : SandboxStatus → String
  | .provisioning => "provisioning"
  | .ready => "ready"
  | .running => "running"
  | .idle => "idle"
  | .destroyed => "destroyed"
  | .error => "error"

/-- `ALLOWED_TRANSITIONS`. -/
def allowedTransitions : SandboxStatus → List SandboxStatus
  | .provisioning => [.ready, .error, .destroyed]
  | .ready => [.running, .destroyed, .error]
  | .running => [.idle, .error, .destroyed]
  | .idle => [.running, .destroyed, .error]
  | .error => [.destroyed]
  | .destroyed => []

/-- The printed list of the values, sorted. -/
def printStatuses (statuses : List SandboxStatus) : String :=
  let values := (statuses.map SandboxStatus.value).insertionSort (· ≤ ·)
  "[" ++ ", ".intercalate (values.map fun value => "'" ++ value ++ "'") ++ "]"

/-- `assert_transition`, and the text of its `InvalidTransitionError`. -/
def assertTransition (current next : SandboxStatus) (sandboxId : String) : Except String Unit :=
  if next = current then .ok ()
  else if next ∈ allowedTransitions current then .ok ()
  else
    let shown := if sandboxId = "" then "" else s!" {sandboxId}"
    let permitted := printStatuses (allowedTransitions current)
    .error (s!"sandbox{shown}: cannot transition {current.value} -> {next.value}; " ++
      s!"allowed: {permitted}")

/-- `_status_from_container`, for the state of a container that could be reloaded. -/
def statusFromContainer : Option String → SandboxStatus
  | none => .destroyed
  | some state =>
      if state = "running" then .idle
      else if state = "created" then .provisioning
      else if state ∈ ["exited", "dead", "removing"] then .destroyed
      else .error

theorem assertTransition_eq_ok {current next : SandboxStatus} {sandboxId : String} :
    assertTransition current next sandboxId = .ok () ↔
      next = current ∨ next ∈ allowedTransitions current := by
  unfold assertTransition
  split
  · exact iff_of_true rfl (.inl (by assumption))
  · rename_i other
    split
    · exact iff_of_true rfl (.inr (by assumption))
    · rename_i barred
      simp [other, barred]

/-- Every state may be followed by the terminal one. -/
theorem destroyed_follows (current : SandboxStatus) :
    SandboxStatus.destroyed = current ∨ .destroyed ∈ allowedTransitions current := by
  cases current <;> decide

end Tename
