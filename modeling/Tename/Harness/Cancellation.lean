import Tename.Harness.Sandboxes
import Tename.Program.Escaping

/-!
# A run that is cancelled

The handlers of the loop take an `Exception` and let a `CancelledError` pass; the cleanup of
the sandboxes raises nothing else. So a `CancelledError` that an operation raises ends the run,
whichever operation it is.
-/

namespace Tename

variable {rt : Runtime} {agents : AgentId → Option Agent} {sid : SessionId}

/-- The runtime lets a `CancelledError` pass. -/
abbrev Cancellable (rt : Runtime) (agents : AgentId → Option Agent) (sid : SessionId) {α : Type}
    (p : Harness α) : Prop :=
  (runtimeProcess rt agents sid).Escapes .cancelledError p

theorem provisionSandbox_cancellable {agent : Agent} :
    Cancellable rt agents sid (provisionSandbox rt sid agent) := by
  unfold provisionSandbox
  refine .bind (.settle _) fun recipe => ?_
  refine .bind (.perform _) fun newId => ?_
  refine .bind (.perform _) fun _ => ?_
  exact .bind (.perform _) fun _ => .pure _

theorem getOrProvisionSandbox_cancellable {agent : Agent} :
    Cancellable rt agents sid (getOrProvisionSandbox rt sid agent) := by
  unfold getOrProvisionSandbox
  refine .bind (.perform _) fun events => ?_
  split
  · exact provisionSandbox_cancellable
  · refine .bind (.perform _) fun status => ?_
    split
    · exact .bind (.perform _) fun _ => .pure _
    · exact provisionSandbox_cancellable

theorem runSandboxTool_cancellable {agent : Agent} {call : PendingEvent} {toolName : String}
    {input : Payload} :
    Cancellable rt agents sid (runSandboxTool rt sid agent call toolName input) := by
  unfold runSandboxTool
  refine .handle getOrProvisionSandbox_cancellable rfl fun provisioned => ?_
  split
  · split
    · exact .pure _
    · exact .throw _
  · refine .handle (.perform _) rfl fun executed => ?_
    split
    · split
      · exact .pure _
      · exact .throw _
    · exact .pure _

theorem executeToolCalls_cancellable {agent : Agent} {calls : List PendingEvent} :
    Cancellable rt agents sid (executeToolCalls rt sid agent calls) := by
  refine .forEach (fun call => ?_) calls
  refine .bind ?_ fun payload => .bind (.perform _) fun _ => .pure _
  unfold toolPayload
  dsimp only
  split
  · exact runSandboxTool_cancellable
  · split
    · exact .bind (.perform _) fun _ => .pure _
    · exact .pure _

theorem streamChunks_cancellable {adapter : FrameworkAdapter} {failure : Option Exn}
    (chunks : List ModelChunk) (st : TurnState) :
    Cancellable rt agents sid (streamChunks adapter failure chunks st) := by
  induction chunks generalizing st with
  | nil =>
      cases failure with
      | none => exact .pure _
      | some e => exact .throw e
  | cons chunk chunks ih =>
      unfold streamChunks
      split
      · exact ih _
      · refine .bind (.perform _) fun id => ?_
        refine .bind (.perform _) fun _ => ?_
        split
        · exact ih _
        · split
          · exact .pure _
          · exact ih _

theorem runTurn_cancellable {adapter : FrameworkAdapter} {messages : List Message}
    {tools : List ToolDef} : Cancellable rt agents sid (runTurn adapter messages tools) := by
  unfold runTurn
  refine .bind (.perform _) fun stream => ?_
  refine .bind (streamChunks_cancellable _ _) fun st => ?_
  split
  · refine .bind (.perform _) fun id => ?_
    exact .bind (.perform _) fun _ => .pure _
  · exact .pure _

theorem readEvents_cancellable {profile : Profile} :
    Cancellable rt agents sid (readEvents sid profile) := by
  unfold readEvents
  refine .bind (.perform _) fun events => ?_
  split
  · refine .bind ?_ fun _ => .perform _
    unfold emitCompaction
    split
    · exact .pure _
    · exact .bind (.perform _) fun _ => .pure _
  · exact .pure _

theorem runTurns_cancellable {agent : Agent} {profile : Profile} {adapter : FrameworkAdapter}
    {startedAt : ℚ} (turns : Nat) :
    Cancellable rt agents sid (runTurns rt sid agent profile adapter startedAt turns) := by
  induction turns with
  | zero => exact .pure _
  | succ turns ih =>
      unfold runTurns
      refine .bind ?_ fun late => ?_
      · unfold overDuration
        split
        · exact .pure _
        · exact .bind (.perform _) fun _ => .pure _
      split
      · exact .pure _
      · refine .bind readEvents_cancellable fun events => ?_
        dsimp only
        split
        · exact .pure _
        · refine .bind runTurn_cancellable fun result => ?_
          split
          · exact .pure _
          · split
            · exact .pure _
            · exact .bind executeToolCalls_cancellable fun _ => ih

theorem destroySandboxes_cancellable : Cancellable rt agents sid (destroySandboxes rt) := by
  unfold destroySandboxes
  split
  · exact .pure _
  · refine .bind (.perform _) fun ids => .forEach (fun id => ?_) ids
    refine .handle (.perform _) rfl fun destroyed => ?_
    split
    · exact .pure _
    · split
      · exact .pure _
      · exact .throw _

/-- The cleanup raises only what `except Exception` lets pass. -/
theorem destroySandboxes_raisesOnly :
    (runtimeProcess rt agents sid).RaisesOnly .cancelledError (destroySandboxes rt) := by
  unfold destroySandboxes
  split
  · exact .pure _
  · refine .bind ?_ fun ids => .forEach (fun id => .bind (.attempt _) fun destroyed => ?_) ids
    · -- the process's own memory is read without an exception
      intro w h e w' ran
      obtain ⟨w₁, answer, -, performed, -⟩ := Process.evaluates_perform.mp ran
      cases answer <;> cases performed
    · split
      · exact .pure _
      · rename_i e
        by_cases caught : e.isException = true
        · rw [if_pos caught]
          exact .pure _
        · rw [if_neg caught]
          obtain rfl : e = .cancelledError := by
            rw [Exn.isException, bne_iff_ne, not_not] at caught
            exact caught
          exact .throw

/-- A `CancelledError` that an operation of a run raises leaves the run. -/
theorem runSession_cancellable : Cancellable rt agents sid (runSession rt sid) := by
  unfold runSession
  refine .bind (.perform _) fun session => ?_
  refine .bind (.perform _) fun agent => ?_
  refine .bind (.settle _) fun profile => ?_
  refine .bind (.settle _) fun adapter => ?_
  refine .bind ?_ fun _ => ?_
  · unfold seedSystemPromptIfNeeded
    split
    · exact .pure _
    · split
      · exact .pure _
      · exact .bind (.perform _) fun _ => .pure _
  refine .bind (.perform _) fun startedAt => ?_
  refine .bind ?_ fun _ => .bind (.perform _) fun _ => .pure _
  exact .tryFinally (runTurns_cancellable _) destroySandboxes_cancellable
    destroySandboxes_raisesOnly

theorem outcome_of_raised {x : Performed} {e : Exn} (raises : raised x = some e) :
    x.outcome = .error e := by
  unfold raised at raises
  split at raises
  · cases raises
  · rename_i e' failed
    obtain rfl := Option.some.inj raises
    exact failed

/-- A run that does not end in a `CancelledError` destroys each of its sandboxes once. -/
theorem destroyed_once_of_uncancelled {w w' : World} {h : List Performed} {out : Except Exn Unit}
    (ran : (runtimeProcess rt agents sid).Evaluates (runSession rt sid) w.boot h out w')
    (uncancelled : out ≠ .error .cancelledError) :
    ∀ id ∈ acquired h, (destroyed h).count id = 1 := by
  refine destroyed_once ran fun x mem raises => uncancelled ?_
  exact runSession_cancellable _ _ _ _ ran ⟨x, mem, outcome_of_raised raises⟩

end Tename
