import Tename.Harness.Cancellation
import Tename.Sdk.Failing

/-!
# Closing the iterator of a call

`send` returns an asynchronous iterator. The consumer asks it for one event after the other, and
may close it at any event: the `finally` of `send` then cancels the task of the runtime, if it
is still running, awaits its end and asks for its exception. A task that has been cancelled has
none to give: asking for it raises the `CancelledError` itself.

A page of the log is read at once and handed out event by event, so the iterator is a call, as it
was before, with the rest of the page that it is at.
-/

namespace Tename

/-- Where the iterator stands. -/
inductive IteratorPhase where
  /-- Nothing has been asked of it. -/
  | created
  /-- An event has been asked for. -/
  | running
  /-- At a `yield`, with the events of the page that come after it. -/
  | suspended (rest : List Event)
  /-- The call has returned or raised. -/
  | ended
  /-- Closed, and awaiting the task that it has cancelled. -/
  | awaiting
  /-- Closed, before the call had ended or after it, with what closing has raised. -/
  | closed (early : Bool) (raised : Option Exn)

structure IteratorState where
  call : SendState
  phase : IteratorPhase
  /-- `harness_task.cancel()` has been called. -/
  cancelRequested : Bool
  /-- The operations of the task. -/
  performed : List Performed
  /-- The call when it was closed. -/
  atClose : Option SendState

inductive IteratorAction where
  /-- The consumer asks for an event. -/
  | next
  /-- The consumer closes the iterator. -/
  | close
  /-- The iterator takes its next step. -/
  | proceed
  /-- The runtime is answered. -/
  | harness (answer : Answer)

/-- `task.exception()` of a task that is done. -/
def taskException : Except Exn Unit → Except Exn (Option Exn)
  | .ok () => .ok none
  | .error .cancelledError => .error .cancelledError
  | .error e => .ok (some e)

/-- What the end of the `finally` raises, once the task is done. -/
def surface (result : Except Exn Unit) : Option Exn :=
  match taskException result with
  | .error e => some e
  | .ok none => none
  | .ok (some e) => some e

namespace IteratorState

/-- `finally`, from its start. -/
def cleanUp (s : IteratorState) : IteratorState :=
  match s.call.taskResult with
  | none => { s with phase := .awaiting, cancelRequested := true }
  | some result => { s with phase := .closed true (surface result) }

/-- The iterator goes on with a page that the call has read. -/
def handOut (s : IteratorState) (call : SendState) : IteratorState :=
  match call.yielded.drop s.call.yielded.length with
  | [] => { s with call := call }
  | _ :: rest => { s with call := call, phase := .suspended rest }

/-- One step of the iterator, of its consumer or of the runtime. -/
def step (rt : Runtime) (agents : AgentId → Option Agent) (sid : SessionId) (content : String)
    (s : IteratorState) : IteratorAction → Option IteratorState
  | .next =>
      match s.phase with
      | .created => some { s with phase := .running }
      | .suspended [] => some { s with phase := .running }
      | .suspended (_ :: rest) => some { s with phase := .suspended rest }
      | _ => none
  | .close =>
      match s.phase with
      | .created => some { s with phase := .closed true none, atClose := some s.call }
      | .suspended _ => some { s.cleanUp with atClose := some s.call }
      | .ended => some { s with phase := .closed false none, atClose := some s.call }
      | _ => none
  | .proceed =>
      match s.phase with
      | .running =>
          match s.call.phase with
          | .returned | .raised _ => some { s with phase := .ended }
          | _ => (s.call.proceed rt sid content).map s.handOut
      | .awaiting =>
          s.call.taskResult.map fun result => { s with phase := .closed true (surface result) }
      | _ => none
  | .harness answer =>
      match s.call.run.program with
      | some (.op o k) => (s.call.run.state.perform agents o answer).map fun (w, r) =>
          { s with
            call := { s.call with run := ⟨w, some (k r)⟩ }
            performed := s.performed ++ [⟨o, answer, r⟩] }
      | _ => none

end IteratorState

/-- The runs of one iterator, on a session with any history. -/
def iteratorSystem (rt : Runtime) (agents : AgentId → Option Agent) (sid : SessionId)
    (agentId : AgentId) (content : String) :
    Transition.System IteratorState IteratorAction where
  initial s := (sendSystem rt agents sid agentId content).initial s.call ∧ s.phase = .created ∧
    s.cancelRequested = false ∧ s.performed = [] ∧ s.atClose = none
  step := IteratorState.step rt agents sid content

namespace SendState

variable {rt : Runtime} {agents : AgentId → Option Agent} {sid : SessionId} {agentId : AgentId}
variable {content : String} {s s' : SendState}

/-- The task has been started, and has come to its end, by the point where the call stands. -/
def Settled (s : SendState) : Prop :=
  match s.phase with
  | .opening | .speaking _ | .launching _ => s.run.program = none
  | .polling _ | .checking _ | .waiting _ => s.run.program ≠ none
  | .draining _ | .returned => s.taskResult ≠ none
  | .raised _ => s.run.program = none ∨ s.taskResult ≠ none

theorem started_of_result {r : Except Exn Unit} (done : s.taskResult = some r) :
    s.run.program ≠ none := by
  intro idle
  rw [taskResult, idle] at done
  cases done

theorem Settled.proceed (settled : s.Settled) (stepped : s.proceed rt sid content = some s') :
    s'.Settled := by
  cases proceeds stepped with
  | opens phase =>
      simp only [Settled, phase] at settled
      exact settled
  | speaks => rfl
  | refused => exact .inl rfl
  | launches => exact Option.some_ne_none _
  | reads phase =>
      simp only [Settled, phase] at settled
      exact settled
  | finds phase done =>
      intro unfinished
      exact Option.some_ne_none _ (done.symm.trans unfinished)
  | sleeps phase unfinished =>
      simp only [Settled, phase] at settled
      exact settled
  | fails phase failed =>
      refine .inr fun unfinished => ?_
      exact Option.some_ne_none _ (failed.symm.trans unfinished)
  | wakes phase =>
      simp only [Settled, phase] at settled
      exact settled
  | drains phase =>
      simp only [Settled, phase] at settled
      cases result : s.taskResult with
      | none => exact absurd result settled
      | some r =>
          cases r with
          | ok done => exact settled
          | error e => exact .inr settled

/-- A task that is over does not move, and one that moves has been started. -/
theorem Settled.harness {c : RunConfig} (settled : s.Settled) (started : s.run.program ≠ none)
    (unfinished : s.taskResult = none) (going : c.program ≠ none) :
    Settled { s with run := c } := by
  obtain ⟨run, phase, yielded, before⟩ := s
  cases phase with
  | opening => exact absurd settled started
  | speaking n => exact absurd settled started
  | launching n => exact absurd settled started
  | polling n => exact going
  | checking n => exact going
  | waiting n => exact going
  | draining n => exact absurd unfinished settled
  | returned => exact absurd unfinished settled
  | raised e =>
      rcases settled with idle | done
      · exact absurd idle started
      · exact absurd unfinished done

theorem answered_of_pending {o : Op} {k : Except Exn o.Res → Harness Unit} {answer : Answer}
    {w : World} {r : Except Exn o.Res} (going : s.run.program = some (.op o k))
    (performed : s.run.state.perform agents o answer = some (w, r)) :
    (sendSystem rt agents sid agentId content).step s (.harness answer) =
      some { s with run := ⟨w, some (k r)⟩ } := by
  obtain ⟨⟨w₀, program⟩, phase, yielded, before⟩ := s
  obtain rfl : program = some (.op o k) := going
  exact sendSystem_harness answer k performed

/-- What a step of the call does to the task: nothing, or it starts it. -/
theorem run_of_proceed (settled : s.Settled) (stepped : s.proceed rt sid content = some s') :
    s'.run = s.run ∨ s.run.program = none ∧ (s'.run.program = none ∨
      s'.run = ⟨s.run.state.boot, some (runSession rt sid)⟩) := by
  cases proceeds stepped with
  | speaks phase =>
      simp only [Settled, phase] at settled
      exact .inr ⟨settled, .inl rfl⟩
  | refused phase =>
      simp only [Settled, phase] at settled
      exact .inr ⟨settled, .inl rfl⟩
  | launches phase =>
      simp only [Settled, phase] at settled
      exact .inr ⟨settled, .inr rfl⟩
  | _ => exact .inl rfl

/-- Events are read while the task is there. -/
theorem started_of_yield (settled : s.Settled) (stepped : s.proceed rt sid content = some s')
    (more : s'.yielded ≠ s.yielded) : s'.run.program ≠ none := by
  cases proceeds stepped with
  | reads phase =>
      simp only [Settled, phase] at settled
      exact settled
  | drains phase =>
      simp only [Settled, phase] at settled
      obtain ⟨r, done⟩ := Option.ne_none_iff_exists'.mp settled
      exact started_of_result done
  | _ => exact absurd rfl more

end SendState

namespace IteratorState

variable {rt : Runtime} {agents : AgentId → Option Agent} {sid : SessionId} {agentId : AgentId}
variable {content : String} {s s' : IteratorState}

/-- The operations of the task, from its start: it has not been started, or is a run of the
runtime that has come this far, with nobody else at work. -/
def Recorded (rt : Runtime) (agents : AgentId → Option Agent) (sid : SessionId)
    (run : RunConfig) (performed : List Performed) : Prop :=
  (run.program = none ∧ performed = []) ∨ ∃ w p, run.program = some p ∧
    (runtimeProcess rt agents sid).calm.Underway (runSession rt sid) (World.boot w) performed p
      run.state

/-- What is known of an iterator that has been closed with a call in this state. -/
structure Closed (s : IteratorState) (call : SendState) : Prop where
  atClose : s.atClose = some call
  log : call.run.state.session.events <+: s.call.run.state.session.events
  cancelled : call.run.program ≠ none → call.taskResult = none → s.cancelRequested = true

/-- The task at each point of the iterator. -/
def TaskAt (s : IteratorState) : Prop :=
  match s.phase with
  | .created => s.call.run.program = none
  | .running => True
  | .suspended _ => s.call.run.program ≠ none
  | .ended => s.call.run.program ≠ none → s.call.taskResult ≠ none
  | .awaiting => s.call.run.program ≠ none ∧ ∃ call, s.Closed call
  | .closed early raised => (∃ call, s.Closed call) ∧
      ((s.call.run.program = none ∧ raised = none) ∨ ∃ result, s.call.taskResult = some result ∧
        raised = if early then surface result else none)

/-- The call of an iterator is a call as before. -/
structure Invariant (rt : Runtime) (agents : AgentId → Option Agent) (sid : SessionId)
    (agentId : AgentId) (content : String) (s : IteratorState) : Prop where
  reachable : (sendSystem rt agents sid agentId content).Reachable s.call
  settled : s.call.Settled
  recorded : Recorded rt agents sid s.call.run s.performed
  task : s.TaskAt

theorem Recorded.proceed {call call' : SendState} {performed : List Performed}
    (recorded : Recorded rt agents sid call.run performed) (settled : call.Settled)
    (stepped : call.proceed rt sid content = some call') :
    Recorded rt agents sid call'.run performed := by
  rcases SendState.run_of_proceed settled stepped with same | ⟨idle, started⟩
  · rw [same]
    exact recorded
  · have nothing : performed = [] := by
      rcases recorded with ⟨-, nothing⟩ | ⟨w, p, going, -⟩
      · exact nothing
      · rw [idle] at going
        cases going
    rcases started with idle' | started
    · exact .inl ⟨idle', nothing⟩
    · rw [started, nothing]
      exact .inr ⟨call.run.state, runSession rt sid, rfl, .refl _ _⟩

theorem Invariant.proceed {call : SendState}
    (known : Invariant rt agents sid agentId content s) (running : s.phase = .running)
    (stepped : s.call.proceed rt sid content = some call) :
    Invariant rt agents sid agentId content (s.handOut call) := by
  have reachable : (sendSystem rt agents sid agentId content).Reachable call :=
    known.reachable.step (a := .proceed) trivial stepped
  have settled := known.settled.proceed stepped
  have recorded := known.recorded.proceed known.settled stepped
  rw [handOut]
  split
  · refine ⟨reachable, settled, recorded, ?_⟩
    simp only [TaskAt, running]
  · rename_i e rest page
    refine ⟨reachable, settled, recorded, ?_⟩
    refine SendState.started_of_yield known.settled stepped fun same => ?_
    rw [same, List.drop_length] at page
    cases page

/-- What an answer to the runtime does. -/
theorem harness_cases {answer : Answer}
    (stepped : s.step rt agents sid content (.harness answer) = some s') :
    ∃ o k w r, s.call.run.program = some (.op o k) ∧
      s.call.run.state.perform agents o answer = some (w, r) ∧ s' = { s with
        call := { s.call with run := ⟨w, some (k r)⟩ }
        performed := s.performed ++ [⟨o, answer, r⟩] } := by
  simp only [step] at stepped
  split at stepped
  · rename_i o k going
    obtain ⟨⟨w, r⟩, performed, rfl⟩ := Option.map_eq_some_iff.mp stepped
    exact ⟨o, k, w, r, going, performed, rfl⟩
  · cases stepped

theorem Invariant.harness {answer : Answer} (known : Invariant rt agents sid agentId content s)
    (stepped : s.step rt agents sid content (.harness answer) = some s') :
    Invariant rt agents sid agentId content s' := by
  obtain ⟨o, k, w, r, going, performed, rfl⟩ := harness_cases stepped
  have started : s.call.run.program ≠ none := by
    rw [going]
    exact Option.some_ne_none _
  have unfinished : s.call.taskResult = none := by
    rw [SendState.taskResult, going]
  have grows : s.call.run.state.session.events <+: w.session.events :=
    World.perform_grows performed
  refine ⟨?_, ?_, ?_, ?_⟩
  · exact known.reachable.step trivial (SendState.answered_of_pending going performed)
  · exact known.settled.harness started unfinished (Option.some_ne_none _)
  · rcases known.recorded with ⟨idle, -⟩ | ⟨w₀, p, going', far⟩
    · exact absurd idle started
    · rw [going] at going'
      cases going'
      exact .inr ⟨w₀, k r, rfl, far.respond performed⟩
  · have task := known.task
    obtain ⟨call, phase, cancelRequested, h, atClose⟩ := s
    cases phase with
    | created => exact absurd task started
    | running => trivial
    | suspended rest => exact Option.some_ne_none _
    | ended => exact absurd unfinished (task started)
    | awaiting =>
        obtain ⟨-, call', closed⟩ := task
        exact ⟨Option.some_ne_none _, call', closed.atClose, closed.log.trans grows,
          closed.cancelled⟩
    | closed early raised =>
        obtain ⟨-, ⟨idle, -⟩ | ⟨result, done, -⟩⟩ := task
        · exact absurd idle started
        · exact absurd (done.symm.trans unfinished) (Option.some_ne_none _)

/-- The iterator as it is when its consumer closes it at an event. -/
theorem taskAt_cleanUp (started : s.call.run.program ≠ none) :
    TaskAt { s.cleanUp with atClose := some s.call } := by
  rw [cleanUp]
  split
  · exact ⟨started, s.call, rfl, List.prefix_rfl, fun _ _ => rfl⟩
  · rename_i result done
    refine ⟨⟨s.call, rfl, List.prefix_rfl, fun _ unfinished => ?_⟩, .inr ⟨result, done, rfl⟩⟩
    exact absurd (done.symm.trans unfinished) (Option.some_ne_none _)

theorem Invariant.close (known : Invariant rt agents sid agentId content s)
    (stepped : s.step rt agents sid content .close = some s') :
    Invariant rt agents sid agentId content s' := by
  have task := known.task
  cases phase : s.phase with
  | created =>
      simp only [step, phase, Option.some.injEq] at stepped
      simp only [TaskAt, phase] at task
      subst stepped
      refine ⟨known.reachable, known.settled, known.recorded, ?_, .inl ⟨task, rfl⟩⟩
      exact ⟨s.call, rfl, List.prefix_rfl, fun started => absurd task started⟩
  | suspended rest =>
      simp only [step, phase, Option.some.injEq] at stepped
      simp only [TaskAt, phase] at task
      have same : s.cleanUp.call = s.call ∧ s.cleanUp.performed = s.performed := by
        rw [cleanUp]
        split <;> exact ⟨rfl, rfl⟩
      subst stepped
      refine ⟨?_, ?_, ?_, taskAt_cleanUp task⟩
      · rw [same.1]
        exact known.reachable
      · rw [same.1]
        exact known.settled
      · rw [same.1, same.2]
        exact known.recorded
  | ended =>
      simp only [step, phase, Option.some.injEq] at stepped
      simp only [TaskAt, phase] at task
      subst stepped
      refine ⟨known.reachable, known.settled, known.recorded, ?_, ?_⟩
      · exact ⟨s.call, rfl, List.prefix_rfl, fun started unfinished =>
          absurd unfinished (task started)⟩
      · by_cases idle : s.call.run.program = none
        · exact .inl ⟨idle, rfl⟩
        · obtain ⟨result, done⟩ := Option.ne_none_iff_exists'.mp (task idle)
          exact .inr ⟨result, done, rfl⟩
  | running =>
      simp only [step, phase] at stepped
      cases stepped
  | awaiting =>
      simp only [step, phase] at stepped
      cases stepped
  | closed early raised =>
      simp only [step, phase] at stepped
      cases stepped

theorem Invariant.next (known : Invariant rt agents sid agentId content s)
    (stepped : s.step rt agents sid content .next = some s') :
    Invariant rt agents sid agentId content s' := by
  have task := known.task
  simp only [step] at stepped
  split at stepped
  · cases stepped
    exact ⟨known.reachable, known.settled, known.recorded, trivial⟩
  · cases stepped
    exact ⟨known.reachable, known.settled, known.recorded, trivial⟩
  · rename_i e rest phase
    simp only [TaskAt, phase] at task
    cases stepped
    exact ⟨known.reachable, known.settled, known.recorded, task⟩
  · cases stepped

theorem Invariant.goOn (known : Invariant rt agents sid agentId content s)
    (stepped : s.step rt agents sid content .proceed = some s') :
    Invariant rt agents sid agentId content s' := by
  have task := known.task
  have settled := known.settled
  cases phase : s.phase with
  | running =>
      simp only [step, phase] at stepped
      split at stepped
      · rename_i returned
        cases stepped
        simp only [SendState.Settled, returned] at settled
        exact ⟨known.reachable, known.settled, known.recorded, fun _ => settled⟩
      · rename_i e raised
        cases stepped
        simp only [SendState.Settled, raised] at settled
        exact ⟨known.reachable, known.settled, known.recorded, fun started =>
          settled.resolve_left started⟩
      · obtain ⟨call, proceeded, rfl⟩ := Option.map_eq_some_iff.mp stepped
        exact known.proceed phase proceeded
  | awaiting =>
      simp only [step, phase] at stepped
      simp only [TaskAt, phase] at task
      obtain ⟨result, done, rfl⟩ := Option.map_eq_some_iff.mp stepped
      obtain ⟨-, call, closed⟩ := task
      refine ⟨known.reachable, known.settled, known.recorded, ?_, .inr ⟨result, done, rfl⟩⟩
      exact ⟨call, closed.atClose, closed.log, closed.cancelled⟩
  | _ =>
      simp only [step, phase] at stepped
      cases stepped

/-- The invariant holds throughout every iteration. -/
theorem invariant_of_reachable
    (reachable : (iteratorSystem rt agents sid agentId content).Reachable s) :
    Invariant rt agents sid agentId content s := by
  refine reachable.invariant ?_ ?_
  · rintro s ⟨initial, created, -, nothing, -⟩
    have start := initial
    obtain ⟨-, idle, opening, -⟩ := start
    refine ⟨.of_initial initial, ?_, .inl ⟨idle, nothing⟩, ?_⟩
    · simp only [SendState.Settled, opening, idle]
    · simp only [TaskAt, created, idle]
  · rintro s a s' known - stepped
    cases a with
    | next => exact known.next stepped
    | close => exact known.close stepped
    | proceed => exact known.goOn stepped
    | harness answer => exact known.harness stepped

/-- Every operation of the task can be answered. -/
theorem answerable (agents : AgentId → Option Agent) (w : World) (o : Op) :
    ∃ answer w' r, w.perform agents o answer = some (w', r) := by
  cases o with
  | uuid4 => exact ⟨.done, _, _, rfl⟩
  | addProvisioned id => exact ⟨.done, _, _, rfl⟩
  | provisionedIds => exact ⟨.done, _, _, rfl⟩
  | monotonic => exact ⟨.reads 0, _, _, rfl⟩
  | _ => exact ⟨.raises .cancelledError, _, _, rfl⟩

theorem closed_of_done {result : Except Exn Unit} (awaiting : s.phase = .awaiting)
    (done : s.call.taskResult = some result) :
    (iteratorSystem rt agents sid agentId content).step s .proceed =
      some { s with phase := .closed true (surface result) } := by
  change s.step rt agents sid content .proceed = _
  simp only [step, awaiting, done]
  rfl

/-- A task that has been cancelled is awaited, and comes to its end: closing is never stuck. -/
theorem closing_ends {p : Harness Unit} (awaiting : s.phase = .awaiting)
    (going : s.call.run.program = some p) : (iteratorSystem rt agents sid agentId content).Leads
      (fun s => ∃ raised, s.phase = .closed true raised) s := by
  induction p generalizing s with
  | pure u =>
      have done : s.call.taskResult = some (.ok ()) := by
        rw [SendState.taskResult, going]
      exact .step (closed_of_done awaiting done) (.here ⟨_, rfl⟩)
  | throw e =>
      have done : s.call.taskResult = some (.error e) := by
        rw [SendState.taskResult, going]
      exact .step (closed_of_done awaiting done) (.here ⟨_, rfl⟩)
  | op o k ih =>
      obtain ⟨answer, w, r, performed⟩ := answerable agents s.call.run.state o
      have answered : (iteratorSystem rt agents sid agentId content).step s (.harness answer) =
          some { s with
            call := { s.call with run := ⟨w, some (k r)⟩ }
            performed := s.performed ++ [⟨o, answer, r⟩] } := by
        change s.step rt agents sid content (.harness answer) = _
        simp only [step, going, performed]
        rfl
      exact .step answered (ih r awaiting rfl)

/-- What closing is to come to. -/
structure ClosesCleanly (rt : Runtime) (agents : AgentId → Option Agent) (sid : SessionId)
    (s : IteratorState) (raised : Option Exn) : Prop where
  /-- A task that is running when the iterator is closed is cancelled, -/
  cancelled : ∀ call, s.atClose = some call → call.run.program ≠ none → call.taskResult = none →
    s.cancelRequested = true
  /-- and awaited to its end. -/
  awaited : s.call.run.program ≠ none → s.call.taskResult ≠ none
  /-- Each sandbox of the task is destroyed once. -/
  sandboxes : ∀ id ∈ acquired s.performed, (destroyed s.performed).count id = 1
  /-- The log is kept, -/
  log : ∀ call, s.atClose = some call →
    call.run.state.session.events <+: s.call.run.state.session.events
  /-- and the session is what the operations of the task have made of it. -/
  session : ∀ result, s.call.taskResult = some result → ∃ w : World,
    (runtimeProcess rt agents sid).calm.Evaluates (runSession rt sid) w.boot s.performed result
      s.call.run.state
  /-- Nothing is raised but an exception of the task's own. -/
  own : ∀ e, raised = some e → s.call.taskResult = some (.error e) ∧ e ≠ .cancelledError

theorem surface_eq_some {result : Except Exn Unit} {e : Exn} (raises : surface result = some e) :
    result = .error e := by
  cases result with
  | ok done => cases raises
  | error e' =>
      cases e' <;> exact congrArg Except.error (Option.some.inj raises)

/-- A task that is over has been a run of the runtime. -/
theorem Recorded.evaluates {performed : List Performed} {call : SendState}
    {result : Except Exn Unit} (recorded : Recorded rt agents sid call.run performed)
    (done : call.taskResult = some result) : ∃ w : World,
      (runtimeProcess rt agents sid).calm.Evaluates (runSession rt sid) w.boot performed result
        call.run.state := by
  rcases recorded with ⟨idle, -⟩ | ⟨w, p, going, far⟩
  · exact absurd idle (SendState.started_of_result done)
  · refine ⟨w, ?_⟩
    rw [← List.append_nil performed]
    refine far _ _ _ ?_
    rw [SendState.taskResult, going] at done
    cases p with
    | pure u =>
        cases done
        exact .pure _ _
    | throw e =>
        cases done
        exact .throw _ _
    | op o k => cases done

/-- A task that does not end in a `CancelledError` leaves no sandbox. -/
theorem Recorded.sandboxes_gone {performed : List Performed} {call : SendState}
    (recorded : Recorded rt agents sid call.run performed)
    (ended : call.run.program = none ∨ ∃ result, call.taskResult = some result)
    (uncancelled : call.taskResult ≠ some (.error .cancelledError)) :
    ∀ id ∈ acquired performed, (destroyed performed).count id = 1 := by
  rcases ended with idle | ⟨result, done⟩
  · rcases recorded with ⟨-, nothing⟩ | ⟨w, p, going, -⟩
    · intro id mem
      rw [nothing] at mem
      cases mem
    · rw [idle] at going
      cases going
  · obtain ⟨w, ran⟩ := recorded.evaluates done
    refine destroyed_once_of_uncancelled ran.of_calm ?_
    rintro rfl
    exact uncancelled done

/-- What is known once the iterator has been closed. -/
theorem TaskAt.of_closed {early : Bool} {raised : Option Exn} (task : s.TaskAt)
    (closed : s.phase = .closed early raised) : (∃ call, s.Closed call) ∧
      ((s.call.run.program = none ∧ raised = none) ∨ ∃ result, s.call.taskResult = some result ∧
        raised = if early then surface result else none) := by
  rw [TaskAt, closed] at task
  exact task

theorem closesCleanly_of_uncancelled {early : Bool} {raised : Option Exn}
    (known : Invariant rt agents sid agentId content s) (closed : s.phase = .closed early raised)
    (uncancelled : s.call.taskResult ≠ some (.error .cancelledError)) :
    ClosesCleanly rt agents sid s raised := by
  obtain ⟨⟨call, kept⟩, ending⟩ := known.task.of_closed closed
  have unique : ∀ call', s.atClose = some call' → call = call' := fun call' at' =>
    Option.some.inj (kept.atClose.symm.trans at')
  refine ⟨?_, ?_, ?_, ?_, ?_, ?_⟩
  · intro call' at' started unfinished
    obtain rfl := unique call' at'
    exact kept.cancelled started unfinished
  · intro started unfinished
    rcases ending with ⟨idle, -⟩ | ⟨result, done, -⟩
    · exact started idle
    · exact Option.some_ne_none _ (done.symm.trans unfinished)
  · apply known.recorded.sandboxes_gone _ uncancelled
    rcases ending with ⟨idle, -⟩ | ⟨result, done, -⟩
    · exact .inl idle
    · exact .inr ⟨result, done⟩
  · intro call' at'
    obtain rfl := unique call' at'
    exact kept.log
  · intro result done
    exact known.recorded.evaluates done
  · intro e same
    rcases ending with ⟨-, none⟩ | ⟨result, done, raises⟩
    · rw [none] at same
      cases same
    · cases early with
      | false =>
          rw [raises] at same
          cases same
      | true =>
          obtain rfl := surface_eq_some (raises.symm.trans same)
          refine ⟨done, ?_⟩
          rintro rfl
          exact uncancelled done

/-- A task that ends in a `CancelledError` raises it, whatever the handlers suppress. -/
theorem uncancelled_of_closesCleanly {raised : Option Exn}
    (known : Invariant rt agents sid agentId content s) (closed : s.phase = .closed true raised)
    (clean : ClosesCleanly rt agents sid s raised) :
    s.call.taskResult ≠ some (.error .cancelledError) := by
  intro cancelled
  obtain ⟨-, ⟨idle, -⟩ | ⟨result, done, raises⟩⟩ := known.task.of_closed closed
  · exact SendState.started_of_result cancelled idle
  · obtain rfl := Option.some.inj (done.symm.trans cancelled)
    exact (clean.own _ raises).2 rfl

/-- The iterator closes as it should exactly if the task of the runtime does not end in a
`CancelledError`: it was over when the iterator was closed, or what it awaited ignored the
cancellation. -/
theorem closes_cleanly_iff {early : Bool} {raised : Option Exn}
    (reachable : (iteratorSystem rt agents sid agentId content).Reachable s)
    (closed : s.phase = .closed early raised) :
    (s.call.taskResult ≠ some (.error .cancelledError) → ClosesCleanly rt agents sid s raised) ∧
    (early = true → ClosesCleanly rt agents sid s raised →
      s.call.taskResult ≠ some (.error .cancelledError)) := by
  have known := invariant_of_reachable reachable
  constructor
  · exact closesCleanly_of_uncancelled known closed
  · rintro rfl
    exact uncancelled_of_closesCleanly known closed

end IteratorState

section ClosedEarly

open IteratorState

/-- The iterator of a call on a new session. -/
abbrev freshIterator : Transition.System IteratorState IteratorAction :=
  iteratorSystem (.bare .roomy) (fun _ => some (.plain (some "Be brief."))) "s" "agent" "hello"

def IteratorState.fresh : IteratorState := ⟨.fresh, .created, false, [], none⟩

theorem freshIterator_initial : freshIterator.initial .fresh :=
  ⟨fresh_initial, rfl, rfl, rfl, rfl⟩

/-- Up to the first event, which is the user's message. -/
def untilFirstEvent : List IteratorAction :=
  [.next, .proceed, .proceed, .proceed, .proceed]

/-- The consumer closes the iterator at its first event, while the runtime waits for its first
answer. The task is cancelled, and closing raises the `CancelledError`. -/
theorem closing_raises_cancelled : ∃ s : IteratorState, freshIterator.Reachable s ∧
    s.phase = .closed true (some .cancelledError) ∧
    s.call.taskResult = some (.error .cancelledError) ∧
    ¬ ClosesCleanly (.bare .roomy) (fun _ => some (.plain (some "Be brief."))) "s" s
      (some .cancelledError) := by
  obtain ⟨s, ran, facts⟩ := Option.map_eq_some_iff.mp (show
    (freshIterator.run .fresh (untilFirstEvent ++
      [.close, .harness (.raises .cancelledError), .proceed])).map (fun s =>
        (s.phase, s.call.taskResult)) =
      some (.closed true (some .cancelledError), some (.error .cancelledError)) from rfl)
  obtain ⟨closed, cancelled⟩ := by simpa only [Prod.mk.injEq] using facts
  refine ⟨s, ⟨_, freshIterator_initial, Transition.System.later_of_run ran⟩, closed, cancelled, ?_⟩
  intro clean
  exact (clean.own _ rfl).2 rfl

/-- The consumer closes the iterator at its first event, after the runtime has failed: closing
raises the runtime's own exception. -/
theorem closes_cleanly_iff_failed : ∃ s : IteratorState,
    s.phase = .closed true (some (.other "connection lost")) ∧
    ClosesCleanly (.bare .roomy) (fun _ => some (.plain (some "Be brief."))) "s" s
      (some (.other "connection lost")) := by
  obtain ⟨s, ran, facts⟩ := Option.map_eq_some_iff.mp (show
    (freshIterator.run .fresh (untilFirstEvent ++
      [.harness (.raises (.other "connection lost")), .close])).map (fun s =>
        (s.phase, s.call.taskResult)) =
      some (.closed true (some (.other "connection lost")),
        some (.error (.other "connection lost"))) from rfl)
  obtain ⟨closed, failed⟩ := by simpa only [Prod.mk.injEq] using facts
  have reachable : freshIterator.Reachable s :=
    ⟨_, freshIterator_initial, Transition.System.later_of_run ran⟩
  refine ⟨s, closed, (closes_cleanly_iff reachable closed).1 ?_⟩
  rw [failed]
  decide

end ClosedEarly

end Tename
