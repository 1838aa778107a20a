import Tename.Sdk.Closing
import Tename.Transition.Relay

/-!
# The synchronous session handle

`SessionHandle.send` submits a coroutine to the background loop, which iterates the asynchronous
`send` and puts what it hands out into a queue, then its exception, if any, and a sentinel. The
caller's thread takes the items out. The caller may stop iterating at any event; nobody tells the
coroutine, so the iterator of the asynchronous call is never closed.
-/

namespace Tename

open Transition

/-- What the background loop does around the iterator. -/
inductive LoopAction where
  /-- The asynchronous call takes its next step. -/
  | proceed
  /-- The runtime is answered. -/
  | harness (answer : Answer)

def LoopAction.action : LoopAction → IteratorAction
  | .proceed => .proceed
  | .harness answer => .harness answer

namespace IteratorState

/-- The events that `send` has handed out, up to the one that it stands at. -/
def handed (s : IteratorState) : List Event :=
  match s.phase with
  | .created => []
  | .suspended rest => s.call.yielded.take (s.call.yielded.length - rest.length)
  | _ => s.call.yielded

/-- What `async for` sees of the iterator. -/
def status (s : IteratorState) : IterationStatus Event Exn :=
  match s.phase with
  | .created => .created
  | .suspended _ =>
      match s.handed.getLast? with
      | some event => .suspended event
      | none => .running
  | .ended =>
      match s.call.phase with
      | .raised e => .ended (.error e)
      | _ => .ended (.ok ())
  | _ => .running

end IteratorState

/-- `self._handle.send(content)`, as `_drive` iterates it. -/
def sendIteration (rt : Runtime) (agents : AgentId → Option Agent) (sid : SessionId)
    (content : String) : Iteration IteratorState LoopAction Event Exn where
  ask s := s.step rt agents sid content .next
  step s a := s.step rt agents sid content a.action
  status := IteratorState.status

abbrev SyncState := RelayState IteratorState Event Exn

/-- The runs of one `SessionHandle.send`, on a session with any history, to which nobody else
writes meanwhile. -/
def syncSystem (rt : Runtime) (agents : AgentId → Option Agent) (sid : SessionId)
    (agentId : AgentId) (content : String) : System SyncState (RelayAction LoopAction) :=
  relaySystem (sendIteration rt agents sid content)
    (iteratorSystem rt agents sid agentId content).initial

section Iterating

variable {rt : Runtime} {agents : AgentId → Option Agent} {sid : SessionId} {agentId : AgentId}
variable {content : String}

namespace IteratorState

variable {s s' : IteratorState}

/-- An iterator that nobody closes. -/
structure Unclosed (rt : Runtime) (agents : AgentId → Option Agent) (sid : SessionId)
    (agentId : AgentId) (content : String) (s : IteratorState) : Prop where
  reachable : (iteratorSystem rt agents sid agentId content).Reachable s
  uncancelled : s.cancelRequested = false
  unclosed : s.atClose = none
  phase : match s.phase with
    | .created => s.call.yielded = []
    | .running => True
    | .suspended rest => ∃ events event, s.call.yielded = events ++ event :: rest
    | .ended => s.call.phase = .returned ∨ ∃ e, s.call.phase = .raised e
    | _ => False

theorem handed_suspended {events rest : List Event} {event : Event}
    (suspended : s.phase = .suspended rest) (page : s.call.yielded = events ++ event :: rest) :
    s.handed = events ++ [event] := by
  have split : events ++ event :: rest = (events ++ [event]) ++ rest := by simp
  simp only [handed, suspended, page]
  rw [split, List.length_append, Nat.add_sub_cancel, List.take_left]

theorem status_suspended {events rest : List Event} {event : Event}
    (suspended : s.phase = .suspended rest) (page : s.call.yielded = events ++ event :: rest) :
    s.status = .suspended event := by
  have handed := handed_suspended suspended page
  simp only [status, suspended, handed, List.getLast?_concat]

theorem status_running (running : s.phase = .running) : s.status = .running := by
  simp only [status, running]

theorem handed_running (running : s.phase = .running) : s.handed = s.call.yielded := by
  simp only [handed, running]

theorem status_ended (ended : s.phase = .ended) (r : Except Exn Unit)
    (is : s.call.phase = SendPhase.ended (some r)) : s.status = .ended r := by
  cases r with
  | ok u =>
      have phase : s.call.phase = .returned := is
      simp only [status, ended, phase]
  | error e =>
      have phase : s.call.phase = .raised e := is
      simp only [status, ended, phase]

theorem moves_running (running : s'.phase = .running) (same : s'.call.yielded = s.handed) :
    (sendIteration rt agents sid content).Moves handed s s' := by
  have is : (sendIteration rt agents sid content).status s' = .running := status_running running
  exact .of_running is ((handed_running running).trans same)

theorem moves_suspended {rest : List Event} {event : Event} (suspended : s'.phase = .suspended rest)
    (page : s'.call.yielded = s.handed ++ event :: rest) :
    (sendIteration rt agents sid content).Moves handed s s' := by
  have is : (sendIteration rt agents sid content).status s' = .suspended event :=
    status_suspended suspended page
  exact .of_suspended is (handed_suspended suspended page)

theorem moves_ended {r : Except Exn Unit} (ended : s'.phase = .ended)
    (is : s'.call.phase = SendPhase.ended (some r)) (same : s'.call.yielded = s.handed) :
    (sendIteration rt agents sid content).Moves handed s s' := by
  have settled : (sendIteration rt agents sid content).status s' = .ended r :=
    status_ended ended r is
  refine .of_ended settled ?_
  simp only [handed, ended]
  exact same

theorem unclosed_of_initial
    (initial : (iteratorSystem rt agents sid agentId content).initial s) :
    Unclosed rt agents sid agentId content s := by
  have begins := initial
  obtain ⟨⟨-, -, -, nothing, -⟩, created, uncancelled, -, unclosed⟩ := begins
  refine ⟨.of_initial initial, uncancelled, unclosed, ?_⟩
  simp only [created]
  exact nothing

/-- The iterator is asked for an event. -/
theorem Unclosed.ask (known : Unclosed rt agents sid agentId content s)
    (asked : s.step rt agents sid content .next = some s') :
    Unclosed rt agents sid agentId content s' ∧
      (sendIteration rt agents sid content).Moves handed s s' := by
  have reachable : (iteratorSystem rt agents sid agentId content).Reachable s' :=
    known.reachable.step (a := .next) trivial asked
  have at' := known.phase
  cases phase : s.phase with
  | created =>
      simp only [step, phase, Option.some.injEq] at asked
      simp only [phase] at at'
      subst asked
      refine ⟨⟨reachable, known.uncancelled, known.unclosed, trivial⟩, ?_⟩
      refine moves_running rfl ?_
      simp only [handed, phase, at']
  | suspended rest =>
      simp only [phase] at at'
      obtain ⟨events, before, page⟩ := at'
      cases rest with
      | nil =>
          simp only [step, phase, Option.some.injEq] at asked
          subst asked
          refine ⟨⟨reachable, known.uncancelled, known.unclosed, trivial⟩, ?_⟩
          exact moves_running rfl (page.trans (handed_suspended phase page).symm)
      | cons event rest =>
          simp only [step, phase, Option.some.injEq] at asked
          subst asked
          have page' : s.call.yielded = (events ++ [before]) ++ event :: rest := by
            rw [page]
            simp
          refine ⟨⟨reachable, known.uncancelled, known.unclosed, ⟨_, _, page'⟩⟩, ?_⟩
          have handed := handed_suspended phase page
          rw [← handed] at page'
          exact moves_suspended rfl page'
  | _ =>
      simp only [step, phase] at asked
      cases asked

/-- A call reads page after page. -/
theorem yielded_of_proceed {call call' : SendState}
    (stepped : call.proceed rt sid content = some call') :
    ∃ page, call'.yielded = call.yielded ++ page := by
  cases SendState.proceeds stepped with
  | reads => exact ⟨_, rfl⟩
  | drains => exact ⟨_, rfl⟩
  | _ => exact ⟨[], (List.append_nil _).symm⟩

/-- The iterator goes on with a page: it stands at its first event, if there is one. -/
theorem handOut_cases {call : SendState}
    (stepped : s.call.proceed rt sid content = some call) :
    (call.yielded = s.call.yielded ∧ s.handOut call = { s with call := call }) ∨
      ∃ event rest, call.yielded = s.call.yielded ++ event :: rest ∧
        s.handOut call = { s with call := call, phase := .suspended rest } := by
  obtain ⟨page, more⟩ := yielded_of_proceed stepped
  have left : call.yielded.drop s.call.yielded.length = page := by
    rw [more, List.drop_left]
  rw [handOut, left]
  cases page with
  | nil => exact .inl ⟨by rw [more, List.append_nil], rfl⟩
  | cons event rest => exact .inr ⟨event, rest, more, rfl⟩

/-- The iterator ends with the call. -/
theorem Unclosed.ends {r : Except Exn Unit} (known : Unclosed rt agents sid agentId content s)
    (running : s.phase = .running) (ended : s.call.phase = SendPhase.ended (some r))
    (reachable : (iteratorSystem rt agents sid agentId content).Reachable
      { s with phase := .ended }) :
    Unclosed rt agents sid agentId content { s with phase := .ended } ∧
      (sendIteration rt agents sid content).Moves handed s { s with phase := .ended } := by
  have settled : s.call.phase = .returned ∨ ∃ e, s.call.phase = .raised e := by
    cases r with
    | ok u => exact .inl ended
    | error e => exact .inr ⟨e, ended⟩
  refine ⟨⟨reachable, known.uncancelled, known.unclosed, settled⟩, ?_⟩
  exact moves_ended rfl ended (handed_running running).symm

/-- A step of an iterator that is running. -/
theorem Unclosed.proceed (known : Unclosed rt agents sid agentId content s)
    (stepped : s.step rt agents sid content .proceed = some s') :
    Unclosed rt agents sid agentId content s' ∧ s.phase = .running ∧
      (sendIteration rt agents sid content).Moves handed s s' := by
  have reachable : (iteratorSystem rt agents sid agentId content).Reachable s' :=
    known.reachable.step (a := .proceed) trivial stepped
  have at' := known.phase
  cases phase : s.phase with
  | running =>
      simp only [step, phase] at stepped
      split at stepped
      · rename_i returned
        cases stepped
        obtain ⟨kept, moves⟩ := known.ends (r := .ok ()) phase returned reachable
        exact ⟨kept, rfl, moves⟩
      · rename_i e raised
        cases stepped
        obtain ⟨kept, moves⟩ := known.ends (r := .error e) phase raised reachable
        exact ⟨kept, rfl, moves⟩
      · obtain ⟨call, proceeded, rfl⟩ := Option.map_eq_some_iff.mp stepped
        rcases handOut_cases proceeded with ⟨same, next⟩ | ⟨event, rest, more, next⟩
        · rw [next] at reachable ⊢
          refine ⟨⟨reachable, known.uncancelled, known.unclosed, ?_⟩, rfl, ?_⟩
          · simp only [phase]
          · exact moves_running phase (same.trans (handed_running phase).symm)
        · rw [next] at reachable ⊢
          refine ⟨⟨reachable, known.uncancelled, known.unclosed, ⟨_, _, more⟩⟩, rfl, ?_⟩
          rw [← handed_running phase] at more
          exact moves_suspended rfl more
  | awaiting =>
      simp only [phase] at at'
  | _ =>
      simp only [step, phase] at stepped
      cases stepped

/-- The runtime is answered while the iterator stands where it is. -/
theorem Unclosed.harness {answer : Answer} (known : Unclosed rt agents sid agentId content s)
    (stepped : s.step rt agents sid content (.harness answer) = some s') :
    Unclosed rt agents sid agentId content s' ∧ s'.status = s.status ∧ s'.handed = s.handed := by
  have reachable : (iteratorSystem rt agents sid agentId content).Reachable s' :=
    known.reachable.step (a := .harness answer) trivial stepped
  obtain ⟨o, k, w, r, -, -, rfl⟩ := harness_cases stepped
  exact ⟨⟨reachable, known.uncancelled, known.unclosed, known.phase⟩, rfl, rfl⟩

theorem lawful_send : (sendIteration rt agents sid content).Lawful handed
    (Unclosed rt agents sid agentId content) where
  ask known asked := known.ask asked
  step := by
    intro s a s' known stepped
    cases a with
    | proceed =>
        obtain ⟨kept, running, moves⟩ := known.proceed stepped
        exact ⟨kept, fun _ => moves, fun other => absurd (status_running running) other⟩
    | harness answer =>
        obtain ⟨kept, same, still⟩ := known.harness stepped
        refine ⟨kept, fun running => ?_, fun _ => ⟨same, still⟩⟩
        have is : (sendIteration rt agents sid content).status s' = .running := same.trans running
        rw [Iteration.Moves, is]
        exact still

section CanEnd

/-- The iterator can be brought to its end. -/
abbrev CanEnd (rt : Runtime) (agents : AgentId → Option Agent) (sid : SessionId)
    (content : String) (s : IteratorState) : Prop :=
  (sendIteration rt agents sid content).CanEnd s

/-- A page is handed out event by event. -/
theorem canEnd_of_suspended {events rest : List Event} {event : Event}
    (suspended : s.phase = .suspended rest) (page : s.call.yielded = events ++ event :: rest)
    (later : CanEnd rt agents sid content { s with phase := .running }) :
    CanEnd rt agents sid content s := by
  induction rest generalizing s events event with
  | nil =>
      have asked : (sendIteration rt agents sid content).ask s =
          some { s with phase := .running } := by
        change s.step rt agents sid content .next = _
        simp only [step, suspended]
      exact .ask (status_suspended suspended page) asked later
  | cons next rest ih =>
      have asked : (sendIteration rt agents sid content).ask s =
          some { s with phase := .suspended rest } := by
        change s.step rt agents sid content .next = _
        simp only [step, suspended]
      have page' : s.call.yielded = (events ++ [event]) ++ next :: rest := by
        rw [page]
        simp
      exact .ask (status_suspended suspended page) asked
        (ih (s := { s with phase := .suspended rest }) rfl page' later)

/-- The call takes a step, and its page, if any, is handed out. -/
theorem canEnd_of_proceed {c : SendState} (running : s.phase = .running)
    (stepped : s.call.proceed rt sid content = some c)
    (later : CanEnd rt agents sid content { s with call := c }) :
    CanEnd rt agents sid content s := by
  have goes : (sendIteration rt agents sid content).step s .proceed = some (s.handOut c) := by
    change s.step rt agents sid content .proceed = _
    simp only [step, running]
    split
    · rename_i returned
      simp only [SendState.proceed, returned] at stepped
      cases stepped
    · rename_i e raised
      simp only [SendState.proceed, raised] at stepped
      cases stepped
    · rw [stepped, Option.map_some]
  refine .step goes ?_
  rcases handOut_cases stepped with ⟨same, next⟩ | ⟨event, rest, more, next⟩
  · rw [next]
    exact later
  · rw [next]
    refine canEnd_of_suspended rfl more ?_
    rwa [← running]

/-- A call that is over. -/
theorem canEnd_of_ended {r : Except Exn Unit} (running : s.phase = .running)
    (ended : s.call.phase = SendPhase.ended (some r)) : CanEnd rt agents sid content s := by
  have goes : (sendIteration rt agents sid content).step s .proceed =
      some { s with phase := .ended } := by
    change s.step rt agents sid content .proceed = _
    cases r with
    | ok u =>
        have returned : s.call.phase = .returned := ended
        simp only [step, running, returned]
    | error e =>
        have raised : s.call.phase = .raised e := ended
        simp only [step, running, raised]
  have settled :
      (sendIteration rt agents sid content).status { s with phase := .ended } = .ended r :=
    status_ended (s := { s with phase := .ended }) rfl r ended
  exact .step goes (.ended settled)

/-- A call whose task is over reads what is left, and ends as the task has. -/
theorem canEnd_of_done {r : Except Exn Unit} (running : s.phase = .running)
    (done : s.call.taskResult = some r) (settled : s.call.Settled) :
    CanEnd rt agents sid content s := by
  have draining {s : IteratorState} {n : Nat} (running : s.phase = .running)
      (done : s.call.taskResult = some r) (phase : s.call.phase = .draining n) :
      CanEnd rt agents sid content s := by
    refine canEnd_of_proceed (c := { s.call with
      phase := .ended (some r)
      yielded := s.call.yielded ++ (s.call.run.state.session.events.drop n).take 1000 })
      running ?_ (canEnd_of_ended running rfl)
    simp only [SendState.proceed, phase, SendState.eventsAfter_eq, SendState.yieldPage, done]
  have checking {s : IteratorState} {n : Nat} (running : s.phase = .running)
      (done : s.call.taskResult = some r) (phase : s.call.phase = .checking n) :
      CanEnd rt agents sid content s := by
    refine canEnd_of_proceed (c := { s.call with phase := .draining n }) running ?_
      (draining running done rfl)
    simp only [SendState.proceed, phase, done]
  have polling {s : IteratorState} {n : Nat} (running : s.phase = .running)
      (done : s.call.taskResult = some r) (phase : s.call.phase = .polling n) :
      CanEnd rt agents sid content s := by
    refine canEnd_of_proceed (c := { s.call with
      phase := .checking (SendState.lastSequenceOf
        ((s.call.run.state.session.events.drop n).take 1000) n)
      yielded := s.call.yielded ++ (s.call.run.state.session.events.drop n).take 1000 })
      running ?_ (checking running done rfl)
    simp only [SendState.proceed, phase, SendState.eventsAfter_eq, SendState.yieldPage]
  cases phase : s.call.phase with
  | polling n => exact polling running done phase
  | checking n => exact checking running done phase
  | draining n => exact draining running done phase
  | returned => exact canEnd_of_ended (r := .ok ()) running phase
  | raised e => exact canEnd_of_ended (r := .error e) running phase
  | waiting n =>
      cases r with
      | ok u =>
          refine canEnd_of_proceed (c := { s.call with phase := .polling n }) running ?_
            (polling running done rfl)
          simp only [SendState.proceed, phase, done]
      | error e =>
          cases timeout : e.isTimeout with
          | true =>
              refine canEnd_of_proceed (c := { s.call with phase := .polling n }) running ?_
                (polling running done rfl)
              simp only [SendState.proceed, phase, done, timeout, if_pos]
          | false =>
              refine canEnd_of_proceed (c := { s.call with phase := .raised e }) running ?_
                (canEnd_of_ended (r := .error e) running rfl)
              simp only [SendState.proceed, phase, done, timeout]
              rfl
  | _ =>
      simp only [SendState.Settled, phase] at settled
      exact absurd settled (SendState.started_of_result done)

/-- A task that has been started can be answered to its end. -/
theorem canEnd_of_started {p : Harness Unit} (running : s.phase = .running)
    (going : s.call.run.program = some p) (settled : s.call.Settled) :
    CanEnd rt agents sid content s := by
  induction p generalizing s with
  | pure u =>
      have done : s.call.taskResult = some (.ok ()) := by
        rw [SendState.taskResult, going]
      exact canEnd_of_done running done settled
  | throw e =>
      have done : s.call.taskResult = some (.error e) := by
        rw [SendState.taskResult, going]
      exact canEnd_of_done running done settled
  | op o k ih =>
      obtain ⟨answer, w, r, performed⟩ := answerable agents s.call.run.state o
      have answered : (sendIteration rt agents sid content).step s (.harness answer) =
          some { s with
            call := { s.call with run := ⟨w, some (k r)⟩ }
            performed := s.performed ++ [⟨o, answer, r⟩] } := by
        change s.step rt agents sid content (.harness answer) = _
        simp only [step, going, performed]
        rfl
      have started : s.call.run.program ≠ none := by
        rw [going]
        exact Option.some_ne_none _
      have unfinished : s.call.taskResult = none := by
        rw [SendState.taskResult, going]
      refine .step answered (ih r running rfl ?_)
      exact settled.harness started unfinished (Option.some_ne_none _)

/-- A call that has not started its task yet goes on to start it, unless it is refused. -/
theorem canEnd_of_unstarted (running : s.phase = .running) (idle : s.call.run.program = none)
    (settled : s.call.Settled) : CanEnd rt agents sid content s := by
  have launching {s : IteratorState} {n : Nat} (running : s.phase = .running)
      (phase : s.call.phase = .launching n) : CanEnd rt agents sid content s := by
    refine canEnd_of_proceed (c := { s.call with
      run := ⟨s.call.run.state.boot, some (runSession rt sid)⟩
      phase := .polling n }) running ?_ (canEnd_of_started running rfl ?_)
    · simp only [SendState.proceed, phase]
    · exact Option.some_ne_none _
  have speaking {s : IteratorState} {n : Nat} (running : s.phase = .running)
      (phase : s.call.phase = .speaking n) : CanEnd rt agents sid content s := by
    cases emitted : s.call.run.state.draw.1.emit s.call.run.state.draw.2 .userMessage
        (userPayload content) with
    | mk w out =>
        cases out with
        | ok event =>
            refine canEnd_of_proceed (c := { s.call with
              run := ⟨w, none⟩
              phase := .launching n }) running ?_ (launching running rfl)
            simp only [SendState.proceed, phase, emitted]
        | error e =>
            refine canEnd_of_proceed (c := { s.call with
              run := ⟨w, none⟩
              phase := .raised e }) running ?_ (canEnd_of_ended (r := .error e) running rfl)
            simp only [SendState.proceed, phase, emitted]
  cases phase : s.call.phase with
  | opening =>
      refine canEnd_of_proceed (c := { s.call with
        phase := .speaking (SendState.lastSequenceOf
          (s.call.run.state.session.events.take 1000) 0) }) running ?_ (speaking running rfl)
      simp only [SendState.proceed, phase, SessionState.page_eq]
  | speaking n => exact speaking running phase
  | launching n => exact launching running phase
  | raised e => exact canEnd_of_ended (r := .error e) running phase
  | returned =>
      simp only [SendState.Settled, phase] at settled
      obtain ⟨r, done⟩ := Option.ne_none_iff_exists'.mp settled
      exact absurd idle (SendState.started_of_result done)
  | draining n =>
      simp only [SendState.Settled, phase] at settled
      obtain ⟨r, done⟩ := Option.ne_none_iff_exists'.mp settled
      exact absurd idle (SendState.started_of_result done)
  | _ =>
      simp only [SendState.Settled, phase] at settled
      exact absurd idle settled

/-- An iterator that runs can be brought to its end. -/
theorem canEnd_of_running (running : s.phase = .running) (settled : s.call.Settled) :
    CanEnd rt agents sid content s := by
  cases program : s.call.run.program with
  | none => exact canEnd_of_unstarted running program settled
  | some p => exact canEnd_of_started running program settled

/-- Every iterator that nobody closes can be brought to its end. -/
theorem Unclosed.canEnd (known : Unclosed rt agents sid agentId content s) :
    CanEnd rt agents sid content s := by
  have settled := (invariant_of_reachable known.reachable).settled
  have at' := known.phase
  cases phase : s.phase with
  | created =>
      have asked : (sendIteration rt agents sid content).ask s =
          some { s with phase := .running } := by
        change s.step rt agents sid content .next = _
        simp only [step, phase]
      have created : (sendIteration rt agents sid content).status s = .created := by
        change s.status = _
        simp only [status, phase]
      exact .first created asked (canEnd_of_running rfl settled)
  | running => exact canEnd_of_running phase settled
  | suspended rest =>
      simp only [phase] at at'
      obtain ⟨events, event, page⟩ := at'
      exact canEnd_of_suspended phase page (canEnd_of_running rfl settled)
  | ended =>
      simp only [phase] at at'
      rcases at' with returned | ⟨e, raised⟩
      · exact .ended (r := .ok ()) (status_ended phase _ returned)
      · exact .ended (r := .error e) (status_ended phase _ raised)
  | _ => simp only [phase] at at'

end CanEnd

end IteratorState

namespace SendState

variable {s : SendState}

/-- What a call has handed out is a part of the log without gaps, from its first unseen event. -/
def Segment (s : SendState) : Prop :=
  ∃ n ≤ s.run.state.session.events.length,
    s.yielded = (s.run.state.session.events.take n).drop (min s.before.length 1000)

theorem Streaming.segment {n : Nat}
    (h : Streaming content s.run.state.session.events s.before s.yielded n) : s.Segment :=
  ⟨n, h.to', h.handed⟩

/-- The log only grows. -/
theorem Segment.grown (h : s.Segment) {c : RunConfig}
    (grows : s.run.state.session.events <+: c.state.session.events) :
    Segment { s with run := c } := by
  obtain ⟨n, fits, handed⟩ := h
  refine ⟨n, fits.trans grows.length_le, ?_⟩
  obtain ⟨more, log⟩ := grows
  change s.yielded = (c.state.session.events.take n).drop (min s.before.length 1000)
  rw [handed, ← log, List.take_append_of_le_length fits]

/-- An emission appends to the log, if anything. -/
theorem grows_of_emit {w w' : World} {id : EventId} {type : EventType} {payload : Payload}
    {r : Except Exn Event} (emitted : w.emit id type payload = (w', r)) :
    w.session.events <+: w'.session.events := by
  rcases w.emit_cases id type payload with ⟨e, h⟩ | ⟨e, -, -, h⟩ | ⟨-, fresh, h⟩
  · rw [h] at emitted
    cases emitted
    exact List.prefix_rfl
  · rw [h] at emitted
    cases emitted
    exact List.prefix_rfl
  · rw [h] at emitted
    cases emitted
    exact List.prefix_append _ _

theorem segment_proceed {s' : SendState} (known : Invariant rt agents sid content s)
    (segment : s.Segment) (stepped : s.proceed rt sid content = some s') : s'.Segment := by
  cases proceeds stepped with
  | opens => exact segment
  | @speaks n w event phase emitted =>
      have grows : s.run.state.draw.1.session.events <+: w.session.events := grows_of_emit emitted
      exact segment.grown (c := ⟨w, none⟩) grows
  | @refused n w e phase emitted =>
      have grows : s.run.state.draw.1.session.events <+: w.session.events := grows_of_emit emitted
      exact segment.grown (c := ⟨w, none⟩) grows
  | launches => exact segment
  | reads phase =>
      simp only [Invariant, phase] at known
      exact known.page.segment
  | finds => exact segment
  | sleeps => exact segment
  | fails => exact segment
  | wakes => exact segment
  | drains phase =>
      simp only [Invariant, phase] at known
      exact known.page.segment

/-- What a call has handed out is a part of the log, at any time. -/
theorem segment_of_reachable (reachable : (sendSystem rt agents sid agentId content).Reachable s) :
    s.Segment := by
  obtain ⟨s₀, initial, reaches⟩ := reachable
  induction reaches with
  | refl =>
      obtain ⟨-, -, -, nothing, -⟩ := initial
      exact ⟨0, Nat.zero_le _, by rw [nothing, List.take_zero, List.drop_nil]⟩
  | @tail t t' a before _ stepped ih =>
      cases a with
      | proceed => exact segment_proceed (invariant_of_reachable ⟨s₀, initial, before⟩) ih stepped
      | harness answer =>
          obtain ⟨c, performed, rfl⟩ := Option.map_eq_some_iff.mp stepped
          change (runtimeProcess rt agents sid).step t.run (.respond answer) = some c at performed
          rcases Process.step_cases performed with ⟨other, _⟩ |
            ⟨_, o, k, w, r, _, alive, done, rfl⟩ | ⟨other, _⟩ | ⟨_, _, other, _⟩
          · cases other
          · exact ih.grown (World.perform_grows done)
          · rcases other with other | other <;> cases other
          · cases other

end SendState

namespace SyncState

open RelayState

variable {s : SyncState}

theorem relayed_of_reachable (reachable : (syncSystem rt agents sid agentId content).Reachable s) :
    Relayed (sendIteration rt agents sid content) IteratorState.handed
      (IteratorState.Unclosed rt agents sid agentId content) s := by
  refine RelayState.relayed_of_reachable IteratorState.lawful_send ?_ reachable
  intro source initial
  have begins := initial
  obtain ⟨-, created, -⟩ := begins
  refine ⟨IteratorState.unclosed_of_initial initial, ?_, ?_⟩
  · change source.status = .created
    simp only [IteratorState.status, created]
  · simp only [IteratorState.handed, created]

/-- What the iterator has handed out when it ends is all that the call has handed out. -/
theorem call_of_ended {source : IteratorState} {r : Except Exn Unit}
    (ended : (sendIteration rt agents sid content).status source = .ended r)
    (known : IteratorState.Unclosed rt agents sid agentId content source) :
    source.call.phase = SendPhase.ended (some r) ∧ source.handed = source.call.yielded := by
  change source.status = .ended r at ended
  have at' := known.phase
  cases phase : source.phase with
  | ended =>
      simp only [phase] at at'
      simp only [IteratorState.status, phase] at ended
      refine ⟨?_, by simp only [IteratorState.handed, phase]⟩
      rcases at' with returned | ⟨e, raised⟩
      · simp only [returned, IterationStatus.ended.injEq] at ended
        rw [returned, ← ended]
        rfl
      · simp only [raised, IterationStatus.ended.injEq] at ended
        rw [raised, ← ended]
        rfl
  | suspended rest =>
      simp only [phase] at at'
      obtain ⟨events, event, page⟩ := at'
      rw [IteratorState.status_suspended phase page] at ended
      cases ended
  | _ =>
      simp only [IteratorState.status, phase] at ended
      cases ended

theorem handed_begins (source : IteratorState) : source.handed <+: source.call.yielded := by
  unfold IteratorState.handed
  split
  · exact List.nil_prefix
  · exact List.take_prefix _ _
  · exact List.prefix_rfl

/-- A coroutine that has been submitted can come to its end. -/
theorem leads_driven (reachable : (syncSystem rt agents sid agentId content).Reachable s)
    (submitted : s.driver ≠ .unsubmitted) :
    ∃ t, (syncSystem rt agents sid agentId content).Later s t ∧ Driven s t ∧
      Relayed (sendIteration rt agents sid content) IteratorState.handed
        (IteratorState.Unclosed rt agents sid agentId content) t := by
  have known := relayed_of_reachable reachable
  obtain ⟨t, later, driven⟩ := known.leads_done IteratorState.lawful_send
    known.kept.canEnd rfl submitted
  exact ⟨t, later, driven, relayed_of_reachable (reachable.extend later)⟩

/-- The caller of the synchronous `send` receives what the asynchronous one hands out: at any time
a first part of it, which is a part of the log without gaps, and everything if it returns or
raises, which it does as the asynchronous call has. It is never left to wait for good. Nobody else
writes to the session meanwhile. -/
theorem send_mirrors (reachable : (syncSystem rt agents sid agentId content).Reachable s) :
    (sendSystem rt agents sid agentId content).Reachable s.source.call ∧
    s.received <+: s.source.call.yielded ∧ s.source.call.Segment ∧
    (s.consumer = .returned →
      s.source.call.phase = .returned ∧ s.received = s.source.call.yielded) ∧
    (∀ e, s.consumer = .raised e →
      s.source.call.phase = .raised e ∧ s.received = s.source.call.yielded) ∧
    (s.consumer = .taking ∨ s.consumer = .holding →
      (syncSystem rt agents sid agentId content).Leads Ended s) := by
  have known := relayed_of_reachable reachable
  have call := (IteratorState.invariant_of_reachable known.kept.reachable).reachable
  refine ⟨call, known.begins.trans (handed_begins _), SendState.segment_of_reachable call,
    ?_, ?_, ?_⟩
  · intro returned
    obtain ⟨all, ended⟩ := known.ended.1 returned
    obtain ⟨phase, handed⟩ := call_of_ended ended known.kept
    exact ⟨phase, all.trans handed⟩
  · intro e raised
    obtain ⟨all, ended⟩ := known.ended.2 e raised
    obtain ⟨phase, handed⟩ := call_of_ended ended known.kept
    exact ⟨phase, all.trans handed⟩
  · intro takes
    have submitted : s.driver ≠ .unsubmitted := by
      intro idle
      rcases known.submitted idle with is | is <;> rw [is] at takes <;> simp at takes
    obtain ⟨t, later, ⟨done, same, -⟩, known'⟩ := leads_driven reachable submitted
    rw [← same] at takes
    exact .after later (known'.leads_ended IteratorState.lawful_send done takes)

/-- The synchronous handle never cancels the runtime. A caller that stops iterating leaves the call
to come to its end, with all that it has not received in the queue. -/
theorem abandoned_completes
    (reachable : (syncSystem rt agents sid agentId content).Reachable s) :
    s.source.cancelRequested = false ∧ s.source.atClose = none ∧
    (s.driver ≠ .unsubmitted → s.consumer = .closed →
      (syncSystem rt agents sid agentId content).Leads (fun t =>
        t.consumer = .closed ∧ t.source.cancelRequested = false ∧
        ∃ r, t.source.call.phase = SendPhase.ended (some r) ∧
          t.queue = (t.source.call.yielded.drop s.received.length).map .value ++
            (failure r ++ [.sentinel])) s) := by
  have known := relayed_of_reachable reachable
  refine ⟨known.kept.uncancelled, known.kept.unclosed, fun submitted closed => ?_⟩
  obtain ⟨t, later, ⟨done, same, still⟩, known'⟩ := leads_driven reachable submitted
  rw [closed] at same
  obtain ⟨r, ended, left⟩ := known'.left_of_done done (by rw [same]; rfl)
  obtain ⟨phase, handed⟩ := call_of_ended ended known'.kept
  rw [handed, still] at left
  exact ⟨t, later, same, known'.kept.uncancelled, r, phase, left⟩

end SyncState

end Iterating

section Failing

/-- A synchronous call on a new session. -/
abbrev freshSync : System SyncState (RelayAction LoopAction) :=
  syncSystem (.bare .roomy) (fun _ => some (.plain (some "Be brief."))) "s" "agent" "hello"

def SyncState.fresh : SyncState := ⟨.fresh, .unsubmitted, [], .created, []⟩

theorem freshSync_initial : freshSync.initial .fresh :=
  ⟨freshIterator_initial, rfl, rfl, rfl, rfl⟩

/-- The coroutine gets the user's message, and puts it. -/
def untilPut : List (RelayAction LoopAction) :=
  [.next, .drive, .source .proceed, .source .proceed, .source .proceed, .source .proceed, .drive]

/-- The runtime fails before it writes anything, and the coroutine puts its exception. -/
def failToEnd : List (RelayAction LoopAction) :=
  [.drive, .source (.harness (.raises (.other "connection lost"))), .source .proceed,
    .source .proceed, .source .proceed, .drive, .drive]

/-- The caller receives its own message, and the exception. -/
theorem SyncState.send_mirrors_failed : ∃ s : SyncState,
    s.consumer = .raised (.other "connection lost") ∧ s.received.length = 1 ∧
      s.received = s.source.call.yielded := by
  obtain ⟨s, ran, facts⟩ := Option.map_eq_some_iff.mp (show
    (freshSync.run .fresh (untilPut ++ failToEnd ++ [.get, .next, .get])).map (fun s =>
        (s.consumer, s.received.length)) =
      some (.raised (.other "connection lost"), 1) from rfl)
  obtain ⟨raised, length⟩ := by simpa only [Prod.mk.injEq] using facts
  have reachable : freshSync.Reachable s :=
    ⟨_, freshSync_initial, Transition.System.later_of_run ran⟩
  exact ⟨s, raised, length, ((send_mirrors reachable).2.2.2.2.1 _ raised).2⟩

/-- The caller stops at its own message, before the runtime has been answered. -/
theorem SyncState.abandoned_completes_first : ∃ s : SyncState, s.consumer = .closed ∧
    s.received.length = 1 ∧ s.source.call.taskResult = none ∧
    freshSync.Leads (fun t => t.source.cancelRequested = false) s := by
  obtain ⟨s, ran, facts⟩ := Option.map_eq_some_iff.mp (show
    (freshSync.run .fresh (untilPut ++ [.get, .close])).map (fun s =>
        (s.consumer, s.received.length, s.source.call.taskResult, s.driver)) =
      some (.closed, 1, none, .asking) from rfl)
  obtain ⟨closed, length, unfinished, driver⟩ := by simpa only [Prod.mk.injEq] using facts
  have reachable : freshSync.Reachable s :=
    ⟨_, freshSync_initial, Transition.System.later_of_run ran⟩
  obtain ⟨t, later, -, uncancelled, -⟩ :=
    (abandoned_completes reachable).2.2 (by rw [driver]; decide) closed
  exact ⟨s, closed, length, unfinished, t, later, uncancelled⟩

end Failing

end Tename
