import Tename.Harness.Records

/-!
# The session handle of the SDK

`AsyncSessionHandle.send` emits the user's message, starts the runtime on the
session and polls the log until the runtime is done. The system below
interleaves the steps of the call with those of the runtime; nobody else writes.
`before` records the log at the call for the statements about it.
-/

namespace Tename

/-- Where a `send` call stands, with its `last_sequence`. -/
inductive SendPhase where
  /-- About to establish the last-seen pointer. -/
  | opening
  | speaking (lastSequence : Nat)
  | launching (lastSequence : Nat)
  /-- At the top of the loop of `_stream_events`. -/
  | polling (lastSequence : Nat)
  /-- About to ask `harness_task.done()`. -/
  | checking (lastSequence : Nat)
  /-- In `wait_for`, until the task is done or the poll interval is over. -/
  | waiting (lastSequence : Nat)
  /-- About to read the trailing events. -/
  | draining (lastSequence : Nat)
  | returned
  | raised (error : Exn)
  deriving DecidableEq

/-- How a call ends: the task's error surfaces to the caller. -/
def SendPhase.ended : Option (Except Exn Unit) → SendPhase
  | some (.error e) => .raised e
  | _ => .returned

structure SendState where
  run : RunConfig
  phase : SendPhase
  /-- What the caller has received. -/
  yielded : List Event
  /-- The log at the call. -/
  before : List Event

inductive SendAction where
  /-- The call takes its next step. -/
  | proceed
  /-- The runtime is answered. -/
  | harness (answer : Answer)

namespace SendState

/-- `get_events(session_id, start=last_sequence + 1)`. -/
def eventsAfter (s : SendState) (lastSequence : Nat) : Except Exn (List Event) :=
  getEvents s.run.state.session.events (some (lastSequence + 1)) none [] defaultEventsLimit

/-- The sequence of the last event of a page, or `last_sequence` if it is empty. -/
def lastSequenceOf (page : List Event) (lastSequence : Nat) : Nat :=
  (page.getLast?.map Event.sequence).getD lastSequence

/-- How the task of the runtime has ended, if it has. -/
def taskResult (s : SendState) : Option (Except Exn Unit) :=
  match s.run.program with
  | some (.pure ()) => some (.ok ())
  | some (.throw e) => some (.error e)
  | _ => none

/-- Hand out a page and go on. -/
def yieldPage (s : SendState) (page : Except Exn (List Event)) (next : List Event → SendPhase) :
    SendState :=
  match page with
  | .ok events => { s with phase := next events, yielded := s.yielded ++ events }
  | .error e => { s with phase := .raised e }

/-- One step of `send` and `_stream_events`. -/
def proceed (rt : Runtime) (sid : SessionId) (content : String) (s : SendState) :
    Option SendState :=
  match s.phase with
  | .opening =>
      match s.run.state.session.page with
      | .ok last => some { s with phase := .speaking (lastSequenceOf last 0) }
      | .error e => some { s with phase := .raised e }
  | .speaking lastSequence =>
      let w := s.run.state.draw.1
      match w.emit s.run.state.draw.2 .userMessage (userPayload content) with
      | (w', .ok _) => some { s with run := ⟨w', none⟩, phase := .launching lastSequence }
      | (w', .error e) => some { s with run := ⟨w', none⟩, phase := .raised e }
  | .launching lastSequence =>
      some { s with
        run := ⟨s.run.state.boot, some (runSession rt sid)⟩
        phase := .polling lastSequence }
  | .polling lastSequence =>
      some (s.yieldPage (s.eventsAfter lastSequence) fun events =>
        .checking (lastSequenceOf events lastSequence))
  | .checking lastSequence =>
      match s.taskResult with
      | some _ => some { s with phase := .draining lastSequence }
      | none => some { s with phase := .waiting lastSequence }
  | .waiting lastSequence =>
      match s.taskResult with
      | some (.error e) =>
          some { s with phase := if e.isTimeout then .polling lastSequence else .raised e }
      | _ => some { s with phase := .polling lastSequence }
  | .draining lastSequence =>
      some (s.yieldPage (s.eventsAfter lastSequence) fun _ => .ended s.taskResult)
  | .returned | .raised _ => none

/-- One step of the call or of the runtime. -/
def step (rt : Runtime) (agents : AgentId → Option Agent) (sid : SessionId) (agentId : AgentId)
    (content : String) (s : SendState) : SendAction → Option SendState
  | .proceed => s.proceed rt sid content
  | .harness answer =>
      ((sessionSystem rt agents sid agentId).step s.run (.respond answer)).map fun c =>
        { s with run := c }

end SendState

/-- The runs of one `send` call on a session with any history. -/
def sendSystem (rt : Runtime) (agents : AgentId → Option Agent) (sid : SessionId)
    (agentId : AgentId) (content : String) : Transition.System SendState SendAction where
  initial s := (sessionSystem rt agents sid agentId).Reachable s.run ∧ s.run.program = none ∧
    s.phase = .opening ∧ s.yielded = [] ∧ s.before = s.run.state.session.events
  step := SendState.step rt agents sid agentId content

namespace SendState

variable {rt : Runtime} {agents : AgentId → Option Agent} {sid : SessionId} {agentId : AgentId}
variable {content : String} {s s' : SendState} {n : Nat}

theorem eventsAfter_eq (s : SendState) (n : Nat) :
    s.eventsAfter n = .ok ((s.run.state.session.events.drop n).take 1000) :=
  s.run.state.session.getEvents_after n

/-- The cursor after a page: as far as the page reaches. -/
theorem lastSequenceOf_eq (session : SessionState) (fits : n ≤ session.events.length) :
    lastSequenceOf ((session.events.drop n).take 1000) n =
      min (n + 1000) session.events.length := by
  have sequences : ((session.events.drop n).take 1000).map Event.sequence =
      List.range' (n + 1) (min 1000 (session.events.length - n)) := by
    rw [List.map_take, List.map_drop, session.dense, List.drop_range', ← session.length_events]
    rcases Nat.le_total 1000 (session.events.length - n) with full | short
    · rw [List.take_range'_of_length_ge full, Nat.min_eq_left full]
      simp [Nat.add_comm]
    · rw [List.take_range'_of_length_le short, Nat.min_eq_right short]
      simp [Nat.add_comm]
  rw [lastSequenceOf, ← List.getLast?_map, sequences, List.getLast?_range']
  split <;> simp <;> omega

/-- The log from its first unseen event to the cursor has been handed out. -/
structure Streaming (content : String) (events before yielded : List Event)
    (lastSequence : Nat) : Prop where
  own : ∃ own rest, events = before ++ own :: rest ∧ own.utters content
  from' : min before.length 1000 ≤ lastSequence
  to' : lastSequence ≤ events.length
  handed : yielded = (events.take lastSequence).drop (min before.length 1000)

/-- What is known at each point of the call. -/
def Invariant (rt : Runtime) (agents : AgentId → Option Agent) (sid : SessionId)
    (content : String) (s : SendState) : Prop :=
  match s.phase with
  | .opening => s.run.program = none ∧ s.run.state.session.events = s.before ∧ s.yielded = [] ∧
      ∃ g, Sound rt agents sid s.run.state g
  | .speaking n => s.run.program = none ∧ s.run.state.session.events = s.before ∧
      s.yielded = [] ∧ n = min s.before.length 1000 ∧ ∃ g, Sound rt agents sid s.run.state g
  | .launching n => s.run.program = none ∧
      Streaming content s.run.state.session.events s.before s.yielded n
  | .polling n | .checking n | .waiting n | .draining n =>
      Streaming content s.run.state.session.events s.before s.yielded n
  | .returned | .raised _ => True

/-- Everything that one step of the call can do. -/
inductive Proceeds (rt : Runtime) (sid : SessionId) (content : String) (s : SendState) :
    SendState → Prop where
  | opens (phase : s.phase = .opening) : Proceeds rt sid content s { s with
      phase := .speaking (lastSequenceOf (s.run.state.session.events.take 1000) 0) }
  | speaks {n : Nat} {w : World} {event : Event} (phase : s.phase = .speaking n)
      (emitted : s.run.state.draw.1.emit s.run.state.draw.2 .userMessage (userPayload content) =
        (w, .ok event)) :
      Proceeds rt sid content s { s with run := ⟨w, none⟩, phase := .launching n }
  | refused {n : Nat} {w : World} {e : Exn} (phase : s.phase = .speaking n)
      (emitted : s.run.state.draw.1.emit s.run.state.draw.2 .userMessage (userPayload content) =
        (w, .error e)) :
      Proceeds rt sid content s { s with run := ⟨w, none⟩, phase := .raised e }
  | launches {n : Nat} (phase : s.phase = .launching n) : Proceeds rt sid content s { s with
      run := ⟨s.run.state.boot, some (runSession rt sid)⟩
      phase := .polling n }
  | reads {n : Nat} (phase : s.phase = .polling n) : Proceeds rt sid content s { s with
      phase := .checking (lastSequenceOf ((s.run.state.session.events.drop n).take 1000) n)
      yielded := s.yielded ++ (s.run.state.session.events.drop n).take 1000 }
  | finds {n : Nat} {r : Except Exn Unit} (phase : s.phase = .checking n)
      (done : s.taskResult = some r) : Proceeds rt sid content s { s with phase := .draining n }
  | sleeps {n : Nat} (phase : s.phase = .checking n) (unfinished : s.taskResult = none) :
      Proceeds rt sid content s { s with phase := .waiting n }
  | fails {n : Nat} {e : Exn} (phase : s.phase = .waiting n)
      (failed : s.taskResult = some (.error e)) (other : e.isTimeout = false) :
      Proceeds rt sid content s { s with phase := .raised e }
  | wakes {n : Nat} (phase : s.phase = .waiting n)
      (unfailed : ∀ e, s.taskResult = some (.error e) → e.isTimeout = true) :
      Proceeds rt sid content s { s with phase := .polling n }
  | drains {n : Nat} (phase : s.phase = .draining n) : Proceeds rt sid content s { s with
      phase := .ended s.taskResult
      yielded := s.yielded ++ (s.run.state.session.events.drop n).take 1000 }

theorem proceeds (stepped : s.proceed rt sid content = some s') :
    Proceeds rt sid content s s' := by
  cases phase : s.phase with
  | opening =>
      simp only [SendState.proceed, phase, SessionState.page_eq, Option.some.injEq] at stepped
      subst stepped
      exact .opens phase
  | speaking n =>
      simp only [SendState.proceed, phase] at stepped
      split at stepped
      · rename_i w event emitted
        cases stepped
        exact .speaks phase emitted
      · rename_i w e emitted
        cases stepped
        exact .refused phase emitted
  | launching n =>
      simp only [SendState.proceed, phase, Option.some.injEq] at stepped
      subst stepped
      exact .launches phase
  | polling n =>
      simp only [SendState.proceed, phase, eventsAfter_eq, yieldPage, Option.some.injEq]
        at stepped
      subst stepped
      exact .reads phase
  | checking n =>
      simp only [SendState.proceed, phase] at stepped
      split at stepped
      · rename_i r done
        cases stepped
        exact .finds phase done
      · rename_i unfinished
        cases stepped
        exact .sleeps phase unfinished
  | waiting n =>
      simp only [SendState.proceed, phase] at stepped
      split at stepped
      · rename_i e failed
        cases stepped
        cases timeout : e.isTimeout with
        | true =>
            refine .wakes phase fun e' failed' => ?_
            rw [failed] at failed'
            cases failed'
            exact timeout
        | false => exact .fails phase failed timeout
      · rename_i unfailed
        cases stepped
        exact .wakes phase fun e failed => absurd failed (unfailed e)
  | draining n =>
      simp only [SendState.proceed, phase, eventsAfter_eq, yieldPage, Option.some.injEq]
        at stepped
      subst stepped
      exact .drains phase
  | returned =>
      simp only [SendState.proceed, phase] at stepped
      cases stepped
  | raised e =>
      simp only [SendState.proceed, phase] at stepped
      cases stepped

section Streaming

variable {events before yielded : List Event}

/-- Nothing has been handed out at the start of the loop. -/
theorem streaming_start {own : Event} (uttered : own.utters content) :
    Streaming content (before ++ [own]) before [] (min before.length 1000) where
  own := ⟨own, [], rfl, uttered⟩
  from' := Nat.le_refl _
  to' := by
    rw [List.length_append]
    omega
  handed := by
    rw [eq_comm, List.drop_eq_nil_iff, List.length_take]
    exact Nat.min_le_left _ _

/-- A page is handed out in full. -/
theorem Streaming.page {session : SessionState}
    (h : Streaming content session.events before yielded n) :
    Streaming content session.events before (yielded ++ (session.events.drop n).take 1000)
      (lastSequenceOf ((session.events.drop n).take 1000) n) := by
  obtain ⟨own, start, fits, handed⟩ := h
  have bound : min before.length 1000 ≤ (session.events.take n).length := by
    rw [List.length_take, Nat.min_eq_left fits]
    exact start
  rw [lastSequenceOf_eq _ fits]
  refine ⟨own, by omega, Nat.min_le_right _ _, ?_⟩
  rw [← List.take_eq_take_min, List.take_add, List.drop_append_of_le_length bound, handed]

/-- The runtime only adds to what is still to be handed out. -/
theorem Streaming.grown (h : Streaming content events before yielded n) {events' : List Event}
    (grows : events <+: events') : Streaming content events' before yielded n := by
  obtain ⟨⟨own, rest, log, uttered⟩, start, fits, handed⟩ := h
  obtain ⟨tail, rfl⟩ := grows
  refine ⟨⟨own, rest ++ tail, by simp [log], uttered⟩, start, ?_, ?_⟩
  · rw [List.length_append]
    exact Nat.le_add_right_of_le fits
  · rw [List.take_append_of_le_length fits]
    exact handed

end Streaming

/-- The invariant only concerns the log. -/
theorem Invariant.grown (h : Invariant rt agents sid content s) {c : RunConfig}
    (alive : s.run.program ≠ none)
    (grows : s.run.state.session.events <+: c.state.session.events) :
    Invariant rt agents sid content { s with run := c } := by
  obtain ⟨run, phase, yielded, before⟩ := s
  cases phase with
  | opening => exact absurd h.1 alive
  | speaking n => exact absurd h.1 alive
  | launching n => exact absurd h.1 alive
  | polling n => exact Streaming.grown h grows
  | checking n => exact Streaming.grown h grows
  | waiting n => exact Streaming.grown h grows
  | draining n => exact Streaming.grown h grows
  | returned => trivial
  | raised e => trivial

theorem Invariant.proceed (h : Invariant rt agents sid content s)
    (stepped : s.proceed rt sid content = some s') : Invariant rt agents sid content s' := by
  cases proceeds stepped with
  | opens phase =>
      simp only [Invariant, phase] at h
      obtain ⟨idle, unchanged, nothing, sound⟩ := h
      refine ⟨idle, unchanged, nothing, ?_, sound⟩
      have cursor := lastSequenceOf_eq s.run.state.session (Nat.zero_le _)
      rw [List.drop_zero, Nat.zero_add, Nat.min_comm] at cursor
      rw [cursor, unchanged]
  | speaks phase emitted =>
      simp only [Invariant, phase] at h
      obtain ⟨idle, unchanged, nothing, rfl, g, sound⟩ := h
      have fresh : ∀ e ∈ s.run.state.session.events, e.id ≠ s.run.state.draw.2 := fun e mem same =>
        Nat.lt_irrefl _ (sound.draws e mem _ same)
      rcases s.run.state.draw.1.emit_cases s.run.state.draw.2 .userMessage
        (userPayload content) with ⟨e, h'⟩ | ⟨e, mem, same, h'⟩ | ⟨_, _, h'⟩
      · rw [h'] at emitted
        cases emitted
      · exact absurd same (fresh e mem)
      · rw [h'] at emitted
        cases emitted
        simp only [Invariant, ← unchanged, nothing]
        exact ⟨trivial, streaming_start ⟨rfl, rfl⟩⟩
  | refused => trivial
  | launches phase =>
      simp only [Invariant, phase] at h
      exact h.2
  | reads phase =>
      simp only [Invariant, phase] at h
      exact h.page
  | finds phase =>
      simp only [Invariant, phase] at h
      exact h
  | sleeps phase =>
      simp only [Invariant, phase] at h
      exact h
  | fails => trivial
  | wakes phase =>
      simp only [Invariant, phase] at h
      exact h
  | drains =>
      rcases s.taskResult with _ | e | u <;> trivial

/-- The invariant holds throughout every call. -/
theorem invariant_of_reachable
    (reachable : (sendSystem rt agents sid agentId content).Reachable s) :
    Invariant rt agents sid content s := by
  refine reachable.invariant ?_ ?_
  · rintro s ⟨history, idle, opening, nothing, before⟩
    obtain ⟨g, _, sound⟩ := sound_of_reachable history
    simp only [Invariant, opening]
    exact ⟨idle, before.symm, nothing, g, sound⟩
  · rintro s a s' h _ stepped
    cases a with
    | proceed => exact h.proceed stepped
    | harness answer =>
        obtain ⟨c, performed, rfl⟩ := Option.map_eq_some_iff.mp stepped
        change (runtimeProcess rt agents sid).step s.run (.respond answer) = some c at performed
        rcases Process.step_cases performed with ⟨other, _⟩ |
          ⟨_, o, k, w, r, _, alive, done, rfl⟩ | ⟨other, _⟩ | ⟨_, _, other, _⟩
        · cases other
        · exact h.grown (by simp [alive]) (World.perform_grows done)
        · rcases other with other | other <;> cases other
        · cases other

/-- The caller has received its own message and all that followed it, in order. -/
def Received (content : String) (s : SendState) : Prop :=
  ∃ own rest, s.run.state.session.events = s.before ++ own :: rest ∧ own.utters content ∧
    s.yielded = own :: rest

/-- With one page more, what has been handed out is the caller's message and all that
followed it exactly if neither that page nor the first one was too short. -/
theorem Streaming.received_iff {session : SessionState} {before yielded : List Event}
    (h : Streaming content session.events before yielded n) :
    (∃ own rest, session.events = before ++ own :: rest ∧ own.utters content ∧
      yielded ++ (session.events.drop n).take 1000 = own :: rest) ↔
      before.length ≤ 1000 ∧ session.events.length ≤ n + 1000 := by
  obtain ⟨⟨own, rest, log, uttered⟩, start, fits, handed⟩ := h
  have all : yielded ++ (session.events.drop n).take 1000 =
      (session.events.take (n + 1000)).drop (min before.length 1000) := by
    rw [List.take_add, List.drop_append_of_le_length, handed]
    rw [List.length_take, Nat.min_eq_left fits]
    exact start
  rw [all]
  constructor
  · rintro ⟨own', rest', log', _, received⟩
    have first : session.events[min before.length 1000]? = session.events[before.length]? := by
      have head := congrArg List.head? received
      rw [List.head?_drop, List.getElem?_take_of_lt (by omega)] at head
      rw [head, log']
      simp
    have short : before.length ≤ 1000 := by
      have bound : before.length < session.events.length := by simp [log']
      have same := (List.getElem?_inj (by omega) session.events_nodup).mp first
      omega
    refine ⟨short, ?_⟩
    have lengths := congrArg List.length received
    have total := congrArg List.length log'
    simp only [List.length_drop, List.length_take, List.length_append, List.length_cons]
      at lengths total
    omega
  · rintro ⟨short, left⟩
    refine ⟨own, rest, log, uttered, ?_⟩
    rw [List.take_of_length_le left, Nat.min_eq_left short, log]
    simp

/-- What a call knows when it is about to read the trailing events. -/
theorem streaming_of_draining
    (reachable : (sendSystem rt agents sid agentId content).Reachable s)
    (draining : s.phase = .draining n) :
    Streaming content s.run.state.session.events s.before s.yielded n := by
  have h := invariant_of_reachable reachable
  simpa only [Invariant, draining] using h

/-- The last read of a call whose runtime has finished normally. -/
theorem proceed_of_draining (draining : s.phase = .draining n)
    (finished : s.taskResult = some (.ok ())) :
    s.proceed rt sid content = some { s with
      phase := .returned
      yielded := s.yielded ++ (s.run.state.session.events.drop n).take 1000 } := by
  simp only [SendState.proceed, draining, eventsAfter_eq, yieldPage, finished, SendPhase.ended]

/-- A call whose runtime finishes normally receives exactly its own message and the
runtime's events if and only if the log was no longer than a page at the call, and
what is left for the last read is no longer than a page. -/
theorem send_received_iff (reachable : (sendSystem rt agents sid agentId content).Reachable s)
    (draining : s.phase = .draining n) (finished : s.taskResult = some (.ok ()))
    (stepped : s.proceed rt sid content = some s') :
    s'.phase = .returned ∧ (Received content s' ↔
      s.before.length ≤ 1000 ∧ s.run.state.session.events.length ≤ n + 1000) := by
  rw [proceed_of_draining draining finished, Option.some.injEq] at stepped
  subst stepped
  exact ⟨rfl, (streaming_of_draining reachable draining).received_iff⟩

end SendState

section Prompted

/-- A call on a new session, of an agent with a system prompt. -/
abbrev promptedSystem : Transition.System SendState SendAction :=
  sendSystem (.bare .roomy) (fun _ => some (.plain (some "Be brief."))) "s" "agent" "hello"

/-- The start of a call on a new session. -/
def SendState.fresh : SendState := ⟨⟨.create "s" "agent", none⟩, .opening, [], []⟩

theorem fresh_initial : promptedSystem.initial .fresh :=
  ⟨.of_initial ⟨rfl, rfl⟩, rfl, rfl, rfl, rfl⟩

/-- The steps of a call up to its first wait: it has handed out the user's message. -/
def untilWait : List SendAction :=
  [.proceed, .proceed, .proceed, .proceed, .proceed]

/-- The runtime adds the system prompt to the log and looks at the clock. -/
def promptLogged : List SendAction :=
  [.harness .done, .harness .done, .harness .done, .harness (.reads 0)]

/-- The model says something, and calls no tool. -/
def turnLogged : List SendAction :=
  [.harness .done, .harness .done, .harness (.streams ⟨[.textDelta "hi"], none⟩), .harness .done,
    .harness .done, .harness .done, .harness .done, .harness .done]

/-- The call reads the system prompt, and what the turn leaves with its last read. -/
theorem send_received_iff_new : ∃ s s' : SendState, promptedSystem.Reachable s ∧
    s.proceed (.bare .roomy) "s" "hello" = some s' ∧ s'.phase = .returned ∧
    s'.run.state.session.events.length = 4 ∧ SendState.Received "hello" s' := by
  obtain ⟨s, ran, facts⟩ := Option.map_eq_some_iff.mp (show
    (promptedSystem.run .fresh
      (untilWait ++ promptLogged ++ [.proceed, .proceed] ++ turnLogged ++ [.proceed])).map (fun s =>
        (s.phase, s.taskResult.map Except.toBool, s.before.length,
          s.run.state.session.events.length)) = some (.draining 2, some true, 0, 4)
      by decide +kernel)
  obtain ⟨draining, ended, before, length⟩ := by simpa only [Prod.mk.injEq] using facts
  obtain ⟨_ | _, finished, normal⟩ := Option.map_eq_some_iff.mp ended
  · cases normal
  have reachable : promptedSystem.Reachable s :=
    ⟨_, fresh_initial, Transition.System.later_of_run ran⟩
  have stepped := @SendState.proceed_of_draining (.bare .roomy) "s" "hello" s 2 draining finished
  obtain ⟨returned, received⟩ :=
    SendState.send_received_iff reachable draining finished stepped
  refine ⟨s, _, reachable, stepped, returned, length, received.mpr ?_⟩
  rw [length, before]
  constructor <;> decide

end Prompted

section LongLog

open SendState

variable {sid : SessionId} {agentId : AgentId} {content : String}

/-- The runtime is answered while the call stands where it is. -/
theorem sendSystem_harness {rt : Runtime} {agents : AgentId → Option Agent} {w w' : World} {o : Op}
    {r : Except Exn o.Res} {phase : SendPhase} {yielded before : List Event} (answer : Answer)
    (k : Except Exn o.Res → Harness Unit) (performed : w.perform agents o answer = some (w', r)) :
    (sendSystem rt agents sid agentId content).step ⟨⟨w, some (.op o k)⟩, phase, yielded, before⟩
      (.harness answer) = some ⟨⟨w', some (k r)⟩, phase, yielded, before⟩ :=
  congrArg (Option.map fun c => SendState.mk c phase yielded before)
    (@sessionSystem_respond rt agents sid agentId w w' o r answer k performed)

theorem aSecond_pos (d : Nat) (same : some 1 = some d) : 0 < d :=
  pos_of_some Nat.one_pos same

/-- A profile whose runs are over after a second. -/
def Profile.brief : Profile :=
  { Profile.roomy with stopConditions := .within (some 1) aSecond_pos }

/-- The runtime has finished normally without adding to the log, and the call is about
to read what is left. -/
structure AtEnd (before : List Event) (s : SendState) : Prop where
  since : s.before = before
  phase : ∃ n, s.phase = .draining n
  finished : s.taskResult = some (.ok ())
  length : s.run.state.session.events.length = before.length + 1

/-- A call on an active session can get to its last read without a word of the model. -/
theorem leads_to_end {w : World} {g : Stage} (sound : Sound (.bare .brief)
    (fun _ => some (.plain none)) sid w g) (active : w.session.row.status = .active)
    (small : (userPayload content).byteLength ≤ maxPayloadBytes) :
    (sendSystem (.bare .brief) (fun _ => some (.plain none)) sid agentId content).Leads
      (AtEnd w.session.events) ⟨⟨w, none⟩, .opening, [], w.session.events⟩ := by
  obtain ⟨fresh, emitted⟩ := World.emit_message sound active small
  have opened : SendState.proceed (.bare .brief) sid content
      ⟨⟨w, none⟩, .opening, [], w.session.events⟩ =
      some ⟨⟨w, none⟩, .speaking (lastSequenceOf (w.session.events.take 1000) 0), [],
        w.session.events⟩ := by
    simp only [SendState.proceed, SessionState.page_eq]
  have spoken : SendState.proceed (.bare .brief) sid content
      ⟨⟨w, none⟩, .speaking (lastSequenceOf (w.session.events.take 1000) 0), [],
        w.session.events⟩ =
      some ⟨⟨w.draw.1.append w.draw.2 .userMessage (userPayload content) fresh, none⟩,
        .launching (lastSequenceOf (w.session.events.take 1000) 0), [], w.session.events⟩ := by
    simp only [SendState.proceed, emitted]
  have length : (w.draw.1.append w.draw.2 .userMessage (userPayload content)
      fresh).boot.session.events.length = w.session.events.length + 1 := List.length_append
  generalize lastSequenceOf (w.session.events.take 1000) 0 = n at opened spoken
  generalize w.session.events = before at opened spoken length ⊢
  have live : (w.draw.1.append w.draw.2 .userMessage (userPayload content)
      fresh).boot.session.row.status = .active := active
  generalize w.draw.1.append w.draw.2 .userMessage (userPayload content) fresh = w'
    at spoken live length
  have woken : w'.boot.session.wake = .ok w'.boot.session.row := by
    simp [SessionState.wake, SessionState.isTerminal, Session.isTerminal, live]
  refine .step (a := .proceed) opened (.step (a := .proceed) spoken (.step (a := .proceed) rfl ?_))
  change Transition.System.Leads _ _
    (⟨⟨w'.boot, some (.op .wake _)⟩, .polling n, [], before⟩ : SendState)
  refine .step (sendSystem_harness .done _ (congrArg (fun r => some (w'.boot, r)) woken)) ?_
  change Transition.System.Leads _ _
    (⟨⟨w'.boot, some (.op (.getAgent _) _)⟩, .polling n, [], before⟩ : SendState)
  refine .step (sendSystem_harness .done _ rfl) ?_
  change Transition.System.Leads _ _
    (⟨⟨w'.boot, some (.op .monotonic _)⟩, .polling n, [], before⟩ : SendState)
  refine .step (sendSystem_harness (.reads 0) _ rfl) ?_
  change Transition.System.Leads _ _
    (⟨⟨w'.boot, some (.op .monotonic _)⟩, .polling n, [], before⟩ : SendState)
  refine .step (sendSystem_harness (.reads 2) _ rfl) ?_
  change Transition.System.Leads _ _ (⟨⟨w'.boot, some (((ite
    (decide ((2 : ℚ) - 0 > ((1 : Nat) : ℚ)) = true) _ _ : Harness StopReason).attempt.bind _).bind
      _)⟩, .polling n, [], before⟩ : SendState)
  rw [if_pos (by decide +kernel)]
  change Transition.System.Leads _ _
    (⟨⟨w'.boot, some (.op .markComplete _)⟩, .polling n, [], before⟩ : SendState)
  refine .step (sendSystem_harness .done _ rfl) ?_
  have completed : w'.boot.session.markComplete =
      ({ w'.boot.session with row := { w'.boot.session.row with status := .completed } },
        .ok .completed) := by
    simp [SessionState.markComplete, SessionState.isTerminal, Session.isTerminal, live]
  rw [completed]
  change Transition.System.Leads _ _ (⟨⟨_, some (.pure ())⟩, .polling n, [], before⟩ : SendState)
  exact .step (a := .proceed) (congrArg some (congrArg (fun page => yieldPage _ page _)
    (eventsAfter_eq _ n))) (.step (a := .proceed) rfl (.here ⟨rfl, ⟨_, rfl⟩, rfl, length⟩))

/-- On a log of more than a page the call starts with an old event. -/
theorem send_replays_old : ∃ s : SendState,
    (sendSystem (.bare .brief) (fun _ => some (.plain none)) "s" "agent" "hello").Reachable s ∧
    s.phase = .returned ∧ s.taskResult = some (.ok ()) ∧ ¬ Received "hello" s := by
  obtain ⟨w, reachable, active, _, users⟩ := @crowd_reachable (.bare .brief)
    (fun _ => some (.plain none)) "s" "agent" "hello" 1001 (by decide)
  obtain ⟨g, _, sound⟩ := sound_of_reachable reachable
  obtain ⟨s, later, before, ⟨n, draining⟩, finished, _⟩ :=
    @leads_to_end "s" "agent" "hello" w g sound active (by decide)
  have reachable' : (sendSystem (.bare .brief) (fun _ => some (.plain none)) "s" "agent"
      "hello").Reachable s := ⟨_, ⟨reachable, rfl, rfl, rfl, rfl⟩, later⟩
  have long : s.before.length = 1001 := by
    rw [before, users.length_eq, List.length_replicate]
  refine ⟨_, reachable'.step (a := .proceed) trivial (proceed_of_draining draining finished), rfl,
    finished, fun received => ?_⟩
  have short := ((streaming_of_draining reachable' draining).received_iff.mp received).1
  omega

end LongLog

end Tename
