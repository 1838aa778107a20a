import Tename.Harness.Sandboxes
import Tename.Harness.Transcript
import Tename.Harness.Truncation

/-!
# When a run stops

A run of the loop as the turns it is made of: a model call each, with what is performed up to
the next one. The loop stops after the first turn that calls no tool, whatever number of such
turns the profile asks for.
-/

namespace Tename

/-- A model call. -/
def Op.consults : Op → Bool
  | .complete .. => true
  | _ => false

/-- Neither a model call nor the event of a tool call or of its result. -/
def Op.neutral : Op → Bool
  | .complete .. => false
  | .emitEvent _ .toolCall _ => false
  | .emitEvent _ .toolResult _ => false
  | _ => true

/-- A model call, and what is performed up to the next one. -/
structure Turn where
  completion : Performed
  steps : List Performed

/-- What is performed before the first model call, and the turns that follow. -/
def turnsOf : List Performed → List Performed × List Turn
  | [] => ([], [])
  | x :: xs =>
      if x.op.consults then ([], ⟨x, (turnsOf xs).1⟩ :: (turnsOf xs).2)
      else (x :: (turnsOf xs).1, (turnsOf xs).2)

/-- The stream that a model call is answered with. -/
def answered? : Performed → Option ModelStream
  | ⟨.complete _ _, _, .ok stream⟩ => some stream
  | _ => none

/-- The tool call whose event has been emitted. -/
def emittedCall? : Performed → Option EventId
  | ⟨.emitEvent id .toolCall _, _, .ok _⟩ => some id
  | _ => none

/-- The tool call that the id of a result names. -/
def EventId.call? : EventId → Option EventId
  | .toolResult id => some id
  | _ => none

/-- The tool call whose result has been emitted. -/
def executedCall? : Performed → Option EventId
  | ⟨.emitEvent id .toolResult _, _, .ok _⟩ => id.call?
  | _ => none

def ModelChunk.isCall : ModelChunk → Bool
  | .toolCallEnd .. => true
  | _ => false

namespace ModelStream

variable (stream : ModelStream)

/-- The turn is cut off by an error chunk. -/
def cut : Bool := stream.chunks.any ModelChunk.isError

def calls : List ModelChunk := stream.chunks.filter ModelChunk.isCall

/-- The turn ends without a tool call. -/
def quiet : Bool := !stream.cut && stream.calls.isEmpty

end ModelStream

namespace Turn

variable (t : Turn)

def stream? : Option ModelStream := answered? t.completion

/-- A turn that is not cut off executes all calls of its stream, in order. -/
def Executes : Prop :=
  ∀ stream, t.stream? = some stream → stream.cut = false →
    (t.steps.filterMap emittedCall?).length = stream.calls.length ∧
    t.steps.filterMap executedCall? = t.steps.filterMap emittedCall?

end Turn

/-- The streams of a run, one for each turn. -/
def streamsOf (h : List Performed) : List ModelStream :=
  (turnsOf h).2.filterMap Turn.stream?

/-- The last `n` turns have ended without a tool call. -/
def LacksCalls (n : Nat) (streams : List ModelStream) : Prop :=
  ∃ before last, streams = before ++ last ∧ last.length = n ∧ ∀ s ∈ last, s.quiet = true

/-- The stop conditions of a profile, for a run of the loop that began at `startedAt`. A run that
an exception ends has not stopped, and its last turn need not be over. -/
structure FollowsStopRules (adapter : FrameworkAdapter) (profile : Profile) (startedAt : ℚ)
    (h : List Performed) (out : Except Exn StopReason) (w' : World) : Prop where
  lack : ∀ reason, out = .ok reason →
    (reason = .noToolCalls ↔ LacksCalls profile.stopConditions.noToolCallsFor (streamsOf h))
  sooner : ∀ streams, streams <+: streamsOf h → streams ≠ streamsOf h →
    ¬LacksCalls profile.stopConditions.noToolCallsFor streams
  maxTurns : out = .ok .maxTurns → (turnsOf h).2.length = profile.stopConditions.maxTurns
  maxDuration : out = .ok .maxDuration → ∃ limit now,
    profile.stopConditions.maxDurationSeconds = some limit ∧ now - startedAt > limit ∧
    h.getLast? = some ⟨.monotonic, .reads now, .ok now⟩
  modelError : out = .ok .modelError → ∃ stream, (streamsOf h).getLast? = some stream ∧
    stream.cut = true
  noUserTurn : out = .ok .noUserTurn →
    (adapter.buildContext (applyCompactionView w'.lastRead.page) profile).any (·.role = .user) =
      false
  budget : (turnsOf h).2.length ≤ profile.stopConditions.maxTurns
  executes : ∀ t ∈ (if out.isOk then (turnsOf h).2 else (turnsOf h).2.dropLast), t.Executes

section Turns

variable {h h' front : List Performed} {x : Performed}

theorem answered?_of_calm (calm : x.op.consults = false) : answered? x = none := by
  unfold answered?
  split
  · cases calm
  · rfl

theorem turnsOf_append (calm : ∀ x ∈ front, x.op.consults = false) :
    turnsOf (front ++ h) = (front ++ (turnsOf h).1, (turnsOf h).2) := by
  induction front with
  | nil => rfl
  | cons x front ih =>
      rw [List.forall_mem_cons] at calm
      rw [List.cons_append, turnsOf, calm.1, ih calm.2]
      rfl

theorem turnsOf_calm (calm : ∀ x ∈ front, x.op.consults = false) : turnsOf front = (front, []) := by
  have alone := turnsOf_append (h := []) calm
  rw [List.append_nil] at alone
  rw [alone, turnsOf, List.append_nil]

/-- The streams of a run, one for each model call that is answered. -/
theorem streamsOf_eq (h : List Performed) : streamsOf h = h.filterMap answered? := by
  induction h with
  | nil => rfl
  | cons x h ih =>
      rw [streamsOf] at ih
      rw [streamsOf, turnsOf, List.filterMap_cons]
      split
      · rw [List.filterMap_cons, Turn.stream?, ih]
      · rename_i silent
        rw [ih, answered?_of_calm (Bool.eq_false_iff.mpr silent)]

theorem streamsOf_between {before during after : List Performed}
    (calm : ∀ x ∈ before ++ after, x.op.consults = false) :
    streamsOf (before ++ during ++ after) = streamsOf during := by
  rw [List.forall_mem_append] at calm
  have silent {l : List Performed} (calm : ∀ x ∈ l, x.op.consults = false) :
      l.filterMap answered? = [] :=
    List.filterMap_eq_nil_iff.mpr fun x mem => answered?_of_calm (calm x mem)
  simp only [streamsOf_eq, List.filterMap_append, silent calm.1, silent calm.2, List.nil_append,
    List.append_nil]

theorem turnsOf_cons (asks : x.op.consults = true) :
    turnsOf (x :: h) = ([], ⟨x, (turnsOf h).1⟩ :: (turnsOf h).2) := by
  rw [turnsOf, if_pos asks]

theorem consults_of_plain {o : Op} (plain : o.neutral = true) : o.consults = false := by
  cases o with
  | complete => cases plain
  | _ => rfl

theorem emittedCall?_of_plain (plain : x.op.neutral = true) : emittedCall? x = none := by
  unfold emittedCall?
  split
  · cases plain
  · rfl

theorem executedCall?_of_plain (plain : x.op.neutral = true) : executedCall? x = none := by
  unfold executedCall?
  split
  · cases plain
  · rfl

theorem filterMap_of_plain (plain : ∀ x ∈ h, x.op.neutral = true) :
    h.filterMap emittedCall? = [] ∧ h.filterMap executedCall? = [] := by
  constructor
  · exact List.filterMap_eq_nil_iff.mpr fun x mem => emittedCall?_of_plain (plain x mem)
  · exact List.filterMap_eq_nil_iff.mpr fun x mem => executedCall?_of_plain (plain x mem)

end Turns

variable {rt : Runtime} {agents : AgentId → Option Agent} {sid : SessionId}
variable {agent : Agent} {profile : Profile} {adapter : FrameworkAdapter} {startedAt : ℚ}

section Plain

open Program (within_settle)

/-- The program performs plain operations only. -/
abbrev Plain {α : Type} (p : Harness α) : Prop :=
  p.Within fun o => o.neutral = true

theorem plain_perform {o : Op} (plain : o.neutral = true) : Plain (Program.perform o) :=
  Program.within_perform plain

theorem plain_overDuration (profile : Profile) (startedAt : ℚ) :
    Plain (overDuration profile startedAt) := by
  unfold overDuration
  split
  · trivial
  · exact (plain_perform rfl).bind fun _ => trivial

theorem plain_readEvents (sid : SessionId) (profile : Profile) :
    Plain (readEvents sid profile) := by
  refine (plain_perform (o := Op.getEvents) rfl).bind fun events => ?_
  split
  · refine Program.Within.bind ?_ fun _ => plain_perform rfl
    unfold emitCompaction
    split
    · trivial
    · exact (plain_perform rfl).bind fun _ => trivial
  · trivial

theorem plain_provisionSandbox (rt : Runtime) (sid : SessionId) (agent : Agent) :
    Plain (provisionSandbox rt sid agent) := by
  refine (within_settle _).bind fun recipe => ?_
  refine (plain_perform rfl).bind fun newId => ?_
  refine (plain_perform rfl).bind fun _ => ?_
  exact (plain_perform rfl).bind fun _ => trivial

theorem plain_getOrProvisionSandbox (rt : Runtime) (sid : SessionId) (agent : Agent) :
    Plain (getOrProvisionSandbox rt sid agent) := by
  refine (plain_perform (o := Op.getEvents) rfl).bind fun events => ?_
  split
  · exact plain_provisionSandbox rt sid agent
  · refine (plain_perform rfl).bind fun status => ?_
    split
    · exact (plain_perform rfl).bind fun _ => trivial
    · exact plain_provisionSandbox rt sid agent

theorem plain_toolPayload (rt : Runtime) (sid : SessionId) (agent : Agent) (call : PendingEvent) :
    Plain (toolPayload rt sid agent call) := by
  unfold toolPayload
  dsimp only
  split
  · refine (plain_getOrProvisionSandbox rt sid agent).attempt.bind fun r => ?_
    split
    · split <;> trivial
    · refine (plain_perform rfl).attempt.bind fun r => ?_
      split
      · split <;> trivial
      · trivial
  · split
    · exact (plain_perform rfl).bind fun _ => trivial
    · trivial

theorem plain_seed (sid : SessionId) (agent : Agent) :
    Plain (seedSystemPromptIfNeeded sid agent) := by
  unfold seedSystemPromptIfNeeded
  split
  · trivial
  · split
    · trivial
    · exact (plain_perform rfl).bind fun _ => trivial

theorem plain_destroySandboxes (rt : Runtime) : Plain (destroySandboxes rt) := by
  unfold destroySandboxes
  split
  · trivial
  · refine (plain_perform rfl).bind fun ids => Program.Within.forEach fun id => ?_
    refine (plain_perform rfl).attempt.bind fun r => ?_
    split
    · trivial
    · split <;> trivial

end Plain

section Parts

variable {w w' : World} {h : List Performed}

/-- The chunks with an event of their own are known by its type. -/
theorem isCall_of_chunkEvent (chunk : ModelChunk) :
    chunk.isCall = ((chunkEvent chunk).map Prod.fst = some .toolCall : Bool) ∧
      chunk.isError = ((chunkEvent chunk).map Prod.fst = some .error : Bool) := by
  cases chunk <;> exact ⟨rfl, rfl⟩

@[simp] theorem note_toolCalls (st : TurnState) (chunk : ModelChunk) :
    (st.note chunk).toolCalls = st.toolCalls := by
  cases chunk <;> rfl

@[simp] theorem note_errored (st : TurnState) (chunk : ModelChunk) :
    (st.note chunk).errored = st.errored := by
  cases chunk <;> rfl

theorem calm_streamChunks (adapter : FrameworkAdapter) (failure : Option Exn)
    (chunks : List ModelChunk) (st : TurnState) :
    (streamChunks adapter failure chunks st).Within fun o => o.consults = false := by
  induction chunks generalizing st with
  | nil => cases failure <;> trivial
  | cons chunk chunks ih =>
      rw [streamChunks]
      split
      · exact ih _
      · refine Program.Within.bind (Program.within_perform (o := Op.uuid4) rfl) fun id => ?_
        refine Program.Within.bind (Program.within_perform rfl) fun _ => ?_
        split
        · exact ih _
        · split
          · trivial
          · exact ih _

/-- The emission of a chunk's event. -/
theorem emission_steps {id : EventId} {type : EventType} {payload : Payload} {e : Event}
    (other : type ≠ .toolResult)
    (ran : Runs rt agents sid (Harness.emitEvent id type payload) w h (.ok e) w') :
    h.filterMap executedCall? = [] ∧
      h.filterMap emittedCall? = if type = .toolCall then [id] else [] := by
  replace ran : (runtimeProcess rt agents sid).Evaluates
    (Program.perform (Op.emitEvent id type payload)) w h (.ok e) w' := ran
  obtain ⟨w₁, answer, -, -, rfl⟩ := Process.evaluates_perform.mp ran
  cases type with
  | toolResult => exact absurd rfl other
  | _ => exact ⟨rfl, rfl⟩

theorem drawing_steps {id : EventId} (ran : Runs rt agents sid Harness.uuid4 w h (.ok id) w') :
    h.filterMap executedCall? = [] ∧ h.filterMap emittedCall? = [] := by
  replace ran : (runtimeProcess rt agents sid).Evaluates
    (Program.perform Op.uuid4) w h (.ok id) w' := ran
  obtain ⟨w₁, answer, -, -, rfl⟩ := Process.evaluates_perform.mp ran
  exact ⟨rfl, rfl⟩

theorem not_result_of_chunkEvent {chunk : ModelChunk} {type : EventType} {payload : Payload}
    (event : chunkEvent chunk = some (type, payload)) : type ≠ .toolResult := by
  cases chunk <;> cases event <;> decide

/-- What a stream that is read adds to the turn's calls, and what it emits. -/
structure StreamSteps (chunks : List ModelChunk) (st st' : TurnState)
    (h : List Performed) : Prop where
  executed : h.filterMap executedCall? = []
  emitted : ∃ calls, st'.toolCalls = st.toolCalls ++ calls ∧
    h.filterMap emittedCall? = calls.map PendingEvent.id ∧
    (chunks.any ModelChunk.isError = false →
      calls.length = (chunks.filter ModelChunk.isCall).length)
  errored : st'.errored = (st.errored || chunks.any ModelChunk.isError)

theorem streamChunks_steps (standard : Standard adapter) {failure : Option Exn}
    {chunks : List ModelChunk} {st st' : TurnState}
    (ran : Runs rt agents sid (streamChunks adapter failure chunks st) w h (.ok st') w') :
    StreamSteps chunks st st' h := by
  induction chunks generalizing st w h with
  | nil =>
      cases failure with
      | some e =>
          obtain ⟨-, impossible, -⟩ := Process.evaluates_throw.mp ran
          cases impossible
      | none =>
          obtain ⟨rfl, same, -⟩ := Process.evaluates_pure.mp ran
          cases same
          exact ⟨rfl, ⟨[], by simp, rfl, fun _ => rfl⟩, by simp⟩
  | cons chunk chunks ih =>
      obtain ⟨isCall, isError⟩ := isCall_of_chunkEvent chunk
      rw [streamChunks, standard.chunkToEvent] at ran
      cases event : chunkEvent chunk with
      | none =>
          rw [event] at ran isCall isError
          obtain ⟨executed, ⟨calls, added, emitted, all⟩, errored⟩ := ih ran
          refine ⟨executed, ⟨calls, by simpa using added, emitted, fun uncut => ?_⟩, ?_⟩
          · rw [List.any_cons, isError] at uncut
            rw [List.filter_cons, isCall]
            exact all uncut
          · rw [List.any_cons, isError, errored, note_errored]
            rfl
      | some event' =>
          obtain ⟨type, payload⟩ := event'
          rw [event] at ran isCall isError
          obtain ⟨id, _, _, w₁, rfl, drawn, rest⟩ := Process.evaluates_bind_ok.mp ran
          obtain ⟨e, h₁, h₂, w₂, rfl, emits, rest⟩ := Process.evaluates_bind_ok.mp rest
          obtain ⟨drawn₁, drawn₂⟩ := drawing_steps drawn
          obtain ⟨emits₁, emits₂⟩ := emission_steps (not_result_of_chunkEvent event) emits
          simp only [Option.map_some, Option.some.injEq] at isCall isError
          dsimp only at rest
          split at rest
          · rename_i call
            obtain ⟨executed, ⟨calls, added, emitted, all⟩, errored⟩ := ih rest
            obtain rfl : type = .toolCall := call
            refine ⟨by simp [drawn₁, emits₁, executed], ⟨⟨id, .toolCall, payload⟩ :: calls, ?_, ?_,
              fun uncut => ?_⟩, ?_⟩
            · rw [added, List.append_assoc]
              rfl
            · rw [List.filterMap_append, List.filterMap_append, drawn₂, emits₂, emitted]
              rfl
            · rw [List.any_cons, isError] at uncut
              rw [List.filter_cons, isCall, List.length_cons, all uncut]
              rfl
            · rw [List.any_cons, isError, errored]
              exact congrArg (· || _) (note_errored st chunk)
          · rename_i notCall
            split at rest
            · rename_i error
              obtain ⟨rfl, same, -⟩ := Process.evaluates_pure.mp rest
              cases same
              refine ⟨by simp [drawn₁, emits₁], ⟨[], by simp, ?_, fun uncut => ?_⟩, ?_⟩
              · simp [drawn₂, emits₂, notCall]
              · rw [List.any_cons, isError, decide_eq_true error] at uncut
                cases uncut
              · rw [List.any_cons, isError, decide_eq_true error]
                simp
            · rename_i notError
              obtain ⟨executed, ⟨calls, added, emitted, all⟩, errored⟩ := ih rest
              refine ⟨by simp [drawn₁, emits₁, executed], ⟨calls, ?_, ?_, fun uncut => ?_⟩, ?_⟩
              · rw [added, note_toolCalls]
              · simp [drawn₂, emits₂, notCall, emitted]
              · rw [List.any_cons, isError, decide_eq_false notError] at uncut
                rw [List.filter_cons, isCall, decide_eq_false notCall]
                exact all uncut
              · rw [List.any_cons, isError, decide_eq_false notError, errored, note_errored]
                rfl

theorem evaluates_complete {messages : List Message} {tools : Option (List ToolDef)}
    {out : Except Exn ModelStream}
    (ran : Runs rt agents sid (Harness.complete messages tools) w h out w') :
    ∃ answer, h = [⟨.complete messages tools, answer, out⟩] := by
  replace ran : (runtimeProcess rt agents sid).Evaluates
    (Program.perform (Op.complete messages tools)) w h out w' := ran
  obtain ⟨w₁, answer, -, -, rfl⟩ := Process.evaluates_perform.mp ran
  exact ⟨answer, rfl⟩

/-- A turn asks the model once, first. -/
theorem runTurn_asks {messages : List Message} {tools : List ToolDef} {out : Except Exn TurnState}
    (ran : Runs rt agents sid (runTurn adapter messages tools) w h out w') :
    ∃ c steps, h = c :: steps ∧ c.op.consults = true ∧ ∀ x ∈ steps, x.op.consults = false := by
  rcases Process.evaluates_bind.mp ran with ⟨e, rfl, asked⟩ | ⟨stream, _, h₂, w₁, rfl, asked, rest⟩
  · obtain ⟨answer, rfl⟩ := evaluates_complete asked
    exact ⟨_, [], rfl, rfl, by simp⟩
  · obtain ⟨answer, rfl⟩ := evaluates_complete asked
    refine ⟨_, h₂, rfl, rfl, rest.within (A := fun o => o.consults = false) ?_⟩
    refine (calm_streamChunks adapter _ _ _).bind fun st => ?_
    split
    · refine Program.Within.bind (Program.within_perform (o := Op.uuid4) rfl) fun id => ?_
      exact Program.Within.bind (Program.within_perform rfl) fun _ => trivial
    · trivial

/-- A turn that is over has emitted the calls of its stream. -/
theorem runTurn_steps (standard : Standard adapter) {messages : List Message}
    {tools : List ToolDef} {st : TurnState} {c : Performed} {steps : List Performed}
    (ran : Runs rt agents sid (runTurn adapter messages tools) w (c :: steps) (.ok st) w') :
    ∃ stream, answered? c = some stream ∧ st.errored = stream.cut ∧
      steps.filterMap executedCall? = [] ∧
      steps.filterMap emittedCall? = st.toolCalls.map PendingEvent.id ∧
      (stream.cut = false → st.toolCalls.length = stream.calls.length) := by
  obtain ⟨stream, _, h₂, w₁, same, asked, rest⟩ := Process.evaluates_bind_ok.mp ran
  obtain ⟨answer, rfl⟩ := evaluates_complete asked
  obtain ⟨rfl, rfl⟩ := List.cons.inj same
  obtain ⟨st₁, h₃, h₄, w₂, rfl, streams, closes⟩ := Process.evaluates_bind_ok.mp rest
  obtain ⟨executed, ⟨calls, added, emitted, all⟩, errored⟩ := streamChunks_steps standard streams
  have added : st₁.toolCalls = calls := added
  have closed : st = st₁ ∧ h₄.filterMap executedCall? = [] ∧ h₄.filterMap emittedCall? = [] := by
    split at closes
    · obtain ⟨id, _, _, w₃, rfl, drawn, closes⟩ := Process.evaluates_bind_ok.mp closes
      obtain ⟨e, _, _, w₄, rfl, emits, closes⟩ := Process.evaluates_bind_ok.mp closes
      obtain ⟨rfl, done, -⟩ := Process.evaluates_pure.mp closes
      obtain ⟨drawn₁, drawn₂⟩ := drawing_steps drawn
      obtain ⟨emits₁, emits₂⟩ := emission_steps (by decide) emits
      exact ⟨Except.ok.inj done, by simp [drawn₁, emits₁], by simp [drawn₂, emits₂]⟩
    · obtain ⟨rfl, done, -⟩ := Process.evaluates_pure.mp closes
      exact ⟨Except.ok.inj done, rfl, rfl⟩
  obtain ⟨rfl, closed₁, closed₂⟩ := closed
  refine ⟨stream, rfl, errored, ?_, ?_, fun uncut => ?_⟩
  · rw [List.filterMap_append, executed, closed₁]
    rfl
  · rw [List.filterMap_append, emitted, closed₂, List.append_nil, added]
  · rw [added]
    exact all uncut

theorem calm_executeToolCalls (rt : Runtime) (sid : SessionId) (agent : Agent)
    (calls : List PendingEvent) :
    (executeToolCalls rt sid agent calls).Within fun o => o.consults = false := by
  refine Program.Within.forEach fun call => ?_
  have calm := (plain_toolPayload rt sid agent call).mono fun o => consults_of_plain
  refine calm.bind fun payload => ?_
  exact Program.Within.bind (Program.within_perform rfl) fun _ => trivial

/-- The loop over a turn's calls that goes through has executed them all. -/
theorem executeToolCalls_steps {calls : List PendingEvent}
    (ran : Runs rt agents sid (executeToolCalls rt sid agent calls) w h (.ok ()) w') :
    h.filterMap executedCall? = calls.map PendingEvent.id ∧ h.filterMap emittedCall? = [] := by
  induction calls generalizing w h with
  | nil =>
      obtain ⟨rfl, -, -⟩ := Process.evaluates_pure.mp ran
      exact ⟨rfl, rfl⟩
  | cons call calls ih =>
      obtain ⟨_, _, h₂, w₁, rfl, first, rest⟩ := Process.evaluates_bind_ok.mp ran
      obtain ⟨executed, emitted⟩ := ih rest
      obtain ⟨payload, h₃, _, w₂, rfl, ends, records⟩ := Process.evaluates_bind_ok.mp first
      obtain ⟨e, h₄, _, w₃, rfl, emits, done⟩ := Process.evaluates_bind_ok.mp records
      obtain ⟨rfl, -, -⟩ := Process.evaluates_pure.mp done
      obtain ⟨plain₁, plain₂⟩ :=
        filterMap_of_plain (ends.within (plain_toolPayload rt sid agent call))
      replace emits : (runtimeProcess rt agents sid).Evaluates
        (Program.perform (Op.emitEvent (.toolResult call.id) .toolResult payload)) w₂ h₄
          (.ok e) w₃ := emits
      obtain ⟨w₄, answer, -, -, rfl⟩ := Process.evaluates_perform.mp emits
      refine ⟨?_, ?_⟩
      · simp only [List.filterMap_append, plain₂, executed]
        rfl
      · simp only [List.filterMap_append, plain₁, emitted]
        rfl

/-- A clock that says that the time is up is the last thing that is read. -/
theorem overDuration_true (ran : Runs rt agents sid (overDuration profile startedAt) w h
      (.ok true) w') :
    ∃ limit now, profile.stopConditions.maxDurationSeconds = some limit ∧ now - startedAt > limit ∧
      h = [⟨.monotonic, .reads now, .ok now⟩] := by
  unfold overDuration at ran
  split at ran
  · obtain ⟨-, impossible, -⟩ := Process.evaluates_pure.mp ran
    cases impossible
  · rename_i limit bounded
    obtain ⟨now, h₁, _, w₁, rfl, reads, rest⟩ := Process.evaluates_bind_ok.mp ran
    obtain ⟨rfl, same, -⟩ := Process.evaluates_pure.mp rest
    replace reads : (runtimeProcess rt agents sid).Evaluates (Program.perform Op.monotonic) w h₁
      (.ok now) w₁ := reads
    obtain ⟨w₂, answer, -, performed, rfl⟩ := Process.evaluates_perform.mp reads
    refine ⟨limit, now, bounded, ?_, ?_⟩
    · exact of_decide_eq_true (Except.ok.inj same).symm
    · cases answer with
      | reads clock =>
          cases performed
          rfl
      | _ => cases performed

end Parts

section Loop

variable {w w' : World} {h : List Performed} {out : Except Exn StopReason} {turns : Nat}

/-- What a run of the loop with some turns left does. -/
structure LoopSpec (adapter : FrameworkAdapter) (profile : Profile) (startedAt : ℚ) (turns : Nat)
    (h : List Performed) (out : Except Exn StopReason) (w' : World) : Prop where
  plain : ((turnsOf h).1.filterMap emittedCall? = [] ∧ (turnsOf h).1.filterMap executedCall? = [])
  budget : (turnsOf h).2.length ≤ turns
  calling : ∀ stream ∈ (streamsOf h).dropLast, stream.quiet = false
  lack : ∀ reason, out = .ok reason →
    (reason = .noToolCalls ↔ ∃ stream, (streamsOf h).getLast? = some stream ∧ stream.quiet = true)
  maxTurns : out = .ok .maxTurns → (turnsOf h).2.length = turns
  maxDuration : out = .ok .maxDuration → ∃ limit now,
    profile.stopConditions.maxDurationSeconds = some limit ∧ now - startedAt > limit ∧
    h.getLast? = some ⟨.monotonic, .reads now, .ok now⟩
  modelError : out = .ok .modelError → ∃ stream, (streamsOf h).getLast? = some stream ∧
    stream.cut = true
  executes : ∀ t ∈ (if out.isOk then (turnsOf h).2 else (turnsOf h).2.dropLast), t.Executes

variable {front steps : List Performed} {c : Performed}

theorem turnsOf_turn (calm : ∀ x ∈ front, x.op.consults = false) (asks : c.op.consults = true)
    (rest : List Performed) : turnsOf (front ++ c :: rest) =
      (front, ⟨c, (turnsOf rest).1⟩ :: (turnsOf rest).2) := by
  rw [turnsOf_append calm, turnsOf_cons asks, List.append_nil]

theorem streamsOf_turn (calm : ∀ x ∈ front, x.op.consults = false) (asks : c.op.consults = true)
    (rest : List Performed) :
    streamsOf (front ++ c :: rest) = (answered? c).toList ++ streamsOf rest := by
  rw [streamsOf, turnsOf_turn calm asks, List.filterMap_cons, Turn.stream?]
  cases answered? c <;> rfl

theorem calm_of_plain (plain : ∀ x ∈ front, x.op.neutral = true) :
    ∀ x ∈ front, x.op.consults = false :=
  fun x mem => consults_of_plain (plain x mem)

/-- The loop ends without another turn. -/
theorem LoopSpec.halt (plain : ∀ x ∈ h, x.op.neutral = true)
    (reasons : ∀ reason, out = .ok reason → reason ≠ .noToolCalls ∧ reason ≠ .modelError ∧
      (reason = .maxTurns → turns = 0))
    (duration : out = .ok .maxDuration → ∃ limit now,
      profile.stopConditions.maxDurationSeconds = some limit ∧ now - startedAt > limit ∧
      h.getLast? = some ⟨.monotonic, .reads now, .ok now⟩) :
    LoopSpec adapter profile startedAt turns h out w' := by
  have alone := turnsOf_calm (calm_of_plain plain)
  have none : streamsOf h = [] := by
    rw [streamsOf, alone]
    rfl
  refine ⟨by rw [alone]; exact filterMap_of_plain plain, by simp [alone], by simp [none], ?_, ?_,
    duration, ?_, by simp [alone]⟩
  · intro reason returned
    exact iff_of_false (reasons reason returned).1 (by simp [none])
  · intro returned
    rw [alone, (reasons _ returned).2.2 rfl]
    rfl
  · exact fun returned => absurd rfl (reasons _ returned).2.1

/-- The loop ends with a turn. -/
theorem LoopSpec.last (plain : ∀ x ∈ front, x.op.neutral = true) (asks : c.op.consults = true)
    (calm : ∀ x ∈ steps, x.op.consults = false)
    (reasons : ∀ reason, out = .ok reason → ∃ stream, answered? c = some stream ∧
      (reason = .noToolCalls ↔ stream.quiet = true) ∧ (reason = .modelError → stream.cut = true) ∧
      reason ≠ .maxTurns ∧ reason ≠ .maxDuration ∧ (⟨c, steps⟩ : Turn).Executes) :
    LoopSpec adapter profile startedAt (turns + 1) (front ++ c :: steps) out w' := by
  have whole := turnsOf_turn (calm_of_plain plain) asks steps
  have streams := streamsOf_turn (calm_of_plain plain) asks steps
  have none : streamsOf steps = [] := by
    rw [streamsOf, turnsOf_calm calm]
    rfl
  rw [turnsOf_calm calm] at whole
  rw [none, List.append_nil] at streams
  refine ⟨by rw [whole]; exact filterMap_of_plain plain, by simp [whole], ?_, ?_, ?_, ?_, ?_, ?_⟩
  · rw [streams]
    cases answered? c <;> simp
  · intro reason returned
    obtain ⟨stream, answered, lack, -⟩ := reasons reason returned
    rw [streams, answered, lack]
    simp
  · intro returned
    obtain ⟨stream, -, -, -, other, -⟩ := reasons _ returned
    exact absurd rfl other
  · intro returned
    obtain ⟨stream, -, -, -, -, other, -⟩ := reasons _ returned
    exact absurd rfl other
  · intro returned
    obtain ⟨stream, answered, -, cut, -⟩ := reasons _ returned
    exact ⟨stream, by rw [streams, answered]; rfl, cut rfl⟩
  · intro t mem
    cases out with
    | error e => simp [whole, Except.isOk, Except.toBool] at mem
    | ok reason =>
        obtain ⟨stream, -, -, -, -, -, executes⟩ := reasons _ rfl
        have mem : t ∈ (turnsOf (front ++ c :: steps)).2 := mem
        rw [whole, List.mem_singleton] at mem
        rw [mem]
        exact executes

theorem mem_dropLast_cons {α : Type} {a b : α} {l : List α} (mem : b ∈ (a :: l).dropLast) :
    b = a ∨ b ∈ l.dropLast := by
  cases l with
  | nil => cases mem
  | cons c l => rwa [List.dropLast_cons_cons, List.mem_cons] at mem

/-- The loop goes on after a turn. -/
theorem LoopSpec.next {stream : ModelStream} (plain : ∀ x ∈ front, x.op.neutral = true)
    (asks : c.op.consults = true) (calm : ∀ x ∈ steps, x.op.consults = false)
    (answered : answered? c = some stream) (calls : stream.quiet = false)
    (executes : (⟨c, steps⟩ : Turn).Executes)
    (rest : LoopSpec adapter profile startedAt turns h out w') :
    LoopSpec adapter profile startedAt (turns + 1) (front ++ c :: (steps ++ h)) out w' := by
  have whole := turnsOf_turn (calm_of_plain plain) asks (steps ++ h)
  have streams := streamsOf_turn (calm_of_plain plain) asks (steps ++ h)
  have more : streamsOf (steps ++ h) = streamsOf h := by
    rw [streamsOf, turnsOf_append calm, streamsOf]
  rw [turnsOf_append calm] at whole
  rw [more, answered] at streams
  change _ = stream :: streamsOf h at streams
  have later : ∀ s, (streamsOf h).getLast? = some s →
      (streamsOf (front ++ c :: (steps ++ h))).getLast? = some s := by
    intro s last
    rw [streams, List.getLast?_cons, last]
    rfl
  have first : (⟨c, steps ++ (turnsOf h).1⟩ : Turn).Executes := by
    intro stream' same uncut
    obtain ⟨all, answers⟩ := executes stream' same uncut
    simp only [List.filterMap_append, rest.plain.1, rest.plain.2, List.append_nil]
    exact ⟨all, answers⟩
  refine ⟨?_, ?_, ?_, ?_, ?_, ?_, ?_, ?_⟩
  · rw [whole]
    exact filterMap_of_plain plain
  · rw [whole, List.length_cons]
    exact Nat.succ_le_succ rest.budget
  · intro s mem
    rw [streams] at mem
    rcases mem_dropLast_cons mem with rfl | mem
    · exact calls
    · exact rest.calling s mem
  · intro reason returned
    refine (rest.lack reason returned).trans ⟨fun ⟨s, last, quiet⟩ => ⟨s, later s last, quiet⟩, ?_⟩
    rintro ⟨s, last, quiet⟩
    rw [streams, List.getLast?_cons] at last
    obtain rfl := Option.some.inj last
    cases following : (streamsOf h).getLast? with
    | none =>
        rw [following, Option.getD_none, calls] at quiet
        cases quiet
    | some s =>
        rw [following] at quiet
        exact ⟨s, rfl, quiet⟩
  · intro returned
    rw [whole, List.length_cons, rest.maxTurns returned]
  · intro returned
    obtain ⟨limit, now, bounded, late, last⟩ := rest.maxDuration returned
    refine ⟨limit, now, bounded, late, ?_⟩
    have split : front ++ c :: (steps ++ h) = (front ++ c :: steps) ++ h := by simp
    rw [split, List.getLast?_append, last]
    rfl
  · intro returned
    obtain ⟨s, last, cut⟩ := rest.modelError returned
    exact ⟨s, later s last, cut⟩
  · intro t mem
    rw [whole] at mem
    have others := rest.executes
    cases out with
    | ok reason =>
        rcases List.mem_cons.mp mem with rfl | mem
        · exact first
        · exact others t mem
    | error e =>
        have mem : t ∈ (⟨c, steps ++ (turnsOf h).1⟩ :: (turnsOf h).2).dropLast := mem
        rcases mem_dropLast_cons mem with rfl | mem
        · exact first
        · exact others t mem

/-- A turn, and what the loop does after it. -/
theorem turn_spec (standard : Standard adapter) {messages : List Message} {tools : List ToolDef}
    (plain : ∀ x ∈ front, x.op.neutral = true)
    (later : ∀ {w h}, Runs rt agents sid (runTurns rt sid agent profile adapter startedAt turns)
      w h out w' → LoopSpec adapter profile startedAt turns h out w')
    (ran : Runs rt agents sid (do
        let result ← runTurn adapter messages tools
        if result.errored then pure .modelError
        else if result.toolCalls.isEmpty then pure .noToolCalls
        else do
          executeToolCalls rt sid agent result.toolCalls
          runTurns rt sid agent profile adapter startedAt turns) w h out w') :
    LoopSpec adapter profile startedAt (turns + 1) (front ++ h) out w' := by
  rcases Process.evaluates_bind.mp ran with
    ⟨e, rfl, raised⟩ | ⟨st, _, h₄, w₃, rfl, turned, acts⟩
  · obtain ⟨c, steps, rfl, asks, calm⟩ := runTurn_asks raised
    exact .last plain asks calm nofun
  obtain ⟨c, steps, rfl, asks, calm⟩ := runTurn_asks turned
  obtain ⟨stream, answered, errored, executed, emitted, all⟩ := runTurn_steps standard turned
  rw [List.cons_append]
  split at acts
  · rename_i errs
    obtain ⟨rfl, rfl, -⟩ := Process.evaluates_pure.mp acts
    rw [List.append_nil]
    refine .last plain asks calm ?_
    intro reason returned
    cases returned
    have cut : stream.cut = true := errored.symm.trans errs
    refine ⟨stream, answered, iff_of_false nofun ?_, fun _ => cut, nofun, nofun, ?_⟩
    · rw [ModelStream.quiet, cut]
      exact nofun
    · intro stream' same uncut
      obtain rfl := Option.some.inj (answered.symm.trans same)
      rw [cut] at uncut
      cases uncut
  rename_i sound
  have uncut : stream.cut = false := errored.symm.trans (Bool.eq_false_iff.mpr sound)
  have count := all uncut
  split at acts
  · rename_i silent
    obtain ⟨rfl, rfl, -⟩ := Process.evaluates_pure.mp acts
    rw [List.append_nil]
    rw [List.isEmpty_iff] at silent
    rw [silent] at emitted count
    have quiet : stream.quiet = true := by
      rw [ModelStream.quiet, uncut, List.length_eq_zero_iff.mp count.symm]
      rfl
    refine .last plain asks calm ?_
    intro reason returned
    cases returned
    refine ⟨stream, answered, iff_of_true rfl quiet, nofun, nofun, nofun, ?_⟩
    intro stream' same _
    obtain rfl := Option.some.inj (answered.symm.trans same)
    rw [executed, emitted]
    exact ⟨count, rfl⟩
  rename_i speaks
  have calls : stream.quiet = false := by
    rw [ModelStream.quiet, uncut]
    refine Bool.eq_false_iff.mpr fun none => speaks ?_
    have zero := List.length_eq_zero_iff.mpr (List.isEmpty_iff.mp none)
    exact List.isEmpty_iff.mpr (List.length_eq_zero_iff.mp (count.trans zero))
  rcases Process.evaluates_bind.mp acts with
    ⟨e, rfl, raised⟩ | ⟨_, h₅, h₆, w₄, rfl, answers, next⟩
  · refine .last plain asks (List.forall_mem_append.mpr ⟨calm, ?_⟩) nofun
    exact raised.within (calm_executeToolCalls rt sid agent st.toolCalls)
  have calm₅ := answers.within (calm_executeToolCalls rt sid agent st.toolCalls)
  obtain ⟨executed₅, emitted₅⟩ := executeToolCalls_steps answers
  rw [← List.append_assoc steps]
  refine .next plain asks (List.forall_mem_append.mpr ⟨calm, calm₅⟩) answered calls ?_ (later next)
  intro stream' same _
  obtain rfl := Option.some.inj (answered.symm.trans same)
  simp only [List.filterMap_append, executed, executed₅, emitted, emitted₅, List.append_nil,
    List.nil_append, List.length_map]
  exact ⟨count, trivial⟩

/-- Whatever the loop is answered, it makes its turns by the rules of `LoopSpec`. -/
theorem runTurns_spec (standard : Standard adapter)
    (ran : Runs rt agents sid (runTurns rt sid agent profile adapter startedAt turns) w h out w') :
    LoopSpec adapter profile startedAt turns h out w' := by
  induction turns generalizing w h with
  | zero =>
      obtain ⟨rfl, rfl, -⟩ := Process.evaluates_pure.mp ran
      refine .halt (by simp) ?_ fun impossible => by cases impossible
      intro reason returned
      cases returned
      exact ⟨nofun, nofun, fun _ => rfl⟩
  | succ turns ih =>
      rcases Process.evaluates_bind.mp ran with
        ⟨e, rfl, raised⟩ | ⟨late, h₁, _, w₁, rfl, timed, rest⟩
      · refine .halt (raised.within (plain_overDuration profile startedAt)) ?_ ?_
        · exact fun _ impossible => by cases impossible
        · exact fun impossible => by cases impossible
      have plain₁ := timed.within (plain_overDuration profile startedAt)
      split at rest
      · rename_i up
        obtain ⟨rfl, rfl, -⟩ := Process.evaluates_pure.mp rest
        rw [up] at timed
        obtain ⟨limit, now, bounded, past, rfl⟩ := overDuration_true timed
        rw [List.append_nil]
        refine .halt plain₁ ?_ fun _ => ⟨limit, now, bounded, past, rfl⟩
        intro reason returned
        cases returned
        exact ⟨nofun, nofun, nofun⟩
      rcases Process.evaluates_bind.mp rest with
        ⟨e, rfl, raised⟩ | ⟨events, h₂, _, w₂, rfl, reads, rest⟩
      · refine .halt ?_ nofun nofun
        exact List.forall_mem_append.mpr ⟨plain₁, raised.within (plain_readEvents sid profile)⟩
      have plain₂ := reads.within (plain_readEvents sid profile)
      have plain : ∀ x ∈ h₁ ++ h₂, x.op.neutral = true :=
        List.forall_mem_append.mpr ⟨plain₁, plain₂⟩
      rw [← List.append_assoc]
      dsimp only at rest
      split at rest
      · obtain ⟨rfl, rfl, -⟩ := Process.evaluates_pure.mp rest
        rw [List.append_nil]
        refine .halt plain ?_ nofun
        intro reason returned
        cases returned
        exact ⟨nofun, nofun, nofun⟩
      exact turn_spec standard plain ih rest

end Loop

section Rules

variable {w w' : World} {h : List Performed} {out : Except Exn StopReason}

/-- A list that ends in a quiet stream after others that are not. -/
theorem lacksCalls_iff {n : Nat} {streams : List ModelStream} (positive : 1 ≤ n)
    (calling : ∀ s ∈ streams.dropLast, s.quiet = false) :
    LacksCalls n streams ↔ n = 1 ∧ ∃ s, streams.getLast? = some s ∧ s.quiet = true := by
  constructor
  · rintro ⟨before, last, rfl, length, quiet⟩
    obtain ⟨front, s, rfl⟩ := List.eq_nil_or_concat' last |>.resolve_left (by
      rintro rfl
      rw [← length] at positive
      exact absurd positive (by decide))
    rw [← List.append_assoc, List.dropLast_concat] at calling
    have none : front = [] := by
      refine List.eq_nil_iff_forall_not_mem.mpr fun s' mem => ?_
      have quiet' := quiet s' (List.mem_append_left _ mem)
      rw [calling s' (List.mem_append_right _ mem)] at quiet'
      cases quiet'
    refine ⟨by rw [← length, none]; rfl, s, by simp, quiet s (by simp)⟩
  · rintro ⟨rfl, s, last, quiet⟩
    obtain ⟨before, rfl⟩ := List.getLast?_eq_some_iff.mp last
    exact ⟨before, [s], rfl, rfl, by simpa using quiet⟩

/-- A run of the loop follows the stop conditions exactly if it is to stop after one turn
without a tool call, or has no such turn. -/
theorem followsStopRules_iff {startedAt : ℚ}
    (spec : LoopSpec adapter profile startedAt profile.stopConditions.maxTurns h out w')
    (asked : out = .ok .noUserTurn →
      (adapter.buildContext (applyCompactionView w'.lastRead.page) profile).any (·.role = .user) =
        false) :
    FollowsStopRules adapter profile startedAt h out w' ↔
      profile.stopConditions.noToolCallsFor = 1 ∨
        ∀ reason, out = .ok reason → ∀ stream ∈ streamsOf h, stream.quiet = false := by
  have positive := profile.stopConditions.noToolCallsFor_pos
  have lacks := lacksCalls_iff positive spec.calling
  constructor
  · intro follows
    by_cases one : profile.stopConditions.noToolCallsFor = 1
    · exact .inl one
    · refine .inr fun reason returned stream mem => ?_
      have never : ¬∃ s, (streamsOf h).getLast? = some s ∧ s.quiet = true := by
        rw [← spec.lack reason returned, follows.lack reason returned, lacks]
        exact fun both => one both.1
      obtain ⟨before, s, same⟩ := List.eq_nil_or_concat' (streamsOf h) |>.resolve_left
        (List.ne_nil_of_mem mem)
      have calling := spec.calling
      rw [same, List.dropLast_concat] at calling
      rw [same] at mem never
      rcases List.mem_append.mp mem with earlier | last
      · exact calling stream earlier
      · obtain rfl := List.mem_singleton.mp last
        exact Bool.eq_false_iff.mpr fun quiet => never ⟨stream, by simp, quiet⟩
  · intro condition
    refine ⟨fun reason returned => ?_, ?_, spec.maxTurns, spec.maxDuration, spec.modelError, asked,
      spec.budget, spec.executes⟩
    · rw [spec.lack reason returned, lacks]
      refine ⟨fun quiet => ⟨?_, quiet⟩, And.right⟩
      rcases condition with one | none
      · exact one
      · obtain ⟨s, last, quiet⟩ := quiet
        rw [none reason returned s (List.mem_of_getLast? last)] at quiet
        cases quiet
    · -- A turn that is not the last one has called a tool.
      rintro streams begins proper ⟨before, last, rfl, length, quiet⟩
      obtain ⟨rest, same⟩ := begins
      have more : rest ≠ [] := by
        rintro rfl
        exact proper (by rw [← same, List.append_nil])
      have some' : last ≠ [] := by
        rintro rfl
        rw [← length] at positive
        exact absurd positive (by decide)
      obtain ⟨s, mem⟩ := List.exists_mem_of_ne_nil _ some'
      have calling := spec.calling s (by
        rw [← same, List.dropLast_append_of_ne_nil more]
        exact List.mem_append_left _ (List.mem_append_right _ mem))
      rw [quiet s mem] at calling
      cases calling

end Rules

section Sessions

variable {w w' : World} {h : List Performed} {out : Except Exn Unit}

variable (rt agents sid) in
/-- A run of `run_session` that comes to its loop: the loop of the agent the session belongs to,
with the profile and the adapter this agent names, in time counted from the reading of the clock
just before it. -/
structure LoopedRun (w : World) (h : List Performed) (out : Except Exn Unit) where
  session : Session
  agent : Agent
  profile : Profile
  adapter : FrameworkAdapter
  startedAt : ℚ
  seeding : List Performed
  during : List Performed
  after : List Performed
  reason : Except Exn StopReason
  entered : World
  left : World
  performed : h = ⟨.wake, .done, .ok session⟩ :: ⟨.getAgent session.agentId, .done, .ok agent⟩ ::
    (seeding ++ ⟨.monotonic, .reads startedAt, .ok startedAt⟩ :: (during ++ after))
  own : session.agentId = w.session.row.agentId
  known : agents session.agentId = some agent
  loaded : rt.loadProfile agent.model = .ok profile
  adapts : rt.getAdapter agent.framework = .ok adapter
  seeds : ∃ w₁ w₂, Runs rt agents sid (seedSystemPromptIfNeeded sid agent) w₁ seeding (.ok ()) w₂
  loops : Runs rt agents sid (runTurns rt sid agent profile adapter startedAt
    profile.stopConditions.maxTurns) entered during reason left
  calm : ∀ x ∈ after, x.op.consults = false
  returned : out = .ok () → ∃ r, reason = .ok r

/-- The streams of a run are those of its loop. -/
theorem LoopedRun.streams (l : LoopedRun rt agents sid w h out) :
    streamsOf h = streamsOf l.during := by
  obtain ⟨w₁, w₂, seeds⟩ := l.seeds
  have seeded := calm_of_plain (seeds.within (plain_seed sid l.agent))
  have calm : ∀ x ∈ (⟨.wake, .done, .ok l.session⟩ : Performed) ::
      ⟨.getAgent l.session.agentId, .done, .ok l.agent⟩ :: (l.seeding ++
        [⟨.monotonic, .reads l.startedAt, .ok l.startedAt⟩]) ++ l.after, x.op.consults = false := by
    simp only [List.forall_mem_append, List.forall_mem_cons, Op.consults, true_and]
    exact ⟨⟨seeded, by simp⟩, l.calm⟩
  refine (congrArg streamsOf (l.performed.trans ?_)).trans (streamsOf_between calm)
  simp

theorem wake_steps {session : Session}
    (ran : Runs rt agents sid Harness.wake w h (.ok session) w') :
    h = [⟨.wake, .done, .ok session⟩] ∧ session.agentId = w.session.row.agentId := by
  obtain ⟨w₁, answer, acts, performed, rfl⟩ := Process.evaluates_perform.mp ran
  cases answer with
  | done =>
      obtain ⟨-, woken⟩ := Prod.mk.inj (Option.some.inj performed)
      refine ⟨rfl, ?_⟩
      rw [SessionState.wake] at woken
      split at woken
      · cases woken
      · cases woken
        exact (interferes_kept acts).agentId
  | _ => cases performed

theorem getAgent_steps {id : AgentId}
    (ran : Runs rt agents sid (Harness.getAgent id) w h (.ok agent) w') :
    h = [⟨.getAgent id, .done, .ok agent⟩] ∧ agents id = some agent := by
  obtain ⟨w₁, answer, -, performed, rfl⟩ := Process.evaluates_perform.mp ran
  cases answer with
  | done =>
      obtain ⟨-, found⟩ := Prod.mk.inj (Option.some.inj performed)
      refine ⟨rfl, ?_⟩
      split at found
      · rename_i registered
        cases found
        exact registered
      · cases found
  | _ => cases performed

theorem monotonic_steps (ran : Runs rt agents sid Harness.monotonic w h (.ok startedAt) w') :
    h = [⟨.monotonic, .reads startedAt, .ok startedAt⟩] := by
  obtain ⟨w₁, answer, -, performed, rfl⟩ := Process.evaluates_perform.mp ran
  cases answer with
  | reads clock =>
      cases performed
      rfl
  | _ => cases performed

theorem calm_perform {o : Op} (calm : o.consults = false) :
    (Program.perform o : Harness o.Res).Within fun o => o.consults = false :=
  Program.within_perform calm

variable (rt) in
/-- What follows the last turn asks the model nothing. -/
theorem afterLoop_steps {loop : Harness StopReason}
    (ran : Runs rt agents sid (afterLoop rt loop) w h out w') :
    ∃ during after reason left, h = during ++ after ∧ Runs rt agents sid loop w during reason left ∧
      (∀ x ∈ after, x.op.consults = false) ∧ (out = .ok () → ∃ r, reason = .ok r) := by
  have calm {h₂ c w₁ w₂} (ran : Runs rt agents sid (destroySandboxes rt) w₁ h₂ c w₂) :
      ∀ x ∈ h₂, x.op.consults = false :=
    calm_of_plain (ran.within (plain_destroySandboxes rt))
  rcases Process.evaluates_bind.mp ran with ⟨e, rfl, raised⟩ | ⟨reason, _, h₃, w₁, rfl, ended, rest⟩
  · obtain ⟨r, c, during, after, left, rfl, loop, cleaned, -⟩ :=
      Process.evaluates_tryFinally.mp raised
    exact ⟨during, after, r, left, rfl, loop, calm cleaned, nofun⟩
  · obtain ⟨r, c, during, h₂, left, rfl, loop, cleaned, same⟩ :=
      Process.evaluates_tryFinally.mp ended
    have stopped : r = .ok reason := by
      cases c with
      | error e => cases same
      | ok _ => exact same.symm
    refine ⟨during, h₂ ++ h₃, r, left, List.append_assoc .., loop,
      List.forall_mem_append.mpr ⟨calm cleaned, ?_⟩, fun _ => ⟨reason, stopped⟩⟩
    refine rest.within (A := fun o => o.consults = false) ?_
    exact (calm_perform (o := Op.markComplete) rfl).bind fun _ => trivial

/-- A run of `run_session` comes to its loop, or an exception ends it before it has asked the
model anything. -/
theorem runSession_looped (ran : Runs rt agents sid (runSession rt sid) w h out w') :
    (∃ e, out = .error e ∧ ∀ x ∈ h, x.op.consults = false) ∨
      Nonempty (LoopedRun rt agents sid w h out) := by
  rw [runSession_loop] at ran
  rcases Process.evaluates_bind.mp ran with
    ⟨e, rfl, raised⟩ | ⟨session, _, h₁, w₁, rfl, woken, ran₁⟩
  · exact .inl ⟨e, rfl, raised.within (calm_perform (o := Op.wake) rfl)⟩
  obtain ⟨rfl, own⟩ := wake_steps woken
  have calm : ∀ x ∈ [(⟨.wake, .done, .ok session⟩ : Performed)], x.op.consults = false := by
    simp [Op.consults]
  rcases Process.evaluates_bind.mp ran₁ with ⟨e, rfl, raised⟩ | ⟨agent, _, h₂, w₂, rfl, found, ran₂⟩
  · have asked := raised.within (calm_perform (o := Op.getAgent session.agentId) rfl)
    exact .inl ⟨e, rfl, List.forall_mem_append.mpr ⟨calm, asked⟩⟩
  obtain ⟨rfl, known⟩ := getAgent_steps found
  have calm : ∀ x ∈ [(⟨.wake, .done, .ok session⟩ : Performed)] ++
      [⟨.getAgent session.agentId, .done, .ok agent⟩], x.op.consults = false := by
    simp [Op.consults]
  rw [← List.append_assoc]
  rcases Process.evaluates_bind.mp ran₂ with
    ⟨e, rfl, raised⟩ | ⟨profile, _, h₃, w₃, rfl, loads, ran₃⟩
  · obtain ⟨rfl, -, -⟩ := Process.evaluates_settle.mp raised
    exact .inl ⟨e, rfl, by rwa [List.append_nil]⟩
  obtain ⟨rfl, loaded, rfl⟩ := Process.evaluates_settle.mp loads
  rcases Process.evaluates_bind.mp ran₃ with
    ⟨e, rfl, raised⟩ | ⟨adapter, _, h₄, w₄, rfl, gets, ran₄⟩
  · obtain ⟨rfl, -, -⟩ := Process.evaluates_settle.mp raised
    exact .inl ⟨e, rfl, by rwa [List.append_nil, List.append_nil]⟩
  obtain ⟨rfl, adapts, rfl⟩ := Process.evaluates_settle.mp gets
  rw [List.nil_append, List.nil_append]
  rcases Process.evaluates_bind.mp ran₄ with ⟨e, rfl, raised⟩ |
    ⟨_, seeding, h₅, w₅, rfl, seeds, ran₅⟩
  · have asked := calm_of_plain (raised.within (plain_seed sid agent))
    exact .inl ⟨e, rfl, List.forall_mem_append.mpr ⟨calm, asked⟩⟩
  have seeded := calm_of_plain (seeds.within (plain_seed sid agent))
  rcases Process.evaluates_bind.mp ran₅ with ⟨e, rfl, raised⟩ |
    ⟨startedAt, _, h₆, w₆, rfl, clock, ran₆⟩
  · have asked := raised.within (calm_perform (o := Op.monotonic) rfl)
    exact .inl ⟨e, rfl,
      List.forall_mem_append.mpr ⟨calm, List.forall_mem_append.mpr ⟨seeded, asked⟩⟩⟩
  obtain rfl := monotonic_steps clock
  obtain ⟨during, after, reason, left, rfl, loops, calm, returned⟩ := afterLoop_steps rt ran₆
  exact .inr ⟨⟨session, agent, profile, adapter, startedAt, seeding, during, after, reason, w₆,
    left, by simp, own, known, loaded.symm, adapts.symm, ⟨_, _, seeds⟩, loops, calm, returned⟩⟩

section OneTurn

/-- A profile whose runs are to stop after `n` turns without a tool call. -/
def Profile.waiting (n : Nat) (positive : 1 ≤ n) : Profile :=
  { Profile.roomy with stopConditions :=
      { Profile.roomy.stopConditions with noToolCallsFor := n, noToolCallsFor_pos := positive } }

/-- The model says something, and calls no tool. -/
def talk : ModelStream := ⟨[.textDelta "hi"], none⟩

/-- What a run is answered that has one turn, of `talk`. -/
def talked : List Answer :=
  [.done, .done, .reads 0, .done, .done, .streams talk, .done, .done, .done, .done, .done]

/-- Whatever number of turns without a tool call is waited for, the run is over after one. -/
theorem talked_runs (n : Nat) (positive : 1 ≤ n) : ∃ h w',
    Runs (.bare (.waiting n positive)) (fun _ => some (.plain none)) "s"
      (runSession (.bare (.waiting n positive)) "s") World.asked.boot h (.ok ()) w' ∧
    streamsOf h = [talk] := by
  obtain ⟨⟨h, out, w'⟩, ran, facts⟩ := Option.map_eq_some_iff.mp (show
    ((runtimeProcess (.bare (.waiting n positive)) (fun _ => some (.plain none)) "s").evaluate
      (runSession (.bare (.waiting n positive)) "s") World.asked.boot talked).map
        (fun x => (x.2.1, streamsOf x.1)) = some (.ok (), [talk]) from rfl)
  obtain ⟨rfl, streams⟩ := by simpa only [Prod.mk.injEq] using facts
  exact ⟨h, w', Process.evaluates_of_evaluate ran, streams⟩

/-- A profile that waits for a second turn without a tool call: the run is over after the first,
and does not follow its stop conditions. -/
theorem second_turn_unasked : ∃ h w', ∃ profile : Profile,
    profile.stopConditions.noToolCallsFor = 2 ∧
    Runs (.bare profile) (fun _ => some (.plain none)) "s" (runSession (.bare profile) "s")
      World.asked.boot h (.ok ()) w' ∧ streamsOf h = [talk] ∧
    ∃ l : LoopedRun (.bare profile) (fun _ => some (.plain none)) "s" World.asked.boot h (.ok ()),
      l.profile = profile ∧
      ¬FollowsStopRules l.adapter l.profile l.startedAt l.during l.reason l.left := by
  obtain ⟨h, w', ran, streams⟩ := talked_runs 2 (by decide)
  refine ⟨h, w', .waiting 2 (by decide), rfl, ran, streams, ?_⟩
  obtain ⟨e, impossible, -⟩ | looped := runSession_looped ran
  · cases impossible
  obtain ⟨l⟩ := looped
  have named : Profile.waiting 2 (by decide) = l.profile := Except.ok.inj l.loaded
  have spec := runTurns_spec (standard_of_getAdapter l.adapts) l.loops
  refine ⟨l, named.symm, ?_⟩
  rw [l.streams] at streams
  rw [followsStopRules_iff spec (fun stopped => asked_of_noUserTurn (stopped ▸ l.loops))]
  rintro (two | calling)
  · rw [← named] at two
    exact absurd two (by decide)
  · obtain ⟨r, returned⟩ := l.returned rfl
    have impossible := calling r returned talk (by rw [streams]; exact List.mem_singleton_self talk)
    exact absurd impossible (by decide)

end OneTurn

/-- A run of `run_session` comes to its loop, or an exception ends it before it has asked the
model anything. However the loop is found in it, the loop follows the stop conditions of the
profile of the session's agent, timed from the reading of the clock before it, exactly if it is to
stop after one turn without a tool call, or none of its turns is over without one. -/
theorem stop_rules_iff (ran : Runs rt agents sid (runSession rt sid) w h out w') :
    ((∃ e, out = .error e ∧ ∀ x ∈ h, x.op.consults = false) ∨
      Nonempty (LoopedRun rt agents sid w h out)) ∧
    ∀ l : LoopedRun rt agents sid w h out,
      (FollowsStopRules l.adapter l.profile l.startedAt l.during l.reason l.left ↔
        l.profile.stopConditions.noToolCallsFor = 1 ∨
          ∀ r, l.reason = .ok r → ∀ stream ∈ streamsOf h, stream.quiet = false) := by
  refine ⟨runSession_looped ran, fun l => ?_⟩
  have spec := runTurns_spec (standard_of_getAdapter l.adapts) l.loops
  rw [l.streams]
  exact followsStopRules_iff spec fun stopped => asked_of_noUserTurn (stopped ▸ l.loops)

/-- A run that is to stop after one turn without a tool call does. -/
theorem stop_rules_iff_talked : ∃ h w', ∃ profile : Profile,
    profile.stopConditions.noToolCallsFor = 1 ∧
    Runs (.bare profile) (fun _ => some (.plain none)) "s" (runSession (.bare profile) "s")
      World.asked.boot h (.ok ()) w' ∧ streamsOf h = [talk] ∧
    ∃ l : LoopedRun (.bare profile) (fun _ => some (.plain none)) "s" World.asked.boot h (.ok ()),
      l.profile = profile ∧
      FollowsStopRules l.adapter l.profile l.startedAt l.during l.reason l.left := by
  obtain ⟨h, w', ran, streams⟩ := talked_runs 1 (by decide)
  refine ⟨h, w', .waiting 1 (by decide), rfl, ran, streams, ?_⟩
  obtain ⟨⟨e, impossible, -⟩ | looped, follows⟩ := stop_rules_iff ran
  · cases impossible
  obtain ⟨l⟩ := looped
  have named : Profile.waiting 1 (by decide) = l.profile := Except.ok.inj l.loaded
  exact ⟨l, named.symm, (follows l).mpr (.inl (by rw [← named]; rfl))⟩

end Sessions

end Tename
