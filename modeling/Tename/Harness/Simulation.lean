import Tename.Harness.Protocol

/-!
# The loop keeps to the protocol

`runSession` is safe for `loopMonitor`: whatever the model, the sandbox, the
proxy and the database answer, and whatever clients do in between, the loop
requests only what the protocol permits. There is one lemma for each function
of the source, with the phase it is called in and the phase it leaves.

An exception may leave any phase behind, since nothing is emitted after it.
-/

namespace Tename

variable {rt : Runtime} {agents : AgentId → Option Agent} {sid : SessionId}

/-- What only the loop itself changes. -/
structure World.Kept (w w' : World) : Prop where
  lastRead : w'.lastRead = w.lastRead
  agentId : w'.session.row.agentId = w.session.row.agentId
  streams : w'.streams = w.streams

theorem World.Kept.refl (w : World) : w.Kept w := ⟨rfl, rfl, rfl⟩

theorem World.Kept.trans {w w' w'' : World} (first : w.Kept w') (second : w'.Kept w'') :
    w.Kept w'' :=
  ⟨second.lastRead.trans first.lastRead, second.agentId.trans first.agentId,
    second.streams.trans first.streams⟩

theorem SessionState.emitEvent_agentId (s : SessionState) (id : EventId) (type : EventType)
    (payload : Payload) : (s.emitEvent id type payload).1.row.agentId = s.row.agentId := by
  rcases s.emitEvent_cases id type payload with ⟨e, h⟩ | ⟨e, _, _, h⟩ | ⟨_, fresh, h⟩ <;> rw [h]
  rfl

theorem SessionState.markComplete_agentId (s : SessionState) :
    s.markComplete.1.row.agentId = s.row.agentId := by
  unfold SessionState.markComplete
  split <;> rfl

theorem World.disturb_kept {w w' : World} {a : ClientAction} (h : w.disturb a = some w') :
    w.Kept w' := by
  cases a with
  | say content =>
      obtain rfl := Option.some.inj h
      exact ⟨rfl, SessionState.emitEvent_agentId .., rfl⟩
  | complete =>
      obtain rfl := Option.some.inj h
      exact ⟨rfl, SessionState.markComplete_agentId _, rfl⟩

/-- Every operation but a read and a request keeps what was read and heard, and the
session's agent. -/
theorem World.perform_kept {w w' : World} {o : Op} {answer : Answer} {r : Except Exn o.Res}
    (h : w.perform agents o answer = some (w', r)) (notRead : o ≠ .getEvents)
    (notAsked : ∀ messages tools, o ≠ .complete messages tools) : w.Kept w' := by
  cases o with
  | getEvents => exact absurd rfl notRead
  | complete messages tools => exact absurd rfl (notAsked messages tools)
  | emitEvent id type payload =>
      cases answer <;> cases h
      · exact ⟨rfl, SessionState.emitEvent_agentId .., rfl⟩
      · exact .refl w
  | markComplete =>
      cases answer <;> cases h
      · exact ⟨rfl, SessionState.markComplete_agentId _, rfl⟩
      · exact .refl w
  | _ => cases answer <;> cases h <;> exact ⟨rfl, rfl, rfl⟩

theorem World.perform_wake {w w' : World} {answer : Answer} {session : Session}
    (h : w.perform agents .wake answer = some (w', .ok session)) : session = w.session.row := by
  cases answer with
  | done =>
      have woken : w.session.wake = .ok session := congrArg Prod.snd (Option.some.inj h)
      unfold SessionState.wake at woken
      split at woken
      · cases woken
      · exact (Except.ok.inj woken).symm
  | raises e => cases h
  | _ => cases h

theorem World.perform_getAgent {w w' : World} {answer : Answer} {id : AgentId} {agent : Agent}
    (h : w.perform agents (.getAgent id) answer = some (w', .ok agent)) :
    agents id = some agent := by
  cases answer with
  | done =>
      cases found : agents id with
      | some a =>
          simp only [World.perform, found] at h
          cases h
          rfl
      | none =>
          simp only [World.perform, found] at h
          cases h
  | raises e => cases h
  | _ => cases h

theorem interferes_kept {w w' : World}
    (h : Monitor.Interferes (runtimeProcess rt agents sid) w w') : w.Kept w' :=
  h.relates World.Kept.refl (fun _ _ _ => World.Kept.trans) fun _ _ _ => World.disturb_kept

theorem EmitsIn.kept {w w' : World} {g : Stage} {id : EventId} {type : EventType}
    {payload : Payload} {phase : Phase} (h : EmitsIn rt agents sid w g id type payload phase)
    (kept : w.Kept w') : EmitsIn rt agents sid w' g id type payload phase := by
  simpa only [EmitsIn, kept.lastRead, kept.agentId, kept.streams] using h

open Monitor (Ends OnReturn)

section Operations

variable {w : World} {g : Stage}

/-- An operation the protocol does not look at. -/
theorem safe_quiet {o : Op} {A : o.Res → World → Stage → Prop} {E : World → Stage → Prop}
    (quiet : o.quiet = true)
    (next : ∀ w₁ w₂ answer a, w.Kept w₁ → w.Kept w₂ →
      w₁.perform agents o answer = some (w₂, .ok a) → A a w₂ g)
    (raised : ∀ w', w.Kept w' → E w' g) :
    (loopMonitor rt agents sid).Safe (Ends A E) (Program.perform o) w g := by
  refine Monitor.Safe.perform (fun _ _ => permits_of_quiet rt agents sid quiet) ?_
  intro w₁ answer w₂ r related performed
  have kept := interferes_kept related
  have kept' := kept.trans (World.perform_kept performed (by rintro rfl; cases quiet)
    (by rintro messages tools rfl; cases quiet))
  refine ⟨g, (moves_of_quiet rt agents sid quiet).mpr rfl, ?_⟩
  cases r with
  | ok a => exact next w₁ w₂ answer a kept kept' performed
  | error e => exact raised w₂ kept'

theorem safe_emitEvent {id : EventId} {type : EventType} {payload : Payload} {phase : Phase}
    {A : Event → World → Stage → Prop} {E : World → Stage → Prop}
    (emits : EmitsIn rt agents sid w g id type payload phase)
    (next : ∀ w' e, w.Kept w' → A e w' ⟨phase, none, false⟩) (raised : ∀ w', w.Kept w' → E w' g) :
    (loopMonitor rt agents sid).Safe (Ends A E) (Harness.emitEvent id type payload) w g := by
  refine Monitor.Safe.perform (fun w' related => ⟨phase, emits.kept (interferes_kept related)⟩) ?_
  intro w₁ answer w₂ r related performed
  have kept := (interferes_kept related).trans (World.perform_kept performed (by simp) (by simp))
  cases r with
  | ok e =>
      exact ⟨⟨phase, none, false⟩, ⟨phase, emits.kept (interferes_kept related), rfl⟩,
        next w₂ e kept⟩
  | error e => exact ⟨g, rfl, raised w₂ kept⟩

theorem safe_uuid4 {A : EventId → World → Stage → Prop}
    (next : ∀ w' id, w.Kept w' → A id w' ⟨g.phase, some id, g.current⟩) :
    (loopMonitor rt agents sid).Safe (OnReturn A) Harness.uuid4 w g := by
  refine Monitor.Safe.perform (fun _ _ => trivial) ?_
  intro w₁ answer w₂ r related performed
  have kept := (interferes_kept related).trans (World.perform_kept performed (by simp) (by simp))
  cases r with
  | ok id => exact ⟨⟨g.phase, some id, g.current⟩, rfl, next w₂ id kept⟩
  | error e => exact ⟨g, rfl, trivial⟩

theorem safe_complete {messages : List Message} {tools : Option (List ToolDef)}
    {A : ModelStream → World → Stage → Prop} (resting : g.phase = .resting)
    (current : g.current = true)
    (built : messages = w.requestMessages) (asked : messages.any (·.role = .user) = true)
    (next : ∀ w' stream, w'.session.row.agentId = w.session.row.agentId →
      A stream w' ⟨.streaming [] [] stream.chunks, none, false⟩) :
    (loopMonitor rt agents sid).Safe (OnReturn A) (Harness.complete messages tools) w g := by
  refine Monitor.Safe.perform (fun w' related => ⟨resting, current, ?_, asked⟩) ?_
  · rw [built, World.requestMessages, World.requestMessages, (interferes_kept related).lastRead]
  · intro w₁ answer w₂ r related performed
    cases answer with
    | streams stream =>
        cases performed
        exact ⟨_, rfl, next (w₁.hear stream) stream (interferes_kept related).agentId⟩
    | raises e =>
        cases performed
        exact ⟨g, rfl, trivial⟩
    | _ => cases performed

theorem safe_markComplete (ended : g.phase.ended = true) :
    (loopMonitor rt agents sid).Safe (OnReturn fun _ _ _ => True) Harness.markComplete w g := by
  refine Monitor.Safe.perform (fun _ _ => ended) fun _ _ _ r _ _ => ?_
  cases r with
  | ok status => exact ⟨g, rfl, trivial⟩
  | error e => exact ⟨g, rfl, trivial⟩

/-- A read updates the page that later requests are built from. -/
theorem safe_readPage {A : List Event → World → Stage → Prop} {E : World → Stage → Prop}
    (next : ∀ w', w'.session.row.agentId = w.session.row.agentId →
      A w'.lastRead.page w' ⟨g.phase, g.drawn, true⟩)
    (raised : ∀ w', w.Kept w' → E w' g) :
    (loopMonitor rt agents sid).Safe (Ends A E) Harness.readPage w g := by
  refine Monitor.Safe.perform (fun _ _ => trivial) ?_
  intro w₁ answer w₂ r related performed
  have kept := interferes_kept related
  cases answer with
  | done =>
      have performed : some w₁.read = some (w₂, r) := performed
      rw [World.read_eq] at performed
      cases performed
      exact ⟨_, rfl, next { w₁ with lastRead := ⟨_, _⟩ } kept.agentId⟩
  | raises e =>
      cases performed
      exact ⟨g, rfl, raised _ kept⟩
  | _ => cases performed

end Operations

section Functions

variable {w : World} {g : Stage} {agent : Agent} {profile : Profile} {adapter : FrameworkAdapter}

/-- The session belongs to `agent`. -/
def Owner (agents : AgentId → Option Agent) (agent : Agent) (w : World) : Prop :=
  agents w.session.row.agentId = some agent

theorem Owner.kept {w' : World} (h : Owner agents agent w) (kept : w.Kept w') :
    Owner agents agent w' := by
  simpa only [Owner, kept.agentId] using h

/-- Between turns, in a session of `agent`. -/
def Rests (agents : AgentId → Option Agent) (agent : Agent) (w : World) (g : Stage) : Prop :=
  g.phase = .resting ∧ Owner agents agent w

theorem seedSystemPromptIfNeeded_safe (h : Rests agents agent w g) (unheard : w.streams = []) :
    (loopMonitor rt agents sid).Safe (OnReturn fun _ => Rests agents agent)
      (seedSystemPromptIfNeeded sid agent) w g := by
  obtain ⟨phase, drawn, current⟩ := g
  obtain ⟨rfl, owner⟩ : phase = .resting ∧ _ := h
  unfold seedSystemPromptIfNeeded
  cases carries : agent.systemPrompt with
  | none => exact ⟨rfl, owner⟩
  | some prompt =>
      by_cases empty : prompt = ""
      · simp only [empty, if_true]
        exact ⟨rfl, owner⟩
      · simp only [empty, if_false]
        exact (safe_emitEvent (.seed owner carries empty unheard)
          (fun w' _ kept => (⟨rfl, owner.kept kept⟩ : Rests agents agent w' _))
          (fun _ _ => trivial)).seq fun _ _ _ rests => rests

theorem emitCompaction_safe {events : List Event} (h : Rests agents agent w g)
    (current : g.current = true) (loaded : rt.loadProfile agent.model = .ok profile)
    (read : w.lastRead.page = events) :
    (loopMonitor rt agents sid).Safe (OnReturn fun _ => Rests agents agent)
      (emitCompaction sid events profile) w g := by
  obtain ⟨phase, drawn, fresh⟩ := g
  obtain ⟨rfl, owner⟩ : phase = .resting ∧ _ := h
  obtain rfl : fresh = true := current
  unfold emitCompaction
  cases planned : planTruncate (applyCompactionView events) profile with
  | none => exact ⟨rfl, owner⟩
  | some decision =>
      exact (safe_emitEvent (.compaction owner loaded (read ▸ planned))
        (fun w' _ kept => (⟨rfl, owner.kept kept⟩ : Rests agents agent w' _))
        (fun _ _ => trivial)).seq fun _ _ _ rests => rests

theorem readEvents_safe (h : Rests agents agent w g)
    (loaded : rt.loadProfile agent.model = .ok profile) :
    (loopMonitor rt agents sid).Safe
      (OnReturn fun events w g =>
        Rests agents agent w g ∧ g.current = true ∧ w.lastRead.page = events)
      (readEvents sid profile) w g := by
  have read : ∀ w g, Rests agents agent w g → (loopMonitor rt agents sid).Safe
      (OnReturn fun events w g =>
        Rests agents agent w g ∧ g.current = true ∧ w.lastRead.page = events)
      Harness.readPage w g := fun w g rests => safe_readPage
    (fun w' agentId => ⟨⟨rests.1, by simpa only [Owner, agentId] using rests.2⟩, rfl, rfl⟩)
    fun _ _ => trivial
  unfold readEvents
  refine (read w g h).seq ?_
  rintro events w g ⟨rests, current, same⟩
  split
  · exact (emitCompaction_safe rests current loaded same).seq fun _ w g rests => read w g rests
  · exact ⟨rests, current, same⟩

/-- In the stream of a turn, with the accumulators the loop has and chunks left to read. -/
def Streams (agents : AgentId → Option Agent) (agent : Agent) (st : TurnState)
    (chunks : List ModelChunk) (w : World) (g : Stage) : Prop :=
  (∃ skipped, skipped.all ModelChunk.silent = true ∧
    g.phase = .streaming st.textParts st.toolCalls (skipped ++ chunks)) ∧ Owner agents agent w

/-- After the stream: at its end, or stopped by an error chunk. -/
def Streamed (agents : AgentId → Option Agent) (agent : Agent) (st : TurnState) (w : World)
    (g : Stage) : Prop :=
  (st.errored = true → g.phase.ended = true) ∧
    (st.errored = false → Streams agents agent st [] w g)

theorem Streams.skip {st : TurnState} {chunk : ModelChunk} {chunks : List ModelChunk}
    (h : Streams agents agent st (chunk :: chunks) w g) (silent : chunk.silent = true) :
    Streams agents agent st chunks w g := by
  obtain ⟨⟨skipped, before, streaming⟩, owner⟩ := h
  exact ⟨⟨skipped ++ [chunk], by simp [before, silent], by simpa using streaming⟩, owner⟩

/-- What the runtime's adapters have in common. -/
structure Standard (adapter : FrameworkAdapter) : Prop where
  buildContext : ∀ events profile, adapter.buildContext events profile = foldContext events
  chunkToEvent : ∀ chunk, adapter.chunkToEvent chunk =
    (chunkEvent chunk).map fun p id => ⟨id, p.1, p.2⟩

theorem standard_of_getAdapter {name : String} (h : rt.getAdapter name = .ok adapter) :
    Standard adapter := by
  unfold Runtime.getAdapter at h
  split at h
  · obtain rfl := Except.ok.inj h
    exact ⟨fun _ _ => rfl, fun _ => rfl⟩
  · split at h
    · obtain rfl := Except.ok.inj h
      exact ⟨fun _ _ => rfl, fun _ => rfl⟩
    · cases h

/-- Draw an id and emit an event of the stream under it. -/
theorem emitFresh_safe {α : Type} {A : α → World → Stage → Prop} {phase : Phase}
    {type : EventType} {payload : Payload} {next : EventId → Phase} {k : EventId → Harness α}
    (here : g.phase = phase) (owner : Owner agents agent w)
    (emits : ∀ id page heard current,
      Emits rt sid (some agent) page heard ⟨phase, some id, current⟩ id type payload (next id))
    (rest : ∀ id w, Owner agents agent w →
      (loopMonitor rt agents sid).Safe (OnReturn A) (k id) w ⟨next id, none, false⟩) :
    (loopMonitor rt agents sid).Safe (OnReturn A) (Harness.uuid4.bind fun id =>
      (Harness.emitEvent id type payload).bind fun _ => k id) w g := by
  refine (safe_uuid4 (A := fun id w g =>
    g.phase = phase ∧ g.drawn = some id ∧ Owner agents agent w) ?_).seq ?_
  · intro w' id kept
    exact ⟨here, rfl, owner.kept kept⟩
  · rintro id w ⟨phase', _, current⟩ ⟨rfl, rfl, owner⟩
    have emits' : EmitsIn rt agents sid w ⟨phase', some id, current⟩ id type payload (next id) := by
      rw [EmitsIn, owner]
      exact emits id _ _ _
    refine (safe_emitEvent
      (A := fun _ w g => g = ⟨next id, none, false⟩ ∧ Owner agents agent w) emits'
      (fun w' _ kept => ⟨rfl, owner.kept kept⟩) fun _ _ => trivial).seq ?_
    rintro _ w g ⟨rfl, owner⟩
    exact rest id w owner

theorem streamChunks_safe (standard : Standard adapter) (failure : Option Exn)
    (chunks : List ModelChunk) (st : TurnState) (fine : st.errored = false)
    (h : Streams agents agent st chunks w g) :
    (loopMonitor rt agents sid).Safe (OnReturn (Streamed agents agent))
      (streamChunks adapter failure chunks st) w g := by
  induction chunks generalizing st w g with
  | nil =>
      cases failure with
      | none => exact ⟨fun errored => by simp [fine] at errored, fun _ => h⟩
      | some e => trivial
  | cons chunk chunks ih =>
      cases chunk with
      | textDelta text =>
          obtain ⟨⟨skipped, silent, streaming⟩, owner⟩ := h
          simp only [streamChunks, standard.chunkToEvent, chunkEvent, Option.map_some]
          exact emitFresh_safe streaming owner (fun _ _ _ _ => .delta silent)
            fun _ _ owner => ih _ fine ⟨⟨[], rfl, rfl⟩, owner⟩
      | toolCallEnd toolId toolName input index =>
          obtain ⟨⟨skipped, silent, streaming⟩, owner⟩ := h
          simp only [streamChunks, standard.chunkToEvent, chunkEvent, Option.map_some]
          exact emitFresh_safe streaming owner (fun _ _ _ _ => .toolCall silent)
            fun _ _ owner => ih _ fine ⟨⟨[], rfl, rfl⟩, owner⟩
      | error message retryable statusCode =>
          obtain ⟨⟨skipped, silent, streaming⟩, owner⟩ := h
          simp only [streamChunks, standard.chunkToEvent, chunkEvent, Option.map_some]
          exact emitFresh_safe streaming owner (fun _ _ _ _ => .error silent)
            fun _ _ _ => ⟨fun _ => rfl, fun running => by simp at running⟩
      | usage usage =>
          simp only [streamChunks, standard.chunkToEvent, chunkEvent, Option.map_none]
          exact ih _ fine (h.skip rfl)
      | toolCallStart toolId toolName index =>
          simp only [streamChunks, standard.chunkToEvent, chunkEvent, Option.map_none]
          exact ih _ fine (h.skip rfl)
      | toolCallDelta toolId partialJson index =>
          simp only [streamChunks, standard.chunkToEvent, chunkEvent, Option.map_none]
          exact ih _ fine (h.skip rfl)
      | done =>
          simp only [streamChunks, standard.chunkToEvent, chunkEvent, Option.map_none]
          exact ih _ fine (h.skip rfl)

/-- After a turn: not in the middle of it, or its calls are to be answered. -/
structure Turned (agents : AgentId → Option Agent) (agent : Agent) (st : TurnState) (w : World)
    (g : Stage) : Prop where
  failed : st.errored = true → g.phase.ended = true
  last : st.errored = false → st.toolCalls = [] → g.phase.ended = true
  goesOn : st.errored = false → g.phase.toAnswer = st.toolCalls ∧ Owner agents agent w

theorem Phase.ended_afterCloser (calls : List PendingEvent) (none' : calls = []) :
    (Phase.afterCloser calls).ended = true := by
  rw [none']
  rfl

theorem runTurn_safe (standard : Standard adapter) {messages : List Message}
    {tools : List ToolDef} (h : Rests agents agent w g) (current : g.current = true)
    (built : messages = w.requestMessages)
    (asked : messages.any (·.role = .user) = true) :
    (loopMonitor rt agents sid).Safe (OnReturn (Turned agents agent))
      (runTurn adapter messages tools) w g := by
  unfold runTurn
  refine (safe_complete (A := fun stream w g => Streams agents agent .start stream.chunks w g)
    h.1 current built asked fun w' _ agentId =>
      ⟨⟨[], rfl, rfl⟩, by simpa only [Owner, agentId] using h.2⟩).seq ?_
  intro stream w g streams
  refine (streamChunks_safe standard stream.failure stream.chunks .start rfl streams).seq ?_
  intro st w g streamed
  split
  · rename_i spoken
    obtain ⟨⟨skipped, silent, streaming⟩, owner⟩ := streamed.2 spoken.2
    rw [List.append_nil] at streaming
    exact emitFresh_safe streaming owner (fun _ _ _ _ => .closer spoken.1 silent)
      fun _ _ owner => {
        failed := fun errored => by simp [spoken.2] at errored
        last := fun _ none' => Phase.ended_afterCloser _ none'
        goesOn := fun _ => ⟨Phase.toAnswer_afterCloser _, owner⟩ }
  · rename_i silent
    have ended : st.errored = false → ∃ rest, rest.all ModelChunk.silent = true ∧
        g.phase = .streaming [] st.toolCalls rest ∧ Owner agents agent w := by
      intro fine
      obtain ⟨⟨skipped, drained, streaming⟩, owner⟩ := streamed.2 fine
      obtain empty : st.textParts = [] := by simpa [fine] using silent
      rw [List.append_nil, empty] at streaming
      exact ⟨skipped, drained, streaming, owner⟩
    refine ⟨streamed.1, fun fine none' => ?_, fun fine => ?_⟩
    · obtain ⟨rest, drained, streaming, _⟩ := ended fine
      simp [streaming, none', Phase.ended, drained]
    · obtain ⟨rest, drained, streaming, owner⟩ := ended fine
      exact ⟨by simp [streaming, Phase.toAnswer, drained], owner⟩

/-- Executing tools, with `calls` left to answer. -/
def Answers (agents : AgentId → Option Agent) (agent : Agent) (calls : List PendingEvent)
    (w : World) (g : Stage) : Prop :=
  g.phase.toAnswer = calls ∧ Owner agents agent w

/-- `Answers` with an exception or without. -/
abbrev Answering {α : Type} (agents : AgentId → Option Agent) (agent : Agent)
    (calls : List PendingEvent) : Except Exn α → World → Stage → Prop :=
  Ends (fun _ => Answers agents agent calls) (Answers agents agent calls)

/-- An operation of a tool call, which the protocol does not look at. -/
theorem safe_toolOp (o : Op) {calls : List PendingEvent} (h : Answers agents agent calls w g)
    (quiet : o.quiet = true) :
    (loopMonitor rt agents sid).Safe (Answering agents agent calls) (Program.perform o) w g :=
  safe_quiet quiet (fun _ _ _ _ _ kept _ => ⟨h.1, h.2.kept kept⟩)
    fun _ kept => ⟨h.1, h.2.kept kept⟩

theorem provisionSandbox_safe {call : PendingEvent} {rest : List PendingEvent}
    (h : Answers agents agent (call :: rest) w g) :
    (loopMonitor rt agents sid).Safe (Answering agents agent (call :: rest))
      (provisionSandbox rt sid agent) w g := by
  unfold provisionSandbox
  refine Monitor.Safe.seq (A := fun _ => Answers agents agent (call :: rest)) ?_ ?_
  · exact Monitor.Safe.settle (fun _ _ => h) fun _ _ => h
  intro recipe w g h
  refine (safe_toolOp (.sandboxProvision recipe) h rfl).seq ?_
  intro newId w g h
  refine (safe_toolOp (.addProvisioned newId) h rfl).seq ?_
  rintro _ w ⟨phase, drawn, current⟩ h
  have working : phase.toAnswer ≠ [] := by
    rw [h.1]
    exact List.cons_ne_nil _ _
  exact (safe_emitEvent (.provisioned working) (fun _ _ kept => ⟨h.1, h.2.kept kept⟩)
    fun _ kept => ⟨h.1, h.2.kept kept⟩).seq
    (A := fun _ => Answers agents agent (call :: rest)) fun _ _ _ h => h

theorem getOrProvisionSandbox_safe {call : PendingEvent} {rest : List PendingEvent}
    (h : Answers agents agent (call :: rest) w g) :
    (loopMonitor rt agents sid).Safe (Answering agents agent (call :: rest))
      (getOrProvisionSandbox rt sid agent) w g := by
  unfold getOrProvisionSandbox
  refine Monitor.Safe.seq (A := fun _ => Answers agents agent (call :: rest))
    (safe_readPage (fun _ agentId => ⟨h.1, by simpa only [Owner, agentId] using h.2⟩)
      fun _ kept => ⟨h.1, h.2.kept kept⟩) ?_
  intro events w g h
  split
  · exact provisionSandbox_safe h
  · rename_i existingId _
    refine (safe_toolOp (.sandboxStatus existingId) h rfl).seq ?_
    intro status w g h
    split
    · exact (safe_toolOp (.addProvisioned existingId) h rfl).seq fun _ _ _ h => h
    · exact provisionSandbox_safe h

/-- The payload is a result for `call`. -/
def ResultFor (call : PendingEvent) (payload : Payload) : Prop :=
  payload.get? "tool_call_id" = some (.uuid call.id)

/-- A result payload for the first of the calls that are left. -/
def Resulted (agents : AgentId → Option Agent) (agent : Agent) (call : PendingEvent)
    (rest : List PendingEvent) (payload : Payload) (w : World) (g : Stage) : Prop :=
  Answers agents agent (call :: rest) w g ∧ ResultFor call payload

theorem runSandboxTool_safe {call : PendingEvent} {rest : List PendingEvent} (toolName : String)
    (input : Payload) (h : Answers agents agent (call :: rest) w g) :
    (loopMonitor rt agents sid).Safe (OnReturn (Resulted agents agent call rest))
      (runSandboxTool rt sid agent call toolName input) w g := by
  unfold runSandboxTool
  refine (getOrProvisionSandbox_safe h).catch.seq ?_
  rintro outcome w g h
  cases outcome with
  | error e =>
      dsimp only
      split
      · exact ⟨h, rfl⟩
      · trivial
  | ok sandboxId =>
      refine (safe_toolOp (.sandboxExecute sandboxId toolName input) h rfl).catch.seq ?_
      rintro outcome w g h
      cases outcome with
      | error e =>
          dsimp only
          split
          · exact ⟨h, rfl⟩
          · trivial
      | ok result => exact ⟨h, rfl⟩

theorem toolPayload_safe {call : PendingEvent} {rest : List PendingEvent}
    (h : Answers agents agent (call :: rest) w g) :
    (loopMonitor rt agents sid).Safe (OnReturn (Resulted agents agent call rest))
      (toolPayload rt sid agent call) w g := by
  unfold toolPayload
  dsimp only
  split
  · exact runSandboxTool_safe _ _ h
  · split
    · exact Monitor.Safe.seq (A := fun _ => Answers agents agent (call :: rest))
        (safe_quiet rfl
          (fun _ _ _ _ _ kept _ => ⟨h.1, h.2.kept kept⟩) fun _ _ => trivial)
        fun _ _ _ h => ⟨h, rfl⟩
    · exact ⟨h, rfl⟩

/-- Between two calls of `_execute_tool_calls`. -/
def Executing (agents : AgentId → Option Agent) (agent : Agent) (rest : List PendingEvent)
    (w : World) (g : Stage) : Prop :=
  Owner agents agent w ∧ (rest = [] → g.phase = .resting) ∧ (rest ≠ [] → g.phase.toAnswer = rest)

theorem executeToolCalls_safe {calls : List PendingEvent} (some' : calls ≠ [])
    (h : Answers agents agent calls w g) :
    (loopMonitor rt agents sid).Safe (OnReturn fun _ => Rests agents agent)
      (executeToolCalls rt sid agent calls) w g := by
  unfold executeToolCalls
  have executed : (loopMonitor rt agents sid).Safe (OnReturn fun _ => Executing agents agent [])
      (executeToolCalls rt sid agent calls) w g := by
    refine Monitor.Safe.forEach ?_ calls ⟨h.2, fun empty => absurd empty some', fun _ => h.1⟩
    rintro call rest w g ⟨owner, _, left⟩
    refine (toolPayload_safe ⟨left (List.cons_ne_nil _ _), owner⟩).seq ?_
    rintro payload w ⟨phase, drawn, current⟩ ⟨⟨working, owner⟩, answers⟩
    refine (safe_emitEvent (.result working answers) (fun w' _ kept => ?_)
      fun _ _ => trivial).seq fun _ _ _ h => h
    refine ⟨owner.kept kept, ?_, fun _ => Phase.toAnswer_afterResult rest⟩
    rintro rfl
    rfl
  refine executed.mono ?_
  rintro (e | _) w g holds
  · trivial
  · exact ⟨holds.2.1 rfl, holds.1⟩

theorem destroySandboxes_safe :
    (loopMonitor rt agents sid).Safe (fun _ _ g' => g' = g) (destroySandboxes rt) w g := by
  have safe : (loopMonitor rt agents sid).Safe (Ends (fun _ _ g' => g' = g) fun _ g' => g' = g)
      (destroySandboxes rt) w g := by
    unfold destroySandboxes
    split
    · exact rfl
    · refine Monitor.Safe.seq (A := fun _ _ g' => g' = g)
        (safe_quiet rfl (fun _ _ _ _ _ _ _ => rfl) fun _ _ => rfl) ?_
      rintro ids w g' rfl
      induction ids generalizing w with
      | nil => exact rfl
      | cons id ids ih =>
          refine Monitor.Safe.seq (A := fun _ _ g => g = g') ?_ fun _ w _ same => same ▸ ih w
          refine Monitor.Safe.seq (A := fun _ _ g => g = g') (Monitor.Safe.attempt
            ((safe_quiet (o := Op.sandboxDestroy id) (A := fun _ _ g => g = g')
              (E := fun _ g => g = g') rfl (fun _ _ _ _ _ _ _ => rfl) fun _ _ => rfl).mono ?_)) ?_
          · rintro (e | a) w g same <;> exact same
          · rintro (e | a) w g rfl
            · dsimp only
              split <;> exact rfl
            · exact rfl
  exact safe.mono fun r _ _ same => by cases r <;> exact same

theorem overDuration_safe {startedAt : ℚ} (h : Rests agents agent w g) :
    (loopMonitor rt agents sid).Safe (OnReturn fun _ => Rests agents agent)
      (overDuration profile startedAt) w g := by
  unfold overDuration
  split
  · exact h
  · exact Monitor.Safe.seq (A := fun _ => Rests agents agent)
      (safe_quiet rfl (fun _ _ _ _ _ kept _ => ⟨h.1, h.2.kept kept⟩) fun _ _ => trivial)
      fun _ _ _ rests => rests

theorem runTurns_safe (standard : Standard adapter)
    (loaded : rt.loadProfile agent.model = .ok profile) (startedAt : ℚ) (turns : Nat)
    (h : Rests agents agent w g) :
    (loopMonitor rt agents sid).Safe (OnReturn fun _ _ g => g.phase.ended = true)
      (runTurns rt sid agent profile adapter startedAt turns) w g := by
  have rested : ∀ {w g}, Rests agents agent w g → g.phase.ended = true := fun h => by
    rw [h.1]
    rfl
  induction turns generalizing w g with
  | zero => exact rested h
  | succ turns ih =>
      unfold runTurns
      refine (overDuration_safe h).seq ?_
      intro late w g h
      split
      · exact rested h
      · refine (readEvents_safe h loaded).seq ?_
        rintro events w g ⟨h, current, read⟩
        dsimp only
        split
        · exact rested h
        · rename_i asked
          have built : adapter.buildContext (applyCompactionView events) profile =
              w.requestMessages := by
            rw [standard.buildContext, World.requestMessages, read]
          refine (runTurn_safe standard h current built (by simpa using asked)).seq ?_
          intro st w g turned
          split
          · rename_i errored
            exact turned.failed errored
          · rename_i fine
            obtain ⟨working, owner⟩ := turned.goesOn (by simpa using fine)
            split
            · rename_i none'
              exact turned.last (by simpa using fine) (by simpa using none')
            · rename_i some'
              exact (executeToolCalls_safe (by simpa using some') ⟨working, owner⟩).seq
                fun _ _ _ h => ih h

/-- Started in a fresh process, the loop keeps to the protocol. -/
theorem runSession_safe (w : World) (unheard : w.streams = []) :
    (loopMonitor rt agents sid).Safe (fun _ _ _ => True) (runSession rt sid) w
      ⟨.resting, none, false⟩ := by
  have safe : (loopMonitor rt agents sid).Safe (OnReturn fun _ _ _ => True) (runSession rt sid) w
      ⟨.resting, none, false⟩ := by
    unfold runSession
    refine Monitor.Safe.seq (A := fun session w g =>
      session.agentId = w.session.row.agentId ∧ g.phase = .resting ∧ w.streams = [])
      (safe_quiet rfl (fun w₁ w₂ answer session kept kept' performed => ?_) fun _ _ => trivial) ?_
    · rw [World.perform_wake performed, kept.agentId, kept'.agentId]
      exact ⟨rfl, rfl, kept'.streams.trans unheard⟩
    rintro session w g ⟨same, resting, unheard⟩
    refine Monitor.Safe.seq (A := fun agent w g => Rests agents agent w g ∧ w.streams = [])
      (safe_quiet rfl (fun _ w₂ _ agent _ kept performed =>
        ⟨⟨resting, ?_⟩, kept.streams.trans unheard⟩) fun _ _ => trivial) ?_
    · rw [Owner, kept.agentId, ← same]
      exact World.perform_getAgent performed
    rintro agent w g ⟨rests, unheard⟩
    refine Monitor.Safe.seq (A := fun profile w g =>
      rt.loadProfile agent.model = .ok profile ∧ Rests agents agent w g ∧ w.streams = [])
      (Monitor.Safe.settle (fun _ loaded => ⟨loaded, rests, unheard⟩) fun _ _ => trivial) ?_
    rintro profile w g ⟨loaded, rests, unheard⟩
    refine Monitor.Safe.seq (A := fun adapter w g =>
      Standard adapter ∧ Rests agents agent w g ∧ w.streams = [])
      (Monitor.Safe.settle (fun _ got => ⟨standard_of_getAdapter got, rests, unheard⟩)
        fun _ _ => trivial) ?_
    rintro adapter w g ⟨standard, rests, unheard⟩
    refine (seedSystemPromptIfNeeded_safe rests unheard).seq ?_
    intro _ w g rests
    refine Monitor.Safe.seq (A := fun _ => Rests agents agent)
      (safe_quiet rfl (fun _ _ _ _ _ kept _ => ⟨rests.1, rests.2.kept kept⟩)
        fun _ _ => trivial) ?_
    intro startedAt w g rests
    refine Monitor.Safe.seq (A := fun _ _ g => g.phase.ended = true) ?_ ?_
    · refine Monitor.Safe.tryFinally (runTurns_safe standard loaded startedAt _ rests) ?_
      intro r w g ended
      refine destroySandboxes_safe.mono ?_
      rintro (e | a) w g rfl
      · trivial
      · cases r <;> exact ended
    · intro _ w g ended
      exact Monitor.Safe.seq (A := fun _ _ _ => True) (safe_markComplete ended)
        fun _ _ _ _ => trivial
  exact safe.mono fun _ _ _ _ => trivial

end Functions

end Tename
