import Tename.Harness.Calls
import Tename.Harness.Sandboxes

/-!
# The grammar of a run's events

What one run of the loop appends to the log when nobody interrupts it and nobody else
writes: an optional system prompt and then, turn by turn, an optional compaction
record, the events of the model's chunks in their order, the closer, and the results
of the calls. `Turns` is the grammar, with the streams the model has answered.
-/

namespace Tename

/-- The events of a stream's chunks, with its texts and its calls; the flag says that the
stream was left at an error chunk. -/
inductive ChunkEvents : List ModelChunk → List Event → List String → List Event → Bool → Prop
  | nil : ChunkEvents [] [] [] [] false
  | silent {chunk : ModelChunk} {chunks : List ModelChunk} {events calls : List Event}
      {texts : List String} {errored : Bool} (silent : chunk.silent = true)
      (rest : ChunkEvents chunks events texts calls errored) :
      ChunkEvents (chunk :: chunks) events texts calls errored
  | delta {text : String} {chunks : List ModelChunk} {e : Event} {events calls : List Event}
      {texts : List String} {errored : Bool} (type : e.type = .assistantMessage)
      (payload : e.payload = deltaPayload text)
      (rest : ChunkEvents chunks events texts calls errored) :
      ChunkEvents (.textDelta text :: chunks) (e :: events) (text :: texts) calls errored
  | toolCall {toolId toolName : String} {input : Payload} {index : Int} {chunks : List ModelChunk}
      {e : Event} {events calls : List Event} {texts : List String} {errored : Bool}
      (type : e.type = .toolCall) (payload : e.payload = toolCallPayload toolId toolName input)
      (rest : ChunkEvents chunks events texts calls errored) :
      ChunkEvents (.toolCallEnd toolId toolName input index :: chunks) (e :: events) texts
        (e :: calls) errored
  | error {message : String} {retryable : Bool} {statusCode : Option Int}
      {chunks : List ModelChunk} {e : Event} (type : e.type = .error) :
      ChunkEvents (.error message retryable statusCode :: chunks) [e] [] [] true

/-- A turn with text has one closer, the concatenation of its texts. -/
inductive Closed (texts : List String) : List Event → Prop
  | silent (unspoken : texts = []) : Closed texts []
  | closer {e : Event} {usage : Option Usage} (spoken : texts ≠ [])
      (type : e.type = .assistantMessage)
      (payload : e.payload = closerPayload texts usage) : Closed texts [e]

/-- The record of a new sandbox. -/
structure ProvisionRecord (sid : SessionId) (e : Event) : Prop where
  id : ∃ sandbox, e.id = .sandboxProvisioned sid sandbox
  type : e.type = .systemEvent
  payload : ∃ sandbox runtime, e.payload = provisionedPayload sandbox runtime

/-- The result of a call. -/
structure ResultOf (call e : Event) : Prop where
  id : e.id = .toolResult call.id
  type : e.type = .toolResult
  payload : e.payload.get? "tool_call_id" = some (.uuid call.id)

/-- One result for each call, in order, with at most one new sandbox before it. -/
inductive CallsAnswered (sid : SessionId) : List Event → List Event → Prop
  | nil : CallsAnswered sid [] []
  | call {call result : Event} {provisioned calls events : List Event}
      (provision : provisioned = [] ∨ ∃ e, provisioned = [e] ∧ ProvisionRecord sid e)
      (answers : ResultOf call result) (rest : CallsAnswered sid calls events) :
      CallsAnswered sid (call :: calls) (provisioned ++ result :: events)

/-- No compaction record, or one. -/
def Compacted (events : List Event) : Prop :=
  events = [] ∨ ∃ e, events = [e] ∧ isCompactionEvent e = true

/-- The turns of a run, with the streams the model has answered. Only a turn with calls and
without an error has another one after it. -/
inductive Turns (sid : SessionId) : List ModelStream → List Event → Prop
  /-- Out of turns or of time. -/
  | stop : Turns sid [] []
  /-- Nobody has asked anything. -/
  | unasked {compacted : List Event} (compaction : Compacted compacted) : Turns sid [] compacted
  | errored {stream : ModelStream} {compacted events calls : List Event} {texts : List String}
      (compaction : Compacted compacted)
      (streamed : ChunkEvents stream.chunks events texts calls true) :
      Turns sid [stream] (compacted ++ events)
  | last {stream : ModelStream} {compacted events closer : List Event} {texts : List String}
      (compaction : Compacted compacted)
      (streamed : ChunkEvents stream.chunks events texts [] false) (closed : Closed texts closer) :
      Turns sid [stream] (compacted ++ (events ++ closer))
  | turn {stream : ModelStream} {streams : List ModelStream}
      {compacted events calls closer results rest : List Event} {texts : List String}
      (compaction : Compacted compacted)
      (streamed : ChunkEvents stream.chunks events texts calls false) (asks : calls ≠ [])
      (closed : Closed texts closer) (answered : CallsAnswered sid calls results)
      (turns : Turns sid streams rest) :
      Turns sid (stream :: streams) (compacted ++ (events ++ closer ++ (results ++ rest)))

/-- No system prompt, or the agent's. -/
def Seeded (sid : SessionId) (events : List Event) : Prop :=
  events = [] ∨ ∃ e prompt, events = [e] ∧ e.id = .systemPrompt sid ∧ e.type = .systemEvent ∧
    e.payload = systemPromptPayload prompt

/-- The random ids of the log, and of the calls its results answer, have been drawn. -/
def Fresh (w : World) : Prop :=
  ∀ e ∈ w.session.events, ∀ n, e.id = .uuid4 n ∨ e.id = .toolResult (.uuid4 n) → n < w.draws

/-- What a part of the run adds to the log and to the streams; the status stays. -/
structure Grown (w : World) (heard : List ModelStream) (events : List Event) (w' : World) :
    Prop where
  events : w'.session.events = w.session.events ++ events
  streams : w'.streams = w.streams ++ heard
  status : w'.session.row.status = w.session.row.status
  draws : w.draws ≤ w'.draws
  fresh : Fresh w → Fresh w'

theorem Grown.refl (w : World) : Grown w [] [] w :=
  ⟨(List.append_nil _).symm, (List.append_nil _).symm, rfl, Nat.le_refl _, fun fresh => fresh⟩

theorem Grown.trans {w w₁ w' : World} {heard heard' : List ModelStream}
    {events events' : List Event}
    (first : Grown w heard events w₁) (second : Grown w₁ heard' events' w') :
    Grown w (heard ++ heard') (events ++ events') w' where
  events := by rw [second.events, first.events, List.append_assoc]
  streams := by rw [second.streams, first.streams, List.append_assoc]
  status := second.status.trans first.status
  draws := first.draws.trans second.draws
  fresh := second.fresh ∘ first.fresh

section Operations

variable {agents : AgentId → Option Agent} {w w' : World}

/-- The operations that add nothing. -/
def Op.idle : Op → Bool
  | .emitEvent .. | .complete .. | .markComplete => false
  | _ => true

theorem World.perform_grown {o : Op} {answer : Answer} {r : Except Exn o.Res}
    (h : w.perform agents o answer = some (w', r)) (idle : o.idle = true) : Grown w [] [] w' := by
  have drawn : Grown w [] [] w.draw.1 :=
    ⟨(List.append_nil _).symm, (List.append_nil _).symm, rfl, Nat.le_succ _,
      fun fresh e mem n same => Nat.lt_succ_of_lt (fresh e mem n same)⟩
  have plain : ∀ read provisioned,
      Grown w [] [] { w with lastRead := read, provisioned := provisioned } := by
    intro read provisioned
    exact ⟨(List.append_nil _).symm, (List.append_nil _).symm, rfl, Nat.le_refl _,
      fun fresh => fresh⟩
  cases o with
  | emitEvent id type payload => cases idle
  | complete messages tools => cases idle
  | markComplete => cases idle
  | getEvents =>
      cases answer with
      | done =>
          have h : some w.read = some (w', r) := h
          rw [World.read_eq] at h
          cases h
          exact plain _ _
      | raises e => cases h; exact .refl w
      | _ => cases h
  | uuid4 => cases answer <;> cases h; exact drawn
  | addProvisioned id => cases answer <;> cases h; exact plain _ _
  | _ => cases answer <;> cases h <;> exact .refl w

/-- An append under an id that has been drawn, or is not random. -/
theorem Grown.append {id : EventId} {type : EventType} {payload : Payload}
    (fresh : ∀ e ∈ w.session.events, e.id ≠ id)
    (known : ∀ n, id = .uuid4 n ∨ id = .toolResult (.uuid4 n) → n < w.draws) :
    Grown w [] [w.session.nextEvent id type payload] (w.append id type payload fresh) where
  events := rfl
  streams := (List.append_nil _).symm
  status := rfl
  draws := Nat.le_refl _
  fresh drawn e mem n same := by
    rcases List.mem_append.mp mem with old | new
    · exact drawn e old n same
    · rw [List.mem_singleton.mp new] at same
      exact known n same

end Operations

variable {rt : Runtime} {agents : AgentId → Option Agent} {sid : SessionId}
variable {w w' : World} {h : List (Process.Performed Op Op.Res Exn Answer)}

/-- Evaluation with nobody else. -/
abbrev Alone (rt : Runtime) (agents : AgentId → Option Agent) (sid : SessionId) {α : Type}
    (p : Harness α) (w : World) (out : Except Exn α) (w' : World) : Prop :=
  ∃ h, (runtimeProcess rt agents sid).calm.Evaluates p w h out w'

theorem alone_perform {o : Op} {out : Except Exn o.Res} :
    Alone rt agents sid (Program.perform o) w out w' ↔
      ∃ answer, w.perform agents o answer = some (w', out) := by
  constructor
  · rintro ⟨h, ran⟩
    obtain ⟨w₁, answer, interferes, performed, -⟩ := Process.evaluates_perform.mp ran
    obtain rfl := Process.interferes_calm.mp interferes
    exact ⟨answer, performed⟩
  · rintro ⟨answer, performed⟩
    exact ⟨_, Process.evaluates_perform.mpr ⟨w, answer, .refl, performed, rfl⟩⟩

theorem alone_bind {α β : Type} {p : Harness β} {f : β → Harness α} {out : Except Exn α} :
    Alone rt agents sid (p.bind f) w out w' ↔
      (∃ e, out = .error e ∧ Alone rt agents sid p w (.error e) w') ∨
      ∃ b w₁, Alone rt agents sid p w (.ok b) w₁ ∧ Alone rt agents sid (f b) w₁ out w' := by
  constructor
  · rintro ⟨h, ran⟩
    rcases Process.evaluates_bind.mp ran with ⟨e, same, raised⟩ | ⟨b, h₁, h₂, w₁, -, first, second⟩
    · exact .inl ⟨e, same, h, raised⟩
    · exact .inr ⟨b, w₁, ⟨h₁, first⟩, h₂, second⟩
  · rintro (⟨e, same, h, raised⟩ | ⟨b, w₁, ⟨h₁, first⟩, h₂, second⟩)
    · exact ⟨h, Process.evaluates_bind.mpr (.inl ⟨e, same, raised⟩)⟩
    · exact ⟨_, Process.evaluates_bind.mpr (.inr ⟨b, h₁, h₂, w₁, rfl, first, second⟩)⟩

/-- A part that returns went through both of its parts. -/
theorem alone_bind_ok {α β : Type} {p : Harness β} {f : β → Harness α} {a : α}
    (ran : Alone rt agents sid (p.bind f) w (.ok a) w') :
    ∃ b w₁, Alone rt agents sid p w (.ok b) w₁ ∧ Alone rt agents sid (f b) w₁ (.ok a) w' := by
  rcases alone_bind.mp ran with ⟨e, impossible, -⟩ | both
  · cases impossible
  · exact both

theorem alone_pure {α : Type} {a : α} {out : Except Exn α}
    (ran : Alone rt agents sid (.pure a) w out w') : out = .ok a ∧ w' = w := by
  obtain ⟨h, ran⟩ := ran
  obtain ⟨-, same, same'⟩ := Process.evaluates_pure.mp ran
  exact ⟨same, same'⟩

theorem alone_settle {α : Type} {r out : Except Exn α}
    (ran : Alone rt agents sid (Program.settle r) w out w') : out = r ∧ w' = w := by
  obtain ⟨h, ran⟩ := ran
  obtain ⟨-, same, same'⟩ := Process.evaluates_settle.mp ran
  exact ⟨same, same'⟩

theorem alone_throw {α : Type} {e : Exn} {out : Except Exn α}
    (ran : Alone rt agents sid (.throw e) w out w') : out = .error e ∧ w' = w := by
  obtain ⟨h, ran⟩ := ran
  obtain ⟨-, same, same'⟩ := Process.evaluates_throw.mp ran
  exact ⟨same, same'⟩

theorem alone_attempt {α : Type} {p : Harness α} {out : Except Exn (Except Exn α)}
    (ran : Alone rt agents sid p.attempt w out w') :
    ∃ r, out = .ok r ∧ Alone rt agents sid p w r w' := by
  obtain ⟨h, ran⟩ := ran
  obtain ⟨r, same, ran⟩ := Process.evaluates_attempt.mp ran
  exact ⟨r, same, h, ran⟩

/-- A body and its cleanup, both of which return. -/
theorem alone_tryFinally_ok {α : Type} {body : Harness α} {cleanup : Harness Unit} {a : α}
    (ran : Alone rt agents sid (body.tryFinally cleanup) w (.ok a) w') :
    ∃ w₁, Alone rt agents sid body w (.ok a) w₁ ∧ Alone rt agents sid cleanup w₁ (.ok ()) w' := by
  obtain ⟨r, w₁, caught, rest⟩ := alone_bind_ok ran
  obtain ⟨_, ⟨⟩, first⟩ := alone_attempt caught
  obtain ⟨_, w₂, cleaned, settled⟩ := alone_bind_ok rest
  obtain ⟨rfl, rfl⟩ := alone_settle settled
  exact ⟨w₁, first, cleaned⟩

/-- An operation that adds nothing. -/
theorem grown_of_idle {o : Op} {out : Except Exn o.Res} (idle : o.idle = true)
    (ran : Alone rt agents sid (Program.perform o) w out w') : Grown w [] [] w' := by
  obtain ⟨answer, performed⟩ := alone_perform.mp ran
  exact World.perform_grown performed idle

/-- An emission that returns has appended its event, or has met it. -/
theorem grown_of_emit {id : EventId} {type : EventType} {payload : Payload} {e : Event}
    (known : ∀ n, id = .uuid4 n ∨ id = .toolResult (.uuid4 n) → n < w.draws)
    (ran : Alone rt agents sid (Harness.emitEvent id type payload) w (.ok e) w') :
    (w' = w ∧ ∃ e ∈ w.session.events, e.id = id) ∨
      Grown w [] [w.session.nextEvent id type payload] w' := by
  obtain ⟨answer, performed⟩ := alone_perform.mp ran
  cases answer with
  | done =>
      have emitted := Option.some.inj performed
      rcases w.emit_cases id type payload with ⟨e, h⟩ | ⟨e, mem, same, h⟩ | ⟨_, fresh, h⟩
      · rw [h] at emitted
        cases emitted
      · rw [h] at emitted
        cases emitted
        exact .inl ⟨rfl, e, mem, same⟩
      · rw [h] at emitted
        cases emitted
        exact .inr (.append fresh known)
  | raises e => cases performed
  | _ => cases performed

/-- An emission that raises appends nothing. -/
theorem grown_of_emit_error {id : EventId} {type : EventType} {payload : Payload} {e : Exn}
    (ran : Alone rt agents sid (Harness.emitEvent id type payload) w (.error e) w') :
    Grown w [] [] w' := by
  obtain ⟨answer, performed⟩ := alone_perform.mp ran
  cases answer with
  | done =>
      have emitted := Option.some.inj performed
      rcases w.emit_cases id type payload with ⟨e, h⟩ | ⟨e, mem, same, h⟩ | ⟨_, fresh, h⟩
      · rw [h] at emitted
        cases emitted
        exact .refl w
      · rw [h] at emitted
        cases emitted
      · rw [h] at emitted
        cases emitted
  | raises e => cases performed; exact .refl w
  | _ => cases performed

theorem seed_grown {agent : Agent} (ran : Alone rt agents sid
    (seedSystemPromptIfNeeded sid agent) w (.ok ()) w') :
    ∃ seed, Seeded sid seed ∧ Grown w [] seed w' := by
  unfold seedSystemPromptIfNeeded at ran
  split at ran
  · obtain ⟨-, rfl⟩ := alone_pure ran
    exact ⟨[], .inl rfl, .refl w'⟩
  · split at ran
    · obtain ⟨-, rfl⟩ := alone_pure ran
      exact ⟨[], .inl rfl, .refl w'⟩
    · rename_i prompt _ _
      obtain ⟨e, w₁, emitted, done⟩ := alone_bind_ok ran
      obtain ⟨-, rfl⟩ := alone_pure done
      have known : ∀ n, EventId.systemPrompt sid = .uuid4 n ∨
          EventId.systemPrompt sid = .toolResult (.uuid4 n) → n < w.draws := by
        rintro n (same | same) <;> cases same
      rcases grown_of_emit known emitted with ⟨rfl, -⟩ | grown
      · exact ⟨[], .inl rfl, .refl w'⟩
      · exact ⟨_, .inr ⟨_, prompt, rfl, rfl, rfl, rfl⟩, grown⟩

theorem readEvents_grown {profile : Profile} {events : List Event}
    (ran : Alone rt agents sid (readEvents sid profile) w (.ok events) w') :
    ∃ compacted, Compacted compacted ∧ Grown w [] compacted w' := by
  unfold readEvents at ran
  obtain ⟨page, w₁, read, rest⟩ := alone_bind_ok ran
  have first := grown_of_idle rfl read
  split at rest
  · obtain ⟨_, w₂, emitted, again⟩ := alone_bind_ok rest
    have third := grown_of_idle rfl again
    unfold emitCompaction at emitted
    split at emitted
    · obtain ⟨-, rfl⟩ := alone_pure emitted
      exact ⟨[], .inl rfl, first.trans third⟩
    · rename_i decision _
      obtain ⟨e, w₃, emitted, done⟩ := alone_bind_ok emitted
      obtain ⟨-, rfl⟩ := alone_pure done
      have known : ∀ n, EventId.compaction sid decision.droppedSequences = .uuid4 n ∨
          EventId.compaction sid decision.droppedSequences = .toolResult (.uuid4 n) →
            n < w₁.draws := by
        rintro n (same | same) <;> cases same
      rcases grown_of_emit known emitted with ⟨rfl, -⟩ | grown
      · exact ⟨[], .inl rfl, first.trans third⟩
      · refine ⟨_, .inr ⟨_, rfl, ?_⟩, (first.trans grown).trans third⟩
        exact isCompactionEvent_toPayload decision _ _ _
  · obtain ⟨-, rfl⟩ := alone_pure rest
    exact ⟨[], .inl rfl, first⟩

/-- The events bear random ids drawn between the two states. -/
def DrawnBetween (w w' : World) (events : List Event) : Prop :=
  ∀ e ∈ events, ∃ n, w.draws ≤ n ∧ n < w'.draws ∧ e.id = .uuid4 n

theorem DrawnBetween.mono {w₁ w₂ : World} {events : List Event} (h : DrawnBetween w₁ w₂ events)
    (before : w.draws ≤ w₁.draws) (after : w₂.draws ≤ w'.draws) : DrawnBetween w w' events := by
  intro e mem
  obtain ⟨n, least, below, same⟩ := h e mem
  exact ⟨n, before.trans least, below.trans_le after, same⟩

/-- An event emitted under an id drawn for it is a new one. -/
theorem grown_of_drawn {α : Type} {type : EventType} {next : EventId → Harness α} {a : α}
    (payload : EventId → Payload) (fresh : Fresh w)
    (ran : Alone rt agents sid (Harness.uuid4.bind fun id =>
      (Harness.emitEvent id type (payload id)).bind fun _ => next id) w (.ok a) w') :
    ∃ e w₁, e.type = type ∧ e.payload = payload e.id ∧ Grown w [] [e] w₁ ∧
      DrawnBetween w w₁ [e] ∧ Alone rt agents sid (next e.id) w₁ (.ok a) w' := by
  obtain ⟨id, w₁, drawn, emits⟩ := alone_bind_ok ran
  obtain ⟨_, w₂, emitted, rest⟩ := alone_bind_ok emits
  have first := grown_of_idle rfl drawn
  obtain ⟨answer, performed⟩ := alone_perform.mp drawn
  obtain ⟨rfl, rfl⟩ : w₁ = w.draw.1 ∧ id = .uuid4 w.draws := by
    cases answer <;> cases performed
    exact ⟨rfl, rfl⟩
  have known : ∀ n, EventId.uuid4 w.draws = .uuid4 n ∨
      EventId.uuid4 w.draws = .toolResult (.uuid4 n) → n < w.draw.1.draws := by
    rintro n (same | same)
    · cases same
      exact Nat.lt_succ_self _
    · cases same
  rcases grown_of_emit known emitted with ⟨rfl, e, mem, same⟩ | grown
  · have met := fresh e mem w.draws (.inl same)
    omega
  · refine ⟨_, w₂, rfl, rfl, first.trans grown, ?_, rest⟩
    intro e mem
    rw [List.mem_singleton.mp mem]
    refine ⟨w.draws, Nat.le_refl _, ?_, rfl⟩
    exact Nat.lt_of_lt_of_le (Nat.lt_succ_self _) grown.draws

/-- An event of the log as the loop knew it before. -/
def Event.pending (e : Event) : PendingEvent := ⟨e.id, e.type, e.payload⟩

variable {adapter : FrameworkAdapter}

theorem streamChunks_grown (standard : Standard adapter) (failure : Option Exn)
    (chunks : List ModelChunk) (st st' : TurnState) (fine : st.errored = false) (fresh : Fresh w)
    (ran : Alone rt agents sid (streamChunks adapter failure chunks st) w (.ok st') w') :
    ∃ events texts calls, ChunkEvents chunks events texts calls st'.errored ∧
      Grown w [] events w' ∧ DrawnBetween w w' events ∧ st'.textParts = st.textParts ++ texts ∧
      st'.toolCalls = st.toolCalls ++ calls.map Event.pending := by
  induction chunks generalizing st w with
  | nil =>
      cases failure with
      | none =>
          obtain ⟨⟨⟩, rfl⟩ := alone_pure ran
          refine ⟨[], [], [], ?_, .refl w', by rintro e ⟨⟩, (List.append_nil _).symm,
            (List.append_nil _).symm⟩
          rw [fine]
          exact .nil
      | some e =>
          obtain ⟨impossible, -⟩ := alone_throw ran
          cases impossible
  | cons chunk chunks ih =>
      have silent : chunk.silent = true → streamChunks adapter failure (chunk :: chunks) st =
          streamChunks adapter failure chunks (st.note chunk) → (st.note chunk).errored = false →
          (st.note chunk).textParts = st.textParts → (st.note chunk).toolCalls = st.toolCalls →
          ∃ events texts calls, ChunkEvents (chunk :: chunks) events texts calls st'.errored ∧
            Grown w [] events w' ∧ DrawnBetween w w' events ∧
            st'.textParts = st.textParts ++ texts ∧
            st'.toolCalls = st.toolCalls ++ calls.map Event.pending := by
        intro silent same fine' texts' calls'
        rw [same] at ran
        obtain ⟨events, texts, calls, emitted, grown, drawn, said, called⟩ := ih _ fine' fresh ran
        rw [texts'] at said
        rw [calls'] at called
        exact ⟨events, texts, calls, .silent silent emitted, grown, drawn, said, called⟩
      cases chunk with
      | textDelta text =>
          simp only [streamChunks, standard.chunkToEvent, chunkEvent, Option.map_some] at ran
          obtain ⟨e, w₁, type, payload, grown, drawn, rest⟩ :=
            grown_of_drawn (fun _ => deltaPayload text) fresh ran
          rw [if_neg (by decide), if_neg (by decide)] at rest
          obtain ⟨events, texts, calls, emitted, grown', drawn', said, called⟩ :=
            ih (st.note (.textDelta text)) fine (grown.fresh fresh) rest
          refine ⟨e :: events, text :: texts, calls, .delta type payload emitted,
            grown.trans grown', ?_, ?_, called⟩
          · intro e' mem
            rcases List.mem_cons.mp mem with rfl | mem
            · exact drawn.mono (Nat.le_refl _) grown'.draws _ (.head _)
            · exact drawn'.mono grown.draws (Nat.le_refl _) e' mem
          · rw [said]
            exact List.append_assoc _ [text] texts
      | toolCallEnd toolId toolName input index =>
          simp only [streamChunks, standard.chunkToEvent, chunkEvent, Option.map_some] at ran
          obtain ⟨e, w₁, type, payload, grown, drawn, rest⟩ :=
            grown_of_drawn (fun _ => toolCallPayload toolId toolName input) fresh ran
          rw [if_pos trivial] at rest
          obtain ⟨events, texts, calls, emitted, grown', drawn', said, called⟩ :=
            ih _ (by exact fine) (grown.fresh fresh) rest
          refine ⟨e :: events, texts, e :: calls, .toolCall type payload emitted,
            grown.trans grown', ?_, said, ?_⟩
          · intro e' mem
            rcases List.mem_cons.mp mem with rfl | mem
            · exact drawn.mono (Nat.le_refl _) grown'.draws _ (.head _)
            · exact drawn'.mono grown.draws (Nat.le_refl _) e' mem
          · rw [called]
            have same : e.pending = ⟨e.id, .toolCall, toolCallPayload toolId toolName input⟩ := by
              rw [Event.pending, type, payload]
            rw [List.map_cons, same]
            exact List.append_assoc _ [_] _
      | error message retryable statusCode =>
          simp only [streamChunks, standard.chunkToEvent, chunkEvent, Option.map_some] at ran
          obtain ⟨e, w₁, type, payload, grown, drawn, rest⟩ := grown_of_drawn _ fresh ran
          rw [if_neg (by decide), if_pos trivial] at rest
          obtain ⟨⟨⟩, rfl⟩ := alone_pure rest
          exact ⟨[e], [], [], .error type, grown, drawn, (List.append_nil _).symm,
            (List.append_nil _).symm⟩
      | usage usage =>
          exact silent rfl (by simp only [streamChunks, standard.chunkToEvent, chunkEvent,
            Option.map_none]) fine rfl rfl
      | toolCallStart toolId toolName index =>
          exact silent rfl (by simp only [streamChunks, standard.chunkToEvent, chunkEvent,
            Option.map_none]) fine rfl rfl
      | toolCallDelta toolId partialJson index =>
          exact silent rfl (by simp only [streamChunks, standard.chunkToEvent, chunkEvent,
            Option.map_none]) fine rfl rfl
      | done =>
          exact silent rfl (by simp only [streamChunks, standard.chunkToEvent, chunkEvent,
            Option.map_none]) fine rfl rfl

/-- A completion that the stream answers. -/
theorem grown_of_complete {messages : List Message} {tools : Option (List ToolDef)}
    {stream : ModelStream}
    (ran : Alone rt agents sid (Harness.complete messages tools) w (.ok stream) w') :
    Grown w [stream] [] w' := by
  obtain ⟨answer, performed⟩ := alone_perform.mp ran
  cases answer with
  | streams s =>
      cases performed
      exact ⟨(List.append_nil _).symm, rfl, rfl, Nat.le_refl _, fun fresh => fresh⟩
  | raises e => cases performed
  | _ => cases performed

theorem runTurn_grown (standard : Standard adapter) {messages : List Message}
    {tools : List ToolDef} {st : TurnState} (fresh : Fresh w)
    (ran : Alone rt agents sid (runTurn adapter messages tools) w (.ok st) w') :
    ∃ stream events texts calls closer, ChunkEvents stream.chunks events texts calls st.errored ∧
      (if st.errored then closer = [] else Closed texts closer) ∧
      Grown w [stream] (events ++ closer) w' ∧ DrawnBetween w w' (events ++ closer) ∧
      st.toolCalls = calls.map Event.pending := by
  unfold runTurn at ran
  obtain ⟨stream, w₁, asked, ran⟩ := alone_bind_ok ran
  obtain ⟨st', w₂, streamed, rest⟩ := alone_bind_ok ran
  have first := grown_of_complete asked
  obtain ⟨events, texts, calls, emitted, second, drawn, said, called⟩ :=
    streamChunks_grown standard _ _ _ _ rfl (first.fresh fresh) streamed
  have upTo : Grown w [stream] events w₂ := by simpa using first.trans second
  have since := drawn.mono first.draws (Nat.le_refl _)
  have said : st'.textParts = texts := said
  have called : st'.toolCalls = calls.map Event.pending := called
  split at rest
  · rename_i speaks
    obtain ⟨e, w₃, type, payload, third, drawn', done⟩ :=
      grown_of_drawn (fun _ => closerPayload st'.textParts st'.latestUsage)
        (upTo.fresh fresh) rest
    obtain ⟨⟨⟩, rfl⟩ := alone_pure done
    refine ⟨stream, events, texts, calls, [e], emitted, ?_, by simpa using upTo.trans third, ?_,
      called⟩
    · rw [speaks.2, if_neg (by decide)]
      rw [said] at speaks payload
      exact .closer speaks.1 type payload
    · intro e' mem
      rcases List.mem_append.mp mem with old | new
      · exact since.mono (Nat.le_refl _) third.draws e' old
      · exact drawn'.mono upTo.draws (Nat.le_refl _) e' new
  · rename_i quiet
    obtain ⟨⟨⟩, rfl⟩ := alone_pure rest
    refine ⟨stream, events, texts, calls, [], emitted, ?_, by simpa using upTo,
      by simpa using since, called⟩
    cases errored : st.errored with
    | true => rfl
    | false =>
        rw [said] at quiet
        exact .silent (by_contra fun spoken => quiet ⟨spoken, errored⟩)

section Calls

variable {agent : Agent}

/-- At most the record of one new sandbox. -/
def Provisions (sid : SessionId) (w w' : World) : Prop :=
  ∃ provisioned, (provisioned = [] ∨ ∃ e, provisioned = [e] ∧ ProvisionRecord sid e) ∧
    Grown w [] provisioned w'

theorem Grown.provisions (grown : Grown w [] [] w') : Provisions sid w w' :=
  ⟨[], .inl rfl, grown⟩

theorem Provisions.after {w₁ : World} (first : Grown w [] [] w₁) (h : Provisions sid w₁ w') :
    Provisions sid w w' := by
  obtain ⟨provisioned, record, grown⟩ := h
  exact ⟨provisioned, record, first.trans grown⟩

theorem Provisions.before {w₁ : World} (h : Provisions sid w w₁) (last : Grown w₁ [] [] w') :
    Provisions sid w w' := by
  obtain ⟨provisioned, record, grown⟩ := h
  exact ⟨provisioned, record, by simpa using grown.trans last⟩

theorem provisionSandbox_grown {out : Except Exn String}
    (ran : Alone rt agents sid (provisionSandbox rt sid agent) w out w') : Provisions sid w w' := by
  unfold provisionSandbox at ran
  rcases alone_bind.mp ran with ⟨e, -, raised⟩ | ⟨recipe, w₁, settled, rest⟩
  · obtain ⟨-, rfl⟩ := alone_settle raised
    exact (Grown.refl w').provisions
  obtain ⟨-, rfl⟩ := alone_settle settled
  rcases alone_bind.mp rest with ⟨e, -, raised⟩ | ⟨newId, w₂, provisioned, ran⟩
  · exact (grown_of_idle rfl raised).provisions
  refine .after (grown_of_idle rfl provisioned) ?_
  rcases alone_bind.mp ran with ⟨e, -, raised⟩ | ⟨_, w₃, added, ran⟩
  · exact (grown_of_idle rfl raised).provisions
  refine .after (grown_of_idle rfl added) ?_
  rcases alone_bind.mp ran with ⟨e, -, raised⟩ | ⟨_, w₄, emitted, ran⟩
  · exact (grown_of_emit_error raised).provisions
  obtain ⟨-, rfl⟩ := alone_pure ran
  have known : ∀ n, EventId.sandboxProvisioned sid newId = .uuid4 n ∨
      EventId.sandboxProvisioned sid newId = .toolResult (.uuid4 n) → n < w₃.draws := by
    rintro n (same | same) <;> cases same
  rcases grown_of_emit known emitted with ⟨rfl, -⟩ | grown
  · exact (Grown.refl w').provisions
  · exact ⟨_, .inr ⟨_, rfl, ⟨⟨newId, rfl⟩, rfl, ⟨newId, recipe.runtime, rfl⟩⟩⟩, grown⟩

theorem getOrProvisionSandbox_grown {out : Except Exn String}
    (ran : Alone rt agents sid (getOrProvisionSandbox rt sid agent) w out w') :
    Provisions sid w w' := by
  unfold getOrProvisionSandbox at ran
  rcases alone_bind.mp ran with ⟨e, -, raised⟩ | ⟨page, w₁, read, ran⟩
  · exact (grown_of_idle rfl raised).provisions
  refine .after (grown_of_idle rfl read) ?_
  split at ran
  · exact provisionSandbox_grown ran
  · rename_i existingId _
    rcases alone_bind.mp ran with ⟨e, -, raised⟩ | ⟨status, w₂, asked, ran⟩
    · exact (grown_of_idle rfl raised).provisions
    refine .after (grown_of_idle rfl asked) ?_
    split at ran
    · rcases alone_bind.mp ran with ⟨e, -, raised⟩ | ⟨_, w₃, added, ran⟩
      · exact (grown_of_idle rfl raised).provisions
      · obtain ⟨-, rfl⟩ := alone_pure ran
        exact (grown_of_idle rfl added).provisions
    · exact provisionSandbox_grown ran

theorem runSandboxTool_grown {call : PendingEvent} {toolName : String} {input payload : Payload}
    (ran : Alone rt agents sid (runSandboxTool rt sid agent call toolName input) w
      (.ok payload) w') :
    ResultFor call payload ∧ Provisions sid w w' := by
  unfold runSandboxTool at ran
  obtain ⟨outcome, w₁, caught, ran⟩ := alone_bind_ok ran
  obtain ⟨r, ⟨⟩, found⟩ := alone_attempt caught
  have first := getOrProvisionSandbox_grown found
  cases outcome with
  | error e =>
      dsimp only at ran
      split at ran
      · obtain ⟨⟨⟩, rfl⟩ := alone_pure ran
        exact ⟨rfl, first⟩
      · obtain ⟨impossible, -⟩ := alone_throw ran
        cases impossible
  | ok sandboxId =>
      obtain ⟨outcome, w₂, caught, ran⟩ := alone_bind_ok ran
      obtain ⟨r, ⟨⟩, executed⟩ := alone_attempt caught
      have both := first.before (grown_of_idle rfl executed)
      cases outcome with
      | error e =>
          dsimp only at ran
          split at ran
          · obtain ⟨⟨⟩, rfl⟩ := alone_pure ran
            exact ⟨rfl, both⟩
          · obtain ⟨impossible, -⟩ := alone_throw ran
            cases impossible
      | ok result =>
          obtain ⟨⟨⟩, rfl⟩ := alone_pure ran
          exact ⟨rfl, both⟩

theorem toolPayload_grown {call : PendingEvent} {payload : Payload}
    (ran : Alone rt agents sid (toolPayload rt sid agent call) w (.ok payload) w') :
    ResultFor call payload ∧ Provisions sid w w' := by
  unfold toolPayload at ran
  dsimp only at ran
  split at ran
  · exact runSandboxTool_grown ran
  · split at ran
    · obtain ⟨result, w₁, executed, done⟩ := alone_bind_ok ran
      obtain ⟨⟨⟩, rfl⟩ := alone_pure done
      exact ⟨rfl, (grown_of_idle rfl executed).provisions⟩
    · obtain ⟨⟨⟩, rfl⟩ := alone_pure ran
      exact ⟨rfl, (Grown.refl w').provisions⟩

/-- Drawn ids whose calls have no result in the log. -/
structure Unanswered (w : World) (calls : List Event) : Prop where
  drawn : ∀ call ∈ calls, ∃ n < w.draws, call.id = .uuid4 n
  distinct : (calls.map Event.id).Nodup
  unanswered : ∀ call ∈ calls, ∀ e ∈ w.session.events, e.id ≠ .toolResult call.id

theorem Unanswered.grown {calls events : List Event} {heard : List ModelStream}
    (h : Unanswered w calls) (grown : Grown w heard events w')
    (other : ∀ call ∈ calls, ∀ e ∈ events, e.id ≠ .toolResult call.id) : Unanswered w' calls where
  drawn call mem := by
    obtain ⟨n, below, same⟩ := h.drawn call mem
    exact ⟨n, below.trans_le grown.draws, same⟩
  distinct := h.distinct
  unanswered call mem e logged := by
    rw [grown.events] at logged
    rcases List.mem_append.mp logged with old | new
    · exact h.unanswered call mem e old
    · exact other call mem e new

/-- The record of a new sandbox answers no call. -/
theorem Unanswered.provisions {calls : List Event} (h : Unanswered w calls)
    (provisions : Provisions sid w w') : Unanswered w' calls := by
  obtain ⟨provisioned, record, grown⟩ := provisions
  refine h.grown grown fun call _ e mem => ?_
  rcases record with rfl | ⟨e', rfl, provision⟩
  · cases mem
  · obtain ⟨sandbox, same⟩ := provision.id
    rw [List.mem_singleton.mp mem, same]
    rintro ⟨⟩

/-- The result of the first call is a new event. -/
theorem Unanswered.emit {call e : Event} {calls : List Event} {payload : Payload}
    (h : Unanswered w (call :: calls)) (emitted : Alone rt agents sid
      (Harness.emitEvent (.toolResult call.id) .toolResult payload) w (.ok e) w') :
    Grown w [] [w.session.nextEvent (.toolResult call.id) .toolResult payload] w' ∧
      Unanswered w' calls := by
  have known : ∀ n, EventId.toolResult call.id = .uuid4 n ∨
      EventId.toolResult call.id = .toolResult (.uuid4 n) → n < w.draws := by
    obtain ⟨m, below, drawn⟩ := h.drawn call (.head _)
    rintro n (same | same)
    · cases same
    · rw [drawn] at same
      cases same
      exact below
  rcases grown_of_emit known emitted with ⟨-, e', mem, same⟩ | grown
  · exact absurd same (h.unanswered call (.head _) e' mem)
  · have rest : Unanswered w calls := ⟨fun call' mem => h.drawn call' (.tail _ mem),
      (List.nodup_cons.mp h.distinct).2, fun call' mem => h.unanswered call' (.tail _ mem)⟩
    refine ⟨grown, rest.grown grown fun call' mem e logged same => ?_⟩
    rw [List.mem_singleton.mp logged] at same
    refine (List.nodup_cons.mp h.distinct).1 ?_
    rw [EventId.toolResult.inj same]
    exact List.mem_map_of_mem mem

theorem executeToolCalls_grown (calls : List Event) (open' : Unanswered w calls)
    (ran : Alone rt agents sid (executeToolCalls rt sid agent (calls.map Event.pending)) w
      (.ok ()) w') :
    ∃ events, CallsAnswered sid calls events ∧ Grown w [] events w' := by
  induction calls generalizing w with
  | nil =>
      obtain ⟨-, rfl⟩ := alone_pure ran
      exact ⟨[], .nil, .refl w'⟩
  | cons call calls ih =>
      obtain ⟨_, w₁, answered, rest⟩ := alone_bind_ok ran
      obtain ⟨payload, w₂, ran, emits⟩ := alone_bind_ok answered
      obtain ⟨e, w₃, emitted, done⟩ := alone_bind_ok emits
      obtain ⟨-, rfl⟩ := alone_pure done
      obtain ⟨answers, provisions⟩ := toolPayload_grown ran
      obtain ⟨second, left⟩ := (open'.provisions provisions).emit emitted
      obtain ⟨provisioned, record, first⟩ := provisions
      obtain ⟨events, answered, third⟩ := ih left rest
      have result : ResultOf call
          (w₂.session.nextEvent (.toolResult call.id) .toolResult payload) :=
        ⟨rfl, rfl, answers⟩
      refine ⟨_, .call record result answered, ?_⟩
      simpa using (first.trans second).trans third

end Calls

section Run

variable {agent : Agent} {profile : Profile}

/-- The calls of a stream are among its events. -/
theorem ChunkEvents.calls_sublist {chunks : List ModelChunk} {events calls : List Event}
    {texts : List String} {errored : Bool} (h : ChunkEvents chunks events texts calls errored) :
    calls.Sublist events := by
  induction h with
  | nil => exact .refl _
  | silent _ _ ih => exact ih
  | delta _ _ _ ih => exact ih.cons _
  | toolCall _ _ _ ih => exact ih.cons_cons _
  | error _ => exact List.nil_sublist _

/-- The calls of a turn that has just streamed are unanswered. -/
theorem unanswered_of_drawn {heard : List ModelStream} {events calls : List Event}
    (fresh : Fresh w) (grown : Grown w heard events w') (drawn : DrawnBetween w w' events)
    (among : calls.Sublist events) : Unanswered w' calls where
  drawn call mem := by
    obtain ⟨n, -, below, same⟩ := drawn call (among.subset mem)
    exact ⟨n, below, same⟩
  distinct := by
    have distinct := w'.session.distinct
    rw [grown.events, List.map_append] at distinct
    exact (List.nodup_append.mp distinct).2.1.sublist (among.map _)
  unanswered call mem e logged same := by
    obtain ⟨n, least, -, drawn'⟩ := drawn call (among.subset mem)
    rw [drawn'] at same
    rw [grown.events] at logged
    rcases List.mem_append.mp logged with old | new
    · have known := fresh e old n (.inr same)
      omega
    · obtain ⟨m, -, -, random⟩ := drawn e new
      rw [random] at same
      cases same

theorem overDuration_grown {startedAt : ℚ} {late : Bool}
    (ran : Alone rt agents sid (overDuration profile startedAt) w (.ok late) w') :
    Grown w [] [] w' := by
  unfold overDuration at ran
  split at ran
  · obtain ⟨-, rfl⟩ := alone_pure ran
    exact .refl w'
  · obtain ⟨now, w₁, read, done⟩ := alone_bind_ok ran
    obtain ⟨-, rfl⟩ := alone_pure done
    exact grown_of_idle rfl read

theorem runTurns_grown (standard : Standard adapter) (startedAt : ℚ) (turns : Nat)
    {reason : StopReason} (fresh : Fresh w)
    (ran : Alone rt agents sid (runTurns rt sid agent profile adapter startedAt turns) w
      (.ok reason) w') :
    ∃ streams events, Turns sid streams events ∧ Grown w streams events w' := by
  induction turns generalizing w with
  | zero =>
      obtain ⟨-, rfl⟩ := alone_pure ran
      exact ⟨[], [], .stop, .refl w'⟩
  | succ turns ih =>
      unfold runTurns at ran
      obtain ⟨late, w₁, timed, ran₁⟩ := alone_bind_ok ran
      have first := overDuration_grown timed
      split at ran₁
      · obtain ⟨-, rfl⟩ := alone_pure ran₁
        exact ⟨[], [], .stop, first⟩
      obtain ⟨page, w₂, read, ran₂⟩ := alone_bind_ok ran₁
      obtain ⟨compacted, compaction, second⟩ := readEvents_grown read
      have before : Grown w [] compacted w₂ := first.trans second
      dsimp only at ran₂
      split at ran₂
      · obtain ⟨-, rfl⟩ := alone_pure ran₂
        exact ⟨[], compacted, .unasked compaction, before⟩
      obtain ⟨st, w₃, turned, ran₃⟩ := alone_bind_ok ran₂
      have fresh₂ := before.fresh fresh
      obtain ⟨stream, events, texts, calls, closer, streamed, closed, third, drawn, called⟩ :=
        runTurn_grown standard fresh₂ turned
      have upTo : Grown w [stream] (compacted ++ (events ++ closer)) w₃ := before.trans third
      split at ran₃
      · rename_i errored
        obtain ⟨-, rfl⟩ := alone_pure ran₃
        rw [errored] at streamed closed
        rw [if_pos rfl] at closed
        rw [closed, List.append_nil] at upTo
        exact ⟨[stream], _, .errored compaction streamed, upTo⟩
      rename_i fine
      rw [Bool.not_eq_true] at fine
      rw [fine] at streamed closed
      rw [if_neg Bool.false_ne_true] at closed
      rw [called] at ran₃
      split at ran₃
      · rename_i none'
        obtain ⟨-, rfl⟩ := alone_pure ran₃
        have none' : calls = [] := by simpa using none'
        rw [none'] at streamed
        exact ⟨[stream], _, .last compaction streamed closed, upTo⟩
      · rename_i some'
        obtain ⟨_, w₄, executed, ran₄⟩ := alone_bind_ok ran₃
        have among : calls.Sublist (events ++ closer) :=
          streamed.calls_sublist.trans (List.sublist_append_left _ _)
        obtain ⟨results, answered, fourth⟩ :=
          executeToolCalls_grown calls (unanswered_of_drawn fresh₂ third drawn among) executed
        have asks : calls ≠ [] := by simpa using some'
        obtain ⟨streams, rest, goesOn, fifth⟩ := ih ((upTo.trans fourth).fresh fresh) ran₄
        refine ⟨stream :: streams, _, .turn compaction streamed asks closed answered goesOn, ?_⟩
        simpa using (upTo.trans fourth).trans fifth

theorem destroySandboxes_grown
    (ran : Alone rt agents sid (destroySandboxes rt) w (.ok ()) w') : Grown w [] [] w' := by
  unfold destroySandboxes at ran
  split at ran
  · obtain ⟨-, rfl⟩ := alone_pure ran
    exact .refl w'
  obtain ⟨ids, w₁, asked, looped⟩ := alone_bind_ok ran
  refine (grown_of_idle rfl asked).trans ?_
  clear ran asked
  induction ids generalizing w₁ with
  | nil =>
      obtain ⟨-, rfl⟩ := alone_pure looped
      exact .refl w'
  | cons id ids ih =>
      obtain ⟨_, w₂, destroys, rest⟩ := alone_bind_ok looped
      obtain ⟨outcome, w₃, caught, done⟩ := alone_bind_ok destroys
      obtain ⟨r, ⟨⟩, destroyed⟩ := alone_attempt caught
      obtain rfl : w₂ = w₃ := by
        cases outcome with
        | ok _ => exact (alone_pure done).2
        | error e =>
            dsimp only at done
            split at done
            · exact (alone_pure done).2
            · exact (alone_throw done).2
      exact (grown_of_idle rfl destroyed).trans (ih w₂ rest)

/-- A log between two runs. -/
theorem fresh_of_reachable {agentId : AgentId} {p : Option (Harness Unit)}
    (reachable : (sessionSystem rt agents sid agentId).Reachable ⟨w, p⟩) : Fresh w := by
  obtain ⟨g, -, sound, calls⟩ := (callsLogged_logInvariant _).reachable callsLogged_create reachable
  rintro e mem n (same | same)
  · exact sound.draws e mem n same
  · obtain ⟨call, mem', same', -⟩ := calls.results e mem _ same
    exact sound.draws call mem' n same'

/-- A session that wakes is active. -/
theorem active_of_wake {session : Session}
    (ran : Alone rt agents sid Harness.wake w (.ok session) w') :
    w.session.row.status = .active := by
  obtain ⟨answer, performed⟩ := alone_perform.mp ran
  cases answer with
  | done =>
      have woken : w.session.wake = .ok session := congrArg Prod.snd (Option.some.inj performed)
      unfold SessionState.wake at woken
      split at woken
      · cases woken
      · rename_i live
        simpa [SessionState.isTerminal, Session.isTerminal] using live
  | raises e => cases performed
  | _ => cases performed

/-- The completion of an active session. -/
theorem completed_of_markComplete {status : SessionStatus} (active : w.session.row.status = .active)
    (ran : Alone rt agents sid Harness.markComplete w (.ok status) w') :
    w'.session.events = w.session.events ∧ w'.streams = w.streams ∧
      w'.session.row.status = .completed := by
  obtain ⟨answer, performed⟩ := alone_perform.mp ran
  cases answer with
  | done =>
      obtain rfl : { w with session := w.session.markComplete.1 } = w' :=
        congrArg Prod.fst (Option.some.inj performed)
      have live : w.session.isTerminal = false := by
        simp [SessionState.isTerminal, Session.isTerminal, active]
      rw [SessionState.markComplete, live, if_neg Bool.false_ne_true]
      exact ⟨rfl, rfl, rfl⟩
  | raises e => cases performed
  | _ => cases performed

/-- What an uninterrupted run that returns has appended: at most the system prompt, and then
its turns. The session is complete. -/
theorem run_appends_turns {agentId : AgentId}
    (reachable : (sessionSystem rt agents sid agentId).Reachable ⟨w, none⟩)
    (ran : Alone rt agents sid (runSession rt sid) w.boot (.ok ()) w') :
    ∃ seed events, w'.session.events = w.session.events ++ (seed ++ events) ∧ Seeded sid seed ∧
      Turns sid w'.streams events ∧ w'.session.row.status = .completed := by
  unfold runSession at ran
  obtain ⟨session, w₁, woken, ran₁⟩ := alone_bind_ok ran
  obtain ⟨agent, w₂, got, ran₂⟩ := alone_bind_ok ran₁
  obtain ⟨profile, w₃, loaded, ran₃⟩ := alone_bind_ok ran₂
  obtain ⟨-, rfl⟩ := alone_settle loaded
  obtain ⟨adapter, w₄, adapted, ran₄⟩ := alone_bind_ok ran₃
  obtain ⟨same, rfl⟩ := alone_settle adapted
  obtain ⟨_, w₅, seeded, ran₅⟩ := alone_bind_ok ran₄
  obtain ⟨startedAt, w₆, started, ran₆⟩ := alone_bind_ok ran₅
  obtain ⟨reason, w₇, looped, ran₇⟩ := alone_bind_ok ran₆
  obtain ⟨w₈, turned, cleaned⟩ := alone_tryFinally_ok looped
  obtain ⟨status, w₉, marked, done⟩ := alone_bind_ok ran₇
  obtain ⟨-, rfl⟩ := alone_pure done
  have standard : Standard adapter := standard_of_getAdapter same.symm
  have begun : Grown w.boot [] [] w₄ := (grown_of_idle rfl woken).trans (grown_of_idle rfl got)
  obtain ⟨seed, prompt, second⟩ := seed_grown seeded
  have upTo : Grown w.boot [] seed w₆ := by
    simpa using (begun.trans second).trans (grown_of_idle rfl started)
  have fresh : Fresh w := fresh_of_reachable reachable
  obtain ⟨streams, events, turns, third⟩ :=
    runTurns_grown standard startedAt _ (upTo.fresh fresh) turned
  have whole : Grown w.boot streams (seed ++ events) w₇ := by
    simpa using (upTo.trans third).trans (destroySandboxes_grown cleaned)
  obtain ⟨logged, heard, completed⟩ :=
    completed_of_markComplete (whole.status.trans (active_of_wake woken)) marked
  refine ⟨seed, events, logged.trans whole.events, prompt, ?_, completed⟩
  rw [heard, whole.streams]
  exact turns

/-- A turn with text and a call, which provisions a sandbox, and a turn that fails. -/
def saidAndFailed : List Answer :=
  [.done, .done, .done, .reads 0, .done, .done,
    .streams ⟨[.textDelta "he", .textDelta "y", .toolCallEnd "t1" "bash" [] 0, .done], none⟩,
    .done, .done, .done, .done, .done, .done, .done, .done,
    .done, .provisions "c1", .done, .done, .results ⟨false, "", "", "", some 0, none⟩, .done,
    .done, .done, .streams ⟨[.error "overloaded" true none, .textDelta "lost"], none⟩, .done, .done,
    .done, .done, .done]

theorem run_appends_turns_failing : ∃ (w' : World) (seed events : List Event),
    w'.session.events = World.asked.session.events ++ (seed ++ events) ∧ Seeded "s" seed ∧
      Turns "s" w'.streams events ∧ w'.session.row.status = .completed ∧
      w'.session.events.map Event.type = [.userMessage, .systemEvent, .assistantMessage,
        .assistantMessage, .toolCall, .assistantMessage, .systemEvent, .toolResult, .error] := by
  obtain ⟨⟨h, out, w'⟩, ran, facts⟩ := Option.map_eq_some_iff.mp (show
    ((runtimeProcess (.boxed .roomy) (fun _ => some (.plain (some "be brief"))) "s").calm.evaluate
      (runSession (.boxed .roomy) "s") World.asked.boot saidAndFailed).map (fun x =>
        (x.2.1.toBool, x.2.2.session.events.map Event.type)) =
      some (true, [.userMessage, .systemEvent, .assistantMessage, .assistantMessage, .toolCall,
        .assistantMessage, .systemEvent, .toolResult, .error]) by decide +kernel)
  obtain ⟨returned, types⟩ := by simpa only [Prod.mk.injEq] using facts
  cases out with
  | error e => cases returned
  | ok _ =>
      have said : (World.create "s" "agent").disturb (.say "go") = some World.asked := rfl
      have asked : (sessionSystem (.boxed .roomy) (fun _ => some (.plain (some "be brief"))) "s"
          "agent").Reachable ⟨World.asked, none⟩ :=
        ⟨⟨.create "s" "agent", none⟩, ⟨rfl, rfl⟩,
          .tail .refl trivial (sessionSystem_disturb none said)⟩
      obtain ⟨seed, events, appended, prompt, turns, completed⟩ :=
        run_appends_turns asked ⟨h, Process.evaluates_of_evaluate ran⟩
      exact ⟨w', seed, events, appended, prompt, turns, completed, types⟩

end Run

end Tename
