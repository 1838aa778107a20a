import Tename.Harness.Folding

/-!
# Calls and their results

The calls of a turn are open from their event to the event of their result. An
open call is in the log and nothing in the log answers it; what answers a call
stands after it, once. This holds in every history, whoever else writes and
wherever the process is killed.
-/

namespace Tename

/-- The calls of the turn that have no result yet. -/
def Phase.openCalls : Phase → List PendingEvent
  | .streaming _ calls _ => calls
  | .answering calls => calls
  | _ => []

@[simp] theorem Phase.openCalls_streaming {texts : List String} {calls : List PendingEvent}
    {rest : List ModelChunk} : (Phase.streaming texts calls rest).openCalls = calls := rfl

@[simp] theorem Phase.openCalls_answering {calls : List PendingEvent} :
    (Phase.answering calls).openCalls = calls := rfl

@[simp] theorem Phase.openCalls_resting : Phase.resting.openCalls = [] := rfl

@[simp] theorem Phase.openCalls_idle : Phase.idle.openCalls = [] := rfl

@[simp] theorem Phase.openCalls_stopped : Phase.stopped.openCalls = [] := rfl

@[simp] theorem Phase.openCalls_afterResult (rest : List PendingEvent) :
    (Phase.afterResult rest).openCalls = rest := by
  cases rest <;> rfl

@[simp] theorem Phase.openCalls_afterCloser (calls : List PendingEvent) :
    (Phase.afterCloser calls).openCalls = calls := by
  cases calls <;> rfl

/-- What is to be answered next is what is open. -/
theorem Phase.openCalls_of_toAnswer {phase : Phase} {call : PendingEvent}
    {rest : List PendingEvent} (working : phase.toAnswer = call :: rest) :
    phase.openCalls = call :: rest := by
  cases phase with
  | answering calls => exact working
  | streaming texts calls chunks =>
      cases texts with
      | cons text texts => cases working
      | nil =>
          simp only [Phase.toAnswer] at working
          split at working
          · exact working
          · cases working
  | idle => cases working
  | resting => cases working
  | stopped => cases working

/-- The model's id of a call. -/
def PendingEvent.toolId (call : PendingEvent) : String :=
  ((call.payload.get? "tool_id").bind Json.str?).getD ""

/-- A tool use: its id, the tool's name and the input. -/
abbrev ToolUse := String × String × Payload

def ToolUse.block (use : ToolUse) : ContentBlock :=
  .toolUse use.1 use.2.1 use.2.2

/-- The tool use of a pending call. -/
def PendingEvent.use (call : PendingEvent) : ToolUse :=
  (call.toolId, ((call.payload.get? "tool_name").bind Json.str?).getD "",
    match call.payload.getD "input" (.obj []) with
    | .obj fields => fields
    | _ => [])

/-- The event of a pending call. -/
def Event.isCall (e : Event) (call : PendingEvent) : Prop :=
  e.id = call.id ∧ e.type = .toolCall ∧ e.payload = call.payload

/-- What the log holds of the open calls, and of the calls its results answer. -/
structure CallsLogged (events : List Event) (calls : List PendingEvent) : Prop where
  logged : ∀ call ∈ calls, ∃ e ∈ events, e.isCall call
  formed : ∀ call ∈ calls, ∃ toolId toolName input,
    call.payload = toolCallPayload toolId toolName input
  unanswered : ∀ call ∈ calls, ∀ e ∈ events, e.id ≠ .toolResult call.id
  distinct : (calls.map PendingEvent.id).Nodup
  results : ∀ e ∈ events, ∀ id, e.id = .toolResult id →
    ∃ call ∈ events, call.id = id ∧ call.type = .toolCall

section Growth

variable {events : List Event} {calls calls' : List PendingEvent} {e : Event}

theorem CallsLogged.sublist (h : CallsLogged events calls) (less : calls'.Sublist calls) :
    CallsLogged events calls' where
  logged call mem := h.logged call (less.subset mem)
  formed call mem := h.formed call (less.subset mem)
  unanswered call mem := h.unanswered call (less.subset mem)
  distinct := h.distinct.sublist (less.map _)
  results := h.results

/-- An event that answers no call. -/
theorem CallsLogged.append (h : CallsLogged events calls) (other : ∀ id, e.id ≠ .toolResult id) :
    CallsLogged (events ++ [e]) calls where
  logged call mem := by
    obtain ⟨e', mem', is⟩ := h.logged call mem
    exact ⟨e', List.mem_append_left _ mem', is⟩
  formed := h.formed
  unanswered call mem e' mem' := by
    rcases List.mem_append.mp mem' with old | new
    · exact h.unanswered call mem e' old
    · rw [List.mem_singleton.mp new]
      exact other call.id
  distinct := h.distinct
  results e' mem id same := by
    rcases List.mem_append.mp mem with old | new
    · obtain ⟨call, mem', called⟩ := h.results e' old id same
      exact ⟨call, List.mem_append_left _ mem', called⟩
    · rw [List.mem_singleton.mp new] at same
      exact absurd same (other id)

/-- A call joins the open ones. -/
theorem CallsLogged.append_call {call : PendingEvent} (h : CallsLogged events calls)
    (is : e.isCall call)
    (formed : ∃ toolId toolName input, call.payload = toolCallPayload toolId toolName input)
    (random : ∀ id, call.id ≠ .toolResult id)
    (fresh : ∀ e' ∈ events, e'.id ≠ call.id) : CallsLogged (events ++ [e]) (calls ++ [call]) := by
  have before := h.append (e := e) fun id same => random id (is.1.symm.trans same)
  constructor
  · intro call' mem
    rcases List.mem_append.mp mem with old | new
    · exact before.logged call' old
    · rw [List.mem_singleton.mp new]
      exact ⟨e, List.mem_append_right _ (List.mem_singleton_self e), is⟩
  · intro call' mem
    rcases List.mem_append.mp mem with old | new
    · exact h.formed call' old
    · rw [List.mem_singleton.mp new]
      exact formed
  · intro call' mem e' mem' same
    rcases List.mem_append.mp mem with old | new
    · exact before.unanswered call' old e' mem' same
    · obtain rfl := List.mem_singleton.mp new
      rcases List.mem_append.mp mem' with old | new
      · obtain ⟨c, logged, called, _⟩ := h.results e' old _ same
        exact fresh c logged called
      · rw [List.mem_singleton.mp new, is.1] at same
        exact random _ same
  · rw [List.map_append]
    refine List.nodup_append.mpr ⟨h.distinct, by simp, ?_⟩
    rintro _ taken _ new rfl
    obtain ⟨call', mem, same⟩ := List.mem_map.mp taken
    obtain ⟨e', logged, is', _⟩ := h.logged call' mem
    exact fresh e' logged (is'.trans (same.trans (by simpa using new)))
  · exact before.results

/-- The first open call is answered. -/
theorem CallsLogged.append_result {call : PendingEvent} {rest : List PendingEvent}
    (h : CallsLogged events (call :: rest)) (answers : e.id = .toolResult call.id) :
    CallsLogged (events ++ [e]) rest := by
  have distinct := List.nodup_cons.mp h.distinct
  constructor
  · intro call' mem
    obtain ⟨e', mem', is⟩ := h.logged call' (List.mem_cons_of_mem _ mem)
    exact ⟨e', List.mem_append_left _ mem', is⟩
  · exact fun call' mem => h.formed call' (List.mem_cons_of_mem _ mem)
  · intro call' mem e' mem' same
    rcases List.mem_append.mp mem' with old | new
    · exact h.unanswered call' (List.mem_cons_of_mem _ mem) e' old same
    · rw [List.mem_singleton.mp new, answers, EventId.toolResult.injEq] at same
      exact distinct.1 (List.mem_map.mpr ⟨call', mem, same.symm⟩)
  · exact distinct.2
  · intro e' mem id same
    rcases List.mem_append.mp mem with old | new
    · obtain ⟨c, logged, called⟩ := h.results e' old id same
      exact ⟨c, List.mem_append_left _ logged, called⟩
    · rw [List.mem_singleton.mp new, answers, EventId.toolResult.injEq] at same
      obtain ⟨c, logged, is⟩ := h.logged call List.mem_cons_self
      exact ⟨c, List.mem_append_left _ logged, is.1.trans same, is.2.1⟩

end Growth

variable {rt : Runtime} {agents : AgentId → Option Agent} {sid : SessionId} {agentId : AgentId}

/-- In an event that was put there by a step of the protocol, the kind decides the id. -/
theorem Logged.result {agent : Option Agent} {id : EventId} {type : EventType} {payload : Payload}
    (h : Logged rt agent sid id type payload) (result : type = .toolResult) :
    ∃ call, id = .toolResult call ∧ payload.get? "tool_call_id" = some (.uuid call) := by
  rcases h with ⟨_, _, _, other, _⟩ | ⟨_, _, _, _, emits, _⟩
  · rw [result] at other
    cases other
  · subst result
    cases emits with
    | result working answers => exact ⟨_, rfl, answers⟩

theorem Logged.call {agent : Option Agent} {id : EventId} {type : EventType} {payload : Payload}
    (h : Logged rt agent sid id type payload) (call : type = .toolCall) :
    ∃ toolId toolName input, payload = toolCallPayload toolId toolName input := by
  rcases h with ⟨_, _, _, other, _⟩ | ⟨_, _, _, _, emits, _⟩
  · rw [call] at other
    cases other
  · subst call
    cases emits with
    | toolCall silent => exact ⟨_, _, _, rfl⟩

theorem Logged.user {agent : Option Agent} {id : EventId} {type : EventType} {payload : Payload}
    (h : Logged rt agent sid id type payload) (user : type = .userMessage) :
    ∃ content, payload = userPayload content := by
  rcases h with ⟨content, _, _, _, said⟩ | ⟨_, _, _, _, emits, _⟩
  · exact ⟨content, said⟩
  · subst user
    cases emits

/-- An id that was drawn is not the id of an event yet. -/
theorem Sound.fresh {w : World} {g : Stage} (sound : Sound rt agents sid w g) (id : EventId)
    (drawn : g.drawn = some id) : (∃ n, id = .uuid4 n) ∧ ∀ e ∈ w.session.events, e.id ≠ id := by
  obtain ⟨n, _, random, unused⟩ := sound.drawn id drawn
  exact ⟨⟨n, random⟩, unused⟩

theorem callsLogged_logInvariant (C : RunConfig → RunAction → Prop) :
    LogInvariant rt agents sid C fun w phase => CallsLogged w.session.events phase.openCalls where
  begun _ _ h _ := h
  stopped _ _ h := h.sublist (List.nil_sublist _)
  appended w g id type payload phase fresh k sound h _ emits := by
    obtain ⟨before, drawn, current⟩ := g
    have random := fun drawn => (sound.fresh id drawn).1
    cases emits with
    | seed => exact h.append (by rintro id ⟨⟩)
    | compaction => exact h.append (by rintro id ⟨⟩)
    | delta silent =>
        obtain ⟨n, rfl⟩ := random rfl
        exact h.append (by rintro id ⟨⟩)
    | toolCall silent =>
        obtain ⟨n, rfl⟩ := random rfl
        exact h.append_call ⟨rfl, rfl, rfl⟩ ⟨_, _, _, rfl⟩ (by rintro id ⟨⟩) fresh
    | error silent =>
        obtain ⟨n, rfl⟩ := random rfl
        exact (h.sublist (List.nil_sublist _)).append (by rintro id ⟨⟩)
    | closer spoken drained =>
        obtain ⟨n, rfl⟩ := random rfl
        rw [Phase.openCalls_afterCloser]
        exact h.append (by rintro id ⟨⟩)
    | provisioned working => exact h.append (by rintro id ⟨⟩)
    | result working answers =>
        rw [Phase.openCalls_afterResult]
        rw [Phase.openCalls_of_toAnswer working] at h
        exact h.append_result rfl
  replayed w g id type payload phase e k sound h _ emits mem same := by
    obtain ⟨before, drawn, current⟩ := g
    have fresh := fun drawn => (sound.fresh id drawn).2 e mem same
    cases emits with
    | seed | compaction | provisioned => exact h
    | delta | toolCall | error | closer => exact absurd rfl fresh
    | result working answers =>
        rw [Phase.openCalls_of_toAnswer working] at h
        exact absurd same (h.unanswered _ List.mem_cons_self e mem)
  requested _ _ _ _ _ h _ := h
  said w p phase n content fresh h _ _ := h.append (by rintro id ⟨⟩)
  agrees w w' _ h same := by rwa [same.events]

theorem callsLogged_create : CallsLogged (World.create sid agentId).session.events [] where
  logged := by simp
  formed := by simp
  unanswered := by simp
  distinct := List.nodup_nil
  results := by simp [World.create, SessionState.create]

section Rule

variable (rt agents sid)

/-- The rule for properties of the log, the streams and the phase. What `Sound` and
`CallsLogged` say is free, and no case is left for an event that is met again: its
emission changes neither the log nor the phase. -/
structure TurnInvariant (C : RunConfig → RunAction → Prop) (J : World → Phase → Prop) : Prop where
  begun : ∀ w, Sound rt agents sid w ⟨.idle, none, false⟩ → CallsLogged w.session.events [] →
    J w .idle → C ⟨w, none⟩ .start → J w.boot .resting
  stopped : ∀ w phase, CallsLogged w.session.events phase.openCalls → J w phase → J w .idle
  appended : ∀ w g id type payload phase fresh k, Sound rt agents sid w g →
    CallsLogged w.session.events g.phase.openCalls → J w g.phase →
    C ⟨w, some (.op (.emitEvent id type payload) k)⟩ (.respond .done) →
    EmitsIn rt agents sid w g id type payload phase → J (w.append id type payload fresh) phase
  requested : ∀ w stream messages tools k, J w .resting →
    C ⟨w, some (.op (.complete messages tools) k)⟩ (.respond (.streams stream)) →
    J (w.hear stream) (.streaming [] [] stream.chunks)
  said : ∀ w p phase n content fresh, CallsLogged w.session.events phase.openCalls → J w phase →
    (p = none → phase = .idle) → C ⟨w, p⟩ (.disturb (.say content)) →
    J (w.append (.uuid4 n) .userMessage (userPayload content) fresh) phase
  agrees : ∀ w w' phase, J w phase → w.Agrees w' → J w' phase

variable {rt agents sid} {C : RunConfig → RunAction → Prop} {J : World → Phase → Prop}

/-- An event that is met again leaves the phase it was emitted in. -/
theorem replayed_phase {w : World} {g : Stage} {id : EventId} {type : EventType}
    {payload : Payload} {phase : Phase} {e : Event} (sound : Sound rt agents sid w g)
    (calls : CallsLogged w.session.events g.phase.openCalls)
    (emits : EmitsIn rt agents sid w g id type payload phase) (mem : e ∈ w.session.events)
    (same : e.id = id) : phase = g.phase := by
  obtain ⟨before, drawn, current⟩ := g
  have fresh := fun drawn => (sound.fresh id drawn).2 e mem same
  cases emits with
  | seed | compaction | provisioned => rfl
  | delta | toolCall | error | closer => exact absurd rfl fresh
  | result working answers =>
      rw [Phase.openCalls_of_toAnswer working] at calls
      exact absurd same (calls.unanswered _ List.mem_cons_self e mem)

theorem TurnInvariant.logInvariant (h : TurnInvariant rt agents sid C J) :
    LogInvariant rt agents sid C fun w phase =>
      CallsLogged w.session.events phase.openCalls ∧ J w phase where
  begun w sound holds permitted := ⟨holds.1, h.begun w sound holds.1 holds.2 permitted⟩
  stopped w phase holds :=
    ⟨holds.1.sublist (List.nil_sublist _), h.stopped w phase holds.1 holds.2⟩
  appended w g id type payload phase fresh k sound holds permitted emits :=
    ⟨(@callsLogged_logInvariant rt agents sid C).appended w g id type payload phase fresh k sound
      holds.1 permitted emits,
      h.appended w g id type payload phase fresh k sound holds.1 holds.2 permitted emits⟩
  replayed w g id type payload phase e k sound holds _ emits mem same := by
    rw [replayed_phase sound holds.1 emits mem same]
    exact holds
  requested w stream messages tools k holds permitted :=
    ⟨holds.1, h.requested w stream messages tools k holds.2 permitted⟩
  said w p phase n content fresh holds dead permitted :=
    ⟨holds.1.append (by rintro id ⟨⟩),
      h.said w p phase n content fresh holds.1 holds.2 dead permitted⟩
  agrees w w' phase holds same :=
    ⟨by rw [same.events]; exact holds.1, h.agrees w w' phase holds.2 same⟩

/-- Adequacy of the rule. -/
theorem TurnInvariant.reachable (h : TurnInvariant rt agents sid C J)
    (initial : J (.create sid agentId) .idle) {c : RunConfig}
    (reachable : (sessionSystem rt agents sid agentId).ReachableIf C c) :
    ∃ g, (loopMonitor rt agents sid).Watches c g ∧ Sound rt agents sid c.state g ∧
      CallsLogged c.state.session.events g.phase.openCalls ∧ J c.state g.phase :=
  h.logInvariant.reachable ⟨callsLogged_create, initial⟩ reachable

/-- Adequacy of the rule from a watched state on. -/
theorem TurnInvariant.reaches (h : TurnInvariant rt agents sid C J) {c c' : RunConfig} {g : Stage}
    (watched : (loopMonitor rt agents sid).Watches c g) (sound : Sound rt agents sid c.state g)
    (logged : CallsLogged c.state.session.events g.phase.openCalls) (holds : J c.state g.phase)
    (reaches : (sessionSystem rt agents sid agentId).Reaches C c c') :
    ∃ g', (loopMonitor rt agents sid).Watches c' g' ∧ Sound rt agents sid c'.state g' ∧
      CallsLogged c'.state.session.events g'.phase.openCalls ∧ J c'.state g'.phase :=
  h.logInvariant.loopInvariant.monitorInvariant.reaches (fun w => runSession_safe w.boot rfl)
    watched ⟨sound, logged, holds⟩ reaches

/-- What holds of the log and the phase held at the latest read, unless the run has
emitted since. -/
theorem LogInvariant.atRead_loopInvariant (K : List Event → Phase → Prop)
    (h : LogInvariant rt agents sid C fun w phase => K w.session.events phase) :
    LoopInvariant rt agents sid C fun w g =>
      (Sound rt agents sid w g ∧ K w.session.events g.phase) ∧
      (g.current = true → K w.lastRead.log g.phase) where
  begun w holds permitted := ⟨h.loopInvariant.begun w holds.1 permitted, by rintro ⟨⟩⟩
  stopped w g holds := ⟨h.loopInvariant.stopped w g holds.1, by rintro ⟨⟩⟩
  appended w g id type payload phase fresh k holds permitted emits active :=
    ⟨h.loopInvariant.appended w g id type payload phase fresh k holds.1 permitted emits active,
      by rintro ⟨⟩⟩
  replayed w g id type payload phase e k holds permitted emits mem same :=
    ⟨h.loopInvariant.replayed w g id type payload phase e k holds.1 permitted emits mem same,
      by rintro ⟨⟩⟩
  requested w g stream messages tools k holds permitted resting current :=
    ⟨h.loopInvariant.requested w g stream messages tools k holds.1 permitted resting current,
      by rintro ⟨⟩⟩
  read w g holds := ⟨h.loopInvariant.read w g holds.1, fun _ => holds.1.2⟩
  drew w g holds := ⟨h.loopInvariant.drew w g holds.1, holds.2⟩
  said w p g content fresh holds dead permitted :=
    ⟨h.loopInvariant.said w p g content fresh holds.1 dead permitted, holds.2⟩
  drawsOnly w g holds := ⟨h.loopInvariant.drawsOnly w g holds.1, holds.2⟩
  same w w' g holds same := ⟨h.loopInvariant.same w w' g holds.1 same, by
    rw [same.lastRead]
    exact holds.2⟩

/-- A property of the log holds of the log that was read, until the next event of the run. -/
theorem TurnInvariant.atRead {K : List Event → Phase → Prop}
    (h : TurnInvariant rt agents sid C fun w phase => K w.session.events phase)
    (initial : K [] .idle) {c : RunConfig}
    (reachable : (sessionSystem rt agents sid agentId).ReachableIf C c) :
    ∃ g, (loopMonitor rt agents sid).Watches c g ∧ Sound rt agents sid c.state g ∧
      (g.current = true → K c.state.lastRead.log g.phase) := by
  have lifted := h.logInvariant.atRead_loopInvariant fun events phase =>
    CallsLogged events phase.openCalls ∧ K events phase
  obtain ⟨g, watched, ⟨sound, _⟩, read⟩ := lifted.reachable
    ⟨⟨sound_initial agentId, callsLogged_create, initial⟩, by rintro ⟨⟩⟩ reachable
  exact ⟨g, watched, sound, fun current => (read current).2⟩

end Rule

/-- Every result of a log answers a call of the log. -/
def ResultsRefer (events : List Event) : Prop :=
  ∀ r ∈ events, r.type = .toolResult → ∃ call ∈ events, call.type = .toolCall ∧
    (∃ toolId toolName input, call.payload = toolCallPayload toolId toolName input) ∧
    r.payload.get? "tool_call_id" = some (.uuid call.id)

theorem ResultsRefer.append {events : List Event} {e : Event} (h : ResultsRefer events)
    (other : e.type ≠ .toolResult) : ResultsRefer (events ++ [e]) := by
  intro r mem type
  rcases List.mem_append.mp mem with old | new
  · obtain ⟨call, mem', called⟩ := h r old type
    exact ⟨call, List.mem_append_left _ mem', called⟩
  · rw [List.mem_singleton.mp new] at type
    exact absurd type other

theorem Sound.resultsRefer {w : World} {g : Stage} {calls : List PendingEvent}
    (sound : Sound rt agents sid w g) (logged : CallsLogged w.session.events calls) :
    ResultsRefer w.session.events := by
  intro r mem type
  obtain ⟨id, same, answers⟩ := (sound.logged r mem).result type
  obtain ⟨call, mem', rfl, called⟩ := logged.results r mem id same
  exact ⟨call, mem', called, (sound.logged call mem').call called, answers⟩

section Lookup

variable {events : List Event} {e : Event}

/-- The ids of the calls that `p` lets through. -/
def KnowsCalls (p : Event → Bool) (ids : List (EventId × String)) (events : List Event) : Prop :=
  ∀ e ∈ events, ∀ toolId toolName input, e.type = .toolCall →
    e.payload = toolCallPayload toolId toolName input →
    ids.lookup e.id = if p e then some toolId else none

theorem KnowsCalls.of_append {p : Event → Bool} {ids : List (EventId × String)}
    {tail : List Event} (h : KnowsCalls p ids (events ++ tail)) : KnowsCalls p ids events :=
  fun e mem => h e (List.mem_append_left _ mem)

/-- An open call is known if its event is let through. -/
theorem KnowsCalls.lookup {p : Event → Bool} {ids : List (EventId × String)} {call : PendingEvent}
    {calls : List PendingEvent} (h : KnowsCalls p ids events) (logged : CallsLogged events calls)
    (mem : call ∈ calls) : ∃ e ∈ events, e.isCall call ∧
      ids.lookup call.id = if p e then some call.toolId else none := by
  obtain ⟨e, mem', is⟩ := logged.logged call mem
  obtain ⟨toolId, toolName, input, payload⟩ := logged.formed call mem
  have read : call.toolId = toolId := by
    rw [PendingEvent.toolId, payload]
    rfl
  refine ⟨e, mem', is, ?_⟩
  rw [← is.1, read]
  exact h e mem' toolId toolName input is.2.1 (is.2.2.trans payload)

theorem mem_toolCallIds {id : EventId} {toolId : String} :
    (id, toolId) ∈ toolCallIds events ↔ ∃ e ∈ events, e.type = .toolCall ∧ e.id = id ∧
      (e.payload.get? "tool_id").bind Json.str? = some toolId := by
  simp only [toolCallIds, List.mem_reverse, List.mem_filterMap]
  constructor
  · rintro ⟨e, mem, found⟩
    split at found
    · rename_i type
      obtain ⟨toolId', read, same⟩ := Option.map_eq_some_iff.mp found
      cases same
      exact ⟨e, mem, type, rfl, read⟩
    · cases found
  · rintro ⟨e, mem, type, rfl, read⟩
    exact ⟨e, mem, by simp [type, read]⟩

/-- The calls of a view are known under their own tool ids, and no others. -/
theorem knowsCalls_toolCallIds (distinct : (events.map Event.id).Nodup) (p : Event → Bool) :
    KnowsCalls p (toolCallIds (events.filter p)) events := by
  intro e mem toolId toolName input type payload
  have only : ∀ toolId', (e.id, toolId') ∈ toolCallIds (events.filter p) →
      p e = true ∧ toolId' = toolId := by
    intro toolId' listed
    obtain ⟨e', shown, _, same, read⟩ := mem_toolCallIds.mp listed
    obtain ⟨mem', passes⟩ := List.mem_filter.mp shown
    obtain rfl := List.inj_on_of_nodup_map distinct mem' mem same
    refine ⟨passes, ?_⟩
    rw [payload] at read
    exact (Option.some.inj read).symm
  by_cases passes : p e = true
  · rw [if_pos passes]
    have listed : (e.id, toolId) ∈ toolCallIds (events.filter p) :=
      mem_toolCallIds.mpr ⟨e, List.mem_filter.mpr ⟨mem, passes⟩, type, rfl, by rw [payload]; rfl⟩
    cases found : (toolCallIds (events.filter p)).lookup e.id with
    | none => exact absurd rfl (bne_iff_ne.mp (List.lookup_eq_none_iff.mp found _ listed))
    | some toolId' =>
        obtain ⟨xs, ys, split, _⟩ := List.lookup_eq_some_iff.mp found
        rw [(only toolId' (by rw [split]; simp)).2]
  · rw [if_neg passes, List.lookup_eq_none_iff]
    rintro ⟨id, toolId'⟩ listed
    refine bne_iff_ne.mpr fun same => passes (only toolId' ?_).1
    rw [same]
    exact listed

end Lookup

end Tename
