import Tename.Harness.Stopping
import Tename.Harness.ToolResults
import Tename.Harness.WellFormed
import Tename.Program.Returning
import Tename.Router.Requests

/-!
# What the model is asked

The messages of a request are folded from the log, and the provider writes them in its own
format. Whatever has happened to the session, the request says what the log says: it can be
read, and what is read are the messages that the loop has passed to the router.
-/

namespace Tename

variable {rt : Runtime} {agents : AgentId → Option Agent} {sid : SessionId} {agentId : AgentId}

section Emissions

/-- An emission is of an event that `Q` allows. -/
def Op.EmitsOnly (Q : EventType → Payload → Prop) : Op → Prop
  | .emitEvent _ type payload => Q type payload
  | _ => True

variable {w w' : World}

/-- An operation adds the event that it emits, or none. -/
theorem World.perform_appends {o : Op} {answer : Answer} {r : Except Exn o.Res}
    (performed : w.perform agents o answer = some (w', r)) :
    w'.session.events = w.session.events ∨ ∃ id type payload, o = .emitEvent id type payload ∧
      w'.session.events = w.session.events ++ [w.session.nextEvent id type payload] := by
  by_cases idle : o.idle = true
  · left
    rw [(World.perform_grown performed idle).events, List.append_nil]
  · cases o with
    | emitEvent id type payload =>
        cases answer with
        | done =>
            have performed : some (w.emit id type payload) = some (w', r) := performed
            rcases w.emit_cases id type payload with ⟨e, h⟩ | ⟨e, -, -, h⟩ | ⟨-, fresh, h⟩ <;>
              rw [h] at performed <;> cases performed
            · exact .inl rfl
            · exact .inl rfl
            · exact .inr ⟨id, type, payload, rfl, rfl⟩
        | raises e =>
            cases performed
            exact .inl rfl
        | _ => cases performed
    | complete messages tools => cases answer <;> cases performed <;> exact .inl rfl
    | markComplete =>
        exact .inl (World.perform_sameLog performed (.inr rfl)).events
    | _ => exact absurd rfl idle

/-- A client adds its message, or nothing. -/
theorem World.disturb_appends {a : ClientAction} (disturbed : w.disturb a = some w') :
    w'.session.events = w.session.events ∨ ∃ id content, w'.session.events =
      w.session.events ++ [w.session.nextEvent id .userMessage (userPayload content)] := by
  cases a with
  | complete =>
      obtain rfl := Option.some.inj disturbed
      exact .inl w.markComplete_sameLog.events
  | say content =>
      obtain rfl := Option.some.inj disturbed
      rcases w.draw.1.emit_cases w.draw.2 .userMessage (userPayload content) with
        ⟨e, h⟩ | ⟨e, -, -, h⟩ | ⟨-, fresh, h⟩
      · exact .inl (congrArg (·.1.session.events) h)
      · exact .inl (congrArg (·.1.session.events) h)
      · exact .inr ⟨_, content, congrArg (·.1.session.events) h⟩

/-- A step adds to the log what the runtime emits, or what a client says, or nothing. -/
theorem events_of_step {c c' : RunConfig} {a : RunAction}
    (stepped : (sessionSystem rt agents sid agentId).step c a = some c') :
    c'.state.session.events = c.state.session.events ∨ ∃ id type payload,
      c'.state.session.events =
        c.state.session.events ++ [c.state.session.nextEvent id type payload] ∧
      ((∃ k, c.program = some (.op (.emitEvent id type payload) k)) ∨
        type = .userMessage ∧ ∃ content, payload = userPayload content) := by
  obtain ⟨w, program⟩ := c
  rcases Process.step_cases stepped with ⟨-, -, rfl⟩ |
    ⟨answer, o, k, w', r, -, rfl, performed, rfl⟩ | ⟨-, -, rfl⟩ | ⟨x, w', -, disturbed, rfl⟩
  · exact .inl rfl
  · rcases World.perform_appends performed with same | ⟨id, type, payload, rfl, grown⟩
    · exact .inl same
    · exact .inr ⟨id, type, payload, grown, .inl ⟨k, rfl⟩⟩
  · exact .inl rfl
  · rcases World.disturb_appends disturbed with same | ⟨id, content, grown⟩
    · exact .inl same
    · exact .inr ⟨id, .userMessage, _, grown, .inr ⟨rfl, content, rfl⟩⟩

/-- The log holds what clients say and what the runtime emits. -/
theorem logged_of_within {Q : EventType → Payload → Prop} {C : RunConfig → RunAction → Prop}
    {c : RunConfig} (within : (runSession rt sid).Within (Op.EmitsOnly Q))
    (said : ∀ content, Q .userMessage (userPayload content))
    (reachable : (sessionSystem rt agents sid agentId).ReachableIf C c) :
    ∀ e ∈ c.state.session.events, Q e.type e.payload := by
  obtain ⟨c₀, initial, reaches⟩ := reachable
  induction reaches with
  | refl =>
      rw [initial.2]
      simp [World.create, SessionState.create]
  | tail before _ stepped ih =>
      intro e mem
      rcases events_of_step stepped with same | ⟨id, type, payload, grown, origin⟩
      · rw [same] at mem
        exact ih e mem
      · rw [grown] at mem
        rcases List.mem_append.mp mem with old | new
        · exact ih e old
        · rw [List.mem_singleton.mp new]
          rcases origin with ⟨k, running⟩ | ⟨rfl, content, rfl⟩
          · exact (Process.within_of_reachable within ⟨c₀, initial, before⟩ running).1
          · exact said content

end Emissions

section Reports

/-- A payload that reports a result: its content is a text, and its flag is there. -/
def Payload.Reports (payload : Payload) : Prop :=
  ∃ said isError, payload.get? "content" = some (.str said) ∧
    payload.get? "is_error" = some (.bool isError)

/-- Results are reports. -/
def ReportsResults (type : EventType) (payload : Payload) : Prop :=
  type = .toolResult → payload.Reports

theorem reports_of_result {call : PendingEvent} {outcome : ToolOutcome} {payload : Payload}
    (reported : outcome.result rt call = .ok payload) : payload.Reports := by
  have caught' {e : Exn} {p : Payload} (reports : p.Reports) (reported : caught e p = .ok payload) :
      payload.Reports := by
    unfold caught at reported
    split at reported
    · rwa [← Except.ok.inj reported]
    · cases reported
  cases outcome with
  | refused =>
      obtain rfl := Except.ok.inj reported
      exact ⟨_, true, rfl, rfl⟩
  | unprovisioned e => exact caught' ⟨_, true, rfl, rfl⟩ reported
  | failed sandbox e => exact caught' ⟨_, true, rfl, rfl⟩ reported
  | executed sandbox r =>
      obtain rfl := Except.ok.inj reported
      exact ⟨_, _, rfl, rfl⟩
  | unanswered e => cases reported
  | proxied r =>
      obtain rfl := Except.ok.inj reported
      exact ⟨_, _, rfl, rfl⟩

/-- The program emits reports for results. -/
abbrev Reporting {α : Type} (p : Harness α) : Prop :=
  p.Within (Op.EmitsOnly ReportsResults)

theorem reporting_of_plain {α : Type} {p : Harness α} (plain : Plain p) : Reporting p := by
  refine plain.mono fun o neutral => ?_
  cases o with
  | emitEvent id type payload =>
      rintro rfl
      cases neutral
  | _ => trivial

theorem reporting_emit {id : EventId} {type : EventType} {payload : Payload}
    (other : type ≠ .toolResult) : Reporting (Harness.emitEvent id type payload) :=
  Program.within_perform fun result => absurd result other

theorem streamChunks_reporting {adapter : FrameworkAdapter} (standard : Standard adapter)
    (failure : Option Exn) (chunks : List ModelChunk) (st : TurnState) :
    Reporting (streamChunks adapter failure chunks st) := by
  induction chunks generalizing st with
  | nil => cases failure <;> trivial
  | cons chunk chunks ih =>
      rw [streamChunks, standard.chunkToEvent]
      cases told : chunkEvent chunk with
      | none => exact ih _
      | some p =>
          have other : p.1 ≠ .toolResult := by
            rintro result
            cases chunk <;> cases told <;> cases result
          refine Program.Within.bind (Program.within_perform (o := Op.uuid4) trivial) fun id => ?_
          refine Program.Within.bind (reporting_emit other) fun _ => ?_
          split
          · exact ih _
          · split
            · trivial
            · exact ih _

theorem runTurn_reporting {adapter : FrameworkAdapter} (standard : Standard adapter)
    (messages : List Message) (tools : List ToolDef) :
    Reporting (runTurn adapter messages tools) := by
  refine Program.Within.bind (Program.within_perform (o := Op.complete ..) trivial) fun stream => ?_
  refine Program.Within.bind (streamChunks_reporting standard _ _ _) fun st => ?_
  split
  · refine Program.Within.bind (Program.within_perform (o := Op.uuid4) trivial) fun id => ?_
    exact Program.Within.bind (reporting_emit (by rintro ⟨⟩)) fun _ => trivial
  · trivial

theorem executeToolCalls_reporting (agent : Agent) (calls : List PendingEvent) :
    Reporting (executeToolCalls rt sid agent calls) := by
  refine Program.Within.forEach fun call => ?_
  refine Program.Within.bind_returning (reporting_of_plain (plain_toolPayload rt sid agent call))
    fun payload returns => ?_
  rw [toolPayload_eq, Program.mayReturn_bind] at returns
  obtain ⟨outcome, -, reported⟩ := returns
  refine Program.Within.bind (Program.within_perform fun _ => ?_) fun _ => trivial
  exact reports_of_result (Program.mayReturn_settle.mp reported)

theorem runTurns_reporting {agent : Agent} {profile : Profile} {adapter : FrameworkAdapter}
    (standard : Standard adapter) (startedAt : ℚ) (turns : Nat) :
    Reporting (runTurns rt sid agent profile adapter startedAt turns) := by
  induction turns with
  | zero => trivial
  | succ turns ih =>
      rw [runTurns]
      refine (reporting_of_plain (plain_overDuration profile startedAt)).bind fun late => ?_
      split
      · trivial
      · refine (reporting_of_plain (plain_readEvents sid profile)).bind fun events => ?_
        dsimp only
        split
        · trivial
        · refine (runTurn_reporting standard _ _).bind fun result => ?_
          split
          · trivial
          · split
            · trivial
            · exact (executeToolCalls_reporting agent _).bind fun _ => ih

theorem runSession_reporting : Reporting (runSession rt sid) := by
  refine Program.Within.bind (Program.within_perform (o := Op.wake) trivial) fun session => ?_
  refine Program.Within.bind (Program.within_perform (o := Op.getAgent _) trivial) fun agent => ?_
  refine (Program.within_settle _).bind fun profile => ?_
  refine Program.Within.bind_returning (Program.within_settle _) fun adapter returns => ?_
  have standard := standard_of_getAdapter (Program.mayReturn_settle.mp returns)
  refine (reporting_of_plain (plain_seed sid agent)).bind fun _ => ?_
  refine Program.Within.bind (Program.within_perform (o := Op.monotonic) trivial)
    fun startedAt => ?_
  refine Program.Within.bind (.tryFinally (runTurns_reporting standard _ _)
    (reporting_of_plain (plain_destroySandboxes rt))) fun _ => ?_
  exact Program.Within.bind (Program.within_perform (o := Op.markComplete) trivial) fun _ => trivial

/-- Every result in the log is a report. -/
theorem log_reports {C : RunConfig → RunAction → Prop} {c : RunConfig}
    (reachable : (sessionSystem rt agents sid agentId).ReachableIf C c) :
    ∀ e ∈ c.state.session.events, e.type = .toolResult → e.payload.Reports :=
  logged_of_within runSession_reporting (by rintro _ ⟨⟩) reachable

end Reports

section Folding

open ContextFold

theorem toolResultBlock_reported {toolUseId : String} {payload : Payload}
    (reports : payload.Reports) : (toolResultBlock toolUseId payload).Reported := by
  obtain ⟨said, isError, content, flag⟩ := reports
  have read : toolResultBlock toolUseId payload =
      .toolResult toolUseId (.text said) (some isError) := by
    simp only [toolResultBlock, resultContent, Payload.getD, content, flag, Option.getD_some]
    cases isError <;> rfl
  rw [read]
  exact .text _ _ _

/-- What has been folded so far makes readable messages. -/
structure ContextFold.Readable (st : ContextFold) : Prop where
  messages : ∀ m ∈ st.messages, m.Readable
  uses : ∀ block ∈ st.pendingToolUses, block.Spoken
  results : ∀ result ∈ st.pendingToolResults, result.Reported

namespace ContextFold.Readable

variable {st : ContextFold} {m : Message}

theorem push (h : st.Readable) (readable : m.Readable) : (st.push m).Readable := by
  refine ⟨?_, h.uses, h.results⟩
  intro m' mem
  rcases List.mem_append.mp mem with old | new
  · exact h.messages m' old
  · rwa [List.mem_singleton.mp new]

theorem flushAssistant (h : st.Readable) : st.flushAssistant.Readable := by
  unfold ContextFold.flushAssistant
  split
  · exact h
  · rename_i some'
    have readable : (assistantMessage st.pendingText st.pendingToolUses).Readable := by
      refine .assistant ?_ ?_
      · intro nothing
        obtain ⟨silent, none'⟩ := List.append_eq_nil_iff.mp nothing
        exact some' ⟨by_contra fun text => by simp [text] at silent, by simp [none']⟩
      · intro block mem
        rcases List.mem_append.mp mem with said | used
        · split at said
          · cases said
          · rw [List.mem_singleton.mp said]
            exact .text _
        · exact h.uses block used
    exact ⟨(h.push readable).messages, by simp, h.results⟩

theorem flushToolResults (h : st.Readable) : st.flushToolResults.Readable := by
  unfold ContextFold.flushToolResults
  split
  · exact h
  · rename_i some'
    have readable : Message.Readable ⟨.tool, .blocks st.pendingToolResults⟩ :=
      .tool (by simpa using some') h.results
    exact ⟨(h.push readable).messages, h.uses, by simp⟩

theorem flush (h : st.Readable) : st.flush.Readable :=
  h.flushAssistant.flushToolResults

theorem foldEvent {ids : List (EventId × String)} {e : Event} (h : st.Readable)
    (reports : e.type = .toolResult → e.payload.Reports) : (foldEvent ids st e).Readable := by
  unfold Tename.foldEvent
  cases type : e.type with
  | systemEvent =>
      dsimp only
      split
      · split
        · split
          · exact h.flush
          · exact h.flush.push (.system _)
        · exact h.flush
      · exact h
  | userMessage =>
      dsimp only
      split
      · exact h.flush.push (.user _)
      · exact h.flush
  | assistantMessage =>
      dsimp only
      split
      · split
        · exact ⟨h.flushToolResults.messages, h.flushToolResults.uses, h.flushToolResults.results⟩
        · exact h.flushToolResults
      · exact h
  | toolCall =>
      dsimp only
      split
      · rename_i toolId toolName _ _
        have before : (if st.pendingToolResults.isEmpty then st else st.flush).Readable := by
          split
          · exact h
          · exact h.flush
        refine ⟨before.messages, ?_, before.results⟩
        intro block mem
        rcases List.mem_append.mp mem with old | new
        · exact before.uses block old
        · rw [List.mem_singleton.mp new]
          exact .toolUse _ _ _
      · exact h
  | toolResult =>
      dsimp only
      split
      · exact h.flushAssistant
      · rename_i toolUseId _
        refine ⟨h.flushAssistant.messages, h.flushAssistant.uses, ?_⟩
        intro result mem
        rcases List.mem_append.mp mem with old | new
        · exact h.flushAssistant.results result old
        · rw [List.mem_singleton.mp new]
          exact toolResultBlock_reported (reports type)
  | harnessEvent => exact h
  | error => exact h

end ContextFold.Readable

/-- What is folded from a log of reports is readable. -/
theorem foldContext_readable {events : List Event}
    (reports : ∀ e ∈ events, e.type = .toolResult → e.payload.Reports) :
    ∀ m ∈ foldContext events, m.Readable := by
  have folded (ids : List (EventId × String)) : (events.foldl (foldEvent ids) .empty).Readable := by
    refine List.foldlRecOn events _ ⟨by simp [empty], by simp [empty], by simp [empty]⟩ ?_
    intro st h e mem
    exact h.foldEvent (reports e mem)
  exact (folded _).flush.messages

end Folding

variable {float : ℚ → String} {str : Json → String}

/-- Whatever has happened to a session, the request of its run says what the log says: what the
API can read off it are the system prompts, the conversation and the tools that the loop has
passed to the router, with one sampling parameter, and a mark for the cache where the profile
asks for one. -/
theorem request_reads {c : RunConfig} {messages : List Message} {tools : Option (List ToolDef)}
    {k : Except Exn ModelStream → Harness Unit} {profile : RequestProfile}
    (reachable : (sessionSystem rt agents sid agentId).Reachable c)
    (requested : c.program = some (.op (.complete messages tools) k)) :
    readRequest? (buildRequest float str profile messages tools) =
      some (requestFor float profile messages tools) ∧
    messages = foldContext (applyCompactionView c.state.lastRead.page) := by
  obtain ⟨g, watched, sound, -⟩ :=
    callsLogged_logInvariant _ |>.reachable callsLogged_create reachable
  obtain ⟨-, -, folded, user⟩ := watched.permits requested
  obtain ⟨m, mem, asks⟩ := List.any_eq_true.mp user
  refine ⟨readRequest?_buildRequest ?_ ⟨m, mem, ?_⟩, folded⟩
  · rw [folded]
    refine foldContext_readable fun e mem => ?_
    have shown := applyCompactionView_sublist.subset mem
    rw [sound.page] at shown
    exact log_reports reachable e (sound.readPast.subset (List.mem_of_mem_take shown))
  · rw [of_decide_eq_true asks]
    rintro ⟨⟩

section Witness

/-- A profile that restricts `top_p` and marks the system prompt. -/
def RequestProfile.marking : RequestProfile where
  modelId := "claude"
  caching := ⟨.explicitBreakpoints, [.systemPrompt]⟩
  sampling := ⟨7 / 10, 9 / 10, 4096, by decide +kernel, by decide +kernel, by decide⟩

/-- A turn with a text and a call, the result of the call, and the read for the next turn. -/
def promptedRound : List RunAction :=
  [.disturb (.say "go"), .start, .respond .done, .respond .done, .respond .done,
    .respond (.reads 0), .respond .done,
    .respond (.streams ⟨[.textDelta "a", .toolCallEnd "t1" "lookup" [] 0], none⟩)] ++
    List.replicate 8 (.respond .done)

/-- A request with a system prompt, a call and its result. -/
theorem request_reads_round : ∃ (c : RunConfig) (messages : List Message)
    (tools : Option (List ToolDef)) (k : Except Exn ModelStream → Harness Unit),
    c.program = some (.op (.complete messages tools) k) ∧
    messages.map Message.role = [.user, .system, .assistant, .tool] ∧
    (readRequest? (buildRequest (fun _ => "0.9") (fun _ => "") .marking messages tools) =
      some (requestFor (fun _ => "0.9") .marking messages tools) ∧
    messages = foldContext (applyCompactionView c.state.lastRead.page)) := by
  obtain ⟨c, ran, rest⟩ := Option.bind_eq_some_iff.mp (show
    ((bareSystem .spacious (some "Be brief.")).run ⟨.create "s" "agent", none⟩
      promptedRound).bind (fun c => (requesting? c).map (·.map Message.role)) =
        some [.user, .system, .assistant, .tool]
      by decide +kernel)
  obtain ⟨messages, requested, roles⟩ := Option.map_eq_some_iff.mp rest
  obtain ⟨tools, k, pending⟩ := requesting?_eq_some requested
  exact ⟨c, messages, tools, k, pending, roles, request_reads
    ⟨_, ⟨rfl, rfl⟩, Transition.System.later_of_run ran⟩ pending⟩

end Witness

end Tename
