import Tename.Harness.Conversation
import Tename.Harness.Paging

/-!
# Tool rounds in the log

Whichever events of the log are shown to the fold, the rounds it tells are
pairs, provided that a call is shown only with its result and that no user
message is logged while a call is open. The invariant is stated for every choice
of shown events at once, so it serves the whole log, a page of it, and the
active view of any compaction record.
-/

namespace Tename

open ContextFold

/-- The calls whose events are shown. -/
def shownCalls (ids : List (EventId × String)) (calls : List PendingEvent) : List PendingEvent :=
  calls.filter fun call => (ids.lookup call.id).isSome

/-- The `tool_use` blocks of calls. -/
def useBlocks (calls : List PendingEvent) : List ContentBlock :=
  calls.map fun call => call.use.block

section Shown

variable {ids : List (EventId × String)} {call : PendingEvent} {calls : List PendingEvent}

theorem useIds_useBlocks (calls : List PendingEvent) :
    useIds (useBlocks calls) = calls.map PendingEvent.toolId := by
  induction calls with
  | nil => rfl
  | cons call calls ih => exact congrArg (call.toolId :: ·) ih

theorem shownCalls_cons_of_some {toolId : String} (known : ids.lookup call.id = some toolId) :
    shownCalls ids (call :: calls) = call :: shownCalls ids calls := by
  simp [shownCalls, known]

theorem shownCalls_cons_of_none (hidden : ids.lookup call.id = none) :
    shownCalls ids (call :: calls) = shownCalls ids calls := by
  simp [shownCalls, hidden]

theorem shownCalls_append_of_some {toolId : String} (known : ids.lookup call.id = some toolId) :
    shownCalls ids (calls ++ [call]) = shownCalls ids calls ++ [call] := by
  simp [shownCalls, known]

theorem shownCalls_append_of_none (hidden : ids.lookup call.id = none) :
    shownCalls ids (calls ++ [call]) = shownCalls ids calls := by
  simp [shownCalls, hidden]

end Shown

/-- Nothing of the turn with the open calls `calls` is answered yet. -/
def Said (ids : List (EventId × String)) (shown : List Event) (calls : List PendingEvent) : Prop :=
  ∃ base text, Told base text (endingOf ids shown) ∧
    Open (readContext ids shown) base text (useBlocks (shownCalls ids calls))

/-- The assistant message of the turn is told, and the calls `calls` are left of it. -/
def Asked (ids : List (EventId × String)) (shown : List Event) (calls : List PendingEvent) : Prop :=
  ∃ base text uses results, Paired (conversation base) ∧ useIds uses ≠ [] ∧
    readContext ids shown = ⟨base ++ [assistantMessage text uses], "", [], results⟩ ∧
    useIds uses = answerIds results ++ (shownCalls ids calls).map PendingEvent.toolId

section Events

variable {ids : List (EventId × String)} {shown : List Event} {e : Event}
variable {call : PendingEvent} {calls rest : List PendingEvent}

theorem endingOf_append (ids : List (EventId × String)) (shown : List Event) (e : Event) :
    endingOf ids (shown ++ [e]) = (endingOf ids shown).step ids e := by
  simp [endingOf]

/-- An event that changes neither the buffers nor the ending. -/
structure Passed (ids : List (EventId × String)) (e : Event) : Prop where
  read : ∀ st, foldEvent ids st e = st
  ending : ∀ en : Ending, en.step ids e = en

theorem passed_delta {text : String} (type : e.type = .assistantMessage)
    (payload : e.payload = deltaPayload text) : Passed ids e :=
  ⟨fun _ => foldEvent_delta type payload, fun _ => Ending.step_delta type payload⟩

theorem passed_provisioned {sandbox runtime : String} (type : e.type = .systemEvent)
    (payload : e.payload = provisionedPayload sandbox runtime) : Passed ids e :=
  ⟨fun _ => foldEvent_provisioned type payload, fun _ => Ending.step_provisioned type payload⟩

theorem passed_harness (type : e.type = .harnessEvent) : Passed ids e :=
  ⟨fun _ => foldEvent_harness type, fun _ => Ending.step_other (.inr (.inl type))⟩

theorem passed_error (type : e.type = .error) : Passed ids e :=
  ⟨fun _ => foldEvent_error type, fun _ => Ending.step_other (.inr (.inr type))⟩

theorem Said.pass (h : Said ids shown calls) (passed : Passed ids e) :
    Said ids (shown ++ [e]) calls := by
  obtain ⟨base, text, told, opened⟩ := h
  refine ⟨base, text, ?_, ?_⟩
  · rwa [endingOf_append, passed.ending]
  · rwa [readContext_append, passed.read]

theorem Asked.pass (h : Asked ids shown calls) (passed : Passed ids e) :
    Asked ids (shown ++ [e]) calls := by
  obtain ⟨base, text, uses, results, paired, some', read, left⟩ := h
  refine ⟨base, text, uses, results, paired, some', ?_, left⟩
  rw [readContext_append, passed.read, read]

theorem Said.user {content : String} (h : Said ids shown []) (type : e.type = .userMessage)
    (payload : e.payload = userPayload content) : Said ids (shown ++ [e]) [] := by
  obtain ⟨base, text, told, opened⟩ := h
  refine ⟨base ++ spoken text [] ++ [⟨.user, .text content⟩], "", ?_, ?_⟩
  · rw [endingOf_append]
    exact told.user type
  · rw [readContext_append]
    exact opened.user type payload

theorem Said.systemPrompt {prompt : String} (h : Said ids shown []) (type : e.type = .systemEvent)
    (payload : e.payload = systemPromptPayload prompt) (nonempty : prompt ≠ "") :
    Said ids (shown ++ [e]) [] := by
  obtain ⟨base, text, told, opened⟩ := h
  refine ⟨base ++ spoken text [] ++ [⟨.system, .text prompt⟩], "", ?_, ?_⟩
  · rw [endingOf_append]
    exact told.systemPrompt type payload
  · rw [readContext_append]
    exact opened.systemPrompt type payload nonempty

theorem Said.toolCall {toolId : String} (h : Said ids shown calls) (is : e.isCall call)
    (formed : ∃ toolId toolName input, call.payload = toolCallPayload toolId toolName input)
    (known : ids.lookup call.id = some toolId) : Said ids (shown ++ [e]) (calls ++ [call]) := by
  obtain ⟨base, text, told, opened⟩ := h
  obtain ⟨toolId', toolName, input, payload⟩ := formed
  refine ⟨base, text, ?_, ?_⟩
  · rwa [endingOf_append, Ending.step_other (.inl is.2.1)]
  · have block : call.use.block = .toolUse toolId' toolName input := by
      rw [PendingEvent.use, PendingEvent.toolId, payload]
      rfl
    rw [readContext_append, shownCalls_append_of_some known, useBlocks, List.map_append,
      List.map_singleton, block]
    exact opened.toolCall is.2.1 (is.2.2.trans payload)

theorem Said.closer {texts : List String} {usage : Option Usage} (h : Said ids shown calls)
    (type : e.type = .assistantMessage) (payload : e.payload = closerPayload texts usage) :
    Said ids (shown ++ [e]) calls := by
  obtain ⟨base, text, told, opened⟩ := h
  refine ⟨base, String.join texts, ?_, ?_⟩
  · rw [endingOf_append]
    exact told.closer type payload
  · rw [readContext_append]
    exact opened.closer type payload

/-- The first result of a turn. -/
theorem Said.answered (h : Said ids shown (call :: rest)) (type : e.type = .toolResult)
    (answers : e.payload.get? "tool_call_id" = some (.uuid call.id))
    (known : ids.lookup call.id = some call.toolId) : Asked ids (shown ++ [e]) rest := by
  obtain ⟨base, text, told, opened⟩ := h
  have uses : useIds (useBlocks (shownCalls ids (call :: rest))) =
      call.toolId :: (shownCalls ids rest).map PendingEvent.toolId := by
    rw [useIds_useBlocks, shownCalls_cons_of_some known, List.map_cons]
  have some' : useBlocks (shownCalls ids (call :: rest)) ≠ [] := by
    rw [shownCalls_cons_of_some known]
    exact List.cons_ne_nil _ _
  refine ⟨base, text, _, [toolResultBlock call.toolId e.payload], told.paired,
    by rw [uses]; exact List.cons_ne_nil _ _, ?_, uses⟩
  rw [readContext_append, opened.toolResult some' type answers known]

/-- The result of a call that is not shown, before any other. -/
theorem Said.orphan (h : Said ids shown (call :: rest)) (type : e.type = .toolResult)
    (answers : e.payload.get? "tool_call_id" = some (.uuid call.id))
    (orphan : ids.lookup call.id = none) :
    Said ids (shown ++ [e]) rest ∨ Asked ids (shown ++ [e]) rest := by
  obtain ⟨base, text, told, opened⟩ := h
  rw [shownCalls_cons_of_none orphan] at opened
  have read : readContext ids (shown ++ [e]) = (readContext ids shown).flushAssistant := by
    rw [readContext_append, foldEvent_orphan type answers orphan]
  cases left : shownCalls ids rest with
  | nil =>
      rw [left] at opened
      refine .inl ⟨base ++ spoken text [], "", ?_, ?_⟩
      · rw [endingOf_append]
        exact told.orphan type answers orphan
      · rw [read, left]
        exact opened.flushed
  | cons next others =>
      have some' : useBlocks (shownCalls ids rest) ≠ [] := by
        rw [left]
        exact List.cons_ne_nil _ _
      refine .inr ⟨base, text, _, [], told.paired, ?_, ?_, (useIds_useBlocks _).trans rfl⟩
      · rw [useIds_useBlocks, left]
        exact List.cons_ne_nil _ _
      · rw [read, opened.flushAssistant (.inr some')]

/-- A further result. -/
theorem Asked.answered (h : Asked ids shown (call :: rest)) (type : e.type = .toolResult)
    (answers : e.payload.get? "tool_call_id" = some (.uuid call.id))
    (known : ids.lookup call.id = some call.toolId) : Asked ids (shown ++ [e]) rest := by
  obtain ⟨base, text, uses, results, paired, some', read, left⟩ := h
  refine ⟨base, text, uses, results ++ [toolResultBlock call.toolId e.payload], paired, some',
    ?_, ?_⟩
  · rw [readContext_append, read, toolResult_answering type answers known]
  · rw [left, shownCalls_cons_of_some known, answerIds_append, answerIds_toolResultBlock]
    simp

theorem Asked.orphan (h : Asked ids shown (call :: rest)) (type : e.type = .toolResult)
    (answers : e.payload.get? "tool_call_id" = some (.uuid call.id))
    (orphan : ids.lookup call.id = none) : Asked ids (shown ++ [e]) rest := by
  obtain ⟨base, text, uses, results, paired, some', read, left⟩ := h
  refine ⟨base, text, uses, results, paired, some', ?_, ?_⟩
  · rw [readContext_append, read, foldEvent_orphan type answers orphan,
      flushAssistant_of_nothing rfl rfl]
  · rw [left, shownCalls_cons_of_none orphan]

/-- With its last shown call answered, a turn is a round. -/
theorem Asked.finish (h : Asked ids shown calls) (none' : shownCalls ids calls = []) :
    Said ids shown [] := by
  obtain ⟨base, text, uses, results, paired, some', read, left⟩ := h
  rw [none', List.map_nil, List.append_nil] at left
  have answered : results ≠ [] := by
    rintro rfl
    exact some' left
  refine ⟨base ++ [assistantMessage text uses] ++ [⟨.tool, .blocks results⟩], "",
    told_round paired some' left.symm _, ?_⟩
  rw [read]
  exact open_of_results answered

end Events

section Phases

variable {ids : List (EventId × String)} {shown events : List Event} {e : Event}
variable {call : PendingEvent} {calls calls' rest : List PendingEvent} {phase : Phase}
variable {p : Event → Bool}

/-- What the shown events tell, by phase. -/
def Tells (ids : List (EventId × String)) (shown : List Event) : Phase → Prop
  | .answering calls => Said ids shown calls ∨ Asked ids shown calls
  | phase => Said ids shown phase.openCalls

theorem Tells.open (h : Tells ids shown phase) :
    Said ids shown phase.openCalls ∨ Asked ids shown phase.openCalls := by
  cases phase with
  | answering calls => exact h
  | _ => exact .inl h

theorem tells_afterCloser (h : Said ids shown calls) : Tells ids shown (.afterCloser calls) := by
  cases calls with
  | nil => exact h
  | cons call calls => exact .inl h

theorem tells_afterResult (h : Said ids shown rest ∨ Asked ids shown rest) :
    Tells ids shown (.afterResult rest) := by
  cases rest with
  | nil =>
      rcases h with said | asked
      · exact said
      · exact asked.finish rfl
  | cons call rest => exact h

theorem Tells.pass (h : Tells ids shown phase) (passed : Passed ids e) :
    Tells ids (shown ++ [e]) phase := by
  cases phase with
  | answering calls => exact h.imp (·.pass passed) (·.pass passed)
  | _ => exact Said.pass h passed

/-- The result of the first open call. -/
theorem Tells.result (h : Tells ids shown phase) (working : phase.toAnswer = call :: rest)
    (type : e.type = .toolResult)
    (answers : e.payload.get? "tool_call_id" = some (.uuid call.id))
    (known : ids.lookup call.id = some call.toolId ∨ ids.lookup call.id = none) :
    Tells ids (shown ++ [e]) (.afterResult rest) := by
  have before := h.open
  rw [Phase.openCalls_of_toAnswer working] at before
  apply tells_afterResult
  rcases known with known | orphan
  · rcases before with said | asked
    · exact .inr (said.answered type answers known)
    · exact .inr (asked.answered type answers known)
  · rcases before with said | asked
    · exact said.orphan type answers orphan
    · exact .inr (asked.orphan type answers orphan)

/-- A hidden result of a hidden call. -/
theorem Tells.skip_result (h : Tells ids shown phase) (working : phase.toAnswer = call :: rest)
    (orphan : ids.lookup call.id = none) : Tells ids shown (.afterResult rest) := by
  have before := h.open
  rw [Phase.openCalls_of_toAnswer working] at before
  apply tells_afterResult
  simpa only [Said, Asked, shownCalls_cons_of_none orphan] using before

/-- Open calls that are not shown leave nothing open. -/
theorem Tells.close (h : Tells ids shown phase) (none' : shownCalls ids phase.openCalls = []) :
    Said ids shown [] := by
  rcases h.open with ⟨base, text, told, opened⟩ | asked
  · rw [none'] at opened
    exact ⟨base, text, told, opened⟩
  · exact asked.finish none'

/-- A shown call is open, or its result is shown. -/
def Covered (p : Event → Bool) (events : List Event) (calls : List PendingEvent) : Prop :=
  ∀ e ∈ events, e.type = .toolCall → p e = true →
    (∃ call ∈ calls, call.id = e.id) ∨ ∃ r ∈ events, r.id = .toolResult e.id ∧ p r = true

theorem Covered.of_append (h : Covered p (events ++ [e]) calls')
    (noResult : ∀ id, e.id ≠ .toolResult id) (fresh : ∀ e' ∈ events, e'.id ≠ e.id)
    (less : ∀ call ∈ calls', call ∈ calls ∨ call.id = e.id) : Covered p events calls := by
  intro c mem type visible
  rcases h c (List.mem_append_left _ mem) type visible with ⟨call, open', same⟩ | ⟨r, mem', answers⟩
  · rcases less call open' with old | new
    · exact .inl ⟨call, old, same⟩
    · exact absurd (same.symm.trans new) (fresh c mem)
  · rcases List.mem_append.mp mem' with old | new
    · exact .inr ⟨r, old, answers⟩
    · rw [List.mem_singleton.mp new] at answers
      exact absurd answers.1 (noResult _)

theorem Covered.of_append_result (h : Covered p (events ++ [e]) rest)
    (answers : e.id = .toolResult call.id) : Covered p events (call :: rest) := by
  intro c mem type visible
  rcases h c (List.mem_append_left _ mem) type visible with ⟨call', open', same⟩ |
    ⟨r, mem', answers'⟩
  · exact .inl ⟨call', List.mem_cons_of_mem _ open', same⟩
  · rcases List.mem_append.mp mem' with old | new
    · exact .inr ⟨r, old, answers'⟩
    · rw [List.mem_singleton.mp new, answers, EventId.toolResult.injEq] at answers'
      exact .inl ⟨call, List.mem_cons_self, answers'.1⟩

/-- A call without its result in the log is not shown unless it is open. -/
theorem Covered.hidden (h : Covered p events calls') (known : KnowsCalls p ids events)
    (logged : CallsLogged events calls) (mem : call ∈ calls)
    (closed : ∀ call' ∈ calls', call'.id ≠ call.id) : ids.lookup call.id = none := by
  obtain ⟨e, mem', is, found⟩ := known.lookup logged mem
  rw [found]
  apply if_neg
  intro visible
  rcases h e mem' is.2.1 visible with ⟨call', open', same⟩ | ⟨r, mem'', answers, _⟩
  · exact closed call' open' (same.trans is.1)
  · rw [is.1] at answers
    exact logged.unanswered call mem r mem'' answers

/-- Every choice of shown events that covers the calls tells rounds. -/
def RoundsTold (events : List Event) (phase : Phase) : Prop :=
  ∀ p ids, KnowsCalls p ids events → Covered p events phase.openCalls →
    Tells ids (events.filter p) phase

/-- An event that opens and answers no call, shown or not. -/
theorem RoundsTold.append (h : RoundsTold events phase)
    (step : ∀ ids shown, Tells ids shown phase → Tells ids (shown ++ [e]) phase)
    (noResult : ∀ id, e.id ≠ .toolResult id) (fresh : ∀ e' ∈ events, e'.id ≠ e.id) :
    RoundsTold (events ++ [e]) phase := by
  intro p ids known covered
  have before := h p ids known.of_append (covered.of_append noResult fresh fun _ => .inl)
  rw [List.filter_append]
  by_cases visible : p e = true
  · rw [List.filter_cons_of_pos visible]
    exact step ids _ before
  · rwa [List.filter_cons_of_neg visible, List.filter_nil, List.append_nil]

theorem RoundsTold.pass (h : RoundsTold events phase) (passed : ∀ ids, Passed ids e)
    (noResult : ∀ id, e.id ≠ .toolResult id) (fresh : ∀ e' ∈ events, e'.id ≠ e.id) :
    RoundsTold (events ++ [e]) phase :=
  h.append (fun ids _ told => told.pass (passed ids)) noResult fresh

theorem tells_of_said (h : Said ids shown []) (settled : phase.openCalls = []) :
    Tells ids shown phase := by
  cases phase with
  | answering calls =>
      obtain rfl : calls = [] := settled
      exact .inl h
  | streaming texts calls rest =>
      obtain rfl : calls = [] := settled
      exact h
  | _ => exact h

/-- A user message, where no call is open. -/
theorem RoundsTold.user {content : String} (h : RoundsTold events phase)
    (settled : phase.openCalls = []) (type : e.type = .userMessage)
    (payload : e.payload = userPayload content) (noResult : ∀ id, e.id ≠ .toolResult id)
    (fresh : ∀ e' ∈ events, e'.id ≠ e.id) : RoundsTold (events ++ [e]) phase := by
  refine h.append (fun ids shown told => tells_of_said ?_ settled) noResult fresh
  exact (told.close (by rw [settled]; rfl)).user type payload

/-- A further call. -/
theorem RoundsTold.toolCall {texts : List String} {chunks chunks' : List ModelChunk}
    (h : RoundsTold events (.streaming texts calls chunks)) (is : e.isCall call)
    (formed : ∃ toolId toolName input, call.payload = toolCallPayload toolId toolName input)
    (noResult : ∀ id, e.id ≠ .toolResult id) (fresh : ∀ e' ∈ events, e'.id ≠ e.id) :
    RoundsTold (events ++ [e]) (.streaming texts (calls ++ [call]) chunks') := by
  intro p ids known covered
  have told : Said ids (events.filter p) calls := by
    refine h p ids known.of_append (covered.of_append noResult fresh fun call' mem => ?_)
    rcases List.mem_append.mp mem with old | new
    · exact .inl old
    · rw [List.mem_singleton.mp new]
      exact .inr is.1.symm
  obtain ⟨toolId, toolName, input, payload⟩ := formed
  have found := known e (List.mem_append_right _ (List.mem_singleton_self e)) toolId toolName input
    is.2.1 (is.2.2.trans payload)
  rw [is.1] at found
  change Said ids ((events ++ [e]).filter p) (calls ++ [call])
  rw [List.filter_append]
  by_cases visible : p e = true
  · rw [if_pos visible] at found
    rw [List.filter_cons_of_pos visible]
    exact told.toolCall is ⟨_, _, _, payload⟩ found
  · rw [if_neg visible] at found
    rw [List.filter_cons_of_neg visible, List.filter_nil, List.append_nil, Said,
      shownCalls_append_of_none found]
    exact told

/-- The closer of a turn. -/
theorem RoundsTold.closer {texts : List String} {chunks : List ModelChunk} {usage : Option Usage}
    (h : RoundsTold events (.streaming texts calls chunks)) (type : e.type = .assistantMessage)
    (payload : e.payload = closerPayload texts usage) (noResult : ∀ id, e.id ≠ .toolResult id)
    (fresh : ∀ e' ∈ events, e'.id ≠ e.id) : RoundsTold (events ++ [e]) (.afterCloser calls) := by
  intro p ids known covered
  rw [Phase.openCalls_afterCloser] at covered
  have told : Said ids (events.filter p) calls :=
    h p ids known.of_append (covered.of_append noResult fresh fun _ => .inl)
  apply tells_afterCloser
  rw [List.filter_append]
  by_cases visible : p e = true
  · rw [List.filter_cons_of_pos visible]
    exact told.closer type payload
  · rwa [List.filter_cons_of_neg visible, List.filter_nil, List.append_nil]

/-- The result of the first open call, shown or not. -/
theorem RoundsTold.result (h : RoundsTold events phase) (working : phase.toAnswer = call :: rest)
    (logged : CallsLogged events phase.openCalls) (type : e.type = .toolResult)
    (answers : e.payload.get? "tool_call_id" = some (.uuid call.id))
    (id : e.id = .toolResult call.id) : RoundsTold (events ++ [e]) (.afterResult rest) := by
  intro p ids known covered
  have open' := Phase.openCalls_of_toAnswer working
  rw [Phase.openCalls_afterResult] at covered
  rw [open'] at logged
  have told : Tells ids (events.filter p) phase := by
    refine h p ids known.of_append ?_
    rw [open']
    exact covered.of_append_result id
  obtain ⟨c, mem, is, found⟩ := known.of_append.lookup logged List.mem_cons_self
  have found' : ids.lookup call.id = some call.toolId ∨ ids.lookup call.id = none := by
    rw [found]
    split
    · exact .inl rfl
    · exact .inr rfl
  rw [List.filter_append]
  by_cases visible : p e = true
  · rw [List.filter_cons_of_pos visible]
    exact told.result working type answers found'
  · -- A hidden result answers a hidden call: the call is no longer open, and nothing else
    -- answers it.
    have orphan : ids.lookup call.id = none := by
      rw [found]
      apply if_neg
      intro shown
      rcases covered c (List.mem_append_left _ mem) is.2.1 shown with
        ⟨call', left, same⟩ | ⟨r, mem', answers', passes⟩
      · exact (List.nodup_cons.mp logged.distinct).1
          (List.mem_map.mpr ⟨call', left, same.trans is.1⟩)
      · rcases List.mem_append.mp mem' with old | new
        · rw [is.1] at answers'
          exact logged.unanswered call List.mem_cons_self r old answers'
        · rw [List.mem_singleton.mp new] at passes
          exact visible passes
    rw [List.filter_cons_of_neg visible, List.filter_nil, List.append_nil]
    exact told.skip_result working orphan

/-- Calls that are left without a result are not shown. -/
theorem RoundsTold.abandon (h : RoundsTold events phase)
    (logged : CallsLogged events phase.openCalls) (known : KnowsCalls p ids events)
    (covered : Covered p events []) : Said ids (events.filter p) [] := by
  have none' : shownCalls ids phase.openCalls = [] := by
    refine List.filter_eq_nil_iff.mpr fun call mem => ?_
    rw [covered.hidden known logged mem (by simp)]
    simp
  refine (h p ids known fun e mem type visible => ?_).close none'
  rcases covered e mem type visible with ⟨call, open', _⟩ | answered
  · simp at open'
  · exact .inr answered

/-- An error ends the turn and leaves its calls without results. -/
theorem RoundsTold.error (h : RoundsTold events phase) (logged : CallsLogged events phase.openCalls)
    (type : e.type = .error) (noResult : ∀ id, e.id ≠ .toolResult id)
    (fresh : ∀ e' ∈ events, e'.id ≠ e.id) : RoundsTold (events ++ [e]) .stopped := by
  have stopped : RoundsTold events .stopped := fun p ids known covered =>
    h.abandon logged known covered
  exact stopped.pass (fun ids => passed_error type) noResult fresh

end Phases

section Runs

variable {rt : Runtime} {agents : AgentId → Option Agent} {sid : SessionId} {agentId : AgentId}

/-- The result of the call `e` is among `events`. -/
def Event.answeredIn (events : List Event) (e : Event) : Bool :=
  events.any (·.id = .toolResult e.id)

/-- Every call has its result. -/
def allAnswered (events : List Event) : Bool :=
  events.all fun e => e.type ≠ .toolCall || e.answeredIn events

theorem openCalls_of_allAnswered {events : List Event} {calls : List PendingEvent}
    (logged : CallsLogged events calls) (answered : allAnswered events = true) : calls = [] := by
  refine List.eq_nil_iff_forall_not_mem.mpr fun call mem => ?_
  obtain ⟨e, mem', is⟩ := logged.logged call mem
  have result := List.all_eq_true.mp answered e mem'
  simp only [Event.answeredIn, is.2.1, is.1, ne_eq, not_true_eq_false, decide_false,
    Bool.false_or, List.any_eq_true, decide_eq_true_eq] at result
  obtain ⟨r, logged', same⟩ := result
  exact logged.unanswered call mem r logged' same

/-- Messages of users are logged between runs, or where no call waits for its result. -/
def PolitelySaid (C : RunConfig → RunAction → Prop) : Prop :=
  ∀ w program content, C ⟨w, program⟩ (.disturb (.say content)) →
    program = none ∨ allAnswered w.session.events = true

theorem roundsTold_turnInvariant {C : RunConfig → RunAction → Prop} (polite : PolitelySaid C) :
    TurnInvariant rt agents sid C fun w phase => RoundsTold w.session.events phase where
  begun _ _ _ h _ := h
  stopped w phase logged h p ids known covered := h.abandon logged known covered
  appended w g id type payload phase fresh k sound logged h _ emits := by
    obtain ⟨before, drawn, current⟩ := g
    have random := fun drawn => (sound.fresh id drawn).1
    cases emits with
    | seed owner carries nonempty first =>
        exact h.append (fun ids shown told => told.systemPrompt rfl rfl nonempty)
          (by rintro id ⟨⟩) fresh
    | compaction owner loaded planned =>
        exact h.pass (fun ids => passed_harness rfl) (by rintro id ⟨⟩) fresh
    | delta silent =>
        obtain ⟨n, rfl⟩ := random rfl
        exact h.pass (fun ids => passed_delta rfl rfl) (by rintro id ⟨⟩) fresh
    | toolCall silent =>
        obtain ⟨n, rfl⟩ := random rfl
        exact h.toolCall ⟨rfl, rfl, rfl⟩ ⟨_, _, _, rfl⟩ (by rintro id ⟨⟩) fresh
    | error silent =>
        obtain ⟨n, rfl⟩ := random rfl
        exact h.error logged rfl (by rintro id ⟨⟩) fresh
    | closer spoken drained =>
        obtain ⟨n, rfl⟩ := random rfl
        exact h.closer rfl rfl (by rintro id ⟨⟩) fresh
    | provisioned working =>
        exact h.pass (fun ids => passed_provisioned rfl rfl) (by rintro id ⟨⟩) fresh
    | result working answers => exact h.result working logged rfl answers rfl
  requested _ _ _ _ _ h _ := h
  said w program phase n content fresh logged h dead permitted := by
    refine h.user ?_ rfl rfl (by rintro id ⟨⟩) fresh
    rcases polite w program content permitted with none' | answered
    · rw [dead none']
      rfl
    · exact openCalls_of_allAnswered logged answered
  agrees w w' phase h same := by rwa [same.events]

end Runs

end Tename
