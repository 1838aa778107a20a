import Tename.Harness.Calls
import Tename.Harness.Prompt

/-!
# Conversations written and read

The script of a run is what the model streamed and what the calls of each turn
returned. The loop writes it down event by event and `build_context` reads it
back: in an undisturbed run, the context built from the log after any turn is
the opening of the conversation and then the script, turn by turn. A turn
without text and calls leaves no message.
-/

namespace Tename

/-- The text of a delta. -/
def ModelChunk.text? : ModelChunk → Option String
  | .textDelta text => some text
  | _ => none

/-- The tool use a chunk completes. -/
def ModelChunk.use? : ModelChunk → Option ToolUse
  | .toolCallEnd toolId toolName input _ => some (toolId, toolName, input)
  | _ => none

def ModelChunk.isError : ModelChunk → Bool
  | .error .. => true
  | _ => false

def ModelStream.texts (s : ModelStream) : List String :=
  s.chunks.filterMap ModelChunk.text?

def ModelStream.uses (s : ModelStream) : List ToolUse :=
  s.chunks.filterMap ModelChunk.use?

/-- The tool message that answers tool uses. -/
def resultBlocks (uses : List ToolUse) (results : List Payload) : List ContentBlock :=
  List.zipWith (fun use result => toolResultBlock use.1 result) uses results

/-- The messages of a turn. -/
def turnMessages (s : ModelStream) (results : List Payload) : List Message :=
  ContextFold.spoken (String.join s.texts) (s.uses.map ToolUse.block) ++
    if s.uses = [] then [] else [⟨.tool, .blocks (resultBlocks s.uses results)⟩]

/-- The messages of a script: the streams of its turns, and all results in order. -/
def transcript : List ModelStream → List Payload → List Message
  | [], _ => []
  | s :: streams, results =>
      turnMessages s (results.take s.uses.length) ++ transcript streams (results.drop s.uses.length)

/-- The number of results of a script. -/
def resultCount (streams : List ModelStream) : Nat :=
  (streams.flatMap ModelStream.uses).length

/-- The payloads of the results in a log, in log order. -/
def toolResults (events : List Event) : List Payload :=
  (events.filter (·.type = .toolResult)).map Event.payload

theorem opening_append (events : List Event) (e : Event) :
    opening (events ++ [e]) = opening events ++ (openingMessage e).toList := by
  rw [opening, List.filterMap_append, opening]
  cases said : openingMessage e <;> simp [said]

theorem opening_append_of_none (events : List Event) {e : Event} (none' : openingMessage e = none) :
    opening (events ++ [e]) = opening events := by
  rw [opening_append, none']
  simp

theorem toolResults_append (events : List Event) (e : Event) :
    toolResults (events ++ [e]) =
      toolResults events ++ if e.type = .toolResult then [e.payload] else [] := by
  rw [toolResults, List.filter_append, List.map_append, toolResults]
  by_cases result : e.type = .toolResult <;> simp [result]

theorem toolResults_append_of_ne (events : List Event) {e : Event} (other : e.type ≠ .toolResult) :
    toolResults (events ++ [e]) = toolResults events := by
  rw [toolResults_append, if_neg other, List.append_nil]

theorem resultCount_append (streams : List ModelStream) (s : ModelStream) :
    resultCount (streams ++ [s]) = resultCount streams + s.uses.length := by
  simp [resultCount]

/-- A script with one more turn. -/
theorem transcript_append {streams : List ModelStream} {results mine : List Payload}
    {s : ModelStream} (counted : results.length = resultCount streams)
    (answered : mine.length = s.uses.length) :
    transcript (streams ++ [s]) (results ++ mine) =
      transcript streams results ++ turnMessages s mine := by
  induction streams generalizing results with
  | nil =>
      obtain rfl : results = [] := List.eq_nil_of_length_eq_zero counted
      simp [transcript, ← answered]
  | cons first streams ih =>
      have fits : first.uses.length ≤ results.length := by
        rw [counted]
        simp [resultCount]
      have rest : (results.drop first.uses.length).length = resultCount streams := by
        rw [List.length_drop, counted]
        simp [resultCount]
      simp only [List.cons_append, transcript]
      rw [List.take_append_of_le_length fits, List.drop_append_of_le_length fits, ih rest,
        List.append_assoc]

section Reading

/-- Every call of the events is known. -/
abbrev KnowsAll (ids : List (EventId × String)) (events : List Event) : Prop :=
  KnowsCalls (fun _ => true) ids events

open ContextFold

variable {events : List Event} {streams past : List ModelStream} {s : ModelStream}
variable {texts : List String} {calls : List PendingEvent} {rest : List ModelChunk} {e : Event}

/-- An event that the context passes over. -/
structure Quiet (e : Event) : Prop where
  opening : openingMessage e = none
  result : e.type ≠ .toolResult
  read : ∀ ids st, foldEvent ids st e = st

theorem quiet_delta {text : String} (type : e.type = .assistantMessage)
    (payload : e.payload = deltaPayload text) : Quiet e where
  opening := by simp [openingMessage, promptMessage, isSystemPrompt, type]
  result := by simp [type]
  read _ _ := foldEvent_delta type payload

theorem quiet_provisioned {sandbox runtime : String} (type : e.type = .systemEvent)
    (payload : e.payload = provisionedPayload sandbox runtime) : Quiet e where
  opening := by
    have other : isSystemPrompt e = false := by
      simp only [isSystemPrompt, type, payload]
      rfl
    simp [openingMessage, promptMessage, type, other]
  result := by simp [type]
  read _ _ := foldEvent_provisioned type payload

/-- Between turns, with the turns of `streams` in the log. -/
structure Rested (events : List Event) (streams : List ModelStream) : Prop where
  counted : (toolResults events).length = resultCount streams
  read : ∀ ids, KnowsAll ids events → Open (readContext ids events)
    (opening events ++ transcript streams (toolResults events)) "" []

/-- In the stream `s`, with `rest` still to come. -/
structure InStream (events : List Event) (past : List ModelStream) (s : ModelStream)
    (texts : List String) (calls : List PendingEvent) (rest : List ModelChunk) : Prop where
  counted : (toolResults events).length = resultCount past
  clean : ∀ chunk ∈ rest, chunk.isError = false
  texts : s.texts = texts ++ rest.filterMap ModelChunk.text?
  uses : s.uses = calls.map PendingEvent.use ++ rest.filterMap ModelChunk.use?
  read : ∀ ids, KnowsAll ids events → Open (readContext ids events)
    (opening events ++ transcript past (toolResults events)) ""
    ((calls.map PendingEvent.use).map ToolUse.block)

/-- After the stream `s` and its closer, with all its calls to be answered. -/
structure Spoken (events : List Event) (past : List ModelStream) (s : ModelStream)
    (calls : List PendingEvent) : Prop where
  counted : (toolResults events).length = resultCount past
  uses : s.uses = calls.map PendingEvent.use
  read : ∀ ids, KnowsAll ids events → Open (readContext ids events)
    (opening events ++ transcript past (toolResults events)) (String.join s.texts)
    (s.uses.map ToolUse.block)

/-- With the results `mine` of the turn in the log and `calls` left to answer. -/
structure Answered (events : List Event) (past : List ModelStream) (s : ModelStream)
    (before mine : List Payload) (calls : List PendingEvent) : Prop where
  results : toolResults events = before ++ mine
  counted : before.length = resultCount past
  some' : mine ≠ []
  uses : ∃ done, s.uses = done ++ calls.map PendingEvent.use ∧ done.length = mine.length
  read : ∀ ids, KnowsAll ids events → readContext ids events =
    ⟨opening events ++ transcript past before ++
      [assistantMessage (String.join s.texts) (s.uses.map ToolUse.block)], "", [],
      resultBlocks s.uses mine⟩

/-- What the log holds of the script, by phase. -/
def Transcribed (events : List Event) (streams : List ModelStream) : Phase → Prop
  | .idle => True
  | .resting => Rested events streams
  | .streaming texts calls rest =>
      ∃ past s, streams = past ++ [s] ∧ InStream events past s texts calls rest
  | .answering calls => ∃ past s, streams = past ++ [s] ∧
      (Spoken events past s calls ∨ ∃ before mine, Answered events past s before mine calls)
  | .stopped => ∃ past s, streams = past ++ [s] ∧ Spoken events past s []

theorem Transcribed.quiet {phase : Phase} (h : Transcribed events streams phase) (quiet : Quiet e) :
    Transcribed (events ++ [e]) streams phase := by
  have opened := opening_append_of_none events quiet.opening
  have results := toolResults_append_of_ne events quiet.result
  have read : ∀ ids, readContext ids (events ++ [e]) = readContext ids events := fun ids => by
    rw [readContext_append, quiet.read]
  cases phase with
  | idle => trivial
  | resting =>
      refine ⟨by rw [results]; exact h.counted, fun ids known => ?_⟩
      rw [read, opened, results]
      exact h.read ids known.of_append
  | streaming texts calls rest =>
      obtain ⟨past, s, rfl, h⟩ := h
      refine ⟨past, s, rfl, by rw [results]; exact h.counted, h.clean, h.texts, h.uses,
        fun ids known => ?_⟩
      rw [read, opened, results]
      exact h.read ids known.of_append
  | answering calls =>
      obtain ⟨past, s, rfl, h | ⟨before, mine, h⟩⟩ := h
      · refine ⟨past, s, rfl, .inl ⟨by rw [results]; exact h.counted, h.uses, fun ids known => ?_⟩⟩
        rw [read, opened, results]
        exact h.read ids known.of_append
      · refine ⟨past, s, rfl, .inr ⟨before, mine, by rw [results]; exact h.results, h.counted,
          h.some', h.uses, fun ids known => ?_⟩⟩
        rw [read, opened]
        exact h.read ids known.of_append
  | stopped =>
      obtain ⟨past, s, rfl, h⟩ := h
      refine ⟨past, s, rfl, by rw [results]; exact h.counted, h.uses, fun ids known => ?_⟩
      rw [read, opened, results]
      exact h.read ids known.of_append

/-- A log of user messages opens the conversation. -/
theorem rested_of_users (users : ∀ e ∈ events, e.type = .userMessage ∧
    ∃ content, e.payload = userPayload content) : Rested events [] := by
  have none' : toolResults events = [] := by
    rw [toolResults, List.filter_eq_nil_iff.mpr]
    · rfl
    · intro e mem
      simp [(users e mem).1]
  refine ⟨by rw [none']; rfl, fun ids known => ?_⟩
  rw [transcript, List.append_nil]
  clear none'
  induction events using List.reverseRecOn with
  | nil => exact open_empty
  | append_singleton events e ih =>
      obtain ⟨type, content, payload⟩ := users e (by simp)
      have said : openingMessage e = some ⟨.user, .text content⟩ := by
        rw [openingMessage, if_pos type, payload]
        rfl
      have before : Open (readContext ids events) (opening events) "" [] :=
        ih (fun e mem => users e (List.mem_append_left _ mem)) known.of_append
      have step : Open (foldEvent ids (readContext ids events) e) _ "" [] :=
        before.user type payload
      rw [spoken_nothing, List.append_nil] at step
      rw [readContext_append, opening_append, said]
      exact step

/-- The system prompt comes before the first turn. -/
theorem Rested.seed {prompt : String} (h : Rested events []) (type : e.type = .systemEvent)
    (payload : e.payload = systemPromptPayload prompt) (nonempty : prompt ≠ "") :
    Rested (events ++ [e]) [] := by
  have said : openingMessage e = some ⟨.system, .text prompt⟩ := by
    have prompts : isSystemPrompt e = true := by
      simp only [isSystemPrompt, type, payload]
      rfl
    rw [openingMessage, if_neg (by simp [type]), promptMessage, if_pos prompts, payload]
    change ((some prompt).filter (· ≠ "")).map _ = _
    simp [Option.filter, nonempty]
  have results : toolResults (events ++ [e]) = toolResults events :=
    toolResults_append_of_ne events (by simp [type])
  refine ⟨by rw [results]; exact h.counted, fun ids known => ?_⟩
  have step : Open (foldEvent ids (readContext ids events) e) _ "" [] :=
    (h.read ids known.of_append).systemPrompt type payload nonempty
  rw [spoken_nothing, List.append_nil] at step
  rw [readContext_append, opening_append, said]
  rw [transcript, List.append_nil] at step ⊢
  exact step

theorem Rested.request {stream : ModelStream} (h : Rested events streams)
    (clean : ∀ chunk ∈ stream.chunks, chunk.isError = false) :
    InStream events streams stream [] [] stream.chunks :=
  ⟨h.counted, clean, rfl, rfl, h.read⟩

/-- Chunks without an event carry neither text nor a call. -/
theorem filterMap_of_silent {skipped : List ModelChunk} (silent : skipped.all ModelChunk.silent) :
    skipped.filterMap ModelChunk.text? = [] ∧ skipped.filterMap ModelChunk.use? = [] := by
  have none' : ∀ chunk ∈ skipped, chunk.text? = none ∧ chunk.use? = none := by
    intro chunk mem
    have quiet := List.all_eq_true.mp silent chunk mem
    cases chunk <;> first | exact ⟨rfl, rfl⟩ | cases quiet
  exact ⟨List.filterMap_eq_nil_iff.mpr fun chunk mem => (none' chunk mem).1,
    List.filterMap_eq_nil_iff.mpr fun chunk mem => (none' chunk mem).2⟩

/-- The chunk after silent ones is read. -/
theorem InStream.next {skipped : List ModelChunk} {chunk : ModelChunk}
    (h : InStream events past s texts calls (skipped ++ chunk :: rest))
    (silent : skipped.all ModelChunk.silent) :
    chunk.isError = false ∧ (∀ chunk ∈ rest, chunk.isError = false) ∧
    s.texts = (texts ++ chunk.text?.toList) ++ rest.filterMap ModelChunk.text? ∧
    s.uses = (calls.map PendingEvent.use ++ chunk.use?.toList) ++
      rest.filterMap ModelChunk.use? := by
  obtain ⟨noText, noUse⟩ := filterMap_of_silent silent
  refine ⟨h.clean chunk (by simp), fun chunk' mem => h.clean chunk' (by simp [mem]), ?_, ?_⟩
  · rw [h.texts, List.filterMap_append, noText, List.filterMap_cons]
    cases chunk.text? <;> simp
  · rw [h.uses, List.filterMap_append, noUse, List.filterMap_cons]
    cases chunk.use? <;> simp

theorem InStream.delta {skipped : List ModelChunk} {text : String}
    (h : InStream events past s texts calls (skipped ++ .textDelta text :: rest))
    (silent : skipped.all ModelChunk.silent) :
    InStream events past s (texts ++ [text]) calls rest := by
  obtain ⟨_, clean, said, uses⟩ := h.next silent
  exact ⟨h.counted, clean, said, by simpa [ModelChunk.use?] using uses, h.read⟩

theorem InStream.toolCall {skipped : List ModelChunk} {toolId toolName : String} {input : Payload}
    {index : Int} {id : EventId}
    (h : InStream events past s texts calls
      (skipped ++ .toolCallEnd toolId toolName input index :: rest))
    (silent : skipped.all ModelChunk.silent) (type : e.type = .toolCall)
    (payload : e.payload = toolCallPayload toolId toolName input) :
    InStream (events ++ [e]) past s texts
      (calls ++ [⟨id, .toolCall, toolCallPayload toolId toolName input⟩]) rest := by
  obtain ⟨_, clean, said, uses⟩ := h.next silent
  have opened : opening (events ++ [e]) = opening events :=
    opening_append_of_none events (by simp [openingMessage, promptMessage, isSystemPrompt, type])
  have results : toolResults (events ++ [e]) = toolResults events :=
    toolResults_append_of_ne events (by simp [type])
  refine ⟨by rw [results]; exact h.counted, clean, by simpa [ModelChunk.text?] using said, ?_,
    fun ids known => ?_⟩
  · rw [uses, List.map_append]
    rfl
  · rw [readContext_append, opened, results, List.map_append, List.map_append]
    exact (h.read ids known.of_append).toolCall type payload

/-- A stream without text has nothing to close. -/
theorem InStream.spoken (h : InStream events past s [] calls rest)
    (drained : rest.all ModelChunk.silent) : Spoken events past s calls := by
  obtain ⟨noText, noUse⟩ := filterMap_of_silent drained
  have uses : s.uses = calls.map PendingEvent.use := by rw [h.uses, noUse, List.append_nil]
  refine ⟨h.counted, uses, fun ids known => ?_⟩
  rw [h.texts, noText, uses]
  exact h.read ids known

theorem InStream.closer {usage : Option Usage} (h : InStream events past s texts calls rest)
    (drained : rest.all ModelChunk.silent) (type : e.type = .assistantMessage)
    (payload : e.payload = closerPayload texts usage) : Spoken (events ++ [e]) past s calls := by
  obtain ⟨noText, noUse⟩ := filterMap_of_silent drained
  have uses : s.uses = calls.map PendingEvent.use := by rw [h.uses, noUse, List.append_nil]
  have said : s.texts = texts := by rw [h.texts, noText, List.append_nil]
  have opened : opening (events ++ [e]) = opening events :=
    opening_append_of_none events (by simp [openingMessage, promptMessage, isSystemPrompt, type])
  have results : toolResults (events ++ [e]) = toolResults events :=
    toolResults_append_of_ne events (by simp [type])
  refine ⟨by rw [results]; exact h.counted, uses, fun ids known => ?_⟩
  rw [readContext_append, opened, results, said, uses]
  exact (h.read ids known.of_append).closer type payload

section Results

variable {call : PendingEvent} {before mine : List Payload}

theorem resultBlocks_singleton {use : ToolUse} {rest : List ToolUse} {result : Payload} :
    resultBlocks (use :: rest) [result] = [toolResultBlock use.1 result] := by
  simp [resultBlocks]

theorem resultBlocks_append {uses done rest : List ToolUse} {use : ToolUse} {result : Payload}
    (split : uses = done ++ use :: rest) (length : done.length = mine.length) :
    resultBlocks uses (mine ++ [result]) =
      resultBlocks uses mine ++ [toolResultBlock use.1 result] := by
  have append : ∀ tail, resultBlocks (done ++ use :: rest) (mine ++ tail) =
      resultBlocks done mine ++ resultBlocks (use :: rest) tail := fun tail =>
    List.zipWith_append length
  have nothing : resultBlocks (use :: rest) [] = [] := rfl
  have all := append []
  rw [List.append_nil, nothing, List.append_nil] at all
  rw [split, append, all, resultBlocks_singleton]

/-- A result enters the log. -/
structure Returns (events : List Event) (call : PendingEvent) (e : Event) : Prop where
  type : e.type = .toolResult
  answers : e.payload.get? "tool_call_id" = some (.uuid call.id)
  known : ∀ ids, KnowsAll ids events → ids.lookup call.id = some call.toolId

theorem Returns.opening (h : Returns events call e) :
    Tename.opening (events ++ [e]) = Tename.opening events :=
  opening_append_of_none events (by simp [openingMessage, promptMessage, isSystemPrompt, h.type])

theorem Returns.results (h : Returns events call e) :
    toolResults (events ++ [e]) = toolResults events ++ [e.payload] := by
  rw [toolResults_append, if_pos h.type]

/-- The first result of a turn. -/
theorem Spoken.result {rest : List PendingEvent} (h : Spoken events past s (call :: rest))
    (returns : Returns events call e) :
    Answered (events ++ [e]) past s (toolResults events) [e.payload] rest := by
  refine ⟨returns.results, h.counted, List.cons_ne_nil _ _, ⟨[call.use], h.uses, rfl⟩,
    fun ids known => ?_⟩
  have some' : s.uses.map ToolUse.block ≠ [] := by simp [h.uses]
  rw [readContext_append, returns.opening, (h.read ids known.of_append).toolResult some'
    returns.type returns.answers (returns.known ids known.of_append), h.uses]
  simp only [List.map_cons, resultBlocks_singleton]
  rfl

/-- A further result. -/
theorem Answered.result {rest : List PendingEvent}
    (h : Answered events past s before mine (call :: rest)) (returns : Returns events call e) :
    Answered (events ++ [e]) past s before (mine ++ [e.payload]) rest := by
  obtain ⟨done, uses, length⟩ := h.uses
  refine ⟨?_, h.counted, by simp, ⟨done ++ [call.use], by simpa using uses, by simp [length]⟩,
    fun ids known => ?_⟩
  · rw [returns.results, h.results, List.append_assoc]
  · rw [readContext_append, h.read ids known.of_append, toolResult_answering returns.type
      returns.answers (returns.known ids known.of_append), returns.opening,
      resultBlocks_append uses length]
    rfl

/-- With its last result a turn is part of the script. -/
theorem Answered.rested (h : Answered events past s before mine []) :
    Rested events (past ++ [s]) := by
  obtain ⟨done, uses, length⟩ := h.uses
  obtain rfl : s.uses = done := by simpa using uses
  have called : s.uses ≠ [] := fun none' => h.some' (by simpa [none'] using length.symm)
  have some' : resultBlocks s.uses mine ≠ [] := by
    obtain ⟨use, uses', split⟩ := List.exists_cons_of_ne_nil called
    obtain ⟨result, mine', split'⟩ := List.exists_cons_of_ne_nil h.some'
    rw [split, split']
    exact List.cons_ne_nil _ _
  constructor
  · rw [h.results, List.length_append, h.counted, resultCount_append, length]
  · intro ids known
    have turn : turnMessages s mine = [assistantMessage (String.join s.texts)
        (s.uses.map ToolUse.block), ⟨.tool, .blocks (resultBlocks s.uses mine)⟩] := by
      rw [turnMessages, if_neg called, spoken_of_uses (by simpa using called)]
      rfl
    rw [h.results, transcript_append h.counted length.symm, turn, h.read ids known]
    have results : Open ⟨opening events ++ transcript past before ++
        [assistantMessage (String.join s.texts) (s.uses.map ToolUse.block)], "", [],
        resultBlocks s.uses mine⟩ _ "" [] := open_of_results some'
    simpa using results

end Results

/-- The context that is built between turns. -/
theorem Rested.foldContext (h : Rested events streams) (distinct : (events.map Event.id).Nodup) :
    foldContext events = opening events ++ transcript streams (toolResults events) := by
  have known : KnowsAll (toolCallIds events) events := by
    simpa using knowsCalls_toolCallIds distinct fun _ => true
  have flushed := (h.read _ known).flush
  rw [spoken_nothing, List.append_nil] at flushed
  exact congrArg ContextFold.messages flushed

/-- The context that is built after a turn without calls. -/
theorem Spoken.foldContext (h : Spoken events past s []) (distinct : (events.map Event.id).Nodup) :
    foldContext events = opening events ++ transcript (past ++ [s]) (toolResults events) := by
  have known : KnowsAll (toolCallIds events) events := by
    simpa using knowsCalls_toolCallIds distinct fun _ => true
  have turn : turnMessages s [] = spoken (String.join s.texts) (s.uses.map ToolUse.block) := by
    rw [turnMessages, if_pos (by simp [h.uses]), List.append_nil]
  have script : transcript (past ++ [s]) (toolResults events ++ []) = _ :=
    transcript_append h.counted (by simp [h.uses])
  rw [List.append_nil, turn] at script
  rw [script, ← List.append_assoc]
  exact congrArg ContextFold.messages (h.read _ known).flush

end Reading

section Runs

variable {rt : Runtime} {agents : AgentId → Option Agent} {sid : SessionId} {agentId : AgentId}

/-- The results of the log answer its calls one by one, up to the open ones. -/
def MatchedUpTo (events : List Event) (calls : List PendingEvent) : Prop :=
  ∃ done, (events.filter (·.type = .toolCall)).map Event.id =
      done ++ calls.map PendingEvent.id ∧
    List.Forall₂ (fun id result => Payload.get? result "tool_call_id" = some (.uuid id)) done
      (toolResults events)

/-- In the histories of the script: a run starts on a log of user messages, nothing is
written by others while it goes on, no compaction is recorded, and no stream has an error. -/
def undisturbed (c : RunConfig) (a : RunAction) : Bool :=
  match a, c.program with
  | .start, _ => c.state.session.events.all (·.type = .userMessage)
  | .disturb (.say _), program => program.isNone
  | .respond .done, some (.op (.emitEvent _ .harnessEvent _) _) => false
  | .respond (.streams stream), _ => stream.chunks.all fun chunk => !chunk.isError
  | _, _ => true

section Matching

variable {events : List Event} {calls : List PendingEvent} {e : Event}

theorem MatchedUpTo.append (h : MatchedUpTo events calls) (noCall : e.type ≠ .toolCall)
    (noResult : e.type ≠ .toolResult) : MatchedUpTo (events ++ [e]) calls := by
  obtain ⟨done, split, answered⟩ := h
  refine ⟨done, ?_, ?_⟩
  · simpa [noCall] using split
  · rwa [toolResults_append_of_ne events noResult]

theorem MatchedUpTo.append_call {call : PendingEvent} (h : MatchedUpTo events calls)
    (is : e.isCall call) : MatchedUpTo (events ++ [e]) (calls ++ [call]) := by
  obtain ⟨done, split, answered⟩ := h
  refine ⟨done, ?_, ?_⟩
  · simp [is.2.1, split, is.1]
  · rwa [toolResults_append_of_ne events (by simp [is.2.1])]

theorem MatchedUpTo.append_result {call : PendingEvent} {rest : List PendingEvent}
    (h : MatchedUpTo events (call :: rest)) (type : e.type = .toolResult)
    (answers : e.payload.get? "tool_call_id" = some (.uuid call.id)) :
    MatchedUpTo (events ++ [e]) rest := by
  obtain ⟨done, split, answered⟩ := h
  refine ⟨done ++ [call.id], ?_, ?_⟩
  · simpa [type] using split
  · rw [toolResults_append, if_pos type]
    exact List.rel_append answered (.cons answers .nil)

end Matching

/-- The invariant of undisturbed runs. -/
def Scripted (w : World) (phase : Phase) : Prop :=
  Transcribed w.session.events w.streams phase ∧
    (phase ≠ .idle → MatchedUpTo w.session.events phase.openCalls)

/-- The result of an open call. -/
theorem returns_of_open {w : World} {call : PendingEvent} {calls : List PendingEvent} {e : Event}
    (logged : CallsLogged w.session.events calls)
    (open' : call ∈ calls) (type : e.type = .toolResult)
    (answers : e.payload.get? "tool_call_id" = some (.uuid call.id)) :
    Returns w.session.events call e where
  type := type
  answers := answers
  known ids known := by
    obtain ⟨c, _, _, found⟩ := known.lookup logged open'
    simpa using found

/-- Answering the first open call, from the stream itself or after a closer. -/
theorem Transcribed.result {events : List Event} {streams : List ModelStream} {phase : Phase}
    {call : PendingEvent} {rest : List PendingEvent} {e : Event}
    (h : Transcribed events streams phase) (working : phase.toAnswer = call :: rest)
    (returns : Returns events call e) :
    Transcribed (events ++ [e]) streams (.afterResult rest) := by
  have answered : ∃ past s before mine, streams = past ++ [s] ∧
      Answered (events ++ [e]) past s before mine rest := by
    cases phase with
    | answering calls =>
        obtain rfl : calls = call :: rest := working
        obtain ⟨past, s, rfl, h | ⟨before, mine, h⟩⟩ := h
        · exact ⟨past, s, _, _, rfl, h.result returns⟩
        · exact ⟨past, s, _, _, rfl, h.result returns⟩
    | streaming texts calls chunks =>
        obtain ⟨past, s, rfl, h⟩ := h
        cases texts with
        | cons text texts => cases working
        | nil =>
            simp only [Phase.toAnswer] at working
            split at working
            · rename_i drained
              subst working
              exact ⟨past, s, _, _, rfl, (h.spoken drained).result returns⟩
            · cases working
    | idle => cases working
    | resting => cases working
    | stopped => cases working
  obtain ⟨past, s, before, mine, rfl, answered⟩ := answered
  cases rest with
  | nil => exact answered.rested
  | cons next rest => exact ⟨past, s, rfl, .inr ⟨before, mine, answered⟩⟩

/-- The context that is built where a turn has ended. -/
theorem Transcribed.foldContext {events : List Event} {streams : List ModelStream} {phase : Phase}
    (h : Transcribed events streams phase) (distinct : (events.map Event.id).Nodup)
    (ended : phase.ended = true) :
    foldContext events = opening events ++ transcript streams (toolResults events) := by
  cases phase with
  | resting => exact Rested.foldContext h distinct
  | stopped =>
      obtain ⟨past, s, rfl, h⟩ := h
      exact h.foldContext distinct
  | streaming texts calls rest =>
      obtain ⟨past, s, rfl, h⟩ := h
      cases texts with
      | cons text texts => cases ended
      | nil =>
          cases calls with
          | cons call calls => cases ended
          | nil => exact (h.spoken ended).foldContext distinct
  | idle => cases ended
  | answering calls => cases ended

/-- Where a turn has ended no call is open. -/
theorem Phase.openCalls_of_ended {phase : Phase} (ended : phase.ended = true) :
    phase ≠ .idle ∧ phase.openCalls = [] := by
  cases phase with
  | resting => exact ⟨by rintro ⟨⟩, rfl⟩
  | stopped => exact ⟨by rintro ⟨⟩, rfl⟩
  | streaming texts calls rest =>
      cases texts with
      | cons text texts => cases ended
      | nil =>
          cases calls with
          | cons call calls => cases ended
          | nil => exact ⟨by rintro ⟨⟩, rfl⟩
  | idle => cases ended
  | answering calls => cases ended

theorem scripted_turnInvariant :
    TurnInvariant rt agents sid (fun c a => undisturbed c a = true) Scripted where
  begun w sound _ _ users := by
    have users : ∀ e ∈ w.session.events, e.type = .userMessage := by
      simpa [undisturbed] using users
    refine ⟨rested_of_users fun e mem => ⟨users e mem, (sound.logged e mem).user (users e mem)⟩,
      fun _ => ⟨[], ?_, ?_⟩⟩
    · have none' : w.session.events.filter (·.type = .toolCall) = [] :=
        List.filter_eq_nil_iff.mpr fun e mem => by simp [users e mem]
      exact congrArg (List.map Event.id) none'
    · have none' : w.session.events.filter (·.type = .toolResult) = [] :=
        List.filter_eq_nil_iff.mpr fun e mem => by simp [users e mem]
      change List.Forall₂ _ [] ((w.session.events.filter _).map _)
      rw [none']
      exact .nil
  stopped w phase _ _ := ⟨trivial, fun other => absurd rfl other⟩
  appended w g id type payload phase fresh k sound logged h permitted emits := by
    obtain ⟨before, drawn, current⟩ := g
    obtain ⟨told, matched⟩ := h
    cases emits with
    | seed owner carries nonempty first =>
        refine ⟨?_, fun _ => (matched (by rintro ⟨⟩)).append (by rintro ⟨⟩) (by rintro ⟨⟩)⟩
        have told : Rested w.session.events w.streams := told
        change Rested _ w.streams
        rw [first] at told ⊢
        exact told.seed rfl rfl nonempty
    | compaction owner loaded planned => cases permitted
    | @delta _ _ _ _ _ _ text silent =>
        refine ⟨?_, fun _ => (matched (by rintro ⟨⟩)).append (by rintro ⟨⟩) (by rintro ⟨⟩)⟩
        have quiet : Quiet (w.session.nextEvent id .assistantMessage (deltaPayload text)) :=
          quiet_delta rfl rfl
        obtain ⟨past, s, heard, told⟩ := told.quiet quiet
        exact ⟨past, s, heard, told.delta silent⟩
    | toolCall silent =>
        obtain ⟨past, s, heard, told⟩ := told
        exact ⟨⟨past, s, heard, told.toolCall silent rfl rfl⟩,
          fun _ => (matched (by rintro ⟨⟩)).append_call ⟨rfl, rfl, rfl⟩⟩
    | error silent =>
        obtain ⟨past, s, heard, told⟩ := told
        cases (told.next silent).1
    | @closer texts calls rest _ _ usage spoken drained =>
        obtain ⟨past, s, heard, told⟩ := told
        have closed := told.closer (e := w.session.nextEvent id .assistantMessage
          (closerPayload texts usage)) drained rfl rfl
        refine ⟨?_, fun _ => ?_⟩
        · cases calls with
          | nil => exact ⟨past, s, heard, closed⟩
          | cons call calls => exact ⟨past, s, heard, .inl closed⟩
        · rw [Phase.openCalls_afterCloser]
          exact (matched (by rintro ⟨⟩)).append (by rintro ⟨⟩) (by rintro ⟨⟩)
    | provisioned working =>
        refine ⟨told.quiet (quiet_provisioned rfl rfl), fun other => ?_⟩
        exact (matched other).append (by rintro ⟨⟩) (by rintro ⟨⟩)
    | @result phase _ _ call rest payload working answers =>
        have open' := Phase.openCalls_of_toAnswer working
        refine ⟨told.result working (returns_of_open logged ?_ rfl answers), fun _ => ?_⟩
        · rw [open']
          exact List.mem_cons_self
        · have matched := matched (by rintro rfl; cases open')
          rw [open'] at matched
          rw [Phase.openCalls_afterResult]
          exact matched.append_result rfl answers
  requested w stream messages tools k h clean := by
    have clean : ∀ chunk ∈ stream.chunks, chunk.isError = false := by
      simpa [undisturbed] using clean
    exact ⟨⟨w.streams, stream, rfl, Rested.request h.1 clean⟩, fun _ => h.2 (by rintro ⟨⟩)⟩
  said w p phase n content fresh _ h dead permitted := by
    obtain rfl := dead (Option.isNone_iff_eq_none.mp permitted)
    exact ⟨trivial, fun other => absurd rfl other⟩
  agrees w w' phase h same := by
    rw [Scripted, same.events, same.streams]
    exact h

/-- The process is between two turns, or done with the last one. -/
def BetweenTurns (c : RunConfig) : Prop :=
  (∃ messages tools k, c.program = some (.op (.complete messages tools) k)) ∨
    ∃ k, c.program = some (.op .markComplete k)

/-- In an undisturbed run the context of the log after any turn is the script. -/
theorem log_reads_back {c : RunConfig}
    (reachable :
      (sessionSystem rt agents sid agentId).ReachableIf (fun c a => undisturbed c a = true) c)
    (between : BetweenTurns c) :
    foldContext c.state.session.events = opening c.state.session.events ++
        transcript c.state.streams (toolResults c.state.session.events) ∧
      List.Forall₂ (fun call result =>
          Payload.get? result "tool_call_id" = some (.uuid (Event.id call)))
        (c.state.session.events.filter (·.type = .toolCall))
        (toolResults c.state.session.events) := by
  obtain ⟨g, watched, _, _, told, matched⟩ :=
    scripted_turnInvariant.reachable ⟨trivial, fun other => absurd rfl other⟩ reachable
  have distinct := c.state.session.distinct
  have ended : g.phase.ended = true := by
    rcases between with ⟨messages, tools, k, pending⟩ | ⟨k, pending⟩
    · obtain ⟨resting, _⟩ := watched.permits pending
      rw [resting]
      rfl
    · exact watched.permits pending
  have closed := Phase.openCalls_of_ended ended
  constructor
  · exact told.foldContext distinct ended
  · obtain ⟨done, split, answered⟩ := matched closed.1
    rw [closed.2, List.map_nil, List.append_nil] at split
    rw [← split] at answered
    exact List.forall₂_map_left_iff.mp answered

/-- Whether the process is about to mark the session complete. -/
def completing? (c : RunConfig) : Bool :=
  match c.program with
  | some (.op .markComplete _) => true
  | _ => false

theorem betweenTurns_of_completing {c : RunConfig} (h : completing? c = true) : BetweenTurns c := by
  unfold completing? at h
  split at h
  · rename_i k pending
    exact .inr ⟨k, pending⟩
  · cases h

/-- A run up to the answer to its first request. -/
def runTo (stream : ModelStream) : List RunAction :=
  [.disturb (.say "go"), .start, .respond .done, .respond .done, .respond (.reads 0),
    .respond .done, .respond .done, .respond (.streams stream)]

/-- After a turn without text and calls, no message stands for the turn. -/
theorem empty_turn_leaves_no_message : ∃ c : RunConfig,
    (bareSystem .roomy none).ReachableIf (fun c a => undisturbed c a = true) c ∧ BetweenTurns c ∧
    c.state.streams.length = 1 ∧
    ((foldContext c.state.session.events).filter (·.role = .assistant)).length = 0 := by
  obtain ⟨c, ran, rest⟩ := Option.bind_eq_some_iff.mp (show
    ((bareSystem .roomy none).runIf undisturbed ⟨.create "s" "agent", none⟩
      (runTo ⟨[], none⟩)).bind (fun c => if completing? c then some (c.state.streams.length,
        ((foldContext c.state.session.events).filter (·.role = .assistant)).length) else none) =
      some (1, 0) by decide)
  split at rest
  · rename_i completing
    obtain ⟨streams, messages⟩ := Prod.mk.inj (Option.some.inj rest)
    exact ⟨c, ⟨_, ⟨rfl, rfl⟩, Transition.System.reaches_of_runIf ran⟩,
      betweenTurns_of_completing completing, streams, messages⟩
  · cases rest

/-- A turn with a text and two calls, their results, and a last turn. -/
def twoTurns : List RunAction :=
  runTo ⟨[.textDelta "a", .toolCallEnd "t1" "lookup" [] 0, .textDelta "b",
      .toolCallEnd "t2" "lookup" [] 1, .done], none⟩ ++
    List.replicate 14 (.respond .done) ++ [.respond (.streams ⟨[.textDelta "c"], none⟩)] ++
    List.replicate 4 (.respond .done)

theorem log_reads_back_twoTurns : ∃ c : RunConfig, c.state.streams.length = 2 ∧
    foldContext c.state.session.events = opening c.state.session.events ++
        transcript c.state.streams (toolResults c.state.session.events) ∧
      List.Forall₂ (fun call result =>
          Payload.get? result "tool_call_id" = some (.uuid (Event.id call)))
        (c.state.session.events.filter (·.type = .toolCall))
        (toolResults c.state.session.events) := by
  obtain ⟨c, ran, rest⟩ := Option.bind_eq_some_iff.mp (show
    ((bareSystem .roomy none).runIf undisturbed ⟨.create "s" "agent", none⟩ twoTurns).bind
      (fun c => if completing? c then some c.state.streams.length else none) = some 2
      by decide +kernel)
  split at rest
  · rename_i completing
    exact ⟨c, Option.some.inj rest, log_reads_back
      ⟨_, ⟨rfl, rfl⟩, Transition.System.reaches_of_runIf ran⟩
        (betweenTurns_of_completing completing)⟩
  · cases rest

end Runs

end Tename
