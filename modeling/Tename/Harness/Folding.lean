import Tename.Harness.Invariants

/-!
# The fold, event by event

`build_context` undoes the order in which the loop writes a turn: the calls come
before the text that belongs in front of them, and the results after both. The
equations below say what each kind of event the loop writes does to the buffers,
and `Open` what the buffers hold while a turn is being read: `base` are the
messages of everything before, results included, whether or not they have been
flushed yet.
-/

namespace Tename

namespace ContextFold

variable {ids : List (EventId × String)} {st : ContextFold} {e : Event}

section Equations

theorem foldEvent_delta {text : String} (type : e.type = .assistantMessage)
    (payload : e.payload = deltaPayload text) : foldEvent ids st e = st := by
  simp only [foldEvent, type, payload]
  rfl

theorem foldEvent_closer {texts : List String} {usage : Option Usage}
    (type : e.type = .assistantMessage) (payload : e.payload = closerPayload texts usage) :
    foldEvent ids st e = { st.flushToolResults with pendingText := String.join texts } := by
  simp only [foldEvent, type, payload]
  rfl

theorem foldEvent_toolCall {toolId toolName : String} {input : Payload} (type : e.type = .toolCall)
    (payload : e.payload = toolCallPayload toolId toolName input) :
    foldEvent ids st e =
      { (if st.pendingToolResults.isEmpty then st else st.flush) with
        pendingToolUses :=
          (if st.pendingToolResults.isEmpty then st else st.flush).pendingToolUses ++
          [.toolUse toolId toolName input] } := by
  simp only [foldEvent, type, payload]
  rfl

/-- A result whose call is known. -/
theorem foldEvent_toolResult {call : EventId} {toolUseId : String} (type : e.type = .toolResult)
    (answers : e.payload.get? "tool_call_id" = some (.uuid call))
    (known : ids.lookup call = some toolUseId) :
    foldEvent ids st e = { st.flushAssistant with
      pendingToolResults := st.flushAssistant.pendingToolResults ++
        [toolResultBlock toolUseId e.payload] } := by
  simp only [foldEvent, type, toolUseIdOf, answers, known]

/-- A result whose call is not among the events. -/
theorem foldEvent_orphan {call : EventId} (type : e.type = .toolResult)
    (answers : e.payload.get? "tool_call_id" = some (.uuid call))
    (orphan : ids.lookup call = none) :
    foldEvent ids st e = st.flushAssistant := by
  simp only [foldEvent, type, toolUseIdOf, answers, orphan]

theorem foldEvent_user {content : String} (type : e.type = .userMessage)
    (payload : e.payload = userPayload content) :
    foldEvent ids st e = st.flush.push ⟨.user, .text content⟩ := by
  simp only [foldEvent, type, payload]
  rfl

theorem foldEvent_systemPrompt {prompt : String} (type : e.type = .systemEvent)
    (payload : e.payload = systemPromptPayload prompt) (nonempty : prompt ≠ "") :
    foldEvent ids st e = st.flush.push ⟨.system, .text prompt⟩ := by
  simp only [foldEvent, type, payload]
  exact if_neg nonempty

theorem foldEvent_provisioned {sandbox runtime : String} (type : e.type = .systemEvent)
    (payload : e.payload = provisionedPayload sandbox runtime) : foldEvent ids st e = st := by
  simp only [foldEvent, type, payload]
  rfl

theorem foldEvent_harness (type : e.type = .harnessEvent) : foldEvent ids st e = st := by
  simp only [foldEvent, type]

theorem foldEvent_error (type : e.type = .error) : foldEvent ids st e = st := by
  simp only [foldEvent, type]

end Equations

/-- The message of the text and the tool uses that wait for one. -/
def spoken (text : String) (uses : List ContentBlock) : List Message :=
  if text = "" ∧ uses = [] then [] else [assistantMessage text uses]

@[simp] theorem spoken_nothing : spoken "" [] = [] := rfl

theorem spoken_of_uses {text : String} {uses : List ContentBlock} (some' : uses ≠ []) :
    spoken text uses = [assistantMessage text uses] := by
  simp [spoken, some']

theorem spoken_of_text {text : String} {uses : List ContentBlock} (some' : text ≠ "") :
    spoken text uses = [assistantMessage text uses] := by
  simp [spoken, some']

/-- While a turn is being read and none of its results has been. -/
structure Open (st : ContextFold) (base : List Message) (text : String)
    (uses : List ContentBlock) : Prop where
  messages : st.flushToolResults.messages = base
  pendingText : st.pendingText = text
  pendingToolUses : st.pendingToolUses = uses
  exclusive : text ≠ "" ∨ uses ≠ [] → st.pendingToolResults = []

variable {base : List Message} {text : String} {uses : List ContentBlock}

theorem open_empty : Open .empty [] "" [] where
  messages := rfl
  pendingText := rfl
  pendingToolUses := rfl
  exclusive := fun _ => rfl

theorem flushToolResults_of_nil (none' : st.pendingToolResults = []) :
    st.flushToolResults = st := by
  simp [flushToolResults, none']

theorem flushAssistant_of_nothing (silent : st.pendingText = "") (none' : st.pendingToolUses = []) :
    st.flushAssistant = st := by
  simp [flushAssistant, silent, none']

theorem flushToolResults_eq (st : ContextFold) : st.flushToolResults =
    ⟨st.flushToolResults.messages, st.pendingText, st.pendingToolUses, []⟩ := by
  unfold flushToolResults
  split
  · rename_i none'
    obtain ⟨messages, text, uses, results⟩ := st
    simpa using none'
  · rfl

/-- What is open and has something to say has no results waiting. -/
theorem Open.eq (h : Open st base text uses) (some' : text ≠ "" ∨ uses ≠ []) :
    st = ⟨base, text, uses, []⟩ := by
  have none' := h.exclusive some'
  have messages := h.messages
  rw [flushToolResults_of_nil none'] at messages
  obtain ⟨_, _, _, _⟩ := st
  cases messages
  cases h.pendingText
  cases h.pendingToolUses
  cases none'
  rfl

theorem Open.flushToolResults (h : Open st base text uses) :
    st.flushToolResults = ⟨base, text, uses, []⟩ := by
  rw [flushToolResults_eq, h.messages, h.pendingText, h.pendingToolUses]

theorem Open.flushAssistant (h : Open st base text uses) (some' : text ≠ "" ∨ uses ≠ []) :
    st.flushAssistant = ⟨base ++ [assistantMessage text uses], "", [], []⟩ := by
  rw [h.eq some', ContextFold.flushAssistant, if_neg]
  · rfl
  · rintro ⟨silent, none'⟩
    rcases some' with spoke | called
    · exact spoke silent
    · exact called (by simpa using none')

theorem Open.flush (h : Open st base text uses) :
    st.flush = ⟨base ++ spoken text uses, "", [], []⟩ := by
  by_cases nothing : text = "" ∧ uses = []
  · obtain ⟨rfl, rfl⟩ := nothing
    rw [ContextFold.flush, flushAssistant_of_nothing h.pendingText h.pendingToolUses,
      h.flushToolResults, spoken_nothing, List.append_nil]
  · have some' : text ≠ "" ∨ uses ≠ [] := by
      rwa [not_and_or] at nothing
    rw [ContextFold.flush, h.flushAssistant some', flushToolResults_of_nil rfl, spoken,
      if_neg nothing]

/-- A text becomes a message of its own where no use waits with it. -/
theorem Open.flushed (h : Open st base text []) :
    Open st.flushAssistant (base ++ spoken text []) "" [] := by
  by_cases silent : text = ""
  · subst silent
    rw [flushAssistant_of_nothing h.pendingText h.pendingToolUses, spoken_nothing, List.append_nil]
    exact h
  · rw [h.flushAssistant (.inl silent), spoken_of_text silent]
    exact ⟨rfl, rfl, rfl, fun _ => rfl⟩

/-- Everything said and answered. -/
theorem open_of_messages (base : List Message) : Open ⟨base, "", [], []⟩ base "" [] where
  messages := rfl
  pendingText := rfl
  pendingToolUses := rfl
  exclusive := fun _ => rfl

section Steps

theorem Open.closer {texts : List String} {usage : Option Usage} (h : Open st base text uses)
    (type : e.type = .assistantMessage) (payload : e.payload = closerPayload texts usage) :
    Open (foldEvent ids st e) base (String.join texts) uses := by
  rw [foldEvent_closer type payload, h.flushToolResults]
  exact ⟨rfl, rfl, rfl, fun _ => rfl⟩

theorem Open.toolCall {toolId toolName : String} {input : Payload} (h : Open st base text uses)
    (type : e.type = .toolCall) (payload : e.payload = toolCallPayload toolId toolName input) :
    Open (foldEvent ids st e) base text (uses ++ [.toolUse toolId toolName input]) := by
  rw [foldEvent_toolCall type payload]
  cases none' : st.pendingToolResults with
  | nil =>
      refine ⟨?_, h.pendingText, ?_, fun _ => none'⟩
      · simpa [ContextFold.flushToolResults, none'] using h.messages
      · simp [h.pendingToolUses]
  | cons result results =>
      have nothing : text = "" ∧ uses = [] := by
        by_contra some'
        rw [not_and_or] at some'
        exact List.cons_ne_nil _ _ (none'.symm.trans (h.exclusive some'))
      obtain ⟨rfl, rfl⟩ := nothing
      rw [h.flush]
      exact ⟨by simp [ContextFold.flushToolResults], rfl, rfl, fun _ => rfl⟩

theorem Open.user {content : String} (h : Open st base text uses) (type : e.type = .userMessage)
    (payload : e.payload = userPayload content) :
    Open (foldEvent ids st e) (base ++ spoken text uses ++ [⟨.user, .text content⟩]) "" [] := by
  rw [foldEvent_user type payload, h.flush]
  exact open_of_messages _

theorem Open.systemPrompt {prompt : String} (h : Open st base text uses)
    (type : e.type = .systemEvent) (payload : e.payload = systemPromptPayload prompt)
    (nonempty : prompt ≠ "") :
    Open (foldEvent ids st e) (base ++ spoken text uses ++ [⟨.system, .text prompt⟩]) "" [] := by
  rw [foldEvent_systemPrompt type payload nonempty, h.flush]
  exact open_of_messages _

/-- The first result of a turn with known calls. -/
theorem Open.toolResult {call : EventId} {toolUseId : String} (h : Open st base text uses)
    (some' : uses ≠ []) (type : e.type = .toolResult)
    (answers : e.payload.get? "tool_call_id" = some (.uuid call))
    (known : ids.lookup call = some toolUseId) :
    foldEvent ids st e =
      ⟨base ++ [assistantMessage text uses], "", [], [toolResultBlock toolUseId e.payload]⟩ := by
  rw [foldEvent_toolResult type answers known, h.flushAssistant (.inr some')]
  rfl

/-- A further result. -/
theorem toolResult_answering {messages : List Message} {results : List ContentBlock}
    {call : EventId} {toolUseId : String} (type : e.type = .toolResult)
    (answers : e.payload.get? "tool_call_id" = some (.uuid call))
    (known : ids.lookup call = some toolUseId) :
    foldEvent ids ⟨messages, "", [], results⟩ e =
      ⟨messages, "", [], results ++ [toolResultBlock toolUseId e.payload]⟩ := by
  rw [foldEvent_toolResult type answers known, flushAssistant_of_nothing rfl rfl]

/-- All results of a turn have been read. -/
theorem open_of_results {messages : List Message} {results : List ContentBlock}
    (some' : results ≠ []) :
    Open ⟨messages, "", [], results⟩ (messages ++ [⟨.tool, .blocks results⟩]) "" [] where
  messages := by simp [ContextFold.flushToolResults, push, some']
  pendingText := rfl
  pendingToolUses := rfl
  exclusive := by simp

end Steps

end ContextFold

/-- The context of `events` while they are read. -/
def readContext (ids : List (EventId × String)) (events : List Event) : ContextFold :=
  events.foldl (foldEvent ids) .empty

theorem readContext_append (ids : List (EventId × String)) (events : List Event) (e : Event) :
    readContext ids (events ++ [e]) = foldEvent ids (readContext ids events) e := by
  simp [readContext]

/-- A log of user messages is read as it stands. -/
theorem foldContext_users {events : List Event} {contents : List String}
    (users : List.Forall₂ (fun e content => e.type = .userMessage ∧ e.payload = userPayload content)
      events contents) :
    foldContext events = contents.map fun content => ⟨.user, .text content⟩ := by
  have folded : ∀ ids st base, ContextFold.Open st base "" [] →
      ContextFold.Open (events.foldl (foldEvent ids) st)
        (base ++ contents.map fun content => ⟨.user, .text content⟩) "" [] := by
    intro ids
    induction users with
    | nil => exact fun st base h => by simpa using h
    | cons user _ ih =>
        intro st base h
        simpa using ih _ _ (h.user user.1 user.2)
  rw [foldContext, (folded _ _ _ ContextFold.open_empty).flush]
  simp

end Tename
