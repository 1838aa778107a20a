import Tename.Harness.Calls

/-!
# Well-formed conversations

What the providers ask of a message list: tool rounds are pairs of an assistant
message and the tool message that answers it, and the list ends on something to
reply to. The fold of a log keeps the first as long as no message of another
kind comes between a call and its result, whichever events are shown to it;
`Ending` follows whether it keeps the second.
-/

namespace Tename

/-- The messages besides the system messages. -/
def conversation (messages : List Message) : List Message :=
  messages.filter (·.role ≠ .system)

/-- The ids of the `tool_use` blocks among `blocks`. -/
def useIds (blocks : List ContentBlock) : List String :=
  blocks.filterMap fun
    | .toolUse id _ _ => some id
    | _ => none

/-- The ids that the `tool_result` blocks among `blocks` answer. -/
def answerIds (blocks : List ContentBlock) : List String :=
  blocks.filterMap fun
    | .toolResult id _ _ => some id
    | _ => none

def Message.blocks (m : Message) : List ContentBlock :=
  match m.content with
  | .text _ => []
  | .blocks blocks => blocks

/-- A message that asks for tool results. -/
def Message.Asks (m : Message) : Prop :=
  m.role = .assistant ∧ useIds m.blocks ≠ []

/-- Tool rounds are pairs. -/
structure PairsRounds (messages : List Message) : Prop where
  answered : ∀ before m after, conversation messages = before ++ m :: after → m.Asks →
    ∃ t rest, after = t :: rest ∧ t.role = .tool ∧ (answerIds t.blocks).Perm (useIds m.blocks)
  asked : ∀ before t after, conversation messages = before ++ t :: after → t.role = .tool →
    ∃ rest m, before = rest ++ [m] ∧ m.Asks

/-- A message list a provider accepts. -/
structure WellFormed (messages : List Message) : Prop extends PairsRounds messages where
  last : ∃ before m, conversation messages = before ++ [m] ∧ (m.role = .user ∨ m.role = .tool)

/-- A conversation, from its messages and rounds. -/
inductive Paired : List Message → Prop
  | nil : Paired []
  | plain {messages : List Message} {m : Message} (before : Paired messages)
      (speaks : m.role = .user ∨ m.role = .assistant ∧ useIds m.blocks = []) :
      Paired (messages ++ [m])
  | round {messages : List Message} {m t : Message} (before : Paired messages) (asks : m.Asks)
      (tool : t.role = .tool) (answers : (answerIds t.blocks).Perm (useIds m.blocks)) :
      Paired (messages ++ [m, t])

/-- A list that ends on `m`, cut at one of its members. -/
theorem append_singleton_cut {α : Type} {xs before after : List α} {m x : α}
    (cut : xs ++ [m] = before ++ x :: after) :
    (xs = before ∧ m = x ∧ after = []) ∨
      ∃ after', after = after' ++ [m] ∧ xs = before ++ x :: after' := by
  rcases List.eq_nil_or_concat after with rfl | ⟨after', y, rfl⟩
  · obtain ⟨same, last⟩ := List.append_inj' cut rfl
    exact .inl ⟨same, List.singleton_inj.mp last, rfl⟩
  · rw [List.concat_eq_append, ← List.cons_append, ← List.append_assoc] at cut
    obtain ⟨same, last⟩ := List.append_inj' cut rfl
    exact .inr ⟨after', by rw [List.singleton_inj.mp last, List.concat_eq_append], same⟩

theorem Paired.answered {messages before after : List Message} {m : Message} (h : Paired messages)
    (cut : messages = before ++ m :: after) (asks : m.Asks) :
    ∃ t rest, after = t :: rest ∧ t.role = .tool ∧
      (answerIds t.blocks).Perm (useIds m.blocks) := by
  induction h generalizing after with
  | nil => simp at cut
  | @plain messages last _ speaks ih =>
      rcases append_singleton_cut cut with ⟨_, rfl, _⟩ | ⟨after', rfl, inner⟩
      · rcases speaks with user | ⟨_, silent⟩
        · exact absurd (asks.1.symm.trans user) (by decide)
        · exact absurd silent asks.2
      · obtain ⟨t, rest, rfl, paired⟩ := ih inner
        exact ⟨t, rest ++ [last], rfl, paired⟩
  | @round messages first t _ _ tool answers ih =>
      have cut : (messages ++ [first]) ++ [t] = before ++ m :: after := by simpa using cut
      rcases append_singleton_cut cut with ⟨_, rfl, _⟩ | ⟨after', rfl, inner⟩
      · exact absurd (asks.1.symm.trans tool) (by decide)
      · rcases append_singleton_cut inner with ⟨_, rfl, nothing⟩ | ⟨after, rfl, deep⟩
        · exact ⟨t, [], by rw [nothing]; rfl, tool, answers⟩
        · obtain ⟨t', rest, rfl, paired⟩ := ih deep
          exact ⟨t', rest ++ [first] ++ [t], by simp, paired⟩

theorem Paired.asked {messages before after : List Message} {t : Message} (h : Paired messages)
    (cut : messages = before ++ t :: after) (tool : t.role = .tool) :
    ∃ rest m, before = rest ++ [m] ∧ m.Asks := by
  induction h generalizing after with
  | nil => simp at cut
  | @plain messages last _ speaks ih =>
      rcases append_singleton_cut cut with ⟨_, rfl, _⟩ | ⟨after', rfl, inner⟩
      · rcases speaks with user | ⟨assistant, _⟩
        · exact absurd (tool.symm.trans user) (by decide)
        · exact absurd (tool.symm.trans assistant) (by decide)
      · exact ih inner
  | @round messages first last _ asks _ _ ih =>
      have cut : (messages ++ [first]) ++ [last] = before ++ t :: after := by simpa using cut
      rcases append_singleton_cut cut with ⟨rfl, rfl, _⟩ | ⟨after', rfl, inner⟩
      · exact ⟨messages, first, rfl, asks⟩
      · rcases append_singleton_cut inner with ⟨_, rfl, _⟩ | ⟨after, rfl, deep⟩
        · exact absurd (tool.symm.trans asks.1) (by decide)
        · exact ih deep

theorem Paired.pairsRounds {messages : List Message} (h : Paired (conversation messages)) :
    PairsRounds messages :=
  ⟨fun _ _ _ cut => h.answered cut, fun _ _ _ cut => h.asked cut⟩

/-- The conversation ends on a reply. -/
def EndsOnReply (messages : List Message) : Prop :=
  ∃ before m, conversation messages = before ++ [m] ∧ m.role = .assistant

theorem Paired.last {messages : List Message} (h : Paired messages) (some' : messages ≠ []) :
    ∃ before m, messages = before ++ [m] ∧
      (m.role = .user ∨ m.role = .tool ∨ m.role = .assistant) := by
  cases h with
  | nil => exact absurd rfl some'
  | plain before speaks =>
      rcases speaks with user | ⟨assistant, _⟩
      · exact ⟨_, _, rfl, .inl user⟩
      · exact ⟨_, _, rfl, .inr (.inr assistant)⟩
  | @round messages m t _ _ tool _ => exact ⟨messages ++ [m], t, by simp, .inr (.inl tool)⟩

theorem Paired.wellFormed {messages : List Message} (h : Paired (conversation messages))
    (waits : ¬ EndsOnReply messages) (asked : messages.any (·.role = .user) = true) :
    WellFormed messages := by
  obtain ⟨m, mem, user⟩ := List.any_eq_true.mp asked
  have some' : conversation messages ≠ [] := by
    refine List.ne_nil_of_mem (List.mem_filter.mpr ⟨mem, ?_⟩)
    simp [of_decide_eq_true user]
  obtain ⟨before, last, ends, user | tool | assistant⟩ := h.last some'
  · exact ⟨h.pairsRounds, before, last, ends, .inl user⟩
  · exact ⟨h.pairsRounds, before, last, ends, .inr tool⟩
  · exact absurd ⟨before, last, ends, assistant⟩ waits

section Blocks

@[simp] theorem conversation_append (messages messages' : List Message) :
    conversation (messages ++ messages') = conversation messages ++ conversation messages' :=
  List.filter_append ..

@[simp] theorem conversation_nil : conversation [] = [] := rfl

@[simp] theorem conversation_singleton (m : Message) :
    conversation [m] = if m.role = .system then [] else [m] := by
  by_cases system : m.role = .system <;> simp [conversation, system]

@[simp] theorem useIds_append (blocks blocks' : List ContentBlock) :
    useIds (blocks ++ blocks') = useIds blocks ++ useIds blocks' :=
  List.filterMap_append ..

@[simp] theorem answerIds_append (blocks blocks' : List ContentBlock) :
    answerIds (blocks ++ blocks') = answerIds blocks ++ answerIds blocks' :=
  List.filterMap_append ..

@[simp] theorem answerIds_toolResultBlock (toolUseId : String) (payload : Payload) :
    answerIds [toolResultBlock toolUseId payload] = [toolUseId] := rfl

open ContextFold

@[simp] theorem role_assistantMessage (text : String) (uses : List ContentBlock) :
    (assistantMessage text uses).role = .assistant := rfl

@[simp] theorem useIds_assistantMessage (text : String) (uses : List ContentBlock) :
    useIds (assistantMessage text uses).blocks = useIds uses := by
  change useIds ((if text = "" then [] else [.text text]) ++ uses) = useIds uses
  split
  · rfl
  · rfl

end Blocks

/-- Whether a log, as far as it has been read, leaves a reply standing at its end: as text
that waits for its message, or as the last message. -/
structure Ending where
  pending : Bool
  replied : Bool
  deriving DecidableEq

namespace Ending

/-- Nothing stands after the last message to reply to. -/
def quiet : Ending := ⟨false, false⟩

/-- A pending text becomes a message. -/
def flush (en : Ending) : Ending := ⟨false, en.replied || en.pending⟩

/-- What an event does to the ending. User messages and results of known calls are
messages to reply to; a closer's text replaces one that no message has taken. -/
def step (ids : List (EventId × String)) (en : Ending) (e : Event) : Ending :=
  match e.type with
  | .userMessage => quiet
  | .toolResult => if (toolUseIdOf ids e.payload).isSome then quiet else en.flush
  | .assistantMessage =>
      if (e.payload.getD "is_complete" (.bool false)).truthy then
        ⟨(e.payload.getD "content" (.str "")).str? != some "", en.replied⟩
      else en
  | .systemEvent =>
      if (e.payload.get? "type").bind Json.str? = some "system_prompt" then en.flush else en
  | _ => en

end Ending

/-- The ending of a log. -/
def endingOf (ids : List (EventId × String)) (events : List Event) : Ending :=
  events.foldl (Ending.step ids) .quiet

/-- The messages `base` and the text after them are told as `en` says. -/
structure Told (base : List Message) (text : String) (en : Ending) : Prop where
  paired : Paired (conversation base)
  pending : text ≠ "" → en.pending = true
  replied : EndsOnReply base → en.replied = true

section Telling

open ContextFold

variable {ids : List (EventId × String)} {e : Event} {base : List Message} {text : String}
variable {en : Ending}

theorem told_empty : Told [] "" .quiet where
  paired := .nil
  pending some' := absurd rfl some'
  replied := by
    rintro ⟨before, m, ends, _⟩
    simp at ends

/-- A text becomes a message of its own. -/
theorem Told.flush (h : Told base text en) : Told (base ++ spoken text []) "" en.flush := by
  by_cases silent : text = ""
  · rw [silent, spoken_nothing, List.append_nil]
    refine ⟨h.paired, fun some' => absurd rfl some', fun ends => ?_⟩
    rw [Ending.flush, h.replied ends, Bool.true_or]
  · rw [spoken_of_text silent]
    refine ⟨?_, fun some' => absurd rfl some', fun _ => ?_⟩
    · rw [conversation_append]
      exact h.paired.plain (.inr ⟨rfl, useIds_assistantMessage text []⟩)
    · rw [Ending.flush, h.pending silent, Bool.or_true]

/-- A message that no turn writes, after a flush. -/
theorem Told.push {m : Message} (h : Told base text en) (opens : m.role = .user) :
    Told (base ++ spoken text [] ++ [m]) "" .quiet where
  paired := by
    rw [conversation_append _ [m], conversation_singleton, if_neg (by simp [opens])]
    exact h.flush.paired.plain (.inl opens)
  pending some' := absurd rfl some'
  replied := by
    rintro ⟨before, last, ends, assistant⟩
    rw [conversation_append _ [m], conversation_singleton, if_neg (by simp [opens])] at ends
    obtain ⟨_, same⟩ := List.append_inj' ends rfl
    rw [← List.singleton_inj.mp same, opens] at assistant
    cases assistant

theorem Told.user {content : String} (h : Told base text en) (type : e.type = .userMessage) :
    Told (base ++ spoken text [] ++ [⟨.user, .text content⟩]) "" (en.step ids e) := by
  rw [Ending.step, type]
  exact h.push rfl

theorem Told.systemPrompt {prompt : String} (h : Told base text en) (type : e.type = .systemEvent)
    (payload : e.payload = systemPromptPayload prompt) :
    Told (base ++ spoken text [] ++ [⟨.system, .text prompt⟩]) "" (en.step ids e) := by
  have flushed : en.step ids e = en.flush := by
    rw [Ending.step, type, payload]
    rfl
  have same : conversation (base ++ spoken text [] ++ [⟨.system, .text prompt⟩]) =
      conversation (base ++ spoken text []) := by
    rw [conversation_append _ [_], conversation_singleton, if_pos rfl, List.append_nil]
  rw [flushed]
  refine ⟨by rw [same]; exact h.flush.paired, h.flush.pending, fun ends => h.flush.replied ?_⟩
  rw [EndsOnReply, same] at ends
  exact ends

theorem Told.closer {texts : List String} {usage : Option Usage} (h : Told base text en)
    (type : e.type = .assistantMessage) (payload : e.payload = closerPayload texts usage) :
    Told base (String.join texts) (en.step ids e) := by
  have read : en.step ids e = ⟨some (String.join texts) != some "", en.replied⟩ := by
    rw [Ending.step, type, payload]
    rfl
  rw [read]
  exact ⟨h.paired, fun spoken => by simpa using spoken, h.replied⟩

/-- The result of a call that is not shown. -/
theorem Told.orphan {call : EventId} (h : Told base text en) (type : e.type = .toolResult)
    (answers : e.payload.get? "tool_call_id" = some (.uuid call))
    (orphan : ids.lookup call = none) :
    Told (base ++ spoken text []) "" (en.step ids e) := by
  have flushed : en.step ids e = en.flush := by
    simp only [Ending.step, type, toolUseIdOf, answers, orphan]
    rfl
  rw [flushed]
  exact h.flush

/-- A round is told, and waits for a reply. -/
theorem told_round {uses results : List ContentBlock} (paired : Paired (conversation base))
    (some' : useIds uses ≠ []) (answers : answerIds results = useIds uses) (en : Ending) :
    Told (base ++ [assistantMessage text uses] ++ [⟨.tool, .blocks results⟩]) "" en where
  paired := by
    have asks : (assistantMessage text uses).Asks := ⟨rfl, by rwa [useIds_assistantMessage]⟩
    have round := paired.round (t := ⟨.tool, .blocks results⟩) asks rfl (by
      rw [useIds_assistantMessage]
      exact .of_eq answers)
    rw [List.append_assoc, conversation_append]
    exact round
  pending some' := absurd rfl some'
  replied := by
    rintro ⟨before, last, ends, assistant⟩
    rw [conversation_append _ [_], conversation_singleton, if_neg (by rintro ⟨⟩)] at ends
    obtain ⟨_, same⟩ := List.append_inj' ends rfl
    rw [← List.singleton_inj.mp same] at assistant
    cases assistant

theorem Ending.step_delta {text : String} (type : e.type = .assistantMessage)
    (payload : e.payload = deltaPayload text) : en.step ids e = en := by
  rw [Ending.step, type, payload]
  rfl

theorem Ending.step_provisioned {sandbox runtime : String} (type : e.type = .systemEvent)
    (payload : e.payload = provisionedPayload sandbox runtime) : en.step ids e = en := by
  rw [Ending.step, type, payload]
  rfl

theorem Ending.step_other (other : e.type = .toolCall ∨ e.type = .harnessEvent ∨ e.type = .error) :
    en.step ids e = en := by
  rcases other with type | type | type <;> rw [Ending.step, type]

theorem Ending.step_answered {call : EventId} {toolUseId : String} (type : e.type = .toolResult)
    (answers : e.payload.get? "tool_call_id" = some (.uuid call))
    (known : ids.lookup call = some toolUseId) : en.step ids e = .quiet := by
  simp only [Ending.step, type, toolUseIdOf, answers, known]
  rfl

end Telling

end Tename
