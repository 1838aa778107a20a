import Mathlib.Data.List.Perm.Subperm
import Tename.Harness.Requests

/-!
# Results and their calls in a request

A provider takes a `tool_result` block for an answer to a `tool_use` block before it. Runs may
be killed between a call and its result, compactions may take one and leave the other, and a
page may end anywhere. None of this leaves a result without its call: at every message of
results in a request, the results so far are results of different calls before it.
-/

namespace Tename

variable {rt : Runtime} {agents : AgentId → Option Agent} {sid : SessionId} {agentId : AgentId}

/-- The ids of the calls in the messages, in order. -/
def calledIds (messages : List Message) : List String :=
  messages.flatMap fun m => useIds m.blocks

/-- The ids that the results in the messages answer, in order. -/
def answeredIds (messages : List Message) : List String :=
  messages.flatMap fun m => answerIds m.blocks

/-- Up to every message of results, each result has a call of its own before the message. -/
def AnswersCalls (messages : List Message) : Prop :=
  ∀ before t after, messages = before ++ t :: after → t.role = .tool →
    (answeredIds (before ++ [t])).Subperm (calledIds before)

section Lists

variable {messages : List Message} {m : Message}

@[simp] theorem calledIds_append (messages messages' : List Message) :
    calledIds (messages ++ messages') = calledIds messages ++ calledIds messages' :=
  List.flatMap_append ..

@[simp] theorem answeredIds_append (messages messages' : List Message) :
    answeredIds (messages ++ messages') = answeredIds messages ++ answeredIds messages' :=
  List.flatMap_append ..

@[simp] theorem calledIds_singleton (m : Message) : calledIds [m] = useIds m.blocks :=
  List.append_nil _

@[simp] theorem answeredIds_singleton (m : Message) : answeredIds [m] = answerIds m.blocks :=
  List.append_nil _

theorem AnswersCalls.append (h : AnswersCalls messages)
    (answers : m.role = .tool → (answeredIds (messages ++ [m])).Subperm (calledIds messages)) :
    AnswersCalls (messages ++ [m]) := by
  intro before t after cut tool
  rcases append_singleton_cut cut with ⟨rfl, rfl, -⟩ | ⟨after', -, inner⟩
  · exact answers tool
  · exact h before t after' inner tool

end Lists

/-- The id that a call is folded under. -/
def Event.calledAs? (e : Event) : Option String :=
  if e.type = .toolCall then
    match (e.payload.get? "tool_id").bind Json.str?,
        (e.payload.get? "tool_name").bind Json.str? with
    | some toolId, some _ => some toolId
    | _, _ => none
  else none

/-- The id that a result is folded under. -/
def Event.answerTo? (ids : List (EventId × String)) (e : Event) : Option String :=
  if e.type = .toolResult then toolUseIdOf ids e.payload else none

section Folding

open ContextFold

/-- Among the events, the results are results of different calls. -/
def Balanced (ids : List (EventId × String)) (events : List Event) : Prop :=
  (events.filterMap (Event.answerTo? ids)).Subperm (events.filterMap Event.calledAs?)

/-- The buffers after some events: what they hold of the calls and of the results. -/
structure ContextFold.Accounts (ids : List (EventId × String)) (events : List Event)
    (st : ContextFold) : Prop where
  calls : calledIds st.messages ++ useIds st.pendingToolUses = events.filterMap Event.calledAs?
  answers : answeredIds st.messages ++ answerIds st.pendingToolResults =
    events.filterMap (Event.answerTo? ids)
  uses : answerIds st.pendingToolUses = []
  results : useIds st.pendingToolResults = []
  waits : st.pendingToolResults ≠ [] → st.pendingToolUses = []
  ordered : AnswersCalls st.messages

@[simp] theorem pendingToolResults_flush (st : ContextFold) : st.flush.pendingToolResults = [] := by
  unfold ContextFold.flush ContextFold.flushToolResults
  split
  · rename_i none'
    exact List.isEmpty_iff.mp none'
  · rfl

theorem pendingToolUses_flushToolResults (st : ContextFold) :
    st.flushToolResults.pendingToolUses = st.pendingToolUses := by
  unfold ContextFold.flushToolResults
  split <;> rfl

namespace ContextFold.Accounts

variable {ids : List (EventId × String)} {events : List Event} {st : ContextFold} {e : Event}

/-- A message without calls and results. -/
theorem push {role : Role} {said : String} (h : st.Accounts ids events) (other : role ≠ .tool) :
    (st.push ⟨role, .text said⟩).Accounts ids events where
  calls := by
    rw [ContextFold.push, calledIds_append, calledIds_singleton]
    exact (congrArg (· ++ _) (List.append_nil _)).trans h.calls
  answers := by
    rw [ContextFold.push, answeredIds_append, answeredIds_singleton]
    exact (congrArg (· ++ _) (List.append_nil _)).trans h.answers
  uses := h.uses
  results := h.results
  waits := h.waits
  ordered := h.ordered.append fun tool => absurd tool other

theorem flushAssistant (h : st.Accounts ids events) :
    st.flushAssistant.Accounts ids events ∧ st.flushAssistant.pendingToolUses = [] := by
  unfold ContextFold.flushAssistant
  split
  · rename_i nothing
    exact ⟨h, List.isEmpty_iff.mp nothing.2⟩
  · have spoken : useIds (assistantMessage st.pendingText st.pendingToolUses).blocks =
        useIds st.pendingToolUses := useIds_assistantMessage _ _
    have silent : answerIds (assistantMessage st.pendingText st.pendingToolUses).blocks = [] := by
      change answerIds ((if st.pendingText = "" then [] else [.text st.pendingText]) ++ _) = []
      rw [answerIds_append, h.uses]
      split <;> rfl
    refine ⟨⟨?_, ?_, rfl, h.results, fun _ => rfl, h.ordered.append ?_⟩, rfl⟩
    · rw [ContextFold.push, calledIds_append, calledIds_singleton, spoken]
      exact (List.append_nil _).trans h.calls
    · rw [ContextFold.push, answeredIds_append, answeredIds_singleton, silent, List.append_nil]
      exact h.answers
    · rintro ⟨⟩

theorem flushToolResults (h : st.Accounts ids events) (balanced : Balanced ids events) :
    st.flushToolResults.Accounts ids events := by
  unfold ContextFold.flushToolResults
  split
  · exact h
  · rename_i some'
    have waited := h.waits (by simpa using some')
    have answered : answeredIds (st.messages ++ [⟨.tool, .blocks st.pendingToolResults⟩]) =
        events.filterMap (Event.answerTo? ids) := by
      rw [answeredIds_append, answeredIds_singleton]
      exact h.answers
    have called : calledIds st.messages = events.filterMap Event.calledAs? := by
      rw [← h.calls, waited]
      exact (List.append_nil _).symm
    refine ⟨?_, ?_, h.uses, rfl, by simp, h.ordered.append fun _ => ?_⟩
    · rw [ContextFold.push, calledIds_append, calledIds_singleton, ← h.calls]
      exact congrArg (· ++ _) ((congrArg _ h.results).trans (List.append_nil _))
    · rw [ContextFold.push, answered]
      exact List.append_nil _
    · rw [answered, called]
      exact balanced

theorem flush (h : st.Accounts ids events) (balanced : Balanced ids events) :
    st.flush.Accounts ids events :=
  h.flushAssistant.1.flushToolResults balanced

/-- An event that is neither a call nor a result. -/
theorem other (h : st.Accounts ids events) (noCall : e.type ≠ .toolCall)
    (noResult : e.type ≠ .toolResult) : st.Accounts ids (events ++ [e]) := by
  refine ⟨?_, ?_, h.uses, h.results, h.waits, h.ordered⟩
  · rw [h.calls, List.filterMap_append, List.filterMap_cons_none, List.filterMap_nil,
      List.append_nil]
    exact if_neg noCall
  · rw [h.answers, List.filterMap_append, List.filterMap_cons_none, List.filterMap_nil,
      List.append_nil]
    exact if_neg noResult

theorem toolCall (h : st.Accounts ids events) (balanced : Balanced ids events)
    (type : e.type = .toolCall) : (foldEvent ids st e).Accounts ids (events ++ [e]) := by
  have noResult : e.answerTo? ids = none := if_neg (by rw [type]; rintro ⟨⟩)
  have answers : events.filterMap (Event.answerTo? ids) =
      (events ++ [e]).filterMap (Event.answerTo? ids) := by
    rw [List.filterMap_append, List.filterMap_cons_none noResult, List.filterMap_nil,
      List.append_nil]
  unfold foldEvent
  rw [type]
  dsimp only
  split
  · rename_i toolId toolName id name
    have called : e.calledAs? = some toolId := by
      rw [Event.calledAs?, if_pos type, id, name]
    obtain ⟨before, drained⟩ : (if st.pendingToolResults.isEmpty then st else st.flush).Accounts
        ids events ∧
        (if st.pendingToolResults.isEmpty then st else st.flush).pendingToolResults = [] := by
      split
      · rename_i none'
        exact ⟨h, List.isEmpty_iff.mp none'⟩
      · exact ⟨h.flush balanced, pendingToolResults_flush st⟩
    generalize (if st.pendingToolResults.isEmpty then st else st.flush) = st' at before drained ⊢
    refine ⟨?_, before.answers.trans answers, ?_, before.results,
      fun some' => absurd drained some', before.ordered⟩
    · rw [List.filterMap_append, List.filterMap_cons_some called, List.filterMap_nil,
        ← before.calls, useIds_append, List.append_assoc]
      rfl
    · rw [answerIds_append, before.uses]
      rfl
  · rename_i unread
    have uncalled : e.calledAs? = none := by
      rw [Event.calledAs?, if_pos type]
      split
      · rename_i toolId toolName id name
        exact absurd name (unread toolId toolName id)
      · rfl
    refine ⟨?_, h.answers.trans answers, h.uses, h.results, h.waits, h.ordered⟩
    rw [h.calls, List.filterMap_append, List.filterMap_cons_none uncalled, List.filterMap_nil,
      List.append_nil]

theorem toolResult (h : st.Accounts ids events) (type : e.type = .toolResult) :
    (foldEvent ids st e).Accounts ids (events ++ [e]) := by
  have noCall : e.calledAs? = none := if_neg (by rw [type]; rintro ⟨⟩)
  have answer : e.answerTo? ids = toolUseIdOf ids e.payload := if_pos type
  obtain ⟨before, unspoken⟩ := h.flushAssistant
  have calls : calledIds st.flushAssistant.messages ++ useIds st.flushAssistant.pendingToolUses =
      (events ++ [e]).filterMap Event.calledAs? := by
    rw [before.calls, List.filterMap_append, List.filterMap_cons_none noCall, List.filterMap_nil,
      List.append_nil]
  unfold foldEvent
  rw [type]
  dsimp only
  split
  · rename_i unknown
    refine ⟨calls, ?_, before.uses, before.results, before.waits, before.ordered⟩
    rw [before.answers, List.filterMap_append, List.filterMap_cons_none (answer.trans unknown),
      List.filterMap_nil, List.append_nil]
  · rename_i toolUseId known
    refine ⟨calls, ?_, before.uses, ?_, fun _ => unspoken, before.ordered⟩
    · rw [List.filterMap_append, List.filterMap_cons_some (answer.trans known),
        List.filterMap_nil, ← before.answers, answerIds_append, List.append_assoc]
      rfl
    · rw [useIds_append, before.results]
      rfl

theorem foldEvent (h : st.Accounts ids events) (balanced : Balanced ids events) :
    (foldEvent ids st e).Accounts ids (events ++ [e]) := by
  by_cases call : e.type = .toolCall
  · exact h.toolCall balanced call
  by_cases result : e.type = .toolResult
  · exact h.toolResult result
  have passed {st : ContextFold} (h : st.Accounts ids events) := h.other call result
  have flushed := passed (h.flush balanced)
  have drained := passed (h.flushToolResults balanced)
  unfold Tename.foldEvent
  cases type : e.type with
  | toolCall => exact absurd type call
  | toolResult => exact absurd type result
  | systemEvent =>
      dsimp only
      split
      · split
        · split
          · exact flushed
          · exact flushed.push (by rintro ⟨⟩)
        · exact flushed
      · exact passed h
  | userMessage =>
      dsimp only
      split
      · exact flushed.push (by rintro ⟨⟩)
      · exact flushed
  | assistantMessage =>
      dsimp only
      split
      · split
        · exact ⟨drained.calls, drained.answers, drained.uses, drained.results, drained.waits,
            drained.ordered⟩
        · exact drained
      · exact passed h
  | harnessEvent => exact passed h
  | error => exact passed h

end ContextFold.Accounts

/-- The context of events whose parts are all balanced: its calls, its results and their order. -/
theorem accounts_foldContext {events : List Event}
    (balanced : ∀ before, before <+: events → Balanced (toolCallIds events) before) :
    calledIds (foldContext events) = events.filterMap Event.calledAs? ∧
    answeredIds (foldContext events) = events.filterMap (Event.answerTo? (toolCallIds events)) ∧
    AnswersCalls (foldContext events) := by
  have accounts : ∀ before, before <+: events →
      (before.foldl (foldEvent (toolCallIds events)) .empty).Accounts
        (toolCallIds events) before := by
    intro before
    induction before using List.reverseRecOn with
    | nil =>
        intro _
        refine ⟨rfl, rfl, rfl, rfl, fun some' => absurd rfl some', ?_⟩
        intro before t after cut
        simp [ContextFold.empty] at cut
    | append_singleton before e ih =>
        intro part
        have shorter := (List.prefix_append before [e]).trans part
        rw [List.foldl_append]
        exact (ih shorter).foldEvent (balanced before shorter)
  have all := accounts events List.prefix_rfl
  have unspoken := all.flushAssistant.2
  have flushed := all.flush (balanced events List.prefix_rfl)
  refine ⟨?_, ?_, flushed.ordered⟩
  · rw [← flushed.calls, ContextFold.flush, pendingToolUses_flushToolResults, unspoken]
    exact (List.append_nil _).symm
  · rw [← flushed.answers, pendingToolResults_flush]
    exact (List.append_nil _).symm

end Folding

section Log

variable {events : List Event}

/-- Every result of the log stands after its call. -/
def ResultsFollow (events : List Event) : Prop :=
  ∀ before, before <+: events → ResultsRefer before

theorem resultsFollow_of_reachable {C : RunConfig → RunAction → Prop} {c : RunConfig}
    (reachable : (sessionSystem rt agents sid agentId).ReachableIf C c) :
    ResultsFollow c.state.session.events := by
  obtain ⟨c₀, initial, reaches⟩ := reachable
  induction reaches with
  | refl =>
      rintro before part r mem
      rw [initial.2] at part
      exact absurd (part.subset mem) (by simp [World.create, SessionState.create])
  | tail earlier permitted stepped ih =>
      rcases events_of_step stepped with same | ⟨id, type, payload, grown, -⟩
      · rw [same]
        exact ih
      · have later : (sessionSystem rt agents sid agentId).ReachableIf C _ :=
          ⟨c₀, initial, .tail earlier permitted stepped⟩
        obtain ⟨g, -, sound, logged⟩ :=
          (callsLogged_logInvariant C).reachable callsLogged_create later
        have refer := sound.resultsRefer logged
        rw [grown] at refer ⊢
        intro before part
        rcases List.prefix_concat_iff.mp part with rfl | shorter
        · exact refer
        · exact ih before shorter

/-- The call that a result answers, if it is shown. -/
def Event.answered? (ids : List (EventId × String)) (e : Event) : Option EventId :=
  if e.type = .toolResult then
    match e.payload.get? "tool_call_id" with
    | some (.uuid call) => if (ids.lookup call).isSome then some call else none
    | _ => none
  else none

theorem answerTo?_eq (ids : List (EventId × String)) (e : Event) :
    e.answerTo? ids = (e.answered? ids).map fun call => (ids.lookup call).getD "" := by
  unfold Event.answerTo? Event.answered? toolUseIdOf
  split
  · generalize e.payload.get? "tool_call_id" = answered
    rcases answered with _ | answered
    · rfl
    · cases answered with
      | uuid call => cases found : ids.lookup call <;> simp [found]
      | _ => rfl
  · rfl

section View

variable {shown : List Event} {ids : List (EventId × String)} {label : EventId → String}

/-- Calls that are labelled by their ids. -/
theorem calledAs?_of_labels
    (labelled : ∀ e ∈ shown, e.type = .toolCall → e.calledAs? = some (label e.id)) :
    shown.filterMap Event.calledAs? =
      ((shown.filter (·.type = .toolCall)).map Event.id).map label := by
  induction shown with
  | nil => rfl
  | cons e shown ih =>
      have rest := ih fun e' mem => labelled e' (List.mem_cons_of_mem _ mem)
      by_cases type : e.type = .toolCall
      · rw [List.filterMap_cons_some (labelled e List.mem_cons_self type), rest,
          List.filter_cons_of_pos (by simpa using type)]
        rfl
      · have silent : e.calledAs? = none := if_neg type
        rw [List.filterMap_cons_none silent, rest,
          List.filter_cons_of_neg (by simpa using type)]

theorem answered?_eq_some {e : Event} {call : EventId} (answered : e.answered? ids = some call) :
    e.type = .toolResult ∧ e.payload.get? "tool_call_id" = some (.uuid call) ∧
      (ids.lookup call).isSome = true := by
  unfold Event.answered? at answered
  split at answered
  · rename_i type
    split at answered
    · rename_i call' answers
      split at answered
      · rename_i found
        obtain rfl := Option.some.inj answered
        exact ⟨type, answers, found⟩
      · cases answered
    · cases answered
  · cases answered

/-- No two results answer one call. -/
theorem answered?_nodup (distinct : (shown.map Event.id).Nodup)
    (named : ∀ e ∈ shown, e.type = .toolResult →
      ∃ call, e.id = .toolResult call ∧ e.payload.get? "tool_call_id" = some (.uuid call)) :
    (shown.filterMap (Event.answered? ids)).Nodup := by
  have sublist : ((shown.filterMap (Event.answered? ids)).map EventId.toolResult).Sublist
      (shown.map Event.id) := by
    clear distinct
    induction shown with
    | nil => exact .slnil
    | cons e shown ih =>
        have rest := ih fun e' mem => named e' (List.mem_cons_of_mem _ mem)
        cases answered : e.answered? ids with
        | none =>
            rw [List.filterMap_cons_none answered]
            exact rest.cons _
        | some call =>
            obtain ⟨type, answers, -⟩ := answered?_eq_some answered
            obtain ⟨call', id, answers'⟩ := named e List.mem_cons_self type
            rw [answers, Option.some.injEq, Json.uuid.injEq] at answers'
            rw [List.filterMap_cons_some answered, List.map_cons, List.map_cons, id, answers']
            exact rest.cons_cons _
  exact (distinct.sublist sublist).of_map _

/-- The calls that a view shows. -/
def callsAmong (shown : List Event) : List EventId :=
  (shown.filter (·.type = .toolCall)).map Event.id

section Parts

variable {p : Event → Bool} {read unread : List Event}

/-- A view shows a call before a result of it, if it shows both. -/
theorem mem_callsAmong (known : KnowsCalls p ids (read ++ unread)) (refer : ResultsRefer read)
    {call : EventId} (mem : call ∈ (read.filter p).filterMap (Event.answered? ids)) :
    call ∈ callsAmong (read.filter p) := by
  obtain ⟨r, shown, answered⟩ := List.mem_filterMap.mp mem
  obtain ⟨type, answers, found⟩ := answered?_eq_some answered
  obtain ⟨c, called, isCall, ⟨toolId, toolName, input, payload⟩, answers'⟩ :=
    refer r (List.mem_filter.mp shown).1 type
  rw [answers, Option.some.injEq, Json.uuid.injEq] at answers'
  have visible : p c = true := by
    by_contra hidden
    rw [answers', known c (List.mem_append_left _ called) toolId toolName input isCall payload,
      if_neg hidden] at found
    cases found
  refine List.mem_map.mpr ⟨c, ?_, answers'.symm⟩
  exact List.mem_filter.mpr ⟨List.mem_filter.mpr ⟨called, visible⟩, by simpa using isCall⟩

/-- The calls that a view shows, under the ids that they are folded under. -/
theorem filterMap_calledAs? (known : KnowsCalls p ids (read ++ unread))
    (formed : ∀ e ∈ read ++ unread, e.type = .toolCall →
      ∃ toolId toolName input, e.payload = toolCallPayload toolId toolName input) :
    (read.filter p).filterMap Event.calledAs? =
      (callsAmong (read.filter p)).map fun call => (ids.lookup call).getD "" := by
  refine calledAs?_of_labels fun e mem type => ?_
  obtain ⟨mem, visible⟩ := List.mem_filter.mp mem
  obtain ⟨toolId, toolName, input, payload⟩ := formed e (List.mem_append_left _ mem) type
  rw [known e (List.mem_append_left _ mem) toolId toolName input type payload, if_pos visible,
    Event.calledAs?, if_pos type, payload]
  rfl

theorem filterMap_answerTo? : shown.filterMap (Event.answerTo? ids) =
    (shown.filterMap (Event.answered? ids)).map fun call => (ids.lookup call).getD "" := by
  rw [List.map_filterMap]
  exact List.filterMap_congr fun e _ => answerTo?_eq ids e

end Parts

end View

/-- In every part of a view, the results are results of different calls. -/
theorem balanced_of_view (distinct : (events.map Event.id).Nodup) (follow : ResultsFollow events)
    (formed : ∀ e ∈ events, e.type = .toolCall →
      ∃ toolId toolName input, e.payload = toolCallPayload toolId toolName input)
    (named : ∀ e ∈ events, e.type = .toolResult →
      ∃ call, e.id = .toolResult call ∧ e.payload.get? "tool_call_id" = some (.uuid call))
    (p : Event → Bool) :
    ∀ before, before <+: events.filter p → Balanced (toolCallIds (events.filter p)) before := by
  rintro before ⟨rest, cut⟩
  have known := knowsCalls_toolCallIds distinct p
  generalize toolCallIds (events.filter p) = ids at known ⊢
  obtain ⟨read, unread, rfl, rfl, -⟩ := List.filter_eq_append_iff.mp cut.symm
  have sub : ((read.filter p).filterMap (Event.answered? ids)).Subperm
      (callsAmong (read.filter p)) := by
    refine List.subperm_of_subset (answered?_nodup ?_ fun e mem => ?_) fun call mem => ?_
    · exact distinct.sublist ((List.filter_sublist.trans (List.sublist_append_left _ _)).map _)
    · exact named e (List.mem_append_left _ (List.mem_filter.mp mem).1)
    · exact mem_callsAmong known (follow read (List.prefix_append _ _)) mem
  obtain ⟨l, perm, sublist⟩ := sub
  rw [Balanced, filterMap_answerTo?, filterMap_calledAs? known formed]
  exact ⟨l.map _, perm.map _, sublist.map _⟩

end Log

/-- The active view of the page that was read last is balanced. -/
theorem balanced_of_reachable {C : RunConfig → RunAction → Prop} {c : RunConfig} {g : Stage}
    (reachable : (sessionSystem rt agents sid agentId).ReachableIf C c)
    (sound : Sound rt agents sid c.state g) :
    ∀ before, before <+: applyCompactionView c.state.lastRead.page →
      Balanced (toolCallIds (applyCompactionView c.state.lastRead.page)) before := by
  have inLog := sound.page_prefix.subset
  rw [applyCompactionView_eq_filter]
  exact balanced_of_view
    (c.state.session.distinct.sublist (sound.page_prefix.sublist.map Event.id))
    (fun start part => resultsFollow_of_reachable reachable start (part.trans sound.page_prefix))
    (fun e mem => (sound.logged e (inLog mem)).call)
    (fun e mem => (sound.logged e (inLog mem)).result) _

/-- Whatever has happened to a session, in a request of its run every result has a call of its
own among the messages before it. -/
theorem request_answers_calls {c : RunConfig} {messages before after : List Message} {t : Message}
    {tools : Option (List ToolDef)} {k : Except Exn ModelStream → Harness Unit}
    (reachable : (sessionSystem rt agents sid agentId).Reachable c)
    (requested : c.program = some (.op (.complete messages tools) k))
    (cut : messages = before ++ t :: after) (tool : t.role = .tool) :
    (answeredIds (before ++ [t])).Subperm (calledIds before) := by
  obtain ⟨g, watched, sound, -⟩ :=
    (callsLogged_logInvariant _).reachable callsLogged_create reachable
  obtain ⟨-, -, folded, -⟩ := watched.permits requested
  have answers : AnswersCalls messages := by
    rw [folded]
    exact (accounts_foldContext (balanced_of_reachable reachable sound)).2.2
  exact answers before t after cut tool

/-- The result in the request after a round. -/
theorem request_answers_calls_round : ∃ (c : RunConfig) (messages before : List Message)
    (t : Message) (tools : Option (List ToolDef)) (k : Except Exn ModelStream → Harness Unit),
    c.program = some (.op (.complete messages tools) k) ∧ messages = before ++ [t] ∧
    answeredIds messages = ["t1"] ∧ (answeredIds (before ++ [t])).Subperm (calledIds before) := by
  obtain ⟨c, ran, rest⟩ := Option.bind_eq_some_iff.mp (show
    ((bareSystem .spacious (some "Be brief.")).run ⟨.create "s" "agent", none⟩
      promptedRound).bind (fun c => (requesting? c).map fun messages =>
        (messages.map Message.role, answeredIds messages)) =
          some ([.user, .system, .assistant] ++ [.tool], ["t1"])
      by decide +kernel)
  obtain ⟨messages, requested, told⟩ := Option.map_eq_some_iff.mp rest
  obtain ⟨tools, k, pending⟩ := requesting?_eq_some requested
  obtain ⟨roles, answered⟩ := Prod.mk.inj told
  obtain ⟨before, last, rfl, -, ends⟩ := List.map_eq_append_iff.mp roles
  obtain ⟨t, rest, rfl, tool, nothing⟩ := List.map_eq_cons_iff.mp ends
  obtain rfl := List.map_eq_nil_iff.mp nothing
  exact ⟨c, before ++ [t], before, t, tools, k, pending, rfl, answered, request_answers_calls
    ⟨_, ⟨rfl, rfl⟩, Transition.System.later_of_run ran⟩ pending rfl tool⟩

end Tename
