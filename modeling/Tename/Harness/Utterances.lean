import Tename.Harness.Conversation
import Tename.Harness.Transcript

/-!
# What is said and what is read back

A log says something where a user message carries a text and where a closer
carries a text that is not empty; it uses a tool where it holds a call. The fold
keeps a closer's text back until an event comes that has to stand behind it, and
in that time a second closer takes the place of the first. As long as no closer
finds a text waiting, a context says what its log says, each text once and in
the order of the log. The uses of tools are all read back, whatever the log.
-/

namespace Tename

/-- A text and whose it is. -/
abbrev Utterance := Role × String

/-- The text of a closer. -/
def closingText (type : EventType) (payload : Payload) : Option String :=
  if type = .assistantMessage ∧ (payload.getD "is_complete" (.bool false)).truthy then
    (payload.getD "content" (.str "")).str?
  else none

/-- The reply of a text, if there is one. -/
def replying (text : String) : List Utterance :=
  if text = "" then [] else [(.assistant, text)]

namespace Event

def closing? (e : Event) : Option String :=
  closingText e.type e.payload

/-- What an event of the log says. -/
def said (e : Event) : List Utterance :=
  if e.type = .userMessage then
    ((e.payload.getD "content" (.str "")).str?.map fun text => (Role.user, text)).toList
  else (e.closing?.map replying).getD []

/-- The use of a tool that an event of the log holds. -/
def toolUse? (e : Event) : Option ContentBlock :=
  if e.type = .toolCall then
    match (e.payload.get? "tool_id").bind Json.str?,
      (e.payload.get? "tool_name").bind Json.str? with
    | some toolId, some toolName =>
        some (.toolUse toolId toolName (match e.payload.getD "input" (.obj []) with
          | .obj fields => fields
          | _ => []))
    | _, _ => none
  else none

/-- An event that a text has to stand before. -/
def takesText (e : Event) : Bool :=
  e.type = .userMessage ∨ e.type = .toolResult ∨ isSystemPrompt e = true

end Event

def ContentBlock.text? : ContentBlock → Option String
  | .text content => some content
  | _ => none

def ContentBlock.isToolUse : ContentBlock → Bool
  | .toolUse .. => true
  | _ => false

namespace Message

/-- The texts in a message, block by block. -/
def texts (m : Message) : List String :=
  match m.content with
  | .text content => [content]
  | .blocks blocks => blocks.filterMap ContentBlock.text?

/-- What a message of a context says. -/
def said (m : Message) : List Utterance :=
  if m.role = .user ∨ m.role = .assistant then m.texts.map fun text => (m.role, text) else []

def toolUses (m : Message) : List ContentBlock :=
  m.blocks.filter ContentBlock.isToolUse

end Message

/-- The text a log leaves waiting: the one of its last closer, while no event has
taken it. -/
def waitingText (events : List Event) : String :=
  events.foldl (fun text e => e.closing?.getD (if e.takesText then "" else text)) ""

/-- No closer of the log finds a text waiting. -/
def Unbroken (events : List Event) : Prop :=
  ∀ before e after, events = before ++ e :: after → e.closing? ≠ none → waitingText before = ""

/-- The context of a log says what the log says and uses the tools it uses, in its
order and each just once; no message of a user and no call is without its block. -/
structure KeepsLog (events : List Event) : Prop where
  said : (foldContext events).flatMap Message.said = events.flatMap Event.said
  used : (foldContext events).flatMap Message.toolUses = events.filterMap Event.toolUse?
  users : ∀ e ∈ events, e.type = .userMessage → ∃ text, e.said = [(.user, text)]
  calls : ∀ e ∈ events, e.type = .toolCall → e.toolUse?.isSome = true

theorem waitingText_append (events : List Event) (e : Event) :
    waitingText (events ++ [e]) =
      e.closing?.getD (if e.takesText then "" else waitingText events) := by
  simp [waitingText]

theorem Event.closing?_eq_some {e : Event} {text : String} : e.closing? = some text ↔
    (e.type = .assistantMessage ∧ (e.payload.getD "is_complete" (.bool false)).truthy = true) ∧
      (e.payload.getD "content" (.str "")).str? = some text := by
  unfold Event.closing? closingText
  split
  · rename_i closes
    simp [closes]
  · rename_i open'
    simp [open']

theorem unbroken_nil : Unbroken [] := by
  intro before e after cut
  simp at cut

theorem unbroken_append {events : List Event} {e : Event} :
    Unbroken (events ++ [e]) ↔
      Unbroken events ∧ (e.closing? ≠ none → waitingText events = "") := by
  constructor
  · intro h
    refine ⟨fun before x after cut => h before x (after ++ [e]) (by simp [cut]), h events e [] rfl⟩
  · intro h before x after cut closes
    rcases append_singleton_cut cut with ⟨rfl, rfl, _⟩ | ⟨after', _, inner⟩
    · exact h.2 closes
    · exact h.1 before x after' inner closes

section Blocks

open ContextFold

theorem said_assistantMessage {text : String} {uses : List ContentBlock}
    (areUses : ∀ b ∈ uses, b.isToolUse = true) :
    (assistantMessage text uses).said = replying text := by
  have none' : uses.filterMap ContentBlock.text? = [] := by
    rw [List.filterMap_eq_nil_iff]
    intro b mem
    have use := areUses b mem
    cases b with
    | toolUse id name input => rfl
    | text text => cases use
    | toolResult id content isError => cases use
  by_cases silent : text = ""
  · simp [Message.said, Message.texts, assistantMessage, replying, silent, none']
  · have some' : (ContentBlock.text text :: uses).filterMap ContentBlock.text? = [text] := by
      change text :: uses.filterMap ContentBlock.text? = [text]
      rw [none']
    simp [Message.said, Message.texts, assistantMessage, replying, silent, some']

theorem toolUses_assistantMessage {text : String} {uses : List ContentBlock}
    (areUses : ∀ b ∈ uses, b.isToolUse = true) :
    (assistantMessage text uses).toolUses = uses := by
  have all' : uses.filter ContentBlock.isToolUse = uses := List.filter_eq_self.mpr areUses
  by_cases silent : text = ""
  · simp [Message.toolUses, Message.blocks, assistantMessage, silent, all']
  · simp [Message.toolUses, Message.blocks, assistantMessage, silent, all',
      ContentBlock.isToolUse]

end Blocks

namespace ContextFold

variable {ids : List (EventId × String)} {st : ContextFold} {e : Event}
variable {said : List Utterance} {uses : List ContentBlock}

/-- What the buffers have read, whether a message has taken it yet or not. -/
structure Carries (st : ContextFold) (said : List Utterance) (uses : List ContentBlock) :
    Prop where
  said : st.messages.flatMap Message.said ++ replying st.pendingText = said
  used : st.messages.flatMap Message.toolUses ++ st.pendingToolUses = uses
  areUses : ∀ b ∈ st.pendingToolUses, b.isToolUse = true
  areResults : ∀ b ∈ st.pendingToolResults, b.isToolUse = false
  exclusive : st.pendingText ≠ "" → st.pendingToolResults = []

theorem carries_empty : Carries .empty [] [] where
  said := rfl
  used := rfl
  areUses := by simp [empty]
  areResults := by simp [empty]
  exclusive := by simp [empty]

theorem Carries.flushAssistant (h : Carries st said uses) :
    Carries st.flushAssistant said uses := by
  unfold ContextFold.flushAssistant
  split
  · exact h
  · refine ⟨?_, ?_, by simp, h.areResults, by simp⟩
    · rw [← h.said]
      simp [push, said_assistantMessage h.areUses, replying]
    · rw [← h.used]
      simp [push, toolUses_assistantMessage h.areUses]

theorem Carries.flushToolResults (h : Carries st said uses) :
    Carries st.flushToolResults said uses := by
  unfold ContextFold.flushToolResults
  split
  · exact h
  · have none' : st.pendingToolResults.filter ContentBlock.isToolUse = [] := by
      rw [List.filter_eq_nil_iff]
      intro b mem
      simp [h.areResults b mem]
    refine ⟨?_, ?_, h.areUses, by simp, fun _ => rfl⟩
    · rw [← h.said]
      simp [push, Message.said]
    · rw [← h.used]
      simp [push, Message.toolUses, Message.blocks, none']

theorem Carries.flush (h : Carries st said uses) : Carries st.flush said uses :=
  h.flushAssistant.flushToolResults

theorem pendingText_flushAssistant (st : ContextFold) : st.flushAssistant.pendingText = "" := by
  unfold ContextFold.flushAssistant
  split
  · rename_i nothing
    exact nothing.1
  · rfl

theorem pendingToolUses_flushAssistant (st : ContextFold) :
    st.flushAssistant.pendingToolUses = [] := by
  unfold ContextFold.flushAssistant
  split
  · rename_i nothing
    exact List.isEmpty_iff.mp nothing.2
  · rfl

theorem pendingText_flush (st : ContextFold) : st.flush.pendingText = "" := by
  rw [ContextFold.flush, flushToolResults_eq]
  exact pendingText_flushAssistant st

theorem pendingToolUses_flush (st : ContextFold) : st.flush.pendingToolUses = [] := by
  rw [ContextFold.flush, flushToolResults_eq]
  exact pendingToolUses_flushAssistant st

/-- A message behind everything read so far. -/
theorem Carries.push (h : Carries st said uses) (m : Message) :
    Carries (st.flush.push m) (said ++ m.said) (uses ++ m.toolUses) := by
  have flushed := h.flush
  have before : st.flush.messages.flatMap Message.said = said := by
    simpa [pendingText_flush, replying] using flushed.said
  have usedBefore : st.flush.messages.flatMap Message.toolUses = uses := by
    simpa [pendingToolUses_flush] using flushed.used
  refine ⟨?_, ?_, flushed.areUses, flushed.areResults, flushed.exclusive⟩
  · simp [ContextFold.push, pendingText_flush, replying, before]
  · simp [ContextFold.push, pendingToolUses_flush, usedBefore]

/-- A closer says its text in place of the one that waits. -/
theorem Carries.closing {text : String} (h : Carries st said uses)
    (closes : e.closing? = some text) :
    Carries (foldEvent ids st e) (st.messages.flatMap Message.said ++ replying text) uses := by
  obtain ⟨⟨type, complete⟩, content⟩ := Event.closing?_eq_some.mp closes
  have flushed := h.flushToolResults
  have fold : foldEvent ids st e = { st.flushToolResults with pendingText := text } := by
    simp only [foldEvent, type, complete, if_pos, content]
  rw [fold]
  refine ⟨?_, flushed.used, flushed.areUses, flushed.areResults, fun _ => ?_⟩
  · have messages : st.flushToolResults.messages.flatMap Message.said =
        st.messages.flatMap Message.said := by
      unfold ContextFold.flushToolResults
      split
      · rfl
      · simp [ContextFold.push, Message.said]
    rw [messages]
  · rw [flushToolResults_eq]

/-- An event that is no closer adds what it says and uses to what has been read. -/
theorem Carries.other (h : Carries st said uses) (other : e.closing? = none) :
    Carries (foldEvent ids st e) (said ++ e.said) (uses ++ e.toolUse?.toList) := by
  cases type : e.type with
  | userMessage =>
      cases content : (e.payload.getD "content" (.str "")).str? with
      | none => simpa [foldEvent, Event.said, Event.toolUse?, type, content] using h.flush
      | some text =>
          have pushed := h.push ⟨.user, .text text⟩
          simpa [foldEvent, Event.said, Event.toolUse?, type, content, Message.said,
            Message.texts, Message.toolUses, Message.blocks] using pushed
  | systemEvent =>
      have quiet : e.said = [] ∧ e.toolUse? = none := by
        simp [Event.said, Event.toolUse?, type, other]
      rw [quiet.1, quiet.2, List.append_nil, Option.toList_none, List.append_nil]
      simp only [foldEvent, type]
      split
      · split
        · split
          · exact h.flush
          · rename_i content _ _
            simpa [Message.said, Message.toolUses, Message.blocks] using
              h.push ⟨.system, .text content⟩
        · exact h.flush
      · exact h
  | assistantMessage =>
      have quiet : e.said = [] ∧ e.toolUse? = none := by
        simp [Event.said, Event.toolUse?, type, other]
      rw [quiet.1, quiet.2, List.append_nil, Option.toList_none, List.append_nil]
      simp only [foldEvent, type]
      split
      · rename_i complete
        split
        · rename_i text content
          rw [Event.closing?_eq_some.mpr ⟨⟨type, complete⟩, content⟩] at other
          cases other
        · exact h.flushToolResults
      · exact h
  | toolCall =>
      have quiet : e.said = [] := by simp [Event.said, type, other]
      rw [quiet, List.append_nil]
      have opened : Carries (if st.pendingToolResults.isEmpty then st else st.flush) said uses := by
        split
        · exact h
        · exact h.flush
      cases toolId' : (e.payload.get? "tool_id").bind Json.str? with
      | none => simpa [foldEvent, Event.toolUse?, type, toolId'] using h
      | some toolId =>
          cases toolName' : (e.payload.get? "tool_name").bind Json.str? with
          | none => simpa [foldEvent, Event.toolUse?, type, toolId', toolName'] using h
          | some toolName =>
              simp only [foldEvent, Event.toolUse?, type, if_pos, toolId', toolName']
              refine ⟨opened.said, ?_, ?_, opened.areResults, opened.exclusive⟩
              · rw [← opened.used, List.append_assoc]
                rfl
              · intro b mem
                rcases List.mem_append.mp mem with old | new
                · exact opened.areUses b old
                · rw [List.mem_singleton.mp new]
                  rfl
  | toolResult =>
      have quiet : e.said = [] ∧ e.toolUse? = none := by
        simp [Event.said, Event.toolUse?, type, other]
      rw [quiet.1, quiet.2, List.append_nil, Option.toList_none, List.append_nil]
      have flushed := h.flushAssistant
      simp only [foldEvent, type]
      split
      · exact flushed
      · refine ⟨flushed.said, flushed.used, flushed.areUses, ?_, ?_⟩
        · intro b mem
          rcases List.mem_append.mp mem with old | new
          · exact flushed.areResults b old
          · rw [List.mem_singleton.mp new]
            rfl
        · intro waits
          exact absurd (pendingText_flushAssistant st) waits
  | harnessEvent =>
      have quiet : e.said = [] ∧ e.toolUse? = none := by
        simp [Event.said, Event.toolUse?, type, other]
      simpa [foldEvent, type, quiet] using h
  | error =>
      have quiet : e.said = [] ∧ e.toolUse? = none := by
        simp [Event.said, Event.toolUse?, type, other]
      simpa [foldEvent, type, quiet] using h

/-- The text that waits after an event. -/
theorem Carries.pendingText (h : Carries st said uses) :
    (foldEvent ids st e).pendingText =
      e.closing?.getD (if e.takesText then "" else st.pendingText) := by
  cases closes : e.closing? with
  | some text =>
      obtain ⟨⟨type, complete⟩, content⟩ := Event.closing?_eq_some.mp closes
      simp only [foldEvent, type, complete, if_pos, content, Option.getD_some]
  | none =>
      cases type : e.type with
      | userMessage =>
          simp only [foldEvent, Event.takesText, type]
          split
          · exact pendingText_flush st
          · exact pendingText_flush st
      | systemEvent =>
          by_cases prompt : (e.payload.get? "type").bind Json.str? = some "system_prompt"
          · simp only [foldEvent, Event.takesText, isSystemPrompt, type, prompt, if_pos]
            split
            · split
              · exact pendingText_flush st
              · exact pendingText_flush st
            · exact pendingText_flush st
          · simp [foldEvent, Event.takesText, isSystemPrompt, type, prompt]
      | assistantMessage =>
          simp only [foldEvent, Event.takesText, isSystemPrompt, type]
          split
          · rename_i complete
            split
            · rename_i text content
              rw [Event.closing?_eq_some.mpr ⟨⟨type, complete⟩, content⟩] at closes
              cases closes
            · rw [flushToolResults_eq]
              simp
          · simp
      | toolCall =>
          simp only [foldEvent, Event.takesText, isSystemPrompt, type]
          split
          · split
            · simp
            · rename_i waiting
              have silent : st.pendingText = "" := by
                by_contra speaks
                exact waiting (by simp [h.exclusive speaks])
              simp [pendingText_flush, silent]
          · simp
      | toolResult =>
          simp only [foldEvent, Event.takesText, isSystemPrompt, type]
          split <;> simp [pendingText_flushAssistant]
      | harnessEvent => simp [foldEvent, Event.takesText, isSystemPrompt, type]
      | error => simp [foldEvent, Event.takesText, isSystemPrompt, type]

end ContextFold

section Logs

open ContextFold

variable {ids : List (EventId × String)} {events : List Event}

theorem said_of_closing {e : Event} {text : String} (closes : e.closing? = some text) :
    e.said = replying text ∧ e.toolUse? = none := by
  obtain ⟨⟨type, _⟩, _⟩ := Event.closing?_eq_some.mp closes
  constructor
  · rw [Event.said, if_neg (by simp [type]), closes]
    rfl
  · rw [Event.toolUse?, if_neg (by simp [type])]

theorem used_append (events : List Event) (e : Event) :
    (events ++ [e]).filterMap Event.toolUse? =
      events.filterMap Event.toolUse? ++ e.toolUse?.toList := by
  rw [List.filterMap_append]
  cases use : e.toolUse? <;> simp [use]

/-- What has been read of what a log says: everything, or less than was said. -/
structure Heard (events : List Event) (said : List Utterance) : Prop where
  whole : Unbroken events → said = events.flatMap Event.said
  fits : said.length ≤ (events.flatMap Event.said).length
  lost : ¬ Unbroken events → said.length < (events.flatMap Event.said).length

theorem heard_nil : Heard [] [] where
  whole _ := rfl
  fits := Nat.le_refl _
  lost broken := absurd unbroken_nil broken

variable {said : List Utterance} {e : Event}

theorem Heard.other (h : Heard events said) (other : e.closing? = none) :
    Heard (events ++ [e]) (said ++ e.said) := by
  have unbroken : Unbroken (events ++ [e]) ↔ Unbroken events := by
    simp [unbroken_append, other]
  constructor
  · intro kept
    rw [h.whole (unbroken.mp kept), List.flatMap_append, List.flatMap_singleton]
  · have fits := h.fits
    simpa using fits
  · intro broken
    have lost := h.lost fun kept => broken (unbroken.mpr kept)
    simpa using lost

theorem Heard.closing {before : List Utterance} {text : String}
    (h : Heard events (before ++ replying (waitingText events)))
    (closes : e.closing? = some text) : Heard (events ++ [e]) (before ++ replying text) := by
  have spoke := (said_of_closing closes).1
  have fits := h.fits
  rw [List.length_append] at fits
  constructor
  · intro kept
    obtain ⟨unbroken, silent⟩ := unbroken_append.mp kept
    have whole := h.whole unbroken
    rw [silent (by simp [closes]), replying, if_pos rfl, List.append_nil] at whole
    rw [whole, List.flatMap_append, List.flatMap_singleton, spoke]
  · rw [List.flatMap_append, List.flatMap_singleton, spoke, List.length_append, List.length_append]
    omega
  · intro broken
    rw [List.flatMap_append, List.flatMap_singleton, spoke, List.length_append, List.length_append]
    by_cases unbroken : Unbroken events
    · have speaks : waitingText events ≠ "" := by
        intro silent
        exact broken (unbroken_append.mpr ⟨unbroken, fun _ => silent⟩)
      have one : (replying (waitingText events)).length = 1 := by
        simp [replying, speaks]
      omega
    · have lost := h.lost unbroken
      rw [List.length_append] at lost
      omega

/-- Reading loses nothing but the texts that are replaced, and keeps the order of the rest. -/
theorem carries_readContext (ids : List (EventId × String)) (events : List Event) :
    ∃ said, Carries (readContext ids events) said (events.filterMap Event.toolUse?) ∧
      (readContext ids events).pendingText = waitingText events ∧ Heard events said := by
  induction events using List.reverseRecOn with
  | nil => exact ⟨[], carries_empty, rfl, heard_nil⟩
  | append_singleton events e ih =>
      obtain ⟨said, read, waits, heard⟩ := ih
      have waits' :
          (readContext ids (events ++ [e])).pendingText = waitingText (events ++ [e]) := by
        rw [readContext_append, read.pendingText, waits, waitingText_append]
      rw [used_append]
      cases closes : e.closing? with
      | none =>
          refine ⟨said ++ e.said, ?_, waits', heard.other closes⟩
          rw [readContext_append]
          exact read.other closes
      | some text =>
          have all' := read.said
          rw [waits] at all'
          refine ⟨(readContext ids events).messages.flatMap Message.said ++ replying text, ?_,
            waits', (all' ▸ heard).closing closes⟩
          rw [readContext_append, (said_of_closing closes).2, Option.toList_none, List.append_nil]
          exact read.closing closes

theorem Carries.foldContext {uses : List ContentBlock}
    (read : Carries (readContext (toolCallIds events) events) said uses) :
    (foldContext events).flatMap Message.said = said ∧
      (foldContext events).flatMap Message.toolUses = uses := by
  have flushed := read.flush
  constructor
  · have whole := flushed.said
    rw [pendingText_flush, replying, if_pos rfl, List.append_nil] at whole
    exact whole
  · have whole := flushed.used
    rw [pendingToolUses_flush, List.append_nil] at whole
    exact whole

theorem toolUses_foldContext (events : List Event) :
    (foldContext events).flatMap Message.toolUses = events.filterMap Event.toolUse? := by
  obtain ⟨said, read, _⟩ := carries_readContext (toolCallIds events) events
  exact (Carries.foldContext read).2

/-- What a context says is what its log says just in case no text is replaced. -/
theorem said_foldContext_iff (events : List Event) :
    (foldContext events).flatMap Message.said = events.flatMap Event.said ↔ Unbroken events := by
  obtain ⟨said, read, _, heard⟩ := carries_readContext (toolCallIds events) events
  rw [(Carries.foldContext read).1]
  constructor
  · intro same
    by_contra broken
    have short := heard.lost broken
    rw [same] at short
    exact Nat.lt_irrefl _ short
  · exact heard.whole

end Logs

section Runs

variable {rt : Runtime} {agents : AgentId → Option Agent} {sid : SessionId} {agentId : AgentId}
variable {c : RunConfig}

/-- No closer is committed while the text of another one waits. -/
def replacesNone (c : RunConfig) (a : RunAction) : Bool :=
  match a, c.program with
  | .respond .done, some (.op (.emitEvent _ type payload) _) =>
      closingText type payload = none ∨ waitingText c.state.session.events = ""
  | _, _ => true

theorem unbroken_logInvariant :
    LogInvariant rt agents sid (fun c a => replacesNone c a = true)
      fun w _ => Unbroken w.session.events where
  begun w _ h _ := h
  stopped w phase h := h
  appended w g id type payload phase fresh k _ h permitted _ := by
    refine unbroken_append.mpr ⟨h, fun closes => ?_⟩
    rcases of_decide_eq_true permitted with none' | silent
    · exact absurd none' closes
    · exact silent
  replayed w g id type payload phase e k _ h _ _ _ _ := h
  requested w stream messages tools k h _ := h
  said w p phase n content fresh h _ _ := by
    refine unbroken_append.mpr ⟨h, fun closes => absurd rfl closes⟩
  agrees w w' phase h same := by
    rw [same.events]
    exact h

/-- On the logs of runs, what users say and what the model calls can always be read. -/
theorem Sound.keepsLog_iff {w : World} {g : Stage} (sound : Sound rt agents sid w g) :
    KeepsLog w.session.events ↔ Unbroken w.session.events := by
  constructor
  · intro h
    exact (said_foldContext_iff _).mp h.said
  · intro h
    refine ⟨(said_foldContext_iff _).mpr h, toolUses_foldContext _, fun e mem user => ?_,
      fun e mem call => ?_⟩
    · obtain ⟨content, payload⟩ := (sound.logged e mem).user user
      refine ⟨content, ?_⟩
      rw [Event.said, if_pos user, payload]
      rfl
    · obtain ⟨toolId, toolName, input, payload⟩ := (sound.logged e mem).call call
      rw [Event.toolUse?, if_pos call, payload]
      rfl

/-- The context of a log keeps what the log says just in case no closer found a text
waiting; a run in which none does has such a log wherever it is killed and restarted. -/
theorem context_keeps_log :
    (∀ c, (sessionSystem rt agents sid agentId).ReachableIf
      (fun c a => replacesNone c a = true) c → KeepsLog c.state.session.events) ∧
    ∀ c, (sessionSystem rt agents sid agentId).Reachable c →
      (KeepsLog c.state.session.events ↔ Unbroken c.state.session.events) := by
  constructor
  · intro c reachable
    obtain ⟨g, _, sound, unbroken⟩ := unbroken_logInvariant.reachable unbroken_nil reachable
    exact sound.keepsLog_iff.mpr unbroken
  · intro c reachable
    obtain ⟨g, _, sound⟩ := sound_of_reachable reachable
    exact sound.keepsLog_iff

/-- A restart up to the answer to its first request. -/
def restartTo (stream : ModelStream) : List RunAction :=
  [.start, .respond .done, .respond .done, .respond (.reads 0), .respond .done, .respond .done,
    .respond (.streams stream)]

/-- A run that is killed after its reply, before the session is marked complete. -/
def repliedAndKilled : List RunAction :=
  runTo ⟨[.textDelta "A"], none⟩ ++ List.replicate 4 (.respond .done) ++ [.kill]

/-- The reply of the next run, up to its closer. -/
def repliedAgain : List RunAction :=
  restartTo ⟨[.textDelta "B"], none⟩ ++ List.replicate 4 (.respond .done)

/-- Restarted behind its own reply, a session forgets it for the next one. -/
theorem reply_replaced : ∃ c : RunConfig, (bareSystem .roomy none).Reachable c ∧
    c.state.session.events.flatMap Event.said =
      [(.user, "go"), (.assistant, "A"), (.assistant, "B")] ∧
    (foldContext c.state.session.events).flatMap Message.said =
      [(.user, "go"), (.assistant, "B")] ∧ ¬ KeepsLog c.state.session.events := by
  obtain ⟨c, ran, rest⟩ := Option.bind_eq_some_iff.mp (show
    ((bareSystem .roomy none).run ⟨.create "s" "agent", none⟩
      (repliedAndKilled ++ repliedAgain)).bind (fun c => some
        (c.state.session.events.flatMap Event.said,
          (foldContext c.state.session.events).flatMap Message.said)) =
      some ([(.user, "go"), (.assistant, "A"), (.assistant, "B")],
        [(.user, "go"), (.assistant, "B")]) by decide +kernel)
  obtain ⟨logged, shown⟩ := Prod.mk.inj (Option.some.inj rest)
  refine ⟨c, ⟨_, ⟨rfl, rfl⟩, Transition.System.later_of_run ran⟩, logged, shown, fun h => ?_⟩
  have same := h.said
  rw [logged, shown] at same
  exact absurd (congrArg List.length same) (by decide)

/-- Where the user writes before the restart, both replies are kept. -/
theorem context_keeps_log_resumed : ∃ c : RunConfig,
    c.state.session.events.flatMap Event.said =
      [(.user, "go"), (.assistant, "A"), (.user, "on"), (.assistant, "B")] ∧
    KeepsLog c.state.session.events := by
  obtain ⟨c, ran, rest⟩ := Option.bind_eq_some_iff.mp (show
    ((bareSystem .roomy none).runIf replacesNone ⟨.create "s" "agent", none⟩
      (repliedAndKilled ++ .disturb (.say "on") :: repliedAgain)).bind (fun c => some
        (c.state.session.events.flatMap Event.said)) =
      some [(.user, "go"), (.assistant, "A"), (.user, "on"), (.assistant, "B")]
      by decide +kernel)
  have reachable : (bareSystem .roomy none).ReachableIf (fun c a => replacesNone c a = true) c :=
    ⟨_, ⟨rfl, rfl⟩, Transition.System.reaches_of_runIf ran⟩
  exact ⟨c, Option.some.inj rest, context_keeps_log.1 c reachable⟩

end Runs

end Tename
