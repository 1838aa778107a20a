import Tename.Harness.Records

/-!
# The system prompt

The prompt is one event of the log, seeded once under an id of the session's
own. The fold turns that event into the only system message, so a request
carries the prompt exactly as long as the event is in the view it is built from.
-/

namespace Tename

/-- The event carries a system prompt. -/
def isSystemPrompt (e : Event) : Bool :=
  e.type = .systemEvent ∧ (e.payload.get? "type").bind Json.str? = some "system_prompt"

/-- The system message of an event. -/
def promptMessage (e : Event) : Option Message :=
  if isSystemPrompt e then
    ((e.payload.getD "content" (.str "")).str?.filter (· ≠ "")).map fun content =>
      ⟨.system, .text content⟩
  else none

/-- The system messages of a request. -/
def systemMessages (messages : List Message) : List Message :=
  messages.filter (·.role = .system)

/-- The message of an event that no turn of the model writes. -/
def openingMessage (e : Event) : Option Message :=
  if e.type = .userMessage then
    (e.payload.getD "content" (.str "")).str?.map fun content => ⟨.user, .text content⟩
  else promptMessage e

/-- The system prompt and the user messages of a log, in log order. -/
def opening (events : List Event) : List Message :=
  events.filterMap openingMessage

/-- The messages of a request that no turn of the model writes. -/
def openings (messages : List Message) : List Message :=
  messages.filter fun m => m.role = .system ∨ m.role = .user

section Fold

variable {ids : List (EventId × String)} {st : ContextFold} {e : Event}

@[simp] theorem openings_append (messages messages' : List Message) :
    openings (messages ++ messages') = openings messages ++ openings messages' :=
  List.filter_append ..

@[simp] theorem openings_singleton (m : Message) :
    openings [m] = if m.role = .system ∨ m.role = .user then [m] else [] := by
  by_cases opens : m.role = .system ∨ m.role = .user <;> simp [openings, opens]

theorem openings_flushAssistant (st : ContextFold) :
    openings st.flushAssistant.messages = openings st.messages := by
  unfold ContextFold.flushAssistant
  split
  · rfl
  · simp [ContextFold.push, ContextFold.assistantMessage]

theorem openings_flushToolResults (st : ContextFold) :
    openings st.flushToolResults.messages = openings st.messages := by
  unfold ContextFold.flushToolResults
  split
  · rfl
  · simp [ContextFold.push]

theorem openings_flush (st : ContextFold) :
    openings st.flush.messages = openings st.messages := by
  rw [ContextFold.flush, openings_flushToolResults, openings_flushAssistant]

theorem openings_push_flush (m : Message) :
    openings (st.flush.push m).messages = openings st.messages ++ openings [m] := by
  rw [ContextFold.push, openings_append, openings_flush]

/-- Only an event with an opening message adds one. -/
theorem openings_foldEvent :
    openings (foldEvent ids st e).messages =
      openings st.messages ++ (openingMessage e).toList := by
  cases type : e.type with
  | systemEvent =>
      by_cases prompt : (e.payload.get? "type").bind Json.str? = some "system_prompt"
      · cases content : (e.payload.getD "content" (.str "")).str? with
        | none =>
            simp [foldEvent, openingMessage, promptMessage, isSystemPrompt, type, prompt, content,
              openings_flush]
        | some text =>
            by_cases empty : text = ""
            · simp [foldEvent, openingMessage, promptMessage, isSystemPrompt, type, prompt,
                content, empty, openings_flush]
            · simp [foldEvent, openingMessage, promptMessage, isSystemPrompt, type, prompt,
                content, empty, openings_push_flush, Option.filter]
      · simp [foldEvent, openingMessage, promptMessage, isSystemPrompt, type, prompt]
  | userMessage =>
      simp only [foldEvent, openingMessage, type, if_pos]
      split
      · rename_i text content
        simp [openings_push_flush, content]
      · rename_i content
        simp [openings_flush, content]
  | assistantMessage =>
      simp only [foldEvent, openingMessage, promptMessage, isSystemPrompt, type]
      split
      · split <;> simp [openings_flushToolResults]
      · simp
  | toolCall =>
      simp only [foldEvent, openingMessage, promptMessage, isSystemPrompt, type]
      split
      · split <;> simp [openings_flush]
      · simp
  | toolResult =>
      simp only [foldEvent, openingMessage, promptMessage, isSystemPrompt, type]
      split <;> simp [openings_flushAssistant]
  | harnessEvent => simp [foldEvent, openingMessage, promptMessage, isSystemPrompt, type]
  | error => simp [foldEvent, openingMessage, promptMessage, isSystemPrompt, type]

/-- A context opens with what its events open with, in their order. -/
theorem openings_foldContext (events : List Event) :
    openings (foldContext events) = opening events := by
  have folded : ∀ ids st, openings (events.foldl (foldEvent ids) st).messages =
      openings st.messages ++ opening events := by
    intro ids
    induction events with
    | nil => simp [opening]
    | cons e events ih =>
        intro st
        rw [List.foldl_cons, ih, openings_foldEvent, opening, opening, List.filterMap_cons]
        cases openingMessage e <;> simp
  rw [foldContext, openings_flush, folded]
  rfl

/-- The opening messages of one role. -/
theorem filter_openings {messages : List Message} {role : Role}
    (opens : role = .system ∨ role = .user) :
    (openings messages).filter (·.role = role) = messages.filter (·.role = role) := by
  rw [openings, List.filter_filter]
  refine List.filter_congr fun m _ => ?_
  by_cases same : m.role = role
  · simp [same, opens]
  · simp [same]

theorem role_promptMessage {e : Event} {m : Message} (h : promptMessage e = some m) :
    m.role = .system := by
  unfold promptMessage at h
  split at h
  · obtain ⟨content, _, rfl⟩ := Option.map_eq_some_iff.mp h
    rfl
  · cases h

/-- The system messages of a context are the prompts of its events. -/
theorem systemMessages_foldContext (events : List Event) :
    systemMessages (foldContext events) = events.filterMap promptMessage := by
  rw [systemMessages, ← filter_openings (.inl rfl), openings_foldContext, opening,
    List.filter_filterMap]
  refine List.filterMap_congr fun e _ => ?_
  by_cases user : e.type = .userMessage
  · have other : promptMessage e = none := by simp [promptMessage, isSystemPrompt, user]
    rw [openingMessage, if_pos user, other]
    cases (e.payload.getD "content" (.str "")).str? <;> simp [Option.filter]
  · rw [openingMessage, if_neg user]
    cases prompt : promptMessage e with
    | none => rfl
    | some m => simp [Option.filter, role_promptMessage prompt]

end Fold

section Requests

variable {rt : Runtime} {agents : AgentId → Option Agent} {sid : SessionId} {agentId : AgentId}
variable {c : RunConfig} {agent : Agent} {prompt : String}

/-- A prompt in the log is the agent's, under the session's own id. -/
theorem Logged.systemPrompt {e : Event} {owner : Option Agent}
    (h : Logged rt owner sid e.id e.type e.payload) (prompts : isSystemPrompt e = true) :
    e.id = .systemPrompt sid ∧ ∃ a prompt, owner = some a ∧ a.systemPrompt = some prompt ∧
      prompt ≠ "" ∧ e.payload = systemPromptPayload prompt := by
  simp only [isSystemPrompt, decide_eq_true_eq] at prompts
  obtain ⟨type, kind⟩ := prompts
  obtain ⟨id, session, sequence, type', payload⟩ := e
  obtain rfl : type' = .systemEvent := type
  rcases h with ⟨content, n, _, other, _⟩ | ⟨page, heard, g, phase, emits, _⟩
  · cases other
  · cases emits with
    | seed owned carries nonempty => exact ⟨rfl, _, _, owned, carries, nonempty, rfl⟩
    | provisioned working => simp [Payload.get?, Json.str?] at kind

theorem promptMessage_of_logged {e : Event} {w : World} {g : Stage}
    (sound : Sound rt agents sid w g) (owner : agents w.session.row.agentId = some agent)
    (carries : agent.systemPrompt = some prompt) (mem : e ∈ w.session.events) :
    promptMessage e = if isSystemPrompt e then some ⟨.system, .text prompt⟩ else none := by
  by_cases prompts : isSystemPrompt e = true
  · obtain ⟨_, a, prompt', owner', carries', nonempty, payload⟩ :=
      (sound.logged e mem).systemPrompt prompts
    obtain rfl := Option.some.inj (owner.symm.trans owner')
    obtain rfl := Option.some.inj (carries.symm.trans carries')
    have content : (e.payload.getD "content" (.str "")).str? = some prompt := by
      rw [payload]
      rfl
    simp [promptMessage, prompts, content, nonempty, Option.filter]
  · simp [promptMessage, prompts]

/-- The log never holds two prompts. -/
theorem Sound.prompts_unique {w : World} {g : Stage} (sound : Sound rt agents sid w g) :
    (w.session.events.filter isSystemPrompt).length ≤ 1 := by
  have same : ∀ e ∈ w.session.events.filter isSystemPrompt, e.id = .systemPrompt sid := by
    intro e mem
    obtain ⟨logged, prompts⟩ := List.mem_filter.mp mem
    exact ((sound.logged e logged).systemPrompt prompts).1
  have ids : (w.session.events.filter isSystemPrompt).map Event.id =
      List.replicate (w.session.events.filter isSystemPrompt).length (.systemPrompt sid) :=
    List.eq_replicate_iff.mpr ⟨by simp, fun id mem => by
      obtain ⟨e, listed, rfl⟩ := List.mem_map.mp mem
      exact same e listed⟩
  have distinct : ((w.session.events.filter isSystemPrompt).map Event.id).Nodup :=
    w.session.distinct.sublist (List.filter_sublist.map Event.id)
  rw [ids] at distinct
  exact List.nodup_replicate.mp distinct

/-- At most one event is mapped, to the same message: the result depends on there being one. -/
theorem filterMap_eq_singleton_iff {events : List Event} {m : Message} {p : Event → Bool}
    (one : (events.filter p).length ≤ 1) :
    (events.filterMap fun e => if p e then some m else none) = [m] ↔ ∃ e ∈ events, p e = true := by
  have mapped : (events.filterMap fun e => if p e then some m else none) =
      (events.filter p).map fun _ => m := by
    clear one
    induction events with
    | nil => rfl
    | cons e events ih => by_cases h : p e = true <;> simp [h, ih]
  rw [mapped]
  constructor
  · intro single
    have length : (events.filter p).length = 1 := by simpa using congrArg List.length single
    obtain ⟨e, mem⟩ := List.exists_mem_of_length_pos (length ▸ Nat.one_pos)
    exact ⟨e, List.mem_filter.mp mem⟩
  · rintro ⟨e, mem, h⟩
    have listed : e ∈ events.filter p := List.mem_filter.mpr ⟨mem, h⟩
    have length : (events.filter p).length = 1 :=
      Nat.le_antisymm one (List.length_pos_of_mem listed)
    obtain ⟨x, eq⟩ := List.length_eq_one_iff.mp length
    rw [eq]
    rfl

/-- A session never logs two prompts; a request carries its prompt exactly if the
prompt is on the page and the page's latest record does not drop it. -/
theorem system_prompt_iff (owner : agents agentId = some agent)
    (carries : agent.systemPrompt = some prompt) :
    (∀ c, (sessionSystem rt agents sid agentId).Reachable c →
      (c.state.session.events.filter isSystemPrompt).length ≤ 1) ∧
    ∀ c messages tools k, (sessionSystem rt agents sid agentId).Reachable c →
      c.program = some (.op (.complete messages tools) k) →
      (systemMessages messages = [⟨.system, .text prompt⟩] ↔
        ∃ e ∈ c.state.lastRead.log.take 1000, isSystemPrompt e = true ∧
          (e.sequence : Int) ∉ hiddenSequences (c.state.lastRead.log.take 1000)) := by
  constructor
  · intro c reachable
    obtain ⟨g, _, sound⟩ := sound_of_reachable reachable
    exact sound.prompts_unique
  · intro c messages tools k reachable requested
    obtain ⟨g, _, sound⟩ := sound_of_reachable reachable
    have logged : (applyCompactionView (c.state.lastRead.log.take 1000)).Sublist
        c.state.session.events :=
      applyCompactionView_sublist.trans (sound.page ▸ sound.page_sublist)
    have mapped : (applyCompactionView (c.state.lastRead.log.take 1000)).filterMap promptMessage =
        (applyCompactionView (c.state.lastRead.log.take 1000)).filterMap fun e =>
          if isSystemPrompt e then some ⟨.system, .text prompt⟩ else none :=
      List.filterMap_congr fun e mem => promptMessage_of_logged sound
        ((row_of_reachable reachable).2 ▸ owner) carries (logged.subset mem)
    rw [requested_messages reachable requested, systemMessages_foldContext, mapped,
      filterMap_eq_singleton_iff
        ((logged.filter isSystemPrompt).length_le.trans sound.prompts_unique)]
    constructor
    · rintro ⟨e, mem, prompts⟩
      obtain ⟨read, unhidden⟩ := mem_applyCompactionView.mp mem
      exact ⟨e, read, prompts, unhidden⟩
    · rintro ⟨e, read, prompts, unhidden⟩
      exact ⟨e, mem_applyCompactionView.mpr ⟨read, unhidden⟩, prompts⟩

/-- A run with a prompt up to its first request. -/
def promptRun : List RunAction :=
  [.disturb (.say "go"), .start, .respond .done, .respond .done, .respond .done,
    .respond (.reads 0), .respond .done, .respond .done]

/-- A turn with one call, and the compaction after it. -/
def turnAndCompaction : List RunAction :=
  [.respond (.streams ⟨[.toolCallEnd "t1" "lookup" [] 0], none⟩), .respond .done, .respond .done,
    .respond .done, .respond .done, .respond .done, .respond .done]

/-- After one compaction the request has no system message. -/
theorem prompt_compacted_away : ∃ (c : RunConfig) (messages : List Message)
    (tools : Option (List ToolDef)) (k : Except Exn ModelStream → Harness Unit),
    (bareSystem .narrow (some "Be brief.")).Reachable c ∧
    c.program = some (.op (.complete messages tools) k) ∧ systemMessages messages = [] := by
  obtain ⟨c, ran, rest⟩ := Option.bind_eq_some_iff.mp (show
    ((bareSystem .narrow (some "Be brief.")).run ⟨.create "s" "agent", none⟩
      (promptRun ++ turnAndCompaction)).bind (fun c =>
        (requesting? c).map fun messages => (systemMessages messages).length) = some 0
      by decide +kernel)
  obtain ⟨messages, requested, none'⟩ := Option.map_eq_some_iff.mp rest
  obtain ⟨tools, k, pending⟩ := requesting?_eq_some requested
  exact ⟨c, messages, tools, k, ⟨_, ⟨rfl, rfl⟩, Transition.System.later_of_run ran⟩, pending,
    List.eq_nil_of_length_eq_zero none'⟩

/-- The first request of that run carries the prompt. -/
theorem system_prompt_iff_first : ∃ (c : RunConfig) (messages : List Message)
    (tools : Option (List ToolDef)) (k : Except Exn ModelStream → Harness Unit),
    (bareSystem .narrow (some "Be brief.")).Reachable c ∧
    c.program = some (.op (.complete messages tools) k) ∧
    systemMessages messages = [⟨.system, .text "Be brief."⟩] := by
  obtain ⟨c, ran, rest⟩ := Option.bind_eq_some_iff.mp (show
    ((bareSystem .narrow (some "Be brief.")).run ⟨.create "s" "agent", none⟩ promptRun).bind
      (fun c => (requesting? c).map fun _ => (c.state.lastRead.log.take 1000).any fun e =>
        isSystemPrompt e && decide
          ((e.sequence : Int) ∉ hiddenSequences (c.state.lastRead.log.take 1000))) = some true
      by decide +kernel)
  obtain ⟨messages, requested, shown⟩ := Option.map_eq_some_iff.mp rest
  obtain ⟨tools, k, pending⟩ := requesting?_eq_some requested
  obtain ⟨e, mem, both⟩ := List.any_eq_true.mp shown
  obtain ⟨prompts, unhidden⟩ := Bool.and_eq_true_iff.mp both
  have reachable : (bareSystem .narrow (some "Be brief.")).Reachable c :=
    ⟨_, ⟨rfl, rfl⟩, Transition.System.later_of_run ran⟩
  refine ⟨c, messages, tools, k, reachable, pending, ?_⟩
  exact ((@system_prompt_iff (.bare .narrow) (fun _ => some (.plain (some "Be brief."))) "s" "agent"
    (.plain (some "Be brief.")) "Be brief." rfl rfl).2 c messages tools k reachable pending).mpr
      ⟨e, mem, prompts, of_decide_eq_true unhidden⟩

end Requests

end Tename
