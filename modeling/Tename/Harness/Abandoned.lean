import Tename.Harness.Answers
import Tename.Harness.WellFormed

/-!
# Abandoned calls

A run that is killed between a call and its result abandons the call: the results that come
later answer calls that come later. So the call stays without a result for good, and no request
that still shows it is a conversation that a provider accepts.
-/

namespace Tename

variable {rt : Runtime} {agents : AgentId → Option Agent} {sid : SessionId} {agentId : AgentId}

section Growth

variable {events : List Event} {e : Event} {calls : List PendingEvent}

theorem ResultsFollow.append (h : ResultsFollow events)
    (refers : e.type = .toolResult → ∃ call ∈ events, call.type = .toolCall ∧
      (∃ toolId toolName input, call.payload = toolCallPayload toolId toolName input) ∧
      e.payload.get? "tool_call_id" = some (.uuid call.id)) : ResultsFollow (events ++ [e]) := by
  intro before part
  rcases List.prefix_concat_iff.mp part with rfl | shorter
  · intro r mem type
    rcases List.mem_append.mp mem with old | new
    · obtain ⟨call, mem', called⟩ := h events List.prefix_rfl r old type
      exact ⟨call, List.mem_append_left _ mem', called⟩
    · obtain rfl := List.mem_singleton.mp new
      obtain ⟨call, mem', called⟩ := refers type
      exact ⟨call, List.mem_append_left _ mem', called⟩
  · exact h before shorter

/-- What came after `log` is complete in itself: its results answer its own calls, and the open
calls are among these. -/
structure Resumes (log events : List Event) (calls : List PendingEvent) : Prop where
  grown : log <+: events
  follow : ResultsFollow (events.drop log.length)
  opened : ∀ call ∈ calls, ∃ e ∈ events.drop log.length, e.isCall call

namespace Resumes

variable {log : List Event} {calls' : List PendingEvent}

theorem drop_append (h : Resumes log events calls) :
    (events ++ [e]).drop log.length = events.drop log.length ++ [e] :=
  List.drop_append_of_le_length h.grown.length_le

theorem sublist (h : Resumes log events calls) (less : calls'.Sublist calls) :
    Resumes log events calls' :=
  ⟨h.grown, h.follow, fun call mem => h.opened call (less.subset mem)⟩

theorem append (h : Resumes log events calls)
    (refers : e.type = .toolResult → ∃ call ∈ events.drop log.length, call.type = .toolCall ∧
      (∃ toolId toolName input, call.payload = toolCallPayload toolId toolName input) ∧
      e.payload.get? "tool_call_id" = some (.uuid call.id)) :
        Resumes log (events ++ [e]) calls := by
  refine ⟨h.grown.trans (List.prefix_append _ _), ?_, fun call mem => ?_⟩
  · rw [h.drop_append]
    exact h.follow.append refers
  · obtain ⟨e', mem', is⟩ := h.opened call mem
    rw [h.drop_append]
    exact ⟨e', List.mem_append_left _ mem', is⟩

/-- An event that answers no call. -/
theorem other (h : Resumes log events calls) (other : e.type ≠ .toolResult) :
    Resumes log (events ++ [e]) calls :=
  h.append fun type => absurd type other

theorem toolCall {call : PendingEvent} (h : Resumes log events calls) (is : e.isCall call) :
    Resumes log (events ++ [e]) (calls ++ [call]) := by
  have before := h.other (e := e) (by rw [is.2.1]; rintro ⟨⟩)
  refine ⟨before.grown, before.follow, fun call' mem => ?_⟩
  rcases List.mem_append.mp mem with old | new
  · exact before.opened call' old
  · rw [List.mem_singleton.mp new, h.drop_append]
    exact ⟨e, List.mem_append_right _ (List.mem_singleton_self e), is⟩

theorem result {call : PendingEvent} {rest : List PendingEvent}
    (h : Resumes log events (call :: rest)) (logged : CallsLogged events (call :: rest))
    (answers : e.payload.get? "tool_call_id" = some (.uuid call.id)) :
    Resumes log (events ++ [e]) rest := by
  refine (h.sublist (List.sublist_cons_self _ _)).append fun _ => ?_
  obtain ⟨e', mem, is⟩ := h.opened call List.mem_cons_self
  obtain ⟨toolId, toolName, input, payload⟩ := logged.formed call List.mem_cons_self
  exact ⟨e', mem, is.2.1, ⟨toolId, toolName, input, is.2.2.trans payload⟩, by rw [answers, is.1]⟩

end Resumes

end Growth

theorem resumes_turnInvariant (log : List Event) :
    TurnInvariant rt agents sid (fun _ _ => True) fun w phase =>
      Resumes log w.session.events phase.openCalls where
  begun w _ _ h _ := h
  stopped w phase _ h := h.sublist (List.nil_sublist _)
  appended w g id type payload phase fresh k sound logged h _ emits := by
    obtain ⟨before, drawn, current⟩ := g
    cases emits with
    | seed | compaction | delta | provisioned => exact h.other (by rintro ⟨⟩)
    | toolCall silent => exact h.toolCall ⟨rfl, rfl, rfl⟩
    | error silent => exact (h.sublist (List.nil_sublist _)).other (by rintro ⟨⟩)
    | closer spoken drained =>
        rw [Phase.openCalls_afterCloser]
        exact h.other (by rintro ⟨⟩)
    | result working answers =>
        rw [Phase.openCalls_of_toAnswer working] at logged h
        rw [Phase.openCalls_afterResult]
        exact h.result logged answers
  requested w stream messages tools k h _ := h
  said w p phase n content fresh _ h _ _ := h.other (by rintro ⟨⟩)
  agrees w w' phase h same := by rwa [same.events]

/-- From a state without open calls on, the log resumes. -/
theorem resumes_of_later {c c' : RunConfig}
    (reachable : (sessionSystem rt agents sid agentId).Reachable c)
    (closed : ∀ g, (loopMonitor rt agents sid).Watches c g → g.phase.openCalls = [])
    (later : (sessionSystem rt agents sid agentId).Later c c') :
    ∃ calls, Resumes c.state.session.events c'.state.session.events calls := by
  obtain ⟨g, watched, sound, logged⟩ :=
    (callsLogged_logInvariant _).reachable callsLogged_create reachable
  obtain ⟨g', -, -, -, resumes⟩ :=
    (resumes_turnInvariant c.state.session.events).reaches watched sound logged (by
      rw [closed g watched]
      refine ⟨List.prefix_rfl, ?_, by rintro call ⟨⟩⟩
      rw [List.drop_length]
      rintro before part r mem
      exact absurd (part.subset mem) List.not_mem_nil) later
  exact ⟨_, resumes⟩

/-- A dead process has no open calls. -/
theorem closed_of_dead {c : RunConfig} {g : Stage} (dead : c.program = none)
    (watched : (loopMonitor rt agents sid).Watches c g) : g.phase.openCalls = [] := by
  rw [watched.dead dead]
  rfl

/-- No calls are open when the model is asked. -/
theorem closed_of_request {c : RunConfig} {g : Stage} {messages : List Message}
    {tools : Option (List ToolDef)} {k : Except Exn ModelStream → Harness Unit}
    (requested : c.program = some (.op (.complete messages tools) k))
    (watched : (loopMonitor rt agents sid).Watches c g) : g.phase.openCalls = [] := by
  rw [(watched.permits requested).1]
  rfl

section Counting

variable {messages : List Message} {m : Message}

theorem flatMap_conversation {α : Type} {f : Message → List α}
    (silent : ∀ m ∈ messages, m.role = .system → f m = []) :
    (conversation messages).flatMap f = messages.flatMap f := by
  induction messages with
  | nil => rfl
  | cons m messages ih =>
      have rest := ih fun m' mem => silent m' (List.mem_cons_of_mem _ mem)
      by_cases system : m.role = .system
      · rw [List.flatMap_cons, silent m List.mem_cons_self system, ← rest]
        exact congrArg (List.flatMap f) (List.filter_cons_of_neg (by simpa using system))
      · rw [List.flatMap_cons, ← rest]
        exact congrArg (List.flatMap f) (List.filter_cons_of_pos (by simpa using system))

/-- Calls stand in messages that ask for results. -/
theorem Message.Readable.useIds (readable : m.Readable) (other : ¬ m.Asks) :
    useIds m.blocks = [] := by
  cases readable with
  | system said => rfl
  | user said => rfl
  | assistant some' spoken =>
      by_contra used
      exact other ⟨rfl, used⟩
  | tool some' reported =>
      refine List.filterMap_eq_nil_iff.mpr fun result mem => ?_
      cases reported result mem <;> rfl

/-- Where every call is answered by the next message, there are no more calls than results. -/
theorem length_calledIds_le (readable : ∀ m ∈ messages, m.Readable)
    (answered : ∀ before m after, messages = before ++ m :: after → m.Asks →
      ∃ t rest, after = t :: rest ∧ t.role = .tool ∧
        (answerIds t.blocks).Perm (useIds m.blocks)) :
    (calledIds messages).length ≤ (answeredIds messages).length := by
  induction h : messages.length using Nat.strong_induction_on generalizing messages with
  | _ n ih =>
      cases messages with
      | nil => exact Nat.le_refl _
      | cons m rest =>
          have later : ∀ before m' after, rest = before ++ m' :: after → m'.Asks →
              ∃ t rest, after = t :: rest ∧ t.role = .tool ∧
                (answerIds t.blocks).Perm (useIds m'.blocks) :=
            fun before m' after cut => answered (m :: before) m' after (by rw [cut]; rfl)
          have inRest := fun m' mem => readable m' (List.mem_cons_of_mem m mem)
          by_cases asks : m.Asks
          · obtain ⟨t, rest, rfl, tool, answers⟩ := answered [] m rest rfl asks
            have quiet : useIds t.blocks = [] :=
              (inRest t List.mem_cons_self).useIds fun asks' => by
              cases tool.symm.trans asks'.1
            have fewer := ih rest.length (by rw [← h]; simp only [List.length_cons]; omega)
              (fun m' mem => inRest m' (List.mem_cons_of_mem t mem))
              (fun before m' after cut => later (t :: before) m' after (by rw [cut]; rfl)) rfl
            have same := answers.length_eq
            simp only [calledIds, answeredIds, List.flatMap_cons, List.length_append, quiet,
              List.length_nil] at fewer ⊢
            omega
          · have fewer := ih rest.length (by rw [← h]; simp) inRest later rfl
            have quiet := (readable m List.mem_cons_self).useIds asks
            simp only [calledIds, answeredIds, List.flatMap_cons, List.length_append, quiet,
              List.length_nil] at fewer ⊢
            omega

/-- A call without a result. -/
def LeftOpen (events : List Event) (call : Event) : Prop :=
  ∀ r ∈ events, r.type = .toolResult → r.payload.get? "tool_call_id" ≠ some (.uuid call.id)

/-- A view that shows a call without a result shows more calls than results. -/
theorem LeftOpen.outnumbers {events : List Event} {call : Event} {p : Event → Bool}
    (h : LeftOpen events call) (distinct : (events.map Event.id).Nodup)
    (refer : ResultsRefer events)
    (formed : ∀ e ∈ events, e.type = .toolCall →
      ∃ toolId toolName input, e.payload = toolCallPayload toolId toolName input)
    (named : ∀ e ∈ events, e.type = .toolResult →
      ∃ call, e.id = .toolResult call ∧ e.payload.get? "tool_call_id" = some (.uuid call))
    (type : call.type = .toolCall) (shown : call ∈ events.filter p) :
    ((events.filter p).filterMap (Event.answerTo? (toolCallIds (events.filter p)))).length <
      ((events.filter p).filterMap Event.calledAs?).length := by
  have known : KnowsCalls p (toolCallIds (events.filter p)) (events ++ []) := by
    rw [List.append_nil]
    exact knowsCalls_toolCallIds distinct p
  generalize toolCallIds (events.filter p) = ids at known ⊢
  rw [filterMap_answerTo?, filterMap_calledAs? known (by rwa [List.append_nil]), List.length_map,
    List.length_map]
  have apart : call.id ∉ (events.filter p).filterMap (Event.answered? ids) := by
    intro answered
    obtain ⟨r, there, answered⟩ := List.mem_filterMap.mp answered
    obtain ⟨result, answers, -⟩ := answered?_eq_some answered
    exact h r (List.mem_filter.mp there).1 result answers
  have once : ((events.filter p).filterMap (Event.answered? ids)).Nodup :=
    answered?_nodup (distinct.sublist (List.filter_sublist.map Event.id))
      fun e mem => named e (List.mem_filter.mp mem).1
  have among : call.id :: (events.filter p).filterMap (Event.answered? ids) ⊆
      callsAmong (events.filter p) := by
    intro id mem
    rcases List.mem_cons.mp mem with rfl | answered
    · exact List.mem_map_of_mem (List.mem_filter.mpr ⟨shown, by simpa using type⟩)
    · exact mem_callsAmong known refer answered
  exact (List.subperm_of_subset (List.nodup_cons.mpr ⟨apart, once⟩) among).length_le

end Counting

section Requests

variable {c c' : RunConfig} {call : Event} {messages : List Message}
variable {tools : Option (List ToolDef)} {k : Except Exn ModelStream → Harness Unit}

/-- Results that come answer calls that come. -/
theorem LeftOpen.later (h : LeftOpen c.state.session.events call)
    (reachable : (sessionSystem rt agents sid agentId).Reachable c)
    (closed : ∀ g, (loopMonitor rt agents sid).Watches c g → g.phase.openCalls = [])
    (mem : call ∈ c.state.session.events)
    (later : (sessionSystem rt agents sid agentId).Later c c') :
    LeftOpen c'.state.session.events call := by
  obtain ⟨calls, resumes⟩ := resumes_of_later reachable closed later
  have cut := List.prefix_iff_eq_append.mp resumes.grown
  have distinct := c'.state.session.distinct
  intro r stored type answers
  rw [← cut] at stored distinct
  rcases List.mem_append.mp stored with old | new
  · exact h r old type answers
  · obtain ⟨other, there, -, -, answers'⟩ := resumes.follow _ List.prefix_rfl r new type
    rw [answers, Option.some.injEq, Json.uuid.injEq] at answers'
    rw [List.map_append] at distinct
    exact (List.disjoint_of_nodup_append distinct) (List.mem_map_of_mem mem)
      (answers' ▸ List.mem_map_of_mem there)

/-- No provider accepts a request that shows a call without a result. -/
theorem LeftOpen.not_wellFormed (h : LeftOpen c.state.session.events call)
    (reachable : (sessionSystem rt agents sid agentId).Reachable c)
    (requested : c.program = some (.op (.complete messages tools) k)) (type : call.type = .toolCall)
    (shown : call ∈ applyCompactionView c.state.lastRead.page) : ¬ WellFormed messages := by
  obtain ⟨g, watched, sound, -⟩ :=
    (callsLogged_logInvariant _).reachable callsLogged_create reachable
  obtain ⟨-, -, folded, -⟩ := watched.permits requested
  have inLog := sound.page_prefix.subset
  have readable : ∀ m ∈ messages, m.Readable := by
    rw [folded]
    exact foldContext_readable fun e mem =>
      log_reports reachable e (inLog (applyCompactionView_sublist.subset mem))
  have quiet {f : ContentBlock → Option String} : ∀ m ∈ messages, m.role = .system →
      m.blocks.filterMap f = [] := fun m mem system => by
    cases readable m mem with
    | system => rfl
    | _ => cases system
  intro formed
  have enough : (calledIds (conversation messages)).length ≤
      (answeredIds (conversation messages)).length :=
    length_calledIds_le (fun m mem => readable m (List.mem_filter.mp mem).1) formed.answered
  have spoken : calledIds (conversation messages) = calledIds messages :=
    flatMap_conversation quiet
  have replied : answeredIds (conversation messages) = answeredIds messages :=
    flatMap_conversation quiet
  obtain ⟨calls, answers, -⟩ := accounts_foldContext (balanced_of_reachable reachable sound)
  rw [spoken, replied, folded, World.requestMessages, calls, answers,
    applyCompactionView_eq_filter] at enough
  rw [applyCompactionView_eq_filter] at shown
  have fewer := LeftOpen.outnumbers (fun r mem => h r (inLog mem))
    (c.state.session.distinct.sublist (sound.page_prefix.sublist.map Event.id))
    (resultsFollow_of_reachable reachable _ sound.page_prefix)
    (fun e mem => (sound.logged e (inLog mem)).call)
    (fun e mem => (sound.logged e (inLog mem)).result) type shown
  exact Nat.not_lt.mpr enough fewer

end Requests

/-- A call that has no result when its run is killed never gets one, and no request that shows it
is well formed, whatever becomes of the session. -/
theorem abandoned_call {c c' : RunConfig} {call : Event}
    (reachable : (sessionSystem rt agents sid agentId).Reachable c) (dead : c.program = none)
    (mem : call ∈ c.state.session.events) (type : call.type = .toolCall)
    (open' : LeftOpen c.state.session.events call)
    (later : (sessionSystem rt agents sid agentId).Later c c') :
    LeftOpen c'.state.session.events call ∧
    ∀ messages tools k, c'.program = some (.op (.complete messages tools) k) →
      call ∈ applyCompactionView c'.state.lastRead.page → ¬ WellFormed messages := by
  have stays := open'.later reachable (fun _ => closed_of_dead dead) mem later
  exact ⟨stays, fun messages tools k requested shown =>
    stays.not_wellFormed (reachable.extend later) requested type shown⟩

/-- A run is killed after its call, and the next run asks the model. -/
theorem abandoned_call_resumed : ∃ (c c' : RunConfig) (call : Event) (messages : List Message)
    (tools : Option (List ToolDef)) (k : Except Exn ModelStream → Harness Unit),
    c.program = none ∧ call ∈ c.state.session.events ∧
    c'.program = some (.op (.complete messages tools) k) ∧
    LeftOpen c'.state.session.events call ∧ ¬ WellFormed messages := by
  obtain ⟨c, ran, rest⟩ := Option.bind_eq_some_iff.mp (show
    ((bareSystem .spacious none).run ⟨.create "s" "agent", none⟩ (calledOnce ++ [.kill])).bind
      (fun c => ((bareSystem .spacious none).run c startToRequest).bind fun c' =>
        (requesting? c').map fun _ => (c.program.isNone,
          c.state.session.events.map fun e => (e.sequence, e.type),
          (applyCompactionView c'.state.lastRead.page).map fun e => (e.sequence, e.type))) =
      some (true, [(1, .userMessage)] ++ [(2, .toolCall)], [(1, .userMessage)] ++ [(2, .toolCall)])
      by decide +kernel)
  obtain ⟨c', resumed, rest⟩ := Option.bind_eq_some_iff.mp rest
  obtain ⟨messages, requested, told⟩ := Option.map_eq_some_iff.mp rest
  obtain ⟨tools, k, pending⟩ := requesting?_eq_some requested
  obtain ⟨dead, told⟩ := Prod.mk.inj told
  obtain ⟨stored, shown⟩ := Prod.mk.inj told
  have dead : c.program = none := Option.isNone_iff_eq_none.mp dead
  have reachable : (bareSystem .spacious none).Reachable c :=
    ⟨_, ⟨rfl, rfl⟩, Transition.System.later_of_run ran⟩
  have later : (bareSystem .spacious none).Later c c' := Transition.System.later_of_run resumed
  obtain ⟨call, mem, is⟩ :
      ∃ call ∈ c.state.session.events, (call.sequence, call.type) = (2, .toolCall) :=
    List.mem_map.mp (by rw [stored]; simp)
  obtain ⟨call', visible, is'⟩ : ∃ call ∈ applyCompactionView c'.state.lastRead.page,
      (call.sequence, call.type) = (2, .toolCall) := List.mem_map.mp (by rw [shown]; simp)
  have unanswered : LeftOpen c.state.session.events call := by
    intro r mem result
    have told : (r.sequence, r.type) ∈ [(1, .userMessage)] ++ [(2, EventType.toolCall)] := by
      rw [← stored]
      exact List.mem_map_of_mem mem
    rw [result] at told
    simp at told
  obtain ⟨stays, refused⟩ := abandoned_call reachable dead mem (Prod.mk.inj is).2 unanswered later
  obtain ⟨calls, resumes⟩ := resumes_of_later reachable (fun _ => closed_of_dead dead) later
  obtain ⟨g, -, sound, -⟩ := (callsLogged_logInvariant _).reachable callsLogged_create
    (reachable.extend later)
  have same : call = call' := c'.state.session.eq_of_sequence (resumes.grown.subset mem)
    (sound.page_prefix.subset (applyCompactionView_sublist.subset visible))
    ((Prod.mk.inj is).1.trans (Prod.mk.inj is').1.symm)
  exact ⟨c, c', call, messages, tools, k, dead, mem, pending, stays,
    refused messages tools k pending (same ▸ visible)⟩

end Tename
