import Tename.Harness.Abandoned

/-!
# Requests extend each other

As long as nothing is compacted, a request starts with the messages of any earlier request that
ended on a message to reply to, word for word: whatever is appended to the log, by this run or
later ones or by clients, the fold only adds messages behind. A provider that keeps what it has
computed for a prefix never has to throw it away.
-/

namespace Tename

variable {rt : Runtime} {agents : AgentId → Option Agent} {sid : SessionId} {agentId : AgentId}

section Folding

variable {ids ids' : List (EventId × String)} {st st' : ContextFold} {e : Event}

/-- What an event does to the buffers of the fold. -/
inductive ContextFold.Moves (ids : List (EventId × String)) (e : Event) (st : ContextFold) :
    ContextFold → Prop
  | stay (other : e.calledAs? = none) : Moves ids e st st
  | flush : Moves ids e st st.flush
  | push (m : Message) : Moves ids e st (st.flush.push m)
  | drain : Moves ids e st st.flushToolResults
  | close (text : String) : Moves ids e st { st.flushToolResults with pendingText := text }
  | call (use : ContentBlock) : Moves ids e st
      { (if st.pendingToolResults.isEmpty then st else st.flush) with
        pendingToolUses :=
          (if st.pendingToolResults.isEmpty then st else st.flush).pendingToolUses ++
          [use] }
  | orphan (other : e.calledAs? = none) : Moves ids e st st.flushAssistant
  | result (block : ContentBlock) (answers : (e.answerTo? ids).isSome) : Moves ids e st
      { st.flushAssistant with
        pendingToolResults := st.flushAssistant.pendingToolResults ++ [block] }

theorem foldEvent_moves (ids : List (EventId × String)) (st : ContextFold) (e : Event) :
    st.Moves ids e (foldEvent ids st e) := by
  have uncalled : e.type ≠ .toolCall → e.calledAs? = none := fun other => if_neg other
  unfold foldEvent
  cases type : e.type with
  | systemEvent =>
      dsimp only
      split
      · split
        · split
          · exact .flush
          · exact .push _
        · exact .flush
      · exact .stay (uncalled (by rw [type]; rintro ⟨⟩))
  | userMessage =>
      dsimp only
      split
      · exact .push _
      · exact .flush
  | assistantMessage =>
      dsimp only
      split
      · split
        · exact .close _
        · exact .drain
      · exact .stay (uncalled (by rw [type]; rintro ⟨⟩))
  | toolCall =>
      dsimp only
      split
      · exact .call _
      · rename_i unread
        refine .stay ?_
        rw [Event.calledAs?, if_pos type]
        split
        · rename_i toolId toolName id name
          exact absurd name (unread toolId toolName id)
        · rfl
  | toolResult =>
      dsimp only
      split
      · exact .orphan (uncalled (by rw [type]; rintro ⟨⟩))
      · rename_i toolUseId known
        exact .result _ (by rw [Event.answerTo?, if_pos type, known]; rfl)
  | harnessEvent => exact .stay (uncalled (by rw [type]; rintro ⟨⟩))
  | error => exact .stay (uncalled (by rw [type]; rintro ⟨⟩))

namespace ContextFold

theorem prefix_push (st : ContextFold) (m : Message) : st.messages <+: (st.push m).messages :=
  List.prefix_append _ _

theorem prefix_flushAssistant (st : ContextFold) : st.messages <+: st.flushAssistant.messages := by
  unfold flushAssistant
  split
  · exact List.prefix_rfl
  · exact st.prefix_push _

theorem prefix_flushToolResults (st : ContextFold) :
    st.messages <+: st.flushToolResults.messages := by
  unfold flushToolResults
  split
  · exact List.prefix_rfl
  · exact st.prefix_push _

theorem prefix_flush (st : ContextFold) : st.messages <+: st.flush.messages :=
  st.prefix_flushAssistant.trans st.flushAssistant.prefix_flushToolResults

/-- The fold takes no message back. -/
theorem Moves.prefix_messages (moves : st.Moves ids e st') : st.messages <+: st'.messages := by
  cases moves with
  | stay => exact List.prefix_rfl
  | flush => exact st.prefix_flush
  | push m => exact st.prefix_flush.trans (st.flush.prefix_push m)
  | drain => exact st.prefix_flushToolResults
  | close text => exact st.prefix_flushToolResults
  | call use =>
      dsimp only
      split
      · exact List.prefix_rfl
      · exact st.prefix_flush
  | orphan => exact st.prefix_flushAssistant
  | result block => exact st.prefix_flushAssistant

/-- No part of an assistant's message is held back. -/
def Quiet (st : ContextFold) : Prop :=
  st.pendingText = "" ∧ st.pendingToolUses = []

theorem Quiet.flushAssistant (quiet : st.Quiet) : st.flushAssistant = st := by
  unfold ContextFold.flushAssistant
  rw [if_pos ⟨quiet.1, by rw [quiet.2]; rfl⟩]

theorem quiet_flushAssistant (st : ContextFold) : st.flushAssistant.Quiet := by
  unfold ContextFold.flushAssistant
  split
  · rename_i nothing
    exact ⟨nothing.1, List.isEmpty_iff.mp nothing.2⟩
  · exact ⟨rfl, rfl⟩

/-- Results and an assistant's message are not held back together. -/
def Alternates (st : ContextFold) : Prop :=
  st.pendingToolResults ≠ [] → st.Quiet

theorem Moves.alternates (moves : st.Moves ids e st') (h : st.Alternates) : st'.Alternates := by
  have flushed : st.flush.pendingToolResults = [] := pendingToolResults_flush st
  have drained : st.flushToolResults.pendingToolResults = [] := by
    unfold ContextFold.flushToolResults
    split
    · rename_i none'
      exact List.isEmpty_iff.mp none'
    · rfl
  cases moves with
  | stay => exact h
  | flush => exact fun held => absurd flushed held
  | push m => exact fun held => absurd flushed held
  | drain => exact fun held => absurd drained held
  | close text => exact fun held => absurd drained held
  | call use =>
      intro held
      dsimp only at held
      split at held
      · rename_i none'
        exact absurd (List.isEmpty_iff.mp none') held
      · exact absurd flushed held
  | orphan => exact fun _ => quiet_flushAssistant st
  | result block => exact fun _ => quiet_flushAssistant st

/-- From buffers that hold results only, an event that answers nothing either leaves them as they
are or comes behind the results. -/
theorem Moves.behind (moves : st.Moves ids e st') (quiet : st.Quiet)
    (idle : e.answerTo? ids = none) :
    st' = st ∧ e.calledAs? = none ∨ st.flush.messages <+: st'.messages := by
  have flush : st.flush = st.flushToolResults := congrArg _ quiet.flushAssistant
  cases moves with
  | stay other => exact .inl ⟨rfl, other⟩
  | flush => exact .inr List.prefix_rfl
  | push m => exact .inr (st.flush.prefix_push m)
  | drain => exact .inr (flush ▸ List.prefix_rfl)
  | close text => exact .inr (flush ▸ List.prefix_rfl)
  | call use =>
      refine .inr ?_
      dsimp only
      split
      · rename_i none'
        have same : st.flush = st := by rw [flush, flushToolResults, if_pos none']
        exact ⟨[], by rw [List.append_nil, same]⟩
      · exact List.prefix_rfl
  | orphan other => exact .inl ⟨quiet.flushAssistant, other⟩
  | result block answers =>
      rw [idle] at answers
      cases answers

end ContextFold

/-- Every result among the events stands behind a call among them. -/
def ResultsBehind (ids : List (EventId × String)) (events : List Event) : Prop :=
  ∀ before r after, events = before ++ r :: after → (r.answerTo? ids).isSome →
    ∃ call ∈ before, call.calledAs?.isSome

theorem prefix_foldl (ids : List (EventId × String)) (st : ContextFold) (events : List Event) :
    st.messages <+: (events.foldl (foldEvent ids) st).messages := by
  induction events generalizing st with
  | nil => exact List.prefix_rfl
  | cons e events ih => exact (foldEvent_moves ids st e).prefix_messages.trans (ih _)

theorem alternates_foldl (ids : List (EventId × String)) (events : List Event) :
    (events.foldl (foldEvent ids) .empty).Alternates := by
  refine List.foldlRecOn events _ (fun held => absurd rfl held) fun st h e _ => ?_
  exact (foldEvent_moves ids st e).alternates h

/-- More events add messages behind those of buffers that hold results only. -/
theorem prefix_foldl_flush {events : List Event} (quiet : st.Quiet)
    (behind : ResultsBehind ids events) :
    st.flush.messages <+: (events.foldl (foldEvent ids) st).flush.messages := by
  induction events with
  | nil => exact List.prefix_rfl
  | cons e events ih =>
      have idle : e.answerTo? ids = none := by
        rw [← Option.not_isSome_iff_eq_none]
        intro answers
        obtain ⟨call, mem, -⟩ := behind [] e events rfl answers
        cases mem
      rcases (foldEvent_moves ids st e).behind quiet idle with ⟨same, uncalled⟩ | passed
      · rw [List.foldl_cons, same]
        refine ih fun before r after cut answers => ?_
        obtain ⟨call, mem, called⟩ := behind (e :: before) r after (by rw [cut]; rfl) answers
        rcases List.mem_cons.mp mem with rfl | mem
        · rw [uncalled] at called
          cases called
        · exact ⟨call, mem, called⟩
      · exact (passed.trans (prefix_foldl ids _ events)).trans (ContextFold.prefix_flush _)

/-- The fold of an event depends on the known calls by the answer alone. -/
theorem foldEvent_congr (same : e.answerTo? ids = e.answerTo? ids') :
    foldEvent ids st e = foldEvent ids' st e := by
  by_cases type : e.type = .toolResult
  · rw [Event.answerTo?, Event.answerTo?, if_pos type, if_pos type] at same
    simp only [foldEvent, type, same]
  · unfold foldEvent
    split <;> first | rfl | exact absurd ‹_› type

theorem foldl_congr {events : List Event}
    (same : ∀ e ∈ events, e.answerTo? ids = e.answerTo? ids') :
    events.foldl (foldEvent ids) st = events.foldl (foldEvent ids') st := by
  induction events generalizing st with
  | nil => rfl
  | cons e events ih =>
      rw [List.foldl_cons, List.foldl_cons, foldEvent_congr (same e List.mem_cons_self)]
      exact ih fun e' mem => same e' (List.mem_cons_of_mem _ mem)

/-- A context that does not end on a reply is continued by more events. -/
theorem prefix_foldContext {events more : List Event}
    (ends : ∀ m ∈ (foldContext events).getLast?, m.role ≠ .assistant)
    (same : ∀ e ∈ events, e.answerTo? (toolCallIds events) =
      e.answerTo? (toolCallIds (events ++ more)))
    (behind : ResultsBehind (toolCallIds (events ++ more)) more) :
    foldContext events <+: foldContext (events ++ more) := by
  unfold foldContext at ends ⊢
  rw [foldl_congr same] at ends ⊢
  rw [List.foldl_append]
  refine prefix_foldl_flush ?_ behind
  have alternates := alternates_foldl (toolCallIds (events ++ more)) events
  generalize events.foldl (foldEvent (toolCallIds (events ++ more))) .empty = st
    at ends alternates ⊢
  by_contra loud
  have none' : st.pendingToolResults = [] := by
    by_contra held
    exact loud (alternates held)
  have said : st.flushAssistant = { st.push (ContextFold.assistantMessage st.pendingText
      st.pendingToolUses) with pendingText := "", pendingToolUses := [] } :=
    if_neg fun nothing => loud ⟨nothing.1, List.isEmpty_iff.mp nothing.2⟩
  have replies : st.flush.messages =
      st.messages ++ [ContextFold.assistantMessage st.pendingText st.pendingToolUses] := by
    rw [ContextFold.flush, said, ContextFold.flushToolResults, if_pos]
    · rfl
    · exact congrArg List.isEmpty none'
  rw [replies] at ends
  exact ends _ List.getLast?_concat rfl

end Folding

section View

variable {page more : List Event} {p : Event → Bool} {ids ids' : List (EventId × String)}

theorem applyCompactionView_continue (plain : ∀ e ∈ more, isCompactionEvent e = false) :
    applyCompactionView (page ++ more) = applyCompactionView page ++
      more.filter fun e => (e.sequence : Int) ∉ hiddenSequences page := by
  have same : hiddenSequences (page ++ more) = hiddenSequences page := by
    unfold hiddenSequences
    rw [latestCompaction_append, latestCompaction_eq_none.mpr plain, Option.none_or]
  rw [applyCompactionView_eq_filter, applyCompactionView_eq_filter, same, List.filter_append]

/-- A result is read in the same way wherever the calls of the log are known. -/
theorem answerTo?_of_known (known : KnowsCalls p ids page) (known' : KnowsCalls p ids' page)
    (refer : ResultsRefer page) {e : Event} (mem : e ∈ page) :
      e.answerTo? ids = e.answerTo? ids' := by
  unfold Event.answerTo?
  split
  · rename_i type
    obtain ⟨call, there, called, ⟨toolId, toolName, input, payload⟩, answers⟩ := refer e mem type
    rw [toolUseIdOf, toolUseIdOf, answers]
    dsimp only
    rw [known call there toolId toolName input called payload,
      known' call there toolId toolName input called payload]
  · rfl

/-- In a part of a log that is complete in itself, a view shows calls before results. -/
theorem resultsBehind_of_view (known : KnowsCalls p ids (page ++ more))
    (follow : ResultsFollow more)
    (formed : ∀ e ∈ more, e.type = .toolCall →
      ∃ toolId toolName input, e.payload = toolCallPayload toolId toolName input) :
    ResultsBehind ids (more.filter p) := by
  intro before r after cut answers
  obtain ⟨read, unread, rfl, rfl, rest⟩ := List.filter_eq_append_iff.mp cut
  obtain ⟨skipped, unread, rfl, hidden, visible, -⟩ := List.filter_eq_cons_iff.mp rest
  obtain ⟨call, answered⟩ : ∃ call, r.answered? ids = some call := by
    rw [answerTo?_eq, Option.isSome_map] at answers
    exact Option.isSome_iff_exists.mp answers
  have shown : (read ++ skipped ++ [r]).filter p = read.filter p ++ [r] := by
    rw [List.filter_append, List.filter_append, List.filter_eq_nil_iff.mpr hidden, List.append_nil,
      List.filter_cons_of_pos visible, List.filter_nil]
  have part : read ++ skipped ++ [r] <+: read ++ (skipped ++ r :: unread) := ⟨unread, by simp⟩
  have inPart : KnowsCalls p ids ((read ++ skipped ++ [r]) ++ []) := fun e mem => by
    rw [List.append_nil] at mem
    exact known e (List.mem_append_right _ (part.subset mem))
  have among : call ∈ callsAmong ((read ++ skipped ++ [r]).filter p) := by
    refine mem_callsAmong inPart (follow _ part) ?_
    rw [shown]
    exact List.mem_filterMap.mpr ⟨r, by simp, answered⟩
  rw [shown] at among
  obtain ⟨e, mem, -⟩ := List.mem_map.mp among
  obtain ⟨mem, called⟩ := List.mem_filter.mp mem
  have called : e.type = .toolCall := by simpa using called
  rcases List.mem_append.mp mem with old | new
  · refine ⟨e, old, ?_⟩
    obtain ⟨toolId, toolName, input, payload⟩ :=
      formed e (List.mem_append_left _ (List.mem_filter.mp old).1) called
    rw [Event.calledAs?, if_pos called, payload]
    rfl
  · rw [List.mem_singleton.mp new, (answered?_eq_some answered).1] at called
    cases called

end View

section Runs

variable {c c' : RunConfig} {a : RunAction}

/-- The loop reads the log as it is, or not at all. -/
theorem lastRead_of_step (stepped : (sessionSystem rt agents sid agentId).step c a = some c') :
    c'.state.lastRead = c.state.lastRead ∨ c'.state.lastRead.log = c.state.session.events := by
  obtain ⟨w, program⟩ := c
  rcases Process.step_cases stepped with ⟨-, -, rfl⟩ |
    ⟨answer, o, k, w', r, -, rfl, performed, rfl⟩ | ⟨-, -, rfl⟩ | ⟨x, w', -, disturbed, rfl⟩
  · exact .inl rfl
  · change w.perform agents o answer = some (w', r) at performed
    change w'.lastRead = w.lastRead ∨ w'.lastRead.log = w.session.events
    cases o with
    | emitEvent id type payload =>
        cases answer <;> cases performed <;> exact .inl rfl
    | getEvents =>
        cases answer with
        | done =>
            have performed : some w.read = some (w', r) := performed
            rw [World.read_eq] at performed
            cases performed
            exact .inr rfl
        | raises e =>
            cases performed
            exact .inl rfl
        | _ => cases performed
    | uuid4 =>
        cases answer with
        | done =>
            cases performed
            exact .inl rfl
        | _ => cases performed
    | complete messages tools => cases answer <;> cases performed <;> exact .inl rfl
    | markComplete => exact .inl (World.perform_sameLog performed (.inr rfl)).lastRead
    | _ => exact .inl (World.perform_sameLog performed (.inl rfl)).lastRead
  · exact .inl rfl
  · cases x with
    | say content =>
        obtain rfl := Option.some.inj disturbed
        exact .inl rfl
    | complete =>
        obtain rfl := Option.some.inj disturbed
        exact .inl w.markComplete_sameLog.lastRead

/-- What has been read of the log is read again by every later read. -/
theorem read_of_later (readPast : c.state.lastRead.log <+: c.state.session.events)
    (later : (sessionSystem rt agents sid agentId).Later c c') :
    c.state.lastRead.log <+: c'.state.lastRead.log := by
  refine (later.preserves (P := fun u => c.state.lastRead.log <+: u.state.lastRead.log ∧
    c.state.lastRead.log <+: u.state.session.events) ⟨List.prefix_rfl, readPast⟩ ?_).1
  rintro u a u' ⟨read, logged⟩ - stepped
  constructor
  · rcases lastRead_of_step stepped with same | fresh
    · rwa [same]
    · rwa [fresh]
  · rcases events_of_step stepped with same | ⟨id, type, payload, grown, -⟩
    · rwa [same]
    · rw [grown]
      exact logged.trans (List.prefix_append _ _)

end Runs

/-- Without a compaction in between, a request starts with the messages of every earlier request
that ended on a message to reply to. -/
theorem requests_extend {c c' : RunConfig} {messages messages' : List Message}
    {tools tools' : Option (List ToolDef)} {k k' : Except Exn ModelStream → Harness Unit}
    (reachable : (sessionSystem rt agents sid agentId).Reachable c)
    (requested : c.program = some (.op (.complete messages tools) k))
    (ends : ∀ m ∈ messages.getLast?, m.role ≠ .assistant)
    (later : (sessionSystem rt agents sid agentId).Later c c')
    (requested' : c'.program = some (.op (.complete messages' tools') k'))
    (uncompacted : ∀ e ∈ c'.state.session.events, isCompactionEvent e = true →
      e ∈ c.state.session.events) : messages <+: messages' := by
  obtain ⟨g, watched, sound, logged⟩ :=
    (callsLogged_logInvariant _).reachable callsLogged_create reachable
  obtain ⟨-, current, folded, -⟩ := watched.permits requested
  obtain ⟨tail, grown, users⟩ := sound.since current
  obtain ⟨g', watched', sound', -, resumes⟩ :=
    (resumes_turnInvariant c.state.lastRead.log).reaches watched sound logged (by
      rw [closed_of_request requested watched]
      refine ⟨sound.readPast, ?_, by rintro call ⟨⟩⟩
      rw [grown, List.drop_left]
      intro before part r mem type
      rw [users r (part.subset mem)] at type
      cases type) later
  obtain ⟨-, -, folded', -⟩ := watched'.permits requested'
  have rest := List.prefix_iff_eq_append.mp resumes.grown
  obtain ⟨more, cut⟩ : c.state.lastRead.page <+: c'.state.lastRead.page := by
    rw [sound.page, sound'.page]
    exact List.prefix_take_iff.mpr
      ⟨(List.take_prefix _ _).trans (read_of_later sound.readPast later), List.length_take_le _ _⟩
  have came : more <+: c'.state.session.events.drop c.state.lastRead.log.length := by
    by_cases fits : c.state.lastRead.log.length ≤ 1000
    · have whole : c.state.lastRead.page = c.state.lastRead.log :=
        sound.page.trans (List.take_of_length_le fits)
      refine (List.prefix_append_right_inj c.state.lastRead.log).mp ?_
      rw [rest, ← whole, cut]
      exact sound'.page_prefix
    · have full : c.state.lastRead.page.length = 1000 := by
        rw [sound.page, List.length_take]
        omega
      have most : c'.state.lastRead.page.length ≤ 1000 := by
        rw [sound'.page]
        exact List.length_take_le _ _
      rw [← cut, List.length_append] at most
      obtain rfl : more = [] := List.length_eq_zero_iff.mp (by omega)
      exact List.nil_prefix
  have plain : ∀ e ∈ more, isCompactionEvent e = false := by
    intro e mem
    by_contra record
    have distinct := c'.state.session.events_nodup
    rw [← rest] at distinct
    have before := uncompacted e (List.mem_of_mem_drop (came.subset mem)) (by simpa using record)
    rw [grown] at before
    rcases List.mem_append.mp before with old | said
    · exact List.disjoint_of_nodup_append distinct old (came.subset mem)
    · exact record (by rw [isCompactionEvent, users e said]; rfl)
  have inLog := sound'.page_prefix.subset
  have distinct := c'.state.session.distinct.sublist (sound'.page_prefix.sublist.map Event.id)
  rw [folded, folded', World.requestMessages, World.requestMessages, ← cut,
    applyCompactionView_continue plain]
  rw [folded, World.requestMessages] at ends
  rw [← cut] at distinct inLog
  have known := knowsCalls_toolCallIds distinct
    fun e => decide ((e.sequence : Int) ∉ hiddenSequences c.state.lastRead.page)
  have known' := knowsCalls_toolCallIds
    (c.state.session.distinct.sublist (sound.page_prefix.sublist.map Event.id))
    fun e => decide ((e.sequence : Int) ∉ hiddenSequences c.state.lastRead.page)
  rw [List.filter_append, ← applyCompactionView_eq_filter] at known
  rw [← applyCompactionView_eq_filter] at known'
  refine prefix_foldContext ends (fun e mem => ?_) ?_
  · exact answerTo?_of_known known' known.of_append
      (resultsFollow_of_reachable reachable _ sound.page_prefix)
      (applyCompactionView_sublist.subset mem)
  · exact resultsBehind_of_view known (fun before part => resumes.follow before (part.trans came))
      fun e mem => (sound'.logged e (inLog (List.mem_append_right _ mem))).call

/-- The first two requests of a run. -/
theorem requests_extend_round : ∃ (c c' : RunConfig) (messages messages' : List Message)
    (tools tools' : Option (List ToolDef)) (k k' : Except Exn ModelStream → Harness Unit),
    c.program = some (.op (.complete messages tools) k) ∧
    c'.program = some (.op (.complete messages' tools') k') ∧
    messages.map Message.role = [.user, .system] ∧
    messages'.map Message.role = [.user, .system, .assistant, .tool] ∧ messages <+: messages' := by
  obtain ⟨c, ran, rest⟩ := Option.bind_eq_some_iff.mp (show
    ((bareSystem .spacious (some "Be brief.")).run ⟨.create "s" "agent", none⟩
      (promptedRound.take 7)).bind (fun c =>
        ((bareSystem .spacious (some "Be brief.")).run c (promptedRound.drop 7)).bind fun c' =>
          (requesting? c).bind fun messages => (requesting? c').map fun messages' =>
            (messages.map Message.role, messages'.map Message.role,
              c'.state.session.events.any isCompactionEvent)) =
      some ([.user] ++ [.system], [.user, .system, .assistant, .tool], false)
      by decide +kernel)
  obtain ⟨c', resumed, rest⟩ := Option.bind_eq_some_iff.mp rest
  obtain ⟨messages, requested, rest⟩ := Option.bind_eq_some_iff.mp rest
  obtain ⟨messages', requested', told⟩ := Option.map_eq_some_iff.mp rest
  obtain ⟨tools, k, pending⟩ := requesting?_eq_some requested
  obtain ⟨tools', k', pending'⟩ := requesting?_eq_some requested'
  obtain ⟨roles, told⟩ := Prod.mk.inj told
  obtain ⟨roles', plain⟩ := Prod.mk.inj told
  refine ⟨c, c', messages, messages', tools, tools', k, k', pending, pending', roles, roles', ?_⟩
  refine requests_extend ⟨_, ⟨rfl, rfl⟩, Transition.System.later_of_run ran⟩ pending ?_
    (Transition.System.later_of_run resumed) pending' fun e mem record => ?_
  · obtain ⟨before, last, rfl, -, ends⟩ := List.map_eq_append_iff.mp roles
    obtain ⟨m, rest, rfl, system, nothing⟩ := List.map_eq_cons_iff.mp ends
    obtain rfl := List.map_eq_nil_iff.mp nothing
    intro m' last
    rw [List.getLast?_concat, Option.mem_some] at last
    rw [← last, system]
    rintro ⟨⟩
  · rw [List.any_eq_false] at plain
    exact absurd record (plain e mem)

end Tename
