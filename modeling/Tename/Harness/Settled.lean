import Tename.Harness.Records
import Tename.Harness.Rounds

/-!
# Settled logs

A log is settled if each of its calls has its result and no reply stands at its
end. The context of a settled view is well formed, and a run that starts on a
settled view keeps it settled from turn to turn, as long as its compactions do.
What breaks a view is a run that is killed inside a turn, a record that cuts
through one, and a user message that comes between a call and its result.
-/

namespace Tename

variable {rt : Runtime} {agents : AgentId → Option Agent} {sid : SessionId} {agentId : AgentId}

/-- Every call has its result, and the log does not end on a reply. -/
def settled (events : List Event) : Bool :=
  allAnswered events && endingOf (toolCallIds events) events = .quiet

/-- The active view of a log that fits a page is settled. -/
def pageSettled (events : List Event) : Bool :=
  1000 < events.length || settled (applyCompactionView events)

/-- The active view shows the event. -/
def inView (events : List Event) (e : Event) : Bool :=
  (e.sequence : Int) ∉ hiddenSequences events

theorem applyCompactionView_eq_inView (events : List Event) :
    applyCompactionView events = events.filter (inView events) :=
  applyCompactionView_eq_filter events

section Views

variable {events shown : List Event} {e : Event} {call : PendingEvent}
variable {calls rest : List PendingEvent}

/-- The calls of a view are answered in it, or among the open ones, which are in it. -/
structure Owing (shown : List Event) (calls : List PendingEvent) : Prop where
  owed : ∀ e ∈ shown, e.type = .toolCall →
    e.answeredIn shown = true ∨ ∃ call ∈ calls, call.id = e.id
  shown : ∀ call ∈ calls, ∃ e ∈ shown, e.id = call.id

theorem answeredIn_append (answered : e.answeredIn shown = true) (tail : List Event) :
    e.answeredIn (shown ++ tail) = true := by
  rw [Event.answeredIn, List.any_append]
  exact Bool.or_eq_true_iff.mpr (.inl answered)

theorem Owing.append (h : Owing shown calls) (other : e.type ≠ .toolCall) :
    Owing (shown ++ [e]) calls where
  owed c mem type := by
    rcases List.mem_append.mp mem with old | new
    · exact (h.owed c old type).imp (answeredIn_append · [e]) id
    · rw [List.mem_singleton.mp new] at type
      exact absurd type other
  shown call mem := by
    obtain ⟨c, mem', same⟩ := h.shown call mem
    exact ⟨c, List.mem_append_left _ mem', same⟩

theorem Owing.append_call (h : Owing shown calls) (is : e.id = call.id) :
    Owing (shown ++ [e]) (calls ++ [call]) where
  owed c mem type := by
    rcases List.mem_append.mp mem with old | new
    · rcases h.owed c old type with answered | ⟨call', open', same⟩
      · exact .inl (answeredIn_append answered [e])
      · exact .inr ⟨call', List.mem_append_left _ open', same⟩
    · rw [List.mem_singleton.mp new]
      exact .inr ⟨call, List.mem_append_right _ (List.mem_singleton_self call), is.symm⟩
  shown call' mem := by
    rcases List.mem_append.mp mem with old | new
    · obtain ⟨c, mem', same⟩ := h.shown call' old
      exact ⟨c, List.mem_append_left _ mem', same⟩
    · rw [List.mem_singleton.mp new]
      exact ⟨e, List.mem_append_right _ (List.mem_singleton_self e), is⟩

theorem Owing.append_result (h : Owing shown (call :: rest)) (type : e.type = .toolResult)
    (answers : e.id = .toolResult call.id) : Owing (shown ++ [e]) rest where
  owed c mem called := by
    rcases List.mem_append.mp mem with old | new
    · rcases h.owed c old called with answered | ⟨call', open', same⟩
      · exact .inl (answeredIn_append answered [e])
      · rcases List.mem_cons.mp open' with rfl | left
        · refine .inl (List.any_eq_true.mpr ⟨e, List.mem_append_right _ (by simp), ?_⟩)
          simp [answers, same]
        · exact .inr ⟨call', left, same⟩
    · rw [List.mem_singleton.mp new, type] at called
      cases called
  shown call' mem := by
    obtain ⟨c, mem', same⟩ := h.shown call' (List.mem_cons_of_mem _ mem)
    exact ⟨c, List.mem_append_left _ mem', same⟩

theorem owing_nil_iff : Owing shown [] ↔ allAnswered shown = true := by
  rw [allAnswered, List.all_eq_true]
  constructor
  · intro h e mem
    by_cases called : e.type = .toolCall
    · simpa [called] using h.owed e mem called
    · simp [called]
  · intro h
    exact ⟨fun e mem called => by simpa [called] using h e mem, by simp⟩

/-- The active view does not end on a reply, whichever way its calls are known. -/
def Quieted (events : List Event) : Prop :=
  ∀ ids, KnowsCalls (inView events) ids events →
    endingOf ids (applyCompactionView events) = .quiet

/-- Two ways to know the calls of a log read its results alike. -/
theorem endingOf_congr {p : Event → Bool} {ids ids' : List (EventId × String)}
    (known : KnowsCalls p ids events) (known' : KnowsCalls p ids' events)
    (refer : ResultsRefer events) (less : shown ⊆ events) :
    endingOf ids shown = endingOf ids' shown := by
  have step : ∀ en : Ending, ∀ e ∈ shown, en.step ids e = en.step ids' e := by
    intro en e mem
    by_cases result : e.type = .toolResult
    · obtain ⟨call, mem', called, ⟨toolId, toolName, input, payload⟩, answers⟩ :=
        refer e (less mem) result
      have found := known call mem' toolId toolName input called payload
      have found' := known' call mem' toolId toolName input called payload
      simp only [Ending.step, result, toolUseIdOf, answers, found, found']
    · cases type : e.type with
      | toolResult => exact absurd type result
      | _ => simp only [Ending.step, type]
  rw [endingOf, endingOf]
  exact List.foldl_ext _ _ _ step

theorem quieted_of_settled (distinct : (events.map Event.id).Nodup) (refer : ResultsRefer events)
    (h : settled (applyCompactionView events) = true) : Quieted events := by
  intro ids known
  have known' : KnowsCalls (inView events) (toolCallIds (applyCompactionView events)) events := by
    rw [applyCompactionView_eq_inView]
    exact knowsCalls_toolCallIds distinct _
  rw [endingOf_congr known known' refer applyCompactionView_sublist.subset]
  exact of_decide_eq_true (Bool.and_eq_true_iff.mp h).2

theorem settled_iff (distinct : (events.map Event.id).Nodup) (refer : ResultsRefer events) :
    settled (applyCompactionView events) = true ↔
      Owing (applyCompactionView events) [] ∧ Quieted events := by
  constructor
  · intro h
    exact ⟨owing_nil_iff.mpr (Bool.and_eq_true_iff.mp h).1, quieted_of_settled distinct refer h⟩
  · rintro ⟨owing, quieted⟩
    refine Bool.and_eq_true_iff.mpr ⟨owing_nil_iff.mp owing, decide_eq_true (quieted _ ?_)⟩
    rw [applyCompactionView_eq_inView]
    exact knowsCalls_toolCallIds distinct _

/-- What the active view owes, by phase. Once the closer of a turn is logged, the view
ends on a reply until the calls of the turn are answered. -/
def InOrder (events : List Event) : Phase → Prop
  | .idle => True
  | .stopped => True
  | .answering calls => Owing (applyCompactionView events) calls
  | phase => Owing (applyCompactionView events) phase.openCalls ∧ Quieted events

theorem InOrder.owing {phase : Phase} (h : InOrder events phase) (running : phase ≠ .idle)
    (goesOn : phase ≠ .stopped) : Owing (applyCompactionView events) phase.openCalls := by
  cases phase with
  | idle => exact absurd rfl running
  | stopped => exact absurd rfl goesOn
  | answering calls => exact h
  | resting => exact h.1
  | streaming texts calls rest => exact h.1

end Views

section Runs

/-- The log of a state, where a record is no exception. -/
structure Extends (events : List Event) (e : Event) : Prop where
  fresh : ∀ e' ∈ events, e'.id ≠ e.id
  other : isCompactionEvent e = false
  view : applyCompactionView (events ++ [e]) = applyCompactionView events ++ [e]
  inView : inView (events ++ [e]) = inView events

theorem extends_of_append {w : World} {id : EventId} {type : EventType} {payload : Payload}
    (refer : RecordsRefer w.session.events) (fresh : ∀ e ∈ w.session.events, e.id ≠ id)
    (other : type ≠ .harnessEvent) :
    Extends w.session.events (w.session.nextEvent id type payload) := by
  have noRecord : isCompactionEvent (w.session.nextEvent id type payload) = false := by
    rw [← Bool.not_eq_true]
    exact fun record => other (type_of_record record)
  refine ⟨fresh, noRecord, applyCompactionView_append _ noRecord fun n hidden same => ?_, ?_⟩
  · obtain ⟨e, mem, earlier⟩ := refer.hidden hidden
    have bound := w.session.sequence_le mem
    rw [earlier] at same
    have same : e.sequence = w.session.row.lastSequence + 1 := Int.ofNat_inj.mp same
    omega
  · funext e
    rw [Tename.inView, hiddenSequences_append, noRecord]
    rfl

section Steps

variable {events : List Event} {e : Event} {call : PendingEvent} {calls rest : List PendingEvent}

theorem Extends.known {ids : List (EventId × String)} (h : Extends events e)
    (known : KnowsCalls (Tename.inView (events ++ [e])) ids (events ++ [e])) :
    KnowsCalls (Tename.inView events) ids events := by
  rw [h.inView] at known
  exact known.of_append

/-- The ending after an event that keeps a quiet one. -/
theorem Quieted.append (h : Quieted events) (extends' : Extends events e)
    (quiet : ∀ ids, Ending.quiet.step ids e = .quiet) : Quieted (events ++ [e]) := by
  intro ids known
  rw [extends'.view, endingOf_append, h ids (extends'.known known), quiet ids]

theorem InOrder.append {phase : Phase} (h : InOrder events phase) (extends' : Extends events e)
    (other : e.type ≠ .toolCall) (quiet : ∀ ids, Ending.quiet.step ids e = .quiet) :
    InOrder (events ++ [e]) phase := by
  cases phase with
  | idle => trivial
  | stopped => trivial
  | answering calls =>
      change Owing _ calls
      rw [extends'.view]
      exact Owing.append h other
  | resting => exact ⟨by rw [extends'.view]; exact h.1.append other, h.2.append extends' quiet⟩
  | streaming texts calls rest =>
      exact ⟨by rw [extends'.view]; exact h.1.append other, h.2.append extends' quiet⟩

theorem InOrder.toolCall {texts : List String} {chunks chunks' : List ModelChunk}
    (h : InOrder events (.streaming texts calls chunks)) (extends' : Extends events e)
    (is : e.isCall call) :
    InOrder (events ++ [e]) (.streaming texts (calls ++ [call]) chunks') := by
  refine ⟨?_, h.2.append extends' fun ids => Ending.step_other (.inl is.2.1)⟩
  rw [extends'.view]
  exact h.1.append_call is.1

theorem InOrder.closer {texts : List String} {chunks : List ModelChunk}
    (h : InOrder events (.streaming texts calls chunks)) (extends' : Extends events e)
    (other : e.type ≠ .toolCall) : InOrder (events ++ [e]) (.afterCloser calls) := by
  cases calls with
  | nil => trivial
  | cons call calls =>
      change Owing _ (call :: calls)
      rw [extends'.view]
      exact h.1.append other

/-- A result of the running turn answers a call that is shown. -/
theorem InOrder.result {phase : Phase} (h : InOrder events phase) (extends' : Extends events e)
    (working : phase.toAnswer = call :: rest) (logged : CallsLogged events phase.openCalls)
    (distinct : (events.map Event.id).Nodup) (type : e.type = .toolResult)
    (answers : e.payload.get? "tool_call_id" = some (.uuid call.id))
    (id : e.id = .toolResult call.id) : InOrder (events ++ [e]) (.afterResult rest) := by
  have owing : Owing (applyCompactionView events) (call :: rest) := by
    rw [← Phase.openCalls_of_toAnswer working]
    refine h.owing ?_ ?_ <;> rintro rfl <;> cases working
  rw [Phase.openCalls_of_toAnswer working] at logged
  have after : Owing (applyCompactionView (events ++ [e])) rest := by
    rw [extends'.view]
    exact owing.append_result type id
  have quieted : Quieted (events ++ [e]) := by
    intro ids known
    obtain ⟨c, mem, is, found⟩ := (extends'.known known).lookup logged List.mem_cons_self
    have shown : inView events c = true := by
      obtain ⟨c', mem', same⟩ := owing.shown call List.mem_cons_self
      rw [applyCompactionView_eq_inView, List.mem_filter] at mem'
      rw [List.inj_on_of_nodup_map distinct mem mem'.1 (is.1.trans same.symm)]
      exact mem'.2
    rw [if_pos shown] at found
    rw [extends'.view, endingOf_append, Ending.step_answered type answers found]
  cases rest with
  | nil => exact ⟨after, quieted⟩
  | cons next rest => exact after

end Steps

/-- The discipline of orderly histories: runs start on settled views, users write between
runs or while no call waits for its result, and a compaction leaves a settled view. -/
def orderly (c : RunConfig) (a : RunAction) : Bool :=
  match a, c.program with
  | .start, _ => pageSettled c.state.session.events
  | .disturb (.say _), program => program.isNone || allAnswered c.state.session.events
  | .respond .done, some (.op (.emitEvent id .harnessEvent payload) _) =>
      c.state.session.events.any (·.id = id) ||
        pageSettled (c.state.session.events ++ [c.state.session.nextEvent id .harnessEvent payload])
  | _, _ => true

theorem politelySaid_orderly : PolitelySaid fun c a => orderly c a = true := by
  intro w program content permitted
  simpa [orderly] using permitted

/-- The invariant of orderly histories. -/
def Orderly (events : List Event) (phase : Phase) : Prop :=
  RecordsRefer events ∧ (events.length ≤ 1000 → InOrder events phase)

theorem settled_of_pageSettled {events : List Event} (h : pageSettled events = true)
    (fits : events.length ≤ 1000) : settled (applyCompactionView events) = true := by
  simpa [pageSettled, Nat.not_lt.mpr fits] using h

theorem orderly_turnInvariant : TurnInvariant rt agents sid (fun c a => orderly c a = true)
    fun w phase => Orderly w.session.events phase where
  begun w sound logged h permitted := by
    refine ⟨h.1, fun fits => ?_⟩
    exact (settled_iff w.session.distinct (sound.resultsRefer logged)).mp
      (settled_of_pageSettled permitted fits)
  stopped _ _ _ h := ⟨h.1, fun _ => trivial⟩
  appended w g id type payload phase fresh k sound logged h permitted emits := by
    have refer := (recordsRefer_logInvariant fun c a => orderly c a = true).appended w g id type
      payload phase fresh k sound h.1 permitted emits
    refine ⟨refer, fun fits => ?_⟩
    have before : InOrder w.session.events g.phase := by
      refine h.2 (Nat.le_trans ?_ fits)
      exact (List.prefix_append _ _).length_le
    obtain ⟨before', drawn, current⟩ := g
    cases emits with
    | seed owner carries nonempty first =>
        exact before.append (extends_of_append h.1 fresh (by rintro ⟨⟩)) (by rintro ⟨⟩) fun _ => rfl
    | @compaction _ _ _ decision owner loaded planned =>
        have left : pageSettled (w.session.events ++ [w.session.nextEvent
            (.compaction sid decision.droppedSequences) .harnessEvent decision.toPayload]) =
              true := by
          refine (Bool.or_eq_true_iff.mp permitted).resolve_left fun taken => ?_
          obtain ⟨e, mem, same⟩ := List.any_eq_true.mp taken
          exact fresh e mem (of_decide_eq_true same)
        refine (settled_iff (w.append _ _ _ fresh).session.distinct ?_).mp
          (settled_of_pageSettled left fits)
        exact (sound.resultsRefer logged).append (by rintro ⟨⟩)
    | delta silent =>
        exact before.append (extends_of_append h.1 fresh (by rintro ⟨⟩)) (by rintro ⟨⟩) fun _ => rfl
    | toolCall silent =>
        exact before.toolCall (extends_of_append h.1 fresh (by rintro ⟨⟩)) ⟨rfl, rfl, rfl⟩
    | error silent => trivial
    | closer spoken drained =>
        exact before.closer (extends_of_append h.1 fresh (by rintro ⟨⟩)) (by rintro ⟨⟩)
    | provisioned working =>
        exact before.append (extends_of_append h.1 fresh (by rintro ⟨⟩)) (by rintro ⟨⟩) fun _ => rfl
    | result working answers =>
        exact before.result (extends_of_append h.1 fresh (by rintro ⟨⟩)) working logged
          w.session.distinct rfl answers rfl
  requested _ _ _ _ _ h _ := h
  said w program phase n content fresh logged h _ _ := by
    have refer := h.1.append (e := w.session.nextEvent (.uuid4 n) .userMessage
      (userPayload content)) fun record => by cases type_of_record record
    refine ⟨refer, fun fits => ?_⟩
    refine (h.2 (Nat.le_trans ?_ fits)).append (extends_of_append h.1 fresh (by rintro ⟨⟩))
      (by rintro ⟨⟩) fun _ => rfl
    exact (List.prefix_append _ _).length_le
  agrees w w' phase h same := by rwa [same.events]

section Requests

variable {c : RunConfig} {messages : List Message} {tools : Option (List ToolDef)}
variable {k : Except Exn ModelStream → Harness Unit}

/-- A part of a log, picked out again by its sequences. -/
theorem filter_sequences {events shown : List Event} (part : shown.Sublist events)
    (distinct : (events.map Event.sequence).Nodup) :
    events.filter (fun e => shown.any (·.sequence = e.sequence)) = shown := by
  induction part with
  | slnil => rfl
  | @cons shown events e part ih =>
      obtain ⟨fresh, distinct⟩ := List.nodup_cons.mp distinct
      have hidden : ¬ shown.any (·.sequence = e.sequence) = true := by
        intro listed
        obtain ⟨e', mem, same⟩ := List.any_eq_true.mp listed
        exact fresh (List.mem_map.mpr ⟨e', part.subset mem, of_decide_eq_true same⟩)
      rw [List.filter_cons, if_neg hidden, ih distinct]
  | @cons_cons shown events e part ih =>
      obtain ⟨fresh, distinct⟩ := List.nodup_cons.mp distinct
      refine (List.filter_cons_of_pos (by simp)).trans (congrArg (e :: ·) ?_)
      refine Eq.trans (List.filter_congr fun x mem => ?_) (ih distinct)
      have other : e.sequence ≠ x.sequence := fun same => fresh (same ▸ List.mem_map_of_mem mem)
      simp [other]

/-- The view a request is built from. -/
def requestView (c : RunConfig) : List Event :=
  applyCompactionView (c.state.lastRead.log.take 1000)

theorem requestView_sublist {g : Stage} (sound : Sound rt agents sid c.state g) :
    (requestView c).Sublist c.state.session.events :=
  applyCompactionView_sublist.trans ((List.take_sublist _ _).trans sound.readPast.sublist)

/-- A request whose view shows each call with its result tells rounds. -/
theorem request_told {C : RunConfig → RunAction → Prop} (polite : PolitelySaid C)
    (reachable : (sessionSystem rt agents sid agentId).ReachableIf C c)
    (requested : c.program = some (.op (.complete messages tools) k))
    (answered : allAnswered (requestView c) = true) : ∃ base text,
      Told base text (endingOf (toolCallIds (requestView c)) (requestView c)) ∧
      messages = base ++ ContextFold.spoken text [] := by
  obtain ⟨g, watched, sound, _, told⟩ := (roundsTold_turnInvariant polite).reachable
    (fun p ids _ _ => ⟨[], "", told_empty, ContextFold.open_empty⟩) reachable
  obtain ⟨resting, _⟩ := watched.permits requested
  have part := filter_sequences (requestView_sublist sound) c.state.session.sequence_nodup
  have known := knowsCalls_toolCallIds c.state.session.distinct fun e =>
    (requestView c).any (·.sequence = e.sequence)
  rw [resting] at told
  rw [part] at known
  have covered : Covered (fun e => (requestView c).any (·.sequence = e.sequence))
      c.state.session.events [] := by
    intro e mem called visible
    have shown : e ∈ requestView c := by
      rw [← part]
      exact List.mem_filter.mpr ⟨mem, visible⟩
    have result : e.answeredIn (requestView c) = true := by
      simpa [called] using List.all_eq_true.mp answered e shown
    obtain ⟨r, mem', same⟩ := List.any_eq_true.mp result
    refine .inr ⟨r, (requestView_sublist sound).subset mem', of_decide_eq_true same, ?_⟩
    exact List.any_eq_true.mpr ⟨r, mem', by simp⟩
  have said := told _ _ known covered
  rw [part] at said
  obtain ⟨base, text, told, opened⟩ := said
  refine ⟨base, text, told, ?_⟩
  rw [requested_messages reachable requested]
  exact congrArg ContextFold.messages opened.flush

/-- A request whose view is settled is well formed. -/
theorem wellFormed_of_settled {C : RunConfig → RunAction → Prop} (polite : PolitelySaid C)
    (reachable : (sessionSystem rt agents sid agentId).ReachableIf C c)
    (requested : c.program = some (.op (.complete messages tools) k))
    (h : settled (requestView c) = true) : WellFormed messages := by
  obtain ⟨answered, quiet⟩ := Bool.and_eq_true_iff.mp h
  obtain ⟨base, text, told, rfl⟩ := request_told polite reachable requested answered
  obtain ⟨g, watched, _⟩ := sound_of_reachable reachable
  obtain ⟨_, _, _, asked⟩ := watched.permits requested
  rw [of_decide_eq_true quiet] at told
  obtain rfl : text = "" := by
    by_contra spoken
    cases told.pending spoken
  rw [ContextFold.spoken_nothing, List.append_nil] at asked ⊢
  exact told.paired.wellFormed (fun ends => by cases told.replied ends) asked

/-- In orderly histories a log that fits a page is requested from settled. -/
theorem settled_of_orderly {C : RunConfig → RunAction → Prop}
    (weaken : ∀ c a, C c a → orderly c a = true)
    (reachable : (sessionSystem rt agents sid agentId).ReachableIf C c)
    (requested : c.program = some (.op (.complete messages tools) k))
    (fits : c.state.lastRead.log.length ≤ 1000) : settled (requestView c) = true := by
  obtain ⟨g, watched, sound, ordered⟩ := (@orderly_turnInvariant rt agents sid).atRead
    (K := Orderly) ⟨⟨by simp, by simp⟩, fun _ => trivial⟩ (reachable.mono weaken)
  obtain ⟨resting, current, _⟩ := watched.permits requested
  have order := (ordered current).2 fits
  rw [resting] at order
  rw [requestView, List.take_of_length_le fits]
  have distinct := c.state.session.distinct.sublist (sound.readPast.sublist.map Event.id)
  refine Bool.and_eq_true_iff.mpr ⟨owing_nil_iff.mp order.1, decide_eq_true (order.2 _ ?_)⟩
  rw [applyCompactionView_eq_inView]
  exact knowsCalls_toolCallIds distinct _

end Requests

end Runs

end Tename
