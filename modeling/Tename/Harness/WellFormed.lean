import Tename.Harness.Settled
import Tename.Harness.Transcript

/-!
# Well-formed requests

What the adapter may assume of the loop's history for a provider to accept its
requests: runs that start on settled views, compactions that leave settled views
behind, and users that do not write into the middle of a tool round. For each of
the three there is a run that breaks it, and a request that no provider accepts.
-/

namespace Tename

variable {rt : Runtime} {agents : AgentId → Option Agent} {sid : SessionId} {agentId : AgentId}

/-- No compaction record is committed. -/
def uncompacted (c : RunConfig) (a : RunAction) : Bool :=
  match a, c.program with
  | .respond .done, some (.op (.emitEvent _ .harnessEvent _) _) => false
  | _, _ => true

/-- The run is not killed. -/
def unkilled (a : RunAction) : Bool :=
  match a with
  | .kill => false
  | _ => true

section Evaluation

variable {messages : List Message}

/-- The roles of a pending request whose log fits a page. -/
def requestedRoles (c : RunConfig) : Option (List Role) :=
  if c.state.lastRead.log.length ≤ 1000 then (requesting? c).map (·.map Message.role) else none

/-- An evaluated run up to a request. -/
theorem request_of_runIf (profile : Profile) (C : RunConfig → RunAction → Bool)
    (actions : List RunAction) (roles : List Role)
    (ran : ((bareSystem profile none).runIf C ⟨.create "s" "agent", none⟩ actions).bind
      requestedRoles = some roles) :
    ∃ (c : RunConfig) (messages : List Message) (tools : Option (List ToolDef))
      (k : Except Exn ModelStream → Harness Unit),
      (bareSystem profile none).ReachableIf (fun c a => C c a = true) c ∧
      c.program = some (.op (.complete messages tools) k) ∧
      messages.map Message.role = roles ∧ c.state.lastRead.log.length ≤ 1000 := by
  obtain ⟨c, ran, rest⟩ := Option.bind_eq_some_iff.mp ran
  unfold requestedRoles at rest
  split at rest
  · rename_i fits
    obtain ⟨messages, requested, same⟩ := Option.map_eq_some_iff.mp rest
    obtain ⟨tools, k, pending⟩ := requesting?_eq_some requested
    exact ⟨c, messages, tools, k, ⟨_, ⟨rfl, rfl⟩, Transition.System.reaches_of_runIf ran⟩,
      pending, same, fits⟩
  · cases rest

theorem not_wellFormed_of_reply
    (reply : (messages.map Message.role).getLast? = some .assistant) : ¬ WellFormed messages := by
  intro h
  obtain ⟨before, last, ends, waits⟩ := h.last
  rw [List.getLast?_map, Option.map_eq_some_iff] at reply
  obtain ⟨m, atEnd, assistant⟩ := reply
  obtain ⟨init, rfl⟩ := List.getLast?_eq_some_iff.mp atEnd
  rw [conversation_append, conversation_singleton, if_neg (by simp [assistant])] at ends
  obtain ⟨_, same⟩ := List.append_inj' ends rfl
  rw [← List.singleton_inj.mp same, assistant] at waits
  rcases waits with user | tool
  · cases user
  · cases tool

theorem not_pairsRounds_of_parted
    (parted : messages.map Message.role = [.user, .assistant, .user, .tool]) :
    ¬ PairsRounds messages := by
  intro h
  obtain ⟨user, rest, rfl, first, parted⟩ := List.map_eq_cons_iff.mp parted
  obtain ⟨reply, rest, rfl, second, parted⟩ := List.map_eq_cons_iff.mp parted
  obtain ⟨parting, rest, rfl, third, parted⟩ := List.map_eq_cons_iff.mp parted
  obtain ⟨results, rest, rfl, fourth, parted⟩ := List.map_eq_cons_iff.mp parted
  obtain rfl := List.map_eq_nil_iff.mp parted
  obtain ⟨before, m, cut, asks⟩ := h.asked [user, reply, parting] results [] (by
    simp [conversation, first, second, third, fourth]) fourth
  have same : [user, reply] ++ [parting] = before ++ [m] := cut
  obtain ⟨_, same⟩ := List.append_inj' same rfl
  rw [Message.Asks, ← List.singleton_inj.mp same, third] at asks
  cases asks.1

theorem thousand_pos : 0 < 1000 := Nat.succ_pos 999

/-- A profile under which short views are not worth compacting. -/
def Profile.spacious : Profile :=
  .truncating 1000 1000 thousand_pos thousand_pos

/-- A start up to the first request, where nothing is compacted. -/
def startToRequest : List RunAction :=
  [.start, .respond .done, .respond .done, .respond (.reads 0), .respond .done]

/-- The first turn, up to its call. -/
def calledOnce : List RunAction :=
  [.disturb (.say "go")] ++ startToRequest ++
    [.respond (.streams ⟨[.toolCallEnd "t1" "lookup" [] 0], none⟩), .respond .done, .respond .done]

/-- A turn with a text and a call, its result, and the compaction after it. -/
def calledAndCompacted : List RunAction :=
  runTo ⟨[.textDelta "a", .toolCallEnd "t1" "lookup" [] 0], none⟩ ++
    List.replicate 10 (.respond .done)

end Evaluation

section Requests

variable {c : RunConfig} {messages : List Message} {tools : Option (List ToolDef)}
variable {k : Except Exn ModelStream → Harness Unit}

theorem wellFormed_of_weaken {C : RunConfig → RunAction → Prop}
    (weaken : ∀ c a, C c a → orderly c a = true)
    (reachable : (sessionSystem rt agents sid agentId).ReachableIf C c)
    (requested : c.program = some (.op (.complete messages tools) k))
    (fits : c.state.lastRead.log.length ≤ 1000 ∨ settled (requestView c) = true) :
    WellFormed messages := by
  have polite : PolitelySaid C := fun w program content permitted =>
    politelySaid_orderly w program content (weaken _ _ permitted)
  refine wellFormed_of_settled polite reachable requested ?_
  rcases fits with short | settled
  · exact settled_of_orderly weaken reachable requested short
  · exact settled

/-- Killed between turns and restarted, a run without compactions makes well-formed requests. -/
theorem resumed_wellFormed
    (reachable : (sessionSystem rt agents sid agentId).ReachableIf
      (fun c a => orderly c a = true ∧ uncompacted c a = true) c)
    (requested : c.program = some (.op (.complete messages tools) k))
    (fits : c.state.lastRead.log.length ≤ 1000 ∨ settled (requestView c) = true) :
    WellFormed messages :=
  wellFormed_of_weaken (fun _ _ => And.left) reachable requested fits

/-- A run that is killed after the result of a call goes on with the round. -/
theorem resumed_wellFormed_after_result : ∃ (c : RunConfig) (messages : List Message)
    (tools : Option (List ToolDef)) (k : Except Exn ModelStream → Harness Unit),
    c.program = some (.op (.complete messages tools) k) ∧
    messages.map Message.role = [.user, .assistant, .tool] ∧ WellFormed messages := by
  obtain ⟨c, messages, tools, k, reachable, requested, roles, fits⟩ := request_of_runIf
    .spacious (fun c a => orderly c a && uncompacted c a)
    (calledOnce ++ [.respond .done, .kill] ++ startToRequest) [.user, .assistant, .tool]
    (by decide +kernel)
  refine ⟨c, messages, tools, k, requested, roles, ?_⟩
  refine resumed_wellFormed (reachable.mono fun c a permitted => ?_) requested (.inl fits)
  exact Bool.and_eq_true_iff.mp permitted

/-- Killed between a call and its result, the restarted run asks for the results of nothing. -/
theorem resumed_on_open_call : ∃ (c : RunConfig) (messages : List Message)
    (tools : Option (List ToolDef)) (k : Except Exn ModelStream → Harness Unit),
    (bareSystem .spacious none).ReachableIf (fun c a => uncompacted c a = true) c ∧
    c.program = some (.op (.complete messages tools) k) ∧ ¬ WellFormed messages := by
  obtain ⟨c, messages, tools, k, reachable, requested, roles, _⟩ := request_of_runIf
    .spacious uncompacted
    (calledOnce ++ [.kill] ++ startToRequest) [.user, .assistant]
    (by decide +kernel)
  exact ⟨c, messages, tools, k, reachable, requested, not_wellFormed_of_reply (by rw [roles]; rfl)⟩

/-- A run whose compactions leave settled views makes well-formed requests. -/
theorem compacted_wellFormed
    (reachable : (sessionSystem rt agents sid agentId).ReachableIf
      (fun c a => orderly c a = true ∧ unkilled a = true) c)
    (requested : c.program = some (.op (.complete messages tools) k))
    (fits : c.state.lastRead.log.length ≤ 1000 ∨ settled (requestView c) = true) :
    WellFormed messages :=
  wellFormed_of_weaken (fun _ _ => And.left) reachable requested fits

/-- A window of three events keeps the round. -/
theorem compacted_wellFormed_three : ∃ (c : RunConfig) (messages : List Message)
    (tools : Option (List ToolDef)) (k : Except Exn ModelStream → Harness Unit),
    c.program = some (.op (.complete messages tools) k) ∧
    messages.map Message.role = [.user, .assistant, .tool] ∧ WellFormed messages := by
  obtain ⟨c, messages, tools, k, reachable, requested, roles, fits⟩ := request_of_runIf
    (.truncating 1 3 Nat.one_pos (Nat.succ_pos 2)) (fun c a => orderly c a && unkilled a)
    calledAndCompacted [.user, .assistant, .tool]
    (by decide +kernel)
  refine ⟨c, messages, tools, k, requested, roles, ?_⟩
  refine compacted_wellFormed (reachable.mono fun c a permitted => ?_) requested (.inl fits)
  exact Bool.and_eq_true_iff.mp permitted

/-- A window of two events drops the call and keeps its result: the request ends on the reply. -/
theorem compacted_into_round : ∃ (c : RunConfig) (messages : List Message)
    (tools : Option (List ToolDef)) (k : Except Exn ModelStream → Harness Unit),
    (bareSystem (.truncating 1 2 Nat.one_pos (Nat.succ_pos 1)) none).ReachableIf
      (fun _ a => unkilled a = true) c ∧
    c.program = some (.op (.complete messages tools) k) ∧ ¬ WellFormed messages := by
  obtain ⟨c, messages, tools, k, reachable, requested, roles, _⟩ := request_of_runIf
    (.truncating 1 2 Nat.one_pos (Nat.succ_pos 1)) (fun _ a => unkilled a)
    calledAndCompacted [.user, .assistant]
    (by decide +kernel)
  exact ⟨c, messages, tools, k, reachable, requested, not_wellFormed_of_reply (by rw [roles]; rfl)⟩

end Requests

section Attentive

/-- The discipline of uninterrupted runs without compactions: they start on logs without
open calls, and users do not write while a call waits for its result. -/
def attentive (c : RunConfig) (a : RunAction) : Bool :=
  uncompacted c a && unkilled a &&
    match a with
    | .start => allAnswered c.state.session.events
    | .disturb (.say _) => c.program.isNone || allAnswered c.state.session.events
    | _ => true

theorem politelySaid_attentive : PolitelySaid fun c a => attentive c a = true := by
  intro w program content permitted
  simpa [attentive, uncompacted, unkilled] using permitted

/-- The invariant of such runs. -/
structure Attended (events : List Event) (phase : Phase) : Prop where
  unrecorded : latestCompaction events = none
  owing : phase ≠ .idle → phase ≠ .stopped → Owing events phase.openCalls

section Steps

variable {events : List Event} {e : Event} {phase : Phase}

theorem Attended.unrecorded_append (h : Attended events phase) (other : e.type ≠ .harnessEvent) :
    latestCompaction (events ++ [e]) = none := by
  refine latestCompaction_eq_none.mpr fun e' mem => ?_
  rcases List.mem_append.mp mem with old | new
  · exact latestCompaction_eq_none.mp h.unrecorded e' old
  · rw [List.mem_singleton.mp new, ← Bool.not_eq_true]
    exact fun record => other (type_of_record record)

theorem Attended.append (h : Attended events phase) (unrecorded : e.type ≠ .harnessEvent)
    (other : e.type ≠ .toolCall) : Attended (events ++ [e]) phase :=
  ⟨h.unrecorded_append unrecorded, fun running goesOn => (h.owing running goesOn).append other⟩

end Steps

theorem attended_turnInvariant : TurnInvariant rt agents sid (fun c a => attentive c a = true)
    fun w phase => Attended w.session.events phase where
  begun w _ _ h permitted := by
    have answered : allAnswered w.session.events = true := by
      simpa [attentive, uncompacted, unkilled] using permitted
    exact ⟨h.unrecorded, fun _ _ => owing_nil_iff.mpr answered⟩
  stopped _ _ _ h := ⟨h.unrecorded, fun other => absurd rfl other⟩
  appended w g id type payload phase fresh k sound logged h permitted emits := by
    obtain ⟨before, drawn, current⟩ := g
    cases emits with
    | seed owner carries nonempty first => exact h.append (by rintro ⟨⟩) (by rintro ⟨⟩)
    | compaction owner loaded planned => cases permitted
    | delta silent =>
        refine ⟨h.unrecorded_append (by rintro ⟨⟩), fun _ _ => ?_⟩
        exact (h.owing (by rintro ⟨⟩) (by rintro ⟨⟩)).append (by rintro ⟨⟩)
    | toolCall silent =>
        refine ⟨h.unrecorded_append (by rintro ⟨⟩), fun _ _ => ?_⟩
        exact (h.owing (by rintro ⟨⟩) (by rintro ⟨⟩)).append_call rfl
    | error silent =>
        refine ⟨h.unrecorded_append (by rintro ⟨⟩), fun _ other => ?_⟩
        exact absurd rfl other
    | closer spoken drained =>
        refine ⟨h.unrecorded_append (by rintro ⟨⟩), fun _ _ => ?_⟩
        rw [Phase.openCalls_afterCloser]
        exact (h.owing (by rintro ⟨⟩) (by rintro ⟨⟩)).append (by rintro ⟨⟩)
    | provisioned working => exact h.append (by rintro ⟨⟩) (by rintro ⟨⟩)
    | result working answers =>
        refine ⟨h.unrecorded_append (by rintro ⟨⟩), fun _ _ => ?_⟩
        have owing := h.owing (by rintro rfl; cases working) (by rintro rfl; cases working)
        rw [Phase.openCalls_of_toAnswer working] at owing
        rw [Phase.openCalls_afterResult]
        exact owing.append_result rfl rfl
  requested w stream messages tools k h _ :=
    ⟨h.unrecorded, fun _ _ => h.owing (by rintro ⟨⟩) (by rintro ⟨⟩)⟩
  said w program phase n content fresh _ h _ _ := h.append (by rintro ⟨⟩) (by rintro ⟨⟩)
  agrees w w' phase h same := by rwa [same.events]

variable {c : RunConfig} {messages : List Message} {tools : Option (List ToolDef)}
variable {k : Except Exn ModelStream → Harness Unit}

/-- The user messages of a log are the user messages of its context. -/
theorem userMessages_foldContext {events : List Event}
    (formed : ∀ e ∈ events, e.type = .userMessage → ∃ content, e.payload = userPayload content) :
    ∃ contents, List.Forall₂ Event.utters (events.filter (·.type = .userMessage)) contents ∧
      (foldContext events).filter (·.role = .user) =
        contents.map fun content => ⟨.user, .text content⟩ := by
  rw [← filter_openings (.inr rfl), openings_foldContext]
  induction events with
  | nil => exact ⟨[], .nil, rfl⟩
  | cons e events ih =>
      obtain ⟨contents, uttered, told⟩ := ih fun e' mem => formed e' (List.mem_cons_of_mem e mem)
      by_cases user : e.type = .userMessage
      · obtain ⟨content, payload⟩ := formed e List.mem_cons_self user
        refine ⟨content :: contents, ?_, ?_⟩
        · rw [List.filter_cons_of_pos (by simpa using user)]
          exact .cons ⟨user, payload⟩ uttered
        · have opens : openingMessage e = some ⟨.user, .text content⟩ := by
            rw [openingMessage, if_pos user, payload]
            rfl
          rw [opening, List.filterMap_cons_some opens, List.filter_cons_of_pos (by simp)]
          exact congrArg _ told
      · refine ⟨contents, ?_, ?_⟩
        · rwa [List.filter_cons_of_neg (by simpa using user)]
        · rw [opening, List.filterMap_cons]
          cases said : openingMessage e with
          | none => exact told
          | some m =>
              rw [openingMessage, if_neg user] at said
              rw [List.filter_cons_of_neg (by simp [role_promptMessage said])]
              exact told

/-- Where users wait for the results, rounds stay pairs and no message is lost. -/
theorem attentive_pairsRounds
    (reachable : (sessionSystem rt agents sid agentId).ReachableIf
      (fun c a => attentive c a = true) c)
    (requested : c.program = some (.op (.complete messages tools) k))
    (fits : c.state.lastRead.log.length ≤ 1000 ∨
      allAnswered (c.state.lastRead.log.take 1000) = true ∧
        ∀ e ∈ c.state.lastRead.log.drop 1000, e.type ≠ .userMessage) :
    PairsRounds messages ∧
    (∃ contents,
      List.Forall₂ Event.utters (c.state.lastRead.log.filter (·.type = .userMessage)) contents ∧
      messages.filter (·.role = .user) = contents.map fun content => ⟨.user, .text content⟩) ∧
    ∃ tail, c.state.session.events = c.state.lastRead.log ++ tail ∧
      ∀ e ∈ tail, e.type = .userMessage := by
  obtain ⟨g, watched, sound, attended⟩ := (@attended_turnInvariant rt agents sid).atRead
    (K := Attended) ⟨latestCompaction_eq_none.mpr (by simp), fun other => absurd rfl other⟩
    reachable
  obtain ⟨resting, current, _⟩ := watched.permits requested
  have attended := attended current
  rw [resting] at attended
  have unrecorded : latestCompaction (c.state.lastRead.log.take 1000) = none :=
    latestCompaction_eq_none.mpr fun e mem =>
      latestCompaction_eq_none.mp attended.unrecorded e (List.take_subset _ _ mem)
  have view : requestView c = c.state.lastRead.log.take 1000 :=
    applyCompactionView_of_no_record unrecorded
  have answered : allAnswered (requestView c) = true := by
    rw [view]
    rcases fits with short | ⟨answered, _⟩
    · rw [List.take_of_length_le short]
      exact owing_nil_iff.mp (attended.owing (by rintro ⟨⟩) (by rintro ⟨⟩))
    · exact answered
  have users : (c.state.lastRead.log.take 1000).filter (·.type = .userMessage) =
      c.state.lastRead.log.filter (·.type = .userMessage) := by
    have rest : (c.state.lastRead.log.drop 1000).filter (·.type = .userMessage) = [] := by
      refine List.filter_eq_nil_iff.mpr fun e mem => ?_
      rcases fits with short | ⟨_, none'⟩
      · rw [List.drop_of_length_le short] at mem
        cases mem
      · simpa using none' e mem
    conv_rhs => rw [← List.take_append_drop 1000 c.state.lastRead.log]
    rw [List.filter_append, rest, List.append_nil]
  refine ⟨?_, ?_, sound.since current⟩
  · obtain ⟨base, text, told, rfl⟩ :=
      request_told politelySaid_attentive reachable requested answered
    exact told.flush.paired.pairsRounds
  · obtain ⟨contents, uttered, same⟩ := @userMessages_foldContext
      (c.state.lastRead.log.take 1000) fun e mem user =>
        (sound.logged e (sound.readPast.subset (List.take_subset _ _ mem))).user user
    rw [users] at uttered
    refine ⟨contents, uttered, ?_⟩
    rw [requested_messages reachable requested, ← same]
    exact congrArg (fun view => (foldContext view).filter (·.role = .user)) view

/-- A message after the result of a call comes after the round. -/
theorem attentive_pairsRounds_later : ∃ (c : RunConfig) (messages : List Message)
    (tools : Option (List ToolDef)) (k : Except Exn ModelStream → Harness Unit),
    c.program = some (.op (.complete messages tools) k) ∧
    messages.map Message.role = [.user, .assistant, .tool, .user] ∧ PairsRounds messages := by
  obtain ⟨c, messages, tools, k, reachable, requested, roles, fits⟩ := request_of_runIf
    .spacious attentive
    (calledOnce ++ [.respond .done, .disturb (.say "wait"), .respond .done])
    [.user, .assistant, .tool, .user]
    (by decide +kernel)
  exact ⟨c, messages, tools, k, requested, roles,
    (attentive_pairsRounds reachable requested (.inl fits)).1⟩

/-- A message between a call and its result parts the round. -/
theorem message_parts_round : ∃ (c : RunConfig) (messages : List Message)
    (tools : Option (List ToolDef)) (k : Except Exn ModelStream → Harness Unit),
    (bareSystem .spacious none).ReachableIf
      (fun c a => uncompacted c a = true ∧ unkilled a = true) c ∧
    c.program = some (.op (.complete messages tools) k) ∧ ¬ PairsRounds messages := by
  obtain ⟨c, messages, tools, k, reachable, requested, roles, _⟩ := request_of_runIf
    .spacious (fun c a => uncompacted c a && unkilled a)
    (calledOnce ++ [.disturb (.say "wait"), .respond .done, .respond .done])
    [.user, .assistant, .user, .tool]
    (by decide +kernel)
  refine ⟨c, messages, tools, k, reachable.mono fun c a permitted => ?_, requested,
    not_pairsRounds_of_parted roles⟩
  exact Bool.and_eq_true_iff.mp permitted

end Attentive

end Tename
