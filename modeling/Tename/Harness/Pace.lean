import Tename.Harness.Requests

/-!
# How far a run is ahead of its log

A run acts on the outside: it asks the model, and has tools run in the sandbox or by the proxy.
Whatever it has done it writes to the log before it acts again, so at no time is more than one
act of a run unknown to the log. Once the session is over nothing can be written any more, and
at most one act follows, however often the process is killed and started again.
-/

namespace Tename

variable {rt : Runtime} {agents : AgentId → Option Agent} {sid : SessionId} {agentId : AgentId}

/-- A model request, or the execution of a tool. -/
def Op.acts : Op → Bool
  | .complete .. | .sandboxExecute .. | .proxyExecute .. => true
  | _ => false

/-- The events that say what came of an act. -/
def EventType.paces : EventType → Bool
  | .assistantMessage | .toolCall | .toolResult | .error => true
  | _ => false

/-- Whether a run may act. -/
inductive Pace where
  /-- The session has not been woken yet. -/
  | asleep
  /-- The log knows of every act. -/
  | free
  /-- The latest act is not in the log, or no run is in progress. -/
  | spent
  deriving DecidableEq

/-- What an operation does to the pace. -/
def Op.pace (pace : Pace) (o : Op) (r : Except Exn o.Res) : Pace :=
  if o.acts then .spent
  else
    match o, r with
    | .wake, .ok _ => if pace = .asleep then .free else pace
    | .emitEvent _ type _, .ok _ => if type.paces then .free else pace
    | _, _ => pace

theorem Op.pace_free {o : Op} (r : Except Exn o.Res) (idle : o.acts = false) :
    o.pace .free r = .free := by
  unfold Op.pace
  rw [if_neg (by simp [idle])]
  cases o with
  | emitEvent id type payload =>
      cases r with
      | ok e => exact ite_self _
      | error e => rfl
  | _ => cases r <;> rfl

/-- How many acts may be missing from the log at the end of a run, at most. -/
def Pace.credit : Pace → Nat
  | .asleep | .free => 1
  | .spent => 0

/-- How many acts may follow once the session is over, at most. -/
def Pace.late : Pace → Nat
  | .free => 1
  | .asleep | .spent => 0

variable (rt agents sid) in
/-- Acts are permitted when the log knows of all before. -/
def paceMonitor : Monitor (runtimeProcess rt agents sid) Pace where
  permits _ pace o := o.acts = true → pace = .free
  moves _ pace o r _ pace' := pace' = o.pace pace r
  begun := .asleep
  stopped := .spent

section Programs

open Monitor (Ends OnReturn)

variable {α β : Type} {A : α → Pace → Prop} {B : β → Pace → Prop} {pace : Pace}

variable (rt agents sid) in
/-- The program acts at its pace, and returns with what `A` says. -/
def Paced (A : α → Pace → Prop) (p : Harness α) (pace : Pace) : Prop :=
  ∀ w, (paceMonitor rt agents sid).Safe (OnReturn fun a _ => A a) p w pace

namespace Paced

theorem pure {a : α} (holds : A a pace) : Paced rt agents sid A (.pure a) pace :=
  fun _ => holds

theorem throw {e : Exn} : Paced rt agents sid A (.throw e) pace :=
  fun _ => trivial

theorem mono {A' : α → Pace → Prop} {p : Harness α} (h : Paced rt agents sid A p pace)
    (weaken : ∀ a pace, A a pace → A' a pace) : Paced rt agents sid A' p pace := by
  refine fun w => (h w).mono fun r w pace ends => ?_
  cases r with
  | ok a => exact weaken a pace ends
  | error e => trivial

theorem bind {p : Harness α} {f : α → Harness β} (first : Paced rt agents sid A p pace)
    (second : ∀ a pace, A a pace → Paced rt agents sid B (f a) pace) :
    Paced rt agents sid B (p.bind f) pace :=
  fun w => (first w).seq fun a w pace holds => second a pace holds w

theorem settle {r : Except Exn α} (ok : ∀ a, r = .ok a → A a pace) :
    Paced rt agents sid A (Program.settle r) pace :=
  fun _ => Monitor.Safe.settle ok fun _ _ => trivial

/-- A handler may find the pace of an exception anywhere. -/
theorem attempt {p : Harness α} (h : Paced rt agents sid A p pace) :
    Paced rt agents sid (fun r pace => ∀ a, r = .ok a → A a pace) p.attempt pace := by
  refine fun w => Monitor.Safe.attempt ((h w).mono fun r w pace ends => ?_)
  rintro a rfl
  exact ends

theorem tryFinally {p : Harness α} {cleanup : Harness Unit} (body : Paced rt agents sid A p pace)
    (cleaned : ∀ pace, Paced rt agents sid (fun _ _ => True) cleanup pace) :
    Paced rt agents sid (fun _ _ => True) (p.tryFinally cleanup) pace := by
  refine fun w => Monitor.Safe.tryFinally (body w) fun r w pace _ => ?_
  refine (cleaned pace w).mono fun outcome w pace _ => ?_
  rcases outcome with e | u
  · trivial
  · cases r <;> trivial

theorem forEach {body : β → Harness Unit} {xs : List β} {J : Pace → Prop} (start : J pace)
    (step : ∀ x pace, J pace → Paced rt agents sid (fun _ => J) (body x) pace) :
    Paced rt agents sid (fun _ => J) (Program.forEach xs body) pace :=
  fun _ => Monitor.Safe.forEach (I := fun _ _ => J) (fun x _ w pace holds => step x pace holds w)
    xs start

theorem perform {o : Op} {A : o.Res → Pace → Prop} (permitted : o.acts = true → pace = .free)
    (next : ∀ a, A a (o.pace pace (.ok a))) : Paced rt agents sid A (Program.perform o) pace := by
  refine fun w => Monitor.Safe.perform (fun _ _ => permitted) fun _ _ _ r _ _ => ?_
  refine ⟨_, rfl, ?_⟩
  cases r with
  | ok a => exact next a
  | error e => trivial

/-- A program that does not act does not fall behind. -/
theorem idle {p : Harness α} (within : p.Within fun o => o.acts = false) :
    Paced rt agents sid (fun _ pace' => pace = .free → pace' = .free) p pace := by
  suffices idle : ∀ pace', (pace = .free → pace' = .free) →
      Paced rt agents sid (fun _ pace' => pace = .free → pace' = .free) p pace' from idle pace id
  induction p with
  | pure a => exact fun pace' kept _ => kept
  | throw e => exact fun pace' kept _ => trivial
  | op o k ih =>
      intro pace' kept w w' _
      refine ⟨fun acts => absurd (within.1.symm.trans acts) Bool.false_ne_true, ?_⟩
      intro answer w'' r _
      refine ⟨_, rfl, ih r (within.2 r) _ ?_ w''⟩
      intro free
      rw [kept free, Op.pace_free r within.1]

end Paced

theorem idle_overDuration (profile : Profile) (startedAt : ℚ) :
    (overDuration profile startedAt).Within fun o => o.acts = false := by
  unfold overDuration
  split
  · trivial
  · exact Program.Within.bind (Program.within_perform (o := Op.monotonic) rfl) fun _ => trivial

theorem idle_readEvents (profile : Profile) :
    (readEvents sid profile).Within fun o => o.acts = false := by
  refine Program.Within.bind (Program.within_perform (o := Op.getEvents) rfl) fun events => ?_
  split
  · refine Program.Within.bind ?_ fun _ => Program.within_perform (o := Op.getEvents) rfl
    unfold emitCompaction
    split
    · trivial
    · exact Program.Within.bind (Program.within_perform rfl) fun _ => trivial
  · trivial

theorem idle_seedSystemPromptIfNeeded (agent : Agent) :
    (seedSystemPromptIfNeeded sid agent).Within fun o => o.acts = false := by
  unfold seedSystemPromptIfNeeded
  split
  · trivial
  · split
    · trivial
    · exact Program.Within.bind (Program.within_perform rfl) fun _ => trivial

theorem idle_getOrProvisionSandbox (agent : Agent) :
    (getOrProvisionSandbox rt sid agent).Within fun o => o.acts = false := by
  have provision : (provisionSandbox rt sid agent).Within fun o => o.acts = false := by
    refine (Program.within_settle _).bind fun recipe => ?_
    refine Program.Within.bind (Program.within_perform (o := Op.sandboxProvision _) rfl)
      fun id => ?_
    refine Program.Within.bind (Program.within_perform (o := Op.addProvisioned _) rfl) fun _ => ?_
    exact Program.Within.bind (Program.within_perform rfl) fun _ => trivial
  refine Program.Within.bind (Program.within_perform (o := Op.getEvents) rfl) fun events => ?_
  split
  · exact provision
  · refine Program.Within.bind (Program.within_perform (o := Op.sandboxStatus _) rfl)
      fun status => ?_
    split
    · exact Program.Within.bind (Program.within_perform (o := Op.addProvisioned _) rfl)
        fun _ => trivial
    · exact provision

theorem idle_destroySandboxes : (destroySandboxes rt).Within fun o => o.acts = false := by
  unfold destroySandboxes
  split
  · trivial
  · refine Program.Within.bind (Program.within_perform (o := Op.provisionedIds) rfl) fun ids => ?_
    refine Program.Within.forEach fun id => ?_
    refine Program.Within.bind (Program.Within.attempt
      (Program.within_perform (o := Op.sandboxDestroy _) rfl)) fun r => ?_
    split
    · trivial
    · split <;> trivial

section Functions

variable {agent : Agent} {profile : Profile} {adapter : FrameworkAdapter}

/-- An emission. -/
theorem emitEvent_paced (id : EventId) (type : EventType) (payload : Payload) :
    Paced rt agents sid (fun _ pace' => pace' = if type.paces then .free else pace)
      (Harness.emitEvent id type payload) pace :=
  .perform (by rintro ⟨⟩) fun _ => rfl

/-- The events of a turn's calls are in the log. -/
def Noted (st : TurnState) (pace : Pace) : Prop :=
  st.toolCalls ≠ [] → pace = .free

theorem streamChunks_paced {failure : Option Exn} (chunks : List ModelChunk) (st : TurnState)
    (noted : Noted st pace) :
    Paced rt agents sid Noted (streamChunks adapter failure chunks st) pace := by
  induction chunks generalizing st pace with
  | nil =>
      cases failure with
      | none => exact .pure noted
      | some e => exact .throw
  | cons chunk chunks ih =>
      have kept {pace' : Pace} (later : Noted st pace') : Noted (st.note chunk) pace' := by
        rwa [Noted, note_toolCalls]
      rw [streamChunks]
      split
      · exact ih _ (kept noted)
      · rename_i pendingOf _
        refine Paced.bind (.idle (Program.within_perform (o := Op.uuid4) rfl))
          fun id pace' idle => ?_
        have drawn : Noted st pace' := fun some' => idle (noted some')
        refine Paced.bind (emitEvent_paced _ _ _) ?_
        rintro _ _ rfl
        split
        · rename_i call
          refine ih _ fun _ => ?_
          rw [call]
          rfl
        · have emitted : Noted st (if (pendingOf id).type.paces then .free else pace') := by
            intro some'
            split
            · rfl
            · exact drawn some'
          split
          · exact .pure (kept emitted)
          · exact ih _ (kept emitted)

theorem runTurn_paced (messages : List Message) (tools : List ToolDef) :
    Paced rt agents sid Noted (runTurn adapter messages tools) .free := by
  refine Paced.bind (A := fun _ _ => True) (.perform (fun _ => rfl) fun _ => trivial)
    fun stream pace _ => ?_
  refine Paced.bind (streamChunks_paced _ _ fun some' => absurd rfl some') fun st pace noted => ?_
  split
  · refine Paced.bind (.idle (Program.within_perform (o := Op.uuid4) rfl)) fun id pace' idle => ?_
    refine Paced.bind (emitEvent_paced _ _ _) ?_
    rintro _ _ rfl
    exact .pure fun _ => rfl
  · exact .pure noted

theorem toolPayload_paced (call : PendingEvent) :
    Paced rt agents sid (fun _ _ => True) (toolPayload rt sid agent call) .free := by
  unfold toolPayload
  dsimp only
  split
  · refine Paced.bind (Paced.attempt (.idle (idle_getOrProvisionSandbox agent)))
      fun r pace found => ?_
    split
    · split
      · exact .pure trivial
      · exact .throw
    · rename_i sandbox
      refine Paced.bind (Paced.attempt (.perform (A := fun _ _ => True)
        (fun _ => found sandbox rfl rfl) fun _ => trivial)) fun r pace _ => ?_
      split
      · split
        · exact .pure trivial
        · exact .throw
      · exact .pure trivial
  · split
    · exact Paced.bind (A := fun _ _ => True) (.perform (fun _ => rfl) fun _ => trivial)
        fun _ _ _ => .pure trivial
    · exact .pure trivial

theorem executeToolCalls_paced (calls : List PendingEvent) :
    Paced rt agents sid (fun _ pace => pace = .free) (executeToolCalls rt sid agent calls)
      .free := by
  refine Paced.forEach rfl ?_
  rintro call _ rfl
  refine Paced.bind (toolPayload_paced call) fun payload pace _ => ?_
  refine Paced.bind (emitEvent_paced _ _ _) ?_
  rintro _ _ rfl
  exact .pure rfl

theorem runTurns_paced (startedAt : ℚ) (turns : Nat) :
    Paced rt agents sid (fun _ _ => True)
      (runTurns rt sid agent profile adapter startedAt turns) .free := by
  induction turns with
  | zero => exact .pure trivial
  | succ turns ih =>
      rw [runTurns]
      refine Paced.bind (.idle (idle_overDuration profile startedAt)) fun late pace idle => ?_
      obtain rfl := idle rfl
      split
      · exact .pure trivial
      · refine Paced.bind (.idle (idle_readEvents profile)) fun events pace idle => ?_
        obtain rfl := idle rfl
        dsimp only
        split
        · exact .pure trivial
        · refine Paced.bind (runTurn_paced _ _) fun result pace noted => ?_
          split
          · exact .pure trivial
          · split
            · exact .pure trivial
            · rename_i some'
              obtain rfl := noted (by simpa using some')
              refine Paced.bind (executeToolCalls_paced _) ?_
              rintro _ _ rfl
              exact ih

theorem runSession_paced : Paced rt agents sid (fun _ _ => True) (runSession rt sid) .asleep := by
  refine Paced.bind (A := fun _ pace => pace = .free) (.perform (by rintro ⟨⟩) fun _ => rfl) ?_
  rintro session _ rfl
  refine Paced.bind (.idle (Program.within_perform (o := Op.getAgent _) rfl))
    fun agent pace idle => ?_
  obtain rfl := idle rfl
  refine Paced.bind (A := fun _ pace => pace = .free) (.settle fun _ _ => rfl) ?_
  rintro profile _ rfl
  refine Paced.bind (A := fun _ pace => pace = .free) (.settle fun _ _ => rfl) ?_
  rintro adapter _ rfl
  refine Paced.bind (.idle (idle_seedSystemPromptIfNeeded agent)) fun _ pace idle => ?_
  obtain rfl := idle rfl
  refine Paced.bind (.idle (Program.within_perform (o := Op.monotonic) rfl))
    fun startedAt pace idle => ?_
  obtain rfl := idle rfl
  refine Paced.bind (.tryFinally (runTurns_paced startedAt _) fun pace => ?_) fun _ pace _ => ?_
  · exact (Paced.idle idle_destroySandboxes).mono fun _ _ _ => trivial
  · exact Paced.bind (.idle (Program.within_perform (o := Op.markComplete) rfl))
      fun _ _ _ => .pure trivial

end Functions

end Programs

section Steps

/-- The step answers an act. -/
def actsAt (c : RunConfig) (a : RunAction) : Bool :=
  match a, c.program with
  | .respond _, some (.op o _) => o.acts
  | _, _ => false

/-- The number of events that say what came of an act. -/
def paced (events : List Event) : Nat :=
  events.countP (·.type.paces)

variable {w w' : World} {pace : Pace} {o : Op} {answer : Answer} {r : Except Exn o.Res}

/-- An event that says what came of an act is new to the log. -/
theorem fresh_of_paces {g : Stage} {id : EventId} {type : EventType} {payload : Payload}
    {phase : Phase} (sound : Sound rt agents sid w g)
    (logged : CallsLogged w.session.events g.phase.openCalls)
    (emits : EmitsIn rt agents sid w g id type payload phase) (paces : type.paces = true) :
    ∀ e ∈ w.session.events, e.id ≠ id := by
  obtain ⟨before, drawn, current⟩ := g
  cases emits with
  | seed | compaction | provisioned => cases paces
  | delta | toolCall | error | closer => exact (sound.fresh id rfl).2
  | result working answers =>
      rw [Phase.openCalls_of_toAnswer working] at logged
      exact logged.unanswered _ List.mem_cons_self

/-- What an emission of the runtime does: nothing, or it appends to an active session. -/
theorem emission_cases {id : EventId} {type : EventType} {payload : Payload}
    {out : Except Exn Event}
    (fresh : type.paces = true → ∀ e ∈ w.session.events, e.id ≠ id)
    (performed : w.perform agents (.emitEvent id type payload) answer = some (w', out)) :
    (w' = w ∧ (Op.emitEvent id type payload).pace pace out = pace) ∨
      (w.session.row.status = .active ∧ paced w'.session.events =
          paced w.session.events + type.paces.toNat ∧
        (Op.emitEvent id type payload).pace pace out = if type.paces then .free else pace) := by
  cases answer with
  | done =>
      have performed : some (w.emit id type payload) = some (w', out) := performed
      rcases w.emit_cases id type payload with ⟨e, h⟩ | ⟨e, mem, same, h⟩ | ⟨active, new, h⟩ <;>
        rw [h] at performed <;> cases performed
      · exact .inl ⟨rfl, rfl⟩
      · refine .inl ⟨rfl, ?_⟩
        have quiet : type.paces = false := by
          rw [← Bool.not_eq_true]
          exact fun paces => fresh paces e mem same
        change (if type.paces then Pace.free else pace) = pace
        rw [quiet]
        rfl
      · refine .inr ⟨active, ?_, rfl⟩
        refine List.countP_append.trans (congrArg _ ?_)
        cases paces : type.paces <;> simp [SessionState.nextEvent, paces]
  | raises e =>
      cases performed
      exact .inl ⟨rfl, rfl⟩
  | _ => cases performed

/-- An operation that is no emission adds nothing, and its pace is given back by acting alone. -/
theorem other_cases (permitted : o.acts = true → pace = .free)
    (other : ∀ id type payload, o ≠ .emitEvent id type payload)
    (performed : w.perform agents o answer = some (w', r)) :
    paced w'.session.events = paced w.session.events ∧
      (o.acts = true ∧ pace = .free ∧ o.pace pace r = .spent ∨
        o.acts = false ∧ (o.pace pace r = pace ∨
          o = .wake ∧ r.isOk = true ∧ pace = .asleep ∧ o.pace pace r = .free)) := by
  constructor
  · rcases World.perform_appends performed with same | ⟨id, type, payload, emits, -⟩
    · rw [same]
    · exact absurd emits (other id type payload)
  · cases acts : o.acts with
    | true => exact .inl ⟨rfl, permitted acts, if_pos acts⟩
    | false =>
        refine .inr ⟨rfl, ?_⟩
        cases o with
        | emitEvent id type payload => exact absurd rfl (other id type payload)
        | complete => cases acts
        | sandboxExecute => cases acts
        | proxyExecute => cases acts
        | wake =>
            cases r with
            | error e => exact .inl rfl
            | ok session =>
                cases pace with
                | asleep => exact .inr ⟨rfl, rfl, rfl, rfl⟩
                | free => exact .inl rfl
                | spent => exact .inl rfl
        | _ => cases r <;> exact .inl rfl

/-- The session is over. -/
def World.Over (w : World) : Prop :=
  w.session.row.status ≠ .active

theorem World.Over.emit (closed : w.Over) (id : EventId) (type : EventType) (payload : Payload) :
    (w.emit id type payload).1.Over := by
  rcases w.emit_cases id type payload with ⟨e, h⟩ | ⟨e, -, -, h⟩ | ⟨active, -⟩
  · rwa [h]
  · rwa [h]
  · exact absurd active closed

theorem World.Over.markComplete (closed : w.Over) : w.session.markComplete.1 = w.session := by
  have terminal : w.session.isTerminal = true := Session.isTerminal_iff.mpr closed
  rw [SessionState.markComplete, if_pos terminal]

theorem World.Over.perform (closed : w.Over)
    (performed : w.perform agents o answer = some (w', r)) : w'.Over := by
  by_cases idle : o.idle = true
  · exact fun active => closed ((World.perform_grown performed idle).status.symm.trans active)
  · cases o with
    | emitEvent id type payload =>
        cases answer with
        | done =>
            have same : (w.emit id type payload).1 = w' :=
              congrArg Prod.fst (Option.some.inj performed)
            rw [← same]
            exact closed.emit id type payload
        | raises e =>
            cases performed
            exact closed
        | _ => cases performed
    | complete messages tools => cases answer <;> cases performed <;> exact closed
    | markComplete =>
        cases answer <;> cases performed
        · rw [Over, closed.markComplete]
          exact closed
        · exact closed
    | _ => exact absurd rfl idle

theorem World.Over.disturb {a : ClientAction} (closed : w.Over)
    (disturbed : w.disturb a = some w') : w'.Over := by
  cases a with
  | say content =>
      obtain rfl := Option.some.inj disturbed
      exact World.Over.emit (w := w.draw.1) closed w.draw.2 .userMessage (userPayload content)
  | complete =>
      obtain rfl := Option.some.inj disturbed
      rw [Over, closed.markComplete]
      exact closed

/-- A session that is over stays so. -/
theorem over_of_step {c c' : RunConfig} {a : RunAction} (closed : c.state.Over)
    (stepped : (sessionSystem rt agents sid agentId).step c a = some c') : c'.state.Over := by
  obtain ⟨w, program⟩ := c
  rcases Process.step_cases stepped with ⟨-, -, rfl⟩ |
    ⟨answer, o, k, w', r, -, rfl, performed, rfl⟩ | ⟨-, -, rfl⟩ | ⟨x, w', -, disturbed, rfl⟩
  · exact closed
  · exact closed.perform performed
  · exact closed
  · exact closed.disturb disturbed

/-- A session that is over is not woken. -/
theorem World.Over.not_woken {session : Session} (closed : w.Over)
    (performed : w.perform agents .wake answer = some (w', .ok session)) : False := by
  have refused : w.session.isTerminal = true := Session.isTerminal_iff.mpr closed
  cases answer with
  | done =>
      have woken : w.session.wake = .ok session := congrArg Prod.snd (Option.some.inj performed)
      rw [SessionState.wake, if_pos refused] at woken
      cases woken
  | raises e => cases performed
  | _ => cases performed

/-- Others write nothing that says what came of an act. -/
theorem paced_of_disturb {a : ClientAction} (disturbed : w.disturb a = some w') :
    paced w'.session.events = paced w.session.events := by
  rcases World.disturb_appends disturbed with same | ⟨id, content, grown⟩
  · rw [same]
  · rw [grown]
    exact List.countP_append.trans (Nat.add_zero _)

/-- One step: an act uses up the credit, and a new event of the log gives it back. -/
theorem pace_step {c c' : RunConfig} {a : RunAction}
    (reachable : (sessionSystem rt agents sid agentId).Reachable c)
    (watched : (paceMonitor rt agents sid).Watches c pace)
    (stepped : (sessionSystem rt agents sid agentId).step c a = some c') :
    ∃ pace', (paceMonitor rt agents sid).Watches c' pace' ∧
      (a ≠ .start → (actsAt c a).toNat + paced c.state.session.events + pace'.credit ≤
        paced c'.state.session.events + pace.credit) ∧
      (c.state.Over → (actsAt c a).toNat + pace'.late ≤ pace.late) := by
  obtain ⟨g, watches, sound, logged⟩ :=
    (callsLogged_logInvariant _).reachable callsLogged_create reachable
  obtain ⟨pace', watched', moved⟩ := watched.step (fun w => (runSession_paced w.boot).mono
    fun _ _ _ _ => trivial) stepped
  refine ⟨pace', watched', ?_⟩
  obtain ⟨w, program⟩ := c
  rcases moved with
    ⟨rfl, rfl, rfl⟩ | ⟨answer, o, k, w', r, rfl, running, performed, rfl, permitted, rfl⟩ |
    ⟨-, unanswered, rfl, rfl⟩ | ⟨x, w', rfl, disturbed, rfl, rfl⟩
  · exact ⟨fun later => absurd rfl later, fun _ => Nat.zero_le _⟩
  · obtain rfl : program = some (.op o k) := running
    change (_ → o.acts.toNat + _ + _ ≤ _) ∧ (_ → o.acts.toNat + _ ≤ _)
    by_cases emission : ∃ id type payload, o = .emitEvent id type payload
    · obtain ⟨id, type, payload, rfl⟩ := emission
      obtain ⟨phase, emits⟩ := watches.permits rfl
      rcases emission_cases (fresh_of_paces sound logged emits) performed with
        ⟨rfl, same⟩ | ⟨active, counted, moved⟩
      · rw [same]
        exact ⟨fun _ => by simp [Op.acts], fun _ => by simp [Op.acts]⟩
      · refine ⟨fun _ => ?_, fun closed => absurd active closed⟩
        rw [counted, moved]
        cases type.paces <;> simp [Op.acts, Pace.credit]
    · have other : ∀ id type payload, o ≠ .emitEvent id type payload :=
        fun id type payload same => emission ⟨id, type, payload, same⟩
      obtain ⟨counted, moved⟩ := other_cases permitted other performed
      rw [counted]
      rcases moved with ⟨acts, rfl, moved⟩ | ⟨quiet, moved | ⟨rfl, woken, rfl, moved⟩⟩
      · rw [acts, moved]
        refine ⟨fun _ => ?_, fun _ => Nat.le_refl _⟩
        simp only [Bool.toNat_true, Pace.credit]
        omega
      · rw [quiet, moved]
        exact ⟨fun _ => by simp, fun _ => by simp⟩
      · rw [quiet, moved]
        refine ⟨fun _ => by simp [Pace.credit], fun closed => ?_⟩
        cases r with
        | error e => cases woken
        | ok session => exact (World.Over.not_woken closed performed).elim
  · have quiet : actsAt ⟨w, program⟩ a = false := by
      cases a with
      | respond answer => exact absurd rfl (unanswered answer)
      | _ => rfl
    rw [quiet]
    exact ⟨fun _ => by simp [paceMonitor, Pace.credit], fun _ => by simp [paceMonitor, Pace.late]⟩
  · change (_ → 0 + paced _ + _ ≤ paced w'.session.events + _) ∧ (_ → 0 + _ ≤ _)
    rw [paced_of_disturb disturbed]
    exact ⟨fun _ => (Nat.zero_add _).symm ▸ Nat.le_refl _, fun _ => (Nat.zero_add _).le⟩

end Steps

theorem paceMonitor_watches {c : RunConfig}
    (reachable : (sessionSystem rt agents sid agentId).Reachable c) :
    ∃ pace, (paceMonitor rt agents sid).Watches c pace := by
  have always : (paceMonitor rt agents sid).Invariant (fun _ _ => True) fun _ _ => True :=
    ⟨fun _ _ _ => trivial, fun _ _ _ _ _ _ _ _ _ _ _ _ _ => trivial,
      fun _ _ _ _ _ _ _ _ => trivial, fun _ _ _ => trivial⟩
  obtain ⟨pace, watched, -⟩ := always.reachable
    (fun w => (runSession_paced w.boot).mono fun _ _ _ _ => trivial) (fun _ _ => trivial) reachable
  exact ⟨pace, watched⟩

/-- However a run goes, all of its acts but one have left an event in the log. -/
theorem acts_are_logged {c c' : RunConfig} {n : Nat}
    (reachable : (sessionSystem rt agents sid agentId).Reachable c)
    (counts : (sessionSystem rt agents sid agentId).Counts (fun _ a => a ≠ .start) actsAt c n c') :
    n + paced c.state.session.events ≤ paced c'.state.session.events + 1 := by
  obtain ⟨pace, watched⟩ := paceMonitor_watches reachable
  obtain ⟨-, pace', -, credit⟩ := counts.preserves (P := fun n u =>
    (sessionSystem rt agents sid agentId).Reachable u ∧ ∃ pace',
      (paceMonitor rt agents sid).Watches u pace' ∧
      n + paced c.state.session.events + pace'.credit ≤ paced u.state.session.events + pace.credit)
    ⟨reachable, pace, watched, by simp⟩ (by
      rintro n u a u' ⟨reachable, pace', watched, credit⟩ later stepped
      obtain ⟨pace'', watched', step, -⟩ := pace_step reachable watched stepped
      refine ⟨reachable.step trivial stepped, pace'', watched', ?_⟩
      have := step later
      omega)
  have : pace.credit ≤ 1 := by cases pace <;> decide
  omega

/-- The step starts no run. -/
def continues (_ : RunConfig) : RunAction → Bool
  | .start => false
  | _ => true

/-- Two requests and the result of the call between them. -/
theorem acts_are_logged_round : ∃ c c' : RunConfig,
    (bareSystem .spacious (some "Be brief.")).Counts (fun _ a => a ≠ .start) actsAt c 2 c' ∧
    paced c.state.session.events = 0 ∧ paced c'.state.session.events = 4 ∧
    2 + paced c.state.session.events ≤ paced c'.state.session.events + 1 := by
  obtain ⟨c, ran, rest⟩ := Option.bind_eq_some_iff.mp (show
    ((bareSystem .spacious (some "Be brief.")).run ⟨.create "s" "agent", none⟩
      (promptedRound.take 2)).bind (fun c =>
        ((bareSystem .spacious (some "Be brief.")).countIf continues actsAt 0 c
          (promptedRound.drop 2 ++ [.respond (.streams ⟨[.textDelta "b"], none⟩)])).map fun r =>
            (r.1, paced c.state.session.events, paced r.2.state.session.events)) = some (2, 0, 4)
      by decide +kernel)
  obtain ⟨⟨n, c'⟩, counted, told⟩ := Option.map_eq_some_iff.mp rest
  obtain ⟨rfl, before, after⟩ : n = 2 ∧ paced c.state.session.events = 0 ∧
      paced c'.state.session.events = 4 := by simpa using told
  have counts : (bareSystem .spacious (some "Be brief.")).Counts (fun _ a => a ≠ .start) actsAt
      c 2 c' :=
    Transition.System.counts_of_countIf .refl (by rintro u a holds rfl; cases holds) counted
  exact ⟨c, c', counts, before, after,
    acts_are_logged ⟨_, ⟨rfl, rfl⟩, Transition.System.later_of_run ran⟩ counts⟩

/-- Once the session is over, the runtime acts at most once more, however often it is killed and
started again. -/
theorem acts_once_over {c c' : RunConfig} {n : Nat}
    (reachable : (sessionSystem rt agents sid agentId).Reachable c)
    (closed : c.state.session.row.status ≠ .active)
    (counts : (sessionSystem rt agents sid agentId).Counts (fun _ _ => True) actsAt c n c') :
    n ≤ 1 := by
  obtain ⟨pace, watched⟩ := paceMonitor_watches reachable
  obtain ⟨-, -, pace', -, late⟩ := counts.preserves (P := fun n u =>
    (sessionSystem rt agents sid agentId).Reachable u ∧ u.state.Over ∧ ∃ pace',
      (paceMonitor rt agents sid).Watches u pace' ∧ n + pace'.late ≤ pace.late)
    ⟨reachable, closed, pace, watched, by simp⟩ (by
      rintro n u a u' ⟨reachable, closed, pace', watched, late⟩ - stepped
      obtain ⟨pace'', watched', -, step⟩ := pace_step reachable watched stepped
      refine ⟨reachable.step trivial stepped, over_of_step closed stepped, pace'', watched', ?_⟩
      have := step closed
      omega)
  have : pace.late ≤ 1 := by cases pace <;> decide
  omega

/-- A client completes the session before the model is asked; the run is then killed, and started
again. -/
theorem acts_once_over_asked : ∃ (c c' : RunConfig) (n : Nat),
    c.state.session.row.status = .completed ∧ 0 < n ∧
    (bareSystem .spacious (some "Be brief.")).Counts (fun _ _ => True) actsAt c n c' ∧ n ≤ 1 := by
  obtain ⟨c, ran, rest⟩ := Option.bind_eq_some_iff.mp (show
    ((bareSystem .spacious (some "Be brief.")).run ⟨.create "s" "agent", none⟩
      (promptedRound.take 7 ++ [.disturb .complete])).bind (fun c =>
        ((bareSystem .spacious (some "Be brief.")).countIf (fun _ _ => true) actsAt 0 c
          [.respond (.streams ⟨[.textDelta "b"], none⟩), .kill, .start,
            .respond .done]).map fun r =>
            (r.1, c.state.session.row.status)) = some (1, .completed)
      by decide +kernel)
  obtain ⟨⟨n, c'⟩, counted, told⟩ := Option.map_eq_some_iff.mp rest
  obtain ⟨rfl, completed⟩ : n = 1 ∧ c.state.session.row.status = .completed := by
    simpa using told
  have counts : (bareSystem .spacious (some "Be brief.")).Counts (fun _ _ => True) actsAt c 1 c' :=
    Transition.System.counts_of_countIf .refl (fun _ _ _ => trivial) counted
  exact ⟨c, c', 1, completed, Nat.one_pos, counts, acts_once_over
    ⟨_, ⟨rfl, rfl⟩, Transition.System.later_of_run ran⟩ (by rw [completed]; rintro ⟨⟩) counts⟩

end Tename
