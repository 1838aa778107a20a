import Tename.Harness.Simulation

/-!
# Induction over protocol runs

`LoopInvariant` is what a property of the log has to satisfy to hold in every
reachable state of a session: one case for each thing that can happen to the
log or to what the loop has read of it. Its adequacy rests on the safety of
`runSession`, so no case mentions the program.

`Sound` is the first instance: ids are fresh, the loop's page is the first
thousand events of the log it read, and every event of the log was put there by
a client or by a step of the protocol.
-/

namespace Tename

/-- The two states agree on the log and on what has been read of it. -/
structure World.SameLog (w w' : World) : Prop where
  events : w'.session.events = w.session.events
  id : w'.session.row.id = w.session.row.id
  agentId : w'.session.row.agentId = w.session.row.agentId
  draws : w'.draws = w.draws
  lastRead : w'.lastRead = w.lastRead
  streams : w'.streams = w.streams

theorem World.SameLog.refl (w : World) : w.SameLog w := ⟨rfl, rfl, rfl, rfl, rfl, rfl⟩

/-- `w` with one more event. -/
def World.append (w : World) (id : EventId) (type : EventType) (payload : Payload)
    (fresh : ∀ e ∈ w.session.events, e.id ≠ id) : World :=
  { w with session := w.session.append id type payload fresh }

/-- `w` after a read of the log. -/
def World.afterRead (w : World) : World :=
  { w with lastRead := ⟨w.session.events, w.session.events.take 1000⟩ }

/-- The payload of a client's message. -/
def userPayload (content : String) : Payload :=
  [("content", .str content)]

section Steps

variable {agents : AgentId → Option Agent} {w w' : World}

/-- What an emit can do: fail, return the stored event, or append. -/
theorem World.emit_cases (w : World) (id : EventId) (type : EventType) (payload : Payload) :
    (∃ e, w.emit id type payload = (w, .error e)) ∨
    (∃ e ∈ w.session.events, e.id = id ∧ w.emit id type payload = (w, .ok e)) ∨
    (w.session.row.status = .active ∧ ∃ fresh, w.emit id type payload =
      (w.append id type payload fresh, .ok (w.session.nextEvent id type payload))) := by
  unfold World.emit
  rcases w.session.emitEvent_cases id type payload with ⟨e, h⟩ | ⟨e, mem, same, h⟩ |
    ⟨active, fresh, h⟩ <;> rw [h]
  · exact .inl ⟨e, rfl⟩
  · exact .inr (.inl ⟨e, mem, same, rfl⟩)
  · exact .inr (.inr ⟨active, fresh, rfl⟩)

theorem World.markComplete_sameLog (w : World) :
    w.SameLog { w with session := w.session.markComplete.1 } := by
  unfold SessionState.markComplete
  split <;> exact ⟨rfl, rfl, rfl, rfl, rfl, rfl⟩

/-- The operations that leave the log and the reads alone. -/
theorem World.perform_sameLog {o : Op} {answer : Answer} {r : Except Exn o.Res}
    (h : w.perform agents o answer = some (w', r)) (other : o.quiet = true ∨ o = .markComplete) :
    w.SameLog w' := by
  cases o with
  | emitEvent id type payload => simp [Op.quiet] at other
  | getEvents => simp [Op.quiet] at other
  | uuid4 => simp [Op.quiet] at other
  | complete messages tools => simp [Op.quiet] at other
  | markComplete =>
      cases answer <;> cases h
      · exact w.markComplete_sameLog
      · exact .refl w
  | _ => cases answer <;> cases h <;> exact ⟨rfl, rfl, rfl, rfl, rfl, rfl⟩

/-- No operation takes anything from the log. -/
theorem World.perform_grows {o : Op} {answer : Answer} {r : Except Exn o.Res}
    (h : w.perform agents o answer = some (w', r)) : w.session.events <+: w'.session.events := by
  cases o with
  | emitEvent id type payload =>
      cases answer with
      | done =>
          have h : some (w.emit id type payload) = some (w', r) := h
          rcases w.emit_cases id type payload with ⟨e, h'⟩ | ⟨e, _, _, h'⟩ | ⟨_, fresh, h'⟩ <;>
            rw [h'] at h <;> cases h
          · exact List.prefix_refl _
          · exact List.prefix_refl _
          · exact List.prefix_append _ _
      | raises e => cases h; exact List.prefix_refl _
      | _ => cases h
  | getEvents =>
      cases answer with
      | done =>
          have h : some w.read = some (w', r) := h
          rw [World.read_eq] at h
          cases h
          exact List.prefix_refl _
      | raises e => cases h; exact List.prefix_refl _
      | _ => cases h
  | uuid4 => cases answer <;> cases h; exact List.prefix_refl _
  | complete messages tools => cases answer <;> cases h <;> exact List.prefix_refl _
  | _ =>
      have same := World.perform_sameLog h (by simp [Op.quiet])
      exact same.events ▸ List.prefix_refl _

end Steps

variable (rt : Runtime) (agents : AgentId → Option Agent) (sid : SessionId)

/-- A property that every step of the protocol keeps, among the steps that meet `C`. -/
structure LoopInvariant (C : RunConfig → RunAction → Prop) (I : World → Stage → Prop) : Prop where
  begun : ∀ w, I w ⟨.idle, none, false⟩ → C ⟨w, none⟩ .start →
    I w.boot ⟨.resting, none, false⟩
  stopped : ∀ w g, I w g → I w ⟨.idle, none, false⟩
  appended : ∀ w g id type payload phase fresh k, I w g →
    C ⟨w, some (.op (.emitEvent id type payload) k)⟩ (.respond .done) →
    EmitsIn rt agents sid w g id type payload phase → w.session.row.status = .active →
    I (w.append id type payload fresh) ⟨phase, none, false⟩
  replayed : ∀ w g id type payload phase e k, I w g →
    C ⟨w, some (.op (.emitEvent id type payload) k)⟩ (.respond .done) →
    EmitsIn rt agents sid w g id type payload phase → e ∈ w.session.events → e.id = id →
    I w ⟨phase, none, false⟩
  requested : ∀ w g stream messages tools k, I w g →
    C ⟨w, some (.op (.complete messages tools) k)⟩ (.respond (.streams stream)) →
    g.phase = .resting → g.current = true →
    I (w.hear stream) ⟨.streaming [] [] stream.chunks, none, false⟩
  read : ∀ w g, I w g → I w.afterRead ⟨g.phase, g.drawn, true⟩
  drew : ∀ w g, I w g → I w.draw.1 ⟨g.phase, some w.draw.2, g.current⟩
  said : ∀ w p g content fresh, I w g → (p = none → g = ⟨.idle, none, false⟩) →
    C ⟨w, p⟩ (.disturb (.say content)) →
    I (w.draw.1.append w.draw.2 .userMessage (userPayload content) fresh) g
  drawsOnly : ∀ w g, I w g → I w.draw.1 g
  same : ∀ w w' g, I w g → w.SameLog w' → I w' g

variable {rt agents sid} {C : RunConfig → RunAction → Prop} {I : World → Stage → Prop}

theorem LoopInvariant.emitted (h : LoopInvariant rt agents sid C I) {w w' : World} {g g' : Stage}
    {id : EventId} {type : EventType} {payload : Payload} {k : Except Exn Event → Harness Unit}
    {answer : Answer} {r : Except Exn Event} (holds : I w g)
    (permitted : C ⟨w, some (.op (.emitEvent id type payload) k)⟩ (.respond answer))
    (performed : w.perform agents (.emitEvent id type payload) answer = some (w', r))
    (moved : (loopMonitor rt agents sid).moves w g (.emitEvent id type payload) r w' g') :
    I w' g' := by
  cases answer with
  | done =>
      have performed : some (w.emit id type payload) = some (w', r) := performed
      rcases w.emit_cases id type payload with
        ⟨e, h'⟩ | ⟨e, mem, same, h'⟩ | ⟨active, fresh, h'⟩ <;>
        rw [h'] at performed <;> cases performed
      · obtain rfl : g' = g := moved
        exact holds
      · obtain ⟨phase, emits, rfl⟩ := moved
        exact h.replayed w g id type payload phase e k holds permitted emits mem same
      · obtain ⟨phase, emits, rfl⟩ := moved
        exact h.appended w g id type payload phase fresh k holds permitted emits active
  | raises e =>
      cases performed
      obtain rfl : g' = g := moved
      exact holds
  | _ => cases performed

theorem LoopInvariant.performed (h : LoopInvariant rt agents sid C I) {w w' : World}
    {g g' : Stage} {o : Op} {k : Except Exn o.Res → Harness Unit} {answer : Answer}
    {r : Except Exn o.Res} (holds : I w g)
    (permits : (loopMonitor rt agents sid).permits w g o)
    (permitted : C ⟨w, some (.op o k)⟩ (.respond answer))
    (performed : w.perform agents o answer = some (w', r))
    (moved : (loopMonitor rt agents sid).moves w g o r w' g') : I w' g' := by
  cases o with
  | emitEvent id type payload => exact h.emitted holds permitted performed moved
  | getEvents =>
      cases answer with
      | done =>
          have performed : some w.read = some (w', r) := performed
          rw [World.read_eq] at performed
          cases performed
          obtain rfl : g' = _ := moved
          exact h.read w g holds
      | raises e =>
          cases performed
          obtain rfl : g' = g := moved
          exact holds
      | _ => cases performed
  | uuid4 =>
      cases answer with
      | done =>
          cases performed
          obtain rfl : g' = _ := moved
          exact h.drew w g holds
      | _ => cases performed
  | complete messages tools =>
      cases answer with
      | streams stream =>
          cases performed
          obtain rfl : g' = _ := moved
          exact h.requested w g stream messages tools k holds permitted permits.1 permits.2.1
      | raises e =>
          cases performed
          obtain rfl : g' = g := moved
          exact holds
      | _ => cases performed
  | markComplete =>
      obtain rfl : g' = g := by cases r <;> exact moved
      exact h.same w w' _ holds (World.perform_sameLog performed (.inr rfl))
  | _ =>
      obtain rfl : g' = g := (moves_of_quiet rt agents sid rfl).mp moved
      exact h.same w w' _ holds (World.perform_sameLog performed (.inl rfl))

theorem LoopInvariant.disturbed (h : LoopInvariant rt agents sid C I) {c : RunConfig} {g : Stage}
    {a : ClientAction} {w' : World} (holds : I c.state g)
    (dead : c.program = none → g = ⟨.idle, none, false⟩) (permitted : C c (.disturb a))
    (stepped : c.state.disturb a = some w') : I w' g := by
  obtain ⟨w, p⟩ := c
  cases a with
  | say content =>
      obtain rfl := Option.some.inj stepped
      rcases w.draw.1.emit_cases w.draw.2 .userMessage (userPayload content) with
        ⟨e, h'⟩ | ⟨e, _, _, h'⟩ | ⟨_, fresh, h'⟩
      · exact (congrArg Prod.fst h').symm ▸ h.drawsOnly w g holds
      · exact (congrArg Prod.fst h').symm ▸ h.drawsOnly w g holds
      · exact (congrArg Prod.fst h').symm ▸ h.said w p g content fresh holds dead permitted
  | complete =>
      obtain rfl := Option.some.inj stepped
      exact h.same w _ g holds w.markComplete_sameLog

theorem LoopInvariant.monitorInvariant (h : LoopInvariant rt agents sid C I) :
    (loopMonitor rt agents sid).Invariant C I where
  begun w holds permitted := h.begun w holds permitted
  performed _ _ _ _ _ _ _ _ holds permits permitted performed moved :=
    h.performed holds permits permitted performed moved
  disturbed _ _ _ _ holds dead permitted stepped := h.disturbed holds dead permitted stepped
  stopped := h.stopped

/-- Adequacy: the property holds in every state a permitted history reaches. -/
theorem LoopInvariant.reachable (h : LoopInvariant rt agents sid C I) {agentId : AgentId}
    (initial : I (.create sid agentId) ⟨.idle, none, false⟩) {c : RunConfig}
    (reachable : (sessionSystem rt agents sid agentId).ReachableIf C c) :
    ∃ g, (loopMonitor rt agents sid).Watches c g ∧ I c.state g :=
  h.monitorInvariant.reachable (fun w => runSession_safe w.boot rfl)
    (by rintro _ rfl; exact initial) reachable

/-- How an event got into the log: by a client, or by a step of the protocol that
has no id but random ones in hand. -/
def Logged (rt : Runtime) (agent : Option Agent) (sid : SessionId) (id : EventId)
    (type : EventType) (payload : Payload) : Prop :=
  (∃ content n, id = .uuid4 n ∧ type = .userMessage ∧ payload = userPayload content) ∨
    ∃ page heard g phase, Emits rt sid agent page heard g id type payload phase ∧
      ∀ id', g.drawn = some id' → ∃ n, id' = .uuid4 n

/-- The part of every invariant that does not depend on the history's steps. -/
structure Sound (rt : Runtime) (agents : AgentId → Option Agent) (sid : SessionId) (w : World)
    (g : Stage) : Prop where
  page : w.lastRead.page = w.lastRead.log.take 1000
  readPast : w.lastRead.log <+: w.session.events
  draws : ∀ e ∈ w.session.events, ∀ n, e.id = .uuid4 n → n < w.draws
  drawn : ∀ id, g.drawn = some id → ∃ n < w.draws, id = .uuid4 n ∧
    ∀ e ∈ w.session.events, e.id ≠ id
  logged : ∀ e ∈ w.session.events,
    Logged rt (agents w.session.row.agentId) sid e.id e.type e.payload
  /-- While the run has emitted nothing since its latest read, only clients add to the log. -/
  since : g.current = true → ∃ tail, w.session.events = w.lastRead.log ++ tail ∧
    ∀ e ∈ tail, e.type = .userMessage

theorem Sound.sameLog {w w' : World} {g : Stage} (h : Sound rt agents sid w g)
    (same : w.SameLog w') : Sound rt agents sid w' g := by
  constructor
  · simpa only [same.lastRead] using h.page
  · simpa only [same.lastRead, same.events] using h.readPast
  · simpa only [same.events, same.draws] using h.draws
  · simpa only [same.events, same.draws] using h.drawn
  · simpa only [same.events, same.agentId] using h.logged
  · simpa only [same.events, same.lastRead] using h.since

/-- Appending an event whose random id has been drawn, under a stage with no id drawn
or with another one. -/
theorem Sound.append {w : World} {g : Stage} {id : EventId} {type : EventType}
    {payload : Payload} {fresh : ∀ e ∈ w.session.events, e.id ≠ id} {phase : Phase}
    {drawn : Option EventId} {current : Bool} (h : Sound rt agents sid w g)
    (known : ∀ n, id = .uuid4 n → n < w.draws)
    (kept : ∀ id', drawn = some id' → g.drawn = some id' ∧ id ≠ id')
    (logged : Logged rt (agents w.session.row.agentId) sid id type payload)
    (since : current = true → g.current = true ∧ type = .userMessage) :
    Sound rt agents sid (w.append id type payload fresh) ⟨phase, drawn, current⟩ where
  page := h.page
  readPast := h.readPast.trans (List.prefix_append _ _)
  draws e mem n same := by
    rcases List.mem_append.mp mem with old | new
    · exact h.draws e old n same
    · rw [List.mem_singleton.mp new] at same
      exact known n same
  drawn id' drawn' := by
    obtain ⟨before, other⟩ := kept id' drawn'
    obtain ⟨n, lt, same, unused⟩ := h.drawn id' before
    refine ⟨n, lt, same, fun e mem => ?_⟩
    rcases List.mem_append.mp mem with old | new
    · exact unused e old
    · rw [List.mem_singleton.mp new]
      exact other
  logged e mem := by
    rcases List.mem_append.mp mem with old | new
    · exact h.logged e old
    · rw [List.mem_singleton.mp new]
      exact logged
  since current' := by
    obtain ⟨before, said⟩ := since current'
    obtain ⟨tail, grown, clients⟩ := h.since before
    refine ⟨tail ++ [w.session.nextEvent id type payload], ?_, fun e mem => ?_⟩
    · change w.session.events ++ _ = w.lastRead.log ++ _
      rw [grown, List.append_assoc]
    · rcases List.mem_append.mp mem with old | new
      · exact clients e old
      · rw [List.mem_singleton.mp new]
        exact said

/-- Ids are drawn before they are emitted. -/
theorem Emits.drawn {agent : Option Agent} {page : List Event} {heard : List ModelStream}
    {g : Stage} {id : EventId} {type : EventType} {payload : Payload} {phase : Phase} {n : Nat}
    (h : Emits rt sid agent page heard g id type payload phase) (random : id = .uuid4 n) :
    g.drawn = some (.uuid4 n) := by
  subst random
  generalize same : EventId.uuid4 n = id at h
  cases h with
  | delta | toolCall | error | closer => rfl
  | seed | compaction | provisioned | result => cases same

theorem Sound.draw {w : World} {g : Stage} {current : Bool} {phase : Phase}
    {drawn : Option EventId} (h : Sound rt agents sid w g)
    (kept : drawn = g.drawn ∨ drawn = some w.draw.2) (same : current = g.current) :
    Sound rt agents sid w.draw.1 ⟨phase, drawn, current⟩ where
  page := h.page
  readPast := h.readPast
  draws e mem n same := Nat.lt_succ_of_lt (h.draws e mem n same)
  drawn id drawn' := by
    rcases kept with rfl | rfl
    · obtain ⟨n, lt, same, unused⟩ := h.drawn id drawn'
      exact ⟨n, Nat.lt_succ_of_lt lt, same, unused⟩
    · obtain rfl := Option.some.inj drawn'
      refine ⟨w.draws, Nat.lt_succ_self _, rfl, fun e mem same => ?_⟩
      exact Nat.lt_irrefl _ (h.draws e mem _ same)
  logged := h.logged
  since current' := h.since (same ▸ current')

/-- Nothing drawn and nothing read: the stage of a program point that has emitted. -/
theorem Sound.stale {w : World} {g : Stage} {phase : Phase} (h : Sound rt agents sid w g) :
    Sound rt agents sid w ⟨phase, none, false⟩ :=
  ⟨h.page, h.readPast, h.draws, by rintro id ⟨⟩, h.logged, by rintro ⟨⟩⟩

theorem sound_loopInvariant (C : RunConfig → RunAction → Prop) :
    LoopInvariant rt agents sid C (Sound rt agents sid) where
  begun w h _ := ⟨h.page, h.readPast, h.draws, h.drawn, h.logged, h.since⟩
  stopped w g h := h.stale
  appended w g id type payload phase fresh k h _ emits _ := by
    refine h.append (fun n random => ?_) (by rintro id' ⟨⟩)
      (.inr ⟨_, _, _, _, emits, fun id' drawn => ?_⟩) (by rintro ⟨⟩)
    · obtain ⟨m, lt, same, _⟩ := h.drawn _ (emits.drawn random)
      cases same
      exact lt
    · obtain ⟨n, _, same, _⟩ := h.drawn _ drawn
      exact ⟨n, same⟩
  replayed w g id type payload phase e k h _ _ _ _ := h.stale
  requested w g stream messages tools k h _ _ _ :=
    ⟨h.page, h.readPast, h.draws, by rintro id ⟨⟩, h.logged, by rintro ⟨⟩⟩
  read w g h := ⟨rfl, List.prefix_refl _, h.draws, h.drawn, h.logged,
    fun _ => ⟨[], by simp [World.afterRead], by simp⟩⟩
  drew w g h := h.draw (.inr rfl) rfl
  said w p g content fresh h _ _ := by
    have h' : Sound rt agents sid w.draw.1 g := h.draw (.inl rfl) rfl
    refine h'.append ?_ ?_ (.inl ⟨content, w.draws, rfl, rfl, rfl⟩) fun current => ⟨current, rfl⟩
    · rintro n ⟨⟩
      exact Nat.lt_succ_self _
    · rintro id drawn
      obtain ⟨n, lt, same, _⟩ := h.drawn id drawn
      refine ⟨drawn, ?_⟩
      rw [same]
      rintro ⟨⟩
      exact Nat.lt_irrefl _ lt
  drawsOnly w g h := h.draw (.inl rfl) rfl
  same w w' g h same := h.sameLog same

theorem sound_initial (agentId : AgentId) :
    Sound rt agents sid (.create sid agentId) ⟨.idle, none, false⟩ where
  page := rfl
  readPast := List.prefix_refl _
  draws := by simp [World.create, SessionState.create]
  drawn := by rintro id ⟨⟩
  logged := by simp [World.create, SessionState.create]
  since := by rintro ⟨⟩

/-- The two states agree on the log and on the streams of the run. -/
structure World.Agrees (w w' : World) : Prop where
  events : w'.session.events = w.session.events
  id : w'.session.row.id = w.session.row.id
  agentId : w'.session.row.agentId = w.session.row.agentId
  streams : w'.streams = w.streams

theorem World.SameLog.agrees {w w' : World} (same : w.SameLog w') : w.Agrees w' :=
  ⟨same.events, same.id, same.agentId, same.streams⟩

variable (rt agents sid)

/-- The rule for properties of the log and the phase, with `Sound` for free. -/
structure LogInvariant (C : RunConfig → RunAction → Prop) (I : World → Phase → Prop) : Prop where
  begun : ∀ w, Sound rt agents sid w ⟨.idle, none, false⟩ → I w .idle → C ⟨w, none⟩ .start →
    I w.boot .resting
  stopped : ∀ w phase, I w phase → I w .idle
  appended : ∀ w g id type payload phase fresh k, Sound rt agents sid w g → I w g.phase →
    C ⟨w, some (.op (.emitEvent id type payload) k)⟩ (.respond .done) →
    EmitsIn rt agents sid w g id type payload phase → I (w.append id type payload fresh) phase
  replayed : ∀ w g id type payload phase e k, Sound rt agents sid w g → I w g.phase →
    C ⟨w, some (.op (.emitEvent id type payload) k)⟩ (.respond .done) →
    EmitsIn rt agents sid w g id type payload phase → e ∈ w.session.events → e.id = id → I w phase
  requested : ∀ w stream messages tools k, I w .resting →
    C ⟨w, some (.op (.complete messages tools) k)⟩ (.respond (.streams stream)) →
    I (w.hear stream) (.streaming [] [] stream.chunks)
  said : ∀ w p phase n content fresh, I w phase → (p = none → phase = .idle) →
    C ⟨w, p⟩ (.disturb (.say content)) →
    I (w.append (.uuid4 n) .userMessage (userPayload content) fresh) phase
  agrees : ∀ w w' phase, I w phase → w.Agrees w' → I w' phase

variable {rt agents sid} {J : World → Phase → Prop}

theorem LogInvariant.loopInvariant (h : LogInvariant rt agents sid C J) :
    LoopInvariant rt agents sid C fun w g => Sound rt agents sid w g ∧ J w g.phase where
  begun w holds permitted := ⟨(sound_loopInvariant C).begun w holds.1 permitted,
    h.begun w holds.1 holds.2 permitted⟩
  stopped w g holds := ⟨(sound_loopInvariant C).stopped w g holds.1, h.stopped w _ holds.2⟩
  appended w g id type payload phase fresh k holds permitted emits active :=
    ⟨(sound_loopInvariant C).appended w g id type payload phase fresh k holds.1 permitted emits
      active, h.appended w g id type payload phase fresh k holds.1 holds.2 permitted emits⟩
  replayed w g id type payload phase e k holds permitted emits mem same :=
    ⟨(sound_loopInvariant C).replayed w g id type payload phase e k holds.1 permitted emits mem
      same, h.replayed w g id type payload phase e k holds.1 holds.2 permitted emits mem same⟩
  requested w g stream messages tools k holds permitted resting current :=
    ⟨(sound_loopInvariant C).requested w g stream messages tools k holds.1 permitted resting
      current, h.requested w stream messages tools k (resting ▸ holds.2) permitted⟩
  read w g holds := ⟨(sound_loopInvariant C).read w g holds.1,
    h.agrees w _ _ holds.2 ⟨rfl, rfl, rfl, rfl⟩⟩
  drew w g holds := ⟨(sound_loopInvariant C).drew w g holds.1,
    h.agrees w _ _ holds.2 ⟨rfl, rfl, rfl, rfl⟩⟩
  said w p g content fresh holds dead permitted :=
    ⟨(sound_loopInvariant C).said w p g content fresh holds.1 dead permitted,
      h.agrees (w.append w.draw.2 .userMessage (userPayload content) fresh) _ _
        (h.said w p g.phase w.draws content fresh holds.2 (fun none' => by rw [dead none'])
          permitted) ⟨rfl, rfl, rfl, rfl⟩⟩
  drawsOnly w g holds := ⟨(sound_loopInvariant C).drawsOnly w g holds.1,
    h.agrees w _ _ holds.2 ⟨rfl, rfl, rfl, rfl⟩⟩
  same w w' g holds same := ⟨(sound_loopInvariant C).same w w' g holds.1 same,
    h.agrees w w' _ holds.2 same.agrees⟩

/-- Adequacy of the rule for properties of the log. -/
theorem LogInvariant.reachable (h : LogInvariant rt agents sid C J) {agentId : AgentId}
    (initial : J (.create sid agentId) .idle) {c : RunConfig}
    (reachable : (sessionSystem rt agents sid agentId).ReachableIf C c) :
    ∃ g, (loopMonitor rt agents sid).Watches c g ∧ Sound rt agents sid c.state g ∧
      J c.state g.phase :=
  h.loopInvariant.reachable ⟨sound_initial agentId, initial⟩ reachable

end Tename
