import Mathlib.Data.List.Forall2
import Mathlib.Data.List.Perm.Subperm
import Tename.Harness.Folding

/-!
# What a request sees of the log

The loop means to rebuild its context from all events of the session. It reads
them with the default limit of a page, so it does so exactly as long as the log
fits the page.
-/

namespace Tename

variable {rt : Runtime} {agents : AgentId → Option Agent} {sid : SessionId} {agentId : AgentId}
variable {c : RunConfig} {messages : List Message} {tools : Option (List ToolDef)}
variable {k : Except Exn ModelStream → Harness Unit}

/-- A state invariant of every history of the session. -/
theorem sound_of_reachable {C : RunConfig → RunAction → Prop}
    (reachable : (sessionSystem rt agents sid agentId).ReachableIf C c) :
    ∃ g, (loopMonitor rt agents sid).Watches c g ∧ Sound rt agents sid c.state g :=
  (sound_loopInvariant C).reachable (sound_initial agentId) reachable

/-- A request is built from the page that was read last. -/
theorem requested_messages {C : RunConfig → RunAction → Prop}
    (reachable : (sessionSystem rt agents sid agentId).ReachableIf C c)
    (requested : c.program = some (.op (.complete messages tools) k)) :
    messages = foldContext (applyCompactionView (c.state.lastRead.log.take 1000)) := by
  obtain ⟨g, watched, sound⟩ := sound_of_reachable reachable
  obtain ⟨_, _, built, _⟩ := watched.permits requested
  rw [built, World.requestMessages, sound.page]

theorem log_nodup {g : Stage} {w : World} (sound : Sound rt agents sid w g) :
    w.lastRead.log.Nodup :=
  w.session.events_nodup.sublist sound.readPast.sublist

/-- Every event of the log at the latest read has been read, and the messages are
what the session's adapter builds from the active view of all of them. -/
structure SeesLog (rt : Runtime) (w : World) (messages : List Message) : Prop where
  read : ∀ e ∈ w.lastRead.log, e ∈ w.lastRead.page
  built : ∀ name adapter profile, rt.getAdapter name = .ok adapter →
    messages = adapter.buildContext (applyCompactionView w.lastRead.log) profile

/-- A request sees the entire log exactly when the log fits a page. -/
theorem request_sees_log_iff
    (reachable : (sessionSystem rt agents sid agentId).Reachable c)
    (requested : c.program = some (.op (.complete messages tools) k)) :
    SeesLog rt c.state messages ↔ c.state.lastRead.log.length ≤ 1000 := by
  obtain ⟨g, _, sound⟩ := sound_of_reachable reachable
  constructor
  · intro sees
    have covered : c.state.lastRead.log ⊆ c.state.lastRead.log.take 1000 :=
      fun e mem => sound.page ▸ sees.read e mem
    have length := (List.subperm_of_subset (log_nodup sound) covered).length_le
    rw [List.length_take] at length
    omega
  · intro fits
    have whole : c.state.lastRead.page = c.state.lastRead.log := by
      rw [sound.page, List.take_of_length_le fits]
    refine ⟨fun e mem => whole ▸ mem, fun name adapter profile got => ?_⟩
    rw [(standard_of_getAdapter got).buildContext, requested_messages reachable requested,
      List.take_of_length_le fits]

section Crowd

/-- Stop conditions with a bound on the duration, or none. -/
def StopConditions.within (maxDuration : Option Nat)
    (positive : ∀ d, maxDuration = some d → 0 < d) : StopConditions :=
  ⟨1, 50, maxDuration, Nat.le_refl 1, Nat.succ_pos 49, positive⟩

/-- A profile that truncates to `keepLastN` events from `threshold` tokens on. -/
def Profile.truncating (threshold keepLastN : Nat) (threshold_pos : 0 < threshold)
    (keepLastN_pos : 0 < keepLastN) : Profile where
  context := {
    maxTokens := threshold + 1
    effectiveBudget := threshold + 1
    compactionThreshold := some threshold
    keepLastNEvents := keepLastN
    maxTokens_pos := Nat.succ_pos threshold
    effectiveBudget_pos := Nat.succ_pos threshold
    compactionThreshold_pos := fun _ => pos_of_some threshold_pos
    keepLastNEvents_pos := keepLastN_pos }
  stopConditions := .within none fun d same => absurd same.symm (Option.some_ne_none d)
  budget_le := Nat.le_refl _
  threshold_lt := Nat.lt_succ_self _

/-- A runtime without a sandbox and a proxy. -/
def Runtime.bare (profile : Profile) : Runtime where
  sandbox := false
  toolProxy := false
  proxyToolNames := []
  loadProfile := fun _ => .ok profile
  builtinSchemas := fun _ => none
  proxySchemas := fun _ => none
  deepAgentsSchemas := fun _ => none
  validateRecipe := fun _ => .error (.validationError "no recipe")

/-- A vanilla agent without tools. -/
def Agent.plain (systemPrompt : Option String) : Agent :=
  ⟨"agent", "model", "vanilla", systemPrompt, [], none⟩

/-- The histories of a plain agent's session under a bare runtime. -/
abbrev bareSystem (profile : Profile) (systemPrompt : Option String) :
    Transition.System RunConfig RunAction :=
  sessionSystem (.bare profile) (fun _ => some (.plain systemPrompt)) "s" "agent"

/-- A short message of a client to an active session is appended. -/
theorem World.emit_message {w : World} {content : String} {g : Stage}
    (sound : Sound rt agents sid w g) (active : w.session.row.status = .active)
    (small : (userPayload content).byteLength ≤ maxPayloadBytes) :
    ∃ fresh, w.draw.1.emit w.draw.2 .userMessage (userPayload content) =
      (w.draw.1.append w.draw.2 .userMessage (userPayload content) fresh,
        .ok (w.session.nextEvent w.draw.2 .userMessage (userPayload content))) := by
  have fresh : ∀ e ∈ w.session.events, e.id ≠ w.draw.2 := fun e mem same =>
    Nat.lt_irrefl _ (sound.draws e mem _ same)
  refine ⟨fresh, ?_⟩
  have emitted := SessionState.emitEvent_of_fits .userMessage fresh active small
  exact congrArg (fun p => ({ w.draw.1 with session := p.1 }, p.2)) emitted

theorem World.disturb_say {w : World} {content : String} {g : Stage}
    (sound : Sound rt agents sid w g) (active : w.session.row.status = .active)
    (small : (userPayload content).byteLength ≤ maxPayloadBytes) :
    ∃ fresh, w.disturb (.say content) =
      some (w.draw.1.append w.draw.2 .userMessage (userPayload content) fresh) := by
  obtain ⟨fresh, emitted⟩ := World.emit_message sound active small
  exact ⟨fresh, congrArg (fun p : World × Except Exn Event => some p.1) emitted⟩

/-- The event is a client's message. -/
def Event.utters (e : Event) (content : String) : Prop :=
  e.type = .userMessage ∧ e.payload = userPayload content

/-- Any number of messages can be waiting when a run starts. -/
theorem crowd_reachable (content : String) (n : Nat)
    (small : (userPayload content).byteLength ≤ maxPayloadBytes) :
    ∃ w : World, (sessionSystem rt agents sid agentId).Reachable ⟨w, none⟩ ∧
      w.session.row.status = .active ∧ w.session.row.agentId = agentId ∧
      List.Forall₂ Event.utters w.session.events (List.replicate n content) := by
  induction n with
  | zero => exact ⟨.create sid agentId, .of_initial ⟨rfl, rfl⟩, rfl, rfl, .nil⟩
  | succ n ih =>
      obtain ⟨w, reachable, active, owned, users⟩ := ih
      obtain ⟨g, _, sound⟩ := sound_of_reachable reachable
      obtain ⟨fresh, said⟩ := World.disturb_say sound active small
      refine ⟨_, reachable.step trivial (sessionSystem_disturb none said), active, owned, ?_⟩
      rw [List.replicate_succ']
      exact List.rel_append users (.cons ⟨rfl, rfl⟩ .nil)

theorem applyCompactionView_of_users {events : List Event} {contents : List String}
    (users : List.Forall₂ Event.utters events contents) : applyCompactionView events = events := by
  refine applyCompactionView_of_no_record (latestCompaction_eq_none.mpr fun e mem => ?_)
  obtain ⟨i, at'⟩ := List.mem_iff_get.mp mem
  have said := users.get i.2 (users.length_eq ▸ i.2)
  simp only [List.get_eq_getElem] at said at'
  simp [isCompactionEvent, ← at', said.1]

/-- A window that holds everything drops nothing. -/
theorem planTruncate_of_fits {active : List Event} {profile : Profile}
    (fits : active.length ≤ profile.context.keepLastNEvents) :
    planTruncate active profile = none := by
  have kept : planDropped active profile = [] := by
    refine List.eq_nil_iff_forall_not_mem.mpr fun e mem => ?_
    obtain ⟨i, _, dropped⟩ := mem_planDropped.mp mem
    simp [keepsIndex, Nat.sub_eq_zero_of_le fits] at dropped
  simp [planTruncate, kept]

/-- A model request is pending, built after reading `log`. -/
def Requesting (log : List Event) (c : RunConfig) : Prop :=
  c.state.lastRead.log = log ∧
    ∃ messages tools k, c.program = some (.op (.complete messages tools) k)

/-- A profile under which every view is worth compacting and none is too long. -/
def Profile.roomy : Profile :=
  .truncating 1 1000 Nat.one_pos (Nat.succ_pos 999)

theorem shouldCompact_roomy (active : List Event) : shouldCompact active .roomy = true :=
  decide_eq_true (Nat.le_max_left _ _)

theorem emitCompaction_roomy {events : List Event} (fits : events.length ≤ 1000) :
    emitCompaction "s" events .roomy = .pure () := by
  have kept : planTruncate (applyCompactionView events) .roomy = none :=
    planTruncate_of_fits (applyCompactionView_sublist.length_le.trans fits)
  simp only [emitCompaction, kept]
  rfl

/-- What is left of a plain agent's run when its loop starts. -/
def plainTurns (rt : Runtime) (sid : SessionId) (profile : Profile) : Harness Unit :=
  ((runTurns rt sid (.plain none) profile (vanillaAdapter rt.builtinSchemas rt.proxySchemas) 0
    profile.stopConditions.maxTurns).tryFinally (destroySandboxes rt)).bind fun _ =>
      Harness.markComplete.bind fun _ => .pure ()

/-- A run of a plain agent gets to its loop. -/
theorem later_plainTurns {profile : Profile} {w : World}
    (loads : rt.loadProfile "model" = .ok profile) (active : w.session.row.status = .active) :
    (sessionSystem rt (fun _ => some (.plain none)) sid agentId).Later ⟨w, none⟩
      ⟨w.boot, some (plainTurns rt sid profile)⟩ := by
  have woken : w.boot.session.wake = .ok w.session.row := by
    simp [World.boot, SessionState.wake, SessionState.isTerminal, Session.isTerminal, active]
  refine Transition.System.Later.head (sessionSystem_start w) ?_
  change Transition.System.Later _ (⟨w.boot, some (.op .wake _)⟩ : RunConfig) _
  refine Transition.System.Later.head (sessionSystem_respond .done _
    (congrArg (fun r => some (w.boot, r)) woken)) ?_
  change Transition.System.Later _ (⟨w.boot, some (.op (.getAgent _) _)⟩ : RunConfig) _
  refine Transition.System.Later.head (sessionSystem_respond .done _ rfl) ?_
  change Transition.System.Later _ (⟨w.boot, some ((Program.settle (rt.loadProfile "model")).bind
    _)⟩ : RunConfig) _
  rw [loads]
  change Transition.System.Later _ (⟨w.boot, some (.op .monotonic _)⟩ : RunConfig) _
  refine Transition.System.Later.head (sessionSystem_respond (.reads 0) _ rfl) ?_
  exact .refl

/-- A run on waiting messages gets to its first request. -/
theorem leads_to_request {content : String} {w : World} {n : Nat}
    (active : w.session.row.status = .active)
    (users : List.Forall₂ Event.utters w.session.events (List.replicate (n + 1) content)) :
    (bareSystem .roomy none).Leads (Requesting w.session.events) ⟨w, none⟩ := by
  have read : ∀ w' : World, w'.session = w.session → w'.read =
      ({ w' with lastRead := ⟨w.session.events, w.session.events.take 1000⟩ },
        .ok (w.session.events.take 1000)) := by
    intro w' same
    rw [World.read_eq, same]
  refine .after (later_plainTurns rfl active) ?_
  change Transition.System.Leads _ _ (⟨w.boot, some (.op .getEvents _)⟩ : RunConfig)
  refine .step (sessionSystem_respond .done _ (congrArg some (read w.boot rfl))) ?_
  change Transition.System.Leads _ _ (⟨_, some (((Program.bind
    (ite (shouldCompact _ _ = true) _ _) _).attempt.bind _).bind _)⟩ : RunConfig)
  rw [if_pos (shouldCompact_roomy _), emitCompaction_roomy (List.length_take_le _ _)]
  change Transition.System.Leads _ _ (⟨_, some (.op .getEvents _)⟩ : RunConfig)
  refine .step (sessionSystem_respond .done _ (congrArg some (read _ rfl))) ?_
  change Transition.System.Leads _ _ (⟨_, some ((((ite ((foldContext (applyCompactionView
    (w.session.events.take 1000))).any _ = false) _ _ : Harness StopReason)).attempt.bind _).bind
      _)⟩ : RunConfig)
  rw [if_neg]
  · exact .here ⟨rfl, _, _, _, rfl⟩
  · rw [applyCompactionView_of_users (List.forall₂_take 1000 users),
      foldContext_users (List.forall₂_take 1000 users)]
    simp [List.replicate_succ]

/-- Of a thousand and one messages, the last is not in the request. -/
theorem request_misses_message : ∃ c messages tools k,
    (bareSystem .roomy none).Reachable c ∧ c.program = some (.op (.complete messages tools) k) ∧
    messages ≠ foldContext (applyCompactionView c.state.lastRead.log) := by
  obtain ⟨w, reachable, active, _, users⟩ := @crowd_reachable (.bare .roomy)
    (fun _ => some (.plain none)) "s" "agent" "hello" 1001 (by decide)
  obtain ⟨c, later, read, messages, tools, k, requested⟩ := leads_to_request active users
  have reachable' := reachable.extend later
  refine ⟨c, messages, tools, k, reachable', requested, fun same => ?_⟩
  have built := requested_messages reachable' requested
  rw [same, read, applyCompactionView_of_users users,
    applyCompactionView_of_users (List.forall₂_take 1000 users), foldContext_users users,
    foldContext_users (List.forall₂_take 1000 users)] at built
  have lengths := congrArg List.length built
  simp only [List.length_map, List.length_replicate, List.length_take] at lengths
  omega

/-- With a thousand messages, the request sees them all. -/
theorem request_sees_thousand : ∃ (c : RunConfig) (messages : List Message)
    (tools : Option (List ToolDef)) (k : _),
    c.state.lastRead.log.length = 1000 ∧
    c.program = some (.op (.complete messages tools) k) ∧
      SeesLog (.bare .roomy) c.state messages := by
  obtain ⟨w, reachable, active, _, users⟩ := @crowd_reachable (.bare .roomy)
    (fun _ => some (.plain none)) "s" "agent" "hello" 1000 (by decide)
  obtain ⟨c, later, read, messages, tools, k, requested⟩ := leads_to_request active users
  have length : c.state.lastRead.log.length = 1000 := by
    rw [read, users.length_eq, List.length_replicate]
  exact ⟨c, messages, tools, k, length, requested,
    (request_sees_log_iff (reachable.extend later) requested).mpr length.le⟩

end Crowd

end Tename
