import Tename.Harness.Calls
import Tename.Harness.Prompt
import Tename.Program.Evaluation

/-!
# What truncation keeps

A plan divides its view into what it keeps and what it drops. That the first user message of
a view is the first of the session, whatever records the log holds already, is an invariant
of the records: none drops it. So no compaction takes the user's turn away from a run.
-/

namespace Tename

/-- The first user message of some events. -/
def firstUserMessage (events : List Event) : Option Event :=
  events.find? (·.type = .userMessage)

/-- A decision divides a view, in log order. -/
structure CompactionDecision.Partitions (d : CompactionDecision) (active : List Event)
    (profile : Profile) : Prop where
  disjoint : ∀ n ∈ d.keptSequences, n ∉ d.droppedSequences
  kept_sublist : d.keptSequences.Sublist (active.map Event.sequence)
  dropped_sublist : d.droppedSequences.Sublist (active.map Event.sequence)
  covers : ∀ e ∈ active, e.sequence ∈ d.keptSequences ∨ e.sequence ∈ d.droppedSequences
  kept_iff : ∀ e ∈ active, e.sequence ∈ d.keptSequences ↔ isCompactionEvent e = true ∨
    firstUserMessage active = some e ∨
    e ∈ active.drop (active.length - min profile.context.keepLastNEvents active.length)
  drops : d.droppedSequences ≠ []

section Plan

variable {active : List Event} {profile : Profile} {d : CompactionDecision} {e : Event}

theorem planTruncate_kept (planned : planTruncate active profile = some d) :
    d.keptSequences = (planKept active profile).map Event.sequence := by
  unfold planTruncate at planned
  split at planned
  · cases planned
  · split at planned
    · cases planned
    · obtain rfl := Option.some.inj planned
      rfl

theorem filter_zipIdx_sublist (keeps : Event × Nat → Bool) :
    ((active.zipIdx.filter keeps).map Prod.fst).Sublist active := by
  have part := (List.filter_sublist (p := keeps) (l := active.zipIdx)).map Prod.fst
  rw [List.zipIdx_map_fst] at part
  exact part

/-- An event is found by its sequence. -/
theorem mem_map_sequence_iff (distinct : (active.map Event.sequence).Nodup) {part : List Event}
    (subset : part ⊆ active) (mem : e ∈ active) :
    e.sequence ∈ part.map Event.sequence ↔ e ∈ part := by
  constructor
  · intro listed
    obtain ⟨e', there, same⟩ := List.mem_map.mp listed
    obtain rfl := List.inj_on_of_nodup_map distinct (subset there) mem same
    exact there
  · exact List.mem_map_of_mem

theorem firstUserSequence_eq_iff (distinct : (active.map Event.sequence).Nodup) (mem : e ∈ active) :
    firstUserSequence active = some e.sequence ↔ firstUserMessage active = some e := by
  rw [firstUserSequence, firstUserMessage, Option.map_eq_some_iff]
  constructor
  · rintro ⟨u, found, same⟩
    obtain rfl := List.inj_on_of_nodup_map distinct (List.mem_of_find?_eq_some found) mem same
    exact found
  · exact fun found => ⟨e, found, rfl⟩

/-- The end of a list, by the indices. -/
theorem mem_drop_iff {n : Nat} : e ∈ active.drop n ↔ ∃ i, (e, i) ∈ active.zipIdx ∧ n ≤ i := by
  simp only [List.mem_zipIdx_iff_getElem?]
  rw [List.mem_iff_getElem?]
  simp only [List.getElem?_drop]
  constructor
  · rintro ⟨i, here⟩
    exact ⟨n + i, here, Nat.le_add_right n i⟩
  · rintro ⟨i, here, le⟩
    exact ⟨i - n, by rw [Nat.add_sub_cancel' le]; exact here⟩

variable (profile) in
theorem mem_planKept_iff (distinct : (active.map Event.sequence).Nodup) (mem : e ∈ active) :
    e ∈ planKept active profile ↔ isCompactionEvent e = true ∨ firstUserMessage active = some e ∨
      e ∈ active.drop (active.length - min profile.context.keepLastNEvents active.length) := by
  have start : active.length - min profile.context.keepLastNEvents active.length =
      active.length - profile.context.keepLastNEvents := by omega
  rw [mem_planKept, start, mem_drop_iff, ← firstUserSequence_eq_iff distinct mem]
  simp only [keepsIndex, Bool.or_eq_true, decide_eq_true_eq, or_assoc]
  constructor
  · rintro ⟨i, here, record | first | last⟩
    · exact .inl record
    · exact .inr (.inl first)
    · exact .inr (.inr ⟨i, here, last⟩)
  · obtain ⟨i, here⟩ := List.mem_iff_getElem?.mp mem
    have here : (e, i) ∈ active.zipIdx := List.mem_zipIdx_iff_getElem?.mpr here
    rintro (record | first | ⟨j, there, last⟩)
    · exact ⟨i, here, .inl record⟩
    · exact ⟨i, here, .inr (.inl first)⟩
    · exact ⟨j, there, .inr (.inr last)⟩

/-- What a plan keeps and drops divides the view it is made on. -/
theorem planTruncate_partitions (distinct : (active.map Event.sequence).Nodup)
    (planned : planTruncate active profile = some d) : d.Partitions active profile := by
  obtain ⟨drops, some'⟩ := planTruncate_eq_some planned
  have keeps := planTruncate_kept planned
  have kept : planKept active profile = _ := planKept_eq_filter distinct
  have subset : planKept active profile ⊆ active := fun _ => planKept_subset
  refine ⟨fun n keep drop => ?_, ?_, ?_, fun e mem => ?_, fun e mem => ?_, ?_⟩
  · rw [keeps, kept] at keep
    obtain ⟨e, mem, rfl⟩ := List.mem_map.mp keep
    rw [drops] at drop
    exact of_decide_eq_true (List.mem_filter.mp mem).2 drop
  · rw [keeps]
    exact (filter_zipIdx_sublist _).map _
  · rw [drops]
    exact (filter_zipIdx_sublist _).map _
  · rw [keeps, drops, mem_map_sequence_iff distinct subset mem, kept]
    by_cases dropped : e.sequence ∈ (planDropped active profile).map Event.sequence
    · exact .inr dropped
    · exact .inl (List.mem_filter.mpr ⟨mem, decide_eq_true dropped⟩)
  · rw [keeps, mem_map_sequence_iff distinct subset mem, mem_planKept_iff profile distinct mem]
  · rw [drops]
    exact fun none => some' (List.map_eq_nil_iff.mp none)

/-- The first event with a property is the first of any part it is in. -/
theorem find?_of_sublist {α : Type} {p : α → Bool} {part all : List α} {a : α}
    (sublist : part.Sublist all) (distinct : all.Nodup) (mem : a ∈ part)
    (first : all.find? p = some a) : part.find? p = some a := by
  induction sublist with
  | slnil => cases mem
  | @cons part all b sublist ih =>
      have other : b ≠ a := by
        rintro rfl
        exact (List.nodup_cons.mp distinct).1 (sublist.subset mem)
      rw [List.find?_cons] at first
      split at first
      · exact absurd (Option.some.inj first) other
      · exact ih (List.nodup_cons.mp distinct).2 mem first
  | @cons_cons part all b sublist ih =>
      rw [List.find?_cons] at first ⊢
      split
      · rename_i holds
        rw [holds] at first
        exact first
      · rename_i fails
        rw [fails] at first
        have rest := List.mem_of_find?_eq_some first
        have other : a ≠ b := by
          rintro rfl
          exact (List.nodup_cons.mp distinct).1 rest
        exact ih (List.nodup_cons.mp distinct).2 (List.mem_of_ne_of_mem other mem) first

end Plan

variable {rt : Runtime} {agents : AgentId → Option Agent} {sid : SessionId} {agentId : AgentId}

/-- What holds of the records of a log, and of the events before its first user message. -/
structure Anchored (sid : SessionId) (events : List Event) : Prop where
  records : ∀ r ∈ events, isCompactionEvent r = true → ∀ e ∈ events,
    (e.sequence : Int) ∈ droppedSequences r →
      isCompactionEvent e = false ∧ firstUserMessage events ≠ some e
  opened : ∀ before e after, events = before ++ e :: after →
    e.type = .userMessage ∨ e.id = .systemPrompt sid ∨ ∃ u ∈ before, u.type = .userMessage

section Logs

variable {events : List Event} {w : World} {g : Stage} {profile : Profile}
variable {decision : CompactionDecision}

theorem firstUserMessage_append (events : List Event) (e : Event) :
    firstUserMessage (events ++ [e]) =
      (firstUserMessage events).or (if e.type = .userMessage then some e else none) := by
  rw [firstUserMessage, List.find?_append, firstUserMessage]
  by_cases user : e.type = .userMessage <;> simp [user]

theorem firstUserMessage_eq_none : firstUserMessage events = none ↔
    ∀ e ∈ events, e.type ≠ .userMessage := by
  simp [firstUserMessage]

theorem exists_user_iff : (∃ u ∈ events, u.type = .userMessage) ↔
    ∃ u, firstUserMessage events = some u := by
  rw [← Option.ne_none_iff_exists', ne_eq, firstUserMessage_eq_none]
  simp

/-- One more event keeps the anchor, if it has one before it and drops neither it nor a record. -/
theorem Anchored.append {e : Event} (h : Anchored sid events)
    (refer : RecordsRefer (events ++ [e])) (newest : ∀ d ∈ events, d.sequence < e.sequence)
    (opens : e.type = .userMessage ∨ e.id = .systemPrompt sid ∨ ∃ u ∈ events, u.type = .userMessage)
    (spares : isCompactionEvent e = true → ∀ d ∈ events, (d.sequence : Int) ∈ droppedSequences e →
      isCompactionEvent d = false ∧ firstUserMessage events ≠ some d) :
    Anchored sid (events ++ [e]) where
  records r mem record d there dropped := by
    -- What a record drops is older than the record, so it is not the new event.
    have old : d ∈ events := by
      obtain ⟨d', -, earlier, same⟩ := refer.earlier r mem record _ dropped
      have older : d.sequence < e.sequence := by
        rcases List.mem_append.mp mem with before | new
        · have := newest r before
          omega
        · rw [List.mem_singleton.mp new] at earlier
          omega
      refine (List.mem_append.mp there).resolve_right fun new => ?_
      rw [List.mem_singleton.mp new] at older
      exact Nat.lt_irrefl _ older
    have spared : isCompactionEvent d = false ∧ firstUserMessage events ≠ some d := by
      rcases List.mem_append.mp mem with before | new
      · exact h.records r before record d old dropped
      · obtain rfl := List.mem_singleton.mp new
        exact spares record d old dropped
    refine ⟨spared.1, fun first => ?_⟩
    rw [firstUserMessage_append] at first
    cases found : firstUserMessage events with
    | some u =>
        rw [found] at first
        exact spared.2 (found.trans first)
    | none =>
        rw [found, Option.none_or] at first
        split at first
        · obtain rfl := Option.some.inj first
          exact Nat.lt_irrefl _ (newest _ old)
        · cases first
  opened before d after same := by
    rcases List.eq_nil_or_concat' after with rfl | ⟨after, last, rfl⟩
    · obtain ⟨rfl, rfl⟩ := List.append_singleton_inj.mp same
      exact opens
    · rw [← List.cons_append, ← List.append_assoc] at same
      obtain ⟨rfl, rfl⟩ := List.append_singleton_inj.mp same
      exact h.opened before d after rfl

theorem Anchored.nil (sid : SessionId) : Anchored sid [] where
  records := by simp
  opened before e after same := by
    rcases before with _ | ⟨b, before⟩ <;> cases same

/-- The first events of a log have the anchor of the log, if they hold a user message. -/
theorem firstUserMessage_of_begins {first : List Event} (begins : first <+: events)
    (user : ∃ u ∈ first, u.type = .userMessage) :
    firstUserMessage first = firstUserMessage events := by
  obtain ⟨rest, rfl⟩ := begins
  obtain ⟨u, found⟩ := exists_user_iff.mp user
  rw [firstUserMessage, firstUserMessage] at *
  rw [List.find?_append, found, Option.some_or]

/-- The view of a page shows the session's first user message, if the page holds one. -/
theorem Anchored.shown (h : Anchored sid w.session.events) {page : List Event}
    (begins : page <+: w.session.events) (user : ∃ u ∈ page, u.type = .userMessage) :
    ∃ u, firstUserMessage w.session.events = some u ∧
      firstUserMessage (applyCompactionView page) = some u := by
  obtain ⟨u, first⟩ := exists_user_iff.mp user
  have inLog : firstUserMessage w.session.events = some u :=
    (firstUserMessage_of_begins begins user).symm.trans first
  have mem : u ∈ page := List.mem_of_find?_eq_some first
  refine ⟨u, inLog, find?_of_sublist applyCompactionView_sublist
    (w.session.events_nodup.sublist begins.sublist) ?_ first⟩
  refine mem_applyCompactionView.mpr ⟨mem, fun hidden => ?_⟩
  cases latest : latestCompaction page with
  | none => simp [hiddenSequences, latest] at hidden
  | some r =>
      obtain ⟨logged, record⟩ := latestCompaction_mem latest
      refine (h.records r (begins.subset logged) record u (begins.subset mem) ?_).2 inLog
      simpa [hiddenSequences, latest] using hidden

/-- Before the first user message there is nothing but the system prompt. -/
theorem Anchored.short (h : Anchored sid w.session.events) {page : List Event}
    (begins : page <+: w.session.events) (silent : ∀ e ∈ page, e.type ≠ .userMessage) :
    page.length ≤ 1 := by
  have prompt : ∀ e ∈ page, e.id = .systemPrompt sid := by
    intro e mem
    obtain ⟨before, after, rfl⟩ := List.append_of_mem mem
    obtain ⟨rest, same⟩ := begins
    rcases h.opened before e (after ++ rest) (by simp [← same]) with
      user | prompt | ⟨u, there, user⟩
    · exact absurd user (silent e mem)
    · exact prompt
    · exact absurd user (silent u (List.mem_append_left _ there))
  match page, begins, prompt with
  | [], _, _ => exact Nat.zero_le 1
  | [_], _, _ => exact Nat.le_refl 1
  | a :: b :: rest, begins, prompt =>
      have distinct := w.session.distinct.sublist (begins.sublist.map _)
      rw [List.map_cons, List.nodup_cons] at distinct
      refine absurd ?_ distinct.1
      rw [prompt a (by simp), ← prompt b (by simp)]
      exact List.mem_map_of_mem (List.mem_cons_self)

/-- So there is nothing to drop either. -/
theorem Anchored.planned (h : Anchored sid w.session.events) {page : List Event}
    (begins : page <+: w.session.events)
    (planned : planTruncate (applyCompactionView page) profile = some decision) :
    ∃ u ∈ page, u.type = .userMessage := by
  by_contra silent
  have short := h.short begins fun e mem user => silent ⟨e, mem, user⟩
  rw [planTruncate_of_fits] at planned
  · cases planned
  · have view : (applyCompactionView page).length ≤ page.length :=
      applyCompactionView_sublist.length_le
    have positive := profile.context.keepLastNEvents_pos
    omega

end Logs

section Runs

variable {c : RunConfig}

/-- A user message is there, or nothing has been asked of the model. -/
def Addressed (events : List Event) (phase : Phase) : Prop :=
  (∃ u ∈ events, u.type = .userMessage) ∨ phase = .idle ∨ phase = .resting

/-- A request is made only where a user message has been read. -/
def RequestsUser (c : RunConfig) (_ : RunAction) : Prop :=
  ∀ messages tools k, c.program = some (.op (.complete messages tools) k) →
    ∃ u ∈ c.state.session.events, u.type = .userMessage

theorem Sound.page_prefix {w : World} {g : Stage} (sound : Sound rt agents sid w g) :
    w.lastRead.page <+: w.session.events := by
  rw [sound.page]
  exact (List.take_prefix _ _).trans sound.readPast

/-- The user's turns of a context are its user messages with a text. -/
theorem any_user_foldContext (events : List Event) :
    (foldContext events).any (·.role = .user) = true ↔ ∃ e ∈ events, e.type = .userMessage ∧
      (e.payload.getD "content" (.str "")).str?.isSome = true := by
  have users : (foldContext events).filter (·.role = .user) =
      (opening events).filter (·.role = .user) := by
    rw [← openings_foldContext, filter_openings (.inr rfl)]
  have same : (foldContext events).any (·.role = .user) =
      (opening events).any (·.role = .user) := by
    have both := congrArg (·.any (·.role = .user)) users
    simpa only [List.any_filter, Bool.and_self] using both
  rw [same, opening, List.any_filterMap, List.any_eq_true]
  refine exists_congr fun e => and_congr_right fun _ => ?_
  unfold openingMessage
  by_cases user : e.type = .userMessage
  · rw [if_pos user]
    cases (e.payload.getD "content" (.str "")).str? <;> simp [user]
  · rw [if_neg user]
    have system : ∀ m, promptMessage e = some m → m.role = .system := by
      intro m prompt
      rw [promptMessage] at prompt
      split at prompt
      · obtain ⟨content, -, rfl⟩ := Option.map_eq_some_iff.mp prompt
        rfl
      · cases prompt
    cases prompt : promptMessage e with
    | none => simp [user]
    | some m => simp [user, system m prompt]

/-- Whatever a run appends but the system prompt comes after a user message. -/
theorem addressed_of_emits {w : World} {g : Stage} {id : EventId} {type : EventType}
    {payload : Payload} {phase : Phase} (sound : Sound rt agents sid w g)
    (anchored : Anchored sid w.session.events) (addressed : Addressed w.session.events g.phase)
    (emits : EmitsIn rt agents sid w g id type payload phase) :
    (∃ u ∈ w.session.events, u.type = .userMessage) ∨
      id = .systemPrompt sid ∧ type = .systemEvent ∧ phase = .resting := by
  rcases addressed with user | waiting
  · exact .inl user
  · cases emits with
    | seed => exact .inr ⟨rfl, rfl, rfl⟩
    | compaction _ _ planned =>
        obtain ⟨u, mem, user⟩ := anchored.planned sound.page_prefix planned
        exact .inl ⟨u, sound.page_prefix.subset mem, user⟩
    | delta | toolCall | error | closer => rcases waiting with other | other <;> cases other
    | provisioned working =>
        refine absurd ?_ working
        rcases waiting with same | same <;> · cases same; rfl
    | result working =>
        rcases waiting with same | same <;> · cases same; cases working

theorem anchored_logInvariant : LogInvariant rt agents sid RequestsUser fun w phase =>
    RecordsRefer w.session.events ∧ Anchored sid w.session.events ∧
      Addressed w.session.events phase where
  begun _ _ h _ := ⟨h.1, h.2.1, h.2.2.imp_right fun _ => .inr rfl⟩
  stopped _ _ h := ⟨h.1, h.2.1, .inr (.inl rfl)⟩
  appended w g id type payload phase fresh k sound h permitted emits := by
    obtain ⟨refer, anchored, addressed⟩ := h
    have refer' := (recordsRefer_logInvariant RequestsUser).appended w g id type payload phase fresh
      k sound refer permitted emits
    have opens := addressed_of_emits sound anchored addressed emits
    refine ⟨refer', anchored.append refer' (fun d mem => ?_) ?_ fun record d mem dropped => ?_, ?_⟩
    · exact Nat.lt_succ_of_le (w.session.sequence_le mem)
    · exact .inr (opens.symm.imp_left And.left)
    · obtain rfl : type = .harnessEvent := type_of_record record
      obtain ⟨_, _, _, a, profile, decision, _, _, planned, rfl, rfl⟩ := emits.record
      rw [SessionState.nextEvent, droppedSequences_toPayload,
        (planTruncate_eq_some planned).1] at dropped
      simp only [List.mem_map] at dropped
      obtain ⟨_, ⟨d', victim, rfl⟩, same⟩ := dropped
      obtain rfl := w.session.eq_of_sequence (sound.dropped_subset victim) mem
        (Int.natCast_inj.mp same)
      refine ⟨not_record_of_dropped victim, fun first => ?_⟩
      have distinct : ((applyCompactionView w.lastRead.page).map Event.sequence).Nodup :=
        w.session.sequence_nodup.sublist
          ((applyCompactionView_sublist.trans sound.page_sublist).map _)
      have anchor := find?_of_sublist (applyCompactionView_sublist.trans sound.page_sublist)
        w.session.events_nodup (planDropped_subset victim) first
      have kept := (mem_planKept_iff profile distinct (planDropped_subset victim)).mpr
        (.inr (.inl anchor))
      exact sound.not_mem_planKept victim kept
    · rcases opens with ⟨u, there, user⟩ | ⟨-, -, rfl⟩
      · exact .inl ⟨u, List.mem_append_left _ there, user⟩
      · exact .inr (.inr rfl)
  replayed w g id type payload phase e k sound h permitted emits mem same := by
    refine ⟨h.1, h.2.1, ?_⟩
    exact (addressed_of_emits sound h.2.1 h.2.2 emits).imp_right fun seed => .inr seed.2.2
  requested w stream messages tools k h permitted := ⟨h.1, h.2.1, .inl (permitted _ _ _ rfl)⟩
  said w p phase n content fresh h _ _ := by
    have other : isCompactionEvent
        (w.session.nextEvent (.uuid4 n) .userMessage (userPayload content)) ≠ true :=
      fun record => by cases type_of_record record
    have refer := h.1.append fun record => absurd record other
    refine ⟨refer,
      h.2.1.append refer (fun d mem => ?_) (.inl rfl) fun record => absurd record other,
      .inl ⟨_, List.mem_append_right _ (List.mem_singleton_self _), rfl⟩⟩
    exact Nat.lt_succ_of_le (w.session.sequence_le mem)
  agrees w w' _ h same := by
    rw [same.events]
    exact h

theorem requestsUser_of_reachable {C : RunConfig → RunAction → Prop} (a : RunAction)
    (reachable : (sessionSystem rt agents sid agentId).ReachableIf C c) : RequestsUser c a := by
  intro messages tools k requested
  obtain ⟨g, watched, sound⟩ := sound_of_reachable reachable
  obtain ⟨-, -, built, asked⟩ := watched.permits requested
  rw [built, World.requestMessages, any_user_foldContext] at asked
  obtain ⟨e, mem, user, -⟩ := asked
  exact ⟨e, sound.page_subset (applyCompactionView_sublist.subset mem), user⟩

/-- The invariant of the records, in every reachable state. -/
theorem anchored_of_reachable {C : RunConfig → RunAction → Prop}
    (reachable : (sessionSystem rt agents sid agentId).ReachableIf C c) :
    ∃ g, Sound rt agents sid c.state g ∧ Anchored sid c.state.session.events := by
  have requests : (sessionSystem rt agents sid agentId).ReachableIf RequestsUser c :=
    reachable.strengthen fun _ before a => requestsUser_of_reachable a before
  obtain ⟨g, -, sound, -, anchored, -⟩ := anchored_logInvariant.reachable
    ⟨⟨by simp [World.create, SessionState.create], by simp [World.create, SessionState.create]⟩,
      .nil sid, .inr (.inl rfl)⟩ requests
  exact ⟨g, sound, anchored⟩

/-- A page with a user message has a user's turn in its view. -/
theorem any_user_of_page {C : RunConfig → RunAction → Prop} {e : Event}
    (reachable : (sessionSystem rt agents sid agentId).ReachableIf C c)
    (mem : e ∈ c.state.lastRead.page) (user : e.type = .userMessage) :
    c.state.requestMessages.any (·.role = .user) = true := by
  obtain ⟨g, sound, anchored⟩ := anchored_of_reachable reachable
  obtain ⟨u, -, first⟩ := anchored.shown sound.page_prefix ⟨e, mem, user⟩
  have shown : u ∈ applyCompactionView c.state.lastRead.page := List.mem_of_find?_eq_some first
  have isUser : u.type = .userMessage := by simpa using List.find?_some first
  rw [World.requestMessages, any_user_foldContext]
  refine ⟨u, shown, isUser, ?_⟩
  have logged := sound.page_subset (applyCompactionView_sublist.subset shown)
  obtain ⟨content, payload⟩ := (sound.logged u logged).user isUser
  rw [payload]
  rfl

/-- A log whose page has no user message has none. -/
theorem silent_of_page {g : Stage} {w : World} (sound : Sound rt agents sid w g)
    (anchored : Anchored sid w.session.events)
    (silent : ∀ e ∈ w.lastRead.page, e.type ≠ .userMessage) :
    ∀ e ∈ w.lastRead.log, e.type ≠ .userMessage := by
  have short := anchored.short sound.page_prefix silent
  have whole : w.lastRead.page = w.lastRead.log := by
    rw [sound.page, List.length_take] at short
    rw [sound.page, List.take_of_length_le (by omega)]
  rw [← whole]
  exact silent

section Stopping

variable {agent : Agent} {profile : Profile} {adapter : FrameworkAdapter} {startedAt : ℚ}
variable {w w' : World} {h : List (Process.Performed Op Op.Res Exn Answer)}

abbrev Runs (rt : Runtime) (agents : AgentId → Option Agent) (sid : SessionId) {α : Type}
    (p : Harness α) (w : World) (h : List (Process.Performed Op Op.Res Exn Answer))
    (out : Except Exn α) (w' : World) : Prop :=
  (runtimeProcess rt agents sid).Evaluates p w h out w'

/-- What the loop goes on with is the page it has read last. -/
theorem page_of_readPage {events : List Event}
    (ran : Runs rt agents sid Harness.readPage w h (.ok events) w') :
    w'.lastRead.page = events := by
  replace ran : (runtimeProcess rt agents sid).Evaluates (Program.perform Op.getEvents) w h
    (.ok events) w' := ran
  obtain ⟨w₁, answer, -, performed, -⟩ := Process.evaluates_perform.mp ran
  cases answer with
  | done =>
      have performed : some w₁.read = some (w', .ok events) := performed
      rw [World.read_eq] at performed
      cases performed
      rfl
  | raises e => cases performed
  | _ => cases performed

theorem page_of_readEvents {events : List Event}
    (ran : Runs rt agents sid (readEvents sid profile) w h (.ok events) w') :
    w'.lastRead.page = events := by
  obtain ⟨page, _, _, w₁, -, first, rest⟩ := Process.evaluates_bind_ok.mp ran
  split at rest
  · obtain ⟨_, _, _, w₂, -, -, second⟩ := Process.evaluates_bind_ok.mp rest
    exact page_of_readPage second
  · obtain ⟨-, same, rfl⟩ := Process.evaluates_pure.mp rest
    cases same
    exact page_of_readPage first

/-- The loop stops for lack of a user's turn where the view of the page has none. -/
theorem asked_of_noUserTurn {turns : Nat}
    (ran : Runs rt agents sid (runTurns rt sid agent profile adapter startedAt turns) w h
      (.ok .noUserTurn) w') :
    (adapter.buildContext (applyCompactionView w'.lastRead.page) profile).any (·.role = .user) =
      false := by
  induction turns generalizing w h with
  | zero =>
      obtain ⟨-, same, -⟩ := Process.evaluates_pure.mp ran
      cases same
  | succ turns ih =>
      obtain ⟨late, _, _, w₁, -, -, rest⟩ := Process.evaluates_bind_ok.mp ran
      split at rest
      · obtain ⟨-, same, -⟩ := Process.evaluates_pure.mp rest
        cases same
      · obtain ⟨events, _, _, w₂, -, reads, rest⟩ := Process.evaluates_bind_ok.mp rest
        have page := page_of_readEvents reads
        dsimp only at rest
        split at rest
        · rename_i unasked
          obtain ⟨-, -, rfl⟩ := Process.evaluates_pure.mp rest
          rw [page]
          exact unasked
        · obtain ⟨result, _, _, w₃, -, -, rest⟩ := Process.evaluates_bind_ok.mp rest
          split at rest
          · obtain ⟨-, same, -⟩ := Process.evaluates_pure.mp rest
            cases same
          · split at rest
            · obtain ⟨-, same, -⟩ := Process.evaluates_pure.mp rest
              cases same
            · obtain ⟨_, _, _, w₄, -, -, next⟩ := Process.evaluates_bind_ok.mp rest
              exact ih next

/-- What `run_session` does around its loop and after it. -/
def afterLoop (rt : Runtime) (loop : Harness StopReason) : Harness Unit := do
  let _ ← loop.tryFinally (destroySandboxes rt)
  let _ ← Harness.markComplete

theorem runSession_loop (rt : Runtime) (sid : SessionId) : runSession rt sid = (do
    let session ← Harness.wake
    let agent ← Harness.getAgent session.agentId
    let profile ← Program.settle (rt.loadProfile agent.model)
    let adapter ← Program.settle (rt.getAdapter agent.framework)
    seedSystemPromptIfNeeded sid agent
    let startedAt ← Harness.monotonic
    afterLoop rt
      (runTurns rt sid agent profile adapter startedAt profile.stopConditions.maxTurns)) := rfl

theorem context_afterLoop (rt : Runtime) :
    (Process.Context : (Harness StopReason → Harness Unit) → Prop) (afterLoop rt) := by
  intro o k
  rfl

/-- A run stops for lack of a user's turn only where the log it has read has no user message. -/
theorem silent_of_noUserTurn {turns : Nat}
    (reachable : (sessionSystem rt agents sid agentId).Reachable
      ⟨w, some (afterLoop rt (runTurns rt sid agent profile adapter startedAt turns))⟩)
    (registered : rt.getAdapter agent.framework = .ok adapter)
    (ran : Runs rt agents sid (runTurns rt sid agent profile adapter startedAt turns) w h
      (.ok .noUserTurn) w') : ∀ e ∈ w'.lastRead.log, e.type ≠ .userMessage := by
  have later : (sessionSystem rt agents sid agentId).Later
      ⟨w, some (afterLoop rt (runTurns rt sid agent profile adapter startedAt turns))⟩
      ⟨w', some (afterLoop rt (Program.settle (.ok .noUserTurn)))⟩ :=
    Process.Evaluates.later (K := afterLoop rt) (context_afterLoop rt) ran
  have stopped := reachable.extend later
  obtain ⟨g, sound, anchored⟩ := anchored_of_reachable stopped
  refine silent_of_page sound anchored fun e mem user => ?_
  have unasked := asked_of_noUserTurn ran
  rw [(standard_of_getAdapter registered).buildContext] at unasked
  have asked := any_user_of_page stopped mem user
  rw [World.requestMessages, unasked] at asked
  cases asked

end Stopping

/-- Each record divides the view it was planned on, and that view shows the session's first user
message; no record of a reachable log drops this message or a record, and a run stops for lack of
a user's turn only where it has read none. -/
theorem truncation_partitions (rt : Runtime) (agents : AgentId → Option Agent) (sid : SessionId)
    (agentId : AgentId) :
    (∀ c id payload k, (sessionSystem rt agents sid agentId).Reachable c →
      c.program = some (.op (.emitEvent id .harnessEvent payload) k) →
      ∃ agent profile, ∃ decision : CompactionDecision, ∃ u, agents agentId = some agent ∧
        rt.loadProfile agent.model = .ok profile ∧ payload = decision.toPayload ∧
        decision.Partitions (applyCompactionView c.state.lastRead.page) profile ∧
        firstUserMessage c.state.session.events = some u ∧
        firstUserMessage (applyCompactionView c.state.lastRead.page) = some u) ∧
    (∀ c, (sessionSystem rt agents sid agentId).Reachable c →
      ∀ r ∈ c.state.session.events, isCompactionEvent r = true →
        ∀ e ∈ c.state.session.events, (e.sequence : Int) ∈ droppedSequences r →
          isCompactionEvent e = false ∧ firstUserMessage c.state.session.events ≠ some e) ∧
    ∀ agent profile adapter startedAt turns w h w',
      (sessionSystem rt agents sid agentId).Reachable
        ⟨w, some (afterLoop rt (runTurns rt sid agent profile adapter startedAt turns))⟩ →
      rt.getAdapter agent.framework = .ok adapter →
      Runs rt agents sid (runTurns rt sid agent profile adapter startedAt turns) w h
        (.ok .noUserTurn) w' →
      ∀ e ∈ w'.lastRead.log, e.type ≠ .userMessage := by
  refine ⟨?_, ?_, ?_⟩
  · intro c id payload k reachable emitting
    obtain ⟨g, sound, anchored⟩ := anchored_of_reachable reachable
    obtain ⟨g', watched, -⟩ := sound_of_reachable reachable
    obtain ⟨phase, emits⟩ := watched.permits emitting
    obtain ⟨-, -, -, agent, profile, decision, owner, loaded, planned, rfl, rfl⟩ := emits.record
    rw [(row_of_reachable reachable).2] at owner
    obtain ⟨u, first, shown⟩ :=
      anchored.shown sound.page_prefix (anchored.planned sound.page_prefix planned)
    have distinct : ((applyCompactionView c.state.lastRead.page).map Event.sequence).Nodup :=
      c.state.session.sequence_nodup.sublist
        ((applyCompactionView_sublist.trans sound.page_sublist).map _)
    exact ⟨agent, profile, decision, u, owner, loaded, rfl,
      planTruncate_partitions distinct planned, first, shown⟩
  · intro c reachable
    obtain ⟨g, -, anchored⟩ := anchored_of_reachable reachable
    exact anchored.records
  · intro agent profile adapter startedAt turns w h w' reachable registered ran
    exact silent_of_noUserTurn reachable registered ran

end Runs

end Tename
