import Tename.Harness.Paging

/-!
# Compaction records

A plan is made on the active view, and the record it leaves takes the place of
the previous one. So a record hides what its own plan dropped and shows again
whatever an earlier record had hidden: the view after a compaction is the plan's
only where nothing was hidden before.
-/

namespace Tename

variable {rt : Runtime} {agents : AgentId → Option Agent} {sid : SessionId} {agentId : AgentId}

/-- What the records of a log refer to: earlier events of the log, at least one each. -/
structure RecordsRefer (events : List Event) : Prop where
  earlier : ∀ r ∈ events, isCompactionEvent r = true → ∀ n ∈ droppedSequences r,
    ∃ e ∈ events, e.sequence < r.sequence ∧ n = (e.sequence : Int)
  some' : ∀ r ∈ events, isCompactionEvent r = true → droppedSequences r ≠ []

/-- What is known of an event that the protocol wrote as a record. -/
theorem Logged.record {agent : Option Agent} {id : EventId} {type : EventType} {payload : Payload}
    (h : Logged rt agent sid id type payload)
    (record : type = .harnessEvent ∨ ∃ s d, id = .compaction s d) :
    type = .harnessEvent ∧ ∃ d : CompactionDecision, payload = d.toPayload := by
  rcases h with ⟨content, n, rfl, rfl, _⟩ | ⟨page, heard, g, phase, emits, random⟩
  · rcases record with other | ⟨s, d, other⟩ <;> cases other
  · cases emits with
    | @compaction _ _ _ decision => exact ⟨rfl, decision, rfl⟩
    | seed => rcases record with other | ⟨s, d, other⟩ <;> cases other
    | provisioned => rcases record with other | ⟨s, d, other⟩ <;> cases other
    | result => rcases record with other | ⟨s, d, other⟩ <;> cases other
    | delta | toolCall | error | closer =>
        obtain ⟨n, rfl⟩ := random _ rfl
        rcases record with other | ⟨s, d, other⟩ <;> cases other

/-- The only events of the harness's own kind are records of plans on the page. -/
theorem Emits.record {agent : Option Agent} {page : List Event} {heard : List ModelStream}
    {g : Stage} {id : EventId} {payload : Payload} {phase : Phase}
    (h : Emits rt sid agent page heard g id .harnessEvent payload phase) :
    g.phase = .resting ∧ g.current = true ∧ phase = .resting ∧ ∃ a profile decision,
      agent = some a ∧ rt.loadProfile a.model = .ok profile ∧
      planTruncate (applyCompactionView page) profile = some decision ∧
      id = .compaction sid decision.droppedSequences ∧ payload = decision.toPayload := by
  cases h with
  | compaction owner loaded planned =>
      exact ⟨rfl, rfl, rfl, _, _, _, owner, loaded, planned, rfl, rfl⟩

theorem type_of_record {e : Event} (record : isCompactionEvent e = true) :
    e.type = .harnessEvent := by
  simp only [isCompactionEvent, decide_eq_true_eq] at record
  exact record.1

theorem RecordsRefer.append {events : List Event} {e : Event} (h : RecordsRefer events)
    (new : isCompactionEvent e = true → droppedSequences e ≠ [] ∧
      ∀ n ∈ droppedSequences e, ∃ d ∈ events, d.sequence < e.sequence ∧ n = (d.sequence : Int)) :
    RecordsRefer (events ++ [e]) where
  earlier r mem record n listed := by
    rcases List.mem_append.mp mem with old | last
    · obtain ⟨d, mem', earlier⟩ := h.earlier r old record n listed
      exact ⟨d, List.mem_append_left _ mem', earlier⟩
    · rw [List.mem_singleton.mp last] at record listed ⊢
      obtain ⟨d, mem', earlier⟩ := (new record).2 n listed
      exact ⟨d, List.mem_append_left _ mem', earlier⟩
  some' r mem record := by
    rcases List.mem_append.mp mem with old | last
    · exact h.some' r old record
    · rw [List.mem_singleton.mp last] at record ⊢
      exact (new record).1

/-- The page holds events of the log. -/
theorem Sound.page_subset {w : World} {g : Stage} (sound : Sound rt agents sid w g) :
    w.lastRead.page ⊆ w.session.events := by
  rw [sound.page]
  exact fun e mem => sound.readPast.subset (List.take_subset _ _ mem)

/-- The events a plan on the page drops are in the log. -/
theorem Sound.dropped_subset {w : World} {g : Stage} {profile : Profile}
    (sound : Sound rt agents sid w g) :
    planDropped (applyCompactionView w.lastRead.page) profile ⊆ w.session.events :=
  fun _ mem => sound.page_subset (applyCompactionView_sublist.subset (planDropped_subset mem))

theorem recordsRefer_logInvariant (C : RunConfig → RunAction → Prop) :
    LogInvariant rt agents sid C fun w _ => RecordsRefer w.session.events where
  begun _ _ h _ := h
  stopped _ _ h := h
  appended w g id type payload phase fresh k sound h _ emits := by
    refine h.append fun record => ?_
    obtain rfl : type = .harnessEvent := type_of_record record
    obtain ⟨_, _, _, a, profile, decision, _, _, planned, rfl, rfl⟩ := emits.record
    obtain ⟨drops, some'⟩ := planTruncate_eq_some planned
    simp only [SessionState.nextEvent, droppedSequences_toPayload, drops]
    refine ⟨by simpa only [ne_eq, List.map_eq_nil_iff] using some', fun n listed => ?_⟩
    simp only [List.mem_map] at listed
    obtain ⟨_, ⟨d, dropped, rfl⟩, rfl⟩ := listed
    have mem := sound.dropped_subset dropped
    exact ⟨d, mem, Nat.lt_succ_of_le (w.session.sequence_le mem), rfl⟩
  replayed _ _ _ _ _ _ _ _ _ h _ _ _ _ := h
  requested _ _ _ _ _ h _ := h
  said w p phase n content fresh h _ _ := h.append fun record => by
    cases type_of_record record
  agrees w w' _ h same := by rwa [same.events]

/-- What hides an event is in the log, and hides earlier events only. -/
theorem RecordsRefer.hidden {events : List Event} (h : RecordsRefer events) {n : Int}
    (hidden : n ∈ hiddenSequences events) : ∃ e ∈ events, n = (e.sequence : Int) := by
  unfold hiddenSequences at hidden
  cases latest : latestCompaction events with
  | none => simp [latest] at hidden
  | some r =>
      obtain ⟨mem, record⟩ := latestCompaction_mem latest
      obtain ⟨e, mem', _, same⟩ := h.earlier r mem record n (by simpa [latest] using hidden)
      exact ⟨e, mem', same⟩

/-- Nothing is hidden exactly as long as there is no record. -/
theorem RecordsRefer.view_eq_self_iff {events : List Event} (h : RecordsRefer events) :
    applyCompactionView events = events ↔ latestCompaction events = none := by
  refine ⟨fun whole => ?_, applyCompactionView_of_no_record⟩
  by_contra some'
  obtain ⟨r, latest⟩ := Option.ne_none_iff_exists'.mp some'
  obtain ⟨mem, record⟩ := latestCompaction_mem latest
  obtain ⟨n, listed⟩ := List.exists_mem_of_ne_nil _ (h.some' r mem record)
  obtain ⟨e, mem', _, rfl⟩ := h.earlier r mem record n listed
  rw [← whole, mem_applyCompactionView] at mem'
  exact mem'.2 (by simpa [hiddenSequences, latest] using listed)

theorem latestCompaction_append_clients {events tail : List Event}
    (clients : ∀ e ∈ tail, e.type = .userMessage) :
    latestCompaction (events ++ tail) = latestCompaction events := by
  have none' : latestCompaction tail = none := latestCompaction_eq_none.mpr fun e mem => by
    simp [isCompactionEvent, clients e mem]
  rw [latestCompaction_append, none', Option.none_or]

/-- The state of a compaction that hides nothing an earlier one has hidden, and
whose record lands on the page. -/
structure FirstCompaction (w : World) : Prop where
  current : w.lastRead.log = w.session.events
  fits : w.session.events.length < 1000
  unhidden : applyCompactionView w.session.events = w.session.events

section Exact

variable {w w' : World} {g : Stage} {profile : Profile} {decision : CompactionDecision} {e : Event}

/-- A first compaction drops what its plan drops, and only that. -/
theorem FirstCompaction.view (first : FirstCompaction w)
    (sound : Sound rt agents sid w g)
    (planned : planTruncate (applyCompactionView w.lastRead.page) profile = some decision)
    (fresh : ∀ e ∈ w.session.events, e.id ≠ .compaction sid decision.droppedSequences) :
    applyCompactionView ((w.append (.compaction sid decision.droppedSequences) .harnessEvent
        decision.toPayload fresh).session.events.take 1000) =
      planKept (applyCompactionView w.lastRead.page) profile ++
        [w.session.nextEvent (.compaction sid decision.droppedSequences) .harnessEvent
          decision.toPayload] := by
  have whole : applyCompactionView w.lastRead.page = w.session.events := by
    rw [sound.page, first.current, List.take_of_length_le first.fits.le, first.unhidden]
  rw [whole] at planned
  have drops := (planTruncate_eq_some planned).1
  change applyCompactionView ((w.session.events ++ [_]).take 1000) = _
  have fits : (w.session.events ++ [w.session.nextEvent (.compaction sid decision.droppedSequences)
      .harnessEvent decision.toPayload]).length ≤ 1000 := by
    rw [List.length_append]
    exact first.fits
  rw [List.take_of_length_le fits, applyCompactionView_append_record]
  · congr 1
    rw [whole, planKept_eq_filter w.session.sequence_nodup]
    refine List.filter_congr fun e _ => ?_
    simp only [SessionState.nextEvent, droppedSequences_toPayload, drops]
    have lifts : Function.Injective fun n : Nat => (n : Int) := fun _ _ => Int.ofNat.inj
    exact decide_eq_decide.mpr (not_congr (List.mem_map_of_injective lifts))
  · rfl
  · simp only [SessionState.nextEvent, droppedSequences_toPayload, drops, List.mem_map, not_exists,
      not_and]
    rintro _ ⟨d, dropped, rfl⟩ same
    have mem := w.session.sequence_le (planDropped_subset dropped)
    omega

/-- Where nothing is hidden there is no record to be met again. -/
theorem FirstCompaction.fresh (first : FirstCompaction w) (sound : Sound rt agents sid w g)
    (refer : RecordsRefer w.session.events) (dropped : List Nat) :
    ∀ e ∈ w.session.events, e.id ≠ .compaction sid dropped := by
  intro e mem same
  obtain ⟨type, d, payload⟩ := (sound.logged e mem).record (.inr ⟨sid, dropped, same⟩)
  have none' := latestCompaction_eq_none.mp (refer.view_eq_self_iff.mp first.unhidden) e mem
  simp [isCompactionEvent, type, payload, CompactionDecision.toPayload, Payload.get?,
    Json.str?] at none'

theorem Sound.page_sublist (sound : Sound rt agents sid w g) :
    w.lastRead.page.Sublist w.session.events := by
  rw [sound.page]
  exact (List.take_sublist _ _).trans sound.readPast.sublist

/-- A plan's survivors and its victims are disjoint. -/
theorem Sound.not_mem_planKept (sound : Sound rt agents sid w g)
    (dropped : e ∈ planDropped (applyCompactionView w.lastRead.page) profile) :
    e ∉ planKept (applyCompactionView w.lastRead.page) profile := by
  have distinct : ((applyCompactionView w.lastRead.page).map Event.sequence).Nodup :=
    w.session.sequence_nodup.sublist
      ((applyCompactionView_sublist.trans sound.page_sublist).map _)
  rw [planKept_eq_filter distinct, List.mem_filter, decide_eq_true_eq]
  exact fun kept => kept.2 (List.mem_map_of_mem dropped)

/-- If a new record's view is the plan's, the compaction was a first one. -/
theorem FirstCompaction.of_appended (sound : Sound rt agents sid w g)
    (planned : planTruncate (applyCompactionView w.lastRead.page) profile = some decision)
    (fresh : ∀ e ∈ w.session.events, e.id ≠ .compaction sid decision.droppedSequences)
    (exact' : applyCompactionView ((w.append (.compaction sid decision.droppedSequences)
        .harnessEvent decision.toPayload fresh).session.events.take 1000) =
      planKept (applyCompactionView w.lastRead.page) profile ++
        [w.session.nextEvent (.compaction sid decision.droppedSequences) .harnessEvent
          decision.toPayload]) : FirstCompaction w := by
  have drops := (planTruncate_eq_some planned).1
  change applyCompactionView ((w.session.events ++ [_]).take 1000) = _ at exact'
  have fits : w.session.events.length < 1000 := by
    by_contra full
    rw [List.take_append_of_le_length (Nat.le_of_not_lt full)] at exact'
    have mem : w.session.nextEvent (.compaction sid decision.droppedSequences) .harnessEvent
        decision.toPayload ∈ applyCompactionView (w.session.events.take 1000) := by
      rw [exact']
      exact List.mem_append_right _ (List.mem_singleton_self _)
    have bound := w.session.sequence_le
      (List.take_subset _ _ (applyCompactionView_sublist.subset mem))
    exact Nat.not_succ_le_self _ bound
  have survivors : w.session.events.filter (fun x =>
      (x.sequence : Int) ∉ decision.droppedSequences.map fun n : Nat => (n : Int)) =
        planKept (applyCompactionView w.lastRead.page) profile := by
    rw [List.take_of_length_le (by rw [List.length_append]; exact fits),
      applyCompactionView_append_record] at exact'
    · simpa [SessionState.nextEvent] using List.append_cancel_right exact'
    · rfl
    · simp only [SessionState.nextEvent, droppedSequences_toPayload, drops, List.mem_map,
        not_exists, not_and]
      rintro _ ⟨d, dropped, rfl⟩ same
      have mem := w.session.sequence_le (sound.dropped_subset dropped)
      omega
  have shown : w.session.events ⊆ applyCompactionView w.lastRead.page := by
    intro x mem
    by_cases listed : x.sequence ∈ decision.droppedSequences
    · rw [drops] at listed
      obtain ⟨d, dropped, same⟩ := List.mem_map.mp listed
      obtain rfl := w.session.eq_of_sequence (sound.dropped_subset dropped) mem same
      exact planDropped_subset dropped
    · have kept : x ∈ planKept (applyCompactionView w.lastRead.page) profile := by
        rw [← survivors, List.mem_filter]
        exact ⟨mem, by simpa [Int.natCast_inj] using listed⟩
      exact planKept_subset kept
  have current : w.lastRead.log = w.session.events := by
    refine sound.readPast.eq_of_length (Nat.le_antisymm sound.readPast.length_le ?_)
    refine (List.subperm_of_subset w.session.events_nodup fun x mem => ?_).length_le
    exact List.take_subset _ _ (sound.page ▸ applyCompactionView_sublist.subset (shown mem))
  refine ⟨current, fits, applyCompactionView_sublist.eq_of_length_le ?_⟩
  rw [sound.page, current, List.take_of_length_le fits.le] at shown
  exact (List.subperm_of_subset w.session.events_nodup shown).length_le

/-- A record that is met again shows what its plan meant to drop. -/
theorem view_ne_of_replayed (sound : Sound rt agents sid w g)
    (current : g.current = true)
    (planned : planTruncate (applyCompactionView w.lastRead.page) profile = some decision)
    (mem : e ∈ w.session.events) (same : e.id = .compaction sid decision.droppedSequences) :
    applyCompactionView (w.session.events.take 1000) ≠
      planKept (applyCompactionView w.lastRead.page) profile ++ [e] := by
  intro exact'
  obtain ⟨tail, grown, users⟩ := sound.since current
  obtain ⟨d, dropped⟩ := List.exists_mem_of_ne_nil _ (planTruncate_eq_some planned).2
  have shown : d ∈ applyCompactionView (w.session.events.take 1000) := by
    obtain ⟨read, unhidden⟩ := mem_applyCompactionView.mp (planDropped_subset dropped)
    have hidden : hiddenSequences (w.session.events.take 1000) =
        hiddenSequences w.lastRead.page := by
      rw [hiddenSequences, hiddenSequences, sound.page, grown, List.take_append,
        latestCompaction_append_clients fun x mem => users x (List.take_subset _ _ mem)]
    refine mem_applyCompactionView.mpr ⟨?_, hidden ▸ unhidden⟩
    rw [sound.page] at read
    rw [grown, List.take_append]
    exact List.mem_append_left _ read
  rw [exact', List.mem_append, List.mem_singleton] at shown
  rcases shown with kept | rfl
  · exact sound.not_mem_planKept dropped kept
  · obtain ⟨type, d', payload⟩ := (sound.logged d mem).record (.inr ⟨sid, _, same⟩)
    have other := not_record_of_dropped dropped
    simp [isCompactionEvent, type, payload, CompactionDecision.toPayload, Payload.get?,
      Json.str?] at other

end Exact

section Compactions

variable {c : RunConfig} {agent : Agent} {profile : Profile}

/-- The session and the agent of every state are those of the history. -/
theorem row_of_reachable {C : RunConfig → RunAction → Prop}
    (reachable : (sessionSystem rt agents sid agentId).ReachableIf C c) :
    c.state.session.row.id = sid ∧ c.state.session.row.agentId = agentId := by
  have h : LogInvariant rt agents sid C fun w _ =>
      w.session.row.id = sid ∧ w.session.row.agentId = agentId := {
    begun := fun _ _ h _ => h
    stopped := fun _ _ h => h
    appended := fun _ _ _ _ _ _ _ _ _ h _ _ => h
    replayed := fun _ _ _ _ _ _ _ _ _ h _ _ _ _ => h
    requested := fun _ _ _ _ _ h _ => h
    said := fun _ _ _ _ _ _ h _ _ => h
    agrees := fun _ _ _ h same => by rwa [same.id, same.agentId] }
  obtain ⟨_, _, _, row⟩ := h.reachable ⟨rfl, rfl⟩ reachable
  exact row

/-- A record about to be emitted comes from a plan on the page. -/
theorem planned_of_reachable {C : RunConfig → RunAction → Prop} {id : EventId} {payload : Payload}
    {k : Except Exn Event → Harness Unit}
    (reachable : (sessionSystem rt agents sid agentId).ReachableIf C c)
    (owner : agents agentId = some agent) (loaded : rt.loadProfile agent.model = .ok profile)
    (emitting : c.program = some (.op (.emitEvent id .harnessEvent payload) k)) :
    ∃ g decision, Sound rt agents sid c.state g ∧ g.current = true ∧
      RecordsRefer c.state.session.events ∧
      planTruncate (applyCompactionView c.state.lastRead.page) profile = some decision ∧
      id = .compaction sid decision.droppedSequences ∧ payload = decision.toPayload := by
  obtain ⟨g, watched, sound, refer⟩ := (recordsRefer_logInvariant C).reachable
    ⟨by simp [World.create, SessionState.create], by simp [World.create, SessionState.create]⟩
    reachable
  obtain ⟨phase, emits⟩ := watched.permits emitting
  obtain ⟨_, current, _, a, profile', decision, owner', loaded', planned, rfl, rfl⟩ := emits.record
  rw [(row_of_reachable reachable).2, owner] at owner'
  obtain rfl := Option.some.inj owner'
  obtain rfl : profile = profile' := Except.ok.inj (loaded.symm.trans loaded')
  exact ⟨g, decision, sound, current, refer, planned, rfl, rfl⟩

/-- The view after a compaction is the plan's, with the new record, exactly if the
compaction is a first one. -/
theorem view_exact_iff {C : RunConfig → RunAction → Prop} {id : EventId} {payload : Payload}
    {k : Except Exn Event → Harness Unit} {w' : World} {e : Event}
    (reachable : (sessionSystem rt agents sid agentId).ReachableIf C c)
    (owner : agents agentId = some agent) (loaded : rt.loadProfile agent.model = .ok profile)
    (emitting : c.program = some (.op (.emitEvent id .harnessEvent payload) k))
    (emitted : c.state.emit id .harnessEvent payload = (w', .ok e)) :
    applyCompactionView (w'.session.events.take 1000) =
        planKept (applyCompactionView c.state.lastRead.page) profile ++ [e] ↔
      FirstCompaction c.state := by
  obtain ⟨g, decision, sound, current, refer, planned, rfl, rfl⟩ :=
    planned_of_reachable reachable owner loaded emitting
  rcases c.state.emit_cases (.compaction sid decision.droppedSequences) .harnessEvent
    decision.toPayload with ⟨_, h⟩ | ⟨e', mem, same, h⟩ | ⟨_, fresh, h⟩
  · rw [emitted] at h
    cases h
  · rw [emitted] at h
    cases h
    refine ⟨fun exact' => ?_, fun first => ?_⟩
    · exact absurd exact' (view_ne_of_replayed sound current planned mem same)
    · exact absurd same (first.fresh sound refer _ e mem)
  · rw [emitted] at h
    cases h
    exact ⟨fun exact' => .of_appended sound planned fresh exact',
      fun first => first.view sound planned fresh⟩

/-- In a step that commits a compaction record, the compaction is a first one. -/
def FirstOnly (c : RunConfig) (a : RunAction) : Prop :=
  ∀ id payload k, c.program = some (.op (.emitEvent id .harnessEvent payload) k) →
    a = .respond .done → FirstCompaction c.state

/-- No record, or a single one that every full page holds. -/
def OneRecord (events : List Event) : Prop :=
  latestCompaction events = none ∨ ∃ r ∈ events.take 1000, isCompactionEvent r = true ∧
    ∀ e ∈ events, isCompactionEvent e = true → e = r

theorem OneRecord.append {events : List Event} {e : Event} (h : OneRecord events)
    (new : isCompactionEvent e = true → latestCompaction events = none ∧ events.length < 1000) :
    OneRecord (events ++ [e]) := by
  by_cases record : isCompactionEvent e = true
  · obtain ⟨none', fits⟩ := new record
    refine .inr ⟨e, ?_, record, fun e' mem record' => ?_⟩
    · rw [List.take_of_length_le (by rw [List.length_append]; exact fits)]
      exact List.mem_append_right _ (List.mem_singleton_self e)
    · rcases List.mem_append.mp mem with old | last
      · rw [latestCompaction_eq_none.mp none' e' old] at record'
        cases record'
      · exact List.mem_singleton.mp last
  · rcases h with none' | ⟨r, mem, record', only⟩
    · refine .inl ?_
      rw [latestCompaction_append, none', latestCompaction_singleton, if_neg record, Option.none_or]
    · refine .inr ⟨r, ?_, record', fun e' mem' record'' => ?_⟩
      · rw [List.take_append]
        exact List.mem_append_left _ mem
      · rcases List.mem_append.mp mem' with old | last
        · exact only e' old record''
        · rw [List.mem_singleton.mp last] at record''
          exact absurd record'' record

theorem oneRecord_logInvariant : LogInvariant rt agents sid FirstOnly fun w _ =>
    RecordsRefer w.session.events ∧ OneRecord w.session.events where
  begun _ _ h _ := h
  stopped _ _ h := h
  appended w g id type payload phase fresh k sound h first emits := by
    refine ⟨(recordsRefer_logInvariant FirstOnly).appended w g id type payload phase fresh k sound
      h.1 first emits, h.2.append fun record => ?_⟩
    obtain rfl : type = .harnessEvent := type_of_record record
    have first := first id payload k rfl rfl
    exact ⟨h.1.view_eq_self_iff.mp first.unhidden, first.fits⟩
  replayed _ _ _ _ _ _ _ _ _ h _ _ _ _ := h
  requested _ _ _ _ _ h _ := h
  said w p phase n content fresh h permitted _ := by
    have other : isCompactionEvent
        (w.session.nextEvent (.uuid4 n) .userMessage (userPayload content)) ≠ true :=
    fun record => by
      cases type_of_record record
    exact ⟨h.1.append fun record => absurd record other,
      h.2.append fun record => absurd record other⟩
  agrees w w' _ h same := by rwa [same.events]

/-- With a single record, what it drops stays out of every page's view. -/
theorem OneRecord.hidden {events : List Event} {r e : Event} (h : OneRecord events)
    (mem : r ∈ events) (record : isCompactionEvent r = true)
    (shown : e ∈ applyCompactionView (events.take 1000)) :
    (e.sequence : Int) ∉ droppedSequences r := by
  rcases h with none' | ⟨r', mem', record', only⟩
  · rw [latestCompaction_eq_none.mp none' r mem] at record
    cases record
  · obtain rfl := only r mem record
    have unhidden := (mem_applyCompactionView.mp shown).2
    cases latest : latestCompaction (events.take 1000) with
    | none =>
        rw [latestCompaction_eq_none.mp latest r mem'] at record
        cases record
    | some l =>
        obtain ⟨listed, isRecord⟩ := latestCompaction_mem latest
        obtain rfl := only l (List.take_subset _ _ listed) isRecord
        simpa [hiddenSequences, latest] using unhidden

/-- A compaction leaves the view that its plan describes exactly if it is a first one; in
histories of first compactions, what a record drops never shows again. -/
theorem compaction_exact_iff (owner : agents agentId = some agent)
    (loaded : rt.loadProfile agent.model = .ok profile) :
    (∀ c id payload k w' e, (sessionSystem rt agents sid agentId).Reachable c →
      c.program = some (.op (.emitEvent id .harnessEvent payload) k) →
      c.state.emit id .harnessEvent payload = (w', .ok e) →
      (applyCompactionView (w'.session.events.take 1000) =
          planKept (applyCompactionView c.state.lastRead.page) profile ++ [e] ↔
        FirstCompaction c.state)) ∧
    ∀ c, (sessionSystem rt agents sid agentId).ReachableIf FirstOnly c →
      ∀ r ∈ c.state.session.events, isCompactionEvent r = true →
        ∀ e ∈ applyCompactionView (c.state.session.events.take 1000),
          (e.sequence : Int) ∉ droppedSequences r := by
  constructor
  · intro c id payload k w' e reachable emitting emitted
    exact view_exact_iff reachable owner loaded emitting emitted
  · intro c reachable r mem record e shown
    obtain ⟨_, _, _, _, one⟩ := oneRecord_logInvariant.reachable
      ⟨⟨by simp [World.create, SessionState.create], by simp [World.create, SessionState.create]⟩,
        .inl rfl⟩ reachable
    exact one.hidden mem record shown

section Reappearance

/-- A profile that keeps one event. -/
def Profile.narrow : Profile :=
  .truncating 1 1 Nat.one_pos Nat.one_pos

/-- Two turns with a call each, and a compaction before the second turn and after it. -/
def twoCompactions : List RunAction :=
  [.disturb (.say "go"), .start, .respond .done, .respond .done, .respond (.reads 0),
    .respond .done, .respond .done,
    .respond (.streams ⟨[.toolCallEnd "t1" "lookup" [] 0], none⟩), .respond .done, .respond .done,
    .respond .done, .respond .done, .respond .done, .respond .done,
    .respond (.streams ⟨[.toolCallEnd "t2" "lookup" [] 0], none⟩), .respond .done, .respond .done,
    .respond .done, .respond .done]

theorem twoCompactions_runs : ∃ (c : RunConfig) (payload : Payload)
    (k : Except Exn Event → Harness Unit) (w' : World) (e : Event),
    (bareSystem .narrow none).Reachable c ∧
    c.program = some (.op (.emitEvent (.compaction "s" [3, 5]) .harnessEvent payload) k) ∧
    c.state.emit (.compaction "s" [3, 5]) .harnessEvent payload = (w', .ok e) ∧
    (planKept (applyCompactionView c.state.lastRead.page) .narrow).map Event.sequence = [1, 4, 6] ∧
    (applyCompactionView (w'.session.events.take 1000)).map Event.sequence = [1, 2, 4, 6, 7] ∧
    (w'.session.events.filter isCompactionEvent).map droppedSequences = [[2], [3, 5]] := by
  obtain ⟨c, ran, rest⟩ := Option.bind_eq_some_iff.mp (show
    ((bareSystem .narrow none).run ⟨.create "s" "agent", none⟩ twoCompactions).bind (fun c =>
      (emission? c).bind fun p => p.2.2.2.toOption.map fun _ => ((p.1, p.2.1),
        (planKept (applyCompactionView c.state.lastRead.page) .narrow).map Event.sequence,
        (applyCompactionView (p.2.2.1.session.events.take 1000)).map Event.sequence,
        (p.2.2.1.session.events.filter isCompactionEvent).map droppedSequences)) =
    some ((.compaction "s" [3, 5], .harnessEvent), [1, 4, 6], [1, 2, 4, 6, 7], [[2], [3, 5]])
      by decide +kernel)
  obtain ⟨⟨id, type, w', r⟩, emits, rest⟩ := Option.bind_eq_some_iff.mp rest
  obtain ⟨payload, k, pending, emitted⟩ := emission?_eq_some emits
  cases r with
  | error e => simp [Except.toOption] at rest
  | ok e =>
      simp only [Except.toOption, Option.map_some, Option.some.injEq, Prod.mk.injEq] at rest
      obtain ⟨⟨rfl, rfl⟩, kept, shown, records⟩ := rest
      exact ⟨c, payload, k, w', e, ⟨_, ⟨rfl, rfl⟩, Transition.System.later_of_run ran⟩, pending,
        emitted, kept, shown, records⟩

/-- The second compaction shows again what the first one dropped. -/
theorem compaction_shows_dropped : ∃ (c : RunConfig) (id : EventId) (payload : Payload)
    (k : Except Exn Event → Harness Unit) (w' : World) (e : Event),
    (bareSystem .narrow none).Reachable c ∧
    c.program = some (.op (.emitEvent id .harnessEvent payload) k) ∧
    c.state.emit id .harnessEvent payload = (w', .ok e) ∧
    applyCompactionView (w'.session.events.take 1000) ≠
      planKept (applyCompactionView c.state.lastRead.page) .narrow ++ [e] ∧
    ∃ r ∈ w'.session.events, isCompactionEvent r = true ∧
      ∃ d ∈ applyCompactionView (w'.session.events.take 1000),
        (d.sequence : Int) ∈ droppedSequences r := by
  obtain ⟨c, payload, k, w', e, reachable, pending, emitted, kept, shown, records⟩ :=
    twoCompactions_runs
  refine ⟨c, _, payload, k, w', e, reachable, pending, emitted, fun exact' => ?_, ?_⟩
  · rw [exact', List.map_append, kept] at shown
    cases shown
  · have first : [2] ∈ (w'.session.events.filter isCompactionEvent).map droppedSequences := by
      rw [records]
      exact List.mem_cons_self
    have dropped : 2 ∈ (applyCompactionView (w'.session.events.take 1000)).map Event.sequence := by
      rw [shown]
      simp
    obtain ⟨r, mem, listed⟩ := List.mem_map.mp first
    obtain ⟨d, mem', same⟩ := List.mem_map.mp dropped
    obtain ⟨logged, record⟩ := List.mem_filter.mp mem
    exact ⟨r, logged, record, d, mem', by rw [listed, same]; exact List.mem_cons_self⟩

/-- The second compaction of that run is not a first one. -/
theorem compaction_exact_iff_second : ∃ (c : RunConfig) (id : EventId) (payload : Payload)
    (k : Except Exn Event → Harness Unit), (bareSystem .narrow none).Reachable c ∧
    c.program = some (.op (.emitEvent id .harnessEvent payload) k) ∧
    ¬ FirstCompaction c.state := by
  obtain ⟨c, payload, k, w', e, reachable, pending, emitted, kept, shown, _⟩ :=
    twoCompactions_runs
  refine ⟨c, _, payload, k, reachable, pending, fun first => ?_⟩
  have exact' := ((@compaction_exact_iff (.bare .narrow) (fun _ => some (.plain none)) "s" "agent"
    (.plain none) .narrow rfl rfl).1 c _ _ _ _ _ reachable pending emitted).mpr first
  rw [exact', List.map_append, kept] at shown
  cases shown

end Reappearance

end Compactions

end Tename
