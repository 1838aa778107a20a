import Tename.Sessions.Transactions

/-!
# The service as its callers see it

One session at rest: its row and its events. The structure carries what every
committed state satisfies, so a log with a gap or a repeated id cannot be
built. `emitEvent`, `markComplete`, `wake` and `getEvents` are the service's
methods as single steps on it.

`getEvents` returns a page. With its default arguments the page is the first
thousand events of the log, whatever the log's length.
-/

namespace Tename

def defaultEventsLimit : Int := 1000

def maxEventsLimit : Int := 10000

/-- `SessionService.get_events` on the rows of a session. -/
def getEvents (rows : List Event) (start end' : Option Int) (types : List EventType) (limit : Int) :
    Except Exn (List Event) :=
  if limit < 1 then .error (.validationError s!"limit must be >= 1 (got {limit})")
  else
    let effectiveLimit := min limit maxEventsLimit
    let effectiveStart := start.getD 1
    if effectiveStart < 1 then
      .error (.validationError s!"start must be >= 1 (got {effectiveStart})")
    else
      match end' with
      | some last =>
          if last < effectiveStart then
            .error (.validationError s!"end ({last}) must be >= start ({effectiveStart})")
          else .ok (selectEvents rows effectiveStart.toNat (some last.toNat) types
            effectiveLimit.toNat)
      | none => .ok (selectEvents rows effectiveStart.toNat none types effectiveLimit.toNat)

/-- A session at rest, with the invariant of the committed states. -/
structure SessionState where
  row : Session
  events : List Event
  dense : events.map Event.sequence = List.range' 1 row.lastSequence
  distinct : (events.map Event.id).Nodup
  owned : ∀ e ∈ events, e.sessionId = row.id

namespace SessionState

/-- The row an emit inserts next. -/
def nextEvent (s : SessionState) (eventId : EventId) (type : EventType) (payload : Payload) :
    Event :=
  ⟨eventId, s.row.id, s.row.lastSequence + 1, type, payload⟩

/-- `insert_event_and_bump_sequence`. -/
def append (s : SessionState) (eventId : EventId) (type : EventType) (payload : Payload)
    (fresh : ∀ e ∈ s.events, e.id ≠ eventId) : SessionState where
  row := { s.row with lastSequence := s.row.lastSequence + 1 }
  events := s.events ++ [s.nextEvent eventId type payload]
  dense := by
    simp [nextEvent, s.dense, List.range'_1_concat, Nat.add_comm]
  distinct := by
    rw [List.map_append]
    refine List.nodup_append.mpr ⟨s.distinct, by simp, ?_⟩
    rintro _ taken _ new rfl
    obtain ⟨e, mem, same⟩ := List.mem_map.mp taken
    exact fresh e mem (same.trans (by simpa [nextEvent] using new))
  owned := by
    intro e mem
    rcases List.mem_append.mp mem with old | new
    · exact s.owned e old
    · rw [List.mem_singleton.mp new]
      rfl

def isTerminal (s : SessionState) : Bool := s.row.isTerminal

/-- `SessionService.emit_event`. -/
def emitEvent (s : SessionState) (eventId : EventId) (type : EventType) (payload : Payload) :
    SessionState × Except Exn Event :=
  match EmitCall.checkPayload ⟨s.row.id, eventId, type, payload⟩ with
  | .error e => (s, .error e)
  | .ok () =>
      match h : s.events.find? (·.id = eventId) with
      | some existing => (s, .ok existing)
      | none =>
          if s.isTerminal then
            (s, .error (.failedPreconditionError
              s!"session {s.row.id} is in terminal state {s.row.status.value}"))
          else
            (s.append eventId type payload (by simpa using h),
              .ok (s.nextEvent eventId type payload))

/-- `SessionService.mark_complete`. -/
def markComplete (s : SessionState) : SessionState × Except Exn SessionStatus :=
  if s.isTerminal then (s, .ok s.row.status)
  else ({ s with row := { s.row with status := .completed } }, .ok .completed)

/-- `SessionService.wake`. -/
def wake (s : SessionState) : Except Exn Session :=
  if s.isTerminal then
    .error (.failedPreconditionError
      s!"session {s.row.id} is in terminal state {s.row.status.value}")
  else .ok s.row

/-- A new session: `create_session`. -/
def create (sid : SessionId) (agentId : AgentId) (metadata : Payload) : SessionState where
  row := ⟨sid, agentId, .active, 0, metadata⟩
  events := []
  dense := rfl
  distinct := List.nodup_nil
  owned := by simp

/-- `get_events(session_id)` with every other argument at its default. -/
def page (s : SessionState) : Except Exn (List Event) :=
  getEvents s.events none none [] defaultEventsLimit

variable {s : SessionState} {eventId : EventId} {type : EventType} {payload : Payload}

@[simp] theorem append_events (fresh : ∀ e ∈ s.events, e.id ≠ eventId) :
    (s.append eventId type payload fresh).events = s.events ++ [s.nextEvent eventId type payload] :=
  rfl

@[simp] theorem append_row (fresh : ∀ e ∈ s.events, e.id ≠ eventId) :
    (s.append eventId type payload fresh).row =
      { s.row with lastSequence := s.row.lastSequence + 1 } := rfl

theorem length_events (s : SessionState) : s.events.length = s.row.lastSequence := by
  simpa using congrArg List.length s.dense

theorem sequence_nodup (s : SessionState) : (s.events.map Event.sequence).Nodup :=
  s.dense ▸ List.nodup_range'

theorem eq_of_sequence {e e' : Event} (mem : e ∈ s.events) (mem' : e' ∈ s.events)
    (same : e.sequence = e'.sequence) : e = e' :=
  List.inj_on_of_nodup_map s.sequence_nodup mem mem' same

theorem events_nodup (s : SessionState) : s.events.Nodup :=
  .of_map _ s.sequence_nodup

theorem sequences_sorted (s : SessionState) :
    s.events.Pairwise fun a b => a.sequence < b.sequence :=
  List.pairwise_map.mp (s.dense ▸ List.pairwise_lt_range')

theorem one_le_sequence {e : Event} (mem : e ∈ s.events) : 1 ≤ e.sequence := by
  have listed : e.sequence ∈ List.range' 1 s.row.lastSequence :=
    s.dense ▸ List.mem_map_of_mem mem
  exact (List.mem_range'_1.mp listed).1

theorem sequence_le {e : Event} (mem : e ∈ s.events) : e.sequence ≤ s.row.lastSequence := by
  have listed : e.sequence ∈ List.range' 1 s.row.lastSequence :=
    s.dense ▸ List.mem_map_of_mem mem
  have bound := List.mem_range'_1.mp listed
  omega

/-- What `emit_event` can do: refuse, return the stored event, or append. -/
theorem emitEvent_cases (s : SessionState) (eventId : EventId) (type : EventType)
    (payload : Payload) :
    (∃ e, s.emitEvent eventId type payload = (s, .error e)) ∨
    (∃ e ∈ s.events, e.id = eventId ∧ s.emitEvent eventId type payload = (s, .ok e)) ∨
    (s.row.status = .active ∧ ∃ fresh, s.emitEvent eventId type payload =
      (s.append eventId type payload fresh, .ok (s.nextEvent eventId type payload))) := by
  unfold emitEvent
  split
  · exact .inl ⟨_, rfl⟩
  · split
    · rename_i existing found
      exact .inr (.inl ⟨existing, List.mem_of_find?_eq_some found,
        by simpa using List.find?_some found, rfl⟩)
    · rename_i absent
      split
      · exact .inl ⟨_, rfl⟩
      · rename_i live
        refine .inr (.inr ⟨?_, by simpa using absent, rfl⟩)
        simpa [isTerminal, Session.isTerminal] using live

/-- A new event that fits is appended to an active session. -/
theorem emitEvent_of_fits (type : EventType) (fresh : ∀ e ∈ s.events, e.id ≠ eventId)
    (active : s.row.status = .active) (fits : payload.byteLength ≤ maxPayloadBytes) :
    s.emitEvent eventId type payload =
      (s.append eventId type payload fresh, .ok (s.nextEvent eventId type payload)) := by
  have absent : s.events.find? (·.id = eventId) = none := by simpa using fresh
  have live : s.isTerminal = false := by simp [isTerminal, Session.isTerminal, active]
  have checked : EmitCall.checkPayload ⟨s.row.id, eventId, type, payload⟩ = .ok () :=
    if_neg (Nat.not_lt.mpr fits)
  unfold emitEvent
  rw [checked]
  dsimp only
  split
  · rename_i existing found
    rw [absent] at found
    cases found
  · rw [live]
    rfl

/-- An active session takes an event that fits, or has it already. -/
theorem emitEvent_returns (active : s.row.status = .active)
    (fits : payload.byteLength ≤ maxPayloadBytes) :
    ∃ e, (s.emitEvent eventId type payload).2 = .ok e := by
  have live : s.isTerminal = false := by simp [isTerminal, Session.isTerminal, active]
  have checked : EmitCall.checkPayload ⟨s.row.id, eventId, type, payload⟩ = .ok () :=
    if_neg (Nat.not_lt.mpr fits)
  unfold emitEvent
  rw [checked]
  dsimp only
  split
  · exact ⟨_, rfl⟩
  · rw [live]
    exact ⟨_, rfl⟩

/-- Rows in ascending order are selected as they stand. -/
theorem selectEvents_of_sorted {rows : List Event}
    (sorted : rows.Pairwise fun a b => a.sequence < b.sequence) (start : Nat) (end' : Option Nat)
    (types : List EventType) (limit : Nat) :
    selectEvents rows start end' types limit = (rows.filter fun e =>
      decide (start ≤ e.sequence) && end'.all (e.sequence ≤ ·) &&
        (types.isEmpty || types.contains e.type)).take limit := by
  unfold selectEvents
  rw [List.Pairwise.insertionSort_eq]
  exact (sorted.imp Nat.le_of_lt).filter _

/-- A read with default arguments returns the first thousand events. -/
theorem page_eq (s : SessionState) : s.page = .ok (s.events.take 1000) := by
  change Except.ok (selectEvents s.events 1 none [] 1000) = _
  rw [selectEvents_of_sorted s.sequences_sorted, List.filter_eq_self.mpr]
  intro e mem
  simp [one_le_sequence mem]

/-- The events after a sequence are the rest of the log. -/
theorem filter_after (s : SessionState) (n : Nat) :
    s.events.filter (fun e => decide (n + 1 ≤ e.sequence)) = s.events.drop n := by
  have before : ∀ e ∈ s.events.take n, ¬ n + 1 ≤ e.sequence := by
    intro e mem
    have listed : e.sequence ∈ (List.range' 1 s.row.lastSequence).take n := by
      rw [← s.dense, ← List.map_take]
      exact List.mem_map_of_mem mem
    rcases Nat.le_total n s.row.lastSequence with fits | short
    · rw [List.take_range'_of_length_ge fits, List.mem_range'_1] at listed
      omega
    · rw [List.take_range'_of_length_le short, List.mem_range'_1] at listed
      omega
  have after : ∀ e ∈ s.events.drop n, n + 1 ≤ e.sequence := by
    intro e mem
    have listed : e.sequence ∈ (List.range' 1 s.row.lastSequence).drop n := by
      rw [← s.dense, ← List.map_drop]
      exact List.mem_map_of_mem mem
    rw [List.drop_range', List.mem_range'_1] at listed
    omega
  calc s.events.filter (fun e => decide (n + 1 ≤ e.sequence))
      = (s.events.take n ++ s.events.drop n).filter fun e => decide (n + 1 ≤ e.sequence) := by
        rw [List.take_append_drop]
    _ = s.events.drop n := by
        rw [List.filter_append, List.filter_eq_nil_iff.mpr (by simpa using before),
          List.filter_eq_self.mpr (by simpa using after), List.nil_append]

/-- A read from a sequence on returns the next thousand events. -/
theorem getEvents_after (s : SessionState) (n : Nat) :
    getEvents s.events (some (n + 1)) none [] defaultEventsLimit =
      .ok ((s.events.drop n).take 1000) := by
  have start : ¬ ((n : Int) + 1 < 1) := by omega
  have bound : ((n : Int) + 1).toNat = n + 1 := by omega
  simp only [getEvents, Option.getD_some, start, if_false, bound]
  change Except.ok (selectEvents s.events (n + 1) none [] 1000) = _
  rw [selectEvents_of_sorted s.sequences_sorted]
  simp only [Option.all_none, List.isEmpty_nil, Bool.true_or, Bool.and_true, filter_after]

end SessionState

end Tename
