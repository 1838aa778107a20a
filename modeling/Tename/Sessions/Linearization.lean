import Tename.Sessions.Serialization
import Tename.Sessions.Service
import Tename.Transition.Sequential

/-!
# The service's calls, one after another

`SessionState` is a session that is called by one client at a time. Here the transactions of any
number of clients, statement by statement, are shown to be calls of it: in one order, which no
call that has returned leaves, they return what its methods return, and what they have left is at
every moment what the tables hold.

An emitter's return is settled where it has read that the session is active, and a completion may
overtake it before it commits. The emitter then comes first all the same: a completion returns the
same with its event or without it, and the row keeps what either of them has written.
-/

namespace Tename

open Transition

/-- What a session is asked for. -/
inductive SessionRequest where
  | create (agentId : AgentId) (metadata : Payload)
  | emit (call : EmitCall)
  | markComplete

inductive SessionAnswer where
  | created
  | emitted (r : Except Exn Event)
  | marked (r : Except Exn SessionStatus)

/-- One session as a sequential object, with nothing there before it is created. -/
def SessionRequest.call (sid : SessionId) :
    SessionRequest → Option SessionState → Option SessionState × SessionAnswer
  | .create agentId metadata, none => (some (.create sid agentId metadata), .created)
  | .create _ _, some st => (some st, .created)
  | .emit call, none =>
      (none, .emitted (call.checkPayload.bind fun _ =>
        .error (.notFoundError s!"session {sid} does not exist")))
  | .emit call, some st =>
      let r := st.emitEvent call.eventId call.eventType call.payload
      (some r.1, .emitted r.2)
  | .markComplete, none =>
      (none, .marked (.error (.notFoundError s!"session {sid} does not exist")))
  | .markComplete, some st =>
      let r := st.markComplete
      (some r.1, .marked r.2)

namespace Tx

def sessionId : Tx → SessionId
  | .emit call _ => call.sessionId
  | .mark sid _ => sid

/-- The call, and what it returns unless it is aborted, from where this is settled. -/
def decided? : Tx → Option (SessionRequest × SessionAnswer)
  | .emit call (.insertEvent newSequence) =>
      some (.emit call, .emitted (.ok (call.event newSequence)))
  | .emit call (.bumpSequence event) => some (.emit call, .emitted (.ok event))
  | .emit call (.commit event) => some (.emit call, .emitted (.ok event))
  | .emit call (.returned event) => some (.emit call, .emitted (.ok event))
  | .emit call (.raised error) => some (.emit call, .emitted (.error error))
  | .mark _ (.returned status) => some (.markComplete, .marked (.ok status))
  | .mark _ (.raised error) => some (.markComplete, .marked (.error error))
  | _ => none

def decidedFor (tx : Tx) (sid : SessionId) : Option (SessionRequest × SessionAnswer) :=
  if tx.sessionId = sid then tx.decided? else none

end Tx

/-- What the tables hold of a session. -/
def Database.Shows (db : Database) (sid : SessionId) : Option SessionState → Prop
  | none => db.sessions sid = none ∧ db.eventsOf sid = []
  | some st => db.sessions sid = some st.row ∧ db.eventsOf sid = st.events

/-- The session with an event that is not committed. -/
def EventAhead (e : Event) (a b : Option SessionState) : Prop :=
  ∃ x y, a = some x ∧ b = some y ∧ x.events = y.events ++ [e] ∧
    x.row = { y.row with lastSequence := e.sequence }

/-- What a call that waits for its commit has to show. -/
def AnswerAhead : SessionRequest → SessionAnswer → Option SessionState → Option SessionState → Prop
  | .emit _, .emitted (.ok e), a, b => EventAhead e a b
  | _, _, _, _ => False

namespace Store

/-- The calls of a session whose return is settled; `none` stands for its creation. -/
def decided (s : Store) (sid : SessionId) : Option TxId → Option (SessionRequest × SessionAnswer)
  | none => (s.db.sessions sid).map fun row => (.create row.agentId row.metadata, .created)
  | some t => (s.txs t).bind fun tx => tx.decidedFor sid

/-- The calls of a session, and how those that have come to their end have returned. An aborted
call has not. -/
def sessionCalls (sid : SessionId) :
    Calls Store (Option TxId) SessionRequest SessionAnswer where
  begun s i :=
    match i with
    | none => s.db.sessions sid ≠ none
    | some t => s.txs t ≠ none
  outcome s i :=
    match i with
    | none => s.decided sid none
    | some t =>
        (s.txs t).bind fun tx => if tx.ended then tx.decidedFor sid else none

/-- The emitter of the session that has passed its check and not ended. -/
def Waits (s : Store) (sid : SessionId) : Option TxId → Prop
  | none => False
  | some t => ∃ tx, s.txs t = some tx ∧ tx.pastCheck sid

/-- What every step leaves of the rows and of the calls in progress. -/
structure Stamped (s : Store) : Prop where
  rows : ∀ sid row, s.db.sessions sid = some row →
    row.id = sid ∧ (row.status = .active ∨ row.status = .completed)
  marks : ∀ t sid status, s.txs t = some (.mark sid (.unchanged status)) →
    status = .completed ∧ ∃ row, s.db.sessions sid = some row ∧ row.status = .completed
  fits : ∀ t call phase, s.txs t = some (.emit call phase) → phase.ended = false →
    call.payload.byteLength ≤ maxPayloadBytes

variable {hash : SessionId → Nat} {s s' : Store} {t : TxId} {tx : Tx} {sid : SessionId}
variable {call : EmitCall}

/-- A row keeps all but its pointer, and its status if it is completed. -/
theorem step_row {a : StoreAction} {row : Session} (stepped : s.step hash a = some s')
    (present : s.db.sessions sid = some row) : ∃ row', s'.db.sessions sid = some row' ∧
      row'.id = row.id ∧ row'.agentId = row.agentId ∧ row'.metadata = row.metadata ∧
        (row'.status = row.status ∨ row'.status = .completed) := by
  have still : ∃ row', s.db.sessions sid = some row' ∧ row'.id = row.id ∧
      row'.agentId = row.agentId ∧ row'.metadata = row.metadata ∧
        (row'.status = row.status ∨ row'.status = .completed) :=
    ⟨row, present, rfl, rfl, rfl, .inl rfl⟩
  cases step_cases stepped with
  | @created sid' agentId metadata fresh =>
      have other : sid ≠ sid' := by
        rintro rfl
        rw [fresh] at present
        cases present
      refine ⟨row, ?_, rfl, rfl, rfl, .inl rfl⟩
      simpa [Database.insertSession, other] using present
  | refused fresh oversized => exact still
  | begun fresh fits => exact still
  | marking fresh => exact still
  | @emit t call phase _ running moved =>
      cases moved with
      | @committed event =>
          by_cases same : sid = event.sessionId
          · subst same
            refine ⟨{ row with lastSequence := event.sequence }, ?_, rfl, rfl, rfl, .inl rfl⟩
            simp [present]
          · refine ⟨row, ?_, rfl, rfl, rfl, .inl rfl⟩
            simpa [same] using present
      | _ => exact still
  | @mark t sid' phase _ running moved =>
      cases moved with
      | committed =>
          by_cases same : sid = sid'
          · subst same
            refine ⟨{ row with status := .completed }, ?_, rfl, rfl, rfl, .inr rfl⟩
            simp [Database.completeSession, Database.sessions_updateSession, present]
          · refine ⟨row, ?_, rfl, rfl, rfl, .inl rfl⟩
            simpa [same] using present
      | _ => exact still
  | aborted running open' => exact still

/-- A row that was not there is that of a new session. -/
theorem step_new_row {a : StoreAction} {row : Session} (stepped : s.step hash a = some s')
    (absent : s.db.sessions sid = none) (present : s'.db.sessions sid = some row) :
    row.id = sid ∧ row.status = .active := by
  have still : s.db.sessions sid ≠ some row := by simp [absent]
  cases step_cases stepped with
  | @created sid' agentId metadata fresh =>
      by_cases same : sid = sid'
      · subst same
        obtain rfl : (⟨sid, agentId, .active, 0, metadata⟩ : Session) = row := by
          simpa [Database.insertSession] using present
        exact ⟨rfl, rfl⟩
      · exact absurd (by simpa [Database.insertSession, same] using present) still
  | refused fresh oversized => exact absurd present still
  | begun fresh fits => exact absurd present still
  | marking fresh => exact absurd present still
  | emit running moved =>
      cases moved with
      | @committed event =>
          by_cases same : sid = event.sessionId
          · subst same
            simp [absent] at present
          · exact absurd (by simpa [same] using present) still
      | _ => exact absurd present still
  | @mark t sid' phase _ running moved =>
      cases moved with
      | committed =>
          by_cases same : sid = sid'
          · subst same
            simp [Database.completeSession, Database.sessions_updateSession, absent] at present
          · exact absurd (by simpa [same] using present) still
      | _ => exact absurd present still
  | aborted running open' => exact absurd present still

theorem step_completed {a : StoreAction} (stepped : s.step hash a = some s')
    (completed : ∃ row, s.db.sessions sid = some row ∧ row.status = .completed) :
    ∃ row, s'.db.sessions sid = some row ∧ row.status = .completed := by
  obtain ⟨row, present, ended⟩ := completed
  obtain ⟨row', present', -, -, -, status⟩ := step_row stepped present
  exact ⟨row', present', status.elim (·.trans ended) id⟩

namespace Stamped

theorem start : empty.Stamped where
  rows sid row present := by cases present
  marks t sid status running := by cases running
  fits t call phase running := by cases running

theorem rows_step {a : StoreAction} {row : Session} (h : s.Stamped)
    (stepped : s.step hash a = some s') (present : s'.db.sessions sid = some row) :
    row.id = sid ∧ (row.status = .active ∨ row.status = .completed) := by
  cases before : s.db.sessions sid with
  | none =>
      obtain ⟨named, active⟩ := step_new_row stepped before present
      exact ⟨named, .inl active⟩
  | some row' =>
      obtain ⟨row'', present', named, -, -, status⟩ := step_row stepped before
      obtain rfl := Option.some.inj (present.symm.trans present')
      obtain ⟨named', status'⟩ := h.rows sid row' before
      refine ⟨named.trans named', ?_⟩
      rcases status with status | status
      · rwa [status]
      · exact .inr status

/-- A step that moves one transaction: what is to be known of its new phase. -/
theorem move {a : StoreAction} (h : s.Stamped) (stepped : s.step hash a = some s')
    (txs : s'.txs = Function.update s.txs t (some tx))
    (marks : ∀ sid status, tx = .mark sid (.unchanged status) →
      status = .completed ∧ ∃ row, s'.db.sessions sid = some row ∧ row.status = .completed)
    (fits : ∀ call phase, tx = .emit call phase → phase.ended = false →
      call.payload.byteLength ≤ maxPayloadBytes) : s'.Stamped where
  rows sid row present := h.rows_step stepped present
  marks t' sid status running := by
    by_cases same : t' = t
    · subst same
      exact marks sid status (by simpa [txs] using running)
    · obtain ⟨completed, row⟩ := h.marks t' sid status (by simpa [txs, same] using running)
      exact ⟨completed, step_completed stepped row⟩
  fits t' call phase running := by
    by_cases same : t' = t
    · subst same
      exact fits call phase (by simpa [txs] using running)
    · exact h.fits t' call phase (by simpa [txs, same] using running)

theorem step {a : StoreAction} (h : s.Stamped) (stepped : s.step hash a = some s') :
    s'.Stamped := by
  cases step_cases stepped with
  | created fresh =>
      refine ⟨fun sid row => h.rows_step stepped, fun t sid status running => ?_, h.fits⟩
      obtain ⟨completed, row⟩ := h.marks t sid status running
      exact ⟨completed, step_completed stepped row⟩
  | refused fresh oversized =>
      refine h.move stepped rfl (by simp) ?_
      rintro call phase ⟨⟩ open'
      cases open'
  | begun fresh fits =>
      refine h.move stepped rfl (by simp) ?_
      rintro call phase ⟨⟩ _
      exact fits
  | marking fresh => exact h.move stepped rfl (by simp) (by simp)
  | @emit t call phase _ running moved =>
      have fits : phase.ended = false → call.payload.byteLength ≤ maxPayloadBytes :=
        h.fits t call phase running
      cases moved
      all_goals
        refine h.move stepped rfl (by simp) ?_
        rintro call' phase' ⟨⟩ _
        exact fits rfl
  | @mark t sid phase _ running moved =>
      cases moved with
      | @terminal row present ended =>
          refine h.move stepped rfl ?_ (by simp)
          rintro sid' status ⟨⟩
          have status := (h.rows sid row present).2.resolve_left ended
          exact ⟨status, row, present, status⟩
      | _ => exact h.move stepped rfl (by simp) (by simp)
  | @aborted t tx running open' =>
      cases tx with
      | emit call phase =>
          exact h.move stepped rfl (by simp [Tx.abort]) (by simp [Tx.abort, EmitPhase.ended])
      | mark sid phase => exact h.move stepped rfl (by simp [Tx.abort]) (by simp [Tx.abort])

end Stamped

end Store

section Answers

variable {sid : SessionId} {call : EmitCall} {e : Event} {a b b' : Option SessionState}
variable {st : SessionState} {r : SessionAnswer}

theorem checkPayload_of_fits (fits : call.payload.byteLength ≤ maxPayloadBytes) :
    call.checkPayload = .ok () :=
  if_neg (Nat.not_lt.mpr fits)

/-- The payload is checked before anything is read. -/
theorem call_refused (oversized : call.payload.byteLength > maxPayloadBytes)
    (b : Option SessionState) : SessionRequest.call sid (.emit call) b =
      (b, .emitted (.error (.validationError
        s!"event payload is {call.payload.byteLength} bytes; max is {maxPayloadBytes}"))) := by
  have refused : call.checkPayload = .error (.validationError
      s!"event payload is {call.payload.byteLength} bytes; max is {maxPayloadBytes}") :=
    if_pos oversized
  cases b with
  | none => simp only [SessionRequest.call, refused, Except.bind]
  | some st =>
      have refused' : EmitCall.checkPayload
          ⟨st.row.id, call.eventId, call.eventType, call.payload⟩ = .error (.validationError
            s!"event payload is {call.payload.byteLength} bytes; max is {maxPayloadBytes}") :=
        if_pos oversized
      simp only [SessionRequest.call, SessionState.emitEvent, refused']

theorem call_absent (fits : call.payload.byteLength ≤ maxPayloadBytes) :
    SessionRequest.call sid (.emit call) none =
      (none, .emitted (.error (.notFoundError s!"session {sid} does not exist"))) := by
  simp only [SessionRequest.call, checkPayload_of_fits fits, Except.bind]

/-- An id that the session has is answered with its event. -/
theorem call_stored (fits : call.payload.byteLength ≤ maxPayloadBytes) (mem : e ∈ st.events)
    (named : e.id = call.eventId) : SessionRequest.call sid (.emit call) (some st) =
      (some st, .emitted (.ok e)) := by
  have checked : EmitCall.checkPayload
      ⟨st.row.id, call.eventId, call.eventType, call.payload⟩ = .ok () :=
    if_neg (Nat.not_lt.mpr fits)
  have answered : st.emitEvent call.eventId call.eventType call.payload = (st, .ok e) := by
    rw [SessionState.emitEvent, checked]
    dsimp only
    split
    · rename_i existing found
      have named' : existing.id = call.eventId := by simpa using List.find?_some found
      have same : existing = e := List.inj_on_of_nodup_map st.distinct
        (List.mem_of_find?_eq_some found) mem (named'.trans named.symm)
      rw [same]
    · rename_i absent
      exact absurd named (by simpa using List.find?_eq_none.mp absent e mem)
  rw [SessionRequest.call, answered]

/-- A completed session takes no new event. -/
theorem call_terminal (fits : call.payload.byteLength ≤ maxPayloadBytes)
    (fresh : ∀ e ∈ st.events, e.id ≠ call.eventId) (ended : st.row.status ≠ .active) :
    SessionRequest.call sid (.emit call) (some st) = (some st, .emitted (.error
      (.failedPreconditionError
        s!"session {st.row.id} is in terminal state {st.row.status.value}"))) := by
  have checked : EmitCall.checkPayload
      ⟨st.row.id, call.eventId, call.eventType, call.payload⟩ = .ok () :=
    if_neg (Nat.not_lt.mpr fits)
  have terminal : st.isTerminal = true := Session.isTerminal_iff.mpr ended
  have answered : st.emitEvent call.eventId call.eventType call.payload = (st, .error
      (.failedPreconditionError
        s!"session {st.row.id} is in terminal state {st.row.status.value}")) := by
    rw [SessionState.emitEvent, checked]
    dsimp only
    split
    · rename_i existing found
      exact absurd (by simpa using List.find?_some found)
        (fresh existing (List.mem_of_find?_eq_some found))
    · rw [if_pos terminal]
  rw [SessionRequest.call, answered]

/-- An active session takes an event that fits. -/
theorem call_appends (named : st.row.id = call.sessionId)
    (fits : call.payload.byteLength ≤ maxPayloadBytes)
    (fresh : ∀ e ∈ st.events, e.id ≠ call.eventId) (active : st.row.status = .active) :
    ∃ st', SessionRequest.call sid (.emit call) (some st) =
        (some st', .emitted (.ok (call.event (st.row.lastSequence + 1)))) ∧
      EventAhead (call.event (st.row.lastSequence + 1)) (some st') (some st) := by
  have next : st.nextEvent call.eventId call.eventType call.payload =
      call.event (st.row.lastSequence + 1) := by
    rw [SessionState.nextEvent, EmitCall.event, named]
  refine ⟨st.append call.eventId call.eventType call.payload fresh, ?_, _, _, rfl, rfl, ?_, rfl⟩
  · rw [SessionRequest.call, SessionState.emitEvent_of_fits call.eventType fresh active fits, next]
  · rw [SessionState.append_events, next]

theorem call_completed (ended : st.row.status ≠ .active) :
    SessionRequest.call sid .markComplete (some st) = (some st, .marked (.ok st.row.status)) := by
  have terminal : st.isTerminal = true := Session.isTerminal_iff.mpr ended
  rw [SessionRequest.call, SessionState.markComplete, if_pos terminal]

theorem call_completes (sid : SessionId) (active : st.row.status = .active) : ∃ st',
    SessionRequest.call sid .markComplete (some st) = (some st', .marked (.ok .completed)) ∧
      st'.row = { st.row with status := .completed } ∧ st'.events = st.events := by
  have live : ¬ st.isTerminal = true := fun terminal => Session.isTerminal_iff.mp terminal active
  refine ⟨{ st with row := { st.row with status := .completed } }, ?_, rfl, rfl⟩
  rw [SessionRequest.call, SessionState.markComplete, if_neg live]

theorem answerAhead_iff {k : SessionRequest} : AnswerAhead k r a b ↔
    ∃ call e, k = .emit call ∧ r = .emitted (.ok e) ∧ EventAhead e a b := by
  constructor
  · intro h
    cases k with
    | emit call =>
        cases r with
        | emitted r =>
            cases r with
            | ok e => exact ⟨call, e, rfl, rfl, h⟩
            | error e => cases h
        | _ => cases h
    | _ => cases h
  · rintro ⟨call, e, rfl, rfl, h⟩
    exact h

/-- Requests that return the same whether an event is committed or not. -/
def SessionRequest.Overtakes : SessionRequest → Prop
  | .emit call => call.payload.byteLength > maxPayloadBytes
  | .markComplete => True
  | .create _ _ => False

theorem EventAhead.overtaken {k : SessionRequest} (h : EventAhead e a b) (overtakes : k.Overtakes)
    (answered : k.call sid b = (b', r)) : ∃ a', k.call sid a = (a', r) ∧ EventAhead e a' b' := by
  obtain ⟨x, y, rfl, rfl, events, row⟩ := h
  cases k with
  | create agentId metadata => exact overtakes.elim
  | emit call =>
      rw [call_refused overtakes] at answered ⊢
      cases answered
      exact ⟨some x, rfl, x, y, rfl, rfl, events, row⟩
  | markComplete =>
      have status : x.row.status = y.row.status := by rw [row]
      by_cases active : y.row.status = .active
      · obtain ⟨y', completes, row', events'⟩ := call_completes sid active
        obtain ⟨x', completes', row'', events''⟩ := call_completes sid (status.trans active)
        rw [completes] at answered
        cases answered
        refine ⟨some x', completes', x', y', rfl, rfl, ?_, ?_⟩
        · rw [events'', events', events]
        · rw [row'', row', row]
      · rw [call_completed active] at answered
        cases answered
        refine ⟨some x, ?_, x, y, rfl, rfl, events, row⟩
        rw [call_completed (status ▸ active), status]

end Answers

namespace Store

variable {hash : SessionId → Nat} {s s' : Store} {t : TxId} {tx tx' : Tx} {sid : SessionId}
variable {call : EmitCall} {phase : EmitPhase}

/-- What a step does to the calls of a session. -/
abbrev CallEffect (sid : SessionId) (s s' : Store) : Prop :=
  Effect (SessionRequest.call sid) AnswerAhead (s.decided sid) (s'.decided sid) (s.Waits sid)
    (s'.Waits sid) (s.db.Shows sid) (s'.db.Shows sid)

theorem decided_running (running : s.txs t = some tx) :
    s.decided sid (some t) = tx.decidedFor sid := by
  rw [decided, running, Option.bind_some]

theorem decided_fresh (fresh : s.txs t = none) : s.decided sid (some t) = none := by
  rw [decided, fresh, Option.bind_none]

theorem waits_running (running : s.txs t = some tx) :
    s.Waits sid (some t) ↔ tx.pastCheck sid := by
  constructor
  · rintro ⟨tx', running', past⟩
    obtain rfl := Option.some.inj (running.symm.trans running')
    exact past
  · exact fun past => ⟨tx, running, past⟩

theorem not_waits_fresh (fresh : s.txs t = none) : ¬ s.Waits sid (some t) := by
  rintro ⟨tx, running, -⟩
  rw [fresh] at running
  cases running

/-- A step of a transaction settles what its new phase does. -/
theorem decided_moved (txs : s'.txs = Function.update s.txs t (some tx'))
    (created : s'.decided sid none = s.decided sid none) :
    s'.decided sid = Function.update (s.decided sid) (some t) (tx'.decidedFor sid) := by
  funext i
  cases i with
  | none => rw [created, Function.update_of_ne (by simp)]
  | some t' =>
      by_cases same : t' = t
      · subst same
        rw [Function.update_self]
        exact decided_running (by simp [txs])
      · rw [Function.update_of_ne (by simpa using same)]
        simp [decided, txs, same]

theorem waits_moved (txs : s'.txs = Function.update s.txs t (some tx')) (i : Option TxId) :
    s'.Waits sid i ↔ if i = some t then tx'.pastCheck sid else s.Waits sid i := by
  cases i with
  | none => simp [Waits]
  | some t' =>
      by_cases same : t' = t
      · subst same
        rw [if_pos rfl]
        exact waits_running (by simp [txs])
      · rw [if_neg (by simpa using same)]
        simp [Waits, txs, same]

theorem waits_still (txs : s'.txs = Function.update s.txs t (some tx'))
    (still : tx'.pastCheck sid ↔ s.Waits sid (some t)) (i : Option TxId) :
    s'.Waits sid i ↔ s.Waits sid i := by
  rw [waits_moved txs]
  split
  · rename_i here
    rw [here, still]
  · rfl

/-- A step that settles nothing for the session. -/
theorem effect_idle (txs : s'.txs = Function.update s.txs t (some tx'))
    (created : s'.decided sid none = s.decided sid none)
    (same : s.decided sid (some t) = tx'.decidedFor sid)
    (still : tx'.pastCheck sid ↔ s.Waits sid (some t))
    (shown : ∀ v, s.db.Shows sid v → s'.db.Shows sid v) : CallEffect sid s s' := by
  refine .idle ?_ (waits_still txs still) shown
  rw [decided_moved txs created, ← same, Function.update_eq_self]

/-- A step that moves a transaction and shows nothing of it. -/
theorem effect_unseen (running : s.txs t = some tx)
    (txs : s'.txs = Function.update s.txs t (some tx')) (db : s'.db = s.db)
    (same : tx'.decidedFor sid = tx.decidedFor sid) (still : tx'.pastCheck sid ↔ tx.pastCheck sid) :
    CallEffect sid s s' := by
  refine effect_idle txs ?_ ?_ ?_ fun v => db ▸ id
  · rw [decided, decided, db]
  · rw [decided_running running, same]
  · rw [waits_running running, still]

/-- A step of a call for another session. -/
theorem effect_elsewhere (txs : s'.txs = Function.update s.txs t (some tx'))
    (created : s'.decided sid none = s.decided sid none)
    (running : ∀ tx, s.txs t = some tx → tx.sessionId ≠ sid) (other : tx'.sessionId ≠ sid)
    (shown : ∀ v, s.db.Shows sid v → s'.db.Shows sid v) : CallEffect sid s s' := by
  have apart {tx : Tx} (other : tx.sessionId ≠ sid) :
      tx.decidedFor sid = none ∧ ¬ tx.pastCheck sid := by
    refine ⟨if_neg other, fun past => ?_⟩
    cases tx with
    | emit call phase => exact other past.1
    | mark sid' phase => exact past
  have before : s.decided sid (some t) = none ∧ ¬ s.Waits sid (some t) := by
    cases running' : s.txs t with
    | none => exact ⟨decided_fresh running', not_waits_fresh running'⟩
    | some tx =>
        rw [decided_running running', waits_running running']
        exact apart (running tx running')
  refine effect_idle txs created ?_ ?_ shown
  · rw [before.1, (apart other).1]
  · exact iff_of_false (apart other).2 before.2

/-- A step that settles a call. -/
theorem effect_settles {k : SessionRequest} {r : SessionAnswer}
    (txs : s'.txs = Function.update s.txs t (some tx'))
    (created : s'.decided sid none = s.decided sid none) (new : s.decided sid (some t) = none)
    (settled : tx'.decidedFor sid = some (k, r)) (ended : ¬ tx'.pastCheck sid)
    (idle : ¬ s.Waits sid (some t))
    (returns : ∀ v, s.db.Shows sid v → ∃ v', k.call sid v = (v', r) ∧ s'.db.Shows sid v')
    (unnoticed : (∀ i, ¬ s.Waits sid i) ∨ k.Overtakes) : CallEffect sid s s' := by
  refine .settles new ?_ (waits_still txs (iff_of_false ended idle)) returns ?_
  · rw [decided_moved txs created, settled]
  · intro j k' r' v w w' waits known leads answered
    rcases unnoticed with quiet | overtakes
    · exact absurd waits (quiet j)
    · obtain ⟨call, e, rfl, rfl, ahead⟩ := answerAhead_iff.mp leads
      exact ahead.overtaken overtakes answered

/-- A step that settles a call which waits for its commit. -/
theorem effect_opens {k : SessionRequest} {r : SessionAnswer}
    (txs : s'.txs = Function.update s.txs t (some tx')) (db : s'.db = s.db)
    (new : s.decided sid (some t) = none) (settled : tx'.decidedFor sid = some (k, r))
    (past : tx'.pastCheck sid) (quiet : ∀ i, ¬ s.Waits sid i)
    (returns : ∀ v, s.db.Shows sid v → ∃ v', k.call sid v = (v', r) ∧ AnswerAhead k r v' v) :
    CallEffect sid s s' := by
  refine .opens new ?_ quiet (fun i => ?_) returns fun v => db ▸ id
  · rw [decided_moved txs (by rw [decided, decided, db]), settled]
  · rw [waits_moved txs]
    split
    · rename_i here
      exact iff_of_true past here
    · rename_i other
      exact iff_of_false (quiet i) other

theorem quiet_moved (txs : s'.txs = Function.update s.txs t (some tx'))
    (alone : ∀ i, s.Waits sid i ↔ i = some t) (ended : ¬ tx'.pastCheck sid) (i : Option TxId) :
    ¬ s'.Waits sid i := by
  rw [waits_moved txs]
  split
  · exact ended
  · rename_i other
    exact fun waits => other ((alone i).mp waits)

/-- A step that shows the effect of a call which has waited. -/
theorem effect_closes {k : SessionRequest} {r : SessionAnswer}
    (txs : s'.txs = Function.update s.txs t (some tx'))
    (created : s'.decided sid none = s.decided sid none)
    (known : s.decided sid (some t) = some (k, r)) (settled : tx'.decidedFor sid = some (k, r))
    (alone : ∀ i, s.Waits sid i ↔ i = some t) (ended : ¬ tx'.pastCheck sid)
    (shown : ∀ v w, AnswerAhead k r v w → s.db.Shows sid w → s'.db.Shows sid v) :
    CallEffect sid s s' := by
  refine .closes known alone ?_ (quiet_moved txs alone ended) shown
  rw [decided_moved txs created, settled, ← known, Function.update_eq_self]

/-- A step that gives up a call which has waited. -/
theorem effect_drops (txs : s'.txs = Function.update s.txs t (some tx')) (db : s'.db = s.db)
    (gone : tx'.decidedFor sid = none) (alone : ∀ i, s.Waits sid i ↔ i = some t)
    (ended : ¬ tx'.pastCheck sid) : CallEffect sid s s' := by
  refine .drops alone ?_ (quiet_moved txs alone ended) fun v => db ▸ id
  rw [decided_moved txs (by rw [decided, decided, db]), gone]

theorem locked_of_checked (checked : phase.checked = true) : phase.locked = true := by
  cases phase <;> first | rfl | cases checked

/-- An emitter inside the lock that has not passed its check waits for no other. -/
theorem quiet_of_locked (serialized : s.Serialized hash)
    (running : s.txs t = some (.emit call phase)) (locked : phase.locked = true)
    (unchecked : phase.checked = false) (i : Option TxId) : ¬ s.Waits call.sessionId i := by
  cases i with
  | none => exact id
  | some t' =>
      rintro ⟨tx', running', past⟩
      cases tx' with
      | emit call' phase' =>
          obtain rfl := serialized.exclusive running running' locked (locked_of_checked past.2)
            past.1.symm
          cases running.symm.trans running'
          cases unchecked.symm.trans past.2
      | mark sid phase' => exact past

theorem alone_of_checked (serialized : s.Serialized hash)
    (running : s.txs t = some (.emit call phase)) (checked : phase.checked = true)
    (i : Option TxId) : s.Waits call.sessionId i ↔ i = some t := by
  constructor
  · cases i with
    | none => exact False.elim
    | some t' =>
        rintro ⟨tx', running', past⟩
        cases tx' with
        | emit call' phase' =>
            rw [serialized.exclusive running running' (locked_of_checked checked)
              (locked_of_checked past.2) past.1.symm]
        | mark sid phase' => exact past.elim
  · rintro rfl
    exact ⟨_, running, rfl, checked⟩

/-- A session with an emitter past its check is there. -/
theorem quiet_of_absent (serialized : s.Serialized hash) (absent : s.db.sessions sid = none)
    (i : Option TxId) : ¬ s.Waits sid i := by
  cases i with
  | none => exact id
  | some t =>
      rintro ⟨tx, running, past⟩
      cases tx with
      | emit call phase =>
          obtain ⟨rfl, checked⟩ := past
          have knows := serialized.knows t _ running
          cases phase with
          | insertEvent n => exact knows.2.1 absent
          | bumpSequence event => exact knows.2.1 absent
          | commit event => exact knows.2.1 absent
          | _ => cases checked
      | mark sid phase => exact past

section Frames

variable {v : Option SessionState}

theorem shows_append_ne {e : Event} (other : e.sessionId ≠ sid) (shown : s.db.Shows sid v) :
    (s.db.appendEvent e).Shows sid v := by
  cases v with
  | none =>
      exact ⟨(Database.sessions_appendEvent_ne other.symm).trans shown.1,
        (Database.eventsOf_appendEvent_ne other).trans shown.2⟩
  | some st =>
      exact ⟨(Database.sessions_appendEvent_ne other.symm).trans shown.1,
        (Database.eventsOf_appendEvent_ne other).trans shown.2⟩

theorem shows_complete_ne {sid' : SessionId} (other : sid ≠ sid') (shown : s.db.Shows sid v) :
    (s.db.completeSession sid').Shows sid v := by
  cases v with
  | none => exact ⟨(Database.sessions_completeSession_ne other).trans shown.1, shown.2⟩
  | some st => exact ⟨(Database.sessions_completeSession_ne other).trans shown.1, shown.2⟩

theorem shows_insert_ne {sid' : SessionId} {agentId : AgentId} {metadata : Payload}
    (other : sid ≠ sid') (shown : s.db.Shows sid v) :
    (s.db.insertSession sid' agentId metadata).Shows sid v := by
  have kept : (s.db.insertSession sid' agentId metadata).sessions sid = s.db.sessions sid := by
    simp [Database.insertSession, other]
  cases v with
  | none => exact ⟨kept.trans shown.1, shown.2⟩
  | some st => exact ⟨kept.trans shown.1, shown.2⟩

/-- The event that was ahead has been committed. -/
theorem shows_of_ahead {e : Event} {w : Option SessionState} (own : e.sessionId = sid)
    (ahead : EventAhead e v w) (shown : s.db.Shows sid w) : (s.db.appendEvent e).Shows sid v := by
  obtain ⟨x, y, rfl, rfl, events, row⟩ := ahead
  subst own
  refine ⟨?_, ?_⟩
  · rw [Database.sessions_appendEvent_self, shown.1, row]
    rfl
  · rw [Database.eventsOf_appendEvent_self, shown.2, events]

theorem state_of_shows {row : Session} (shown : s.db.Shows sid v)
    (present : s.db.sessions sid = some row) :
    ∃ st, v = some st ∧ st.row = row ∧ s.db.eventsOf sid = st.events := by
  cases v with
  | none => cases present.symm.trans shown.1
  | some st => exact ⟨st, rfl, Option.some.inj (shown.1.symm.trans present), shown.2⟩

theorem absent_of_shows (shown : s.db.Shows sid v) (absent : s.db.sessions sid = none) :
    v = none := by
  cases v with
  | none => rfl
  | some st => cases absent.symm.trans shown.1

end Frames

/-- What an emitter raises where there is no session to load. -/
theorem message_of_absent {m : String} (running : s.txs t = some (.emit call .loadSessionForEmit))
    (absent : s.db.sessions call.sessionId = none)
    (stepped : s.step hash (.statement t) =
      some (s.finish t (.emit call (.raised (.notFoundError m))))) :
    m = s!"session {call.sessionId} does not exist" := by
  have same := congrArg (Option.map fun u => u.txs t) stepped
  simpa [step, running, emitStatement, Database.loadSessionForEmit, Database.getSession, absent,
    Except.map, eq_comm] using same

theorem message_of_terminal {m : String} {row : Session}
    (running : s.txs t = some (.emit call .loadSessionForEmit))
    (present : s.db.sessions call.sessionId = some row) (ended : row.status ≠ .active)
    (stepped : s.step hash (.statement t) =
      some (s.finish t (.emit call (.raised (.failedPreconditionError m))))) :
    m = s!"session {call.sessionId} is in terminal state {row.status.value}" := by
  have same := congrArg (Option.map fun u => u.txs t) stepped
  simpa [step, running, emitStatement, Database.loadSessionForEmit, Database.getSession, present,
    Except.map, ended, eq_comm] using same

theorem message_of_unmarked {m : String} (running : s.txs t = some (.mark sid .getSession))
    (absent : s.db.sessions sid = none)
    (stepped : s.step hash (.statement t) =
      some (s.finish t (.mark sid (.raised (.notFoundError m))))) :
    m = s!"session {sid} does not exist" := by
  have same := congrArg (Option.map fun u => u.txs t) stepped
  simpa [step, running, markStatement, Database.getSession, absent, eq_comm] using same

/-- A statement of an emitter of the session. -/
theorem effect_emitStatement (serialized : s.Serialized hash) (stamped : s.Stamped)
    (running : s.txs t = some (.emit call phase)) (moved : EmitStatement hash s t call phase s')
    (stepped : s.step hash (.statement t) = some s') : CallEffect call.sessionId s s' := by
  have knows := serialized.knows t _ running
  have fits : phase.ended = false → call.payload.byteLength ≤ maxPayloadBytes :=
    stamped.fits t call phase running
  have before : s.decided call.sessionId (some t) =
      Tx.decidedFor (.emit call phase) call.sessionId := decided_running running
  have waits : s.Waits call.sessionId (some t) ↔ Tx.pastCheck call.sessionId (.emit call phase) :=
    waits_running running
  cases moved with
  | acquired free => exact effect_unseen running rfl rfl rfl Iff.rfl
  | found stored => exact effect_unseen running rfl rfl rfl Iff.rfl
  | missing absent => exact effect_unseen running rfl rfl rfl Iff.rfl
  | @returnedExisting event =>
      refine effect_settles rfl rfl (by simp [before, Tx.decidedFor, Tx.decided?]) (if_pos rfl)
        (by simp [Tx.pastCheck, EmitPhase.checked])
        (by simp [waits, Tx.pastCheck, EmitPhase.checked]) (fun v shown => ?_)
        (.inl (quiet_of_locked serialized running rfl rfl))
      cases v with
      | none =>
          have mem := knows.1
          rw [shown.2] at mem
          cases mem
      | some st => exact ⟨some st, call_stored (fits rfl) (shown.2 ▸ knows.1) knows.2, shown⟩
  | notFound absent =>
      obtain rfl := message_of_absent running absent stepped
      refine effect_settles rfl rfl (by simp [before, Tx.decidedFor, Tx.decided?]) (if_pos rfl)
        (by simp [Tx.pastCheck, EmitPhase.checked])
        (by simp [waits, Tx.pastCheck, EmitPhase.checked]) (fun v shown => ?_)
        (.inl (quiet_of_locked serialized running rfl rfl))
      obtain rfl := absent_of_shows shown absent
      exact ⟨none, call_absent (fits rfl), shown⟩
  | @terminal row m present ended =>
      obtain rfl := message_of_terminal running present ended stepped
      refine effect_settles rfl rfl (by simp [before, Tx.decidedFor, Tx.decided?]) (if_pos rfl)
        (by simp [Tx.pastCheck, EmitPhase.checked])
        (by simp [waits, Tx.pastCheck, EmitPhase.checked]) (fun v shown => ?_)
        (.inl (quiet_of_locked serialized running rfl rfl))
      obtain ⟨st, rfl, rfl, events⟩ := state_of_shows shown present
      have fresh := Database.findEventById_eq_none.mp knows
      rw [events] at fresh
      refine ⟨some st, ?_, shown⟩
      rw [call_terminal (fits rfl) fresh ended, (stamped.rows _ _ present).1]
  | @loaded row present active =>
      refine effect_opens rfl rfl (by simp [before, Tx.decidedFor, Tx.decided?]) (if_pos rfl)
        ⟨rfl, rfl⟩ (quiet_of_locked serialized running rfl rfl) fun v shown => ?_
      obtain ⟨st, rfl, rfl, events⟩ := state_of_shows shown present
      have fresh := Database.findEventById_eq_none.mp knows
      rw [events] at fresh
      obtain ⟨st', answered, ahead⟩ :=
        call_appends (stamped.rows _ _ present).1 (fits rfl) fresh active
      exact ⟨some st', answered, ahead⟩
  | violated clash =>
      obtain ⟨absent, _, rfl⟩ := knows
      obtain ⟨f, mem, clash⟩ := clash
      rw [(serialized.dense call.sessionId).not_conflicts absent mem] at clash
      cases clash
  | inserted => exact effect_unseen running rfl rfl rfl Iff.rfl
  | bumped free => exact effect_unseen running rfl rfl rfl Iff.rfl
  | @committed event =>
      obtain ⟨-, present, own⟩ := knows
      have own : event.sessionId = call.sessionId := by rw [own]; rfl
      have created : ((s.withDb (s.db.appendEvent event)).finish t
          (.emit call (.returned event))).decided call.sessionId none =
            s.decided call.sessionId none := by
        obtain ⟨row, present⟩ := Option.ne_none_iff_exists'.mp present
        rw [← own] at present ⊢
        simp [decided, present]
      exact effect_closes rfl created (before.trans (if_pos rfl)) (if_pos rfl)
        (alone_of_checked serialized running rfl) (by simp [Tx.pastCheck, EmitPhase.checked])
        fun v w ahead shown => shows_of_ahead own ahead shown

/-- A statement of a completion of the session. -/
theorem effect_markStatement {phase : MarkPhase} (serialized : s.Serialized hash)
    (stamped : s.Stamped) (running : s.txs t = some (.mark sid phase))
    (moved : MarkStatement s t sid phase s') (stepped : s.step hash (.statement t) = some s') :
    CallEffect sid s s' := by
  have knows := serialized.knows t _ running
  have before : s.decided sid (some t) = Tx.decidedFor (.mark sid phase) sid :=
    decided_running running
  have waits : s.Waits sid (some t) ↔ Tx.pastCheck sid (.mark sid phase) := waits_running running
  cases moved with
  | notFound absent =>
      obtain rfl := message_of_unmarked running absent stepped
      refine effect_settles rfl rfl (by simp [before, Tx.decidedFor, Tx.decided?]) (if_pos rfl)
        (by simp [Tx.pastCheck]) (by simp [waits, Tx.pastCheck]) (fun v shown => ?_)
        (.inl (quiet_of_absent serialized absent))
      obtain rfl := absent_of_shows shown absent
      exact ⟨none, rfl, shown⟩
  | terminal present ended => exact effect_unseen running rfl rfl rfl Iff.rfl
  | active present active => exact effect_unseen running rfl rfl rfl Iff.rfl
  | @returnedUnchanged status =>
      obtain ⟨rfl, row, present, ended⟩ := stamped.marks t sid status running
      refine effect_settles rfl rfl (by simp [before, Tx.decidedFor, Tx.decided?]) (if_pos rfl)
        (by simp [Tx.pastCheck]) (by simp [waits, Tx.pastCheck]) (fun v shown => ?_)
        (.inr trivial)
      obtain ⟨st, rfl, rfl, -⟩ := state_of_shows shown present
      refine ⟨some st, ?_, shown⟩
      rw [call_completed (by simp [ended]), ended]
  | updated free => exact effect_unseen running rfl rfl rfl Iff.rfl
  | committed =>
      obtain ⟨row, present⟩ := Option.ne_none_iff_exists'.mp knows
      refine effect_settles rfl ?_ (by simp [before, Tx.decidedFor, Tx.decided?]) (if_pos rfl)
        (by simp [Tx.pastCheck]) (by simp [waits, Tx.pastCheck]) (fun v shown => ?_)
        (.inr trivial)
      · simp [decided, Database.completeSession, Database.sessions_updateSession, present]
      · obtain ⟨st, rfl, rfl, events⟩ := state_of_shows shown present
        have completed : (s.db.completeSession sid).sessions sid =
            some { st.row with status := .completed } := by
          simp [Database.completeSession, Database.sessions_updateSession, present]
        rcases (stamped.rows sid st.row present).2 with active | ended
        · obtain ⟨st', completes, row, events'⟩ := call_completes sid active
          exact ⟨some st', completes, completed.trans (congrArg some row.symm),
            events.trans events'.symm⟩
        · refine ⟨some st, ?_, completed.trans (congrArg some ?_), events⟩
          · rw [call_completed (by simp [ended]), ended]
          · rw [← ended]

theorem message_of_refused {m : String} (fresh : s.txs t = none)
    (oversized : call.payload.byteLength > maxPayloadBytes)
    (stepped : s.step hash (.emitEvent t call) =
      some (s.goto t (.emit call (.raised (.validationError m))))) :
    m = s!"event payload is {call.payload.byteLength} bytes; max is {maxPayloadBytes}" := by
  have same := congrArg (Option.map fun u => u.txs t) stepped
  simpa [step, fresh, EmitCall.checkPayload, oversized, eq_comm] using same

/-- The creation of the session. -/
theorem effect_created {agentId : AgentId} {metadata : Payload} (serialized : s.Serialized hash)
    (fresh : s.db.sessions sid = none) :
    CallEffect sid s (s.withDb (s.db.insertSession sid agentId metadata)) := by
  refine .settles (i := none) (k := .create agentId metadata) (r := .created) ?_ ?_
    (fun _ => Iff.rfl) (fun v shown => ?_)
    fun j _ _ _ _ _ waits => absurd waits (quiet_of_absent serialized fresh j)
  · rw [decided, fresh, Option.map_none]
  · funext i
    cases i with
    | none => simp [decided, Database.insertSession]
    | some t => rfl
  · obtain rfl := absent_of_shows shown fresh
    exact ⟨some (.create sid agentId metadata), rfl,
      by simp [Database.insertSession, SessionState.create], shown.2⟩

theorem open_of_pastCheck (past : tx.pastCheck sid) : tx.ended = false := by
  cases tx with
  | emit call phase =>
      obtain ⟨-, checked⟩ := past
      cases phase <;> first | rfl | cases checked
  | mark sid' phase => exact past.elim

/-- Of a call that has not ended, only one that waits for its commit is settled. -/
theorem decided_open (open' : tx.ended = false) (sid : SessionId) (idle : ¬ tx.pastCheck sid) :
    tx.decidedFor sid = none := by
  rw [Tx.decidedFor]
  split
  · rename_i own
    cases tx with
    | emit call phase =>
        cases phase with
        | insertEvent n => exact absurd ⟨own, rfl⟩ idle
        | bumpSequence event => exact absurd ⟨own, rfl⟩ idle
        | commit event => exact absurd ⟨own, rfl⟩ idle
        | returned event => cases open'
        | raised error => cases open'
        | _ => rfl
    | mark sid' phase => cases phase <;> first | rfl | cases open'
  · rfl

/-- Every step does to the calls of a session what an effect says. -/
theorem effect_of_step {a : StoreAction} (serialized : s.Serialized hash) (stamped : s.Stamped)
    (stepped : s.step hash a = some s') (sid : SessionId) : CallEffect sid s s' := by
  cases step_cases stepped with
  | @created sid' agentId metadata fresh =>
      by_cases own : sid = sid'
      · subst own
        exact effect_created serialized fresh
      · refine .idle ?_ (fun _ => Iff.rfl) fun v => shows_insert_ne own
        funext i
        cases i with
        | none => simp [decided, Database.insertSession, own]
        | some t => rfl
  | @refused t call m fresh oversized =>
      have none' : ∀ tx, s.txs t = some tx → tx.sessionId ≠ sid := fun tx running => by
        cases fresh.symm.trans running
      by_cases own : call.sessionId = sid
      · subst own
        obtain rfl := message_of_refused fresh oversized stepped
        exact effect_settles rfl rfl (decided_fresh fresh) (if_pos rfl)
          (by simp [Tx.pastCheck, EmitPhase.checked]) (not_waits_fresh fresh)
          (fun v shown => ⟨v, call_refused oversized v, shown⟩) (.inr oversized)
      · exact effect_elsewhere rfl rfl none' own fun _ => id
  | @begun t call fresh fits =>
      exact effect_idle rfl rfl ((decided_fresh fresh).trans (by simp [Tx.decidedFor, Tx.decided?]))
        (iff_of_false (by simp [Tx.pastCheck, EmitPhase.checked]) (not_waits_fresh fresh))
        fun _ => id
  | @marking t sid' fresh =>
      exact effect_idle rfl rfl ((decided_fresh fresh).trans (by simp [Tx.decidedFor, Tx.decided?]))
        (iff_of_false (by simp [Tx.pastCheck]) (not_waits_fresh fresh)) fun _ => id
  | @emit t call phase _ running moved =>
      by_cases own : call.sessionId = sid
      · subst own
        exact effect_emitStatement serialized stamped running moved stepped
      · have others : ∀ tx, s.txs t = some tx → tx.sessionId ≠ sid := fun tx running' => by
          obtain rfl := Option.some.inj (running.symm.trans running')
          exact own
        cases moved with
        | @committed event =>
            obtain ⟨-, -, next⟩ := serialized.knows t _ running
            have other : event.sessionId ≠ sid := by rwa [next]
            refine effect_elsewhere rfl ?_ others own fun v => shows_append_ne other
            simp [decided, Database.sessions_appendEvent_ne (Ne.symm other)]
        | _ => exact effect_elsewhere rfl rfl others own fun _ => id
  | @mark t sid' phase _ running moved =>
      by_cases own : sid' = sid
      · subst own
        exact effect_markStatement serialized stamped running moved stepped
      · have others : ∀ tx, s.txs t = some tx → tx.sessionId ≠ sid := fun tx running' => by
          obtain rfl := Option.some.inj (running.symm.trans running')
          exact own
        cases moved with
        | committed =>
            refine effect_elsewhere rfl ?_ others own fun v => shows_complete_ne (Ne.symm own)
            simp [decided, Database.sessions_completeSession_ne (Ne.symm own)]
        | _ => exact effect_elsewhere rfl rfl others own fun _ => id
  | @aborted t tx running open' =>
      have gone : tx.abort.decidedFor sid = none := by
        cases tx <;> exact ite_self _
      have ended : ¬ tx.abort.pastCheck sid := by
        cases tx <;> simp [Tx.abort, Tx.pastCheck, EmitPhase.checked]
      by_cases past : tx.pastCheck sid
      · cases tx with
        | emit call phase =>
            obtain ⟨rfl, checked⟩ := past
            exact effect_drops rfl rfl gone (alone_of_checked serialized running checked) ended
        | mark sid' phase => exact past.elim
      · refine effect_unseen running rfl rfl ?_ (iff_of_false ended past)
        rw [gone, decided_open open' sid past]

/-- A call that has ended is not moved any more. -/
theorem ended_step {a : StoreAction} (stepped : s.step hash a = some s')
    (running : s.txs t = some tx) (ended : tx.ended = true) : s'.txs t = some tx := by
  have apart {t' : TxId} {tx' : Tx} (moving : ∀ tx, s.txs t' = some tx → tx.ended = false) :
      Function.update s.txs t' (some tx') t = some tx := by
    rw [Function.update_of_ne, running]
    rintro rfl
    cases (moving tx running).symm.trans ended
  have absent {t' : TxId} (fresh : s.txs t' = none) : ∀ tx, s.txs t' = some tx → tx.ended = false :=
    fun tx running => by cases fresh.symm.trans running
  cases step_cases stepped with
  | created fresh => exact running
  | refused fresh oversized => exact apart (absent fresh)
  | begun fresh fits => exact apart (absent fresh)
  | marking fresh => exact apart (absent fresh)
  | emit running' moved =>
      have going : ∀ tx, s.txs _ = some tx → tx.ended = false := fun tx running => by
        obtain rfl := Option.some.inj (running'.symm.trans running)
        cases moved <;> rfl
      cases moved <;> exact apart going
  | mark running' moved =>
      have going : ∀ tx, s.txs _ = some tx → tx.ended = false := fun tx running => by
        obtain rfl := Option.some.inj (running'.symm.trans running)
        cases moved <;> rfl
      cases moved <;> exact apart going
  | aborted running' open' =>
      refine apart fun tx running => ?_
      obtain rfl := Option.some.inj (running'.symm.trans running)
      exact open'

theorem returned_step {a : StoreAction} {i : Option TxId} (stepped : s.step hash a = some s')
    (done : (sessionCalls sid).returned s i = true) : (sessionCalls sid).returned s' i = true := by
  cases i with
  | none =>
      obtain ⟨entry, created⟩ := Option.isSome_iff_exists.mp done
      obtain ⟨row, present, -⟩ := Option.map_eq_some_iff.mp created
      obtain ⟨row', present', -⟩ := step_row stepped present
      simp [Calls.returned, sessionCalls, decided, present']
  | some t =>
      obtain ⟨entry, answered⟩ := Option.isSome_iff_exists.mp done
      obtain ⟨tx, running, known⟩ := Option.bind_eq_some_iff.mp answered
      have ended : tx.ended = true := by
        by_contra going
        rw [if_neg going] at known
        cases known
      have still := ended_step stepped running ended
      rw [if_pos ended] at known
      simp [Calls.returned, sessionCalls, still, ended, known]

/-- In every run of the service, and for every session, the calls come in one order: at every
moment those that have returned return in it what a session returns that is called by one client
at a time, with the errors it raises, and leave what the tables hold; and a call that had returned
when another began comes first. -/
theorem calls_linearize {labels : List StoreAction} (ran : (system hash).run empty labels = some s)
    (sid : SessionId) : ∃ order, (system hash).Linearizes (sessionCalls sid)
      (SessionRequest.call sid) (fun s => s.db.Shows sid) none empty labels order := by
  refine System.linearizes_of_effects AnswerAhead (fun s => s.decided sid) (fun s => s.Waits sid)
    (fun s => s.Serialized hash ∧ s.Stamped) ⟨serialized_empty, .start⟩ ?_ ?_ ⟨rfl, rfl⟩ ?_ ?_ ?_ ?_
    ?_ ?_ ran
  · intro i
    cases i <;> rfl
  · intro i
    cases i with
    | none => exact id
    | some t => exact not_waits_fresh rfl
  · exact fun u a u' kept stepped => ⟨kept.1.step stepped, kept.2.step stepped⟩
  · exact fun u a u' kept stepped => effect_of_step kept.1 kept.2 stepped sid
  · intro u i waits
    cases i with
    | none => exact waits.elim
    | some t =>
        obtain ⟨tx, running, past⟩ := waits
        simp [sessionCalls, running, open_of_pastCheck past]
  · intro u i idle
    cases i with
    | none => rfl
    | some t =>
        cases running : u.txs t with
        | none => simp [sessionCalls, decided, running]
        | some tx =>
            cases open' : tx.ended with
            | true => simp [sessionCalls, decided, running, open']
            | false =>
                rw [waits_running running] at idle
                simp [sessionCalls, decided, running, open', decided_open open' sid idle]
  · intro u i known
    cases i with
    | none => exact fun absent => known (by rw [decided, absent, Option.map_none])
    | some t => exact fun absent => known (decided_fresh absent)
  · exact fun u a u' i stepped => returned_step stepped

theorem calls_linearize_race : ∃ s, (system fun _ => 0).run empty raceSchedule = some s ∧
    ∃ order, (system fun _ => 0).Linearizes (sessionCalls "s") (SessionRequest.call "s")
      (fun s => s.db.Shows "s") none empty raceSchedule order := by
  obtain ⟨s, ran⟩ := Option.isSome_iff_exists.mp
    (show ((system fun _ => 0).run empty raceSchedule).isSome = true by decide)
  exact ⟨s, ran, calls_linearize ran "s"⟩

end Store

end Tename
