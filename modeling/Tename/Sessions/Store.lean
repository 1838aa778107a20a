import Mathlib.Data.List.Sort
import Mathlib.Logic.Function.Basic
import Tename.Sessions.Models

/-!
# Committed rows and the store's queries

`Database` is the committed content of the two tables. The definitions below
are the statements of `sessions/store.py`, each on the rows it is evaluated
against. Rows of `events` are kept in commit order; `select_events` orders by
sequence as its statement does.
-/

namespace Tename

/-- The committed rows of the `sessions` and `events` tables. -/
structure Database where
  sessions : SessionId → Option Session
  events : List Event

/-- The rows of `select_events`: the filters, the order and the limit of its statement. -/
def selectEvents (rows : List Event) (start : Nat) (end' : Option Nat)
    (types : List EventType) (limit : Nat) : List Event :=
  ((rows.filter fun e =>
      decide (start ≤ e.sequence) && end'.all (e.sequence ≤ ·) &&
        (types.isEmpty || types.contains e.type)).insertionSort
    fun a b => a.sequence ≤ b.sequence).take limit

namespace Database

/-- The rows of one session, in commit order. -/
def eventsOf (db : Database) (sid : SessionId) : List Event :=
  db.events.filter (·.sessionId = sid)

/-- `last_sequence` of a session; zero where there is no row. -/
def lastSequence (db : Database) (sid : SessionId) : Nat :=
  ((db.sessions sid).map Session.lastSequence).getD 0

/-- `get_session`. -/
def getSession (db : Database) (sid : SessionId) : Except Exn Session :=
  match db.sessions sid with
  | some row => .ok row
  | none => .error (.notFoundError s!"session {sid} does not exist")

/-- `find_event_by_id`. -/
def findEventById (db : Database) (sid : SessionId) (eventId : EventId) : Option Event :=
  (db.eventsOf sid).find? (·.id = eventId)

/-- `load_session_for_emit`. -/
def loadSessionForEmit (db : Database) (sid : SessionId) : Except Exn (Nat × SessionStatus) :=
  (db.getSession sid).map fun row => (row.lastSequence, row.status)

/-- Some committed row violates a unique constraint against `e`: the primary key
`(session_id, id)` or `(session_id, sequence)`. -/
def conflicts (e f : Event) : Bool :=
  f.sessionId = e.sessionId ∧ (f.id = e.id ∨ f.sequence = e.sequence)

def updateSession (db : Database) (sid : SessionId) (change : Session → Session) : Database :=
  { db with sessions := Function.update db.sessions sid ((db.sessions sid).map change) }

/-- The committed effect of `insert_event_and_bump_sequence`. -/
def appendEvent (db : Database) (e : Event) : Database :=
  { db.updateSession e.sessionId (fun row => { row with lastSequence := e.sequence }) with
    events := db.events ++ [e] }

/-- The committed effect of `mark_session_complete` on an active session. -/
def completeSession (db : Database) (sid : SessionId) : Database :=
  db.updateSession sid fun row => { row with status := .completed }

/-- The committed effect of `insert_session`: server defaults for status and sequence. -/
def insertSession (db : Database) (sid : SessionId) (agentId : AgentId) (metadata : Payload) :
    Database :=
  { db with
    sessions := Function.update db.sessions sid (some ⟨sid, agentId, .active, 0, metadata⟩) }

variable {db : Database} {sid sid' : SessionId} {e : Event}

theorem mem_eventsOf : e ∈ db.eventsOf sid ↔ e ∈ db.events ∧ e.sessionId = sid := by
  simp [eventsOf]

theorem findEventById_eq_none {eventId : EventId} :
    db.findEventById sid eventId = none ↔ ∀ e ∈ db.eventsOf sid, e.id ≠ eventId := by
  simp [findEventById]

theorem mem_of_findEventById {eventId : EventId} (h : db.findEventById sid eventId = some e) :
    e ∈ db.eventsOf sid ∧ e.id = eventId := by
  have found : e.id = eventId := by simpa using List.find?_some h
  exact ⟨List.mem_of_find?_eq_some h, found⟩

@[simp] theorem eventsOf_completeSession :
    (db.completeSession sid').eventsOf sid = db.eventsOf sid :=
  rfl

@[simp] theorem eventsOf_insertSession {agentId : AgentId} {metadata : Payload} :
    (db.insertSession sid' agentId metadata).eventsOf sid = db.eventsOf sid := rfl

theorem eventsOf_appendEvent : (db.appendEvent e).eventsOf sid =
    db.eventsOf sid ++ if e.sessionId = sid then [e] else [] := by
  by_cases h : e.sessionId = sid <;> simp [appendEvent, eventsOf, h]

@[simp] theorem eventsOf_appendEvent_self : (db.appendEvent e).eventsOf e.sessionId =
    db.eventsOf e.sessionId ++ [e] := by
  simp [eventsOf_appendEvent]

theorem eventsOf_appendEvent_ne (h : e.sessionId ≠ sid) :
    (db.appendEvent e).eventsOf sid = db.eventsOf sid := by
  simp [eventsOf_appendEvent, h]

theorem sessions_updateSession {change : Session → Session} :
    (db.updateSession sid' change).sessions sid =
      if sid = sid' then (db.sessions sid').map change else db.sessions sid := by
  simp only [updateSession, Function.update_apply]

@[simp] theorem sessions_completeSession_ne (h : sid ≠ sid') :
    (db.completeSession sid').sessions sid = db.sessions sid := by
  simp [completeSession, sessions_updateSession, h]

@[simp] theorem sessions_appendEvent_ne (h : sid ≠ e.sessionId) :
    (db.appendEvent e).sessions sid = db.sessions sid := by
  simp [appendEvent, updateSession, h]

@[simp] theorem sessions_appendEvent_self : (db.appendEvent e).sessions e.sessionId =
    (db.sessions e.sessionId).map fun row => { row with lastSequence := e.sequence } := by
  simp [appendEvent, updateSession]

@[simp] theorem lastSequence_completeSession :
    (db.completeSession sid').lastSequence sid = db.lastSequence sid := by
  by_cases h : sid = sid'
  · subst h
    cases hrow : db.sessions sid <;>
      simp [lastSequence, completeSession, sessions_updateSession, hrow]
  · simp [lastSequence, h]

theorem lastSequence_appendEvent_ne (h : sid ≠ e.sessionId) :
    (db.appendEvent e).lastSequence sid = db.lastSequence sid := by
  simp [lastSequence, h]

theorem lastSequence_appendEvent_self {row : Session} (h : db.sessions e.sessionId = some row) :
    (db.appendEvent e).lastSequence e.sessionId = e.sequence := by
  simp [lastSequence, h]

theorem lastSequence_insertSession (h : db.sessions sid' = none) {agentId : AgentId}
    {metadata : Payload} :
    (db.insertSession sid' agentId metadata).lastSequence sid = db.lastSequence sid := by
  by_cases same : sid = sid'
  · subst same
    simp [lastSequence, insertSession, h]
  · simp [lastSequence, insertSession, same]

theorem updateSession_ne_none {change : Session → Session} (h : db.sessions sid ≠ none) :
    (db.updateSession sid' change).sessions sid ≠ none := by
  by_cases same : sid = sid'
  · simpa [updateSession, same] using same ▸ h
  · simpa [updateSession, same] using h

/-- No committed effect removes a session row. -/
theorem appendEvent_ne_none (h : db.sessions sid ≠ none) :
    (db.appendEvent e).sessions sid ≠ none :=
  updateSession_ne_none h

theorem completeSession_ne_none (h : db.sessions sid ≠ none) :
    (db.completeSession sid').sessions sid ≠ none :=
  updateSession_ne_none h

theorem insertSession_ne_none {agentId : AgentId} {metadata : Payload}
    (h : db.sessions sid ≠ none) :
    (db.insertSession sid' agentId metadata).sessions sid ≠ none := by
  by_cases same : sid = sid'
  · simp [insertSession, same]
  · simpa [insertSession, same] using h

end Database

end Tename
