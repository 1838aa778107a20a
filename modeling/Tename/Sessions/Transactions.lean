import Tename.Sessions.Store
import Tename.Transition.Basic

/-!
# The service's transactions, statement by statement

`emit_event` and `mark_complete` as the sequences of statements their bodies
issue, run by any number of callers against one database. A label names the
transaction that takes its next statement, so a run is an arbitrary
interleaving; a transaction may abort at any statement.

Of Postgres the model takes what `READ COMMITTED` documents. A statement reads
the committed rows, and a transaction's own writes are seen by others at its
commit. `pg_advisory_xact_lock` waits for the holder of an equal key and keeps
the lock until commit or rollback. An `UPDATE` waits for the transaction that
last wrote the row, and then changes its own columns of the newest committed
row. An `INSERT` waits for an uncommitted row that a unique index would not
admit beside its own, and fails on a committed one; its foreign-key check does
not wait for updates of non-key columns. The advisory key is a hash of the
session id, so distinct sessions may share it.
-/

namespace Tename

abbrev TxId := Nat

/-- Hard cap on serialized payload size (256 KiB). -/
def maxPayloadBytes : Nat := 256 * 1024

/-- The arguments of one `emit_event` call. -/
structure EmitCall where
  sessionId : SessionId
  eventId : EventId
  eventType : EventType
  payload : Payload

/-- `_encode_payload` and the size check. Every `Json` value serializes. -/
def EmitCall.checkPayload (call : EmitCall) : Except Exn Unit :=
  if call.payload.byteLength > maxPayloadBytes then
    .error (.validationError
      s!"event payload is {call.payload.byteLength} bytes; max is {maxPayloadBytes}")
  else .ok ()

/-- The row `insert_event_and_bump_sequence` inserts. -/
def EmitCall.event (call : EmitCall) (sequence : Nat) : Event :=
  ⟨call.eventId, call.sessionId, sequence, call.eventType, call.payload⟩

/-- Where an `emit_event` call stands: the statement it takes next, with the
local variables live there, or how it ended. -/
inductive EmitPhase where
  | acquireSessionAdvisoryLock
  | findEventById
  | existing (event : Event)
  | loadSessionForEmit
  | insertEvent (newSequence : Nat)
  | bumpSequence (event : Event)
  | commit (event : Event)
  | returned (event : Event)
  | raised (error : Exn)
  | aborted

/-- Where a `mark_complete` call stands. -/
inductive MarkPhase where
  | getSession
  | unchanged (status : SessionStatus)
  | updateStatus
  | commit
  | returned (status : SessionStatus)
  | raised (error : Exn)
  | aborted

inductive Tx where
  | emit (call : EmitCall) (phase : EmitPhase)
  | mark (sessionId : SessionId) (phase : MarkPhase)

/-- The database with its transactions in progress. -/
structure Store where
  db : Database
  /-- Advisory locks by key. -/
  locks : Nat → Option TxId
  /-- The transaction whose uncommitted update a session row carries. -/
  rowLocks : SessionId → Option TxId
  /-- Inserted, uncommitted event rows. -/
  uncommitted : List (TxId × Event)
  txs : TxId → Option Tx

inductive StoreAction where
  | createSession (sid : SessionId) (agentId : AgentId) (metadata : Payload)
  | emitEvent (t : TxId) (call : EmitCall)
  | markComplete (t : TxId) (sid : SessionId)
  | statement (t : TxId)
  | abort (t : TxId)

namespace EmitPhase

/-- Between `pg_advisory_xact_lock` and the end of the transaction. -/
def locked : EmitPhase → Bool
  | .findEventById | .existing _ | .loadSessionForEmit | .insertEvent _ | .bumpSequence _
  | .commit _ => true
  | _ => false

/-- The duplicate and terminal checks have passed and the commit is still to come. -/
def checked : EmitPhase → Bool
  | .insertEvent _ | .bumpSequence _ | .commit _ => true
  | _ => false

def ended : EmitPhase → Bool
  | .returned _ | .raised _ | .aborted => true
  | _ => false

end EmitPhase

def MarkPhase.ended : MarkPhase → Bool
  | .returned _ | .raised _ | .aborted => true
  | _ => false

namespace Tx

def ended : Tx → Bool
  | .emit _ phase => phase.ended
  | .mark _ phase => phase.ended

def abort : Tx → Tx
  | .emit call _ => .emit call .aborted
  | .mark sid _ => .mark sid .aborted

/-- The transaction holds an uncommitted update of the row of `sid`. -/
def writes (sid : SessionId) : Tx → Prop
  | .emit call (.commit _) => call.sessionId = sid
  | .mark sid' .commit => sid' = sid
  | _ => False

/-- An emit of `sid` that has passed the status check and has not ended. -/
def pastCheck (sid : SessionId) : Tx → Prop
  | .emit call phase => call.sessionId = sid ∧ phase.checked = true
  | .mark _ _ => False

end Tx

namespace Store

def empty : Store :=
  ⟨⟨fun _ => none, []⟩, fun _ => none, fun _ => none, [], fun _ => none⟩

/-- Transaction `t` moves on within its own local state. -/
def goto (s : Store) (t : TxId) (tx : Tx) : Store :=
  { s with txs := Function.update s.txs t (some tx) }

/-- Commit or rollback of `t`: its locks and uncommitted rows are gone. -/
def finish (s : Store) (t : TxId) (tx : Tx) : Store :=
  { s with
    locks := fun key => if s.locks key = some t then none else s.locks key
    rowLocks := fun sid => if s.rowLocks sid = some t then none else s.rowLocks sid
    uncommitted := s.uncommitted.filter (·.1 ≠ t)
    txs := Function.update s.txs t (some tx) }

def withDb (s : Store) (db : Database) : Store := { s with db := db }

def lock (s : Store) (t : TxId) (key : Nat) : Store :=
  { s with locks := Function.update s.locks key (some t) }

def lockRow (s : Store) (t : TxId) (sid : SessionId) : Store :=
  { s with rowLocks := Function.update s.rowLocks sid (some t) }

def insert (s : Store) (t : TxId) (e : Event) : Store :=
  { s with uncommitted := s.uncommitted ++ [(t, e)] }

variable (hash : SessionId → Nat)

/-- The next statement of an `emit_event` transaction. -/
def emitStatement (s : Store) (t : TxId) (call : EmitCall) : EmitPhase → Option Store
  | .acquireSessionAdvisoryLock =>
      match s.locks (hash call.sessionId) with
      | none => some ((s.lock t (hash call.sessionId)).goto t (.emit call .findEventById))
      | some _ => none
  | .findEventById =>
      match s.db.findEventById call.sessionId call.eventId with
      | some event => some (s.goto t (.emit call (.existing event)))
      | none => some (s.goto t (.emit call .loadSessionForEmit))
  | .existing event => some (s.finish t (.emit call (.returned event)))
  | .loadSessionForEmit =>
      match s.db.loadSessionForEmit call.sessionId with
      | .error e => some (s.finish t (.emit call (.raised e)))
      | .ok (lastSequence, status) =>
          if status ∈ terminalStatuses then
            some (s.finish t (.emit call (.raised (.failedPreconditionError
              s!"session {call.sessionId} is in terminal state {status.value}"))))
          else some (s.goto t (.emit call (.insertEvent (lastSequence + 1))))
  | .insertEvent newSequence =>
      let event := call.event newSequence
      -- Waits while another transaction holds an uncommitted row with one of its keys.
      if s.uncommitted.any fun row => row.1 ≠ t ∧ Database.conflicts event row.2 then none
      else if s.db.events.any (Database.conflicts event) then
        some (s.finish t (.emit call (.raised (.runtimeError
          (s!"event insert for session {call.sessionId} violated a unique constraint " ++
            "despite holding the advisory lock")))))
      else some ((s.insert t event).goto t (.emit call (.bumpSequence event)))
  | .bumpSequence event =>
      match s.rowLocks call.sessionId with
      | none => some ((s.lockRow t call.sessionId).goto t (.emit call (.commit event)))
      | some _ => none
  | .commit event =>
      some ((s.withDb (s.db.appendEvent event)).finish t (.emit call (.returned event)))
  | .returned _ | .raised _ | .aborted => none

/-- The next statement of a `mark_complete` transaction. -/
def markStatement (s : Store) (t : TxId) (sid : SessionId) : MarkPhase → Option Store
  | .getSession =>
      match s.db.getSession sid with
      | .error e => some (s.finish t (.mark sid (.raised e)))
      | .ok session =>
          if session.isTerminal then some (s.goto t (.mark sid (.unchanged session.status)))
          else some (s.goto t (.mark sid .updateStatus))
  | .unchanged status => some (s.finish t (.mark sid (.returned status)))
  | .updateStatus =>
      match s.rowLocks sid with
      | none => some ((s.lockRow t sid).goto t (.mark sid .commit))
      | some _ => none
  | .commit =>
      some ((s.withDb (s.db.completeSession sid)).finish t (.mark sid (.returned .completed)))
  | .returned _ | .raised _ | .aborted => none

/-- One label. A fresh session id is the database's own draw; a transaction id
names one call for the whole run. -/
def step (s : Store) : StoreAction → Option Store
  | .createSession sid agentId metadata =>
      match s.db.sessions sid with
      | none => some (s.withDb (s.db.insertSession sid agentId metadata))
      | some _ => none
  | .emitEvent t call =>
      match s.txs t with
      | some _ => none
      | none =>
          match call.checkPayload with
          | .error e => some (s.goto t (.emit call (.raised e)))
          | .ok () => some (s.goto t (.emit call .acquireSessionAdvisoryLock))
  | .markComplete t sid =>
      match s.txs t with
      | some _ => none
      | none => some (s.goto t (.mark sid .getSession))
  | .statement t =>
      match s.txs t with
      | some (.emit call phase) => s.emitStatement hash t call phase
      | some (.mark sid phase) => s.markStatement t sid phase
      | none => none
  | .abort t =>
      match s.txs t with
      | some tx => if tx.ended then none else some (s.finish t tx.abort)
      | none => none

/-- All runs of the service from an empty database. -/
def system : Transition.System Store StoreAction where
  initial s := s = empty
  step := step hash

/-- What the next statement of an `emit_event` transaction can do, by phase. -/
inductive EmitStatement (s : Store) (t : TxId) (call : EmitCall) : EmitPhase → Store → Prop where
  | acquired (free : s.locks (hash call.sessionId) = none) :
      EmitStatement s t call .acquireSessionAdvisoryLock
        ((s.lock t (hash call.sessionId)).goto t (.emit call .findEventById))
  | found {event : Event}
      (stored : s.db.findEventById call.sessionId call.eventId = some event) :
      EmitStatement s t call .findEventById (s.goto t (.emit call (.existing event)))
  | missing (absent : s.db.findEventById call.sessionId call.eventId = none) :
      EmitStatement s t call .findEventById (s.goto t (.emit call .loadSessionForEmit))
  | returnedExisting {event : Event} :
      EmitStatement s t call (.existing event) (s.finish t (.emit call (.returned event)))
  | notFound {m : String} (absent : s.db.sessions call.sessionId = none) :
      EmitStatement s t call .loadSessionForEmit
        (s.finish t (.emit call (.raised (.notFoundError m))))
  | terminal {row : Session} {m : String} (present : s.db.sessions call.sessionId = some row)
      (ended : row.status ≠ .active) :
      EmitStatement s t call .loadSessionForEmit
        (s.finish t (.emit call (.raised (.failedPreconditionError m))))
  | loaded {row : Session} (present : s.db.sessions call.sessionId = some row)
      (active : row.status = .active) :
      EmitStatement s t call .loadSessionForEmit
        (s.goto t (.emit call (.insertEvent (row.lastSequence + 1))))
  | violated {newSequence : Nat} {m : String}
      (clash : ∃ f ∈ s.db.events, Database.conflicts (call.event newSequence) f = true) :
      EmitStatement s t call (.insertEvent newSequence)
        (s.finish t (.emit call (.raised (.runtimeError m))))
  | inserted {newSequence : Nat} :
      EmitStatement s t call (.insertEvent newSequence)
        ((s.insert t (call.event newSequence)).goto t
          (.emit call (.bumpSequence (call.event newSequence))))
  | bumped {event : Event} (free : s.rowLocks call.sessionId = none) :
      EmitStatement s t call (.bumpSequence event)
        ((s.lockRow t call.sessionId).goto t (.emit call (.commit event)))
  | committed {event : Event} :
      EmitStatement s t call (.commit event)
        ((s.withDb (s.db.appendEvent event)).finish t (.emit call (.returned event)))

/-- What the next statement of a `mark_complete` transaction can do, by phase. -/
inductive MarkStatement (s : Store) (t : TxId) (sid : SessionId) : MarkPhase → Store → Prop where
  | notFound {m : String} (absent : s.db.sessions sid = none) :
      MarkStatement s t sid .getSession (s.finish t (.mark sid (.raised (.notFoundError m))))
  | terminal {row : Session} (present : s.db.sessions sid = some row)
      (ended : row.status ≠ .active) :
      MarkStatement s t sid .getSession (s.goto t (.mark sid (.unchanged row.status)))
  | active {row : Session} (present : s.db.sessions sid = some row)
      (active : row.status = .active) :
      MarkStatement s t sid .getSession (s.goto t (.mark sid .updateStatus))
  | returnedUnchanged {status : SessionStatus} :
      MarkStatement s t sid (.unchanged status) (s.finish t (.mark sid (.returned status)))
  | updated (free : s.rowLocks sid = none) :
      MarkStatement s t sid .updateStatus ((s.lockRow t sid).goto t (.mark sid .commit))
  | committed :
      MarkStatement s t sid .commit
        ((s.withDb (s.db.completeSession sid)).finish t (.mark sid (.returned .completed)))

/-- What one label can do. -/
inductive Stepped (s : Store) : StoreAction → Store → Prop where
  | created {sid : SessionId} {agentId : AgentId} {metadata : Payload}
      (fresh : s.db.sessions sid = none) :
      Stepped s (.createSession sid agentId metadata)
        (s.withDb (s.db.insertSession sid agentId metadata))
  | refused {t : TxId} {call : EmitCall} {m : String} (fresh : s.txs t = none)
      (oversized : call.payload.byteLength > maxPayloadBytes) :
      Stepped s (.emitEvent t call) (s.goto t (.emit call (.raised (.validationError m))))
  | begun {t : TxId} {call : EmitCall} (fresh : s.txs t = none)
      (fits : call.payload.byteLength ≤ maxPayloadBytes) :
      Stepped s (.emitEvent t call) (s.goto t (.emit call .acquireSessionAdvisoryLock))
  | marking {t : TxId} {sid : SessionId} (fresh : s.txs t = none) :
      Stepped s (.markComplete t sid) (s.goto t (.mark sid .getSession))
  | emit {t : TxId} {call : EmitCall} {phase : EmitPhase} {s' : Store}
      (running : s.txs t = some (.emit call phase)) (moved : EmitStatement hash s t call phase s') :
      Stepped s (.statement t) s'
  | mark {t : TxId} {sid : SessionId} {phase : MarkPhase} {s' : Store}
      (running : s.txs t = some (.mark sid phase)) (moved : MarkStatement s t sid phase s') :
      Stepped s (.statement t) s'
  | aborted {t : TxId} {tx : Tx} (running : s.txs t = some tx) (open' : tx.ended = false) :
      Stepped s (.abort t) (s.finish t tx.abort)

variable {hash} in
theorem emitStatement_cases {s s' : Store} {t : TxId} {call : EmitCall} {phase : EmitPhase}
    (h : s.emitStatement hash t call phase = some s') : EmitStatement hash s t call phase s' := by
  cases phase with
  | acquireSessionAdvisoryLock =>
      cases free : s.locks (hash call.sessionId) with
      | none =>
          obtain rfl := by simpa [emitStatement, free] using h
          exact .acquired free
      | some t' => simp [emitStatement, free] at h
  | findEventById =>
      cases stored : s.db.findEventById call.sessionId call.eventId with
      | none =>
          obtain rfl := by simpa [emitStatement, stored] using h
          exact .missing stored
      | some event =>
          obtain rfl := by simpa [emitStatement, stored] using h
          exact .found stored
  | existing event =>
      obtain rfl := by simpa [emitStatement] using h
      exact .returnedExisting
  | loadSessionForEmit =>
      cases present : s.db.sessions call.sessionId with
      | none =>
          obtain rfl := by
            simpa [emitStatement, Database.loadSessionForEmit, Database.getSession, present,
              Except.map] using h
          exact .notFound present
      | some row =>
          by_cases active : row.status = .active
          · obtain rfl := by
              simpa [emitStatement, Database.loadSessionForEmit, Database.getSession, present,
                Except.map, active] using h
            exact .loaded present active
          · obtain rfl := by
              simpa [emitStatement, Database.loadSessionForEmit, Database.getSession, present,
                Except.map, active] using h
            exact .terminal present active
  | insertEvent newSequence =>
      simp only [emitStatement] at h
      split at h
      · cases h
      · split at h
        · obtain rfl := by simpa using h
          exact .violated (List.any_eq_true.mp (by assumption))
        · obtain rfl := by simpa using h
          exact .inserted
  | bumpSequence event =>
      cases free : s.rowLocks call.sessionId with
      | none =>
          obtain rfl := by simpa [emitStatement, free] using h
          exact .bumped free
      | some t' => simp [emitStatement, free] at h
  | commit event =>
      obtain rfl := by simpa [emitStatement] using h
      exact .committed
  | returned event => cases h
  | raised error => cases h
  | aborted => cases h

theorem markStatement_cases {s s' : Store} {t : TxId} {sid : SessionId} {phase : MarkPhase}
    (h : s.markStatement t sid phase = some s') : MarkStatement s t sid phase s' := by
  cases phase with
  | getSession =>
      cases present : s.db.sessions sid with
      | none =>
          obtain rfl := by simpa [markStatement, Database.getSession, present] using h
          exact .notFound present
      | some row =>
          by_cases active : row.status = .active
          · obtain rfl := by
              simpa [markStatement, Database.getSession, present, Session.isTerminal, active]
                using h
            exact .active present active
          · obtain rfl := by
              simpa [markStatement, Database.getSession, present, Session.isTerminal, active]
                using h
            exact .terminal present active
  | unchanged status =>
      obtain rfl := by simpa [markStatement] using h
      exact .returnedUnchanged
  | updateStatus =>
      cases free : s.rowLocks sid with
      | none =>
          obtain rfl := by simpa [markStatement, free] using h
          exact .updated free
      | some t' => simp [markStatement, free] at h
  | commit =>
      obtain rfl := by simpa [markStatement] using h
      exact .committed
  | returned status => cases h
  | raised error => cases h
  | aborted => cases h

variable {hash} in
/-- Inversion of the step function: everything one label can do. -/
theorem step_cases {s s' : Store} {a : StoreAction} (h : s.step hash a = some s') :
    Stepped hash s a s' := by
  cases a with
  | createSession sid agentId metadata =>
      cases fresh : s.db.sessions sid with
      | none =>
          obtain rfl := by simpa [step, fresh] using h
          exact .created fresh
      | some row => simp [step, fresh] at h
  | emitEvent t call =>
      cases fresh : s.txs t with
      | some tx => simp [step, fresh] at h
      | none =>
          by_cases oversized : call.payload.byteLength > maxPayloadBytes
          · obtain rfl := by simpa [step, fresh, EmitCall.checkPayload, oversized] using h
            exact .refused fresh oversized
          · obtain rfl := by simpa [step, fresh, EmitCall.checkPayload, oversized] using h
            exact .begun fresh (Nat.le_of_not_lt oversized)
  | markComplete t sid =>
      cases fresh : s.txs t with
      | some tx => simp [step, fresh] at h
      | none =>
          obtain rfl := by simpa [step, fresh] using h
          exact .marking fresh
  | statement t =>
      cases running : s.txs t with
      | none => simp [step, running] at h
      | some tx =>
          cases tx with
          | emit call phase =>
              exact .emit running (emitStatement_cases (by simpa [step, running] using h))
          | mark sid phase =>
              exact .mark running (markStatement_cases (by simpa [step, running] using h))
  | abort t =>
      cases running : s.txs t with
      | none => simp [step, running] at h
      | some tx =>
          cases open' : tx.ended with
          | true => simp [step, running, open'] at h
          | false =>
              obtain rfl := by simpa [step, running, open'] using h
              exact .aborted running open'

section Projections

variable (s : Store) (t : TxId) (tx : Tx)

@[simp] theorem goto_db : (s.goto t tx).db = s.db := rfl
@[simp] theorem goto_locks : (s.goto t tx).locks = s.locks := rfl
@[simp] theorem goto_rowLocks : (s.goto t tx).rowLocks = s.rowLocks := rfl
@[simp] theorem goto_uncommitted : (s.goto t tx).uncommitted = s.uncommitted := rfl
@[simp] theorem goto_txs : (s.goto t tx).txs = Function.update s.txs t (some tx) := rfl
@[simp] theorem finish_db : (s.finish t tx).db = s.db := rfl
@[simp] theorem finish_txs : (s.finish t tx).txs = Function.update s.txs t (some tx) := rfl
@[simp] theorem lock_db (key : Nat) : (s.lock t key).db = s.db := rfl
@[simp] theorem lock_rowLocks (key : Nat) : (s.lock t key).rowLocks = s.rowLocks := rfl
@[simp] theorem lock_uncommitted (key : Nat) : (s.lock t key).uncommitted = s.uncommitted := rfl
@[simp] theorem lock_txs (key : Nat) : (s.lock t key).txs = s.txs := rfl
@[simp] theorem lockRow_db (sid : SessionId) : (s.lockRow t sid).db = s.db := rfl
@[simp] theorem lockRow_locks (sid : SessionId) : (s.lockRow t sid).locks = s.locks := rfl
@[simp] theorem lockRow_uncommitted (sid : SessionId) :
    (s.lockRow t sid).uncommitted = s.uncommitted := rfl
@[simp] theorem lockRow_txs (sid : SessionId) : (s.lockRow t sid).txs = s.txs := rfl
@[simp] theorem insert_db (e : Event) : (s.insert t e).db = s.db := rfl
@[simp] theorem insert_locks (e : Event) : (s.insert t e).locks = s.locks := rfl
@[simp] theorem insert_rowLocks (e : Event) : (s.insert t e).rowLocks = s.rowLocks := rfl
@[simp] theorem insert_txs (e : Event) : (s.insert t e).txs = s.txs := rfl
@[simp] theorem withDb_db (db : Database) : (s.withDb db).db = db := rfl
@[simp] theorem withDb_locks (db : Database) : (s.withDb db).locks = s.locks := rfl
@[simp] theorem withDb_rowLocks (db : Database) : (s.withDb db).rowLocks = s.rowLocks := rfl
@[simp] theorem withDb_uncommitted (db : Database) :
    (s.withDb db).uncommitted = s.uncommitted := rfl
@[simp] theorem withDb_txs (db : Database) : (s.withDb db).txs = s.txs := rfl

theorem finish_locks_of_ne {key : Nat} {t' : TxId} (h : t' ≠ t) (held : s.locks key = some t') :
    (s.finish t tx).locks key = some t' := by
  simp [finish, held, h]

theorem finish_rowLocks_some {sid : SessionId} {t' : TxId}
    (held : (s.finish t tx).rowLocks sid = some t') : s.rowLocks sid = some t' ∧ t' ≠ t := by
  by_cases mine : s.rowLocks sid = some t
  · simp [finish, mine] at held
  · have held' : s.rowLocks sid = some t' := by simpa [finish, mine] using held
    exact ⟨held', fun same => mine (same ▸ held')⟩

theorem mem_finish_uncommitted {p : TxId × Event} :
    p ∈ (s.finish t tx).uncommitted ↔ p ∈ s.uncommitted ∧ p.1 ≠ t := by
  simp [finish]

end Projections

end Store

end Tename
